import Mathlib

/-!
# Positions on a line of segments

Segments of lengths `len 0`, `len 1`, … follow each other.  `Located len n i r` says that position
`n` is `r` steps into segment `i`, and `locate` finds the segment by subtracting one length after
the other.
-/

namespace AgentWallet.Base.Segments

variable {len : ℕ → ℕ} {n m i j r s : ℕ} {fuel : ℕ}

/-- Where segment `i` starts. -/
def start (len : ℕ → ℕ) (i : ℕ) : ℕ := ∑ k ∈ Finset.range i, len k

theorem start_succ (i : ℕ) : start len (i + 1) = start len i + len i :=
  Finset.sum_range_succ _ _

theorem start_mono (h : i ≤ j) : start len i ≤ start len j :=
  Finset.sum_le_sum_of_subset (Finset.range_mono h)

/-- Position `n` is `r` steps into segment `i`. -/
structure Located (len : ℕ → ℕ) (n i r : ℕ) : Prop where
  eq : n = start len i + r
  within : r < len i

theorem Located.lt_of_lt_start (h : Located len n i r) (hn : n < start len j) : i < j := by
  by_contra hij
  have hmono : start len j ≤ start len i := start_mono (not_lt.1 hij)
  have heq := h.eq
  omega

/-- The segment a position falls in and the rest, from segment `i` on, in at most `fuel` steps. -/
def locate (len : ℕ → ℕ) : ℕ → ℕ → ℕ → ℕ × ℕ
  | 0, i, n => (i, n)
  | fuel + 1, i, n => if n < len i then (i, n) else locate len fuel (i + 1) (n - len i)

theorem located_locate (h : start len i + n < start len (i + fuel)) :
    Located len (start len i + n) (locate len fuel i n).1 (locate len fuel i n).2 := by
  induction fuel generalizing i n with
  | zero => exact absurd h (by simp)
  | succ fuel ih =>
    unfold locate
    split_ifs with hlt
    · exact ⟨rfl, hlt⟩
    · have hsucc : start len (i + 1) = start len i + len i := start_succ i
      have heq : start len i + n = start len (i + 1) + (n - len i) := by omega
      rw [heq]
      apply ih
      rwa [← heq, Nat.add_right_comm]

theorem located_locate_zero (h : n < start len fuel) :
    Located len n (locate len fuel 0 n).1 (locate len fuel 0 n).2 := by
  have hzero : start len 0 + n = n := by simp [start]
  have hloc : start len 0 + n < start len (0 + fuel) →
      Located len (start len 0 + n) (locate len fuel 0 n).1 (locate len fuel 0 n).2 := located_locate
  rw [hzero, Nat.zero_add] at hloc
  exact hloc h

theorem le_start (hpos : ∀ k, 0 < len k) (i : ℕ) : i ≤ start len i := by
  induction i with
  | zero => exact Nat.zero_le _
  | succ i ih =>
    have hi := hpos i
    rw [start_succ]
    omega

end AgentWallet.Base.Segments
