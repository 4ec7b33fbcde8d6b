import Mathlib

/-!
# Saturating arithmetic

Fixed-width machine arithmetic that clamps at the ends of its range instead of wrapping.  A signed
type with values `lo … hi` is modelled on `ℤ` (`satAdd lo hi`), an unsigned type with values
`0 … hi` on `ℕ` (`usatAdd hi`, `usatMul hi`; unsigned saturating subtraction is the truncated
subtraction of `ℕ`).
-/

namespace AgentWallet.Base.Saturating

open List

variable {a b M : ℤ}

/-- `a.saturating_add(b)` on the signed type with range `lo … hi`. -/
def satAdd (lo hi a b : ℤ) : ℤ := max lo (min (a + b) hi)

/-- `a.saturating_add(b)` on the unsigned type with range `0 … hi`. -/
def usatAdd (hi a b : ℕ) : ℕ := min (a + b) hi

/-- `a.saturating_mul(b)` on the unsigned type with range `0 … hi`. -/
def usatMul (hi a b : ℕ) : ℕ := min (a * b) hi

/-- `a.checked_add(b)` on the unsigned type with range `0 … hi`. -/
def checkedAdd (hi a b : ℕ) : Option ℕ := if a + b ≤ hi then some (a + b) else none

/-- `a.checked_mul(b)` on the unsigned type with range `0 … hi`. -/
def checkedMul (hi a b : ℕ) : Option ℕ := if a * b ≤ hi then some (a * b) else none

/-- `u32::MAX`. -/
def u32Max : ℕ := 2 ^ 32 - 1

/-- `u64::MAX`. -/
def u64Max : ℕ := 2 ^ 64 - 1

/-- `i128::MAX`. -/
def i128Max : ℤ := 2 ^ 127 - 1

/-- `i128::MIN`. -/
def i128Min : ℤ := -2 ^ 127

/-- `i64::MAX`. -/
def i64Max : ℤ := 2 ^ 63 - 1

/-- `i64::MIN`. -/
def i64Min : ℤ := -2 ^ 63

/-- `i64::saturating_add`. -/
def addI64 (a b : ℤ) : ℤ := satAdd i64Min i64Max a b

/-- `i64::saturating_sub`. -/
def subI64 (a b : ℤ) : ℤ := satAdd i64Min i64Max a (-b)

/-- `i128::saturating_add`. -/
def addI128 (a b : ℤ) : ℤ := satAdd i128Min i128Max a b

/-- `u32::saturating_add`. -/
def addU32 (a b : ℕ) : ℕ := usatAdd u32Max a b

/-- `u64::saturating_add`. -/
def addU64 (a b : ℕ) : ℕ := usatAdd u64Max a b

/-- `u64::saturating_mul`. -/
def mulU64 (a b : ℕ) : ℕ := usatMul u64Max a b

/-! ### Signed addition -/

variable {lo hi : ℤ}

theorem satAdd_le_iff (hlo : lo ≤ M) (hM : M < hi) (a b : ℤ) :
    satAdd lo hi a b ≤ M ↔ a + b ≤ M := by
  unfold satAdd; omega

theorem satAdd_eq_min (hlo : lo ≤ 0) (ha : 0 ≤ a) (hb : 0 ≤ b) (hhi : 0 ≤ hi) :
    satAdd lo hi a b = min (a + b) hi := by
  unfold satAdd; omega

theorem satAdd_min_min (hlo : lo ≤ 0) (hhi : 0 ≤ hi) (ha : 0 ≤ a) (hb : 0 ≤ b) :
    satAdd lo hi (min a hi) (min b hi) = min (a + b) hi := by
  unfold satAdd; omega

/-- **A saturating accumulator of non-negative summands is the capped sum.** -/
theorem foldl_satAdd (hlo : lo ≤ 0) : ∀ (xs : List ℤ) (acc : ℤ), (∀ x ∈ xs, 0 ≤ x) → 0 ≤ acc →
    acc ≤ hi → xs.foldl (satAdd lo hi) acc = min (acc + xs.sum) hi
  | [], acc, _, _, hle => by simp [hle]
  | x :: xs, acc, hx, h0, hle => by
    have hx0 : 0 ≤ x := hx x mem_cons_self
    have hstep : satAdd lo hi acc x = min (acc + x) hi :=
      satAdd_eq_min hlo h0 hx0 (by omega)
    have hxs : ∀ y ∈ xs, 0 ≤ y := fun y hy => hx y (mem_cons_of_mem _ hy)
    have hsum : 0 ≤ xs.sum := List.sum_nonneg hxs
    rw [foldl_cons, foldl_satAdd hlo xs _ hxs (by omega) (by omega), hstep, sum_cons]
    omega

theorem add_add_le_of_satAdd_le (hlo : lo ≤ 0) (hhi : 0 ≤ hi) {c a' b' c' : ℤ} (ha : 0 ≤ a)
    (hb : 0 ≤ b) (hc : 0 ≤ c) (ha' : min a hi ≤ a') (hb' : min b hi ≤ b') (hc' : min c hi ≤ c')
    (h : satAdd lo hi (satAdd lo hi a' b') c' ≤ M) (hM : M < hi) : a + b + c ≤ M := by
  unfold satAdd at h; omega

/-! ### Unsigned addition -/

/-- **A saturating unsigned accumulator is the capped sum.** -/
theorem foldl_usatAdd (hi : ℕ) : ∀ (xs : List ℕ) (acc : ℕ), acc ≤ hi →
    xs.foldl (usatAdd hi) acc = min (acc + xs.sum) hi
  | [], acc, hle => by simp [hle]
  | x :: xs, acc, hle => by
    have hstep : usatAdd hi acc x ≤ hi := by unfold usatAdd; omega
    rw [foldl_cons, foldl_usatAdd hi xs _ hstep, sum_cons]
    unfold usatAdd
    omega

theorem usatAdd_min_min (hi a b : ℕ) : usatAdd hi (min a hi) (min b hi) = min (a + b) hi := by
  unfold usatAdd; omega

theorem add_lt_of_usatAdd_lt {hi a b a' b' n : ℕ} (ha : min a hi ≤ a') (hb : min b hi ≤ b')
    (h : usatAdd hi a' b' < n) (hn : n ≤ hi) : a + b < n := by
  unfold usatAdd at h; omega

/-! ### The machine types -/

theorem foldl_addI128 {xs : List ℤ} (h : ∀ x ∈ xs, 0 ≤ x) :
    xs.foldl addI128 0 = min xs.sum i128Max := by
  have hfold := foldl_satAdd (show i128Min ≤ 0 by decide) xs 0 h le_rfl (show 0 ≤ i128Max by decide)
  rw [zero_add] at hfold
  exact hfold

theorem foldl_addU32 (xs : List ℕ) : xs.foldl addU32 0 = min xs.sum u32Max := by
  have hfold := foldl_usatAdd u32Max xs 0 (Nat.zero_le _)
  rw [zero_add] at hfold
  exact hfold

end AgentWallet.Base.Saturating
