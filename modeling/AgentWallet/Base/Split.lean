import Mathlib

/-!
# Splitting at a separator

`splitOn` gives the segments between separators, `splitOnce` cuts at the first one and `before` at
the first occurrence of a pattern.  `covered n` keeps the segments that lie whole within the first
`n` symbols; two texts that agree there have the same ones (`take_splitOn_eq`).
-/

namespace AgentWallet.Base.Split

open List

variable {α : Type} [DecidableEq α] {sep : α} {l m s t : List α} {n k : ℕ} {rest : List (List α)}

def splitOn (sep : α) : List α → List (List α)
  | [] => [[]]
  | a :: l =>
    if a = sep then [] :: splitOn sep l
    else
      match splitOn sep l with
      | [] => [[a]]
      | s :: rest => (a :: s) :: rest

/-- What is before and behind the first separator. -/
def splitOnce (sep : α) : List α → Option (List α × List α)
  | [] => none
  | a :: l => if a = sep then some ([], l) else (splitOnce sep l).map fun p => (a :: p.1, p.2)

/-- What is before the first occurrence of a pattern. -/
def before (pat : List α) : List α → Option (List α)
  | [] => if pat = [] then some [] else none
  | a :: l => if pat.isPrefixOf (a :: l) then some [] else (before pat l).map (a :: ·)

/-- The segments that lie whole within the first `n` symbols. -/
def covered : ℕ → List (List α) → List (List α)
  | _, [] => []
  | n, s :: rest =>
    if s.length < n then s :: covered (n - s.length - 1) rest
    else if s.length = n then [s]
    else []

theorem splitOn_eq_cons (sep : α) (l : List α) : ∃ s rest, splitOn sep l = s :: rest := by
  cases l with
  | nil => exact ⟨[], [], rfl⟩
  | cons a l =>
    unfold splitOn
    split_ifs
    · exact ⟨_, _, rfl⟩
    · split <;> exact ⟨_, _, rfl⟩

/-- **The first segment** is everything, or ends at the first separator. -/
theorem splitOn_cases (sep : α) (l : List α) : sep ∉ l ∧ splitOn sep l = [l] ∨
      ∃ s l', l = s ++ sep :: l' ∧ sep ∉ s ∧ splitOn sep l = s :: splitOn sep l' := by
  induction l with
  | nil => exact .inl ⟨not_mem_nil, rfl⟩
  | cons a l ih =>
    by_cases ha : a = sep
    · subst ha
      exact .inr ⟨[], l, rfl, not_mem_nil, by rw [splitOn, if_pos rfl]⟩
    · rcases ih with ⟨hl, heq⟩ | ⟨s, l', rfl, hs, heq⟩
      · refine .inl ⟨fun h => ?_, by rw [splitOn, if_neg ha, heq]⟩
        rcases mem_cons.1 h with h | h
        · exact ha h.symm
        · exact hl h
      · refine .inr ⟨a :: s, l', rfl, fun h => ?_, by rw [splitOn, if_neg ha, heq]⟩
        rcases mem_cons.1 h with h | h
        · exact ha h.symm
        · exact hs h

/-- A first segment within the first `n` symbols is not longer than that of a text that agrees on
them. -/
theorem length_le_of_take_eq {rest' : List (List α)} (hl : splitOn sep l = s :: rest)
    (hm : splitOn sep m = t :: rest') (htake : l.take n = m.take n) (ht : t.length ≤ n) :
    t.length ≤ s.length := by
  by_contra hlt
  rw [Nat.not_le] at hlt
  have hsame : ∀ i, i < t.length → l[i]? = m[i]? := fun i hi => by
    have hget := congrArg (fun x => x[i]?) htake
    simpa [List.getElem?_take, Nat.lt_of_lt_of_le hi ht] using hget
  have htm : ∀ i, i < t.length → m[i]? = t[i]? := fun i hi => by
    rcases splitOn_cases sep m with ⟨-, heq⟩ | ⟨t', m', rfl, -, heq⟩
    · rw [hm, List.cons.injEq] at heq
      rw [heq.1]
    · rw [hm, List.cons.injEq] at heq
      rw [← heq.1, List.getElem?_append_left hi]
  have hsep : sep ∉ t := by
    rcases splitOn_cases sep m with ⟨hnot, heq⟩ | ⟨t', m', -, hnot, heq⟩
    all_goals
      rw [hm, List.cons.injEq] at heq
      rw [heq.1]
      exact hnot
  have hget := (hsame s.length hlt).trans (htm s.length hlt)
  rcases splitOn_cases sep l with ⟨-, heq⟩ | ⟨s', l', rfl, -, heq⟩
  · rw [hl, List.cons.injEq] at heq
    rw [← heq.1, List.getElem?_eq_none le_rfl, List.getElem?_eq_getElem hlt] at hget
    cases hget
  · rw [hl, List.cons.injEq] at heq
    obtain rfl := heq.1
    rw [List.getElem?_append_right le_rfl, Nat.sub_self] at hget
    exact hsep (mem_of_getElem? hget.symm)

omit [DecidableEq α] in
theorem covered_cons_le (h : k + 1 ≤ (covered n (s :: rest)).length) : s.length ≤ n := by
  unfold covered at h
  split_ifs at h with hlt heq
  · exact hlt.le
  · exact heq.le
  · exact absurd h (by simp)

omit [DecidableEq α] in
theorem covered_cons_tail (h : k + 2 ≤ (covered n (s :: rest)).length) :
    s.length < n ∧ k + 1 ≤ (covered (n - s.length - 1) rest).length := by
  unfold covered at h
  split_ifs at h with hlt
  · exact ⟨hlt, by simpa using h⟩
  · exact absurd h (by simp)
  · exact absurd h (by simp)

/-- **Texts that agree on their first symbols** agree on the segments that both have there. -/
theorem take_splitOn_eq : ∀ {k n : ℕ} {l m : List α}, l.take n = m.take n →
    k ≤ (covered n (splitOn sep l)).length → k ≤ (covered n (splitOn sep m)).length →
    (splitOn sep l).take k = (splitOn sep m).take k
  | 0, _, _, _, _, _, _ => by rw [take_zero, take_zero]
  | k + 1, n, l, m, htake, hl, hm => by
    obtain ⟨s, rest, hsl⟩ := splitOn_eq_cons sep l
    obtain ⟨t, rest', hsm⟩ := splitOn_eq_cons sep m
    rw [hsl] at hl
    rw [hsm] at hm
    have hs := covered_cons_le hl
    have ht := covered_cons_le hm
    have hlength : s.length = t.length :=
      le_antisymm (length_le_of_take_eq hsm hsl htake.symm hs)
        (length_le_of_take_eq hsl hsm htake ht)
    have hhead : ∀ {x : List α} {y : List α} {ys : List (List α)}, splitOn sep x = y :: ys →
        y.length ≤ n → y = (x.take n).take y.length := by
      intro x y ys hx hy
      rw [take_take, min_eq_left hy]
      rcases splitOn_cases sep x with ⟨-, heq⟩ | ⟨y', x', rfl, -, heq⟩
      · rw [hx, List.cons.injEq] at heq
        rw [← heq.1, take_length]
      · rw [hx, List.cons.injEq] at heq
        rw [heq.1, take_left' rfl]
    have hst : s = t := by
      rw [hhead hsl hs, hhead hsm ht, htake, hlength]
    subst hst
    rw [hsl, hsm, take_succ_cons, take_succ_cons]
    rcases k with _ | k
    · rw [take_zero, take_zero]
    obtain ⟨hlt, hl⟩ := covered_cons_tail hl
    obtain ⟨-, hm⟩ := covered_cons_tail hm
    -- both texts go on behind a separator
    have hnext : ∀ {x : List α} {ys : List (List α)}, splitOn sep x = s :: ys →
        k + 1 ≤ (covered (n - s.length - 1) ys).length →
        ∃ x', x = s ++ sep :: x' ∧ ys = splitOn sep x' := by
      intro x ys hx hys
      rcases splitOn_cases sep x with ⟨-, heq⟩ | ⟨y', x', rfl, -, heq⟩
      · rw [hx, List.cons.injEq] at heq
        rw [heq.2] at hys
        exact absurd hys (by simp [covered])
      · rw [hx, List.cons.injEq] at heq
        exact ⟨x', by rw [heq.1], heq.2⟩
    obtain ⟨l', rfl, rfl⟩ := hnext hsl hl
    obtain ⟨m', rfl, rfl⟩ := hnext hsm hm
    have htake' : l'.take (n - s.length - 1) = m'.take (n - s.length - 1) := by
      have hbehind : ∀ y : List α, (s ++ sep :: y).drop (s.length + 1) = y := fun y => by
        rw [append_cons, drop_left' (by simp)]
      have hdrop := congrArg (List.drop (s.length + 1)) htake
      rw [drop_take, drop_take, hbehind, hbehind] at hdrop
      rwa [← Nat.sub_sub] at hdrop
    rw [take_splitOn_eq htake' hl hm]

theorem exists_of_before {pat : List α} : ∀ {l p : List α}, before pat l = some p →
    ∃ rest, l = p ++ (pat ++ rest)
  | [], p, h => by
    unfold before at h
    split_ifs at h with hpat
    obtain rfl := Option.some.inj h
    exact ⟨[], by rw [hpat]; rfl⟩
  | a :: l, p, h => by
    unfold before at h
    split_ifs at h with hpat
    · obtain rfl := Option.some.inj h
      have hstart : pat <+: a :: l := by simpa using hpat
      obtain ⟨rest, hrest⟩ := hstart
      exact ⟨rest, hrest.symm⟩
    · obtain ⟨p', hp', rfl⟩ := Option.map_eq_some_iff.1 h
      obtain ⟨rest, rfl⟩ := exists_of_before hp'
      exact ⟨rest, rfl⟩

theorem splitOnce_eq_some {q : List α} : ∀ {l p : List α}, splitOnce sep l = some (p, q) →
    l = p ++ sep :: q ∧ sep ∉ p
  | [], p, h => by cases h
  | a :: l, p, h => by
    unfold splitOnce at h
    split_ifs at h with ha
    · obtain ⟨rfl, rfl⟩ := Prod.mk.inj (Option.some.inj h)
      exact ⟨by rw [ha]; rfl, not_mem_nil⟩
    · obtain ⟨⟨p', q'⟩, hp', heq⟩ := Option.map_eq_some_iff.1 h
      obtain ⟨rfl, rfl⟩ := Prod.mk.inj heq
      obtain ⟨rfl, hnot⟩ := splitOnce_eq_some hp'
      refine ⟨rfl, fun hmem => ?_⟩
      rcases mem_cons.1 hmem with h | h
      · exact ha h.symm
      · exact hnot h

end AgentWallet.Base.Split
