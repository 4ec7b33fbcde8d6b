import Mathlib

/-!
# Chains of checks

A validating function runs one check after the other and returns the first refusal.  `refuseIf` is
one check of such a chain; the lemmas read a chain that succeeded as the conjunction of what it
checked.
-/

namespace AgentWallet.Base.Checks

open List

variable {ε α β : Type}
  {e e' : ε} {a r : α} {x : Except ε α} {bad : Prop} {f : α → Except ε β} {l : List β}

/-- Refuses with `e` when `bad` holds. -/
def refuseIf (bad : Prop) [Decidable bad] (e : ε) : Except ε Unit :=
  if bad then .error e else .ok ()

@[simp] theorem refuseIf_eq_ok_iff [Decidable bad] {u : Unit} : refuseIf bad e = .ok u ↔ ¬ bad := by
  unfold refuseIf
  split_ifs with h <;> simp [h]

theorem bind_eq_ok_iff {r : β} : (x >>= f) = .ok r ↔ ∃ a, x = .ok a ∧ f a = .ok r := by
  cases x with
  | error e =>
    constructor
    · intro h
      cases h
    · rintro ⟨a, h, -⟩
      cases h
  | ok a =>
    constructor
    · exact fun h => ⟨a, rfl, h⟩
    · rintro ⟨a', ha, h⟩
      cases ha
      exact h

theorem bind_eq_error_iff :
    (x >>= f) = .error e ↔ x = .error e ∨ ∃ a, x = .ok a ∧ f a = .error e := by
  cases x with
  | error e' =>
    constructor
    · intro h
      exact .inl (congrArg Except.error (Except.error.inj h))
    · rintro (h | ⟨a, h, -⟩)
      · exact congrArg Except.error (Except.error.inj h)
      · cases h
  | ok a =>
    constructor
    · exact fun h => .inr ⟨a, rfl, h⟩
    · rintro (h | ⟨a', ha, h⟩)
      · cases h
      · cases ha
        exact h

theorem refuseIf_eq_error_iff [Decidable bad] : refuseIf bad e = .error e' ↔ bad ∧ e = e' := by
  unfold refuseIf
  split_ifs with h <;> simp [h]

/-- The value, or the error when there is none. -/
def okOr (x : Option α) (e : ε) : Except ε α :=
  match x with
  | some a => .ok a
  | none => .error e

@[simp] theorem okOr_eq_ok_iff {x : Option α} : okOr x e = .ok a ↔ x = some a := by
  cases x <;> simp [okOr]

theorem okOr_eq_error_iff {x : Option α} : okOr x e = .error e' ↔ x = none ∧ e = e' := by
  cases x <;> simp [okOr]

@[simp] theorem mapError_eq_ok_iff {ε' : Type} {f : ε → ε'} : x.mapError f = .ok a ↔ x = .ok a := by
  cases x <;> simp [Except.mapError]

theorem foldlM_invariant {f : α → β → Except ε α} {P : α → Prop}
    (hf : ∀ a, ∀ b ∈ l, ∀ a', P a → f a b = .ok a' → P a') (ha : P a) (h : l.foldlM f a = .ok r) :
    P r := by
  induction l generalizing a with
  | nil =>
    obtain rfl : a = r := Except.ok.inj h
    exact ha
  | cons b l ih =>
    rw [foldlM_cons] at h
    obtain ⟨a', hb, hl⟩ := bind_eq_ok_iff.mp h
    have ha' : P a' := hf a b mem_cons_self a' ha hb
    exact ih (fun c d hd => hf c d (mem_cons_of_mem _ hd)) ha' hl

theorem foldlM_prefix {f : α → β → Except ε α} {P : List β → α → Prop}
    (hf : ∀ done b a a', P done a → f a b = .ok a' → P (done ++ [b]) a') {done : List β}
    (ha : P done a) (h : l.foldlM f a = .ok r) : P (done ++ l) r := by
  induction l generalizing done a with
  | nil =>
    obtain rfl : a = r := Except.ok.inj h
    rwa [append_nil]
  | cons b l ih =>
    rw [foldlM_cons] at h
    obtain ⟨a', hb, hl⟩ := bind_eq_ok_iff.mp h
    have hl' := ih (hf done b a a' ha hb) hl
    rwa [append_assoc] at hl'

end AgentWallet.Base.Checks
