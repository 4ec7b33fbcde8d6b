import AgentWallet.Base.Runs

/-!
# Interleaved calls

Processes share a state; each is in a phase of a call.  One action of one process changes the shared
state and its own phase (`act`), and a schedule says which process acts next and what its
surroundings answer.
-/

namespace AgentWallet.Base.Interleaving

open Base.Runs

/-- The shared state, and the phase of every process. -/
structure Config (σ φ : Type) where
  shared : σ
  phase : ℕ → φ

variable {σ φ α : Type} (act : σ → φ → α → σ × φ)

def advance (c : Config σ φ) (e : ℕ × α) : Config σ φ :=
  ⟨(act c.shared (c.phase e.1) e.2).1,
    Function.update c.phase e.1 (act c.shared (c.phase e.1) e.2).2⟩

/-- An invariant of the shared state, an assertion for every phase, and a relation between the
phases of two processes. -/
structure Inv (I : σ → Prop) (J : σ → φ → Prop) (R : φ → φ → Prop) (c : Config σ φ) : Prop where
  shared : I c.shared
  phase : ∀ i, J c.shared (c.phase i)
  apart : ∀ i j, i ≠ j → R (c.phase i) (c.phase j)

/-- A condition on the action, in the shared state and the phase it is made in. -/
def Meets (ok : σ → φ → α → Prop) (c : Config σ φ) (e : ℕ × α) : Prop :=
  ok c.shared (c.phase e.1) e.2

variable {act} {I : σ → Prop} {J : σ → φ → Prop} {R : φ → φ → Prop} {ok : σ → φ → α → Prop}

section

variable (hR : ∀ p q, R p q → R q p)
  (hown : ∀ s p a, I s → J s p → ok s p a → I (act s p a).1 ∧ J (act s p a).1 (act s p a).2)
  (hothers : ∀ s p a q, I s → J s p → J s q → R p q → ok s p a → J (act s p a).1 q ∧
    R (act s p a).2 q)
include hR hown hothers

/-- **One action.** -/
theorem advance_inv (c : Config σ φ) (e : ℕ × α) (h : Inv I J R c) (hok : Meets ok c e) :
    Inv I J R (advance act c e) := by
  obtain ⟨hI, hJ⟩ := hown _ _ _ h.shared (h.phase e.1) hok
  have hrest : ∀ i, i ≠ e.1 → J (advance act c e).shared (c.phase i) ∧
      R (act c.shared (c.phase e.1) e.2).2 (c.phase i) := fun i hi =>
    hothers _ _ _ _ h.shared (h.phase e.1) (h.phase i) (h.apart _ _ (Ne.symm hi)) hok
  have hself : (advance act c e).phase e.1 = (act c.shared (c.phase e.1) e.2).2 :=
    Function.update_self ..
  have hother : ∀ i, i ≠ e.1 → (advance act c e).phase i = c.phase i := fun i hi =>
    Function.update_of_ne hi ..
  refine ⟨hI, fun i => ?_, fun i j hij => ?_⟩
  · by_cases hi : i = e.1
    · rw [hi, hself]
      exact hJ
    · rw [hother i hi]
      exact (hrest i hi).1
  · by_cases hi : i = e.1
    · rw [hi, hself, hother j (hi ▸ Ne.symm hij)]
      exact (hrest j (hi ▸ Ne.symm hij)).2
    · by_cases hj : j = e.1
      · rw [hj, hself, hother i hi]
        exact hR _ _ (hrest i hi).2
      · rw [hother i hi, hother j hj]
        exact h.apart i j hij

/-- **Every schedule.** -/
theorem run_inv {c : Config σ φ} (h : Inv I J R c) (schedule : List (ℕ × α))
    (hok : Along (advance act) (Meets ok) c schedule) : Inv I J R (run (advance act) c schedule) :=
  run_invariant_along (advance_inv hR hown hothers) schedule c h hok

end

end AgentWallet.Base.Interleaving
