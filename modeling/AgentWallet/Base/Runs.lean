import Mathlib

/-!
# Runs of a state machine

A deterministic machine is a step function `σ → α → σ`.  `run` folds it over a list of operations;
`run_invariant` is the one induction every whole-run property of such a machine needs: what holds
initially and survives every step holds after every run.
-/

namespace AgentWallet.Base.Runs

open List

variable {σ α : Type*} {step : σ → α → σ} {ok : σ → α → Prop} {P : σ → Prop}

def run (step : σ → α → σ) (s : σ) (ops : List α) : σ := ops.foldl step s

@[simp] theorem run_cons (s : σ) (a : α) (ops : List α) :
    run step s (a :: ops) = run step (step s a) ops := rfl

theorem run_append (s : σ) (xs ys : List α) :
    run step s (xs ++ ys) = run step (run step s xs) ys := foldl_append

/-- Every operation of the run meets `ok` in the state it is applied to. -/
def Along (step : σ → α → σ) (ok : σ → α → Prop) : σ → List α → Prop
  | _, [] => True
  | s, a :: ops => ok s a ∧ Along step ok (step s a) ops

/-- **The invariant rule**, along runs whose steps meet a condition. -/
theorem run_invariant_along (hstep : ∀ s a, P s → ok s a → P (step s a)) :
    ∀ (ops : List α) (s : σ), P s → Along step ok s ops → P (run step s ops)
  | [], _, h, _ => h
  | a :: ops, s, h, hok => run_invariant_along hstep ops (step s a) (hstep s a h hok.1) hok.2

theorem along_of_forall {ok : α → Prop} : ∀ (ops : List α) (s : σ), (∀ a ∈ ops, ok a) →
    Along step (fun _ a => ok a) s ops
  | [], _, _ => trivial
  | a :: ops, s, h => ⟨h a mem_cons_self,
      along_of_forall ops (step s a) fun b hb => h b (mem_cons_of_mem _ hb)⟩

theorem along_of_states : ∀ (ops : List α) (s : σ),
    (∀ before a after, ops = before ++ a :: after → ok (run step s before) a) → Along step ok s ops
  | [], _, _ => trivial
  | a :: ops, s, h => by
    refine ⟨h [] a ops rfl, along_of_states ops (step s a) fun before b after heq => ?_⟩
    exact h (a :: before) b after (by rw [heq, cons_append])

theorem Along.left : ∀ {xs ys : List α} {s : σ}, Along step ok s (xs ++ ys) → Along step ok s xs
  | [], _, _, _ => trivial
  | _ :: _, _, _, h => ⟨h.1, Along.left h.2⟩

theorem Along.right {xs ys : List α} {s : σ} (h : Along step ok s (xs ++ ys)) :
    Along step ok (run step s xs) ys := by
  induction xs generalizing s with
  | nil => exact h
  | cons x xs ih => exact ih h.2

theorem Along.concat : ∀ {xs : List α} {s : σ} {x : α},
    Along step ok s xs → ok (run step s xs) x → Along step ok s (xs ++ [x])
  | [], _, _, _, hx => ⟨hx, trivial⟩
  | _ :: _, _, _, h, hx => ⟨h.1, h.2.concat hx⟩

/-- **The invariant rule** for a condition on the operations alone. -/
theorem run_invariant {ok : α → Prop} (hstep : ∀ s a, P s → ok a → P (step s a)) (ops : List α)
    (s : σ) (h : P s) (hok : ∀ a ∈ ops, ok a) : P (run step s ops) :=
  run_invariant_along hstep ops s h (along_of_forall ops s hok)

end AgentWallet.Base.Runs
