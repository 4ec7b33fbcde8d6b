import Mathlib

/-!
# Programs over a state

A program reads and changes a state, and answers or fails; a failure keeps the state it happened in.
`Triple P x Q E` says that from a state with `P` the program `x` leaves a state with `Q`, when it
answers, or with `E`, when it fails.  The rules follow the ways programs are put together.
-/

namespace AgentWallet.Base.Programs

variable {ε σ α β : Type} {s s' : σ} {a : α} {e : ε} {ν : Type}

/-- A program with failures in `ε` over states in `σ`. -/
abbrev Program (ε σ : Type) := ExceptT ε (StateM σ)

/-- The answer or the failure of a program, and the state it leaves. -/
def exec (x : Program ε σ α) (s : σ) : Except ε α × σ := x.run.run s

def final (x : Program ε σ α) (s : σ) : σ := (exec x s).2

theorem exec_pure (a : α) (s : σ) : exec (pure a : Program ε σ α) s = (.ok a, s) := rfl

theorem exec_get (s : σ) : exec (get : Program ε σ σ) s = (.ok s, s) := rfl

theorem exec_modify (f : σ → σ) (s : σ) : exec (modify f : Program ε σ Unit) s = (.ok (), f s) := rfl

theorem exec_bind (x : Program ε σ α) (f : α → Program ε σ β) (s : σ) : exec (x >>= f) s =
      match exec x s with
      | (.ok a, s') => exec (f a) s'
      | (.error e, s') => (.error e, s') := by
  unfold exec
  simp only [ExceptT.bind, ExceptT.mk, ExceptT.run, StateT.run, bind, StateT.bind]
  rcases x s with ⟨_ | a, s'⟩ <;> rfl

variable {f : α → Program ε σ β}

theorem exec_bind_ok {x : Program ε σ α} (h : exec x s = (.ok a, s')) :
    exec (x >>= f) s = exec (f a) s' := by
  rw [exec_bind, h]

theorem exec_bind_error {x : Program ε σ α} (h : exec x s = (.error e, s')) :
    exec (x >>= f) s = (.error e, s') := by
  rw [exec_bind, h]

theorem exec_bind_eq_ok_iff {x : Program ε σ α} {b : β} : exec (x >>= f) s = (.ok b, s') ↔
      ∃ a s₁, exec x s = (.ok a, s₁) ∧ exec (f a) s₁ = (.ok b, s') := by
  rcases hx : exec x s with ⟨e | a, s₁⟩
  · rw [exec_bind_error hx]
    simp
  · rw [exec_bind_ok hx]
    simp

theorem exec_bind_eq_error_iff {x : Program ε σ α} :
    exec (x >>= f) s = (.error e, s') ↔ exec x s = (.error e, s') ∨
      ∃ a s₁, exec x s = (.ok a, s₁) ∧ exec (f a) s₁ = (.error e, s') := by
  rcases hx : exec x s with ⟨e' | a, s₁⟩
  · rw [exec_bind_error hx]
    simp
  · rw [exec_bind_ok hx]
    simp

theorem exec_tryCatch (x : Program ε σ α) (y : ε → Program ε σ α) (s : σ) : exec (tryCatch x y) s =
      match exec x s with
      | (.ok a, s') => (.ok a, s')
      | (.error e, s') => exec (y e) s' := by
  show (ExceptT.tryCatch x y).run.run s = _
  unfold exec
  simp only [ExceptT.tryCatch, ExceptT.mk, ExceptT.run, StateT.run, bind, StateT.bind]
  rcases x s with ⟨_ | a, s'⟩ <;> rfl

/-- A check or a computation that leaves the state alone. -/
def lift (x : Except ε α) : Program ε σ α := ExceptT.mk (pure x)

theorem exec_lift (x : Except ε α) (s : σ) : exec (lift x : Program ε σ α) s = (x, s) := rfl

/-- A question to the surroundings.  The state is the history of what was asked, the answer may
depend on all of it, and both are added to it. -/
def ask {ν : Type} (answer : List ν → α) (event : α → ν) : Program ε (List ν) α := do
  let history ← get
  modify (· ++ [event (answer history)])
  return answer history

/-- From `P` the program answers with `Q` or fails with `E`. -/
def Triple (P : σ → Prop) (x : Program ε σ α) (Q : α → σ → Prop) (E : σ → Prop) : Prop :=
  ∀ s, P s → (∀ a, (exec x s).1 = .ok a → Q a (exec x s).2) ∧
    ∀ e, (exec x s).1 = .error e → E (exec x s).2

namespace Triple

variable {P P' : σ → Prop} {E : σ → Prop} {Q Q' : α → σ → Prop} {R : β → σ → Prop}
  {x : Program ε σ α}

theorem of_ok (h : exec x s = (.ok a, s')) (hs : Q a s') :
    (∀ a, (exec x s).1 = .ok a → Q a (exec x s).2) ∧
      ∀ e, (exec x s).1 = .error e → E (exec x s).2 := by
  rw [h]
  refine ⟨fun b hb => ?_, fun e he => ?_⟩
  · obtain rfl := Except.ok.inj hb
    exact hs
  · cases he

theorem of_error (h : exec x s = (.error e, s')) (hs : E s') :
    (∀ a, (exec x s).1 = .ok a → Q a (exec x s).2) ∧
      ∀ e, (exec x s).1 = .error e → E (exec x s).2 := by
  rw [h]
  refine ⟨fun b hb => ?_, fun _ _ => hs⟩
  cases hb

theorem of_exec (h : ∀ s, P s → (∃ a s', exec x s = (.ok a, s') ∧ Q a s') ∨
    ∃ e s', exec x s = (.error e, s') ∧ E s') : Triple P x Q E := by
  intro s hs
  rcases h s hs with ⟨a, s', hexec, hq⟩ | ⟨e, s', hexec, he⟩
  · exact of_ok hexec hq
  · exact of_error hexec he

section

variable (h : Triple P x Q E)
include h

theorem conseq (hP : ∀ s, P' s → P s) (hQ : ∀ a s, Q a s → Q' a s) : Triple P' x Q' E := by
  intro s hs
  obtain ⟨hok, herr⟩ := h s (hP s hs)
  exact ⟨fun a ha => hQ a _ (hok a ha), herr⟩

theorem pre (hP : ∀ s, P' s → P s) : Triple P' x Q E :=
  h.conseq hP fun _ _ hq => hq

theorem post (hQ : ∀ a s, Q a s → Q' a s) : Triple P x Q' E :=
  h.conseq (fun _ hs => hs) hQ

theorem fails {E' : σ → Prop} (hE : ∀ s, E s → E' s) : Triple P x Q E' :=
  fun s hs => ⟨(h s hs).1, fun e he => hE _ ((h s hs).2 e he)⟩

end

theorem of_states (h : ∀ s, P s → Triple (fun s' => s' = s) x Q E) : Triple P x Q E :=
  fun s hs => h s hs s rfl

theorem pure_rule (h : ∀ s, P s → Q a s) : Triple P (pure a : Program ε σ α) Q E := by
  intro s hs
  refine ⟨fun b hb => ?_, fun e he => ?_⟩
  · obtain rfl : a = b := Except.ok.inj hb
    exact h s hs
  · cases he

theorem throw_rule (h : ∀ s, P s → E s) : Triple P (throw e : Program ε σ α) Q E := by
  intro s hs
  refine ⟨fun b hb => ?_, fun _ _ => h s hs⟩
  cases hb

theorem modify_rule {f : σ → σ} {Q : Unit → σ → Prop} (h : ∀ s, P s → Q () (f s)) :
    Triple P (modify f : Program ε σ Unit) Q E := by
  intro s hs
  refine ⟨fun _ _ => h s hs, fun e he => ?_⟩
  cases he

theorem bind_rule (hx : Triple P x Q E) (hf : ∀ a, Triple (Q a) (f a) R E) :
    Triple P (x >>= f) R E := by
  intro s hs
  obtain ⟨hok, herr⟩ := hx s hs
  rw [exec_bind]
  rcases hexec : exec x s with ⟨_ | a, s'⟩
  · rw [hexec] at herr
    refine ⟨fun _ hb => ?_, fun _ _ => herr _ rfl⟩
    cases hb
  · rw [hexec] at hok
    exact hf a s' (hok a rfl)

theorem try_rule {y : ε → Program ε σ α} {C : σ → Prop} (hx : Triple P x Q C)
    (hy : ∀ e, Triple C (y e) Q E) : Triple P (tryCatch x y) Q E := by
  intro s hs
  obtain ⟨hok, herr⟩ := hx s hs
  rw [exec_tryCatch]
  rcases hexec : exec x s with ⟨e | a, s'⟩
  · rw [hexec] at herr
    exact hy e s' (herr e rfl)
  · rw [hexec] at hok
    refine ⟨fun b hb => ?_, fun e he => ?_⟩
    · obtain rfl : a = b := Except.ok.inj hb
      exact hok a rfl
    · cases he

theorem get_bind_rule {f : σ → Program ε σ β} (h : ∀ s, P s → Triple (fun s' => s' = s) (f s) R E) :
    Triple P (get >>= f) R E := by
  intro s hs
  exact h s hs s rfl

theorem lift_bind_rule {x : Except ε α} (hE : ∀ s, P s → E s)
    (hf : ∀ a, x = .ok a → Triple P (f a) R E) : Triple P (lift x >>= f) R E := by
  intro s hs
  rcases hx : x with e | a
  · exact of_error rfl (hE s hs)
  · exact hf a hx s hs

theorem lift_rule {x : Except ε α} (hE : ∀ s, P s → E s) (hQ : ∀ a s, x = .ok a → P s → Q a s) :
    Triple P (lift x : Program ε σ α) Q E := by
  intro s hs
  exact ⟨fun a ha => hQ a s ha hs, fun _ _ => hE s hs⟩

theorem foldlM_rule {l : List β} {f : α → β → Program ε σ α} {I : σ → Prop}
    (hf : ∀ a, ∀ b ∈ l, Triple I (f a b) (fun _ => I) E) (a : α) :
    Triple I (l.foldlM f a) (fun _ => I) E := by
  induction l generalizing a with
  | nil => exact pure_rule fun _ hs => hs
  | cons b l ih =>
    refine bind_rule (hf a b List.mem_cons_self) fun a' => ?_
    exact ih (fun c d hd => hf c d (List.mem_cons_of_mem _ hd)) a'

theorem final (h : Triple P x (fun _ => E) E) (hs : P s) : E (final x s) := by
  obtain ⟨hok, herr⟩ := h s hs
  rcases hexec : (exec x s).1 with e | a
  · exact herr e hexec
  · exact hok a hexec

end Triple

end AgentWallet.Base.Programs
