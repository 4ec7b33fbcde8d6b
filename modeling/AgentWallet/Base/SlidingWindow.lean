import Mathlib

/-!
# Sliding windows

A window is a list of charges.  Each charge has a weight and is *live* at some instants; the
window's `usage` at an instant is the total weight of the charges live then.  Liveness is *fading*
when a charge that is live at an instant was live at every earlier one.
-/

namespace AgentWallet.Base.SlidingWindow

open List

variable {τ α M : Type*} [AddCommMonoid M] {live : τ → α → Bool} {w : α → M} {l l' : List α} {t : τ}

/-- The total weight of the charges live at the instant `t`. -/
def usage (live : τ → α → Bool) (w : α → M) (t : τ) (l : List α) : M :=
  ((l.filter (live t)).map w).sum

theorem usage_append (t : τ) (l l' : List α) :
    usage live w t (l ++ l') = usage live w t l + usage live w t l' := by
  simp [usage]

theorem usage_perm (h : l.Perm l') (t : τ) : usage live w t l = usage live w t l' :=
  ((h.filter _).map w).sum_eq

/-! ### Dropping and replacing charges -/

variable [PartialOrder M] [IsOrderedAddMonoid M]

theorem sum_map_le_of_sublist (h : l.Sublist l') (hw : ∀ a ∈ l', 0 ≤ w a) :
    (l.map w).sum ≤ (l'.map w).sum := by
  refine (h.map w).sum_le_sum fun x hx => ?_
  obtain ⟨a, ha, rfl⟩ := mem_map.1 hx
  exact hw a ha

theorem usage_le_total (hw : ∀ a ∈ l, 0 ≤ w a) (t : τ) : usage live w t l ≤ (l.map w).sum :=
  sum_map_le_of_sublist filter_sublist hw

theorem usage_le_of_sublist (h : l.Sublist l') (hw : ∀ a ∈ l', 0 ≤ w a) (t : τ) :
    usage live w t l ≤ usage live w t l' :=
  sum_map_le_of_sublist (h.filter _) fun a ha => hw a (mem_of_mem_filter ha)

theorem usage_map_le {f : α → α} (hw : ∀ a ∈ l, 0 ≤ w a) (hwf : ∀ a ∈ l, w (f a) = w a)
    (hlive : ∀ a ∈ l, live t (f a) = true → live t a = true) :
    usage live w t (l.map f) ≤ usage live w t l := by
  induction l with
  | nil => simp [usage]
  | cons a l ih =>
    have ih' := ih (fun b hb => hw b (mem_cons_of_mem _ hb))
      (fun b hb => hwf b (mem_cons_of_mem _ hb))
      (fun b hb => hlive b (mem_cons_of_mem _ hb))
    have h0 := hw a mem_cons_self
    have hwa := hwf a mem_cons_self
    have hla := hlive a mem_cons_self
    simp only [usage, map_cons, filter_cons] at ih' ⊢
    by_cases hfa : live t (f a) = true
    · simp only [hfa, hla hfa, if_true, map_cons, hwa]
      exact add_le_add le_rfl ih'
    · by_cases ha : live t a = true
      · simp only [hfa, ha, if_true, map_cons]
        exact le_add_of_nonneg_of_le h0 ih'
      · simpa [hfa, ha] using ih'

/-! ### The passing of time -/

variable [Preorder τ]

/-- A charge live at an instant was live at every earlier one. -/
def Fading (live : τ → α → Bool) : Prop :=
  ∀ ⦃t t' : τ⦄, t ≤ t' → ∀ a, live t' a = true → live t a = true

theorem usage_anti (hf : Fading live) (hw : ∀ a ∈ l, 0 ≤ w a) {t' : τ} (h : t ≤ t') :
    usage live w t' l ≤ usage live w t l := by
  refine sum_map_le_of_sublist ?_ fun a ha => hw a (mem_of_mem_filter ha)
  exact monotone_filter_right l fun a => hf h a

/-- **Admission keeps the cap.**  If the usage at an instant leaves room for all of `new`, then at
every later instant the window with `new` added is within the cap. -/
theorem usage_append_le (hf : Fading live) {new : List α} (hl : ∀ a ∈ l, 0 ≤ w a)
    (hnew : ∀ a ∈ new, 0 ≤ w a) {T : τ} (hT : t ≤ T) {cap : M}
    (hroom : usage live w t l + (new.map w).sum ≤ cap) : usage live w T (l ++ new) ≤ cap := by
  calc usage live w T (l ++ new) = usage live w T l + usage live w T new := usage_append T l new
    _ ≤ usage live w t l + (new.map w).sum :=
        add_le_add (usage_anti hf hl hT) (usage_le_total hnew T)
    _ ≤ cap := hroom

end AgentWallet.Base.SlidingWindow
