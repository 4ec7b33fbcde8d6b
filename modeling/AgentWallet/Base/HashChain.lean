import Mathlib

/-!
# Hash chains

An element of a hash chain names the hash of the element before it.  `Linked prev hash h l h'` says
that the elements `l` form such a chain from the tip `h` to the tip `h'`: `prev` is the hash an
element names and `hash` its own, which is `none` when it cannot be computed.
-/

namespace AgentWallet.Base.HashChain

variable {E T : Type*} {prev : E → T} {hash : E → Option T} {l m : List E} {h h'' h' : T} {e : E}

/-- The elements form a chain from the first tip to the second. -/
def Linked (prev : E → T) (hash : E → Option T) : T → List E → T → Prop
  | h, [], h' => h = h'
  | h, e :: l, h' => prev e = h ∧ ∃ t, hash e = some t ∧ Linked prev hash t l h'

theorem linked_append : Linked prev hash h (l ++ m) h'' ↔
      ∃ h', Linked prev hash h l h' ∧ Linked prev hash h' m h'' := by
  induction l generalizing h with
  | nil =>
    constructor
    · exact fun hm => ⟨h, rfl, hm⟩
    · rintro ⟨h', rfl, hm⟩
      exact hm
  | cons e l ih =>
    constructor
    · rintro ⟨hprev, t, ht, hl⟩
      obtain ⟨h', hl, hm⟩ := ih.1 hl
      exact ⟨h', ⟨hprev, t, ht, hl⟩, hm⟩
    · rintro ⟨h', ⟨hprev, t, ht, hl⟩, hm⟩
      exact ⟨hprev, t, ht, ih.2 ⟨h', hl, hm⟩⟩

theorem linked_snoc :
    Linked prev hash h (l ++ [e]) h'' ↔ Linked prev hash h l (prev e) ∧ hash e = some h'' := by
  rw [linked_append]
  constructor
  · rintro ⟨h', hl, rfl, t, ht, rfl⟩
    exact ⟨hl, ht⟩
  · rintro ⟨hl, he⟩
    exact ⟨_, hl, rfl, h'', he, rfl⟩

theorem Linked.snoc (hl : Linked prev hash h l h') (hprev : prev e = h') (he : hash e = some h'') :
    Linked prev hash h (l ++ [e]) h'' :=
  linked_snoc.2 ⟨hprev ▸ hl, he⟩

theorem Linked.tip_ne (hl : Linked prev hash h l h') (hne : l ≠ []) {root : T}
    (hroot : ∀ e, hash e ≠ some root) : h' ≠ root := by
  obtain ⟨init, e, rfl⟩ := List.eq_nil_or_concat' l |>.resolve_left hne
  rintro rfl
  exact hroot e (linked_snoc.1 hl).2

section Injective

variable (hinj : ∀ e e' t, hash e = some t → hash e' = some t → e = e')
  {root : T} (hroot : ∀ e, hash e ≠ some root)

include hinj hroot

theorem Linked.eq_of_tip (hl : Linked prev hash root l h) (hm : Linked prev hash root m h) :
    l = m := by
  induction l using List.reverseRecOn generalizing m h with
  | nil =>
    by_contra hne
    exact hm.tip_ne (Ne.symm hne) hroot hl.symm
  | append_singleton l e ih =>
    obtain ⟨hl, he⟩ := linked_snoc.1 hl
    rcases List.eq_nil_or_concat' m with rfl | ⟨m, e', rfl⟩
    · exact absurd (hm ▸ he) (hroot e)
    · obtain ⟨hm, he'⟩ := linked_snoc.1 hm
      obtain rfl := hinj e e' h he he'
      rw [ih hl hm]

theorem Linked.eq_of_mem {before after : List E} (hl : Linked prev hash root l h)
    (hd : Linked prev hash root (before ++ e :: after) h') (he : hash e = some h) :
    l = before ++ [e] := by
  obtain ⟨t, hbefore, hprev, -⟩ := linked_append.1 hd
  exact hl.eq_of_tip hinj hroot (hbefore.snoc hprev he)

end Injective

end AgentWallet.Base.HashChain
