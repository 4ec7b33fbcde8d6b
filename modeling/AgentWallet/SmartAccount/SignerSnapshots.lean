import Mathlib

/-!
# Confirmation of added signers

After a signer was added, the manager builds the intended signer set from the set before, the
identities it added and ids it reads off the observed set (`assign_added_ids`), and compares it with
the observed set.  `withAddedSigners_eq_iff`: they are equal exactly when the observed set is the
set before with entries for the added identities.
-/

namespace AgentWallet.SmartAccount.SignerSnapshots

open List

variable {I T : Type} [DecidableEq I]

structure SignerEntryV2 (I : Type) where
  id : ℕ
  identity : I
deriving DecidableEq

@[ext] structure SignerSetSnapshotV2 (I T : Type) where
  signers : List (SignerEntryV2 I)
  threshold : T

def u32Max : ℕ := 2 ^ 32 - 1

/-- `id.saturating_add(1)` -/
def saturatingSucc (id : ℕ) : ℕ := min (id + 1) u32Max

def withAddedSigners (before : SignerSetSnapshotV2 I T) (added : List (ℕ × I)) :
    SignerSetSnapshotV2 I T where
  signers := (before.signers ++ added.map fun a => SignerEntryV2.mk a.1 a.2).insertionSort
    fun a b => a.id ≤ b.id
  threshold := before.threshold

def newEntryId (before observed : SignerSetSnapshotV2 I T) (identity : I) (taken : List ℕ) :
    Option ℕ :=
  ((observed.signers.filter fun entry => decide (entry.identity = identity) &&
    !decide (entry.id ∈ taken) && !before.signers.any fun existing => existing.id = entry.id).map
      SignerEntryV2.id).min?

/-- The loop of `assign_added_ids`, with the ids handed out so far. -/
def assignFrom (before observed : SignerSetSnapshotV2 I T) :
    List I → (nextUnobserved : ℕ) → (ids : List ℕ) → List ℕ
  | [], _, ids => ids
  | identity :: added, nextUnobserved, ids =>
    match newEntryId before observed identity ids with
    | some id => assignFrom before observed added nextUnobserved (ids ++ [id])
    | none =>
      assignFrom before observed added (saturatingSucc nextUnobserved) (ids ++ [nextUnobserved])

def assignAddedIds (before observed : SignerSetSnapshotV2 I T) (added : List I) : List ℕ :=
  assignFrom before observed added
    (((before.signers ++ observed.signers).map SignerEntryV2.id).max?.elim 0 saturatingSucc) []

/-- The signer ids are strictly ascending. -/
def Ascending (s : SignerSetSnapshotV2 I T) : Prop := s.signers.Pairwise fun a b => a.id < b.id

/-- The entries of `observed` that `before` does not have. -/
def remaining (before observed : SignerSetSnapshotV2 I T) : List (SignerEntryV2 I) :=
  observed.signers.filter fun entry => decide (entry ∉ before.signers)

variable {before observed : SignerSetSnapshotV2 I T} {added : List I} {ids : List ℕ} {next : ℕ}

omit [DecidableEq I] in
theorem Ascending.nodup (h : Ascending observed) : (observed.signers.map SignerEntryV2.id).Nodup :=
  List.Pairwise.map _ (fun _ _ hlt => Nat.ne_of_lt hlt) h

omit [DecidableEq I] in
theorem Ascending.eq_of_id (h : Ascending observed) {a b : SignerEntryV2 I}
    (ha : a ∈ observed.signers)
    (hb : b ∈ observed.signers) (hid : a.id = b.id) : a = b :=
  inj_on_of_nodup_map h.nodup ha hb hid

/-- Ids handed out, and the entries they make with the identities. -/
def assigned (ids : List ℕ) (added : List I) : List (SignerEntryV2 I) :=
  (ids.zip added).map fun a => SignerEntryV2.mk a.1 a.2

theorem length_assignFrom : (assignFrom before observed added next ids).length =
    ids.length + added.length := by
  induction added generalizing next ids with
  | nil => rfl
  | cons identity added ih =>
    unfold assignFrom
    split <;> rw [ih] <;> simp <;> omega

theorem identities_assigned : (assigned (assignAddedIds before observed added) added).map
    SignerEntryV2.identity = added := by
  have hlen : (assignAddedIds before observed added).length = added.length := by
    simp [assignAddedIds, length_assignFrom]
  simp [assigned, Function.comp_def, map_snd_zip, hlen]

/-! ## The ids that are handed out -/

/-- The remaining entries whose ids were not handed out. -/
def unmatched (before observed : SignerSetSnapshotV2 I T) (ids : List ℕ) : List (SignerEntryV2 I) :=
  (remaining before observed).filter fun entry => decide (entry.id ∉ ids)

theorem mem_unmatched {entry : SignerEntryV2 I} : entry ∈ unmatched before observed ids ↔
    (entry ∈ observed.signers ∧ entry ∉ before.signers) ∧ entry.id ∉ ids := by
  simp only [unmatched, remaining, mem_filter, decide_eq_true_eq]

section

variable (ho : Ascending observed)
include ho

theorem nodup_unmatched : (unmatched before observed ids).Nodup :=
  ((List.Nodup.of_map _ ho.nodup).filter _).filter _

variable (hin : ∀ e ∈ before.signers, e ∈ observed.signers)
include hin

theorem newEntryId_eq {identity : I}
    (h : identity ∈ (unmatched before observed ids).map SignerEntryV2.identity) :
    ∃ entry ∈ unmatched before observed ids, entry.identity = identity ∧
      newEntryId before observed identity ids = some entry.id := by
  have hcandidate : ∀ entry, (entry ∈ observed.signers.filter fun entry =>
      decide (entry.identity = identity) && !decide (entry.id ∈ ids) &&
        !before.signers.any fun existing => existing.id = entry.id) ↔
      entry ∈ unmatched before observed ids ∧ entry.identity = identity := by
    intro entry
    have hbefore : entry ∈ observed.signers →
        (entry ∉ before.signers ↔ ∀ existing ∈ before.signers, existing.id ≠ entry.id) := by
      intro hentry
      constructor
      · intro hnot existing hexisting hid
        exact hnot (ho.eq_of_id (hin existing hexisting) hentry hid ▸ hexisting)
      · exact fun hall hmem => hall entry hmem rfl
    rw [mem_filter, mem_unmatched]
    simp only [Bool.and_eq_true, decide_eq_true_eq, Bool.not_eq_true', decide_eq_false_iff_not,
      any_eq_false]
    constructor
    · rintro ⟨hentry, ⟨hidentity, hids⟩, hall⟩
      exact ⟨⟨⟨hentry, (hbefore hentry).2 hall⟩, hids⟩, hidentity⟩
    · rintro ⟨⟨⟨hentry, hnot⟩, hids⟩, hidentity⟩
      exact ⟨hentry, ⟨hidentity, hids⟩, (hbefore hentry).1 hnot⟩
  obtain ⟨entry, hentry, hidentity⟩ := mem_map.1 h
  unfold newEntryId
  rcases hmin : List.min? _ with - | id
  · rw [List.min?_eq_none_iff, map_eq_nil_iff] at hmin
    have hmem := (hcandidate entry).2 ⟨hentry, hidentity⟩
    rw [hmin] at hmem
    cases hmem
  · obtain ⟨found, hfound, rfl⟩ := mem_map.1 (List.min?_mem hmin)
    obtain ⟨hunmatched, hholds⟩ := (hcandidate found).1 hfound
    exact ⟨found, hunmatched, hholds, rfl⟩

/-- **The loop**: identities that are those of the unmatched entries take the ids of these
entries. -/
theorem assignFrom_perm
    (h : ((unmatched before observed ids).map SignerEntryV2.identity).Perm added) :
    ∃ new, assignFrom before observed added next ids = ids ++ new ∧
      (assigned new added).Perm (unmatched before observed ids) := by
  induction added generalizing next ids with
  | nil =>
    rw [perm_nil, map_eq_nil_iff] at h
    exact ⟨[], (append_nil ids).symm, by rw [h]; rfl⟩
  | cons identity added ih =>
    obtain ⟨entry, hentry, rfl, hid⟩ := newEntryId_eq ho hin (h.mem_iff.2 mem_cons_self)
    -- handing out this id takes this entry out
    have hperm : (unmatched before observed ids).Perm
        (entry :: unmatched before observed (ids ++ [entry.id])) := by
      refine (perm_ext_iff_of_nodup (nodup_unmatched ho) ?_).2 fun e => ?_
      · exact nodup_cons.2 ⟨fun hmem => by simp [mem_unmatched] at hmem, nodup_unmatched ho⟩
      · rw [mem_unmatched] at hentry
        rw [mem_cons, mem_unmatched, mem_unmatched, mem_append, mem_singleton]
        constructor
        · rintro ⟨he, hids⟩
          by_cases heq : e.id = entry.id
          · exact .inl (ho.eq_of_id he.1 hentry.1.1 heq)
          · exact .inr ⟨he, fun hor => hor.elim hids heq⟩
        · rintro (rfl | ⟨he, hids⟩)
          · exact hentry
          · exact ⟨he, fun hmem => hids (.inl hmem)⟩
    have hrest := ((hperm.map SignerEntryV2.identity).symm.trans h).cons_inv
    obtain ⟨new, hnew, hassigned⟩ := @ih _ next hrest
    refine ⟨entry.id :: new, ?_, (hassigned.cons entry).trans hperm.symm⟩
    simp only [assignFrom, hid, hnew, append_assoc, singleton_append]

theorem assigned_perm (h : ((remaining before observed).map SignerEntryV2.identity).Perm added) :
    (assigned (assignAddedIds before observed added) added).Perm (remaining before observed) := by
  have hall : unmatched before observed [] = remaining before observed := by simp [unmatched]
  rw [← hall] at h ⊢
  obtain ⟨new, hnew, hassigned⟩ := assignFrom_perm ho hin h
  unfold assignAddedIds
  rw [hnew]
  exact hassigned

end

/-- **Confirmation is exact.** -/
theorem withAddedSigners_eq_iff (hb : Ascending before) (ho : Ascending observed) (added : List I) :
    withAddedSigners before ((assignAddedIds before observed added).zip added) = observed ↔
      observed.threshold = before.threshold ∧ (∀ e ∈ before.signers, e ∈ observed.signers) ∧
        ((remaining before observed).map SignerEntryV2.identity).Perm added := by
  have hnodup : observed.signers.Nodup := List.Nodup.of_map _ ho.nodup
  constructor
  · intro heq
    have hsigners : observed.signers.Perm
        (before.signers ++ assigned (assignAddedIds before observed added) added) := by
      rw [← congrArg SignerSetSnapshotV2.signers heq]
      exact perm_insertionSort _ _
    refine ⟨by rw [← heq]; rfl, fun e he => hsigners.mem_iff.2 (mem_append_left _ he), ?_⟩
    have hdisjoint := (nodup_append.1 (hsigners.nodup_iff.1 hnodup)).2.2
    have hrest : (remaining before observed).Perm
        (assigned (assignAddedIds before observed added) added) := by
      refine (hsigners.filter _).trans ?_
      rw [filter_append, filter_eq_nil_iff.2 (by simp), nil_append,
        filter_eq_self.2]
      exact fun e he => decide_eq_true fun hmem => hdisjoint e hmem e he rfl
    have hmap := hrest.map SignerEntryV2.identity
    rwa [identities_assigned] at hmap
  · rintro ⟨hthreshold, hin, hidentities⟩
    have hkept : (observed.signers.filter fun e => decide (e ∈ before.signers)).Perm
        before.signers := by
      refine (perm_ext_iff_of_nodup (hnodup.filter _) (List.Nodup.of_map _ hb.nodup)).2 ?_
      intro e
      rw [mem_filter, decide_eq_true_eq]
      exact ⟨fun h => h.2, fun h => ⟨hin e h, h⟩⟩
    have hperm : (before.signers ++ assigned (assignAddedIds before observed added) added).Perm
        observed.signers := by
      have hsplit := filter_append_perm (fun e => decide (e ∈ before.signers)) observed.signers
      refine (hkept.symm.append ?_).trans hsplit
      simpa [remaining] using assigned_perm ho hin hidentities
    have hsorted := (perm_insertionSort (fun a b : SignerEntryV2 I => a.id ≤ b.id) _).trans hperm
    refine SignerSetSnapshotV2.ext ?_ hthreshold.symm
    refine hsorted.eq_of_pairwise (fun a b ha hb hab hba => ?_) (pairwise_insertionSort _ _)
      (ho.imp fun hlt => hlt.le)
    exact ho.eq_of_id (hsorted.mem_iff.1 ha) hb (le_antisymm hab hba)

def oneSigner : SignerSetSnapshotV2 String ℕ := ⟨[⟨0, "a"⟩], 1⟩

def threeSigners : SignerSetSnapshotV2 String ℕ := ⟨[⟨0, "a"⟩, ⟨3, "b"⟩, ⟨4294967295, "a"⟩], 1⟩

/-- An identity that was there already is added again beside another one. -/
theorem withAddedSigners_threeSigners :
    withAddedSigners oneSigner ((assignAddedIds oneSigner threeSigners ["a", "b"]).zip ["a", "b"]) =
      threeSigners :=
  (withAddedSigners_eq_iff (by simp [Ascending, oneSigner]) (by simp [Ascending, threeSigners])
    ["a", "b"]).2 ⟨rfl, by decide, by decide⟩

end AgentWallet.SmartAccount.SignerSnapshots
