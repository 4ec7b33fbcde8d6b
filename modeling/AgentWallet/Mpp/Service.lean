import AgentWallet.Base.Interleaving
import AgentWallet.Mpp.Readable

/-!
# Approvals of charges

`persist_prepared_authorization`, `verify_pending_approval` and `commit_authorization`, cut at their
calls of the store and of the approval store.  Every such call is one action; a store call may also
find the lock taken.  Between two actions of a process any other process may act.
-/

namespace AgentWallet.Mpp.Service

open Base.Checks Base.Runs Base.Interleaving Mpp.Record Mpp.Store Mpp.Operations List
open Mpp.Record.AuthorizationRecord

variable {D A : Type} {record r' r : AuthorizationRecord D A} {wire wire' : WireStore D A}
  {authorizationId : String} {change : Change D} {nowUnix : Int64}

/-! ## The calls -/

inductive ApprovalDisposition where
  | allow
  | requireApproval
deriving DecidableEq

def approvalError : MppError := ⟨.approvalInvalid, "MPP approval is missing, invalid, or expired"⟩

inductive Call (D A : Type) where
  | persistPreparedAuthorization (profileName networkPassphrase : String)
      (prepared : PreparedCharge D A) (disposition : ApprovalDisposition) (nowUnix : Int64)
  | verifyPendingApproval (authorizationId : String) (nowUnix : Int64)
  | commitAuthorization (authorizationId : String) (nowUnix : Int64)

/-- Where a process stands: the call it makes next, with the values it holds. -/
inductive Phase (D A : Type) where
  | idle
  -- `persist_prepared_authorization`
  | loading (disposition : ApprovalDisposition) (record : AuthorizationRecord D A) (nowUnix : Int64)
  | approvingExisting (existing : AuthorizationRecord D A) (nowUnix : Int64)
  | markingPending (existing : AuthorizationRecord D A) (nonce : String) (nowUnix : Int64)
  | approving (record : AuthorizationRecord D A) (nowUnix : Int64)
  | inserting (disposition : ApprovalDisposition) (record : AuthorizationRecord D A)
      (nowUnix : Int64)
  -- `verify_pending_approval`, and `commit_authorization` when `commits`
  | loadingPending (commits : Bool) (authorizationId : String) (nowUnix : Int64)
  | attesting (commits : Bool) (record : AuthorizationRecord D A) (nonce : String)
      (nowUnix : Int64)
  | markingReady (commits : Bool) (record : AuthorizationRecord D A) (nonce : String)
      (nowUnix : Int64)
  | claiming (authorizationId : String) (nowUnix : Int64)
  | claimed (authorizationId : String)
  | returned (result : Except MppError (AuthorizationRecord D A))

/-- An action of a process, with what its surroundings answer. -/
inductive Action (D A : Type) where
  | start (call : Call D A)
  /-- The store call finds the lock taken. -/
  | locked
  /-- The store call is made. -/
  | proceed
  /-- The approval store takes a new approval with this nonce, or refuses it. -/
  | approval (nonce : Option String)
  /-- What `verify_mpp_charge_attestation` answers. -/
  | attestation (accepted : Bool)
  /-- A store call of `commit_authorization` behind its claim. -/
  | later (change : Change D)

inductive Note (D A : Type) where
  /-- A prepare that requires an approval returned. -/
  | required (fingerprint : D)
  | accepted (nonce : String) (fingerprint artifactHash : D)
  | claimed (record : AuthorizationRecord D A)

structure Shared (D A : Type) where
  wire : WireStore D A
  history : List (Note D A)

def load (authorizationId : String) (wire : WireStore D A) :
    Except MppError (AuthorizationRecord D A) := do
  validateAuthorizationId authorizationId
  match wire.records.find? fun record => record.authorizationId = authorizationId with
  | some record => pure record
  | none => throw authorizationNotFound

/-- `update_record` with a change. -/
def updateRecord [DecidableEq D] (P : Primitives D A) (authorizationId : String) (change : Change D)
    (wire : WireStore D A) : Except MppError (AuthorizationRecord D A × WireStore D A) := do
  validateAuthorizationId authorizationId
  let (r, records) ← updateFirst authorizationId change.onMissing (change.apply P) wire.records
  pure (r, { wire with records := records })

/-- The store calls that `commit_authorization` makes behind its claim. -/
def isLater : Change D → Bool
  | .markPolicyAccounted | .markDeliveryPending _ _ | .markAuthorized _ | .markIndeterminate _
  | .markRefused _ | .markAuthorizedWithheld _ => true
  | _ => false

variable (P : Primitives D A)

/-- The end of a prepare: the preview needs the stored charge to be valid. -/
def preview (s : Shared D A) (disposition : ApprovalDisposition) (record : AuthorizationRecord D A) :
    Shared D A × Phase D A :=
  match record.preparedCharge P with
  | .error e => (s, .returned (.error e))
  | .ok _ =>
    match disposition with
    | .allow => (s, .returned (.ok record))
    | .requireApproval =>
      ({ s with history := s.history ++ [.required record.fingerprint] }, .returned (.ok record))

/-- The prepare of a record that was not loaded. -/
def prepareNew (disposition : ApprovalDisposition) (record : AuthorizationRecord D A)
    (nowUnix : Int64) : Phase D A :=
  match disposition with
  | .requireApproval => .approving record nowUnix
  | .allow =>
    match record.allowCommit nowUnix with
    | .ok record => .inserting .allow record nowUnix
    | .error e => .returned (.error e)

def start : Call D A → Phase D A
  | .persistPreparedAuthorization profileName networkPassphrase prepared disposition nowUnix =>
    match new P profileName networkPassphrase prepared nowUnix with
    | .ok record => .loading disposition record nowUnix
    | .error e => .returned (.error e)
  | .verifyPendingApproval authorizationId nowUnix => .loadingPending false authorizationId nowUnix
  | .commitAuthorization authorizationId nowUnix => .loadingPending true authorizationId nowUnix

/-- What follows a loaded record in `verify_pending_approval` and `commit_authorization`. -/
def checkPending (commits : Bool) (record : AuthorizationRecord D A) (nowUnix : Int64) :
    Phase D A :=
  match record.status with
  | .ready => if commits then .claiming record.authorizationId nowUnix else .returned (.ok record)
  | .approvalPending =>
    match record.approvalNonce with
    | none => .returned (.error approvalError)
    | some nonce =>
      match record.preparedCharge P with
      | .error e => .returned (.error e)
      | .ok _ => .attesting commits record nonce nowUnix
  | _ => .returned (.error replayError)

section

variable [DecidableEq D]

/-- The store call of a phase, when the lock is free. -/
def proceed (s : Shared D A) : Phase D A → Shared D A × Phase D A
  | .loading disposition record nowUnix =>
    match load record.authorizationId s.wire with
    | .error _ => (s, prepareNew disposition record nowUnix)
    | .ok existing =>
      if disposition = .requireApproval ∧ existing.approvalNonce = none then
        if existing.status ≠ .ready then (s, .returned (.error stateError))
        else (s, .approvingExisting existing nowUnix)
      else preview P s disposition existing
  | .markingPending existing nonce nowUnix =>
    match updateRecord P existing.authorizationId (.markApprovalPending nonce nowUnix) s.wire with
    | .error e => (s, .returned (.error e))
    | .ok (record, wire) => preview P { s with wire := wire } .requireApproval record
  | .inserting disposition record nowUnix =>
    match Store.insertPrepared record nowUnix s.wire with
    | .error e => (s, .returned (.error e))
    | .ok (persisted, wire) => preview P { s with wire := wire } disposition persisted
  | .loadingPending commits authorizationId nowUnix =>
    match load authorizationId s.wire with
    | .error e => (s, .returned (.error e))
    | .ok record => (s, checkPending P commits record nowUnix)
  | .markingReady commits record _ nowUnix =>
    match updateRecord P record.authorizationId (.markReady nowUnix) s.wire with
    | .error e => (s, .returned (.error e))
    | .ok (ready, wire) =>
      ({ s with wire := wire },
        if commits then .claiming record.authorizationId nowUnix else .returned (.ok ready))
  | .claiming authorizationId nowUnix =>
    match updateRecord P authorizationId (.claimReady nowUnix) s.wire with
    | .error e => (s, .returned (.error e))
    | .ok (record, wire) => (⟨wire, s.history ++ [.claimed record]⟩, .claimed authorizationId)
  | phase => (s, phase)

/-- A store call that finds the lock taken.  A prepare goes on as if there were no record. -/
def refused : Phase D A → Phase D A
  | .loading disposition record nowUnix => prepareNew disposition record nowUnix
  | .markingPending _ _ _ | .inserting _ _ _ | .loadingPending _ _ _ | .markingReady _ _ _ _
  | .claiming _ _ => .returned (.error stateError)
  | phase => phase

/-- One action of a process.  Behind its claim a commit goes on after a store call that fails, and
it is over when the process starts another call. -/
def act (s : Shared D A) (phase : Phase D A) : Action D A → Shared D A × Phase D A
  | .start call =>
    match phase with
    | .idle | .claimed _ | .returned _ => (s, start P call)
    | _ => (s, phase)
  | .locked => (s, refused phase)
  | .proceed => proceed P s phase
  | .approval nonce =>
    match phase, nonce with
    | .approvingExisting _ _, none | .approving _ _, none => (s, .returned (.error stateError))
    | .approvingExisting existing nowUnix, some nonce => (s, .markingPending existing nonce nowUnix)
    | .approving record nowUnix, some nonce =>
      match record.requireApproval nonce nowUnix with
      | .ok record => (s, .inserting .requireApproval record nowUnix)
      | .error e => (s, .returned (.error e))
    | _, _ => (s, phase)
  | .attestation accepted =>
    match phase with
    | .attesting commits record nonce nowUnix =>
      if accepted then
        ({ s with history := s.history ++
            [.accepted nonce record.fingerprint record.prepared.artifactHash] },
          .markingReady commits record nonce nowUnix)
      else (s, .returned (.error approvalError))
    | _ => (s, phase)
  | .later change =>
    match phase with
    | .claimed authorizationId =>
      if isLater change then
        match updateRecord P authorizationId change s.wire with
        | .error _ => (s, phase)
        | .ok (_, wire) => ({ s with wire := wire }, phase)
      else (s, phase)
    | _ => (s, phase)

end

/-! ## What store calls do -/

variable {history : List (Note D A)} {note : Note D A}

theorem load_eq_ok (h : load authorizationId wire = .ok r) :
    wire.records.find? (fun record => record.authorizationId = authorizationId) = some r := by
  obtain ⟨_, -, h⟩ := bind_eq_ok_iff.1 h
  split at h
  · rename_i record hfind
    obtain rfl : record = r := Except.ok.inj h
    exact hfind
  · cases h

variable {P}

theorem updateRecord_eq_ok [DecidableEq D]
    (h : updateRecord P authorizationId change wire = .ok (r', wire')) :
    ∃ l r rest, wire.records = l ++ r :: rest ∧ (∀ s ∈ l, s.authorizationId ≠ authorizationId) ∧
      r.authorizationId = authorizationId ∧ change.apply P r = .ok r' ∧
      wire' = { wire with records := l ++ r' :: rest } := by
  obtain ⟨_, -, h⟩ := bind_eq_ok_iff.1 h
  obtain ⟨⟨found, records⟩, hupdate, hpure⟩ := bind_eq_ok_iff.1 h
  cases hpure
  obtain ⟨l, r, rest, hrecords, hl, hr, happly, rfl⟩ := updateFirst_eq_ok hupdate
  exact ⟨l, r, rest, hrecords, hl, hr, happly, rfl⟩

theorem insertPrepared_eq_ok [DecidableEq D] {persisted : AuthorizationRecord D A}
    (h : Store.insertPrepared record nowUnix wire = .ok (persisted, wire')) :
    (persisted ∈ wire.records ∧ persisted.fingerprint = record.fingerprint ∧
      persisted.status ∈ unclaimed ∧ nowUnix ≤ persisted.expiresAt ∧ wire' = wire) ∨
    ((∀ r ∈ wire.records, r.fingerprint ≠ record.fingerprint) ∧ persisted = record ∧
      wire' = { wire with records := wire.records ++ [record] }) := by
  unfold Store.insertPrepared at h
  rcases hfind : wire.records.find? (fun e => e.fingerprint = record.fingerprint) with _ | existing
  · rw [hfind] at h
    split_ifs at h
    cases h
    refine .inr ⟨fun r hr heq => ?_, rfl, rfl⟩
    exact absurd (List.find?_eq_none.1 hfind r hr) (by simpa using heq)
  · rw [hfind] at h
    dsimp only at h
    split_ifs at h with hunclaimed
    cases h
    have hsame : persisted.fingerprint = record.fingerprint := by
      simpa using List.find?_some hfind
    exact .inl ⟨mem_of_find?_eq_some hfind, hsame, hunclaimed.1, hunclaimed.2, rfl⟩

/-! ## Guarded histories -/

/-- No claim of an authorization for which an approval was required goes without an accepted
attestation for its nonce and its artifact. -/
def Guarded (history : List (Note D A)) : Prop :=
  ∀ before r after, history = before ++ .claimed r :: after →
    .required r.fingerprint ∈ before → ∃ nonce, r.approvalNonce = some nonce ∧
      .accepted nonce r.fingerprint r.prepared.artifactHash ∈ before

theorem Guarded.append (h : Guarded history)
    (hnote : ∀ r, note = .claimed r → .required r.fingerprint ∈ history →
      ∃ nonce, r.approvalNonce = some nonce ∧
        .accepted nonce r.fingerprint r.prepared.artifactHash ∈ history) :
    Guarded (history ++ [note]) := by
  intro before r after heq hrequired
  rcases eq_nil_or_concat after with rfl | ⟨after, last, rfl⟩
  · obtain ⟨rfl, hlast⟩ := append_inj' heq rfl
    exact hnote r (head_eq_of_cons_eq hlast) hrequired
  · rw [concat_eq_append, ← cons_append, ← append_assoc] at heq
    obtain ⟨rfl, -⟩ := append_inj' heq rfl
    exact h before r after rfl hrequired

/-! ## The invariant -/

/-- What holds of the store and the history between two actions. -/
structure Sound (s : Shared D A) : Prop where
  nodup : (s.wire.records.map (·.fingerprint)).Nodup
  ready : ∀ r ∈ s.wire.records, r.status = .ready → ∀ nonce, r.approvalNonce = some nonce →
    .accepted nonce r.fingerprint r.prepared.artifactHash ∈ s.history
  required : ∀ fingerprint, .required fingerprint ∈ s.history →
    ∃ r ∈ s.wire.records, r.fingerprint = fingerprint ∧ r.approvalNonce ≠ none
  guarded : Guarded s.history

/-- The store's record under this one's identifier is this one at a later time. -/
def Known (wire : WireStore D A) (record : AuthorizationRecord D A) : Prop :=
  ∃ r, wire.records.find? (fun r => r.authorizationId = record.authorizationId) = some r ∧
    r.fingerprint = record.fingerprint ∧ r.prepared = record.prepared

def Asserts (s : Shared D A) : Phase D A → Prop
  | .loading _ record _ | .approving record _ => record.approvalNonce = none
  | .inserting disposition record _ => (record.status = .ready → record.approvalNonce = none) ∧
    (disposition = .requireApproval → record.approvalNonce ≠ none)
  | .attesting _ record _ _ => Known s.wire record
  | .markingReady _ record nonce _ => Known s.wire record ∧
    .accepted nonce record.fingerprint record.prepared.artifactHash ∈ s.history
  | _ => True

/-- The condition.  A prepare that requires an approval finds no unexpired record of its charge
without a nonce; and a record that is made ready still has the nonce that was verified. -/
def Covered (s : Shared D A) : Phase D A → Action D A → Prop
  | .inserting .requireApproval record nowUnix, .proceed => ∀ r ∈ s.wire.records,
    r.fingerprint = record.fingerprint → r.status ∈ unclaimed → nowUnix ≤ r.expiresAt →
      r.approvalNonce ≠ none
  | .markingReady _ record nonce _, .proceed => ∀ r,
    s.wire.records.find? (fun r => r.authorizationId = record.authorizationId) = some r →
      r.status.allows .ready = true → r.approvalNonce = some nonce
  | _, _ => True

section

variable {s : Shared D A} {l rest : List (AuthorizationRecord D A)}

theorem Sound.replaced (h : Sound s) (hrecords : s.wire.records = l ++ r :: rest)
    (hf : Follows r r') (hnonce : r.approvalNonce ≠ none → r'.approvalNonce ≠ none)
    (hready : r'.status = .ready → ∀ nonce, r'.approvalNonce = some nonce →
      .accepted nonce r'.fingerprint r'.prepared.artifactHash ∈ s.history) :
    Sound ⟨{ s.wire with records := l ++ r' :: rest }, s.history⟩ := by
  have hmem : ∀ t ∈ l ++ r' :: rest, t = r' ∨ t ∈ s.wire.records := by
    intro t ht
    rw [hrecords]
    simp only [mem_append, mem_cons] at ht ⊢
    tauto
  refine ⟨?_, fun t ht hstatus nonce hn => ?_, fun f hf' => ?_, h.guarded⟩
  · have hnodup := h.nodup
    rw [hrecords] at hnodup
    simpa [hf.fingerprint] using hnodup
  · rcases hmem t ht with rfl | ht
    · exact hready hstatus nonce hn
    · exact h.ready t ht hstatus nonce hn
  · obtain ⟨t, ht, hfp, hn⟩ := h.required f hf'
    rw [hrecords] at ht
    by_cases htr : t = r
    · subst htr
      exact ⟨r', by simp, hf.fingerprint.trans hfp, hnonce hn⟩
    · refine ⟨t, ?_, hfp, hn⟩
      simp only [mem_append, mem_cons] at ht ⊢
      tauto

theorem Sound.inserted (h : Sound s)
    (hnew : ∀ r ∈ s.wire.records, r.fingerprint ≠ record.fingerprint)
    (hready : record.status = .ready → record.approvalNonce = none) :
    Sound ⟨{ s.wire with records := s.wire.records ++ [record] }, s.history⟩ := by
  refine ⟨?_, fun t ht hstatus nonce hn => ?_, fun f hf => ?_, h.guarded⟩
  · rw [map_append]
    refine nodup_append.2 ⟨h.nodup, nodup_singleton _, fun a ha b hb => ?_⟩
    obtain ⟨r, hr, rfl⟩ := mem_map.1 ha
    rw [mem_singleton.1 hb]
    exact hnew r hr
  · rcases mem_append.1 ht with ht | ht
    · exact h.ready t ht hstatus nonce hn
    · obtain rfl := mem_singleton.1 ht
      rw [hready hstatus] at hn
      cases hn
  · obtain ⟨t, ht, hfp, hn⟩ := h.required f hf
    exact ⟨t, mem_append_left _ ht, hfp, hn⟩

theorem Sound.noted (h : Sound s)
    (hrequired : ∀ f, note = .required f → ∃ r ∈ s.wire.records, r.fingerprint = f ∧
      r.approvalNonce ≠ none)
    (hclaimed : ∀ r, note = .claimed r → .required r.fingerprint ∈ s.history →
      ∃ nonce, r.approvalNonce = some nonce ∧
        .accepted nonce r.fingerprint r.prepared.artifactHash ∈ s.history) :
    Sound { s with history := s.history ++ [note] } := by
  refine ⟨h.nodup, fun r hr hstatus nonce hn => ?_, fun f hf => ?_, h.guarded.append hclaimed⟩
  · exact mem_append_left _ (h.ready r hr hstatus nonce hn)
  · rcases mem_append.1 hf with hf | hf
    · exact h.required f hf
    · exact hrequired f (mem_singleton.1 hf).symm

/-! ## Records that a process holds -/

variable {phase : Phase D A} {s' : Shared D A} {disposition : ApprovalDisposition}

theorem Known.replaced (h : Known s.wire record) (hrecords : s.wire.records = l ++ r :: rest)
    (hf : Follows r r') : Known { s.wire with records := l ++ r' :: rest } record := by
  obtain ⟨t, hfind, hfp, hprepared⟩ := h
  unfold Known
  rw [hrecords, List.find?_append] at hfind
  rw [List.find?_append]
  rcases hl : l.find? (fun r => r.authorizationId = record.authorizationId) with _ | u
  · rw [hl, Option.none_or, List.find?_cons] at hfind
    rw [hl, List.find?_cons, hf.id]
    by_cases hid : r.authorizationId = record.authorizationId
    · simp only [hid, decide_true, Option.some.injEq] at hfind ⊢
      subst hfind
      exact ⟨r', rfl, hf.fingerprint.trans hfp, hf.prepared.trans hprepared⟩
    · simp only [hid] at hfind ⊢
      exact ⟨t, hfind, hfp, hprepared⟩
  · rw [hl] at hfind
    rw [hl]
    exact ⟨t, hfind, hfp, hprepared⟩

theorem Known.inserted (h : Known s.wire record) :
    Known { s.wire with records := s.wire.records ++ [r] } record := by
  obtain ⟨t, hfind, hsame⟩ := h
  refine ⟨t, ?_, hsame⟩
  rw [List.find?_append, hfind]
  rfl

/-- What an action can do to the store and the history. -/
structure Moves (s s' : Shared D A) : Prop where
  history : ∀ note ∈ s.history, note ∈ s'.history
  wire : s'.wire = s.wire ∨
    (∃ l r rest r', s.wire.records = l ++ r :: rest ∧ Follows r r' ∧
      s'.wire = { s.wire with records := l ++ r' :: rest }) ∨
    ∃ record, s'.wire = { s.wire with records := s.wire.records ++ [record] }

theorem Moves.same (h : ∀ note ∈ s.history, note ∈ history) :
    Moves s ⟨s.wire, history⟩ := ⟨h, .inl rfl⟩

theorem Moves.refl (s : Shared D A) : Moves s s := .same fun _ h => h

theorem moves_updateRecord [DecidableEq D]
    (h : updateRecord P authorizationId change s.wire = .ok (r', wire))
    (hhistory : ∀ note ∈ s.history, note ∈ history) : Moves s ⟨wire, history⟩ := by
  obtain ⟨l, r, rest, hrecords, -, -, happly, rfl⟩ := updateRecord_eq_ok h
  exact ⟨hhistory, .inr (.inl ⟨l, r, rest, r', hrecords, follows_of_apply happly, rfl⟩)⟩

theorem Known.moves (h : Known s.wire record) (hm : Moves s s') : Known s'.wire record := by
  rcases hm.wire with heq | ⟨l, r, rest, r', hrecords, hf, heq⟩ | ⟨r, heq⟩
  · rw [heq]
    exact h
  · rw [heq]
    exact h.replaced hrecords hf
  · rw [heq]
    exact h.inserted

theorem Asserts.moves (h : Asserts s phase) (hm : Moves s s') : Asserts s' phase := by
  cases phase with
  | attesting commits record nonce nowUnix => exact Known.moves h hm
  | markingReady commits record nonce nowUnix => exact ⟨h.1.moves hm, hm.history _ h.2⟩
  | _ => exact h

/-! ## Actions keep the invariant -/

/-- What an action leaves: a sound state in which the next phase's assertion holds. -/
structure Kept (s : Shared D A) (next : Shared D A × Phase D A) : Prop where
  moves : Moves s next.1
  sound : Sound next.1
  asserts : Asserts next.1 next.2

theorem Sound.still (h : Sound s) (ha : Asserts s phase) : Kept s (s, phase) :=
  ⟨.refl s, h, ha⟩

theorem kept_preview (hm : Moves s s') (h : Sound s') (hmem : record ∈ s'.wire.records)
    (hnonce : disposition = .requireApproval → record.approvalNonce ≠ none) :
    Kept s (preview P s' disposition record) := by
  unfold preview
  split
  · exact ⟨hm, h, trivial⟩
  · cases disposition with
    | allow => exact ⟨hm, h, trivial⟩
    | requireApproval =>
      refine ⟨⟨fun note hn => mem_append_left _ (hm.history note hn), hm.wire⟩,
        h.noted (fun f hf => ?_) fun r hr => (by cases hr), trivial⟩
      cases hf
      exact ⟨record, hmem, rfl, hnonce rfl⟩

theorem asserts_prepareNew (h : record.approvalNonce = none) (nowUnix : Int64) :
    Asserts s (prepareNew disposition record nowUnix) := by
  cases disposition with
  | requireApproval => exact h
  | allow =>
    unfold prepareNew
    dsimp only
    split
    · rename_i r hallow
      obtain ⟨-, rfl⟩ := transition_eq_ok.1 hallow
      exact ⟨fun _ => h, fun hallow => (by cases hallow)⟩
    · trivial

theorem asserts_checkPending {commits : Bool} (h : Known s.wire record) :
    Asserts s (checkPending P commits record nowUnix) := by
  unfold checkPending
  split
  · split_ifs <;> trivial
  · split
    · trivial
    · split
      · trivial
      · exact h
  · trivial

theorem asserts_start (s : Shared D A) (call : Call D A) : Asserts s (start P call) := by
  cases call with
  | persistPreparedAuthorization profileName networkPassphrase prepared disposition nowUnix =>
    unfold start
    dsimp only
    split
    · rename_i record hnew
      unfold new at hnew
      simp only [bind_eq_ok_iff, refuseIf_eq_ok_iff, exists_const] at hnew
      obtain ⟨fingerprint, -, -, hpure⟩ := hnew
      obtain rfl := Except.ok.inj hpure
      rfl
    · trivial
  | _ => trivial

theorem known_of_load (h : load authorizationId s.wire = .ok record) : Known s.wire record := by
  have hfind := load_eq_ok h
  have hid : record.authorizationId = authorizationId := by simpa using List.find?_some hfind
  rw [← hid] at hfind
  exact ⟨record, hfind, rfl, rfl⟩

theorem Known.eq_of_split (h : Known s.wire record) (hrecords : s.wire.records = l ++ r :: rest)
    (hl : ∀ t ∈ l, t.authorizationId ≠ record.authorizationId)
    (hid : r.authorizationId = record.authorizationId) :
    r.fingerprint = record.fingerprint ∧ r.prepared = record.prepared := by
  obtain ⟨t, hfind, hsame⟩ := h
  have hnone : l.find? (fun r => r.authorizationId = record.authorizationId) = none :=
    List.find?_eq_none.2 fun t ht => by simpa using hl t ht
  rw [hrecords, List.find?_append, hnone, Option.none_or, List.find?_cons] at hfind
  simp only [hid, decide_true, Option.some.injEq] at hfind
  subst hfind
  exact hsame

variable [DecidableEq D]

theorem Sound.changed (h : Sound s)
    (hupdate : updateRecord P authorizationId change s.wire = .ok (r', wire))
    (hstatus : r'.status ≠ .ready) : Sound { s with wire := wire } ∧ r' ∈ wire.records := by
  obtain ⟨l, r, rest, hrecords, -, -, happly, rfl⟩ := updateRecord_eq_ok hupdate
  refine ⟨h.replaced hrecords (follows_of_apply happly) (fun hn => ?_) fun hready => ?_, by simp⟩
  · rw [approvalNonce_of_apply happly]
    rcases newNonce change with _ | nonce
    · exact hn
    · simp
  · exact absurd hready hstatus

theorem status_of_later (hlater : isLater change = true) (h : change.apply P r = .ok r') :
    r'.status ≠ .ready := by
  cases change with
  | markPolicyAccounted =>
    obtain ⟨hstatus, rfl⟩ := markPolicyAccounted_eq_ok h
    intro hready
    rw [show r.status = .ready from hready] at hstatus
    cases hstatus
  | markDeliveryPending digest now
  | markAuthorized now | markIndeterminate now | markRefused now | markAuthorizedWithheld now =>
    obtain ⟨-, rfl⟩ := transition_eq_ok.1 h
    exact fun hready => (by cases hready)
  | _ => cases hlater

theorem Sound.madeReady (h : Sound s) {nonce : String} (hknown : Known s.wire record)
    (haccepted : .accepted nonce record.fingerprint record.prepared.artifactHash ∈ s.history)
    (hupdate : updateRecord P record.authorizationId (.markReady nowUnix) s.wire = .ok (r', wire))
    (hnonce : r'.approvalNonce = some nonce) : Sound { s with wire := wire } := by
  obtain ⟨l, r, rest, hrecords, hl, hid, happly, rfl⟩ := updateRecord_eq_ok hupdate
  obtain ⟨hfp, hprepared⟩ := hknown.eq_of_split hrecords hl hid
  have hf := follows_of_apply happly
  refine h.replaced hrecords hf (fun _ => by simp [hnonce]) fun _ n hn => ?_
  obtain rfl := Option.some.inj (hnonce.symm.trans hn)
  rw [hf.fingerprint, hf.prepared, hfp, hprepared]
  exact haccepted

theorem allows_authorizing : ∀ s : AuthorizationStatus, s.allows .authorizing = true →
    s = .ready := by
  decide

theorem Sound.claimed (h : Sound s)
    (hupdate : updateRecord P authorizationId (.claimReady nowUnix) s.wire = .ok (r', wire)) :
    Sound ⟨wire, s.history ++ [.claimed r']⟩ := by
  obtain ⟨l, r, rest, hrecords, -, -, happly, -⟩ := updateRecord_eq_ok hupdate
  have hf := follows_of_apply happly
  have hr : r ∈ s.wire.records := by
    rw [hrecords]
    simp
  obtain ⟨-, htransition⟩ := claimReady_eq_ok happly
  obtain ⟨hallows, hr'⟩ := transition_eq_ok.1 htransition
  have hready : r.status = .ready := allows_authorizing _ hallows
  obtain ⟨hsound, -⟩ := h.changed hupdate (by rw [hr']; exact fun hready => (by cases hready))
  refine hsound.noted (fun f hf => (by cases hf)) fun t ht hrequired => ?_
  obtain rfl := Note.claimed.inj ht
  rw [hf.fingerprint] at hrequired
  obtain ⟨u, hu, hfp, hn⟩ := h.required _ hrequired
  obtain rfl : u = r := inj_on_of_nodup_map h.nodup hu hr hfp
  obtain ⟨nonce, hnonce⟩ := Option.ne_none_iff_exists'.1 hn
  have hkept : r'.approvalNonce = some nonce := by rw [hr']; exact hnonce
  refine ⟨nonce, hkept, ?_⟩
  rw [hf.fingerprint, hf.prepared]
  exact h.ready u hu hready nonce hnonce

theorem kept_proceed (h : Sound s) (ha : Asserts s phase) (hok : Covered s phase .proceed) :
    Kept s (proceed P s phase) := by
  cases phase with
  | loading disposition record nowUnix =>
    simp only [proceed]
    rcases hload : load record.authorizationId s.wire with e | existing
    · exact h.still (asserts_prepareNew ha nowUnix)
    · dsimp only
      split_ifs with hmissing hready
      · exact h.still trivial
      · exact h.still trivial
      · refine kept_preview (.refl s) h (mem_of_find?_eq_some (load_eq_ok hload)) fun hd hn => ?_
        exact hmissing ⟨hd, hn⟩
  | markingPending existing nonce nowUnix =>
    simp only [proceed]
    rcases hupdate : updateRecord P existing.authorizationId (.markApprovalPending nonce nowUnix)
      s.wire with e | ⟨record, wire⟩
    · exact h.still trivial
    · obtain ⟨l, r, rest, -, -, -, happly, -⟩ := updateRecord_eq_ok hupdate
      obtain ⟨-, hrecord⟩ := transition_eq_ok.1 happly
      obtain ⟨hsound, hmem⟩ := h.changed hupdate
        (by rw [hrecord]; exact fun hready => (by cases hready))
      refine kept_preview (moves_updateRecord hupdate fun _ hn => hn) hsound hmem fun _ => ?_
      rw [hrecord]
      simp
  | inserting disposition record nowUnix =>
    simp only [proceed]
    rcases hinsert : Store.insertPrepared record nowUnix s.wire with e | ⟨persisted, wire⟩
    · exact h.still trivial
    · rcases insertPrepared_eq_ok hinsert with ⟨hmem, hsame, hstatus, hexpires, rfl⟩ |
        ⟨hnew, rfl, rfl⟩
      · refine kept_preview (.refl s) h hmem ?_
        rintro rfl
        exact hok persisted hmem hsame hstatus hexpires
      · have hm : Moves s ⟨{ s.wire with records := s.wire.records ++ [persisted] }, s.history⟩ :=
          ⟨fun _ hn => hn, .inr (.inr ⟨persisted, rfl⟩)⟩
        exact kept_preview hm (h.inserted hnew ha.1) (by simp) ha.2
  | loadingPending commits authorizationId nowUnix =>
    simp only [proceed]
    rcases hload : load authorizationId s.wire with e | record
    · exact h.still trivial
    · exact h.still (asserts_checkPending (known_of_load hload))
  | markingReady commits record nonce nowUnix =>
    simp only [proceed]
    rcases hupdate : updateRecord P record.authorizationId (.markReady nowUnix) s.wire with
      e | ⟨ready, wire⟩
    · exact h.still trivial
    · have hnonce : ready.approvalNonce = some nonce := by
        obtain ⟨l, r, rest, hrecords, hl, hid, happly, -⟩ := updateRecord_eq_ok hupdate
        obtain ⟨hallows, rfl⟩ := transition_eq_ok.1 happly
        refine hok r ?_ hallows
        rw [hrecords, List.find?_append, List.find?_eq_none.2 (by simpa using hl)]
        simp [hid]
      refine ⟨moves_updateRecord hupdate fun _ hn => hn,
        h.madeReady ha.1 ha.2 hupdate hnonce, ?_⟩
      split_ifs <;> trivial
  | claiming authorizationId nowUnix =>
    simp only [proceed]
    rcases hupdate : updateRecord P authorizationId (.claimReady nowUnix) s.wire with
      e | ⟨record, wire⟩
    · exact h.still trivial
    · exact ⟨moves_updateRecord hupdate fun _ hn => mem_append_left _ hn, h.claimed hupdate,
        trivial⟩
  | _ => exact h.still ha

/-- **Every action keeps the invariant.** -/
theorem kept_act (h : Sound s) (ha : Asserts s phase) {action : Action D A}
    (hok : Covered s phase action) : Kept s (act P s phase action) := by
  cases action with
  | start call =>
    unfold act
    dsimp only
    split
    · exact h.still (asserts_start s call)
    · exact h.still (asserts_start s call)
    · exact h.still (asserts_start s call)
    · exact h.still ha
  | locked =>
    cases phase with
    | loading disposition record nowUnix => exact h.still (asserts_prepareNew ha nowUnix)
    | _ => first | exact h.still ha | exact h.still trivial
  | proceed => exact kept_proceed h ha hok
  | approval nonce =>
    unfold act
    dsimp only
    split
    · exact h.still trivial
    · exact h.still trivial
    · exact h.still trivial
    · split
      · rename_i record hrequire
        obtain ⟨-, rfl⟩ := transition_eq_ok.1 hrequire
        exact h.still ⟨fun hready => (by cases hready), fun _ hnone => (by cases hnone)⟩
      · exact h.still trivial
    · exact h.still ha
  | attestation accepted =>
    unfold act
    dsimp only
    split
    · split_ifs
      · exact ⟨.same fun _ hn => mem_append_left _ hn,
          h.noted (fun f hf => (by cases hf)) fun r hr => (by cases hr),
          ha, mem_append_right _ (mem_singleton_self _)⟩
      · exact h.still trivial
    · exact h.still ha
  | later change =>
    unfold act
    dsimp only
    split
    · split_ifs with hlater
      · split
        · exact h.still ha
        · rename_i r wire hupdate
          obtain ⟨_, _, _, -, -, -, happly, -⟩ := updateRecord_eq_ok hupdate
          exact ⟨moves_updateRecord hupdate fun _ hn => hn,
            (h.changed hupdate (status_of_later hlater happly)).1, trivial⟩
      · exact h.still ha
    · exact h.still ha

end

/-! ## Runs -/

/-- The beginning of a run: no process is in a call, no fingerprint is stored twice, and the ready
records with a nonce were verified. -/
structure Begin (c : Config (Shared D A) (Phase D A)) : Prop where
  idle : ∀ i, c.phase i = .idle
  notes : ∀ note ∈ c.shared.history, ∃ nonce fingerprint artifactHash,
    note = .accepted nonce fingerprint artifactHash
  nodup : (c.shared.wire.records.map (·.fingerprint)).Nodup
  ready : ∀ r ∈ c.shared.wire.records, r.status = .ready → ∀ nonce, r.approvalNonce = some nonce →
    .accepted nonce r.fingerprint r.prepared.artifactHash ∈ c.shared.history

theorem Begin.inv {c : Config (Shared D A) (Phase D A)} (h : Begin c) :
    Inv Sound Asserts (fun _ _ => True) c := by
  refine ⟨⟨h.nodup, h.ready, fun f hf => ?_, fun before r after heq hrequired => ?_⟩, fun i => ?_,
    fun _ _ _ => trivial⟩
  · obtain ⟨_, _, _, hnote⟩ := h.notes _ hf
    cases hnote
  · have hmem : .claimed r ∈ c.shared.history := by
      rw [heq]
      simp
    obtain ⟨_, _, _, hnote⟩ := h.notes _ hmem
    cases hnote
  · rw [h.idle i]
    trivial

variable [DecidableEq D]

/-- **A required approval is not skipped** in the runs of any number of processes in which no
prepare that requires an approval finds an unexpired record of its charge without a nonce, and every
record that is made ready has the nonce that was verified. -/
theorem guarded_of_covered {c : Config (Shared D A) (Phase D A)} (hc : Begin c)
    (schedule : List (ℕ × Action D A))
    (hok : Along (advance (act P)) (Meets Covered) c schedule) :
    Guarded (run (advance (act P)) c schedule).shared.history := by
  refine (run_inv (fun _ _ _ => trivial) (fun s p a h ha hok => ?_)
    (fun s p a q h ha hq _ hok => ?_) hc.inv schedule hok).shared.guarded
  · have hkept := kept_act (P := P) h ha hok
    exact ⟨hkept.sound, hkept.asserts⟩
  · exact ⟨hq.moves (kept_act h ha hok).moves, trivial⟩

open Mpp.Readable

def emptyService : Config (Shared ℕ Unit) (Phase ℕ Unit) :=
  ⟨⟨⟨storeVersion, 0, []⟩, []⟩, fun _ => .idle⟩

theorem begin_emptyService : Begin emptyService :=
  ⟨fun _ => rfl, fun _ h => (by cases h), nodup_nil, fun _ h => (by cases h)⟩

def prepare (disposition : ApprovalDisposition) : Action ℕ Unit :=
  .start (.persistPreparedAuthorization "default" "test" (chargeOf 0) disposition 1000)

def commit : Action ℕ Unit :=
  .start (.commitAuthorization "mpp_0123456789abcdef0123456789abcdef" 1001)

def approvedSchedule : List (ℕ × Action ℕ Unit) :=
  [(0, prepare .requireApproval), (0, .proceed), (0, .approval (some "AAAAAAAAAAAAAAAAAAAAAA")),
    (0, .proceed), (1, commit), (1, .proceed), (1, .attestation true), (1, .proceed), (1, .proceed)]

/-- Two prepares of one charge: the one that needs no approval inserts its record between the load
and the insert of the other. -/
def skippedSchedule : List (ℕ × Action ℕ Unit) :=
  [(0, prepare .requireApproval), (0, .proceed), (1, prepare .allow), (1, .proceed), (1, .proceed),
    (0, .approval (some "AAAAAAAAAAAAAAAAAAAAAA")), (0, .proceed), (2, commit), (2, .proceed),
    (2, .proceed)]

theorem covered_approvedSchedule :
    Along (advance (act plainPrimitives)) (Meets Covered) emptyService approvedSchedule := by
  refine ⟨trivial, trivial, trivial, fun r hr => (by cases hr), trivial, trivial, trivial,
    fun r hfind _ => ?_, trivial, trivial⟩
  cases hfind
  rfl

/-- The charge is claimed once, behind an accepted attestation. -/
theorem approvedSchedule_guarded :
    (run (advance (act plainPrimitives)) emptyService approvedSchedule).shared.history.length = 3 ∧
    Guarded (run (advance (act plainPrimitives)) emptyService approvedSchedule).shared.history :=
  ⟨by decide +kernel, guarded_of_covered begin_emptyService approvedSchedule covered_approvedSchedule⟩

/-- The prepare that requires an approval returns, and the charge is claimed without one. -/
theorem skipped_approval : Begin emptyService ∧
    ¬ Guarded (run (advance (act plainPrimitives)) emptyService skippedSchedule).shared.history := by
  refine ⟨begin_emptyService, fun h => ?_⟩
  obtain ⟨_, hnonce, -⟩ := h [.required 0]
    { preparedAtThousand with status := .authorizing, updatedAt := 1001 } [] rfl
    (by simp [preparedAtThousand, recordOf])
  cases hnonce

end AgentWallet.Mpp.Service
