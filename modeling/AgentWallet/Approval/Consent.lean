import AgentWallet.Approval.Decisions
import AgentWallet.Base.Interleaving

/-!
# Consent is recorded before it takes effect

Any number of processes decide on the approvals of a profile, step by step: validate an entry under
the store's lock, give the lock back, take it again, read the entry once more, write the row,
persist. Every step can fail and every process can stop in front of every step.  Between the
decisions other commands work on the store.
-/

namespace AgentWallet.Approval.Consent

open List Base.Checks

open Base Base.Runs Base.Interleaving Approval.Attestation Approval.Store Approval.Decisions
open Approval.LifeCycle (Op)

/-! ## Steps of a decision -/

/-- What the processes share: the store's file and its lock, the rows that are durable in the audit
log or in its outbox, and the grants.  A row and a grant stand beside the nonce of the decision that
wrote them. -/
structure Shared where
  disk : Entries
  locked : Bool
  rows : List (String × ConsentRow)
  grants : List (String × ToolsetGrantRequest)

/-- Where a decision stands, with what the process has read. -/
inductive Phase where
  | idle
  /-- The entry is validated, the lock given back. -/
  | validated (v : Validated)
  /-- The second lock is held. -/
  | attesting (store : Entries) (v : Validated) (keyBytes : List UInt8)
  /-- The row of an approve is written. -/
  | consenting (store : Entries) (v : Validated) (plan : Plan) (nowMs : ℕ)
  /-- The grant is persisted, its entry not yet removed. -/
  | granted (store : Entries) (v : Validated)
  /-- A reject has made its checks. -/
  | rejecting (store : Entries) (nonce : String) (row : ConsentRow) (nowMs : ℕ)
  /-- The row of a reject is written. -/
  | refusing (store : Entries) (nonce : String) (nowMs : ℕ)
  | done (outcome : Outcome)

def Phase.held : Phase → Option Entries
  | .attesting store _ _ | .consenting store _ _ _ | .granted store _ | .rejecting store _ _ _
  | .refusing store _ _ => some store
  | _ => none

def Phase.recorded : Phase → Bool
  | .consenting _ _ _ _ | .granted _ _ | .refusing _ _ _ => true
  | _ => false

/-- A step of a process, with what its surroundings answer. -/
inductive Action where
  | approve (nonce : String) (requester : RequestIdentity) (failure : Option OpenFailure)
      (clock : Clock)
  /-- The key is loaded and the store opened again. -/
  | reopen (key : Option (List UInt8)) (failure : Option OpenFailure)
  /-- The entry is read again and the row written; a refused row may have landed. -/
  | writeRow (binding : AttestationBinding) (poisoned : Bool) (clock : Clock)
      (refusal : Option String) (landed : Bool)
  /-- The attestation or the grant is persisted; a write that reports a failure may have landed. -/
  | persist (grantFailure : Option String) (landed reported : Bool)
  | removeEntry (landed : Bool)
  | reject (nonce : String) (requester : RequestIdentity) (failure : Option OpenFailure)
      (clock : Clock) (poisoned : Bool)
  | writeRejection (refused landed : Bool)
  | persistRejection (landed reported : Bool)
  /-- The process ends, and its lock with it. -/
  | crash
  /-- Another command works on the store. -/
  | other (op : Op) (landed : Bool)

def Action.isOther : Action → Bool
  | .other _ _ => true
  | _ => false

/-- An operation of a command that is no decision: it attests and rejects nothing. -/
def isHarmless : Op → Bool
  | .insert entry _ => entry.attestationBlob.isNone && !entry.kind.isTombstone
  | .recordAttestation _ _ _ | .recordTrustlineClawbackOptInAttestation _ _ _
  | .recordRuleProposalAttestation _ _ _ | .reject _ _ _ => false
  | _ => true

def Shared.unlock (s : Shared) : Shared := { s with locked := false }

def Shared.addRow (s : Shared) (nonce : String) (row : ConsentRow) (landed : Bool) : Shared :=
  { s with rows := if landed then s.rows ++ [(nonce, row)] else s.rows }

def Shared.write (s : Shared) (disk : Entries) (landed : Bool) : Shared :=
  { s with disk := if landed then disk else s.disk }

def openStore (s : Shared) (failure : Option OpenFailure) : Except Outcome Entries :=
  match failure with
  | some e => .error e.outcome
  | none => if s.locked then .error OpenFailure.writerLocked.outcome else .ok s.disk

section

variable {D T : Type} (env : Env D T)

def beginApprove (s : Shared) (nonce : String) (requester : RequestIdentity)
    (failure : Option OpenFailure) (clock : Clock) : Phase :=
  match openStore s failure with
  | .error outcome => .done outcome
  | .ok store =>
    match approveValidate store nonce requester clock with
    | .ok v => .validated v
    | .error outcome => .done outcome

def reopen (s : Shared) (v : Validated) (key : Option (List UInt8)) (failure : Option OpenFailure) :
    Shared × Phase :=
  match key, openStore s failure with
  | none, _ => (s, .done .unavailable)
  | some _, .error outcome => (s, .done outcome)
  | some keyBytes, .ok store => ({ s with locked := true }, .attesting store v keyBytes)

def writeRow (s : Shared) (store : Entries) (v : Validated) (keyBytes : List UInt8)
    (binding : AttestationBinding) (poisoned : Bool) (clock : Clock) (refusal : Option String)
    (landed : Bool) : Shared × Phase :=
  if poisoned then (s.unlock, .done .unavailable)
  else
    match prepare env binding store v keyBytes clock, refusal with
    | .error e, _ => (s.unlock, .done (attestOutcome store v.entry.approvalNonce e))
    | .ok (plan, _), some detail =>
      ((s.addRow v.entry.approvalNonce plan.row landed).unlock,
        .done (attestOutcome store v.entry.approvalNonce (.audit detail)))
    | .ok (plan, nowMs), none =>
      (s.addRow v.entry.approvalNonce plan.row true, .consenting store v plan nowMs)

/-- What is written behind the row; a grant keeps the lock for the removal of its entry. -/
def persist (s : Shared) (store : Entries) (v : Validated) (plan : Plan) (nowMs : ℕ)
    (grantFailure : Option String) (landed reported : Bool) : Shared × Phase :=
  match plan.consent with
  | .blob slot blob =>
    match slot.record store v.entry.approvalNonce blob nowMs with
    | .error e => (s.unlock, .done (attestOutcome store v.entry.approvalNonce (recordError e)))
    | .ok store' =>
      ((s.write store' landed).unlock,
        if landed && !reported then .done (.attested plan.surfaced v.entry.expiresAtUnixMs)
        else .done (attestOutcome store' v.entry.approvalNonce (recordError .io)))
  | .grant request =>
    match grantFailure with
    | some detail =>
      (({ s with grants := if landed then s.grants ++ [(v.entry.approvalNonce, request)]
            else s.grants } : Shared).unlock,
        .done (attestOutcome store v.entry.approvalNonce (.approval (.grantPersist detail))))
    | none =>
      ({ s with grants := s.grants ++ [(v.entry.approvalNonce, request)] }, .granted store v)

def beginReject (s : Shared) (nonce : String) (requester : RequestIdentity)
    (failure : Option OpenFailure) (clock : Clock) (poisoned : Bool) : Shared × Phase :=
  match openStore s failure with
  | .error outcome => (s, .done outcome)
  | .ok store =>
    match rejectCheck env store nonce requester clock poisoned with
    | .error outcome => (s, .done outcome)
    | .ok (row, nowMs) => ({ s with locked := true }, .rejecting store nonce row nowMs)

/-- Another command: it opens the store, does its operation and closes the store. -/
def otherCommand (s : Shared) (op : Op) (landed : Bool) : Shared :=
  if s.locked || !isHarmless op then s
  else s.write (op.attempt s.disk).entries ((op.attempt s.disk).persists && landed)

/-- A process that is not in the middle of a decision. -/
def start (s : Shared) (p : Phase) : Action → Shared × Phase
  | .approve nonce requester failure clock => (s, beginApprove s nonce requester failure clock)
  | .reject nonce requester failure clock poisoned =>
    beginReject env s nonce requester failure clock poisoned
  | .other op landed => (otherCommand s op landed, p)
  | _ => (s, p)

/-- One step of a decision that has begun. -/
def proceed (s : Shared) : Phase → Action → Shared × Phase
  | .attesting store v keyBytes, .writeRow binding poisoned clock refusal landed =>
    writeRow env s store v keyBytes binding poisoned clock refusal landed
  | .consenting store v plan nowMs, .persist grantFailure landed reported =>
    persist s store v plan nowMs grantFailure landed reported
  | .granted store v, .removeEntry landed =>
    -- a failed removal is only logged
    ((s.write (Store.remove store v.entry.approvalNonce) landed).unlock,
      .done (.attested none v.entry.expiresAtUnixMs))
  | .rejecting store nonce row nowMs, .writeRejection refused landed =>
    if refused then ((s.addRow nonce row landed).unlock, .done .unavailable)
    else (s.addRow nonce row true, .refusing store nonce nowMs)
  | .refusing store nonce nowMs, .persistRejection landed reported =>
    ((s.write (Store.reject store nonce nowMs rejectTombstoneTtlMs) landed).unlock,
      if landed && !reported then .done .rejected else .done .unavailable)
  | _, .crash => (s.unlock, .idle)
  | p, _ => (s, p)

def act (s : Shared) (p : Phase) (a : Action) : Shared × Phase :=
  match p, a with
  | .idle, a => start env s .idle a
  | .done outcome, a => start env s (.done outcome) a
  | .validated v, .reopen key failure => reopen s v key failure
  | .validated _, .crash => (s, .idle)
  | .validated v, _ => (s, .validated v)
  | p, a => proceed env s p a

end

/-- Stores of any content, and no decision under way. -/
def initial (disk : Entries) (rows : List (String × ConsentRow))
    (grants : List (String × ToolsetGrantRequest)) : Config Shared Phase :=
  ⟨⟨disk, false, rows, grants⟩, fun _ => .idle⟩

/-! ## What should hold -/

def contentDigest {D T : Type} (env : Env D T) : ApprovalKind → Option D
  | .paymentSimulated hex | .trustlineSimulated hex | .claimSimulated hex =>
    (decodeSha256Hex env hex).toOption
  | .trustlineClawbackOptIn network code issuer =>
    some (computeTrustlineClawbackOptInDigest env.hashes network code issuer)
  | .ruleProposalSimulated _ proposalSha256 => some (env.digest proposalSha256)
  | .mppChargeSimulated _ _ preparedArtifactHash => some (env.digest preparedArtifactHash)
  | _ => none

/-- The attestation is one of the entry as it is. -/
def AttestsEntry {D T : Type} (env : Env D T) (blob : String) (e : PendingApproval) : Prop :=
  ∃ key binding digest, contentDigest env e.kind = some digest ∧
    blob = attestationBlob env key binding e digest

def isRejected : ApprovalKind → Bool
  | .rejected _ => true
  | _ => false

/-- A row of an approve or of a reject, with the beginning of the nonce in it. -/
def Records (row : ConsentRow) (nonce : String) (attested : Bool) : Prop :=
  row.isAttested = attested ∧ ConsentRow.noncePrefix row = noncePrefix8 nonce

/-- A row was written for the nonce. -/
def HasRow (s : Shared) (nonce : String) (attested : Bool) : Prop :=
  ∃ row, (nonce, row) ∈ s.rows ∧ Records row nonce attested

/-- What became durable between two states has its row in the first. -/
structure RecordedFirst {D T : Type} (env : Env D T) (s s' : Shared) : Prop where
  blob : ∀ e' ∈ s'.disk, ∀ blob, e'.attestationBlob = some blob →
    (∃ e ∈ s.disk, e.approvalNonce = e'.approvalNonce ∧ e.attestationBlob = some blob) ∨
    HasRow s e'.approvalNonce true ∧
      ∃ e, Store.get s.disk e'.approvalNonce = some e ∧ e.attestationBlob = none ∧
        AttestsEntry env blob e
  grant : ∀ g ∈ s'.grants, g ∈ s.grants ∨
    HasRow s g.1 true ∧ ∃ e, Store.get s.disk g.1 = some e ∧
      e.kind = .toolsetFirstInvokeGate g.2.gate ∧ e.processUid = g.2.processUid
  rejection : ∀ e' ∈ s'.disk, isRejected e'.kind = true →
    (∃ e ∈ s.disk, e.approvalNonce = e'.approvalNonce ∧ isRejected e.kind = true) ∨
    HasRow s e'.approvalNonce false

/-- What a process knows of the shared state in its phase. -/
def Good {D T : Type} (env : Env D T) (s : Shared) : Phase → Prop
  | .attesting store _ _ => s.locked = true ∧ store = s.disk
  | .consenting store v plan nowMs =>
    (s.locked = true ∧ store = s.disk) ∧ HasRow s v.entry.approvalNonce true ∧
      refuseUnlessStillPending s.disk v.entry nowMs = .ok () ∧
      ∃ key binding, planFor env key binding v.requester v.entry nowMs = .ok plan
  | .granted store _ => s.locked = true ∧ store = s.disk
  | .rejecting store nonce row _ => (s.locked = true ∧ store = s.disk) ∧ Records row nonce false
  | .refusing store nonce _ => (s.locked = true ∧ store = s.disk) ∧ HasRow s nonce false
  | _ => True

/-! ## One step -/

section

variable {D T : Type} {env : Env D T} {s s' : Shared} {p : Phase} {a : Action}

theorem RecordedFirst.of_same (hdisk : s'.disk = s.disk) (hgrants : s'.grants = s.grants) :
    RecordedFirst env s s' where
  blob e' he' _ hblob := .inl ⟨e', hdisk ▸ he', rfl, hblob⟩
  grant _ hg := .inl (hgrants ▸ hg)
  rejection e' he' hrejected := .inl ⟨e', hdisk ▸ he', rfl, hrejected⟩

theorem act_of_locked (hheld : p.held = none) (hlocked : s.locked = true) :
    (act env s p a).1 = s ∧ (act env s p a).2.held = none := by
  have hopen : ∀ failure, ∃ outcome, openStore s failure = .error outcome := by
    intro failure
    cases failure with
    | none => exact ⟨.busy, by simp only [openStore, hlocked, if_true, OpenFailure.outcome]⟩
    | some e => exact ⟨e.outcome, rfl⟩
  have hstart : ∀ q : Phase, q.held = none →
      (start env s q a).1 = s ∧ (start env s q a).2.held = none := by
    intro q hq
    cases a with
    | approve nonce requester failure clock =>
      obtain ⟨outcome, hfail⟩ := hopen failure
      simp [start, beginApprove, hfail, Phase.held]
    | reject nonce requester failure clock poisoned =>
      obtain ⟨outcome, hfail⟩ := hopen failure
      simp [start, beginReject, hfail, Phase.held]
    | other op landed => simp [start, otherCommand, hlocked, hq]
    | _ => exact ⟨rfl, hq⟩
  cases p with
  | idle => exact hstart .idle rfl
  | done outcome => exact hstart (.done outcome) rfl
  | validated v =>
    cases a with
    | reopen key failure =>
      obtain ⟨outcome, hfail⟩ := hopen failure
      cases key <;> simp [act, reopen, hfail, Phase.held]
    | _ => exact ⟨rfl, rfl⟩
  | _ => cases hheld

theorem act_unrecorded (hrecorded : p.recorded = false) (hother : a.isOther = false) :
    (act env s p a).1.disk = s.disk ∧ (act env s p a).1.grants = s.grants := by
  have hstart : ∀ q, (start env s q a).1.disk = s.disk ∧ (start env s q a).1.grants = s.grants := by
    intro q
    cases a with
    | reject nonce requester failure clock poisoned =>
      simp only [start, beginReject]
      split
      · exact ⟨rfl, rfl⟩
      · split <;> exact ⟨rfl, rfl⟩
    | other op landed => cases hother
    | _ => exact ⟨rfl, rfl⟩
  cases p with
  | idle => exact hstart .idle
  | done outcome => exact hstart (.done outcome)
  | validated v =>
    cases a with
    | reopen key failure =>
      simp only [act, reopen]
      split <;> exact ⟨rfl, rfl⟩
    | _ => exact ⟨rfl, rfl⟩
  | attesting store v keyBytes =>
    cases a with
    | writeRow binding poisoned clock refusal landed =>
      simp only [act, proceed, writeRow]
      split_ifs
      · exact ⟨rfl, rfl⟩
      · split <;> exact ⟨rfl, rfl⟩
    | _ => exact ⟨rfl, rfl⟩
  | rejecting store nonce row nowMs =>
    cases a with
    | writeRejection refused landed =>
      simp only [act, proceed]
      split_ifs <;> exact ⟨rfl, rfl⟩
    | _ => exact ⟨rfl, rfl⟩
  | consenting store v plan nowMs | granted store v | refusing store nonce nowMs => cases hrecorded

theorem openStore_eq_ok {failure : Option OpenFailure} {store : Entries}
    (h : openStore s failure = .ok store) : store = s.disk := by
  unfold openStore at h
  split at h
  · cases h
  · split_ifs at h
    exact (Except.ok.inj h).symm

variable {nowMs : ℕ} {plan : Plan} {key : Key} {binding : AttestationBinding} {r : Resolved}
  {entry : PendingApproval}

/-- A plan names the entry in its row, and attests the entry or grants what it asks for. -/
theorem planFor_eq_ok (h : planFor env key binding r entry nowMs = .ok plan) :
    Records plan.row entry.approvalNonce true ∧
    ((∃ slot digest, contentDigest env entry.kind = some digest ∧
      plan.consent = .blob slot (attestationBlob env key binding entry digest)) ∨
    ∃ gate, entry.kind = .toolsetFirstInvokeGate gate ∧
      plan.consent = .grant ⟨binding, gate, entry.processUid, nowMs⟩) := by
  have hrow : ∀ kind tool hex,
      Records (attestedRow env kind tool hex entry.approvalNonce r) entry.approvalNonce true := by
    intro kind tool hex
    unfold attestedRow
    split <;> exact ⟨rfl, rfl⟩
  unfold planFor at h
  cases hkind : entry.kind with
  | paymentSimulated hex | trustlineSimulated hex | claimSimulated hex =>
    rw [hkind] at h
    obtain ⟨digest, hdigest, hplan⟩ := bind_eq_ok_iff.1 h
    obtain rfl := Except.ok.inj hplan
    refine ⟨hrow _ _ _, .inl ⟨.attestation, digest, ?_, rfl⟩⟩
    simp only [contentDigest, hdigest]
    rfl
  | toolsetFirstInvokeGate gate =>
    rw [hkind] at h
    obtain rfl := Except.ok.inj h
    exact ⟨hrow _ _ _, .inr ⟨gate, rfl, rfl⟩⟩
  | trustlineClawbackOptIn network code issuer | ruleProposalSimulated chainId proposalSha256
  | mppChargeSimulated profile chainId preparedArtifactHash =>
    rw [hkind] at h
    obtain rfl := Except.ok.inj h
    exact ⟨hrow _ _ _, .inl ⟨_, _, rfl, rfl⟩⟩
  | _ =>
    rw [hkind] at h
    cases h

theorem hasRow_addRow {row : ConsentRow} {nonce : String} {attested : Bool} (s : Shared)
    (h : Records row nonce attested) : HasRow (s.addRow nonce row true) nonce attested :=
  ⟨row, mem_append_right _ mem_cons_self, h⟩

theorem good_act (h : Good env s p) : Good env (act env s p a).1 (act env s p a).2 := by
  have hstart : ∀ q, Good env s q → q.held = none →
      Good env (start env s q a).1 (start env s q a).2 := by
    intro q hq hheld
    cases a with
    | approve nonce requester failure clock =>
      simp only [start, beginApprove]
      split
      · trivial
      · split <;> trivial
    | reject nonce requester failure clock poisoned =>
      simp only [start, beginReject]
      split
      · trivial
      · rename_i store hopen
        split
        · trivial
        · rename_i row nowMs hcheck
          have hdisk := openStore_eq_ok hopen
          refine ⟨⟨rfl, hdisk⟩, ?_⟩
          unfold rejectCheck at hcheck
          simp only [bind_eq_ok_iff] at hcheck
          obtain ⟨entry, -, r, -, -, -, now, -, -, -, hrow⟩ := hcheck
          cases hrow
          unfold rejectedRow
          split <;> exact ⟨rfl, rfl⟩
    | other op landed => cases q <;> trivial
    | _ => exact hq
  cases p with
  | idle => exact hstart .idle trivial rfl
  | done outcome => exact hstart (.done outcome) trivial rfl
  | validated v =>
    cases a with
    | reopen key failure =>
      simp only [act, reopen]
      split
      · trivial
      · trivial
      · rename_i keyBytes store hopen
        have hdisk := openStore_eq_ok hopen
        exact ⟨rfl, hdisk⟩
    | _ => trivial
  | attesting store v keyBytes =>
    obtain ⟨hlocked, rfl⟩ := h
    cases a with
    | writeRow binding poisoned clock refusal landed =>
      simp only [act, proceed, writeRow]
      split_ifs
      · trivial
      · split
        · trivial
        · trivial
        · rename_i plan nowMs hprepare
          obtain ⟨key, -, hpending, hplan⟩ := prepare_eq_ok hprepare
          have hrow := (planFor_eq_ok hplan).1
          exact ⟨⟨hlocked, rfl⟩, hasRow_addRow s hrow, hpending, key, binding, hplan⟩
    | crash => trivial
    | _ => exact ⟨hlocked, rfl⟩
  | consenting store v plan nowMs =>
    cases a with
    | persist grantFailure landed reported =>
      simp only [act, proceed, persist]
      split
      · split
        · trivial
        · split_ifs <;> trivial
      · split
        · trivial
        · exact h.1
    | crash => trivial
    | _ => exact h
  | granted store v =>
    cases a with
    | removeEntry landed => trivial
    | crash => trivial
    | _ => exact h
  | rejecting store nonce row nowMs =>
    obtain ⟨hheld, hrow⟩ := h
    cases a with
    | writeRejection refused landed =>
      simp only [act, proceed]
      split_ifs
      · trivial
      · exact ⟨hheld, hasRow_addRow s hrow⟩
    | crash => trivial
    | _ => exact ⟨hheld, hrow⟩
  | refusing store nonce nowMs =>
    cases a with
    | persistRejection landed reported =>
      simp only [act, proceed]
      split_ifs <;> trivial
    | crash => trivial
    | _ => exact h

/-- The attestation and the rejection of an entry were there before. -/
def Kept (m : Entries) (e' : PendingApproval) : Prop :=
  (∀ blob, e'.attestationBlob = some blob →
    ∃ e ∈ m, e.approvalNonce = e'.approvalNonce ∧ e.attestationBlob = some blob) ∧
  (isRejected e'.kind = true →
    ∃ e ∈ m, e.approvalNonce = e'.approvalNonce ∧ isRejected e.kind = true)

variable {m : Entries} {e' : PendingApproval}

theorem Kept.of_mem (h : e' ∈ m) : Kept m e' :=
  ⟨fun _ hblob => ⟨e', h, rfl, hblob⟩, fun hrejected => ⟨e', h, rfl, hrejected⟩⟩

variable {nonce : String}

theorem Kept.of_replace {f : PendingApproval → PendingApproval} (h : e' ∈ Store.replace m nonce f)
    (hnonce : ∀ e, (f e).approvalNonce = e.approvalNonce)
    (hblob : ∀ e, (f e).attestationBlob = e.attestationBlob)
    (hrejected : ∀ e, isRejected (f e).kind = true → isRejected e.kind = true) : Kept m e' := by
  rcases LifeCycle.mem_replace h with h | ⟨e, hget, rfl⟩
  · exact .of_mem h
  · have he := (LifeCycle.mem_of_get hget).1
    exact ⟨fun blob h => ⟨e, he, (hnonce e).symm, (hblob e).symm.trans h⟩,
      fun h => ⟨e, he, (hnonce e).symm, hrejected e h⟩⟩

variable {m' : Entries}

theorem recordPasskeyAssertion_kept {assertion : AssertionInput}
    (h : recordPasskeyAssertion m nonce assertion nowMs = .ok m') (he' : e' ∈ m') : Kept m e' := by
  unfold recordPasskeyAssertion at h
  split at h
  · cases h
  · simp only [bind_eq_ok_iff] at h
    obtain ⟨-, -, -, -, -, -, -, -, h⟩ := h
    obtain rfl := Except.ok.inj h
    exact .of_replace he' (fun _ => rfl) (fun _ => rfl) fun _ h => h

theorem recordPasskeyRegistration_kept {registration : RegistrationInput}
    (h : recordPasskeyRegistration m nonce registration nowMs = .ok m') (he' : e' ∈ m') :
    Kept m e' := by
  unfold recordPasskeyRegistration at h
  split at h
  · cases h
  · obtain ⟨-, -, h⟩ := bind_eq_ok_iff.1 h
    split at h
    · cases h
    · obtain rfl := Except.ok.inj h
      exact .of_replace he' (fun _ => rfl) (fun _ => rfl) fun _ h => by cases h
    · cases h

variable {op : Op}

theorem harmless_attempt (hop : isHarmless op = true) (he' : e' ∈ (op.attempt m).entries) :
    Kept m e' := by
  cases op with
  | insert entry nowUnixMs =>
    simp only [isHarmless, Bool.and_eq_true, Option.isNone_iff_eq_none] at hop
    simp only [Op.attempt] at he'
    split_ifs at he'
    · exact .of_mem (mem_of_mem_filter he')
    · exact .of_mem (mem_of_mem_filter he')
    · rcases mem_append.1 he' with he' | he'
      · exact .of_mem (mem_of_mem_filter he')
      · obtain rfl := mem_singleton.1 he'
        refine ⟨fun blob hblob => ?_, fun hrejected => ?_⟩
        · rw [hop.1] at hblob
          cases hblob
        · cases hkind : e'.kind <;>
            simp [hkind, isRejected, ApprovalKind.isTombstone] at hop hrejected
  | remove nonce | gcExpired nowUnixMs => exact .of_mem (mem_of_mem_filter he')
  | consume nonce txHash outcome =>
    simp only [Op.attempt, LifeCycle.replacing] at he'
    rcases hget : Store.get m nonce with _ | e
    · rw [hget] at he'
      exact .of_mem he'
    · rcases hconsume : Store.consume m nonce txHash outcome with _ | m'
      · rw [hget, hconsume] at he'
        exact .of_mem he'
      · rw [hget, hconsume] at he'
        obtain rfl := LifeCycle.consume_eq_ok hget hconsume
        exact .of_replace he' (fun _ => rfl) (fun _ => rfl) fun _ h => by cases h
  | recordPasskeyAssertion nonce assertion nowMs =>
    simp only [Op.attempt, LifeCycle.recording] at he'
    split at he'
    · exact .of_mem he'
    · rename_i m' hrecord
      exact recordPasskeyAssertion_kept hrecord he'
  | recordPasskeyRegistration nonce registration nowMs =>
    simp only [Op.attempt, LifeCycle.recording] at he'
    split at he'
    · exact .of_mem he'
    · rename_i m' hrecord
      exact recordPasskeyRegistration_kept hrecord he'
  | _ => cases hop

variable {slot : BlobSlot} {blob : String}

theorem record_eq_ok (h : slot.record m nonce blob nowMs = .ok m') :
    m' = Store.replace m nonce fun e => { e with attestationBlob := some blob } := by
  have hrecord : ∀ accepts expected, Store.recordBlob accepts expected m nonce blob nowMs = .ok m' →
      m' = Store.replace m nonce fun e => { e with attestationBlob := some blob } := by
    intro accepts expected h
    unfold Store.recordBlob at h
    split at h
    · cases h
    · simp only [bind_eq_ok_iff] at h
      obtain ⟨-, -, -, -, -, -, h⟩ := h
      exact (Except.ok.inj h).symm
  cases slot with
  | attestation => exact hrecord (·.attestedDigest.isSome) _ h
  | trustlineClawbackOptIn => exact hrecord (·.isTrustlineClawbackOptIn) _ h
  | ruleProposal => exact hrecord (·.isRuleProposalSimulated) _ h

variable {v : Validated}

theorem RecordedFirst.blob_recorded (hrow : HasRow s v.entry.approvalNonce true)
    (hpending : refuseUnlessStillPending s.disk v.entry nowMs = .ok ())
    (hplan : ∃ key binding, planFor env key binding v.requester v.entry nowMs = .ok plan)
    (hconsent : plan.consent = .blob slot blob) (hgrants : s'.grants = s.grants)
    (hdisk : s'.disk = Store.replace s.disk v.entry.approvalNonce
      fun e => { e with attestationBlob := some blob }) :
    RecordedFirst env s s' := by
  obtain ⟨key, binding, hplan⟩ := hplan
  obtain ⟨e, hget, hkind, huid, -, hnone⟩ := refuseUnlessStillPending_eq_ok hpending
  obtain ⟨-, hnonce⟩ := LifeCycle.mem_of_get hget
  have hattests : AttestsEntry env blob e := by
    rcases (planFor_eq_ok hplan).2 with ⟨slot', digest, hdigest, hblob⟩ | ⟨gate, -, hgrant⟩
    · rw [hconsent] at hblob
      obtain ⟨rfl, rfl⟩ := Consent.blob.inj hblob
      refine ⟨key, binding, digest, hkind ▸ hdigest, ?_⟩
      unfold attestationBlob
      rw [hnonce, huid]
    · rw [hconsent] at hgrant
      cases hgrant
  refine ⟨fun e' he' blob' hblob' => ?_, fun g hg => .inl (hgrants ▸ hg), fun e' he' hrejected => ?_⟩
  · rw [hdisk] at he'
    rcases LifeCycle.mem_replace he' with he' | ⟨e₁, hget₁, rfl⟩
    · exact .inl ⟨e', he', rfl, hblob'⟩
    · obtain rfl : e = e₁ := Option.some.inj (hget.symm.trans hget₁)
      obtain rfl := Option.some.inj hblob'
      rw [hnonce]
      exact .inr ⟨hrow, e, hget, hnone, hattests⟩
  · rw [hdisk] at he'
    rcases LifeCycle.mem_replace he' with he' | ⟨e₁, hget₁, rfl⟩
    · exact .inl ⟨e', he', rfl, hrejected⟩
    · exact .inl ⟨e₁, (LifeCycle.mem_of_get hget₁).1, rfl, hrejected⟩

theorem RecordedFirst.of_kept (hdisk : ∀ e' ∈ s'.disk, Kept s.disk e')
    (hgrants : s'.grants = s.grants) : RecordedFirst env s s' where
  blob e' he' blob hblob := .inl ((hdisk e' he').1 blob hblob)
  grant _ hg := .inl (hgrants ▸ hg)
  rejection e' he' hrejected := .inl ((hdisk e' he').2 hrejected)

variable {landed : Bool}

theorem recordedFirst_persist {grantFailure : Option String} {reported : Bool}
    (h : Good env s (.consenting s.disk v plan nowMs)) :
    RecordedFirst env s (persist s s.disk v plan nowMs grantFailure landed reported).1 := by
  obtain ⟨-, hrow, hpending, hplan⟩ := h
  have hgrant : ∀ request, plan.consent = .grant request →
      ∃ e, Store.get s.disk v.entry.approvalNonce = some e ∧
        e.kind = .toolsetFirstInvokeGate request.gate ∧ e.processUid = request.processUid := by
    intro request hconsent
    obtain ⟨key, binding, hplan⟩ := hplan
    obtain ⟨e, hget, hkind, huid, -⟩ := refuseUnlessStillPending_eq_ok hpending
    rcases (planFor_eq_ok hplan).2 with ⟨slot, digest, -, hblob⟩ | ⟨gate, hgate, hrequest⟩
    · rw [hconsent] at hblob
      cases hblob
    · rw [hconsent] at hrequest
      cases hrequest
      exact ⟨e, hget, hkind.trans hgate, huid⟩
  have hadded : ∀ request, plan.consent = .grant request → ∀ s' : Shared, s'.disk = s.disk →
      s'.grants = s.grants ++ [(v.entry.approvalNonce, request)] → RecordedFirst env s s' := by
    intro request hconsent s' hdisk hgrants
    refine ⟨fun e' he' _ hblob => .inl ⟨e', hdisk ▸ he', rfl, hblob⟩, fun g hg => ?_,
      fun e' he' hrejected => .inl ⟨e', hdisk ▸ he', rfl, hrejected⟩⟩
    rw [hgrants] at hg
    rcases mem_append.1 hg with hg | hg
    · exact .inl hg
    · obtain rfl := mem_singleton.1 hg
      exact .inr ⟨hrow, hgrant request hconsent⟩
  unfold persist
  split
  · rename_i slot blob hconsent
    split
    · exact .of_same rfl rfl
    · rename_i store' hrecord
      cases landed with
      | false => exact .of_same rfl rfl
      | true => exact .blob_recorded hrow hpending hplan hconsent rfl (record_eq_ok hrecord)
  · rename_i request hconsent
    split
    · cases landed with
      | false => exact .of_same rfl rfl
      | true => exact hadded request hconsent _ rfl rfl
    · exact hadded request hconsent _ rfl rfl

theorem recordedFirst_reject (hrow : HasRow s nonce false) (hgrants : s'.grants = s.grants)
    (hdisk : s'.disk = Store.reject s.disk nonce nowMs rejectTombstoneTtlMs) :
    RecordedFirst env s s' := by
  refine ⟨fun e' he' blob hblob => ?_, fun g hg => .inl (hgrants ▸ hg), fun e' he' hrejected => ?_⟩
  · rw [hdisk] at he'
    rcases LifeCycle.mem_replace he' with he' | ⟨e, hget, rfl⟩
    · exact .inl ⟨e', he', rfl, hblob⟩
    · cases hblob
  · rw [hdisk] at he'
    rcases LifeCycle.mem_replace he' with he' | ⟨e, hget, rfl⟩
    · exact .inl ⟨e', he', rfl, hrejected⟩
    · have hnonce : (rejectedTombstone nowMs rejectTombstoneTtlMs e).approvalNonce = nonce :=
        (LifeCycle.mem_of_get hget).2
      rw [hnonce]
      exact .inr hrow

theorem recordedFirst_otherCommand : RecordedFirst env s (otherCommand s op landed) := by
  unfold otherCommand
  split_ifs with hguard
  · exact .of_same rfl rfl
  · simp only [Bool.or_eq_true, Bool.not_eq_true', not_or, Bool.not_eq_false] at hguard
    refine .of_kept (fun e' he' => ?_) rfl
    simp only [Shared.write] at he'
    split_ifs at he'
    · exact harmless_attempt hguard.2 he'
    · exact .of_mem he'

/-- **One step: what becomes durable has its row.** -/
theorem recordedFirst_act (h : Good env s p) : RecordedFirst env s (act env s p a).1 := by
  by_cases hunrecorded : p.recorded = false ∧ a.isOther = false
  · have hsame : (act env s p a).1.disk = s.disk ∧ (act env s p a).1.grants = s.grants :=
      act_unrecorded hunrecorded.1 hunrecorded.2
    exact .of_same hsame.1 hsame.2
  cases p with
  | idle | done outcome =>
    cases a with
    | other op landed => exact recordedFirst_otherCommand
    | _ => exact absurd ⟨rfl, rfl⟩ hunrecorded
  | consenting store v plan nowMs =>
    obtain rfl : store = s.disk := h.1.2
    cases a with
    | persist grantFailure landed reported => exact recordedFirst_persist h
    | _ => exact .of_same rfl rfl
  | granted store v =>
    obtain rfl : store = s.disk := h.2
    cases a with
    | removeEntry landed =>
      cases landed with
      | false => exact .of_same rfl rfl
      | true => exact .of_kept (fun e' he' => .of_mem (mem_of_mem_filter he')) rfl
    | _ => exact .of_same rfl rfl
  | refusing store nonce nowMs =>
    obtain rfl : store = s.disk := h.1.2
    cases a with
    | persistRejection landed reported =>
      cases landed with
      | false => exact .of_same rfl rfl
      | true => exact recordedFirst_reject h.2 rfl rfl
    | _ => exact .of_same rfl rfl
  | _ =>
    -- no row is written yet, and the step is not one of another command
    cases a with
    | other op landed => exact .of_same rfl rfl
    | _ => exact absurd ⟨rfl, rfl⟩ hunrecorded

end

/-! ## Every interleaving -/

section

variable {D T : Type} {env : Env D T}

/-- Two processes do not hold the lock at once. -/
def Apart (p q : Phase) : Prop := p.held = none ∨ q.held = none

theorem Good.locked {s : Shared} {p : Phase} (h : Good env s p) (hheld : p.held ≠ none) :
    s.locked = true := by
  cases p with
  | attesting store v keyBytes => exact h.1
  | consenting store v plan nowMs | rejecting store nonce row nowMs | refusing store nonce nowMs =>
    exact h.1.1
  | granted store v => exact h.1
  | _ => exact absurd rfl hheld

theorem Good.of_not_held {s : Shared} {p : Phase} (h : p.held = none) : Good env s p := by
  cases p <;> trivial

theorem run_good (disk : Entries) (rows : List (String × ConsentRow))
    (grants : List (String × ToolsetGrantRequest)) (schedule : List (ℕ × Action)) :
    Inv (fun _ => True) (Good env) Apart
      (run (advance (act env)) (initial disk rows grants) schedule) := by
  have hstart : Inv (fun _ => True) (Good env) Apart (initial disk rows grants) :=
    ⟨trivial, fun _ => trivial, fun _ _ _ => .inl rfl⟩
  have hany : Along (advance (act env)) (Meets fun _ _ _ => True)
      (initial disk rows grants) schedule :=
    along_of_states schedule _ fun _ _ _ _ => trivial
  refine run_inv (fun p q h => h.symm)
    (fun s p a _ hp _ => ⟨trivial, good_act hp⟩) ?_ hstart schedule hany
  intro s p a q _ hp hq hapart _
  by_cases hheld : q.held = none
  · exact ⟨.of_not_held hheld, .inr hheld⟩
  · -- the other process holds the lock
    have hnothing : (act env s p a).1 = s ∧ (act env s p a).2.held = none :=
      act_of_locked (hapart.resolve_right hheld) (hq.locked hheld)
    rw [hnothing.1]
    exact ⟨hq, .inl hnothing.2⟩

end

/-- **In every interleaving of decisions and other commands, whenever an attestation, a grant or a
rejection becomes durable its row was durable before, and it is computed from the entry that the
store holds at that moment; a decision whose row is not written changes neither store.** -/
theorem consent_recorded_first {D T : Type} (env : Env D T) (disk : Entries)
    (rows : List (String × ConsentRow)) (grants : List (String × ToolsetGrantRequest))
    (schedule : List (ℕ × Action)) (process : ℕ) (a : Action) :
    RecordedFirst env (run (advance (act env)) (initial disk rows grants) schedule).shared
        (run (advance (act env)) (initial disk rows grants) (schedule ++ [(process, a)])).shared ∧
      (((run (advance (act env)) (initial disk rows grants) schedule).phase process).recorded =
          false → a.isOther = false → (run (advance (act env)) (initial disk rows grants)
            (schedule ++ [(process, a)])).shared.disk =
          (run (advance (act env)) (initial disk rows grants) schedule).shared.disk ∧
        (run (advance (act env)) (initial disk rows grants)
            (schedule ++ [(process, a)])).shared.grants =
          (run (advance (act env)) (initial disk rows grants) schedule).shared.grants) := by
  have hgood : Good env _ _ := (run_good disk rows grants schedule).phase process
  rw [run_append]
  exact ⟨recordedFirst_act hgood, act_unrecorded⟩

end AgentWallet.Approval.Consent
