import AgentWallet.Approval.Attestation
import AgentWallet.Approval.LifeCycle

/-!
# Decisions of the operator

`decision.rs`, `attest.rs` and `user_id.rs`: an approve or a reject of one pending approval, on
behalf of the local user or of a passkey.  `apply_approve` validates the entry under the store's
lock, gives the lock back while it loads the attestation key, and takes it again: the entry is read
once more, the consent row is written and then the attestation, the grant or the consent is
persisted. `apply_reject` does all of it under one lock.
-/

namespace AgentWallet.Approval.Decisions

open Base Approval.Attestation Approval.Store List Base.Checks
open Approval.LifeCycle (Op)

/-! ## Who decides -/

/-- The proof of a passkey ceremony, bound to one entry. -/
structure VerifiedPasskeyAssertion where
  boundNonce : String

inductive ApproverIdentity where
  | osUid (uid : String)
  | passkeyCredential (credentialIdB64url : String) (verificationWitness : VerifiedPasskeyAssertion)

def ApproverIdentity.matchesEntryProcessUid (identity : ApproverIdentity) (entryProcessUid : String) :
    Bool :=
  match identity with
  | .osUid uid => decide (uid = entryProcessUid)
  | .passkeyCredential _ _ => false

def ApproverIdentity.isAuthorizedForEntry (identity : ApproverIdentity)
    (entryProcessUid entryNonce : String) (allowedCredentials : List String) : Bool :=
  match identity with
  | .osUid uid => (ApproverIdentity.osUid uid).matchesEntryProcessUid entryProcessUid
  | .passkeyCredential credentialIdB64url verificationWitness =>
    decide (credentialIdB64url ≠ "") &&
      allowedCredentials.any (fun allowed => decide (allowed = credentialIdB64url)) &&
      decide (verificationWitness.boundNonce = entryNonce)

/-- The requester.  The local one comes with what `process_uid_for_attestation` gives. -/
inductive RequestIdentity where
  | localUser (processUid : Option String)
  | remote (identity : ApproverIdentity) (allowedCredentials : List String)

inductive Surface where
  | cli
  | serve
  | serveRemote

def Surface.asStr : Surface → String
  | .cli => "cli"
  | .serve => "serve"
  | .serveRemote => "serve-remote"

inductive Outcome where
  | attested (attestation : Option String) (expiresAtUnixMs : ℕ)
  | rejected
  | alreadyResolved (attestation : Option String)
  | expired
  | busy
  | unavailable
  | userMismatch
  | bindingMismatch
  | notFound
  | wrongKind
deriving DecidableEq

def Outcome.attestation : Outcome → Option String
  | .attested attestation _ => attestation
  | .alreadyResolved attestation => attestation
  | _ => none

/-- What a requester is checked with and attributed to. -/
structure Resolved where
  identity : ApproverIdentity
  allowedCredentials : List String
  surface : Surface
  operatorCredentialId : Option String

/-- Who asks: the local user, or the holder of a passkey. -/
def resolveRequester : RequestIdentity → Except Outcome Resolved
  | .localUser (some uid) => .ok ⟨.osUid uid, [], .serve, none⟩
  | .localUser none => .error .unavailable
  | .remote (.passkeyCredential credentialId witness) allowedCredentials =>
    .ok ⟨.passkeyCredential credentialId witness, allowedCredentials, .serveRemote,
      some credentialId⟩
  | .remote identity allowedCredentials =>
    .ok ⟨identity, allowedCredentials, .serveRemote, some "non-passkey-identity"⟩

/-- The check that both paths make of a resolved requester. -/
def Resolved.authorizes (r : Resolved) (e : PendingApproval) : Bool :=
  r.identity.isAuthorizedForEntry e.processUid e.approvalNonce r.allowedCredentials

/-! ## Refusals -/

inductive ApprovalFailure where
  | notFound (detail : String)
  | expired (detail : String)
  | alreadyAttested (detail : String)
  | userMismatch (detail : String)
  | bindingMismatch (detail : String)
  | wrongKind (detail : String)
  | rejected (detail : String)
  | consumed (detail : String)
  | recordFailed (error : ApprovalError)
  | grantPersist (detail : String)
  | keyLengthError (detail : String)
  | sha256HexError (detail : String)
  | clockError (detail : String)

inductive WalletError where
  | approval (failure : ApprovalFailure)
  /-- A refused consent row. -/
  | audit (detail : String)

abbrev Clock := Except String ℕ

def readClock : Clock → Except WalletError ℕ
  | .ok now => .ok now
  | .error err => .error (.approval (.clockError ("system clock error: " ++ err)))

/-! ## The first lock -/

def loadAndValidateEntry (store : Entries) (nonce : String) (identity : ApproverIdentity)
    (allowedCredentials : List String) (clock : Clock) : Except WalletError PendingApproval := do
  let entry ← okOr (Store.get store nonce)
    (.approval (.notFound "no pending approval with that nonce"))
  let nowMs ← readClock clock
  refuseIf (entry.isExpired nowMs = true)
    (.approval (.expired "this pending approval has expired"))
  refuseIf (entry.attestationBlob.isSome = true)
    (.approval (.alreadyAttested "this pending approval has already been attested"))
  refuseIf (identity.isAuthorizedForEntry entry.processUid entry.approvalNonce
      allowedCredentials = false)
    (.approval (.userMismatch ("this pending approval was created by a different local user " ++
      "(process_uid mismatch), or the presented passkey credential is not authorized for this " ++
      "profile; this caller cannot attest it")))
  .ok entry

def storedBlob (store : Entries) (nonce : String) : Option String :=
  (Store.get store nonce).bind PendingApproval.attestationBlob

/-- What `apply_approve` makes of a refused validation. -/
def validationOutcome (store : Entries) (nonce : String) : WalletError → Outcome
  | .approval (.userMismatch _) => .userMismatch
  | .approval (.expired _) => .expired
  | .approval (.notFound _) => .notFound
  | .approval (.alreadyAttested _) => .alreadyResolved (storedBlob store nonce)
  | _ => .unavailable

/-- An entry that was validated, and for whom. -/
structure Validated where
  entry : PendingApproval
  requester : Resolved

/-- `apply_approve` up to the first drop of the store. -/
def approveValidate (store : Entries) (nonce : String) (requester : RequestIdentity)
    (clock : Clock) : Except Outcome Validated := do
  let resolved ← resolveRequester requester
  match loadAndValidateEntry store nonce resolved.identity resolved.allowedCredentials clock with
  | .ok entry => .ok ⟨entry, resolved⟩
  | .error e => .error (validationOutcome store nonce e)

/-! ## Rows -/

/-- The rows of the audit log that record a decision. -/
inductive ConsentRow where
  | approvalAttested (approvalKind gatedTool : String) (envelopeSha256Hex : Option String)
      (noncePrefix origin : String)
  | approvalAttestedRemote (approvalKind gatedTool : String) (envelopeSha256Hex : Option String)
      (noncePrefix operatorCredentialIdRedacted : String)
  | approvalRejected (approvalKind noncePrefix origin : String)
  | approvalRejectedRemote (approvalKind noncePrefix operatorCredentialIdRedacted : String)

def ConsentRow.isAttested : ConsentRow → Bool
  | .approvalAttested _ _ _ _ _ | .approvalAttestedRemote _ _ _ _ _ => true
  | _ => false

def ConsentRow.noncePrefix : ConsentRow → String
  | .approvalAttested _ _ _ nonce _ | .approvalAttestedRemote _ _ _ nonce _
  | .approvalRejected _ nonce _ | .approvalRejectedRemote _ nonce _ => nonce

def noncePrefix8 (nonce : String) : String := String.ofList (nonce.toList.take 8)

/-! ## The second lock -/

/-- The hashes, the text forms of digests and attestations, and the pseudonym of a credential. -/
structure Env (D T : Type) where
  hashes : Hashes D T
  /-- The bytes of a digest written in hexadecimal, or why they cannot be read. -/
  hexDigest : String → Except String D
  /-- A digest that the store holds as bytes. -/
  digest : String → D
  encode : T → String
  pseudonymizeCredentialId : String → String

structure ToolsetGrantRequest where
  binding : AttestationBinding
  gate : ToolsetGate
  processUid : String
  nowUnixMs : ℕ

/-- The record function of the store that an attestation goes to. -/
inductive BlobSlot where
  | attestation
  | trustlineClawbackOptIn
  | ruleProposal

def BlobSlot.record : BlobSlot → Entries → (nonce blob : String) → ℕ → Except ApprovalError Entries
  | .attestation => recordAttestation
  | .trustlineClawbackOptIn => recordTrustlineClawbackOptInAttestation
  | .ruleProposal => recordRuleProposalAttestation

inductive Consent where
  | blob (slot : BlobSlot) (blob : String)
  | grant (request : ToolsetGrantRequest)

/-- An arm of `attest_and_persist`: the row, what is persisted behind it, and the attestation that
is handed out. -/
structure Plan where
  row : ConsentRow
  consent : Consent
  surfaced : Option String

section

variable {D T : Type} (env : Env D T)

def decodeSha256Hex (hex : String) : Except WalletError D :=
  if hex.utf8ByteSize ≠ 64 then
    .error (.approval (.sha256HexError
      ("expected 64 hex chars, got " ++ toString hex.utf8ByteSize)))
  else
    match env.hexDigest hex with
    | .ok digest => .ok digest
    | .error detail => .error (.approval (.sha256HexError detail))

/-- What `emit_attested_audit` writes. -/
def attestedRow (approvalKind gatedTool : String) (envelopeSha256Hex : Option String)
    (approvalNonce : String) (requester : Resolved) : ConsentRow :=
  match requester.operatorCredentialId with
  | some credId =>
    .approvalAttestedRemote approvalKind gatedTool envelopeSha256Hex (noncePrefix8 approvalNonce)
      (env.pseudonymizeCredentialId credId)
  | none =>
    .approvalAttested approvalKind gatedTool envelopeSha256Hex (noncePrefix8 approvalNonce)
      requester.surface.asStr

/-- The attestation of an entry for a digest, as it is encoded. -/
def attestationBlob (key : Key) (binding : AttestationBinding) (entry : PendingApproval)
    (digest : D) : String :=
  env.encode (computeAttestation env.hashes key
    ⟨binding, entry.approvalNonce, digest, entry.processUid⟩)

def attestEnvelope (key : Key) (binding : AttestationBinding) (requester : Resolved)
    (entry : PendingApproval) (envelopeSha256Hex kindName gatedTool : String) :
    Except WalletError Plan := do
  let presentedSha256 ← decodeSha256Hex env envelopeSha256Hex
  .ok
    { row := attestedRow env kindName gatedTool (some envelopeSha256Hex) entry.approvalNonce requester
      consent := .blob .attestation (attestationBlob env key binding entry presentedSha256)
      surfaced := some (attestationBlob env key binding entry presentedSha256) }

def bindingMatches (binding : AttestationBinding) : ApprovalKind → Bool
  | .ruleProposalSimulated chainId _ => decide (chainId = binding.chainId)
  | .mppChargeSimulated profile chainId _ =>
    decide (profile = binding.profileName) && decide (chainId = binding.chainId)
  | _ => true

def rejectedError : WalletError :=
  .approval (.rejected "this pending approval was rejected by the operator and cannot be attested")

def consumedError : WalletError :=
  .approval (.consumed
    "this pending approval was already spent on a submission and cannot be attested")

def recordError : ApprovalError → WalletError
  | .notFound => .approval (.notFound "entry disappeared between lookup and record")
  | .expired => .approval (.expired "entry expired between check and record")
  | .alreadyAttested => .approval (.alreadyAttested "entry was attested by a concurrent process")
  | other => .approval (.recordFailed other)

/-- What an entry that is not the validated one any more is refused with. -/
def changedError : ApprovalKind → WalletError
  | .rejected _ => rejectedError
  | .consumed _ _ _ => consumedError
  | _ => .approval (.wrongKind
      "the pending approval changed between validation and the attest")

/-- Under the second lock: the entry is the one that was validated, and undecided. -/
def refuseUnlessStillPending (store : Entries) (validated : PendingApproval) (nowMs : ℕ) :
    Except WalletError Unit := do
  let current ← okOr (Store.get store validated.approvalNonce) (recordError .notFound)
  refuseIf ((current.kind ≠ validated.kind ∨ current.summary ≠ validated.summary) ∨
      current.processUid ≠ validated.processUid)
    (changedError current.kind)
  refuseIf (current.isExpired nowMs = true) (recordError .expired)
  refuseIf (current.attestationBlob.isSome = true) (recordError .alreadyAttested)

/-- The arm of `attest_and_persist` for a kind, up to its row. -/
def planFor (key : Key) (binding : AttestationBinding) (requester : Resolved)
    (entry : PendingApproval) (nowMs : ℕ) : Except WalletError Plan :=
  match entry.kind with
  | .paymentSimulated hex =>
    attestEnvelope env key binding requester entry hex "PaymentSimulated" "stellar_pay_commit"
  | .trustlineSimulated hex =>
    attestEnvelope env key binding requester entry hex "TrustlineSimulated"
      "stellar_trustline_commit"
  | .claimSimulated hex =>
    attestEnvelope env key binding requester entry hex "ClaimSimulated" "stellar_claim_commit"
  | .toolsetFirstInvokeGate gate =>
    .ok
      { row := attestedRow env "ToolsetFirstInvokeGate"
          ("toolset:" ++ gate.toolsetName ++ ":" ++
            gate.capability) none entry.approvalNonce requester
        consent := .grant ⟨binding, gate, entry.processUid, nowMs⟩
        surfaced := none }
  | .trustlineClawbackOptIn network code issuer =>
    .ok
      { row := attestedRow env "TrustlineClawbackOptIn" "stellar_trustline_commit" none
          entry.approvalNonce requester
        consent := .blob .trustlineClawbackOptIn (attestationBlob env key binding entry
          (computeTrustlineClawbackOptInDigest env.hashes network code issuer))
        surfaced := none }
  | .ruleProposalSimulated _ proposalSha256 =>
    .ok
      { row := attestedRow env "RuleProposalSimulated" "stellar_rule_create_commit"
          (some proposalSha256) entry.approvalNonce requester
        consent := .blob .ruleProposal
          (attestationBlob env key binding entry (env.digest proposalSha256))
        surfaced := some (attestationBlob env key binding entry (env.digest proposalSha256)) }
  | .mppChargeSimulated _ _ preparedArtifactHash =>
    .ok
      { row := attestedRow env "MppChargeSimulated" "stellar_mpp_charge_commit"
          (some preparedArtifactHash) entry.approvalNonce requester
        consent := .blob .attestation
          (attestationBlob env key binding entry (env.digest preparedArtifactHash))
        surfaced := some (attestationBlob env key binding entry (env.digest preparedArtifactHash)) }
  | .rejected _ => .error rejectedError
  | .consumed _ _ _ => .error consumedError
  | other => .error (.approval (.wrongKind ("attest_and_persist does not support " ++
      other.kindName ++ ", expected PaymentSimulated, ClaimSimulated, TrustlineSimulated, " ++
      "MppChargeSimulated, ToolsetFirstInvokeGate, TrustlineClawbackOptIn, or " ++
      "RuleProposalSimulated")))

def attestationKey (keyBytes : List UInt8) : Except WalletError Key :=
  if h : keyBytes.length = 32 then .ok ⟨keyBytes, h⟩
  else .error (.approval (.keyLengthError
    ("attestation key must be 32 bytes, got " ++ toString keyBytes.length)))

/-- `attest_and_persist` up to the row: the plan, with the one clock read. -/
def prepare (binding : AttestationBinding) (store : Entries) (v : Validated)
    (keyBytes : List UInt8) (clock : Clock) : Except WalletError (Plan × ℕ) := do
  refuseIf (bindingMatches binding v.entry.kind = false)
    (.approval (.bindingMismatch "this request belongs to another profile or network"))
  let key ← attestationKey keyBytes
  let nowMs ← readClock clock
  refuseUnlessStillPending store v.entry nowMs
  let plan ← planFor env key binding v.requester v.entry nowMs
  .ok (plan, nowMs)

end

/-- What `apply_approve` makes of a refusal under the second lock. -/
def attestOutcome (store : Entries) (nonce : String) : WalletError → Outcome
  | .approval (.bindingMismatch _) => .bindingMismatch
  | .approval (.wrongKind _) => .wrongKind
  | .approval (.notFound _) => .notFound
  | .approval (.expired _) => .expired
  | .approval (.rejected _) => .alreadyResolved none
  | .approval (.consumed _) => .alreadyResolved none
  | .approval (.alreadyAttested _) => .alreadyResolved (storedBlob store nonce)
  | _ => .unavailable

def recordBlob (slot : BlobSlot) (store : Entries) (nonce blob : String) (nowMs : ℕ)
    (written : Bool) : Except WalletError Entries :=
  match slot.record store nonce blob nowMs with
  | .error e => .error (recordError e)
  | .ok store' => if written then .ok store' else .error (recordError .io)

/-! ## Decisions -/

/-- TTL of a `Rejected` tombstone. -/
def rejectTombstoneTtlMs : ℕ := 3600000

inductive Decision where
  | approve (nonce : String)
  | reject (nonce : String)

def Decision.nonce : Decision → String
  | .approve nonce => nonce
  | .reject nonce => nonce

inductive OpenFailure where
  | writerLocked
  | other

def OpenFailure.outcome : OpenFailure → Outcome
  | .writerLocked => .busy
  | .other => .unavailable

section

variable {D T : Type} (env : Env D T)

def rejectedRow (approvalKind approvalNonce : String) (requester : Resolved) : ConsentRow :=
  match requester.operatorCredentialId with
  | some credId =>
    .approvalRejectedRemote approvalKind (noncePrefix8 approvalNonce)
      (env.pseudonymizeCredentialId credId)
  | none => .approvalRejected approvalKind (noncePrefix8 approvalNonce) requester.surface.asStr

/-- The entry that a reject goes on with, or the answer for a nonce that is resolved already. -/
def rejectable (store : Entries) (nonce : String) : Except Outcome PendingApproval := do
  let entry ← okOr (Store.get store nonce) (.alreadyResolved none)
  refuseIf (entry.kind.isTombstone = true) (.alreadyResolved none)
  refuseIf (entry.attestationBlob.isSome = true) (.alreadyResolved entry.attestationBlob)
  .ok entry

/-- `apply_reject` up to its row: the row, and the time of the rejection. -/
def rejectCheck (store : Entries) (nonce : String) (requester : RequestIdentity) (clock : Clock)
    (poisoned : Bool) : Except Outcome (ConsentRow × ℕ) := do
  let entry ← rejectable store nonce
  let resolved ← resolveRequester requester
  refuseIf (resolved.authorizes entry = false) .userMismatch
  let nowMs ← (readClock clock).mapError fun _ => .unavailable
  refuseIf (poisoned = true) .unavailable
  .ok (rejectedRow env entry.kind.kindName nonce resolved, nowMs)

/-- What the surroundings answer to one decision, and the store that the second open of an approve
finds. -/
structure Answers where
  openFailure : Option OpenFailure := none
  clock : Clock
  key : Option (List UInt8) := none
  reopenFailure : Option OpenFailure := none
  store : Entries
  poisoned : Bool := false
  reclock : Clock
  rowRefusal : Option String := none
  grantFailure : Option String := none
  written : Bool := true

/-- What a decision returns, and the store that it looked at last. -/
structure Returned where
  outcome : Outcome
  store : Entries

/-- The persist step behind the row: what `attest_and_persist` returns. -/
def persistResult (a : Answers) (entry : PendingApproval) (plan : Plan) (nowMs : ℕ) :
    Except WalletError (Option String) :=
  match plan.consent with
  | .blob slot blob => do
    let _ ← recordBlob slot a.store entry.approvalNonce blob nowMs a.written
    .ok plan.surfaced
  | .grant _ =>
    match a.grantFailure with
    | some detail => .error (.approval (.grantPersist detail))
    | none => .ok plan.surfaced

def attestAndPersist (binding : AttestationBinding) (a : Answers) (v : Validated)
    (keyBytes : List UInt8) : Except WalletError (Option String) := do
  let (plan, nowMs) ← prepare env binding a.store v keyBytes a.reclock
  match a.rowRefusal with
  | some detail => .error (.audit detail)
  | none => persistResult a v.entry plan nowMs

/-- `apply_approve` from its second open on. -/
def approveAttest (binding : AttestationBinding) (a : Answers) (nonce : String) (v : Validated)
    (keyBytes : List UInt8) : Outcome :=
  if a.poisoned then .unavailable
  else
    match attestAndPersist env binding a v keyBytes with
    | .ok attestation => .attested attestation v.entry.expiresAtUnixMs
    | .error e => attestOutcome a.store nonce e

/-- An approval as one call; `Approval.Consent` cuts it at its locks and writes. -/
def applyApprove (binding : AttestationBinding) (a : Answers) (store : Entries) (nonce : String)
    (requester : RequestIdentity) : Returned :=
  match a.openFailure with
  | some e => ⟨e.outcome, store⟩
  | none =>
    match approveValidate store nonce requester a.clock with
    | .error outcome => ⟨outcome, store⟩
    | .ok v =>
      match a.key, a.reopenFailure with
      | none, _ => ⟨.unavailable, store⟩
      | some _, some e => ⟨e.outcome, store⟩
      | some keyBytes, none => ⟨approveAttest env binding a nonce v keyBytes, a.store⟩

def rejectResult (a : Answers) : Outcome :=
  match a.rowRefusal with
  | some _ => .unavailable
  | none => if a.written then .rejected else .unavailable

def applyReject (a : Answers) (store : Entries) (nonce : String) (requester : RequestIdentity) :
    Returned :=
  match a.openFailure with
  | some e => ⟨e.outcome, store⟩
  | none =>
    match rejectCheck env store nonce requester a.clock a.poisoned with
    | .error outcome => ⟨outcome, store⟩
    | .ok _ => ⟨rejectResult a, store⟩

def applyDecision (binding : AttestationBinding) (a : Answers) (store : Entries)
    (requester : RequestIdentity) : Decision → Returned
  | .approve nonce => applyApprove env binding a store nonce requester
  | .reject nonce => applyReject env a store nonce requester

end

/-! ## Who may see an attestation -/

def after (ops : List Op) (m : Entries) : Entries :=
  ops.foldl (fun m op => (op.attempt m).entries) m

def Reachable (m : Entries) : Prop := ∃ ops, m = after ops []

/-- What other processes can have made of a store, when the nonce is drawn only once. -/
def Later (nonce : String) (m m' : Entries) : Prop :=
  ∃ ops : List Op, (∀ op ∈ ops, ∀ entry, op.inserts = some entry → entry.approvalNonce ≠ nonce) ∧
    m' = after ops m

def Authorized (requester : RequestIdentity) (e : PendingApproval) : Prop :=
  ∃ r, resolveRequester requester = .ok r ∧ r.authorizes e = true

/-- An attestation is returned only for an entry that the requester is authorized for and that is
not a tombstone. -/
def Guarded (requester : RequestIdentity) (nonce : String) (r : Returned) : Prop :=
  ∀ blob, r.outcome.attestation = some blob →
    ∃ e, Store.get r.store nonce = some e ∧ Authorized requester e ∧ e.kind.isTombstone = false

/-- The entry has a stored attestation that the decision shows before it asks for the requester. -/
def Shows (requester : RequestIdentity) (nowMs : ℕ) (e : PendingApproval) : Decision → Prop
  | .approve _ => (∃ r, resolveRequester requester = .ok r) ∧ e.isExpired nowMs = false ∧
      e.attestationBlob.isSome = true
  | .reject _ => e.kind.isTombstone = false ∧ e.attestationBlob.isSome = true

/-- What is shown belongs to an entry that is not a tombstone, and the requester is authorized for
it. -/
def ShownProperly (m : Entries) (decision : Decision) (requester : RequestIdentity) (nowMs : ℕ) :
    Prop :=
  ∀ e, Store.get m decision.nonce = some e → Shows requester nowMs e decision →
    Authorized requester e ∧ e.kind.isTombstone = false

section

variable {m m' : Entries} {nonce : String} {e : PendingApproval}

/-- Only tombstones without an attestation stand under the nonce. -/
def Blank (nonce : String) (m : Entries) : Prop :=
  ∀ e ∈ m, e.approvalNonce = nonce → e.kind.isTombstone = true ∧ e.attestationBlob = none

theorem Blank.replace (h : Blank nonce m) {nonce' : String}
    {f : PendingApproval → PendingApproval} (hf : ∀ e, (f e).approvalNonce = e.approvalNonce)
    (hblank : ∀ e, e.attestationBlob = none →
      (f e).kind.isTombstone = true ∧ (f e).attestationBlob = none) :
    Blank nonce (Store.replace m nonce' f) := by
  intro e' he' hnonce
  rcases LifeCycle.mem_replace he' with he' | ⟨e, hget, rfl⟩
  · exact h e' he' hnonce
  · rw [hf] at hnonce
    exact hblank e (h e (LifeCycle.mem_of_get hget).1 hnonce).2

theorem Blank.attempt (h : Blank nonce m) {op : Op}
    (hop : ∀ entry, op.inserts = some entry → entry.approvalNonce ≠ nonce) :
    Blank nonce (op.attempt m).entries := by
  rcases hentombs : op.entombs with _ | nonce'
  · intro e' he' hnonce
    rcases (LifeCycle.attempt_spec op m).mem he' with hmem | hinserts | ⟨e, he, -, hsame, hchange⟩
    · exact h e' hmem hnonce
    · exact absurd hnonce (hop e' hinserts)
    · cases hchange with
      | attested _ hbefore _ =>
        have htombstone := (h e he (hsame.trans hnonce)).1
        rw [LifeCycle.recorded_of_tombstone htombstone] at hbefore
        cases hbefore
      | entombed hentombs' _ =>
        rw [hentombs] at hentombs'
        cases hentombs'
  · cases op with
    | reject nonce₁ nowUnixMs ttlMs =>
      simp only [Op.attempt, LifeCycle.replacing]
      rcases hget : Store.get m nonce₁ with _ | e
      · exact h
      · exact h.replace (fun _ => rfl) fun _ _ => ⟨rfl, rfl⟩
    | consume nonce₁ txHash outcome =>
      simp only [Op.attempt, LifeCycle.replacing]
      rcases hget : Store.get m nonce₁ with _ | e
      · exact h
      · rcases hconsume : Store.consume m nonce₁ txHash outcome with _ | m'
        · exact h
        · rw [LifeCycle.consume_eq_ok hget hconsume]
          exact h.replace (fun _ => rfl) fun _ hnone => ⟨rfl, hnone⟩
    | _ => cases hentombs

theorem Blank.later (h : Blank nonce m) (hlater : Later nonce m m') : Blank nonce m' := by
  obtain ⟨ops, hops, rfl⟩ := hlater
  induction ops generalizing m with
  | nil => exact h
  | cons op ops ih =>
    exact ih (h.attempt (hops op mem_cons_self)) fun op' hop' =>
      hops op' (mem_cons_of_mem op hop')

theorem Reachable.nodup (h : Reachable m) : (m.map (·.approvalNonce)).Nodup := by
  obtain ⟨ops, rfl⟩ := h
  have hstep : ∀ m : Entries, (m.map (·.approvalNonce)).Nodup →
      ((after ops m).map (·.approvalNonce)).Nodup := by
    induction ops with
    | nil => exact fun m hm => hm
    | cons op ops ih => exact fun m hm => ih _ ((LifeCycle.attempt_spec op m).nodup hm)
  exact hstep [] nodup_nil

theorem blank_of_get (h : Reachable m) (hget : Store.get m nonce = some e)
    (htombstone : e.kind.isTombstone = true) (hnone : e.attestationBlob = none) : Blank nonce m := by
  intro e' he' hnonce
  obtain ⟨he, hnonce'⟩ := LifeCycle.mem_of_get hget
  obtain rfl : e' = e := inj_on_of_nodup_map h.nodup he' he (hnonce.trans hnonce'.symm)
  exact ⟨htombstone, hnone⟩

end

/-! ## What the sections of a decision can answer -/

section

variable {D T : Type} {env : Env D T} {binding : AttestationBinding} {m : Entries} {nonce : String}
  {requester : RequestIdentity} {clock : Clock}
  {identity : ApproverIdentity} {allowedCredentials : List String} {entry : PendingApproval}

theorem loadAndValidateEntry_eq_ok
    (h : loadAndValidateEntry m nonce identity allowedCredentials clock = .ok entry) :
    Store.get m nonce = some entry ∧ entry.attestationBlob = none ∧
      identity.isAuthorizedForEntry entry.processUid entry.approvalNonce allowedCredentials =
        true := by
  unfold loadAndValidateEntry at h
  simp only [bind_eq_ok_iff, refuseIf_eq_ok_iff, okOr_eq_ok_iff] at h
  obtain ⟨e, hget, now, -, -, -, -, hblob, -, hauthorized, h⟩ := h
  obtain rfl := Except.ok.inj h
  exact ⟨hget, by simpa using hblob, by simpa using hauthorized⟩

variable {detail : String}

theorem loadAndValidateEntry_alreadyAttested
    (h : loadAndValidateEntry m nonce identity allowedCredentials clock =
      .error (.approval (.alreadyAttested detail))) :
    ∃ e now, Store.get m nonce = some e ∧ clock = .ok now ∧ e.isExpired now = false ∧
      e.attestationBlob.isSome = true := by
  unfold loadAndValidateEntry at h
  simp only [bind_eq_error_iff, refuseIf_eq_ok_iff, refuseIf_eq_error_iff,
    okOr_eq_ok_iff, okOr_eq_error_iff, reduceCtorEq, and_false, false_or, exists_const,
    WalletError.approval.injEq] at h
  obtain ⟨e, hget, hclock | ⟨now, hclock, hexpired, hblob⟩⟩ := h
  · cases clock <;> cases hclock
  · refine ⟨e, now, hget, ?_, by simpa using hexpired, ?_⟩
    · cases clock with
      | ok now' => rw [Except.ok.inj hclock]
      | error err => cases hclock
    · rcases hblob with ⟨hstored, -⟩ | hfalse
      · exact hstored
      · exact hfalse.elim

variable {v : Validated}

theorem approveValidate_eq_ok (h : approveValidate m nonce requester clock = .ok v) :
    resolveRequester requester = .ok v.requester ∧ Store.get m nonce = some v.entry ∧
      v.entry.attestationBlob = none ∧ v.requester.authorizes v.entry = true := by
  obtain ⟨r, hresolve, h⟩ := bind_eq_ok_iff.1 h
  split at h
  · rename_i entry hload
    obtain rfl := Except.ok.inj h
    exact ⟨hresolve, loadAndValidateEntry_eq_ok hload⟩
  · cases h

variable {outcome : Outcome}

theorem resolveRequester_eq_error (h : resolveRequester requester = .error outcome) :
    outcome = .unavailable := by
  cases requester with
  | localUser processUid =>
    cases processUid with
    | none => exact (Except.error.inj h).symm
    | some uid => cases h
  | remote identity allowedCredentials => cases identity <;> cases h

variable {blob : String}

theorem approveValidate_attestation (h : approveValidate m nonce requester clock = .error outcome)
    (hblob : outcome.attestation = some blob) :
    ∃ e now, Store.get m nonce = some e ∧ clock = .ok now ∧
      Shows requester now e (.approve nonce) := by
  rcases bind_eq_error_iff.1 h with hresolve | ⟨r, hresolve, h⟩
  · rw [resolveRequester_eq_error hresolve] at hblob
    cases hblob
  · split at h
    · cases h
    · rename_i err hload
      obtain rfl := Except.error.inj h
      unfold validationOutcome at hblob
      split at hblob <;> try cases hblob
      obtain ⟨e, now, hget, hclock, hexpired, hstored⟩ := loadAndValidateEntry_alreadyAttested hload
      exact ⟨e, now, hget, hclock, ⟨r, hresolve⟩, hexpired, hstored⟩

/-- The entry under the second lock is the validated one. -/
def StillThere (m : Entries) (validated : PendingApproval) : Prop :=
  ∃ e, Store.get m validated.approvalNonce = some e ∧ e.kind = validated.kind ∧
    e.processUid = validated.processUid

variable {validated : PendingApproval}

theorem refuseUnlessStillPending_eq_ok {nowMs : ℕ} {u : Unit}
    (h : refuseUnlessStillPending m validated nowMs = .ok u) :
    ∃ e, Store.get m validated.approvalNonce = some e ∧ e.kind = validated.kind ∧
      e.processUid = validated.processUid ∧ e.isExpired nowMs = false ∧
      e.attestationBlob = none := by
  unfold refuseUnlessStillPending at h
  simp only [bind_eq_ok_iff, refuseIf_eq_ok_iff, okOr_eq_ok_iff, not_or, not_not] at h
  obtain ⟨e, hget, -, hsame, -, hexpired, hblob⟩ := h
  exact ⟨e, hget, hsame.1.1, hsame.2, by simpa using hexpired, by simpa using hblob⟩

theorem refuseUnlessStillPending_alreadyAttested {nowMs : ℕ}
    (h : refuseUnlessStillPending m validated nowMs = .error (.approval (.alreadyAttested detail))) :
    StillThere m validated := by
  have hchanged : ∀ kind, changedError kind ≠ .approval (.alreadyAttested detail) := by
    intro kind
    cases kind <;> simp [changedError, rejectedError, consumedError]
  unfold refuseUnlessStillPending at h
  simp only [bind_eq_error_iff, refuseIf_eq_ok_iff, refuseIf_eq_error_iff,
    okOr_eq_ok_iff, okOr_eq_error_iff, hchanged, and_false, false_or, not_or,
    not_not] at h
  rcases h with ⟨-, hnotFound⟩ | ⟨e, hget, -, hsame, -⟩
  · cases hnotFound
  · exact ⟨e, hget, hsame.1.1, hsame.2⟩

variable {plan : Plan}

theorem planFor_isTombstone {key : Key} {r : Resolved} {nowMs : ℕ}
    (h : planFor env key binding r entry nowMs = .ok plan) : entry.kind.isTombstone = false := by
  cases hkind : entry.kind with
  | rejected originalKindName | consumed originalKindName txHash outcome =>
    simp only [planFor, hkind] at h
    cases h
  | _ => rfl

variable {keyBytes : List UInt8}

theorem prepare_eq_ok {nowMs : ℕ} (h : prepare env binding m v keyBytes clock = .ok (plan, nowMs)) :
    ∃ key, attestationKey keyBytes = .ok key ∧ refuseUnlessStillPending m v.entry nowMs = .ok () ∧
      planFor env key binding v.requester v.entry nowMs = .ok plan := by
  unfold prepare at h
  simp only [bind_eq_ok_iff] at h
  obtain ⟨-, -, key, hkey, now, -, ⟨⟩, hpending, plan', hplan, h⟩ := h
  cases h
  exact ⟨key, hkey, hpending, hplan⟩

theorem prepare_alreadyAttested
    (h : prepare env binding m v keyBytes clock = .error (.approval (.alreadyAttested detail))) :
    StillThere m v.entry := by
  rcases bind_eq_error_iff.1 h with hbinding | ⟨⟨⟩, -, h⟩
  · cases (refuseIf_eq_error_iff.1 hbinding).2
  rcases bind_eq_error_iff.1 h with hkey | ⟨key, -, h⟩
  · unfold attestationKey at hkey
    split_ifs at hkey
    cases hkey
  rcases bind_eq_error_iff.1 h with hclock | ⟨now, -, h⟩
  · cases clock <;> cases hclock
  rcases bind_eq_error_iff.1 h with hpending | ⟨⟨⟩, hpending, h⟩
  · exact refuseUnlessStillPending_alreadyAttested hpending
  · obtain ⟨e, hget, hkind, huid, -⟩ := refuseUnlessStillPending_eq_ok hpending
    exact ⟨e, hget, hkind, huid⟩

theorem attestAndPersist_eq_ok {a : Answers} {attestation : Option String}
    (h : attestAndPersist env binding a v keyBytes = .ok attestation) :
    StillThere a.store v.entry ∧ v.entry.kind.isTombstone = false := by
  obtain ⟨⟨plan, now⟩, hprepare, -⟩ := bind_eq_ok_iff.1 h
  obtain ⟨key, -, hpending, hplan⟩ := prepare_eq_ok hprepare
  obtain ⟨e, hget, hkind, huid, -⟩ := refuseUnlessStillPending_eq_ok hpending
  exact ⟨⟨e, hget, hkind, huid⟩, planFor_isTombstone hplan⟩

theorem attestAndPersist_alreadyAttested {a : Answers}
    (h : attestAndPersist env binding a v keyBytes = .error (.approval (.alreadyAttested detail))) :
    StillThere a.store v.entry := by
  rcases bind_eq_error_iff.1 h with hprepare | ⟨⟨plan, now⟩, hprepare, -⟩
  · exact prepare_alreadyAttested hprepare
  · obtain ⟨key, -, hpending, -⟩ := prepare_eq_ok hprepare
    obtain ⟨e, hget, hkind, huid, -⟩ := refuseUnlessStillPending_eq_ok hpending
    exact ⟨e, hget, hkind, huid⟩

theorem approveAttest_attestation {a : Answers}
    (h : (approveAttest env binding a nonce v keyBytes).attestation = some blob) :
    StillThere a.store v.entry ∧
      (v.entry.kind.isTombstone = false ∨ storedBlob a.store nonce = some blob) := by
  unfold approveAttest at h
  split_ifs at h
  · cases h
  · split at h
    · rename_i attestation hattest
      obtain ⟨hthere, htombstone⟩ := attestAndPersist_eq_ok hattest
      exact ⟨hthere, .inl htombstone⟩
    · rename_i err hattest
      unfold attestOutcome at h
      split at h <;> try cases h
      exact ⟨attestAndPersist_alreadyAttested hattest, .inr h⟩

end

/-! ## The attestation is guarded -/

section

variable {D T : Type} {env : Env D T} {binding : AttestationBinding} {m : Entries} {nonce : String}
  {requester : RequestIdentity} {a : Answers} {nowMs : ℕ}

theorem guarded_of_none {r : Returned} (h : r.outcome.attestation = none) :
    Guarded requester nonce r := by
  intro blob hblob
  rw [h] at hblob
  cases hblob

theorem OpenFailure.attestation (e : OpenFailure) : e.outcome.attestation = none := by
  cases e <;> rfl

theorem applyApprove_guarded (hreachable : Reachable m) (hclock : a.clock = .ok nowMs)
    (hlater : Later nonce m a.store) (h : ShownProperly m (.approve nonce) requester nowMs) :
    Guarded requester nonce (applyApprove env binding a m nonce requester) := by
  unfold applyApprove
  split
  · exact guarded_of_none (OpenFailure.attestation _)
  split
  · -- the first lock
    rename_i outcome hvalidate
    intro blob hblob
    obtain ⟨e, now, hget, hclock', hshows⟩ := approveValidate_attestation hvalidate hblob
    obtain rfl : nowMs = now := Except.ok.inj (hclock.symm.trans hclock')
    exact ⟨e, hget, h e hget hshows⟩
  · rename_i v hvalidate
    obtain ⟨hresolve, hget, hnone, hauthorizes⟩ := approveValidate_eq_ok hvalidate
    obtain ⟨-, hnonce⟩ := LifeCycle.mem_of_get hget
    split
    · exact guarded_of_none rfl
    · exact guarded_of_none (OpenFailure.attestation _)
    · -- the second lock: the entry is the validated one
      intro blob hblob
      obtain ⟨⟨e, hget', hkind, huid⟩, htombstone⟩ := approveAttest_attestation hblob
      rw [hnonce] at hget'
      obtain ⟨-, hnonce'⟩ := LifeCycle.mem_of_get hget'
      refine ⟨e, hget', ⟨v.requester, hresolve, ?_⟩, ?_⟩
      · unfold Resolved.authorizes at hauthorizes ⊢
        rw [huid, hnonce', ← hnonce]
        exact hauthorizes
      · rw [hkind]
        rcases htombstone with htombstone | hstored
        · exact htombstone
        · by_contra htombstone
          have hblank := (blank_of_get hreachable hget (by simpa using htombstone) hnone).later hlater
          obtain ⟨-, hnone'⟩ := hblank e (LifeCycle.mem_of_get hget').1 hnonce'
          unfold storedBlob at hstored
          rw [hget', Option.bind_some, hnone'] at hstored
          cases hstored

theorem rejectCheck_attestation {outcome : Outcome} {blob : String} {poisoned : Bool} {clock : Clock}
    (h : rejectCheck env m nonce requester clock poisoned = .error outcome)
    (hblob : outcome.attestation = some blob) :
    ∃ e, Store.get m nonce = some e ∧ Shows requester nowMs e (.reject nonce) := by
  rcases bind_eq_error_iff.1 h with hrejectable | ⟨e, -, h⟩
  · unfold rejectable at hrejectable
    simp only [bind_eq_error_iff, refuseIf_eq_ok_iff, refuseIf_eq_error_iff,
      okOr_eq_ok_iff, okOr_eq_error_iff, reduceCtorEq, and_false, exists_const,
      or_false] at hrejectable
    rcases hrejectable with ⟨-, rfl⟩ | ⟨e, hget, ⟨-, rfl⟩ | ⟨htombstone, hstored, -⟩⟩
    · cases hblob
    · cases hblob
    · exact ⟨e, hget, by simpa using htombstone, hstored⟩
  · rcases bind_eq_error_iff.1 h with hresolve | ⟨r, -, h⟩
    · rw [resolveRequester_eq_error hresolve] at hblob
      cases hblob
    -- from here on no answer has an attestation
    rcases bind_eq_error_iff.1 h with hauthorizes | ⟨-, -, h⟩
    · rw [← (refuseIf_eq_error_iff.1 hauthorizes).2] at hblob
      cases hblob
    rcases bind_eq_error_iff.1 h with hclock | ⟨now, -, h⟩
    · cases clock with
      | ok now => cases hclock
      | error err =>
        rw [← Except.error.inj hclock] at hblob
        cases hblob
    rcases bind_eq_error_iff.1 h with hpoisoned | ⟨-, -, h⟩
    · rw [← (refuseIf_eq_error_iff.1 hpoisoned).2] at hblob
      cases hblob
    · cases h

theorem applyReject_guarded (h : ShownProperly m (.reject nonce) requester nowMs) :
    Guarded requester nonce (applyReject env a m nonce requester) := by
  unfold applyReject
  split
  · exact guarded_of_none (OpenFailure.attestation _)
  split
  · rename_i outcome hcheck
    intro blob hblob
    obtain ⟨e, hget, hshows⟩ := rejectCheck_attestation hcheck hblob
    exact ⟨e, hget, h e hget hshows⟩
  · refine guarded_of_none ?_
    unfold rejectResult
    split
    · rfl
    · split_ifs <;> rfl

def smoothly (m : Entries) (nowMs : ℕ) : Answers where
  clock := .ok nowMs
  store := m
  reclock := .ok nowMs

theorem shown_of_shows {e : PendingApproval} {decision : Decision}
    (hget : Store.get m decision.nonce = some e) (hshows : Shows requester nowMs e decision) :
    applyDecision env binding (smoothly m nowMs) m requester decision =
      ⟨.alreadyResolved e.attestationBlob, m⟩ := by
  cases decision with
  | approve nonce =>
    obtain ⟨⟨r, hresolve⟩, hexpired, hstored⟩ := hshows
    have hload : loadAndValidateEntry m nonce r.identity r.allowedCredentials (.ok nowMs) =
        .error (.approval (.alreadyAttested "this pending approval has already been attested")) := by
      unfold loadAndValidateEntry
      rw [show Store.get m nonce = some e from hget]
      simp [okOr, readClock, refuseIf, hexpired, hstored, bind, Except.bind]
    have hvalidate : approveValidate m nonce requester (.ok nowMs) =
        .error (.alreadyResolved e.attestationBlob) := by
      unfold approveValidate
      rw [hresolve]
      simp only [bind, Except.bind, hload, validationOutcome, storedBlob]
      rw [show Store.get m nonce = some e from hget]
      rfl
    simp [applyDecision, applyApprove, smoothly, hvalidate]
  | reject nonce =>
    obtain ⟨htombstone, hstored⟩ := hshows
    have hcheck : rejectCheck env m nonce requester (.ok nowMs) false =
        .error (.alreadyResolved e.attestationBlob) := by
      unfold rejectCheck rejectable
      rw [show Store.get m nonce = some e from hget]
      simp [okOr, refuseIf, htombstone, hstored, bind, Except.bind]
    simp [applyDecision, applyReject, smoothly, hcheck]

end

/-- **Every attestation that a decision returns is one the requester is authorized for and not of a
tombstone, whatever the surroundings answer, exactly when this holds of the stored attestation that
the decision shows again.** -/
theorem blob_disclosed_iff {D T : Type} (env : Env D T) (binding : AttestationBinding) (m : Entries)
    (hreachable : Reachable m) (decision : Decision) (requester : RequestIdentity) (nowMs : ℕ) :
    (∀ a : Answers, a.clock = .ok nowMs → Later decision.nonce m a.store →
      Guarded requester decision.nonce (applyDecision env binding a m requester decision)) ↔
      ShownProperly m decision requester nowMs := by
  constructor
  · intro h e hget hshows
    have hguarded := h (smoothly m nowMs) rfl ⟨[], by simp, rfl⟩
    rw [shown_of_shows hget hshows] at hguarded
    have hstored : e.attestationBlob.isSome = true := by
      cases decision with
      | approve nonce => exact hshows.2.2
      | reject nonce => exact hshows.2
    obtain ⟨blob, hblob⟩ := Option.isSome_iff_exists.1 hstored
    obtain ⟨e', hget', hauthorized, htombstone⟩ := hguarded blob hblob
    obtain rfl : e = e' := Option.some.inj (hget.symm.trans hget')
    exact ⟨hauthorized, htombstone⟩
  · intro h a hclock hlater
    cases decision with
    | approve nonce => exact applyApprove_guarded hreachable hclock hlater h
    | reject nonce => exact applyReject_guarded h

/-! ## A spent attestation, shown to anyone -/

def lunch : PendingApproval where
  approvalNonce := "AAAAAAAAAAAAAAAAAAAAAA"
  processUid := "1000"
  createdAtUnixMs := 0
  expiresAtUnixMs := 900000
  kind := .paymentSimulated (String.ofList (List.replicate 64 'b'))

def lunchTx : String := String.ofList (List.replicate 64 'c')

def approvedOps : List Op :=
  [.insert lunch 1000, .recordAttestation "AAAAAAAAAAAAAAAAAAAAAA" "blob" 2000]

def spentOps : List Op := approvedOps ++ [.consume "AAAAAAAAAAAAAAAAAAAAAA" lunchTx .confirmed]

def plainEnv : Env Plain (Key × List (Framing.Sym Plain)) where
  hashes := plainHashes
  hexDigest _ := .ok (.mk [])
  digest _ := .mk []
  encode _ := "blob"
  pseudonymizeCredentialId _ := "00000000"

def alicePay : AttestationBinding := ⟨"alice", "stellar:testnet"⟩

/-- The user who asked for an approved payment is shown its attestation again. -/
theorem own_attestation_shown : Store.get (after approvedOps []) "AAAAAAAAAAAAAAAAAAAAAA" =
        some { lunch with attestationBlob := some "blob" } ∧
      ∀ a : Answers, a.clock = .ok 3000 →
        Later (Decision.approve "AAAAAAAAAAAAAAAAAAAAAA").nonce (after approvedOps []) a.store →
        Guarded (.localUser (some "1000")) (Decision.approve "AAAAAAAAAAAAAAAAAAAAAA").nonce
          (applyDecision plainEnv alicePay a (after approvedOps []) (.localUser (some "1000"))
            (.approve "AAAAAAAAAAAAAAAAAAAAAA")) := by
  have hget : Store.get (after approvedOps []) "AAAAAAAAAAAAAAAAAAAAAA" =
      some { lunch with attestationBlob := some "blob" } := by decide +kernel
  refine ⟨hget, (blob_disclosed_iff plainEnv alicePay (after approvedOps []) ⟨approvedOps, rfl⟩
    (.approve "AAAAAAAAAAAAAAAAAAAAAA") (.localUser (some "1000")) 3000).2 fun e he _ => ?_⟩
  obtain rfl := Option.some.inj (hget.symm.trans he)
  exact ⟨⟨_, rfl, by decide⟩, by decide⟩

/-- Another user approves a payment that was sent, or rejects one that was approved: both times the
answer has the attestation. -/
theorem attestation_shown_to_stranger :
    ((Store.get (after spentOps []) "AAAAAAAAAAAAAAAAAAAAAA").map fun e =>
        (e.kind.isTombstone, e.processUid)) = some (true, "1000") ∧
      (applyDecision plainEnv alicePay (smoothly (after spentOps []) 3000) (after spentOps [])
        (.localUser (some "2000")) (.approve "AAAAAAAAAAAAAAAAAAAAAA")).outcome =
          .alreadyResolved (some "blob") ∧
      (applyDecision plainEnv alicePay (smoothly (after spentOps []) 3000) (after spentOps [])
        (.localUser (some "1000")) (.approve "AAAAAAAAAAAAAAAAAAAAAA")).outcome =
          .alreadyResolved (some "blob") ∧
      (applyDecision plainEnv alicePay (smoothly (after approvedOps []) 3000) (after approvedOps [])
        (.localUser (some "2000")) (.reject "AAAAAAAAAAAAAAAAAAAAAA")).outcome =
          .alreadyResolved (some "blob") ∧
      (ApproverIdentity.osUid "2000").isAuthorizedForEntry "1000" "AAAAAAAAAAAAAAAAAAAAAA" [] =
        false := by
  decide +kernel

end AgentWallet.Approval.Decisions
