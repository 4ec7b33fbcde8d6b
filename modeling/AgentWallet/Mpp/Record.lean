import AgentWallet.Base.Checks
import AgentWallet.Base.Framing

/-!
# Authorization records

`state.rs`: the record of one payment authorization, its life cycle and the checks a stored record
has to pass.  A record is made from a prepared charge (`AuthorizationRecord.new`), under a
fingerprint that binds profile, network, payer, challenge, terms and expiry.

SHA-256, hexadecimal texts, the XDR of the prepared artifact and its revalidation are parameters
(`Primitives`).  `Valid` is what `validate` accepts, field by field.
-/

namespace AgentWallet.Mpp.Record

open Base.Checks Base.Framing

/-! ## Errors -/

inductive MppErrorCode where
  | challengeInvalid
  | challengeExpired
  | approvalInvalid
  | authorizationNotFound
  | authorizationReplayed
  | stateUnavailable
  | simulationFailed
  | receiptConflict

structure MppError where
  code : MppErrorCode
  message : String

def authorizationNotFound : MppError :=
  ⟨.authorizationNotFound, "no MPP authorization matches the supplied identifier"⟩

def stateError : MppError := ⟨.stateUnavailable, "MPP authorization state is unavailable"⟩

def replayError : MppError := ⟨.authorizationReplayed, "MPP authorization has already been consumed"⟩

def simulationError : MppError :=
  ⟨.simulationFailed, "sponsored transaction simulation failed validation"⟩

/-! ## The life cycle -/

inductive AuthorizationStatus where
  | prepared
  | approvalPending
  | ready
  | authorizing
  | deliveryPending
  | authorized
  | authorizedWithheld
  | receiptObserved
  | settled
  | failed
  | refused
  | expiredUnresolved
  | indeterminate
deriving DecidableEq

namespace AuthorizationStatus

def all : List AuthorizationStatus :=
  [prepared, approvalPending, ready, authorizing, deliveryPending, authorized, authorizedWithheld,
    receiptObserved, settled, failed, refused, expiredUnresolved, indeterminate]

instance : Fintype AuthorizationStatus := ⟨all.toFinset, fun s => by cases s <;> decide⟩

def isTerminal : AuthorizationStatus → Bool
  | settled | refused | failed | expiredUnresolved | authorizedWithheld | indeterminate => true
  | _ => false

/-- The transitions between the statuses of a record. -/
def allows : AuthorizationStatus → AuthorizationStatus → Bool
  | prepared, approvalPending | prepared, ready => true
  | ready, approvalPending => true
  | prepared, expiredUnresolved | approvalPending, expiredUnresolved
  | ready, expiredUnresolved => true
  | approvalPending, ready => true
  | ready, authorizing => true
  | authorizing, deliveryPending | authorizing, failed | authorizing, indeterminate
  | authorizing, refused => true
  | deliveryPending, authorized | deliveryPending, authorizedWithheld => true
  | authorized, receiptObserved | authorized, settled | authorized, failed => true
  | receiptObserved, settled | receiptObserved, failed | receiptObserved, expiredUnresolved => true
  | authorized, expiredUnresolved => true
  | _, _ => false

end AuthorizationStatus

/-! ## Prepared charges -/

/-- The selected challenge, as far as the record depends on it.  The digest of the request context
can fail. -/
structure SelectedChallenge (D : Type) where
  echoId : Option String
  amountDecimal : String
  currency : String
  recipient : String
  contextDigest : Except MppError D
  effectiveExpiresAt : Int64
  challengeDigest : D

/-- A prepared charge; `artifact` is the invocation, the authorization entry, the ledger and the fee
of its simulation. -/
structure PreparedCharge (D A : Type) where
  selected : SelectedChallenge D
  payer : String
  artifact : A
  artifactHash : D

/-- What the record takes from outside: the hash, its text, whether an artifact can be stored
(`to_stored`), and whether a stored one passes its revalidation (`from_stored`). -/
structure Primitives (D A : Type) where
  sha256 : List (Sym D) → D
  hex : D → String
  encodes : PreparedCharge D A → Bool
  revalidates : PreparedCharge D A → Bool

structure HostObservation (D : Type) where
  receiptDigest : D
  referenceDigest : D
  observedAt : Int64

inductive LedgerOutcome where
  | unknown
  | settled (ledger : ℕ) (reconciledAt : Int64)
  | failed (ledger : ℕ) (reconciledAt : Int64)
deriving DecidableEq

structure AuthorizationRecord (D A : Type) where
  authorizationId : String
  fingerprint : D
  status : AuthorizationStatus
  createdAt : Int64
  updatedAt : Int64
  expiresAt : Int64
  prepared : PreparedCharge D A
  approvalNonce : Option String
  credentialDigest : Option D
  hostObservation : Option (HostObservation D)
  ledgerOutcome : LedgerOutcome
  policyAccounted : Bool

variable {D A : Type} (P : Primitives D A)

/-! ## Fingerprints -/

/-- A value behind its length as a big-endian `u64`. -/
def update (l : List UInt8) : List (Sym D) := bytes (beBytes 8 l.length) ++ bytes l

def updateDigest (d : D) : List (Sym D) := bytes (beBytes 8 32) ++ [.digest d]

def fingerprintDomain : List UInt8 := utf8 "stellar-agent-mpp-authorization:v1\x00"

/-- What identifies a charge; the time of its preparation is not part of it. -/
def authorizationFingerprint (profileName networkPassphrase payer : String)
    (selected : SelectedChallenge D) : Except MppError D := do
  let context ← selected.contextDigest
  pure (P.sha256 (bytes fingerprintDomain ++ update (utf8 profileName) ++
    updateDigest (P.sha256 (bytes (utf8 networkPassphrase))) ++ update (utf8 payer) ++
    updateDigest context ++ updateDigest selected.challengeDigest ++ update (utf8 "stellar") ++
    update (utf8 "charge") ++ update (utf8 "sponsored_pull") ++
    update (utf8 selected.amountDecimal) ++ update (utf8 selected.currency) ++
    update (utf8 selected.recipient) ++ bytes (beBytes 8 8) ++
    i64Bytes selected.effectiveExpiresAt))

/-- `mpp_` and the first 32 digits of the fingerprint. -/
def authorizationIdOf (fingerprint : D) : String :=
  "mpp_" ++ String.ofList ((P.hex fingerprint).toList.take 32)

namespace AuthorizationRecord

def new (profileName networkPassphrase : String) (prepared : PreparedCharge D A)
    (nowUnix : Int64) : Except MppError (AuthorizationRecord D A) := do
  let fingerprint ← authorizationFingerprint P profileName networkPassphrase prepared.payer
    prepared.selected
  refuseIf (P.encodes prepared = false) simulationError
  pure
    { authorizationId := authorizationIdOf P fingerprint
      fingerprint := fingerprint
      status := .prepared
      createdAt := nowUnix
      updatedAt := nowUnix
      expiresAt := prepared.selected.effectiveExpiresAt
      prepared := prepared
      approvalNonce := none
      credentialDigest := none
      hostObservation := none
      ledgerOutcome := .unknown
      policyAccounted := false }

def preparedCharge (r : AuthorizationRecord D A) : Except MppError (PreparedCharge D A) :=
  if P.revalidates r.prepared then .ok r.prepared
  else .error ⟨.stateUnavailable, "stored MPP authorization failed validation"⟩

end AuthorizationRecord

/-! ## Checks of a stored record -/

def isNonceByte (b : UInt8) : Bool :=
  (48 ≤ b && b ≤ 57) || (65 ≤ b && b ≤ 90) || (97 ≤ b && b ≤ 122) || b == 45 || b == 95

/-- 22 letters, digits, `-` and `_`. -/
def wellFormedNonce (nonce : String) : Bool :=
  (utf8 nonce).length == 22 && (utf8 nonce).all isNonceByte

/-- The statuses before a credential can have been accounted for. -/
def unaccounted : List AuthorizationStatus := [.prepared, .refused, .approvalPending, .ready]

def uncredentialed : List AuthorizationStatus :=
  [.prepared, .refused, .approvalPending, .ready, .authorizing]

def credentialed : List AuthorizationStatus :=
  [.deliveryPending, .authorized, .authorizedWithheld, .receiptObserved, .settled]

/-- The statuses in which a receipt can have been observed. -/
def observable : List AuthorizationStatus :=
  [.receiptObserved, .settled, .failed, .expiredUnresolved]

def outcomeAllowed : LedgerOutcome → AuthorizationStatus → Bool
  | .settled ledger _, .settled => decide (0 < ledger)
  | .failed ledger _, .failed => decide (0 < ledger)
  | .unknown, .settled => false
  | .settled _ _, _ => false
  | .failed _ _, _ => false
  | .unknown, _ => true

namespace AuthorizationRecord

/-- The checks of a stored record. -/
def validate (r : AuthorizationRecord D A) : Except MppError Unit := do
  refuseIf (r.authorizationId ≠ authorizationIdOf P r.fingerprint ∨ r.updatedAt < r.createdAt ∨
    r.expiresAt < r.createdAt) stateError
  refuseIf (r.approvalNonce.any (fun nonce => !wellFormedNonce nonce) = true) stateError
  refuseIf (r.status = .approvalPending ∧ r.approvalNonce.isNone) stateError
  refuseIf (r.status = .prepared ∧ r.approvalNonce.isSome) stateError
  refuseIf (r.policyAccounted = true ∧ r.status ∈ unaccounted) stateError
  refuseIf (r.credentialDigest.isSome ∧ r.status ∈ uncredentialed) stateError
  refuseIf (r.status ∈ credentialed ∧ r.credentialDigest.isNone) stateError
  refuseIf (r.hostObservation.isSome ∧ (r.status ∉ observable ∨ r.credentialDigest.isNone)) stateError
  refuseIf (outcomeAllowed r.ledgerOutcome r.status = false) stateError
  let prepared ← r.preparedCharge P
  refuseIf (prepared.selected.effectiveExpiresAt ≠ r.expiresAt) stateError

/-! ## Changes -/

def transition (r : AuthorizationRecord D A) (next : AuthorizationStatus) (nowUnix : Int64) :
    Except MppError (AuthorizationRecord D A) :=
  if r.status.allows next then .ok { r with status := next, updatedAt := nowUnix }
  else .error ⟨.authorizationReplayed, "MPP authorization cannot transition from its current state"⟩

def requireApproval (r : AuthorizationRecord D A) (nonce : String) (nowUnix : Int64) :
    Except MppError (AuthorizationRecord D A) :=
  { r with approvalNonce := some nonce }.transition .approvalPending nowUnix

def allowCommit (r : AuthorizationRecord D A) (nowUnix : Int64) :
    Except MppError (AuthorizationRecord D A) :=
  r.transition .ready nowUnix

/-! ## What the checks accept -/

structure Valid (r : AuthorizationRecord D A) : Prop where
  id : r.authorizationId = authorizationIdOf P r.fingerprint
  updated : r.createdAt ≤ r.updatedAt
  expires : r.createdAt ≤ r.expiresAt
  nonce : ∀ nonce, r.approvalNonce = some nonce → wellFormedNonce nonce = true
  pending : r.status = .approvalPending → r.approvalNonce.isSome
  fresh : r.status = .prepared → r.approvalNonce = none
  accounted : r.policyAccounted = true → r.status ∉ unaccounted
  early : r.credentialDigest.isSome → r.status ∉ uncredentialed
  late : r.status ∈ credentialed → r.credentialDigest.isSome
  observed : r.hostObservation.isSome → r.status ∈ observable ∧ r.credentialDigest.isSome
  outcome : outcomeAllowed r.ledgerOutcome r.status = true
  artifact : P.revalidates r.prepared = true
  expiry : r.prepared.selected.effectiveExpiresAt = r.expiresAt

variable {P} {r : AuthorizationRecord D A}

theorem preparedCharge_eq_ok {prepared : PreparedCharge D A} :
    r.preparedCharge P = .ok prepared ↔ P.revalidates r.prepared = true ∧ r.prepared = prepared := by
  unfold preparedCharge
  split_ifs with h
  · simp [h]
  · simp [h]

theorem not_any_iff {nonce : Option String} : ¬ nonce.any (fun n => !wellFormedNonce n) = true ↔
      ∀ n, nonce = some n → wellFormedNonce n = true := by
  cases nonce <;> simp

/-- **`validate` accepts exactly the valid records.** -/
theorem validate_eq_ok_iff {u : Unit} : r.validate P = .ok u ↔ Valid P r := by
  unfold validate
  simp only [bind_eq_ok_iff, refuseIf_eq_ok_iff, exists_const, not_or, Int64.not_lt, not_and,
    not_any_iff, preparedCharge_eq_ok, Decidable.not_not]
  constructor
  · rintro ⟨⟨hid, hupd, hexp⟩, hnonce, hpending, hfresh, hacc, hearly, hlate, hobs, hout, prepared,
      ⟨hart, rfl⟩, hexpiry⟩
    refine ⟨hid, hupd, hexp, hnonce, fun h => ?_, fun h => ?_, hacc, hearly, fun h => ?_,
      fun h => ?_, ?_, hart, hexpiry⟩
    · simpa [Option.isSome_iff_ne_none] using hpending h
    · simpa using hfresh h
    · simpa [Option.isSome_iff_ne_none] using hlate h
    · simpa [Option.isSome_iff_ne_none] using hobs h
    · simpa using hout
  · intro h
    refine ⟨⟨h.id, h.updated, h.expires⟩, h.nonce, fun hs => ?_, fun hs => ?_, h.accounted, h.early,
      fun hs => ?_, fun hs => ?_, ?_, r.prepared, ⟨h.artifact, rfl⟩, h.expiry⟩
    · simpa [Option.isSome_iff_ne_none] using h.pending hs
    · simpa using h.fresh hs
    · simpa [Option.isSome_iff_ne_none] using h.late hs
    · simpa [Option.isSome_iff_ne_none] using h.observed hs
    · simpa using h.outcome

theorem transition_eq_ok {next : AuthorizationStatus} {now : Int64} {r' : AuthorizationRecord D A} :
    r.transition next now = .ok r' ↔
      r.status.allows next = true ∧ r' = { r with status := next, updatedAt := now } := by
  unfold transition
  split_ifs with h
  · simp [h, eq_comm]
  · simp [h]

end AuthorizationRecord

end AgentWallet.Mpp.Record
