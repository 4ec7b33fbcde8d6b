import AgentWallet.Approval.Store
import AgentWallet.Base.Programs
import AgentWallet.PolicyState.Images
import AgentWallet.Profile.Receipt

/-!
# The submission recorder

`WalletSubmissionRecorder`: what the wallet writes before it sends a transaction (`preSend`) and
when it learns what became of it (`outcome`).  Three stores take part, the receipts, the
spending-window file and the audit log, and an approval that a submission spends leaves a tombstone
in a fourth.
-/

namespace AgentWallet.Network.SubmissionRecord

open Base.Programs Policy.Outcome Policy.StateStore PolicyState.Wire Profile.Receipt
open Approval.Store (Entries ApprovalError ApprovalKind ConsumedOutcome)

/-! ## Errors -/

def wireCode : DenyReason → String
  | .perTxCapExceeded _ _ _ => "policy.deny.per_tx_cap_exceeded"
  | .approvalAboveExceeded _ _ _ => "policy.deny.approval_above_exceeded"
  | .perPeriodCapExceeded _ _ _ _ _ => "policy.deny.per_period_cap_exceeded"
  | .rateLimitExceeded _ _ _ => "policy.deny.rate_limit_exceeded"
  | .counterpartyDenied _ _ => "policy.deny.counterparty_denied"
  | .minimumReserveBreached _ _ => "policy.deny.minimum_reserve_breached"
  | .ownerSignatureStale _ => "policy.deny.owner_signature_stale"
  | .noMatchingRule => "policy.deny.no_matching_rule"
  | .explicitRuleDeny => "policy.deny.explicit_rule_deny"
  | .counterpartyKindUnsupported _ => "policy.deny.counterparty_kind_unsupported"
  | .evaluationError _ => "policy.deny.evaluation_error"
  | .unsizableValueEffect _ => "policy.deny.unsizable_value_effect"
  | .innerInvocationCountCapExceeded _ _ => "policy.deny.inner_invocation_count_cap_exceeded"
  | .bundleAggregateCapExceeded _ _ _ => "policy.deny.bundle_aggregate_cap_exceeded"
  | .bundleContainsGenericKind _ => "policy.deny.bundle_contains_generic_kind"
  | .bundleDenied _ _ => "policy.deny.bundle_denied"
  | .quorumNotSatisfied _ _ => "policy.deny.quorum_not_satisfied"
  | .homeDomainNotResolved _ => "policy.deny.home_domain_not_resolved"
  | .sep10SessionMissing _ => "policy.deny.sep10.session_missing"
  | .sep45SessionMissing _ => "policy.deny.sep45.session_missing"

/-- The errors of recording, sending and polling.  Texts that quote a store or an endpoint are left
out. -/
inductive WalletError where
  | txAlreadySubmitted (hash : String)
  | recordUnavailable
  | policyDenied (reason : DenyReason)
  | auditTipAnchorMismatch (profile reason : String)
  | txMalformed
  | txTimeout (txHash : String) (seconds : ℕ)
  | hashMismatch (localHash server : String)
  | rpcTimeout (seconds : ℕ)
  | rpcUnreachable
  | xdrCodecFailed
  | onChain (code : String)
deriving DecidableEq

def WalletError.code : WalletError → String
  | .txAlreadySubmitted _ => "submission.tx_already_submitted"
  | .recordUnavailable => "submission.record_unavailable"
  | .policyDenied reason => wireCode reason
  | .auditTipAnchorMismatch _ _ => "audit.tip_anchor_mismatch"
  | .txMalformed => "submission.tx_malformed"
  | .txTimeout _ _ => "submission.tx_timeout"
  | .hashMismatch _ _ => "submission.hash_mismatch"
  | .rpcTimeout _ => "network.rpc_timeout"
  | .rpcUnreachable => "network.rpc_unreachable"
  | .xdrCodecFailed => "protocol.xdr_codec_failed"
  | .onChain code => code

/-- The audit writer's refusals, as the recorder tells them apart. -/
inductive WriterError where
  | tipAnchorMismatch (reason : String)
  | unavailable

/-! ## The recorder -/

/-- The submission about to be sent.  The envelope hash is the hexadecimal digest of the envelope,
so it is not empty. -/
structure SubmissionIntent where
  identity : Identity
  hash_ne : identity.envelopeHash ≠ ""

/-- The hash the records of a submission are kept under. -/
abbrev SubmissionIntent.envelopeHash (intent : SubmissionIntent) : String :=
  intent.identity.envelopeHash

/-- What a recorder knows about its submission. -/
structure Recorder where
  profileName : String
  tool : String
  windowEntries : List WindowEntry
  /-- The profile has an audit log. -/
  hasAudit : Bool
  callerWritesConfirmedRow : Bool := false
  /-- The approval the submission spends. -/
  approval : Option String := none
  nowMs : ℕ

def Recorder.reservation (rec : Recorder) (intent : SubmissionIntent) : WindowReservation :=
  { id := intent.envelopeHash
    txHash := intent.identity.txHash
    source := intent.identity.source
    sequence := intent.identity.sequence
    maxTime := intent.identity.maxTime
    pendingSinceMs := rec.nowMs
    submissionLedger := intent.identity.recordedAtLedger
    operatorRequired := false }

inductive RowKind where
  | valueActionPending (sequence : ℤ)
  | valueActionSubmitted (ledger : ℕ)
  | valueActionFailed (code : String)

structure AuditRow where
  kind : RowKind
  tool : String
  envelopeHash : String
  approvalNonce : Option String

def Recorder.pendingRow (rec : Recorder) (intent : SubmissionIntent) : AuditRow :=
  ⟨.valueActionPending intent.identity.sequence, rec.tool, intent.envelopeHash, rec.approval⟩

def Recorder.failedRow (rec : Recorder) (intent : SubmissionIntent) (code : String) : AuditRow :=
  ⟨.valueActionFailed code, rec.tool, intent.envelopeHash, rec.approval⟩

def Recorder.submittedRow (rec : Recorder) (intent : SubmissionIntent) (ledger : ℕ) : AuditRow :=
  ⟨.valueActionSubmitted ledger, rec.tool, intent.envelopeHash, rec.approval⟩

structure Stores where
  receipts : ReceiptMap
  window : WireFile
  audit : List AuditRow
  approvals : Entries := []
  /-- A best-effort step failed. -/
  warned : Bool := false

/-- A window-store failure that is not its own answer about a duplicate. -/
abbrev WindowFault := { e : WindowStoreError // e ≠ .duplicateReservation }

/-- Which steps fail, the time the window store reads, and what other processes do. -/
structure Faults where
  anchorBefore : Option WriterError := none
  receiptGate : Option ReceiptStoreError := none
  windowCheck : Option WindowFault := none
  others : WireFile → WireFile := id
  pendingRow : Option WriterError := none
  anchorAfter : Option WriterError := none
  reservation : Option WindowFault := none
  markSubmitted : Option ReceiptStoreError := none
  settleWindow : Option WindowFault := none
  outcomeRow : Option WriterError := none
  receiptWrite : Option ReceiptStoreError := none
  approvalStore : Option ApprovalError := none
  windowNowMs : ℕ := 0

abbrev Run := Program WalletError Stores

variable (rec : Recorder) (faults : Faults) (intent : SubmissionIntent)

/-! ## Steps -/

/-- An operation on the receipts; a fault leaves them alone. -/
def receiptOp (fault : Option ReceiptStoreError) (op : ReceiptOp) :
    Run (Except ReceiptStoreError Answer) := do
  match fault with
  | some e => return .error e
  | none =>
    let (answer, receipts) := perform (← get).receipts ⟨op, .written⟩
    modify fun s => { s with receipts := receipts }
    return answer

/-- An operation on the window file; a fault leaves it alone. -/
def windowOp (fault : Option WindowFault) (op : StoreOp) : Run (Except WindowStoreError Unit) := do
  match fault with
  | some e => return .error e.1
  | none =>
    match op.exec faults.windowNowMs (← get).window with
    | .error e => return .error e
    | .ok window =>
      modify fun s => { s with window := window }
      return .ok ()

/-- A row of the audit log; without a writer there is nothing to append to. -/
def appendRow (fault : Option WriterError) (row : AuditRow) : Run (Except WriterError Unit) := do
  if rec.hasAudit then
    match fault with
    | some e => return .error e
    | none =>
      modify fun s => { s with audit := s.audit ++ [row] }
      return .ok ()
  else return .ok ()

def bestEffort {ε α : Type} (result : Except ε α) : Run Unit := do
  match result with
  | .ok _ => return ()
  | .error _ => modify fun s => { s with warned := true }

/-- The refusal an audit failure is reported as. -/
def auditRefusal : WriterError → WalletError
  | .tipAnchorMismatch reason => .auditTipAnchorMismatch rec.profileName reason
  | .unavailable => .recordUnavailable

/-- The refusal of bytes that are already recorded. -/
def alreadySubmitted : WalletError := .txAlreadySubmitted intent.identity.txHash

/-- The refusal a window failure is reported as. -/
def reservationRefusal : WindowStoreError → WalletError
  | .policyDenied reason => .policyDenied reason
  | .duplicateReservation => alreadySubmitted intent
  | _ => .recordUnavailable

inductive WindowSettlement where
  | confirm (createdAt : Option ℤ)
  | release

/-- Settles the reservation, where the submission took one. -/
def settleWindow (settlement : WindowSettlement) : Run Unit := do
  if rec.windowEntries = [] then return ()
  let result ← match settlement with
    | .confirm createdAt =>
      windowOp faults faults.settleWindow (.confirm intent.envelopeHash createdAt)
    | .release => windowOp faults faults.settleWindow (.release intent.envelopeHash)
  bestEffort result

def writeOutcomeRow (row : AuditRow) : Run Unit := do
  bestEffort (← appendRow rec faults.outcomeRow row)

def writeFailedRow (code : String) : Run Unit :=
  writeOutcomeRow rec faults (rec.failedRow intent code)

/-- How far `pre_send` got, which says what is undone. -/
inductive UnwoundAfter where
  | receipt
  | pendingRow
  | reservation
deriving DecidableEq

/-- Undoes what `pre_send` wrote. -/
def unwind (reached : UnwoundAfter) (code : String) : Run Unit := do
  if reached = .reservation then settleWindow rec faults intent .release
  if reached = .pendingRow ∨ reached = .reservation then writeFailedRow rec faults intent code
  bestEffort (← receiptOp faults.receiptWrite (.abandonPreSubmit intent.envelopeHash))

def refuse (reached : UnwoundAfter) (refusal : WalletError) : Run Unit := do
  unwind rec faults intent reached refusal.code
  throw refusal

/-! ## Before the send -/

/-- Refuses while the audit log's tip anchor is behind. -/
def requireAnchorBeforeRow : Run Unit := do
  if rec.hasAudit then
    match faults.anchorBefore with
    | some e => throw (auditRefusal rec e)
    | none => return ()

/-- Records the receipt, or refuses because its approval, sequence or bytes are taken. -/
def receiptGate : Run Unit := do
  match ← receiptOp faults.receiptGate (.beginSubmission intent.identity rec.approval) with
  | .ok (.duplicateSequence existing) | .ok (.duplicateApproval existing)
  | .ok (.alreadyPresent existing) => throw (.txAlreadySubmitted existing.identity.txHash)
  | .ok _ => return ()
  | .error _ => throw .recordUnavailable

/-- Asks the window file whether it holds these bytes already. -/
def holdsReservation : Run (Except WindowStoreError Bool) := do
  match faults.windowCheck with
  | some e => return .error e.1
  | none => return .ok (fileHoldsId (← get).window intent.envelopeHash)

def windowRefusal : Except WindowStoreError Bool → Option WalletError
  | .ok false => none
  | .ok true => some (alreadySubmitted intent)
  | .error e => some (reservationRefusal intent e)

/-- Asks the window file before the pending row is written, where a reservation will be taken. -/
def windowPrecheck : Run Unit := do
  if rec.windowEntries = [] then return ()
  match windowRefusal intent (← holdsReservation faults intent) with
  | none => return ()
  | some refusal => refuse rec faults intent .receipt refusal

/-- The pending row, and the refusal of a tip anchor that does not cover it. -/
def writePendingRow : Run (Option WalletError) := do
  match ← appendRow rec faults.pendingRow (rec.pendingRow intent) with
  | .error e =>
    refuse rec faults intent .receipt (auditRefusal rec e)
    return none
  | .ok () => return if rec.hasAudit then faults.anchorAfter.map (auditRefusal rec) else none

/-- What a refused reservation undoes.  The row of a duplicate stays open: the submission that holds
the hash settles it. -/
def reachedOn : WindowStoreError → UnwoundAfter
  | .duplicateReservation => .receipt
  | _ => .pendingRow

/-- Reserves the window entries; `behind` is what the anchor check after the row found. -/
def reserveWindow (behind : Option WalletError) : Run Unit := do
  if rec.windowEntries = [] then
    match behind with
    | some refusal => refuse rec faults intent .pendingRow refusal
    | none => return ()
  else
    let op := StoreOp.recordPending rec.windowEntries (rec.reservation intent)
    match ← windowOp faults faults.reservation op with
    | .error e => refuse rec faults intent (reachedOn e) (reservationRefusal intent e)
    | .ok () =>
      match behind with
      | some refusal => refuse rec faults intent .reservation refusal
      | none => return ()

/-- Marks the receipt submitted, last before the send. -/
def markSubmittedLast : Run Unit := do
  match ← receiptOp faults.markSubmitted (.markSubmitted intent.envelopeHash) with
  | .ok _ => return ()
  | .error _ => refuse rec faults intent .reservation .recordUnavailable

def preSend : Run Unit := do
  requireAnchorBeforeRow rec faults
  receiptGate rec faults intent
  windowPrecheck rec faults intent
  modify fun s => { s with window := faults.others s.window }
  let behind ← writePendingRow rec faults intent
  reserveWindow rec faults intent behind
  markSubmittedLast rec faults intent

/-! ## After the send -/

inductive SubmissionOutcome where
  | success (ledger : ℕ) (createdAt : Option ℤ)
  | onChainFailed (code : String)
  | rejected (code : String)
  | timeout
  | transportAfterSend
deriving DecidableEq

/-- What a receipt knows of the transaction its approval was spent on. -/
def consumedOutcome (receipt : SubmissionReceipt) : ConsumedOutcome :=
  if receipt.status.isDefinitiveOutcome then .confirmed else .unknown

/-- Leaves the tombstone of an approval in its store, unless it is there already. -/
def consumeApproval (receipt : SubmissionReceipt) (nonce : String) : Run Unit := do
  if faults.approvalStore.isSome then throw .recordUnavailable
  let approvals := (← get).approvals
  let kind : Option ApprovalKind := (Approval.Store.get approvals nonce).map (·.kind)
  match kind with
  | some (.consumed _ txHash _) =>
    if txHash ≠ receipt.identity.txHash then throw .recordUnavailable
  | _ =>
    match Approval.Store.consume approvals nonce receipt.identity.txHash
      (consumedOutcome receipt) with
    | .error _ => throw .recordUnavailable
    | .ok approvals => modify fun s => { s with approvals := approvals }

def acknowledgeConsumption : Run Unit := do
  match ← receiptOp faults.receiptWrite (.markApprovalConsumed intent.envelopeHash) with
  | .ok _ => return ()
  | .error _ => throw .recordUnavailable

/-- Completes the approval's tombstone, where the receipt still owes it. -/
def repairApprovalConsumption : Run Unit := do
  match (← get).receipts.lookup intent.envelopeHash with
  | none => return ()
  | some receipt =>
    match receipt.approvalNonce with
    | none => return ()
    | some nonce =>
      if receipt.submitted = false ∨ receipt.approvalConsumed = true then return ()
      consumeApproval faults receipt nonce
      acknowledgeConsumption faults intent

/-- Tombstones the approval this submission spends. -/
def tombstoneApproval : Run Unit := do
  if rec.approval.isNone then return ()
  try repairApprovalConsumption faults intent
  catch _ => modify fun s => { s with warned := true }

def finalizeReceipt (status : ReceiptStatus) (ledger : Option ℕ) : Run Unit := do
  bestEffort (← receiptOp faults.receiptWrite (.finalize intent.envelopeHash status ledger))

/-- Settles the records on what became of the submission. -/
def outcome : SubmissionOutcome → Run Unit
  | .success ledger createdAt => do
    finalizeReceipt faults intent .success (some ledger)
    if rec.callerWritesConfirmedRow = false then
      writeOutcomeRow rec faults (rec.submittedRow intent ledger)
    settleWindow rec faults intent (.confirm createdAt)
    tombstoneApproval rec faults intent
  | .onChainFailed code => do
    finalizeReceipt faults intent (.failed code) none
    writeFailedRow rec faults intent code
    settleWindow rec faults intent .release
    tombstoneApproval rec faults intent
  | .rejected code => do
    bestEffort (← receiptOp faults.receiptWrite (.finalizeSendRefusal intent.envelopeHash code))
    writeFailedRow rec faults intent code
    settleWindow rec faults intent .release
  | .timeout | .transportAfterSend => tombstoneApproval rec faults intent

end AgentWallet.Network.SubmissionRecord
