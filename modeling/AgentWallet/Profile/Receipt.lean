import Mathlib

/-!
# The receipt store

The submission receipts of a profile: a map from envelope hashes to `SubmissionReceipt`s, kept in
one file.  Every public operation takes the store's lock, reads the file, rebuilds the indexes,
changes the map and writes the file again, so an operation is a function of the file's map: it is
refused, or it answers and says what map it writes, if any (`Outcome`).  The caches of the processes
that share the file play no part.
-/

namespace AgentWallet.Profile.Receipt

variable {source : String}

/-! ## Receipts -/

inductive ReceiptStatus where
  | pending
  | success
  | failed (code : String)
  | ambiguous
  | reorged
  | clearedByOperator
deriving DecidableEq

namespace ReceiptStatus

def isDefinitiveOutcome : ReceiptStatus → Bool
  | .success => true
  | .failed _ => true
  | _ => false

/-- Whether an operator may clear a receipt in this status. -/
def isOperatorClearable : ReceiptStatus → Bool
  | .pending => true
  | .ambiguous => true
  | _ => false

def label : ReceiptStatus → String
  | .pending => "pending"
  | .success => "success"
  | .failed _ => "failed"
  | .ambiguous => "ambiguous"
  | .reorged => "reorged"
  | .clearedByOperator => "cleared_by_operator"

end ReceiptStatus

/-- The chain evidence a reservation was released on. -/
inductive ReleaseEvidence where
  | sequenceConsumed
  | timeBoundPassed
deriving DecidableEq

/-- What a submission is: the arguments the recording operations share. -/
structure Identity where
  envelopeHash : String
  txHash : String
  source : String
  sequence : ℤ
  maxTime : ℕ
  recordedAtLedger : ℕ
deriving DecidableEq

structure SubmissionReceipt where
  identity : Identity
  status : ReceiptStatus
  ledger : Option ℕ := none
  priorLedger : Option ℕ := none
  reorgPendingAtLedger : Option ℕ := none
  submitted : Bool
  approvalNonce : Option String := none
  approvalConsumed : Bool := false
  recoveredFromReservation : Bool := false
  releaseCode : Option ReleaseEvidence := none
deriving DecidableEq

abbrev ReceiptMap := AList fun _ : String => SubmissionReceipt

inductive ReceiptStoreError where
  | io
  | writerLocked
  | invalidTransition (source target : String)
deriving DecidableEq

inductive Answer where
  | unit
  | winner
  | recorded
  | alreadyPresent (existing : SubmissionReceipt)
  | duplicateSequence (existing : SubmissionReceipt)
  | duplicateApproval (existing : SubmissionReceipt)
  | receipt (receipt : SubmissionReceipt)
deriving DecidableEq

/-- A refusal, or an answer and the map to write; `none` when nothing is written. -/
abbrev Outcome := Except ReceiptStoreError (Answer × Option ReceiptMap)

/-! ## Indexes -/

variable {map' : ReceiptMap} {answer : Answer}

/-- The secondary indexes, derived from the map. -/
structure Indexes where
  byTxHash : String → Option String
  bySourceSequence : String × ℤ → Option String

/-- The loop body of `rebuild_indexes`. -/
def indexStep (map : ReceiptMap) (ix : Indexes) (envelopeHash : String) : Indexes :=
  match map.lookup envelopeHash with
  | none => ix
  | some r =>
    let heldIsPending := match (ix.byTxHash r.identity.txHash).bind map.lookup with
      | some held => decide (held.status = .pending)
      | none => false
    { byTxHash :=
        if r.identity.txHash ≠ "" ∧ heldIsPending = false then
          Function.update ix.byTxHash r.identity.txHash (some envelopeHash)
        else ix.byTxHash
      bySourceSequence :=
        if r.identity.source ≠ "" ∧ r.status = .pending then
          Function.update ix.bySourceSequence (r.identity.source, r.identity.sequence)
            (some envelopeHash)
        else ix.bySourceSequence }

/-- Rebuilds the indexes over the sorted envelope hashes. -/
def rebuildIndexes (map : ReceiptMap) : Indexes :=
  (map.keys.insertionSort (· ≤ ·)).foldl (indexStep map) ⟨fun _ => none, fun _ => none⟩

/-- The pending receipt at a source and sequence, through the index. -/
def findPendingForPair (map : ReceiptMap) (source : String) (sequence : ℤ) :
    Option SubmissionReceipt :=
  if source = "" then none
  else
    match (rebuildIndexes map).bySourceSequence (source, sequence) with
    | none => none
    | some envelopeHash =>
      match map.lookup envelopeHash with
      | none => none
      | some r => if r.status = .pending then some r else none

def findByApprovalNonce (map : ReceiptMap) (nonce : String) : Option SubmissionReceipt :=
  (map.entries.find? fun x => x.2.approvalNonce = some nonce).map (·.2)

/-- The receipt of a hash is pending at a source and sequence. -/
def PendingAt (map : ReceiptMap) (source : String) (sequence : ℤ) (envelopeHash : String) : Prop :=
  ∃ r, map.lookup envelopeHash = some r ∧ r.status = .pending ∧ r.identity.source = source ∧
    r.identity.sequence = sequence

theorem indexStep_bySourceSequence (map : ReceiptMap) (ix : Indexes) (sequence : ℤ) (k : String)
    (hsource : source ≠ "") : (PendingAt map source sequence k ∧
      (indexStep map ix k).bySourceSequence (source, sequence) = some k) ∨
    (¬ PendingAt map source sequence k ∧ (indexStep map ix k).bySourceSequence (source, sequence) =
        ix.bySourceSequence (source, sequence)) := by
  cases hr : map.lookup k with
  | none =>
    right
    refine ⟨?_, by simp [indexStep, hr]⟩
    rintro ⟨r, hr', -⟩
    rw [hr] at hr'
    cases hr'
  | some r =>
    by_cases hp : PendingAt map source sequence k
    · left
      refine ⟨hp, ?_⟩
      obtain ⟨r', hr', hst, hso, hse⟩ := hp
      obtain rfl : r = r' := by
        rw [hr] at hr'
        exact Option.some.inj hr'
      subst hso hse
      simp [indexStep, hr, hst, hsource]
    · right
      refine ⟨hp, ?_⟩
      simp only [indexStep, hr]
      split_ifs with hc
      · refine Function.update_of_ne (fun heq => hp ?_) _ _
        obtain ⟨hso, hse⟩ := Prod.mk.inj heq
        exact ⟨r, hr, hc.2, hso.symm, hse.symm⟩
      · rfl

/-- The loop of `rebuild_indexes` keeps a pending hash of the pair, and finds one if it meets
one. -/
theorem foldl_indexStep_bySourceSequence (map : ReceiptMap) (sequence : ℤ) (hsource : source ≠ "") :
    ∀ (ks : List String) (ix : Indexes),
    (∀ k, ix.bySourceSequence (source, sequence) = some k → PendingAt map source sequence k) →
    (∀ k, (ks.foldl (indexStep map) ix).bySourceSequence (source, sequence) = some k →
      PendingAt map source sequence k) ∧
    ((ks.foldl (indexStep map) ix).bySourceSequence (source, sequence) = none →
      ix.bySourceSequence (source, sequence) = none ∧ ∀ k ∈ ks, ¬ PendingAt map source sequence k)
  | [], ix, hix => ⟨hix, fun h => ⟨h, by simp⟩⟩
  | k :: ks, ix, hix => by
    rcases indexStep_bySourceSequence map ix sequence k hsource with ⟨hp, heq⟩ | ⟨hp, heq⟩
    · obtain ⟨hsound, hfind⟩ := foldl_indexStep_bySourceSequence map sequence hsource ks
        (indexStep map ix k)
        (by intro k' hk'; rw [heq] at hk'; cases hk'; exact hp)
      refine ⟨hsound, fun h => ?_⟩
      have hnone := (hfind h).1
      rw [heq] at hnone
      cases hnone
    · obtain ⟨hsound, hfind⟩ := foldl_indexStep_bySourceSequence map sequence hsource ks
        (indexStep map ix k)
        (by rw [heq]; exact hix)
      refine ⟨hsound, fun h => ?_⟩
      obtain ⟨hnone, hks⟩ := hfind h
      rw [heq] at hnone
      refine ⟨hnone, fun k' hk' => ?_⟩
      rcases List.mem_cons.mp hk' with rfl | hk'
      · exact hp
      · exact hks k' hk'

variable {map : ReceiptMap}

theorem not_pendingAt_of_find {sequence : ℤ} (hsource : source ≠ "")
    (h : findPendingForPair map source sequence = none) (k : String) :
    ¬ PendingAt map source sequence k := by
  obtain ⟨hsound, hfind⟩ := foldl_indexStep_bySourceSequence map sequence hsource
    (map.keys.insertionSort (· ≤ ·)) ⟨fun _ => none, fun _ => none⟩ (by simp)
  unfold findPendingForPair rebuildIndexes at h
  rw [if_neg hsource] at h
  cases hix : ((map.keys.insertionSort (· ≤ ·)).foldl (indexStep map)
      ⟨fun _ => none, fun _ => none⟩).bySourceSequence (source, sequence) with
  | some k' =>
    obtain ⟨r, hr, hst, -⟩ := hsound k' hix
    simp [hix, hr, hst] at h
  | none =>
    rintro hk
    refine (hfind hix).2 k ?_ hk
    obtain ⟨r, hr, -⟩ := hk
    rw [List.mem_insertionSort]
    exact AList.mem_keys.mp (AList.lookup_isSome.mp (by simp [hr]))

theorem approvalNonce_ne_of_find {nonce k : String} {r : SubmissionReceipt}
    (h : findByApprovalNonce map nonce = none) (hr : map.lookup k = some r) :
    r.approvalNonce ≠ some nonce := by
  unfold findByApprovalNonce at h
  rw [Option.map_eq_none_iff, List.find?_eq_none] at h
  simpa using h ⟨k, r⟩ (AList.mem_lookup_iff.mp hr)

/-! ## Operations -/

/-- The receipt of a submission that is about to be sent. -/
def pendingReceipt (id : Identity) (approvalNonce : Option String) : SubmissionReceipt :=
  { identity := id, status := .pending, submitted := false, approvalNonce := approvalNonce }

/-- The receipt of a submission known only from its window reservation. -/
def recoveredReceipt (id : Identity) : SubmissionReceipt :=
  { identity := id, status := .ambiguous, submitted := true, recoveredFromReservation := true }

/-- The receipt `finalize` inserts for a hash it does not know. -/
def minimalReceipt (envelopeHash : String) (status : ReceiptStatus) (ledger : Option ℕ)
    (evidence : Option ReleaseEvidence) : SubmissionReceipt :=
  { identity := ⟨envelopeHash, "", "", 0, 0, 0⟩, status := status, ledger := ledger,
    submitted := true, releaseCode := evidence }

/-- Records a submission, unless its bytes are already recorded. -/
def tryBegin (map : ReceiptMap) (id : Identity) : Outcome :=
  match map.lookup id.envelopeHash with
  | some existing => .ok (.alreadyPresent existing, none)
  | none => .ok (.winner, some (map.insert id.envelopeHash (pendingReceipt id none)))

/-- Records a submission, unless its approval, its sequence or its bytes are already taken. -/
def beginSubmissionWithApproval (map : ReceiptMap) (id : Identity)
    (approvalNonce : Option String) : Outcome :=
  match approvalNonce.bind (findByApprovalNonce map) with
  | some existing => .ok (.duplicateApproval existing, none)
  | none =>
    match findPendingForPair map id.source id.sequence with
    | some pending => .ok (.duplicateSequence pending, none)
    | none =>
      match map.lookup id.envelopeHash with
      | some existing => .ok (.alreadyPresent existing, none)
      | none => .ok (.recorded, some (map.insert id.envelopeHash (pendingReceipt id approvalNonce)))

/-- Restores the receipt of a submission from its window reservation. -/
def recoverFromReservation (map : ReceiptMap) (id : Identity) : Outcome :=
  match map.lookup id.envelopeHash with
  | some existing =>
    if existing.identity.txHash ≠ id.txHash ∨ existing.identity.source ≠ id.source ∨
        existing.identity.sequence ≠ id.sequence ∨ existing.identity.maxTime ≠ id.maxTime ∨
        existing.identity.recordedAtLedger ≠ id.recordedAtLedger then
      .error (.invalidTransition "conflicting identity" "recovered")
    else .ok (.receipt existing, none)
  | none =>
    .ok (.receipt (recoveredReceipt id), some (map.insert id.envelopeHash (recoveredReceipt id)))

/-- A definitive outcome is final. -/
def checkTransition (source target : ReceiptStatus) : Except ReceiptStoreError Unit :=
  if source = target then .ok ()
  else
    let allowed :=
      if target = .pending then false
      else match source with
        | .pending => true
        | .ambiguous => target.isDefinitiveOutcome
        | .clearedByOperator => target.isDefinitiveOutcome
        | .success => false
        | .failed _ => false
        | .reorged => false
    if allowed then .ok () else .error (.invalidTransition source.label target.label)

theorem checkTransition_eq_ok {source target : ReceiptStatus}
    (h : checkTransition source target = .ok ()) :
    target = source ∨ (target ≠ .pending ∧ (source = .pending ∨
      ((source = .ambiguous ∨ source = .clearedByOperator) ∧
        target.isDefinitiveOutcome = true))) := by
  unfold checkTransition at h
  by_cases heq : source = target
  · exact Or.inl heq.symm
  · rw [if_neg heq] at h
    by_cases hp : target = .pending
    · simp [hp] at h
    · right
      refine ⟨hp, ?_⟩
      cases source with
      | pending => exact Or.inl rfl
      | ambiguous => exact Or.inr ⟨Or.inl rfl, by simpa [hp] using h⟩
      | clearedByOperator => exact Or.inr ⟨Or.inr rfl, by simpa [hp] using h⟩
      | success | failed code | reorged => simp [hp] at h

/-- Records that the endpoint refused to take the transaction. -/
def finalizeSendRefusal (map : ReceiptMap) (envelopeHash code : String) : Outcome :=
  match map.lookup envelopeHash with
  | none => .error (.invalidTransition "absent" "failed")
  | some r =>
    match checkTransition r.status (.failed code) with
    | .error e => .error e
    | .ok () => .ok (.unit, some (map.insert envelopeHash
        { r with status := .failed code, ledger := none, approvalNonce := none,
                 approvalConsumed := false }))

/-- Records that the approval store holds the consumption. -/
def markApprovalConsumed (map : ReceiptMap) (envelopeHash : String) : Outcome :=
  match map.lookup envelopeHash with
  | none => .error (.invalidTransition "absent" "approval_settled")
  | some r => .ok (.unit, some (map.insert envelopeHash { r with approvalConsumed := true }))

/-- Writes a status; inserts a minimal receipt when there is none. -/
def finalizeWithRelease (map : ReceiptMap) (envelopeHash : String) (status : ReceiptStatus)
    (ledger : Option ℕ) (evidence : Option ReleaseEvidence) : Outcome :=
  match map.lookup envelopeHash with
  | none => .ok (.unit, some (map.insert envelopeHash
      (minimalReceipt envelopeHash status ledger evidence)))
  | some r =>
    match checkTransition r.status status with
    | .error e => .error e
    | .ok () => .ok (.unit, some (map.insert envelopeHash
        { r with status := status, ledger := ledger, releaseCode := if status ≠ .ambiguous then none
                   else if r.releaseCode.isNone then evidence else r.releaseCode }))

def finalize (map : ReceiptMap) (envelopeHash : String) (status : ReceiptStatus)
    (ledger : Option ℕ) : Outcome :=
  finalizeWithRelease map envelopeHash status ledger none

/-- Records the evidence a reservation is released on. -/
def finalizeReleased (map : ReceiptMap) (envelopeHash : String) (evidence : ReleaseEvidence) :
    Outcome :=
  finalizeWithRelease map envelopeHash .ambiguous none (some evidence)

/-- Records an operator's decision on an open receipt. -/
def clearByOperator (map : ReceiptMap) (envelopeHash : String) : Outcome :=
  match map.lookup envelopeHash with
  | none => .error (.invalidTransition "absent" "cleared_by_operator")
  | some r =>
    if r.status.isOperatorClearable = false then
      .error (.invalidTransition r.status.label "cleared_by_operator")
    else
      let cleared := { r with status := .clearedByOperator, ledger := none }
      .ok (.receipt cleared, some (map.insert envelopeHash cleared))

/-- Rewrites the receipt of a hash when `p` holds of it, and does nothing otherwise. -/
def updateIf (p : SubmissionReceipt → Bool) (f : SubmissionReceipt → SubmissionReceipt)
    (map : ReceiptMap) (envelopeHash : String) : Outcome :=
  match map.lookup envelopeHash with
  | none => .ok (.unit, none)
  | some r => if p r then .ok (.unit, some (map.insert envelopeHash (f r))) else .ok (.unit, none)

def finalizeReorged : ReceiptMap → String → Outcome :=
  updateIf (fun r => decide (r.status = .success))
    fun r => { r with priorLedger := r.ledger, status := .reorged, ledger := none }

/-- Records that the transaction is about to be sent. -/
def markSubmitted : ReceiptMap → String → Outcome :=
  updateIf (fun r => !r.submitted) fun r => { r with submitted := true }

def markReorgPending (latestLedger : ℕ) : ReceiptMap → String → Outcome :=
  updateIf (fun r => decide (r.status = .success) && r.reorgPendingAtLedger.isNone)
    fun r => { r with reorgPendingAtLedger := some latestLedger }

def clearReorgPending : ReceiptMap → String → Outcome :=
  updateIf (fun r => decide (r.status = .success) && r.reorgPendingAtLedger.isSome)
    fun r => { r with reorgPendingAtLedger := none }

/-- Removes the receipt of a submission that was not sent. -/
def abandonPreSubmit (map : ReceiptMap) (envelopeHash : String) : Outcome :=
  match map.lookup envelopeHash with
  | none => .ok (.unit, none)
  | some r =>
    if r.status = .pending ∧ r.submitted = false then .ok (.unit, some (map.erase envelopeHash))
    else .ok (.unit, none)

/-! ## Runs -/

/-- The operations of the receipt store. -/
inductive ReceiptOp where
  | tryBegin (id : Identity)
  | beginSubmission (id : Identity) (approvalNonce : Option String)
  | recoverFromReservation (id : Identity)
  | finalizeSendRefusal (envelopeHash code : String)
  | markApprovalConsumed (envelopeHash : String)
  | finalize (envelopeHash : String) (status : ReceiptStatus) (ledger : Option ℕ)
  | finalizeReleased (envelopeHash : String) (evidence : ReleaseEvidence)
  | clearByOperator (envelopeHash : String)
  | finalizeReorged (envelopeHash : String)
  | markSubmitted (envelopeHash : String)
  | abandonPreSubmit (envelopeHash : String)
  | markReorgPending (envelopeHash : String) (latestLedger : ℕ)
  | clearReorgPending (envelopeHash : String)

/-- An operation on the map read from the file. -/
def apply (map : ReceiptMap) : ReceiptOp → Outcome
  | .tryBegin id => tryBegin map id
  | .beginSubmission id nonce => beginSubmissionWithApproval map id nonce
  | .recoverFromReservation id => recoverFromReservation map id
  | .finalizeSendRefusal h code => finalizeSendRefusal map h code
  | .markApprovalConsumed h => markApprovalConsumed map h
  | .finalize h status ledger => finalize map h status ledger
  | .finalizeReleased h evidence => finalizeReleased map h evidence
  | .clearByOperator h => clearByOperator map h
  | .finalizeReorged h => finalizeReorged map h
  | .markSubmitted h => markSubmitted map h
  | .abandonPreSubmit h => abandonPreSubmit map h
  | .markReorgPending h ledger => markReorgPending ledger map h
  | .clearReorgPending h => clearReorgPending map h

/-- How the write of the file ends.  The rename that replaces the file is followed by a sync of the
directory, which may fail on its own. -/
inductive Persist where
  | failed
  | unsynced
  | written

/-- One operation by some process, and how its write ends. -/
structure Event where
  op : ReceiptOp
  persist : Persist := .written

/-- The answer of an operation and the map the file holds after it. -/
def perform (map : ReceiptMap) (e : Event) : Except ReceiptStoreError Answer × ReceiptMap :=
  match apply map e.op with
  | .error err => (.error err, map)
  | .ok (answer, none) => (.ok answer, map)
  | .ok (answer, some map') =>
    match e.persist with
    | .failed => (.error .io, map)
    | .unsynced => (.error .io, map')
    | .written => (.ok answer, map')

def step (map : ReceiptMap) (e : Event) : ReceiptMap := (perform map e).2

/-! ## What a write can be -/

variable {op : ReceiptOp}

def ReceiptOp.hash : ReceiptOp → String
  | .tryBegin id => id.envelopeHash
  | .beginSubmission id _ => id.envelopeHash
  | .recoverFromReservation id => id.envelopeHash
  | .finalizeSendRefusal h _ => h
  | .markApprovalConsumed h => h
  | .finalize h _ _ => h
  | .finalizeReleased h _ => h
  | .clearByOperator h => h
  | .finalizeReorged h => h
  | .markSubmitted h => h
  | .abandonPreSubmit h => h
  | .markReorgPending h _ => h
  | .clearReorgPending h => h

/-- The receipts that an operation inserts. -/
inductive Fresh (map : ReceiptMap) : ReceiptOp → SubmissionReceipt → Prop where
  | tryBegin (id : Identity) : Fresh map (.tryBegin id) (pendingReceipt id none)
  | beginSubmission (id : Identity) (nonce : Option String)
      (hnonce : nonce.bind (findByApprovalNonce map) = none)
      (hpair : findPendingForPair map id.source id.sequence = none) :
      Fresh map (.beginSubmission id nonce) (pendingReceipt id nonce)
  | recover (id : Identity) : Fresh map (.recoverFromReservation id) (recoveredReceipt id)
  | finalize (h : String) (status : ReceiptStatus) (ledger : Option ℕ) :
      Fresh map (.finalize h status ledger) (minimalReceipt h status ledger none)
  | finalizeReleased (h : String) (evidence : ReleaseEvidence) :
      Fresh map (.finalizeReleased h evidence) (minimalReceipt h .ambiguous none (some evidence))

/-- The changes an operation makes to a receipt. -/
inductive Update : ReceiptOp → SubmissionReceipt → SubmissionReceipt → Prop where
  | finalizeSendRefusal {h code : String} {r : SubmissionReceipt}
      (hok : checkTransition r.status (.failed code) = .ok ()) :
      Update (.finalizeSendRefusal h code) r
        { r with status := .failed code, ledger := none, approvalNonce := none,
                 approvalConsumed := false }
  | markApprovalConsumed {h : String} {r : SubmissionReceipt} :
      Update (.markApprovalConsumed h) r { r with approvalConsumed := true }
  | finalize {h : String} {status : ReceiptStatus} {ledger : Option ℕ} {r : SubmissionReceipt}
      (hok : checkTransition r.status status = .ok ()) :
      Update (.finalize h status ledger) r
        { r with status := status, ledger := ledger,
                 releaseCode := if status ≠ .ambiguous then none else r.releaseCode }
  | finalizeReleased {h : String} {evidence : ReleaseEvidence} {r : SubmissionReceipt}
      (hok : checkTransition r.status .ambiguous = .ok ()) :
      Update (.finalizeReleased h evidence) r
        { r with status := .ambiguous, ledger := none,
                 releaseCode := if r.releaseCode.isNone then some evidence else r.releaseCode }
  | clearByOperator {h : String} {r : SubmissionReceipt}
      (hok : r.status.isOperatorClearable = true) :
      Update (.clearByOperator h) r { r with status := .clearedByOperator, ledger := none }
  | finalizeReorged {h : String} {r : SubmissionReceipt} (hok : r.status = .success) :
      Update (.finalizeReorged h) r
        { r with priorLedger := r.ledger, status := .reorged, ledger := none }
  | markSubmitted {h : String} {r : SubmissionReceipt} (hok : r.submitted = false) :
      Update (.markSubmitted h) r { r with submitted := true }
  | markReorgPending {h : String} {ledger : ℕ} {r : SubmissionReceipt}
      (hok : r.status = .success) (hnone : r.reorgPendingAtLedger = none) :
      Update (.markReorgPending h ledger) r { r with reorgPendingAtLedger := some ledger }
  | clearReorgPending {h : String} {r : SubmissionReceipt} (hok : r.status = .success) :
      Update (.clearReorgPending h) r { r with reorgPendingAtLedger := none }

/-- How the map read and the map written by an operation differ. -/
inductive Change (map : ReceiptMap) (op : ReceiptOp) : ReceiptMap → Prop where
  | insert {r : SubmissionReceipt} (hnone : map.lookup op.hash = none) (hfresh : Fresh map op r) :
      Change map op (map.insert op.hash r)
  | update {r r' : SubmissionReceipt} (hsome : map.lookup op.hash = some r)
      (hupdate : Update op r r') : Change map op (map.insert op.hash r')
  | remove {r : SubmissionReceipt} (hop : op = .abandonPreSubmit op.hash)
      (hsome : map.lookup op.hash = some r) (hpending : r.status = .pending)
      (hunsent : r.submitted = false) : Change map op (map.erase op.hash)

theorem change_of_updateIf {p : SubmissionReceipt → Bool}
    {f : SubmissionReceipt → SubmissionReceipt}
    (h : updateIf p f map op.hash = .ok (answer, some map'))
    (hu : ∀ r, p r = true → Update op r (f r)) : Change map op map' := by
  unfold updateIf at h
  cases hr : map.lookup op.hash with
  | none => simp [hr] at h
  | some r =>
    simp only [hr] at h
    split_ifs at h with hp
    · cases h
      exact Change.update hr (hu r hp)
    · cases h

theorem change_of_finalizeWithRelease {status : ReceiptStatus} {ledger : Option ℕ}
    {evidence : Option ReleaseEvidence}
    (h : finalizeWithRelease map op.hash status ledger evidence = .ok (answer, some map'))
    (hf : Fresh map op (minimalReceipt op.hash status ledger evidence))
    (hu : ∀ r, checkTransition r.status status = .ok () → Update op r { r with
      status := status, ledger := ledger,
      releaseCode := if status ≠ .ambiguous then none
        else if r.releaseCode.isNone then evidence else r.releaseCode }) :
    Change map op map' := by
  unfold finalizeWithRelease at h
  cases hr : map.lookup op.hash with
  | none =>
    simp only [hr] at h
    cases h
    exact Change.insert hr hf
  | some r =>
    simp only [hr] at h
    cases ht : checkTransition r.status status with
    | error e => simp [ht] at h
    | ok _ =>
      simp only [ht] at h
      cases h
      exact Change.update hr (hu r ht)

/-- **Inversion of a write**: an insertion, an update or the removal of an unsent receipt. -/
theorem change_of_apply (h : apply map op = .ok (answer, some map')) : Change map op map' := by
  cases op with
  | tryBegin id =>
    simp only [apply, tryBegin] at h
    cases hr : map.lookup id.envelopeHash with
    | some r => simp [hr] at h
    | none =>
      simp only [hr] at h
      cases h
      exact Change.insert hr (.tryBegin id)
  | beginSubmission id nonce =>
    simp only [apply, beginSubmissionWithApproval] at h
    cases hn : nonce.bind (findByApprovalNonce map) with
    | some r => simp [hn] at h
    | none =>
      cases hp : findPendingForPair map id.source id.sequence with
      | some r => simp [hn, hp] at h
      | none =>
        cases hr : map.lookup id.envelopeHash with
        | some r => simp [hn, hp, hr] at h
        | none =>
          simp only [hn, hp, hr] at h
          cases h
          exact Change.insert hr (.beginSubmission id nonce hn hp)
  | recoverFromReservation id =>
    simp only [apply, recoverFromReservation] at h
    cases hr : map.lookup id.envelopeHash with
    | some r =>
      simp only [hr] at h
      split_ifs at h
      cases h
    | none =>
      simp only [hr] at h
      cases h
      exact Change.insert hr (.recover id)
  | finalizeSendRefusal hash code =>
    simp only [apply, finalizeSendRefusal] at h
    cases hr : map.lookup hash with
    | none => simp [hr] at h
    | some r =>
      cases ht : checkTransition r.status (.failed code) with
      | error e => simp [hr, ht] at h
      | ok _ =>
        simp only [hr, ht] at h
        cases h
        exact Change.update hr (.finalizeSendRefusal ht)
  | markApprovalConsumed hash =>
    simp only [apply, markApprovalConsumed] at h
    cases hr : map.lookup hash with
    | none => simp [hr] at h
    | some r =>
      simp only [hr] at h
      cases h
      exact Change.update hr .markApprovalConsumed
  | finalize hash status ledger =>
    refine change_of_finalizeWithRelease h (.finalize ..) fun r ht => ?_
    have hkeep : (if r.releaseCode.isNone then none else r.releaseCode) = r.releaseCode := by
      cases r.releaseCode <;> rfl
    rw [hkeep]
    exact .finalize ht
  | finalizeReleased hash evidence =>
    exact change_of_finalizeWithRelease h (.finalizeReleased ..) fun r ht => .finalizeReleased ht
  | clearByOperator hash =>
    simp only [apply, clearByOperator] at h
    cases hr : map.lookup hash with
    | none => simp [hr] at h
    | some r =>
      simp only [hr] at h
      split_ifs at h with hc
      cases h
      exact Change.update hr (.clearByOperator (by simpa using hc))
  | finalizeReorged hash =>
    exact change_of_updateIf h
      fun r hp => .finalizeReorged (of_decide_eq_true hp)
  | markSubmitted hash =>
    exact change_of_updateIf h
      fun r hp => .markSubmitted (by simpa using hp)
  | abandonPreSubmit hash =>
    simp only [apply, abandonPreSubmit] at h
    cases hr : map.lookup hash with
    | none => simp [hr] at h
    | some r =>
      simp only [hr] at h
      split_ifs at h with hc
      · cases h
        exact Change.remove rfl hr hc.1 hc.2
      · cases h
  | markReorgPending hash ledger =>
    refine change_of_updateIf h fun r hp => ?_
    simp only [Bool.and_eq_true, decide_eq_true_eq, Option.isNone_iff_eq_none] at hp
    exact .markReorgPending hp.1 hp.2
  | clearReorgPending hash =>
    refine change_of_updateIf h fun r hp => ?_
    simp only [Bool.and_eq_true, decide_eq_true_eq] at hp
    exact .clearReorgPending hp.1

end AgentWallet.Profile.Receipt
