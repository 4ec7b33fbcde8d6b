import AgentWallet.Base.Saturating
import AgentWallet.Mpp.Record

/-!
# The authorization store

`store.rs`: the records of one profile in one file.  A mutation reads the file and verifies it,
changes the records (`Operation.update`), and publishes the next snapshot: the generation counter in
the keyring first, then a temporary file, then the rename.
-/

namespace AgentWallet.Mpp.Store

open Base.Checks Base.Framing Base.Saturating Mpp.Record

def storeVersion : ℕ := 2

def hmacTagBytes : ℕ := 32

def maxStoreBytes : ℕ := 8 * 1024 * 1024

def maxActiveRecords : ℕ := 1000

def maxTotalRecords : ℕ := maxActiveRecords * 2

def terminalRetentionSecs : ℤ := 30 * 24 * 60 * 60

def minChallengeLifetimeSecs : ℤ := 30

/-! ## Records -/

structure WireStore (D A : Type) where
  version : ℕ
  generation : ℕ
  records : List (AuthorizationRecord D A)

structure PaymentReceipt (D : Type) where
  digest : D
  reference : String
  challengeId : Option String

/-- The changes of one record, under the names of the calls that make them. -/
inductive Change (D : Type) where
  | markReady (nowUnix : Int64)
  | markApprovalPending (approvalNonce : String) (nowUnix : Int64)
  | claimReady (nowUnix : Int64)
  | markPolicyAccounted
  | markDeliveryPending (credentialDigest : D) (nowUnix : Int64)
  | markAuthorized (nowUnix : Int64)
  | markIndeterminate (nowUnix : Int64)
  | markFailed (nowUnix : Int64)
  | markRefused (nowUnix : Int64)
  | markAuthorizedWithheld (nowUnix : Int64)
  | recordReceipt (receipt : PaymentReceipt D) (nowUnix : Int64)
  | recordLedgerOutcome (outcome : LedgerOutcome) (nowUnix : Int64)

inductive Operation (D A : Type) where
  | insertPrepared (record : AuthorizationRecord D A) (nowUnix : Int64)
  | onRecord (authorizationId : String) (change : Change D)
  | prune (nowUnix : Int64)

inductive Answer (D A : Type) where
  | record (record : AuthorizationRecord D A)
  | pruned (count : ℕ)

section

variable {D A : Type}

def challengeExpired : MppError :=
  ⟨.challengeExpired, "challenge is expired or too close to expiry"⟩

def claimReady (nowUnix : Int64) (r : AuthorizationRecord D A) :
    Except MppError (AuthorizationRecord D A) :=
  if subI64 r.expiresAt.toInt nowUnix.toInt < minChallengeLifetimeSecs then .error challengeExpired
  else r.transition .authorizing nowUnix

def markPolicyAccounted (r : AuthorizationRecord D A) : Except MppError (AuthorizationRecord D A) :=
  if r.status ≠ .authorizing then .error replayError
  else .ok { r with policyAccounted := true }

def markDeliveryPending (credentialDigest : D) (nowUnix : Int64) (r : AuthorizationRecord D A) :
    Except MppError (AuthorizationRecord D A) :=
  { r with credentialDigest := some credentialDigest }.transition .deliveryPending nowUnix

/-- The part of `record_receipt` behind the checks of an earlier observation. -/
def observeReceipt (P : Primitives D A) (receipt : PaymentReceipt D) (nowUnix : Int64)
    (r : AuthorizationRecord D A) : Except MppError (AuthorizationRecord D A) := do
  refuseIf (r.status ≠ .authorized) replayError
  let prepared ← r.preparedCharge P
  refuseIf (receipt.challengeId.isSome ∧ prepared.selected.echoId ≠ receipt.challengeId)
    ⟨.receiptConflict, "receipt challenge identifier does not match the authorization"⟩
  { r with
    hostObservation := some
      ⟨receipt.digest, P.sha256 (bytes (utf8 receipt.reference)), nowUnix⟩ }.transition
    .receiptObserved nowUnix

def recordReceipt [DecidableEq D] (P : Primitives D A) (receipt : PaymentReceipt D) (nowUnix : Int64)
    (r : AuthorizationRecord D A) : Except MppError (AuthorizationRecord D A) :=
  match r.hostObservation with
  | some existing =>
    if existing.receiptDigest = receipt.digest then .ok r
    else .error ⟨.receiptConflict, "receipt conflicts with the recorded observation"⟩
  | none => observeReceipt P receipt nowUnix r

/-- Two outcomes of the same kind in the same ledger. -/
def sameOutcome : LedgerOutcome → LedgerOutcome → Bool
  | .settled left _, .settled right _ => decide (left = right)
  | .failed left _, .failed right _ => decide (left = right)
  | _, _ => false

def recordLedgerOutcome (outcome : LedgerOutcome) (nowUnix : Int64) (r : AuthorizationRecord D A) :
    Except MppError (AuthorizationRecord D A) :=
  if r.ledgerOutcome ≠ .unknown then
    if sameOutcome r.ledgerOutcome outcome then .ok r
    else .error ⟨.receiptConflict, "ledger outcome conflicts with the recorded result"⟩
  else
    match outcome with
    | .unknown => .ok r
    | .settled _ _ => { r with ledgerOutcome := outcome }.transition .settled nowUnix
    | .failed _ _ => { r with ledgerOutcome := outcome }.transition .failed nowUnix

/-- What a change of one record checks, and the record it leaves. -/
def Change.apply [DecidableEq D] (P : Primitives D A) (r : AuthorizationRecord D A) :
    Change D → Except MppError (AuthorizationRecord D A)
  | .markReady nowUnix => r.transition .ready nowUnix
  | .markApprovalPending approvalNonce nowUnix => r.requireApproval approvalNonce nowUnix
  | .claimReady nowUnix => Store.claimReady nowUnix r
  | .markPolicyAccounted => Store.markPolicyAccounted r
  | .markDeliveryPending credentialDigest nowUnix =>
    Store.markDeliveryPending credentialDigest nowUnix r
  | .markAuthorized nowUnix => r.transition .authorized nowUnix
  | .markIndeterminate nowUnix => r.transition .indeterminate nowUnix
  | .markFailed nowUnix => r.transition .failed nowUnix
  | .markRefused nowUnix => r.transition .refused nowUnix
  | .markAuthorizedWithheld nowUnix => r.transition .authorizedWithheld nowUnix
  | .recordReceipt receipt nowUnix => Store.recordReceipt P receipt nowUnix r
  | .recordLedgerOutcome outcome nowUnix => Store.recordLedgerOutcome outcome nowUnix r

def Change.onMissing : Change D → MppError
  | .recordReceipt _ _ => authorizationNotFound
  | _ => stateError

def isHexByte (b : UInt8) : Bool := (48 ≤ b && b ≤ 57) || (97 ≤ b && b ≤ 102)

def validateAuthorizationId (value : String) : Except MppError Unit :=
  refuseIf ((utf8 value).length ≠ 36 ∨ (utf8 value).take 4 ≠ utf8 "mpp_" ∨
    ((utf8 value).drop 4).all isHexByte = false) stateError

/-- The first record under the identifier, changed by `update`. -/
def updateFirst (authorizationId : String) (onMissing : MppError)
    (update : AuthorizationRecord D A → Except MppError (AuthorizationRecord D A)) :
    List (AuthorizationRecord D A) →
      Except MppError (AuthorizationRecord D A × List (AuthorizationRecord D A))
  | [] => .error onMissing
  | r :: rs =>
    if r.authorizationId = authorizationId then do
      let r' ← update r
      pure (r', r' :: rs)
    else do
      let (changed, rs') ← updateFirst authorizationId onMissing update rs
      pure (changed, r :: rs')

/-- The statuses of a record that no commit has claimed. -/
def unclaimed : List AuthorizationStatus := [.prepared, .approvalPending, .ready]

/-- A charge that is not claimed yet is answered with the record that is there. -/
def insertPrepared [DecidableEq D] (record : AuthorizationRecord D A) (nowUnix : Int64)
    (wire : WireStore D A) :
    Except MppError (AuthorizationRecord D A × WireStore D A) :=
  match wire.records.find? (fun existing => existing.fingerprint = record.fingerprint) with
  | some existing =>
    if existing.status ∈ unclaimed ∧ nowUnix ≤ existing.expiresAt then .ok (existing, wire)
    else .error replayError
  | none =>
    if maxActiveRecords ≤
        (wire.records.filter fun existing => !existing.status.isTerminal).length then
      .error stateError
    else if maxTotalRecords ≤ wire.records.length then .error stateError
    else .ok (record, { wire with records := wire.records ++ [record] })

/-- The statuses that `prune` lets expire. -/
def expirable : List AuthorizationStatus :=
  [.prepared, .approvalPending, .ready, .authorized, .receiptObserved]

def expireRecord (nowUnix : Int64) (r : AuthorizationRecord D A) :
    Except MppError (AuthorizationRecord D A) :=
  if r.expiresAt ≤ nowUnix ∧ r.status ∈ expirable then r.transition .expiredUnresolved nowUnix
  else .ok r

/-- What `prune` keeps. -/
def retained (nowUnix : Int64) (r : AuthorizationRecord D A) : Bool :=
  decide (r.status = .indeterminate) || !r.status.isTerminal ||
    decide (nowUnix.toInt ≤ addI64 r.expiresAt.toInt terminalRetentionSecs)

def prune (nowUnix : Int64) (wire : WireStore D A) : Except MppError (ℕ × WireStore D A) := do
  let records ← wire.records.mapM (expireRecord nowUnix)
  let kept := records.filter (retained nowUnix)
  pure (records.length - kept.length, { wire with records := kept })

/-- What is checked before the store is locked. -/
def Operation.precheck : Operation D A → Except MppError Unit
  | .onRecord authorizationId _ => validateAuthorizationId authorizationId
  | _ => .ok ()

def Operation.update [DecidableEq D] (P : Primitives D A) (op : Operation D A)
    (wire : WireStore D A) :
    Except MppError (Answer D A × WireStore D A) :=
  match op with
  | .insertPrepared record nowUnix => do
    let (r, wire') ← Store.insertPrepared record nowUnix wire
    pure (.record r, wire')
  | .onRecord authorizationId change => do
    let (r, records) ← updateFirst authorizationId change.onMissing (change.apply P) wire.records
    pure (.record r, { wire with records := records })
  | .prune nowUnix => do
    let (count, wire') ← Store.prune nowUnix wire
    pure (.pruned count, wire')

/-! ## Reading -/

/-- The state file.  A symbolic link, a directory or a file that cannot be read is `irregular`;
`short` is a file without room for a tag. -/
inductive StateFile (T B : Type) where
  | irregular
  | short
  | tagged (tag : T) (body : B)

/-- The keyring entries of the state key and the generation counter, and the file. -/
structure Disk (K T B : Type) where
  key : Option K
  counter : Option ℕ
  file : Option (StateFile T B)

/-- JSON texts and their length, HMAC-SHA256, and the comparison with the profile's owner key. -/
structure Codec (D A K T B : Type) where
  toVec : WireStore D A → B
  fromSlice : B → Option (WireStore D A)
  size : B → ℕ
  computeTag : K → B → T
  refuseOwnerPublicKey : K → Except MppError Unit

def Codec.Lawful {D A K T B : Type} (C : Codec D A K T B) : Prop :=
  ∀ wire, C.fromSlice (C.toVec wire) = some wire

def rollbackError : MppError :=
  ⟨.stateUnavailable, "MPP authorization state is rolled back; recover with stellar-agent profile " ++
    "reset-mpp-state <NAME> --acknowledge --reason <REASON>"⟩

def concurrentUpdateError : MppError :=
  ⟨.stateUnavailable, "MPP authorization state changed during this update; retry the operation"⟩

def anchorError : MppError :=
  ⟨.stateUnavailable, "MPP authorization state generation anchor is missing or invalid; recover " ++
    "with stellar-agent profile reset-mpp-state <NAME> --acknowledge --reason <REASON>"⟩

variable {K T B : Type} (P : Primitives D A) (C : Codec D A K T B)

/-- The loop over the records: each one validates, and no identifier, fingerprint or approval nonce
comes twice. -/
def checkRecords [DecidableEq D] : List String → List D → List String →
    List (AuthorizationRecord D A) → Except MppError Unit
  | _, _, _, [] => .ok ()
  | ids, fingerprints, nonces, r :: rs => do
    r.validate P
    refuseIf (r.authorizationId ∈ ids ∨ r.fingerprint ∈ fingerprints ∨
      r.approvalNonce.any (· ∈ nonces) = true) stateError
    checkRecords (r.authorizationId :: ids) (r.fingerprint :: fingerprints)
      (r.approvalNonce.toList ++ nonces) rs

/-- The checks of a snapshot whose tag matched. -/
def checkWire [DecidableEq D] (wire : WireStore D A) : Except MppError (WireStore D A) := do
  refuseIf (¬ (wire.version = 1 ∧ wire.generation = 0 ∨
    wire.version = storeVersion ∧ 1 ≤ wire.generation) ∨ maxTotalRecords < wire.records.length)
    stateError
  checkRecords P [] [] [] wire.records
  pure wire

def readAuthenticated [DecidableEq D] [DecidableEq T] (key : K) :
    Option (StateFile T B) → Except MppError (WireStore D A)
  | some (.tagged tag body) =>
    if maxStoreBytes < hmacTagBytes + C.size body then .error stateError
    else if tag ≠ C.computeTag key body then .error stateError
    else
      match C.fromSlice body with
      | none => .error stateError
      | some wire => checkWire P wire
  | _ => .error stateError

def checkKey [DecidableEq K] (key : K) (disk : Disk K T B) : Except MppError Unit :=
  match disk.key with
  | none => .error stateError
  | some current => do
    C.refuseOwnerPublicKey current
    refuseIf (key ≠ current) rollbackError

/-- The part of `read_verified` behind the comparison of keys. -/
def readSnapshot [DecidableEq D] [DecidableEq T] (key : K) (disk : Disk K T B) :
    Except MppError (WireStore D A) :=
  match disk.file with
  | none =>
    match disk.counter with
    | some 0 => .ok ⟨storeVersion, 0, []⟩
    | some _ => .error rollbackError
    | none => .error anchorError
  | some file => do
    let wire ← readAuthenticated P C key (some file)
    match disk.counter with
    | none => .error anchorError
    | some generation =>
      if wire.version ≠ storeVersion ∨ wire.generation ≠ generation ∨ generation = 0 then
        .error rollbackError
      else .ok wire

/-! ## Durable steps -/

inductive Step (K T B : Type) where
  | audit
  | generation (n : ℕ)
  | temporary (file : StateFile T B)
  | persist (file : StateFile T B)
  | rotateKey (key : K)
  | removeFile

def Disk.apply (disk : Disk K T B) : Step K T B → Disk K T B
  | .audit => disk
  | .generation n => { disk with counter := some n }
  | .temporary _ => disk
  | .persist file => { disk with file := some file }
  | .rotateKey key => { disk with key := some key }
  | .removeFile => { disk with file := none }

/-- The durable steps of a call and what it answers when it makes them all. -/
structure Plan (K T B α : Type) where
  steps : List (Step K T B)
  answer : Except MppError α

def Plan.refuse {K T B α : Type} (e : MppError) : Plan K T B α := ⟨[], .error e⟩

/-! ## Writing -/

def fileOf (key : K) (wire : WireStore D A) : StateFile T B :=
  .tagged (C.computeTag key (C.toVec wire)) (C.toVec wire)

def writeAtomic (key : K) (wire : WireStore D A) (expectedGeneration : Option ℕ) (disk : Disk K T B) :
    Except MppError (List (Step K T B)) := do
  refuseIf (maxStoreBytes < C.size (C.toVec wire)) stateError
  refuseIf (disk.counter ≠ expectedGeneration) concurrentUpdateError
  pure [.generation wire.generation, .temporary (fileOf C key wire), .persist (fileOf C key wire)]

/-- A version 1 snapshot in the protected format. -/
def adopted (wire : WireStore D A) : WireStore D A :=
  { wire with version := storeVersion, generation := 1 }

def advanced (disk : Disk K T B) : Bool := disk.counter.any (0 < ·)

def mintSteps (newKey : K) (disk : Disk K T B) : List (Step K T B) :=
  (if disk.counter = none then [.generation 0] else []) ++ [.rotateKey newKey]

/-! ## Calls -/

variable [DecidableEq D] [DecidableEq K] [DecidableEq T]

def readVerified (key : K) (disk : Disk K T B) : Except MppError (WireStore D A) := do
  checkKey C key disk
  readSnapshot P C key disk

/-- The snapshot a mutation publishes, and its answer. -/
def nextSnapshot (key : K) (op : Operation D A) (disk : Disk K T B) :
    Except MppError (Answer D A × WireStore D A × ℕ) := do
  op.precheck
  let wire ← readVerified P C key disk
  let (answer, wire') ← op.update P wire
  refuseIf (u64Max < wire.generation + 1) stateError
  pure (answer, { wire' with generation := wire.generation + 1 }, wire.generation)

/-- `mutate` -/
def mutate (key : K) (op : Operation D A) (disk : Disk K T B) : Plan K T B (Answer D A) :=
  match nextSnapshot P C key op disk with
  | .error e => .refuse e
  | .ok (answer, wire, generation) =>
    match writeAtomic C key wire (some generation) disk with
    | .error e => .refuse e
    | .ok steps => ⟨steps, .ok answer⟩

/-! ## Opening and resetting -/

/-- The snapshot that `verify_or_adopt` adopts. -/
def adoptable (key : K) (disk : Disk K T B) : Except MppError (WireStore D A) := do
  refuseIf (disk.file = none) anchorError
  let wire ← readAuthenticated P C key disk.file
  refuseIf (wire.version ≠ 1) anchorError
  pure (adopted wire)

def verifyOrAdopt (key : K) (disk : Disk K T B) : Plan K T B Unit :=
  match disk.counter with
  | some _ => ⟨[], (readVerified P C key disk).map fun _ => ()⟩
  | none =>
    match adoptable P C key disk with
    | .error e => .refuse e
    | .ok wire =>
      match writeAtomic C key wire none disk with
      | .error e => .refuse e
      | .ok steps => ⟨.audit :: steps, .ok ()⟩

/-- `open_for_prepare`; the answer is the key of the handle. -/
def openForPrepare (newKey : K) (disk : Disk K T B) : Plan K T B K :=
  if advanced disk = true ∧ disk.file = none then .refuse rollbackError
  else
    match disk.key with
    | none =>
      if disk.file ≠ none ∨ advanced disk = true then .refuse stateError
      else
        let opened := verifyOrAdopt P C newKey ((mintSteps newKey disk).foldl Disk.apply disk)
        ⟨mintSteps newKey disk ++ opened.steps, opened.answer.map fun _ => newKey⟩
    | some key =>
      match C.refuseOwnerPublicKey key with
      | .error e => .refuse e
      | .ok _ =>
        let opened := verifyOrAdopt P C key disk
        ⟨opened.steps, opened.answer.map fun _ => key⟩

/-- `open_for_read`; there is no handle for a profile without state. -/
def openForRead (disk : Disk K T B) : Plan K T B (Option K) :=
  if advanced disk = true ∧ disk.file = none then .refuse rollbackError
  else
    match disk.key with
    | none => if disk.file = none then ⟨[], .ok none⟩ else .refuse stateError
    | some key =>
      match C.refuseOwnerPublicKey key with
      | .error e => .refuse e
      | .ok _ =>
        let opened := verifyOrAdopt P C key disk
        ⟨opened.steps, opened.answer.map fun _ => some key⟩

/-- `reset_at`; the answer is the generation that was discarded. -/
def resetAt (newKey : K) (disk : Disk K T B) : Plan K T B (Option ℕ) :=
  ⟨[.audit, .rotateKey newKey, .removeFile, .generation 0], .ok disk.counter⟩

end

end AgentWallet.Mpp.Store
