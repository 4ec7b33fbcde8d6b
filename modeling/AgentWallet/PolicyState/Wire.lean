import AgentWallet.Policy.StateStore

/-!
# The window file

The content of the persisted spending window and the functions that read and rewrite it.  A
`WireFile` is a list of buckets of `WireRecord`s; a record is either `confirmed` spend, dated by
the ledger or by the host, or a `pending` reservation of a submission whose outcome is open.
-/

namespace AgentWallet.PolicyState.Wire

open Base.Saturating Policy.Outcome Policy.StateStore List

/-- How long a confirmed record is kept, in milliseconds. -/
def retentionMs : ℕ := 604800 * 1000

def wireVersion : ℕ := 3

/-- Whether a record's submission has settled. -/
inductive RecordStatus where
  | confirmed
  | pending
deriving DecidableEq

/-- One record of a bucket, with the identity of the submission that reserved it.  The defaults are
those of the wire format and of `confirmed_defaults`. -/
structure WireRecord where
  tsMs : ℕ
  amount : ℤ
  id : String := ""
  status : RecordStatus := .confirmed
  txHash : String := ""
  source : String := ""
  sequence : ℤ := 0
  maxTime : ℕ := 0
  pendingSinceMs : ℕ := 0
  submissionLedger : ℕ := 0
  operatorRequired : Bool := false
deriving DecidableEq

structure WireBucket where
  scopeSpecificity : ℕ
  bucket : String
  windowSecs : ℕ
  records : List WireRecord
deriving DecidableEq

/-- The file.  `prepared` is the candidate image of an interrupted settlement. -/
structure WireFile where
  version : ℕ
  generation : ℕ
  entries : List WireBucket
  prepared : Option WireFile

/-- Equality of files, through the nested candidates. -/
def WireFile.decEq : (a b : WireFile) → Decidable (a = b)
  | ⟨v, g, es, none⟩, ⟨v', g', es', none⟩ =>
    decidable_of_iff (v = v' ∧ g = g' ∧ es = es') (by simp)
  | ⟨v, g, es, some p⟩, ⟨v', g', es', some p'⟩ =>
    match WireFile.decEq p p' with
    | isTrue h => decidable_of_iff (v = v' ∧ g = g' ∧ es = es') (by simp [h])
    | isFalse h => isFalse (by simp [h])
  | ⟨_, _, _, none⟩, ⟨_, _, _, some _⟩ => isFalse (by simp)
  | ⟨_, _, _, some _⟩, ⟨_, _, _, none⟩ => isFalse (by simp)

instance : DecidableEq WireFile := WireFile.decEq

variable {wire : WireFile}

theorem WireFile.dropPrepared_eq (h : wire.prepared = none) :
    { wire with prepared := none } = wire := by
  cases wire
  cases h
  rfl

/-- The identity a submission reserves its window records under. -/
structure WindowReservation where
  id : String
  txHash : String
  source : String
  sequence : ℤ
  maxTime : ℕ
  pendingSinceMs : ℕ
  submissionLedger : ℕ
  operatorRequired : Bool

inductive WindowStoreError where
  | writerLocked
  | io (kind : String)
  | invalid (detail : String)
  | hmacMismatch
  | generationMismatch
  | keyring (detail : String)
  | keyMatchesOwnerPublicKey
  | policyDenied (reason : DenyReason)
  | duplicateReservation
deriving DecidableEq

def emptyFile : WireFile := ⟨wireVersion, 0, [], none⟩

/-! ## Reading one bucket -/

/-- The bucket is the one `key` names.  A bucket carries no profile name: the file belongs to one
profile. -/
def WireBucket.holds (b : WireBucket) (key : StateKey) : Bool :=
  b.scopeSpecificity == key.scopeSpecificity && b.bucket == key.bucket &&
    b.windowSecs == key.windowSecs

/-- Pending holds remain live until their outcome is settled. -/
def recordIsLive (r : WireRecord) (nowMs windowSecs : ℕ) : Bool :=
  decide (r.status = .pending) || decide (r.tsMs ≥ nowMs - mulU64 windowSecs 1000)

/-- A pending record dated too far ahead of the host clock. -/
def isSkewed (nowMs : ℕ) (r : WireRecord) : Bool :=
  decide (r.status = .pending) && decide (r.tsMs > addU64 nowMs clockSkewToleranceMs)

def skewReason (nowMs : ℕ) (r : WireRecord) : DenyReason :=
  .evaluationError (StateStoreError.clockSkewExceeded r.tsMs nowMs).toText

/-- The body of `window_in_file`'s inner loop. -/
def windowRecord (key : StateKey) (nowMs : ℕ) (acc : ℤ × ℕ) (r : WireRecord) :
    Except DenyReason (ℤ × ℕ) :=
  if isSkewed nowMs r then .error (skewReason nowMs r)
  else if !recordIsLive r nowMs key.windowSecs then .ok acc
  else .ok (tally acc r.amount)

/-- The sum and count `key` holds in the file at `nowMs`. -/
def windowInFile (wire : WireFile) (key : StateKey) (nowMs : ℕ) : Except DenyReason (ℤ × ℕ) :=
  wire.entries.foldlM
    (fun acc b => if b.holds key then b.records.foldlM (windowRecord key nowMs) acc else .ok acc)
    (0, 0)

/-- The records of the buckets `key` names, in file order. -/
def recordsOf (key : StateKey) (entries : List WireBucket) : List WireRecord :=
  (entries.filter (·.holds key)).flatMap (·.records)

/-- The same for a whole file. -/
def recordsOn (key : StateKey) (wire : WireFile) : List WireRecord := recordsOf key wire.entries

theorem windowInFile_eq_foldlM (wire : WireFile) (key : StateKey) (nowMs : ℕ) :
    windowInFile wire key nowMs = (recordsOn key wire).foldlM (windowRecord key nowMs) (0, 0) := by
  unfold windowInFile recordsOn recordsOf
  generalize ((0 : ℤ), 0) = acc
  induction wire.entries generalizing acc with
  | nil => rfl
  | cons b bs ih =>
    by_cases hb : b.holds key = true
    · simp only [foldlM_cons, hb, filter_cons_of_pos, flatMap_cons, foldlM_append]
      exact bind_congr fun acc => ih acc
    · rw [foldlM_cons, if_neg hb, filter_cons_of_neg (by simpa using hb)]
      exact ih acc

theorem foldlM_windowRecord (key : StateKey) (nowMs : ℕ) : ∀ (l : List WireRecord) (acc : ℤ × ℕ),
    l.foldlM (windowRecord key nowMs) acc = match l.find? (isSkewed nowMs) with
      | some r => .error (skewReason nowMs r)
      | none => .ok (((l.filter fun r => recordIsLive r nowMs key.windowSecs).map
          (·.amount)).foldl tally acc)
  | [], acc => rfl
  | r :: l, acc => by
    rw [foldlM_cons, List.find?_cons]
    by_cases hs : isSkewed nowMs r = true
    · simp only [windowRecord, hs, if_true]
      rfl
    · have ih := foldlM_windowRecord key nowMs l
      by_cases hl : recordIsLive r nowMs key.windowSecs = true
      · simp only [windowRecord, hs, hl, Bool.not_true, Bool.false_eq_true, if_false,
          filter_cons_of_pos, map_cons, foldl_cons]
        exact ih _
      · simp only [windowRecord, hs, hl, Bool.not_false, Bool.false_eq_true, if_false, if_true,
          filter_cons_of_neg, not_false_eq_true]
        exact ih _

/-- **What a window query of the file answers.** -/
theorem windowInFile_eq (wire : WireFile) (key : StateKey) (nowMs : ℕ) :
    windowInFile wire key nowMs = match (recordsOn key wire).find? (isSkewed nowMs) with
      | some r => .error (skewReason nowMs r)
      | none => .ok ((((recordsOn key wire).filter fun r =>
          recordIsLive r nowMs key.windowSecs).map (·.amount)).foldl tally (0, 0)) := by
  rw [windowInFile_eq_foldlM, foldlM_windowRecord]

theorem windowInFile_eq_ok {key : StateKey} {nowMs : ℕ} {res : ℤ × ℕ}
    (h : windowInFile wire key nowMs = .ok res) : res = (((recordsOn key wire).filter fun r =>
      recordIsLive r nowMs key.windowSecs).map (·.amount)).foldl tally (0, 0) := by
  rw [windowInFile_eq] at h
  split at h
  · cases h
  · exact (Except.ok.inj h).symm

/-! ## Admission -/

/-- The loop of `admit`: `batch` holds what the entries ahead in the batch add to each key. -/
def admitLoop (wire : WireFile) : (StateKey → ℤ × ℕ) → List WindowEntry →
    Except WindowStoreError Unit
  | _, [] => .ok ()
  | batch, entry :: rest =>
    match windowInFile wire entry.key entry.timestampMs with
    | .error reason => .error (.policyDenied reason)
    | .ok (fileSum, fileCount) =>
      let (batchSum, batchCount) := batch entry.key
      let used := addI128 fileSum batchSum
      let calls := addU32 fileCount batchCount
      match entry.refusal used calls with
      | some reason => .error (.policyDenied reason)
      | none => admitLoop wire (Function.update batch entry.key
          (tally (batchSum, batchCount) entry.amount)) rest

/-- Refuses `entries` when any of them would take its bucket past the limit it carries, measured
against the file plus the entries ahead of it in the batch. -/
def admitEntries (wire : WireFile) (entries : List WindowEntry) : Except WindowStoreError Unit :=
  admitLoop wire (fun _ => (0, 0)) entries

/-- The limit `e` carries leaves room for it, when the file holds what it holds at the entry's own
instant and the batch ahead of it adds `ahead`. -/
def Admitted (wire : WireFile) (ahead : ℤ × ℕ) (e : WindowEntry) : Prop :=
  ∃ res, windowInFile wire e.key e.timestampMs = .ok res ∧
    e.limit.admits (addI128 res.1 ahead.1) (addU32 res.2 ahead.2) e.amount

/-- What the entries of `l` on `key` add to a batch that already holds `acc` there. -/
def aheadOn (key : StateKey) (acc : ℤ × ℕ) (l : List WindowEntry) : ℤ × ℕ :=
  ((l.filter fun e => e.key = key).map (·.amount)).foldl tally acc

theorem admitLoop_cons_eq_ok_iff (wire : WireFile) (batch : StateKey → ℤ × ℕ) (e : WindowEntry)
    (rest : List WindowEntry) : admitLoop wire batch (e :: rest) = .ok () ↔
      Admitted wire (batch e.key) e ∧
        admitLoop wire (Function.update batch e.key (tally (batch e.key) e.amount)) rest =
          .ok () := by
  rw [admitLoop]
  cases hw : windowInFile wire e.key e.timestampMs with
  | error reason => simp [Admitted, hw]
  | ok res =>
    have hadm : Admitted wire (batch e.key) e ↔
        e.refusal (addI128 res.1 (batch e.key).1) (addU32 res.2 (batch e.key).2) = none := by
      simp [Admitted, hw, WindowEntry.refusal_eq_none_iff]
    rw [hadm]
    cases hr : e.refusal (addI128 res.1 (batch e.key).1) (addU32 res.2 (batch e.key).2) with
    | some reason => simp [hr]
    | none => simp [hr]

theorem aheadOn_cons (key : StateKey) (batch : StateKey → ℤ × ℕ) (e : WindowEntry)
    (l : List WindowEntry) : aheadOn key (batch key) (e :: l) =
      aheadOn key (Function.update batch e.key (tally (batch e.key) e.amount) key) l := by
  by_cases h : e.key = key
  · subst h
    simp [aheadOn]
  · simp [aheadOn, h, Function.update_of_ne (Ne.symm h)]

/-- **What admission means.**  Every entry fits under its limit together with the file and with the
entries ahead of it on the same key. -/
theorem admitLoop_eq_ok_iff (wire : WireFile) : ∀ (entries : List WindowEntry)
    (batch : StateKey → ℤ × ℕ), admitLoop wire batch entries = .ok () ↔
      ∀ pre e post, entries = pre ++ e :: post → Admitted wire (aheadOn e.key (batch e.key) pre) e
  | [], batch => by simp [admitLoop]
  | x :: rest, batch => by
    rw [admitLoop_cons_eq_ok_iff, admitLoop_eq_ok_iff wire rest]
    constructor
    · rintro ⟨hx, hrest⟩ pre e post hsplit
      cases pre with
      | nil =>
        obtain ⟨rfl, rfl⟩ := List.cons.inj hsplit
        exact hx
      | cons y pre =>
        obtain ⟨rfl, htail⟩ := List.cons.inj hsplit
        rw [aheadOn_cons]
        exact hrest pre e post htail
    · intro h
      refine ⟨h [] x rest rfl, fun pre e post hsplit => ?_⟩
      rw [← aheadOn_cons]
      exact h (x :: pre) e post (by rw [hsplit]; rfl)

theorem admitEntries_eq_ok_iff (wire : WireFile) (entries : List WindowEntry) :
    admitEntries wire entries = .ok () ↔
      ∀ pre e post, entries = pre ++ e :: post → Admitted wire (aheadOn e.key (0, 0) pre) e :=
  admitLoop_eq_ok_iff wire entries fun _ => (0, 0)

/-! ## Writing -/

def WireBucket.ofKey (key : StateKey) : WireBucket :=
  ⟨key.scopeSpecificity, key.bucket, key.windowSecs, []⟩

/-- The mutable access `find_or_insert_bucket` gives: `f` is applied to the first bucket of `key`,
which is added at the end when there is none. -/
def findOrInsertBucket (key : StateKey) (f : WireBucket → WireBucket) :
    List WireBucket → List WireBucket
  | [] => [f (.ofKey key)]
  | b :: bs => if b.holds key then f b :: bs else b :: findOrInsertBucket key f bs

def WireBucket.push (r : WireRecord) (b : WireBucket) : WireBucket :=
  { b with records := b.records ++ [r] }

/-- Pushes one record per entry onto the entry's bucket. -/
def pushEntries (mk : WindowEntry → WireRecord) (newEntries : List WindowEntry)
    (entries : List WireBucket) : List WireBucket :=
  newEntries.foldl (fun bs e => findOrInsertBucket e.key (.push (mk e)) bs) entries

def settledRecord (e : WindowEntry) : WireRecord := { tsMs := e.timestampMs, amount := e.amount }

/-- The pending record of an entry under a reservation. -/
def pendingRecord (res : WindowReservation) (e : WindowEntry) : WireRecord :=
  { tsMs := e.timestampMs
    amount := e.amount
    id := res.id
    status := .pending
    txHash := res.txHash
    source := res.source
    sequence := res.sequence
    maxTime := res.maxTime
    pendingSinceMs := res.pendingSinceMs
    submissionLedger := res.submissionLedger
    operatorRequired := false }

/-- Keeps the records that satisfy `keep` and drops the buckets left empty. -/
def retainRecords (keep : WireRecord → Bool) (wire : WireFile) : WireFile :=
  { wire with entries := (wire.entries.map fun b =>
      { b with records := b.records.filter keep }).filter fun b => !b.records.isEmpty }

/-- Drops the confirmed records that have aged out of the retention window. -/
def pruneStale (wire : WireFile) (nowMs : ℕ) : WireFile :=
  let cutoff := nowMs - retentionMs
  retainRecords (fun r => decide (r.tsMs ≥ cutoff) || decide (r.status = .pending)) wire

/-- Whether any record, pending or confirmed, carries the non-empty reservation `id`. -/
def fileHoldsId (wire : WireFile) (id : String) : Bool :=
  !id.isEmpty && wire.entries.any fun b => b.records.any fun r => r.id == id

/-- The image `record_settled` commits, up to its generation. -/
def settledImage (requireAdmission : Bool) (newEntries : List WindowEntry) (nowMs : ℕ)
    (wire : WireFile) : Except WindowStoreError WireFile := do
  if requireAdmission then admitEntries wire newEntries
  let wire := { wire with entries := pushEntries settledRecord newEntries wire.entries }
  return { pruneStale wire nowMs with version := wireVersion }

/-- The image `record_pending` commits, up to its generation. -/
def pendingImage (newEntries : List WindowEntry) (reservation : WindowReservation) (nowMs : ℕ)
    (wire : WireFile) : Except WindowStoreError WireFile := do
  if fileHoldsId wire reservation.id then throw .duplicateReservation
  admitEntries wire newEntries
  let wire := { wire with
    entries := pushEntries (pendingRecord reservation) newEntries wire.entries }
  return { pruneStale wire nowMs with version := wireVersion }

/-- Rewrites the records that satisfy `p`, and reports whether there is one. -/
def updateRecords (p : WireRecord → Bool) (f : WireRecord → WireRecord) (wire : WireFile) :
    WireFile × Bool :=
  ({ wire with entries := wire.entries.map fun b =>
      { b with records := b.records.map fun r => if p r then f r else r } },
    wire.entries.any fun b => b.records.any p)

/-- A pending record of the reservation `id`. -/
def isPendingOf (id : String) (r : WireRecord) : Bool :=
  r.id == id && decide (r.status = .pending)

/-- `confirm`'s close time in milliseconds; `none` when the applying ledger's is not available. -/
def closeMs (createdAt : Option ℤ) : Option ℕ :=
  ((createdAt.bind fun t => if 0 ≤ t then some t.toNat else none).filter (0 < ·)).bind
    (checkedMul u64Max · 1000)

/-- The mutation of `confirm`. -/
def confirmRecords (id : String) (closeMs : ℕ) : WireFile → WireFile × Bool :=
  updateRecords (isPendingOf id) fun r => { r with status := .confirmed, tsMs := closeMs }

/-- The mutation of `mark_operator_required`. -/
def markRecords (id : String) : WireFile → WireFile × Bool :=
  updateRecords (fun r => isPendingOf id r && !r.operatorRequired)
    fun r => { r with operatorRequired := true }

def recordCount (wire : WireFile) : ℕ := (wire.entries.map (·.records.length)).sum

/-- The mutation of `release`. -/
def releaseRecords (id : String) (wire : WireFile) : WireFile × Bool :=
  let wire' := retainRecords (fun r => r.id != id || decide (r.status ≠ .pending)) wire
  (wire', recordCount wire' != recordCount wire)

/-- The image `rewrite_records` commits, up to its generation; `none` when the mutation touched
nothing and nothing is written. -/
def rewriteImage (mutate : WireFile → WireFile × Bool) (nowMs : ℕ) (wire : WireFile) :
    Option WireFile :=
  let (wire', touched) := mutate wire
  if touched then some { pruneStale wire' nowMs with version := wireVersion } else none

/-! ## Whole operations -/

/-- The operations of the store that write window records. -/
inductive StoreOp where
  | recordPending (newEntries : List WindowEntry) (reservation : WindowReservation)
  | recordAuthorized (newEntries : List WindowEntry)
  | recordAndPersist (newEntries : List WindowEntry)
  | confirm (id : String) (createdAt : Option ℤ)
  | release (id : String)
  | markOperatorRequired (id : String)

/-- The image an operation commits over the file content `wire`, up to its generation; `none` when
it writes nothing. -/
def StoreOp.image (nowMs : ℕ) (wire : WireFile) :
    StoreOp → Except WindowStoreError (Option WireFile)
  | .recordPending newEntries reservation =>
    (pendingImage newEntries reservation nowMs wire).map some
  | .recordAuthorized newEntries => (settledImage true newEntries nowMs wire).map some
  | .recordAndPersist newEntries => (settledImage false newEntries nowMs wire).map some
  | .confirm id createdAt =>
    .ok ((closeMs createdAt).bind fun ms => rewriteImage (confirmRecords id ms) nowMs wire)
  | .release id => .ok (rewriteImage (releaseRecords id) nowMs wire)
  | .markOperatorRequired id => .ok (rewriteImage (markRecords id) nowMs wire)

/-- The generation after `generation`. -/
def incrementGeneration (generation : ℕ) : Except WindowStoreError ℕ :=
  match checkedAdd u64Max generation 1 with
  | some next => .ok next
  | none => .error (.invalid "policy window-state generation counter overflow")

/-- An operation that runs to completion on the file content `wire`, under the store lock with the
host clock at `nowMs`: the content it leaves. -/
def StoreOp.exec (op : StoreOp) (nowMs : ℕ) (wire : WireFile) : Except WindowStoreError WireFile :=
  match op.image nowMs wire with
  | .error e => .error e
  | .ok none => .ok wire
  | .ok (some image) =>
    match incrementGeneration wire.generation with
    | .error e => .error e
    | .ok generation => .ok { image with generation := generation, prepared := none }

end AgentWallet.PolicyState.Wire
