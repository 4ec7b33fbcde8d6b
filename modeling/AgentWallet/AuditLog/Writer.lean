import AgentWallet.AuditLog.Files
import AgentWallet.Base.Programs

/-!
# The audit writer

`AuditWriter` of `writer.rs`: the state of a writer, `write_entry` with everything an append does
(`prepare_append`, `rotate`, `commit_append`), and `open_inner`.

Every operation on the file system or the keyring that can fail has an answer in `Faults`; a failed
write leaves the bytes it got to write.  The clock readings of a call are part of the call.
-/

namespace AgentWallet.AuditLog.Writer

open Base Base.Programs Timestamps Entry Files

/-! ## State -/

@[ext] structure AuditWriter where
  /-- The name the file behind the writer's handle has now. -/
  heldName : Text
  lastHash : Text
  isNewFile : Bool
  hmacKey : Option Text
  /-- There is a store for the tip anchor. -/
  anchored : Bool
  entryCount : ℕ
  endOffset : ℕ
  pendingTipAnchor : Option TipAnchor
  logDiverged : Option String
  owedRowAnchored : Bool
  partialRotationArchive : Option Text

/-- What there is without a writer: the directory, the keyring, and what the process remembers of
rotations.  `history` is not part of the program: the entries whose lines were written whole, in
order. -/
structure Surroundings (K : Type) where
  dir : Directory
  storedAnchor : Option TipAnchor
  lastRotationTimestamp : ℕ
  rotationCollisionCounter : ℕ
  history : List (AuditEntry K)

structure World (K : Type) extends Surroundings K where
  writer : AuditWriter

/-! ## Calls -/

/-- How the writing of one line fails: after so many bytes, at the sync, or at the look at the
file's length behind it. -/
structure LineFaults where
  write : Option ℕ
  sync : Bool
  metadata : Bool

structure Faults where
  identity : Bool
  pathMetadata : Bool
  tailRead : Bool
  anchorOwed : Bool
  anchorRetry : Bool
  lenMetadata : Bool
  handoff : LineFaults
  anchorHandoff : Bool
  sidecarRename : Bool
  logRename : Bool
  readDir : Bool
  /-- Files and sidecars that the pruning cannot remove. -/
  removeFails : List Text
  removeSidecarFails : List Text
  create : Bool
  row : LineFaults
  /-- The sidecar of a new file gets only so many bytes. -/
  sidecarWrite : Option ℕ
  anchorRow : Bool

def LineFaults.none : LineFaults := ⟨Option.none, false, false⟩

def Faults.none : Faults where
  identity := false
  pathMetadata := false
  tailRead := false
  anchorOwed := false
  anchorRetry := false
  lenMetadata := false
  handoff := .none
  anchorHandoff := false
  sidecarRename := false
  logRename := false
  readDir := false
  removeFails := []
  removeSidecarFails := []
  create := false
  row := .none
  sidecarWrite := Option.none
  anchorRow := false

/-- One call of `write_entry`: the entry, the clock at a rotation and at its handoff, the handoff's
request id, and what fails. -/
structure Call (K : Type) where
  entry : AuditEntry K
  rotationMs : ℕ
  handoffMs : ℕ
  handoffRequestId : Text
  faults : Faults

section

variable {K D : Type}

abbrev Action (K : Type) (α : Type) := Program WriterError (World K) α

/-! ## Files -/

def World.heldContent (w : World K) : Text :=
  match w.dir.files.lookup w.writer.heldName with
  | some (.regular content) => content
  | _ => []

def World.pathLen (env : LogEnv K D) (w : World K) : ℕ :=
  match w.dir.files.lookup env.stem with
  | some (.regular content) => content.length
  | _ => 0

def World.setWriter (w : World K) (f : AuditWriter → AuditWriter) : World K :=
  { w with writer := f w.writer }

def World.setDir (w : World K) (f : Directory → Directory) : World K := { w with dir := f w.dir }

def appendTo (dir : Directory) (name content l : Text) : Directory :=
  { dir with files := dir.files.insert name (.regular (content ++ l)) }

def World.appendBytes (w : World K) (l : Text) : World K :=
  w.setDir fun dir => appendTo dir w.writer.heldName w.heldContent l

variable (env : LogEnv K D)

def failIf (fails : Bool) : Action K Unit := if fails then throw .io else pure ()

def LineFaults.written (lf : LineFaults) (l : Text) : Text :=
  match lf.write with
  | Option.none => l
  | some n => l.take n

/-- `write_all`, `flush` and `sync_data` of the line of an entry. -/
def writeLine (lf : LineFaults) (e : AuditEntry K) : Action K Unit := do
  modify fun w =>
    let w' := w.appendBytes (lf.written (line env e))
    if lf.written (line env e) = line env e then { w' with history := w.history ++ [e] } else w'
  failIf (lf.write.isSome || lf.sync)

/-- `entry_end_offset` -/
def updateEndOffset (lf : LineFaults) : Action K Unit := do
  failIf lf.metadata
  modify fun w => w.setWriter fun wr => { wr with endOffset := w.heldContent.length }

def chained (entry : AuditEntry K) (lastHash : Text) : AuditEntry K :=
  { truncateArgKeysIfNeeded env entry with previousEntryHash := lastHash }

/-! ## The anchor -/

def World.storeAnchor (w : World K) (fails : Bool) (anchor : TipAnchor) : World K :=
  if w.writer.anchored = false then w
  else if fails then w.setWriter fun wr => { wr with pendingTipAnchor := some anchor }
  else
    { w.setWriter fun wr => { wr with pendingTipAnchor := Option.none } with
      storedAnchor := some anchor }

def storeTipAnchorBestEffort (fails : Bool) (anchor : TipAnchor) : Action K Unit :=
  modify fun w => w.storeAnchor fails anchor

/-- `retry_tip_anchor_if_behind`, whose failure the append ignores. -/
def retryTipAnchorIfBehind (fails : Bool) : Action K Unit :=
  modify fun w =>
    match w.writer.pendingTipAnchor with
    | Option.none => w
    | some anchor =>
      if fails then w
      else
        { w.setWriter fun wr => { wr with pendingTipAnchor := Option.none } with
          storedAnchor := some anchor }

/-- `anchor_the_refused_row` -/
def anchorTheRefusedRow (fails : Bool) (entry : AuditEntry K) : Action K Unit := do
  let w ← get
  let row := chained env entry w.writer.lastHash
  match entryHash env row with
  | Option.none => pure ()
  | some hash => do
    storeTipAnchorBestEffort fails
      ⟨w.writer.entryCount + 1, hash, w.writer.endOffset + (env.json.toVec row).length + 1⟩
    modify fun w => w.setWriter fun wr =>
      { wr with owedRowAnchored := wr.pendingTipAnchor.isNone }

/-- `anchor_owed_row` -/
def anchorOwedRow (fails : Bool) (entry : AuditEntry K) : Action K Unit := do
  let w ← get
  if w.writer.owedRowAnchored then pure () else anchorTheRefusedRow env fails entry

/-! ## The log the writer holds -/

def logReplacedReason : String := "the log at the path was replaced underneath the writer"

def logTruncatedReason : String := "the log is shorter than the writer's last append"

def logTipRewrittenReason : String :=
  "the entry at the writer's last append is not the one it wrote"

def World.divergedError (w : World K) (reason : String) : WriterError :=
  .tipAnchorMismatch w.writer.entryCount w.writer.endOffset (w.pathLen env) reason

/-- `latch` -/
def latch (reason : String) : Action K Unit := do
  modify fun w => w.setWriter fun wr => { wr with logDiverged := some reason }
  let w ← get
  throw (w.divergedError env reason)

def World.holdsPath (w : World K) : Bool :=
  decide (w.writer.heldName = env.stem) && fileExists (w.dir.files.lookup env.stem)

def refuseIfReplaced (f : Faults) : Action K Unit := do
  let w ← get
  match w.writer.logDiverged with
  | some reason => throw (w.divergedError env reason)
  | Option.none =>
    if f.identity then throw .io
    else if w.holdsPath env then pure () else latch env logReplacedReason

/-- `entry_is_intact_at` on the held file. -/
def World.entryIsIntactAt (w : World K) (endOffset : ℕ) (tipHash : Text) :
    Except WriterError Bool :=
  match readLastLineBefore w.heldContent endOffset with
  | Option.none => .ok false
  | some l =>
    match env.json.fromSlice l with
    | Option.none => .ok false
    | some e =>
      match entryHash env e with
      | Option.none => .error .hash
      | some hash => .ok (decide (hash = tipHash))

def refuseIfTruncated (f : Faults) : Action K Unit := do
  failIf f.pathMetadata
  let w ← get
  if w.pathLen env < w.writer.endOffset then latch env logTruncatedReason else pure ()

def refuseIfTipRewritten (f : Faults) : Action K Unit := do
  let w ← get
  if w.writer.entryCount = 0 then pure ()
  else if f.tailRead then throw .io
  else
    match w.entryIsIntactAt env w.writer.endOffset w.writer.lastHash with
    | .error e => throw e
    | .ok intact => if intact then pure () else latch env logTipRewrittenReason

def refuseIfLogMovedOnAppend (f : Faults) : Action K Unit := do
  let w ← get
  if w.writer.anchored = false then pure ()
  else do
    refuseIfReplaced env f
    refuseIfTruncated env f
    refuseIfTipRewritten env f

/-! ## Rotation -/

def rotationThresholdBytes : ℕ := 10 * 1024 * 1024

/-- The timestamp of a rotation: a second rotation in one millisecond gets a counter. -/
def World.rotationStamp (w : World K) (nowMs : ℕ) : Text :=
  if compactNumber nowMs > w.lastRotationTimestamp then compact nowMs
  else
    compact nowMs ++ [45] ++
      (Nat.toDigits 10 (w.rotationCollisionCounter + 1)).map fun c => UInt8.ofNat c.toNat

def World.stamped (w : World K) (nowMs : ℕ) : World K :=
  if compactNumber nowMs > w.lastRotationTimestamp then
    { w with lastRotationTimestamp := compactNumber nowMs }
  else { w with rotationCollisionCounter := w.rotationCollisionCounter + 1 }

/-- `compact_timestamp` -/
def compactTimestamp (nowMs : ℕ) : Action K Text := do
  let w ← get
  set (w.stamped nowMs)
  pure (w.rotationStamp nowMs)

/-- The handoff as it is written: the hash is named before the truncation. -/
def handoffRow (c : Call K) (rotatedName lastHash : Text) : AuditEntry K :=
  truncateArgKeysIfNeeded env
    { newRotationHandoff K rotatedName c.handoffRequestId c.handoffMs with
      previousEntryHash := lastHash }

/-- `append_rotation_handoff`: the hash of the handoff. -/
def appendRotationHandoff (c : Call K) (rotatedName : Text) : Action K Text := do
  let w ← get
  let handoff := handoffRow env c rotatedName w.writer.lastHash
  match computeEntryHash env (canonicalJsonBody env handoff) w.writer.lastHash with
  | Option.none => throw .hash
  | some hash => do
    writeLine env c.faults.handoff handoff
    modify fun w => w.setWriter fun wr => { wr with entryCount := wr.entryCount + 1 }
    updateEndOffset c.faults.handoff
    let w ← get
    storeTipAnchorBestEffort c.faults.anchorHandoff ⟨w.writer.entryCount, hash, w.writer.endOffset⟩
    pure hash

/-- The sidecar of the active file, when there is one. -/
def activeSidecar (dir : Directory) : Option FileNode :=
  (dir.sidecars.lookup env.stem).filter fun node => fileExists (some node)

def moveSidecar (dir : Directory) (node : FileNode) (rotatedName : Text) : Directory :=
  { dir with sidecars := (dir.sidecars.erase env.stem).insert rotatedName node }

def renameSidecar (f : Faults) (rotatedName : Text) : Action K Unit := do
  let w ← get
  match activeSidecar env w.dir with
  | Option.none => pure ()
  | some node => do
    failIf f.sidecarRename
    modify fun w => w.setDir fun dir => moveSidecar env dir node rotatedName

def moveLog (dir : Directory) (node : FileNode) (rotatedName : Text) : Directory :=
  { dir with files := (dir.files.erase env.stem).insert rotatedName node }

/-- The rename of the log; the handle goes with it. -/
def renameLog (f : Faults) (rotatedName : Text) : Action K Unit := do
  let w ← get
  match w.dir.files.lookup env.stem with
  | Option.none => throw .io
  | some node => do
    failIf f.logRename
    modify fun w =>
      (w.setDir fun dir => moveLog env dir node rotatedName).setWriter fun wr =>
        if wr.heldName = env.stem then { wr with heldName := rotatedName } else wr

def excess (dir : Directory) : List Text :=
  (archives env dir).take ((archives env dir).length - maxRotatedFiles)

/-- The directory without the excess files and sidecars that can be removed. -/
def prune (dir : Directory) (f : Faults) : Directory where
  files := ((excess env dir).filter fun name => decide (name ∉ f.removeFails)).foldl
    (fun l name => l.erase name) dir.files
  sidecars := ((excess env dir).filter fun name => decide (name ∉ f.removeSidecarFails)).foldl
    (fun l name => l.erase name) dir.sidecars

def pruneRotatedFiles (f : Faults) : Action K Unit := do
  failIf f.readDir
  modify fun w => w.setDir fun dir => prune env dir f

/-- `create_new`: an existing file is not reused. -/
def createNewActiveFile (f : Faults) (rotatedName : Text) : Action K Unit := do
  let w ← get
  if f.create || (w.dir.files.lookup env.stem).isSome then do
    modify fun w => w.setWriter fun wr => { wr with partialRotationArchive := some rotatedName }
    throw (.partialRotation rotatedName)
  else
    modify fun w => w.setDir fun dir =>
      { dir with files := dir.files.insert env.stem (.regular []) }

/-- The new active file, and the writer's fields for it. -/
def startActiveFile (f : Faults) (rotatedName handoffHash : Text) : Action K Unit := do
  createNewActiveFile env f rotatedName
  modify fun w => w.setWriter fun wr =>
    { wr with
      heldName := env.stem
      lastHash := handoffHash
      isNewFile := true
      entryCount := 0
      endOffset := 0 }

def finishRotation (f : Faults) (rotatedName handoffHash : Text) : Action K Unit := do
  renameLog env f rotatedName
  pruneRotatedFiles env f
  startActiveFile env f rotatedName handoffHash

def rotateTo (c : Call K) (rotatedName : Text) : Action K Unit := do
  let handoffHash ← appendRotationHandoff env c rotatedName
  renameSidecar env c.faults rotatedName
  finishRotation env c.faults rotatedName handoffHash

def rotate (c : Call K) : Action K Unit := do
  let ts ← compactTimestamp c.rotationMs
  rotateTo env c (env.stem ++ [46] ++ ts)

/-! ## Appending -/

def rotateIfNeeded (c : Call K) : Action K Unit := do
  failIf c.faults.lenMetadata
  let w ← get
  if w.heldContent.length ≥ rotationThresholdBytes then rotate env c else pure ()

/-- A refusal because the log moved also anchors the row that was owed. -/
def guardLog (c : Call K) : Action K Unit :=
  tryCatch (refuseIfLogMovedOnAppend env c.faults) fun e => do
    anchorOwedRow env c.faults.anchorOwed c.entry
    throw e

def refusePartialRotation : Action K Unit := do
  let w ← get
  match w.writer.partialRotationArchive with
  | some archiveName => throw (.partialRotation archiveName)
  | Option.none => pure ()

def prepareAppend (c : Call K) : Action K Unit := do
  refusePartialRotation
  guardLog env c
  retryTipAnchorIfBehind c.faults.anchorRetry
  rotateIfNeeded env c

def sidecarContent (key : Text) (e : AuditEntry K) : Text :=
  signChainRoot env key (canonicalJsonBody env e) ++ [10]

/-- The sidecar of the active file, written anew. -/
def writeSidecar (dir : Directory) (content : Text) : Directory :=
  { dir with sidecars := dir.sidecars.insert env.stem (.regular content) }

def writeRootHmacSidecar (f : Faults) (content : Text) : Action K Unit := do
  modify fun w => w.setDir fun dir => writeSidecar env dir (match f.sidecarWrite with
    | Option.none => content
    | some n => content.take n)
  failIf f.sidecarWrite.isSome

def signChainRootIfKeyed (f : Faults) (e : AuditEntry K) : Action K Unit := do
  let w ← get
  match w.writer.hmacKey with
  | Option.none => pure ()
  | some key => writeRootHmacSidecar env f (sidecarContent env key e)

/-- The first entry of a file is its chain root. -/
def signIfNewFile (f : Faults) (e : AuditEntry K) : Action K Unit := do
  let w ← get
  if w.writer.isNewFile then do
    signChainRootIfKeyed env f e
    modify fun w => w.setWriter fun wr => { wr with isNewFile := false }
  else pure ()

/-- The writer counts the row before it takes over its hash. -/
def commitAppend (c : Call K) : Action K Unit := do
  let w ← get
  let row := chained env c.entry w.writer.lastHash
  match computeEntryHash env (canonicalJsonBody env row) w.writer.lastHash with
  | Option.none => throw .hash
  | some currentHash => do
    writeLine env c.faults.row row
    signIfNewFile env c.faults row
    modify fun w => w.setWriter fun wr => { wr with entryCount := wr.entryCount + 1 }
    updateEndOffset c.faults.row
    modify fun w => w.setWriter fun wr => { wr with lastHash := currentHash }
    let w ← get
    storeTipAnchorBestEffort c.faults.anchorRow
      ⟨w.writer.entryCount, currentHash, w.writer.endOffset⟩

/-- `write_entry` of a writer whose outbox is empty: `append_checked`. -/
def writeEntry (c : Call K) : Action K Unit := do
  prepareAppend env c
  commitAppend env c

/-! ## Opening -/

/-- The last line of the active file, as the check for a cut-off write looks for it. -/
def detectPartialLastEntry (content : Text) : Option PartialRotationState :=
  if content = [] then Option.none
  else
    match Lines.scanBack true scanChunk (fun b => decide (b = 10)) 10 content (content.length + 1)
      content.length [] with
    | Option.none => Option.none
    | some last =>
      if env.json.isValue last then Option.none
      else
        some (.partialHandoffWrite content.length
          ((content.rdropWhile fun b => decide (b = 10)).length - last.length))

def orphanSidecar (dir : Directory) : Option Text :=
  dir.sidecars.keys.find? fun name =>
    isRotatedSibling env.stem name &&
      match dir.files.lookup name with
      | some (.regular _) => false
      | _ => true

/-- A name that ends in `.tmp`. -/
def tmpFile (dir : Directory) : Option Text :=
  dir.files.keys.find? fun name => ([46, 116, 109, 112] : Text).isSuffixOf name

def regularSize : Option FileNode → ℕ
  | some (.regular content) => content.length
  | _ => 0

/-- What a rotation that did not finish has left, the first of three signs. -/
def detectPartialRotation (dir : Directory) (content : Text) : Except WriterError Unit :=
  let found :=
    match orphanSidecar env dir with
    | some name => some (PartialRotationState.orphanSidecar name)
    | Option.none =>
      match tmpFile dir with
      | some name => some (.midRename name (regularSize (dir.files.lookup name)))
      | Option.none => detectPartialLastEntry env content
  match found with
  | some state => .error (.integrityViolation (.partialRotation state))
  | Option.none => .ok ()

/-- Opened for appending, and created when it is not there. -/
def openAppend (dir : Directory) : Except WriterError (Directory × Text) :=
  match dir.files.lookup env.stem with
  | Option.none => .ok ({ dir with files := dir.files.insert env.stem (.regular []) }, [])
  | some (.regular content) => .ok (dir, content)
  | some _ => .error .io

/-- The replay of the active file at `open`. -/
def openScan (content seed : Text) : Except WriterError ChainScan :=
  if content = [] then .ok ⟨seed, 0, 0⟩ else readAndVerifyEntryChain env content 0 seed

def readFirstEntryOf (content : Text) : Except WriterError (AuditEntry K) :=
  match (Lines.rawLines 10 content).find? fun raw =>
    !(stripLineTerminator raw).all isAsciiWhitespace with
  | Option.none => .error .io
  | some raw =>
    match readLine env raw with
    | Option.none => .error .serialise
    | some e => .ok e

def readSidecar (dir : Directory) : Except WriterError Text :=
  match openFile (dir.sidecars.lookup env.stem) with
  | .content content =>
    match Utf8.decode content with
    | Option.none => .error .io
    | some s => .ok (Utf8.encode (Utf8.trim s))
  | _ => .error .io

variable [DecidableEq D]

def verifyChainRootForAdoption (w : World K) : Except WriterError Unit :=
  match w.writer.hmacKey with
  | Option.none => .ok ()
  | some key =>
    if fileExists (w.dir.sidecars.lookup env.stem) = false then .ok ()
    else do
      let tag ← readSidecar env w.dir
      let first ← readFirstEntryOf env w.heldContent
      if verifyChainRoot env key (canonicalJsonBody env first) tag then .ok ()
      else .error (.integrityViolation (.hmacMismatch env.stem))

inductive AnchorOutcome where
  | notAnchored
  | adoptedEmpty
  | adoptedExisting
  | current
  | rotationCompleted
  | advanced
deriving DecidableEq

/-- The writer's state after a replay of the whole file. -/
def World.adoptScanState (w : World K) (scan : ChainScan) : World K :=
  w.setWriter fun wr =>
    { wr with
      entryCount := scan.entryCount
      endOffset := scan.endOffset
      isNewFile := decide (scan.entryCount = 0)
      lastHash := if scan.entryCount > 0 then scan.lastHash else wr.lastHash }

def World.adoptAnchor (w : World K) (anchor : TipAnchor) : World K :=
  w.setWriter fun wr =>
    { wr with
      entryCount := anchor.entryCount
      endOffset := anchor.endOffset
      isNewFile := false
      lastHash := anchor.tipHash }

def replayActiveFile (w : World K) : Except WriterError ChainScan :=
  match initialChainSeed env w.dir with
  | .error e => .error e
  | .ok seed => readAndVerifyEntryChain env w.heldContent 0 seed

def adoptRotatedFile (w : World K) : Except WriterError (AnchorOutcome × World K) := do
  let scan ← replayActiveFile env w
  let w := w.adoptScanState scan
  .ok (.rotationCompleted,
    if scan.entryCount > 0 then
      { w with storedAnchor := some ⟨scan.entryCount, scan.lastHash, scan.endOffset⟩ }
    else w)

/-- A log without an anchor is replayed, and its tip becomes the anchor. -/
def adoptTipAnchor (w : World K) (len : ℕ) : Except WriterError (AnchorOutcome × World K) :=
  if len = 0 then
    .ok (.adoptedEmpty, w.setWriter fun wr => { wr with entryCount := 0, endOffset := 0 })
  else do
    let scan ← replayActiveFile env w
    verifyChainRootForAdoption env w
    .ok (if scan.entryCount = 0 then .adoptedEmpty else .adoptedExisting,
      { w.adoptScanState scan with
        storedAnchor := some ⟨scan.entryCount, scan.lastHash, scan.endOffset⟩ })

/-- The file moved forward past the anchor: its tail is replayed. -/
def advanceAnchor (w : World K) (anchor : TipAnchor) :
    Except WriterError (AnchorOutcome × World K) := do
  let tail ← readAndVerifyEntryChain env w.heldContent anchor.endOffset anchor.tipHash
  let advanced := TipAnchor.mk (anchor.entryCount + tail.entryCount) tail.lastHash tail.endOffset
  .ok (.advanced, { w.adoptAnchor advanced with storedAnchor := some advanced })

/-- An anchor that does not describe the end of the file. -/
def reconcileBehind (w : World K) (anchor : TipAnchor) (intact : Bool) :
    Except WriterError (AnchorOutcome × World K) :=
  let mismatch := WriterError.tipAnchorMismatch anchor.entryCount anchor.endOffset (w.pathLen env)
  match initialChainSeed env w.dir with
  | .error e => .error e
  | .ok seed =>
    if seed = anchor.tipHash then adoptRotatedFile env w
    else if w.pathLen env < anchor.endOffset then
      .error (mismatch "file is shorter than the anchor")
    else if intact = false then
      .error (mismatch "the entry at the anchored offset is not the anchored entry")
    else advanceAnchor env w anchor

/-- `reconcile_tip_anchor` of a writer that was opened just now: nothing is latched, partial or
owed, and the held file is the one at the path. -/
def reconcileTipAnchor (w : World K) : Except WriterError (AnchorOutcome × World K) :=
  match w.storedAnchor with
  | Option.none => adoptTipAnchor env w (w.pathLen env)
  | some anchor => do
    let intact ← w.entryIsIntactAt env anchor.endOffset anchor.tipHash
    if intact = true ∧ w.pathLen env = anchor.endOffset then .ok (.current, w.adoptAnchor anchor)
    else reconcileBehind env w anchor intact

/-- A writer right after the replay of its file. -/
def openedWorld (s : Surroundings K) (hmacKey : Option Text) (anchored : Bool) (dir : Directory)
    (content : Text) (scan : ChainScan) : World K where
  toSurroundings := { s with dir := dir }
  writer :=
    { heldName := env.stem
      lastHash := scan.lastHash
      isNewFile := decide (content = [])
      hmacKey := hmacKey
      anchored := anchored
      entryCount := scan.entryCount
      endOffset := scan.endOffset
      pendingTipAnchor := Option.none
      logDiverged := Option.none
      owedRowAnchored := false
      partialRotationArchive := Option.none }

/-- The anchor check of an anchored writer; an adopted log gets a row that says so. -/
def reconcileOnOpen (adoptionRow : ℕ → Call K) (w : World K) : Except WriterError (World K) :=
  if w.writer.anchored = false then .ok w
  else do
    let (outcome, w) ← reconcileTipAnchor env w
    .ok (if outcome = .adoptedExisting then
        final (writeEntry env (adoptionRow w.writer.entryCount)) w
      else w)

/-- `open_inner` in the checking mode, with nothing queued in the outbox. -/
def openInner (hmacKey : Option Text) (anchored : Bool) (adoptionRow : ℕ → Call K)
    (s : Surroundings K) : Except WriterError (World K) := do
  let (dir, content) ← openAppend env s.dir
  detectPartialRotation env dir content
  let seed ← initialChainSeed env dir
  let scan ← openScan env content seed
  reconcileOnOpen env adoptionRow (openedWorld env s hmacKey anchored dir content scan)

end

end AgentWallet.AuditLog.Writer
