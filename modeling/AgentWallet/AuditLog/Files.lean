import AgentWallet.AuditLog.Entry
import AgentWallet.Base.Checks

/-!
# The files of an audit log

The directory of a log: the active file, its rotated siblings and their `.root_hmac` sidecars.  From
`writer.rs` and `verify.rs`: which names are rotated siblings (`is_rotated_sibling`), the files of
the chain in order (`collect_file_chain`), the hash the active file starts from
(`initial_chain_seed`) and the replay of a file (`read_and_verify_entry_chain`).
-/

namespace AgentWallet.AuditLog.Files

open Base List
open Base.Decimal (isDigit)
open Timestamps Entry

variable {content : Text}

/-! ## The directory -/

inductive FileNode where
  | regular (content : Text)
  /-- A symbolic link, with the content it leads to. -/
  | symlink (target : Option Text)
  | directory

/-- The audit directory.  A sidecar `<name>.root_hmac` is kept under the `name` in front of its
extension, apart from all other files. -/
structure Directory where
  files : AList (fun _ : Text => FileNode)
  sidecars : AList (fun _ : Text => FileNode)

/-- `Path::exists` -/
def fileExists : Option FileNode → Bool
  | none => false
  | some (.symlink target) => target.isSome
  | some _ => true

/-! ## Errors -/

inductive ChainBreak where
  | previousEntryHashMismatch
  | rotationHandoffInActiveFile
deriving DecidableEq

inductive RotationGap where
  /-- A file of the chain is not there. -/
  | missing (file : Text)
  /-- The handoff names another file. -/
  | handoffNames (actual file : Text)
  /-- There is no handoff. -/
  | noHandoff (file : Text)
deriving DecidableEq

inductive ParseFailure where
  | notUtf8
  | notAnEntry
  | timestamp (e : TimestampError)
  | hash
deriving DecidableEq

/-- What a crash in the middle of a rotation leaves. -/
inductive PartialRotationState where
  | orphanSidecar (log : Text)
  | midRename (tmp : Text) (sizeBytes : ℕ)
  | partialHandoffWrite (fileSizeBytes partialEntryOffset : ℕ)
deriving DecidableEq

inductive VerifyError where
  | io
  | logNotFound
  | rotationGap (gap : RotationGap)
  | tooManyRotatedFiles (found cap : ℕ)
  | nonRegularFileLogPath
  | parseError (line : ℕ) (failure : ParseFailure)
  | chainBroken (line : ℕ) (file : Text) (reason : ChainBreak)
  | hmacSidecarMissing (file : Text)
  | hmacMismatch (file : Text)
  | partialRotation (state : PartialRotationState)
  | tipAnchorMismatch (expectedCount expectedOffset actualCount actualOffset : ℕ) (reason : String)
deriving DecidableEq

inductive WriterError where
  | io
  | serialise
  | hash
  | partialRotation (archiveName : Text)
  | chainBrokenAtOpen (entryIdx : ℕ) (expected got : Text)
  | integrityViolation (e : VerifyError)
  | tipAnchorMismatch (expectedCount expectedOffset actualLen : ℕ) (reason : String)
  | tipAnchorStore
  | rotationBridgeUnusable (archiveName : Text) (reason : String)
deriving DecidableEq

/-! ## The tip anchor -/

/-- The high-water mark of one log file, kept in the keyring. -/
structure TipAnchor where
  entryCount : ℕ
  tipHash : Text
  endOffset : ℕ

/-- The anchor describes exactly this end of a file. -/
def TipAnchor.matchesTip (anchor : TipAnchor) (entryCount : ℕ) (tipHash : Text) (endOffset : ℕ) :
    Bool :=
  decide (anchor.entryCount = entryCount) && decide (anchor.endOffset = endOffset) &&
    decide (anchor.tipHash = tipHash)

/-! ## Opening files -/

/-- `open_regular_file`: anything but a regular file is refused. -/
def openRegularFile : Option FileNode → Except VerifyError Text
  | none => .error .io
  | some (.regular content) => .ok content
  | some _ => .error .nonRegularFileLogPath

/-- What `File::open` and the reads after it give. -/
inductive Opened where
  | failed
  | unreadable
  | content (content : Text)

def openFile : Option FileNode → Opened
  | none => .failed
  | some (.regular content) => .content content
  | some (.symlink (some target)) => .content target
  | some (.symlink none) => .failed
  | some .directory => .unreadable

/-! ## Rotated siblings -/

/-- `YYYYMMDDTHHMMSS`, with or without three digits of milliseconds. -/
def isCompactTimestamp (base : Text) : Bool :=
  (decide (base.length = 15) || decide (base.length = 18)) && (base.take 8).all isDigit &&
    decide (base[8]? = some 84) && (base.drop 9).all isDigit

/-- `str::split_once` -/
def splitOnce (sep : UInt8) (s : Text) : Option (Text × Text) :=
  if sep ∈ s then
    some (s.takeWhile fun b => decide (b ≠ sep), (s.dropWhile fun b => decide (b ≠ sep)).drop 1)
  else none

/-- A timestamp, or one with milliseconds and a collision counter behind a dash. -/
def isRotationSuffix (suffix : Text) : Bool :=
  match splitOnce 45 suffix with
  | some (base, collision) =>
    !collision.isEmpty && collision.all isDigit && decide (base.length = 18) &&
      isCompactTimestamp base
  | none => isCompactTimestamp suffix

def isRotatedSibling (stem name : Text) : Bool :=
  match (stem ++ [46]).isPrefixOf? name with
  | some suffix => isRotationSuffix suffix
  | none => false

def maxRotatedFiles : ℕ := 10

/-- More rotated siblings than this are refused. -/
def rotatedFileChainCap : ℕ := maxRotatedFiles * 2 + 1

section

variable {K D : Type} (env : LogEnv K D)

/-- The names of the rotated siblings, in the order the directory lists them. -/
def siblings (dir : Directory) : List Text := dir.files.keys.filter (isRotatedSibling env.stem)

def archives (dir : Directory) : List Text :=
  (siblings env dir).insertionSort fun a b => a ≤ b

/-- The files of the chain, the active one last. -/
def collectFileChain (dir : Directory) : Except VerifyError (List Text) :=
  if (siblings env dir).length > rotatedFileChainCap then
    .error (.tooManyRotatedFiles (rotatedFileChainCap + 1) rotatedFileChainCap)
  else .ok (archives env dir ++ [env.stem])

/-! ## The seed of the active file -/

/-- The hash of an archive's last entry, which has to be a handoff naming that archive. -/
def handoffSeed (archiveName : Text) (e : AuditEntry K) : Except WriterError Text :=
  match e.eventKind with
  | .auditRotationHandoff nextFileName =>
    if nextFileName = archiveName then
      match entryHash env e with
      | some h => .ok h
      | none => .error .hash
    else
      .error (.rotationBridgeUnusable archiveName
        "the archive's handoff entry names a different archive")
  | .other _ =>
    .error (.rotationBridgeUnusable archiveName
      "the archive does not end with a rotation handoff entry")

def archiveSeed (archiveName : Text) (content : Text) : Except WriterError Text :=
  match readLastLineBefore content content.length with
  | none => .ok (zeroBlockHash env)
  | some l =>
    match env.json.fromSlice l with
    | some e => handoffSeed env archiveName e
    | none =>
      .error (.rotationBridgeUnusable archiveName
        "the archive's last line is not a parseable audit entry")

/-- The hash that the first row of the active file has to name. -/
def initialChainSeed (dir : Directory) : Except WriterError Text :=
  match collectFileChain env dir with
  | .error e => .error (.integrityViolation e)
  | .ok chain =>
    -- the element before the active path
    match chain.dropLast.getLast? with
    | none => .ok (zeroBlockHash env)
    | some newest =>
      match openFile (dir.files.lookup newest) with
      | .failed => .ok (zeroBlockHash env)
      | .unreadable => .error .io
      | .content content => archiveSeed env newest content

/-! ## Replay -/

structure ChainScan where
  lastHash : Text
  entryCount : ℕ
  endOffset : ℕ

/-- The state of the replay: the hash the next entry has to name is the hash of the last one. -/
structure Replay where
  scan : ChainScan
  consumed : ℕ

def replayEntry (s : Replay) (consumed : ℕ) (e : AuditEntry K) : Except WriterError Replay :=
  if e.previousEntryHash ≠ s.scan.lastHash then
    .error (.chainBrokenAtOpen (s.scan.entryCount + 1) s.scan.lastHash e.previousEntryHash)
  else
    match entryHash env e with
    | none => .error .hash
    | some h => .ok ⟨⟨h, s.scan.entryCount + 1, consumed⟩, consumed⟩

def replayLine (s : Replay) (raw : Text) : Except WriterError Replay :=
  let consumed := s.consumed + raw.length
  if (stripLineTerminator raw).all isAsciiWhitespace then .ok { s with consumed := consumed }
  else
    match readLine env raw with
    | none => .error .serialise
    | some e => replayEntry env s consumed e

def readAndVerifyEntryChain (content : Text) (startOffset : ℕ) (seed : Text) :
    Except WriterError ChainScan :=
  ((Lines.rawLines 10 (content.drop startOffset)).foldlM (replayLine env)
    ⟨⟨seed, 0, startOffset⟩, startOffset⟩).map Replay.scan

/-! ## The entries of a directory -/

def fileEntries (dir : Directory) (name : Text) : List (AuditEntry K) :=
  match dir.files.lookup name with
  | some (.regular content) => parsedEntries env content
  | _ => []

/-- The entries of the archives in order, then those of the active file. -/
def logEntries (dir : Directory) : List (AuditEntry K) :=
  (archives env dir ++ [env.stem]).flatMap (fileEntries env dir)

end

theorem fileEntries_eq {K D : Type} {env : LogEnv K D} {dir : Directory} {name : Text}
    (h : dir.files.lookup name = some (.regular content)) :
    fileEntries env dir name = parsedEntries env content := by
  unfold fileEntries
  rw [h]

/-! ## Rotated siblings in order -/

section

variable {K D : Type} {env : LogEnv K D} {dir dir' : Directory} {name : Text}

theorem perm_archives : (archives env dir).Perm (siblings env dir) := perm_insertionSort _ _

theorem length_archives : (archives env dir).length = (siblings env dir).length :=
  perm_archives.length_eq

theorem mem_archives : name ∈ archives env dir ↔
      isRotatedSibling env.stem name = true ∧ (dir.files.lookup name).isSome = true := by
  rw [perm_archives.mem_iff]
  unfold siblings
  rw [mem_filter, AList.lookup_isSome]
  exact and_comm

theorem nodup_siblings : (siblings env dir).Nodup := dir.files.nodupKeys.filter _

theorem nodup_archives : (archives env dir).Nodup := perm_archives.nodup_iff.2 nodup_siblings

theorem sorted_archives : (archives env dir).Pairwise (· < ·) := by
  have hle : (archives env dir).Pairwise (· ≤ ·) := pairwise_insertionSort _ _
  have hne : (archives env dir).Pairwise (· ≠ ·) := nodup_archives
  refine (hle.and hne).imp fun {a b} h => ?_
  exact Std.lt_of_le_of_ne h.1 h.2

theorem archives_eq {l : List Text} (hl : l.Pairwise (· < ·)) (hmem : ∀ name, name ∈ l ↔
      isRotatedSibling env.stem name = true ∧ (dir.files.lookup name).isSome = true) :
    archives env dir = l := by
  have hperm : (archives env dir).Perm l := by
    refine (perm_ext_iff_of_nodup ?_ ?_).2 fun name => by rw [mem_archives, hmem]
    · exact nodup_archives
    · exact hl.imp fun h => by
        rintro rfl
        exact List.lt_irrefl _ h
  refine hperm.eq_of_pairwise (fun a b _ _ hab hba => ?_) sorted_archives hl
  exact absurd (List.lt_trans hab hba) (List.lt_irrefl _)

theorem isRotatedSibling_stem (stem : Text) : isRotatedSibling stem stem = false := by
  unfold isRotatedSibling
  have hnone : (stem ++ [46]).isPrefixOf? stem = none := by
    rw [Option.eq_none_iff_forall_ne_some]
    intro suffix h
    have happ := List.isPrefixOf?_eq_some_iff_append_eq.1 h
    have hlen := congrArg List.length happ
    simp at hlen
  rw [hnone]

theorem ne_stem_of_isRotatedSibling {stem name : Text} (h : isRotatedSibling stem name = true) :
    name ≠ stem := by
  rintro rfl
  rw [isRotatedSibling_stem] at h
  cases h

theorem ne_stem_of_mem_archives {name : Text} (h : name ∈ archives env dir) : name ≠ env.stem :=
  ne_stem_of_isRotatedSibling (mem_archives.1 h).1

/-- A log of the active file alone has no rotated ones. -/
theorem archives_insert_stem (node : FileNode) (sidecars : AList fun _ : Text => FileNode) :
    archives env ⟨(∅ : AList fun _ : Text => FileNode).insert env.stem node, sidecars⟩ = [] := by
  refine archives_eq List.Pairwise.nil fun name => ?_
  simp only [List.not_mem_nil, false_iff, not_and]
  intro hsibling hfile
  rw [AList.lookup_insert_ne (ne_stem_of_isRotatedSibling hsibling), AList.lookup_empty] at hfile
  cases hfile

/-! ## The seed and the replay -/

variable {s s' : Replay} {e : AuditEntry K} {hash seed raw : Text} {raws : List Text}

theorem collectFileChain_eq (h : (archives env dir).length ≤ rotatedFileChainCap) :
    collectFileChain env dir = .ok (archives env dir ++ [env.stem]) := by
  unfold collectFileChain
  rw [length_archives] at h
  rw [if_neg (by omega)]

theorem initialChainSeed_of_archives_nil (h : archives env dir = []) :
    initialChainSeed env dir = .ok (zeroBlockHash env) := by
  unfold initialChainSeed
  rw [collectFileChain_eq (by simp [h]), h]
  rfl

theorem handoffSeed_inv (h : handoffSeed env name e = .ok seed) : entryHash env e = some seed := by
  unfold handoffSeed at h
  split at h
  · split_ifs at h
    split at h
    · rename_i hash hhash
      rw [hhash, Except.ok.inj h]
    · cases h
  · cases h

theorem initialChainSeed_of_newest {older : List Text} {newest : Text}
    (harchives : archives env dir = older ++ [newest])
    (hlength : older.length < rotatedFileChainCap)
    (hfile : dir.files.lookup newest = some (.regular (content ++ line env e)))
    (hcontent : Lines.Terminated 10 content) (hkind : e.eventKind = .auditRotationHandoff newest)
    (hhash : entryHash env e = some hash) : initialChainSeed env dir = .ok hash := by
  have hchain : collectFileChain env dir = .ok (older ++ [newest] ++ [env.stem]) := by
    rw [collectFileChain_eq (by rw [harchives]; simp; omega), harchives]
  have hseed : archiveSeed env newest (content ++ line env e) = .ok hash := by
    unfold archiveSeed
    rw [readLastLineBefore_lines hcontent e le_rfl]
    simp [env.json.fromSlice_toVec, handoffSeed, hkind, hhash]
  unfold initialChainSeed
  rw [hchain]
  simp [hfile, openFile, hseed]

theorem replayLine_inv (h : replayLine env s raw = .ok s') :
    ((stripLineTerminator raw).all isAsciiWhitespace = true ∧
      s' = { s with consumed := s.consumed + raw.length }) ∨
    ∃ e hash, readLine env raw = some e ∧ e.previousEntryHash = s.scan.lastHash ∧
      entryHash env e = some hash ∧
      s' = ⟨⟨hash, s.scan.entryCount + 1, s.consumed + raw.length⟩, s.consumed + raw.length⟩ := by
  unfold replayLine at h
  split_ifs at h with hblank
  · exact .inl ⟨hblank, (Except.ok.inj h).symm⟩
  · split at h
    · cases h
    rename_i e he
    unfold replayEntry at h
    split_ifs at h with hprev
    split at h
    · cases h
    rename_i hash hhash
    exact .inr ⟨e, hash, he, not_not.1 hprev, hhash, (Except.ok.inj h).symm⟩

theorem replayLine_consumed (h : replayLine env s raw = .ok s') :
    s'.consumed = s.consumed + raw.length := by
  rcases replayLine_inv h with ⟨-, rfl⟩ | ⟨e, hash, -, -, -, rfl⟩
  · rfl
  · rfl

theorem replayLines_consumed (h : raws.foldlM (replayLine env) s = .ok s') :
    s'.consumed = s.consumed + raws.flatten.length := by
  induction raws generalizing s with
  | nil =>
    cases Except.ok.inj h
    rfl
  | cons raw raws ih =>
    obtain ⟨s₁, hline, hrest⟩ := Checks.bind_eq_ok_iff.1 h
    rw [ih hrest, replayLine_consumed hline, flatten_cons, length_append]
    omega

theorem replayLine_line (hprev : e.previousEntryHash = s.scan.lastHash)
    (hhash : entryHash env e = some hash) : replayLine env s (line env e) =
      .ok ⟨⟨hash, s.scan.entryCount + 1, s.consumed + (line env e).length⟩,
        s.consumed + (line env e).length⟩ := by
  have hne := toVec_ne_nil env.json e
  have hblank : (stripLineTerminator (line env e)).all isAsciiWhitespace = false := by
    rw [stripLineTerminator_line, all_eq_false]
    refine ⟨_, getLast_mem hne, ?_⟩
    rw [isAsciiWhitespace_getLast_toVec e hne]
    exact Bool.false_ne_true
  unfold replayLine
  rw [hblank, readLine_line]
  simp [replayEntry, hprev, hhash]

/-- **The entries of a replayed file form a chain.** -/
theorem replayLines_linked (h : raws.foldlM (replayLine env) s = .ok s') :
    Linked env s.scan.lastHash (raws.filterMap (readLine env)) s'.scan.lastHash := by
  induction raws generalizing s with
  | nil =>
    cases Except.ok.inj h
    exact rfl
  | cons raw raws ih =>
    obtain ⟨s₁, hline, hrest⟩ := Checks.bind_eq_ok_iff.1 h
    have ih := ih hrest
    rcases replayLine_inv hline with ⟨hblank, rfl⟩ | ⟨e, hash, he, hprev, hhash, rfl⟩
    · rw [filterMap_cons_none
        (readLine_eq_none_of_blank (isAsciiWhitespace_of_strip hblank))]
      exact ih
    · rw [filterMap_cons_some he]
      exact ⟨hprev, _, hhash, ih⟩

theorem replay_nil (seed : Text) : readAndVerifyEntryChain env [] 0 seed = .ok ⟨seed, 0, 0⟩ := rfl

/-- **A replay goes on with one more line.** -/
theorem replay_append {scan : ChainScan} (h : readAndVerifyEntryChain env content 0 seed = .ok scan)
    (hcontent : Lines.Terminated 10 content) (hprev : e.previousEntryHash = scan.lastHash)
    (hhash : entryHash env e = some hash) :
    readAndVerifyEntryChain env (content ++ line env e) 0 seed =
      .ok ⟨hash, scan.entryCount + 1, (content ++ line env e).length⟩ := by
  unfold readAndVerifyEntryChain at h ⊢
  rw [drop_zero] at h ⊢
  rcases hfold : (Lines.rawLines 10 content).foldlM (replayLine env) ⟨⟨seed, 0, 0⟩, 0⟩ with
    err | s
  · rw [hfold] at h
    cases h
  rw [hfold] at h
  cases Except.ok.inj h
  have hconsumed := replayLines_consumed hfold
  rw [Lines.flatten_rawLines, Nat.zero_add] at hconsumed
  have hline : Lines.rawLines 10 (line env e) = [line env e] :=
    Lines.rawLines_line (env.json.toVec_newline e)
  rw [Lines.rawLines_append hcontent, foldlM_append, hfold, hline]
  show Except.map Replay.scan (replayLine env s (line env e) >>= pure) = _
  rw [replayLine_line hprev hhash, hconsumed, ← length_append]
  rfl

theorem replay_lines {es : List (AuditEntry K)} (h : Linked env seed es hash) :
    readAndVerifyEntryChain env (es.flatMap (line env)) 0 seed =
      .ok ⟨hash, es.length, (es.flatMap (line env)).length⟩ := by
  induction es using List.reverseRecOn generalizing hash with
  | nil =>
    cases h
    exact replay_nil seed
  | append_singleton es e ih =>
    obtain ⟨hes, he⟩ := HashChain.linked_snoc.1 h
    have hreplay := replay_append (ih hes) (Lines.terminated_flatMap env.json.toVec es) rfl he
    simpa using hreplay

end

end AgentWallet.AuditLog.Files
