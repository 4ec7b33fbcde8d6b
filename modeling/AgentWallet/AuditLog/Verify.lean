import AgentWallet.AuditLog.Files

/-!
# Verification of an audit log

`verify.rs`: `verify_log` walks the rotated files and then the active one, `verify_single_file`
checks one of them line by line, and `check_anchor_against_walk` compares a tip anchor with the
walk.

What an accepted file holds is read off by `verifyLines_inv`: the entries of its lines form a chain
from the hash the walk came with to the hash it leaves with.
-/

namespace AgentWallet.AuditLog.Verify

open Base Timestamps Entry Files List Base.Checks

/-! ## One file -/

structure VerifyWarning where
  previousTs : Text
  currentTs : Text
  driftMs : ℕ
  fileIndex : ℕ
  entryIndex : ℕ

def backwardTsWarnThresholdMs : ℕ := 60000

/-- `VerifySingleFileContext` -/
structure FileContext where
  name : Text
  hmacKey : Option Text
  expectedInitialPrevHash : Option Text
  nextFileBasename : Option Text
  isLastFile : Bool
  fileIndex : ℕ
  previousTimestamp : Option (Text × ℕ)

/-- The variables of the loop over the lines. -/
structure Walk where
  prevHash : Text
  entries : ℕ
  endOffset : ℕ
  isFirstEntry : Bool
  lastHandoffNextFile : Option Text
  previousTimestamp : Option (Text × ℕ)
  warnings : List VerifyWarning
  consumed : ℕ
  lineIndex : ℕ

section

variable {K D : Type} [DecidableEq D] (env : LogEnv K D)

def backwardJump (ctx : FileContext) (w : Walk) (ts : Text) (ms : ℕ) : List VerifyWarning :=
  match w.previousTimestamp with
  | some (previousTs, previousMs) =>
    if previousMs > ms ∧ previousMs - ms > backwardTsWarnThresholdMs then
      [⟨previousTs, ts, previousMs - ms, ctx.fileIndex, w.entries⟩]
    else []
  | none => []

/-- The tag of a sidecar: its text without the white space at both ends. -/
def readTag (node : Option FileNode) : Except VerifyError Text :=
  match openRegularFile node with
  | .error e => .error e
  | .ok content =>
    match Utf8.decode content with
    | none => .error .io
    | some s => .ok (Utf8.encode (Utf8.trim s))

/-- The chain-root tag of a file's first entry. -/
def checkChainRoot (dir : Directory) (ctx : FileContext) (body : Text) : Except VerifyError Unit :=
  match ctx.hmacKey with
  | none => .ok ()
  | some key =>
    if fileExists (dir.sidecars.lookup ctx.name) then
      match readTag (dir.sidecars.lookup ctx.name) with
      | .error e => .error e
      | .ok tag =>
        if verifyChainRoot env key body tag then .ok () else .error (.hmacMismatch ctx.name)
    else .error (.hmacSidecarMissing ctx.name)

/-- The first entry of a file is the one its tag is about. -/
def checkFirstEntry (dir : Directory) (ctx : FileContext) (w : Walk) (body : Text) :
    Except VerifyError Unit :=
  if w.isFirstEntry then checkChainRoot env dir ctx body else .ok ()

/-- The handoff an entry records, which the active file must not have. -/
def checkKind (ctx : FileContext) (line : ℕ) (e : AuditEntry K) (last : Option Text) :
    Except VerifyError (Option Text) :=
  match e.eventKind with
  | .auditRotationHandoff nextFileName =>
    if ctx.isLastFile then .error (.chainBroken line ctx.name .rotationHandoffInActiveFile)
    else .ok (some nextFileName)
  | .other _ => .ok last

/-- One entry of the walk: its time, its link, its handoff, and the hash for the next one. -/
def verifyEntry (dir : Directory) (ctx : FileContext) (w : Walk) (consumed line : ℕ)
    (e : AuditEntry K) : Except VerifyError Walk :=
  match parseAuditTimestampMs e.ts with
  | .error failure => .error (.parseError line (.timestamp failure))
  | .ok ms =>
    if e.previousEntryHash ≠ w.prevHash then
      .error (.chainBroken line ctx.name .previousEntryHashMismatch)
    else
      match computeEntryHash env (canonicalJsonBody env e) w.prevHash with
      | none => .error (.parseError line .hash)
      | some hash => do
        checkFirstEntry env dir ctx w (canonicalJsonBody env e)
        let lastHandoff ← checkKind ctx line e w.lastHandoffNextFile
        .ok { prevHash := hash
              entries := w.entries + 1
              endOffset := consumed
              isFirstEntry := false
              lastHandoffNextFile := lastHandoff
              previousTimestamp := some (e.ts, ms)
              warnings := w.warnings ++ backwardJump ctx w e.ts ms
              consumed := consumed
              lineIndex := line }

def verifyLine (dir : Directory) (ctx : FileContext) (w : Walk) (raw : Text) :
    Except VerifyError Walk :=
  let consumed := w.consumed + raw.length
  let line := w.lineIndex + 1
  match Utf8.decode (stripLineTerminator raw) with
  | none => .error (.parseError line .notUtf8)
  | some text =>
    if Utf8.isBlank text then .ok { w with consumed := consumed, lineIndex := line }
    else
      match readLine env raw with
      | none => .error (.parseError line .notAnEntry)
      | some e => verifyEntry env dir ctx w consumed line e

/-- The handoff of a rotated file names that file. -/
def checkHandoff (ctx : FileContext) (w : Walk) : Except VerifyError Unit :=
  match ctx.nextFileBasename with
  | none => .ok ()
  | some basename =>
    match w.lastHandoffNextFile with
    | some actual =>
      if actual = basename then .ok () else .error (.rotationGap (.handoffNames actual basename))
    | none => .error (.rotationGap (.noHandoff basename))

def initialWalk (ctx : FileContext) : Walk where
  prevHash := ctx.expectedInitialPrevHash.getD (zeroBlockHash env)
  entries := 0
  endOffset := 0
  isFirstEntry := true
  lastHandoffNextFile := none
  previousTimestamp := ctx.previousTimestamp
  warnings := []
  consumed := 0
  lineIndex := 0

def verifySingleFile (dir : Directory) (ctx : FileContext) : Except VerifyError Walk := do
  let content ← openRegularFile (dir.files.lookup ctx.name)
  let w ← (Lines.rawLines 10 content).foldlM (verifyLine env dir ctx) (initialWalk env ctx)
  checkHandoff ctx w
  .ok w

/-! ## The whole log -/

structure VerifiedTip where
  entryCount : ℕ
  tipHash : Text
  endOffset : ℕ

structure FileVerifyResult where
  name : Text
  entriesVerified : ℕ
  hmacVerified : Option Bool

/-- The variables of the loop over the files; `VerifyOk` is what they are at the end. -/
structure Progress where
  expectedPrevHash : Option Text
  previousTimestamp : Option (Text × ℕ)
  totalEntries : ℕ
  filesWalked : ℕ
  perFile : List FileVerifyResult
  warnings : List VerifyWarning
  activeTip : Option VerifiedTip

/-- The walk of one file, from where the loop stands. -/
def fileContext (hmacKey : Option Text) (p : Progress) (name : Text) (isLastFile : Bool) :
    FileContext where
  name := name
  hmacKey := hmacKey
  expectedInitialPrevHash := p.expectedPrevHash
  nextFileBasename := if isLastFile then none else some name
  isLastFile := isLastFile
  fileIndex := p.filesWalked
  previousTimestamp := p.previousTimestamp

def advance (hmacKey : Option Text) (p : Progress) (name : Text) (isLastFile : Bool) (w : Walk) :
    Progress where
  expectedPrevHash := some w.prevHash
  previousTimestamp := w.previousTimestamp
  totalEntries := p.totalEntries + w.entries
  filesWalked := p.filesWalked + 1
  perFile := p.perFile ++ [⟨name, w.entries, hmacKey.map fun _ => true⟩]
  warnings := p.warnings ++ w.warnings
  activeTip := if isLastFile then some ⟨w.entries, w.prevHash, w.endOffset⟩ else p.activeTip

def verifyFile (dir : Directory) (hmacKey : Option Text) (isLastFile : Bool) (p : Progress)
    (name : Text) : Except VerifyError Progress :=
  if fileExists (dir.files.lookup name) = false then
    if p.filesWalked = 0 then .error .logNotFound else .error (.rotationGap (.missing name))
  else do
    let w ← verifySingleFile env dir (fileContext hmacKey p name isLastFile)
    .ok (advance hmacKey p name isLastFile w)

def verifyFiles (dir : Directory) (hmacKey : Option Text) :
    Progress → List Text → Except VerifyError Progress
  | p, [] => .ok p
  | p, name :: rest => do
    let p ← verifyFile env dir hmacKey rest.isEmpty p name
    verifyFiles dir hmacKey p rest

structure VerifyOk where
  entriesVerified : ℕ
  filesWalked : ℕ
  perFile : List FileVerifyResult
  warnings : List VerifyWarning
  hmacVerified : Bool
  activeTip : Option VerifiedTip

def initialProgress : Progress := ⟨none, none, 0, 0, [], [], none⟩

def verifyLog (dir : Directory) (hmacKey : Option Text) : Except VerifyError VerifyOk := do
  let chain ← collectFileChain env dir
  let p ← verifyFiles env dir hmacKey initialProgress chain
  .ok ⟨p.totalEntries, p.filesWalked, p.perFile, p.warnings, hmacKey.isSome, p.activeTip⟩

/-! ## The anchor -/

/-- The anchor names the newest archive's handoff. -/
def anchorNamesTheRotationHandoff (dir : Directory) (anchor : TipAnchor) : Bool :=
  match initialChainSeed env dir with
  | .ok seed => decide (seed = anchor.tipHash)
  | .error _ => false

/-- The last entry before the anchored offset has the anchored hash. -/
def anchoredEntryIsIntact (dir : Directory) (anchor : TipAnchor) : Except VerifyError Bool := do
  let content ← openRegularFile (dir.files.lookup env.stem)
  match readLastLineBefore content anchor.endOffset with
  | none => .ok false
  | some l =>
    match env.json.fromSlice l with
    | none => .ok false
    | some e => .ok (decide (entryHash env e = some anchor.tipHash))

/-- The checks behind the two ways in which an anchor is current. -/
def checkAnchorBehind (dir : Directory) (anchor : TipAnchor) (tip : VerifiedTip) :
    Except VerifyError Unit :=
  let mismatch := VerifyError.tipAnchorMismatch anchor.entryCount anchor.endOffset tip.entryCount
    tip.endOffset
  if tip.endOffset < anchor.endOffset then
    .error (mismatch "the active file's verified prefix is shorter than the anchor")
  else do
    let intact ← anchoredEntryIsIntact env dir anchor
    if intact = false then
      .error (mismatch "the entry at the anchored offset is not the anchored entry")
    else if tip.endOffset = anchor.endOffset then
      .error (mismatch "the active file's tip is not the anchored tip")
    else .ok ()

def checkAnchorAgainstWalk (dir : Directory) (anchor : TipAnchor) (activeTip : Option VerifiedTip) :
    Except VerifyError Unit :=
  match activeTip with
  | none =>
    .error (.tipAnchorMismatch anchor.entryCount anchor.endOffset 0 0 "no active file was walked")
  | some tip =>
    if anchor.matchesTip tip.entryCount tip.tipHash tip.endOffset then .ok ()
    else if anchorNamesTheRotationHandoff env dir anchor then .ok ()
    else checkAnchorBehind env dir anchor tip

end

/-! ## What was accepted -/

section

variable {K D : Type} [DecidableEq D] {env : LogEnv K D} {dir : Directory} {ctx : FileContext}
  {w w' : Walk} {e : AuditEntry K} {raw : Text}

theorem verifyEntry_inv {consumed line : ℕ}
    (h : verifyEntry env dir ctx w consumed line e = .ok w') :
    e.previousEntryHash = w.prevHash ∧ entryHash env e = some w'.prevHash ∧
      (∃ ms, parseAuditTimestampMs e.ts = .ok ms) ∧ w'.entries = w.entries + 1 ∧
      w'.endOffset = consumed ∧ w'.consumed = consumed := by
  unfold verifyEntry at h
  split at h
  · cases h
  rename_i ms hms
  split_ifs at h with hprev
  have hprev : e.previousEntryHash = w.prevHash := not_not.1 hprev
  split at h
  · cases h
  rename_i hash hhash
  simp only [bind_eq_ok_iff] at h
  obtain ⟨-, -, lastHandoff, -, hw⟩ := h
  cases Except.ok.inj hw
  refine ⟨hprev, ?_, ⟨ms, hms⟩, rfl, rfl, rfl⟩
  unfold entryHash
  rw [hprev]
  exact hhash

theorem verifyLine_inv (h : verifyLine env dir ctx w raw = .ok w') :
    (∃ text, Utf8.decode (stripLineTerminator raw) = some text ∧ Utf8.isBlank text = true ∧
      w' = { w with consumed := w.consumed + raw.length, lineIndex := w.lineIndex + 1 }) ∨
    ∃ e, readLine env raw = some e ∧ e.previousEntryHash = w.prevHash ∧
      entryHash env e = some w'.prevHash ∧ (∃ ms, parseAuditTimestampMs e.ts = .ok ms) ∧
      w'.entries = w.entries + 1 ∧ w'.endOffset = w.consumed + raw.length ∧
      w'.consumed = w.consumed + raw.length := by
  unfold verifyLine at h
  split at h
  · cases h
  rename_i text htext
  split_ifs at h with hblank
  · cases Except.ok.inj h
    exact .inl ⟨text, htext, hblank, rfl⟩
  · split at h
    · cases h
    rename_i e he
    exact .inr ⟨e, he, verifyEntry_inv h⟩

variable {raws : List Text}

/-- **The lines of an accepted file.** -/
theorem verifyLines_inv (h : raws.foldlM (verifyLine env dir ctx) w = .ok w') :
    Linked env w.prevHash (raws.filterMap (readLine env)) w'.prevHash := by
  induction raws generalizing w with
  | nil =>
    cases Except.ok.inj h
    exact rfl
  | cons raw raws ih =>
    obtain ⟨w₁, hline, hrest⟩ := bind_eq_ok_iff.1 h
    have ih := ih hrest
    rcases verifyLine_inv hline with ⟨text, htext, hblank, rfl⟩ | ⟨e, he, hprev, hhash, -⟩
    · have hnone : readLine env raw = none := fromSlice_eq_none_of_isBlank htext hblank
      rw [filterMap_cons_none hnone]
      exact ih
    · rw [filterMap_cons_some he]
      exact ⟨hprev, _, hhash, ih⟩

theorem mem_of_verifyLines (h : raws.foldlM (verifyLine env dir ctx) w = .ok w') (hraw : raw ∈ raws) :
    ∃ w₁ w₂, verifyLine env dir ctx w₁ raw = .ok w₂ := by
  induction raws generalizing w with
  | nil => cases hraw
  | cons raw' raws ih =>
    obtain ⟨w₁, hline, hrest⟩ := bind_eq_ok_iff.1 h
    rcases mem_cons.1 hraw with rfl | hraw
    · exact ⟨w, w₁, hline⟩
    · exact ih hrest hraw

theorem openRegularFile_eq_ok {node : Option FileNode} {content : Text}
    (h : openRegularFile node = .ok content) : node = some (.regular content) := by
  unfold openRegularFile at h
  split at h
  · cases h
  · rw [Except.ok.inj h]
  · cases h

theorem verifySingleFile_inv (h : verifySingleFile env dir ctx = .ok w) :
    ∃ content, dir.files.lookup ctx.name = some (.regular content) ∧
      (Lines.rawLines 10 content).foldlM (verifyLine env dir ctx) (initialWalk env ctx) = .ok w ∧
      checkHandoff ctx w = .ok () := by
  unfold verifySingleFile at h
  simp only [bind_eq_ok_iff] at h
  obtain ⟨content, hopen, w', hlines, _, hhandoff, hw⟩ := h
  cases Except.ok.inj hw
  exact ⟨content, openRegularFile_eq_ok hopen, hlines, hhandoff⟩

def Progress.tip (env : LogEnv K D) (p : Progress) : Text :=
  p.expectedPrevHash.getD (zeroBlockHash env)

variable {hmacKey : Option Text} {isLast : Bool} {p p' : Progress} {name : Text}

section

variable (h : verifyFile env dir hmacKey isLast p name = .ok p')
include h

theorem verifyFile_inv : ∃ w, verifySingleFile env dir (fileContext hmacKey p name isLast) = .ok w ∧
      p' = advance hmacKey p name isLast w := by
  unfold verifyFile at h
  split_ifs at h
  obtain ⟨w, hw, hp⟩ := bind_eq_ok_iff.1 h
  exact ⟨w, hw, (Except.ok.inj hp).symm⟩

theorem verifyFile_linked : Linked env (p.tip env) (fileEntries env dir name) (p'.tip env) := by
  obtain ⟨w, hw, rfl⟩ := verifyFile_inv h
  obtain ⟨content, hcontent, hlines, -⟩ := verifySingleFile_inv hw
  have hentries : fileEntries env dir name = parsedEntries env content := fileEntries_eq hcontent
  rw [hentries]
  exact verifyLines_inv hlines

end

variable {names : List Text}

/-- **The files of an accepted log.** -/
theorem verifyFiles_linked (h : verifyFiles env dir hmacKey p names = .ok p') :
    Linked env (p.tip env) (names.flatMap (fileEntries env dir)) (p'.tip env) := by
  induction names generalizing p with
  | nil =>
    cases Except.ok.inj h
    exact rfl
  | cons name names ih =>
    obtain ⟨p₁, hfile, hrest⟩ := bind_eq_ok_iff.1 h
    exact HashChain.linked_append.2 ⟨_, verifyFile_linked hfile, ih hrest⟩

theorem verifyFiles_append {names' : List Text} (hne : names' ≠ []) :
    verifyFiles env dir hmacKey p (names ++ names') = .ok p' ↔
      ∃ p₁, names.foldlM (verifyFile env dir hmacKey false) p = .ok p₁ ∧
        verifyFiles env dir hmacKey p₁ names' = .ok p' := by
  induction names generalizing p with
  | nil =>
    constructor
    · exact fun h => ⟨p, rfl, h⟩
    · rintro ⟨p₁, hp, h⟩
      cases Except.ok.inj hp
      exact h
  | cons name names ih =>
    have hempty : (names ++ names').isEmpty = false := by simp [hne]
    rw [foldlM_cons]
    show (verifyFile env dir hmacKey (names ++ names').isEmpty p name >>= fun q =>
      verifyFiles env dir hmacKey q (names ++ names')) = .ok p' ↔ _
    rw [hempty]
    simp only [bind_eq_ok_iff, ih]
    constructor
    · rintro ⟨q, hq, p₁, hp₁, h⟩
      exact ⟨p₁, ⟨q, hq, hp₁⟩, h⟩
    · rintro ⟨p₁, ⟨q, hq, hp₁⟩, h⟩
      exact ⟨q, hq, p₁, hp₁, h⟩

/-- **An accepted log.** -/
theorem verifyLog_inv {ok : VerifyOk} (h : verifyLog env dir hmacKey = .ok ok) :
    ∃ p tip, (archives env dir).foldlM (verifyFile env dir hmacKey false) initialProgress = .ok p ∧
      (∃ w, verifySingleFile env dir (fileContext hmacKey p env.stem true) = .ok w ∧
        tip = ⟨w.entries, w.prevHash, w.endOffset⟩) ∧ ok.activeTip = some tip ∧
      Linked env (zeroBlockHash env) (logEntries env dir) tip.tipHash := by
  unfold verifyLog at h
  simp only [bind_eq_ok_iff] at h
  obtain ⟨chain, hchain, p', hfiles, hok⟩ := h
  unfold collectFileChain at hchain
  split_ifs at hchain
  cases Except.ok.inj hchain
  have hlinked := verifyFiles_linked hfiles
  obtain ⟨p, harchives, hactive⟩ := (verifyFiles_append (cons_ne_nil _ _)).1 hfiles
  obtain ⟨p₂, hfile, hnil⟩ := bind_eq_ok_iff.1 hactive
  cases Except.ok.inj hnil
  obtain ⟨w, hw, rfl⟩ := verifyFile_inv hfile
  cases Except.ok.inj hok
  exact ⟨p, _, harchives, ⟨w, hw, rfl⟩, rfl, hlinked⟩

end

end AgentWallet.AuditLog.Verify
