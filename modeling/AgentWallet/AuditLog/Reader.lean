import AgentWallet.AuditLog.Files
import AgentWallet.AuditLog.PlainLog

/-!
# What the audit log knows of a rule

`reader.rs`: the audit log is also the memory of the smart-account commands.
`find_latest_signer_set_view` reads the last recorded signer set of a rule from it and
`find_latest_context_rule_pinned_hashes` the last recorded verifier and policy pins.  Both scan the
files newest first, take the last matching row of a file and stop at the first file that has one.
-/

namespace AgentWallet.AuditLog.Reader

open Base List Base.Checks
open Base.Framing (bytes beBytes utf8)
open Timestamps Entry Files
open PlainLog (codedLog bareEntry)

/-! ## Signer sets and pins -/

inductive SignerPubkey where
  | ed25519 (pubkey : Text)
  | external (verifierContract : String) (keyDataFirst16 : Text)
  | webAuthn (credentialIdFirst16 : Text)
deriving Countable

structure ObservedSignerSet where
  signerCount : ℕ
  threshold : ℕ
  signerIds : List ℕ
  signerPubkeys : List SignerPubkey
deriving Countable

inductive SignerIdentityV2 where
  | ed25519 (pubkey : Text)
  | external (verifier keyDataSha256 : Text) (keyDataLen : ℕ)
  | delegatedContract (contract : Text)
deriving Countable

structure SignerEntryV2 where
  id : ℕ
  identity : SignerIdentityV2
deriving Countable

structure ThresholdObservation where
  policy : Text
  threshold : ℕ
deriving Countable

structure SignerSetSnapshotV2 where
  signers : List SignerEntryV2
  threshold : Option ThresholdObservation
deriving Countable

inductive SignerSetView where
  | v1 (state : ObservedSignerSet)
  | v2 (snapshot : SignerSetSnapshotV2)

structure ExecutableRefPin where
  ownerRedacted : String
  tag : String
  refKeyHex : String
  resolvedHashFirst8 : String
deriving Countable

structure PinnedHashesRecord where
  pinnedVerifierFirst8 : List String
  pinnedPolicyFirst8 : List String
  mutableOverride : Bool
  unknownOverride : Bool
  pinnedVerifierExecutableRefs : List (Option ExecutableRefPin)
  pinnedPolicyExecutableRefs : List (Option ExecutableRefPin)
deriving Countable

/-- The events that leave a signer set behind, in both versions. -/
inductive StateRow where
  | signerAdded
  | signerRemoved
  | thresholdChanged
  | signerSetBaselined
deriving Countable

inductive PinRow where
  | contextRuleCreated
  | contextRulePinsUpdated
deriving DecidableEq, Countable

/-- The event kinds the reader looks at, with the fields it reads. -/
inductive SaEvent (D : Type) where
  | signerSet (row : StateRow) (ruleId : ℕ) (smartAccountRedacted : String)
      (state : ObservedSignerSet)
  | signerSetV2 (row : StateRow) (ruleId : ℕ) (accountDigest : D) (smartAccountRedacted : String)
      (snapshot : SignerSetSnapshotV2)
  | pins (row : PinRow) (ruleId : ℕ) (smartAccount : String) (record : PinnedHashesRecord)
  | other (kind : String)
deriving Countable

/-! ## Errors -/

inductive Pinned where
  | verifier
  | policy
deriving DecidableEq

inductive ParseDetail where
  | notAnEntry
  | snapshot (reason : String)
  | hash
  | pinCount (row : PinRow) (kind : Pinned) (refs first8 : ℕ)
  | malformedPin (row : PinRow) (kind : Pinned) (position : ℕ)
  | pinMismatch (row : PinRow) (kind : Pinned) (position : ℕ)
deriving DecidableEq

/-- `AuditLogIntegrityError`, as far as the reader raises it. -/
inductive ReadError where
  | io
  | nonRegularFileLogPath
  | rotationGap (file : Text)
  | parseError (line : ℕ) (detail : ParseDetail)
  | hmacSidecarMissing (file : Text)
  | hmacMismatch (file : Text)
  | chainBroken (line : ℕ) (file : Text) (reason : String)
deriving DecidableEq

/-! ## Well-formed rows -/

def checkIds : List ℕ → Except String Unit
  | previous :: next :: ids =>
    if previous = next then .error "duplicate signer id"
    else if previous > next then .error "signer ids are not in ascending order"
    else checkIds (next :: ids)
  | _ => .ok ()

def SignerIdentityV2.hasEmptyKeyData : SignerIdentityV2 → Bool
  | .external _ _ keyDataLen => decide (keyDataLen = 0)
  | _ => false

def SignerSetSnapshotV2.validate (s : SignerSetSnapshotV2) : Except String Unit := do
  refuseIf (s.signers.length ≥ 2 ^ 32) "more than u32::MAX signer entries"
  checkIds (s.signers.map SignerEntryV2.id)
  refuseIf (s.signers.any fun entry => entry.identity.hasEmptyKeyData)
    "External signer with empty key data"

def untrustedDisplayMaxBytes : ℕ := 64

def unsupportedAddressPlaceholder : String := "<unsupported address>"

/-- `is_lower_hex` -/
def isLowerHex (s : String) (len : ℕ) : Bool :=
  decide (s.utf8ByteSize = len) &&
    s.toList.all fun c => (decide ('0' ≤ c) && decide (c ≤ '9')) ||
      (decide ('a' ≤ c) && decide (c ≤ 'f'))

def ExecutableRefPin.isWellFormed (pin : ExecutableRefPin) : Bool :=
  isLowerHex pin.refKeyHex 64 && isLowerHex pin.resolvedHashFirst8 16 &&
    decide (pin.tag.utf8ByteSize ≤ untrustedDisplayMaxBytes) &&
    decide (pin.ownerRedacted.utf8ByteSize ≤ unsupportedAddressPlaceholder.utf8ByteSize)

def checkPin (line : ℕ) (row : PinRow) (kind : Pinned) (first8 : List String) :
    Option ExecutableRefPin × ℕ → Except ReadError Unit
  | (none, _) => .ok ()
  | (some pin, position) => do
    refuseIf (pin.isWellFormed = false) (.parseError line (.malformedPin row kind position))
    refuseIf (first8[position]? ≠ some pin.resolvedHashFirst8)
      (.parseError line (.pinMismatch row kind position))

def checkPins (line : ℕ) (row : PinRow) (kind : Pinned) (first8 : List String)
    (refs : List (Option ExecutableRefPin)) : Except ReadError Unit := do
  refuseIf (refs ≠ [] ∧ refs.length ≠ first8.length)
    (.parseError line (.pinCount row kind refs.length first8.length))
  refs.zipIdx.forM (checkPin line row kind first8)

/-- `pinned_hashes_record_from_row` -/
def pinnedHashesRecordFromRow (line : ℕ) (row : PinRow) (record : PinnedHashesRecord) :
    Except ReadError PinnedHashesRecord := do
  checkPins line row .verifier record.pinnedVerifierFirst8 record.pinnedVerifierExecutableRefs
  checkPins line row .policy record.pinnedPolicyFirst8 record.pinnedPolicyExecutableRefs
  .ok record

/-! ## Scanning a file -/

/-- What a scan looks for: the lines it refuses whoever asks, and what it takes from a row. -/
structure Query (K D V : Type) where
  accepts : ℕ → EventKind K → Except ReadError Unit
  take : Text → ℕ → D → EventKind K → Except ReadError (Option V)

/-- The file that is scanned, and what its first row has to fit. -/
structure FileContext where
  name : Text
  hmacKey : Option Text
  expectedFirstRowPrev : Option Text

/-- Where the loop over the lines stands. -/
structure Cursor where
  isFirstEntry : Bool
  prevComputedHash : Option Text
  lineIndex : ℕ

structure Scan (V : Type) where
  cursor : Cursor
  best : Option V

def openRegularFile : Option FileNode → Except ReadError Text
  | none => .error .io
  | some (.regular content) => .ok content
  | some _ => .error .nonRegularFileLogPath

section

variable {K D V : Type} [DecidableEq D] (env : LogEnv K D) (dir : Directory)

/-- `std::fs::read_to_string`, without the white space at both ends. -/
def readTag (node : Option FileNode) : Except ReadError Text :=
  match openFile node with
  | .content content => okOr ((Utf8.decode content).map fun s => Utf8.encode (Utf8.trim s)) .io
  | _ => .error .io

/-- The chain-root tag of a file's first entry. -/
def checkChainRoot (ctx : FileContext) (body : Text) : Except ReadError Unit :=
  match ctx.hmacKey with
  | none => .ok ()
  | some key =>
    if fileExists (dir.sidecars.lookup ctx.name) then do
      let tag ← readTag (dir.sidecars.lookup ctx.name)
      refuseIf (verifyChainRoot env key body tag = false) (.hmacMismatch ctx.name)
    else .error (.hmacSidecarMissing ctx.name)

/-- A hash an entry has to name, if one is known. -/
def checkPrev (ctx : FileContext) (line : ℕ) (expected : Option Text) (reason : String)
    (e : AuditEntry K) : Except ReadError Unit :=
  refuseIf (∃ hash ∈ expected, e.previousEntryHash ≠ hash) (.chainBroken line ctx.name reason)

def checkFirstEntry (ctx : FileContext) (line : ℕ) (e : AuditEntry K) : Except ReadError Unit := do
  checkChainRoot env dir ctx (canonicalJsonBody env e)
  checkPrev ctx line ctx.expectedFirstRowPrev
    ("first row previous_entry_hash mismatch " ++
      "(expected ZERO_BLOCK_HASH for single-file chain)") e

/-- The checks that no query takes part in, and the hash of the row. -/
def checkRow (ctx : FileContext) (c : Cursor) (line : ℕ) (e : AuditEntry K) :
    Except ReadError Text := do
  if c.isFirstEntry then checkFirstEntry env dir ctx line e else .ok ()
  checkPrev ctx line c.prevComputedHash "previous_entry_hash mismatch" e
  okOr (entryHash env e) (.parseError line .hash)

def scanEntry (q : Query K D V) (ctx : FileContext) (s : Scan V) (line : ℕ) (e : AuditEntry K) :
    Except ReadError (Scan V) := do
  q.accepts line e.eventKind
  let hash ← checkRow env dir ctx s.cursor line e
  -- a matching row replaces any earlier one of the file
  let found ← q.take ctx.name line (env.hashes.sha256 (bytes (canonicalJsonBody env e))) e.eventKind
  .ok ⟨⟨false, some hash, line⟩, found.or s.best⟩

def scanLine (q : Query K D V) (ctx : FileContext) (s : Scan V) (raw : Text) :
    Except ReadError (Scan V) :=
  let line := s.cursor.lineIndex + 1
  match Utf8.decode (stripLineTerminator raw) with
  | none => .error .io
  | some text =>
    if Utf8.isBlank text then .ok { s with cursor := { s.cursor with lineIndex := line } }
    else
      match readLine env raw with
      | none => .error (.parseError line .notAnEntry)
      | some e => scanEntry env dir q ctx s line e

def initialScan : Scan V := ⟨⟨true, none, 0⟩, none⟩

def scanFile (q : Query K D V) (ctx : FileContext) : Except ReadError (Option V) := do
  let content ← openRegularFile (dir.files.lookup ctx.name)
  let s ← (Lines.rawLines 10 content).foldlM (scanLine env dir q ctx) initialScan
  .ok s.best

/-! ## Scanning the log -/

/-- The active file, then its rotated siblings from the newest to the oldest. -/
def collectFilesNewestFirst : List Text := env.stem :: (archives env dir).reverse

/-- Only the first row of a log without rotated files is known to name the genesis value. -/
def fileContext (hmacKey : Option Text) (hasRotatedSiblings : Bool) (name : Text) :
    FileContext where
  name := name
  hmacKey := hmacKey
  expectedFirstRowPrev :=
    if name = env.stem ∧ hasRotatedSiblings = false then some (zeroBlockHash env) else none

def scanFiles (q : Query K D V) (hmacKey : Option Text) (hasRotatedSiblings : Bool) :
    List Text → Except ReadError (Option V)
  | [] => .ok none
  | name :: names =>
    if fileExists (dir.files.lookup name) then do
      let found ← scanFile env dir q (fileContext env hmacKey hasRotatedSiblings name)
      if found.isSome then .ok found
      else scanFiles q hmacKey hasRotatedSiblings names
    else if name = env.stem ∧ hasRotatedSiblings = false then
      scanFiles q hmacKey hasRotatedSiblings names
    else .error (.rotationGap name)

def findLatest (q : Query K D V) (hmacKey : Option Text) : Except ReadError (Option V) :=
  scanFiles env dir q hmacKey (decide ((collectFilesNewestFirst env dir).length > 1))
    (collectFilesNewestFirst env dir)

/-- The checks that every query makes, and nothing else. -/
def chainQuery : Query K D Unit where
  accepts _ _ := .ok ()
  take _ _ _ _ := .ok none

end

/-! ## The two questions -/

structure SignerSetKey (D : Type) where
  ruleId : ℕ
  smartAccountRedacted : String
  accountDigest : D

/-- A signer set with the row it was read from. -/
structure SignerSetViewPayload (D : Type) where
  view : SignerSetView
  rowHash : D
  line : ℕ
  file : Text

section

variable {D : Type} [DecidableEq D]

def v2Snapshot : EventKind (SaEvent D) → Option SignerSetSnapshotV2
  | .other (.signerSetV2 _ _ _ _ snapshot) => some snapshot
  | _ => none

def extractSignerSetView (key : SignerSetKey D) : EventKind (SaEvent D) → Option SignerSetView
  | .other (.signerSet _ ruleId smartAccountRedacted state) =>
    if ruleId = key.ruleId ∧ smartAccountRedacted = key.smartAccountRedacted then some (.v1 state)
    else none
  | .other (.signerSetV2 _ ruleId accountDigest _ snapshot) =>
    if ruleId = key.ruleId ∧ accountDigest = key.accountDigest then some (.v2 snapshot) else none
  | _ => none

def validateSnapshot (line : ℕ) (kind : EventKind (SaEvent D)) : Except ReadError Unit :=
  match v2Snapshot kind with
  | none => .ok ()
  | some snapshot => snapshot.validate.mapError fun reason => .parseError line (.snapshot reason)

/-- `scan_file_for_signer_set` -/
def signerSetQuery (key : SignerSetKey D) : Query (SaEvent D) D (SignerSetViewPayload D) where
  accepts := validateSnapshot
  take file line rowHash kind :=
    .ok ((extractSignerSetView key kind).map fun view => ⟨view, rowHash, line, file⟩)

/-- The pins of a row of the rule and the account. -/
def matchingPins (ruleId : ℕ) (smartAccountRedacted : String) :
    EventKind (SaEvent D) → Option (PinRow × PinnedHashesRecord)
  | .other (.pins row rowRuleId smartAccount record) =>
    if rowRuleId = ruleId ∧ smartAccount = smartAccountRedacted then some (row, record) else none
  | _ => none

/-- `scan_file_for_context_rule_pins` -/
def contextRulePinsQuery (ruleId : ℕ) (smartAccountRedacted : String) :
    Query (SaEvent D) D PinnedHashesRecord where
  accepts _ _ := .ok ()
  take _ line _ kind :=
    match matchingPins ruleId smartAccountRedacted kind with
    | none => .ok none
    | some (row, record) => (pinnedHashesRecordFromRow line row record).map some

variable (env : LogEnv (SaEvent D) D) (hmacKey : Option Text) (dir : Directory)

def findLatestSignerSetView (ruleId : ℕ) (smartAccountRedacted : String) (accountDigest : D) :
    Except ReadError (Option (SignerSetViewPayload D)) :=
  findLatest env dir (signerSetQuery ⟨ruleId, smartAccountRedacted, accountDigest⟩) hmacKey

def findLatestContextRulePinnedHashes (ruleId : ℕ) (smartAccountRedacted : String) :
    Except ReadError (Option PinnedHashesRecord) :=
  findLatest env dir (contextRulePinsQuery ruleId smartAccountRedacted) hmacKey

end

/-! ## Accounts -/

structure Account where
  networkPassphrase : String
  smartAccount : String

def redactStrkeyFirst5Last5 (value : String) : String :=
  if value.toList.length > 10 then
    String.ofList (value.toList.take 5) ++ "..." ++
      String.ofList (value.toList.reverse.take 5).reverse
  else "G...?"

def domainSaAccountIdV1 : List UInt8 :=
  [0x85, 0xf7, 0xb5, 0xcc, 0x9f, 0x88, 0x08, 0x70, 0xa0, 0xb3, 0x97, 0x11, 0x03, 0x22, 0x87, 0x41]

section

variable {D : Type} [DecidableEq D] (env : LogEnv (SaEvent D) D)

/-- `account_digest`; the length of a passphrase saturates at `u32::MAX`. -/
def accountDigest (a : Account) : D :=
  env.hashes.sha256 (bytes (domainSaAccountIdV1 ++
    beBytes 4 (min (utf8 a.networkPassphrase).length (2 ^ 32 - 1)) ++
    utf8 a.networkPassphrase ++ utf8 a.smartAccount))

/-- The signer set the reader gives for a rule of an account. -/
def knownSignerSet (a : Account) (ruleId : ℕ) (hmacKey : Option Text) (dir : Directory) :
    Except ReadError (Option SignerSetView) :=
  (findLatestSignerSetView env hmacKey dir ruleId (redactStrkeyFirst5Last5 a.smartAccount)
    (accountDigest env a)).map (Option.map SignerSetViewPayload.view)

/-- The pins the reader gives for a rule of an account. -/
def knownPins (a : Account) (ruleId : ℕ) (hmacKey : Option Text) (dir : Directory) :
    Except ReadError (Option PinnedHashesRecord) :=
  findLatestContextRulePinnedHashes env hmacKey dir ruleId (redactStrkeyFirst5Last5 a.smartAccount)

/-! ## Independence -/

def writtenFor (b : Account) : SaEvent D → Bool
  | .signerSet _ _ smartAccountRedacted _ =>
    decide (smartAccountRedacted = redactStrkeyFirst5Last5 b.smartAccount)
  | .signerSetV2 _ _ digest smartAccountRedacted _ =>
    decide (digest = accountDigest env b) &&
      decide (smartAccountRedacted = redactStrkeyFirst5Last5 b.smartAccount)
  | .pins _ _ smartAccount _ => decide (smartAccount = redactStrkeyFirst5Last5 b.smartAccount)
  | .other _ => false

/-- The signer-set and pin rows that are not written for an account. -/
def keptRow (b : Account) : EventKind (SaEvent D) → Option (SaEvent D)
  | .other (.other _) => none
  | .other event => if writtenFor env b event then none else some event
  | .auditRotationHandoff _ => none

/-- What the log holds besides the rows of an account, in order. -/
def rowsExcept (b : Account) (dir : Directory) : List (SaEvent D) :=
  (logEntries env dir).filterMap fun e => keptRow env b e.eventKind

/-- A row the wallet writes: its snapshot and its pins fit their own rules. -/
def WellFormedRow (kind : EventKind (SaEvent D)) : Prop :=
  (∀ snapshot ∈ v2Snapshot kind, snapshot.validate = .ok ()) ∧
    ∀ row ruleId smartAccount record, kind = .other (.pins row ruleId smartAccount record) →
      ∀ line, pinnedHashesRecordFromRow line row record = .ok record

/-- Every file passes the checks of the reader, and every row is one the wallet writes. -/
structure Intact (hmacKey : Option Text) (dir : Directory) : Prop where
  files : findLatest env dir chainQuery hmacKey = .ok none
  rows : ∀ e ∈ logEntries env dir, WellFormedRow e.eventKind

/-- Logs that differ in the rows of `b` only, wherever they stand, give the same answer: whenever
both give one, and always if both are intact. -/
def Unaffected {W : Type} (b : Account)
    (answer : Option Text → Directory → Except ReadError (Option W)) : Prop :=
  ∀ hmacKey dir dir', rowsExcept env b dir = rowsExcept env b dir' →
    (∀ r r', answer hmacKey dir = .ok r → answer hmacKey dir' = .ok r' → r = r') ∧
    (Intact env hmacKey dir → Intact env hmacKey dir' → answer hmacKey dir = answer hmacKey dir')

/-- The rows of `b` change nothing of what is known about a rule of `a`. -/
def Independent (a b : Account) : Prop :=
  ∀ ruleId, Unaffected env b (knownSignerSet env a ruleId) ∧
    Unaffected env b (knownPins env a ruleId)

end

/-! ## What an answer is -/

section

variable {K D V W : Type} [DecidableEq D] {env : LogEnv K D} {dir : Directory} {q : Query K D V}
  {out : V → W} {answer : EventKind K → Option W}

/-- What a query takes from a row is known from the row's kind, as far as `out` tells. -/
def Reads (q : Query K D V) (out : V → W) (answer : EventKind K → Option W) : Prop :=
  ∀ file line rowHash kind found, q.take file line rowHash kind = .ok found →
    found.map out = answer kind

variable {ctx : FileContext} {s s' : Scan V}

theorem scanEntry_eq_ok_iff {line : ℕ} {e : AuditEntry K} :
    scanEntry env dir q ctx s line e = .ok s' ↔
      q.accepts line e.eventKind = .ok () ∧ ∃ hash, checkRow env dir ctx s.cursor line e = .ok hash ∧
        ∃ found, q.take ctx.name line (env.hashes.sha256 (bytes (canonicalJsonBody env e)))
            e.eventKind = .ok found ∧ ⟨⟨false, some hash, line⟩, found.or s.best⟩ = s' := by
  unfold scanEntry
  simp only [bind_eq_ok_iff, Except.ok.injEq]
  constructor
  · rintro ⟨⟨⟩, haccepts, hash, hrow, found, htake, hs⟩
    exact ⟨haccepts, hash, hrow, found, htake, hs⟩
  · rintro ⟨haccepts, hash, hrow, found, htake, hs⟩
    exact ⟨(), haccepts, hash, hrow, found, htake, hs⟩

theorem scanLine_best (hreads : Reads q out answer) {raw : Text}
    (h : scanLine env dir q ctx s raw = .ok s') : s'.best.map out =
      ((readLine env raw).bind fun e => answer e.eventKind).or (s.best.map out) := by
  unfold scanLine at h
  split at h
  · cases h
  rename_i text htext
  split_ifs at h with hblank
  · obtain rfl := Except.ok.inj h
    have hnone : readLine env raw = none := fromSlice_eq_none_of_isBlank htext hblank
    rw [hnone]
    rfl
  · split at h
    · cases h
    rename_i e he
    obtain ⟨-, hash, -, found, htake, rfl⟩ := scanEntry_eq_ok_iff.1 h
    rw [he, Option.bind_some, ← hreads _ _ _ _ _ htake]
    cases found <;> rfl

/-- The last of the answers that the rows give. -/
def lastAnswer (answer : EventKind K → Option W) (entries : List (AuditEntry K)) : Option W :=
  (entries.filterMap fun e => answer e.eventKind).getLast?

theorem lastAnswer_append (older newer : List (AuditEntry K)) : lastAnswer answer (older ++ newer) =
      (lastAnswer answer newer).or (lastAnswer answer older) := by
  unfold lastAnswer
  rw [filterMap_append, List.getLast?_append]

omit [DecidableEq D] in
theorem filterMap_readLine_cons (raw : Text) (raws : List Text) :
    (raw :: raws).filterMap (readLine env) =
      (readLine env raw).toList ++ raws.filterMap (readLine env) := by
  cases hread : readLine env raw with
  | none => rw [filterMap_cons_none hread]; rfl
  | some e => rw [filterMap_cons_some hread]; rfl

theorem scanLines_best (hreads : Reads q out answer) {raws : List Text}
    (h : raws.foldlM (scanLine env dir q ctx) s = .ok s') : s'.best.map out =
      (lastAnswer answer (raws.filterMap (readLine env))).or (s.best.map out) := by
  induction raws generalizing s with
  | nil =>
    obtain rfl := Except.ok.inj h
    rfl
  | cons raw raws ih =>
    obtain ⟨s₁, hline, hrest⟩ := bind_eq_ok_iff.1 h
    have hfirst : lastAnswer answer (readLine env raw).toList =
        (readLine env raw).bind fun e => answer e.eventKind := by
      cases readLine env raw with
      | none => rfl
      | some e =>
        unfold lastAnswer
        cases hanswer : answer e.eventKind <;> simp [hanswer]
    rw [ih hrest, scanLine_best hreads hline, filterMap_readLine_cons, lastAnswer_append, hfirst,
      Option.or_assoc]

theorem openRegularFile_eq_ok {node : Option FileNode} {content : Text}
    (h : openRegularFile node = .ok content) : node = some (.regular content) := by
  unfold openRegularFile at h
  split at h
  · cases h
  · rw [Except.ok.inj h]
  · cases h

variable {found : Option V}

theorem scanFile_eq (hreads : Reads q out answer) (h : scanFile env dir q ctx = .ok found) :
    found.map out = lastAnswer answer (fileEntries env dir ctx.name) := by
  obtain ⟨content, hopen, h⟩ := bind_eq_ok_iff.1 h
  obtain ⟨s, hlines, h⟩ := bind_eq_ok_iff.1 h
  obtain rfl := Except.ok.inj h
  have hfile := openRegularFile_eq_ok hopen
  rw [scanLines_best hreads hlines, fileEntries_eq hfile]
  exact Option.or_none

omit [DecidableEq D] in
theorem fileEntries_of_not_exists {name : Text} (h : fileExists (dir.files.lookup name) = false) :
    fileEntries env dir name = [] := by
  unfold fileEntries
  split
  · rename_i hlookup
    rw [hlookup] at h
    cases h
  · rfl

variable {hmacKey : Option Text}

theorem scanFiles_eq (hreads : Reads q out answer) {hasRotatedSiblings : Bool} {names : List Text}
    (h : scanFiles env dir q hmacKey hasRotatedSiblings names = .ok found) :
    found.map out = lastAnswer answer (names.reverse.flatMap (fileEntries env dir)) := by
  induction names generalizing found with
  | nil =>
    obtain rfl := Except.ok.inj h
    rfl
  | cons name names ih =>
    have hentries : (name :: names).reverse.flatMap (fileEntries env dir) =
        names.reverse.flatMap (fileEntries env dir) ++ fileEntries env dir name := by
      simp
    rw [hentries, lastAnswer_append]
    unfold scanFiles at h
    split_ifs at h with hexists hactive
    · obtain ⟨here, hfile, h⟩ := bind_eq_ok_iff.1 h
      have hhere : here.map out = lastAnswer answer (fileEntries env dir name) :=
        scanFile_eq hreads hfile
      rw [← hhere]
      split_ifs at h with hsome
      · obtain rfl := Except.ok.inj h
        obtain ⟨v, rfl⟩ := Option.isSome_iff_exists.1 hsome
        rfl
      · rw [Option.not_isSome_iff_eq_none.1 hsome, ih h]
        rfl
    · rw [fileEntries_of_not_exists (Bool.eq_false_of_not_eq_true hexists), ih h]
      rfl

/-- **An answer is the last one of the whole log.** -/
theorem findLatest_eq (hreads : Reads q out answer) (h : findLatest env dir q hmacKey = .ok found) :
    found.map out = lastAnswer answer (logEntries env dir) := by
  rw [scanFiles_eq hreads h]
  unfold collectFilesNewestFirst logEntries
  rw [reverse_cons, reverse_reverse]

end

/-! ## Rows that hang together pass the checks -/

section

variable {K D : Type} [DecidableEq D] {env : LogEnv K D} {dir : Directory}
  {ctx : FileContext} {c : Cursor} {h : Text}

section

variable (hkey : ctx.hmacKey = none)
  (hfirst : c.isFirstEntry = true → ∀ x ∈ ctx.expectedFirstRowPrev, x = h)
  (hprev : ∀ x ∈ c.prevComputedHash, x = h)
include hkey hfirst hprev

theorem checkRow_of_linked {line : ℕ} {e : AuditEntry K} {hash : Text}
    (he : e.previousEntryHash = h) (hhash : entryHash env e = some hash) :
    checkRow env dir ctx c line e = .ok hash := by
  have hcheck : ∀ expected : Option Text, (∀ x ∈ expected, x = h) → ∀ reason,
      checkPrev ctx line expected reason e = .ok () := by
    intro expected hexpected reason
    unfold checkPrev refuseIf
    rw [if_neg]
    rintro ⟨x, hx, hne⟩
    exact hne (he.trans (hexpected x hx).symm)
  have hentry : c.isFirstEntry = true → checkFirstEntry env dir ctx line e = .ok () := by
    intro hc
    unfold checkFirstEntry checkChainRoot
    rw [hkey, hcheck _ (hfirst hc)]
    rfl
  unfold checkRow
  rw [hcheck _ hprev, hhash]
  split_ifs with hc
  · rw [hentry hc]
    rfl
  · rfl

theorem scanLines_of_linked {rows : List (AuditEntry K)} {h' : Text}
    (hrows : Linked env h rows h') :
    ∃ c', (rows.map (line env)).foldlM (scanLine env dir chainQuery ctx) ⟨c, none⟩ =
      .ok ⟨c', none⟩ := by
  induction rows generalizing c h with
  | nil => exact ⟨c, rfl⟩
  | cons e rows ih =>
    obtain ⟨he, hash, hhash, hrows⟩ := hrows
    obtain ⟨text, htext⟩ := Option.isSome_iff_exists.1 (env.json.toVec_utf8 e)
    have hblank : Utf8.isBlank text ≠ true := by
      intro hblank
      have hnone : env.json.fromSlice _ = none := fromSlice_eq_none_of_isBlank htext hblank
      rw [env.json.fromSlice_toVec] at hnone
      cases hnone
    have hrow : checkRow env dir ctx c (c.lineIndex + 1) e = .ok hash :=
      checkRow_of_linked hkey hfirst hprev he hhash
    have hline : scanLine env dir chainQuery ctx ⟨c, none⟩ (line env e) =
        .ok ⟨⟨false, some hash, c.lineIndex + 1⟩, none⟩ := by
      unfold scanLine
      rw [stripLineTerminator_line, htext, readLine_line]
      simp only [if_neg hblank]
      exact scanEntry_eq_ok_iff.2 ⟨rfl, hash, hrow, none, rfl, rfl⟩
    obtain ⟨c', hrest⟩ := ih (c := ⟨false, some hash, c.lineIndex + 1⟩)
      (fun hfalse => by cases hfalse) (fun x hx => (Option.some.inj hx).symm) hrows
    refine ⟨c', ?_⟩
    rw [map_cons, foldlM_cons, hline]
    exact hrest

end

/-- The file holds rows that hang together, from a hash its first row may name. -/
def HoldsChain (env : LogEnv K D) (dir : Directory) (hasRotatedSiblings : Bool)
    (name : Text) : Prop :=
  ∃ h rows h', dir.files.lookup name = some (.regular (rows.flatMap (line env))) ∧
    Linked env h rows h' ∧
    ∀ x ∈ (fileContext env none hasRotatedSiblings name).expectedFirstRowPrev, x = h

theorem scanFiles_of_holdsChain {hasRotatedSiblings : Bool} {names : List Text}
    (h : ∀ name ∈ names, HoldsChain env dir hasRotatedSiblings name) :
    scanFiles env dir chainQuery none hasRotatedSiblings names = .ok none := by
  induction names with
  | nil => rfl
  | cons name names ih =>
    obtain ⟨hash, rows, hash', hfile, hrows, hfirst⟩ := h name mem_cons_self
    have hscan : scanFile env dir chainQuery (fileContext env none hasRotatedSiblings name) =
        .ok none := by
      have hscanned : ∃ c', (rows.map (line env)).foldlM (scanLine env dir chainQuery
          (fileContext env none hasRotatedSiblings name)) ⟨⟨true, none, 0⟩, none⟩ =
          .ok ⟨c', none⟩ :=
        scanLines_of_linked rfl (fun _ => hfirst) (fun x hx => by cases hx) hrows
      obtain ⟨c', hlines⟩ := hscanned
      rw [← rawLines_lines] at hlines
      refine bind_eq_ok_iff.2 ⟨rows.flatMap (line env), ?_, bind_eq_ok_iff.2 ⟨_, hlines, rfl⟩⟩
      rw [show (fileContext env none hasRotatedSiblings name).name = name from rfl, hfile]
      rfl
    unfold scanFiles
    rw [hfile]
    simp only [hscan, bind, Except.bind, Option.isSome_none, Bool.false_eq_true]
    exact ih fun name' hname' => h name' (mem_cons_of_mem name hname')

end

/-! ## An intact log gives an answer -/

section

variable {D V : Type} [DecidableEq D] {env : LogEnv (SaEvent D) D} {dir : Directory}
  {q : Query (SaEvent D) D V}

/-- A query that no row of the wallet makes fail. -/
structure Answers (q : Query (SaEvent D) D V) : Prop where
  accepts : ∀ line kind, WellFormedRow kind → q.accepts line kind = .ok ()
  take : ∀ file line rowHash kind, WellFormedRow kind →
    ∃ found, q.take file line rowHash kind = .ok found

variable {ctx : FileContext} {s s' : Scan Unit} {t : Scan V}

section

variable (hq : Answers q)
include hq

theorem scanLine_of_chain {raw : Text} (h : scanLine env dir chainQuery ctx s raw = .ok s')
    (hcursor : t.cursor = s.cursor)
    (hrow : ∀ e, readLine env raw = some e → WellFormedRow e.eventKind) :
    ∃ t', scanLine env dir q ctx t raw = .ok t' ∧ t'.cursor = s'.cursor := by
  unfold scanLine at h ⊢
  rw [hcursor]
  rcases htext : Utf8.decode (stripLineTerminator raw) with - | text
  · rw [htext] at h
    cases h
  simp only [htext] at h ⊢
  split_ifs at h ⊢ with hblank
  · obtain rfl := Except.ok.inj h
    exact ⟨_, rfl, rfl⟩
  · rcases he : readLine env raw with - | e
    · rw [he] at h
      cases h
    simp only [he] at h ⊢
    obtain ⟨-, hash, hcheck, -, -, rfl⟩ := scanEntry_eq_ok_iff.1 h
    obtain ⟨found, htake⟩ := hq.take ctx.name (s.cursor.lineIndex + 1)
      (env.hashes.sha256 (bytes (canonicalJsonBody env e))) e.eventKind (hrow e he)
    refine ⟨⟨⟨false, some hash, s.cursor.lineIndex + 1⟩, found.or t.best⟩, ?_, rfl⟩
    exact scanEntry_eq_ok_iff.2
      ⟨hq.accepts _ _ (hrow e he), hash, by rw [hcursor]; exact hcheck, found, htake, rfl⟩

theorem scanLines_of_chain {raws : List Text}
    (h : raws.foldlM (scanLine env dir chainQuery ctx) s = .ok s')
    (hcursor : t.cursor = s.cursor)
    (hrows : ∀ e ∈ raws.filterMap (readLine env), WellFormedRow e.eventKind) :
    ∃ t', raws.foldlM (scanLine env dir q ctx) t = .ok t' := by
  induction raws generalizing s t with
  | nil => exact ⟨t, rfl⟩
  | cons raw raws ih =>
    obtain ⟨s₁, hline, hrest⟩ := bind_eq_ok_iff.1 h
    obtain ⟨t₁, hline', hcursor'⟩ := scanLine_of_chain hq hline hcursor fun e he =>
      hrows e (mem_filterMap.2 ⟨raw, mem_cons_self, he⟩)
    obtain ⟨t', hrest'⟩ := ih hrest hcursor' fun e he => by
      obtain ⟨raw', hraw', he⟩ := mem_filterMap.1 he
      exact hrows e (mem_filterMap.2 ⟨raw', mem_cons_of_mem raw hraw', he⟩)
    refine ⟨t', ?_⟩
    exact bind_eq_ok_iff.2 ⟨t₁, hline', hrest'⟩

theorem scanFile_of_chain {u : Option Unit} (h : scanFile env dir chainQuery ctx = .ok u)
    (hrows : ∀ e ∈ fileEntries env dir ctx.name, WellFormedRow e.eventKind) :
    ∃ found, scanFile env dir q ctx = .ok found := by
  obtain ⟨content, hopen, h⟩ := bind_eq_ok_iff.1 h
  obtain ⟨s, hlines, -⟩ := bind_eq_ok_iff.1 h
  have hfile := openRegularFile_eq_ok hopen
  rw [fileEntries_eq hfile] at hrows
  obtain ⟨t, ht⟩ := scanLines_of_chain (t := initialScan) hq hlines rfl hrows
  refine ⟨t.best, ?_⟩
  exact bind_eq_ok_iff.2 ⟨content, hopen, bind_eq_ok_iff.2 ⟨t, ht, rfl⟩⟩

theorem scanFiles_of_chain {hmacKey : Option Text} {hasRotatedSiblings : Bool}
    {names : List Text}
    (h : scanFiles env dir chainQuery hmacKey hasRotatedSiblings names = .ok none)
    (hrows : ∀ name ∈ names, ∀ e ∈ fileEntries env dir name, WellFormedRow e.eventKind) :
    ∃ found, scanFiles env dir q hmacKey hasRotatedSiblings names = .ok found := by
  induction names with
  | nil => exact ⟨none, rfl⟩
  | cons name names ih =>
    have hrest := fun h => ih h fun name' hname' => hrows name' (mem_cons_of_mem name hname')
    unfold scanFiles at h ⊢
    split_ifs at h ⊢ with hexists hactive
    · obtain ⟨u, hfile, h⟩ := bind_eq_ok_iff.1 h
      obtain ⟨here, hhere⟩ := scanFile_of_chain hq hfile (hrows name mem_cons_self)
      simp only [hhere, bind, Except.bind]
      split_ifs with hsome
      · exact ⟨here, rfl⟩
      · split_ifs at h with hu
        · rw [Except.ok.inj h] at hu
          cases hu
        · exact hrest h
    · exact hrest h

/-- **An intact log gives an answer.** -/
theorem findLatest_of_intact {hmacKey : Option Text} (h : Intact env hmacKey dir) :
    ∃ found, findLatest env dir q hmacKey = .ok found := by
  refine scanFiles_of_chain hq h.files fun name hname e he => h.rows e ?_
  unfold collectFilesNewestFirst at hname
  rw [mem_cons, mem_reverse] at hname
  refine mem_flatMap.2 ⟨name, ?_, he⟩
  rw [mem_append, mem_singleton]
  exact hname.symm

end

end

/-! ## The two questions, read and answered -/

section

variable {D : Type} [DecidableEq D] {env : LogEnv (SaEvent D) D} {a b : Account} {dir : Directory}

theorem reads_signerSetQuery (key : SignerSetKey D) :
    Reads (signerSetQuery key) SignerSetViewPayload.view (extractSignerSetView key) := by
  rintro file line rowHash kind found h
  obtain rfl := Except.ok.inj h
  rw [Option.map_map]
  exact Option.map_id'

variable {row : PinRow} {record : PinnedHashesRecord}

theorem pinnedHashesRecordFromRow_eq_ok {line : ℕ} {record' : PinnedHashesRecord}
    (h : pinnedHashesRecordFromRow line row record = .ok record') : record = record' := by
  obtain ⟨-, -, h⟩ := bind_eq_ok_iff.1 h
  obtain ⟨-, -, h⟩ := bind_eq_ok_iff.1 h
  exact Except.ok.inj h

theorem map_eq_ok_iff {ε α β : Type} {x : Except ε α} {f : α → β} {r : β} :
    x.map f = .ok r ↔ ∃ v, x = .ok v ∧ f v = r := by
  cases x with
  | error e => simp [Except.map]
  | ok v => simp [Except.map]

omit [DecidableEq D] in
theorem reads_contextRulePinsQuery (ruleId : ℕ) (smartAccountRedacted : String) :
    Reads (contextRulePinsQuery (D := D) ruleId smartAccountRedacted) id
      fun kind => (matchingPins ruleId smartAccountRedacted kind).map Prod.snd := by
  rintro file line rowHash kind found h
  unfold contextRulePinsQuery at h
  dsimp only at h ⊢
  rcases hmatch : matchingPins ruleId smartAccountRedacted kind with - | ⟨row, record⟩
  · rw [hmatch] at h
    obtain rfl := Except.ok.inj h
    rfl
  · simp only [hmatch] at h
    obtain ⟨record', hrecord, rfl⟩ := map_eq_ok_iff.1 h
    rw [pinnedHashesRecordFromRow_eq_ok hrecord]
    rfl

theorem answers_signerSetQuery (key : SignerSetKey D) : Answers (signerSetQuery key) where
  accepts line kind h := by
    change validateSnapshot line kind = .ok ()
    unfold validateSnapshot
    rcases hsnapshot : v2Snapshot kind with - | snapshot
    · rfl
    · simp only [h.1 snapshot hsnapshot]
      rfl
  take _ _ _ _ _ := ⟨_, rfl⟩

variable {kind : EventKind (SaEvent D)}

omit [DecidableEq D] in
theorem matchingPins_eq_some {ruleId : ℕ} {smartAccountRedacted : String}
    (h : matchingPins ruleId smartAccountRedacted kind = some (row, record)) :
    kind = .other (.pins row ruleId smartAccountRedacted record) := by
  unfold matchingPins at h
  split at h
  · split_ifs at h with hkey
    obtain ⟨rfl, rfl⟩ := Prod.mk.inj (Option.some.inj h)
    rw [hkey.1, hkey.2]
  · cases h

omit [DecidableEq D] in
theorem answers_contextRulePinsQuery (ruleId : ℕ) (smartAccountRedacted : String) :
    Answers (contextRulePinsQuery (D := D) ruleId smartAccountRedacted) where
  accepts _ _ _ := rfl
  take file line rowHash kind h := by
    unfold contextRulePinsQuery
    dsimp only
    rcases hmatch : matchingPins ruleId smartAccountRedacted kind with - | ⟨row, record⟩
    · exact ⟨none, rfl⟩
    · refine ⟨some record, ?_⟩
      simp only [h.2 row ruleId smartAccountRedacted record (matchingPins_eq_some hmatch) line]
      rfl

/-! ## Rows that change nothing -/

theorem eq_of_keptRow {event : SaEvent D} (h : keptRow env b kind = some event) :
    kind = .other event := by
  unfold keptRow at h
  split at h
  · cases h
  · split_ifs at h
    rw [Option.some.inj h]
  · cases h

/-- An answer that the rows of `b` do not take part in is known from the other rows. -/
theorem lastAnswer_logEntries {W : Type} {answer : EventKind (SaEvent D) → Option W}
    (hignores : ∀ kind, keptRow env b kind = none → answer kind = none) :
    lastAnswer answer (logEntries env dir) =
      ((rowsExcept env b dir).filterMap fun event => answer (.other event)).getLast? := by
  unfold lastAnswer rowsExcept
  rw [filterMap_filterMap]
  congr 1
  refine filterMap_congr fun e _ => ?_
  rcases hkept : keptRow env b e.eventKind with - | event
  · exact hignores _ hkept
  · rw [eq_of_keptRow hkept]
    rfl

/-- **A question that passes over the rows of `b` is answered without them.** -/
theorem unaffected_of_ignores {V W : Type} {q : Query (SaEvent D) D V} {out : V → W}
    {answer : EventKind (SaEvent D) → Option W} (hreads : Reads q out answer) (hq : Answers q)
    (hignores : ∀ kind, keptRow env b kind = none → answer kind = none) :
    Unaffected env b fun hmacKey dir => (findLatest env dir q hmacKey).map (Option.map out) := by
  intro hmacKey dir dir' hrows
  have hsame : ∀ v v', findLatest env dir q hmacKey = .ok v →
      findLatest env dir' q hmacKey = .ok v' → v.map out = v'.map out := by
    intro v v' hv hv'
    rw [findLatest_eq hreads hv, findLatest_eq hreads hv', lastAnswer_logEntries hignores,
      lastAnswer_logEntries hignores, hrows]
  constructor
  · intro r r' h h'
    obtain ⟨v, hv, rfl⟩ := map_eq_ok_iff.1 h
    obtain ⟨v', hv', rfl⟩ := map_eq_ok_iff.1 h'
    exact hsame v v' hv hv'
  · intro hintact hintact'
    obtain ⟨v, hv⟩ := findLatest_of_intact hq hintact
    obtain ⟨v', hv'⟩ := findLatest_of_intact hq hintact'
    dsimp only
    rw [hv, hv']
    exact congrArg Except.ok (hsame v v' hv hv')

theorem knownPins_eq (ruleId : ℕ) : knownPins env a ruleId = fun hmacKey dir =>
      (findLatest env dir (contextRulePinsQuery ruleId (redactStrkeyFirst5Last5 a.smartAccount))
        hmacKey).map (Option.map id) := by
  funext hmacKey dir
  unfold knownPins findLatestContextRulePinnedHashes
  cases findLatest env dir (contextRulePinsQuery ruleId (redactStrkeyFirst5Last5 a.smartAccount))
    hmacKey with
  | error e => rfl
  | ok v => exact congrArg Except.ok Option.map_id'.symm

/-- A row that is not kept was written for `b`, or says nothing of signers and pins. -/
theorem keptRow_eq_none_iff : keptRow env b kind = none ↔ ∀ event, kind = .other event →
        writtenFor env b event = true ∨ ∃ name, event = .other name := by
  cases kind with
  | auditRotationHandoff name => simp [keptRow]
  | other event => cases event <;> simp [keptRow]

theorem independent_of_ne
    (hredacted : redactStrkeyFirst5Last5 a.smartAccount ≠ redactStrkeyFirst5Last5 b.smartAccount)
    (hdigest : accountDigest env a ≠ accountDigest env b) : Independent env a b := by
  intro ruleId
  constructor
  · refine unaffected_of_ignores (reads_signerSetQuery _) (answers_signerSetQuery _) ?_
    intro kind hkind
    cases kind with
    | auditRotationHandoff name => rfl
    | other event =>
      rcases keptRow_eq_none_iff.1 hkind event rfl with hwritten | ⟨name, rfl⟩
      · cases event with
        | signerSet row rowRuleId redacted state =>
          rw [of_decide_eq_true hwritten]
          exact if_neg fun h => hredacted h.2.symm
        | signerSetV2 row rowRuleId digest redacted snapshot =>
          unfold writtenFor at hwritten
          rw [Bool.and_eq_true, decide_eq_true_eq] at hwritten
          rw [hwritten.1]
          exact if_neg fun h => hdigest h.2.symm
        | pins row rowRuleId smartAccount record => rfl
        | other name => rfl
      · rfl
  · rw [knownPins_eq]
    refine unaffected_of_ignores (reads_contextRulePinsQuery _ _)
      (answers_contextRulePinsQuery _ _) ?_
    intro kind hkind
    cases kind with
    | auditRotationHandoff name => rfl
    | other event =>
      rcases keptRow_eq_none_iff.1 hkind event rfl with hwritten | ⟨name, rfl⟩
      · cases event with
        | signerSet row rowRuleId redacted state => rfl
        | signerSetV2 row rowRuleId digest redacted snapshot => rfl
        | pins row rowRuleId smartAccount record =>
          rw [of_decide_eq_true hwritten]
          exact congrArg (Option.map Prod.snd) (if_neg fun h => hredacted h.2.symm)
        | other name => rfl
      · rfl

/-! ## Rows that change the answer -/

/-- A log of one file without a chain-root tag. -/
def soleFile (env : LogEnv (SaEvent D) D) (rows : List (AuditEntry (SaEvent D))) : Directory :=
  ⟨(∅ : AList fun _ : Text => FileNode).insert env.stem (.regular (rows.flatMap (line env))), ∅⟩

variable {rows : List (AuditEntry (SaEvent D))}

omit [DecidableEq D] in
theorem archives_soleFile : archives env (soleFile env rows) = [] := archives_insert_stem _ _

omit [DecidableEq D] in
theorem logEntries_soleFile : logEntries env (soleFile env rows) = rows := by
  unfold logEntries
  rw [archives_soleFile, nil_append, flatMap_singleton, fileEntries_eq (AList.lookup_insert _)]
  exact parsedEntries_lines rows

theorem intact_soleFile {h : Text} (hlinked : Linked env (zeroBlockHash env) rows h)
    (hrows : ∀ e ∈ rows, WellFormedRow e.eventKind) : Intact env none (soleFile env rows) where
  files := by
    unfold findLatest collectFilesNewestFirst
    rw [archives_soleFile]
    refine scanFiles_of_holdsChain fun name hname => ?_
    obtain rfl := mem_singleton.1 hname
    refine ⟨_, rows, h, AList.lookup_insert _, hlinked, fun x hx => ?_⟩
    simpa [fileContext, eq_comm] using hx
  rows e he := by
    rw [logEntries_soleFile] at he
    exact hrows e he

theorem knownSignerSet_of_intact {ruleId : ℕ} (h : Intact env none dir) :
    knownSignerSet env a ruleId none dir = .ok (lastAnswer (extractSignerSetView
      ⟨ruleId, redactStrkeyFirst5Last5 a.smartAccount, accountDigest env a⟩)
        (logEntries env dir)) := by
  obtain ⟨found, hfound⟩ := findLatest_of_intact (answers_signerSetQuery
    ⟨ruleId, redactStrkeyFirst5Last5 a.smartAccount, accountDigest env a⟩) h
  rw [← findLatest_eq (reads_signerSetQuery _) hfound]
  unfold knownSignerSet findLatestSignerSetView
  rw [hfound]
  rfl

/-- A row of `b` that answers a question about `a`: the empty log has no answer. -/
theorem not_independent_of_row (event : SaEvent D) (hwritten : writtenFor env b event = true)
    (hwell : WellFormedRow (.other event)) (ruleId : ℕ) (view : SignerSetView)
    (hview : extractSignerSetView
      ⟨ruleId, redactStrkeyFirst5Last5 a.smartAccount, accountDigest env a⟩ (.other event) =
      some view) : ¬ Independent env a b := by
  intro h
  have hkept : keptRow env b (.other event) = none :=
    keptRow_eq_none_iff.2 fun event' heq => .inl (by cases heq; exact hwritten)
  have hempty : Intact env none (soleFile env []) :=
    intact_soleFile (h := zeroBlockHash env) rfl fun e he => absurd he not_mem_nil
  have hone : Intact env none (soleFile env [bareEntry (.other event) (zeroBlockHash env)]) :=
    intact_soleFile ⟨rfl, _, computeEntryHash_eq_some.2 ⟨_, rfl, rfl⟩, rfl⟩ fun e he => by
      obtain rfl := mem_singleton.1 he
      exact hwell
  have hrows : rowsExcept env b (soleFile env []) =
      rowsExcept env b (soleFile env [bareEntry (.other event) (zeroBlockHash env)]) := by
    unfold rowsExcept
    rw [logEntries_soleFile, logEntries_soleFile]
    simp [bareEntry, hkept]
  have hsame := ((h ruleId).1 none _ _ hrows).2 hempty hone
  rw [knownSignerSet_of_intact hempty, knownSignerSet_of_intact hone, logEntries_soleFile,
    logEntries_soleFile] at hsame
  simp [lastAnswer, bareEntry, hview] at hsame

theorem not_independent_of_redacted
    (h : redactStrkeyFirst5Last5 a.smartAccount = redactStrkeyFirst5Last5 b.smartAccount) :
    ¬ Independent env a b := by
  refine not_independent_of_row (.signerSet .signerSetBaselined 0
    (redactStrkeyFirst5Last5 b.smartAccount) ⟨0, 0, [], []⟩) (decide_eq_true rfl) ?_ 0
    (.v1 ⟨0, 0, [], []⟩) ?_
  · exact ⟨by simp [v2Snapshot], by simp⟩
  · exact if_pos ⟨rfl, h.symm⟩

/-- **The rows of one account change nothing that is known of another exactly when neither their
shortened addresses nor their digests are the same.** -/
theorem independent_iff {D : Type} [DecidableEq D] (env : LogEnv (SaEvent D) D) (a b : Account) :
    Independent env a b ↔
      redactStrkeyFirst5Last5 a.smartAccount ≠ redactStrkeyFirst5Last5 b.smartAccount ∧
        accountDigest env a ≠ accountDigest env b := by
  constructor
  · intro h
    constructor
    · exact fun hredacted => not_independent_of_redacted hredacted h
    · intro hdigest
      refine not_independent_of_row (.signerSetV2 .signerSetBaselined 0 (accountDigest env b)
        (redactStrkeyFirst5Last5 b.smartAccount) ⟨[], none⟩) ?_ ?_ 0 (.v2 ⟨[], none⟩) ?_ h
      · unfold writtenFor
        rw [Bool.and_eq_true]
        exact ⟨decide_eq_true rfl, decide_eq_true rfl⟩
      · exact ⟨fun snapshot hs => by cases hs; rfl, by simp⟩
      · exact if_pos ⟨rfl, hdigest.symm⟩
  · rintro ⟨hredacted, hdigest⟩
    exact independent_of_ne hredacted hdigest

end

/-- Two different accounts of one network whose addresses begin and end alike. -/
def aliceAccount : Account where
  networkPassphrase := "Test SDF Network ; September 2015"
  smartAccount := "CAAAAAAAAAAAAAAAAAAAAAAAAAAAAAAAAAAAAAAAAAAAAAAAAAAABSC4"

def malloryAccount : Account where
  networkPassphrase := "Test SDF Network ; September 2015"
  smartAccount := "CAAAAAAAAAAAAAAAAAAAAAAAAAAAAAIQEEAAAAAAAAAAAAAAAAAABSC4"

/-- A row of the second account decides what is known of the first. -/
theorem same_ends_interfere : aliceAccount ≠ malloryAccount ∧
      ¬ Independent (codedLog (SaEvent Text)) aliceAccount malloryAccount := by
  constructor
  · simp [aliceAccount, malloryAccount]
  · refine not_independent_of_redacted ?_
    simp [redactStrkeyFirst5Last5, aliceAccount, malloryAccount]

end AgentWallet.AuditLog.Reader
