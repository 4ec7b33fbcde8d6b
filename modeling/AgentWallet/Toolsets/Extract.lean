import AgentWallet.Base.FileSystem
import AgentWallet.Toolsets.Manifest

/-!
# Extraction of a package

`extract.rs`: the entries of a package's archive are checked one by one and written below a staging
directory.  The archive itself (gzip and tar) is a parameter; what is modelled is the loop over its
entries with all its refusals, and the directory tree it leaves.

`extractToStaging_origin`: everything that is written stands below the directory of the package, and
every file is the content of an entry with that path.
-/

namespace AgentWallet.Toolsets.Extract

open Base List Base.Checks
open Manifest (ToolsetFormatError)

abbrev Bytes := List UInt8

/-! ## Limits -/

def maxPackageBytes : ℕ := 16 * 1024 * 1024

def maxTotalDecompressed : ℕ := 64 * 1024 * 1024

def maxEntryBytes : ℕ := 32 * 1024 * 1024

def maxEntries : ℕ := 4096

def maxNameLen : ℕ := 4096

def maxNameComponents : ℕ := 64

def maxVersionLen : ℕ := 64

/-! ## Texts of errors -/

/-- Where `strip_ansi_csi` stands in an escape sequence. -/
inductive AnsiMode where
  | text
  | escape
  | csi
  | osc
  /-- Behind an ESC inside an OSC sequence. -/
  | terminator

def stripAnsiCsi : AnsiMode → List Char → List Char
  | _, [] => []
  | .text, c :: cs =>
    if c = '\x1b' then stripAnsiCsi .escape cs else c :: stripAnsiCsi .text cs
  | .escape, c :: cs =>
    if c = '[' then stripAnsiCsi .csi cs
    else if c = ']' then stripAnsiCsi .osc cs
    else stripAnsiCsi .text cs
  | .csi, c :: cs =>
    if 0x40 ≤ c.toNat ∧ c.toNat ≤ 0x7e then stripAnsiCsi .text cs else stripAnsiCsi .csi cs
  | .osc, c :: cs =>
    if c = '\x07' then stripAnsiCsi .text cs
    else if c = '\x1b' then stripAnsiCsi .terminator cs
    else stripAnsiCsi .osc cs
  | .terminator, c :: cs =>
    if c = '\\' then stripAnsiCsi .text cs
    -- the character was only peeked at
    else if c = '\x1b' then stripAnsiCsi .escape cs
    else c :: stripAnsiCsi .text cs

/-- `char::is_ascii_control` -/
def isAsciiControl (c : Char) : Bool := decide (c.toNat < 0x20) || decide (c.toNat = 0x7f)

def sanitiseDisplay (value : String) (cap : ℕ) : String :=
  let chars := stripAnsiCsi .text value.toList
  let shown := (chars.take cap).map fun c => if isAsciiControl c then '?' else c
  String.ofList (if chars.length > cap then shown ++ ['\u2026'] else shown)

/-- `ToolsetInstallError`; the text of an I/O error is the system's own and left out. -/
inductive InstallError where
  | io
  | packageTooLarge (cap : ℕ)
  | hashMismatch
  | signatureInvalid
  | untrustedPublisher (publisherKeyRedacted : String)
  | trustSetEmpty
  | trustSetMalformed (detail : String)
  | invalidVersion (detail : String)
  | invalidShasum (detail : String)
  | invalidPackageName (detail : String)
  | archivePathTraversal (entryName : String)
  | archiveEntryNameInvalid (detail : String)
  | archiveDisallowedEntryType
  | archiveDuplicateEntry (entryName : String)
  | archiveTooManyEntries (cap : ℕ)
  | archiveEntryTooLarge (cap : ℕ)
  | archiveTooLarge (cap : ℕ)
  | archiveTrailingData
  | archiveBadTopLevel (detail : String)
  | toolsetFormat (e : ToolsetFormatError)
  | identityMismatch (field extracted expected : String)
  | alreadyInstalled (package installedVersion : String)
  | versionDowngrade (newVersion installedVersion : String)
  | notInstalled (package : String)
  | pinRecordMalformed (detail : String)
  | attestationRequired (package : String)
  | attestationInvalid (detail : String)
  | auditorUntrusted (auditorKeyRedacted : String)
  | attestationFieldMismatch (field : String)
deriving DecidableEq

/-! ## Archives and trees -/

inductive EntryType where
  | regular
  | directory
  /-- Links, devices, pipes, sparse and unknown types. -/
  | other
deriving DecidableEq

/-- An entry of an archive; `none` is content that cannot be read up to the cap on an entry. -/
structure ArchiveEntry where
  entryType : EntryType
  pathBytes : Bytes
  content : Option Bytes

/-- What the decoders give for the bytes of a package: its entries, `none` where the stream breaks
off, and whether something other than zeros stands behind the first gzip member, `none` where that
cannot be read. -/
structure Archive where
  entries : List (Option ArchiveEntry)
  trailingData : Option Bool

/-- A path below a directory, component by component. -/
abbrev Path := List String

inductive TreeNode where
  | file (content : Bytes)
  | directory
deriving DecidableEq

abbrev Tree := List (Path × TreeNode)

/-- `create_dir` where nothing stands yet; a file in the way is an error. -/
def makeDir (tree : Tree) (path : Path) : Except InstallError Tree :=
  match tree.lookup path with
  | none => .ok (tree ++ [(path, .directory)])
  | some .directory => .ok tree
  | some (.file _) => .error .io

/-- `create_dir_all` of the path and the directories above it. -/
def createDirAll (tree : Tree) (path : Path) : Except InstallError Tree :=
  (FileSystem.lineage path).foldlM makeDir tree

/-- `OpenOptions::create_new` and the write. -/
def createNew (tree : Tree) (path : Path) (content : Bytes) : Except InstallError Tree :=
  match tree.lookup path with
  | none => .ok (tree ++ [(path, .file content)])
  | some _ => .error .io

/-! ## Names -/

/-- The components of a path, without the empty ones and without `.`. -/
def components (path : List Char) : List (List Char) :=
  (path.splitOnP (· = '/')).filter fun c => decide (c ≠ []) && decide (c ≠ ['.'])

def lexicalNormaliseAndCheck (path : List Char) : Except InstallError Path := do
  refuseIf (path = []) (.archiveEntryNameInvalid "empty entry name")
  refuseIf (path.head? = some '/' ∨ ['.', '.'] ∈ components path)
    (.archivePathTraversal (sanitiseDisplay (String.ofList path) 256))
  refuseIf (components path = [])
    (.archiveEntryNameInvalid "path normalises to empty (dot-only or empty components)")
  .ok ((components path).map String.ofList)

def display (path : Path) : List Char := ['/'].intercalate (path.map String.toList)

def entryPath (entry : ArchiveEntry) : Except InstallError Path := do
  refuseIf (entry.pathBytes.any fun b => decide (b < 0x20))
    (.archiveEntryNameInvalid "entry name contains NUL or control byte")
  let text ← okOr (Utf8.decode entry.pathBytes)
    (.archiveEntryNameInvalid "entry name is not valid UTF-8")
  refuseIf (entry.pathBytes.length > maxNameLen)
    (.archiveEntryNameInvalid "entry name exceeds 4096-byte length cap")
  let path ← lexicalNormaliseAndCheck text
  refuseIf (path.length > maxNameComponents)
    (.archiveEntryNameInvalid "entry has more than 64 path components")
  .ok path

/-! ## The loop -/

/-- The counters of the loop over the entries. -/
structure Progress where
  topLevelDir : Option String
  seenNames : List (List Char)
  entryCount : ℕ
  totalBytesRead : ℕ

def Progress.start : Progress := ⟨none, [], 0, 0⟩

/-- The variables of the loop, with the tree written so far. -/
structure Extraction extends Progress where
  tree : Tree

def Extraction.start : Extraction := ⟨.start, []⟩

/-- The first entry has to be below the package, and every other one below the same directory. -/
def checkTopLevel (package : String) (topLevelDir : Option String) (path : Path) :
    Except InstallError String := do
  let top ← okOr path.head? (.archiveBadTopLevel "entry has no valid top-level component")
  match topLevelDir with
  | none =>
    refuseIf (top ≠ package) (.archiveBadTopLevel (sanitiseDisplay
      ("top-level directory '" ++ top ++ "' != package name '" ++ package ++ "'") 256))
    .ok top
  | some expected =>
    refuseIf (top ≠ expected) (.archiveBadTopLevel (sanitiseDisplay
      ("multiple top-level directories: '" ++ expected ++ "' and '" ++ top ++ "'") 256))
    .ok expected

/-- The name of an entry up to the case of its letters. -/
def collisionKey (path : Path) : List Char := (display path).map Char.toLower

/-- An entry that may be written, its path and its top-level directory. -/
structure Checked where
  entry : ArchiveEntry
  path : Path
  top : String

/-- Steps 1 to 5 and the check of the top-level shape. -/
def checkEntry (package : String) (s : Progress) (entry : Option ArchiveEntry) :
    Except InstallError Checked := do
  let entry ← okOr entry .io
  refuseIf (entry.entryType = .other) .archiveDisallowedEntryType
  let path ← entryPath entry
  let top ← checkTopLevel package s.topLevelDir path
  refuseIf ((display path).all (fun c => decide (c.toNat < 128)) = false)
    (.archiveEntryNameInvalid (sanitiseDisplay
      ("entry name contains non-ASCII characters (ASCII-only gate): '" ++
        String.ofList (display path) ++ "'") 256))
  refuseIf (collisionKey path ∈ s.seenNames)
    (.archiveDuplicateEntry (sanitiseDisplay (String.ofList (display path)) 256))
  refuseIf (s.entryCount + 1 > maxEntries) (.archiveTooManyEntries maxEntries)
  refuseIf (path.length = 1 ∧ entry.entryType = .regular)
    (.archiveBadTopLevel (sanitiseDisplay
      ("top-level entry '" ++ String.ofList (display path) ++
        "' is a regular file; expected a directory") 256))
  .ok ⟨entry, path, top⟩

/-- The counters behind an entry. -/
def Progress.after (s : Progress) (c : Checked) (totalBytesRead : ℕ) : Progress where
  topLevelDir := some c.top
  seenNames := collisionKey c.path :: s.seenNames
  entryCount := s.entryCount + 1
  totalBytesRead := totalBytesRead

/-- The content of an entry within the caps, and the total with it. -/
def readContent (totalBytesRead : ℕ) (entry : ArchiveEntry) : Except InstallError (Bytes × ℕ) := do
  let content ← okOr entry.content .io
  refuseIf (content.length > maxEntryBytes) (.archiveEntryTooLarge maxEntryBytes)
  refuseIf (totalBytesRead + content.length > maxTotalDecompressed)
    (.archiveTooLarge maxTotalDecompressed)
  .ok (content, totalBytesRead + content.length)

def writeEntry (s : Extraction) (entry : ArchiveEntry) (path : Path) :
    Except InstallError (Tree × ℕ) :=
  match entry.entryType with
  | .directory => do
    let tree ← createDirAll s.tree path
    .ok (tree, s.totalBytesRead)
  | _ => do
    let tree ← createDirAll s.tree path.dropLast
    let (content, total) ← readContent s.totalBytesRead entry
    let tree ← createNew tree path content
    .ok (tree, total)

def extractEntry (package : String) (s : Extraction) (entry : Option ArchiveEntry) :
    Except InstallError Extraction := do
  let c ← checkEntry package s.toProgress entry
  let (tree, total) ← writeEntry s c.entry c.path
  .ok ⟨s.after c total, tree⟩

/-- The checks behind the last entry. -/
def checkArchive (archive : Archive) (topLevelDir : Option String) : Except InstallError Unit := do
  refuseIf (topLevelDir = none) (.archiveBadTopLevel "archive is empty (zero entries)")
  let trailing ← okOr archive.trailingData .io
  refuseIf (trailing = true) .archiveTrailingData

/-- `extract_to_staging`: the tree below the staging directory. -/
def extractToStaging (package : String) (archive : Archive) : Except InstallError Tree := do
  let s ← archive.entries.foldlM (extractEntry package) .start
  checkArchive archive s.topLevelDir
  .ok s.tree

/-- The directory of the package in the staging directory. -/
def packageDir (package : String) (tree : Tree) : Tree :=
  tree.filterMap fun entry =>
    match entry.1 with
    | top :: rest => if top = package then some (rest, entry.2) else none
    | [] => none

/-! ## Where the tree comes from -/

section

variable {package : String} {tree tree' : Tree} {path : Path} {x : Path × TreeNode}

theorem mem_of_lookup {node : TreeNode} (h : tree.lookup path = some node) :
    (path, node) ∈ tree := by
  obtain ⟨before, after, rfl, -⟩ := lookup_eq_some_iff.mp h
  exact mem_append_right _ mem_cons_self

theorem mem_makeDir (h : makeDir tree path = .ok tree') (hx : x ∈ tree') :
    x ∈ tree ∨ x = (path, .directory) := by
  unfold makeDir at h
  rcases hget : tree.lookup path with _ | _ | _ <;> rw [hget] at h
  · obtain rfl := Except.ok.inj h
    simpa using hx
  · cases h
  · obtain rfl := Except.ok.inj h
    exact .inl hx

theorem mem_createDirAll (h : createDirAll tree path = .ok tree') (hx : x ∈ tree') :
    x ∈ tree ∨ ∃ p, p <+: path ∧ p ≠ [] ∧ x = (p, .directory) := by
  refine foldlM_invariant
    (P := fun t => ∀ y ∈ t, y ∈ tree ∨ ∃ p, p <+: path ∧ p ≠ [] ∧ y = (p, .directory))
    ?_ (fun y hy => .inl hy) h x hx
  intro t p hp t' ht hmake y hy
  rcases mem_makeDir hmake hy with hy | rfl
  · exact ht y hy
  · obtain ⟨hp, hne⟩ := FileSystem.mem_lineage.mp hp
    exact .inr ⟨p, hp, hne, rfl⟩

variable {content : Bytes}

theorem mem_createNew (h : createNew tree path content = .ok tree') (hx : x ∈ tree') :
    x ∈ tree ∨ x = (path, .file content) := by
  unfold createNew at h
  rcases hget : tree.lookup path with _ | _ <;> rw [hget] at h
  · obtain rfl := Except.ok.inj h
    simpa using hx
  · cases h

variable {s : Extraction}

theorem readContent_eq_ok {entry : ArchiveEntry} {total total' : ℕ}
    (h : readContent total entry = .ok (content, total')) : entry.content = some content ∧
      content.length ≤ maxEntryBytes ∧ total' = total + content.length ∧
      total' ≤ maxTotalDecompressed := by
  simp only [readContent, bind_eq_ok_iff, refuseIf_eq_ok_iff, okOr_eq_ok_iff, Except.ok.injEq,
    Prod.mk.injEq, not_lt] at h
  obtain ⟨_, hcontent, ⟨⟩, hsize, ⟨⟩, hbounded, rfl, rfl⟩ := h
  exact ⟨hcontent, hsize, rfl, hbounded⟩

theorem mem_writeEntry {entry : ArchiveEntry} {total : ℕ}
    (h : writeEntry s entry path = .ok (tree', total)) (hx : x ∈ tree') :
    x ∈ s.tree ∨ (∃ p, p <+: path ∧ p ≠ [] ∧ x = (p, .directory)) ∨
      ∃ content, entry.entryType ≠ .directory ∧ entry.content = some content ∧
        x = (path, .file content) := by
  unfold writeEntry at h
  rcases htype : entry.entryType <;> rw [htype] at h <;>
    simp only [bind_eq_ok_iff, Except.ok.injEq] at h
  case directory =>
    obtain ⟨t, ht, rfl, -⟩ := h
    exact (mem_createDirAll ht hx).imp_right .inl
  all_goals
    obtain ⟨t, ht, ⟨content, total⟩, hread, h⟩ := h
    obtain ⟨t', ht', rfl, -⟩ := h
    obtain ⟨hcontent, -⟩ := readContent_eq_ok hread
    rcases mem_createNew ht' hx with hx | rfl
    · rcases mem_createDirAll ht hx with hx | ⟨p, hp, hne, rfl⟩
      · exact .inl hx
      · have hfront := List.dropLast_prefix path
        exact .inr (.inl ⟨p, hp.trans hfront, hne, rfl⟩)
    · exact .inr (.inr ⟨content, by simp, hcontent, rfl⟩)

/-- A node of the tree stands below the package, and a file is the content of an entry. -/
structure Origin (package : String) (entries : List (Option ArchiveEntry)) (x : Path × TreeNode) :
    Prop where
  contained : x.1.head? = some package
  file : ∀ content, x.2 = .file content → ∃ entry, some entry ∈ entries ∧
    entry.entryType = .regular ∧ entryPath entry = .ok x.1 ∧ entry.content = some content

theorem checkTopLevel_eq_ok {topLevelDir : Option String} {top : String}
    (hdir : ∀ d, topLevelDir = some d → d = package)
    (h : checkTopLevel package topLevelDir path = .ok top) :
    path.head? = some package ∧ top = package := by
  unfold checkTopLevel at h
  rcases topLevelDir with _ | d <;>
    simp only [bind_eq_ok_iff, refuseIf_eq_ok_iff, okOr_eq_ok_iff, Except.ok.injEq, not_not] at h
  · obtain ⟨t, ht, -, rfl, rfl⟩ := h
    exact ⟨ht, rfl⟩
  · obtain ⟨t, ht, -, rfl, rfl⟩ := h
    obtain rfl := hdir _ rfl
    exact ⟨ht, rfl⟩

theorem head?_of_isPrefix {α : Type} {p q : List α} {a : α} (h : p <+: q) (hne : p ≠ [])
    (hq : q.head? = some a) : p.head? = some a := by
  obtain ⟨r, rfl⟩ := h
  rcases p with _ | ⟨b, p⟩
  · exact absurd rfl hne
  · simpa using hq

structure Extracted (package : String) (entries : List (Option ArchiveEntry)) (s : Extraction) :
    Prop where
  top : ∀ d, s.topLevelDir = some d → d = package
  origin : ∀ x ∈ s.tree, Origin package entries x

theorem extractEntry_eq_ok_iff {s' : Extraction} {entry : Option ArchiveEntry} :
    extractEntry package s entry = .ok s' ↔
      ∃ c tree total, checkEntry package s.toProgress entry = .ok c ∧
        writeEntry s c.entry c.path = .ok (tree, total) ∧ s' = ⟨s.after c total, tree⟩ := by
  simp only [extractEntry, bind_eq_ok_iff, Except.ok.injEq, Prod.exists, exists_and_left]
  simp only [eq_comm]

theorem checkEntry_eq_ok {s : Progress} {entry : Option ArchiveEntry} {c : Checked}
    (h : checkEntry package s entry = .ok c) :
    entry = some c.entry ∧ c.entry.entryType ≠ .other ∧ entryPath c.entry = .ok c.path ∧
      checkTopLevel package s.topLevelDir c.path = .ok c.top ∧
      collisionKey c.path ∉ s.seenNames ∧ s.entryCount + 1 ≤ maxEntries := by
  simp only [checkEntry, bind_eq_ok_iff, refuseIf_eq_ok_iff, okOr_eq_ok_iff, Except.ok.injEq] at h
  obtain ⟨e, rfl, -, htype, path, hpath, top, htop, -, -, -, hname, -, hcount, -, -, rfl⟩ := h
  exact ⟨rfl, htype, hpath, htop, hname, by omega⟩

theorem Extracted.step {entries : List (Option ArchiveEntry)} {s' : Extraction}
    {entry : Option ArchiveEntry} (hs : Extracted package entries s) (hentry : entry ∈ entries)
    (h : extractEntry package s entry = .ok s') : Extracted package entries s' := by
  obtain ⟨⟨e, path, top⟩, tree, total, hcheck, hwrite, rfl⟩ := extractEntry_eq_ok_iff.mp h
  obtain ⟨rfl, htype, hpath, htop, -, -⟩ := checkEntry_eq_ok hcheck
  obtain ⟨hhead, rfl⟩ := checkTopLevel_eq_ok hs.top htop
  refine ⟨fun d hd => (Option.some.inj hd).symm, fun x hx => ?_⟩
  rcases mem_writeEntry hwrite hx with hx | ⟨p, hp, hne, rfl⟩ | ⟨content, hdir, hcontent, rfl⟩
  · exact hs.origin x hx
  · exact ⟨head?_of_isPrefix hp hne hhead, fun _ hfile => by cases hfile⟩
  · have hregular : e.entryType = .regular := by
      rcases ht : e.entryType <;> simp_all
    refine ⟨hhead, fun c hc => ?_⟩
    obtain rfl := TreeNode.file.inj hc
    exact ⟨e, hentry, hregular, hpath, hcontent⟩

variable {archive : Archive}

theorem extractToStaging_origin (h : extractToStaging package archive = .ok tree) :
    ∀ x ∈ tree, Origin package archive.entries x := by
  simp only [extractToStaging, bind_eq_ok_iff] at h
  obtain ⟨s, hs, -, -, htree⟩ := h
  obtain rfl := Except.ok.inj htree
  have hstart : Extracted package archive.entries .start :=
    ⟨fun _ hd => (by cases hd), fun _ hx => (by cases hx)⟩
  have hloop : Extracted package archive.entries s :=
    foldlM_invariant (fun _ _ hmem _ ha hstep => ha.step hmem hstep) hstart hs
  exact hloop.origin

theorem mem_packageDir {rest : Path} (h : extractToStaging package archive = .ok tree)
    (hx : (rest, .file content) ∈ packageDir package tree) :
    ∃ entry, some entry ∈ archive.entries ∧ entry.entryType = .regular ∧
      entryPath entry = .ok (package :: rest) ∧ entry.content = some content := by
  obtain ⟨⟨p, node⟩, hmem, hstrip⟩ := mem_filterMap.mp hx
  rcases p with _ | ⟨top, p⟩
  · cases hstrip
  · dsimp only at hstrip
    split_ifs at hstrip with htop
    obtain ⟨rfl, rfl⟩ := Prod.mk.inj (Option.some.inj hstrip)
    subst htop
    exact (extractToStaging_origin h _ hmem).file content rfl

end

end AgentWallet.Toolsets.Extract
