import AgentWallet.Base.Framing
import AgentWallet.Base.Programs
import AgentWallet.Base.Runs
import AgentWallet.Toolsets.Extract

/-!
# Installing and uninstalling toolsets

`install_toolset` and `uninstall_toolset` over the directory of the installed toolsets, with
failures and crashes at every durable step.  The pin record of a package is what the runtime reads
its capabilities from; it lies inside the directory that is filled from the archive.

The file system is taken to be case-sensitive, the root to be a directory that exists, and nothing
in it to be a symbolic link: the refusals of other roots, of links and of paths that leave the root
are left out.
-/

namespace AgentWallet.Toolsets.Install

open Base Base.Programs List Base.Checks
open Extract
open Manifest (Capability CapabilitySet Toolset parseToolset)

/-! ## Records -/

/-- `ToolsetPinRecord` -/
structure PinRecord where
  package : String
  version : String
  shasum : String
  publisher : String
  installedAt : String
  capabilities : CapabilitySet
  allowedTools : List String
  toolsetMdShasum : Option String
deriving DecidableEq

structure ToolsetAttestation where
  package : String
  version : String
  shasum : String
  capabilities : CapabilitySet
  auditorPubkey : Bytes
  signature : Bytes

structure InstallOptions where
  force : Bool
  allowDowngrade : Bool
  overrideAttestation : Bool

inductive AttestationOutcome where
  | attested
  | overridden
  | notRequired
deriving DecidableEq

/-- What the code takes from its libraries. -/
structure Env (V : Type) where
  sha256Hex : Bytes → String
  /-- The gzip and tar decoders. -/
  unpack : Bytes → Archive
  /-- `VerifyingKey::from_bytes` succeeds. -/
  validPoint : Bytes → Bool
  /-- `verify_strict` of a message and a signature under a key. -/
  verifyStrict : Bytes → Bytes → Bytes → Bool
  strkey : Bytes → String
  parseStrkey : List Char → Option Bytes
  redactedKey : Bytes → String
  /-- `Version::parse`, or the text of its error. -/
  parseVersion : String → Except String V
  precedes : V → V → Bool
  debugChar : Char → String
  /-- The YAML scanner. -/
  tokens : List Char → List (Except String Yaml.Event)
  pinToJson : PinRecord → String
  pinFromJson : String → Option PinRecord
  pinFromJson_pinToJson : ∀ record, pinFromJson (pinToJson record) = some record

section

variable {V : Type} (env : Env V)

/-! ## Checks of the inputs -/

def isPackageChar (ch : Char) : Bool :=
  (decide ('a' ≤ ch) && decide (ch ≤ 'z')) || (decide ('0' ≤ ch) && decide (ch ≤ '9')) ||
    decide (ch = '-')

def validatePackageName (name : String) : Except String Unit := do
  refuseIf (name = "") "package name is empty"
  refuseIf (name.utf8ByteSize > 64) "package name exceeds 64 characters"
  match name.toList.find? fun ch => !isPackageChar ch with
  | some ch => .error ("package name contains invalid character " ++ env.debugChar ch)
  | none =>
    refuseIf (name.toList.head? = some '-' ∨ name.toList.getLast? = some '-')
      "package name must not start or end with a hyphen"
    refuseIf (['-', '-'] <:+: name.toList) "package name must not contain consecutive hyphens"

def checkPackageName (name : String) : Except InstallError Unit :=
  (validatePackageName env name).mapError .invalidPackageName

def parseVersionStr (version : String) : Except InstallError V := do
  refuseIf (version = "" ∨ version.utf8ByteSize > maxVersionLen)
    (.invalidVersion ("version must be 1..=64 characters, got " ++ toString version.utf8ByteSize))
  (env.parseVersion version).mapError fun e => .invalidVersion (sanitiseDisplay e 256)

def isLowerHex (ch : Char) : Bool :=
  (decide ('0' ≤ ch) && decide (ch ≤ '9')) || (decide ('a' ≤ ch) && decide (ch ≤ 'f'))

def checkShasum (shasum : String) : Except InstallError Unit := do
  refuseIf (shasum.utf8ByteSize ≠ 64) (.invalidShasum
    ("signed_shasum must be exactly 64 lowercase hex characters, got " ++
      toString shasum.utf8ByteSize))
  match shasum.toList.find? fun ch => !isLowerHex ch with
  | some ch => .error (.invalidShasum ("signed_shasum contains invalid character " ++
      env.debugChar ch ++ "; must be 64 lowercase hex characters (0-9 a-f)"))
  | none => .ok ()

def checkNotDowngrade (newVersion installedVersion : String) (parsedNew : V) :
    Except InstallError Unit := do
  let parsedInstalled ← (env.parseVersion installedVersion).mapError fun _ =>
    .versionDowngrade newVersion installedVersion
  refuseIf (env.precedes parsedNew parsedInstalled = true)
    (.versionDowngrade newVersion installedVersion)

/-! ## Trust sets -/

def maxTrustSetBytes : ℕ := 64 * 1024

def maxTrustSetEntries : ℕ := 1024

/-- The file of a trust set when it is opened. -/
inductive TrustFile where
  | absent
  | unreadable
  | content (bytes : Bytes)

/-- One line of a trust file: blank lines and comments are passed over. -/
def addTrusted (keys : Finset Bytes) (rawLine : List Char) : Except InstallError (Finset Bytes) :=
  let line := Utf8.trim rawLine
  if line = [] ∨ line.head? = some '#' then .ok keys
  else do
    refuseIf (keys.card ≥ maxTrustSetEntries)
      (.trustSetMalformed "trust-set exceeds 1024-entry cap")
    let key ← okOr (env.parseStrkey line) (.trustSetMalformed
      (sanitiseDisplay ("invalid G-strkey entry: '" ++ String.ofList line ++ "'") 256))
    refuseIf (key ∈ keys) (.trustSetMalformed
      (sanitiseDisplay ("duplicate key: '" ++ String.ofList line ++ "'") 256))
    .ok (insert key keys)

def parseTrustSetContent (content : List Char) : Except InstallError (Finset Bytes) := do
  let keys ← (content.splitOnP (· = '\n')).foldlM (addTrusted env) ∅
  refuseIf (keys = ∅) .trustSetEmpty
  .ok keys

def loadTrustSetFile (label : String) : TrustFile → Except InstallError (Finset Bytes)
  | .absent => .error .trustSetEmpty
  | .unreadable => .error .io
  | .content bytes => do
    let content ← okOr (Utf8.decode (bytes.take (maxTrustSetBytes + 1))) .io
    refuseIf ((bytes.take (maxTrustSetBytes + 1)).length > maxTrustSetBytes)
      (.trustSetMalformed (label ++ " trust-set file exceeds size cap"))
    parseTrustSetContent env content

/-! ## Signatures -/

def lengthPrefixed (field : String) : Bytes :=
  Framing.beBytes 4 (Framing.utf8 field).length ++ Framing.utf8 field

def buildPreimage (package version shasum : String) : Bytes :=
  Framing.utf8 "stellar-agent-toolset-sig:v1" ++ lengthPrefixed package ++
    lengthPrefixed version ++ lengthPrefixed shasum

/-- The capabilities in the order of their declaration. -/
def declaredCapabilities : List Capability :=
  [.readBalance, .proposeTransaction, .suggestDestination, .observeEvent, .signPayment, .readRules,
    .signRuleCreate]

def capabilityTokens (capabilities : CapabilitySet) : String :=
  ",".intercalate ((declaredCapabilities.filter fun c => decide (c ∈ capabilities)).map
    Capability.token)

def buildAttestationPreimage (package version shasum : String) (capabilities : CapabilitySet) :
    Bytes :=
  Framing.utf8 "stellar-agent-toolset-attestation:v1" ++ lengthPrefixed package ++
    lengthPrefixed version ++ lengthPrefixed shasum ++
    lengthPrefixed (capabilityTokens capabilities)

def verifySignature (package version shasum : String) (signature publisher : Bytes) :
    Except InstallError Unit := do
  refuseIf (env.validPoint publisher = false) .signatureInvalid
  refuseIf (env.verifyStrict publisher (buildPreimage package version shasum) signature = false)
    .signatureInvalid

/-- The auditor signs the capabilities too. -/
def verifyAttestationSignature (att : ToolsetAttestation) (capabilities : CapabilitySet) :
    Except InstallError Unit := do
  refuseIf (env.validPoint att.auditorPubkey = false)
    (.attestationInvalid "auditor public key is not a valid ed25519 point")
  refuseIf (env.verifyStrict att.auditorPubkey
      (buildAttestationPreimage att.package att.version att.shasum capabilities)
      att.signature = false)
    (.attestationInvalid "ed25519 verify_strict failed for attestation signature")

/-! ## The directory of the toolsets and its failures -/

/-- The directories of the packages.  Staging directories and temporary files carry names that are
not packages and are left out. -/
abbrev World := String → Option Tree

def World.empty : World := fun _ => none

def pinFileName : String := ".stellar-agent-toolset-pin.json"

def pinPath : Path := [pinFileName]

/-- The steps that touch the file system. -/
inductive FsStep where
  | createRoot
  | readPin
  | reread
  | statOld
  | removeOld
  | removePin
  | stage
  | digest
  | removeFinal
  | rename
  | writePin
  | rollback

/-- How a step ends.  A removal that fails or is cut off may leave any part of the directory. -/
inductive Fault where
  | none
  | fail (kept : Path → Bool)
  | crash (kept : Path → Bool)

/-- Why a call stops: it returns an error, or the process ends. -/
inductive Halt where
  | failed (e : InstallError)
  | crashed
deriving DecidableEq

abbrev Action := Program Halt World

def check {α : Type} (x : Except InstallError α) : Action α := lift (x.mapError .failed)

/-- A step with its effect, and what it has done of it when it does not go through. -/
def durable (fault : Fault) (effect : World → World) (partly : (Path → Bool) → World → World) :
    Action Unit :=
  match fault with
  | .none => modify effect
  | .fail kept => do
    modify (partly kept)
    throw (.failed .io)
  | .crash kept => do
    modify (partly kept)
    throw .crashed

def touch (fault : Fault) : Action Unit := durable fault id fun _ => id

/-- `remove_dir_all` -/
def removeDirAll (fault : Fault) (package : String) : Action Unit :=
  durable fault (fun w => Function.update w package none) fun kept w =>
    Function.update w package ((w package).map fun tree => tree.filter fun x => kept x.1)

/-- `let _ = …`: an error is dropped, a crash is not. -/
def bestEffort (x : Action Unit) : Action Unit :=
  tryCatch x fun
    | .failed _ => pure ()
    | .crashed => throw .crashed

/-! ## Pin records -/

/-- What `read_pin` makes of the file at the path of the pin. -/
def decodePin (package : String) : Option TreeNode → Except InstallError (Option PinRecord)
  | none => .ok none
  | some .directory => .error .io
  | some (.file bytes) => do
    let content ← okOr (Utf8.decode bytes) .io
    let record ← okOr (env.pinFromJson (String.ofList content))
      (.pinRecordMalformed ("pin record for '" ++ package ++ "' is not valid JSON"))
    (validatePackageName env record.package).mapError fun reason =>
      .pinRecordMalformed ("pin record package name '" ++ sanitiseDisplay record.package 64 ++
        "' is invalid: " ++ reason)
    .ok (some record)

/-- What stands at the path of a package's pin. -/
def pinNode (w : World) (package : String) : Option TreeNode :=
  (w package).bind fun tree => tree.lookup pinPath

def readPin (w : World) (package : String) : Except InstallError (Option PinRecord) := do
  checkPackageName env package
  decodePin env package (pinNode w package)

def readPinStep (fault : Fault) (package : String) : Action (Option PinRecord) := do
  touch fault
  let w ← get
  check (readPin env w package)

/-- The tree with a file at the path of the pin. -/
def withPin (tree : Tree) (content : Bytes) : Tree :=
  (pinPath, .file content) :: tree.filter fun x => decide (x.1 ≠ pinPath)

/-- The rename of the temporary file over the pin; a directory in its place is an error. -/
def writePinAtomic (fault : Fault) (record : PinRecord) : Action Unit := do
  let w ← get
  check (refuseIf (pinNode w record.package = some .directory ∨ w record.package = none) .io)
  durable fault
    (fun w => Function.update w record.package
      ((w record.package).map fun tree => withPin tree (Utf8.encode (env.pinToJson record).toList)))
    fun _ => id

def removePin (fault : Fault) (package : String) : Action Unit := do
  let w ← get
  check (refuseIf (pinNode w package = some .directory) .io)
  durable fault
    (fun w => Function.update w package
      ((w package).map fun tree => tree.filter fun x => decide (x.1 ≠ pinPath)))
    fun _ => id

/-! ## Uninstall -/

/-- The directory goes first, then the pin that lies in it. -/
def removeInstalled (fault : FsStep → Fault) (package : String) (pin : PinRecord) :
    Action Unit := do
  check ((validatePackageName env pin.package).mapError fun reason =>
    .pinRecordMalformed ("stored package name '" ++ sanitiseDisplay pin.package 64 ++
      "' is invalid: " ++ reason))
  touch (fault .statOld)
  let w ← get
  if w pin.package = none then
    -- an orphan pin
    removePin (fault .removePin) package
    throw (.failed (.notInstalled package))
  else
    removeDirAll (fault .removeOld) pin.package
    removePin (fault .removePin) package

def uninstallInner (fault : FsStep → Fault) (package : String) : Action Unit := do
  let pin ← readPinStep env (fault .reread) package
  let pin ← check (okOr pin (.notInstalled package))
  removeInstalled env fault package pin

def uninstallToolset (fault : FsStep → Fault) (package : String) : Action Unit := do
  check (checkPackageName env package)
  uninstallInner env fault package

/-! ## Install -/

/-- The arguments of `install_toolset`, what it finds in the two trust files and on the clock, and
how its steps end. -/
structure InstallCall where
  package : String
  version : String
  packageBytes : Bytes
  signedShasum : String
  signature : Bytes
  publisherPubkey : Bytes
  trustFile : TrustFile
  attestation : Option ToolsetAttestation
  auditorTrustFile : TrustFile
  options : InstallOptions
  installedAt : String
  fault : FsStep → Fault

variable (call : InstallCall)

/-- The checks before anything is staged. -/
def verifyCall : Except InstallError V := do
  checkPackageName env call.package
  let parsed ← parseVersionStr env call.version
  checkShasum env call.signedShasum
  let trusted ← loadTrustSetFile env "publisher" call.trustFile
  refuseIf (call.publisherPubkey ∉ trusted)
      (.untrustedPublisher (env.redactedKey call.publisherPubkey))
  refuseIf (call.packageBytes.length > maxPackageBytes) (.packageTooLarge maxPackageBytes)
  refuseIf (env.sha256Hex call.packageBytes ≠ call.signedShasum) .hashMismatch
  verifySignature env call.package call.version call.signedShasum call.signature
    call.publisherPubkey
  .ok parsed

def keyTouching (capabilities : CapabilitySet) : Prop := ∃ c ∈ capabilities, c.isKeyTouching = true

instance : DecidablePred keyTouching := fun capabilities =>
  inferInstanceAs (Decidable (∃ c ∈ capabilities, c.isKeyTouching = true))

/-- The check of an attestation against the install. -/
def checkAttestation (capabilities : CapabilitySet) : Except InstallError Unit := do
  let att ← okOr call.attestation (.attestationRequired call.package)
  refuseIf (att.package ≠ call.package) (.attestationFieldMismatch "package")
  refuseIf (att.version ≠ call.version) (.attestationFieldMismatch "version")
  refuseIf (att.shasum ≠ call.signedShasum) (.attestationFieldMismatch "shasum")
  refuseIf (att.capabilities ≠ capabilities) (.attestationFieldMismatch "capabilities")
  let auditors ← loadTrustSetFile env "auditor" call.auditorTrustFile
  refuseIf (att.auditorPubkey ∉ auditors) (.auditorUntrusted (env.redactedKey att.auditorPubkey))
  verifyAttestationSignature env att capabilities

def attestationGate (capabilities : CapabilitySet) : Except InstallError AttestationOutcome :=
  if keyTouching capabilities then
    if call.options.overrideAttestation = true then .ok .overridden
    else do
      checkAttestation env call capabilities
      .ok .attested
  else .ok .notRequired

def fileAt (tree : Tree) (path : Path) : Option Bytes :=
  match tree.lookup path with
  | some (.file content) => some content
  | _ => none

def manifestPath : Path := ["TOOLSET.md"]

/-- A package in the staging directory that has passed all checks. -/
structure Staged where
  dir : Tree
  toolset : Toolset
  outcome : AttestationOutcome

/-- The staged package: extracted, read and gated, not yet in place. -/
def stagePackage : Except InstallError Staged := do
  let tree ← extractToStaging call.package (env.unpack call.packageBytes)
  let dir := packageDir call.package tree
  let toolset ← (parseToolset env.tokens call.package (fileAt dir manifestPath)).mapError
    .toolsetFormat
  refuseIf (toolset.name ≠ call.package)
    (.identityMismatch "name" (sanitiseDisplay toolset.name 64) call.package)
  let outcome ← attestationGate env call toolset.capabilities
  .ok ⟨dir, toolset, outcome⟩

/-- The digest of the manifest; a failure to read it leaves it out. -/
def manifestDigest (fault : Fault) (dir : Tree) : Option String :=
  match fault with
  | .none => (fileAt dir manifestPath).map env.sha256Hex
  | _ => none

def pinRecord (staged : Staged) : PinRecord where
  package := call.package
  version := call.version
  shasum := call.signedShasum
  publisher := env.strkey call.publisherPubkey
  installedAt := call.installedAt
  capabilities := staged.toolset.capabilities
  allowedTools := staged.toolset.allowedTools
  toolsetMdShasum := manifestDigest env (call.fault .digest) staged.dir

def replaceInstalled (parsed : V) : Option PinRecord → Action Unit
  | none => pure ()
  | some existing => do
    check (refuseIf (call.options.force = false)
      (.alreadyInstalled call.package existing.version))
    check (if call.options.allowDowngrade = true then .ok ()
      else checkNotDowngrade env call.version existing.version parsed)
    uninstallInner env call.fault call.package

/-- The removal of what stands in the package's place. -/
def clearFinal : Action Unit := do
  let w ← get
  if w call.package = none then pure () else removeDirAll (call.fault .removeFinal) call.package

def moveIntoPlace (staged : Staged) : Action Unit := do
  clearFinal call
  durable (call.fault .rename) (fun w => Function.update w call.package (some staged.dir))
    fun _ => id

/-- Step 11, with the removal of the directory where the pin cannot be written. -/
def pinOrRollBack (staged : Staged) : Action Unit :=
  tryCatch (writePinAtomic env (call.fault .writePin) (pinRecord env call staged)) fun
    | .failed e => do
      bestEffort (removeDirAll (call.fault .rollback) call.package)
      throw (.failed e)
    | .crashed => throw .crashed

def installToolset : Action AttestationOutcome := do
  let parsed ← check (verifyCall env call)
  touch (call.fault .createRoot)
  let existing ← readPinStep env (call.fault .readPin) call.package
  replaceInstalled env call parsed existing
  touch (call.fault .stage)
  let staged ← check (stagePackage env call)
  moveIntoPlace call staged
  pinOrRollBack env call staged
  return staged.outcome

/-! ## Runs -/

/-- A call on the directory; with a crash it ends where the crash left it. -/
inductive Event where
  | install (call : InstallCall)
  | uninstall (fault : FsStep → Fault) (package : String)

def step (w : World) : Event → World
  | .install call => final (installToolset env call) w
  | .uninstall fault package => final (uninstallToolset env fault package) w

/-- The calls of `install_toolset` in a run. -/
def installs (events : List Event) : List InstallCall :=
  events.filterMap fun
    | .install call => some call
    | .uninstall _ _ => none

end

/-! ## What a pin stands for -/

section

variable {V : Type} (env : Env V)

/-- The publisher is trusted and has signed the bytes for this package and version. -/
structure PublisherVerified (call : InstallCall) : Prop where
  trusted : ∃ keys, loadTrustSetFile env "publisher" call.trustFile = .ok keys ∧
    call.publisherPubkey ∈ keys
  hash : env.sha256Hex call.packageBytes = call.signedShasum
  validPoint : env.validPoint call.publisherPubkey = true
  signed : env.verifyStrict call.publisherPubkey
    (buildPreimage call.package call.version call.signedShasum) call.signature = true

/-- A trusted auditor has signed the package, the version, the hash and the capabilities. -/
def AuditorAttested (call : InstallCall) (capabilities : CapabilitySet) : Prop :=
  ∃ att keys, call.attestation = some att ∧
    loadTrustSetFile env "auditor" call.auditorTrustFile = .ok keys ∧ att.auditorPubkey ∈ keys ∧
    env.validPoint att.auditorPubkey = true ∧
    env.verifyStrict att.auditorPubkey
      (buildAttestationPreimage call.package call.version call.signedShasum capabilities)
      att.signature = true

def ArchiveToolset (call : InstallCall) (toolset : Toolset) : Prop :=
  ∃ tree, extractToStaging call.package (env.unpack call.packageBytes) = .ok tree ∧
    parseToolset env.tokens call.package
      (fileAt (packageDir call.package tree) manifestPath) = .ok toolset

/-- The record is that of a verified install of the package by this call. -/
structure JustifiedBy (call : InstallCall) (package : String) (record : PinRecord) : Prop where
  package_eq : call.package = package
  record_eq : record.package = call.package ∧ record.version = call.version ∧
    record.shasum = call.signedShasum
  publisher : PublisherVerified env call
  parsed : ∃ toolset, ArchiveToolset env call toolset ∧
    record.capabilities = toolset.capabilities ∧ record.allowedTools = toolset.allowedTools
  attested : keyTouching record.capabilities →
    AuditorAttested env call record.capabilities ∨ call.options.overrideAttestation = true

def Justified (calls : List InstallCall) (package : String) (record : PinRecord) : Prop :=
  ∃ call ∈ calls, JustifiedBy env call package record

/-- Every file at the path of a pin is the text of a justified record. -/
def PinsJustified (calls : List InstallCall) (w : World) : Prop :=
  ∀ package bytes, pinNode w package = some (.file bytes) →
    ∃ record, bytes = Utf8.encode (env.pinToJson record).toList ∧
      Justified env calls package record

/-- No entry of the archive lies at the path of the pin. -/
def NoPinEntry (call : InstallCall) : Prop :=
  ∀ entry, some entry ∈ (env.unpack call.packageBytes).entries → entry.entryType = .regular →
    entryPath entry ≠ .ok [call.package, pinFileName]

/-- The archive of an install has no pin of its own, or the write of the pin goes through. -/
def Sound : Event → Prop
  | .install call => NoPinEntry env call ∨ call.fault .writePin = .none
  | .uninstall _ _ => True

end

/-! ## Steps that only remove -/

section

def Shrinks (w w' : World) : Prop :=
  ∀ package node, pinNode w' package = some node → pinNode w package = some node

theorem pinNode_update (w : World) (package q : String) (tree : Option Tree) :
    pinNode (Function.update w package tree) q =
      if q = package then tree.bind fun t => t.lookup pinPath else pinNode w q := by
  unfold pinNode
  by_cases h : q = package
  · subst h
    simp
  · simp [h]

theorem lookup_filter (kept : Path → Bool) (tree : Tree) (path : Path) {node : TreeNode}
    (h : (tree.filter fun x => kept x.1).lookup path = some node) :
    tree.lookup path = some node := by
  induction tree with
  | nil => simp at h
  | cons x tree ih =>
    obtain ⟨p, n⟩ := x
    by_cases hp : path = p
    · subst hp
      by_cases hk : kept path = true
      · simpa [filter_cons, hk] using h
      · -- a node at the path further down would be filtered out as well
        exfalso
        have hmem : (path, node) ∈ ((path, n) :: tree).filter fun x => kept x.1 := mem_of_lookup h
        exact hk (by simpa using (mem_filter.mp hmem).2)
    · have hne : (path == p) = false := by simpa using hp
      rw [lookup_cons, hne]
      apply ih
      by_cases hk : kept p = true
      · simpa [filter_cons, hk, lookup_cons, hne] using h
      · simpa [filter_cons, hk] using h

theorem shrinks_remove (w : World) (package : String) :
    Shrinks w (Function.update w package none) := by
  intro q node h
  rw [pinNode_update] at h
  split_ifs at h with hq
  · cases h
  · exact h

theorem shrinks_filter (w : World) (package : String) (kept : Path → Bool) :
    Shrinks w (Function.update w package
      ((w package).map fun tree => tree.filter fun x => kept x.1)) := by
  intro q node h
  rw [pinNode_update] at h
  split_ifs at h with hq
  · subst hq
    obtain ⟨tree, htree, hnode⟩ := Option.bind_eq_some_iff.mp h
    obtain ⟨t, ht, rfl⟩ := Option.map_eq_some_iff.mp htree
    exact Option.bind_eq_some_iff.mpr ⟨t, ht, lookup_filter kept t pinPath hnode⟩
  · exact h

def Stable (I : World → Prop) : Prop := ∀ w w', Shrinks w w' → I w → I w'

def Keeps {α : Type} (I : World → Prop) (x : Action α) : Prop := Triple I x (fun _ => I) I

variable {I : World → Prop}

theorem durable_rule {P Q E : World → Prop} {fault : Fault} {effect : World → World}
    {partly : (Path → Bool) → World → World} (heffect : ∀ w, P w → fault = .none → Q (effect w))
    (hpartly : ∀ w kept, P w → fault ≠ .none → E (partly kept w)) :
    Triple P (durable fault effect partly) (fun _ => Q) E := by
  rcases fault with _ | kept | kept
  · exact Triple.modify_rule fun w hw => heffect w hw rfl
  all_goals
    have hmodify : Triple P (modify (partly kept) : Action Unit) (fun _ => E) E :=
      Triple.modify_rule fun w hw => hpartly w kept hw (by simp)
    exact Triple.bind_rule hmodify fun _ => Triple.throw_rule fun _ hw => hw

theorem touch_keeps (fault : Fault) : Keeps I (touch fault) :=
  durable_rule (fun _ hw _ => hw) fun _ _ hw _ => hw

theorem check_keeps {α : Type} (x : Except InstallError α) : Keeps I (check x) :=
  Triple.lift_rule (fun _ hw => hw) fun _ _ _ hw => hw

theorem removeDirAll_keeps (hI : Stable I) (fault : Fault) (package : String) :
    Keeps I (removeDirAll fault package) :=
  durable_rule (fun w hw _ => hI _ _ (shrinks_remove w package) hw)
    fun w kept hw _ => hI _ _ (shrinks_filter w package kept) hw

theorem bestEffort_keeps {x : Action Unit} (hx : Keeps I x) : Keeps I (bestEffort x) := by
  refine Triple.try_rule hx fun e => ?_
  cases e with
  | failed e => exact Triple.pure_rule fun _ hw => hw
  | crashed => exact Triple.throw_rule fun _ hw => hw

theorem removePin_keeps (hI : Stable I) (fault : Fault) (package : String) :
    Keeps I (removePin fault package) := by
  refine Triple.get_bind_rule fun w hw => ?_
  refine Triple.pre ?_ fun _ h => h ▸ hw
  refine Triple.bind_rule (check_keeps _) fun _ => ?_
  exact durable_rule
    (fun w hw _ => hI _ _ (shrinks_filter w package fun p => decide (p ≠ pinPath)) hw)
    fun _ _ hw _ => hw

end

section

variable {V : Type} {env : Env V} {I : World → Prop}

theorem readPinStep_keeps (fault : Fault) (package : String) :
    Keeps I (readPinStep env fault package) := by
  refine Triple.bind_rule (touch_keeps fault) fun _ => ?_
  refine Triple.get_bind_rule fun w hw => ?_
  exact (check_keeps _).pre fun _ h => h ▸ hw

section

variable (hI : Stable I)
include hI

theorem removeInstalled_keeps (fault : FsStep → Fault) (package : String) (pin : PinRecord) :
    Keeps I (removeInstalled env fault package pin) := by
  refine Triple.bind_rule (check_keeps _) fun _ => ?_
  refine Triple.bind_rule (touch_keeps _) fun _ => ?_
  refine Triple.get_bind_rule fun w hw => ?_
  refine Triple.pre ?_ fun _ h => h ▸ hw
  split_ifs
  · refine Triple.bind_rule (removePin_keeps hI _ package) fun _ => ?_
    exact Triple.throw_rule fun _ hw => hw
  · exact Triple.bind_rule (removeDirAll_keeps hI _ _) fun _ => removePin_keeps hI _ package

theorem uninstallInner_keeps (fault : FsStep → Fault) (package : String) :
    Keeps I (uninstallInner env fault package) := by
  refine Triple.bind_rule (readPinStep_keeps _ package) fun _ => ?_
  exact Triple.bind_rule (check_keeps _) fun pin => removeInstalled_keeps hI fault package pin

theorem uninstallToolset_keeps (fault : FsStep → Fault) (package : String) :
    Keeps I (uninstallToolset env fault package) :=
  Triple.bind_rule (check_keeps _) fun _ => uninstallInner_keeps hI fault package

theorem replaceInstalled_keeps (call : InstallCall) (parsed : V) (existing : Option PinRecord) :
    Keeps I (replaceInstalled env call parsed existing) := by
  rcases existing with _ | existing
  · exact Triple.pure_rule fun _ hw => hw
  · refine Triple.bind_rule (check_keeps _) fun _ => ?_
    refine Triple.bind_rule (check_keeps _) fun _ => ?_
    exact uninstallInner_keeps hI _ _

theorem clearFinal_keeps (call : InstallCall) : Keeps I (clearFinal call) := by
  refine Triple.get_bind_rule fun w hw => ?_
  refine Triple.pre ?_ fun _ h => h ▸ hw
  split_ifs
  · exact Triple.pure_rule fun _ hw => hw
  · exact removeDirAll_keeps hI _ _

end

/-! ## The write of the pin -/

variable {calls : List InstallCall} {call : InstallCall} {staged : Staged}
  {package : String} {dir : Tree} {record : PinRecord} {parsed : V}
  {capabilities : CapabilitySet} {events : List Event}

theorem pinsJustified_stable : Stable (PinsJustified env calls) :=
  fun _ _ hshrinks hw package bytes hpin => hw package bytes (hshrinks package _ hpin)

/-- The package has been moved into place; the pins of the others are justified. -/
structure Moved (env : Env V) (calls : List InstallCall) (package : String) (dir : Tree)
    (w : World) : Prop where
  others : ∀ q bytes, q ≠ package → pinNode w q = some (.file bytes) →
    ∃ record, bytes = Utf8.encode (env.pinToJson record).toList ∧ Justified env calls q record
  moved : w package = some dir

theorem PinsJustified.moved {w : World} (hw : PinsJustified env calls w) :
    Moved env calls package dir (Function.update w package (some dir)) := by
  refine ⟨fun q bytes hq hpin => ?_, by simp⟩
  rw [pinNode_update, if_neg hq] at hpin
  exact hw q bytes hpin

theorem Moved.pinsJustified {w : World} (hw : Moved env calls package dir w)
    (hdir : ∀ bytes, dir.lookup pinPath ≠ some (.file bytes)) : PinsJustified env calls w := by
  intro q bytes hpin
  by_cases hq : q = package
  · subst hq
    have hlookup : dir.lookup pinPath = some (.file bytes) := by
      simpa [pinNode, hw.moved] using hpin
    exact absurd hlookup (hdir bytes)
  · exact hw.others q bytes hq hpin

theorem Moved.written {w : World} (hw : Moved env calls record.package dir w)
    (hrecord : Justified env calls record.package record) :
    PinsJustified env calls (Function.update w record.package ((w record.package).map fun tree =>
      withPin tree (Utf8.encode (env.pinToJson record).toList))) := by
  intro q bytes hpin
  rw [pinNode_update] at hpin
  split_ifs at hpin with hq
  · subst hq
    have hbytes : Utf8.encode (env.pinToJson record).toList = bytes := by
      simpa [hw.moved, withPin] using hpin
    exact ⟨record, hbytes.symm, hrecord⟩
  · exact hw.others q bytes hq hpin

theorem moveIntoPlace_moves (call : InstallCall) (staged : Staged) :
    Triple (PinsJustified env calls) (moveIntoPlace call staged)
      (fun _ => Moved env calls call.package staged.dir) (PinsJustified env calls) :=
  Triple.bind_rule (clearFinal_keeps pinsJustified_stable call) fun _ =>
    durable_rule (fun _ hw _ => hw.moved) fun _ _ hw _ => hw

theorem writePinAtomic_justifies (record : PinRecord) {fault : Fault}
    (hrecord : Justified env calls record.package record)
    (hsound : (∀ bytes, dir.lookup pinPath ≠ some (.file bytes)) ∨ fault = .none) :
    Triple (Moved env calls record.package dir) (writePinAtomic env fault record)
      (fun _ => PinsJustified env calls) (PinsJustified env calls) := by
  refine Triple.get_bind_rule fun w hw => ?_
  by_cases hbad : pinNode w record.package = some .directory ∨ w record.package = none
  · -- a directory at the path: nothing is written, and there is no pin file either
    have hnone : ∀ bytes, dir.lookup pinPath ≠ some (.file bytes) := by
      intro bytes hfile
      simp [pinNode, hw.moved, hfile] at hbad
    refine Triple.lift_bind_rule ?_ fun _ hok => ?_
    · rintro _ rfl
      exact hw.pinsJustified hnone
    · simp [hbad] at hok
  · have hpass : check (refuseIf (pinNode w record.package = some .directory ∨
        w record.package = none) .io) = (pure () : Action Unit) := by
      rw [refuseIf, if_neg hbad]
      rfl
    rw [hpass]
    refine durable_rule ?_ ?_
    · rintro _ rfl -
      exact hw.written hrecord
    · rintro _ kept rfl hfault
      exact hw.pinsJustified (hsound.resolve_right hfault)

theorem pinOrRollBack_justifies (hrecord : Justified env calls call.package
    (pinRecord env call staged))
    (hsound : (∀ bytes, staged.dir.lookup pinPath ≠ some (.file bytes)) ∨
      call.fault .writePin = .none) :
    Triple (Moved env calls call.package staged.dir) (pinOrRollBack env call staged)
      (fun _ => PinsJustified env calls) (PinsJustified env calls) := by
  have hwrite : Triple (Moved env calls call.package staged.dir)
      (writePinAtomic env (call.fault .writePin) (pinRecord env call staged))
      (fun _ => PinsJustified env calls) (PinsJustified env calls) :=
    writePinAtomic_justifies (pinRecord env call staged) hrecord hsound
  refine Triple.try_rule hwrite fun e => ?_
  cases e with
  | failed e =>
    have hroll : Keeps (PinsJustified env calls)
        (bestEffort (removeDirAll (call.fault .rollback) call.package)) :=
      bestEffort_keeps (removeDirAll_keeps pinsJustified_stable _ _)
    exact Triple.bind_rule hroll fun _ => Triple.throw_rule fun _ hw => hw
  | crashed => exact Triple.throw_rule fun _ hw => hw

/-! ## What an install has checked -/

theorem publisherVerified_of_verifyCall (h : verifyCall env call = .ok parsed) :
    PublisherVerified env call := by
  simp only [verifyCall, verifySignature, bind_eq_ok_iff, refuseIf_eq_ok_iff] at h
  obtain ⟨-, -, -, -, -, -, keys, hkeys, -, htrusted, -, -, -, hhash, -, ⟨-, hpoint, hsigned⟩, -⟩ := h
  exact ⟨⟨keys, hkeys, not_not.mp htrusted⟩, not_not.mp hhash, by simpa using hpoint,
    by simpa using hsigned⟩

theorem attested_of_checkAttestation (h : checkAttestation env call capabilities = .ok ()) :
    AuditorAttested env call capabilities := by
  simp only [checkAttestation, verifyAttestationSignature, bind_eq_ok_iff,
    refuseIf_eq_ok_iff, okOr_eq_ok_iff, not_not] at h
  obtain ⟨att, hatt, -, hpackage, -, hversion, -, hshasum, -, -, keys, hkeys, -, htrusted, -, hpoint,
    hsigned⟩ := h
  rw [hpackage, hversion, hshasum] at hsigned
  exact ⟨att, keys, hatt, hkeys, htrusted, by simpa using hpoint, by simpa using hsigned⟩

theorem attested_of_attestationGate {outcome : AttestationOutcome}
    (h : attestationGate env call capabilities = .ok outcome) (hkey : keyTouching capabilities) :
    AuditorAttested env call capabilities ∨ call.options.overrideAttestation = true := by
  unfold attestationGate at h
  split_ifs at h with hoverride
  · exact .inr hoverride
  · obtain ⟨⟨⟩, hatt, -⟩ := bind_eq_ok_iff.mp h
    exact .inl (attested_of_checkAttestation hatt)

theorem stagePackage_eq_ok (h : stagePackage env call = .ok staged) :
    ∃ tree, extractToStaging call.package (env.unpack call.packageBytes) = .ok tree ∧
      staged.dir = packageDir call.package tree ∧
      parseToolset env.tokens call.package (fileAt staged.dir manifestPath) = .ok staged.toolset ∧
      attestationGate env call staged.toolset.capabilities = .ok staged.outcome := by
  simp only [stagePackage, bind_eq_ok_iff, mapError_eq_ok_iff] at h
  obtain ⟨tree, htree, toolset, htoolset, -, -, outcome, hgate, hstaged⟩ := h
  obtain rfl := Except.ok.inj hstaged
  exact ⟨tree, htree, rfl, htoolset, hgate⟩

theorem justified_of_install (hverify : verifyCall env call = .ok parsed)
    (hstage : stagePackage env call = .ok staged) (hcall : call ∈ calls) :
    Justified env calls call.package (pinRecord env call staged) := by
  obtain ⟨tree, htree, hdir, htoolset, hgate⟩ := stagePackage_eq_ok hstage
  rw [hdir] at htoolset
  exact ⟨call, hcall, rfl, ⟨rfl, rfl, rfl⟩, publisherVerified_of_verifyCall hverify,
    ⟨staged.toolset, ⟨tree, htree, htoolset⟩, rfl, rfl⟩, attested_of_attestationGate hgate⟩

theorem NoPinEntry.lookup_ne (h : NoPinEntry env call) (hstage : stagePackage env call = .ok staged)
    (bytes : Bytes) : staged.dir.lookup pinPath ≠ some (.file bytes) := by
  intro hlookup
  obtain ⟨tree, htree, hdir, -, -⟩ := stagePackage_eq_ok hstage
  rw [hdir] at hlookup
  obtain ⟨entry, hentry, htype, hpath, -⟩ := mem_packageDir htree (mem_of_lookup hlookup)
  exact h entry hentry htype hpath

/-! ## Steps and runs -/

theorem installToolset_keeps (hcall : call ∈ calls)
    (hsound : NoPinEntry env call ∨ call.fault .writePin = .none) :
    Keeps (PinsJustified env calls) (installToolset env call) := by
  refine Triple.lift_bind_rule (fun _ hw => hw) fun parsed hverify => ?_
  rw [mapError_eq_ok_iff] at hverify
  refine Triple.bind_rule (touch_keeps _) fun _ => ?_
  refine Triple.bind_rule (readPinStep_keeps _ _) fun existing => ?_
  refine Triple.bind_rule (replaceInstalled_keeps pinsJustified_stable call parsed existing)
    fun _ => ?_
  refine Triple.bind_rule (touch_keeps _) fun _ => ?_
  refine Triple.lift_bind_rule (fun _ hw => hw) fun staged hstage => ?_
  rw [mapError_eq_ok_iff] at hstage
  refine Triple.bind_rule (moveIntoPlace_moves call staged) fun _ => ?_
  have hpin := pinOrRollBack_justifies (justified_of_install hverify hstage hcall)
    (hsound.imp_left fun h => h.lookup_ne hstage)
  exact Triple.bind_rule hpin fun _ => Triple.pure_rule fun _ hw => hw

theorem mem_installs {call : InstallCall} :
    call ∈ installs events ↔ Event.install call ∈ events := by
  unfold installs
  rw [mem_filterMap]
  constructor
  · rintro ⟨e, he, hcall⟩
    cases e with
    | install c =>
      obtain rfl := Option.some.inj hcall
      exact he
    | uninstall fault package => cases hcall
  · exact fun h => ⟨_, h, rfl⟩

theorem step_pinsJustified {w : World} {e : Event} (hw : PinsJustified env calls w)
    (hmem : ∀ call, e = .install call → call ∈ calls) (hsound : Sound env e) :
    PinsJustified env calls (step env w e) := by
  cases e with
  | install call => exact (installToolset_keeps (hmem call rfl) hsound).final hw
  | uninstall fault package =>
    exact (uninstallToolset_keeps pinsJustified_stable fault package).final hw

theorem run_pinsJustified (hsound : ∀ e ∈ events, Sound env e) :
    PinsJustified env (installs events) (Runs.run (step env) World.empty events) := by
  have hstep : ∀ w e, PinsJustified env (installs events) w →
      ((∀ call, e = .install call → call ∈ installs events) ∧ Sound env e) →
      PinsJustified env (installs events) (step env w e) :=
    fun _ _ hw hok => step_pinsJustified hw hok.1 hok.2
  refine Runs.run_invariant hstep events World.empty ?_ ?_
  · intro package bytes hpin
    cases hpin
  · intro e he
    exact ⟨fun call hcall => mem_installs.mpr (hcall ▸ he), hsound e he⟩

theorem decodePin_eq_ok_iff {node : Option TreeNode} :
    decodePin env package node = .ok (some record) ↔
      validatePackageName env record.package = .ok () ∧ ∃ bytes content, node = some (.file bytes) ∧
        Utf8.decode bytes = some content ∧
        env.pinFromJson (String.ofList content) = some record := by
  rcases node with _ | bytes | _
  · simp [decodePin]
  · simp only [decodePin, bind_eq_ok_iff, okOr_eq_ok_iff, mapError_eq_ok_iff,
      Except.ok.injEq, Option.some.injEq]
    constructor
    · rintro ⟨content, hcontent, r, hr, ⟨⟩, hname, rfl⟩
      exact ⟨hname, bytes, content, rfl, hcontent, hr⟩
    · rintro ⟨hname, b, content, hb, hcontent, hr⟩
      obtain rfl := TreeNode.file.inj hb
      exact ⟨content, hcontent, record, hr, (), hname, rfl⟩
  · simp [decodePin]

theorem readPin_congr {w w' : World} (h : pinNode w package = pinNode w' package) :
    readPin env w package = readPin env w' package := by
  rw [readPin, readPin, h]

theorem readPin_eq_ok_iff {w : World} : readPin env w package = .ok (some record) ↔
      validatePackageName env package = .ok () ∧ validatePackageName env record.package = .ok () ∧
        ∃ bytes content, pinNode w package = some (.file bytes) ∧ Utf8.decode bytes = some content ∧
          env.pinFromJson (String.ofList content) = some record := by
  simp only [readPin, checkPackageName, bind_eq_ok_iff, mapError_eq_ok_iff, decodePin_eq_ok_iff]
  constructor
  · rintro ⟨_, hname, hrest⟩
    exact ⟨hname, hrest⟩
  · rintro ⟨hname, hrest⟩
    exact ⟨(), hname, hrest⟩

/-- **A readable pin means a verified install**: along every run in which no archive holds a pin of
its own or the pin is written after it, with failures and crashes at any other step. -/
theorem pins_verified (env : Env V) (events : List Event) (hsound : ∀ e ∈ events, Sound env e)
    (package : String) (record : PinRecord)
    (h : readPin env (Runs.run (step env) World.empty events) package = .ok (some record)) :
    Justified env (installs events) package record := by
  obtain ⟨-, -, bytes, content, hpin, hcontent, hjson⟩ := readPin_eq_ok_iff.mp h
  obtain ⟨r, rfl, hr⟩ := run_pinsJustified hsound package bytes hpin
  rw [Utf8.decode_encode] at hcontent
  obtain rfl := Option.some.inj hcontent
  rw [String.ofList_toList, env.pinFromJson_pinToJson] at hjson
  obtain rfl := Option.some.inj hjson
  exact hr

end

/-! ## Calls that go through -/

section

variable {V : Type} {env : Env V} {w : World} {call : InstallCall}

theorem exec_check_ok {α : Type} {x : Except InstallError α} {a : α} (h : x = .ok a) (w : World) :
    exec (check x) w = (.ok a, w) := by
  rw [h]
  rfl

variable {package : String}

theorem exec_readPinStep_ok {pin : Option PinRecord} (h : readPin env w package = .ok pin) :
    exec (readPinStep env .none package) w = (.ok pin, w) := by
  refine (exec_bind_ok (show exec (touch .none) w = (.ok (), w) from rfl)).trans ?_
  exact (exec_bind_ok (exec_get w)).trans (exec_check_ok h w)

theorem readPin_withPin {record : PinRecord} {dir : Tree}
    (hname : validatePackageName env package = .ok ())
    (hrecord : validatePackageName env record.package = .ok ()) :
    readPin env (Function.update w package
      (some (withPin dir (Utf8.encode (env.pinToJson record).toList)))) package =
        .ok (some record) := by
  refine readPin_eq_ok_iff.mpr ⟨hname, hrecord, _, (env.pinToJson record).toList, ?_,
    Utf8.decode_encode _, ?_⟩
  · simp [pinNode, withPin]
  · rw [String.ofList_toList, env.pinFromJson_pinToJson]

end

/-! ## A pin in the archive -/

section

/-- A line; the line breaks and backslashes of the field are escaped. -/
def writeField (field : List Char) : List Char :=
  field.flatMap (fun ch => if ch = '\n' ∨ ch = '\\' then ['\\', ch] else [ch]) ++ ['\n']

def readFields : List Char → List (List Char)
  | [] => []
  | '\n' :: text => [] :: readFields text
  | '\\' :: ch :: text => (readFields text).modifyHead (ch :: ·)
  | ch :: text => (readFields text).modifyHead (ch :: ·)

theorem readFields_append (field text : List Char) :
    readFields (writeField field ++ text) = field :: readFields text := by
  induction field with
  | nil => rfl
  | cons ch field ih =>
    have hhead := congrArg (modifyHead (cons ch)) ih
    by_cases hescape : ch = '\n' ∨ ch = '\\'
    · simpa [writeField, hescape, readFields] using hhead
    · rw [not_or] at hescape
      simpa [writeField, hescape, readFields] using hhead

theorem readFields_flatMap (fields : List (List Char)) :
    readFields (fields.flatMap writeField) = fields := by
  induction fields with
  | nil => rfl
  | cons field fields ih => rw [flatMap_cons, readFields_append, ih]

def letter (c : Capability) : Char := Char.ofNat (97 + c.ctorIdx)

/-- The fields of a pin as texts.  They stand for its JSON, of which only the round trip is used. -/
def pinFields (record : PinRecord) : List (List Char) :=
  record.package.toList :: record.version.toList :: record.shasum.toList ::
    record.publisher.toList :: record.installedAt.toList ::
    (declaredCapabilities.filter (· ∈ record.capabilities)).map letter ::
    record.toolsetMdShasum.elim [] ('=' :: ·.toList) :: record.allowedTools.map String.toList

def ofPinFields : List (List Char) → Option PinRecord
  | package :: version :: shasum :: publisher :: installedAt :: letters :: digest :: tools =>
    some ⟨.ofList package, .ofList version, .ofList shasum, .ofList publisher, .ofList installedAt,
      declaredCapabilities.toFinset.filter (letter · ∈ letters), tools.map .ofList,
      digest.tail?.map .ofList⟩
  | _ => none

theorem letters_filter (capabilities : CapabilitySet) :
    declaredCapabilities.toFinset.filter (letter · ∈
      (declaredCapabilities.filter (· ∈ capabilities)).map letter) = capabilities := by
  have hinj : letter.Injective := by
    intro a b
    cases a <;> cases b <;> decide
  ext c
  have hc : c ∈ declaredCapabilities := by cases c <;> decide
  simp [mem_map_of_injective hinj, hc]

theorem ofPinFields_pinFields (record : PinRecord) :
    ofPinFields (pinFields record) = some record := by
  obtain ⟨_, _, _, _, _, capabilities, _, digest⟩ := record
  cases digest <;> simp [pinFields, ofPinFields, letters_filter, Function.comp_def]

def pinText (record : PinRecord) : String := .ofList ((pinFields record).flatMap writeField)

def plantedRecord : PinRecord where
  package := "p"
  version := "1.0.0"
  shasum := ""
  publisher := ""
  installedAt := ""
  capabilities := {.signPayment}
  allowedTools := []
  toolsetMdShasum := none

/-- `name: p`, `description: d` -/
def plantedDoc : Yaml.Node :=
  .mapping 0 (.cons (.scalar "name" 0) (.scalar "p" 0)
    (.cons (.scalar "description" 0) (.scalar "d" 0) .nil))

/-- A manifest without capabilities, and a pin. -/
def plantedArchive : Archive where
  entries :=
    [some ⟨.regular, Utf8.encode "p/TOOLSET.md".toList, some (Utf8.encode "---\n---\n".toList)⟩,
      some ⟨.regular, Utf8.encode ("p/".toList ++ pinFileName.toList),
        some (Utf8.encode (pinText plantedRecord).toList)⟩]
  trailingData := some false

def zeros : String := String.ofList (List.replicate 64 '0')

def plantedEnv : Env ℕ where
  sha256Hex bytes := if bytes = [] then zeros else ""
  unpack _ := plantedArchive
  validPoint _ := true
  verifyStrict _ _ _ := true
  strkey _ := "G"
  parseStrkey _ := some []
  redactedKey _ := "G...?"
  parseVersion _ := .ok 0
  precedes _ _ := false
  debugChar _ := ""
  tokens _ := (Yaml.streamEvents [plantedDoc]).map .ok
  pinToJson := pinText
  pinFromJson text := ofPinFields (readFields text.toList)
  pinFromJson_pinToJson record := by
    rw [pinText, String.toList_ofList, readFields_flatMap, ofPinFields_pinFields]

/-- An install of the archive; its pin write ends as given. -/
def plantedCall (pinWrite : Fault) : InstallCall where
  package := "p"
  version := "1.0.0"
  packageBytes := []
  signedShasum := zeros
  signature := []
  publisherPubkey := []
  trustFile := .content [71]
  attestation := none
  auditorTrustFile := .absent
  options := ⟨false, false, false⟩
  installedAt := ""
  fault
    | .writePin => pinWrite
    | _ => .none

def plantedRun (pinWrite : Fault) : World :=
  Runs.run (step plantedEnv) World.empty [.install (plantedCall pinWrite)]

theorem plantedArchive_capabilities : (extractToStaging "p" plantedArchive).bind (fun tree =>
      ((parseToolset plantedEnv.tokens "p" (fileAt (packageDir "p" tree) manifestPath)).map
        Toolset.capabilities).mapError .toolsetFormat) = .ok ∅ := by
  decide +kernel

theorem capabilities_of_archiveToolset {pinWrite : Fault} {toolset : Toolset}
    (h : ArchiveToolset plantedEnv (plantedCall pinWrite) toolset) : toolset.capabilities = ∅ := by
  obtain ⟨tree, htree, htoolset⟩ := h
  have hcaps := plantedArchive_capabilities
  have htree' : extractToStaging "p" plantedArchive = .ok tree := htree
  have htoolset' : parseToolset plantedEnv.tokens "p"
      (fileAt (packageDir "p" tree) manifestPath) = .ok toolset := htoolset
  rw [htree', Except.bind, htoolset'] at hcaps
  exact Except.ok.inj hcaps

/-- **The archive's own pin is read**: the process ends between the rename and the write of the pin,
and a record with a capability that the manifest does not have is the pin of the package. -/
theorem plantedPin_readable :
    readPin plantedEnv (plantedRun (.crash fun _ => true)) "p" = .ok (some plantedRecord) ∧
      ¬ Justified plantedEnv (installs [.install (plantedCall (.crash fun _ => true))]) "p"
        plantedRecord := by
  refine ⟨by decide +kernel, ?_⟩
  rintro ⟨call, hcall, hjust⟩
  rw [mem_installs, mem_singleton] at hcall
  obtain rfl := Event.install.inj hcall
  obtain ⟨toolset, htoolset, hcaps, -⟩ := hjust.parsed
  rw [capabilities_of_archiveToolset htoolset] at hcaps
  exact absurd hcaps (by decide)

/-- What the same install writes when nothing stops it. -/
def verifiedRecord : PinRecord :=
  { plantedRecord with
    shasum := zeros
    publisher := "G"
    capabilities := ∅
    toolsetMdShasum := some "" }

/-- The same archive, with a pin that is written: the record read is the install's own. -/
theorem plantedPin_overwritten :
    readPin plantedEnv (plantedRun .none) "p" = .ok (some verifiedRecord) ∧
      Justified plantedEnv (installs [.install (plantedCall .none)]) "p" verifiedRecord := by
  have hread : readPin plantedEnv (plantedRun .none) "p" = .ok (some verifiedRecord) := by
    decide +kernel
  refine ⟨hread, pins_verified plantedEnv _ ?_ "p" verifiedRecord hread⟩
  intro e he
  obtain rfl := mem_singleton.mp he
  exact .inr rfl

end

end AgentWallet.Toolsets.Install
