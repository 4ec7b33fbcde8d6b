import AgentWallet.Base.Checks
import AgentWallet.Base.Lines
import AgentWallet.Base.Utf8
import AgentWallet.Base.Yaml

/-!
# The manifest of a toolset

`parse.rs` and `capability.rs`: the frontmatter of a `TOOLSET.md`, read from a stream of YAML events
by a state machine that passes over every value it does not know, and the capabilities written in
it.
-/

namespace AgentWallet.Toolsets.Manifest

open Base Base.Yaml List
open Checks (refuseIf okOr)

/-! ## Capabilities -/

inductive Capability where
  | readBalance
  | proposeTransaction
  | suggestDestination
  | observeEvent
  | signPayment
  | readRules
  | signRuleCreate
deriving DecidableEq

/-- `CapabilitySet` -/
abbrev CapabilitySet := Finset Capability

def Capability.isKeyTouching : Capability → Bool
  | .readBalance => false
  | .proposeTransaction => false
  | .suggestDestination => false
  | .observeEvent => false
  | .signPayment => true
  | .readRules => false
  | .signRuleCreate => true

def Capability.token : Capability → String
  | .readBalance => "read-balance"
  | .proposeTransaction => "propose-transaction"
  | .suggestDestination => "suggest-destination"
  | .observeEvent => "observe-event"
  | .signPayment => "sign-payment"
  | .readRules => "read-rules"
  | .signRuleCreate => "sign-rule-create"

inductive ToolsetFormatError where
  | io
  | toolsetFileTooLarge (size cap : ℕ)
  | notUtf8
  | missingFrontmatter
  | malformedFrontmatter (detail : String)
  | yamlAnchorsForbidden
  | frontmatterTooDeep
  | duplicateKey (key : String)
  | reservedMetadataKey (key : String)
  | missingName
  | nameEmpty
  | nameTooLong
  | nameInvalidChar
  | nameLeadingTrailingHyphen
  | nameConsecutiveHyphens
  | nameDirMismatch (name dir : String)
  | missingDescription
  | descriptionEmpty
  | descriptionTooLong
  | compatibilityTooLong
  | capabilityTokenInvalidChar (token : String)
  | unknownCapability (token : String)
  | bareSignTransactionForbidden
  | capabilityManifestMalformed (detail : String)
deriving DecidableEq

def capabilityKey : String := "stellar-agent-capabilities"

def reservedPrefix : String := "stellar-agent-"

def isValidTokenChar (ch : Char) : Bool :=
  (decide ('a' ≤ ch) && decide (ch ≤ 'z')) || (decide ('0' ≤ ch) && decide (ch ≤ '9')) ||
    decide (ch = '-')

def matchCapabilityToken (token : String) : Except ToolsetFormatError Capability :=
  if token = "sign-transaction" then .error .bareSignTransactionForbidden
  else if token = "read-balance" then .ok .readBalance
  else if token = "propose-transaction" then .ok .proposeTransaction
  else if token = "suggest-destination" then .ok .suggestDestination
  else if token = "observe-event" then .ok .observeEvent
  else if token = "sign-payment" then .ok .signPayment
  else if token = "read-rules" then .ok .readRules
  else if token = "sign-rule-create" then .ok .signRuleCreate
  else .error (.unknownCapability token)

/-- `char::is_ascii_whitespace` -/
def isAsciiWhitespace (ch : Char) : Bool := decide (ch ∈ [' ', '\t', '\n', '\x0c', '\r'])

/-- `str::split_ascii_whitespace` -/
def splitAsciiWhitespace (s : String) : List String :=
  ((s.toList.splitOnP isAsciiWhitespace).filter fun t => !t.isEmpty).map String.ofList

def parseCapabilityValue (value : String) : Except ToolsetFormatError CapabilitySet :=
  (splitAsciiWhitespace value).foldlM
    (fun set token => do
      refuseIf (token.toList.all isValidTokenChar = false) (.capabilityTokenInvalidChar token)
      let cap ← matchCapabilityToken token
      .ok (insert cap set)) ∅

/-! ## Frontmatter -/

structure Frontmatter where
  name : Option String
  description : Option String
  license : Option String
  compatibility : Option String
  /-- The entries of the map, each key once. -/
  metadata : List (String × String)
  allowedTools : List String
deriving DecidableEq

def Frontmatter.empty : Frontmatter := ⟨none, none, none, none, [], []⟩

/-- A scalar value of the top-level mapping; other keys are tolerated. -/
def Frontmatter.setScalar (fm : Frontmatter) (key val : String) : Frontmatter :=
  if key = "name" then { fm with name := some val }
  else if key = "description" then { fm with description := some val }
  else if key = "license" then { fm with license := some val }
  else if key = "compatibility" then { fm with compatibility := some val }
  else if key = "allowed-tools" then { fm with allowedTools := splitAsciiWhitespace val }
  else fm

/-- `HashMap::insert` -/
def insertEntry (key value : String) (map : List (String × String)) : List (String × String) :=
  map.filter (fun entry => decide (entry.1 ≠ key)) ++ [(key, value)]

inductive ReceiverState where
  | init
  | topLevelMapping (currentKey : Option String)
  | metadataMapping (currentKey : Option String)
  | skippingUnknown (returnDepth : ℕ)
  | done

structure FrontmatterReceiver where
  frontmatter : Frontmatter
  state : ReceiverState
  depth : ℕ
  topLevelSeenKeys : List String
  metadataSeenKeys : List String
  error : Option ToolsetFormatError

namespace FrontmatterReceiver

def new : FrontmatterReceiver := ⟨.empty, .init, 0, [], [], none⟩

def setError (r : FrontmatterReceiver) (err : ToolsetFormatError) : FrontmatterReceiver :=
  { r with error := r.error.or (some err), state := .done }

def maxDepth : ℕ := 8

/-- The start of a sequence or a mapping, wherever it stands. -/
def enter (r : FrontmatterReceiver) (anchorId : ℕ) : FrontmatterReceiver :=
  if anchorId ≠ 0 then r.setError .yamlAnchorsForbidden
  else if r.depth + 1 > maxDepth then
    { r with depth := r.depth + 1 }.setError .frontmatterTooDeep
  else { r with depth := r.depth + 1 }

/-- What every event is checked for before the state is looked at. -/
def track (r : FrontmatterReceiver) : Event → FrontmatterReceiver
  | .aliasOf _ => r.setError .yamlAnchorsForbidden
  | .mappingStart anchorId => r.enter anchorId
  | .sequenceStart anchorId => r.enter anchorId
  | .mappingEnd => { r with depth := r.depth - 1 }
  | .sequenceEnd => { r with depth := r.depth - 1 }
  | .scalar _ anchorId => if anchorId ≠ 0 then r.setError .yamlAnchorsForbidden else r
  | _ => r

/-- An event inside of a value that is passed over: only its own end ends it. -/
def skipping (r : FrontmatterReceiver) (returnDepth : ℕ) : Event → FrontmatterReceiver
  | .mappingEnd => if r.depth = returnDepth then { r with state := .topLevelMapping none } else r
  | .sequenceEnd => if r.depth = returnDepth then { r with state := .topLevelMapping none } else r
  | _ => r

def atInit (r : FrontmatterReceiver) : Event → FrontmatterReceiver
  | .streamStart => r
  | .documentStart => r
  | .documentEnd => r
  | .streamEnd => r
  | .mappingStart _ => { r with state := .topLevelMapping none }
  | _ => r.setError (.malformedFrontmatter "frontmatter must be a YAML mapping")

def skipUnknown (r : FrontmatterReceiver) : FrontmatterReceiver :=
  { r with state := .skippingUnknown (r.depth - 1) }

def topLevelScalar (r : FrontmatterReceiver) (value : String) :
    Option String → FrontmatterReceiver
  | none =>
    if value ∈ r.topLevelSeenKeys then r.setError (.duplicateKey value)
    else
      { r with
        topLevelSeenKeys := value :: r.topLevelSeenKeys
        state := .topLevelMapping (some value) }
  | some key =>
    { r with
      frontmatter := r.frontmatter.setScalar key value
      state := .topLevelMapping none }

def inTopLevelMapping (r : FrontmatterReceiver) (currentKey : Option String) :
    Event → FrontmatterReceiver
  | .mappingEnd => { r with state := .done }
  | .scalar value _ => r.topLevelScalar value currentKey
  | .mappingStart _ =>
    if currentKey = some "metadata" then { r with state := .metadataMapping none }
    else r.skipUnknown
  | .sequenceStart _ => r.skipUnknown
  | _ => r

/-- A key or a value of the `metadata` mapping. -/
def metadataScalar (r : FrontmatterReceiver) (value : String) :
    Option String → FrontmatterReceiver
  | none =>
    if value ∈ r.metadataSeenKeys then r.setError (.duplicateKey value)
    else if reservedPrefix.toList.isPrefixOf value.toList = true ∧ value ≠ capabilityKey then
      { r with metadataSeenKeys := value :: r.metadataSeenKeys }.setError
        (.reservedMetadataKey value)
    else
      { r with
        metadataSeenKeys := value :: r.metadataSeenKeys
        state := .metadataMapping (some value) }
  | some key =>
    { r with
      frontmatter :=
        { r.frontmatter with metadata := insertEntry key value r.frontmatter.metadata }
      state := .metadataMapping none }

/-- A sequence or a mapping inside of `metadata`. -/
def structuredMetadata (r : FrontmatterReceiver) (currentKey : Option String) :
    FrontmatterReceiver :=
  if currentKey.getD "" = capabilityKey then
    r.setError (.capabilityManifestMalformed
      "stellar-agent-capabilities value must be a string, not a mapping or sequence")
  else
    r.setError (.malformedFrontmatter
      ("metadata value for key '" ++ currentKey.getD "" ++ "' must be a string"))

def inMetadataMapping (r : FrontmatterReceiver) (currentKey : Option String) :
    Event → FrontmatterReceiver
  | .mappingEnd => { r with state := .topLevelMapping none }
  | .scalar value _ => r.metadataScalar value currentKey
  | .mappingStart _ => r.structuredMetadata currentKey
  | .sequenceStart _ => r.structuredMetadata currentKey
  | _ => r

def dispatch (r : FrontmatterReceiver) (ev : Event) : FrontmatterReceiver :=
  match r.state with
  | .done => r
  | .skippingUnknown returnDepth => r.skipping returnDepth ev
  | .init => r.atInit ev
  | .topLevelMapping currentKey => r.inTopLevelMapping currentKey ev
  | .metadataMapping currentKey => r.inMetadataMapping currentKey ev

def processEvent (r : FrontmatterReceiver) (ev : Event) : FrontmatterReceiver :=
  if r.error.isSome then r
  else if (r.track ev).error.isSome then r.track ev
  else (r.track ev).dispatch ev

end FrontmatterReceiver

open FrontmatterReceiver (processEvent)

/-- The loop of `parse_frontmatter` over what the parser gives. -/
def receive (r : FrontmatterReceiver) :
    List (Except String Event) → Except ToolsetFormatError Frontmatter
  | [] => .ok r.frontmatter
  | .error detail :: _ => .error (.malformedFrontmatter detail)
  | .ok ev :: rest =>
    match (processEvent r ev).error with
    | some err => .error err
    | none =>
      if ev = .streamEnd then .ok (processEvent r ev).frontmatter
      else receive (processEvent r ev) rest

def parseFrontmatter (tokens : List (Except String Event)) :
    Except ToolsetFormatError Frontmatter :=
  receive .new tokens

def extractCapabilities (metadata : List (String × String)) :
    Except ToolsetFormatError CapabilitySet :=
  match metadata.lookup capabilityKey with
  | none => .ok ∅
  | some value => parseCapabilityValue value

/-! ## The file -/

def maxFileBytes : ℕ := 256 * 1024

/-- `read_size_capped`; `none` is a file that cannot be read. -/
def readSizeCapped (file : Option (List UInt8)) : Except ToolsetFormatError (List UInt8) := do
  let bytes ← okOr file .io
  refuseIf (bytes.length > maxFileBytes) (.toolsetFileTooLarge bytes.length maxFileBytes)
  .ok bytes

def stripLineTerminator (raw : List Char) : List Char :=
  if raw.getLast? = some '\n' then
    if raw.dropLast.getLast? = some '\r' then raw.dropLast.dropLast else raw.dropLast
  else raw

/-- The lines before the closing fence, and the lines behind it. -/
def splitAtFence : List (List Char) → List (List Char) × List (List Char)
  | [] => ([], [])
  | raw :: rest =>
    if stripLineTerminator raw = "---".toList then ([], rest)
    else (raw :: (splitAtFence rest).1, (splitAtFence rest).2)

def splitFrontmatter (content : List Char) :
    Except ToolsetFormatError (List Char × List Char) := do
  let afterOpen ← okOr
    (("---\n".toList.isPrefixOf? content).or ("---\r\n".toList.isPrefixOf? content))
    .missingFrontmatter
  let (frontmatter, body) := splitAtFence (Lines.rawLines '\n' afterOpen)
  .ok (frontmatter.flatten, body.flatten)

def nameMaxLen : ℕ := 64

def descMaxLen : ℕ := 1024

def compatMaxLen : ℕ := 500

def validateName (name : Option String) (dirName : String) : Except ToolsetFormatError Unit := do
  let n ← okOr name .missingName
  refuseIf (n = "") .nameEmpty
  refuseIf (n.toList.length > nameMaxLen) .nameTooLong
  refuseIf (n.toList.all isValidTokenChar = false) .nameInvalidChar
  refuseIf (n.toList.head? = some '-' ∨ n.toList.getLast? = some '-') .nameLeadingTrailingHyphen
  refuseIf (['-', '-'] <:+: n.toList) .nameConsecutiveHyphens
  refuseIf (n ≠ dirName) (.nameDirMismatch n dirName)

def validateDescription (desc : Option String) : Except ToolsetFormatError Unit := do
  let d ← okOr desc .missingDescription
  refuseIf (Utf8.isBlank d.toList) .descriptionEmpty
  refuseIf (d.toList.length > descMaxLen) .descriptionTooLong

def validateCompatibility (compat : Option String) : Except ToolsetFormatError Unit :=
  refuseIf (∃ c ∈ compat, c.toList.length > compatMaxLen) .compatibilityTooLong

structure Toolset where
  name : String
  description : String
  license : Option String
  compatibility : Option String
  metadata : List (String × String)
  allowedTools : List String
  capabilities : CapabilitySet
  instructions : String

/-- `parse_toolset`: the name of the directory, its `TOOLSET.md` and the events of a YAML text. -/
def parseToolset (tokens : List Char → List (Except String Event)) (dirName : String)
    (file : Option (List UInt8)) : Except ToolsetFormatError Toolset := do
  let bytes ← readSizeCapped file
  let content ← okOr (Utf8.decode bytes) .notUtf8
  let (frontmatterYaml, body) ← splitFrontmatter content
  let fm ← parseFrontmatter (tokens frontmatterYaml)
  validateName fm.name dirName
  validateDescription fm.description
  validateCompatibility fm.compatibility
  let capabilities ← extractCapabilities fm.metadata
  .ok
    { name := fm.name.getD ""
      description := fm.description.getD ""
      license := fm.license
      compatibility := fm.compatibility
      metadata := fm.metadata
      allowedTools := fm.allowedTools
      capabilities := capabilities
      instructions := String.ofList body }

/-! ## What the stream stands for -/

inductive Role where
  | key
  | value

/-- The entries of the top-level mapping of the first document. -/
def topEntries : List Node → List (Node × Node)
  | .mapping _ entries :: _ => entries.toList
  | _ => []

def scalarKeyed (entries : List (Node × Node)) : List (String × Node) :=
  entries.filterMap fun entry => entry.1.scalar?.map fun key => (key, entry.2)

/-- What the top-level mapping assigns to a key. -/
def assigned (docs : List Node) (key : String) : Option Node :=
  (scalarKeyed (topEntries docs)).lookup key

def assignedScalar (docs : List Node) (key : String) : Option String :=
  (assigned docs key).bind Node.scalar?

def textEntry (entry : Node × Node) : Option (String × String) :=
  entry.1.scalar?.bind fun key => entry.2.scalar?.map fun value => (key, value)

/-- The entries of a mapping of texts to texts. -/
def scalarEntries : Node → Option (List (String × String))
  | .mapping _ entries => entries.toList.mapM textEntry
  | _ => none

def isMapping : Node → Bool
  | .mapping _ _ => true
  | _ => false

/-- The mapping under `metadata`. -/
def assignedMetadata (docs : List Node) : List (String × String) :=
  ((assigned docs "metadata").bind scalarEntries).getD []

/-- What the machine takes a node of the top-level mapping for; behind a value it waits for a
key. -/
def takenAs (r : FrontmatterReceiver) (ev : Event) : Option Role :=
  match r.state, ev with
  | .topLevelMapping none, .scalar _ _ => some .key
  | .topLevelMapping (some _), .scalar _ _ => some .value
  | .topLevelMapping _, .mappingStart _ => some .value
  | .topLevelMapping _, .sequenceStart _ => some .value
  | _, _ => none

/-- The machine, with what it took the nodes of the top-level mapping for. -/
def observe (o : FrontmatterReceiver × List Role) (ev : Event) : FrontmatterReceiver × List Role :=
  (processEvent o.1 ev, o.2 ++ (takenAs o.1 ev).toList)

/-- What the nodes of the top-level mapping are taken for over a whole stream. -/
def rolesTaken (docs : List Node) : List Role := ((streamEvents docs).foldl observe (.new, [])).2

def roles (entries : List (Node × Node)) : List Role := entries.flatMap fun _ => [.key, .value]

/-- The value read is the one that the node stands for, and there is one where there is a node. -/
def Reads {α : Type} (read : Node → Option α) (node : Option Node) (value : Option α) : Prop :=
  node.map read = value.map some

/-- The manifest has exactly the values that the mapping assigns, and the nodes of the mapping are
taken as keys and values in turn. -/
structure Faithful (docs : List Node) (fm : Frontmatter) : Prop where
  name : Reads Node.scalar? (assigned docs "name") fm.name
  description : Reads Node.scalar? (assigned docs "description") fm.description
  license : Reads Node.scalar? (assigned docs "license") fm.license
  compatibility : Reads Node.scalar? (assigned docs "compatibility") fm.compatibility
  allowedTools : ∃ text, Reads Node.scalar? (assigned docs "allowed-tools") text ∧
    fm.allowedTools = (text.map splitAsciiWhitespace).getD []
  metadata : ∃ map, Reads scalarEntries (assigned docs "metadata") map ∧
    fm.metadata = map.getD []
  capabilities : extractCapabilities fm.metadata = extractCapabilities (assignedMetadata docs)
  roles : rolesTaken docs = roles (topEntries docs)

/-- Every key of the top-level mapping is a scalar. -/
def PlainKeys (docs : List Node) : Prop :=
  ∀ entry ∈ topEntries docs, entry.1.scalar?.isSome = true

/-- The keys with a text for a value. -/
def textKeys : List String := ["name", "description", "license", "compatibility", "allowed-tools"]

/-- What the known keys are assigned has the kind that the wallet reads. -/
structure PlainValues (docs : List Node) : Prop where
  text : ∀ key ∈ textKeys, ∀ value, assigned docs key = some value → value.scalar?.isSome = true
  metadata : ∀ value, assigned docs "metadata" = some value → isMapping value = true

/-- The texts of the mapping are read; a value of another kind is passed over, but in `metadata`. -/
structure TextsRead (docs : List Node) (fm : Frontmatter) : Prop where
  name : fm.name = assignedScalar docs "name"
  description : fm.description = assignedScalar docs "description"
  license : fm.license = assignedScalar docs "license"
  compatibility : fm.compatibility = assignedScalar docs "compatibility"
  allowedTools : fm.allowedTools =
    ((assignedScalar docs "allowed-tools").map splitAsciiWhitespace).getD []
  metadata : fm.metadata = assignedMetadata docs
  entries : ∀ value, assigned docs "metadata" = some value → isMapping value = true →
    (scalarEntries value).isSome = true
  roles : rolesTaken docs = roles (topEntries docs)

/-! ## Runs -/

section

variable {o o' : FrontmatterReceiver × List Role} {r : FrontmatterReceiver} {l : List Role}
  {ev : Event} {evs evs' : List Event} {docs : List Node} {fm : Frontmatter}

def Failed (o : FrontmatterReceiver × List Role) : Prop := o.1.error.isSome = true

theorem observe_failed (h : Failed o) : Failed (observe o ev) := by
  unfold Failed observe processEvent at *
  rw [if_pos h]
  exact h

theorem run_failed (h : Failed o) : Failed (evs.foldl observe o) := by
  induction evs generalizing o with
  | nil => exact h
  | cons ev evs ih => exact ih (observe_failed h)

theorem isPrefix_run : o.2 <+: (evs.foldl observe o).2 := by
  induction evs generalizing o with
  | nil => exact prefix_refl _
  | cons ev evs ih => exact (prefix_append _ _).trans (ih (o := observe o ev))

theorem run_fst : (evs.foldl observe o).1 = evs.foldl processEvent o.1 := by
  induction evs generalizing o with
  | nil => rfl
  | cons ev evs ih => exact ih

theorem receive_eq_ok (hend : Event.streamEnd ∉ evs)
    (h : receive r ((evs ++ [Event.streamEnd]).map .ok) = .ok fm) :
    ((evs ++ [Event.streamEnd]).foldl processEvent r).error = none ∧
      ((evs ++ [Event.streamEnd]).foldl processEvent r).frontmatter = fm := by
  induction evs generalizing r with
  | nil =>
    simp only [nil_append, map_cons, receive] at h
    split at h
    · cases h
    · rename_i herror
      exact ⟨herror, Except.ok.inj h⟩
  | cons ev evs ih =>
    rw [mem_cons, not_or] at hend
    simp only [cons_append, map_cons, receive, if_neg (Ne.symm hend.1)] at h
    split at h
    · cases h
    · exact ih hend.2 h

/-! ## What a step can do -/

variable {entries : List (String × Node)} {n : Node} {key value : String} {anchorId : ℕ}
  {currentKey : Option String} {α : Type}

theorem observe_eq (hr : r.error = none) (htrack : (r.track ev).error = none) :
    observe (r, l) ev = ((r.track ev).dispatch ev, l ++ (takenAs r ev).toList) := by
  unfold observe processEvent
  rw [hr, htrack]
  rfl

theorem failed_setError {err : ToolsetFormatError} : Failed (r.setError err, l) := by
  unfold Failed FrontmatterReceiver.setError
  cases r.error <;> rfl

theorem failed_of_track (h : Failed (r.track ev, l)) : Failed (observe (r, l) ev) := by
  unfold Failed observe processEvent at *
  split_ifs with hr
  · exact hr
  · exact h

theorem observe_alias (anchorId : ℕ) : Failed (observe (r, l) (.aliasOf anchorId)) :=
  failed_of_track (failed_setError (l := l))

theorem observe_scalar (hr : r.error = none) (value : String) (anchorId : ℕ) :
    Failed (observe (r, l) (.scalar value anchorId)) ∨ observe (r, l) (.scalar value anchorId) =
        (r.dispatch (.scalar value anchorId),
          l ++ (takenAs r (.scalar value anchorId)).toList) := by
  by_cases hanchor : anchorId = 0
  · right
    have htrack : r.track (.scalar value anchorId) = r := if_neg (not_not.2 hanchor)
    rw [observe_eq hr (by rw [htrack, hr]), htrack]
  · left
    refine failed_of_track ?_
    have htrack : r.track (.scalar value anchorId) = r.setError .yamlAnchorsForbidden :=
      if_pos hanchor
    rw [htrack]
    exact failed_setError

theorem observe_start (ev : Event) (hr : r.error = none) (hev : r.track ev = r.enter anchorId) :
    Failed (observe (r, l) ev) ∨ observe (r, l) ev =
        ({ r with depth := r.depth + 1 }.dispatch ev, l ++ (takenAs r ev).toList) := by
  rcases em (anchorId = 0 ∧ r.depth + 1 ≤ FrontmatterReceiver.maxDepth)
    with ⟨hanchor, hdepth⟩ | hbad
  · right
    have htrack : r.track ev = { r with depth := r.depth + 1 } := by
      rw [hev]
      unfold FrontmatterReceiver.enter
      rw [if_neg (not_not.2 hanchor), if_neg (by omega)]
    rw [observe_eq hr (by rw [htrack]; exact hr), htrack]
  · left
    refine failed_of_track ?_
    rw [hev]
    unfold FrontmatterReceiver.enter
    split_ifs with hanchor hdepth
    · exact failed_setError
    · exact failed_setError
    · exact absurd ⟨not_not.1 hanchor, not_lt.1 hdepth⟩ hbad

theorem observe_end (ev : Event) (hr : r.error = none)
    (hev : r.track ev = { r with depth := r.depth - 1 }) :
    observe (r, l) ev =
      ({ r with depth := r.depth - 1 }.dispatch ev, l ++ (takenAs r ev).toList) := by
  rw [observe_eq hr (by rw [hev]; exact hr), hev]

/-! ## Values that are passed over -/

/-- Inside of a value that is passed over, `d` collections below it. -/
def skippingAt (r : FrontmatterReceiver) (returnDepth d : ℕ) : FrontmatterReceiver :=
  { r with state := .skippingUnknown returnDepth, depth := returnDepth + 1 + d }

theorem observe_failed_or {o o' x : FrontmatterReceiver × List Role} {ev : Event}
    (h : Failed o ∨ o = x) (hx : Failed (observe x ev) ∨ observe x ev = o') :
    Failed (observe o ev) ∨ observe o ev = o' := by
  rcases h with h | rfl
  · exact .inl (observe_failed h)
  · exact hx

theorem skims_skipping (hr : r.error = none) (returnDepth : ℕ) :
    Skims observe fun d o => Failed o ∨ o = (skippingAt r returnDepth d, l) where
  aliasOf anchorId h := observe_failed_or h (.inl (observe_alias anchorId))
  scalar {d} _ value anchorId h := by
    refine observe_failed_or h ((observe_scalar (r := skippingAt r returnDepth d) hr value
      anchorId).imp_right fun h => ?_)
    exact h.trans (congrArg _ (append_nil l))
  sequenceStart {d} _ anchorId h := by
    refine observe_failed_or h ((observe_start (r := skippingAt r returnDepth d)
      (.sequenceStart anchorId) hr rfl).imp_right fun h => ?_)
    exact h.trans (congrArg _ (append_nil l))
  sequenceEnd {d} _ h := by
    refine observe_failed_or h (.inr ((observe_end (r := skippingAt r returnDepth (d + 1))
      .sequenceEnd hr rfl).trans ?_))
    have hdepth : returnDepth + 1 + (d + 1) - 1 ≠ returnDepth := by omega
    exact Prod.ext (if_neg hdepth) (append_nil l)
  mappingStart {d} _ anchorId h := by
    refine observe_failed_or h ((observe_start (r := skippingAt r returnDepth d)
      (.mappingStart anchorId) hr rfl).imp_right fun h => ?_)
    exact h.trans (congrArg _ (append_nil l))
  mappingEnd {d} _ h := by
    refine observe_failed_or h (.inr ((observe_end (r := skippingAt r returnDepth (d + 1))
      .mappingEnd hr rfl).trans ?_))
    have hdepth : returnDepth + 1 + (d + 1) - 1 ≠ returnDepth := by omega
    exact Prod.ext (if_neg hdepth) (append_nil l)

theorem run_collection (hr : r.error = none) {start finish : Event} {content : List Event}
    (hstart : r.track start = r.enter anchorId)
    (hdispatch : { r with depth := r.depth + 1 }.dispatch start = skippingAt r r.depth 0)
    (htaken : takenAs r start = some .value)
    (hcontent : ∀ {o}, (Failed o ∨ o = (skippingAt r r.depth 0, l ++ [.value])) → Failed
      (content.foldl observe o) ∨ content.foldl observe o = (skippingAt r r.depth 0, l ++ [.value]))
    (hfinish : finish = .sequenceEnd ∨ finish = .mappingEnd) :
    Failed ((start :: (content ++ [finish])).foldl observe (r, l)) ∨
      (start :: (content ++ [finish])).foldl observe (r, l) =
        ({ r with state := .topLevelMapping none }, l ++ [.value]) := by
  rw [foldl_cons, foldl_append, foldl_cons]
  have hinside : Failed (observe (r, l) start) ∨
      observe (r, l) start = (skippingAt r r.depth 0, l ++ [.value]) := by
    rcases observe_start start hr hstart with h | h
    · exact .inl h
    · rw [hdispatch, htaken] at h
      exact .inr h
  rcases hcontent hinside with h | h
  · exact .inl (observe_failed h)
  · right
    rw [h]
    have hdepth : (skippingAt r r.depth 0).depth - 1 = r.depth := by
      change r.depth + 1 + 0 - 1 = r.depth
      omega
    rcases hfinish with rfl | rfl
    · rw [observe_end .sequenceEnd (r := skippingAt r r.depth 0) hr rfl]
      exact Prod.ext (if_pos rfl) (append_nil _)
    · rw [observe_end .mappingEnd (r := skippingAt r r.depth 0) hr rfl]
      exact Prod.ext (if_pos rfl) (append_nil _)

/-- **A structured node of the top-level mapping is taken for a value**, unless it is `metadata`. -/
theorem run_structured (hr : r.error = none) (hstate : r.state = .topLevelMapping currentKey)
    (hn : n.scalar? = none) (hmetadata : currentKey = some "metadata" → isMapping n = false) :
    Failed (n.events.foldl observe (r, l)) ∨ n.events.foldl observe (r, l) =
        ({ r with state := .topLevelMapping none }, l ++ [.value]) := by
  cases n with
  | aliasOf anchorId => exact .inl (observe_alias anchorId)
  | scalar value anchorId => cases hn
  | sequence anchorId items =>
    refine run_collection hr (rfl : _ = r.enter anchorId) ?_ ?_
      (fun h => (skims_skipping hr r.depth).nodes items h) (.inl rfl)
    · simp [FrontmatterReceiver.dispatch, hstate, FrontmatterReceiver.inTopLevelMapping,
        FrontmatterReceiver.skipUnknown, skippingAt]
    · simp [takenAs, hstate]
  | mapping anchorId entries =>
    have hkey : currentKey ≠ some "metadata" := fun h => Bool.noConfusion (hmetadata h)
    refine run_collection hr (rfl : _ = r.enter anchorId) ?_ ?_
      (fun h => (skims_skipping hr r.depth).entries entries h) (.inr rfl)
    · simp [FrontmatterReceiver.dispatch, hstate, FrontmatterReceiver.inTopLevelMapping, hkey,
        FrontmatterReceiver.skipUnknown, skippingAt]
    · simp [takenAs, hstate]

/-! ## The metadata mapping -/

theorem run_structured_metadata (hr : r.error = none)
    (hstate : r.state = .metadataMapping currentKey) (hn : n.scalar? = none) :
    Failed (n.events.foldl observe (r, l)) := by
  have hstart : ∀ (start : Event) (anchorId : ℕ), r.track start = r.enter anchorId →
      { r with depth := r.depth + 1 }.dispatch start =
        { r with depth := r.depth + 1 }.structuredMetadata currentKey →
      Failed (observe (r, l) start) := by
    intro start anchorId htrack hdispatch
    rcases observe_start start hr htrack with h | h
    · exact h
    · rw [h, hdispatch]
      unfold FrontmatterReceiver.structuredMetadata
      split_ifs <;> exact failed_setError
  cases n with
  | aliasOf anchorId => exact observe_alias anchorId
  | scalar value anchorId => cases hn
  | sequence anchorId items =>
    rw [Node.events, foldl_cons]
    refine run_failed (hstart (.sequenceStart anchorId) anchorId rfl ?_)
    simp [FrontmatterReceiver.dispatch, hstate, FrontmatterReceiver.inMetadataMapping]
  | mapping anchorId entries =>
    rw [Node.events, foldl_cons]
    refine run_failed (hstart (.mappingStart anchorId) anchorId rfl ?_)
    simp [FrontmatterReceiver.dispatch, hstate, FrontmatterReceiver.inMetadataMapping]

theorem eq_scalar (h : n.scalar? = some value) : ∃ anchorId, n = .scalar value anchorId := by
  cases n with
  | scalar value' anchorId =>
    cases h
    exact ⟨anchorId, rfl⟩
  | aliasOf anchorId => cases h
  | sequence anchorId items => cases h
  | mapping anchorId entries => cases h

theorem insertEntry_of_notMem {map : List (String × String)} (h : ∀ entry ∈ map, entry.1 ≠ key) :
    insertEntry key value map = map ++ [(key, value)] := by
  unfold insertEntry
  rw [filter_eq_self.2 fun entry hentry => decide_eq_true (h entry hentry)]

/-- The receiver inside of `metadata`, where every key of the map has been seen. -/
structure InMetadata (r : FrontmatterReceiver) : Prop where
  error : r.error = none
  state : r.state = .metadataMapping none
  seen : ∀ entry ∈ r.frontmatter.metadata, entry.1 ∈ r.metadataSeenKeys

/-- One more entry of `metadata`. -/
def withMetadata (r : FrontmatterReceiver) (key value : String) : FrontmatterReceiver :=
  { r with
    frontmatter := { r.frontmatter with metadata := r.frontmatter.metadata ++ [(key, value)] }
    metadataSeenKeys := key :: r.metadataSeenKeys }

theorem InMetadata.withMetadata (h : InMetadata r) (key value : String) :
    InMetadata (withMetadata r key value) where
  error := h.error
  state := h.state
  seen entry hentry := by
    rcases mem_append.1 hentry with hentry | hentry
    · exact mem_cons_of_mem key (h.seen entry hentry)
    · rw [mem_singleton.1 hentry]
      exact mem_cons_self

/-- A key of `metadata` has been read. -/
def atMetadataKey (r : FrontmatterReceiver) (key : String) : FrontmatterReceiver :=
  { r with
    metadataSeenKeys := key :: r.metadataSeenKeys
    state := .metadataMapping (some key) }

theorem run_metadataEntry (h : InMetadata r) (key value : Node) :
    Failed ((key.events ++ value.events).foldl observe (r, l)) ∨
      ∃ k v, key.scalar? = some k ∧ value.scalar? = some v ∧
        (key.events ++ value.events).foldl observe (r, l) = (withMetadata r k v, l) := by
  rw [foldl_append]
  rcases hkey : key.scalar? with - | k
  · exact .inl (run_failed (run_structured_metadata h.error h.state hkey))
  obtain ⟨anchorId, rfl⟩ := eq_scalar hkey
  -- the key
  have hstep : Failed (observe (r, l) (.scalar k anchorId)) ∨
      k ∉ r.metadataSeenKeys ∧ observe (r, l) (.scalar k anchorId) =
        (atMetadataKey r k, l) := by
    rcases observe_scalar h.error k anchorId with hfail | heq
    · exact .inl hfail
    have hdispatch : r.dispatch (.scalar k anchorId) = r.metadataScalar k none := by
      simp [FrontmatterReceiver.dispatch, h.state, FrontmatterReceiver.inMetadataMapping]
    rw [hdispatch] at heq
    unfold FrontmatterReceiver.metadataScalar at heq
    split_ifs at heq with hseen hreserved
    · exact .inl (heq ▸ failed_setError)
    · exact .inl (heq ▸ failed_setError)
    · refine .inr ⟨hseen, heq.trans ?_⟩
      simp [takenAs, h.state, atMetadataKey]
  rcases hstep with hfail | ⟨hfresh, hstep⟩
  · exact .inl (run_failed hfail)
  have hevents : (Node.scalar k anchorId).events = [.scalar k anchorId] := rfl
  rw [hevents, foldl_cons, hstep]
  rcases hvalue : value.scalar? with - | v
  · exact .inl (run_structured_metadata h.error rfl hvalue)
  obtain ⟨anchorId', rfl⟩ := eq_scalar hvalue
  -- the value
  refine (observe_scalar (r := atMetadataKey r k) h.error v anchorId').imp_right
    fun heq => ?_
  refine ⟨k, v, rfl, rfl, heq.trans (Prod.ext ?_ (append_nil l))⟩
  have hinsert : insertEntry k v r.frontmatter.metadata = r.frontmatter.metadata ++ [(k, v)] :=
    insertEntry_of_notMem fun entry hentry heq => hfresh (heq ▸ h.seen entry hentry)
  simp [FrontmatterReceiver.dispatch, FrontmatterReceiver.inMetadataMapping, atMetadataKey,
    FrontmatterReceiver.metadataScalar, hinsert, withMetadata, h.state]

/-- Entries of `metadata` have been read. -/
def withEntries (r : FrontmatterReceiver) (entries : List (String × String)) (seen : List String) :
    FrontmatterReceiver :=
  { r with
    frontmatter := { r.frontmatter with metadata := r.frontmatter.metadata ++ entries }
    metadataSeenKeys := seen }

theorem run_metadata (entries : List (Node × Node)) (h : InMetadata r) :
    Failed ((entries.flatMap fun entry => entry.1.events ++ entry.2.events).foldl observe (r, l)) ∨
      ∃ texts seen, entries.mapM textEntry = some texts ∧
        (entries.flatMap fun entry => entry.1.events ++ entry.2.events).foldl observe (r, l) =
          (withEntries r texts seen, l) := by
  induction entries generalizing r with
  | nil => exact .inr ⟨[], r.metadataSeenKeys, rfl, by simp [withEntries]⟩
  | cons entry entries ih =>
    rw [flatMap_cons, foldl_append]
    rcases run_metadataEntry h entry.1 entry.2 with hfail | ⟨k, v, hk, hv, hstep⟩
    · exact .inl (run_failed hfail)
    rw [hstep]
    refine (ih (h.withMetadata k v)).imp_right ?_
    rintro ⟨texts, seen, htexts, hrun⟩
    refine ⟨(k, v) :: texts, seen, ?_, hrun.trans ?_⟩
    · simp [mapM_cons, textEntry, hk, hv, htexts]
    · simp [withMetadata, withEntries]

/-! ## The top-level mapping -/

/-- The receiver between two entries of the top-level mapping. -/
structure Aligned (r : FrontmatterReceiver) : Prop where
  error : r.error = none
  state : r.state = .topLevelMapping none
  fresh : "metadata" ∉ r.topLevelSeenKeys →
    r.frontmatter.metadata = [] ∧ r.metadataSeenKeys = []

def assign (fm : Frontmatter) (key : String) (value : Node) : Frontmatter :=
  match value with
  | .scalar text _ => fm.setScalar key text
  | .mapping _ _ =>
    if key = "metadata" then { fm with metadata := (scalarEntries value).getD fm.metadata } else fm
  | _ => fm

/-- A key of the top-level mapping has been read. -/
def atKey (r : FrontmatterReceiver) (key : String) : FrontmatterReceiver :=
  { r with
    topLevelSeenKeys := key :: r.topLevelSeenKeys
    state := .topLevelMapping (some key) }

/-- The start of `metadata` has been read. -/
def enterMetadata (r : FrontmatterReceiver) : FrontmatterReceiver :=
  { r with depth := r.depth + 1, state := .metadataMapping none }

theorem observe_key (h : Aligned r) (key : String) (anchorId : ℕ) :
    Failed (observe (r, l) (.scalar key anchorId)) ∨ key ∉ r.topLevelSeenKeys ∧
        observe (r, l) (.scalar key anchorId) = (atKey r key, l ++ [.key]) := by
  rcases observe_scalar h.error key anchorId with hfail | heq
  · exact .inl hfail
  have hdispatch : r.dispatch (.scalar key anchorId) = r.topLevelScalar key none := by
    simp [FrontmatterReceiver.dispatch, h.state, FrontmatterReceiver.inTopLevelMapping]
  rw [hdispatch] at heq
  unfold FrontmatterReceiver.topLevelScalar at heq
  split_ifs at heq with hseen
  · exact .inl (heq ▸ failed_setError)
  · refine .inr ⟨hseen, heq.trans ?_⟩
    simp [takenAs, h.state, atKey]

theorem setScalar_metadata (fm : Frontmatter) (key text : String) :
    (fm.setScalar key text).metadata = fm.metadata := by
  unfold Frontmatter.setScalar
  split_ifs <;> rfl

/-- `r'` has read the key and its value behind `r`. -/
structure ReadValue (r : FrontmatterReceiver) (key : String) (value : Node)
    (r' : FrontmatterReceiver) : Prop where
  frontmatter : r'.frontmatter = assign r.frontmatter key value
  seen : r'.topLevelSeenKeys = key :: r.topLevelSeenKeys
  aligned : Aligned r'
  texts : key = "metadata" → isMapping value = true → (scalarEntries value).isSome = true

theorem run_value (h : Aligned r) (hkey : key ∉ r.topLevelSeenKeys) (value : Node) :
    Failed (value.events.foldl observe (atKey r key, l)) ∨
      ∃ r', value.events.foldl observe (atKey r key, l) = (r', l ++ [.value]) ∧
        ReadValue r key value r' := by
  have hfresh : "metadata" ∉ key :: r.topLevelSeenKeys →
      r.frontmatter.metadata = [] ∧ r.metadataSeenKeys = [] :=
    fun hnot => h.fresh fun hmem => hnot (mem_cons_of_mem key hmem)
  -- a value that is passed over
  have hskip : value.scalar? = none → (some key = some "metadata" → isMapping value = false) →
      assign r.frontmatter key value = r.frontmatter →
      Failed (value.events.foldl observe (atKey r key, l)) ∨
        ∃ r', value.events.foldl observe (atKey r key, l) = (r', l ++ [.value]) ∧
          ReadValue r key value r' := by
    intro hscalar hmetadata hassign
    refine (run_structured (r := atKey r key) h.error rfl hscalar hmetadata).imp_right
      fun hrun => ?_
    refine ⟨_, hrun, hassign.symm, rfl, ⟨h.error, rfl, hfresh⟩, fun hkey hmapping => ?_⟩
    rw [hmetadata (congrArg some hkey)] at hmapping
    cases hmapping
  cases value with
  | aliasOf anchorId => exact .inl (observe_alias anchorId)
  | scalar text anchorId =>
    refine (observe_scalar (r := atKey r key) h.error text anchorId).imp_right
      fun heq => ?_
    refine ⟨_, heq, rfl, rfl, ⟨h.error, rfl, fun hnot => ?_⟩, fun _ hmapping => by cases hmapping⟩
    exact ⟨(setScalar_metadata _ _ _).trans (hfresh hnot).1, (hfresh hnot).2⟩
  | sequence anchorId items => exact hskip rfl (fun _ => rfl) rfl
  | mapping anchorId entries =>
    by_cases hmetadata : key = "metadata"
    · subst hmetadata
      obtain ⟨hempty, -⟩ := h.fresh hkey
      rw [Node.events, foldl_cons, foldl_append, Entries.events_eq]
      rcases observe_start (r := atKey r "metadata") (.mappingStart anchorId) h.error rfl
        with hfail | hstart
      · exact .inl (run_failed (run_failed hfail))
      have hinside : InMetadata (enterMetadata (atKey r "metadata")) :=
        ⟨h.error, rfl, fun entry hentry => by
          rw [show (enterMetadata (atKey r "metadata")).frontmatter.metadata = [] from hempty]
            at hentry
          cases hentry⟩
      rw [show observe (atKey r "metadata", l) (.mappingStart anchorId) =
        (enterMetadata (atKey r "metadata"), l ++ [.value]) from hstart]
      rcases run_metadata entries.toList hinside with hfail | ⟨texts, seen, htexts, hrun⟩
      · exact .inl (run_failed hfail)
      right
      have hentries : scalarEntries (.mapping anchorId entries) = some texts := htexts
      rw [hrun, foldl_cons]
      refine ⟨_, (observe_end (r := withEntries (enterMetadata (atKey r "metadata")) texts seen)
        .mappingEnd h.error rfl).trans (Prod.ext rfl (append_nil _)), ?_, rfl,
          ⟨h.error, rfl, fun hnot => absurd mem_cons_self hnot⟩, fun _ _ => by rw [hentries]; rfl⟩
      have hfm : (withEntries (enterMetadata (atKey r "metadata")) texts seen).frontmatter =
          { r.frontmatter with metadata := texts } := by
        simp [withEntries, enterMetadata, atKey, hempty]
      have hassign : assign r.frontmatter "metadata" (.mapping anchorId entries) =
          { r.frontmatter with metadata := texts } := by
        simp [assign, hentries]
      exact hfm.trans hassign.symm
    · refine hskip rfl (fun hsome => absurd (Option.some.inj hsome) hmetadata) ?_
      exact if_neg hmetadata

theorem run_entry (h : Aligned r) {entry : Node × Node} (hkey : entry.1.scalar? = some key) :
    Failed ((entry.1.events ++ entry.2.events).foldl observe (r, l)) ∨
      ∃ r', (entry.1.events ++ entry.2.events).foldl observe (r, l) = (r', l ++ [.key, .value]) ∧
        key ∉ r.topLevelSeenKeys ∧ ReadValue r key entry.2 r' := by
  obtain ⟨node, value⟩ := entry
  obtain ⟨anchorId, rfl⟩ := eq_scalar hkey
  rw [foldl_append]
  have hevents : (Node.scalar key anchorId).events = [.scalar key anchorId] := rfl
  rw [hevents, foldl_cons, foldl_nil]
  rcases observe_key h key anchorId with hfail | ⟨hnew, hstep⟩
  · exact .inl (run_failed hfail)
  rw [hstep]
  refine (run_value h hnew value).imp_right ?_
  rintro ⟨r', hrun, hr'⟩
  exact ⟨r', by rw [hrun, append_assoc]; rfl, hnew, hr'⟩

def entryEvents (entries : List (Node × Node)) : List Event :=
  entries.flatMap fun entry => entry.1.events ++ entry.2.events

/-- **The entries of a mapping with plain keys are read one after the other**, and no key twice. -/
theorem run_entries (h : Aligned r) {entries : List (Node × Node)}
    (hplain : ∀ entry ∈ entries, entry.1.scalar?.isSome = true) :
    Failed ((entryEvents entries).foldl observe (r, l)) ∨
      ∃ r', (entryEvents entries).foldl observe (r, l) = (r', l ++ roles entries) ∧ Aligned r' ∧
        r'.frontmatter =
          (scalarKeyed entries).foldl (fun fm entry => assign fm entry.1 entry.2) r.frontmatter ∧
        ((scalarKeyed entries).map Prod.fst).Nodup ∧
        (∀ key ∈ (scalarKeyed entries).map Prod.fst, key ∉ r.topLevelSeenKeys) ∧
        ∀ value, ("metadata", value) ∈ scalarKeyed entries → isMapping value = true →
          (scalarEntries value).isSome = true := by
  induction entries generalizing r l with
  | nil =>
    exact .inr ⟨r, by simp [entryEvents, roles], h, rfl, nodup_nil, by simp [scalarKeyed],
      by simp [scalarKeyed]⟩
  | cons entry entries ih =>
    obtain ⟨key, hkey⟩ := Option.isSome_iff_exists.1 (hplain entry mem_cons_self)
    have hkeyed : scalarKeyed (entry :: entries) = (key, entry.2) :: scalarKeyed entries := by
      simp [scalarKeyed, hkey]
    unfold entryEvents
    rw [flatMap_cons, foldl_append, hkeyed]
    rcases run_entry h hkey with hfail | ⟨r₁, hrun, hnew, hfm, hseen, h₁, htexts⟩
    · exact .inl (run_failed hfail)
    rw [hrun]
    refine (ih h₁ fun e he => hplain e (mem_cons_of_mem entry he)).imp_right ?_
    rintro ⟨r', hrest, hr', hfm', hnodup, hfresh, htexts'⟩
    rw [hseen] at hfresh
    refine ⟨r', ?_, hr', ?_, ?_, ?_, ?_⟩
    · exact hrest.trans (by simp [roles])
    · rw [hfm', hfm]
      rfl
    · rw [map_cons, nodup_cons]
      exact ⟨fun hmem => hfresh key hmem mem_cons_self, hnodup⟩
    · intro k hk
      rcases mem_cons.1 hk with rfl | hk
      · exact hnew
      · exact fun hmem => hfresh k hk (mem_cons_of_mem key hmem)
    · intro value hvalue
      rcases mem_cons.1 hvalue with heq | hvalue
      · obtain ⟨rfl, rfl⟩ := Prod.mk.inj heq
        exact htexts rfl
      · exact htexts' value hvalue

/-- **A structured key is taken for a value**, where a key is due. -/
theorem run_structured_key (h : Aligned r) {entries : List (Node × Node)}
    (hkey : ∃ entry ∈ entries, entry.1.scalar? = none) :
    Failed ((entryEvents entries).foldl observe (r, l)) ∨
      ∃ before, before <+: entries ∧ before ≠ entries ∧
        l ++ roles before ++ [.value] <+: ((entryEvents entries).foldl observe (r, l)).2 := by
  induction entries generalizing r l with
  | nil =>
    obtain ⟨entry, hmem, -⟩ := hkey
    cases hmem
  | cons entry entries ih =>
    unfold entryEvents
    rw [flatMap_cons, foldl_append]
    rcases hscalar : entry.1.scalar? with - | key
    · rw [foldl_append]
      rcases run_structured h.error h.state hscalar (fun hnone => by cases hnone)
        with hfail | hrun
      · exact .inl (run_failed (run_failed hfail))
      · refine .inr ⟨[], nil_prefix, by simp, ?_⟩
        rw [hrun]
        refine List.IsPrefix.trans ?_ (isPrefix_run.trans isPrefix_run)
        simp [roles]
    · rcases run_entry h hscalar with hfail | ⟨r₁, hrun, -, -, -, h₁, -⟩
      · exact .inl (run_failed hfail)
      have hrest : ∃ e ∈ entries, e.1.scalar? = none := by
        obtain ⟨e, he, hnone⟩ := hkey
        rcases mem_cons.1 he with rfl | he
        · rw [hscalar] at hnone
          cases hnone
        · exact ⟨e, he, hnone⟩
      rw [hrun]
      refine (ih h₁ hrest).imp_right ?_
      rintro ⟨before, hbefore, hne, hroles⟩
      refine ⟨entry :: before, (cons_prefix_cons).2 ⟨rfl, hbefore⟩, fun heq => ?_, ?_⟩
      · exact hne (List.cons.inj heq).2
      · refine List.IsPrefix.trans ?_ hroles
        simp [roles]

/-! ## The whole stream -/

theorem track_keeps (h : (r.track ev).error = none) :
    (r.track ev).state = r.state ∧ (r.track ev).frontmatter = r.frontmatter := by
  have hset : ∀ {r : FrontmatterReceiver} {err : ToolsetFormatError},
      (r.setError err).error ≠ none := fun {r err} => by
    unfold FrontmatterReceiver.setError
    cases r.error <;> simp
  have henter : ∀ anchorId, (r.enter anchorId).error = none →
      (r.enter anchorId).state = r.state ∧ (r.enter anchorId).frontmatter = r.frontmatter := by
    intro anchorId h
    unfold FrontmatterReceiver.enter at h ⊢
    split_ifs at h ⊢
    · exact absurd h hset
    · exact absurd h hset
    · exact ⟨rfl, rfl⟩
  cases ev with
  | aliasOf anchorId => exact absurd h hset
  | sequenceStart anchorId | mappingStart anchorId => exact henter anchorId h
  | scalar value anchorId =>
    unfold FrontmatterReceiver.track at h ⊢
    dsimp only at h ⊢
    split_ifs at h ⊢
    · exact absurd h hset
    · exact ⟨rfl, rfl⟩
  | _ => exact ⟨rfl, rfl⟩

theorem observe_done (hr : r.error = none) (hstate : r.state = .done) (ev : Event) :
    Failed (observe (r, l) ev) ∨
      ∃ r', observe (r, l) ev = (r', l) ∧ r'.error = none ∧ r'.state = .done ∧
        r'.frontmatter = r.frontmatter := by
  rcases htrack : (r.track ev).error with - | err
  · obtain ⟨hstate', hfm⟩ := track_keeps htrack
    have hdispatch : (r.track ev).dispatch ev = r.track ev := by
      unfold FrontmatterReceiver.dispatch
      rw [hstate', hstate]
    refine .inr ⟨r.track ev, ?_, htrack, hstate'.trans hstate, hfm⟩
    rw [observe_eq hr htrack, hdispatch]
    simp [takenAs, hstate]
  · refine .inl (failed_of_track ?_)
    unfold Failed
    rw [htrack]
    rfl

theorem run_done (evs : List Event) (hr : r.error = none) (hstate : r.state = .done) :
    Failed (evs.foldl observe (r, l)) ∨ (evs.foldl observe (r, l)).1.frontmatter = r.frontmatter ∧
        (evs.foldl observe (r, l)).2 = l := by
  induction evs generalizing r with
  | nil => exact .inr ⟨rfl, rfl⟩
  | cons ev evs ih =>
    rw [foldl_cons]
    rcases observe_done hr hstate ev with hfail | ⟨r', hstep, hr', hstate', hfm⟩
    · exact .inl (run_failed hfail)
    · rw [hstep, ← hfm]
      exact ih hr' hstate'

theorem foldl_assign (field : Frontmatter → α) (read : Node → Option α) (key : String)
    (hfield : ∀ fm k value, field (assign fm k value) =
      if k = key then (read value).getD (field fm) else field fm)
    (hnodup : (entries.map Prod.fst).Nodup) (fm : Frontmatter) :
    field (entries.foldl (fun fm entry => assign fm entry.1 entry.2) fm) =
      ((entries.lookup key).bind read).getD (field fm) := by
  induction entries generalizing fm with
  | nil => rfl
  | cons entry entries ih =>
    obtain ⟨k, value⟩ := entry
    rw [map_cons, nodup_cons] at hnodup
    rw [foldl_cons, ih hnodup.2, hfield]
    by_cases hk : k = key
    · subst hk
      have hnone : entries.lookup k = none := by
        rw [lookup_eq_none_iff]
        intro e he
        simp only [bne_iff_ne]
        rintro rfl
        exact hnodup.1 (mem_map.2 ⟨e, he, rfl⟩)
      rw [hnone, if_pos rfl, lookup_cons_self]
      rfl
    · rw [if_neg hk, lookup_cons]
      simp [beq_eq_false_iff_ne.2 (Ne.symm hk)]

section

variable (hnodup : (entries.map Prod.fst).Nodup)
include hnodup

theorem foldl_assign_scalar (field : Frontmatter → α) (key : String) (read : String → α)
    (hscalar : ∀ fm k text, field (fm.setScalar k text) = if k = key then read text else field fm)
    (hmetadata : ∀ fm m, field { fm with metadata := m } = field fm) :
    field (entries.foldl (fun fm entry => assign fm entry.1 entry.2) .empty) =
      (((entries.lookup key).bind Node.scalar?).map read).getD (field .empty) := by
  have hfield : ∀ fm k value, field (assign fm k value) =
      if k = key then (value.scalar?.map read).getD (field fm) else field fm := by
    intro fm k value
    cases value with
    | scalar text anchorId => exact hscalar fm k text
    | mapping anchorId entries =>
      have hsame : field (assign fm k (.mapping anchorId entries)) = field fm := by
        unfold assign
        split_ifs
        · exact hmetadata fm _
        · rfl
      rw [hsame]
      exact (ite_self _).symm
    | aliasOf anchorId | sequence anchorId items => exact (ite_self _).symm
  rw [foldl_assign field (fun value => value.scalar?.map read) key hfield hnodup]
  cases entries.lookup key <;> rfl

theorem foldl_assign_text (field : Frontmatter → Option String) (key : String)
    (hscalar : ∀ fm k text, field (fm.setScalar k text) = if k = key then some text else field fm)
    (hmetadata : ∀ fm m, field { fm with metadata := m } = field fm) (hempty : field .empty = none) :
    field (entries.foldl (fun fm entry => assign fm entry.1 entry.2) .empty) =
      (entries.lookup key).bind Node.scalar? := by
  rw [foldl_assign_scalar hnodup field key some hscalar hmetadata, hempty]
  cases (entries.lookup key).bind Node.scalar? <;> rfl

theorem foldl_assign_metadata :
    (entries.foldl (fun fm entry => assign fm entry.1 entry.2) .empty).metadata =
      ((entries.lookup "metadata").bind scalarEntries).getD [] := by
  refine foldl_assign Frontmatter.metadata scalarEntries "metadata" (fun fm k value => ?_) hnodup _
  cases value with
  | scalar text anchorId => exact (setScalar_metadata fm k text).trans (ite_self _).symm
  | mapping anchorId entries =>
    unfold assign
    split_ifs <;> rfl
  | aliasOf anchorId | sequence anchorId items => exact (ite_self _).symm

end

theorem textsRead_of_foldl (hnodup : ((scalarKeyed (topEntries docs)).map Prod.fst).Nodup)
    (hfm : fm = (scalarKeyed (topEntries docs)).foldl (fun fm entry => assign fm entry.1 entry.2)
      .empty) (hroles : rolesTaken docs = roles (topEntries docs))
    (htexts : ∀ value, ("metadata", value) ∈ scalarKeyed (topEntries docs) →
      isMapping value = true → (scalarEntries value).isSome = true) : TextsRead docs fm := by
  have hmetadata : fm.metadata = assignedMetadata docs := hfm ▸ foldl_assign_metadata hnodup
  have hassigned : ∀ value, assigned docs "metadata" = some value →
      ("metadata", value) ∈ scalarKeyed (topEntries docs) := by
    intro value hvalue
    obtain ⟨before, after, hsplit, -⟩ := lookup_eq_some_iff.mp hvalue
    rw [hsplit]
    exact mem_append_right _ mem_cons_self
  have htext : ∀ (field : Frontmatter → Option String) (key : String),
      (∀ fm k text, field (fm.setScalar k text) = if k = key then some text else field fm) →
      (∀ fm m, field { fm with metadata := m } = field fm) → field .empty = none →
      field fm = assignedScalar docs key := fun field key hscalar hm hempty =>
    hfm ▸ foldl_assign_text hnodup field key hscalar hm hempty
  have htools := foldl_assign_scalar hnodup Frontmatter.allowedTools "allowed-tools"
    splitAsciiWhitespace ?_ fun _ _ => rfl
  refine ⟨htext _ _ ?_ (fun _ _ => rfl) rfl, htext _ _ ?_ (fun _ _ => rfl) rfl,
    htext _ _ ?_ (fun _ _ => rfl) rfl, htext _ _ ?_ (fun _ _ => rfl) rfl, hfm ▸ htools, hmetadata,
    fun value hvalue => htexts value (hassigned value hvalue), hroles⟩
  -- a key sets its own field only
  all_goals
    intro fm k text
    split_ifs with hk
    · simp [Frontmatter.setScalar, hk]
    · unfold Frontmatter.setScalar
      split_ifs <;> rfl

theorem run_of_parse (h : parseFrontmatter ((streamEvents docs).map .ok) = .ok fm) :
    ¬ Failed ((streamEvents docs).foldl observe (.new, [])) ∧
      ((streamEvents docs).foldl observe (.new, [])).1.frontmatter = fm := by
  have hend : Event.streamEnd ∉ Event.streamStart :: docs.flatMap documentEvents := by
    rw [mem_cons, not_or]
    exact ⟨by simp, streamEnd_notMem docs⟩
  obtain ⟨herror, hfm⟩ := receive_eq_ok hend h
  rw [← run_fst (o := (.new, []))] at herror hfm
  refine ⟨fun hfail => ?_, hfm⟩
  unfold Failed at hfail
  rw [show ((streamEvents docs).foldl observe (.new, [])).1.error = none from herror] at hfail
  cases hfail

/-- The receiver at the first entry of the top-level mapping. -/
def atTop : FrontmatterReceiver :=
  { FrontmatterReceiver.new with depth := 1, state := .topLevelMapping none }

theorem aligned_atTop : Aligned atTop := ⟨rfl, rfl, fun _ => ⟨rfl, rfl⟩⟩

theorem run_first (root : Node) (rest : List Event) :
    Failed ((root.events ++ rest).foldl observe (.new, [])) ∨
      ∃ anchorId entries, root = .mapping anchorId entries ∧
        (root.events ++ rest).foldl observe (.new, []) = (.mappingEnd :: rest).foldl observe
            ((entryEvents entries.toList).foldl observe (atTop, [])) := by
  cases root with
  | aliasOf anchorId =>
    rw [Node.events, singleton_append, foldl_cons]
    exact .inl (run_failed (observe_alias anchorId))
  | scalar value anchorId =>
    rw [Node.events, singleton_append, foldl_cons]
    refine .inl (run_failed ?_)
    rcases observe_scalar (r := .new) rfl value anchorId with hfail | hstep
    · exact hfail
    · exact hstep ▸ failed_setError
  | sequence anchorId items =>
    rw [Node.events, cons_append, foldl_cons]
    refine .inl (run_failed ?_)
    rcases observe_start (r := .new) (.sequenceStart anchorId) rfl rfl with hfail | hstep
    · exact hfail
    · exact hstep ▸ failed_setError
  | mapping anchorId entries =>
    rw [Node.events, cons_append, foldl_cons]
    rcases observe_start (r := .new) (.mappingStart anchorId) rfl rfl with hfail | hstep
    · exact .inl (run_failed hfail)
    · refine .inr ⟨anchorId, entries, rfl, ?_⟩
      rw [show observe (.new, []) (.mappingStart anchorId) = (atTop, []) from hstep,
        append_assoc, foldl_append, Entries.events_eq]
      rfl

def behind (docs : List Node) : List Event :=
  .documentEnd :: (docs.flatMap documentEvents ++ [.streamEnd])

theorem run_stream (root : Node) (docs : List Node) :
    (streamEvents (root :: docs)).foldl observe (.new, []) =
      (root.events ++ behind docs).foldl observe (.new, []) := by
  have hevents : streamEvents (root :: docs) =
      .streamStart :: .documentStart :: (root.events ++ behind docs) := by
    simp [streamEvents, documentEvents, behind]
  rw [hevents]
  rfl

theorem not_isPrefix_roles {before entries : List (Node × Node)} (hbefore : before <+: entries)
    (hne : before ≠ entries) : ¬ roles before ++ [.value] <+: roles entries := by
  obtain ⟨after, rfl⟩ := hbefore
  cases after with
  | nil => exact absurd (append_nil before).symm hne
  | cons entry after =>
    intro h
    unfold roles at h
    rw [flatMap_append, prefix_append_right_inj] at h
    exact Role.noConfusion (cons_prefix_cons.1 h).1

theorem run_mapping {root : Node}
    (h : parseFrontmatter ((streamEvents (root :: docs)).map .ok) = .ok fm) :
    ∃ anchorId entries, root = .mapping anchorId entries ∧
      (streamEvents (root :: docs)).foldl observe (.new, []) =
        (.mappingEnd :: behind docs).foldl observe
          ((entryEvents entries.toList).foldl observe (atTop, [])) := by
  rcases run_first root (behind docs) with hfail | ⟨anchorId, entries, rfl, hrun⟩
  · exact absurd (run_stream root docs ▸ hfail) (run_of_parse h).1
  · exact ⟨anchorId, entries, rfl, (run_stream _ docs).trans hrun⟩

theorem textsRead_of_plainKeys (h : parseFrontmatter ((streamEvents docs).map .ok) = .ok fm)
    (hplain : PlainKeys docs) : TextsRead docs fm := by
  obtain ⟨hok, hfm⟩ := run_of_parse h
  cases docs with
  | nil => exact textsRead_of_foldl nodup_nil hfm.symm rfl fun _ hmem => by cases hmem
  | cons root docs =>
    obtain ⟨anchorId, entries, rfl, hrun⟩ := run_mapping h
    have hroles : rolesTaken (.mapping anchorId entries :: docs) =
        ((streamEvents (.mapping anchorId entries :: docs)).foldl observe (.new, [])).2 := rfl
    rw [hrun] at hok hfm hroles
    rcases run_entries aligned_atTop hplain
      with hfail | ⟨r', hentries, hr', hfm', hnodup, -, htexts⟩
    · exact absurd (run_failed hfail) hok
    change (entryEvents entries.toList).foldl observe (atTop, []) = (r', roles entries.toList)
      at hentries
    have hend : observe (r', roles entries.toList) .mappingEnd =
        ({ r' with depth := r'.depth - 1, state := .done }, roles entries.toList) := by
      rw [observe_end .mappingEnd hr'.error rfl]
      simp [FrontmatterReceiver.dispatch, hr'.state, FrontmatterReceiver.inTopLevelMapping, takenAs]
    rw [hentries, foldl_cons, hend] at hok hfm hroles
    rcases run_done (behind docs)
      (r := { r' with depth := r'.depth - 1, state := .done }) hr'.error rfl
      with hfail | ⟨hkept, htaken⟩
    · exact absurd hfail hok
    · exact textsRead_of_foldl hnodup (hfm.symm.trans (hkept.trans hfm')) (hroles.trans htaken)
        htexts

theorem plainKeys_of_roles (h : parseFrontmatter ((streamEvents docs).map .ok) = .ok fm)
    (htaken : rolesTaken docs = roles (topEntries docs)) : PlainKeys docs := by
  cases docs with
  | nil => exact fun entry hentry => by cases hentry
  | cons root docs =>
    obtain ⟨anchorId, entries, rfl, hrun⟩ := run_mapping h
    have hok := (run_of_parse h).1
    have hroles : rolesTaken (.mapping anchorId entries :: docs) =
        ((streamEvents (.mapping anchorId entries :: docs)).foldl observe (.new, [])).2 := rfl
    rw [hrun] at hok hroles
    -- a structured key would be taken for a value
    intro entry hentry
    by_contra hnone
    rw [Option.not_isSome_iff_eq_none] at hnone
    rcases run_structured_key aligned_atTop ⟨entry, hentry, hnone⟩
      with hfail | ⟨before, hbefore, hne, hprefix⟩
    · exact hok (run_failed hfail)
    · refine not_isPrefix_roles hbefore hne ?_
      rw [← htaken, hroles]
      exact hprefix.trans isPrefix_run

theorem reads_bind {read : Node → Option α} {node : Option Node}
    (h : ∀ value, node = some value → (read value).isSome = true) :
    Reads read node (node.bind read) := by
  cases node with
  | none => rfl
  | some value =>
    obtain ⟨a, ha⟩ := Option.isSome_iff_exists.mp (h value rfl)
    simp [Reads, ha]

theorem Reads.isSome {read : Node → Option α} {node : Option Node} {value : Node} {a : Option α}
    (h : Reads read node a) (hnode : node = some value) : (read value).isSome = true := by
  subst hnode
  cases a with
  | none => cases h
  | some a => rw [Option.some.inj h, Option.isSome_some]

theorem isMapping_of_scalarEntries {value : Node} (h : (scalarEntries value).isSome = true) :
    isMapping value = true := by
  cases value with
  | mapping anchorId entries => rfl
  | aliasOf anchorId | scalar text anchorId | sequence anchorId items => cases h

/-- **The machine reads a mapping as it is written exactly when its keys are scalars** and the known
keys have values of the kind it reads. -/
theorem faithful_iff (docs : List Node) (fm : Frontmatter)
    (h : parseFrontmatter ((streamEvents docs).map .ok) = .ok fm) :
    Faithful docs fm ↔ PlainKeys docs ∧ PlainValues docs := by
  constructor
  · intro hfaithful
    obtain ⟨text, htext, -⟩ := hfaithful.allowedTools
    obtain ⟨map, hmap, -⟩ := hfaithful.metadata
    refine ⟨plainKeys_of_roles h hfaithful.roles, ?_, fun value hvalue => ?_⟩
    · simp only [textKeys, forall_mem_cons, not_mem_nil, IsEmpty.forall_iff, implies_true, and_true]
      exact ⟨fun _ => hfaithful.name.isSome, fun _ => hfaithful.description.isSome,
        fun _ => hfaithful.license.isSome, fun _ => hfaithful.compatibility.isSome,
        fun _ => htext.isSome⟩
    · exact isMapping_of_scalarEntries (hmap.isSome hvalue)
  · rintro ⟨hkeys, hvalues⟩
    have hread := textsRead_of_plainKeys h hkeys
    have htext : ∀ key ∈ textKeys, Reads Node.scalar? (assigned docs key) (assignedScalar docs key) :=
      fun key hkey => reads_bind (hvalues.text key hkey)
    exact {
      name := hread.name ▸ htext _ (by decide)
      description := hread.description ▸ htext _ (by decide)
      license := hread.license ▸ htext _ (by decide)
      compatibility := hread.compatibility ▸ htext _ (by decide)
      allowedTools := ⟨_, htext _ (by decide), hread.allowedTools⟩
      metadata := ⟨_, reads_bind fun value hvalue =>
        hread.entries value hvalue (hvalues.metadata value hvalue), hread.metadata⟩
      capabilities := congrArg extractCapabilities hread.metadata
      roles := hread.roles }

end

/-- `name: ledger`, `tags: [a]`, `metadata: {stellar-agent-capabilities: sign-payment}` -/
def plainDoc : Node :=
  .mapping 0 (.cons (.scalar "name" 0) (.scalar "ledger" 0)
    (.cons (.scalar "tags" 0) (.sequence 0 (.cons (.scalar "a" 0) .nil))
      (.cons (.scalar "metadata" 0) (.mapping 0
        (.cons (.scalar capabilityKey 0) (.scalar "sign-payment" 0) .nil)) .nil)))

def plainManifest : Frontmatter :=
  { Frontmatter.empty with name := some "ledger", metadata := [(capabilityKey, "sign-payment")] }

theorem plainDoc_faithful :
    parseFrontmatter ((streamEvents [plainDoc]).map .ok) = .ok plainManifest ∧
      Faithful [plainDoc] plainManifest := by
  have h : parseFrontmatter ((streamEvents [plainDoc]).map .ok) = .ok plainManifest := by
    decide +kernel
  refine ⟨h, (faithful_iff _ _ h).2 ⟨?_, ?_, ?_⟩⟩
  · intro entry hentry
    simp only [plainDoc, topEntries, Entries.toList, mem_cons, not_mem_nil, or_false] at hentry
    rcases hentry with rfl | rfl | rfl <;> rfl
  · intro key hkey value hvalue
    simp only [textKeys, mem_cons, not_mem_nil, or_false] at hkey
    rcases hkey with rfl | rfl | rfl | rfl | rfl <;> cases hvalue
    rfl
  · intro value hvalue
    cases hvalue
    rfl

/-- `? [x]`, `: metadata`, `? {stellar-agent-capabilities: sign-payment}`, `: y` -/
def structuredKeyDoc : Node :=
  .mapping 0 (.cons (.sequence 0 (.cons (.scalar "x" 0) .nil)) (.scalar "metadata" 0)
    (.cons (.mapping 0 (.cons (.scalar capabilityKey 0) (.scalar "sign-payment" 0) .nil))
      (.scalar "y" 0) .nil))

/-- A value is read as a key and a key as its value: a capability that no `metadata` declares. -/
theorem structuredKeyDoc_grants : parseFrontmatter ((streamEvents [structuredKeyDoc]).map .ok) =
        .ok { Frontmatter.empty with metadata := [(capabilityKey, "sign-payment")] } ∧
      extractCapabilities [(capabilityKey, "sign-payment")] = .ok {.signPayment} ∧
      assignedMetadata [structuredKeyDoc] = [] ∧ extractCapabilities [] = .ok ∅ := by
  refine ⟨by decide +kernel, by decide +kernel, by decide +kernel, rfl⟩

end AgentWallet.Toolsets.Manifest
