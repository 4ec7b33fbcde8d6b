import AgentWallet.Toolsets.Grants

/-!
# Tools a toolset can reach

`matrix.rs` and `check_toolset_action`, beside the gated resolver: the tools a pin gives access to
are those its capabilities grant and its `allowed_tools` do not exclude (`accepts_iff_reaches`).
The list comes from the `allowed-tools` of the manifest, and an empty list excludes nothing.
-/

namespace AgentWallet.Toolsets.Narrowing

open Base Base.Yaml List Base.Checks
open Extract (Bytes sanitiseDisplay)
open Manifest Install Grants

/-! ## The matrix -/

/-- `ALL_MATRIX_ENTRIES` -/
def matrix : List (String × Capability) :=
  [("stellar_balances", .readBalance), ("stellar_pay", .proposeTransaction),
    ("stellar_claim", .proposeTransaction),
    ("stellar_rule_create", .proposeTransaction),
    ("stellar_sep47_discover", .suggestDestination),
    ("stellar_sep48_preview_invocation", .suggestDestination),
    ("stellar_sep7_parse_uri", .suggestDestination),
    ("stellar_rules_list", .readRules),
    ("stellar_rules_get", .readRules)]

def resolveAction (action : String) : Except RuntimeError (String × Capability) :=
  okOr (matrix.find? fun entry => decide (entry.1 = action))
    (.unknownToolsetAction (sanitiseDisplay action 128))

def checkToolsetAction (action : String) (capabilities : CapabilitySet)
    (allowedTools : List String) : Except RuntimeError String := do
  let (toolName, grantingCapability) ← resolveAction action
  refuseIf (grantingCapability ∉ capabilities)
    (.capabilityNotDeclared (sanitiseDisplay action 128) grantingCapability.token)
  refuseIf (¬ allowedTools = [] ∧ toolName ∉ allowedTools)
    (.toolNotAllowed (sanitiseDisplay toolName 128) (sanitiseDisplay action 128))
  .ok toolName

/-- The capability grants the tool, at once or behind the first-invoke gate. -/
def Grants (capability : Capability) (tool : String) : Prop :=
  (tool, capability) ∈ matrix ∨ (tool, capability) ∈ gatedMatrix

/-- A capability of the pin grants the tool, and the list does not exclude it. -/
def Reaches (pin : PinRecord) (tool : String) : Prop :=
  (∃ capability ∈ pin.capabilities, Grants capability tool) ∧
    allowedByNarrowing pin.allowedTools tool

section

variable {V : Type} (env : Env V)

/-- The gated resolver accepts the action with this pin, in some state of the host and for some
arguments: it has found a grant or has queued an approval. -/
def GatedAccepts (pin : PinRecord) (action tool : String) : Prop :=
  ∃ host now params outcome capability, params.action = action ∧
    readPin env host.toolsets params.toolsetName = .ok (some pin) ∧
    resolveGatedAction action = .ok (tool, capability) ∧
    resolveToolsetSignPaymentGated env host now params = .ok outcome

/-- One of the two resolvers accepts the action with this pin, and resolves it to the tool. -/
def Accepts (pin : PinRecord) (action tool : String) : Prop :=
  checkToolsetAction action pin.capabilities pin.allowedTools = .ok tool ∨
    GatedAccepts env pin action tool

end

section

variable {V : Type} {env : Env V} {pin : PinRecord} {action tool : String} {capability : Capability}

theorem find?_eq_some_iff {entries : List (String × Capability)}
    (hnodup : (entries.map Prod.fst).Nodup) :
    (entries.find? fun entry => decide (entry.1 = action)) = some (tool, capability) ↔
      tool = action ∧ (tool, capability) ∈ entries := by
  constructor
  · intro h
    have hname := List.find?_some h
    exact ⟨by simpa using hname, mem_of_find?_eq_some h⟩
  · rintro ⟨rfl, hmem⟩
    induction entries with
    | nil => cases hmem
    | cons entry entries ih =>
      obtain ⟨hnew, hrest⟩ := nodup_cons.mp hnodup
      rcases mem_cons.mp hmem with rfl | hmem
      · simp
      · have hne : entry.1 ≠ tool := fun heq =>
          hnew (heq ▸ mem_map_of_mem hmem)
        simpa [hne] using ih hrest hmem

theorem resolveAction_eq_ok_iff : resolveAction action = .ok (tool, capability) ↔
      tool = action ∧ (tool, capability) ∈ matrix := by
  rw [resolveAction, okOr_eq_ok_iff]
  exact find?_eq_some_iff (by decide)

theorem resolveGatedAction_eq_ok_iff : resolveGatedAction action = .ok (tool, capability) ↔
      tool = action ∧ (tool, capability) ∈ gatedMatrix := by
  rw [resolveGatedAction, okOr_eq_ok_iff]
  exact find?_eq_some_iff (by decide)

theorem checkToolsetAction_eq_ok_iff {capabilities : CapabilitySet} {allowedTools : List String} :
    checkToolsetAction action capabilities allowedTools = .ok tool ↔
      tool = action ∧ ∃ capability ∈ capabilities, (tool, capability) ∈ matrix ∧
        allowedByNarrowing allowedTools tool := by
  simp only [checkToolsetAction, bind_eq_ok_iff, refuseIf_eq_ok_iff, Except.ok.injEq, not_not]
  constructor
  · rintro ⟨⟨t, capability⟩, hresolve, -, hdeclared, -, hallowed, rfl⟩
    obtain ⟨hname, hmem⟩ := resolveAction_eq_ok_iff.mp hresolve
    exact ⟨hname, capability, hdeclared, hmem, by tauto⟩
  · rintro ⟨hname, capability, hdeclared, hmem, hallowed⟩
    refine ⟨(tool, capability), resolveAction_eq_ok_iff.mpr ⟨hname, hmem⟩, (), hdeclared, (), ?_, rfl⟩
    unfold allowedByNarrowing at hallowed
    tauto

theorem reaches_of_gatedAccepts (h : GatedAccepts env pin action tool) : Reaches pin tool := by
  obtain ⟨host, now, params, outcome, capability, rfl, hread, hresolve, hok⟩ := h
  simp only [resolveToolsetSignPaymentGated, bind_eq_ok_iff, refuseIf_eq_ok_iff,
    mapError_eq_ok_iff, okOr_eq_ok_iff, not_not] at hok
  obtain ⟨-, -, found, hfound, pin', hpin', ⟨tool', capability'⟩, hresolve', -, hdeclared, -,
      hallowed,
    -⟩ := hok
  obtain rfl : found = some pin := Except.ok.inj (hfound.symm.trans hread)
  obtain rfl : pin = pin' := Option.some.inj hpin'
  obtain ⟨rfl, rfl⟩ := Prod.mk.inj (Except.ok.inj (hresolve.symm.trans hresolve'))
  exact ⟨⟨capability, hdeclared, .inr (resolveGatedAction_eq_ok_iff.mp hresolve).2⟩, hallowed⟩

/-- A host on which the package of the pin is installed, with no grants. -/
def hostOf (env : Env V) (pin : PinRecord) : Host where
  toolsets := Function.update World.empty pin.package
    (some (withPin [] (Utf8.encode (env.pinToJson pin).toList)))
  grants _ := []

def paramsOf (pin : PinRecord) (tool : String) : GatedInvokeParams where
  toolsetName := pin.package
  action := tool
  profileName := ""
  authoritativeDestination := ""
  authoritativeAsset := ""
  authoritativeAmountStroops := 1
  openError := none
  queued := .ok ""

theorem gatedAccepts_of_reaches (hname : validatePackageName env pin.package = .ok ())
    (hdeclared : capability ∈ pin.capabilities) (hgrants : (tool, capability) ∈ gatedMatrix)
    (hallowed : allowedByNarrowing pin.allowedTools tool) : GatedAccepts env pin tool tool := by
  have hread : readPin env (hostOf env pin).toolsets pin.package = .ok (some pin) :=
    readPin_withPin hname hname
  have hresolve := resolveGatedAction_eq_ok_iff.mpr ⟨rfl, hgrants⟩
  have hgate : firstInvokeGate ((hostOf env pin).grants "") 0 (paramsOf pin tool) tool
      capability.token = .ok (.firstInvokeApprovalRequired "" (sanitiseDisplay pin.package 64)
        (sanitiseDisplay capability.token 64)) := rfl
  refine ⟨hostOf env pin, 0, paramsOf pin tool, .firstInvokeApprovalRequired ""
    (sanitiseDisplay pin.package 64) (sanitiseDisplay capability.token 64), capability, rfl, hread,
    hresolve, ?_⟩
  simp only [resolveToolsetSignPaymentGated, bind_eq_ok_iff, refuseIf_eq_ok_iff,
    mapError_eq_ok_iff, not_not]
  exact ⟨(), hname, some pin, hread, pin, rfl, (tool, capability), hresolve, (), hdeclared, (),
    hallowed, (), by simp [paramsOf], (), by simp [paramsOf], hgate⟩

/-- **The tools a pin gives access to**, with one resolver or the other. -/
theorem accepts_iff_reaches (hname : validatePackageName env pin.package = .ok ()) :
    (∃ action, Accepts env pin action tool) ↔ Reaches pin tool := by
  constructor
  · rintro ⟨action, hcheck | hgated⟩
    · obtain ⟨-, capability, hdeclared, hmem, hallowed⟩ := checkToolsetAction_eq_ok_iff.mp hcheck
      exact ⟨⟨capability, hdeclared, .inl hmem⟩, hallowed⟩
    · exact reaches_of_gatedAccepts hgated
  · rintro ⟨⟨capability, hdeclared, hmem | hmem⟩, hallowed⟩
    · exact ⟨tool, .inl (checkToolsetAction_eq_ok_iff.mpr
        ⟨rfl, capability, hdeclared, hmem, hallowed⟩)⟩
    · exact ⟨tool, .inr (gatedAccepts_of_reaches hname hdeclared hmem hallowed)⟩

end

/-! ## From the manifest to the pin -/

section

variable {V : Type} {env : Env V} {docs docs' : List Node} {pin pin' : PinRecord}

/-- The pin that an install writes for a package whose manifest is the stream of these documents. -/
def ManifestPin (env : Env V) (docs : List Node) (pin : PinRecord) : Prop :=
  ∃ call parsed staged bytes content yaml body, verifyCall env call = .ok parsed ∧
    stagePackage env call = .ok staged ∧ pin = pinRecord env call staged ∧
    fileAt staged.dir manifestPath = some bytes ∧ Utf8.decode bytes = some content ∧
    splitFrontmatter content = .ok (yaml, body) ∧ env.tokens yaml = (streamEvents docs).map .ok

/-- The capability is one that the manifest declares. -/
def Declares (docs : List Node) (capability : Capability) : Prop :=
  ∃ capabilities, extractCapabilities (assignedMetadata docs) = .ok capabilities ∧
    capability ∈ capabilities

/-- The manifests assign the same to every key but `allowed-tools`. -/
def SameBesides (docs docs' : List Node) : Prop :=
  ∀ key, key ≠ "allowed-tools" → assigned docs' key = assigned docs key

/-- The tools named by a scalar under `allowed-tools`. -/
def namedTools (docs : List Node) : Option (List String) :=
  (assignedScalar docs "allowed-tools").map splitAsciiWhitespace

theorem ManifestPin.fields (h : ManifestPin env docs pin) (hplain : PlainKeys docs) :
    validatePackageName env pin.package = .ok () ∧
      extractCapabilities (assignedMetadata docs) = .ok pin.capabilities ∧
      pin.allowedTools = (namedTools docs).getD [] := by
  obtain ⟨call, parsed, staged, bytes, content, yaml, body, hverify, hstage, rfl, hfile, hcontent,
    hsplit, htokens⟩ := h
  have hname : validatePackageName env call.package = .ok () := by
    obtain ⟨⟨⟩, hname, -⟩ := bind_eq_ok_iff.mp hverify
    exact mapError_eq_ok_iff.mp hname
  obtain ⟨tree, -, -, hparse, -⟩ := stagePackage_eq_ok hstage
  simp only [parseToolset, readSizeCapped, bind_eq_ok_iff, okOr_eq_ok_iff] at hparse
  obtain ⟨bytes', ⟨bytes'', hfile', -, -, hbytes⟩, content', hcontent', ⟨yaml', body'⟩, hsplit', fm,
    hfm, -, -, -, -, -, -, capabilities, hcapabilities, htoolset⟩ := hparse
  obtain rfl : bytes'' = bytes' := Except.ok.inj hbytes
  obtain rfl : bytes = bytes'' := Option.some.inj (hfile.symm.trans hfile')
  obtain rfl : content = content' := Option.some.inj (hcontent.symm.trans hcontent')
  obtain ⟨rfl, rfl⟩ := Prod.mk.inj (Except.ok.inj (hsplit.symm.trans hsplit'))
  rw [htokens] at hfm
  have hread := textsRead_of_plainKeys hfm hplain
  have htoolset := Except.ok.inj htoolset
  refine ⟨hname, ?_, ?_⟩
  · rw [← hread.metadata, hcapabilities, pinRecord, ← htoolset]
  · rw [pinRecord, ← htoolset]
    exact hread.allowedTools

theorem SameBesides.metadata (h : SameBesides docs docs') :
    assignedMetadata docs' = assignedMetadata docs := by
  unfold assignedMetadata
  rw [h "metadata" (by decide)]

/-- **The key narrows**: what a pin gives access to is declared, and named where tools are named at
all; with the key, or with fewer tools in it, a manifest gives access to no more. -/
theorem allowedTools_narrow (env : Env V) (docs : List Node) (pin : PinRecord)
    (hpin : ManifestPin env docs pin) (hplain : PlainKeys docs) :
    (∀ action tool, Accepts env pin action tool →
      (∃ capability, Declares docs capability ∧ Grants capability tool) ∧
        ∀ named, namedTools docs = some named → named ≠ [] → tool ∈ named) ∧
    ∀ docs' pin', ManifestPin env docs' pin' → PlainKeys docs' → SameBesides docs docs' →
      (assigned docs "allowed-tools" = none ∨ ∃ named named', namedTools docs = some named ∧
        namedTools docs' = some named' ∧ named' ⊆ named ∧ named' ≠ []) →
      ∀ tool, (∃ action, Accepts env pin' action tool) → ∃ action, Accepts env pin action tool := by
  obtain ⟨hname, hcapabilities, htools⟩ := hpin.fields hplain
  constructor
  · intro action tool haccepts
    obtain ⟨⟨capability, hdeclared, hgrants⟩, hallowed⟩ :=
      (accepts_iff_reaches hname).mp ⟨action, haccepts⟩
    refine ⟨⟨capability, ⟨_, hcapabilities, hdeclared⟩, hgrants⟩, fun named hnamed hne => ?_⟩
    rw [htools, hnamed] at hallowed
    exact hallowed.resolve_left hne
  · intro docs' pin' hpin' hplain' hsame hless tool haccepts
    obtain ⟨hname', hcapabilities', htools'⟩ := hpin'.fields hplain'
    obtain ⟨⟨capability, hdeclared, hgrants⟩, hallowed⟩ := (accepts_iff_reaches hname').mp haccepts
    have hequal : pin'.capabilities = pin.capabilities := by
      rw [hsame.metadata, hcapabilities] at hcapabilities'
      exact (Except.ok.inj hcapabilities').symm
    refine (accepts_iff_reaches hname).mpr ⟨⟨capability, hequal ▸ hdeclared, hgrants⟩, ?_⟩
    rcases hless with hnone | ⟨named, named', hnamed, hnamed', hsubset, hne⟩
    · -- no list at all
      left
      rw [htools, namedTools, assignedScalar, hnone]
      rfl
    · rw [htools', hnamed'] at hallowed
      right
      rw [htools, hnamed]
      exact hsubset (hallowed.resolve_left hne)

end

/-! ## Lists that do not narrow -/

section

/-- `name: p`, `description: d`, the capability `propose-transaction` and more entries. -/
def proposerDoc (entries : Entries) : Node :=
  .mapping 0 (.cons (.scalar "name" 0) (.scalar "p" 0)
    (.cons (.scalar "description" 0) (.scalar "d" 0)
      (.cons (.scalar "metadata" 0) (.mapping 0
        (.cons (.scalar capabilityKey 0) (.scalar "propose-transaction" 0) .nil)) entries)))

/-- The manifest with this text under `allowed-tools`. -/
def scalarDoc (text : String) : Node :=
  proposerDoc (.cons (.scalar "allowed-tools" 0) (.scalar text 0) .nil)

/-- `allowed-tools: [stellar_claim]` -/
def sequenceDoc : Node :=
  proposerDoc (.cons (.scalar "allowed-tools" 0)
    (.sequence 0 (.cons (.scalar "stellar_claim" 0) .nil)) .nil)

/-- `? [x]`, `: y`, `allowed-tools: stellar_claim` -/
def shiftedDoc : Node :=
  proposerDoc (.cons (.sequence 0 (.cons (.scalar "x" 0) .nil)) (.scalar "y" 0)
    (.cons (.scalar "allowed-tools" 0) (.scalar "stellar_claim" 0) .nil))

/-- What the YAML scanner reads, for the texts that are used below: two short ones stand for the two
manifests above, any other one for its list of tools. -/
def docOf (yaml : List Char) : Node :=
  if yaml = "[]\n".toList then sequenceDoc
  else if yaml = "?\n".toList then shiftedDoc
  else scalarDoc (String.ofList yaml)

/-- Packages whose bytes are the text of their manifest. -/
def textEnv : Env ℕ :=
  { plantedEnv with
    sha256Hex := fun _ => zeros
    unpack := fun bytes =>
      { entries := [some ⟨.regular, Utf8.encode "p/TOOLSET.md".toList,
          some (Utf8.encode "---\n".toList ++ bytes ++ Utf8.encode "\n---\n".toList)⟩]
        trailingData := some false }
    tokens := fun yaml => (streamEvents [docOf yaml]).map .ok }

def textCall (text : String) : InstallCall :=
  { plantedCall .none with packageBytes := Utf8.encode text.toList }

/-- What the install finds in the package: its manifest, its capabilities and its list. -/
def findings (text : String) :
    Except Extract.InstallError (Option (List Char) × CapabilitySet × List String) :=
  (stagePackage textEnv (textCall text)).map fun staged =>
    ((fileAt staged.dir manifestPath).bind fun bytes => (Utf8.decode bytes).bind fun content =>
        (splitFrontmatter content).toOption.map Prod.fst,
      staged.toolset.capabilities, staged.toolset.allowedTools)

theorem manifestPin_text {text : String} {capabilities : CapabilitySet} {tools : List String}
    {yaml : List Char} (hfound : findings text = .ok (some yaml, capabilities, tools))
    (hverify : verifyCall textEnv (textCall text) = .ok 0) :
    ∃ pin, ManifestPin textEnv [docOf yaml] pin ∧
      pin.capabilities = capabilities ∧ pin.allowedTools = tools := by
  unfold findings at hfound
  rcases hstaged : stagePackage textEnv (textCall text) with err | staged <;>
    rw [hstaged] at hfound
  · cases hfound
  · have hfields := Except.ok.inj hfound
    simp only [Prod.mk.injEq, Option.bind_eq_some_iff, Option.map_eq_some_iff] at hfields
    obtain ⟨⟨bytes, hfile, content, hcontent, ⟨yaml', body⟩, hsplit, rfl⟩, hcapabilities, htools⟩ :=
      hfields
    have hsplit : splitFrontmatter content = .ok (yaml', body) := by
      rcases hcases : splitFrontmatter content with err | parts <;> rw [hcases] at hsplit
      · cases hsplit
      · rw [Option.some.inj hsplit]
    exact ⟨pinRecord textEnv (textCall text) staged, ⟨textCall text, 0, staged, bytes, content, yaml',
      body, hverify, hstaged, rfl, hfile, hcontent, hsplit, rfl⟩, hcapabilities, htools⟩

theorem accepts_pay {pin : PinRecord} (hcapabilities : pin.capabilities = {.proposeTransaction})
    (htools : pin.allowedTools = []) : Accepts textEnv pin "stellar_pay" "stellar_pay" := by
  left
  rw [hcapabilities, htools]
  refine checkToolsetAction_eq_ok_iff.mpr ⟨rfl, .proposeTransaction, by simp, ?_, ?_⟩
  · simp [matrix]
  · simp [allowedByNarrowing]

theorem findings_texts : ∀ found ∈ [("", some "\n".toList, []), ("[]", some "[]\n".toList, []),
      ("?", some "?\n".toList, []),
      ("stellar_claim", some "stellar_claim\n".toList, ["stellar_claim"])],
    findings found.1 = .ok (found.2.1, {.proposeTransaction}, found.2.2) ∧
      verifyCall textEnv (textCall found.1) = .ok 0 := by
  decide +kernel

theorem namedTools_scalarDoc : namedTools [scalarDoc "stellar_claim\n"] = some ["stellar_claim"] ∧
    namedTools [scalarDoc "\n"] = some [] := by
  decide +kernel

theorem manifestPin_found (text yaml : String) (tools : List String)
    (h : (text, some yaml.toList, tools) ∈ [("", some "\n".toList, []),
      ("[]", some "[]\n".toList, []), ("?", some "?\n".toList, []),
      ("stellar_claim", some "stellar_claim\n".toList, ["stellar_claim"])]) :
    ∃ pin, ManifestPin textEnv [docOf yaml.toList] pin ∧
      pin.capabilities = {.proposeTransaction} ∧ pin.allowedTools = tools :=
  manifestPin_text (findings_texts _ h).1 (findings_texts _ h).2

theorem plainKeys_scalarDoc (text : String) : PlainKeys [scalarDoc text] := by
  intro entry hentry
  simp only [scalarDoc, proposerDoc, topEntries, Entries.toList, mem_cons, not_mem_nil,
    or_false] at hentry
  rcases hentry with rfl | rfl | rfl | rfl <;> rfl

theorem sameBesides_scalarDoc (text text' : String) :
    SameBesides [scalarDoc text] [scalarDoc text'] := by
  intro key hkey
  have hne : (key == "allowed-tools") = false := by simpa using hkey
  simp only [assigned, scalarDoc, proposerDoc, topEntries, Entries.toList, scalarKeyed,
    filterMap_cons, Node.scalar?, Option.map_some, lookup_cons, hne]

theorem manifestPin_claim : ∃ pin, ManifestPin textEnv [scalarDoc "stellar_claim\n"] pin ∧
    pin.capabilities = {.proposeTransaction} ∧ pin.allowedTools = ["stellar_claim"] :=
  manifestPin_found "stellar_claim" "stellar_claim\n" _ (by simp)

theorem manifestPin_blank : ∃ pin, ManifestPin textEnv [scalarDoc "\n"] pin ∧
    pin.capabilities = {.proposeTransaction} ∧ pin.allowedTools = [] :=
  manifestPin_found "" "\n" _ (by simp)

/-- A manifest that names one tool gives access to that one. -/
theorem claim_narrows : ∃ pin, ManifestPin textEnv [scalarDoc "stellar_claim\n"] pin ∧
    Accepts textEnv pin "stellar_claim" "stellar_claim" ∧
    ∀ action tool, Accepts textEnv pin action tool → tool = "stellar_claim" := by
  obtain ⟨pin, hpin, hcapabilities, htools⟩ := manifestPin_claim
  refine ⟨pin, hpin, .inl ?_, fun action tool haccepts => ?_⟩
  · rw [hcapabilities, htools]
    exact checkToolsetAction_eq_ok_iff.mpr ⟨rfl, .proposeTransaction, by simp, by simp [matrix],
      by simp [allowedByNarrowing]⟩
  · have hnarrow := (allowedTools_narrow textEnv _ pin hpin (plainKeys_scalarDoc _)).1
    have hmem := (hnarrow action tool haccepts).2 _ namedTools_scalarDoc.1 (by simp)
    simpa using hmem

/-- **Values that name no tool, and values that are passed over, leave every tool**: a blank text,
in which a tool less than in `stellar_claim` is named, a sequence, and a list behind a key that is
not a scalar. -/
theorem allowedTools_not_narrowing :
    (∃ pin pin', ManifestPin textEnv [scalarDoc "stellar_claim\n"] pin ∧
      ManifestPin textEnv [scalarDoc "\n"] pin' ∧ namedTools [scalarDoc "\n"] = some [] ∧
      SameBesides [scalarDoc "stellar_claim\n"] [scalarDoc "\n"] ∧
      Accepts textEnv pin' "stellar_pay" "stellar_pay" ∧
      ¬ ∃ action, Accepts textEnv pin action "stellar_pay") ∧
    (∃ pin, ManifestPin textEnv [sequenceDoc] pin ∧ assigned [sequenceDoc] "allowed-tools" =
        some (.sequence 0 (.cons (.scalar "stellar_claim" 0) .nil)) ∧
      Accepts textEnv pin "stellar_pay" "stellar_pay") ∧
    ∃ pin, ManifestPin textEnv [shiftedDoc] pin ∧
      assignedScalar [shiftedDoc] "allowed-tools" = some "stellar_claim" ∧
      Accepts textEnv pin "stellar_pay" "stellar_pay" := by
  obtain ⟨pin, hpin, -, htools⟩ := manifestPin_claim
  obtain ⟨blank, hblank, hcapabilities, hnone⟩ := manifestPin_blank
  obtain ⟨sequence, hsequence, hsequenceCapabilities, hsequenceTools⟩ :=
    manifestPin_found "[]" "[]\n" [] (by simp)
  obtain ⟨shifted, hshifted, hshiftedCapabilities, hshiftedTools⟩ :=
    manifestPin_found "?" "?\n" [] (by simp)
  refine ⟨⟨pin, blank, hpin, hblank, namedTools_scalarDoc.2, sameBesides_scalarDoc _ _,
      accepts_pay hcapabilities hnone, ?_⟩,
    ⟨sequence, hsequence, rfl, accepts_pay hsequenceCapabilities hsequenceTools⟩,
    shifted, hshifted, rfl, accepts_pay hshiftedCapabilities hshiftedTools⟩
  intro haccepts
  have hname := (hpin.fields (plainKeys_scalarDoc _)).1
  obtain ⟨-, hallowed⟩ := (accepts_iff_reaches hname).mp haccepts
  rw [htools] at hallowed
  simp [allowedByNarrowing] at hallowed

end

end AgentWallet.Toolsets.Narrowing
