import AgentWallet.Policy.Criteria

/-!
# The policy engine

`PolicyEngine` holds one policy document and the window store.  A call is decided by the first rule
that matches its tool: `evaluateInner` for a single call, `evaluateBundle` for a multicall bundle.
What a confirmed call contributes to the windows is `recordConfirmed` and `recordConfirmedBundle`,
which resolve the rule again.
-/

namespace AgentWallet.Policy.Engine

open Policy.Outcome Policy.StateStore Policy.Value Policy.Criteria List

structure RuleMatch where
  tool : String
  chain : String

def RuleMatch.matches (m : RuleMatch) (tool : ToolDescriptor) : Bool :=
  (m.tool == "*" || m.tool == tool.name) && (m.chain == "*" || m.chain == tool.chainId)

structure PolicyRule (Ext : Type) where
  ruleMatch : RuleMatch
  criteria : List (Criterion Ext)
  decision : Decision
  allowOpaqueSigning : Bool := false

def PolicyRule.matchesTool {Ext : Type} (rule : PolicyRule Ext) (tool : ToolDescriptor) : Bool :=
  rule.ruleMatch.matches tool

inductive ScopeId where
  | profile (name : String)
  | profileProject (name project : String)
  | allProfiles

/-- Whether a scope covers a profile and project. -/
def ScopeId.matches (profileName : String) (projectId : Option String) : ScopeId → Bool
  | .profileProject p project => p == profileName && projectId == some project
  | .profile p => p == profileName
  | .allProfiles => true

structure PolicyDocument (Ext : Type) where
  scope : ScopeId
  rules : List (PolicyRule Ext)

structure PolicyEngine (Ext : Type) where
  document : PolicyDocument Ext
  profileName : String
  projectId : Option String
  stateStore : PolicyStateStore

namespace PolicyEngine

variable {Ext : Type}

def matchingRules (engine : PolicyEngine Ext) : List (PolicyRule Ext) :=
  if engine.document.scope.matches engine.profileName engine.projectId then engine.document.rules
  else []

def ruleFor (engine : PolicyEngine Ext) (tool : ToolDescriptor) : Option (PolicyRule Ext) :=
  engine.matchingRules.find? (·.matchesTool tool)

/-- The loop over the criteria of a rule: the first denial, or the first escalation. -/
def evaluateCriteria (ext : Ext) (ctx : EvalContext) :
    List (Criterion Ext) → Option ApprovalRequest →
      Except PolicyError (DenyReason ⊕ Option ApprovalRequest)
  | [], escalation => .ok (.inr escalation)
  | c :: rest, escalation =>
    match c.evaluateDecision ext ctx with
    | .error e => .error e
    | .ok .allow => evaluateCriteria ext ctx rest escalation
    | .ok (.deny reason) => .ok (.inl reason)
    | .ok (.requireApproval request) =>
      evaluateCriteria ext ctx rest (escalation.orElse fun _ => some request)

/-- The decision of a rule none of whose criteria denies. -/
def ruleDecision (rule : PolicyRule Ext) (escalation : Option ApprovalRequest) : Decision :=
  match rule.decision, escalation with
  | .allow, some request => .requireApproval request
  | decision, _ => decision

/-- The value a rule evaluates: an opted-in rule reads an opaque effect as read-only. -/
def effectiveValue (rule : PolicyRule Ext) (value : ValueClass) : ValueClass :=
  match value with
  | .opaqueEffect _ => if rule.allowOpaqueSigning then .readOnly else value
  | _ => value

/-- The first rule that matches the tool decides. -/
def evaluateInner (engine : PolicyEngine Ext) (nowMs : ℕ) (ext : Ext) (tool : ToolDescriptor)
    (value : ValueClass) : Except PolicyError Decision :=
  match engine.ruleFor tool with
  | none => .ok (.deny .noMatchingRule)
  | some rule =>
    let ctx : EvalContext :=
      ⟨tool, engine.profileName, effectiveValue rule value, engine.stateStore, nowMs, none⟩
    match evaluateCriteria ext ctx rule.criteria none with
    | .error e => .error e
    | .ok (.inl reason) => .ok (.deny reason)
    | .ok (.inr escalation) => .ok (ruleDecision rule escalation)

def defaultInnerInvocationCountCap : ℕ := 50

def accumulateInner (profileName : String) (criteria : List (Criterion Ext))
    (overlay : BundleStateOverlay) (inner : InnerOpDescriptor) : BundleStateOverlay :=
  (criteria.filter (!·.isBundleLevel)).foldl
    (fun overlay c => c.accumulateOverlay profileName inner overlay) overlay

/-- The first phase: every inner against the per-inner criteria, `idx` inners in. -/
def evaluateInners (engine : PolicyEngine Ext) (nowMs : ℕ) (ext : Ext) (tool : ToolDescriptor)
    (criteria : List (Criterion Ext)) (inners : List InnerOpDescriptor) :
    ℕ → BundleStateOverlay → Option ApprovalRequest → List InnerOpDescriptor →
      Except PolicyError (DenyReason ⊕ (BundleStateOverlay × Option ApprovalRequest))
  | _, overlay, escalation, [] => .ok (.inr (overlay, escalation))
  | idx, overlay, escalation, inner :: rest =>
    let ctx : EvalContext := ⟨tool, engine.profileName, valueClassForInner inner,
      engine.stateStore, nowMs, some ⟨inners, overlay⟩⟩
    match evaluateCriteria ext ctx (criteria.filter (!·.isBundleLevel)) escalation with
    | .error e => .error e
    | .ok (.inl reason) => .ok (.inl (.bundleDenied (toU32 idx) reason))
    | .ok (.inr escalation) =>
      evaluateInners engine nowMs ext tool criteria inners (idx + 1)
        (accumulateInner engine.profileName criteria overlay inner) escalation rest

/-- The criteria whose presence rejects unrecognised inners. -/
def valueSummingBundleCaps : List String :=
  ["bundle_aggregate_cap", "bundle_per_tx_cap", "bundle_per_period_cap"]

/-- The implicit guard against unrecognised inners. -/
def implicitGuard (rule : PolicyRule Ext) (ctx : EvalContext) : Option DenyReason :=
  if rule.criteria.any fun c => valueSummingBundleCaps.contains c.kind then
    evaluateRestrictBundle true ctx
  else none

/-- The inners one by one, on an overlay of the store, then the criteria on the bundle. -/
def evaluateBundle (engine : PolicyEngine Ext) (nowMs : ℕ) (ext : Ext) (tool : ToolDescriptor)
    (inners : List InnerOpDescriptor) : Except PolicyError Decision :=
  if inners.length > defaultInnerInvocationCountCap then
    .ok (.deny (.innerInvocationCountCapExceeded defaultInnerInvocationCountCap
      (toU32 inners.length)))
  else
    match engine.ruleFor tool with
    | none => .ok (.deny .noMatchingRule)
    | some rule =>
      match evaluateInners engine nowMs ext tool rule.criteria inners 0 .default none inners with
      | .error e => .error e
      | .ok (.inl reason) => .ok (.deny reason)
      | .ok (.inr (overlay, escalation)) =>
        let ctx : EvalContext := ⟨tool, engine.profileName, .readOnly, engine.stateStore, nowMs,
          some ⟨inners, overlay⟩⟩
        match implicitGuard rule ctx with
        | some reason => .ok (.deny reason)
        | none =>
          match evaluateCriteria ext ctx (rule.criteria.filter (·.isBundleLevel)) escalation with
          | .error e => .error e
          | .ok (.inl reason) => .ok (.deny reason)
          | .ok (.inr escalation) => .ok (ruleDecision rule escalation)

/-! ### The keys an evaluation queries

`query_window` evicts from the keys it is asked for.  Queries of one instant do not disturb each
other (`PolicyStateStore.queryWindow_evict`), so the verdict above reads the store as the call finds
it. -/

/-- The keys queried by the loop over the criteria, up to the one that ends it. -/
def queriedKeys (ext : Ext) (ctx : EvalContext) : List (Criterion Ext) → List StateKey
  | [] => []
  | c :: rest => (c.queriedKey ctx).toList ++
    match c.evaluateDecision ext ctx with
    | .ok .allow | .ok (.requireApproval _) => queriedKeys ext ctx rest
    | _ => []

/-- The keys queried by `evaluateInner`. -/
def innerKeys (engine : PolicyEngine Ext) (nowMs : ℕ) (ext : Ext) (tool : ToolDescriptor)
    (value : ValueClass) : List StateKey :=
  match engine.ruleFor tool with
  | none => []
  | some rule => queriedKeys ext
      ⟨tool, engine.profileName, effectiveValue rule value, engine.stateStore, nowMs, none⟩
      rule.criteria

/-- The keys queried by the first phase of a bundle. -/
def innersKeys (engine : PolicyEngine Ext) (nowMs : ℕ) (ext : Ext) (tool : ToolDescriptor)
    (criteria : List (Criterion Ext)) (inners : List InnerOpDescriptor) :
    BundleStateOverlay → List InnerOpDescriptor → List StateKey
  | _, [] => []
  | overlay, inner :: rest =>
    let ctx : EvalContext := ⟨tool, engine.profileName, valueClassForInner inner,
      engine.stateStore, nowMs, some ⟨inners, overlay⟩⟩
    let perInner := criteria.filter (!·.isBundleLevel)
    queriedKeys ext ctx perInner ++
      match evaluateCriteria ext ctx perInner none with
      | .ok (.inr _) => innersKeys engine nowMs ext tool criteria inners
          (accumulateInner engine.profileName criteria overlay inner) rest
      | _ => []

/-- The keys queried by `evaluateBundle`. -/
def bundleKeys (engine : PolicyEngine Ext) (nowMs : ℕ) (ext : Ext) (tool : ToolDescriptor)
    (inners : List InnerOpDescriptor) : List StateKey :=
  if inners.length > defaultInnerInvocationCountCap then []
  else
    match engine.ruleFor tool with
    | none => []
    | some rule => innersKeys engine nowMs ext tool rule.criteria inners .default inners ++
      match evaluateInners engine nowMs ext tool rule.criteria inners 0 .default none inners with
      | .ok (.inr (overlay, _)) =>
        let ctx : EvalContext := ⟨tool, engine.profileName, .readOnly, engine.stateStore, nowMs,
          some ⟨inners, overlay⟩⟩
        if (implicitGuard rule ctx).isSome then []
        else queriedKeys ext ctx (rule.criteria.filter (·.isBundleLevel))
      | _ => []

/-! ### Records -/

def recordContext (engine : PolicyEngine Ext) (nowMs : ℕ) (tool : ToolDescriptor)
    (value : ValueClass) : EvalContext :=
  ⟨tool, engine.profileName, value, engine.stateStore, nowMs, none⟩

def recordBundleContext (engine : PolicyEngine Ext) (nowMs : ℕ) (tool : ToolDescriptor)
    (inners : List InnerOpDescriptor) : EvalContext :=
  ⟨tool, engine.profileName, .readOnly, engine.stateStore, nowMs, some ⟨inners, .default⟩⟩

/-- What a confirmed single call contributes to the windows. -/
def recordConfirmed (engine : PolicyEngine Ext) (nowMs : ℕ) (tool : ToolDescriptor)
    (value : ValueClass) : List WindowEntry :=
  match engine.ruleFor tool with
  | none => []
  | some rule => rule.criteria.flatMap (·.recordConfirmed (engine.recordContext nowMs tool value))

/-- What a confirmed bundle contributes to the windows. -/
def recordConfirmedBundle (engine : PolicyEngine Ext) (nowMs : ℕ) (tool : ToolDescriptor)
    (inners : List InnerOpDescriptor) : List WindowEntry :=
  match engine.ruleFor tool with
  | none => []
  | some rule =>
    rule.criteria.flatMap (·.recordConfirmed (engine.recordBundleContext nowMs tool inners))

/-- The engine after the recorded entries are appended to its store. -/
def append (engine : PolicyEngine Ext) (entries : List WindowEntry) : PolicyEngine Ext :=
  { engine with stateStore :=
      entries.foldl (fun s e => s.append e.key e.timestampMs e.amount) engine.stateStore }

/-! ## Permitted calls -/

variable {ext : Ext} {engine : PolicyEngine Ext} {nowMs : ℕ} {tool : ToolDescriptor}
  {ctx : EvalContext} {d : Decision} {inners : List InnerOpDescriptor}

/-- The decisions under which a call may go ahead. -/
def permits : Decision → Bool
  | .allow => true
  | .requireApproval _ => true
  | .deny _ => false

def Passes (ext : Ext) (ctx : EvalContext) (c : Criterion Ext) : Prop :=
  ∃ d, c.evaluateDecision ext ctx = .ok d ∧ permits d = true

/-- Every criterion but `approval_above` passes exactly when its check finds nothing. -/
theorem Passes.evaluate_eq {c : Criterion Ext} (h : Passes ext ctx c)
    (hc : ∀ asset maxStroops, c ≠ .approvalAbove asset maxStroops) :
    c.evaluate ext ctx = .ok none := by
  obtain ⟨d, hd, hp⟩ := h
  unfold Criterion.evaluateDecision at hd
  rcases hev : c.evaluate ext ctx with e | reason
  · rw [hev] at hd
    cases hd
  · cases reason with
    | none => rfl
    | some reason =>
      rw [hev] at hd
      cases c with
      | approvalAbove asset maxStroops => exact absurd rfl (hc asset maxStroops)
      | _ =>
        cases hd
        cases hp

theorem evaluateCriteria_eq_inr :
    ∀ {criteria : List (Criterion Ext)} {escalation escalation' : Option ApprovalRequest},
    evaluateCriteria ext ctx criteria escalation = .ok (.inr escalation') →
    ∀ c ∈ criteria, Passes ext ctx c
  | [], _, _, _ => by simp
  | c :: rest, escalation, escalation', h => by
    unfold evaluateCriteria at h
    have hrest : ∀ esc, evaluateCriteria ext ctx rest esc = .ok (.inr escalation') →
        Passes ext ctx c → ∀ x ∈ c :: rest, Passes ext ctx x := by
      intro esc hr hc x hx
      rcases mem_cons.mp hx with rfl | hx
      · exact hc
      · exact evaluateCriteria_eq_inr hr x hx
    rcases hd : c.evaluateDecision ext ctx with e | d
    · rw [hd] at h
      cases h
    · rw [hd] at h
      cases d with
      | allow | requireApproval request => exact hrest _ h ⟨_, hd, rfl⟩
      | deny reason => cases h

/-- **A permitted single call** passes every criterion of the rule that governs it. -/
theorem evaluateInner_permits {value : ValueClass}
    (h : engine.evaluateInner nowMs ext tool value = .ok d) (hd : permits d = true) :
    ∃ rule, engine.ruleFor tool = some rule ∧ ∀ c ∈ rule.criteria, Passes ext
      ⟨tool, engine.profileName, effectiveValue rule value, engine.stateStore, nowMs, none⟩ c := by
  unfold evaluateInner at h
  cases hr : engine.ruleFor tool with
  | none =>
    rw [hr] at h
    cases h
    cases hd
  | some rule =>
    rw [hr] at h
    refine ⟨rule, rfl, ?_⟩
    dsimp only at h
    split at h
    · cases h
    · cases h
      cases hd
    · next heq => exact evaluateCriteria_eq_inr heq

theorem evaluateInners_eq_inr {criteria : List (Criterion Ext)} :
    ∀ {rest : List InnerOpDescriptor} {idx : ℕ} {overlay : BundleStateOverlay}
      {escalation : Option ApprovalRequest} {res : BundleStateOverlay × Option ApprovalRequest},
    evaluateInners engine nowMs ext tool criteria inners idx overlay escalation rest =
      .ok (.inr res) →
    ∀ pre inner post, rest = pre ++ inner :: post → ∀ c ∈ criteria, c.isBundleLevel = false →
      Passes ext ⟨tool, engine.profileName, valueClassForInner inner, engine.stateStore, nowMs,
        some ⟨inners, pre.foldl (accumulateInner engine.profileName criteria) overlay⟩⟩ c
  | [], _, _, _, _, _, pre, _, _, hsplit => by simp at hsplit
  | x :: rest, idx, overlay, escalation, res, h, pre, inner, post, hsplit => by
    unfold evaluateInners at h
    dsimp only at h
    split at h
    · cases h
    · cases h
    · next heq =>
      cases pre with
      | nil =>
        obtain ⟨rfl, rfl⟩ := List.cons.inj hsplit
        intro c hc hlevel
        exact evaluateCriteria_eq_inr heq c (mem_filter.mpr ⟨hc, by simp [hlevel]⟩)
      | cons y pre =>
        obtain ⟨rfl, htail⟩ := List.cons.inj hsplit
        exact evaluateInners_eq_inr h pre inner post htail

/-- **A permitted bundle** passes the per-inner criteria at every inner and the bundle-level
criteria once. -/
theorem evaluateBundle_permits (h : engine.evaluateBundle nowMs ext tool inners = .ok d)
    (hd : permits d = true) : ∃ rule, engine.ruleFor tool = some rule ∧
      (∀ pre inner post, inners = pre ++ inner :: post →
        ∀ c ∈ rule.criteria, c.isBundleLevel = false →
          Passes ext ⟨tool, engine.profileName, valueClassForInner inner, engine.stateStore, nowMs,
            some ⟨inners, pre.foldl (accumulateInner engine.profileName rule.criteria) .default⟩⟩
            c) ∧ ∃ overlay, ∀ c ∈ rule.criteria, c.isBundleLevel = true →
        Passes ext ⟨tool, engine.profileName, .readOnly, engine.stateStore, nowMs,
          some ⟨inners, overlay⟩⟩ c := by
  unfold evaluateBundle at h
  by_cases hlen : inners.length > defaultInnerInvocationCountCap
  · rw [if_pos hlen] at h
    cases h
    cases hd
  · rw [if_neg hlen] at h
    cases hr : engine.ruleFor tool with
    | none =>
      rw [hr] at h
      cases h
      cases hd
    | some rule =>
      rw [hr] at h
      dsimp only at h
      refine ⟨rule, rfl, ?_⟩
      split at h
      · cases h
      · cases h
        cases hd
      · next overlay escalation hphase =>
        refine ⟨evaluateInners_eq_inr hphase, overlay, ?_⟩
        split at h
        · cases h
          cases hd
        · split at h
          · cases h
          · cases h
            cases hd
          · next hcriteria =>
            intro c hc hlevel
            exact evaluateCriteria_eq_inr hcriteria c (mem_filter.mpr ⟨hc, hlevel⟩)

end PolicyEngine

def ruleOf {Ext : Type} (criteria : List (Criterion Ext)) : PolicyRule Ext :=
  ⟨⟨"*", "*"⟩, criteria, .allow, false⟩

/-- The engine of a profile without history, with one rule for every tool. -/
def engineOf {Ext : Type} (criteria : List (Criterion Ext)) : PolicyEngine Ext :=
  ⟨⟨.allProfiles, [ruleOf criteria]⟩, "alice", none, .new⟩

end AgentWallet.Policy.Engine
