import AgentWallet.Policy.Value

/-!
# The criteria of a rule

A rule's criteria are evaluated one by one against an `EvalContext`.  `Criterion` lists them.  The
window criteria `per_period_cap`, `rate_limit`, `bundle_per_period_cap` and `bundle_rate_limit` read
the in-memory window store, and what a confirmed call contributes to it is their `recordConfirmed`.
The criteria that only look at views injected by the dispatch site (allowlists, reserves, quorum,
sessions) keep no state; they stand as `external` with their verdict as a function of those views.
-/

namespace AgentWallet.Policy.Criteria

open Base.Saturating Policy.Outcome Policy.StateStore Policy.Value

inductive PolicyError where
  | criterionEvaluationFailed (detail : String)
  | policyFileParseFailed (detail : String)

inductive Window where
  | oneMinute
  | fiveMinutes
  | oneHour
  | oneDay
  | oneWeek

namespace Window

def asSecs : Window → ℕ
  | .oneMinute => 60
  | .fiveMinutes => 300
  | .oneHour => 3600
  | .oneDay => 86400
  | .oneWeek => 604800

def label : Window → String
  | .oneMinute => "1m"
  | .fiveMinutes => "5m"
  | .oneHour => "1h"
  | .oneDay => "1d"
  | .oneWeek => "1w"

end Window

/-! ## Contexts -/

/-- What the inners ahead in a bundle add to each key. -/
structure BundleStateOverlay where
  get : StateKey → ℤ

def BundleStateOverlay.default : BundleStateOverlay := ⟨fun _ => 0⟩

def BundleStateOverlay.accumulate (overlay : BundleStateOverlay) (key : StateKey) (amount : ℤ) :
    BundleStateOverlay :=
  ⟨Function.update overlay.get key (addI128 (overlay.get key) amount)⟩

structure BundleView where
  inners : List InnerOpDescriptor
  overlay : BundleStateOverlay

/-- What a criterion reads.  `nowMs` is the host clock during the evaluation. -/
structure EvalContext where
  tool : ToolDescriptor
  profileName : String
  value : ValueClass
  stateStore : PolicyStateStore
  nowMs : ℕ
  bundle : Option BundleView

/-- What the value axis of a call asks a value criterion to do. -/
inductive ValueGate where
  | notApplicable
  | effects (legs : List ValueLeg)
  | deny (reason : DenyReason)

/-- Classifies the value axis of a call, fail-closed. -/
def classifyValue (ctx : EvalContext) : ValueGate :=
  match ctx.value with
  | .value legs => .effects legs
  | .opaqueEffect _ =>
    if ctx.bundle.isSome then .notApplicable
    else .deny (.unsizableValueEffect ("tool '" ++ ctx.tool.name ++
      "' signs opaque material whose value effect cannot be sized; a value rule matched it " ++
      "without allow_opaque_signing"))
  | .readOnly =>
    if ctx.tool.valueKind = .movesValue ∧ ctx.bundle.isNone then
      .deny (.unsizableValueEffect ("tool '" ++ ctx.tool.name ++
        "' is classified MovesValue but the dispatch site resolved no value effects; refusing " ++
        "rather than sizing it as read-only"))
    else .notApplicable

/-! ## Debits of an asset -/

/-- The debit total of an asset, or what stands in its way. -/
inductive AssetDebitSum where
  | notApplicable
  | deny (reason : DenyReason)
  | amount (sum : ℤ)

/-- The loop body of `asset_debit_sum`: whether a leg matched, and the sum. -/
def debitLeg (toolName criterion criterionAsset : String) (acc : Bool × ℤ) (leg : ValueLeg) :
    Except PolicyError (Bool × ℤ) :=
  if leg.kind.carriesDebit = false then .ok acc
  else
    match leg.asset with
    | none => .error (.criterionEvaluationFailed (criterion ++ ": debit leg of tool '" ++ toolName ++
        "' carries no asset"))
    | some legAsset =>
      if assetNormalise legAsset ≠ criterionAsset then .ok acc
      else
        match leg.amount with
        | none => .error (.criterionEvaluationFailed (criterion ++
            ": unresolvable amount for a debit leg of tool '" ++ toolName ++ "'"))
        | some amount => .ok (true, addI128 acc.2 amount)

def assetDebitSum (ctx : EvalContext) (asset criterion : String) :
    Except PolicyError AssetDebitSum :=
  match classifyValue ctx with
  | .notApplicable => .ok .notApplicable
  | .deny reason => .ok (.deny reason)
  | .effects legs =>
    match legs.foldlM (debitLeg ctx.tool.name criterion (assetNormalise asset)) (false, 0) with
    | .error e => .error e
    | .ok (false, _) => .ok .notApplicable
    | .ok (true, sum) => .ok (.amount sum)

/-- A query of the window store, with the failure text of a criterion. -/
def queryStore (ctx : EvalContext) (criterion : String) (key : StateKey) :
    Except PolicyError (ℤ × ℕ) :=
  match (ctx.stateStore.queryWindow key ctx.nowMs).1 with
  | .error e => .error (.criterionEvaluationFailed (criterion ++ ": state store error: " ++ e.toText))
  | .ok res => .ok res

/-- What the inners ahead in the bundle add to a key; nothing for a single call. -/
def aheadOf (ctx : EvalContext) (key : StateKey) : ℤ :=
  match ctx.bundle with
  | some view => view.overlay.get key
  | none => 0

/-- `u32::try_from(n).unwrap_or(u32::MAX)`. -/
def toU32 (n : ℕ) : ℕ := min n u32Max

/-! ## The criteria -/

/-- The criteria that read only views injected by the dispatch site. -/
inductive ExternalKind where
  | counterpartyAllowlist
  | minimumReserve
  | quorumSatisfied
  | homeDomainResolved
  | sep10SessionActive
  | sep45SessionActive

/-- The criteria of a policy document.  `Ext` is what the external criteria read besides the
context: the arguments, the profile and the injected views. -/
inductive Criterion (Ext : Type) where
  | perTxCap (asset : String) (maxStroops : ℤ)
  | approvalAbove (asset : String) (maxStroops : ℤ)
  | perPeriodCap (asset : String) (window : Window) (maxStroops : ℤ)
  | rateLimit (window : Window) (maxCalls : ℕ)
  | innerInvocationCountCap (maxCount : ℕ)
  | bundleAggregateCap (asset : Option String) (maxAmount : ℤ)
  | restrictBundleToRecognisedKinds (enabled : Bool)
  | bundlePerPeriodCap (asset : String) (window : Window) (maxStroops : ℤ)
  | bundlePerTxCap (asset : String) (maxStroops : ℤ)
  | bundleRateLimit (window : Window) (maxCalls : ℕ)
  | external (kind : ExternalKind)
      (evaluate : Ext → EvalContext → Except PolicyError (Option DenyReason))

def amountKey (profileName asset : String) (window : Window) : StateKey :=
  ⟨profileName, 1, assetNormalise asset, window.asSecs⟩

def callKey (profileName : String) (window : Window) : StateKey :=
  ⟨profileName, 1, "rate_limit", window.asSecs⟩

/-- `per_tx_cap`. -/
def evaluatePerTxCap (asset : String) (maxStroops : ℤ) (ctx : EvalContext) :
    Except PolicyError (Option DenyReason) :=
  match assetDebitSum ctx asset "per_tx_cap" with
  | .error e => .error e
  | .ok .notApplicable => .ok none
  | .ok (.deny reason) => .ok (some reason)
  | .ok (.amount sum) =>
    if sum > maxStroops then .ok (some (.perTxCapExceeded asset maxStroops sum)) else .ok none

/-- `approval_above`, as a denial. -/
def evaluateApprovalAbove (asset : String) (maxStroops : ℤ) (ctx : EvalContext) :
    Except PolicyError (Option DenyReason) :=
  match assetDebitSum ctx asset "approval_above" with
  | .error e => .error e
  | .ok .notApplicable => .ok none
  | .ok (.deny reason) => .ok (some reason)
  | .ok (.amount sum) =>
    if sum > maxStroops then .ok (some (.approvalAboveExceeded asset maxStroops sum)) else .ok none

/-- The comparison of `per_period_cap` with the window. -/
def checkWindow (asset : String) (window : Window) (maxStroops : ℤ) (ctx : EvalContext)
    (attemptedStroops : ℤ) : Except PolicyError (Option DenyReason) :=
  let key := amountKey ctx.profileName asset window
  match queryStore ctx "per_period_cap" key with
  | .error e => .error e
  | .ok (recorded, _) =>
    let periodUsed := addI128 recorded (aheadOf ctx key)
    if addI128 periodUsed attemptedStroops > maxStroops then
      .ok (some (.perPeriodCapExceeded asset window.label maxStroops attemptedStroops periodUsed))
    else .ok none

/-- `per_period_cap`. -/
def evaluatePerPeriodCap (asset : String) (window : Window) (maxStroops : ℤ) (ctx : EvalContext) :
    Except PolicyError (Option DenyReason) :=
  match assetDebitSum ctx asset "per_period_cap" with
  | .error e => .error e
  | .ok .notApplicable => .ok none
  | .ok (.deny reason) => .ok (some reason)
  | .ok (.amount sum) => checkWindow asset window maxStroops ctx sum

/-- `rate_limit`. -/
def evaluateRateLimit (window : Window) (maxCalls : ℕ) (ctx : EvalContext) :
    Except PolicyError (Option DenyReason) :=
  let key := callKey ctx.profileName window
  match queryStore ctx "rate_limit" key with
  | .error e => .error e
  | .ok (_, recorded) =>
    let callsInWindow := addU32 recorded (toU32 (max (aheadOf ctx key) 0).toNat)
    if callsInWindow ≥ maxCalls then
      .ok (some (.rateLimitExceeded window.label maxCalls callsInWindow))
    else .ok none

/-- `inner_invocation_count_cap`. -/
def evaluateInnerInvocationCountCap (maxCount : ℕ) (ctx : EvalContext) : Option DenyReason :=
  match ctx.bundle with
  | none => none
  | some view =>
    let count := toU32 view.inners.length
    if count > maxCount then some (.innerInvocationCountCapExceeded maxCount count) else none

/-- `i128::checked_add`. -/
def checkedAddI128 (a b : ℤ) : Option ℤ :=
  if i128Min ≤ a + b ∧ a + b ≤ i128Max then some (a + b) else none

/-- The loop body of `bundle_aggregate_cap`.  Assets are compared verbatim. -/
def aggregateInner (asset : Option String) (sum : Option ℤ) : InnerOpDescriptor → Option ℤ
  | .tokenTransfer innerAsset _ _ amount =>
    if asset.all (· == innerAsset) then sum.bind (checkedAddI128 · amount) else sum
  | .generic _ _ => sum

/-- `bundle_aggregate_cap`. -/
def evaluateBundleAggregateCap (asset : Option String) (maxAmount : ℤ) (ctx : EvalContext) :
    Except PolicyError (Option DenyReason) :=
  match ctx.bundle with
  | none => .ok none
  | some view =>
    match view.inners.foldl (aggregateInner asset) (some 0) with
    | none => .error (.criterionEvaluationFailed "bundle_aggregate_cap: i128 sum overflow")
    | some s =>
      if s > maxAmount then .ok (some (.bundleAggregateCapExceeded asset maxAmount s)) else .ok none

def firstGeneric : ℕ → List InnerOpDescriptor → Option DenyReason
  | _, [] => none
  | idx, .generic _ _ :: _ => some (.bundleContainsGenericKind (toU32 idx))
  | idx, .tokenTransfer .. :: rest => firstGeneric (idx + 1) rest

/-- `restrict_bundle_to_recognised_kinds`. -/
def evaluateRestrictBundle (enabled : Bool) (ctx : EvalContext) : Option DenyReason :=
  if enabled = false then none
  else
    match ctx.bundle with
    | none => none
    | some view => firstGeneric 0 view.inners

/-- The loop of `bundle_per_period_cap`. -/
def bundlePeriodLoop (asset : String) (window : Window) (maxStroops recorded : ℤ) :
    ℕ → ℤ → List InnerOpDescriptor → Option DenyReason
  | _, _, [] => none
  | idx, running, inner :: rest =>
    match inner.transferOf (assetNormalise asset) with
    | none => bundlePeriodLoop asset window maxStroops recorded (idx + 1) running rest
    | some amount =>
      if addI128 (addI128 recorded running) amount > maxStroops then
        some (.bundleDenied (toU32 idx) (.perPeriodCapExceeded asset window.label maxStroops amount
          (addI128 recorded running)))
      else
        bundlePeriodLoop asset window maxStroops recorded (idx + 1) (addI128 running amount) rest

/-- `bundle_per_period_cap`. -/
def evaluateBundlePerPeriodCap (asset : String) (window : Window) (maxStroops : ℤ)
    (ctx : EvalContext) : Except PolicyError (Option DenyReason) :=
  match ctx.bundle with
  | none => .ok none
  | some view =>
    match queryStore ctx "bundle_per_period_cap" (amountKey ctx.profileName asset window) with
    | .error e => .error e
    | .ok (recorded, _) =>
      .ok (bundlePeriodLoop asset window maxStroops recorded 0 0 view.inners)

/-- The loop of `bundle_per_tx_cap`. -/
def bundleTxLoop (asset : String) (maxStroops : ℤ) : ℕ → List InnerOpDescriptor → Option DenyReason
  | _, [] => none
  | idx, inner :: rest =>
    match inner.transferOf (assetNormalise asset) with
    | none => bundleTxLoop asset maxStroops (idx + 1) rest
    | some amount =>
      if amount > maxStroops then
        some (.bundleDenied (toU32 idx) (.perTxCapExceeded asset maxStroops amount))
      else bundleTxLoop asset maxStroops (idx + 1) rest

/-- `bundle_per_tx_cap`. -/
def evaluateBundlePerTxCap (asset : String) (maxStroops : ℤ) (ctx : EvalContext) :
    Option DenyReason :=
  match ctx.bundle with
  | none => none
  | some view => bundleTxLoop asset maxStroops 0 view.inners

/-- The loop of `bundle_rate_limit`. -/
def bundleRateLoop (window : Window) (maxCalls callsInWindow : ℕ) :
    ℕ → List InnerOpDescriptor → Option DenyReason
  | _, [] => none
  | idx, _ :: rest =>
    let bundleCallsSoFar := addU32 callsInWindow (toU32 idx)
    if bundleCallsSoFar ≥ maxCalls then
      some (.bundleDenied (toU32 idx) (.rateLimitExceeded window.label maxCalls bundleCallsSoFar))
    else bundleRateLoop window maxCalls callsInWindow (idx + 1) rest

/-- `bundle_rate_limit`. -/
def evaluateBundleRateLimit (window : Window) (maxCalls : ℕ) (ctx : EvalContext) :
    Except PolicyError (Option DenyReason) :=
  match ctx.bundle with
  | none => .ok none
  | some view =>
    match queryStore ctx "bundle_rate_limit" (callKey ctx.profileName window) with
    | .error e => .error e
    | .ok (_, callsInWindow) => .ok (bundleRateLoop window maxCalls callsInWindow 0 view.inners)

/-! ## The interface of a criterion -/

namespace Criterion

variable {Ext : Type}

def externalTag : ExternalKind → String
  | .counterpartyAllowlist => "counterparty_allowlist"
  | .minimumReserve => "minimum_reserve"
  | .quorumSatisfied => "quorum_satisfied"
  | .homeDomainResolved => "home_domain_resolved"
  | .sep10SessionActive => "sep10_session_active"
  | .sep45SessionActive => "sep45_session_active"

def kind : Criterion Ext → String
  | .perTxCap .. => "per_tx_cap"
  | .approvalAbove .. => "approval_above"
  | .perPeriodCap .. => "per_period_cap"
  | .rateLimit .. => "rate_limit"
  | .innerInvocationCountCap .. => "inner_invocation_count_cap"
  | .bundleAggregateCap .. => "bundle_aggregate_cap"
  | .restrictBundleToRecognisedKinds .. => "restrict_bundle_to_recognised_kinds"
  | .bundlePerPeriodCap .. => "bundle_per_period_cap"
  | .bundlePerTxCap .. => "bundle_per_tx_cap"
  | .bundleRateLimit .. => "bundle_rate_limit"
  | .external kind _ => externalTag kind

/-- The check of a criterion: nothing, a reason to deny, or an error. -/
def evaluate (ext : Ext) (ctx : EvalContext) : Criterion Ext → Except PolicyError (Option DenyReason)
  | .perTxCap asset maxStroops => evaluatePerTxCap asset maxStroops ctx
  | .approvalAbove asset maxStroops => evaluateApprovalAbove asset maxStroops ctx
  | .perPeriodCap asset window maxStroops => evaluatePerPeriodCap asset window maxStroops ctx
  | .rateLimit window maxCalls => evaluateRateLimit window maxCalls ctx
  | .innerInvocationCountCap maxCount => .ok (evaluateInnerInvocationCountCap maxCount ctx)
  | .bundleAggregateCap asset maxAmount => evaluateBundleAggregateCap asset maxAmount ctx
  | .restrictBundleToRecognisedKinds enabled => .ok (evaluateRestrictBundle enabled ctx)
  | .bundlePerPeriodCap asset window maxStroops =>
    evaluateBundlePerPeriodCap asset window maxStroops ctx
  | .bundlePerTxCap asset maxStroops => .ok (evaluateBundlePerTxCap asset maxStroops ctx)
  | .bundleRateLimit window maxCalls => evaluateBundleRateLimit window maxCalls ctx
  | .external _ f => f ext ctx

/-- The lifetime of an approval requested by `approval_above`. -/
def defaultApprovalTtlSeconds : ℕ := 86400

/-- The request `approval_above` escalates with. -/
def approvalAboveRequest (asset : String) (maxStroops attemptedStroops : ℤ) : ApprovalRequest :=
  { nonce := ""
    ttlSeconds := defaultApprovalTtlSeconds
    reason := some ("approval_above: " ++ toString attemptedStroops ++ " stroops of " ++ asset ++
      " exceeds threshold " ++ toString maxStroops ++ " stroops") }

/-- The decision of one criterion.  Only `approval_above` escalates. -/
def evaluateDecision (ext : Ext) (ctx : EvalContext) (c : Criterion Ext) :
    Except PolicyError Decision :=
  match c.evaluate ext ctx with
  | .error e => .error e
  | .ok none => .ok .allow
  | .ok (some reason) =>
    match c, reason with
    | .approvalAbove _ _, .approvalAboveExceeded asset maxStroops attemptedStroops =>
      .ok (.requireApproval (approvalAboveRequest asset maxStroops attemptedStroops))
    | _, reason => .ok (.deny reason)

/-- The window key that an evaluation queries. -/
def queriedKey (ctx : EvalContext) : Criterion Ext → Option StateKey
  | .perPeriodCap asset window _ =>
    match assetDebitSum ctx asset "per_period_cap" with
    | .ok (.amount _) => some (amountKey ctx.profileName asset window)
    | _ => none
  | .rateLimit window _ => some (callKey ctx.profileName window)
  | .bundlePerPeriodCap asset window _ =>
    ctx.bundle.map fun _ => amountKey ctx.profileName asset window
  | .bundleRateLimit window _ => ctx.bundle.map fun _ => callKey ctx.profileName window
  | _ => none

/-- The criteria that run once over a whole bundle. -/
def isBundleLevel : Criterion Ext → Bool
  | .innerInvocationCountCap .. => true
  | .bundleAggregateCap .. => true
  | .restrictBundleToRecognisedKinds .. => true
  | .bundlePerPeriodCap .. => true
  | .bundlePerTxCap .. => true
  | .bundleRateLimit .. => true
  | _ => false

/-- What an inner that passed adds to the overlay. -/
def accumulateOverlay (profileName : String) (inner : InnerOpDescriptor)
    (overlay : BundleStateOverlay) : Criterion Ext → BundleStateOverlay
  | .perPeriodCap asset window _ =>
    match inner.transferOf (assetNormalise asset) with
    | some amount => overlay.accumulate (amountKey profileName asset window) amount
    | none => overlay
  | .rateLimit window _ => overlay.accumulate (callKey profileName window) 1
  | _ => overlay

/-- What a confirmed call contributes to the windows. -/
def recordConfirmed (ctx : EvalContext) : Criterion Ext → List WindowEntry
  | .perPeriodCap asset window maxStroops =>
    match ctx.value with
    | .value legs =>
      match legs.filterMap (matchingDebit (assetNormalise asset)) with
      | [] => []
      | amounts => [⟨amountKey ctx.profileName asset window, ctx.nowMs, amounts.foldl addI128 0,
          .amount asset window.label maxStroops⟩]
    | _ => []
  | .rateLimit window maxCalls =>
    if ctx.bundle.isSome then []
    else [⟨callKey ctx.profileName window, ctx.nowMs, 1, .count window.label maxCalls⟩]
  | .bundlePerPeriodCap asset window maxStroops =>
    match ctx.bundle with
    | none => []
    | some view => (view.inners.filterMap (·.transferOf (assetNormalise asset))).map fun amount =>
        ⟨amountKey ctx.profileName asset window, ctx.nowMs, amount,
          .amount asset window.label maxStroops⟩
  | .bundleRateLimit window maxCalls =>
    match ctx.bundle with
    | none => []
    | some view => view.inners.map fun _ =>
        ⟨callKey ctx.profileName window, ctx.nowMs, 1, .count window.label maxCalls⟩
  | _ => []

end Criterion

end AgentWallet.Policy.Criteria
