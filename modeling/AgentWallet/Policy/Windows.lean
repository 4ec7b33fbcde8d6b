import AgentWallet.Policy.Engine

/-!
# What the window criteria check and record

One lemma for each of the four window criteria: what the window holds when the criterion passes.
What they record is a `Share` of a single key under a single limit, and `fits_single` and
`fits_bundle` put the two sides together: what a criterion is about to record fits under its own
limit, amount after amount, on top of the window it has read.
-/

namespace AgentWallet.Policy.Windows

open List

open Base.Saturating Policy.StateStore Policy.Value Policy.Criteria Policy.Engine
open PolicyEngine

variable {asset criterion toolName profileName : String} {ctx : EvalContext} {window : Window}
  {maxStroops : ℤ} {legs : List ValueLeg} {maxCalls nowMs : ℕ} {view : BundleView}
  {tool : ToolDescriptor} {store : PolicyStateStore}

/-! ## The debit loop -/

theorem debitLeg_eq_ok {acc acc' : Bool × ℤ} {leg : ValueLeg}
    (h : debitLeg toolName criterion asset acc leg = .ok acc') :
    (matchingDebit asset leg = none ∧ acc' = acc) ∨
      ∃ amount, matchingDebit asset leg = some amount ∧ acc' = (true, addI128 acc.2 amount) := by
  unfold debitLeg at h
  unfold matchingDebit
  by_cases hd : leg.kind.carriesDebit = true
  · rw [if_neg (by simp [hd])] at h
    cases ha : leg.asset with
    | none => simp [ha] at h
    | some legAsset =>
      by_cases hn : assetNormalise legAsset = asset
      · cases hm : leg.amount with
        | none => simp [ha, hn, hm] at h
        | some amount =>
          simp only [ha, hn, hm, ne_eq, not_true_eq_false, if_false, Except.ok.injEq] at h
          exact Or.inr ⟨amount, by simp [hd, hn], h.symm⟩
      · simp only [ha, ne_eq, hn, not_false_eq_true, if_true, Except.ok.injEq] at h
        exact Or.inl ⟨by simp [hn], h.symm⟩
  · rw [if_pos (by simpa using hd)] at h
    exact Or.inl ⟨by simp [hd], (Except.ok.inj h).symm⟩

theorem debitLegs_eq_ok : ∀ {legs : List ValueLeg}
    {acc acc' : Bool × ℤ}, legs.foldlM (debitLeg toolName criterion asset) acc = .ok acc' →
    acc'.2 = (legs.filterMap (matchingDebit asset)).foldl addI128 acc.2 ∧
      (acc'.1 = false → acc.1 = false ∧ legs.filterMap (matchingDebit asset) = [])
  | [], acc, acc', h => by
    cases h
    exact ⟨rfl, fun hf => ⟨hf, rfl⟩⟩
  | leg :: legs, acc, acc', h => by
    rw [foldlM_cons] at h
    rcases hl : debitLeg toolName criterion asset acc leg with e | mid
    · rw [hl] at h
      cases h
    · rw [hl] at h
      have hrest : legs.foldlM (debitLeg toolName criterion asset) mid = .ok acc' := h
      obtain ⟨hsum, hflag⟩ := debitLegs_eq_ok hrest
      rcases debitLeg_eq_ok hl with ⟨hnone, rfl⟩ | ⟨amount, hsome, rfl⟩
      · rw [filterMap_cons_none hnone]
        exact ⟨hsum, hflag⟩
      · rw [filterMap_cons_some hsome]
        refine ⟨hsum, fun hf => ?_⟩
        cases (hflag hf).1

theorem assetDebitSum_cases {res : AssetDebitSum} (hv : ctx.value = .value legs)
    (h : assetDebitSum ctx asset criterion = .ok res) :
    res = .notApplicable ∧ legs.filterMap (matchingDebit (assetNormalise asset)) = [] ∨
      res = .amount ((legs.filterMap (matchingDebit (assetNormalise asset))).foldl addI128 0) := by
  unfold assetDebitSum classifyValue at h
  simp only [hv] at h
  split at h
  · cases h
  · next sum hfold =>
    obtain ⟨-, hflag⟩ := debitLegs_eq_ok hfold
    cases h
    exact Or.inl ⟨rfl, (hflag rfl).2⟩
  · next sum hfold =>
    obtain ⟨hsum, -⟩ := debitLegs_eq_ok hfold
    cases h
    exact Or.inr (congrArg AssetDebitSum.amount hsum)

/-! ## What passing says -/

/-- The answer of the window store to a query of a context. -/
def Reads (ctx : EvalContext) (key : StateKey) (res : ℤ × ℕ) : Prop :=
  (ctx.stateStore.queryWindow key ctx.nowMs).1 = .ok res

theorem reads_of_queryStore {key : StateKey} {res : ℤ × ℕ}
    (h : queryStore ctx criterion key = .ok res) : Reads ctx key res := by
  unfold queryStore at h
  split at h
  · cases h
  · next hq => exact hq.trans (congrArg _ (Except.ok.inj h))

theorem checkWindow_eq_none {attempted : ℤ}
    (h : checkWindow asset window maxStroops ctx attempted = .ok none) :
    ∃ res, Reads ctx (amountKey ctx.profileName asset window) res ∧
      addI128 (addI128 res.1 (aheadOf ctx (amountKey ctx.profileName asset window))) attempted ≤
        maxStroops := by
  unfold checkWindow at h
  dsimp only at h
  split at h
  · cases h
  · next recorded calls hq =>
    refine ⟨_, reads_of_queryStore hq, ?_⟩
    split_ifs at h with hx
    · cases h
    · exact not_lt.mp hx

theorem perPeriodCap_room (h : evaluatePerPeriodCap asset window maxStroops ctx = .ok none)
    (hv : ctx.value = .value legs)
    (hne : legs.filterMap (matchingDebit (assetNormalise asset)) ≠ []) :
    ∃ res, Reads ctx (amountKey ctx.profileName asset window) res ∧
      addI128 (addI128 res.1 (aheadOf ctx (amountKey ctx.profileName asset window)))
        ((legs.filterMap (matchingDebit (assetNormalise asset))).foldl addI128 0) ≤ maxStroops := by
  unfold evaluatePerPeriodCap at h
  rcases hs : assetDebitSum ctx asset "per_period_cap" with e | res
  · rw [hs] at h
    cases h
  · rcases assetDebitSum_cases hv hs with ⟨-, hnil⟩ | rfl
    · exact absurd hnil hne
    · rw [hs] at h
      exact checkWindow_eq_none h

theorem perTxCap_room (h : evaluatePerTxCap asset maxStroops ctx = .ok none)
    (hv : ctx.value = .value legs)
    (hne : legs.filterMap (matchingDebit (assetNormalise asset)) ≠ []) :
    (legs.filterMap (matchingDebit (assetNormalise asset))).foldl addI128 0 ≤ maxStroops := by
  unfold evaluatePerTxCap at h
  rcases hs : assetDebitSum ctx asset "per_tx_cap" with e | res
  · rw [hs] at h
    cases h
  · rcases assetDebitSum_cases hv hs with ⟨-, hnil⟩ | rfl
    · exact absurd hnil hne
    · rw [hs] at h
      dsimp only at h
      split_ifs at h with hx
      · cases h
      · exact not_lt.mp hx

theorem rateLimit_room (h : evaluateRateLimit window maxCalls ctx = .ok none) :
    ∃ res, Reads ctx (callKey ctx.profileName window) res ∧
      addU32 res.2 (toU32 (max (aheadOf ctx (callKey ctx.profileName window)) 0).toNat) <
        maxCalls := by
  unfold evaluateRateLimit at h
  dsimp only at h
  split at h
  · cases h
  · next recorded calls hq =>
    refine ⟨_, reads_of_queryStore hq, ?_⟩
    split_ifs at h with hx
    · cases h
    · exact not_le.mp hx

/-- The loop of `bundle_per_period_cap` passes when every transfer has room after those before
it. -/
theorem bundlePeriodLoop_eq_none {recorded : ℤ} :
    ∀ {inners : List InnerOpDescriptor} {idx : ℕ} {running : ℤ},
    bundlePeriodLoop asset window maxStroops recorded idx running inners = none → ∀ pre amount post,
      inners.filterMap (·.transferOf (assetNormalise asset)) = pre ++ amount :: post →
      addI128 (addI128 recorded (pre.foldl addI128 running)) amount ≤ maxStroops
  | [], _, _, _, pre, _, _, hsplit => by simp at hsplit
  | inner :: rest, idx, running, h, pre, amount, post, hsplit => by
    unfold bundlePeriodLoop at h
    cases ht : inner.transferOf (assetNormalise asset) with
    | none =>
      rw [ht] at h
      rw [filterMap_cons_none ht] at hsplit
      exact bundlePeriodLoop_eq_none h pre amount post hsplit
    | some x =>
      rw [ht] at h
      rw [filterMap_cons_some ht] at hsplit
      dsimp only at h
      by_cases hx : addI128 (addI128 recorded running) x > maxStroops
      · rw [if_pos hx] at h
        cases h
      · rw [if_neg hx] at h
        cases pre with
        | nil =>
          obtain ⟨rfl, -⟩ := List.cons.inj hsplit
          exact not_lt.mp hx
        | cons y pre =>
          obtain ⟨rfl, htail⟩ := List.cons.inj hsplit
          exact bundlePeriodLoop_eq_none h pre amount post htail

theorem bundlePerPeriodCap_room (hb : ctx.bundle = some view)
    (h : evaluateBundlePerPeriodCap asset window maxStroops ctx = .ok none) :
    ∃ res, Reads ctx (amountKey ctx.profileName asset window) res ∧ ∀ pre amount post,
      view.inners.filterMap (·.transferOf (assetNormalise asset)) = pre ++ amount :: post →
      addI128 (addI128 res.1 (pre.foldl addI128 0)) amount ≤ maxStroops := by
  unfold evaluateBundlePerPeriodCap at h
  rw [hb] at h
  dsimp only at h
  split at h
  · cases h
  · next recorded calls hq =>
    exact ⟨_, reads_of_queryStore hq, bundlePeriodLoop_eq_none (Except.ok.inj h)⟩

theorem bundleRateLoop_eq_none {callsInWindow : ℕ} : ∀ {inners : List InnerOpDescriptor} {idx : ℕ},
    bundleRateLoop window maxCalls callsInWindow idx inners = none →
    ∀ i < inners.length, addU32 callsInWindow (toU32 (idx + i)) < maxCalls
  | [], _, _, i, hi => absurd hi (Nat.not_lt_zero i)
  | _ :: rest, idx, h, i, hi => by
    unfold bundleRateLoop at h
    dsimp only at h
    by_cases hx : addU32 callsInWindow (toU32 idx) ≥ maxCalls
    · rw [if_pos hx] at h
      cases h
    · rw [if_neg hx] at h
      cases i with
      | zero => exact not_le.mp hx
      | succ i =>
        have hrest := bundleRateLoop_eq_none h i (by simpa using hi)
        rwa [show idx + 1 + i = idx + (i + 1) by omega] at hrest

theorem bundleRateLimit_room (hb : ctx.bundle = some view)
    (h : evaluateBundleRateLimit window maxCalls ctx = .ok none) :
    ∃ res, Reads ctx (callKey ctx.profileName window) res ∧
      ∀ i < view.inners.length, addU32 res.2 (toU32 i) < maxCalls := by
  unfold evaluateBundleRateLimit at h
  rw [hb] at h
  dsimp only at h
  split at h
  · cases h
  · next recorded calls hq =>
    have hloop := bundleRateLoop_eq_none (Except.ok.inj h)
    simp only [Nat.zero_add] at hloop
    exact ⟨_, reads_of_queryStore hq, hloop⟩

/-! ## What a criterion records -/

/-- The debits of an asset among the legs of a call. -/
def debitsOf (asset : String) : ValueClass → List ℤ
  | .value legs => legs.filterMap (matchingDebit (assetNormalise asset))
  | _ => []

/-- The token transfers of an asset among the inners of a bundle. -/
def transfersOf (asset : String) (inners : List InnerOpDescriptor) : List ℤ :=
  inners.filterMap (·.transferOf (assetNormalise asset))

/-- What a criterion takes up of one window: the amounts one after another, and its limit. -/
structure Share where
  key : StateKey
  amounts : List ℤ
  limit : WindowLimit

def Share.entries (nowMs : ℕ) (share : Share) : List WindowEntry :=
  share.amounts.map fun amount => ⟨share.key, nowMs, amount, share.limit⟩

variable {Ext : Type}

/-- The share of a single call: a cap takes the debits of its asset as one amount, a rate limit
counts one call. -/
def singleShare (profileName : String) (value : ValueClass) : Criterion Ext → Option Share
  | .perPeriodCap asset window maxStroops =>
    if debitsOf asset value = [] then none
    else some ⟨amountKey profileName asset window, [(debitsOf asset value).foldl addI128 0],
      .amount asset window.label maxStroops⟩
  | .rateLimit window maxCalls =>
    some ⟨callKey profileName window, [1], .count window.label maxCalls⟩
  | _ => none

/-- The share of a bundle: the transfers of the asset one by one, or one call for each inner. -/
def bundleShare (profileName : String) (inners : List InnerOpDescriptor) :
    Criterion Ext → Option Share
  | .bundlePerPeriodCap asset window maxStroops =>
    some ⟨amountKey profileName asset window, transfersOf asset inners,
      .amount asset window.label maxStroops⟩
  | .bundleRateLimit window maxCalls =>
    some ⟨callKey profileName window, inners.map fun _ => 1, .count window.label maxCalls⟩
  | _ => none

theorem recordConfirmed_single (value : ValueClass) (c : Criterion Ext) :
    c.recordConfirmed ⟨tool, profileName, value, store, nowMs, none⟩ =
      (singleShare profileName value c).elim [] (Share.entries nowMs) := by
  cases c with
  | perPeriodCap asset window maxStroops =>
    cases value with
    | value legs =>
      cases hdebits : legs.filterMap (matchingDebit (assetNormalise asset)) with
      | nil => simp [Criterion.recordConfirmed, singleShare, debitsOf, hdebits]
      | cons x xs => simp [Criterion.recordConfirmed, singleShare, debitsOf, Share.entries, hdebits]
    | _ => rfl
  | _ => rfl

theorem recordConfirmed_bundle {inners : List InnerOpDescriptor} {overlay : BundleStateOverlay}
    (c : Criterion Ext) :
    c.recordConfirmed ⟨tool, profileName, .readOnly, store, nowMs, some ⟨inners, overlay⟩⟩ =
      (bundleShare profileName inners c).elim [] (Share.entries nowMs) := by
  cases c with
  | bundleRateLimit window maxCalls =>
    simp [Criterion.recordConfirmed, bundleShare, Share.entries]
  | _ => rfl

/-! ## Room under a limit -/

/-- `limit` leaves room for `amount` on top of a window, given as its sum and its number of calls,
and of the amounts `ahead`. -/
def Room (window : ℤ × ℕ) (ahead : List ℤ) (amount : ℤ) (limit : WindowLimit) : Prop :=
  match limit with
  | .amount _ _ maxStroops =>
    addI128 (addI128 window.1 (ahead.foldl addI128 0)) amount ≤ maxStroops
  | .count _ maxCalls => addU32 window.2 (toU32 ahead.length) < maxCalls

/-- A share of a key of the profile whose amounts fit one after another on top of the window the
gate has read. -/
def Fits (ctx : EvalContext) (share : Share) : Prop :=
  share.key.profileName = ctx.profileName ∧ ∃ window, Reads ctx share.key window ∧
    ∀ pre amount post, share.amounts = pre ++ amount :: post →
      Room window pre amount share.limit

theorem room_singleton {limit : WindowLimit} {window : ℤ × ℕ} {amount : ℤ}
    (h : Room window [] amount limit) :
    ∀ pre x post, [amount] = pre ++ x :: post → Room window pre x limit := by
  intro pre x post hsplit
  cases pre with
  | nil =>
    obtain ⟨rfl, -⟩ := List.cons.inj hsplit
    exact h
  | cons y pre => simp at hsplit

variable {ext : Ext} {c : Criterion Ext} {share : Share}

theorem fits_single {rule : PolicyRule Ext} {value : ValueClass}
    (h : Passes ext ⟨tool, profileName, effectiveValue rule value, store, nowMs, none⟩ c)
    (hshare : singleShare profileName value c = some share) :
    Fits ⟨tool, profileName, value, store, nowMs, none⟩ share := by
  cases c with
  | perPeriodCap asset window maxStroops =>
    have heval := h.evaluate_eq (by simp)
    simp only [singleShare] at hshare
    split_ifs at hshare with hnil
    cases hshare
    cases value with
    | value legs =>
      obtain ⟨res, hreads, hroom⟩ := perPeriodCap_room heval rfl hnil
      exact ⟨rfl, res, hreads, room_singleton hroom⟩
    | _ => exact absurd rfl hnil
  | rateLimit window maxCalls =>
    cases hshare
    obtain ⟨res, hreads, hroom⟩ := rateLimit_room (h.evaluate_eq (by simp))
    exact ⟨rfl, res, hreads, room_singleton hroom⟩
  | _ => cases hshare

theorem fits_bundle {inners : List InnerOpDescriptor} {overlay overlay' : BundleStateOverlay}
    (h : c.isBundleLevel = true →
      Passes ext ⟨tool, profileName, .readOnly, store, nowMs, some ⟨inners, overlay⟩⟩ c)
    (hshare : bundleShare profileName inners c = some share) :
    Fits ⟨tool, profileName, .readOnly, store, nowMs, some ⟨inners, overlay'⟩⟩ share := by
  cases c with
  | bundlePerPeriodCap asset window maxStroops =>
    cases hshare
    have heval := (h rfl).evaluate_eq (by simp)
    simp only [Criterion.evaluate] at heval
    obtain ⟨res, hreads, hroom⟩ := bundlePerPeriodCap_room rfl heval
    exact ⟨rfl, res, hreads, hroom⟩
  | bundleRateLimit window maxCalls =>
    cases hshare
    have heval := (h rfl).evaluate_eq (by simp)
    simp only [Criterion.evaluate] at heval
    obtain ⟨res, hreads, hroom⟩ := bundleRateLimit_room rfl heval
    refine ⟨rfl, res, hreads, fun pre amount post hsplit => hroom pre.length ?_⟩
    have hlen := congrArg List.length hsplit
    simp only [length_map, length_append, length_cons] at hlen
    show pre.length < inners.length
    omega
  | _ => cases hshare

end AgentWallet.Policy.Windows
