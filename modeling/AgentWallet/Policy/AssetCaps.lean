import AgentWallet.Policy.CapRuns
import AgentWallet.Policy.Spending

/-!
# Caps on a ledger asset

A ledger asset has two names on a network: its classic name, in any spelling, and the id of its
asset contract.  `ledgerDebit` counts what a call signs away of it under either name.
-/

namespace AgentWallet.Policy.AssetCaps

open Base.Saturating Policy.StateStore Policy.Value List
open Policy.Criteria Policy.Engine Policy.Windows Policy.CapRuns Policy.Spending PolicyEngine

variable {N : Network} {Views : Type}
  {nowSecs : ℕ} {args : DexTradeArgs} {r : PaymentRequirements} {n : Int64}
  {trade : TradeArgs} {authenticated : Bool} {spend : Spend}

/-! ## Ledger assets -/

def IsAsset (N : Network) (a : LedgerAsset) (name : String) : Prop :=
  assetNormalise name = assetNormalise (xdrAssetToString a) ∨ name = N.sacContractId a

instance (a : LedgerAsset) (name : String) : Decidable (IsAsset N a name) :=
  inferInstanceAs (Decidable (_ ∨ _))

/-- A request to a spending tool.  `views` is what the external criteria read. -/
structure Request (Views : Type) where
  spend : Spend
  chainId : String
  nowMs : ℕ
  views : Views

def Request.tool (r : Request Views) : ToolDescriptor :=
  ⟨r.spend.toolName, r.chainId, .movesValue⟩

/-- The descriptor and the debit of a request its tool has no objection to. -/
def Request.submission (N : Network) (r : Request Views) : Option (ValueClass × SignedDebit) :=
  r.spend.submission N (r.nowMs / 1000)

def Request.call (N : Network) (r : Request Views) : Option (Call (Request Views)) :=
  (r.submission N).map fun s => .single r.tool s.1 r.nowMs r

/-- What a request signs away of a ledger asset. -/
def Request.debitOf (N : Network) (a : LedgerAsset) (r : Request Views) : ℤ :=
  match r.submission N with
  | some (_, debit) => if IsAsset N a debit.asset then debit.amount else 0
  | none => 0

def ledgerDebit (N : Network) (a : LedgerAsset) : Call (Request Views) → ℤ
  | .single _ _ _ r => r.debitOf N a
  | .bundle .. => 0

/-- The request signs for the asset under its contract id. -/
def BySac (N : Network) (a : LedgerAsset) (r : Request Views) : Prop :=
  ∃ value debit, r.submission N = some (value, debit) ∧ debit.asset = N.sacContractId a

/-! ## Descriptors -/

/-- The descriptor has one debit leg.  It has the name of the asset up to spelling, and the amount
unless that is negative. -/
structure Describes (value : ValueClass) (debit : SignedDebit) (leg : ValueLeg)
    (rest : List ValueLeg) : Prop where
  value_eq : value = .value (leg :: rest)
  carriesDebit : leg.kind.carriesDebit = true
  asset : leg.asset.map assetNormalise = some (assetNormalise debit.asset)
  amount : leg.amount = if 0 ≤ debit.amount then some debit.amount else none
  rest : ∀ l ∈ rest, l.kind.carriesDebit = false

/-- What the parsers of the standard library do: `i64` reads what it prints, and `i128` is in
range. -/
structure ReadsNumbers (N : Network) : Prop where
  decimal : ∀ n : Int64, N.parseI64 (toString n.toInt) = some n.toInt
  range : ∀ s n, N.parseI128 s = some n → n ≤ i128Max

theorem valueAsStroopsI64_decimal (hN : ReadsNumbers N) (n : Int64) :
    valueAsStroopsI64 N (decimal n) = if 0 ≤ n.toInt then some n.toInt else none := by
  simp only [decimal, valueAsStroopsI64]
  rw [hN.decimal n, Option.filter_some]
  simp

theorem derivedAmount_pay (hN : ReadsNumbers N) {args : PolicyArgs}
    (h : args.amountStroops = some (decimal n)) :
    derivedAmount N "stellar_pay_commit" args = if 0 ≤ n.toInt then some n.toInt else none := by
  simp only [derivedAmount, resolvePayOrCreateAccountStroops, resolveStroops, h,
    valueAsStroopsI64_decimal hN]
  split_ifs <;> rfl

theorem derivedAmount_createAccount (hN : ReadsNumbers N) {args : PolicyArgs}
    (h : args.startingBalanceStroops = some (decimal n)) :
    derivedAmount N "stellar_create_account_commit" args =
      if 0 ≤ n.toInt then some n.toInt else none := by
  simp only [derivedAmount, resolvePayOrCreateAccountStroops, resolveStroops, h,
    valueAsStroopsI64_decimal hN]
  split_ifs <;> rfl

theorem payLegs_eq (args : PolicyArgs) : ∃ rest, payLegs N "stellar_pay_commit" args =
      ⟨.payment, derivedAmount N "stellar_pay_commit" args,
        (textOf args.asset).map assetNormalise, textOf args.destination⟩ :: rest ∧
      ∀ l ∈ rest, l.kind.carriesDebit = false := by
  unfold payLegs
  dsimp only
  split_ifs
  · refine ⟨_, rfl, fun l hl => ?_⟩
    rw [mem_singleton.mp hl]
    rfl
  · exact ⟨[], rfl, by simp⟩

theorem pay_describes (hN : ReadsNumbers N) (op : PayOp) : ∃ leg rest,
    Describes (deriveValueClass N "stellar_pay_commit" (decodePayArgs op)) op.debit leg rest := by
  obtain ⟨rest, hlegs, hrest⟩ := payLegs_eq (decodePayArgs op)
  have hvalue : deriveValueClass N "stellar_pay_commit" (decodePayArgs op) =
      .value (payLegs N "stellar_pay_commit" (decodePayArgs op)) := rfl
  have hamount : ∀ n : Int64, (decodePayArgs op).amountStroops = some (decimal n) →
      op.debit.amount = n.toInt → derivedAmount N "stellar_pay_commit" (decodePayArgs op) =
        if 0 ≤ op.debit.amount then some op.debit.amount else none := by
    intro n hn heq
    rw [heq]
    exact derivedAmount_pay hN hn
  refine ⟨_, rest, hvalue.trans (by rw [hlegs]), rfl, ?_, ?_, hrest⟩
  · cases op <;> simp [decodePayArgs, pathPaymentArgs, PayOp.debit, textOf, JsonArg.asStr,
      assetNormalise_idem]
  · cases op <;> exact hamount _ rfl rfl

theorem createAccount_describes (hN : ReadsNumbers N) (destination : String) (balance : Int64) :
    Describes (deriveValueClass N "stellar_create_account_commit"
        (decodeCreateAccountArgs destination balance)) ⟨xdrAssetToString .native, balance.toInt⟩
      ⟨.accountCreation, if 0 ≤ balance.toInt then some balance.toInt else none, some "native",
        some destination⟩ [] := by
  have hasset : assetNormalise "native" = assetNormalise (xdrAssetToString .native) := by decide
  have hargs : (decodeCreateAccountArgs destination balance).startingBalanceStroops =
      some (decimal balance) := rfl
  refine ⟨?_, rfl, congrArg some hasset, rfl, by simp⟩
  rw [← derivedAmount_createAccount hN hargs]
  rfl

theorem parseI128Field_ok {field s : String} {n : ℤ} (h : parseI128Field N field s = .ok n) :
    N.parseI128 s = some n := by
  unfold parseI128Field at h
  split at h
  · next m hm =>
    cases h
    exact hm
  · cases h

theorem dexTrade_leg {leg : ValueLeg} (h : Spending.dexTrade N args = .ok (trade, leg)) :
    N.parseI128 args.qtyIn = some trade.amountIn ∧ canonicalisePath N args.path = .ok trade.path ∧
      leg.kind = .dexTrade ∧ leg.amount = some trade.amountIn ∧ leg.asset = trade.path.head? := by
  simp only [Spending.dexTrade, bind, Except.bind, pure, Except.pure] at h
  split_ifs at h
  rcases hq : parseI128Field N "qty_in" args.qtyIn with e | qtyIn
  · simp [hq] at h
  rcases ho : parseI128Field N "qty_out_min" args.qtyOutMin with e | qtyOutMin
  · simp [hq, ho] at h
  rcases hr : pinnedRouterForNetwork args.chainId with e | router
  · simp [hq, ho, hr] at h
  rcases hp : canonicalisePath N args.path with e | path
  · simp [hq, ho, hr, hp] at h
  simp only [hq, ho, hr, hp, Except.ok.injEq] at h
  obtain ⟨rfl, rfl⟩ := h
  exact ⟨parseI128Field_ok hq, rfl, rfl, rfl, rfl⟩

theorem validateTradeArgs_pos (h : validateTradeArgs N nowSecs trade = .ok ()) :
    0 < trade.amountIn := by
  unfold validateTradeArgs at h
  split at h
  · cases h
  · split at h
    · cases h
    · omega

theorem validateRequirements_ok {amount : ℤ} (h : validateRequirements N r = .ok amount) :
    N.parseI128 r.amount = some amount ∧ 0 < amount ∧ N.isContract r.asset = true := by
  unfold validateRequirements at h
  rcases hnet : x402NetworkToPassphrase r.network with e | passphrase
  · simp only [hnet] at h
    split_ifs at h
  rcases hamount : x402Amount N r with e | parsed
  · simp only [hnet, hamount] at h
    split_ifs at h
  rcases hrecipient : x402Recipient N r with e | u
  · simp only [hnet, hamount, hrecipient] at h
    split_ifs at h
  simp only [hnet, hamount, hrecipient] at h
  split_ifs at h with _ _ _ hasset _
  cases h
  unfold x402Amount at hamount
  split at hamount
  · cases hamount
  · next parsed' hparse =>
    split_ifs at hamount with hpos
    cases hamount
    exact ⟨hparse, by omega, by simpa using hasset⟩

variable {debit : SignedDebit} {value : ValueClass}

theorem dexTrade_submission (h : (Spend.dexTrade args).submission N nowSecs = some (value, debit)) :
    ∃ trade leg token tokens, Spending.dexTrade N args = .ok (trade, leg) ∧ 0 < trade.amountIn ∧
      trade.path = token :: tokens ∧ value = .value [leg] ∧ debit = ⟨token, trade.amountIn⟩ := by
  simp only [Spend.submission] at h
  rcases hd : Spending.dexTrade N args with e | ⟨trade, leg⟩
  · simp [hd] at h
  · simp only [hd] at h
    split at h
    · next token tokens hv hpath =>
      cases h
      exact ⟨trade, leg, token, tokens, rfl, validateTradeArgs_pos hv, hpath, rfl, rfl⟩
    · cases h

theorem x402Payment_submission
    (h : (Spend.x402Payment authenticated r).submission N nowSecs = some (value, debit)) :
    ∃ amount, validateRequirements N r = .ok amount ∧ value = .value [x402ValueLeg r amount] ∧
      debit = ⟨r.asset, amount⟩ := by
  simp only [Spend.submission] at h
  rcases hv : validateRequirements N r with e | amount
  · simp [hv] at h
  · simp only [hv] at h
    cases h
    exact ⟨amount, rfl, rfl, rfl⟩

/-- **The descriptor of a call describes what it signs for.** -/
theorem submission_describes (hN : ReadsNumbers N)
    (h : spend.submission N nowSecs = some (value, debit)) :
    ∃ leg rest, Describes value debit leg rest := by
  cases spend with
  | payCommit op =>
    cases h
    exact pay_describes hN op
  | createAccountCommit destination balance =>
    cases h
    exact ⟨_, _, createAccount_describes hN destination balance⟩
  | dexTrade args =>
    obtain ⟨trade, leg, token, tokens, hd, hpos, hpath, rfl, rfl⟩ := dexTrade_submission h
    obtain ⟨-, -, hkind, hamount, hasset⟩ := dexTrade_leg hd
    refine ⟨leg, [], rfl, by rw [hkind]; rfl, ?_, ?_, by simp⟩
    · rw [hasset, hpath]
      rfl
    · exact hamount.trans (if_pos hpos.le).symm
  | x402Payment authenticated r =>
    obtain ⟨amount, hv, rfl, rfl⟩ := x402Payment_submission h
    have hpos := (validateRequirements_ok hv).2.1
    exact ⟨_, [], rfl, rfl, rfl, (if_pos hpos.le).symm, by simp⟩

theorem toInt_le_i128Max (n : Int64) : n.toInt ≤ i128Max := by
  have hlt := n.toInt_lt
  unfold i128Max
  omega

theorem submission_range (hN : ReadsNumbers N)
    (h : spend.submission N nowSecs = some (value, debit)) : debit.amount ≤ i128Max := by
  cases spend with
  | payCommit op =>
    cases h
    cases op <;> exact toInt_le_i128Max _
  | createAccountCommit destination balance =>
    cases h
    exact toInt_le_i128Max balance
  | dexTrade args =>
    obtain ⟨trade, leg, token, tokens, hd, -, -, -, rfl⟩ := dexTrade_submission h
    exact hN.range _ _ (dexTrade_leg hd).1
  | x402Payment authenticated r =>
    obtain ⟨amount, hv, -, rfl⟩ := x402Payment_submission h
    exact hN.range _ _ (validateRequirements_ok hv).1

section Describes

variable {value : ValueClass} {debit : SignedDebit} {leg : ValueLeg} {rest : List ValueLeg}

/-- What a cap on `asset` sees of a described debit. -/
theorem Describes.debitsOf_eq (h : Describes value debit leg rest) (asset : String) :
    debitsOf asset value =
      if assetNormalise debit.asset = assetNormalise asset ∧ 0 ≤ debit.amount then [debit.amount]
      else [] := by
  have hrest : rest.filterMap (matchingDebit (assetNormalise asset)) = [] := by
    refine filterMap_eq_nil_iff.mpr fun l hl => ?_
    simp [matchingDebit, h.rest l hl]
  rw [h.value_eq]
  simp only [debitsOf, filterMap_cons, hrest]
  have hleg : matchingDebit (assetNormalise asset) leg =
      if assetNormalise debit.asset = assetNormalise asset ∧ 0 ≤ debit.amount then
        some debit.amount else none := by
    unfold matchingDebit
    rw [h.carriesDebit, h.asset, h.amount]
    by_cases hname : assetNormalise debit.asset = assetNormalise asset
    · simp [hname]
    · simp [hname]
  rw [hleg]
  split_ifs <;> rfl

theorem Describes.nonneg (h : Describes value debit leg rest) : NonnegDebits value := by
  rw [h.value_eq]
  intro l hl hdebit a ha
  rcases mem_cons.mp hl with rfl | hl
  · rw [h.amount] at ha
    split_ifs at ha with hpos
    cases ha
    exact hpos
  · rw [h.rest l hl] at hdebit
    cases hdebit

variable {ctx : EvalContext}

theorem Describes.assetDebitSum_error (h : Describes value debit leg rest) {asset : String}
    (hname : assetNormalise debit.asset = assetNormalise asset) (hneg : debit.amount < 0)
    (hv : ctx.value = value) (criterion : String) :
    ∃ e, assetDebitSum ctx asset criterion = .error e := by
  obtain ⟨name, hasset⟩ : ∃ name, leg.asset = some name := by
    cases hl : leg.asset with
    | none =>
      have hmap := h.asset
      rw [hl] at hmap
      cases hmap
    | some name => exact ⟨name, rfl⟩
  have hnorm : assetNormalise name = assetNormalise asset := by
    have hmap := h.asset
    rw [hasset] at hmap
    exact (Option.some.inj hmap).trans hname
  have hamount : leg.amount = none := h.amount.trans (if_neg (by omega))
  have hleg : debitLeg ctx.tool.name criterion (assetNormalise asset) (false, 0) leg =
      .error (.criterionEvaluationFailed (criterion ++
        ": unresolvable amount for a debit leg of tool '" ++ ctx.tool.name ++ "'")) := by
    simp [debitLeg, h.carriesDebit, hasset, hnorm, hamount]
  unfold assetDebitSum classifyValue
  rw [hv, h.value_eq]
  dsimp only
  rw [foldlM_cons, hleg]
  exact ⟨_, rfl⟩

theorem Describes.amount_nonneg {ext : Request Views} {asset : String}
    {c : Criterion (Request Views)} (h : Describes value debit leg rest)
    (hname : assetNormalise debit.asset = assetNormalise asset) (hv : ctx.value = value)
    (hc : (∃ maxStroops, c = .perTxCap asset maxStroops) ∨
      ∃ window maxStroops, c = .perPeriodCap asset window maxStroops)
    (hpass : Passes ext ctx c) : 0 ≤ debit.amount := by
  by_contra hneg
  rcases hc with ⟨maxStroops, rfl⟩ | ⟨window, maxStroops, rfl⟩
  · obtain ⟨e, he⟩ := h.assetDebitSum_error hname (by omega) hv "per_tx_cap"
    have heval := hpass.evaluate_eq (by simp)
    simp only [Criterion.evaluate, evaluatePerTxCap, he] at heval
    cases heval
  · obtain ⟨e, he⟩ := h.assetDebitSum_error hname (by omega) hv "per_period_cap"
    have heval := hpass.evaluate_eq (by simp)
    simp only [Criterion.evaluate, evaluatePerPeriodCap, he] at heval
    cases heval

end Describes

/-! ## Runs -/

section Runs

variable {engine : PolicyEngine (Request Views)} {rule : PolicyRule (Request Views)}
  {a : LedgerAsset} {asset : String}

theorem mem_calls {requests : List (Request Views)} {call : Call (Request Views)}
    (h : call ∈ requests.filterMap (Request.call N)) : ∃ r ∈ requests, ∃ value debit,
      r.submission N = some (value, debit) ∧ call = .single r.tool value r.nowMs r := by
  obtain ⟨r, hr, hcall⟩ := mem_filterMap.mp h
  obtain ⟨⟨value, debit⟩, hs, rfl⟩ := Option.map_eq_some_iff.mp hcall
  exact ⟨r, hr, value, debit, hs, rfl⟩

theorem debitOf_eq {r : Request Views} (hs : r.submission N = some (value, debit))
    (hsac : ¬ BySac N a r) (hasset : assetNormalise asset = assetNormalise (xdrAssetToString a)) :
    r.debitOf N a =
      if assetNormalise debit.asset = assetNormalise asset then debit.amount else 0 := by
  have hname : debit.asset ≠ N.sacContractId a := fun heq => hsac ⟨value, debit, hs, heq⟩
  have hiff : IsAsset N a debit.asset ↔ assetNormalise debit.asset = assetNormalise asset := by
    rw [hasset]
    exact or_iff_left hname
  unfold Request.debitOf
  rw [hs]
  simp [hiff]

theorem effectiveValue_describes {leg : ValueLeg} {rest : List ValueLeg}
    (h : Describes value debit leg rest) : effectiveValue rule value = value := by
  rw [h.value_eq]
  rfl

variable {maxStroops : ℤ}

/-- A request under `per_period_cap` is metered in what it signs for, unless it names the asset by
contract. -/
theorem charges_request (F : TextFormats) (hN : ReadsNumbers N) {r : Request Views}
    {window : Window} {start : ℕ} {charge : Call (Request Views) → ℤ}
    (hs : r.submission N = some (value, debit)) (hsac : ¬ BySac N a r)
    (hasset : assetNormalise asset = assetNormalise (xdrAssetToString a))
    (h : Governed engine rule (.single r.tool value r.nowMs r))
    (hinside : (Call.single r.tool value r.nowMs r).Inside window start)
    (hc : .perPeriodCap asset window maxStroops ∈ rule.criteria) (hmax : maxStroops < i128Max) :
    ledgerDebit N a (.single r.tool value r.nowMs r) = 0 ∨
      (charge (.single r.tool value r.nowMs r) = ledgerDebit N a (.single r.tool value r.nowMs r) →
        Charges F engine (amountMeter engine asset window maxStroops start charge)
          (.single r.tool value r.nowMs r)) := by
  obtain ⟨leg, rest, hdesc⟩ := submission_describes hN hs
  have hdebit : ledgerDebit N a (.single r.tool value r.nowMs r) =
      if assetNormalise debit.asset = assetNormalise asset then debit.amount else 0 :=
    debitOf_eq hs hsac hasset
  by_cases hname : assetNormalise debit.asset = assetNormalise asset
  · rw [if_pos hname] at hdebit
    right
    intro hcharge
    by_cases hneg : debit.amount < 0
    · -- a negative amount is not permitted
      intro store _ hp
      have h0 := hdesc.amount_nonneg hname (effectiveValue_describes hdesc)
        (Or.inr ⟨window, maxStroops, rfl⟩) (permitted_single F h.ruleFor hp _ hc)
      omega
    · refine charges_single_debits F h hinside hc hmax ?_
      rw [hdesc.debitsOf_eq asset, if_pos ⟨hname, by omega⟩, hcharge, hdebit, sum_singleton]
  · exact Or.inl (hdebit.trans (if_neg hname))

/-- A permitted request signs for no more of the asset than `per_tx_cap` says, unless it names the
asset by contract. -/
theorem debitOf_le_perTxCap (F : TextFormats) (hN : ReadsNumbers N) {r : Request Views}
    {store : PolicyStateStore} (hs : r.submission N = some (value, debit)) (hsac : ¬ BySac N a r)
    (hasset : assetNormalise asset = assetNormalise (xdrAssetToString a))
    (hrule : engine.ruleFor r.tool = some rule) (hc : .perTxCap asset maxStroops ∈ rule.criteria)
    (hmin : 0 ≤ maxStroops)
    (hp : permitted F (withStore engine store) (.single r.tool value r.nowMs r) = true) :
    r.debitOf N a ≤ maxStroops := by
  obtain ⟨leg, rest, hdesc⟩ := submission_describes hN hs
  rw [debitOf_eq hs hsac hasset]
  split_ifs with hname
  · have hpass := permitted_single F hrule hp _ hc
    have h0 := hdesc.amount_nonneg hname (effectiveValue_describes hdesc)
      (Or.inl ⟨maxStroops, rfl⟩) hpass
    have hdebits : (leg :: rest).filterMap (matchingDebit (assetNormalise asset)) =
        [debit.amount] := by
      have heq := hdesc.debitsOf_eq asset
      rw [hdesc.value_eq, if_pos ⟨hname, h0⟩] at heq
      exact heq
    have heval := hpass.evaluate_eq (by simp)
    have hroom := perTxCap_room heval ((effectiveValue_describes hdesc).trans hdesc.value_eq)
      (by simp [hdebits])
    rw [hdebits, foldl_addI128 (by simpa using h0), sum_singleton,
      min_eq_left (submission_range hN hs)] at hroom
    exact hroom
  · exact hmin

/-- **A cap on an asset bounds what a run spends of it**, whichever tool moved it and however it was
spelled, unless a call of the run names it by contract.  No call signs for more than `per_tx_cap`,
and the calls inside any one window sign together for no more than `per_period_cap`, when no call
dated behind the window comes before one that is not. -/
theorem asset_caps_bound (F : TextFormats) (N : Network) (hN : ReadsNumbers N)
    (engine : PolicyEngine (Request Views)) (rule : PolicyRule (Request Views)) (a : LedgerAsset)
    (asset : String) (hasset : assetNormalise asset = assetNormalise (xdrAssetToString a))
    (requests : List (Request Views)) (hrule : ∀ r ∈ requests, engine.ruleFor r.tool = some rule)
    (hsac : ∀ r ∈ requests, ¬ BySac N a r) (hstore : NonnegStore engine.stateStore) :
    (∀ maxStroops, 0 ≤ maxStroops → .perTxCap asset maxStroops ∈ rule.criteria →
      ∀ call ∈ carriedOut F engine (requests.filterMap (Request.call N)),
        ledgerDebit N a call ≤ maxStroops) ∧
    (∀ window maxStroops, 0 ≤ maxStroops → maxStroops < i128Max →
      .perPeriodCap asset window maxStroops ∈ rule.criteria →
      ∀ start, InOrder (start + window.asSecs * 1000) (requests.filterMap (Request.call N)) →
        total F engine (requests.filterMap (Request.call N))
          (inWindow window start (ledgerDebit N a)) ≤ maxStroops) := by
  have hcalls : ∀ call ∈ requests.filterMap (Request.call N), Governed engine rule call := by
    intro call hcall
    obtain ⟨r, hr, value, debit, hs, rfl⟩ := mem_calls hcall
    obtain ⟨leg, rest, hdesc⟩ := submission_describes hN hs
    exact ⟨hrule r hr, hdesc.nonneg⟩
  constructor
  · intro maxStroops hmin hc call hcall
    obtain ⟨hmem, store, -, hp⟩ := carriedOut_permitted F hstore
      (fun c hc store => (hcalls c hc).recorded_nonneg F store) call hcall
    obtain ⟨r, hr, value, debit, hs, rfl⟩ := mem_calls hmem
    exact debitOf_le_perTxCap F hN hs (hsac r hr) hasset (hrule r hr) hc hmin hp
  · intro window maxStroops hmin hmax hc start horder
    refine total_inWindow_le F rfl rfl hmin (amountMeter_nonneg engine asset window maxStroops start
      (inWindow window start (ledgerDebit N a))) hstore horder hcalls fun call hcall hinside => ?_
    have h := hcalls call hcall
    obtain ⟨r, hr, value, debit, hs, rfl⟩ := mem_calls hcall
    exact charges_request F hN hs (hsac r hr) hasset h hinside hc hmax

end Runs

/-! ## A trade of a capped asset -/

/-- A test network.  Its `i128` parser knows one text. -/
def testnet : Network where
  isContract s := s == "CNATIVE" || s == "CUSDC" || s == "CWALLET"
  isAccount s := s == "GA"
  parseI128 s := if s == "1000" then some 1000 else none
  passphrase := testnetPassphrase
  mainnetUrl := false
  isMuxed _ := false
  isWhitespace c := c == ' '
  parseI64 s := s.toInt?
  parseLegacyAmount _ _ := .error "unreadable amount"
  sacContractId
    | .native => "CNATIVE"
    | .credit _ _ => "CUSDC"

theorem testnet_readsNumbers : ReadsNumbers testnet where
  decimal n := Int.toInt?_repr n.toInt
  range s n h := by
    simp only [testnet] at h
    split_ifs at h
    cases h
    decide

def nativeCaps : List (Criterion (Request Unit)) :=
  [.perTxCap "native" 100, .perPeriodCap "native" .oneDay 100]

/-- Sells 1000 of the first token for the second. -/
def tradeOf (sell buy : String) : Request Unit :=
  ⟨.dexTrade ⟨"stellar:testnet", "CWALLET", "1000", "1000", [sell, buy], none⟩, "stellar:testnet",
    0, ()⟩

def payNative : Request Unit :=
  ⟨.payCommit (.payment "GA" .native 60), "stellar:testnet", 0, ()⟩

/-- A payment of native and a trade of another asset. -/
def spends : List (Request Unit) := [payNative, tradeOf "CUSDC" "CNATIVE"]

theorem spends_not_bySac : ∀ r ∈ spends, ¬ BySac testnet .native r := by
  intro r hr
  rintro ⟨value, debit, hs, hasset⟩
  rcases mem_cons.mp hr with rfl | hr
  · cases hs
    exact absurd hasset (by decide)
  · obtain rfl := mem_singleton.mp hr
    have hdebit : ((tradeOf "CUSDC" "CNATIVE").submission testnet).map (·.2) =
        some ⟨"CUSDC", 1000⟩ := by decide
    rw [hs] at hdebit
    cases hdebit
    exact absurd hasset (by decide)

/-- The caps hold for the two. -/
theorem asset_caps_bound_native : (∀ call ∈ carriedOut testnet.toTextFormats (engineOf nativeCaps)
        (spends.filterMap (Request.call testnet)), ledgerDebit testnet .native call ≤ 100) ∧
      total testnet.toTextFormats (engineOf nativeCaps) (spends.filterMap (Request.call testnet))
        (inWindow .oneDay 0 (ledgerDebit testnet .native)) ≤ 100 := by
  have hcaps := asset_caps_bound testnet.toTextFormats testnet testnet_readsNumbers
    (engineOf nativeCaps) (ruleOf nativeCaps) .native "native" (by decide) spends
    (by simp only [spends, forall_mem_cons]; exact ⟨rfl, rfl, by simp⟩) spends_not_bySac
    fun k e he => absurd he not_mem_nil
  exact ⟨hcaps.1 100 (by decide) mem_cons_self, hcaps.2 .oneDay 100 (by decide) (by decide)
    (mem_cons_of_mem _ mem_cons_self) 0 (inOrder_of_clock (by decide))⟩

/-- A trade of ten times the caps is permitted: its leg is named `CNATIVE`, and both caps name
`native`. -/
theorem asset_caps_miss_trade :
    assetNormalise "native" = assetNormalise (xdrAssetToString .native) ∧
      (carriedOut testnet.toTextFormats (engineOf nativeCaps)
        ([tradeOf "native" "CUSDC"].filterMap (Request.call testnet))).map
          (ledgerDebit testnet .native) = [1000] := by
  refine ⟨?_, ?_⟩
  · decide
  · decide

end AgentWallet.Policy.AssetCaps
