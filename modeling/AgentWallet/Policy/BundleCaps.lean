import AgentWallet.Policy.CapRuns

/-!
# Caps across bundles

What the four window criteria bound over a sequence of single calls and bundles, inside any window
behind which the clock did not stand before.
-/

namespace AgentWallet.Policy.BundleCaps

open Base.Saturating Policy.StateStore Policy.Value List
open Policy.Criteria Policy.Engine Policy.Windows Policy.CapRuns PolicyEngine

variable {Ext : Type} (F : TextFormats)
  {inner : InnerOpDescriptor} {overlay : BundleStateOverlay} {asset profileName : String}
  {amount : ℤ} {key : StateKey} {c : Criterion Ext} {α : Type}

/-! ## The overlay -/

def InRange (overlay : BundleStateOverlay) : Prop :=
  ∀ k, 0 ≤ overlay.get k ∧ overlay.get k ≤ i128Max

/-- A later overlay of the same bundle: in range, and nothing is taken back. -/
structure Grows (overlay overlay' : BundleStateOverlay) : Prop where
  inRange : InRange overlay'
  get_le : ∀ k, overlay.get k ≤ overlay'.get k

theorem Grows.refl (h : InRange overlay) : Grows overlay overlay :=
  ⟨h, fun _ => le_rfl⟩

theorem Grows.trans {o₁ o₂ o₃ : BundleStateOverlay} (h : Grows o₁ o₂) (h' : Grows o₂ o₃) :
    Grows o₁ o₃ :=
  ⟨h'.inRange, fun k => (h.get_le k).trans (h'.get_le k)⟩

theorem inRange_default : InRange .default :=
  fun _ => ⟨le_rfl, show (0 : ℤ) ≤ i128Max by decide⟩

theorem accumulate_get (h : InRange overlay) (key k : StateKey) (hamount : 0 ≤ amount) :
    (overlay.accumulate key amount).get k =
      if k = key then min (overlay.get key + amount) i128Max else overlay.get k := by
  unfold BundleStateOverlay.accumulate
  dsimp only
  rw [Function.update_apply]
  split_ifs
  · exact satAdd_eq_min (by decide) (h key).1 hamount (by decide)
  · rfl

theorem grows_accumulate (h : InRange overlay) (key : StateKey) (hamount : 0 ≤ amount) :
    Grows overlay (overlay.accumulate key amount) := by
  have hmax : 0 ≤ i128Max := by decide
  constructor
  · intro k
    have hkey := h key
    have hk := h k
    rw [accumulate_get h key k hamount]
    split_ifs <;> omega
  · intro k
    have hk := h k
    rw [accumulate_get h key k hamount]
    split_ifs with heq
    · subst heq
      omega
    · omega

def NonnegTransfer (inner : InnerOpDescriptor) : Prop :=
  ∀ asset a, inner.transferOf asset = some a → 0 ≤ a

theorem nonnegTransfer_of_mem {raw : List (String × String × List JsonArg)}
    (h : inner ∈ decomposeBundle F raw) : NonnegTransfer inner := by
  intro asset a ha
  cases inner with
  | tokenTransfer innerAsset sender recipient amount =>
    simp only [InnerOpDescriptor.transferOf] at ha
    split_ifs at ha
    cases ha
    exact decomposeBundle_amount_nonneg h
  | generic target fnName => cases ha

theorem grows_accumulateOverlay (profileName : String) (hinner : NonnegTransfer inner)
    (c : Criterion Ext) (h : InRange overlay) :
    Grows overlay (c.accumulateOverlay profileName inner overlay) := by
  cases c with
  | perPeriodCap asset window maxStroops =>
    simp only [Criterion.accumulateOverlay]
    cases ht : inner.transferOf (assetNormalise asset) with
    | none => exact .refl h
    | some amount => exact grows_accumulate h _ (hinner _ amount ht)
  | rateLimit window maxCalls => exact grows_accumulate h _ zero_le_one
  | _ => exact .refl h

theorem grows_foldl (profileName : String) (hinner : NonnegTransfer inner) :
    ∀ (criteria : List (Criterion Ext)) {overlay : BundleStateOverlay}, InRange overlay →
    Grows overlay (criteria.foldl (fun o c => c.accumulateOverlay profileName inner o) overlay)
  | [], _, h => .refl h
  | c :: criteria, _, h =>
    have hc := grows_accumulateOverlay profileName hinner c h
    hc.trans (grows_foldl profileName hinner criteria hc.inRange)

/-- A criterion that adds `amount` to `key` when it passes an inner. -/
def Adds (profileName : String) (inner : InnerOpDescriptor) (key : StateKey) (amount : ℤ)
    (c : Criterion Ext) : Prop :=
  ∀ overlay, InRange overlay →
    min (overlay.get key + amount) i128Max ≤ (c.accumulateOverlay profileName inner overlay).get key

theorem adds_foldl (hinner : NonnegTransfer inner) (hadds : Adds profileName inner key amount c) :
    ∀ {criteria : List (Criterion Ext)}
    {overlay : BundleStateOverlay}, c ∈ criteria → InRange overlay →
    min (overlay.get key + amount) i128Max ≤
      (criteria.foldl (fun o c => c.accumulateOverlay profileName inner o) overlay).get key
  | [], _, hmem, _ => absurd hmem not_mem_nil
  | x :: criteria, overlay, hmem, h => by
    have hgrow := grows_accumulateOverlay profileName hinner x h
    rw [foldl_cons]
    rcases mem_cons.mp hmem with rfl | hmem
    · have hrest := grows_foldl profileName hinner criteria hgrow.inRange
      exact (hadds overlay h).trans (hrest.get_le key)
    · have hrest := adds_foldl hinner hadds hmem hgrow.inRange
      have hle := hgrow.get_le key
      omega

/-- **The overlay stands for the inners ahead**, up to saturation. -/
theorem overlay_covers {criteria : List (Criterion Ext)} {amount : InnerOpDescriptor → ℤ}
    (hc : c ∈ criteria) (hlevel : c.isBundleLevel = false)
    (hadds : ∀ inner, NonnegTransfer inner → Adds profileName inner key (amount inner) c) :
    ∀ {pre : List InnerOpDescriptor} {overlay : BundleStateOverlay},
    (∀ inner ∈ pre, NonnegTransfer inner ∧ 0 ≤ amount inner) → InRange overlay →
    min (overlay.get key + (pre.map amount).sum) i128Max ≤
      (pre.foldl (accumulateInner profileName criteria) overlay).get key
  | [], overlay, _, _ => by simp
  | inner :: pre, overlay, hpre, h => by
    have hinner := hpre inner mem_cons_self
    have hrest : ∀ x ∈ pre, NonnegTransfer x ∧ 0 ≤ amount x :=
      fun x hx => hpre x (mem_cons_of_mem _ hx)
    have hmem : c ∈ criteria.filter (!·.isBundleLevel) :=
      mem_filter.mpr ⟨hc, by simp [hlevel]⟩
    have hown := adds_foldl hinner.1 (hadds inner hinner.1) hmem h
    have hgrow := grows_foldl profileName hinner.1 (criteria.filter (!·.isBundleLevel)) h
    have hih := overlay_covers hc hlevel hadds hrest hgrow.inRange
    have hsum : 0 ≤ (pre.map amount).sum := by
      refine List.sum_nonneg fun x hx => ?_
      obtain ⟨y, hy, rfl⟩ := mem_map.mp hx
      exact (hrest y hy).2
    rw [map_cons, sum_cons]
    refine le_trans ?_ hih
    omega

/-! ## The room of a bundle -/

def movedOf (asset : String) (inner : InnerOpDescriptor) : ℤ :=
  (inner.transferOf (assetNormalise asset)).getD 0

theorem movedOf_nonneg (h : NonnegTransfer inner) (asset : String) : 0 ≤ movedOf asset inner := by
  unfold movedOf
  cases ht : inner.transferOf (assetNormalise asset) with
  | none => exact le_rfl
  | some a => exact h _ a ht

theorem sum_transfersOf (asset : String) : ∀ (inners : List InnerOpDescriptor),
    (transfersOf asset inners).sum = (inners.map (movedOf asset)).sum
  | [] => rfl
  | inner :: inners => by
    have hih : (inners.filterMap (·.transferOf (assetNormalise asset))).sum =
        (inners.map (movedOf asset)).sum := sum_transfersOf asset inners
    unfold transfersOf
    rw [map_cons, sum_cons, ← hih]
    unfold movedOf
    cases ht : inner.transferOf (assetNormalise asset) with
    | none => simp [filterMap_cons_none ht]
    | some a => simp [filterMap_cons_some ht]

theorem total_le_of_prefixes {f : α → ℤ} {limit : ℤ} : ∀ (l : List α) (used : ℤ),
    (∀ pre a post, l = pre ++ a :: post → f a ≠ 0 → used + (pre.map f).sum + f a ≤ limit) →
    (l.map f).sum = 0 ∨ used + (l.map f).sum ≤ limit
  | [], _, _ => Or.inl rfl
  | a :: l, used, h => by
    have hih : (l.map f).sum = 0 ∨ used + f a + (l.map f).sum ≤ limit := by
      refine total_le_of_prefixes l (used + f a) fun pre x post hsplit hx => ?_
      have hx' := h (a :: pre) x post (by rw [hsplit, cons_append]) hx
      rw [map_cons, sum_cons] at hx'
      omega
    rw [map_cons, sum_cons]
    by_cases ha : f a = 0
    · omega
    · have hfirst := h [] a l rfl ha
      simp only [map_nil, sum_nil] at hfirst
      omega

theorem sum_map_one (l : List α) : (l.map fun _ => (1 : ℤ)).sum = l.length := by
  simp

theorem callMeter_used (engine : PolicyEngine Ext) (window : Window) (limit start : ℕ)
    (charge : Call Ext → ℤ) (store : PolicyStateStore) :
    (callMeter engine window limit start charge).used store =
      (since store (callKey engine.profileName window) start).length :=
  sum_map_one _

theorem debitsOf_inner {a : ℤ} (h : inner.transferOf (assetNormalise asset) = some a) :
    ∃ legs, valueClassForInner inner = .value legs ∧
      legs.filterMap (matchingDebit (assetNormalise asset)) = [a] := by
  cases inner with
  | tokenTransfer innerAsset sender recipient amount =>
    simp only [InnerOpDescriptor.transferOf] at h
    split_ifs at h with heq
    cases h
    refine ⟨_, rfl, ?_⟩
    simp [matchingDebit, ActionKind.carriesDebit, assetNormalise_idem, heq]
  | generic target fnName => cases h

theorem adds_perPeriodCap (profileName asset : String) (window : Window) (maxStroops : ℤ)
    (h : NonnegTransfer inner) :
    Adds profileName inner (amountKey profileName asset window) (movedOf asset inner)
      (.perPeriodCap asset window maxStroops : Criterion Ext) := by
  intro overlay hrange
  unfold movedOf
  simp only [Criterion.accumulateOverlay]
  cases ht : inner.transferOf (assetNormalise asset) with
  | none => simp
  | some a => simp [accumulate_get hrange _ _ (h _ a ht)]

theorem adds_rateLimit (profileName : String) (window : Window) (maxCalls : ℕ)
    (inner : InnerOpDescriptor) : Adds profileName inner (callKey profileName window) 1
      (.rateLimit window maxCalls : Criterion Ext) := by
  intro overlay hrange
  simp [Criterion.accumulateOverlay, accumulate_get hrange _ _ zero_le_one]

section Room

variable {engine : PolicyEngine Ext} {store : PolicyStateStore} {tool : ToolDescriptor}
  {raw : List (String × String × List JsonArg)} {nowMs start : ℕ} {ext : Ext}
  {rule : PolicyRule Ext} {window : Window} {maxStroops : ℤ}

/-- `per_period_cap` checks a bundle inner by inner: each has room after those ahead of it. -/
theorem perPeriodCap_inner_room {pre post : List InnerOpDescriptor}
    (hpass : ∀ c ∈ rule.criteria, c.isBundleLevel = false → Passes ext ⟨tool, engine.profileName,
      valueClassForInner inner, store, nowMs, some ⟨decomposeBundle F raw,
        pre.foldl (accumulateInner engine.profileName rule.criteria) .default⟩⟩ c)
    (hc : .perPeriodCap asset window maxStroops ∈ rule.criteria) (hmax : maxStroops < i128Max)
    (hsplit : decomposeBundle F raw = pre ++ inner :: post) (hne : movedOf asset inner ≠ 0)
    (hstore : NonnegStore store) (hnow : nowMs ≤ start + window.asSecs * 1000) :
    amountSince store (amountKey engine.profileName asset window) start +
      (pre.map (movedOf asset)).sum + movedOf asset inner ≤ maxStroops := by
  have hmem : ∀ x ∈ pre ++ inner :: post, NonnegTransfer x :=
    fun x hx => nonnegTransfer_of_mem F (hsplit ▸ hx)
  have hpre : ∀ x ∈ pre, NonnegTransfer x ∧ 0 ≤ movedOf asset x := fun x hx =>
    have hx' := hmem x (mem_append_left _ hx)
    ⟨hx', movedOf_nonneg hx' asset⟩
  have hpre0 : 0 ≤ (pre.map (movedOf asset)).sum := by
    refine List.sum_nonneg fun y hy => ?_
    obtain ⟨x, hx, rfl⟩ := mem_map.mp hy
    exact (hpre x hx).2
  have hahead := overlay_covers hc rfl
    (fun x hx => adds_perPeriodCap engine.profileName asset window maxStroops hx) hpre
    inRange_default
  cases ht : inner.transferOf (assetNormalise asset) with
  | none => exact absurd (by simp [movedOf, ht]) hne
  | some a =>
    have ha : movedOf asset inner = a := by simp [movedOf, ht]
    have ha0 : ∀ x ∈ [a], 0 ≤ x := by
      intro x hx
      obtain rfl := mem_singleton.mp hx
      exact hmem inner (by simp) _ x ht
    have heval := (hpass _ hc rfl).evaluate_eq (by simp)
    obtain ⟨legs, hlegs, hdebits⟩ := debitsOf_inner ht
    obtain ⟨res, hreads, hroom⟩ := perPeriodCap_room heval hlegs (by simp [hdebits])
    obtain ⟨hsum, -⟩ := since_le_reads hreads hstore hnow (window_ms_le window)
    rw [ha]
    refine add_add_le_of_satAdd_le (by decide) (by decide) 
      (amountSince_nonneg hstore _ start) hpre0 (ha0 a mem_cons_self) hsum ?_ ?_ hroom hmax
    · exact (zero_add (pre.map (movedOf asset)).sum) ▸ hahead
    · rw [hdebits, foldl_addI128 ha0, sum_singleton]

/-- Under `per_period_cap` or `bundle_per_period_cap` a permitted bundle has room for what it moves
of the asset, on top of what was appended to the window. -/
theorem bundle_transfers_room (hrule : engine.ruleFor tool = some rule)
    (hp : permitted F (withStore engine store) (.bundle tool raw nowMs ext) = true)
    (hc : .perPeriodCap asset window maxStroops ∈ rule.criteria ∨
      .bundlePerPeriodCap asset window maxStroops ∈ rule.criteria)
    (hmax : maxStroops < i128Max) (hstore : NonnegStore store)
    (hnow : nowMs ≤ start + window.asSecs * 1000) :
    (transfersOf asset (decomposeBundle F raw)).sum = 0 ∨
      amountSince store (amountKey engine.profileName asset window) start +
        (transfersOf asset (decomposeBundle F raw)).sum ≤ maxStroops := by
  obtain ⟨hinners, overlay, hbundle⟩ := permitted_bundle F hrule hp
  rcases hc with hc | hc
  · rw [sum_transfersOf]
    refine total_le_of_prefixes _ _ fun pre inner post hsplit hne => ?_
    exact perPeriodCap_inner_room F (hinners pre inner post hsplit) hc hmax hsplit hne hstore hnow
  · have heval := (hbundle _ hc rfl).evaluate_eq (by simp)
    simp only [Criterion.evaluate] at heval
    obtain ⟨res, hreads, hroom⟩ := bundlePerPeriodCap_room rfl heval
    obtain ⟨hsum, -⟩ := since_le_reads hreads hstore hnow (window_ms_le window)
    have hprefixes : ∀ pre a post, transfersOf asset (decomposeBundle F raw) = pre ++ a :: post →
        id a ≠ 0 → amountSince store (amountKey engine.profileName asset window) start +
          (pre.map id).sum + id a ≤ maxStroops := by
      intro pre a post hsplit _
      have hnonneg : ∀ x ∈ pre ++ a :: post, 0 ≤ x :=
        fun x hx => transfersOf_nonneg F x (hsplit ▸ hx)
      have hpre : ∀ x ∈ pre, 0 ≤ x := fun x hx => hnonneg x (mem_append_left _ hx)
      rw [map_id]
      exact add_add_le_of_satAdd_le (by decide) (by decide) (amountSince_nonneg hstore _ start)
        (List.sum_nonneg hpre) (hnonneg a (by simp)) hsum (foldl_addI128 hpre).ge
        (min_le_left a i128Max) (hroom pre a post hsplit) hmax
    have htotal := total_le_of_prefixes _ _ hprefixes
    rwa [map_id] at htotal

variable {maxCalls : ℕ}

/-- Under `rate_limit` or `bundle_rate_limit` a permitted bundle has room for its inners, on top of
the calls appended to the window. -/
theorem bundle_calls_room (hrule : engine.ruleFor tool = some rule)
    (hp : permitted F (withStore engine store) (.bundle tool raw nowMs ext) = true)
    (hc : .rateLimit window maxCalls ∈ rule.criteria ∨
      .bundleRateLimit window maxCalls ∈ rule.criteria)
    (hmax : maxCalls ≤ u32Max) (hstore : NonnegStore store)
    (hnow : nowMs ≤ start + window.asSecs * 1000) : (decomposeBundle F raw).length = 0 ∨
      (since store (callKey engine.profileName window) start).length +
        (decomposeBundle F raw).length ≤ maxCalls := by
  obtain ⟨hinners, overlay, hbundle⟩ := permitted_bundle F hrule hp
  rcases eq_nil_or_concat (decomposeBundle F raw) with hnil | ⟨pre, inner, hlast⟩
  · exact Or.inl (by rw [hnil]; rfl)
  rw [concat_eq_append] at hlast
  right
  rw [hlast, length_append, length_singleton]
  -- the last inner is the one that counts
  suffices hlt : (since store (callKey engine.profileName window) start).length + pre.length <
      maxCalls by omega
  rcases hc with hc | hc
  · have hpass := hinners pre inner [] hlast _ hc rfl
    have heval := hpass.evaluate_eq (by simp)
    obtain ⟨res, hreads, hroom⟩ := rateLimit_room heval
    obtain ⟨-, hcount⟩ := since_le_reads hreads hstore hnow (window_ms_le window)
    have hpre : ∀ x ∈ pre, NonnegTransfer x ∧ (0 : ℤ) ≤ 1 := fun x hx =>
      ⟨nonnegTransfer_of_mem F (hlast ▸ mem_append_left _ hx), zero_le_one⟩
    have hahead := overlay_covers hc rfl
      (fun x _ => adds_rateLimit engine.profileName window maxCalls x) hpre inRange_default
    rw [sum_map_one] at hahead
    refine add_lt_of_usatAdd_lt hcount ?_ hroom hmax
    simp only [aheadOf, toU32]
    have hzero : BundleStateOverlay.default.get (callKey engine.profileName window) = 0 := rfl
    have hwide : (u32Max : ℤ) ≤ i128Max := by decide
    omega
  · have heval := (hbundle _ hc rfl).evaluate_eq (by simp)
    simp only [Criterion.evaluate] at heval
    obtain ⟨res, hreads, hroom⟩ := bundleRateLimit_room rfl heval
    obtain ⟨-, hcount⟩ := since_le_reads hreads hstore hnow (window_ms_le window)
    have hlt := hroom pre.length (by rw [hlast]; simp)
    exact add_lt_of_usatAdd_lt hcount le_rfl hlt hmax

theorem single_calls_room {value : ValueClass}
    (hpass : Passes ext ⟨tool, engine.profileName, effectiveValue rule value, store, nowMs, none⟩
      (.rateLimit window maxCalls))
    (hmax : maxCalls ≤ u32Max) (hstore : NonnegStore store)
    (hnow : nowMs ≤ start + window.asSecs * 1000) :
    (since store (callKey engine.profileName window) start).length + 1 ≤ maxCalls := by
  have heval := hpass.evaluate_eq (by simp)
  obtain ⟨res, hreads, hroom⟩ := rateLimit_room heval
  obtain ⟨-, hcount⟩ := since_le_reads hreads hstore hnow (window_ms_le window)
  exact add_lt_of_usatAdd_lt hcount (show min 0 u32Max ≤ toU32 _ by simp) hroom hmax

end Room

/-! ## Metered calls -/

/-- The rule checks the window of an asset against `maxStroops` when a bundle comes, and records the
bundle there. -/
def MetersTransfers (rule : PolicyRule Ext) (asset : String) (window : Window) (maxStroops : ℤ) :
    Prop :=
  (.perPeriodCap asset window maxStroops ∈ rule.criteria ∨
    .bundlePerPeriodCap asset window maxStroops ∈ rule.criteria) ∧
  ∃ asset' maxStroops', assetNormalise asset' = assetNormalise asset ∧
    .bundlePerPeriodCap asset' window maxStroops' ∈ rule.criteria

/-- The rule checks the calls of a window against `maxCalls` when a bundle comes, and records the
bundle there. -/
def MetersInners (rule : PolicyRule Ext) (window : Window) (maxCalls : ℕ) : Prop :=
  (.rateLimit window maxCalls ∈ rule.criteria ∨ .bundleRateLimit window maxCalls ∈ rule.criteria) ∧
  ∃ maxCalls', .bundleRateLimit window maxCalls' ∈ rule.criteria

section Charges

variable {engine : PolicyEngine Ext} {rule : PolicyRule Ext} {window : Window} {start : ℕ}
  {charge : Call Ext → ℤ} {maxCalls : ℕ}

theorem charges_single_call {tool : ToolDescriptor} {value : ValueClass} {nowMs : ℕ} {ext : Ext}
    (h : Governed engine rule (.single tool value nowMs ext))
    (hinside : (Call.single tool value nowMs ext).Inside window start)
    (hc : .rateLimit window maxCalls ∈ rule.criteria) (hmax : maxCalls ≤ u32Max)
    (hcharge : charge (.single tool value nowMs ext) = 1) :
    Charges F engine (callMeter engine window maxCalls start charge)
      (.single tool value nowMs ext) := by
  refine charges_of_criterion F h (callMeter_nonneg engine window maxCalls start charge) hinside.1
    hc fun store hstore hp => ⟨Or.inr ?_, fun e he => ?_, hcharge.le⟩
  · have hroom := single_calls_room (permitted_single F h.ruleFor hp _ hc) hmax hstore hinside.2
    rw [callMeter_used]
    show _ + charge _ ≤ (maxCalls : ℤ)
    omega
  · obtain rfl := mem_singleton.mp he
    rfl

/-- A bundle is metered in what it moves of an asset, when one criterion checks the window and
`bundle_per_period_cap` records in it. -/
theorem charges_bundle_transfers {tool : ToolDescriptor}
    {raw : List (String × String × List JsonArg)} {nowMs : ℕ} {ext : Ext} {maxStroops : ℤ}
    (h : Governed engine rule (.bundle tool raw nowMs ext))
    (hinside : (Call.bundle tool raw nowMs ext).Inside window start)
    (hc : MetersTransfers rule asset window maxStroops) (hmax : maxStroops < i128Max)
    (hcharge : charge (.bundle tool raw nowMs ext) =
      (transfersOf asset (decomposeBundle F raw)).sum) :
    Charges F engine (amountMeter engine asset window maxStroops start charge)
      (.bundle tool raw nowMs ext) := by
  obtain ⟨hchecks, asset', maxStroops', hasset, hcover⟩ := hc
  refine charges_of_criterion F h (amountMeter_nonneg engine asset window maxStroops start charge)
    hinside.1 hcover fun store hstore hp => ⟨?_, fun e he => ?_, le_of_eq ?_⟩
  · show charge _ = 0 ∨ amountSince store (amountKey engine.profileName asset window) start +
      charge _ ≤ maxStroops
    rw [hcharge]
    exact bundle_transfers_room F h.ruleFor hp hchecks hmax hstore hinside.2
  · obtain ⟨a, -, rfl⟩ := mem_map.mp he
    show amountKey engine.profileName asset' window = amountKey engine.profileName asset window
    unfold amountKey
    rw [hasset]
  · refine hcharge.trans ?_
    unfold transfersOf
    rw [← hasset]
    simp [Criterion.recordConfirmed, Call.recordContext, PolicyEngine.recordBundleContext, toRecord,
      amountMeter, Function.comp_def]

/-- A bundle is metered in its inners, when one criterion checks the window and `bundle_rate_limit`
records in it. -/
theorem charges_bundle_calls {tool : ToolDescriptor} {raw : List (String × String × List JsonArg)}
    {nowMs : ℕ} {ext : Ext} (h : Governed engine rule (.bundle tool raw nowMs ext))
    (hinside : (Call.bundle tool raw nowMs ext).Inside window start)
    (hc : MetersInners rule window maxCalls) (hmax : maxCalls ≤ u32Max)
    (hcharge : charge (.bundle tool raw nowMs ext) = (decomposeBundle F raw).length) :
    Charges F engine (callMeter engine window maxCalls start charge)
      (.bundle tool raw nowMs ext) := by
  obtain ⟨hchecks, maxCalls', hcover⟩ := hc
  refine charges_of_criterion F h (callMeter_nonneg engine window maxCalls start charge) hinside.1
    hcover fun store hstore hp => ⟨?_, fun e he => ?_, le_of_eq ?_⟩
  · have hroom := bundle_calls_room F h.ruleFor hp hchecks hmax hstore hinside.2
    rw [callMeter_used]
    show charge _ = 0 ∨ _ + charge _ ≤ (maxCalls : ℤ)
    omega
  · obtain ⟨a, -, rfl⟩ := mem_map.mp he
    rfl
  · refine hcharge.trans ?_
    simp [Criterion.recordConfirmed, Call.recordContext, PolicyEngine.recordBundleContext,
      callMeter]

end Charges

/-! ## What the criteria bound -/

def debits (asset : String) : Call Ext → ℤ
  | .single _ value _ _ => (debitsOf asset value).sum
  | .bundle .. => 0

def transfers (asset : String) : Call Ext → ℤ
  | .single .. => 0
  | .bundle _ raw _ _ => (transfersOf asset (decomposeBundle F raw)).sum

def singles : Call Ext → ℤ
  | .single .. => 1
  | .bundle .. => 0

def inners : Call Ext → ℤ
  | .single .. => 0
  | .bundle _ raw _ _ => (decomposeBundle F raw).length

section Bounds

variable {engine : PolicyEngine Ext} {rule : PolicyRule Ext} {calls : List (Call Ext)}

theorem total_amount_le (asset : String) {window : Window} {maxStroops : ℤ} (start : ℕ)
    {charge : Call Ext → ℤ} (hcalls : ∀ call ∈ calls, Governed engine rule call)
    (hmin : 0 ≤ maxStroops) (hmax : maxStroops < i128Max) (hstore : NonnegStore engine.stateStore)
    (horder : InOrder (start + window.asSecs * 1000) calls)
    (hsingle : ∀ tool value nowMs ext, charge (.single tool value nowMs ext) = 0 ∨
      charge (.single tool value nowMs ext) = (debitsOf asset value).sum ∧
        .perPeriodCap asset window maxStroops ∈ rule.criteria)
    (hbundle : ∀ tool raw nowMs ext, charge (.bundle tool raw nowMs ext) = 0 ∨
      charge (.bundle tool raw nowMs ext) = (transfersOf asset (decomposeBundle F raw)).sum ∧
        MetersTransfers rule asset window maxStroops) :
    total F engine calls (inWindow window start charge) ≤ maxStroops := by
  refine total_inWindow_le F rfl rfl hmin (amountMeter_nonneg engine asset window maxStroops start
    (inWindow window start charge)) hstore horder hcalls fun call hcall hinside => ?_
  have h := hcalls call hcall
  cases call with
  | single tool value nowMs ext =>
    refine (hsingle tool value nowMs ext).imp_right ?_
    rintro ⟨hcharge, hc⟩ hin
    exact charges_single_debits F h hinside hc hmax (hin.trans hcharge)
  | bundle tool raw nowMs ext =>
    refine (hbundle tool raw nowMs ext).imp_right ?_
    rintro ⟨hcharge, hc⟩ hin
    exact charges_bundle_transfers F h hinside hc hmax (hin.trans hcharge)

theorem total_calls_le {window : Window} {maxCalls : ℕ} (start : ℕ) {charge : Call Ext → ℤ}
    (hcalls : ∀ call ∈ calls, Governed engine rule call) (hmax : maxCalls ≤ u32Max)
    (hstore : NonnegStore engine.stateStore)
    (horder : InOrder (start + window.asSecs * 1000) calls)
    (hsingle : ∀ tool value nowMs ext, charge (.single tool value nowMs ext) = 0 ∨
      charge (.single tool value nowMs ext) = 1 ∧ .rateLimit window maxCalls ∈ rule.criteria)
    (hbundle : ∀ tool raw nowMs ext, charge (.bundle tool raw nowMs ext) = 0 ∨
      charge (.bundle tool raw nowMs ext) = (decomposeBundle F raw).length ∧
        MetersInners rule window maxCalls) :
    total F engine calls (inWindow window start charge) ≤ maxCalls := by
  refine total_inWindow_le F rfl rfl (Int.natCast_nonneg _) (callMeter_nonneg engine window maxCalls
    start (inWindow window start charge)) hstore horder hcalls fun call hcall hinside => ?_
  have h := hcalls call hcall
  cases call with
  | single tool value nowMs ext =>
    refine (hsingle tool value nowMs ext).imp_right ?_
    rintro ⟨hcharge, hc⟩ hin
    exact charges_single_call F h hinside hc hmax (hin.trans hcharge)
  | bundle tool raw nowMs ext =>
    refine (hbundle tool raw nowMs ext).imp_right ?_
    rintro ⟨hcharge, hc⟩ hin
    exact charges_bundle_calls F h hinside hc hmax (hin.trans hcharge)

/-- Every bundle by itself stays within `per_period_cap` and `rate_limit`. -/
theorem bundle_within (hcalls : ∀ call ∈ calls, Governed engine rule call)
    (hstore : NonnegStore engine.stateStore) : ∀ call ∈ carriedOut F engine calls,
      (∀ asset window maxStroops, 0 ≤ maxStroops → maxStroops < i128Max →
        .perPeriodCap asset window maxStroops ∈ rule.criteria →
        transfers F asset call ≤ maxStroops) ∧
      (∀ window, ∀ maxCalls ≤ u32Max, .rateLimit window maxCalls ∈ rule.criteria →
        inners F call ≤ maxCalls) := by
  intro call hcall
  obtain ⟨hmem, store, hnonneg, hp⟩ := carriedOut_permitted F hstore
    (fun c hc store => (hcalls c hc).recorded_nonneg F store) call hcall
  have h := hcalls call hmem
  cases call with
  | single tool value nowMs ext =>
    exact ⟨fun _ _ _ hmin _ _ => hmin, fun _ _ _ _ => Int.natCast_nonneg _⟩
  | bundle tool raw nowMs ext =>
    constructor
    · intro asset window maxStroops hmin hmax hc
      have hroom := bundle_transfers_room F h.ruleFor hp (Or.inl hc) hmax hnonneg
        (Nat.le_add_right nowMs _)
      have hused := amountSince_nonneg hnonneg (amountKey engine.profileName asset window) nowMs
      simp only [transfers]
      omega
    · intro window maxCalls hmax hc
      have hroom := bundle_calls_room F h.ruleFor hp (Or.inl hc) hmax hnonneg
        (Nat.le_add_right nowMs _)
      simp only [inners]
      omega

/-- **What the window criteria bound**, over any sequence of single calls and bundles that one rule
governs, inside any window such that no call dated behind it comes before one that is not.

`per_period_cap` and `rate_limit` bound the single calls, and each bundle by itself; with the bundle
criterion of the same window in the rule they bound single calls and bundles together.
`bundle_per_period_cap` and `bundle_rate_limit` bound the bundles. -/
theorem caps_across_bundles (engine : PolicyEngine Ext) (rule : PolicyRule Ext) (window : Window)
    (start : ℕ) (calls : List (Call Ext)) (hcalls : ∀ call ∈ calls, Governed engine rule call)
    (hstore : NonnegStore engine.stateStore)
    (horder : InOrder (start + window.asSecs * 1000) calls) :
    (∀ asset maxStroops, 0 ≤ maxStroops → maxStroops < i128Max →
      (.perPeriodCap asset window maxStroops ∈ rule.criteria →
        total F engine calls (inWindow window start (debits asset)) ≤ maxStroops ∧
        (∀ call ∈ carriedOut F engine calls, transfers F asset call ≤ maxStroops) ∧
        (∀ asset' maxStroops', assetNormalise asset' = assetNormalise asset →
          .bundlePerPeriodCap asset' window maxStroops' ∈ rule.criteria →
          total F engine calls (inWindow window start fun call =>
            debits asset call + transfers F asset call) ≤ maxStroops)) ∧
      (.bundlePerPeriodCap asset window maxStroops ∈ rule.criteria →
        total F engine calls (inWindow window start (transfers F asset)) ≤ maxStroops)) ∧
    (∀ maxCalls ≤ u32Max, (.rateLimit window maxCalls ∈ rule.criteria →
        total F engine calls (inWindow window start singles) ≤ maxCalls ∧
        (∀ call ∈ carriedOut F engine calls, inners F call ≤ maxCalls) ∧
        (∀ maxCalls', .bundleRateLimit window maxCalls' ∈ rule.criteria →
          total F engine calls (inWindow window start fun call =>
            singles call + inners F call) ≤ maxCalls)) ∧
      (.bundleRateLimit window maxCalls ∈ rule.criteria →
        total F engine calls (inWindow window start (inners F)) ≤ maxCalls)) := by
  have hwithin := bundle_within F hcalls hstore
  constructor
  · intro asset maxStroops hmin hmax
    refine ⟨fun hc => ⟨?_, ?_, ?_⟩, fun hc => ?_⟩
    · exact total_amount_le F asset start hcalls hmin hmax hstore horder
        (fun _ _ _ _ => Or.inr ⟨rfl, hc⟩) fun _ _ _ _ => Or.inl rfl
    · exact fun call hcall => (hwithin call hcall).1 asset window maxStroops hmin hmax hc
    · intro asset' maxStroops' hasset hcover
      refine total_amount_le F asset start hcalls hmin hmax hstore horder
        (fun _ _ _ _ => Or.inr ⟨add_zero _, hc⟩) fun _ _ _ _ => Or.inr ⟨zero_add _, ?_⟩
      exact ⟨Or.inl hc, asset', maxStroops', hasset, hcover⟩
    · refine total_amount_le F asset start hcalls hmin hmax hstore horder
        (fun _ _ _ _ => Or.inl rfl) fun _ _ _ _ => Or.inr ⟨rfl, ?_⟩
      exact ⟨Or.inr hc, asset, maxStroops, rfl, hc⟩
  · intro maxCalls hmax
    refine ⟨fun hc => ⟨?_, ?_, ?_⟩, fun hc => ?_⟩
    · exact total_calls_le F start hcalls hmax hstore horder (fun _ _ _ _ => Or.inr ⟨rfl, hc⟩)
        fun _ _ _ _ => Or.inl rfl
    · exact fun call hcall => (hwithin call hcall).2 window maxCalls hmax hc
    · intro maxCalls' hcover
      refine total_calls_le F start hcalls hmax hstore horder (fun _ _ _ _ => Or.inr ⟨add_zero _, hc⟩)
        fun _ _ _ _ => Or.inr ⟨zero_add _, ?_⟩
      exact ⟨Or.inl hc, maxCalls', hcover⟩
    · refine total_calls_le F start hcalls hmax hstore horder (fun _ _ _ _ => Or.inl rfl)
        fun _ _ _ _ => Or.inr ⟨rfl, ?_⟩
      exact ⟨Or.inr hc, maxCalls, hc⟩

end Bounds

/-! ## A sequence of bundles -/

def oneToken : TextFormats := ⟨fun s => s == "CTOKEN", fun _ => true, fun _ => none⟩

def transferBundle : Call Unit :=
  .bundle ⟨"stellar_multicall", "stellar:testnet", .movesValue⟩
    [("CTOKEN", "transfer", [.string "GA", .string "GB", .integer 100])] 0 ()

theorem transferBundle_governed (criteria : List (Criterion Unit)) :
    ∀ call ∈ [transferBundle, transferBundle],
      Governed (engineOf criteria) (ruleOf criteria) call := by
  intro call hcall
  have heq : call = transferBundle := by simpa using hcall
  rw [heq]
  exact ⟨rfl, trivial⟩

def bothPaths : List (Criterion Unit) :=
  [.perPeriodCap "CTOKEN" .oneDay 100, .bundlePerPeriodCap "CTOKEN" .oneDay 100]

/-- With the bundle criterion in the rule, a second bundle is refused. -/
theorem caps_across_two_bundles :
    carriedOut oneToken (engineOf bothPaths) [transferBundle, transferBundle] = [transferBundle] ∧
      total oneToken (engineOf bothPaths) [transferBundle, transferBundle]
        (inWindow .oneDay 0 fun call =>
          debits "CTOKEN" call + transfers oneToken "CTOKEN" call) ≤ 100 := by
  refine ⟨rfl, ?_⟩
  have hcaps := (caps_across_bundles oneToken (engineOf bothPaths) (ruleOf bothPaths) .oneDay 0
    [transferBundle, transferBundle] (transferBundle_governed bothPaths)
    (fun k e he => absurd he not_mem_nil) (inOrder_of_clock (by decide))).1 "CTOKEN" 100
    (by decide) (by decide)
  exact (hcaps.1 mem_cons_self).2.2 "CTOKEN" 100 rfl (mem_cons_of_mem _ mem_cons_self)

/-- A rule that caps the token on the single path only. -/
def singlePath : List (Criterion Unit) :=
  [.perPeriodCap "CTOKEN" .oneDay 100, .rateLimit .oneDay 1]

/-- Without the bundle criteria both bundles are permitted: 200 units under a cap of 100, and two
inners under a limit of one call. -/
theorem caps_forget_bundles : (∀ call ∈ [transferBundle, transferBundle],
      Governed (engineOf singlePath) (ruleOf singlePath) call) ∧
    total oneToken (engineOf singlePath) [transferBundle, transferBundle]
      (inWindow .oneDay 0 (transfers oneToken "CTOKEN")) = 200 ∧
    total oneToken (engineOf singlePath) [transferBundle, transferBundle]
      (inWindow .oneDay 0 (inners oneToken)) = 2 :=
  ⟨transferBundle_governed singlePath, rfl, rfl⟩

end AgentWallet.Policy.BundleCaps
