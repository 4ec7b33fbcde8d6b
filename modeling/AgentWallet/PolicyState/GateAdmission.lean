import AgentWallet.Policy.Windows
import AgentWallet.PolicyState.Hydrate

/-!
# What the gate permits and what admission accepts

The gate evaluates the criteria of a rule one by one against the hydrated store; the reservation
write measures all the entries of the call together against the file.  A criterion that passes
records what fits on top of the file (`fits_single`, `fits_bundle`), so the two can only part where
a criterion records on a key on which an earlier criterion of the same rule has recorded already:
the gate compares each with the file alone, the write also with what the earlier one contributes.
-/

namespace AgentWallet.PolicyState.GateAdmission

open List

open Base.Saturating Policy.Outcome Policy.StateStore Policy.Value Policy.Criteria Policy.Engine
open Policy.Windows PolicyState.Wire PolicyState.Durable PolicyState.Hydrate PolicyEngine

/-! ## Batches -/

/-- What the file holds on `key` at `nowMs`: the sum of the live amounts and their number. -/
def fileWindow (wire : WireFile) (nowMs : ℕ) (key : StateKey) : ℤ × ℕ :=
  let live := ((recordsOn key wire).filter fun r => recordIsLive r nowMs key.windowSecs).map
    (·.amount)
  (live.foldl addI128 0, toU32 live.length)

/-- The amounts that shares take up of `key`. -/
def amountsOn (key : StateKey) (shares : List Share) : List ℤ :=
  (shares.filter fun share => share.key = key).flatMap (·.amounts)

/-- Every criterion that shares its window with an earlier one has room, under its own limit, for
each of its amounts on top of the window, of what the earlier criteria take up of it and of its own
amounts before. -/
def SharedRoom (window : StateKey → ℤ × ℕ) (shares : List Share) : Prop :=
  ∀ earlier share later, shares = earlier ++ share :: later → amountsOn share.key earlier ≠ [] →
    ∀ pre amount post, share.amounts = pre ++ amount :: post →
      Room (window share.key) (amountsOn share.key earlier ++ pre) amount share.limit

variable {shares : List Share} {wire : WireFile} {nowMs : ℕ}

theorem sharedRoom_of_distinct {window : StateKey → ℤ × ℕ}
    (h : shares.Pairwise fun a b => a.key ≠ b.key) : SharedRoom window shares := by
  rintro earlier share later rfl hshared
  have hpair := (pairwise_append.mp h).2.2
  have hnil : earlier.filter (fun other => other.key = share.key) = [] :=
    filter_eq_nil_iff.mpr fun a ha => by simpa using hpair a ha share mem_cons_self
  exact absurd (by rw [amountsOn, hnil, flatMap_nil]) hshared

theorem aheadOn_entries (key : StateKey) (nowMs : ℕ) (shares : List Share) :
    aheadOn key (0, 0) (shares.flatMap (Share.entries nowMs)) =
      (amountsOn key shares).foldl tally (0, 0) := by
  unfold aheadOn amountsOn
  congr 1
  induction shares with
  | nil => rfl
  | cons share shares ih =>
    rw [flatMap_cons, filter_append, map_append, ih]
    by_cases hkey : share.key = key
    · have hown : (share.entries nowMs).filter (fun e => e.key = key) = share.entries nowMs :=
        filter_eq_self.mpr (by simp [Share.entries, hkey])
      rw [hown, filter_cons_of_pos (by simpa using hkey), flatMap_cons]
      simp [Share.entries, Function.comp_def]
    · have hown : (share.entries nowMs).filter (fun e => e.key = key) = [] :=
        filter_eq_nil_iff.mpr (by simp [Share.entries, hkey])
      rw [hown, filter_cons_of_neg (by simpa using hkey), map_nil, nil_append]

/-- An entry of the batch is an amount of one of the shares. -/
theorem entries_eq_append_cons : ∀ {shares : List Share} {pre : List WindowEntry}
    {e : WindowEntry} {post : List WindowEntry},
    shares.flatMap (Share.entries nowMs) = pre ++ e :: post →
    ∃ earlier share later own amount rest, shares = earlier ++ share :: later ∧
      share.amounts = own ++ amount :: rest ∧ e = ⟨share.key, nowMs, amount, share.limit⟩ ∧
      pre = (earlier ++ [{ share with amounts := own }]).flatMap (Share.entries nowMs)
  | [], pre, e, post, h => by simp at h
  | share :: shares, pre, e, post, h => by
    rw [flatMap_cons] at h
    have hcases : (∃ mid, pre = share.entries nowMs ++ mid ∧
        shares.flatMap (Share.entries nowMs) = mid ++ e :: post) ∨
        ∃ mid, share.entries nowMs = pre ++ e :: mid := by
      rcases append_eq_append_iff.mp h with ⟨mid, hpre, hrest⟩ | ⟨mid, hown, hrest⟩
      · exact .inl ⟨mid, hpre, hrest⟩
      · cases mid with
        | nil => exact .inl ⟨[], by simpa using hown.symm, hrest.symm⟩
        | cons x mid =>
          obtain ⟨rfl, -⟩ := List.cons.inj hrest
          exact .inr ⟨mid, hown⟩
    rcases hcases with ⟨mid, rfl, hrest⟩ | ⟨mid, hown⟩
    · obtain ⟨earlier, other, later, own, amount, rest, rfl, hown, he, rfl⟩ :=
        entries_eq_append_cons hrest
      exact ⟨share :: earlier, other, later, own, amount, rest, rfl, hown, he, rfl⟩
    · obtain ⟨own, rest, hamounts, rfl, hrest⟩ := map_eq_append_iff.mp hown
      obtain ⟨amount, rest, rfl, rfl, -⟩ := map_eq_cons_iff.mp hrest
      exact ⟨[], share, shares, own, amount, rest, rfl, hamounts, rfl, by simp [Share.entries]⟩

theorem eq_fileWindow {key : StateKey} {res : ℤ × ℕ} (h : windowInFile wire key nowMs = .ok res) :
    res = fileWindow wire nowMs key := by
  rw [windowInFile_eq_ok h]
  exact Prod.ext (by rw [foldl_tally]; rfl) (foldl_tally_snd _)

theorem admitted_iff_room {key : StateKey} {res : ℤ × ℕ} {amount : ℤ} {limit : WindowLimit}
    (hfile : windowInFile wire key nowMs = .ok res) (ahead : List ℤ) :
    Admitted wire (ahead.foldl tally (0, 0)) ⟨key, nowMs, amount, limit⟩ ↔
      Room (fileWindow wire nowMs key) ahead amount limit := by
  unfold Admitted
  rw [hfile, ← eq_fileWindow hfile]
  simp only [Except.ok.injEq, exists_eq_left']
  rw [foldl_tally_snd, foldl_tally]
  cases limit with
  | amount asset window maxStroops => rfl
  | count window maxCalls => rfl

/-- **Admission of a batch**, when every share fits alone. -/
theorem admitEntries_iff_sharedRoom
    (hfile : ∀ share ∈ shares, ∃ res, windowInFile wire share.key nowMs = .ok res)
    (halone : ∀ share ∈ shares, ∀ pre amount post, share.amounts = pre ++ amount :: post →
      Room (fileWindow wire nowMs share.key) pre amount share.limit) :
    admitEntries wire (shares.flatMap (Share.entries nowMs)) = .ok () ↔
      SharedRoom (fileWindow wire nowMs) shares := by
  -- What is ahead of an amount: the earlier shares of its key, and its own share up to it.
  have hahead : ∀ (earlier : List Share) (share : Share) (own : List ℤ),
      aheadOn share.key (0, 0)
        ((earlier ++ [{ share with amounts := own }]).flatMap (Share.entries nowMs)) =
      (amountsOn share.key earlier ++ own).foldl tally (0, 0) := fun earlier share own => by
    rw [aheadOn_entries]
    simp [amountsOn]
  rw [admitEntries_eq_ok_iff]
  constructor
  · rintro hadmit earlier share later rfl - pre amount post hamounts
    obtain ⟨res, hres⟩ := hfile share (by simp)
    rw [← admitted_iff_room hres, ← hahead]
    refine hadmit _ _ (post.map (fun a => ⟨share.key, nowMs, a, share.limit⟩) ++
      later.flatMap (Share.entries nowMs)) ?_
    simp [Share.entries, hamounts]
  · intro hroom pre e post hsplit
    obtain ⟨earlier, share, later, own, amount, rest, rfl, hamounts, rfl, rfl⟩ :=
      entries_eq_append_cons hsplit
    have hmem : share ∈ earlier ++ share :: later := by simp
    obtain ⟨res, hres⟩ := hfile share hmem
    rw [hahead, admitted_iff_room hres]
    by_cases hshared : amountsOn share.key earlier = []
    · rw [hshared, nil_append]
      exact halone share hmem own amount rest hamounts
    · exact hroom earlier share later rfl hshared own amount rest hamounts

/-! ## Permitted calls -/

section Calls

variable {Ext : Type} {ctx : EvalContext} {criteria : List (Criterion Ext)}
  {f : Criterion Ext → Option Share}

theorem recordConfirmed_eq_shares
    (h : ∀ c : Criterion Ext, c.recordConfirmed ctx = (f c).elim [] (Share.entries ctx.nowMs)) :
    ∀ criteria : List (Criterion Ext), criteria.flatMap (·.recordConfirmed ctx) =
      (criteria.filterMap f).flatMap (Share.entries ctx.nowMs)
  | [] => rfl
  | c :: criteria => by
    rw [flatMap_cons, recordConfirmed_eq_shares h criteria, h c]
    cases hc : f c with
    | none => rw [filterMap_cons_none hc]; rfl
    | some share => rw [filterMap_cons_some hc]; rfl

/-- What the criteria of a rule record is admitted, where each of them has passed, exactly when
those that share a window have room for each other. -/
theorem recorded_admitted_iff
    (hstore : ctx.stateStore = hydrate ctx.profileName wire.entries .new)
    (hrecord : ∀ c : Criterion Ext, c.recordConfirmed ctx = (f c).elim [] (Share.entries ctx.nowMs))
    (hfits : ∀ c ∈ criteria, ∀ share, f c = some share → Fits ctx share) :
    admitEntries wire (criteria.flatMap (·.recordConfirmed ctx)) = .ok () ↔
      SharedRoom (fileWindow wire ctx.nowMs) (criteria.filterMap f) := by
  have hfile : ∀ share ∈ criteria.filterMap f, ∃ res,
      windowInFile wire share.key ctx.nowMs = .ok res ∧ ∀ pre amount post,
        share.amounts = pre ++ amount :: post → Room res pre amount share.limit := by
    intro share hshare
    obtain ⟨c, hc, hsome⟩ := mem_filterMap.mp hshare
    obtain ⟨hprofile, res, hreads, hroom⟩ := hfits c hc share hsome
    have hquery := queryWindow_hydrate wire.entries wire rfl share.key ctx.nowMs
    rw [hprofile, ← hstore, hreads] at hquery
    exact ⟨res, hquery.symm, hroom⟩
  rw [recordConfirmed_eq_shares hrecord]
  refine admitEntries_iff_sharedRoom (fun share hshare => ?_) fun share hshare pre amount post h => ?_
  · obtain ⟨res, hres, -⟩ := hfile share hshare
    exact ⟨res, hres⟩
  · obtain ⟨res, hres, hroom⟩ := hfile share hshare
    rw [← eq_fileWindow hres]
    exact hroom pre amount post h

end Calls

variable {Body Tag Digest : Type} [DecidableEq Tag] [DecidableEq Digest]

/-- **What admission accepts of what the gate permits.**  The gate's store is hydrated from a
verified file.  For every call and every bundle it permits, the reservation write against the same
file at the same instant accepts the recorded entries exactly when the criteria of the rule that
share a window have room for each other. -/
theorem admission_iff_sharedRoom {Ext : Type} {C : Codec Body Tag Digest}
    {state : StoreState Body Tag Digest} {wire : WireFile} {engine : PolicyEngine Ext}
    (hread : readVerified C state = .ok wire)
    (hload : loadInto C state engine.profileName .new = .ok engine.stateStore) :
    (∀ nowMs ext tool value d, engine.evaluateInner nowMs ext tool value = .ok d →
      permits d = true → (admitEntries wire (engine.recordConfirmed nowMs tool value) = .ok () ↔
        ∀ rule, engine.ruleFor tool = some rule → SharedRoom (fileWindow wire nowMs)
          (rule.criteria.filterMap (singleShare engine.profileName value)))) ∧
    (∀ nowMs ext tool inners d, engine.evaluateBundle nowMs ext tool inners = .ok d →
      permits d = true →
      (admitEntries wire (engine.recordConfirmedBundle nowMs tool inners) = .ok () ↔
        ∀ rule, engine.ruleFor tool = some rule → SharedRoom (fileWindow wire nowMs)
          (rule.criteria.filterMap (bundleShare engine.profileName inners)))) := by
  have hstore : engine.stateStore = hydrate engine.profileName wire.entries .new := by
    rw [loadInto_eq hread] at hload
    exact (Except.ok.inj hload).symm
  constructor
  · intro nowMs ext tool value d h hd
    obtain ⟨rule, hrule, hpass⟩ := evaluateInner_permits h hd
    unfold PolicyEngine.recordConfirmed
    simp only [hrule, Option.some.injEq, forall_eq']
    exact recorded_admitted_iff hstore (recordConfirmed_single value)
      fun c hc _ => fits_single (hpass c hc)
  · intro nowMs ext tool inners d h hd
    obtain ⟨rule, hrule, -, overlay, hpass⟩ := evaluateBundle_permits h hd
    unfold PolicyEngine.recordConfirmedBundle
    simp only [hrule, Option.some.injEq, forall_eq']
    exact recorded_admitted_iff hstore recordConfirmed_bundle
      fun c hc _ => fits_bundle (hpass c hc)

/-! ## Two caps on one key -/

def payment (stroops : ℤ) : ValueClass :=
  .value [⟨.payment, some stroops, some "native", some "GB"⟩]

def payTool : ToolDescriptor := ⟨"stellar_pay", "stellar:testnet", .movesValue⟩

/-- The durable state of a profile without history. -/
def noHistory : StoreState WireFile Unit WireFile := ⟨none, none⟩

def capAndLimit : List (Criterion Unit) := [.perPeriodCap "native" .oneDay 100, .rateLimit .oneDay 5]

/-- A cap and a rate limit have keys of their own: the payment is permitted and accepted. -/
theorem admission_of_distinct_keys :
    (engineOf capAndLimit).evaluateInner 0 () payTool (payment 60) = .ok .allow ∧
      admitEntries emptyFile
        ((engineOf capAndLimit).recordConfirmed 0 payTool (payment 60)) = .ok () := by
  have hread : readVerified plainCodec noHistory = .ok emptyFile := rfl
  have hgate : (engineOf capAndLimit).evaluateInner 0 () payTool (payment 60) = .ok .allow := rfl
  refine ⟨hgate, ((admission_iff_sharedRoom hread rfl).1 0 () payTool (payment 60) .allow hgate
    rfl).mpr ?_⟩
  intro rule hrule
  cases hrule
  refine sharedRoom_of_distinct (pairwise_pair.mpr ?_)
  decide

def twoCaps : List (Criterion Unit) :=
  [.perPeriodCap "native" .oneDay 100, .perPeriodCap "native" .oneDay 100]

/-- Two caps of 100 on the native day window: the gate permits a payment of 60, which fits under
each, and the write refuses it, because each cap contributes the 60 once. -/
theorem admission_refuses_permitted :
    (engineOf twoCaps).evaluateInner 0 () payTool (payment 60) = .ok .allow ∧
      readVerified plainCodec noHistory = .ok emptyFile ∧
      loadInto plainCodec noHistory "alice" .new = .ok .new ∧
      admitEntries emptyFile ((engineOf twoCaps).recordConfirmed 0 payTool (payment 60)) =
        .error (.policyDenied (.perPeriodCapExceeded "native" "1d" 100 60 60)) :=
  ⟨rfl, rfl, rfl, rfl⟩

end AgentWallet.PolicyState.GateAdmission
