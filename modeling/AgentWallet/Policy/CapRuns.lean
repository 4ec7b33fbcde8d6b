import AgentWallet.Base.Runs
import AgentWallet.Base.SlidingWindow
import AgentWallet.Policy.Windows

/-!
# Runs of the gate

A run is a sequence of single calls and bundles.  Each is put to the gate; a permitted one is
carried out and recorded.  `metered_run` is the one induction: if everything a permitted call
charges to a key has room on top of what the run has appended there, and is covered by what it
records there, then all the calls of the run together stay within the limit.
-/

namespace AgentWallet.Policy.CapRuns

open Base.Saturating Base.Runs Base.SlidingWindow Policy.Outcome Policy.StateStore Policy.Value List
open Policy.Criteria Policy.Engine Policy.Windows PolicyEngine

variable {store : PolicyStateStore} {start : ℕ} {value : ValueClass} {asset : String}
  {window : Window} {maxStroops : ℤ} {ctx : EvalContext}
  {raw : List (String × String × List JsonArg)}

/-- A call put to the gate.  A bundle comes as its raw invocations. -/
inductive Call (Ext : Type) where
  | single (tool : ToolDescriptor) (value : ValueClass) (nowMs : ℕ) (ext : Ext)
  | bundle (tool : ToolDescriptor) (raw : List (String × String × List JsonArg)) (nowMs : ℕ)
      (ext : Ext)

variable {Ext : Type} (F : TextFormats)

def Call.tool : Call Ext → ToolDescriptor
  | .single tool _ _ _ => tool
  | .bundle tool _ _ _ => tool

def Call.nowMs : Call Ext → ℕ
  | .single _ _ nowMs _ => nowMs
  | .bundle _ _ nowMs _ => nowMs

def verdict (engine : PolicyEngine Ext) : Call Ext → Except PolicyError Decision
  | .single tool value nowMs ext => engine.evaluateInner nowMs ext tool value
  | .bundle tool raw nowMs ext => engine.evaluateBundle nowMs ext tool (decomposeBundle F raw)

def permitted (engine : PolicyEngine Ext) (call : Call Ext) : Bool :=
  match verdict F engine call with
  | .ok d => permits d
  | .error _ => false

def recorded (engine : PolicyEngine Ext) : Call Ext → List WindowEntry
  | .single tool value nowMs _ => engine.recordConfirmed nowMs tool value
  | .bundle tool raw nowMs _ => engine.recordConfirmedBundle nowMs tool (decomposeBundle F raw)

/-- The window keys that the gate queries for a call. -/
def queried (engine : PolicyEngine Ext) : Call Ext → List StateKey
  | .single tool value nowMs ext => engine.innerKeys nowMs ext tool value
  | .bundle tool raw nowMs ext => engine.bundleKeys nowMs ext tool (decomposeBundle F raw)

/-- The engine with another store. -/
def withStore (engine : PolicyEngine Ext) (store : PolicyStateStore) : PolicyEngine Ext :=
  { engine with stateStore := store }

/-- One call: the queries of the gate evict what has aged out, and a permitted call is carried out
and recorded. -/
def step (s : PolicyEngine Ext × List (Call Ext)) (call : Call Ext) :
    PolicyEngine Ext × List (Call Ext) :=
  let engine := withStore s.1 (s.1.stateStore.evict call.nowMs (queried F s.1 call))
  if permitted F s.1 call then (engine.append (recorded F s.1 call), s.2 ++ [call])
  else (engine, s.2)

/-- The calls of a sequence that are carried out. -/
def carriedOut (engine : PolicyEngine Ext) (calls : List (Call Ext)) : List (Call Ext) :=
  (run (step F) (engine, []) calls).2

/-- The total of a charge over the calls that are carried out. -/
def total (engine : PolicyEngine Ext) (calls : List (Call Ext)) (charge : Call Ext → ℤ) : ℤ :=
  ((carriedOut F engine calls).map charge).sum

/-! ## The store along a run -/

variable {engine : PolicyEngine Ext} {rule : PolicyRule Ext} {call : Call Ext} {ext : Ext}
  {calls : List (Call Ext)} {s : PolicyEngine Ext × List (Call Ext)} {c : Criterion Ext}

def toRecord (e : WindowEntry) : StateEntry := ⟨e.timestampMs, e.amount, false⟩

theorem foldl_append_inner (key : StateKey) : ∀ (entries : List WindowEntry) (s : PolicyStateStore),
    (entries.foldl (fun s e => s.append e.key e.timestampMs e.amount) s).inner key =
      s.inner key ++ (entries.filter fun e => e.key = key).map toRecord
  | [], s => by simp
  | e :: entries, s => by
    rw [foldl_cons, foldl_append_inner key entries]
    unfold PolicyStateStore.append PolicyStateStore.appendEntry
    by_cases hk : e.key = key
    · subst hk
      simp [toRecord]
    · simp [hk, Function.update_of_ne (Ne.symm hk)]

theorem append_inner (engine : PolicyEngine Ext) (entries : List WindowEntry) (key : StateKey) :
    (engine.append entries).stateStore.inner key =
      engine.stateStore.inner key ++ (entries.filter fun e => e.key = key).map toRecord :=
  foldl_append_inner key entries engine.stateStore

def NonnegStore (store : PolicyStateStore) : Prop := ∀ key, ∀ e ∈ store.inner key, 0 ≤ e.amount

def since (store : PolicyStateStore) (key : StateKey) (start : ℕ) : List StateEntry :=
  (store.inner key).filter fun e => start ≤ e.timestampMs

def amountSince (store : PolicyStateStore) (key : StateKey) (start : ℕ) : ℤ :=
  ((since store key start).map (·.amount)).sum

theorem amountSince_nonneg (hstore : NonnegStore store) (key : StateKey) (start : ℕ) :
    0 ≤ amountSince store key start := by
  refine List.sum_nonneg fun x hx => ?_
  obtain ⟨e, he, rfl⟩ := mem_map.mp hx
  exact hstore key e (mem_of_mem_filter he)

/-- A query inside the window that starts at `start` keeps every record from then on. -/
theorem isKept_of_since {windowSecs nowMs : ℕ} {e : StateEntry} (h : start ≤ e.timestampMs)
    (hnow : nowMs ≤ start + windowSecs * 1000) (hrange : windowSecs * 1000 ≤ u64Max) :
    e.isKept windowSecs nowMs = true := by
  have hmul : mulU64 windowSecs 1000 = windowSecs * 1000 := by
    unfold mulU64 usatMul
    omega
  unfold StateEntry.isKept
  rw [Bool.or_eq_true, decide_eq_true_eq]
  right
  omega

theorem window_ms_le (w : Window) : w.asSecs * 1000 ≤ u64Max := by
  cases w <;> decide

theorem since_le_reads {key : StateKey} {res : ℤ × ℕ} (h : Reads ctx key res)
    (hstore : NonnegStore ctx.stateStore) (hnow : ctx.nowMs ≤ start + key.windowSecs * 1000)
    (hrange : key.windowSecs * 1000 ≤ u64Max) :
    min (amountSince ctx.stateStore key start) i128Max ≤ res.1 ∧
      min (since ctx.stateStore key start).length u32Max ≤ res.2 := by
  have hsub : (since ctx.stateStore key start).Sublist
      ((ctx.stateStore.inner key).filter (StateEntry.isKept key.windowSecs ctx.nowMs)) := by
    refine monotone_filter_right _ fun e he => ?_
    exact isKept_of_since (of_decide_eq_true he) hnow hrange
  have hkept : ∀ e ∈ (ctx.stateStore.inner key).filter
      (StateEntry.isKept key.windowSecs ctx.nowMs), 0 ≤ e.amount :=
    fun e he => hstore key e (mem_of_mem_filter he)
  unfold Reads at h
  rw [PolicyStateStore.queryWindow_fst] at h
  split at h
  · cases h
  · have hres := (Except.ok.inj h).symm
    have hamounts : ∀ a ∈ ((ctx.stateStore.inner key).filter
        (StateEntry.isKept key.windowSecs ctx.nowMs)).map (·.amount), 0 ≤ a := by
      intro a ha
      obtain ⟨e, he, rfl⟩ := mem_map.mp ha
      exact hkept e he
    have hsum := foldl_tally_fst hamounts
    have hcount := foldl_tally_snd (((ctx.stateStore.inner key).filter
        (StateEntry.isKept key.windowSecs ctx.nowMs)).map (·.amount))
    have hle : amountSince ctx.stateStore key start ≤
        (((ctx.stateStore.inner key).filter
          (StateEntry.isKept key.windowSecs ctx.nowMs)).map (·.amount)).sum :=
      sum_map_le_of_sublist hsub hkept
    have hlen := hsub.length_le
    rw [hres, hcount, length_map]
    constructor
    · omega
    · omega

/-! ## Metered keys -/

/-- What a run charges to a key: the weight of the key's records, the limit, the instant the window
starts, and the charge of a call. -/
structure Meter (Ext : Type) where
  key : StateKey
  weight : StateEntry → ℤ
  limit : ℤ
  start : ℕ
  charge : Call Ext → ℤ

/-- What the key of a meter holds since the window started. -/
def Meter.used (m : Meter Ext) (store : PolicyStateStore) : ℤ :=
  ((since store m.key m.start).map m.weight).sum

/-- The entries of the key of a meter, of those a call records inside the window. -/
def Meter.own (m : Meter Ext) (entries : List WindowEntry) : List StateEntry :=
  ((entries.filter fun e => e.key = m.key).map toRecord).filter fun e => m.start ≤ e.timestampMs

/-- The weight of a record that is not negative is not negative. -/
def Meter.Nonneg (m : Meter Ext) : Prop := ∀ e : StateEntry, 0 ≤ e.amount → 0 ≤ m.weight e

variable {m : Meter Ext}

theorem Meter.used_nonneg (h : m.Nonneg) (hstore : NonnegStore store) : 0 ≤ m.used store := by
  refine List.sum_nonneg fun x hx => ?_
  obtain ⟨e, he, rfl⟩ := mem_map.mp hx
  exact h e (hstore m.key e (mem_of_mem_filter he))

theorem Meter.used_append (m : Meter Ext) (engine : PolicyEngine Ext)
    (entries : List WindowEntry) : m.used (engine.append entries).stateStore =
      m.used engine.stateStore + ((m.own entries).map m.weight).sum := by
  unfold Meter.used Meter.own since
  rw [append_inner, filter_append, map_append, sum_append]

theorem nonnegStore_append {entries : List WindowEntry} (hstore : NonnegStore engine.stateStore)
    (hentries : ∀ e ∈ entries, 0 ≤ e.amount) : NonnegStore (engine.append entries).stateStore := by
  intro key e he
  rw [append_inner] at he
  rcases mem_append.mp he with he | he
  · exact hstore key e he
  · obtain ⟨x, hx, rfl⟩ := mem_map.mp he
    exact hentries x (mem_of_mem_filter hx)

/-- The state of a run that started from `engine`: the charges of the calls carried out are covered
by what the key holds, and within the limit. -/
structure Metered (engine : PolicyEngine Ext) (m : Meter Ext)
    (s : PolicyEngine Ext × List (Call Ext)) : Prop where
  rules : ∃ store, s.1 = withStore engine store
  nonneg : NonnegStore s.1.stateStore
  covered : (s.2.map m.charge).sum ≤ m.used s.1.stateStore
  capped : (s.2.map m.charge).sum ≤ m.limit

/-- A permitted call has room for its charge, records it, and records nothing negative. -/
def Charges (engine : PolicyEngine Ext) (m : Meter Ext) (call : Call Ext) : Prop :=
  ∀ store, NonnegStore store → permitted F (withStore engine store) call = true →
    (m.charge call = 0 ∨ m.used store + m.charge call ≤ m.limit) ∧
    (∀ e ∈ recorded F (withStore engine store) call, 0 ≤ e.amount) ∧
    m.charge call ≤ ((m.own (recorded F (withStore engine store) call)).map m.weight).sum

/-- The last instant of the window of a meter. -/
def Meter.stop (m : Meter Ext) : ℕ := m.start + m.key.windowSecs * 1000

theorem Meter.used_evict {nowMs : ℕ} (hnow : nowMs ≤ m.stop)
    (hrange : m.key.windowSecs * 1000 ≤ u64Max) (keys : List StateKey) :
    m.used (store.evict nowMs keys) = m.used store := by
  obtain ⟨p, hp, heq⟩ := PolicyStateStore.evict_inner nowMs m.key keys store
  unfold Meter.used since
  rw [heq, filter_filter]
  congr 2
  refine filter_congr fun e _ => ?_
  by_cases hsince : m.start ≤ e.timestampMs
  · rw [hp e (isKept_of_since hsince hnow hrange), Bool.and_true]
  · simp [hsince]

theorem nonnegStore_evict (hstore : NonnegStore store) (nowMs : ℕ) (keys : List StateKey) :
    NonnegStore (store.evict nowMs keys) := by
  intro key e he
  obtain ⟨p, -, heq⟩ := PolicyStateStore.evict_inner nowMs key keys store
  rw [heq] at he
  exact hstore key e (mem_of_mem_filter he)

theorem Metered.step (h : Metered engine m s) (hrange : m.key.windowSecs * 1000 ≤ u64Max)
    (hnow : call.nowMs ≤ m.stop) (hcharges : Charges F engine m call) :
    Metered engine m (step F s call) := by
  obtain ⟨gate, carried⟩ := s
  obtain ⟨⟨store, rfl⟩, hnonneg, hcovered, hcap⟩ := h
  have hevict : m.used (store.evict call.nowMs (queried F (withStore engine store) call)) =
      m.used store := m.used_evict hnow hrange _
  have hnonneg' := nonnegStore_evict hnonneg call.nowMs (queried F (withStore engine store) call)
  have hcovered : (carried.map m.charge).sum ≤ m.used store := hcovered
  unfold CapRuns.step
  dsimp only
  split_ifs with hp
  · obtain ⟨hfit, hrecorded, hcharge⟩ := hcharges store hnonneg hp
    refine ⟨⟨_, rfl⟩, nonnegStore_append hnonneg' hrecorded, ?_, ?_⟩
    · rw [m.used_append, map_append, sum_append, map_singleton, sum_singleton]
      have hused := hevict.ge
      exact add_le_add (hcovered.trans hused) hcharge
    · rw [map_append, sum_append, map_singleton, sum_singleton]
      have hcap : (carried.map m.charge).sum ≤ m.limit := hcap
      omega
  · exact ⟨⟨_, rfl⟩, hnonneg', hcovered.trans hevict.ge, hcap⟩

theorem step_snd (s : PolicyEngine Ext × List (Call Ext)) (call : Call Ext) :
    (step F s call).2 = s.2 ∨ (step F s call).2 = s.2 ++ [call] := by
  unfold step
  dsimp only
  split_ifs
  · exact .inr rfl
  · exact .inl rfl

/-- No call that is dated after `stop` comes before one that is not. -/
def InOrder (stop : ℕ) (calls : List (Call Ext)) : Prop :=
  calls.Pairwise fun call later => later.nowMs ≤ stop → call.nowMs ≤ stop

/-- A clock that never goes back keeps the calls in order for every window. -/
theorem inOrder_of_clock {stop : ℕ} (h : calls.Pairwise fun call later => call.nowMs ≤ later.nowMs) :
    InOrder stop calls :=
  h.imp fun hle hlater => hle.trans hlater

/-- **A metered key stays within its limit over a whole run.** -/
theorem Metered.run (hrange : m.key.windowSecs * 1000 ≤ u64Max)
    (hlate : ∀ call : Call Ext, m.stop < call.nowMs → m.charge call = 0) :
    ∀ (calls : List (Call Ext)) {s : PolicyEngine Ext × List (Call Ext)}, Metered engine m s →
      InOrder m.stop calls → (∀ call ∈ calls, Charges F engine m call) →
      ((Base.Runs.run (CapRuns.step F) s calls).2.map m.charge).sum ≤ m.limit
  | [], _, h, _, _ => h.capped
  | call :: calls, s, h, horder, hcharges => by
    obtain ⟨hfirst, horder⟩ := pairwise_cons.1 horder
    rcases le_or_gt call.nowMs m.stop with hnow | hpast
    · exact (h.step F hrange hnow (hcharges call mem_cons_self)).run hrange hlate calls horder
        fun c hc => hcharges c (mem_cons_of_mem _ hc)
    · -- from here on every call is dated behind the window, and nothing is charged
      have hzero : ∀ c ∈ call :: calls, m.charge c = 0 := forall_mem_cons.2 ⟨hlate call hpast,
        fun c hc => hlate c (lt_of_not_ge fun hle => absurd (hfirst c hc hle) (not_le.2 hpast))⟩
      have hstep : ∀ (s : PolicyEngine Ext × List (Call Ext)) (c : Call Ext),
          (s.2.map m.charge).sum ≤ m.limit → m.charge c = 0 →
            ((CapRuns.step F s c).2.map m.charge).sum ≤ m.limit := by
        intro s c hs hc
        rcases step_snd F s c with heq | heq
        · rwa [heq]
        · simpa [heq, hc] using hs
      exact run_invariant hstep (call :: calls) s h.capped hzero

theorem metered_run (hlimit : 0 ≤ m.limit) (hweight : m.Nonneg)
    (hrange : m.key.windowSecs * 1000 ≤ u64Max)
    (hlate : ∀ call : Call Ext, m.stop < call.nowMs → m.charge call = 0)
    (hstore : NonnegStore engine.stateStore) (horder : InOrder m.stop calls)
    (hcharges : ∀ call ∈ calls, Charges F engine m call) :
    total F engine calls m.charge ≤ m.limit := by
  have hstart : Metered engine m (engine, []) :=
    ⟨⟨engine.stateStore, rfl⟩, hstore, by simpa using m.used_nonneg hweight hstore,
      by simpa using hlimit⟩
  exact hstart.run F hrange hlate calls horder hcharges

/-! ## Permitted calls -/

/-- The call was permitted in some store without negative records. -/
def WasPermitted (engine : PolicyEngine Ext) (call : Call Ext) : Prop :=
  ∃ store, NonnegStore store ∧ permitted F (withStore engine store) call = true

/-- The state of a run over `calls`: what it carried out was permitted. -/
structure Lawful (engine : PolicyEngine Ext) (calls : List (Call Ext))
    (s : PolicyEngine Ext × List (Call Ext)) : Prop where
  rules : ∃ store, s.1 = withStore engine store
  nonneg : NonnegStore s.1.stateStore
  permitted : ∀ call ∈ s.2, call ∈ calls ∧ WasPermitted F engine call

theorem Lawful.step (h : Lawful F engine calls s) (hcall : call ∈ calls)
    (hrecorded : ∀ store, ∀ e ∈ recorded F (withStore engine store) call, 0 ≤ e.amount) :
    Lawful F engine calls (step F s call) := by
  obtain ⟨gate, carried⟩ := s
  obtain ⟨⟨store, rfl⟩, hnonneg, hpermitted⟩ := h
  have hnonneg' := nonnegStore_evict hnonneg call.nowMs (queried F (withStore engine store) call)
  unfold CapRuns.step
  dsimp only
  split_ifs with hp
  · refine ⟨⟨_, rfl⟩, nonnegStore_append hnonneg' (hrecorded store), fun c hc => ?_⟩
    rcases mem_append.mp hc with hc | hc
    · exact hpermitted c hc
    · obtain rfl := mem_singleton.mp hc
      exact ⟨hcall, store, hnonneg, hp⟩
  · exact ⟨⟨_, rfl⟩, hnonneg', hpermitted⟩

theorem carriedOut_permitted (hstore : NonnegStore engine.stateStore)
    (hrecorded : ∀ call ∈ calls, ∀ store, ∀ e ∈ recorded F (withStore engine store) call,
      0 ≤ e.amount) :
    ∀ call ∈ carriedOut F engine calls, call ∈ calls ∧ WasPermitted F engine call := by
  have hstart : Lawful F engine calls (engine, []) :=
    ⟨⟨engine.stateStore, rfl⟩, hstore, by simp⟩
  have hstep : ∀ (s : PolicyEngine Ext × List (Call Ext)) (call : Call Ext),
      Lawful F engine calls s → call ∈ calls → Lawful F engine calls (step F s call) :=
    fun s call hs hcall => hs.step F hcall (hrecorded call hcall)
  exact (run_invariant hstep calls _ hstart fun _ h => h).permitted

variable {tool : ToolDescriptor}

theorem permitted_single {nowMs : ℕ} (hrule : engine.ruleFor tool = some rule)
    (h : permitted F (withStore engine store) (.single tool value nowMs ext) = true) :
    ∀ c ∈ rule.criteria,
      Passes ext ⟨tool, engine.profileName, effectiveValue rule value, store, nowMs, none⟩ c := by
  unfold permitted verdict at h
  split at h
  · next d hd =>
    obtain ⟨rule', hrule', hpass⟩ := evaluateInner_permits hd h
    have hsame : engine.ruleFor tool = some rule' := hrule'
    rw [hrule] at hsame
    cases hsame
    exact hpass
  · cases h

theorem permitted_bundle {nowMs : ℕ} (hrule : engine.ruleFor tool = some rule)
    (h : permitted F (withStore engine store) (.bundle tool raw nowMs ext) = true) :
    (∀ pre inner post, decomposeBundle F raw = pre ++ inner :: post →
      ∀ c ∈ rule.criteria, c.isBundleLevel = false →
        Passes ext ⟨tool, engine.profileName, valueClassForInner inner, store, nowMs,
          some ⟨decomposeBundle F raw,
            pre.foldl (accumulateInner engine.profileName rule.criteria) .default⟩⟩ c) ∧
    ∃ overlay, ∀ c ∈ rule.criteria, c.isBundleLevel = true →
      Passes ext ⟨tool, engine.profileName, .readOnly, store, nowMs,
        some ⟨decomposeBundle F raw, overlay⟩⟩ c := by
  unfold permitted verdict at h
  split at h
  · next d hd =>
    obtain ⟨rule', hrule', hinner, hbundle⟩ := evaluateBundle_permits hd h
    have hsame : engine.ruleFor tool = some rule' := hrule'
    rw [hrule] at hsame
    cases hsame
    exact ⟨hinner, hbundle⟩
  · cases h

/-! ## Debits and transfers -/

def NonnegDebits : ValueClass → Prop
  | .value legs => ∀ leg ∈ legs, leg.kind.carriesDebit = true → ∀ a, leg.amount = some a → 0 ≤ a
  | _ => True

theorem debitsOf_nonneg (asset : String) (h : NonnegDebits value) :
    ∀ a ∈ debitsOf asset value, 0 ≤ a := by
  intro a ha
  cases value with
  | value legs =>
    obtain ⟨leg, hleg, hm⟩ := mem_filterMap.mp ha
    unfold matchingDebit at hm
    split_ifs at hm with hc
    exact h leg hleg (Bool.and_eq_true_iff.mp hc).1 a hm
  | _ => cases ha

theorem transfersOf_nonneg : ∀ a ∈ transfersOf asset (decomposeBundle F raw), 0 ≤ a := by
  intro a ha
  obtain ⟨inner, hinner, ht⟩ := mem_filterMap.mp ha
  cases inner with
  | tokenTransfer innerAsset sender recipient amount =>
    simp only [InnerOpDescriptor.transferOf] at ht
    split_ifs at ht
    cases ht
    exact decomposeBundle_amount_nonneg hinner
  | generic target fnName => cases ht

/-! ## What a call records -/

/-- The debits of a call, where it has some, are not negative. -/
def Call.Spends : Call Ext → Prop
  | .single _ value _ _ => NonnegDebits value
  | .bundle _ _ _ _ => True

theorem foldl_addI128_nonneg {amounts : List ℤ} (h : ∀ a ∈ amounts, 0 ≤ a) :
    0 ≤ amounts.foldl addI128 0 := by
  have hsum : 0 ≤ amounts.sum := List.sum_nonneg h
  rw [foldl_addI128 h]
  unfold i128Max
  omega

theorem perPeriodCap_recordConfirmed (Ext : Type) (asset : String) (window : Window)
    (maxStroops : ℤ) (ctx : EvalContext) : debitsOf asset ctx.value = [] ∧
        (.perPeriodCap asset window maxStroops : Criterion Ext).recordConfirmed ctx = [] ∨
      debitsOf asset ctx.value ≠ [] ∧
        (.perPeriodCap asset window maxStroops : Criterion Ext).recordConfirmed ctx =
          [⟨amountKey ctx.profileName asset window, ctx.nowMs,
            (debitsOf asset ctx.value).foldl addI128 0, .amount asset window.label maxStroops⟩] := by
  cases hv : ctx.value with
  | value legs =>
    simp only [debitsOf, Criterion.recordConfirmed, hv]
    cases legs.filterMap (matchingDebit (assetNormalise asset)) with
    | nil => exact Or.inl ⟨rfl, rfl⟩
    | cons x xs => exact Or.inr ⟨by simp, rfl⟩
  | _ => exact Or.inl ⟨rfl, by simp [Criterion.recordConfirmed, hv]⟩

theorem perPeriodCap_key :
    ∀ e ∈ (.perPeriodCap asset window maxStroops : Criterion Ext).recordConfirmed ctx,
      e.key = amountKey ctx.profileName asset window := by
  intro e he
  rcases perPeriodCap_recordConfirmed Ext asset window maxStroops ctx with ⟨-, hrec⟩ | ⟨-, hrec⟩
  · rw [hrec] at he
    cases he
  · rw [hrec] at he
    obtain rfl := mem_singleton.mp he
    rfl

theorem recordConfirmed_dated (ctx : EvalContext) (hvalue : NonnegDebits ctx.value)
    (hbundle : ∀ view, ctx.bundle = some view → ∀ asset, ∀ a ∈ transfersOf asset view.inners, 0 ≤ a) :
    ∀ e ∈ c.recordConfirmed ctx, e.timestampMs = ctx.nowMs ∧ 0 ≤ e.amount := by
  intro e he
  cases c with
  | perPeriodCap asset window maxStroops =>
    rcases perPeriodCap_recordConfirmed Ext asset window maxStroops ctx with
      ⟨-, hrec⟩ | ⟨-, hrec⟩
    · rw [hrec] at he
      cases he
    · rw [hrec] at he
      obtain rfl := mem_singleton.mp he
      exact ⟨rfl, foldl_addI128_nonneg (debitsOf_nonneg asset hvalue)⟩
  | rateLimit window maxCalls =>
    simp only [Criterion.recordConfirmed] at he
    split_ifs at he
    · cases he
    · obtain rfl := mem_singleton.mp he
      exact ⟨rfl, zero_le_one⟩
  | bundlePerPeriodCap asset window maxStroops =>
    cases hb : ctx.bundle with
    | none => simp [Criterion.recordConfirmed, hb] at he
    | some view =>
      simp only [Criterion.recordConfirmed, hb] at he
      obtain ⟨a, ha, rfl⟩ := mem_map.mp he
      exact ⟨rfl, hbundle view hb asset a ha⟩
  | bundleRateLimit window maxCalls =>
    cases hb : ctx.bundle with
    | none => simp [Criterion.recordConfirmed, hb] at he
    | some view =>
      simp only [Criterion.recordConfirmed, hb] at he
      obtain ⟨a, ha, rfl⟩ := mem_map.mp he
      exact ⟨rfl, zero_le_one⟩
  | _ => cases he

def Call.recordContext (engine : PolicyEngine Ext) : Call Ext → EvalContext
  | .single tool value nowMs _ => engine.recordContext nowMs tool value
  | .bundle tool raw nowMs _ => engine.recordBundleContext nowMs tool (decomposeBundle F raw)

theorem recorded_eq (hrule : engine.ruleFor call.tool = some rule) : recorded F engine call =
      rule.criteria.flatMap (·.recordConfirmed (call.recordContext F engine)) := by
  cases call with
  | single tool value nowMs ext =>
    have hrule' : engine.ruleFor tool = some rule := hrule
    simp [recorded, PolicyEngine.recordConfirmed, hrule', Call.recordContext]
  | bundle tool raw nowMs ext =>
    have hrule' : engine.ruleFor tool = some rule := hrule
    simp [recorded, PolicyEngine.recordConfirmedBundle, hrule', Call.recordContext]

theorem recorded_dated (engine : PolicyEngine Ext) (call : Call Ext)
    (hrule : engine.ruleFor call.tool = some rule) (hspends : call.Spends) :
    ∀ e ∈ recorded F engine call, e.timestampMs = call.nowMs ∧ 0 ≤ e.amount := by
  intro e he
  rw [recorded_eq F hrule] at he
  obtain ⟨c, -, hec⟩ := mem_flatMap.mp he
  cases call with
  | single tool value nowMs ext =>
    refine recordConfirmed_dated (Call.recordContext F engine (.single tool value nowMs ext))
      hspends ?_ e hec
    intro view hview
    cases hview
  | bundle tool raw nowMs ext =>
    refine recordConfirmed_dated (Call.recordContext F engine (.bundle tool raw nowMs ext))
      trivial ?_ e hec
    intro view hview asset
    cases hview
    exact transfersOf_nonneg F

theorem weight_le_recorded (engine : PolicyEngine Ext) (call : Call Ext) (m : Meter Ext)
    (hrule : engine.ruleFor call.tool = some rule) (hspends : call.Spends)
    (hstart : m.start ≤ call.nowMs) (hweight : m.Nonneg) (hc : c ∈ rule.criteria)
    (hkey : ∀ e ∈ c.recordConfirmed (call.recordContext F engine), e.key = m.key) :
    (((c.recordConfirmed (call.recordContext F engine)).map toRecord).map m.weight).sum ≤
      ((m.own (recorded F engine call)).map m.weight).sum := by
  have hdated := recorded_dated F engine call hrule hspends
  have hmem : (c.recordConfirmed (call.recordContext F engine)).Sublist (recorded F engine call) := by
    rw [recorded_eq F hrule]
    exact sublist_flatten_of_mem (mem_map_of_mem hc)
  have hself : m.own (c.recordConfirmed (call.recordContext F engine)) =
      (c.recordConfirmed (call.recordContext F engine)).map toRecord := by
    have hfilter : (c.recordConfirmed (call.recordContext F engine)).filter
        (fun e => e.key = m.key) = c.recordConfirmed (call.recordContext F engine) :=
      filter_eq_self.mpr fun e he => by simpa using hkey e he
    unfold Meter.own
    rw [hfilter]
    refine filter_eq_self.mpr fun x hx => decide_eq_true ?_
    obtain ⟨e, he, rfl⟩ := mem_map.mp hx
    exact hstart.trans (hdated e (hmem.subset he)).1.ge
  rw [← hself]
  refine sum_map_le_of_sublist (((hmem.filter _).map toRecord).filter _) fun x hx => ?_
  obtain ⟨e, he, rfl⟩ := mem_map.mp (mem_of_mem_filter hx)
  exact hweight _ (hdated e (mem_of_mem_filter he)).2

/-! ## Meters of the window keys -/

/-- A meter of the amounts of an asset's window. -/
def amountMeter (engine : PolicyEngine Ext) (asset : String) (window : Window) (limit : ℤ)
    (start : ℕ) (charge : Call Ext → ℤ) : Meter Ext :=
  ⟨amountKey engine.profileName asset window, (·.amount), limit, start, charge⟩

def callMeter (engine : PolicyEngine Ext) (window : Window) (limit : ℕ) (start : ℕ)
    (charge : Call Ext → ℤ) : Meter Ext :=
  ⟨callKey engine.profileName window, fun _ => 1, limit, start, charge⟩

theorem amountMeter_nonneg (engine : PolicyEngine Ext) (asset : String) (window : Window)
    (limit : ℤ) (start : ℕ) (charge : Call Ext → ℤ) :
    (amountMeter engine asset window limit start charge).Nonneg := fun _ h => h

theorem callMeter_nonneg (engine : PolicyEngine Ext) (window : Window) (limit start : ℕ)
    (charge : Call Ext → ℤ) : (callMeter engine window limit start charge).Nonneg :=
  fun _ _ => zero_le_one

/-- The call happens inside the window that starts at `start`. -/
def Call.Inside (window : Window) (start : ℕ) (call : Call Ext) : Prop :=
  start ≤ call.nowMs ∧ call.nowMs ≤ start + window.asSecs * 1000

instance (window : Window) (start : ℕ) (call : Call Ext) : Decidable (call.Inside window start) :=
  inferInstanceAs (Decidable (_ ∧ _))

/-- A charge that counts only inside the window. -/
def inWindow (window : Window) (start : ℕ) (charge : Call Ext → ℤ) (call : Call Ext) : ℤ :=
  if call.Inside window start then charge call else 0

theorem inWindow_of_late {window : Window} {charge : Call Ext → ℤ} {call : Call Ext}
    (h : start + window.asSecs * 1000 < call.nowMs) : inWindow window start charge call = 0 :=
  if_neg fun hinside => absurd hinside.2 (not_le.2 h)

/-- A call governed by `rule`, whose debits are not negative. -/
structure Governed (engine : PolicyEngine Ext) (rule : PolicyRule Ext) (call : Call Ext) : Prop where
  ruleFor : engine.ruleFor call.tool = some rule
  spends : call.Spends

theorem Governed.recorded_nonneg (h : Governed engine rule call) (store : PolicyStateStore) :
    ∀ e ∈ recorded F (withStore engine store) call, 0 ≤ e.amount :=
  fun e he => (recorded_dated F (withStore engine store) call h.ruleFor h.spends e he).2

theorem charges_zero (h : Governed engine rule call) (hweight : m.Nonneg)
    (hzero : m.charge call = 0) : Charges F engine m call := by
  intro store _ _
  refine ⟨Or.inl hzero, h.recorded_nonneg F store, ?_⟩
  rw [hzero]
  refine List.sum_nonneg fun x hx => ?_
  obtain ⟨r, hr, rfl⟩ := mem_map.mp hx
  obtain ⟨e, he, rfl⟩ := mem_map.mp (mem_of_mem_filter hr)
  exact hweight _ (h.recorded_nonneg F store e (mem_of_mem_filter he))

/-- A criterion of the rule meters a call: a permitted call has room for its charge, and the
criterion records it under the key of the meter. -/
theorem charges_of_criterion (h : Governed engine rule call) (hweight : m.Nonneg)
    (hstart : m.start ≤ call.nowMs) (hc : c ∈ rule.criteria)
    (hmeters : ∀ store, NonnegStore store → permitted F (withStore engine store) call = true →
      (m.charge call = 0 ∨ m.used store + m.charge call ≤ m.limit) ∧
      (∀ e ∈ c.recordConfirmed (call.recordContext F (withStore engine store)), e.key = m.key) ∧
      m.charge call ≤ (((c.recordConfirmed (call.recordContext F (withStore engine store))).map
        toRecord).map m.weight).sum) : Charges F engine m call := by
  intro store hstore hp
  obtain ⟨hroom, hkey, hcharge⟩ := hmeters store hstore hp
  refine ⟨hroom, h.recorded_nonneg F store, hcharge.trans ?_⟩
  exact weight_le_recorded F (withStore engine store) call m h.ruleFor h.spends hstart hweight hc hkey

/-- What the calls of one rule charge inside a window stays within the limit, if each of them is
charged nothing or metered. -/
theorem total_inWindow_le {charge : Call Ext → ℤ} (hm : m.charge = inWindow window m.start charge)
    (hkey : m.key.windowSecs = window.asSecs) (hlimit : 0 ≤ m.limit) (hweight : m.Nonneg)
    (hstore : NonnegStore engine.stateStore) (horder : InOrder m.stop calls)
    (hcalls : ∀ call ∈ calls, Governed engine rule call)
    (hcharges : ∀ call ∈ calls, call.Inside window m.start →
      charge call = 0 ∨ (m.charge call = charge call → Charges F engine m call)) :
    total F engine calls m.charge ≤ m.limit := by
  have hlate : ∀ call : Call Ext, m.stop < call.nowMs → m.charge call = 0 := by
    intro call hlate
    rw [hm]
    unfold Meter.stop at hlate
    exact inWindow_of_late (hkey ▸ hlate)
  refine metered_run F hlimit hweight (hkey ▸ window_ms_le window) hlate hstore horder
    fun call hcall => ?_
  by_cases hinside : call.Inside window m.start
  · have hin : m.charge call = charge call := by rw [hm, inWindow, if_pos hinside]
    rcases hcharges call hcall hinside with h0 | hmetered
    · exact charges_zero F (hcalls call hcall) hweight (hin.trans h0)
    · exact hmetered hin
  · exact charges_zero F (hcalls call hcall) hweight (by rw [hm, inWindow, if_neg hinside])

theorem single_debits_room {nowMs : ℕ}
    (hpass : Passes ext ⟨tool, engine.profileName, effectiveValue rule value, store, nowMs, none⟩
      (.perPeriodCap asset window maxStroops))
    (hmax : maxStroops < i128Max) (hvalue : NonnegDebits value) (hstore : NonnegStore store)
    (hnow : nowMs ≤ start + window.asSecs * 1000) : debitsOf asset value = [] ∨
      amountSince store (amountKey engine.profileName asset window) start +
        (debitsOf asset value).sum ≤ maxStroops := by
  by_cases hne : debitsOf asset value = []
  · exact Or.inl hne
  · right
    cases value with
    | readOnly | opaqueEffect reason => exact absurd rfl hne
    | value legs =>
      have heval := hpass.evaluate_eq (by simp)
      obtain ⟨res, hreads, hroom⟩ := perPeriodCap_room heval rfl hne
      obtain ⟨hsum, -⟩ := since_le_reads hreads hstore hnow (window_ms_le window)
      have hdebits := debitsOf_nonneg asset hvalue
      have hfold : min (debitsOf asset (.value legs)).sum i128Max ≤
          (debitsOf asset (.value legs)).foldl addI128 0 := (foldl_addI128 hdebits).ge
      have htotal := add_add_le_of_satAdd_le (by decide) (by decide)
        (amountSince_nonneg hstore (amountKey engine.profileName asset window) start) le_rfl
        (List.sum_nonneg hdebits) hsum (min_le_left 0 i128Max) hfold hroom hmax
      rwa [add_zero] at htotal

theorem charges_single_debits {nowMs : ℕ} {charge : Call Ext → ℤ}
    (h : Governed engine rule (.single tool value nowMs ext))
    (hinside : (Call.single tool value nowMs ext).Inside window start)
    (hc : .perPeriodCap asset window maxStroops ∈ rule.criteria) (hmax : maxStroops < i128Max)
    (hcharge : charge (.single tool value nowMs ext) = (debitsOf asset value).sum) :
    Charges F engine (amountMeter engine asset window maxStroops start charge)
      (.single tool value nowMs ext) := by
  have hdebits := debitsOf_nonneg asset h.spends
  refine charges_of_criterion F h (amountMeter_nonneg engine asset window maxStroops start charge)
    hinside.1 hc fun store hstore hp => ?_
  have hroom := single_debits_room (permitted_single F h.ruleFor hp _ hc) hmax h.spends hstore
    hinside.2
  have hused := amountSince_nonneg hstore (amountKey engine.profileName asset window) start
  refine ⟨?_, perPeriodCap_key, ?_⟩
  · show charge _ = 0 ∨ _ + charge _ ≤ maxStroops
    rw [hcharge]
    exact hroom.imp_left fun hnil => by rw [hnil]; rfl
  · -- below the cap the recorded sum has not saturated
    have hfold : (debitsOf asset value).foldl addI128 0 = (debitsOf asset value).sum := by
      rw [foldl_addI128 hdebits]
      rcases hroom with hnil | hroom
      · rw [hnil]
        decide
      · omega
    refine ge_of_eq (Eq.trans ?_ hcharge.symm)
    rcases perPeriodCap_recordConfirmed Ext asset window maxStroops
        ((Call.single tool value nowMs ext).recordContext F (withStore engine store)) with
      ⟨hnil, hrec⟩ | ⟨-, hrec⟩
    · rw [hrec, show debitsOf asset value = [] from hnil]
      rfl
    · rw [hrec, ← hfold]
      simp [toRecord, amountMeter, Call.recordContext, PolicyEngine.recordContext]

end AgentWallet.Policy.CapRuns
