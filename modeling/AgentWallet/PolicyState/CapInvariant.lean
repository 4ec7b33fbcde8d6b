import AgentWallet.Base.Runs
import AgentWallet.Base.SlidingWindow
import AgentWallet.PolicyState.Images

/-!
# The cap invariant

A bucket all of whose entries carry one limit never holds more than that limit admits.  The
statement is about whole runs: any list of store operations, by any number of processes, each
atomic under the store lock.  After every one of them, at every instant no earlier than the last
entry admitted on the bucket, the records live at that instant total at most the cap.
-/

namespace AgentWallet.PolicyState.CapInvariant

open Base.Saturating Base.Runs Base.SlidingWindow Policy.StateStore List
open PolicyState.Wire PolicyState.Images

variable {K : StateKey} {L : WindowLimit}
  {es : List WindowEntry} {wire file : WireFile} {amount : ℤ} {T : ℕ}
  {keep : WireRecord → Bool}

/-- Live at `T`: pending, or dated within the window that ends at `T`. -/
def liveAt (windowSecs T : ℕ) (r : WireRecord) : Bool :=
  decide (r.status = .pending) || decide (r.tsMs ≥ T - windowSecs * 1000)

/-- What a record of the given amount counts for under a limit. -/
def charge : WindowLimit → ℤ → ℤ
  | .amount _ _ _, amount => amount
  | .count _ _, _ => 1

def limitOf : WindowLimit → ℤ
  | .amount _ _ maxStroops => maxStroops
  | .count _ maxCalls => maxCalls

/-- The records on `K` live at `T`. -/
def liveRecords (K : StateKey) (wire : WireFile) (T : ℕ) : List WireRecord :=
  (recordsOn K wire).filter (liveAt K.windowSecs T)

/-- What a limit bounds: the total of the live amounts, or the number of live records. -/
def windowTotal (L : WindowLimit) (K : StateKey) (wire : WireFile) (T : ℕ) : ℤ :=
  match L with
  | .amount _ _ _ => ((liveRecords K wire T).map (·.amount)).sum
  | .count _ _ => (liveRecords K wire T).length

/-- A limit the criteria can carry: a cap is not negative and lies below `i128::MAX`, a call count
is a `u32`. -/
def InRange : WindowLimit → Prop
  | .amount _ _ maxStroops => 0 ≤ maxStroops ∧ maxStroops < i128Max
  | .count _ maxCalls => maxCalls ≤ u32Max

theorem sum_map_charge_count (window : String) (max : ℕ) (l : List ℤ) :
    (l.map (charge (.count window max))).sum = l.length := by
  induction l with
  | nil => rfl
  | cons a l ih =>
    rw [map_cons, sum_cons, ih, length_cons]
    unfold charge
    push_cast
    omega

theorem sum_map_charge_amount (asset window : String) (max : ℤ) (l : List ℤ) :
    (l.map (charge (.amount asset window max))).sum = l.sum := by
  unfold charge
  rw [map_id']

theorem windowTotal_eq_usage (wire : WireFile) (T : ℕ) : windowTotal L K wire T =
    usage (liveAt K.windowSecs) (fun r => charge L r.amount) T (recordsOn K wire) := by
  have hmap : usage (liveAt K.windowSecs) (fun r => charge L r.amount) T (recordsOn K wire) =
      (((liveRecords K wire T).map (·.amount)).map (charge L)).sum := by
    rw [map_map]
    rfl
  rw [hmap]
  cases L with
  | amount asset window max => rw [sum_map_charge_amount]; rfl
  | count window max => rw [sum_map_charge_count, length_map]; rfl

theorem charge_nonneg (h : 0 ≤ amount) : 0 ≤ charge L amount := by
  cases L with
  | amount asset window max => exact h
  | count window max => exact Int.one_nonneg

theorem liveAt_eq_true_iff {windowSecs : ℕ} {r : WireRecord} :
    liveAt windowSecs T r = true ↔ r.status = .pending ∨ r.tsMs ≥ T - windowSecs * 1000 := by
  simp [liveAt]

theorem liveAt_fading (windowSecs : ℕ) : Fading (liveAt windowSecs) := by
  intro t t' ht r hr
  rw [liveAt_eq_true_iff] at hr ⊢
  rcases hr with hp | hts
  · exact Or.inl hp
  · exact Or.inr (by omega)

theorem recordIsLive_eq_liveAt {t : ℕ} (ht : t ≤ u64Max) (windowSecs : ℕ) (r : WireRecord) :
    recordIsLive r t windowSecs = liveAt windowSecs t r := by
  have hcut : t - mulU64 windowSecs 1000 = t - windowSecs * 1000 := by
    unfold mulU64 usatMul
    omega
  unfold recordIsLive liveAt
  rw [hcut]

/-! ### One batch -/

theorem room_of_admits (hL : InRange L) {file ahead : List ℤ} (hfile : ∀ a ∈ file, 0 ≤ a)
    (hahead : ∀ a ∈ ahead, 0 ≤ a) (h0 : 0 ≤ amount)
    (h : L.admits (addI128 (file.foldl tally (0, 0)).1 (ahead.foldl tally (0, 0)).1)
      (addU32 (file.foldl tally (0, 0)).2 (ahead.foldl tally (0, 0)).2) amount) :
    (file.map (charge L)).sum + ((ahead.map (charge L)).sum + charge L amount) ≤ limitOf L := by
  cases L with
  | amount asset window max =>
    obtain ⟨hmax0, hmax⟩ := hL
    have hf := List.sum_nonneg hfile
    have ha := List.sum_nonneg hahead
    have hlo : i128Min ≤ max := le_trans (by decide) hmax0
    rw [WindowLimit.admits_amount, foldl_tally_fst hfile, foldl_tally_fst hahead] at h
    unfold addI128 at h
    rw [satAdd_min_min (by decide) (by decide) hf ha, satAdd_le_iff hlo hmax] at h
    rw [sum_map_charge_amount, sum_map_charge_amount]
    show file.sum + (ahead.sum + amount) ≤ max
    omega
  | count window max =>
    have hmax : max ≤ u32Max := hL
    rw [WindowLimit.admits_count, foldl_tally_snd, foldl_tally_snd] at h
    unfold addU32 at h
    rw [usatAdd_min_min] at h
    rw [sum_map_charge_count, sum_map_charge_count]
    show (file.length : ℤ) + (ahead.length + 1) ≤ max
    omega

/-- The entries on `K` carry the limit `L` and charge nothing negative, and all entries are of the
profile the file belongs to. -/
def Governed (K : StateKey) (L : WindowLimit) (es : List WindowEntry) : Prop :=
  ∀ e ∈ es, e.key.profileName = K.profileName ∧ (e.key = K → 0 ≤ e.amount ∧ e.limit = L)

theorem Governed.entriesOn_eq (h : Governed K L es) :
    entriesOn K es = es.filter fun e => e.key = K := by
  refine filter_congr fun e he => ?_
  rw [Bool.eq_iff_iff, ofKey_holds_iff_eq (h e he).1, decide_eq_true_eq]

theorem Governed.amount_nonneg (h : Governed K L es) :
    ∀ e ∈ es.filter fun e => e.key = K, 0 ≤ e.amount := by
  intro e he
  rw [mem_filter, decide_eq_true_eq] at he
  exact ((h e he.1).2 he.2).1

/-- **One batch leaves room.**  At the instant of the last entry a batch puts on `K`, the file's
usage and everything the batch charges `K` with stay within the limit. -/
theorem admitted_room (hL : InRange L) {pre post : List WindowEntry} {e : WindowEntry}
    (hadm : admitEntries wire es = .ok ()) (hes : Governed K L es)
    (hrec : ∀ r ∈ recordsOn K wire, 0 ≤ r.amount) (hsplit : es = pre ++ e :: post) (hk : e.key = K)
    (hpost : ∀ x ∈ post, x.key ≠ K) (ht : e.timestampMs ≤ u64Max) :
    usage (liveAt K.windowSecs) (fun r => charge L r.amount) e.timestampMs (recordsOn K wire) +
      ((entriesOn K es).map fun e => charge L e.amount).sum ≤ limitOf L := by
  obtain ⟨res, hres, hroom⟩ := (admitEntries_eq_ok_iff wire es).1 hadm pre e post hsplit
  subst hk
  have hmem : e ∈ es := by rw [hsplit]; exact mem_append_right _ mem_cons_self
  obtain ⟨h0, hlim⟩ := (hes e hmem).2 rfl
  have hpre : ∀ a ∈ (pre.filter fun x => x.key = e.key).map (·.amount), 0 ≤ a := by
    intro a ha
    obtain ⟨x, hx, rfl⟩ := mem_map.1 ha
    rw [mem_filter, decide_eq_true_eq] at hx
    refine ((hes x ?_).2 hx.2).1
    rw [hsplit]
    exact mem_append_left _ hx.1
  have hlive : ((recordsOn e.key wire).filter fun r =>
      recordIsLive r e.timestampMs e.key.windowSecs) = liveRecords e.key wire e.timestampMs :=
    filter_congr fun r _ => recordIsLive_eq_liveAt ht _ r
  have hfile : ∀ a ∈ (liveRecords e.key wire e.timestampMs).map (·.amount), 0 ≤ a := by
    intro a ha
    obtain ⟨r, hr, rfl⟩ := mem_map.1 ha
    exact hrec r (mem_of_mem_filter hr)
  rw [windowInFile_eq_ok hres, hlive, hlim] at hroom
  have hle := room_of_admits hL hfile hpre h0 hroom
  have hon : entriesOn e.key es = pre.filter (fun x => x.key = e.key) ++ [e] := by
    have hnil : (post.filter fun x => x.key = e.key) = [] :=
      filter_eq_nil_iff.2 fun x hx => by simpa using hpost x hx
    rw [hes.entriesOn_eq, hsplit, filter_append, filter_cons_of_pos (by simp), hnil]
  rw [hon, map_append]
  simpa [usage, liveRecords, Function.comp_def] using hle

/-! ### One operation -/

/-- The file, with the entries admitted so far. -/
structure Trace where
  file : WireFile
  admitted : List WindowEntry

/-- One operation at a host clock; an operation that fails writes nothing. -/
def step (t : Trace) (op : StoreOp × ℕ) : Trace :=
  match op.1.exec op.2 t.file with
  | .ok file => ⟨file, t.admitted ++ newEntries op.1⟩
  | .error _ => t

/-- An operation that tests the limits of what it records, and whose entries on `K` are governed by
`L`. -/
def OpGoverned (K : StateKey) (L : WindowLimit) (op : StoreOp × ℕ) : Prop :=
  skipsAdmission op.1 = false ∧ Governed K L (newEntries op.1)

/-- `T` is no earlier than any entry admitted on `K`. -/
def AfterLast (K : StateKey) (admitted : List WindowEntry) (T : ℕ) : Prop :=
  ∀ e ∈ admitted, e.key = K → e.timestampMs ≤ T

/-- The invariant of a run: nothing negative is recorded on `K`, and from the last admitted entry
on the bucket is within its cap. -/
structure CapInv (K : StateKey) (L : WindowLimit) (t : Trace) : Prop where
  nonneg : ∀ r ∈ recordsOn K t.file, 0 ≤ r.amount
  within : ∀ T ≤ u64Max, AfterLast K t.admitted T → windowTotal L K t.file T ≤ limitOf L

variable {t : Trace}

theorem CapInv.charge_nonneg (h : CapInv K L t) : ∀ r ∈ recordsOn K t.file, 0 ≤ charge L r.amount :=
  fun r hr => CapInvariant.charge_nonneg (h.nonneg r hr)

theorem AfterLast.left {a b : List WindowEntry} (h : AfterLast K (a ++ b) T) :
    AfterLast K a T := fun e he => h e (mem_append_left _ he)

theorem CapInv.of_entries {wire' : WireFile} {admitted : List WindowEntry}
    (h : CapInv K L ⟨wire, admitted⟩) (heq : wire'.entries = wire.entries) (es : List WindowEntry) :
    CapInv K L ⟨wire', admitted ++ es⟩ := by
  have hrec : recordsOn K wire' = recordsOn K wire := by
    unfold recordsOn
    rw [heq]
  refine ⟨fun r hr => h.nonneg r (hrec ▸ hr), fun T hT hafter => ?_⟩
  have hle := h.within T hT hafter.left
  rw [windowTotal_eq_usage] at hle ⊢
  exact hrec ▸ hle

theorem exists_last_on (K : StateKey) : ∀ es : List WindowEntry, (∀ e ∈ es, e.key ≠ K) ∨
    ∃ pre e post, es = pre ++ e :: post ∧ e.key = K ∧ ∀ x ∈ post, x.key ≠ K
  | [] => Or.inl fun e he => by cases he
  | e :: es => by
    rcases exists_last_on K es with hnone | ⟨pre, x, post, rfl, hx, hpost⟩
    · by_cases he : e.key = K
      · exact Or.inr ⟨[], e, es, rfl, he, hnone⟩
      · refine Or.inl fun x hx => ?_
        rcases mem_cons.1 hx with rfl | hx
        · exact he
        · exact hnone x hx
    · exact Or.inr ⟨e :: pre, x, post, rfl, hx, hpost⟩

theorem capInv_push (hL : InRange L) {mk : WindowEntry → WireRecord} (ht : CapInv K L t)
    (hes : Governed K L es) (hmk : Records mk) (hadm : admitEntries t.file es = .ok ())
    (hperm : (recordsOn K file).Perm ((recordsOn K t.file ++ (entriesOn K es).map mk).filter keep)) :
    CapInv K L ⟨file, t.admitted ++ es⟩ := by
  have hnew : ∀ r ∈ (entriesOn K es).map mk, 0 ≤ r.amount := by
    intro r hr
    obtain ⟨e, he, rfl⟩ := mem_map.1 hr
    rw [hes.entriesOn_eq] at he
    rw [(hmk e).2]
    exact hes.amount_nonneg e he
  have hall : ∀ r ∈ recordsOn K t.file ++ (entriesOn K es).map mk, 0 ≤ r.amount := by
    intro r hr
    rcases mem_append.1 hr with hr | hr
    · exact ht.nonneg r hr
    · exact hnew r hr
  refine ⟨fun r hr => hall r (mem_of_mem_filter (hperm.mem_iff.1 hr)), fun T hT hafter => ?_⟩
  rw [windowTotal_eq_usage, usage_perm hperm]
  refine le_trans (usage_le_of_sublist filter_sublist
    (fun r hr => charge_nonneg (hall r hr)) T) ?_
  rcases exists_last_on K es with hnone | ⟨pre, e, post, hsplit, hk, hpost⟩
  · have hnil : entriesOn K es = [] := by
      rw [hes.entriesOn_eq]
      exact filter_eq_nil_iff.2 fun e he => by simpa using hnone e he
    rw [hnil, map_nil, append_nil, ← windowTotal_eq_usage]
    exact ht.within T hT hafter.left
  · have heT : e.timestampMs ≤ T := by
      refine hafter e (mem_append_right _ ?_) hk
      rw [hsplit]
      exact mem_append_right _ mem_cons_self
    have hroom := admitted_room hL hadm hes ht.nonneg hsplit hk hpost (le_trans heT hT)
    refine usage_append_le (liveAt_fading _) ht.charge_nonneg
      (fun r hr => charge_nonneg (hnew r hr)) heT ?_
    simpa [Function.comp_def, (hmk _).2] using hroom

theorem capInv_settle {f : WireRecord → WireRecord} (ht : CapInv K L t) (hf : Settles f)
    (hrec : recordsOn K file = ((recordsOn K t.file).map f).filter keep) :
    CapInv K L ⟨file, t.admitted ++ es⟩ := by
  have hmap : ∀ r ∈ (recordsOn K t.file).map f, 0 ≤ r.amount := by
    intro r hr
    obtain ⟨x, hx, rfl⟩ := mem_map.1 hr
    rw [(hf x).1]
    exact ht.nonneg x hx
  refine ⟨fun r hr => ?_, fun T hT hafter => ?_⟩
  · rw [hrec] at hr
    exact hmap r (mem_of_mem_filter hr)
  · rw [windowTotal_eq_usage, hrec]
    refine le_trans (usage_le_of_sublist filter_sublist
      (fun r hr => charge_nonneg (hmap r hr)) T) ?_
    refine le_trans (usage_map_le ht.charge_nonneg (fun r _ => by rw [(hf r).1]) ?_) ?_
    · -- a record that `f` changes was pending, hence live at every instant
      intro r _ hlive
      by_cases hp : r.status = .pending
      · exact liveAt_eq_true_iff.2 (Or.inl hp)
      · rwa [(hf r).2 hp] at hlive
    · rw [← windowTotal_eq_usage]
      exact ht.within T hT hafter.left

theorem capInv_step (hL : InRange L) (t : Trace) (op : StoreOp × ℕ) (ht : CapInv K L t)
    (hop : OpGoverned K L op) : CapInv K L (step t op) := by
  unfold step
  cases hexec : op.1.exec op.2 t.file with
  | error e => exact ht
  | ok file =>
    rcases exec_cases hexec with rfl | ⟨mk, hmk, hadm, keep, hperm⟩ | ⟨f, keep, hf, hrec⟩
    · exact ht.of_entries rfl _
    · exact capInv_push hL ht hop.2 hmk (hadm hop.1) (hperm K)
    · exact capInv_settle ht hf (hrec K)

/-! ### Whole runs -/

theorem limitOf_nonneg (hL : InRange L) : 0 ≤ limitOf L := by
  cases L with
  | amount asset window max => exact hL.1
  | count window max => exact Int.natCast_nonneg max

theorem capInv_start (hL : InRange L) (h : recordsOn K wire = []) : CapInv K L ⟨wire, []⟩ := by
  refine ⟨fun r hr => ?_, fun T _ _ => ?_⟩
  · rw [h] at hr
    cases hr
  · have hzero : windowTotal L K wire T = 0 := by
      rw [windowTotal_eq_usage, h]
      rfl
    rw [hzero]
    exact limitOf_nonneg hL

/-- **The cap holds after every run.**  Start from a file with nothing on `K` and run any list of
operations that test their limits, at any host clocks.  At every instant from the last entry
admitted on `K` on, the live records on `K` are within the limit their entries carry. -/
theorem windowTotal_le_of_run (hL : InRange L) {wire : WireFile} (hwire : recordsOn K wire = [])
    (ops : List (StoreOp × ℕ)) (hops : ∀ op ∈ ops, OpGoverned K L op) {T : ℕ} (hT : T ≤ u64Max)
    (hafter : AfterLast K (run step ⟨wire, []⟩ ops).admitted T) :
    windowTotal L K (run step ⟨wire, []⟩ ops).file T ≤ limitOf L :=
  (run_invariant (capInv_step hL) ops _ (capInv_start hL hwire) hops).within T hT hafter

/-- A daily cap of 100 stroops on the native asset, and an entry under it. -/
def dailyEntry (timestampMs : ℕ) (amount : ℤ) : WindowEntry :=
  ⟨⟨"alice", 1, "native", 86400⟩, timestampMs, amount, .amount "native" "1d" 100⟩

/-- Two processes reserve 60 and 40 at out-of-order instants, a third is refused, and the first
reservation is confirmed at its ledger's close time: 100 stroops are live, and no more. -/
theorem windowTotal_le_of_run_daily :
    windowTotal (.amount "native" "1d" 100) ⟨"alice", 1, "native", 86400⟩ (run step ⟨emptyFile, []⟩
        [(.recordPending [dailyEntry 5000 60] ⟨"a", "", "", 0, 0, 5000, 7, false⟩, 5000),
          (.recordAuthorized [dailyEntry 4000 30, dailyEntry 4100 10], 5100),
          (.recordAuthorized [dailyEntry 6000 1], 6000),
          (.confirm "a" (some 8), 9000)]).file 9000 ≤ 100 := by
  have hL : InRange (.amount "native" "1d" 100) := ⟨by decide, by decide⟩
  refine windowTotal_le_of_run hL rfl _ ?_ (by decide) ?_
  · unfold OpGoverned Governed
    decide
  · unfold AfterLast
    decide

end AgentWallet.PolicyState.CapInvariant
