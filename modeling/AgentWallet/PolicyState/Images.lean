import AgentWallet.PolicyState.Wire

/-!
# What an operation does to the records

The records of one bucket after each of the file's rewriting functions: a push adds its records to
the bucket they name (`recordsOf_pushEntries`, up to order, since a file may hold two buckets of
one key), `retainRecords` filters (`recordsOn_retainRecords`) and `updateRecords` maps
(`recordsOn_updateRecords`).
-/

namespace AgentWallet.PolicyState.Images

open Policy.StateStore PolicyState.Wire List

variable {K : StateKey} {wire wire' : WireFile}
  {op : StoreOp} {mutate : WireFile → WireFile × Bool} {f : WireRecord → WireRecord}
  {k : StateKey} {es : List WindowEntry} {p : WireRecord → Bool}

/-! ### Pushing -/

theorem ofKey_holds_iff (k K : StateKey) : (WireBucket.ofKey k).holds K = true ↔
    k.scopeSpecificity = K.scopeSpecificity ∧ k.bucket = K.bucket ∧ k.windowSecs = K.windowSecs := by
  simp [WireBucket.holds, WireBucket.ofKey, and_assoc]

theorem holds_iff (b : WireBucket) (K : StateKey) : b.holds K = true ↔
    b.scopeSpecificity = K.scopeSpecificity ∧ b.bucket = K.bucket ∧ b.windowSecs = K.windowSecs := by
  simp [WireBucket.holds, and_assoc]

theorem ofKey_holds_iff_eq {K : StateKey} (h : k.profileName = K.profileName) :
    (WireBucket.ofKey k).holds K = true ↔ k = K := by
  rw [ofKey_holds_iff]
  constructor
  · rintro ⟨hs, hb, hw⟩
    cases k
    cases K
    simp_all
  · rintro rfl
    exact ⟨rfl, rfl, rfl⟩

theorem holds_push (b : WireBucket) (r : WireRecord) (K : StateKey) :
    (b.push r).holds K = b.holds K := rfl

theorem holds_congr {b : WireBucket} (h : b.holds k = true) (K : StateKey) :
    b.holds K = (WireBucket.ofKey k).holds K := by
  obtain ⟨hs, hb, hw⟩ := (holds_iff b k).1 h
  simp [WireBucket.holds, WireBucket.ofKey, hs, hb, hw]

theorem recordsOf_cons (b : WireBucket) (bs : List WireBucket) :
    recordsOf K (b :: bs) = (if b.holds K then b.records else []) ++ recordsOf K bs := by
  unfold recordsOf
  by_cases h : b.holds K = true
  · rw [filter_cons_of_pos (by simpa using h), if_pos h, flatMap_cons]
  · rw [filter_cons_of_neg (by simpa using h), if_neg h, nil_append]

theorem recordsOf_findOrInsertBucket (k : StateKey) (r : WireRecord) : ∀ bs : List WireBucket,
    (recordsOf K (findOrInsertBucket k (.push r) bs)).Perm
      (recordsOf K bs ++ if (WireBucket.ofKey k).holds K then [r] else [])
  | [] => by
    rw [findOrInsertBucket, recordsOf_cons, holds_push]
    by_cases h : (WireBucket.ofKey k).holds K = true
    · rw [if_pos h, if_pos h]
      simp [recordsOf, WireBucket.push, WireBucket.ofKey]
    · rw [if_neg h, if_neg h]
      simp [recordsOf]
  | b :: bs => by
    rw [findOrInsertBucket]
    by_cases hb : b.holds k = true
    · rw [if_pos hb, recordsOf_cons, recordsOf_cons, holds_push, ← holds_congr hb]
      by_cases h : b.holds K = true
      · rw [if_pos h, if_pos h, if_pos h]
        simp only [WireBucket.push, append_assoc]
        exact perm_append_comm.append_left b.records
      · rw [if_neg h, if_neg h, if_neg h, append_nil]
    · rw [if_neg hb, recordsOf_cons, recordsOf_cons, append_assoc]
      exact (recordsOf_findOrInsertBucket k r bs).append_left _

/-- The entries of a batch that land in the bucket of `K`. -/
def entriesOn (K : StateKey) (newEntries : List WindowEntry) : List WindowEntry :=
  newEntries.filter fun e => (WireBucket.ofKey e.key).holds K

/-- **A batch adds its records to the buckets they name.** -/
theorem recordsOf_pushEntries (mk : WindowEntry → WireRecord) : ∀ (newEntries : List WindowEntry)
    (bs : List WireBucket), (recordsOf K (pushEntries mk newEntries bs)).Perm
      (recordsOf K bs ++ (entriesOn K newEntries).map mk)
  | [], bs => by simp [pushEntries, entriesOn]
  | e :: es, bs => by
    have htail := recordsOf_pushEntries mk es (findOrInsertBucket e.key (.push (mk e)) bs)
    have hhead := recordsOf_findOrInsertBucket (K := K) e.key (mk e) bs
    refine htail.trans ((hhead.append_right _).trans ?_)
    rw [append_assoc]
    unfold entriesOn
    by_cases h : (WireBucket.ofKey e.key).holds K = true
    · rw [filter_cons_of_pos (by simpa using h), if_pos h]
      rfl
    · rw [filter_cons_of_neg (by simpa using h), if_neg h]
      rfl

/-! ### Filtering and mapping -/

theorem recordsOn_retainRecords (keep : WireRecord → Bool) (wire : WireFile) :
    recordsOn K (retainRecords keep wire) = (recordsOn K wire).filter keep := by
  unfold recordsOn retainRecords
  induction wire.entries with
  | nil => rfl
  | cons b bs ih =>
    rw [recordsOf_cons, filter_append, ← ih, map_cons, filter_cons]
    by_cases he : (b.records.filter keep).isEmpty = true
    · have hnil : b.records.filter keep = [] := isEmpty_iff.1 he
      by_cases hK : b.holds K = true
      · simp [hnil, hK]
      · simp [hnil, hK]
    · rw [if_pos (by simpa using he), recordsOf_cons]
      by_cases hK : b.holds K = true
      · have hK' : WireBucket.holds { b with records := b.records.filter keep } K = true := hK
        rw [if_pos hK, if_pos hK']
      · have hK' : ¬ WireBucket.holds { b with records := b.records.filter keep } K = true := hK
        rw [if_neg hK, if_neg hK', filter_nil]

theorem recordsOn_pruneStale (nowMs : ℕ) (wire : WireFile) :
    recordsOn K (pruneStale wire nowMs) = (recordsOn K wire).filter fun r =>
      decide (r.tsMs ≥ nowMs - retentionMs) || decide (r.status = .pending) :=
  recordsOn_retainRecords _ wire

theorem recordsOn_updateRecords (p : WireRecord → Bool) (f : WireRecord → WireRecord)
    (wire : WireFile) : recordsOn K (updateRecords p f wire).1 =
      (recordsOn K wire).map fun r => if p r then f r else r := by
  unfold recordsOn updateRecords
  induction wire.entries with
  | nil => rfl
  | cons b bs ih =>
    rw [map_cons, recordsOf_cons, recordsOf_cons, map_append, ← ih]
    by_cases hK : b.holds K = true
    · have hK' : WireBucket.holds
          { b with records := b.records.map fun r => if p r then f r else r } K = true := hK
      rw [if_pos hK, if_pos hK']
    · have hK' : ¬ WireBucket.holds
          { b with records := b.records.map fun r => if p r then f r else r } K = true := hK
      rw [if_neg hK, if_neg hK', map_nil]

/-! ### The inversion of an operation -/

def newEntries : StoreOp → List WindowEntry
  | .recordPending es _ => es
  | .recordAuthorized es => es
  | .recordAndPersist es => es
  | .confirm _ _ => []
  | .release _ => []
  | .markOperatorRequired _ => []

/-- The operation writes its entries without testing their limits. -/
def skipsAdmission : StoreOp → Bool
  | .recordAndPersist _ => true
  | _ => false

/-- `mk` makes records of its entries' instants and amounts. -/
def Records (mk : WindowEntry → WireRecord) : Prop :=
  ∀ e, (mk e).tsMs = e.timestampMs ∧ (mk e).amount = e.amount

/-- `f` keeps amounts and changes pending records only. -/
def Settles (f : WireRecord → WireRecord) : Prop :=
  ∀ r, (f r).amount = r.amount ∧ (r.status ≠ .pending → f r = r)

variable {nowMs : ℕ}

theorem exec_eq_ok (h : op.exec nowMs wire = .ok wire') :
    wire' = wire ∨ ∃ image, op.image nowMs wire = .ok (some image) ∧
      wire'.entries = image.entries := by
  unfold StoreOp.exec at h
  split at h
  · cases h
  · exact Or.inl (Except.ok.inj h).symm
  · rename_i image himage
    split at h
    · cases h
    · cases Except.ok.inj h
      exact Or.inr ⟨image, himage, rfl⟩

theorem map_some_eq_ok {x : Except WindowStoreError WireFile} (h : x.map some = .ok (some wire')) :
    x = .ok wire' := by
  cases x with
  | error e => cases h
  | ok w =>
    cases h
    rfl

theorem settledImage_eq_ok {adm : Bool} (h : settledImage adm es nowMs wire = .ok wire') :
    (adm = true → admitEntries wire es = .ok ()) ∧ wire' =
      { pruneStale { wire with entries := pushEntries settledRecord es wire.entries } nowMs with
        version := wireVersion } := by
  unfold settledImage at h
  cases adm with
  | false => exact ⟨fun hf => absurd hf (by decide), (Except.ok.inj h).symm⟩
  | true =>
    cases ha : admitEntries wire es with
    | error e =>
      rw [ha] at h
      cases h
    | ok u =>
      rw [ha] at h
      exact ⟨fun _ => rfl, (Except.ok.inj h).symm⟩

theorem pendingImage_eq_ok {res : WindowReservation}
    (h : pendingImage es res nowMs wire = .ok wire') :
    fileHoldsId wire res.id = false ∧ admitEntries wire es = .ok () ∧ wire' =
      { pruneStale { wire with entries := pushEntries (pendingRecord res) es wire.entries } nowMs with
        version := wireVersion } := by
  unfold pendingImage at h
  cases hid : fileHoldsId wire res.id with
  | true =>
    rw [hid] at h
    cases h
  | false =>
    rw [hid] at h
    cases ha : admitEntries wire es with
    | error e =>
      rw [ha] at h
      cases h
    | ok u =>
      rw [ha] at h
      exact ⟨rfl, rfl, (Except.ok.inj h).symm⟩

theorem rewriteImage_eq_some (h : rewriteImage mutate nowMs wire = some wire') :
    wire' = { pruneStale (mutate wire).1 nowMs with version := wireVersion } := by
  unfold rewriteImage at h
  dsimp only at h
  split at h
  · exact (Option.some.inj h).symm
  · cases h

theorem settles_update (hp : ∀ r, p r = true → r.status = .pending)
    (hf : ∀ r, (f r).amount = r.amount) : Settles fun r => if p r then f r else r := by
  intro r
  by_cases h : p r = true
  · simp only [if_pos h]
    exact ⟨hf r, fun hr => absurd (hp r h) hr⟩
  · simp only [if_neg h]
    exact ⟨trivial, fun _ => trivial⟩

theorem isPendingOf_iff {id : String} {r : WireRecord} :
    isPendingOf id r = true ↔ r.id = id ∧ r.status = .pending := by
  simp [isPendingOf]

theorem recordsOn_rewriteImage (h : rewriteImage mutate nowMs wire = some wire')
    {keep : WireRecord → Bool}
    (hm : ∀ K, recordsOn K (mutate wire).1 = ((recordsOn K wire).map f).filter keep) :
    ∃ keep', ∀ K, recordsOn K wire' = ((recordsOn K wire).map f).filter keep' := by
  refine ⟨fun r => (decide (r.tsMs ≥ nowMs - retentionMs) || decide (r.status = .pending)) && keep r,
    fun K => ?_⟩
  have hprune : recordsOn K wire' = recordsOn K (pruneStale (mutate wire).1 nowMs) := by
    rw [rewriteImage_eq_some h]
    rfl
  rw [hprune, recordsOn_pruneStale, hm, filter_filter]

theorem recordsOn_updateRecords_filter (p : WireRecord → Bool) (f : WireRecord → WireRecord)
    (wire : WireFile) (K : StateKey) : recordsOn K (updateRecords p f wire).1 =
      ((recordsOn K wire).map fun r => if p r then f r else r).filter fun _ => true := by
  rw [recordsOn_updateRecords, filter_true]

/-- **What an operation can do to the records.** -/
theorem exec_cases (h : op.exec nowMs wire = .ok wire') : wire' = wire ∨
    (∃ mk, Records mk ∧ (skipsAdmission op = false → admitEntries wire (newEntries op) = .ok ()) ∧
      ∃ keep, ∀ K, (recordsOn K wire').Perm
        ((recordsOn K wire ++ (entriesOn K (newEntries op)).map mk).filter keep)) ∨
    (∃ f keep, Settles f ∧ ∀ K, recordsOn K wire' = ((recordsOn K wire).map f).filter keep) := by
  rcases exec_eq_ok h with h | ⟨image, himage, hentries⟩
  · exact Or.inl h
  refine Or.inr ?_
  have hrec : ∀ K, recordsOn K wire' = recordsOn K image := fun K => by
    unfold recordsOn; rw [hentries]
  simp only [hrec]
  -- pushing one record per entry and pruning, shared by the three recording operations
  have hpush : ∀ mk : WindowEntry → WireRecord, ∃ keep, ∀ K, (recordsOn K
      { pruneStale { wire with entries := pushEntries mk (newEntries op) wire.entries } nowMs with
        version := wireVersion }).Perm
        ((recordsOn K wire ++ (entriesOn K (newEntries op)).map mk).filter keep) := by
    intro mk
    refine ⟨fun r => decide (r.tsMs ≥ nowMs - retentionMs) || decide (r.status = .pending),
      fun K => ?_⟩
    have hprune := recordsOn_pruneStale (K := K) nowMs
      { wire with entries := pushEntries mk (newEntries op) wire.entries }
    exact (List.Perm.of_eq hprune).trans ((recordsOf_pushEntries mk _ _).filter _)
  cases op with
  | recordPending es res =>
    obtain ⟨-, hadm, rfl⟩ := pendingImage_eq_ok (map_some_eq_ok himage)
    exact Or.inl ⟨pendingRecord res, fun e => ⟨rfl, rfl⟩, fun _ => hadm, hpush _⟩
  | recordAuthorized es =>
    obtain ⟨hadm, rfl⟩ := settledImage_eq_ok (map_some_eq_ok himage)
    exact Or.inl ⟨settledRecord, fun e => ⟨rfl, rfl⟩, fun _ => hadm rfl, hpush _⟩
  | recordAndPersist es =>
    have hset : settledImage false es nowMs wire = .ok image := map_some_eq_ok himage
    obtain ⟨-, rfl⟩ := settledImage_eq_ok hset
    exact Or.inl ⟨settledRecord, fun e => ⟨rfl, rfl⟩, fun hs => Bool.noConfusion hs, hpush _⟩
  | confirm id createdAt =>
    obtain ⟨ms, -, hrw⟩ := Option.bind_eq_some_iff.1 (Except.ok.inj himage)
    obtain ⟨keep, hkeep⟩ := recordsOn_rewriteImage hrw (recordsOn_updateRecords_filter _ _ wire)
    refine Or.inr ⟨_, keep, ?_, hkeep⟩
    exact settles_update (fun r hr => (isPendingOf_iff.1 hr).2) fun r => rfl
  | release id =>
    have hm : ∀ K, recordsOn K (releaseRecords id wire).1 = ((recordsOn K wire).map fun r => r).filter
        fun r => r.id != id || decide (r.status ≠ .pending) := fun K => by
      rw [map_id']
      exact recordsOn_retainRecords _ wire
    obtain ⟨keep, hkeep⟩ := recordsOn_rewriteImage (Except.ok.inj himage) hm
    exact Or.inr ⟨_, keep, fun r => ⟨rfl, fun _ => rfl⟩, hkeep⟩
  | markOperatorRequired id =>
    obtain ⟨keep, hkeep⟩ := recordsOn_rewriteImage (Except.ok.inj himage)
      (recordsOn_updateRecords_filter _ _ wire)
    refine Or.inr ⟨_, keep, ?_, hkeep⟩
    refine settles_update (fun r hr => ?_) fun r => rfl
    rw [Bool.and_eq_true] at hr
    exact (isPendingOf_iff.1 hr.1).2

/-! ### What the settling operations do to pending records -/

section Settling

variable {nowMs : ℕ} {id : String} {r : WireRecord}

theorem exec_rewrite (hop : op.image nowMs wire = .ok (rewriteImage mutate nowMs wire))
    (h : op.exec nowMs wire = .ok wire') : ((mutate wire).2 = false ∧ wire' = wire) ∨
      ∀ K, recordsOn K wire' = (recordsOn K (mutate wire).1).filter fun r =>
        decide (r.tsMs ≥ nowMs - retentionMs) || decide (r.status = .pending) := by
  by_cases htouched : (mutate wire).2 = true
  · right
    have himage : rewriteImage mutate nowMs wire =
        some { pruneStale (mutate wire).1 nowMs with version := wireVersion } := by
      unfold rewriteImage
      simp [htouched]
    unfold StoreOp.exec at h
    rw [hop, himage] at h
    dsimp only at h
    split at h
    · cases h
    · cases Except.ok.inj h
      exact fun K => recordsOn_pruneStale nowMs (mutate wire).1
  · left
    have himage : rewriteImage mutate nowMs wire = none := by
      unfold rewriteImage
      simp [htouched]
    unfold StoreOp.exec at h
    rw [hop, himage] at h
    exact ⟨by simpa using htouched, (Except.ok.inj h).symm⟩

def records (wire : WireFile) : List WireRecord := wire.entries.flatMap (·.records)

theorem mem_records_iff : r ∈ records wire ↔ ∃ K, r ∈ recordsOn K wire := by
  constructor
  · intro hr
    obtain ⟨b, hb, hrb⟩ := mem_flatMap.mp hr
    refine ⟨⟨"", b.scopeSpecificity, b.bucket, b.windowSecs⟩, mem_flatMap.mpr ⟨b, ?_, hrb⟩⟩
    exact mem_filter.mpr ⟨hb, by simp [WireBucket.holds]⟩
  · rintro ⟨K, hr⟩
    obtain ⟨b, hb, hrb⟩ := mem_flatMap.mp hr
    exact mem_flatMap.mpr ⟨b, mem_of_mem_filter hb, hrb⟩

theorem records_retainRecords (keep : WireRecord → Bool) (wire : WireFile) :
    records (retainRecords keep wire) = (records wire).filter keep := by
  unfold records retainRecords
  induction wire.entries with
  | nil => rfl
  | cons b bs ih =>
    rw [flatMap_cons, filter_append, ← ih, map_cons, filter_cons]
    by_cases he : (b.records.filter keep).isEmpty = true
    · simp [isEmpty_iff.1 he]
    · rw [if_pos (by simpa using he), flatMap_cons]

theorem recordCount_eq (wire : WireFile) : recordCount wire = (records wire).length := by
  unfold recordCount records
  rw [length_flatMap]

theorem id_ne_of_release (h : (StoreOp.release id).exec nowMs wire = .ok wire')
    (hmem : r ∈ recordsOn K wire') (hr : r.status = .pending) : r.id ≠ id := by
  rcases exec_rewrite rfl h with ⟨huntouched, rfl⟩ | hrec
  · -- nothing was removed, so every record passes the filter
    have hcount :
        ((records wire').filter fun r => r.id != id || decide (r.status ≠ .pending)).length =
        (records wire').length := by
      rw [← records_retainRecords, ← recordCount_eq, ← recordCount_eq]
      simpa [releaseRecords] using huntouched
    have hall := length_filter_eq_length_iff.mp hcount r (mem_records_iff.mpr ⟨K, hmem⟩)
    simpa [hr] using hall
  · have hfilter := recordsOn_retainRecords (K := K)
      (fun r => r.id != id || decide (r.status ≠ .pending)) wire
    rw [hrec K, releaseRecords, hfilter] at hmem
    simpa [hr] using (mem_filter.mp (mem_of_mem_filter hmem)).2

end Settling

end AgentWallet.PolicyState.Images
