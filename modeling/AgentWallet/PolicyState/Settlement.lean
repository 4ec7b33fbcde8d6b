import AgentWallet.Base.Runs
import AgentWallet.PolicyState.Images

/-!
# Settling reservations

`confirm`, `release` and `mark_operator_required` as calls that several processes make on one window
file, each under the store lock.  A call turns the pending records of its reservation into what its
verdict says (`Call.settled`) and leaves every other record alone, except that a call which finds
such a record also prunes the file.  `exec_eq` says so in one equation.
-/

namespace AgentWallet.PolicyState.Settlement

open Base.Runs PolicyState.Wire PolicyState.Images Policy.StateStore List

variable {entries : List WireBucket}

/-- What a call says about a reservation. -/
inductive Verdict where
  | confirm (createdAt : Option ℤ)
  | release
  | markOperatorRequired

/-- One call by some process, with the clock it prunes at. -/
structure Call where
  id : String
  verdict : Verdict
  nowMs : ℕ

namespace Call

def op (c : Call) : StoreOp :=
  match c.verdict with
  | .confirm createdAt => .confirm c.id createdAt
  | .release => .release c.id
  | .markOperatorRequired => .markOperatorRequired c.id

def exec (c : Call) (wire : WireFile) : Except WindowStoreError WireFile := c.op.exec c.nowMs wire

/-- The call decides the reservation: it releases it, or confirms it at a known close time. -/
def Decides (c : Call) : Prop :=
  match c.verdict with
  | .confirm createdAt => (closeMs createdAt).isSome
  | .release => True
  | .markOperatorRequired => False

def hits (c : Call) (r : WireRecord) : Bool :=
  isPendingOf c.id r &&
    match c.verdict with
    | .confirm createdAt => (closeMs createdAt).isSome
    | .release => true
    | .markOperatorRequired => !r.operatorRequired

/-- What a record becomes; `none` when it is removed. -/
def settled (c : Call) (r : WireRecord) : Option WireRecord :=
  if c.hits r then
    match c.verdict with
    | .confirm createdAt => (closeMs createdAt).map
        fun ms => { r with status := .confirmed, tsMs := ms }
    | .release => none
    | .markOperatorRequired => some { r with operatorRequired := true }
  else some r

def keeps (c : Call) (r : WireRecord) : Bool :=
  decide (r.tsMs ≥ c.nowMs - retentionMs) || decide (r.status = .pending)

/-- What a record becomes when the file is rewritten and pruned. -/
def rewritten (c : Call) (r : WireRecord) : Option WireRecord := (c.settled r).filter c.keeps

def touches (c : Call) (entries : List WireBucket) : Bool :=
  entries.any fun b => b.records.any c.hits

end Call

/-- Rewrites the records of every bucket and drops the buckets left empty. -/
def sweep (f : WireRecord → Option WireRecord) (entries : List WireBucket) : List WireBucket :=
  (entries.map fun b => { b with records := b.records.filterMap f }).filter fun b =>
    !b.records.isEmpty

/-- The file after a call: a failed call leaves it as it stands. -/
def settle (wire : WireFile) (c : Call) : WireFile :=
  match c.exec wire with
  | .ok wire' => wire'
  | .error _ => wire

/-! ### A call in one equation -/

theorem sweep_sweep (f g : WireRecord → Option WireRecord) : ∀ entries : List WireBucket,
    sweep g (sweep f entries) = sweep (fun r => (f r).bind g) entries
  | [] => rfl
  | b :: bs => by
    have ih := sweep_sweep f g bs
    have hcomp : (b.records.filterMap f).filterMap g = b.records.filterMap fun r => (f r).bind g :=
      filterMap_filterMap
    unfold sweep at ih ⊢
    rw [map_cons, map_cons, filter_cons, filter_cons]
    by_cases hf : b.records.filterMap f = []
    · -- a bucket the first rewrite empties stays empty
      have hg : (b.records.filterMap fun r => (f r).bind g) = [] := by
        rw [← hcomp, hf, filterMap_nil]
      rw [if_neg (by simp [hf]), if_neg (by simp [hg])]
      exact ih
    · rw [if_pos (by simpa using hf), map_cons, filter_cons]
      rw [hcomp, ih]

theorem retainRecords_eq_sweep (keep : WireRecord → Bool) (wire : WireFile) :
    (retainRecords keep wire).entries = sweep (Option.guard fun r => keep r) wire.entries := by
  unfold retainRecords sweep
  have hguard : ∀ l : List WireRecord, l.filterMap (Option.guard fun r => keep r) = l.filter keep :=
    fun l => by rw [filterMap_eq_filter]
  simp [hguard]

theorem pruneStale_map (wire : WireFile) (nowMs : ℕ) (f : WireRecord → WireRecord) :
    (pruneStale { wire with entries := wire.entries.map fun b =>
        { b with records := b.records.map f } } nowMs).entries =
      sweep (fun r => (some (f r)).filter fun r =>
        decide (r.tsMs ≥ nowMs - retentionMs) || decide (r.status = .pending)) wire.entries := by
  unfold pruneStale
  rw [retainRecords_eq_sweep]
  unfold sweep
  rw [map_map]
  refine congrArg (List.filter _) (map_congr_left fun b _ => ?_)
  rw [Function.comp_apply, filterMap_map]
  refine congrArg (fun l => { b with records := l }) (filterMap_congr fun r _ => ?_)
  simp [Option.guard, Option.filter]

theorem exec_of_image {c : Call} {wire image : WireFile} (touched : Bool)
    (h : c.op.image c.nowMs wire = .ok (if touched then some image else none)) :
    c.exec wire = if touched then (incrementGeneration wire.generation).map fun generation =>
      { image with generation := generation, prepared := none } else .ok wire := by
  unfold Call.exec StoreOp.exec
  rw [h]
  cases touched with
  | false => rfl
  | true =>
    cases incrementGeneration wire.generation with
    | error e => rfl
    | ok generation => rfl

theorem touched_release (id : String) (wire : WireFile) :
    (releaseRecords id wire).2 = wire.entries.any fun b => b.records.any (isPendingOf id) := by
  have hcount : (releaseRecords id wire).2 =
      (((records wire).filter fun r => r.id != id || decide (r.status ≠ .pending)).length !=
        (records wire).length) := by
    rw [← records_retainRecords, ← recordCount_eq, ← recordCount_eq]
    rfl
  rw [hcount, Bool.eq_iff_iff, bne_iff_ne, Ne, length_filter_eq_length_iff]
  simp only [records, any_eq_true, isPendingOf_iff, mem_flatMap]
  push Not
  constructor
  · rintro ⟨r, ⟨b, hb, hr⟩, hp⟩
    exact ⟨b, hb, r, hr, by simpa using hp⟩
  · rintro ⟨b, hb, r, hr, hid, hst⟩
    exact ⟨r, ⟨b, hb, hr⟩, by simp [hid, hst]⟩

/-- An updating verdict: the records it hits are rewritten by `f`. -/
theorem exec_eq_of_update {c : Call} {p : WireRecord → Bool} {f : WireRecord → WireRecord}
    (hop : ∀ wire, c.op.image c.nowMs wire = .ok (rewriteImage (updateRecords p f) c.nowMs wire))
    (hits : c.hits = p) (settled : ∀ r, c.settled r = some (if p r then f r else r))
    (wire : WireFile) : c.exec wire = if c.touches wire.entries then
      (incrementGeneration wire.generation).map fun generation =>
        ⟨wireVersion, generation, sweep c.rewritten wire.entries, none⟩ else .ok wire := by
  rw [exec_of_image (updateRecords p f wire).2 (hop wire)]
  have hsweep := pruneStale_map wire c.nowMs fun r => if p r then f r else r
  have hrewritten : c.rewritten = fun r => (some (if p r then f r else r)).filter fun r =>
      decide (r.tsMs ≥ c.nowMs - retentionMs) || decide (r.status = .pending) := by
    funext r
    unfold Call.rewritten
    rw [settled]
    rfl
  rw [hrewritten, ← hsweep]
  unfold Call.touches
  rw [hits]
  rfl

/-- **What a call does**: nothing, or it rewrites the records it hits and prunes. -/
theorem exec_eq (c : Call) (wire : WireFile) : c.exec wire = if c.touches wire.entries then
      (incrementGeneration wire.generation).map fun generation =>
        ⟨wireVersion, generation, sweep c.rewritten wire.entries, none⟩ else .ok wire := by
  obtain ⟨id, verdict, nowMs⟩ := c
  cases verdict with
  | release =>
    have hsweep : (pruneStale (releaseRecords id wire).1 nowMs).entries =
        sweep (Call.rewritten ⟨id, .release, nowMs⟩) wire.entries := by
      unfold pruneStale releaseRecords
      rw [retainRecords_eq_sweep, retainRecords_eq_sweep, sweep_sweep]
      refine congrArg (sweep · wire.entries) (funext fun r => ?_)
      by_cases h : isPendingOf id r = true
      · have hp := isPendingOf_iff.1 h
        simp [Call.rewritten, Call.settled, Call.hits, h, hp.1, hp.2]
      · have hp : r.id ≠ id ∨ r.status ≠ .pending := by
          rw [isPendingOf_iff, not_and_or] at h
          exact h
        simp [Call.rewritten, Call.settled, Call.hits, h, hp, Option.guard, Option.filter,
          Call.keeps]
    have hhits : Call.hits ⟨id, .release, nowMs⟩ = isPendingOf id := by
      funext r
      simp [Call.hits]
    have htouches : Call.touches ⟨id, .release, nowMs⟩ wire.entries = (releaseRecords id wire).2 := by
      rw [touched_release, Call.touches, hhits]
    rw [exec_of_image (releaseRecords id wire).2 rfl, htouches, ← hsweep]
    rfl
  | confirm createdAt =>
    cases hms : closeMs createdAt with
    | none =>
      have htouches : Call.touches ⟨id, .confirm createdAt, nowMs⟩ wire.entries = false := by
        simp [Call.touches, Call.hits, hms]
      rw [htouches]
      simp [Call.exec, Call.op, StoreOp.exec, StoreOp.image, hms]
    | some ms =>
      refine exec_eq_of_update (p := isPendingOf id)
        (f := fun r => { r with status := .confirmed, tsMs := ms }) (fun wire => ?_) ?_ ?_ wire
      · simp only [Call.op, StoreOp.image, hms]
        rfl
      · funext r
        simp [Call.hits, hms]
      · intro r
        simp only [Call.settled, Call.hits, hms, Option.isSome_some, Bool.and_true]
        split_ifs <;> rfl
  | markOperatorRequired =>
    refine exec_eq_of_update
      (fun wire => rfl) rfl ?_ wire
    intro r
    have hhits : Call.hits ⟨id, .markOperatorRequired, nowMs⟩ r =
        (isPendingOf id r && !r.operatorRequired) := rfl
    unfold Call.settled
    rw [hhits]
    split_ifs <;> rfl

/-! ### Records of other reservations -/

variable {c d : Call} {r r' : WireRecord} {wire wire' : WireFile} {id : String}

theorem Call.pending_of_hits (h : c.hits r = true) : r.id = c.id ∧ r.status = .pending := by
  unfold Call.hits at h
  rw [Bool.and_eq_true] at h
  exact isPendingOf_iff.1 h.1

theorem Call.settled_eq_self (h : c.hits r = false) : c.settled r = some r := by
  unfold Call.settled
  rw [if_neg (by simp [h])]

theorem Call.id_of_settled (h : c.settled r = some r') : r'.id = r.id := by
  unfold Call.settled at h
  split_ifs at h
  · split at h
    · obtain ⟨ms, -, rfl⟩ := Option.map_eq_some_iff.1 h
      rfl
    · cases h
    · cases h
      rfl
  · cases h
    rfl

theorem Call.keeps_of_pending (h : r.status = .pending) : c.keeps r = true := by
  simp [Call.keeps, h]

theorem Call.rewritten_of_ne (h : r.id ≠ c.id) : c.rewritten r = (some r).filter c.keeps := by
  have hmiss : c.hits r = false := by
    by_contra hhit
    exact h (Call.pending_of_hits (by simpa using hhit)).1
  rw [Call.rewritten, Call.settled_eq_self hmiss]

theorem Call.rewritten_eq_self (h : r.id ≠ c.id) (hp : r.status = .pending) :
    c.rewritten r = some r := by
  rw [Call.rewritten_of_ne h]
  simp [Call.keeps_of_pending hp]

theorem Call.id_of_rewritten (h : c.rewritten r = some r') : r'.id = r.id := by
  exact Call.id_of_settled (Option.filter_eq_some_iff.1 h).1

theorem rewritten_bind_of_hits (hne : c.id ≠ d.id) (hnow : c.nowMs = d.nowMs)
    (hhit : c.hits r = true) : (c.rewritten r).bind d.rewritten =
      (d.rewritten r).bind c.rewritten := by
  obtain ⟨hid, hp⟩ := Call.pending_of_hits hhit
  have hkeeps : c.keeps = d.keeps := by
    funext r
    simp [Call.keeps, hnow]
  have hd : d.rewritten r = some r := Call.rewritten_eq_self (by rw [hid]; exact hne) hp
  rw [hd, Option.bind_some]
  cases hc : c.rewritten r with
  | none => rfl
  | some r' =>
    have hkept : c.keeps r' = true := (Option.filter_eq_some_iff.1 hc).2
    have hne' : r'.id ≠ d.id := by
      rw [Call.id_of_rewritten hc, hid]
      exact hne
    rw [Option.bind_some, Call.rewritten_of_ne hne']
    simp [← hkeeps, hkept]

theorem rewritten_comm (hne : c.id ≠ d.id) (hnow : c.nowMs = d.nowMs) (r : WireRecord) :
    (c.rewritten r).bind d.rewritten = (d.rewritten r).bind c.rewritten := by
  by_cases hc : c.hits r = true
  · exact rewritten_bind_of_hits hne hnow hc
  by_cases hd : d.hits r = true
  · exact (rewritten_bind_of_hits hne.symm hnow.symm hd).symm
  · -- no call hits the record: it is only pruned
    have hkeeps : c.keeps = d.keeps := by
      funext r
      simp [Call.keeps, hnow]
    have hc' : c.rewritten r = (some r).filter c.keeps := by
      rw [Call.rewritten, Call.settled_eq_self (by simpa using hc)]
    have hd' : d.rewritten r = (some r).filter c.keeps := by
      rw [Call.rewritten, Call.settled_eq_self (by simpa using hd), hkeeps]
    rw [hc', hd']
    cases hk : c.keeps r with
    | false => simp [Option.filter, hk]
    | true =>
      simp only [Option.filter_some, hk, if_true, Option.bind_some]
      rw [hc', hd']

theorem mem_sweep {f : WireRecord → Option WireRecord} :
    (∃ b ∈ sweep f entries, r' ∈ b.records) ↔ ∃ b ∈ entries, ∃ r ∈ b.records, f r = some r' := by
  constructor
  · rintro ⟨b', hb', hr'⟩
    obtain ⟨b, hb, rfl⟩ := mem_map.1 (mem_of_mem_filter hb')
    obtain ⟨r, hr, hf⟩ := mem_filterMap.1 hr'
    exact ⟨b, hb, r, hr, hf⟩
  · rintro ⟨b, hb, r, hr, hf⟩
    have hmem : r' ∈ b.records.filterMap f := mem_filterMap.2 ⟨r, hr, hf⟩
    refine ⟨{ b with records := b.records.filterMap f }, mem_filter.2 ⟨?_, ?_⟩, hmem⟩
    · exact mem_map.2 ⟨b, hb, rfl⟩
    · simpa using ne_nil_of_mem hmem

theorem touches_iff :
    c.touches entries = true ↔ ∃ r, (∃ b ∈ entries, r ∈ b.records) ∧ c.hits r = true := by
  unfold Call.touches
  simp only [any_eq_true]
  constructor
  · rintro ⟨b, hb, r, hr, hhit⟩
    exact ⟨r, ⟨b, hb, hr⟩, hhit⟩
  · rintro ⟨r, ⟨b, hb, hr⟩, hhit⟩
    exact ⟨b, hb, r, hr, hhit⟩

theorem touches_sweep (hne : c.id ≠ d.id) (entries : List WireBucket) :
    d.touches (sweep c.rewritten entries) = d.touches entries := by
  rw [Bool.eq_iff_iff, touches_iff, touches_iff]
  constructor
  · rintro ⟨r', hr', hhit⟩
    obtain ⟨b, hb, r, hr, hf⟩ := mem_sweep.1 hr'
    have hid' : r'.id = d.id := (Call.pending_of_hits hhit).1
    have hid : r.id ≠ c.id := by
      rw [← Call.id_of_rewritten hf, hid']
      exact hne.symm
    rw [Call.rewritten_of_ne hid] at hf
    obtain rfl : r = r' := Option.some.inj (Option.filter_eq_some_iff.1 hf).1
    exact ⟨r, ⟨b, hb, hr⟩, hhit⟩
  · rintro ⟨r, ⟨b, hb, hr⟩, hhit⟩
    obtain ⟨hid, hp⟩ := Call.pending_of_hits hhit
    exact ⟨r, mem_sweep.2 ⟨b, hb, r, hr, Call.rewritten_eq_self (hid ▸ hne.symm) hp⟩, hhit⟩

/-- **Calls about different reservations commute**: same file, or the same failure. -/
theorem exec_comm (hne : c.id ≠ d.id) (hnow : c.nowMs = d.nowMs) (wire : WireFile) :
    (c.exec wire).bind d.exec = (d.exec wire).bind c.exec := by
  have hsweep : sweep d.rewritten (sweep c.rewritten wire.entries) =
      sweep c.rewritten (sweep d.rewritten wire.entries) := by
    rw [sweep_sweep, sweep_sweep]
    exact congrArg (sweep · wire.entries) (funext (rewritten_comm hne hnow))
  rw [exec_eq c wire, exec_eq d wire]
  by_cases hc : c.touches wire.entries = true
  · by_cases hd : d.touches wire.entries = true
    · rw [if_pos hc, if_pos hd]
      cases incrementGeneration wire.generation with
      | error e => simp only [Except.map, Except.bind]
      | ok generation =>
        simp only [Except.map, Except.bind]
        rw [exec_eq, exec_eq]
        simp [touches_sweep hne, touches_sweep hne.symm, hc, hd, hsweep]
    · rw [if_neg hd]
      cases hg : incrementGeneration wire.generation with
      | error e => simp [Except.map, Except.bind, exec_eq, hc, hg]
      | ok generation =>
        simp [Except.map, Except.bind, exec_eq, touches_sweep hne, hc, hd, hg]
  · by_cases hd : d.touches wire.entries = true
    · rw [if_neg hc]
      cases hg : incrementGeneration wire.generation with
      | error e => simp [Except.map, Except.bind, exec_eq, hd, hg]
      | ok generation =>
        simp [Except.map, Except.bind, exec_eq, touches_sweep hne.symm, hc, hd, hg]
    · rw [if_neg hc, if_neg hd]
      show d.exec wire = c.exec wire
      rw [exec_eq, exec_eq, if_neg hc, if_neg hd]

/-! ### The first verdict -/

/-- The file holds no pending record of the reservation. -/
def PendingFree (id : String) (wire : WireFile) : Prop :=
  ∀ r, (∃ b ∈ wire.entries, r ∈ b.records) → isPendingOf id r = false

theorem not_touches_of_pendingFree (h : PendingFree c.id wire) : c.touches wire.entries = false := by
  by_contra htouches
  obtain ⟨r, hr, hhit⟩ := touches_iff.1 (by simpa using htouches)
  have hpending := isPendingOf_iff.2 (Call.pending_of_hits hhit)
  rw [h r hr] at hpending
  cases hpending

theorem exec_of_pendingFree (h : PendingFree c.id wire) : c.exec wire = .ok wire := by
  rw [exec_eq, not_touches_of_pendingFree h, if_neg (by decide)]

theorem exec_cases (h : c.exec wire = .ok wire') :
    (c.touches wire.entries = false ∧ wire' = wire) ∨
      wire'.entries = sweep c.rewritten wire.entries := by
  rw [exec_eq] at h
  split_ifs at h with htouches
  · cases hg : incrementGeneration wire.generation with
    | error e =>
      rw [hg] at h
      cases h
    | ok generation =>
      rw [hg] at h
      cases h
      exact Or.inr rfl
  · cases h
    exact Or.inl ⟨by simpa using htouches, rfl⟩

theorem Decides.pendingFree (hd : c.Decides) (h : c.exec wire = .ok wire') :
    PendingFree c.id wire' := by
  have hhits : ∀ r, isPendingOf c.id r = true → c.hits r = true := by
    intro r hr
    obtain ⟨id, verdict, nowMs⟩ := c
    cases verdict with
    | confirm createdAt =>
      have hms : (closeMs createdAt).isSome = true := hd
      simp [Call.hits, hr, hms]
    | release => simp [Call.hits, hr]
    | markOperatorRequired => exact hd.elim
  intro r' hr'
  by_contra hp
  have hp' : isPendingOf c.id r' = true := by simpa using hp
  rcases exec_cases h with ⟨htouches, rfl⟩ | hentries
  · have htouched : c.touches wire'.entries = true := touches_iff.2 ⟨r', hr', hhits r' hp'⟩
    rw [htouches] at htouched
    cases htouched
  · rw [hentries] at hr'
    obtain ⟨b, hb, r, hr, hf⟩ := mem_sweep.1 hr'
    have hs : c.settled r = some r' := (Option.filter_eq_some_iff.1 hf).1
    obtain ⟨hid, hst⟩ := isPendingOf_iff.1 hp'
    unfold Call.settled at hs
    split_ifs at hs with hhit
    · split at hs
      · obtain ⟨ms, -, rfl⟩ := Option.map_eq_some_iff.1 hs
        cases hst
      · cases hs
      · rename_i hmark
        unfold Call.Decides at hd
        rw [hmark] at hd
        exact hd
    · obtain rfl := Option.some.inj hs
      exact hhit (hhits r hp')

theorem pendingFree_settle (h : PendingFree id wire) (c : Call) : PendingFree id (settle wire c) := by
  unfold settle
  cases hexec : c.exec wire with
  | error e => exact h
  | ok wire' =>
    rcases exec_cases hexec with ⟨-, rfl⟩ | hentries
    · exact h
    · intro r' hr'
      simp only [hentries] at hr'
      obtain ⟨b, hb, r, hr, hf⟩ := mem_sweep.1 hr'
      have hs : c.settled r = some r' := (Option.filter_eq_some_iff.1 hf).1
      have hfree := h r ⟨b, hb, hr⟩
      by_contra hp
      obtain ⟨hid, hst⟩ := isPendingOf_iff.1 (by simpa using hp : isPendingOf id r' = true)
      have hpending : r.status = .pending := by
        by_cases hhit : c.hits r = true
        · exact (Call.pending_of_hits hhit).2
        · rw [Call.settled_eq_self (by simpa using hhit)] at hs
          cases hs
          exact hst
      rw [Call.id_of_settled hs] at hid
      rw [isPendingOf_iff.2 ⟨hid, hpending⟩] at hfree
      cases hfree

/-! ### Confirmed records -/

/-- A confirmed record within the retention at `nowMs`. -/
def isRetained (nowMs : ℕ) (r : WireRecord) : Bool :=
  decide (r.status = .confirmed) && decide (r.tsMs ≥ nowMs - retentionMs)

theorem recordsOn_sweep {K : StateKey} (f : WireRecord → Option WireRecord) : ∀ es : List WireBucket,
    recordsOf K (sweep f es) = (recordsOf K es).filterMap f
  | [] => rfl
  | b :: bs => by
    have ih := recordsOn_sweep (K := K) f bs
    unfold sweep at ih ⊢
    rw [recordsOf_cons, filterMap_append, ← ih, map_cons, filter_cons]
    by_cases he : b.records.filterMap f = []
    · rw [if_neg (by simp [he])]
      by_cases hK : b.holds K = true
      · rw [if_pos hK, he, nil_append]
      · rw [if_neg hK, filterMap_nil, nil_append]
    · rw [if_pos (by simpa using he), recordsOf_cons]
      have hholds : WireBucket.holds { b with records := b.records.filterMap f } K = b.holds K := rfl
      rw [hholds]
      by_cases hK : b.holds K = true
      · rw [if_pos hK, if_pos hK]
      · rw [if_neg hK, if_neg hK, filterMap_nil]

theorem Call.keeps_of_retained (h : isRetained c.nowMs r = true) : c.keeps r = true := by
  unfold isRetained at h
  unfold Call.keeps
  rw [Bool.and_eq_true] at h
  rw [h.2, Bool.true_or]

theorem Call.hits_of_retained {nowMs : ℕ} (h : isRetained nowMs r = true) : c.hits r = false := by
  by_contra hhit
  have hp := (Call.pending_of_hits (by simpa using hhit)).2
  simp [isRetained, hp] at h

theorem retained_of_release {K : StateKey} (hc : c.verdict = .release) (h : c.exec wire = .ok wire') :
    (recordsOn K wire').filter (isRetained c.nowMs) =
      (recordsOn K wire).filter (isRetained c.nowMs) := by
  rcases exec_cases h with ⟨-, rfl⟩ | hentries
  · rfl
  have hrec : recordsOn K wire' = (recordsOn K wire).filterMap c.rewritten := by
    unfold recordsOn
    rw [hentries, recordsOn_sweep]
  rw [hrec, filter_filterMap, ← filterMap_eq_filter]
  refine filterMap_congr fun r _ => ?_
  cases hret : isRetained c.nowMs r with
  | true =>
    have hself : c.rewritten r = some r := by
      rw [Call.rewritten, Call.settled_eq_self (Call.hits_of_retained hret), Option.filter_some,
        if_pos (Call.keeps_of_retained hret)]
    rw [hself, Option.filter_some, if_pos hret, Option.guard_pos hret]
  | false =>
    have hnone : Option.guard (fun r => isRetained c.nowMs r) r = none := by
      simp [hret]
    rw [hnone]
    cases hs : c.rewritten r with
    | none => rfl
    | some r' =>
      have hsettled : c.settled r = some r' := (Option.filter_eq_some_iff.1 hs).1
      have hr' : r' = r := by
        unfold Call.settled at hsettled
        rw [hc] at hsettled
        split_ifs at hsettled
        exact (Option.some.inj hsettled).symm
      rw [Option.filter_some, hr', hret, if_neg (by decide)]

/-! ### Interleavings -/

/-- **Settlement.**  Whatever calls come in between, a call after the first deciding one leaves the
file of its reservation as it stands; a release keeps every confirmed record within the retention;
and calls about different reservations commute. -/
theorem settlement_laws :
    (∀ (wire wire' : WireFile) (before later : List Call) (c d : Call), c.Decides →
      c.exec (run settle wire before) = .ok wire' → d.id = c.id →
      d.exec (run settle wire' later) = .ok (run settle wire' later)) ∧
    (∀ (wire wire' : WireFile) (id : String) (nowMs : ℕ) (K : StateKey),
      Call.exec ⟨id, .release, nowMs⟩ wire = .ok wire' →
      (recordsOn K wire').filter (isRetained nowMs) = (recordsOn K wire).filter (isRetained nowMs)) ∧
    (∀ (wire : WireFile) (c d : Call), c.id ≠ d.id → c.nowMs = d.nowMs →
      (c.exec wire).bind d.exec = (d.exec wire).bind c.exec) := by
  refine ⟨fun wire wire' before later c d hdec hexec hid => ?_,
    fun wire wire' id nowMs K h => retained_of_release (c := ⟨id, .release, nowMs⟩) rfl h,
    fun wire c d hne hnow => exec_comm hne hnow wire⟩
  have hstep : ∀ (w : WireFile) (a : Call), PendingFree c.id w → True →
      PendingFree c.id (settle w a) := fun w a hw _ => pendingFree_settle hw a
  have hfree := run_invariant hstep later wire' (Decides.pendingFree hdec hexec) fun _ _ => trivial
  rw [← hid] at hfree
  exact exec_of_pendingFree hfree

/-- A file with one old confirmed record and one open reservation. -/
def agedFile : WireFile :=
  ⟨3, 4, [⟨1, "native", 60, [{ tsMs := 5, amount := 7 },
    { tsMs := 9, amount := 2, id := "a", status := .pending }]⟩], none⟩

/-- A confirmation that comes after a release finds nothing to confirm. -/
theorem settlement_laws_aged : ∃ wire', Call.exec ⟨"a", .release, 10⟩ agedFile = .ok wire' ∧
    Call.exec ⟨"a", .confirm (some 3), 11⟩ wire' = .ok wire' ∧
    (recordsOn ⟨"", 1, "native", 60⟩ wire').filter (isRetained 10) =
      (recordsOn ⟨"", 1, "native", 60⟩ agedFile).filter (isRetained 10) ∧
    (Call.exec ⟨"a", .release, 10⟩ agedFile).bind (Call.exec ⟨"b", .release, 10⟩) =
      (Call.exec ⟨"b", .release, 10⟩ agedFile).bind (Call.exec ⟨"a", .release, 10⟩) := by
  have hexec : Call.exec ⟨"a", .release, 10⟩ agedFile =
      .ok ⟨3, 5, [⟨1, "native", 60, [{ tsMs := 5, amount := 7 }]⟩], none⟩ := by decide
  refine ⟨_, hexec, ?_, settlement_laws.2.1 _ _ _ _ _ hexec,
      settlement_laws.2.2 _ _ _ (by decide) rfl⟩
  exact settlement_laws.1 agedFile _ [] [] ⟨"a", .release, 10⟩ ⟨"a", .confirm (some 3), 11⟩ trivial
    hexec rfl

/-- A release that finds its reservation also removes confirmed records older than the retention. -/
theorem release_drops_aged_record :
    ∃ wire', Call.exec ⟨"a", .release, 604800006⟩ agedFile = .ok wire' ∧
    (⟨5, 7, "", .confirmed, "", "", 0, 0, 0, 0, false⟩ : WireRecord) ∈ records agedFile ∧
    (⟨5, 7, "", .confirmed, "", "", 0, 0, 0, 0, false⟩ : WireRecord) ∉ records wire' := by
  have hexec : Call.exec ⟨"a", .release, 604800006⟩ agedFile = .ok ⟨3, 5, [], none⟩ := by decide
  exact ⟨_, hexec, by decide, by decide⟩

end AgentWallet.PolicyState.Settlement
