import AgentWallet.PolicyState.Durable

/-!
# The gate's window and the file's window

The gate reads windows from memory, admission reads them from the file.  `load_into` copies the
file into a `PolicyStateStore` under the keys of one profile, and `query_window` then answers from
the copy, evicting what has aged out.  The two accumulators are written separately: the in-memory
one looks for clock skew first, drops the aged entries and then adds up, the file's one interleaves
the three.
-/

namespace AgentWallet.PolicyState.Hydrate

open Policy.Outcome Policy.StateStore List
open PolicyState.Wire PolicyState.Images PolicyState.Durable

variable {nowMs t : ℕ} {s s' : PolicyStateStore}

/-- The body of `load_into`'s inner loop. -/
def appendRecord (key : StateKey) (s : PolicyStateStore) (r : WireRecord) : PolicyStateStore :=
  if r.status = .pending then s.appendPending key r.tsMs r.amount
  else s.append key r.tsMs r.amount

def keyOf (profileName : String) (b : WireBucket) : StateKey :=
  ⟨profileName, b.scopeSpecificity, b.bucket, b.windowSecs⟩

/-- The loops of `load_into`. -/
def hydrate (profileName : String) (entries : List WireBucket) (dest : PolicyStateStore) :
    PolicyStateStore :=
  entries.foldl (fun s b => b.records.foldl (appendRecord (keyOf profileName b)) s) dest

/-- Verifies the durable state and copies it into `dest`; without a file and without a counter
there is no history to copy. -/
def loadInto {Body Tag Digest : Type} [DecidableEq Tag] [DecidableEq Digest]
    (C : Codec Body Tag Digest) (d : StoreState Body Tag Digest) (profileName : String)
    (dest : PolicyStateStore) : Except WindowStoreError PolicyStateStore :=
  match d.file with
  | none =>
    match d.counter with
    | none => .ok dest
    | some _ => .error .generationMismatch
  | some content =>
    match verifyWithKey C content with
    | .error e => .error e
    | .ok wire =>
      match selectGeneration C wire d.counter with
      | .error e => .error e
      | .ok wire => .ok (hydrate profileName wire.entries dest)

/-! ### What the copy holds -/

def toEntry (r : WireRecord) : StateEntry := ⟨r.tsMs, r.amount, decide (r.status = .pending)⟩

theorem appendRecord_inner (key k : StateKey) (s : PolicyStateStore) (r : WireRecord) :
    (appendRecord key s r).inner k = s.inner k ++ if k = key then [toEntry r] else [] := by
  have hentry : appendRecord key s r =
      ⟨Function.update s.inner key (s.inner key ++ [toEntry r])⟩ := by
    unfold appendRecord toEntry
    by_cases hp : r.status = .pending
    · rw [if_pos hp, decide_eq_true hp]
      rfl
    · rw [if_neg hp, decide_eq_false hp]
      rfl
  rw [hentry]
  by_cases hk : k = key
  · subst hk
    simp
  · simp [hk]

theorem foldl_appendRecord_inner (key k : StateKey) : ∀ (rs : List WireRecord)
    (s : PolicyStateStore), (rs.foldl (appendRecord key) s).inner k =
      s.inner k ++ if k = key then rs.map toEntry else []
  | [], s => by simp
  | r :: rs, s => by
    rw [foldl_cons, foldl_appendRecord_inner key k rs, appendRecord_inner]
    by_cases hk : k = key
    · simp [hk]
    · simp [hk]

theorem keyOf_eq_iff (profileName : String) (b : WireBucket) (k : StateKey) :
    k = keyOf profileName b ↔ k.profileName = profileName ∧ b.holds k = true := by
  rw [holds_iff]
  constructor
  · rintro rfl
    exact ⟨rfl, rfl, rfl, rfl⟩
  · rintro ⟨hp, hs, hb, hw⟩
    cases k
    cases hp
    cases hs
    cases hb
    cases hw
    rfl

/-- **What the copy holds** under a key: the file's records of that key, in file order, when the
key is of the hydrated profile. -/
theorem deque_hydrate (profileName : String) (k : StateKey) : ∀ (entries : List WireBucket)
    (dest : PolicyStateStore), (hydrate profileName entries dest).inner k =
      dest.inner k ++ if k.profileName = profileName then (recordsOf k entries).map toEntry else []
  | [], dest => by simp [hydrate, recordsOf]
  | b :: bs, dest => by
    have ih := deque_hydrate profileName k bs
      (b.records.foldl (appendRecord (keyOf profileName b)) dest)
    have hhead := foldl_appendRecord_inner (keyOf profileName b) k b.records dest
    unfold hydrate at ih ⊢
    rw [foldl_cons, ih, hhead, recordsOf_cons, append_assoc]
    by_cases hp : k.profileName = profileName
    · by_cases hb : b.holds k = true
      · rw [if_pos ((keyOf_eq_iff _ _ _).2 ⟨hp, hb⟩), if_pos hp, if_pos hp, if_pos hb, map_append]
      · rw [if_neg fun h => hb ((keyOf_eq_iff _ _ _).1 h).2, if_pos hp, if_pos hp, if_neg hb,
          nil_append, nil_append]
    · rw [if_neg fun h => hp ((keyOf_eq_iff _ _ _).1 h).1, if_neg hp, if_neg hp, nil_append]

/-! ### Evictions -/

/-- `s'` is `s` with some records evicted, none of which a query at `nowMs` would keep. -/
def Evicted (nowMs : ℕ) (s s' : PolicyStateStore) : Prop :=
  ∀ k, ∃ p : StateEntry → Bool, s'.inner k = (s.inner k).filter p ∧
    ∀ e : StateEntry, e.isKept k.windowSecs nowMs = true → p e = true

theorem Evicted.refl (nowMs : ℕ) (s : PolicyStateStore) : Evicted nowMs s s :=
  fun k => ⟨fun _ => true, by simp, fun _ _ => rfl⟩

theorem Evicted.trans {s'' : PolicyStateStore} (h : Evicted nowMs s s') (h' : Evicted nowMs s' s'') :
    Evicted nowMs s s'' := by
  intro k
  obtain ⟨p, hp, hkp⟩ := h k
  obtain ⟨q, hq, hkq⟩ := h' k
  refine ⟨fun e => p e && q e, ?_, fun e he => ?_⟩
  · rw [hq, hp, filter_filter]
    exact filter_congr fun e _ => Bool.and_comm _ _
  · exact Bool.and_eq_true_iff.2 ⟨hkp e he, hkq e he⟩

theorem isKept_anti {windowSecs : ℕ} (h : t ≤ nowMs) {e : StateEntry}
    (he : e.isKept windowSecs nowMs = true) : e.isKept windowSecs t = true := by
  unfold StateEntry.isKept at he ⊢
  rw [Bool.or_eq_true, decide_eq_true_eq] at he ⊢
  rcases he with he | he
  · exact Or.inl he
  · exact Or.inr (by omega)

theorem evicted_queryWindow (h : t ≤ nowMs) (s : PolicyStateStore) (key : StateKey) :
    Evicted nowMs s (s.queryWindow key t).2 := by
  rcases s.queryWindow_snd key t with hs | hs
  · rw [hs]
    exact Evicted.refl nowMs s
  · rw [hs]
    intro k
    by_cases hk : k = key
    · subst hk
      exact ⟨_, by simp, fun e he => isKept_anti h he⟩
    · exact ⟨fun _ => true, by simp [hk], fun _ _ => rfl⟩

def queried (s : PolicyStateStore) (queries : List (StateKey × ℕ)) : PolicyStateStore :=
  queries.foldl (fun s q => (s.queryWindow q.1 q.2).2) s

theorem evicted_queried : ∀ (queries : List (StateKey × ℕ)) (s : PolicyStateStore),
    (∀ q ∈ queries, q.2 ≤ nowMs) → Evicted nowMs s (queried s queries)
  | [], s, _ => Evicted.refl nowMs s
  | q :: queries, s, h =>
    (evicted_queryWindow (h q mem_cons_self) s q.1).trans
      (evicted_queried queries _ fun r hr => h r (mem_cons_of_mem _ hr))

theorem queryWindow_of_evicted (h : Evicted nowMs s s') (key : StateKey) :
    (s'.queryWindow key nowMs).1 = (s.queryWindow key nowMs).1 := by
  obtain ⟨p, hp, hkeep⟩ := h key
  have hskew : (s'.inner key).find? (StateEntry.isSkewed nowMs) =
      (s.inner key).find? (StateEntry.isSkewed nowMs) := by
    rw [hp, List.find?_filter]
    congr 1
    funext e
    cases hs : StateEntry.isSkewed nowMs e with
    | false => simp
    | true =>
      have hpend : e.pending = true := (Bool.and_eq_true _ _ ▸ hs).1
      have hkept : p e = true := hkeep e (by simp [StateEntry.isKept, hpend])
      simp [hkept]
  have hkept : (s'.inner key).filter (StateEntry.isKept key.windowSecs nowMs) =
      (s.inner key).filter (StateEntry.isKept key.windowSecs nowMs) := by
    rw [hp, filter_filter]
    refine filter_congr fun e _ => ?_
    cases hk : StateEntry.isKept key.windowSecs nowMs e with
    | false => simp
    | true => simp [hkeep e hk]
  rw [PolicyStateStore.queryWindow_fst, PolicyStateStore.queryWindow_fst, hskew, hkept]

/-! ### The two answers -/

/-- The denial the gate makes of a failed query. -/
def asReason (e : StateStoreError) : DenyReason := .evaluationError e.toText

theorem queryWindow_hydrate (entries : List WireBucket) (wire : WireFile)
    (hw : wire.entries = entries) (key : StateKey) (nowMs : ℕ) :
    ((hydrate key.profileName entries .new).queryWindow key nowMs).1.mapError asReason =
      windowInFile wire key nowMs := by
  have hdeque : (hydrate key.profileName entries .new).inner key =
      (recordsOn key wire).map toEntry := by
    rw [deque_hydrate, if_pos rfl, recordsOn, hw]
    rfl
  have hskew : ((recordsOn key wire).map toEntry).find? (StateEntry.isSkewed nowMs) =
      ((recordsOn key wire).find? (isSkewed nowMs)).map toEntry := by
    rw [List.find?_map]
    rfl
  have hkept : ((recordsOn key wire).map toEntry).filter
      (StateEntry.isKept key.windowSecs nowMs) =
        ((recordsOn key wire).filter fun r => recordIsLive r nowMs key.windowSecs).map toEntry := by
    rw [filter_map]
    rfl
  rw [PolicyStateStore.queryWindow_fst, windowInFile_eq, hdeque, hskew, hkept, map_map]
  cases (recordsOn key wire).find? (isSkewed nowMs) with
  | some r => rfl
  | none => rfl

theorem queryWindow_hydrate_other {profileName : String} (entries : List WireBucket)
    {key : StateKey} (h : key.profileName ≠ profileName) (nowMs : ℕ) :
    ((hydrate profileName entries .new).queryWindow key nowMs).1 = .ok (0, 0) := by
  have hdeque : (hydrate profileName entries .new).inner key = [] := by
    rw [deque_hydrate, if_neg h]
    rfl
  rw [PolicyStateStore.queryWindow_fst, hdeque]
  rfl

variable {Body Tag Digest : Type} [DecidableEq Tag] [DecidableEq Digest]
  {C : Codec Body Tag Digest} {d : StoreState Body Tag Digest} {wire : WireFile}

theorem loadInto_eq (hread : readVerified C d = .ok wire) (profileName : String)
    (dest : PolicyStateStore) :
    loadInto C d profileName dest = .ok (hydrate profileName wire.entries dest) := by
  rcases readVerified_eq_ok hread with ⟨hfile, hcounter, rfl⟩ | ⟨content, w, hfile, hver, hsel⟩
  · simp only [loadInto, hfile, hcounter]
    rfl
  · simp [loadInto, hfile, hver, hsel]

/-- **Gate and admission read the same window.**  Clear the in-memory store, hydrate it from any
verified file and query it any number of times, at instants no later than `nowMs`.  A query at
`nowMs` of a key of the hydrated profile then answers what the file answers: the same refusal for
clock skew, or the same saturated sum and count.  A key of another profile is answered as
empty. -/
theorem queryWindow_loadInto (hread : readVerified C d = .ok wire) (profileName : String)
    (before : PolicyStateStore) (queries : List (StateKey × ℕ)) {nowMs : ℕ}
    (hq : ∀ q ∈ queries, q.2 ≤ nowMs) :
    ∃ s, loadInto C d profileName before.clear = .ok s ∧ ∀ key : StateKey,
      ((queried s queries).queryWindow key nowMs).1.mapError asReason =
        if key.profileName = profileName then windowInFile wire key nowMs else .ok (0, 0) := by
  refine ⟨_, loadInto_eq hread profileName before.clear, fun key => ?_⟩
  rw [queryWindow_of_evicted (evicted_queried queries _ hq)]
  by_cases hp : key.profileName = profileName
  · subst hp
    rw [if_pos rfl]
    exact queryWindow_hydrate wire.entries wire rfl key nowMs
  · rw [if_neg hp]
    have hother := queryWindow_hydrate_other wire.entries hp nowMs
    unfold PolicyStateStore.clear
    rw [hother]
    rfl

def spentFile : WireFile := ⟨3, 1, [⟨1, "native", 60, [{ tsMs := 5, amount := 7 }]⟩], none⟩

/-- The same, as a durable state under a numeric counter. -/
def spentStore : StoreState WireFile Unit WireFile :=
  ⟨some ⟨1, none⟩, some (contentOf plainCodec spentFile)⟩

/-- Hydrated for `alice` and queried before, the store answers 7 stroops for `alice`'s key. -/
theorem queryWindow_loadInto_spent : ∃ s, loadInto plainCodec spentStore "alice" .new = .ok s ∧
    ((queried s [(⟨"alice", 1, "native", 60⟩, 6)]).queryWindow
      ⟨"alice", 1, "native", 60⟩ 7).1.mapError asReason = .ok (7, 1) := by
  have hread : readVerified plainCodec spentStore = .ok spentFile := rfl
  have hq : ∀ q ∈ [((⟨"alice", 1, "native", 60⟩ : StateKey), 6)], q.2 ≤ 7 := by decide
  obtain ⟨s, hs, hquery⟩ := queryWindow_loadInto hread "alice" .new
    [(⟨"alice", 1, "native", 60⟩, 6)] hq
  exact ⟨s, hs, hquery ⟨"alice", 1, "native", 60⟩⟩

/-- Queried with a key of another profile, the same store answers nothing where the file answers 7
stroops. -/
theorem queryWindow_loadInto_differs : readVerified plainCodec spentStore = .ok spentFile ∧
    ∃ s, loadInto plainCodec spentStore "alice" .new = .ok s ∧
      (s.queryWindow ⟨"bob", 1, "native", 60⟩ 7).1.mapError asReason = .ok (0, 0) ∧
      windowInFile spentFile ⟨"bob", 1, "native", 60⟩ 7 = .ok (7, 1) :=
  ⟨rfl, _, rfl, rfl, rfl⟩

end AgentWallet.PolicyState.Hydrate
