import AgentWallet.Base.Saturating
import AgentWallet.Policy.Outcome

/-!
# Window state

The state the window criteria read and write.  A `StateKey` names one bucket; a `WindowEntry` is
one record a call contributes to a bucket together with the operator limit that governs it, and
`WindowEntry.refusal` is the comparison of that limit with a window's content.
-/

namespace AgentWallet.Policy.StateStore

open Base.Saturating Policy.Outcome

/-- How far ahead of the host clock a pending reservation may be dated. -/
def clockSkewToleranceMs : ℕ := 30000

structure StateKey where
  profileName : String
  scopeSpecificity : ℕ
  bucket : String
  windowSecs : ℕ
deriving DecidableEq

/-- The operator limit governing one bucket. -/
inductive WindowLimit where
  | amount (asset window : String) (maxStroops : ℤ)
  | count (window : String) (maxCalls : ℕ)
deriving DecidableEq

/-- One window record a call contributes, with the limit that governs it. -/
structure WindowEntry where
  key : StateKey
  timestampMs : ℕ
  amount : ℤ
  limit : WindowLimit

/-- The denial the entry's limit produces against a window that already holds `usedStroops`
across `calls` entries. -/
def WindowEntry.refusal (e : WindowEntry) (usedStroops : ℤ) (calls : ℕ) : Option DenyReason :=
  match e.limit with
  | .amount asset window maxStroops =>
    let wouldUse := addI128 usedStroops e.amount
    if wouldUse > maxStroops then
      some (.perPeriodCapExceeded asset window maxStroops e.amount usedStroops)
    else none
  | .count window maxCalls =>
    if calls ≥ maxCalls then some (.rateLimitExceeded window maxCalls calls) else none

def WindowLimit.admits (limit : WindowLimit) (usedStroops : ℤ) (calls : ℕ) (amount : ℤ) : Prop :=
  match limit with
  | .amount _ _ maxStroops => addI128 usedStroops amount ≤ maxStroops
  | .count _ maxCalls => calls < maxCalls

theorem WindowLimit.admits_amount (asset window : String) (maxStroops used : ℤ) (calls : ℕ)
    (amount : ℤ) : (WindowLimit.amount asset window maxStroops).admits used calls amount ↔
      addI128 used amount ≤ maxStroops := Iff.rfl

theorem WindowLimit.admits_count (window : String) (maxCalls calls : ℕ) (used amount : ℤ) :
    (WindowLimit.count window maxCalls).admits used calls amount ↔ calls < maxCalls := Iff.rfl

theorem WindowEntry.refusal_eq_none_iff (e : WindowEntry) (used : ℤ) (calls : ℕ) :
    e.refusal used calls = none ↔ e.limit.admits used calls e.amount := by
  unfold refusal WindowLimit.admits
  cases e.limit with
  | amount asset window max => simp
  | count window max => simp

/-! ## The in-memory store -/

/-- The sum and count loop of a window query, one record on. -/
def tally (acc : ℤ × ℕ) (amount : ℤ) : ℤ × ℕ := (addI128 acc.1 amount, addU32 acc.2 1)

theorem foldl_tally (amounts : List ℤ) : ∀ acc : ℤ × ℕ, amounts.foldl tally acc =
    (amounts.foldl addI128 acc.1, (amounts.map fun _ => 1).foldl addU32 acc.2) := by
  induction amounts with
  | nil => intro acc; rfl
  | cons x xs ih => intro acc; exact ih (tally acc x)

theorem foldl_tally_snd (amounts : List ℤ) :
    (amounts.foldl tally (0, 0)).2 = min amounts.length u32Max := by
  rw [foldl_tally, foldl_addU32]
  simp

theorem foldl_tally_fst {amounts : List ℤ} (h : ∀ a ∈ amounts, 0 ≤ a) :
    (amounts.foldl tally (0, 0)).1 = min amounts.sum i128Max := by
  rw [foldl_tally, foldl_addI128 h]

structure StateEntry where
  timestampMs : ℕ
  amount : ℤ
  pending : Bool

/-- A pending record dated too far ahead of the host clock. -/
def StateEntry.isSkewed (nowMs : ℕ) (e : StateEntry) : Bool :=
  e.pending && decide (e.timestampMs > addU64 nowMs clockSkewToleranceMs)

/-- A record a query at `nowMs` does not evict. -/
def StateEntry.isKept (windowSecs nowMs : ℕ) (e : StateEntry) : Bool :=
  e.pending || decide (e.timestampMs ≥ nowMs - mulU64 windowSecs 1000)

inductive StateStoreError where
  | clockSkewExceeded (entryTsMs nowMs : ℕ)

def StateStoreError.toText : StateStoreError → String
  | .clockSkewExceeded entryTsMs nowMs =>
    "host clock is " ++ toString (entryTsMs - nowMs) ++
      " ms behind a pending reservation timestamp; maximum tolerated offset is 30000 ms (host=" ++
      toString nowMs ++ " ms, reservation=" ++ toString entryTsMs ++ " ms)"

structure PolicyStateStore where
  inner : StateKey → List StateEntry

namespace PolicyStateStore

def new : PolicyStateStore := ⟨fun _ => []⟩

/-- Appends one record to the deque of `key`. -/
def appendEntry (s : PolicyStateStore) (key : StateKey) (timestampMs : ℕ) (amountOrCount : ℤ)
    (pending : Bool) : PolicyStateStore :=
  ⟨Function.update s.inner key (s.inner key ++ [⟨timestampMs, amountOrCount, pending⟩])⟩

def append (s : PolicyStateStore) (key : StateKey) (timestampMs : ℕ) (amountOrCount : ℤ) :
    PolicyStateStore :=
  s.appendEntry key timestampMs amountOrCount false

def appendPending (s : PolicyStateStore) (key : StateKey) (timestampMs : ℕ) (amountOrCount : ℤ) :
    PolicyStateStore :=
  s.appendEntry key timestampMs amountOrCount true

/-- The sum and count of the records of `key` live at `nowMs`, and the store left behind: the
records that have aged out are evicted.  A pending record dated too far ahead of the clock fails
the query before anything is evicted. -/
def queryWindow (s : PolicyStateStore) (key : StateKey) (nowMs : ℕ) :
    Except StateStoreError (ℤ × ℕ) × PolicyStateStore :=
  let deque := s.inner key
  match deque.find? (StateEntry.isSkewed nowMs) with
  | some e => (.error (.clockSkewExceeded e.timestampMs nowMs), s)
  | none =>
    let kept := deque.filter (StateEntry.isKept key.windowSecs nowMs)
    (.ok ((kept.map (·.amount)).foldl tally (0, 0)), ⟨Function.update s.inner key kept⟩)

/-- The store that queries of some keys at one instant leave behind. -/
def evict (s : PolicyStateStore) (nowMs : ℕ) (keys : List StateKey) : PolicyStateStore :=
  keys.foldl (fun s key => (s.queryWindow key nowMs).2) s

def clear (_ : PolicyStateStore) : PolicyStateStore := new

/-- **What a query answers.** -/
theorem queryWindow_fst (s : PolicyStateStore) (key : StateKey) (nowMs : ℕ) :
    (s.queryWindow key nowMs).1 = match (s.inner key).find? (StateEntry.isSkewed nowMs) with
      | some e => .error (.clockSkewExceeded e.timestampMs nowMs)
      | none => .ok ((((s.inner key).filter (StateEntry.isKept key.windowSecs nowMs)).map
          (·.amount)).foldl tally (0, 0)) := by
  dsimp only [queryWindow]
  cases (s.inner key).find? (StateEntry.isSkewed nowMs) with
  | none => rfl
  | some e => rfl

theorem queryWindow_snd (s : PolicyStateStore) (key : StateKey) (nowMs : ℕ) :
    (s.queryWindow key nowMs).2 = s ∨ (s.queryWindow key nowMs).2 = ⟨Function.update s.inner key
        ((s.inner key).filter (StateEntry.isKept key.windowSecs nowMs))⟩ := by
  dsimp only [queryWindow]
  cases (s.inner key).find? (StateEntry.isSkewed nowMs) with
  | none => exact Or.inr rfl
  | some e => exact Or.inl rfl

/-- **Queries of one instant do not disturb each other**: what the first evicts the second does not
count. -/
theorem queryWindow_evict (s : PolicyStateStore) (key key' : StateKey) (nowMs : ℕ) :
    ((s.queryWindow key nowMs).2.queryWindow key' nowMs).1 = (s.queryWindow key' nowMs).1 := by
  rcases s.queryWindow_snd key nowMs with heq | heq
  · rw [heq]
  · rw [heq, queryWindow_fst, queryWindow_fst]
    by_cases hkey : key' = key
    · subst hkey
      have hkept : ∀ e, (StateEntry.isKept key'.windowSecs nowMs e && StateEntry.isSkewed nowMs e) =
          StateEntry.isSkewed nowMs e := by
        intro e
        cases hp : e.pending <;> simp [StateEntry.isKept, StateEntry.isSkewed, hp]
      simp [List.find?_filter, hkept]
    · simp only [Function.update_of_ne hkey]

/-- **What an eviction keeps**: at least what a query of the key at that instant keeps. -/
theorem evict_inner (nowMs : ℕ) (key : StateKey) : ∀ (keys : List StateKey) (s : PolicyStateStore),
    ∃ p : StateEntry → Bool, (∀ e, e.isKept key.windowSecs nowMs = true → p e = true) ∧
      (s.evict nowMs keys).inner key = (s.inner key).filter p
  | [], s => ⟨fun _ => true, fun _ _ => rfl, by simp [evict]⟩
  | k :: keys, s => by
    obtain ⟨p, hp, heq⟩ := evict_inner nowMs key keys (s.queryWindow k nowMs).2
    have hcons : s.evict nowMs (k :: keys) = (s.queryWindow k nowMs).2.evict nowMs keys := rfl
    rw [hcons, heq]
    rcases s.queryWindow_snd k nowMs with hsnd | hsnd
    · exact ⟨p, hp, by rw [hsnd]⟩
    · rw [hsnd]
      by_cases hkey : key = k
      · subst hkey
        refine ⟨fun e => e.isKept key.windowSecs nowMs && p e, fun e he => ?_, ?_⟩
        · simp [he, hp e he]
        · simp [List.filter_filter, Bool.and_comm]
      · exact ⟨p, hp, by simp [Function.update_of_ne hkey]⟩

end PolicyStateStore

end AgentWallet.Policy.StateStore
