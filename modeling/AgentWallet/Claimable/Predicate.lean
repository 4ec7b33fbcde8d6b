import AgentWallet.Base.Checks

/-!
# Claim predicates and their windows

`evaluate` decides a claim predicate at one time; `derive_window` reads bounds of the claimable
times off its structure.  `deriveWindow_bounds`: the times lie within the window, and for a
conjunction of time bounds that is satisfiable at all the window is exact.  Beside an `Or` it is
not, and an `Or` alone has no window (`deriveWindow_inexact`).
-/

namespace AgentWallet.Claimable.Predicate

open Base List

inductive ClaimPredicate where
  | unconditional
  | and (preds : List ClaimPredicate)
  | or (preds : List ClaimPredicate)
  | not (inner : Option ClaimPredicate)
  | beforeAbsoluteTime (t : ℤ)
  | beforeRelativeTime (t : ℤ)

inductive ClaimError where
  | predicateUnsupported (detail : String)

inductive PredicateVerdict where
  | satisfied
  | notSatisfied

def maxPredicateDepth : ℕ := 64

def tooDeep : ClaimError :=
  .predicateUnsupported
    ("predicate nesting exceeds the evaluator's " ++ toString maxPredicateDepth ++ "-level bound")

def tooFew (kind : String) (n : ℕ) : ClaimError :=
  .predicateUnsupported
    (kind ++ " predicate carries " ++ toString n ++ " sub-predicates; at least 2 are required")

def relativeTime : ClaimError :=
  .predicateUnsupported ("BeforeRelativeTime predicates are normalized to BeforeAbsoluteTime by " ++
    "stellar-core at entry-creation time (CAP-23); a stored relative predicate is out of protocol " ++
    "contract")

mutual

/-- `evaluate_depth`: a refusal anywhere it looks is a refusal of the whole. -/
def evaluateDepth (predicate : ClaimPredicate) (now depth : ℕ) : Except ClaimError Bool :=
  if depth > maxPredicateDepth then .error tooDeep
  else
    match predicate with
    | .unconditional => .ok true
    | .and preds =>
      if preds.length < 2 then .error (tooFew "And" preds.length)
        else evaluateAll preds now (depth + 1)
    | .or preds =>
      if preds.length < 2 then .error (tooFew "Or" preds.length)
        else evaluateAny preds now (depth + 1)
    | .not none => .error (.predicateUnsupported "Not predicate carries no inner predicate")
    | .not (some p) => (evaluateDepth p now (depth + 1)).map (!·)
    | .beforeAbsoluteTime t => .ok (decide ((now : ℤ) < t))
    | .beforeRelativeTime _ => .error relativeTime

/-- The loop of `And`: the first predicate that is not satisfied ends it. -/
def evaluateAll (preds : List ClaimPredicate) (now depth : ℕ) : Except ClaimError Bool :=
  match preds with
  | [] => .ok true
  | p :: preds => do
    let satisfied ← evaluateDepth p now depth
    if satisfied then evaluateAll preds now depth else .ok false

/-- The loop of `Or`. -/
def evaluateAny (preds : List ClaimPredicate) (now depth : ℕ) : Except ClaimError Bool :=
  match preds with
  | [] => .ok false
  | p :: preds => do
    let satisfied ← evaluateDepth p now depth
    if satisfied then .ok true else evaluateAny preds now depth

end

/-- The verdict at the time `now`, in seconds; malformed predicates have none. -/
def evaluate (predicate : ClaimPredicate) (now : ℕ) : Except ClaimError PredicateVerdict :=
  (evaluateDepth predicate now 0).map fun satisfied =>
    if satisfied then .satisfied else .notSatisfied

structure ClaimabilityWindow where
  validFrom : Option ℕ
  validUntil : Option ℕ

def anyTime : ClaimabilityWindow := ⟨none, none⟩

/-- One turn of the loop of `And`. -/
def ClaimabilityWindow.meet (w v : ClaimabilityWindow) : ClaimabilityWindow where
  validFrom := match v.validFrom with
    | some f => some (w.validFrom.elim f fun cur => max cur f)
    | none => w.validFrom
  validUntil := match v.validUntil with
    | some u => some (w.validUntil.elim u fun cur => min cur u)
    | none => w.validUntil

mutual

def deriveWindowDepth (predicate : ClaimPredicate) (depth : ℕ) : ClaimabilityWindow :=
  if depth > maxPredicateDepth then anyTime
  else
    match predicate with
    | .beforeAbsoluteTime t => if 0 < t then ⟨none, some t.toNat⟩ else anyTime
    | .not (some (.beforeAbsoluteTime t)) => if 0 < t then ⟨some t.toNat, none⟩ else anyTime
    | .and preds => deriveAll preds (depth + 1) anyTime
    | _ => anyTime

def deriveAll (preds : List ClaimPredicate) (depth : ℕ) (w : ClaimabilityWindow) :
    ClaimabilityWindow :=
  match preds with
  | [] => w
  | p :: preds => deriveAll preds depth (w.meet (deriveWindowDepth p depth))

end

def deriveWindow (predicate : ClaimPredicate) : ClaimabilityWindow := deriveWindowDepth predicate 0

/-! ## Windows as sets of times -/

/-- `validFrom ≤ now < validUntil`, as far as there are bounds. -/
structure Within (w : ClaimabilityWindow) (now : ℕ) : Prop where
  lower : ∀ f, w.validFrom = some f → f ≤ now
  upper : ∀ u, w.validUntil = some u → now < u

variable {p : ClaimPredicate} {preds : List ClaimPredicate} {now depth : ℕ} {b : Bool}
  {w v : ClaimabilityWindow}

theorem within_anyTime (now : ℕ) : Within anyTime now := ⟨by simp [anyTime], by simp [anyTime]⟩

theorem within_meet : Within (w.meet v) now ↔ Within w now ∧ Within v now := by
  obtain ⟨wf, wu⟩ := w
  obtain ⟨vf, vu⟩ := v
  constructor
  · rintro ⟨hlower, hupper⟩
    refine ⟨⟨?_, ?_⟩, ⟨?_, ?_⟩⟩ <;>
      cases wf <;> cases vf <;> cases wu <;> cases vu <;>
        simp_all [ClaimabilityWindow.meet]
  · rintro ⟨⟨hlower, hupper⟩, ⟨hlower', hupper'⟩⟩
    refine ⟨?_, ?_⟩ <;>
      cases wf <;> cases vf <;> cases wu <;> cases vu <;>
        simp_all [ClaimabilityWindow.meet]

theorem within_deriveAll : Within (deriveAll preds depth w) now ↔
    Within w now ∧ ∀ p ∈ preds, Within (deriveWindowDepth p depth) now := by
  induction preds generalizing w with
  | nil => simp [deriveAll]
  | cons p preds ih => rw [deriveAll, ih, within_meet, forall_mem_cons, and_assoc]

/-! ## What a verdict says -/

theorem evaluateAll_eq_true (h : evaluateAll preds now depth = .ok true) :
    ∀ p ∈ preds, evaluateDepth p now depth = .ok true := by
  induction preds with
  | nil => simp
  | cons p preds ih =>
    obtain ⟨b, hp, hrest⟩ := Checks.bind_eq_ok_iff.1 h
    cases b with
    | false => cases hrest
    | true => exact forall_mem_cons.2 ⟨hp, ih hrest⟩

theorem evaluateAll_eq_false (h : evaluateAll preds now depth = .ok false) :
    ∃ p ∈ preds, evaluateDepth p now depth = .ok false := by
  induction preds with
  | nil => simp [evaluateAll] at h
  | cons p preds ih =>
    obtain ⟨b, hp, hrest⟩ := Checks.bind_eq_ok_iff.1 h
    cases b with
    | false => exact ⟨p, mem_cons_self, hp⟩
    | true =>
      obtain ⟨q, hq, hfalse⟩ := ih hrest
      exact ⟨q, mem_cons_of_mem p hq, hfalse⟩

theorem evaluateDepth_and (h : evaluateDepth (.and preds) now depth = .ok b) :
    depth ≤ maxPredicateDepth ∧ evaluateAll preds now (depth + 1) = .ok b := by
  simp only [evaluateDepth] at h
  split_ifs at h with hdepth hfew
  exact ⟨by omega, h⟩

theorem evaluateDepth_before {t : ℤ} (h : evaluateDepth (.beforeAbsoluteTime t) now depth = .ok b) :
    depth ≤ maxPredicateDepth ∧ (b = true ↔ (now : ℤ) < t) := by
  simp only [evaluateDepth] at h
  split_ifs at h with hdepth
  cases h
  exact ⟨by omega, decide_eq_true_iff⟩

theorem evaluateDepth_notBefore {t : ℤ}
    (h : evaluateDepth (.not (some (.beforeAbsoluteTime t))) now depth = .ok b) :
    depth ≤ maxPredicateDepth ∧ (b = true ↔ t ≤ now) := by
  simp only [evaluateDepth] at h
  split_ifs at h with hdepth hinner
  · cases h
  · have hb : (!decide ((now : ℤ) < t)) = b := Except.ok.inj h
    refine ⟨by omega, ?_⟩
    rw [← hb, Bool.not_eq_true', decide_eq_false_iff_not, Int.not_lt]

/-! ## The window bounds the claimable times -/

section

variable (hdepth : depth ≤ maxPredicateDepth)
include hdepth

theorem within_before {t : ℤ} (ht : 0 < t) :
    Within (deriveWindowDepth (.beforeAbsoluteTime t) depth) now ↔ (now : ℤ) < t := by
  simp only [deriveWindowDepth]
  rw [if_neg (by omega), if_pos ht]
  exact ⟨fun h => by have := h.upper _ rfl; omega, fun h => ⟨by simp, by simp; omega⟩⟩

theorem within_notBefore {t : ℤ} :
    Within (deriveWindowDepth (.not (some (.beforeAbsoluteTime t))) depth) now ↔ t ≤ now := by
  simp only [deriveWindowDepth]
  rw [if_neg (by omega)]
  split_ifs with ht
  · exact ⟨fun h => by have := h.lower _ rfl; omega, fun h => ⟨by simp; omega, by simp⟩⟩
  · exact ⟨fun _ => by omega, fun _ => within_anyTime now⟩

theorem within_and : Within (deriveWindowDepth (.and preds) depth) now ↔
      ∀ p ∈ preds, Within (deriveWindowDepth p (depth + 1)) now := by
  simp only [deriveWindowDepth]
  rw [if_neg (by omega), within_deriveAll, and_iff_right (within_anyTime now)]

end

/-- **Sound.** By recursion on the predicate: only a conjunction hands bounds of its parts on. -/
theorem within_of_satisfied (p : ClaimPredicate) (depth : ℕ)
    (h : evaluateDepth p now depth = .ok true) : Within (deriveWindowDepth p depth) now := by
  match p with
  | .and preds =>
    obtain ⟨hdepth, hall⟩ := evaluateDepth_and h
    refine (within_and hdepth).2 fun q hq => ?_
    exact within_of_satisfied q (depth + 1) (evaluateAll_eq_true hall q hq)
  | .beforeAbsoluteTime t =>
    obtain ⟨hdepth, hiff⟩ := evaluateDepth_before h
    have hlt := hiff.1 rfl
    exact (within_before hdepth (by omega)).2 hlt
  | .not (some (.beforeAbsoluteTime t)) =>
    obtain ⟨hdepth, hiff⟩ := evaluateDepth_notBefore h
    exact (within_notBefore hdepth).2 (hiff.1 rfl)
  | .unconditional | .or _ | .not none | .not (some .unconditional) | .not (some (.and _))
  | .not (some (.or _)) | .not (some (.not _)) | .not (some (.beforeRelativeTime _))
  | .beforeRelativeTime _ =>
    simp only [deriveWindowDepth, ite_self]
    exact within_anyTime now
termination_by sizeOf p
decreasing_by
  have hlt := sizeOf_lt_of_mem hq
  simp only [ClaimPredicate.and.sizeOf_spec]
  omega

/-- Conjunctions of time bounds. -/
inductive Conjunctive : ClaimPredicate → Prop
  | unconditional : Conjunctive .unconditional
  | before {t : ℤ} : 0 < t → Conjunctive (.beforeAbsoluteTime t)
  | notBefore {t : ℤ} : Conjunctive (.not (some (.beforeAbsoluteTime t)))
  | and {preds : List ClaimPredicate} : (∀ p ∈ preds, Conjunctive p) → Conjunctive (.and preds)

/-- **Complete** on conjunctions: what is not claimable is outside the window. -/
theorem Conjunctive.not_within (hp : Conjunctive p) (h : evaluateDepth p now depth = .ok false) :
    ¬ Within (deriveWindowDepth p depth) now := by
  induction hp generalizing depth with
  | unconditional =>
    simp only [evaluateDepth] at h
    split_ifs at h
    cases h
  | before ht =>
    obtain ⟨hdepth, hiff⟩ := evaluateDepth_before h
    rw [within_before hdepth ht, ← hiff]
    exact Bool.false_ne_true
  | notBefore =>
    obtain ⟨hdepth, hiff⟩ := evaluateDepth_notBefore h
    rw [within_notBefore hdepth, ← hiff]
    exact Bool.false_ne_true
  | and _ ih =>
    obtain ⟨hdepth, hall⟩ := evaluateDepth_and h
    obtain ⟨q, hq, hfalse⟩ := evaluateAll_eq_false hall
    intro hwithin
    exact ih q hq hfalse ((within_and hdepth).1 hwithin q hq)

def claimableTimes (p : ClaimPredicate) : Set ℕ := {now | evaluate p now = .ok .satisfied}

theorem mem_claimableTimes : now ∈ claimableTimes p ↔ evaluateDepth p now 0 = .ok true := by
  show evaluate p now = _ ↔ _
  unfold evaluate
  rcases evaluateDepth p now 0 with e | b
  · simp [Except.map]
  · cases b <;> simp [Except.map]

theorem mem_of_within (hp : Conjunctive p) (hverdict : ∃ v, evaluate p now = .ok v)
    (h : Within (deriveWindow p) now) : now ∈ claimableTimes p := by
  rw [mem_claimableTimes]
  obtain ⟨v, hv⟩ := hverdict
  unfold evaluate at hv
  rcases heval : evaluateDepth p now 0 with e | b
  · simp [heval, Except.map] at hv
  · cases b with
    | false => exact absurd h (hp.not_within heval)
    | true => rfl

/-- **The window.** Every claimable time lies within it.  A conjunction of time bounds with a
claimable time has exact bounds, and lacks one only where its times go on without end. -/
theorem deriveWindow_bounds (p : ClaimPredicate) (hverdict : ∀ now, ∃ v, evaluate p now = .ok v) :
    (∀ u, (deriveWindow p).validUntil = some u → ∀ now ∈ claimableTimes p, now < u) ∧
      (∀ f, (deriveWindow p).validFrom = some f → ∀ now ∈ claimableTimes p, f ≤ now) ∧
      (Conjunctive p → (claimableTimes p).Nonempty → (∀ u, (deriveWindow p).validUntil = some u →
          IsLeast {b | ∀ now ∈ claimableTimes p, now < b} u) ∧
        (∀ f, (deriveWindow p).validFrom = some f → IsLeast (claimableTimes p) f) ∧
        ((deriveWindow p).validUntil = none → ¬ BddAbove (claimableTimes p)) ∧
        ((deriveWindow p).validFrom = none → 0 ∈ claimableTimes p)) := by
  have hwithin : ∀ now ∈ claimableTimes p, Within (deriveWindow p) now := fun now hnow =>
    within_of_satisfied p 0 (mem_claimableTimes.1 hnow)
  have hupper : ∀ u, (deriveWindow p).validUntil = some u → ∀ now ∈ claimableTimes p, now < u :=
    fun u hu now hnow => (hwithin now hnow).upper u hu
  have hlower : ∀ f, (deriveWindow p).validFrom = some f → ∀ now ∈ claimableTimes p, f ≤ now :=
    fun f hf now hnow => (hwithin now hnow).lower f hf
  refine ⟨hupper, hlower, fun hp hsome => ?_⟩
  obtain ⟨t, ht⟩ := hsome
  have hin := hwithin t ht
  refine ⟨fun u hu => ⟨hupper u hu, fun b hb => ?_⟩, fun f hf => ⟨?_, fun now => hlower f hf now⟩,
    fun hnone => ?_, fun hnone => ?_⟩
  · -- the last time within the window is claimable
    have htu := hin.upper u hu
    have hlast : u - 1 ∈ claimableTimes p := by
      refine mem_of_within hp (hverdict _) ⟨fun f hf => ?_, fun u' hu' => ?_⟩
      · have := hin.lower f hf
        omega
      · rw [hu] at hu'
        cases hu'
        omega
    have := hb _ hlast
    omega
  · refine mem_of_within hp (hverdict _) ⟨fun f' hf' => ?_, fun u hu => ?_⟩
    · rw [hf] at hf'
      cases hf'
      exact le_rfl
    · exact (hin.lower f hf).trans_lt (hin.upper u hu)
  · rintro ⟨b, hb⟩
    have hlater : max t (b + 1) ∈ claimableTimes p := by
      refine mem_of_within hp (hverdict _) ⟨fun f hf => ?_, fun u hu => ?_⟩
      · exact (hin.lower f hf).trans (le_max_left _ _)
      · rw [hnone] at hu
        cases hu
    have := hb hlater
    omega
  · refine mem_of_within hp (hverdict _) ⟨fun f hf => ?_, fun u hu => ?_⟩
    · rw [hnone] at hf
      cases hf
    · exact (Nat.zero_le t).trans_lt (hin.upper u hu)

/-- From 5 on and before 10. -/
def fiveToTen : ClaimPredicate :=
  .and [.not (some (.beforeAbsoluteTime 5)), .beforeAbsoluteTime 10]

theorem evaluate_fiveToTen (now : ℕ) : ∃ v, evaluate fiveToTen now = .ok v := by
  simp only [fiveToTen, evaluate, evaluateDepth, evaluateAll, maxPredicateDepth]
  by_cases hfive : (now : ℤ) < 5 <;> by_cases hten : (now : ℤ) < 10 <;>
    simp [hfive, hten, Except.map, bind, Except.bind]

theorem isLeast_fiveToTen : IsLeast (claimableTimes fiveToTen) 5 := by
  have hp : Conjunctive fiveToTen := .and fun p hp => by
    fin_cases hp
    · exact .notBefore
    · exact .before (by decide)
  have hsome : (claimableTimes fiveToTen).Nonempty := ⟨7, rfl⟩
  exact ((deriveWindow_bounds fiveToTen evaluate_fiveToTen).2.2 hp hsome).2.1 5 rfl

def beforeFiveOrThree : ClaimPredicate := .or [.beforeAbsoluteTime 5, .beforeAbsoluteTime 3]

def andBeforeTen : ClaimPredicate := .and [.beforeAbsoluteTime 10, beforeFiveOrThree]

/-- Both have a verdict at every time.  Beside an `Or` a bound is not the least one, and an `Or`
alone has none. -/
theorem deriveWindow_inexact :
    (∀ now, (∃ v, evaluate andBeforeTen now = .ok v) ∧ ∃ v, evaluate beforeFiveOrThree now = .ok v) ∧
      (deriveWindow andBeforeTen).validUntil = some 10 ∧
      (∀ now, evaluate andBeforeTen now = .ok .satisfied → now < 5) ∧
      (deriveWindow beforeFiveOrThree).validUntil = none ∧
      ∀ now, evaluate beforeFiveOrThree now = .ok .satisfied → now < 5 := by
  refine ⟨fun now => ?_, rfl, fun now h => ?_, rfl, fun now h => ?_⟩
  · simp only [andBeforeTen, beforeFiveOrThree, evaluate, evaluateDepth, evaluateAll, evaluateAny,
      maxPredicateDepth]
    by_cases hten : (now : ℤ) < 10 <;> by_cases hfive : (now : ℤ) < 5 <;>
      by_cases hthree : (now : ℤ) < 3 <;>
        simp [hten, hfive, hthree, Except.map, bind, Except.bind]
  all_goals
    by_contra hnot
    have hfive : ¬ (now : ℤ) < 5 := by omega
    have hthree : ¬ (now : ℤ) < 3 := by omega
    simp only [andBeforeTen, beforeFiveOrThree, evaluate, evaluateDepth, evaluateAll, evaluateAny,
      maxPredicateDepth] at h
    by_cases hten : (now : ℤ) < 10 <;>
      simp [hfive, hthree, Except.map, bind, Except.bind] at h

end AgentWallet.Claimable.Predicate
