import AgentWallet.Profile.ReceiptRuns

/-!
# The bookkeeping fields of a receipt

A receipt carries three fields next to its status: the evidence its reservation was released on, the
ledger a re-org evicted it from, and the first miss of a re-org check.  Each belongs to some
statuses only (`Coherent`), and a status is replaced only in the order `StatusStep` allows.
-/

namespace AgentWallet.Profile.ReceiptFields

open Base.Runs Receipt ReceiptRuns List

variable {r r' : SubmissionReceipt} {e : Event} {op : ReceiptOp} {target : ReceiptStatus}

/-- The fields of a receipt agree with its status. -/
structure Coherent (r : SubmissionReceipt) : Prop where
  release : r.releaseCode ≠ none → r.status = .ambiguous ∨ r.status = .clearedByOperator
  prior : r.priorLedger ≠ none → r.status = .reorged
  reorg : r.reorgPendingAtLedger ≠ none → r.status = .success

def StatusStep (source target : ReceiptStatus) : Prop :=
  target = source ∨ source = .pending ∨ (source = .success ∧ target = .reorged) ∨
    ((source = .ambiguous ∨ source = .clearedByOperator) ∧
      (target = .success ∨ ∃ code, target = .failed code)) ∨
    (source = .ambiguous ∧ target = .clearedByOperator)

/-- The contract over a run: every receipt is coherent in every state, and every step replaces the
status of a receipt in order. -/
structure FieldContract (events : List Event) : Prop where
  coherent : ∀ before after, events = before ++ after →
    ∀ h r, (run step ∅ before).lookup h = some r → Coherent r
  history : ∀ before e after, events = before ++ e :: after → ∀ h r r',
    (run step ∅ before).lookup h = some r → (run step ∅ (before ++ [e])).lookup h = some r' →
    StatusStep r.status r'.status

/-- The step refuses no receipt that carries release evidence and demotes none that carries a first
miss. -/
def ClearsFields (map : ReceiptMap) (e : Event) : Prop :=
  e.persist ≠ .failed → ∀ r, map.lookup e.op.hash = some r →
    match e.op with
    | .finalizeSendRefusal _ code =>
      checkTransition r.status (.failed code) = .ok () → r.releaseCode = none
    | .finalizeReorged _ => r.status = .success → r.reorgPendingAtLedger = none
    | _ => True

/-! ## The order of the statuses -/

theorem statusStep_of_checkTransition {source : ReceiptStatus}
    (h : checkTransition source target = .ok ()) : StatusStep source target := by
  rcases checkTransition_eq_ok h with heq | ⟨-, hp | ⟨hunknown, hdef⟩⟩
  · exact Or.inl heq
  · exact Or.inr (Or.inl hp)
  · refine Or.inr (Or.inr (Or.inr (Or.inl ⟨hunknown, ?_⟩)))
    cases target with
    | success => exact Or.inl rfl
    | failed code => exact Or.inr ⟨code, rfl⟩
    | _ => cases hdef

theorem statusStep_of_update (hu : Update op r r') : StatusStep r.status r'.status := by
  cases hu with
  | finalizeSendRefusal hok | finalize hok | finalizeReleased hok =>
    exact statusStep_of_checkTransition hok
  | clearByOperator hok =>
    cases hst : r.status with
    | pending => exact Or.inr (Or.inl rfl)
    | ambiguous => exact Or.inr (Or.inr (Or.inr (Or.inr ⟨rfl, rfl⟩)))
    | _ => simp [hst, ReceiptStatus.isOperatorClearable] at hok
  | finalizeReorged hok => exact Or.inr (Or.inr (Or.inl ⟨hok, rfl⟩))
  | _ => exact Or.inl rfl

variable {map : ReceiptMap}

theorem statusStep_of_step {h : String} (hr : map.lookup h = some r)
    (hr' : (step map e).lookup h = some r') : StatusStep r.status r'.status := by
  rcases lookup_step e hr with hsame | ⟨r'', hr'', hu⟩ | ⟨-, -, -, hnone⟩
  · rw [hsame] at hr'
    cases hr'
    exact Or.inl rfl
  · rw [hr''] at hr'
    cases hr'
    exact statusStep_of_update hu
  · rw [hnone] at hr'
    cases hr'

/-! ## The fields -/

theorem coherent_of_fresh (hf : Fresh map op r) : Coherent r := by
  cases hf with
  | finalizeReleased h evidence =>
    exact ⟨fun _ => Or.inl rfl, fun hp => absurd rfl hp, fun hp => absurd rfl hp⟩
  | _ => exact ⟨fun hp => absurd rfl hp, fun hp => absurd rfl hp, fun hp => absurd rfl hp⟩

/-- A change of status by `check_transition` leaves neither a success nor a demoted receipt. -/
theorem Coherent.no_reorg_fields (hr : Coherent r) (hok : checkTransition r.status target = .ok ()) :
    (r.priorLedger ≠ none → target = .reorged) ∧
      (r.reorgPendingAtLedger ≠ none → target = .success) := by
  rcases checkTransition_eq_ok hok with heq | ⟨-, hsource⟩
  · rw [heq]
    exact ⟨hr.prior, hr.reorg⟩
  · constructor
    · intro hp
      simp [hr.prior hp] at hsource
    · intro hp
      simp [hr.reorg hp] at hsource

theorem Coherent.update (hr : Coherent r) (hu : Update op r r')
    (hrefuse : ∀ h code, op = .finalizeSendRefusal h code → r.releaseCode = none)
    (hreorg : ∀ h, op = .finalizeReorged h → r.reorgPendingAtLedger = none) : Coherent r' := by
  cases hu with
  | @finalizeSendRefusal h code _ hok =>
    obtain ⟨hprior, hreorg'⟩ := hr.no_reorg_fields hok
    exact ⟨fun hp => absurd (hrefuse h code rfl) hp, hprior, hreorg'⟩
  | markApprovalConsumed | markSubmitted hok => exact ⟨hr.release, hr.prior, hr.reorg⟩
  | @finalize h status ledger _ hok =>
    obtain ⟨hprior, hreorg'⟩ := hr.no_reorg_fields hok
    refine ⟨fun hp => Or.inl ?_, hprior, hreorg'⟩
    by_contra hne
    simp [hne] at hp
  | finalizeReleased hok =>
    obtain ⟨hprior, hreorg'⟩ := hr.no_reorg_fields hok
    exact ⟨fun _ => Or.inl rfl, hprior, hreorg'⟩
  | clearByOperator hok =>
    refine ⟨fun _ => Or.inr rfl, fun hp => ?_, fun hp => ?_⟩
    · simp [hr.prior hp, ReceiptStatus.isOperatorClearable] at hok
    · simp [hr.reorg hp, ReceiptStatus.isOperatorClearable] at hok
  | @finalizeReorged h _ hok =>
    refine ⟨fun hp => ?_, fun _ => rfl, fun hp => absurd (hreorg h rfl) hp⟩
    have hst := hr.release hp
    simp [hok] at hst
  | markReorgPending hok hnone => exact ⟨hr.release, hr.prior, fun _ => hok⟩
  | clearReorgPending hok => exact ⟨hr.release, hr.prior, fun hp => absurd rfl hp⟩

def AllCoherent (map : ReceiptMap) : Prop := ∀ h r, map.lookup h = some r → Coherent r

theorem AllCoherent.step (hm : AllCoherent map) (hok : ClearsFields map e) :
    AllCoherent (step map e) := by
  rcases step_cases map e with heq | ⟨hpersist, hc⟩
  · rwa [heq]
  · intro h r' hr'
    rcases change_lookup hc hr' with hr | ⟨-, -, hf⟩ | ⟨rfl, r, hr, hu⟩
    · exact hm h r' hr
    · exact coherent_of_fresh hf
    · have hclears := hok hpersist r hr
      refine (hm _ r hr).update hu ?_ ?_
      · intro h code hop
        rw [hop] at hclears hu
        cases hu with
        | finalizeSendRefusal hcheck => exact hclears hcheck
      · intro h hop
        rw [hop] at hclears hu
        cases hu with
        | finalizeReorged hsuccess => exact hclears hsuccess

theorem step_of_persist {map map' : ReceiptMap} {answer : Answer}
    (ha : apply map e.op = .ok (answer, some map')) (hp : e.persist ≠ .failed) :
    step map e = map' := by
  unfold step perform
  rw [ha]
  cases hq : e.persist with
  | failed => exact absurd hq hp
  | unsynced => rfl
  | written => rfl

theorem clearsFields_of_coherent (hm : AllCoherent (step map e)) : ClearsFields map e := by
  intro hpersist r hr
  cases hop : e.op with
  | finalizeSendRefusal h code =>
    intro hcheck
    rw [hop] at hr
    have happly : apply map e.op = .ok (.unit, some (map.insert h
        { r with status := .failed code, ledger := none, approvalNonce := none,
                 approvalConsumed := false })) := by
      rw [hop]
      simp only [apply, finalizeSendRefusal]
      rw [show map.lookup h = some r from hr]
      simp [hcheck]
    rw [step_of_persist happly hpersist] at hm
    by_contra hne
    simpa using (hm h _ (AList.lookup_insert _)).release hne
  | finalizeReorged h =>
    intro hsuccess
    rw [hop] at hr
    have happly : apply map e.op = .ok (.unit, some (map.insert h
        { r with priorLedger := r.ledger, status := .reorged, ledger := none })) := by
      rw [hop]
      simp only [apply, finalizeReorged, updateIf]
      rw [show map.lookup h = some r from hr]
      simp [hsuccess]
    rw [step_of_persist happly hpersist] at hm
    by_contra hne
    simpa using (hm h _ (AList.lookup_insert _)).reorg hne
  | _ => trivial

/-- **The contract of the fields** holds over a run exactly when no step of it refuses a receipt
that carries release evidence or demotes one that carries a first miss. -/
theorem fieldContract_iff (events : List Event) :
    FieldContract events ↔ Along step ClearsFields ∅ events := by
  constructor
  · intro hcontract
    refine along_of_states events ∅ fun before e after heq => clearsFields_of_coherent ?_
    have hafter : events = (before ++ [e]) ++ after := by rw [heq, append_cons]
    have hm := hcontract.coherent (before ++ [e]) after hafter
    rwa [run_append] at hm
  · intro halong
    constructor
    · rintro before after rfl
      have hempty : AllCoherent ∅ := by
        intro h r hr
        cases hr
      exact run_invariant_along (fun map e hm hok => hm.step hok) before ∅ hempty halong.left
    · rintro before e after - h r r' hr hr'
      rw [run_append] at hr'
      exact statusStep_of_step hr hr'

/-! ## The two stale fields -/

/-- A submission that reconciliation releases while its sender still waits for the endpoint, which
then refuses it. -/
def refusedAfterRelease : List Event :=
  [⟨.beginSubmission ⟨"e1", "t1", "GA", 7, 0, 100⟩ none, .written⟩, ⟨.markSubmitted "e1", .written⟩,
    ⟨.finalizeReleased "e1" .sequenceConsumed, .written⟩,
    ⟨.finalizeSendRefusal "e1" "tx_bad_seq", .written⟩]

def demotedAfterMiss : List Event :=
  [⟨.beginSubmission ⟨"e1", "t1", "GA", 7, 0, 100⟩ none, .written⟩, ⟨.markSubmitted "e1", .written⟩,
    ⟨.finalize "e1" .success (some 101), .written⟩, ⟨.markReorgPending "e1" 103, .written⟩,
    ⟨.finalizeReorged "e1", .written⟩]

theorem fieldContract_broken :
    ((run step ∅ refusedAfterRelease).lookup "e1").map (fun r => (r.status, r.releaseCode)) =
        some (.failed "tx_bad_seq", some .sequenceConsumed) ∧ ¬ FieldContract refusedAfterRelease ∧
      ((run step ∅ demotedAfterMiss).lookup "e1").map (fun r => (r.status, r.reorgPendingAtLedger)) =
        some (.reorged, some 103) ∧ ¬ FieldContract demotedAfterMiss := by
  have hrefused : ((run step ∅ refusedAfterRelease).lookup "e1").map
      (fun r => (r.status, r.releaseCode)) = some (.failed "tx_bad_seq", some .sequenceConsumed) := by
    decide
  have hdemoted : ((run step ∅ demotedAfterMiss).lookup "e1").map
      (fun r => (r.status, r.reorgPendingAtLedger)) = some (.reorged, some 103) := by
    decide
  refine ⟨hrefused, fun hcontract => ?_, hdemoted, fun hcontract => ?_⟩
  · obtain ⟨r, hr, hfields⟩ := Option.map_eq_some_iff.mp hrefused
    obtain ⟨hst, hcode⟩ := Prod.mk.inj hfields
    have hstale := (hcontract.coherent _ [] (append_nil _).symm "e1" r hr).release
    rw [hst, hcode] at hstale
    simp at hstale
  · obtain ⟨r, hr, hfields⟩ := Option.map_eq_some_iff.mp hdemoted
    obtain ⟨hst, hmiss⟩ := Prod.mk.inj hfields
    have hstale := (hcontract.coherent _ [] (append_nil _).symm "e1" r hr).reorg
    rw [hst, hmiss] at hstale
    simp at hstale

end AgentWallet.Profile.ReceiptFields
