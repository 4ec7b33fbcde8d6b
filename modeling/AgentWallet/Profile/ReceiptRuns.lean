import AgentWallet.Base.Runs
import AgentWallet.Profile.Receipt

/-!
# Runs of the receipt store

What holds of the receipt file after any interleaving of operations by any number of processes.
Every operation rereads the file under the lock, so an interleaving is a list of `Event`s and the
file after it is `run step ∅ events`.
-/

namespace AgentWallet.Profile.ReceiptRuns

open Base.Runs Receipt List

variable {op : ReceiptOp} {r r' : SubmissionReceipt} {e : Event} {h source nonce : String}
  {map' : ReceiptMap} {sequence : ℤ}

/-! ## One step -/

theorem step_cases (map : ReceiptMap) (e : Event) :
    step map e = map ∨ (e.persist ≠ .failed ∧ Change map e.op (step map e)) := by
  cases ha : apply map e.op with
  | error err => exact Or.inl (by simp [step, perform, ha])
  | ok out =>
    obtain ⟨answer, written⟩ := out
    cases written with
    | none => exact Or.inl (by simp [step, perform, ha])
    | some map' =>
      have hchange : Change map e.op map' := change_of_apply ha
      cases hp : e.persist with
      | failed => exact Or.inl (by simp [step, perform, ha, hp])
      | unsynced | written => exact Or.inr ⟨by simp, by simpa [step, perform, ha, hp] using hchange⟩

variable {map : ReceiptMap}

theorem change_lookup (hc : Change map op map') (hr' : map'.lookup h = some r') :
    map.lookup h = some r' ∨ (h = op.hash ∧ map.lookup h = none ∧ Fresh map op r') ∨
      (h = op.hash ∧ ∃ r, map.lookup h = some r ∧ Update op r r') := by
  by_cases hh : h = op.hash
  · subst hh
    cases hc with
    | insert hnone hfresh =>
      rw [AList.lookup_insert] at hr'
      cases hr'
      exact Or.inr (Or.inl ⟨rfl, hnone, hfresh⟩)
    | update hsome hupdate =>
      rw [AList.lookup_insert] at hr'
      cases hr'
      exact Or.inr (Or.inr ⟨rfl, _, hsome, hupdate⟩)
    | remove hop hsome hpending hunsent =>
      rw [AList.lookup_erase] at hr'
      cases hr'
  · left
    cases hc with
    | insert hnone hfresh | update hsome hupdate => rwa [AList.lookup_insert_ne hh] at hr'
    | remove hop hsome hpending hunsent => rwa [AList.lookup_erase_ne hh] at hr'

theorem lookup_step (e : Event) (hr : map.lookup h = some r) :
    (step map e).lookup h = some r ∨ (∃ r', (step map e).lookup h = some r' ∧ Update e.op r r') ∨
      (e.op = .abandonPreSubmit h ∧ r.status = .pending ∧ r.submitted = false ∧
        (step map e).lookup h = none) := by
  rcases step_cases map e with heq | ⟨-, hc⟩
  · exact Or.inl (by rw [heq, hr])
  · by_cases hh : h = e.op.hash
    · subst hh
      generalize hm : step map e = map' at hc ⊢
      cases hc with
      | insert hnone hfresh =>
        rw [hr] at hnone
        cases hnone
      | update hsome hupdate =>
        rw [hr] at hsome
        cases hsome
        exact Or.inr (Or.inl ⟨_, AList.lookup_insert _, hupdate⟩)
      | remove hop hsome hpending hunsent =>
        rw [hr] at hsome
        cases hsome
        exact Or.inr (Or.inr ⟨hop, hpending, hunsent, AList.lookup_erase _ _⟩)
    · left
      generalize hm : step map e = map' at hc ⊢
      cases hc with
      | insert hnone hfresh | update hsome hupdate => rwa [AList.lookup_insert_ne hh]
      | remove hop hsome hpending hunsent => rwa [AList.lookup_erase_ne hh]

/-! ## Exclusive resources -/

/-- The receipt of a hash satisfies `Q`. -/
def Holds (map : ReceiptMap) (Q : SubmissionReceipt → Prop) (h : String) : Prop :=
  ∃ r, map.lookup h = some r ∧ Q r

/-- One receipt at most satisfies `Q`. -/
def AtMostOne (map : ReceiptMap) (Q : SubmissionReceipt → Prop) : Prop :=
  ∀ h h', Holds map Q h → Holds map Q h' → h = h'

theorem AtMostOne.empty (Q : SubmissionReceipt → Prop) : AtMostOne ∅ Q := by
  rintro h h' ⟨r, hr, -⟩
  cases hr

theorem AtMostOne.change {Q : SubmissionReceipt → Prop} (hm : AtMostOne map Q)
    (hc : Change map op map') (hfresh : ∀ r, Fresh map op r → Q r → ∀ h, ¬ Holds map Q h)
    (hupdate : ∀ r r', Update op r r' → Q r' → Q r) : AtMostOne map' Q := by
  -- a holder afterwards held the resource before, or took it while it was free
  have hold : ∀ h, Holds map' Q h → Holds map Q h ∨ (h = op.hash ∧ ∀ k, ¬ Holds map Q k) := by
    rintro h ⟨r', hr', hq⟩
    rcases change_lookup hc hr' with hr | ⟨hh, -, hf⟩ | ⟨-, r, hr, hu⟩
    · exact Or.inl ⟨r', hr, hq⟩
    · exact Or.inr ⟨hh, hfresh r' hf hq⟩
    · exact Or.inl ⟨r, hr, hupdate r r' hu hq⟩
  intro h h' hh hh'
  rcases hold h hh with hq | ⟨heq, hfree⟩
  · rcases hold h' hh' with hq' | ⟨-, hfree'⟩
    · exact hm h h' hq hq'
    · exact absurd hq (hfree' h)
  · rcases hold h' hh' with hq' | ⟨heq', -⟩
    · exact absurd hq' (hfree h')
    · rw [heq, heq']

/-- A pending submission of a source account at a sequence. -/
def IsPendingAt (source : String) (sequence : ℤ) (r : SubmissionReceipt) : Prop :=
  r.status = .pending ∧ r.identity.source = source ∧ r.identity.sequence = sequence

def HoldsApproval (nonce : String) (r : SubmissionReceipt) : Prop :=
  r.approvalNonce = some nonce

theorem checkTransition_pending {source target : ReceiptStatus}
    (h : checkTransition source target = .ok ()) (ht : target = .pending) : source = .pending := by
  rcases checkTransition_eq_ok h with heq | ⟨hne, -⟩
  · rw [← heq, ht]
  · exact absurd ht hne

theorem isPendingAt_of_update (hu : Update op r r') (hp : IsPendingAt source sequence r') :
    IsPendingAt source sequence r := by
  obtain ⟨hst, hso, hse⟩ := hp
  cases hu with
  | finalizeSendRefusal hok | finalizeReleased hok | clearByOperator hok | finalizeReorged hok =>
    cases hst
  | markApprovalConsumed | markSubmitted hok | markReorgPending hok hnone | clearReorgPending hok =>
    exact ⟨hst, hso, hse⟩
  | finalize hok => exact ⟨checkTransition_pending hok hst, hso, hse⟩

theorem holdsApproval_of_update (hu : Update op r r') (hn : HoldsApproval nonce r') :
    HoldsApproval nonce r := by
  cases hu with
  | finalizeSendRefusal hok => cases hn
  | _ => exact hn

/-- Every operation but `try_begin`, which records without asking who holds the sequence. -/
def ChecksSequence (e : Event) : Prop := ∀ id, e.op ≠ .tryBegin id

/-- The two resources of the store are exclusive. -/
structure Exclusive (map : ReceiptMap) : Prop where
  sequence : ∀ source sequence, source ≠ "" → AtMostOne map (IsPendingAt source sequence)
  approval : ∀ nonce, AtMostOne map (HoldsApproval nonce)

theorem Exclusive.empty : Exclusive ∅ :=
  ⟨fun _ _ _ => AtMostOne.empty _, fun _ => AtMostOne.empty _⟩

theorem free_of_fresh_pending (he : ChecksSequence e) (hf : Fresh map e.op r)
    (hsource : source ≠ "") (hp : IsPendingAt source sequence r) (h : String) :
    ¬ Holds map (IsPendingAt source sequence) h := by
  generalize hop : e.op = op at hf
  obtain ⟨hst, hso, hse⟩ := hp
  cases hf with
  | tryBegin id => exact absurd hop (he id)
  | beginSubmission id nonce hnonce hpair =>
    subst hso hse
    exact not_pendingAt_of_find hsource hpair h
  | recover id => cases hst
  | finalize h' status ledger => exact absurd hso.symm hsource
  | finalizeReleased h' evidence => cases hst

theorem free_of_fresh_approval (hf : Fresh map op r) (hn : HoldsApproval nonce r) (h : String) :
    ¬ Holds map (HoldsApproval nonce) h := by
  cases hf with
  | beginSubmission id nonce' hnonce hpair =>
    subst hn
    rintro ⟨r, hr, hq⟩
    exact approvalNonce_ne_of_find hnonce hr hq
  | _ => cases hn

theorem Exclusive.step (hm : Exclusive map) (he : ChecksSequence e) : Exclusive (step map e) := by
  rcases step_cases map e with heq | ⟨-, hc⟩
  · rwa [heq]
  · constructor
    · intro source sequence hsource
      exact (hm.sequence source sequence hsource).change hc
        (fun r hf hp => free_of_fresh_pending he hf hsource hp)
        fun r r' hu hp => isPendingAt_of_update hu hp
    · intro nonce
      exact (hm.approval nonce).change hc (fun r hf hn => free_of_fresh_approval hf hn)
        fun r r' hu hn => holdsApproval_of_update hu hn

/-! ## One receipt over a run -/

theorem update_keeps (hu : Update op r r') :
    r'.identity = r.identity ∧ (r.submitted = true → r'.submitted = true) := by
  cases hu with
  | markSubmitted hok => exact ⟨rfl, fun _ => rfl⟩
  | _ => exact ⟨rfl, id⟩

theorem submitted_step (e : Event) (hs : Holds map (·.submitted = true) h) :
    Holds (step map e) (·.submitted = true) h := by
  obtain ⟨r, hr, hsub⟩ := hs
  rcases lookup_step e hr with hr' | ⟨r', hr', hu⟩ | ⟨-, -, hunsent, -⟩
  · exact ⟨r, hr', hsub⟩
  · exact ⟨r', hr', (update_keeps hu).2 hsub⟩
  · rw [hsub] at hunsent
    cases hunsent

/-- The step of a run that removes the unsent receipt of a submission. -/
def Abandons (map : ReceiptMap) (id : Identity) (e : Event) : Prop :=
  e.op = .abandonPreSubmit id.envelopeHash ∧
    Holds map (fun r => r.identity = id ∧ r.status = .pending ∧ r.submitted = false)
      id.envelopeHash ∧
    (step map e).lookup id.envelopeHash = none

theorem holds_or_abandoned {id : Identity} : ∀ (events : List Event) (map : ReceiptMap),
    Holds map (·.identity = id) id.envelopeHash →
    Holds (run step map events) (·.identity = id) id.envelopeHash ∨
      ∃ before e after, events = before ++ e :: after ∧ Abandons (run step map before) id e
  | [], _, h => Or.inl h
  | e :: events, map, ⟨r, hr, hid⟩ => by
    rcases lookup_step e hr with hr' | ⟨r', hr', hu⟩ | ⟨hop, hst, hunsent, hnone⟩
    · rcases holds_or_abandoned events (step map e) ⟨r, hr', hid⟩ with h | ⟨bs, x, as, heq, hx⟩
      · exact Or.inl h
      · exact Or.inr ⟨e :: bs, x, as, by rw [heq, cons_append], hx⟩
    · have hid' : r'.identity = id := (update_keeps hu).1.trans hid
      rcases holds_or_abandoned events (step map e) ⟨r', hr', hid'⟩ with h | ⟨bs, x, as, heq, hx⟩
      · exact Or.inl h
      · exact Or.inr ⟨e :: bs, x, as, by rw [heq, cons_append], hx⟩
    · exact Or.inr ⟨[], e, events, rfl, hop, ⟨r, hr, hid, hst, hunsent⟩, hnone⟩

theorem step_of_answer {answer : Answer} (h : (perform map e).1 = .ok answer) :
    ∃ written, apply map e.op = .ok (answer, written) ∧ step map e = written.getD map := by
  unfold step
  unfold perform at h ⊢
  rcases ha : apply map e.op with err | ⟨answer', written⟩
  · simp [ha] at h
  · cases written with
    | none =>
      simp only [ha, Except.ok.injEq] at h
      exact ⟨none, by rw [h], rfl⟩
    | some map' =>
      cases hp : e.persist with
      | failed | unsynced => simp [ha, hp] at h
      | written =>
        simp only [ha, hp, Except.ok.injEq] at h
        exact ⟨some map', by rw [h], rfl⟩

theorem begin_eq_recorded {id : Identity} {nonce : Option String} {written : Option ReceiptMap}
    (h : beginSubmissionWithApproval map id nonce = .ok (.recorded, written)) :
    map.lookup id.envelopeHash = none ∧
      written = some (map.insert id.envelopeHash (pendingReceipt id nonce)) := by
  unfold beginSubmissionWithApproval at h
  cases hn : nonce.bind (findByApprovalNonce map) with
  | some r => simp [hn] at h
  | none =>
    cases hp : findPendingForPair map id.source id.sequence with
    | some r => simp [hn, hp] at h
    | none =>
      cases hr : map.lookup id.envelopeHash with
      | some r => simp [hn, hp, hr] at h
      | none =>
        simp only [hn, hp, hr] at h
        cases h
        exact ⟨rfl, rfl⟩

/-- A begin answers `Recorded` only when it inserts a receipt under a hash that has none. -/
theorem lookup_of_recorded {id : Identity} {nonce : Option String}
    (hop : e.op = .beginSubmission id nonce) (hans : (perform map e).1 = .ok .recorded) :
    map.lookup id.envelopeHash = none ∧ Holds (step map e) (·.identity = id) id.envelopeHash := by
  obtain ⟨written, happly, hstep⟩ := step_of_answer hans
  rw [hop] at happly
  obtain ⟨hnone, rfl⟩ := begin_eq_recorded happly
  exact ⟨hnone, pendingReceipt id nonce, by rw [hstep]; exact AList.lookup_insert _, rfl⟩

/-- **The store's identities stay exclusive** after any interleaving of its operations: one pending
receipt at most for a source and sequence, one holder at most of an approval, a sent receipt is
never removed, and two begins that answer `Recorded` for one hash have an abandonment of the first
one's unsent receipt between them. -/
theorem receipts_exclusive (events : List Event) (hops : ∀ e ∈ events, ChecksSequence e) :
    Exclusive (run step ∅ events) ∧ (∀ before after h, events = before ++ after →
      Holds (run step ∅ before) (·.submitted = true) h →
      Holds (run step ∅ events) (·.submitted = true) h) ∧
    (∀ before e between e' after id nonce id' nonce',
      events = before ++ e :: (between ++ e' :: after) →
      e.op = .beginSubmission id nonce → e'.op = .beginSubmission id' nonce' →
      id'.envelopeHash = id.envelopeHash → (perform (run step ∅ before) e).1 = .ok .recorded →
      (perform (run step ∅ (before ++ e :: between)) e').1 = .ok .recorded →
      ∃ pre x post, between = pre ++ x :: post ∧
        Abandons (run step ∅ (before ++ e :: pre)) id x) := by
  refine ⟨?_, ?_, ?_⟩
  · exact run_invariant (fun map e hm he => hm.step he) events ∅ Exclusive.empty hops
  · rintro before after h rfl hs
    rw [run_append]
    have hstep : ∀ (map : ReceiptMap) (e : Event), Holds map (·.submitted = true) h → True →
        Holds (step map e) (·.submitted = true) h := fun map e hm _ => submitted_step e hm
    exact run_invariant hstep after _ hs fun _ _ => trivial
  · rintro before e between e' after id nonce id' nonce' - hop hop' hhash hans hans'
    obtain ⟨-, hheld⟩ := lookup_of_recorded hop hans
    obtain ⟨hfree, -⟩ := lookup_of_recorded hop' hans'
    rw [run_append, run_cons] at hfree
    rcases holds_or_abandoned between _ hheld with ⟨r, hr, -⟩ | ⟨pre, x, post, heq, hx⟩
    · rw [hhash, hr] at hfree
      cases hfree
    · refine ⟨pre, x, post, heq, ?_⟩
      rw [run_append]
      exact hx

/-- A payment that is begun, abandoned before it is sent, begun again and sent. -/
def retried : List Event :=
  let payment : Identity := ⟨"e1", "t1", "GA", 7, 0, 100⟩
  [⟨.beginSubmission payment (some "n1"), .written⟩, ⟨.abandonPreSubmit "e1", .written⟩,
    ⟨.beginSubmission payment (some "n1"), .written⟩, ⟨.markSubmitted "e1", .unsynced⟩]

theorem receipts_exclusive_retried : (∀ e ∈ retried, ChecksSequence e) ∧
      ((run step ∅ retried).lookup "e1").map (·.submitted) = some true ∧
      Exclusive (run step ∅ retried) := by
  have hops : ∀ e ∈ retried, ChecksSequence e := by
    intro e he id
    simp only [retried, mem_cons, not_mem_nil, or_false] at he
    rcases he with rfl | rfl | rfl | rfl <;> exact ReceiptOp.noConfusion
  exact ⟨hops, by decide, (receipts_exclusive retried hops).1⟩

end AgentWallet.Profile.ReceiptRuns
