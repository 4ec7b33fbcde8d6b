import AgentWallet.Network.SubmissionRecord

/-!
# `pre_send` is all or nothing

Whatever the stores hold and whichever steps fail, `preSend` leaves a complete record of the
submission or none.  `Undone` is what a refusal leaves and `Recorded` what success leaves; each step
of `preSend` has a rule saying what it hands to the next one, and every refusal goes through
`refuse`, whose rule (`refuse_rule`) says what the unwinding of each level takes back.
-/

namespace AgentWallet.Network.PreSend

open Base.Programs Policy.StateStore PolicyState.Wire List
open PolicyState.Images Profile.Receipt SubmissionRecord

/-! ## Reservations in the window file -/

section Window

variable {K : StateKey} {wire wire' wire'' : WireFile} {es : List WindowEntry}
  {res : WindowReservation} {nowMs : ℕ}

def pendingOn (K : StateKey) (wire : WireFile) : List WireRecord :=
  (recordsOn K wire).filter fun r => decide (r.status = .pending)

theorem filter_pending_prune (l : List WireRecord) (cutoff : ℕ) :
    (l.filter fun r => decide (r.tsMs ≥ cutoff) || decide (r.status = .pending)).filter
      (fun r => decide (r.status = .pending)) = l.filter fun r => decide (r.status = .pending) := by
  rw [filter_filter]
  congr 1
  funext r
  by_cases h : r.status = .pending
  · simp [h]
  · simp [h]

theorem pendingOn_recordPending (h : (StoreOp.recordPending es res).exec nowMs wire = .ok wire') :
    fileHoldsId wire res.id = false ∧
      ∀ K, (pendingOn K wire').Perm (pendingOn K wire ++
        (entriesOn K es).map (pendingRecord res)) := by
  unfold StoreOp.exec at h
  split at h
  · cases h
  · rename_i himage
    have hnone : (pendingImage es res nowMs wire).map some = .ok none := himage
    cases hp : pendingImage es res nowMs wire with
    | error e | ok image =>
      rw [hp] at hnone
      cases hnone
  · rename_i image himage
    obtain ⟨hfree, -, rfl⟩ := pendingImage_eq_ok (map_some_eq_ok himage)
    split at h
    · cases h
    · cases Except.ok.inj h
      refine ⟨hfree, fun K => ?_⟩
      have hpruned := recordsOn_pruneStale (K := K) nowMs
        { wire with entries := pushEntries (pendingRecord res) es wire.entries }
      have hnew : ∀ l : List WindowEntry, (l.map (pendingRecord res)).filter
          (fun r => decide (r.status = .pending)) = l.map (pendingRecord res) := by
        intro l
        rw [filter_eq_self]
        intro r hr
        obtain ⟨e, -, rfl⟩ := mem_map.1 hr
        rfl
      have hpush := (recordsOf_pushEntries (K := K) (pendingRecord res) es wire.entries).filter
        fun r => decide (r.status = .pending)
      rw [filter_append, hnew] at hpush
      refine List.Perm.trans (List.Perm.of_eq ?_) hpush
      calc pendingOn K _
          = (recordsOn K (pruneStale { wire with
              entries := pushEntries (pendingRecord res) es wire.entries } nowMs)).filter
              fun r => decide (r.status = .pending) := rfl
        _ = _ := by rw [hpruned, filter_pending_prune]; rfl

theorem admitLoop_error (wire : WireFile) : ∀ (entries : List WindowEntry)
    (batch : StateKey → ℤ × ℕ) {e : WindowStoreError}, admitLoop wire batch entries = .error e →
      e ≠ .duplicateReservation
  | [], _, _, h => by cases h
  | x :: rest, batch, e, h => by
    rw [admitLoop] at h
    split at h
    · cases h
      simp
    · dsimp only at h
      split at h
      · cases h
        simp
      · exact admitLoop_error wire rest _ h

theorem holdsId_of_duplicate (h : (StoreOp.recordPending es res).exec nowMs wire =
    .error .duplicateReservation) : fileHoldsId wire res.id = true := by
  by_contra hfree
  have himage : (StoreOp.recordPending es res).image nowMs wire ≠ .error .duplicateReservation := by
    intro heq
    have hmap : (pendingImage es res nowMs wire).map some = .error .duplicateReservation := heq
    unfold pendingImage at hmap
    rw [if_neg hfree] at hmap
    cases hlimits : admitEntries wire es with
    | error e =>
      rw [hlimits] at hmap
      exact admitLoop_error wire es _ hlimits (Except.error.inj hmap)
    | ok u =>
      rw [hlimits] at hmap
      cases hmap
  unfold StoreOp.exec at h
  split at h
  · rename_i e he
    rw [Except.error.inj h] at he
    exact himage he
  · cases h
  · split at h
    · rename_i e he
      unfold incrementGeneration at he
      split at he
      · cases he
      · cases he
        cases h
    · cases h

theorem pendingOn_release {id : String} (h : (StoreOp.release id).exec nowMs wire = .ok wire') :
    pendingOn K wire' = (pendingOn K wire).filter fun r => r.id != id := by
  rcases exec_rewrite rfl h with ⟨-, heq⟩ | hrec
  · rw [heq, eq_comm, filter_eq_self]
    intro r hr
    obtain ⟨hmem, hst⟩ := mem_filter.1 hr
    rw [← heq] at hmem
    simpa using id_ne_of_release h hmem (by simpa using hst)
  · have hretain := recordsOn_retainRecords (K := K)
      (fun r => r.id != id || decide (r.status ≠ .pending)) wire
    unfold pendingOn
    rw [hrec K, filter_pending_prune, releaseRecords, hretain, filter_filter, filter_filter]
    congr 1
    funext r
    by_cases hst : r.status = .pending
    · simp [hst]
    · simp [hst]

theorem id_ne_of_free {id : String} (hid : id ≠ "") (hfree : fileHoldsId wire id = false)
    {r : WireRecord} (hr : r ∈ recordsOn K wire) : r.id ≠ id := by
  rintro rfl
  obtain ⟨b, hb, hrb⟩ := mem_flatMap.1 (mem_records_iff.2 ⟨K, hr⟩)
  have hholds : fileHoldsId wire r.id = true := by
    unfold fileHoldsId
    rw [Bool.and_eq_true]
    refine ⟨by simpa using hid, any_eq_true.2 ⟨b, hb, any_eq_true.2 ⟨r, hrb, by simp⟩⟩⟩
  rw [hholds] at hfree
  cases hfree

section

variable (hid : res.id ≠ "") (hreserve : (StoreOp.recordPending es res).exec nowMs wire = .ok wire')
include hid hreserve

/-- **A released reservation leaves no trace among the reservations.** -/
theorem pendingOn_of_released (hrelease : (StoreOp.release res.id).exec nowMs wire' = .ok wire'')
    (K : StateKey) : (pendingOn K wire'').Perm (pendingOn K wire) := by
  obtain ⟨hfree, hperm⟩ := pendingOn_recordPending hreserve
  have hold : (pendingOn K wire).filter (fun r => r.id != res.id) = pendingOn K wire := by
    rw [filter_eq_self]
    intro r hr
    simpa using id_ne_of_free hid hfree (mem_of_mem_filter hr)
  have hnew : ((entriesOn K es).map (pendingRecord res)).filter (fun r => r.id != res.id) = [] := by
    rw [filter_eq_nil_iff]
    intro r hr
    obtain ⟨e, -, rfl⟩ := mem_map.1 hr
    simp [pendingRecord]
  have hfilter := (hperm K).filter fun r => r.id != res.id
  rw [filter_append, hold, hnew, append_nil] at hfilter
  rw [pendingOn_release hrelease]
  exact hfilter

theorem reserved_eq (K : StateKey) : ((recordsOn K wire').filter (isPendingOf res.id)).Perm
      ((entriesOn K es).map (pendingRecord res)) := by
  obtain ⟨hfree, hperm⟩ := pendingOn_recordPending hreserve
  have hold : (pendingOn K wire).filter (fun r => r.id == res.id) = [] := by
    rw [filter_eq_nil_iff]
    intro r hr
    simpa using id_ne_of_free hid hfree (mem_of_mem_filter hr)
  have hnew : ((entriesOn K es).map (pendingRecord res)).filter (fun r => r.id == res.id) =
      (entriesOn K es).map (pendingRecord res) := by
    rw [filter_eq_self]
    intro r hr
    obtain ⟨e, -, rfl⟩ := mem_map.1 hr
    simp [pendingRecord]
  have hfilter := (hperm K).filter fun r => r.id == res.id
  rw [filter_append, hold, hnew] at hfilter
  have hsplit : (recordsOn K wire').filter (isPendingOf res.id) =
      (pendingOn K wire').filter fun r => r.id == res.id := by
    unfold pendingOn
    rw [filter_filter]
    rfl
  rw [hsplit]
  exact hfilter

end

end Window

/-! ## What is left behind -/

/-- Every pending row is followed by a failed row of its hash. -/
def ClosesPending (rows : List AuditRow) : Prop :=
  ∀ before row after sequence, rows = before ++ row :: after →
    row.kind = .valueActionPending sequence →
    ∃ closing ∈ after, closing.envelopeHash = row.envelopeHash ∧
      ∃ code, closing.kind = .valueActionFailed code

variable (rec : Recorder) (faults : Faults) (intent : SubmissionIntent) (s₀ : Stores)

/-- Nothing of the attempt is left, apart from closed rows; a row stays open only for another
submission that holds the hash. -/
structure Undone (s : Stores) : Prop where
  receipts : s.receipts = s₀.receipts
  /-- The reservations are those other processes left. -/
  window : ∃ wire, (wire = s₀.window ∨ wire = faults.others s₀.window) ∧
    ∀ K, (pendingOn K s.window).Perm (pendingOn K wire)
  audit : ∃ rows, s.audit = s₀.audit ++ rows ∧
    (ClosesPending rows ∨ fileHoldsId (faults.others s₀.window) intent.envelopeHash = true)

/-- The receipt of the attempt while it is being recorded. -/
def openReceipt : SubmissionReceipt := pendingReceipt intent.identity rec.approval

structure Recorded (s : Stores) : Prop where
  receipt : s.receipts.lookup intent.envelopeHash =
    some { openReceipt rec intent with submitted := true }
  window : rec.windowEntries ≠ [] → ∀ K,
    ((recordsOn K s.window).filter (isPendingOf intent.envelopeHash)).Perm
      ((entriesOn K rec.windowEntries).map (pendingRecord (rec.reservation intent)))
  audit : rec.hasAudit = true → ∃ rows, s.audit = s₀.audit ++ rows ∧ rec.pendingRow intent ∈ rows

/-- A refusal has undone the attempt, unless an undo step failed. -/
def Refused (s : Stores) : Prop := s.warned = false → Undone faults intent s₀ s

/-! ## Unwinding -/

section Unwinding

variable {ε α : Type}

theorem exec_bestEffort_ok (a : α) (s : Stores) :
    exec (bestEffort (.ok a : Except ε α)) s = (.ok (), s) := rfl

theorem exec_bestEffort_error (e : ε) (s : Stores) :
    exec (bestEffort (.error e : Except ε α)) s = (.ok (), { s with warned := true }) := rfl

theorem exec_settleWindow (s : Stores) : ∃ s',
    exec (settleWindow rec faults intent .release) s = (.ok (), s') ∧
      s'.receipts = s.receipts ∧ s'.audit = s.audit ∧
      (s'.warned = false → s.warned = false ∧ (rec.windowEntries = [] → s'.window = s.window) ∧
        (rec.windowEntries ≠ [] → (StoreOp.release intent.envelopeHash).exec faults.windowNowMs
          s.window = .ok s'.window)) := by
  unfold settleWindow
  by_cases hentries : rec.windowEntries = []
  · rw [if_pos hentries]
    exact ⟨s, rfl, rfl, rfl, fun h => ⟨h, fun _ => rfl, fun hne => absurd hentries hne⟩⟩
  · rw [if_neg hentries]
    unfold windowOp
    cases faults.settleWindow with
    | some e => exact ⟨{ s with warned := true }, rfl, rfl, rfl, fun h => absurd h (by simp)⟩
    | none =>
      cases hop : (StoreOp.release intent.envelopeHash).exec faults.windowNowMs s.window with
      | error e =>
        refine ⟨{ s with warned := true }, ?_, rfl, rfl, fun h => absurd h (by simp)⟩
        simp only [exec_bind, exec_get, hop, exec_pure, exec_bestEffort_error]
      | ok window =>
        refine ⟨{ s with window := window }, ?_, rfl, rfl, fun h => ⟨h, ?_, fun _ => rfl⟩⟩
        · simp only [exec_bind, exec_get, hop, exec_modify, exec_pure, exec_bestEffort_ok]
        · exact fun hnil => absurd hnil hentries

theorem exec_writeFailedRow (code : String) (s : Stores) : ∃ s',
    exec (writeFailedRow rec faults intent code) s = (.ok (), s') ∧
      s'.receipts = s.receipts ∧ s'.window = s.window ∧ (s'.warned = false → s.warned = false ∧
        s'.audit = s.audit ++ if rec.hasAudit = true then [rec.failedRow intent code] else []) := by
  unfold writeFailedRow writeOutcomeRow appendRow
  by_cases haudit : rec.hasAudit = true
  · rw [if_pos haudit, if_pos haudit]
    cases faults.outcomeRow with
    | some e => exact ⟨{ s with warned := true }, rfl, rfl, rfl, fun h => absurd h (by simp)⟩
    | none => exact ⟨{ s with audit := s.audit ++ [rec.failedRow intent code] }, rfl, rfl, rfl,
        fun h => ⟨h, rfl⟩⟩
  · rw [if_neg haudit, if_neg haudit]
    exact ⟨s, rfl, rfl, rfl, fun h => ⟨h, (append_nil _).symm⟩⟩

theorem exec_abandon (s : Stores) : ∃ s',
    exec (receiptOp faults.receiptWrite (.abandonPreSubmit intent.envelopeHash) >>= bestEffort) s =
      (.ok (), s') ∧ s'.window = s.window ∧ s'.audit = s.audit ∧
      (s'.warned = false → s.warned = false ∧ ∀ r,
        s.receipts.lookup intent.envelopeHash = some r → r.status = .pending → r.submitted = false →
          s'.receipts = s.receipts.erase intent.envelopeHash) := by
  unfold receiptOp
  cases faults.receiptWrite with
  | some e => exact ⟨{ s with warned := true }, rfl, rfl, rfl, fun h => absurd h (by simp)⟩
  | none =>
    simp only [exec_bind, exec_get, exec_modify]
    cases hanswer : (perform s.receipts ⟨.abandonPreSubmit intent.envelopeHash, .written⟩).1 with
    | error e =>
      exact ⟨_, rfl, rfl, rfl, fun h => absurd h (by simp)⟩
    | ok answer =>
      refine ⟨_, rfl, rfl, rfl, fun h => ⟨h, fun r hr hst hsub => ?_⟩⟩
      simp [perform, apply, abandonPreSubmit, hr, hst, hsub]

/-- What unwinding to a level leaves of the state `t`. -/
structure Unwound (rec : Recorder) (faults : Faults) (intent : SubmissionIntent)
    (reached : UnwoundAfter) (code : String) (t s : Stores) : Prop where
  receipts : ∀ r, t.receipts.lookup intent.envelopeHash = some r → r.status = .pending →
    r.submitted = false → s.receipts = t.receipts.erase intent.envelopeHash
  released : reached = .reservation → rec.windowEntries ≠ [] →
    (StoreOp.release intent.envelopeHash).exec faults.windowNowMs t.window = .ok s.window
  kept : reached ≠ .reservation ∨ rec.windowEntries = [] → s.window = t.window
  audit : s.audit = t.audit ++ if reached ≠ .receipt ∧ rec.hasAudit = true then
    [rec.failedRow intent code] else []

section

variable (code : String)
include code

theorem unwind_pendingRow : unwind rec faults intent .pendingRow code =
    writeFailedRow rec faults intent code >>= fun _ => unwind rec faults intent .receipt code := rfl

theorem unwind_reservation : unwind rec faults intent .reservation code =
    settleWindow rec faults intent .release >>= fun _ =>
      unwind rec faults intent .pendingRow code := rfl

theorem exec_unwind_receipt (t : Stores) : ∃ s,
    exec (unwind rec faults intent .receipt code) t = (.ok (), s) ∧
      (s.warned = false → t.warned = false ∧ Unwound rec faults intent .receipt code t s) := by
  obtain ⟨s, hexec, hwindow, haudit, hs⟩ := exec_abandon faults intent t
  refine ⟨s, hexec, fun hwarned => ?_⟩
  obtain ⟨ht, hreceipts⟩ := hs hwarned
  refine ⟨ht, hreceipts, fun h => ?_, fun _ => hwindow, ?_⟩
  · cases h
  · rw [haudit, if_neg (by simp), append_nil]

theorem exec_unwind_pendingRow (t : Stores) : ∃ s,
    exec (unwind rec faults intent .pendingRow code) t = (.ok (), s) ∧
      (s.warned = false → t.warned = false ∧ Unwound rec faults intent .pendingRow code t s) := by
  obtain ⟨t', hrow, hreceipts, hwindow, hs⟩ := exec_writeFailedRow rec faults intent code t
  obtain ⟨s, hexec, hunwound⟩ := exec_unwind_receipt rec faults intent code t'
  refine ⟨s, ?_, fun hwarned => ?_⟩
  · rw [unwind_pendingRow, exec_bind, hrow]
    exact hexec
  · obtain ⟨ht', h⟩ := hunwound hwarned
    obtain ⟨ht, haudit⟩ := hs ht'
    refine ⟨ht, ?_, fun h => ?_, fun _ => ?_, ?_⟩
    · rw [← hreceipts]
      exact h.receipts
    · cases h
    · rw [h.kept (Or.inl (by simp)), hwindow]
    · rw [h.audit, haudit]
      simp

theorem exec_unwind_reservation (t : Stores) : ∃ s,
    exec (unwind rec faults intent .reservation code) t = (.ok (), s) ∧
      (s.warned = false → t.warned = false ∧ Unwound rec faults intent .reservation code t s) := by
  obtain ⟨t', hsettle, hreceipts, haudit, hs⟩ := exec_settleWindow rec faults intent t
  obtain ⟨s, hexec, hunwound⟩ := exec_unwind_pendingRow rec faults intent code t'
  refine ⟨s, ?_, fun hwarned => ?_⟩
  · rw [unwind_reservation, exec_bind, hsettle]
    exact hexec
  · obtain ⟨ht', h⟩ := hunwound hwarned
    obtain ⟨ht, hnil, hrelease⟩ := hs ht'
    have hwindow : s.window = t'.window := h.kept (Or.inl (by simp))
    refine ⟨ht, ?_, fun _ hentries => ?_, fun hkept => ?_, ?_⟩
    · rw [← hreceipts]
      exact h.receipts
    · rw [hwindow]
      exact hrelease hentries
    · rcases hkept with hne | hentries
      · exact absurd rfl hne
      · rw [hwindow, hnil hentries]
    · rw [h.audit, haudit]
      simp

end

theorem exec_unwind (reached : UnwoundAfter) (code : String) (t : Stores) : ∃ s,
    exec (unwind rec faults intent reached code) t = (.ok (), s) ∧
      (s.warned = false → t.warned = false ∧ Unwound rec faults intent reached code t s) := by
  cases reached with
  | receipt => exact exec_unwind_receipt rec faults intent code t
  | pendingRow => exact exec_unwind_pendingRow rec faults intent code t
  | reservation => exact exec_unwind_reservation rec faults intent code t

/-- **A refusal** fails with what unwinding leaves. -/
theorem refuse_rule {t : Stores} {reached : UnwoundAfter} {refusal : WalletError}
    {Q : Unit → Stores → Prop} (h : ∀ s, s.warned = false →
      Unwound rec faults intent reached refusal.code t s → Undone faults intent s₀ s) :
    Triple (fun s => s = t) (refuse rec faults intent reached refusal) Q
      (Refused faults intent s₀) := by
  rintro s rfl
  obtain ⟨s', hexec, hs'⟩ := exec_unwind rec faults intent reached refusal.code s
  have hrefuse : exec (refuse rec faults intent reached refusal) s = (.error refusal, s') := by
    unfold refuse
    rw [exec_bind, hexec]
    rfl
  rw [hrefuse]
  refine ⟨fun a ha => ?_, fun e _ hwarned => h s' hwarned (hs' hwarned).2⟩
  cases ha

end Unwinding

/-! ## The steps -/

/-- The rows the attempt appends before the send. -/
def openRows : List AuditRow := if rec.hasAudit = true then [rec.pendingRow intent] else []

def gated : Stores :=
  { s₀ with receipts := s₀.receipts.insert intent.envelopeHash (openReceipt rec intent) }

/-- Other processes have had their turn on the window file. -/
def shared : Stores := { gated rec intent s₀ with window := faults.others s₀.window }

def rowed : Stores :=
  { shared rec faults intent s₀ with audit := s₀.audit ++ openRows rec intent }

def Reserved (s : Stores) : Prop := ∃ wire,
  s = { rowed rec faults intent s₀ with window := wire } ∧
    (rec.windowEntries = [] → wire = faults.others s₀.window) ∧
    (rec.windowEntries ≠ [] → (StoreOp.recordPending rec.windowEntries (rec.reservation intent)).exec
      faults.windowNowMs (faults.others s₀.window) = .ok wire)

section Steps

variable {rec faults intent s₀}

theorem erase_insert_of_fresh {m : ReceiptMap} {h : String} {r : SubmissionReceipt}
    (hfresh : m.lookup h = none) : (m.insert h r).erase h = m := by
  have hmem : h ∉ m := AList.lookup_eq_none.1 hfresh
  apply AList.ext
  show List.kerase h (m.insert h r).entries = m.entries
  rw [AList.entries_insert_of_notMem hmem]
  exact kerase_cons_eq rfl

theorem closesPending_nil : ClosesPending [] := by
  intro before row after sequence h
  simp at h

theorem closesPending_openRows (code : String) : ClosesPending
    (openRows rec intent ++ if rec.hasAudit = true then [rec.failedRow intent code] else []) := by
  unfold openRows
  by_cases haudit : rec.hasAudit = true
  · rw [if_pos haudit, if_pos haudit]
    intro before row after sequence heq hkind
    rcases before with _ | ⟨b, before⟩
    · obtain ⟨rfl, rfl⟩ := List.cons.inj heq
      exact ⟨rec.failedRow intent code, mem_singleton_self _, rfl, code, rfl⟩
    · -- the second row is no pending row
      obtain ⟨-, htail⟩ := List.cons.inj heq
      rcases before with _ | ⟨b', before⟩
      · obtain ⟨rfl, -⟩ := List.cons.inj htail
        cases hkind
      · simp at htail
  · rw [if_neg haudit, if_neg haudit]
    exact closesPending_nil

theorem undone_self : Undone faults intent s₀ s₀ :=
  ⟨rfl, ⟨s₀.window, Or.inl rfl, fun _ => List.Perm.refl _⟩, [], (append_nil _).symm,
    Or.inl closesPending_nil⟩

variable {t s : Stores} {reached : UnwoundAfter} {code : String}

theorem Unwound.receipts_eq (h : Unwound rec faults intent reached code t s)
    (hreceipts : t.receipts = (gated rec intent s₀).receipts)
    (hfresh : s₀.receipts.lookup intent.envelopeHash = none) : s.receipts = s₀.receipts := by
  have hlookup : t.receipts.lookup intent.envelopeHash = some (openReceipt rec intent) := by
    rw [hreceipts]
    exact AList.lookup_insert _
  rw [h.receipts _ hlookup rfl rfl, hreceipts]
  exact erase_insert_of_fresh hfresh

theorem requireAnchorBeforeRow_rule : Triple (fun s => s = s₀) (requireAnchorBeforeRow rec faults)
    (fun _ s => s = s₀) (Refused faults intent s₀) := by
  unfold requireAnchorBeforeRow
  split_ifs
  · cases faults.anchorBefore with
    | some e => exact Triple.throw_rule fun s hs _ => hs ▸ undone_self
    | none => exact Triple.pure_rule fun _ hs => hs
  · exact Triple.pure_rule fun _ hs => hs

theorem perform_begin (map : ReceiptMap) (id : Identity) (nonce : Option String) :
    (∃ existing, perform map ⟨.beginSubmission id nonce, .written⟩ =
        (.ok (.duplicateApproval existing), map) ∨
      perform map ⟨.beginSubmission id nonce, .written⟩ = (.ok (.duplicateSequence existing), map) ∨
      perform map ⟨.beginSubmission id nonce, .written⟩ = (.ok (.alreadyPresent existing), map)) ∨
    (perform map ⟨.beginSubmission id nonce, .written⟩ =
        (.ok .recorded, map.insert id.envelopeHash (pendingReceipt id nonce)) ∧
      map.lookup id.envelopeHash = none) := by
  cases happroval : nonce.bind (findByApprovalNonce map) with
  | some existing =>
    refine Or.inl ⟨existing, Or.inl ?_⟩
    simp [perform, apply, beginSubmissionWithApproval, happroval]
  | none =>
    cases hpair : findPendingForPair map id.source id.sequence with
    | some pending =>
      refine Or.inl ⟨pending, Or.inr (Or.inl ?_)⟩
      simp [perform, apply, beginSubmissionWithApproval, happroval, hpair]
    | none =>
      cases hlookup : map.lookup id.envelopeHash with
      | some existing =>
        refine Or.inl ⟨existing, Or.inr (Or.inr ?_)⟩
        simp [perform, apply, beginSubmissionWithApproval, happroval, hpair, hlookup]
      | none =>
        refine Or.inr ⟨?_, rfl⟩
        simp [perform, apply, beginSubmissionWithApproval, happroval, hpair, hlookup]

theorem receiptGate_rule : Triple (fun s => s = s₀) (receiptGate rec faults intent)
    (fun _ s => s = gated rec intent s₀ ∧ s₀.receipts.lookup intent.envelopeHash = none)
    (Refused faults intent s₀) := by
  rintro s rfl
  unfold receiptGate receiptOp
  cases faults.receiptGate with
  | some e =>
    refine ⟨fun a ha => ?_, fun e _ _ => undone_self⟩
    cases ha
  | none =>
    simp only [exec_bind, exec_get, exec_modify]
    rcases perform_begin s.receipts intent.identity rec.approval with
      ⟨existing, h | h | h⟩ | ⟨h, hfresh⟩
    -- a duplicate changes nothing
    · rw [h]
      refine ⟨fun a ha => ?_, fun e _ _ => undone_self⟩
      cases ha
    · rw [h]
      refine ⟨fun a ha => ?_, fun e _ _ => undone_self⟩
      cases ha
    · rw [h]
      refine ⟨fun a ha => ?_, fun e _ _ => undone_self⟩
      cases ha
    · rw [h]
      refine ⟨fun a _ => ⟨rfl, hfresh⟩, fun e he => ?_⟩
      cases he

theorem windowPrecheck_rule (hfresh : s₀.receipts.lookup intent.envelopeHash = none) :
    Triple (fun s => s = gated rec intent s₀) (windowPrecheck rec faults intent)
      (fun _ s => s = gated rec intent s₀) (Refused faults intent s₀) := by
  unfold windowPrecheck
  split_ifs
  · exact Triple.pure_rule fun _ hs => hs
  · have hasks : Triple (fun s => s = gated rec intent s₀) (holdsReservation faults intent)
        (fun _ s => s = gated rec intent s₀) (Refused faults intent s₀) := by
      unfold holdsReservation
      cases faults.windowCheck with
      | some e => exact Triple.pure_rule fun _ hs => hs
      | none => exact Triple.get_bind_rule fun s hs => Triple.pure_rule fun _ hs' => hs'.trans hs
    refine Triple.bind_rule hasks fun answer => ?_
    cases windowRefusal intent answer with
    | none => exact Triple.pure_rule fun _ hs => hs
    | some refusal =>
      refine refuse_rule rec faults intent s₀ fun s _ h => ⟨h.receipts_eq rfl hfresh, ?_, ?_⟩
      · exact ⟨s₀.window, Or.inl rfl, fun K => List.Perm.of_eq (by rw [h.kept (by simp)]; rfl)⟩
      · refine ⟨[], ?_, Or.inl closesPending_nil⟩
        rw [h.audit]
        rfl

theorem audit_closed (h : Unwound rec faults intent reached code t s)
    (hreached : reached ≠ .receipt) (haudit : t.audit = s₀.audit ++ openRows rec intent) :
    ∃ rows, s.audit = s₀.audit ++ rows ∧
      (ClosesPending rows ∨ fileHoldsId (faults.others s₀.window) intent.envelopeHash = true) := by
  have hrows : s.audit = s₀.audit ++ (openRows rec intent ++
      if rec.hasAudit = true then [rec.failedRow intent code] else []) := by
    rw [h.audit, haudit]
    simp [hreached]
  exact ⟨_, hrows, Or.inl (closesPending_openRows code)⟩

theorem writePendingRow_rule (hfresh : s₀.receipts.lookup intent.envelopeHash = none) :
    Triple (fun s => s = shared rec faults intent s₀) (writePendingRow rec faults intent)
      (fun _ s => s = rowed rec faults intent s₀) (Refused faults intent s₀) := by
  have happend : Triple (fun s => s = shared rec faults intent s₀)
      (appendRow rec faults.pendingRow (rec.pendingRow intent))
      (fun result s => (result = .ok () → s = rowed rec faults intent s₀) ∧
        (result ≠ .ok () → s = shared rec faults intent s₀)) (Refused faults intent s₀) := by
    unfold appendRow
    by_cases haudit : rec.hasAudit = true
    · rw [if_pos haudit]
      cases faults.pendingRow with
      | some e => exact Triple.pure_rule fun s hs => ⟨fun h => absurd h (by simp), fun _ => hs⟩
      | none =>
        refine Triple.bind_rule
          (Triple.modify_rule fun s hs => ?_) fun _ =>
          Triple.pure_rule fun s hs => ⟨fun _ => hs, fun h => absurd rfl h⟩
        rw [hs, rowed, openRows, if_pos haudit]
        rfl
    · rw [if_neg haudit]
      refine Triple.pure_rule fun s hs => ⟨fun _ => ?_, fun h => absurd rfl h⟩
      rw [hs, rowed, openRows, if_neg haudit, append_nil]
      rfl
  refine Triple.bind_rule happend fun result => ?_
  cases result with
  | error e =>
    refine Triple.pre ?_ fun s hs => hs.2 (by simp)
    refine Triple.bind_rule (Q := fun _ _ => False) ?_ fun _ s hs => hs.elim
    refine refuse_rule rec faults intent s₀ fun s _ h => ⟨h.receipts_eq rfl hfresh, ?_, ?_⟩
    · exact ⟨faults.others s₀.window, Or.inr rfl,
        fun K => List.Perm.of_eq (by rw [h.kept (by simp)]; rfl)⟩
    · refine ⟨[], ?_, Or.inl closesPending_nil⟩
      rw [h.audit]
      rfl
  | ok u => exact Triple.pure_rule fun s hs => hs.1 rfl

theorem undone_of_row (h : Unwound rec faults intent reached code (rowed rec faults intent s₀) s)
    (hfresh : s₀.receipts.lookup intent.envelopeHash = none)
    (hkept : reached ≠ .reservation ∨ rec.windowEntries = [])
    (hclosed : reached ≠ .receipt ∨
      fileHoldsId (faults.others s₀.window) intent.envelopeHash = true) :
    Undone faults intent s₀ s := by
  refine ⟨h.receipts_eq rfl hfresh, ?_, ?_⟩
  · exact ⟨faults.others s₀.window, Or.inr rfl,
      fun K => List.Perm.of_eq (by rw [h.kept hkept]; rfl)⟩
  · rcases hclosed with hne | hholds
    · exact audit_closed h hne rfl
    · have hrows := h.audit
      rw [rowed, append_assoc] at hrows
      exact ⟨_, hrows, Or.inr hholds⟩

theorem undone_of_reserved (ht : Reserved rec faults intent s₀ t)
    (h : Unwound rec faults intent .reservation code t s)
    (hfresh : s₀.receipts.lookup intent.envelopeHash = none) : Undone faults intent s₀ s := by
  obtain ⟨wire, rfl, hnil, hreserve⟩ := ht
  refine ⟨h.receipts_eq rfl hfresh, ⟨faults.others s₀.window, Or.inr rfl, fun K => ?_⟩,
    audit_closed h (by simp) rfl⟩
  by_cases hentries : rec.windowEntries = []
  · rw [h.kept (Or.inr hentries)]
    exact List.Perm.of_eq (by rw [← hnil hentries])
  · exact pendingOn_of_released intent.hash_ne (hreserve hentries) (h.released rfl hentries) K

theorem reachedOn_ne_reservation (e : WindowStoreError) : reachedOn e ≠ .reservation := by
  unfold reachedOn
  split <;> simp

theorem reachedOn_eq_receipt (e : WindowStoreError) :
    reachedOn e ≠ .receipt ∨ e = .duplicateReservation := by
  unfold reachedOn
  split
  · exact Or.inr rfl
  · exact Or.inl (by simp)

theorem reservation_rule (hentries : rec.windowEntries ≠ []) :
    Triple (fun s => s = rowed rec faults intent s₀) (windowOp faults faults.reservation
        (.recordPending rec.windowEntries (rec.reservation intent)))
      (fun result s => (result = .ok () → Reserved rec faults intent s₀ s) ∧
        ∀ e, result = .error e → s = rowed rec faults intent s₀ ∧ (e = .duplicateReservation →
          fileHoldsId (faults.others s₀.window) intent.envelopeHash = true))
      (Refused faults intent s₀) := by
  cases faults.reservation with
  | some fault =>
    refine Triple.pure_rule fun s hs => ⟨fun h => absurd h (by simp),
      fun e he => ⟨hs, fun hdup => ?_⟩⟩
    exact absurd ((Except.error.inj he).trans hdup) fault.2
  | none =>
    refine Triple.get_bind_rule fun s hs => ?_
    cases hop : (StoreOp.recordPending rec.windowEntries (rec.reservation intent)).exec
        faults.windowNowMs s.window with
    | error e =>
      refine Triple.pure_rule fun s' hs' => ⟨fun h => absurd h (by simp), fun e' he' => ?_⟩
      refine ⟨hs'.trans hs, fun hdup => ?_⟩
      rw [Except.error.inj he', hdup, hs] at hop
      exact holdsId_of_duplicate hop
    | ok wire =>
      refine Triple.bind_rule (Q := fun _ s' => s' = { s with window := wire })
        (Triple.modify_rule fun s' hs' => by rw [hs']) fun _ => ?_
      refine Triple.pure_rule fun s' hs' => ⟨fun _ => ⟨wire, ?_, fun hnil => absurd hnil hentries,
        fun _ => ?_⟩, fun e he => absurd he (by simp)⟩
      · rw [hs', hs]
      · rw [hs] at hop
        exact hop

theorem reserveWindow_rule (hfresh : s₀.receipts.lookup intent.envelopeHash = none)
    (behind : Option WalletError) :
    Triple (fun s => s = rowed rec faults intent s₀) (reserveWindow rec faults intent behind)
      (fun _ s => Reserved rec faults intent s₀ s) (Refused faults intent s₀) := by
  unfold reserveWindow
  by_cases hentries : rec.windowEntries = []
  · rw [if_pos hentries]
    cases behind with
    | some refusal =>
      exact refuse_rule rec faults intent s₀ fun s _ h =>
        undone_of_row h hfresh (Or.inl (by simp)) (Or.inl (by simp))
    | none =>
      exact Triple.pure_rule fun s hs => ⟨_, hs, fun _ => rfl, fun hne => absurd hentries hne⟩
  · rw [if_neg hentries]
    refine Triple.bind_rule (reservation_rule hentries) fun result => ?_
    cases result with
    | error e =>
      intro s hs
      obtain ⟨hrowed, hdup⟩ := hs.2 e rfl
      refine refuse_rule rec faults intent s₀ (fun s' _ h => ?_) s hrowed
      exact undone_of_row h hfresh (Or.inl (reachedOn_ne_reservation e))
        ((reachedOn_eq_receipt e).imp id hdup)
    | ok u =>
      cases behind with
      | some refusal =>
        intro s hs
        refine refuse_rule rec faults intent s₀ (fun s' _ h => ?_) s rfl
        exact undone_of_reserved (hs.1 rfl) h hfresh
      | none => exact Triple.pure_rule fun s hs => hs.1 rfl

theorem markSubmittedLast_rule (hfresh : s₀.receipts.lookup intent.envelopeHash = none) :
    Triple (Reserved rec faults intent s₀) (markSubmittedLast rec faults intent)
      (fun _ s => Recorded rec intent s₀ s) (Refused faults intent s₀) := by
  have hmark : Triple (Reserved rec faults intent s₀)
      (receiptOp faults.markSubmitted (.markSubmitted intent.envelopeHash))
      (fun result s => (∀ e, result = .error e → Reserved rec faults intent s₀ s) ∧
        ∀ a, result = .ok a → Recorded rec intent s₀ s) (Refused faults intent s₀) := by
    cases faults.markSubmitted with
    | some e => exact Triple.pure_rule fun s hs => ⟨fun _ _ => hs, fun a ha => absurd ha (by simp)⟩
    | none =>
      refine Triple.get_bind_rule fun s hs => ?_
      obtain ⟨wire, rfl, -, hreserve⟩ := hs
      have hperform : perform (rowed rec faults intent s₀).receipts
          ⟨.markSubmitted intent.envelopeHash, .written⟩ = (.ok .unit,
            (rowed rec faults intent s₀).receipts.insert intent.envelopeHash
              { openReceipt rec intent with submitted := true }) := by
        have hlookup : (rowed rec faults intent s₀).receipts.lookup intent.envelopeHash =
            some (openReceipt rec intent) := AList.lookup_insert _
        have hopen : (openReceipt rec intent).submitted = false := rfl
        simp [perform, apply, markSubmitted, updateIf, hlookup, hopen]
      rw [hperform]
      refine Triple.bind_rule
        (Triple.modify_rule fun s hs => ?_) fun _ =>
        Triple.pure_rule fun s hs => ⟨fun e he => absurd he (by simp), fun _ _ => hs⟩
      rw [hs]
      refine ⟨AList.lookup_insert _, fun hentries K => ?_, fun haudit => ?_⟩
      · exact reserved_eq intent.hash_ne (hreserve hentries) K
      · refine ⟨openRows rec intent, rfl, ?_⟩
        rw [openRows, if_pos haudit]
        exact mem_singleton_self _
  refine Triple.bind_rule hmark fun result => ?_
  cases result with
  | error e =>
    intro s hs
    refine refuse_rule rec faults intent s₀ (fun s' _ h => ?_) s rfl
    exact undone_of_reserved (hs.1 e rfl) h hfresh
  | ok a => exact Triple.pure_rule fun s hs => hs.2 a rfl

end Steps

/-- **All or nothing.**  For every content of the stores, every choice of failing steps and every
interference of other processes, a refusal leaves the receipts and the reservations as they were and
every row of the attempt closed, unless another submission holds the hash, and success leaves the
whole record; assuming that no undo step failed. -/
theorem preSend_all_or_nothing (hundo : (exec (preSend rec faults intent) s₀).2.warned = false) :
    (∀ e, (exec (preSend rec faults intent) s₀).1 = .error e →
      Undone faults intent s₀ (exec (preSend rec faults intent) s₀).2) ∧
    ((exec (preSend rec faults intent) s₀).1 = .ok () →
      Recorded rec intent s₀ (exec (preSend rec faults intent) s₀).2) := by
  have hrule : Triple (fun s => s = s₀) (preSend rec faults intent)
      (fun _ s => Recorded rec intent s₀ s) (Refused faults intent s₀) := by
    refine Triple.bind_rule requireAnchorBeforeRow_rule fun _ => ?_
    refine Triple.bind_rule receiptGate_rule fun _ => ?_
    rintro s ⟨hgated, hfresh⟩
    refine Triple.bind_rule (windowPrecheck_rule hfresh) (fun _ => ?_) s hgated
    refine Triple.bind_rule (Q := fun _ s => s = shared rec faults intent s₀)
      (Triple.modify_rule fun s hs => by rw [hs]; rfl) fun _ => ?_
    refine Triple.bind_rule (writePendingRow_rule hfresh) fun behind => ?_
    exact Triple.bind_rule (reserveWindow_rule hfresh behind) fun _ => markSubmittedLast_rule hfresh
  obtain ⟨hok, herr⟩ := hrule s₀ rfl
  exact ⟨fun e he => herr e he hundo, hok ()⟩

/-- A payment of five stroops under a daily cap of ten. -/
def paymentRecorder : Recorder :=
  { profileName := "default", tool := "stellar_pay_commit", hasAudit := true, nowMs := 1000
    windowEntries := [⟨⟨"default", 0, "native", 86400⟩, 1000, 5, .amount "native" "day" 10⟩] }

def paymentIntent : SubmissionIntent :=
  ⟨⟨"e1", "t1", "GA", 7, 0, 100⟩, by decide⟩

def emptyStores : Stores := { receipts := ∅, window := emptyFile, audit := [] }

/-- Refused at the last step, and recorded. -/
theorem preSend_all_or_nothing_payment :
    ((exec (preSend paymentRecorder { markSubmitted := some .writerLocked } paymentIntent)
        emptyStores).1 = .error .recordUnavailable ∧
      Undone { markSubmitted := some .writerLocked } paymentIntent emptyStores
        (exec (preSend paymentRecorder { markSubmitted := some .writerLocked } paymentIntent)
          emptyStores).2) ∧
    ((exec (preSend paymentRecorder {} paymentIntent) emptyStores).1 = .ok () ∧
      Recorded paymentRecorder paymentIntent emptyStores
        (exec (preSend paymentRecorder {} paymentIntent) emptyStores).2) := by
  have hrefused : (exec (preSend paymentRecorder { markSubmitted := some .writerLocked }
      paymentIntent) emptyStores).1 = .error .recordUnavailable := by decide +kernel
  have hok : (exec (preSend paymentRecorder {} paymentIntent) emptyStores).1 = .ok () := by
    decide +kernel
  refine ⟨⟨hrefused, ?_⟩, hok, ?_⟩
  · exact (preSend_all_or_nothing _ _ _ _ (by decide +kernel)).1 _ hrefused
  · exact (preSend_all_or_nothing _ _ _ _ (by decide +kernel)).2 hok

end AgentWallet.Network.PreSend
