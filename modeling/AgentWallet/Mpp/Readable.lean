import AgentWallet.Base.Runs
import AgentWallet.Mpp.Operations

/-!
# What the store can read again

`read_verified` checks the whole snapshot: every record validates, no identifier, fingerprint or
approval nonce comes twice, the file is not too large.  A mutation changes a record and writes it
without running those checks again.
-/

namespace AgentWallet.Mpp.Readable

open List

open Base Base.Checks Mpp.Record Mpp.Store Mpp.Operations Mpp.Record.AuthorizationRecord

variable {D A : Type} {P : Primitives D A} {r r' : AuthorizationRecord D A}
  {now at_ : Int64} {next : AuthorizationStatus} {op : Operation D A} {answer : Answer D A}
  {ledger : ℕ} {change : Change D} {s : AuthorizationRecord D A}
  {rs l rest : List (AuthorizationRecord D A)}

/-! ## The life cycle

What a record has in one status it has in the next: accounting and credentials are behind every
status that follows them. -/

theorem allows_unaccounted : ∀ s next : AuthorizationStatus, s.allows next = true →
    s ∉ unaccounted → next ∈ unaccounted → next = .refused := by
  decide

theorem allows_uncredentialed : ∀ s next : AuthorizationStatus, s.allows next = true →
    s ∉ uncredentialed → next ∉ uncredentialed := by
  decide

theorem allows_credentialed : ∀ s next : AuthorizationStatus, s.allows next = true →
    next ∉ [AuthorizationStatus.deliveryPending, .receiptObserved, .settled] → next ∈ credentialed →
    s ∈ credentialed := by
  decide

theorem allows_observable : ∀ s next : AuthorizationStatus, s.allows next = true → s ∈ observable →
    next ∈ observable := by
  decide

theorem allows_prepared : ∀ s : AuthorizationStatus, s.allows .prepared = false := by
  decide

theorem outcome_of_allows {s : AuthorizationStatus} {outcome : LedgerOutcome}
    (hallow : s.allows next = true) (h : outcomeAllowed outcome s = true) : outcome = .unknown := by
  cases outcome with
  | unknown => rfl
  | settled ledger at_ | failed ledger at_ => cases s <;> first | cases h | cases hallow

theorem outcomeAllowed_unknown (h : next ≠ .settled) : outcomeAllowed .unknown next = true := by
  cases next <;> first | rfl | exact absurd rfl h

/-! ## One record -/

theorem valid_transition_iff (h : Valid P r) (hallow : r.status.allows next = true)
    (hnext : next ∉ [AuthorizationStatus.approvalPending, .deliveryPending, .receiptObserved,
      .settled]) :
    Valid P { r with status := next, updatedAt := now } ↔
      r.createdAt ≤ now ∧ (next = .refused → r.policyAccounted = false) := by
  simp only [mem_cons, not_mem_nil, or_false, not_or] at hnext
  obtain ⟨hpending, hdelivery, hreceipt, hsettled⟩ := hnext
  constructor
  · intro h'
    refine ⟨h'.updated, fun href => ?_⟩
    have hacc := h'.accounted
    subst href
    simpa [unaccounted] using hacc
  · rintro ⟨hnow, href⟩
    have hunknown := outcome_of_allows hallow h.outcome
    refine ⟨h.id, hnow, h.expires, h.nonce, fun hs => absurd hs hpending, fun hs => ?_,
      fun hacc hs => ?_, fun hcred => allows_uncredentialed _ _ hallow (h.early hcred),
      fun hs => h.late (allows_credentialed _ _ hallow ?_ hs),
      fun hobs => ⟨allows_observable _ _ hallow (h.observed hobs).1, (h.observed hobs).2⟩, ?_,
      h.artifact, h.expiry⟩
    · dsimp only at hs
      rw [hs, allows_prepared] at hallow
      cases hallow
    · have hfalse := href (allows_unaccounted _ _ hallow (h.accounted hacc) hs)
      rw [hfalse] at hacc
      cases hacc
    · simp [hdelivery, hreceipt, hsettled]
    · rw [hunknown]
      exact outcomeAllowed_unknown hsettled

theorem valid_requireApproval_iff (h : Valid P r) {nonce : String}
    (hallow : r.status.allows .approvalPending = true) :
    Valid P { r with approvalNonce := some nonce, status := .approvalPending, updatedAt := now } ↔
      r.createdAt ≤ now ∧ wellFormedNonce nonce = true := by
  constructor
  · exact fun h' => ⟨h'.updated, h'.nonce nonce rfl⟩
  · rintro ⟨hnow, hnonce⟩
    have hunknown := outcome_of_allows hallow h.outcome
    -- The two statuses with an approval before them have neither accounting nor credential.
    have hearly : r.status ∈ unaccounted ∧ r.status ∈ uncredentialed ∧ r.status ∉ observable := by
      revert hallow
      cases r.status <;> decide
    refine ⟨h.id, hnow, h.expires, fun n hn => ?_, fun _ => rfl, fun hs => (by cases hs),
      fun hacc _ => h.accounted hacc hearly.1, fun hcred _ => h.early hcred hearly.2.1,
      fun hs => (by simp [credentialed] at hs), fun hobs => absurd (h.observed hobs).1 hearly.2.2, ?_,
      h.artifact, h.expiry⟩
    · rw [← Option.some.inj hn]
      exact hnonce
    · rw [hunknown]
      rfl

theorem valid_later_iff (h : Valid P r) {credential : Option D}
    {observation : Option (HostObservation D)} {outcome : LedgerOutcome}
    (hnext : next ∈ [AuthorizationStatus.deliveryPending, .receiptObserved, .settled, .failed])
    (hlate : next ∈ credentialed → credential.isSome)
    (hobserved : observation.isSome → next ∈ observable ∧ credential.isSome) :
    Valid P { r with
      credentialDigest := credential, hostObservation := observation, ledgerOutcome := outcome,
      status := next, updatedAt := now } ↔
      r.createdAt ≤ now ∧ outcomeAllowed outcome next = true := by
  refine ⟨fun h' => ⟨h'.updated, h'.outcome⟩, ?_⟩
  rintro ⟨hnow, hout⟩
  have hbehind : next ≠ .approvalPending ∧ next ≠ .prepared ∧ next ∉ unaccounted ∧
      next ∉ uncredentialed := by
    revert hnext
    cases next <;> decide
  exact ⟨h.id, hnow, h.expires, h.nonce, fun hs => absurd hs hbehind.1,
    fun hs => absurd hs hbehind.2.1, fun _ => hbehind.2.2.1, fun _ => hbehind.2.2.2, hlate, hobserved,
    hout, h.artifact, h.expiry⟩

def ledgerOf : LedgerOutcome → ℕ
  | .unknown => 0
  | .settled ledger _ => ledger
  | .failed ledger _ => ledger

/-! ## Changes -/

/-- The record that a change leaves is valid under this condition. -/
def Change.Harmless (r : AuthorizationRecord D A) : Change D → Prop
  | .markReady now | .claimReady now | .markDeliveryPending _ now | .markAuthorized now
  | .markIndeterminate now | .markFailed now | .markAuthorizedWithheld now => r.createdAt ≤ now
  | .markApprovalPending nonce now => r.createdAt ≤ now ∧ wellFormedNonce nonce = true
  | .markPolicyAccounted => True
  | .markRefused now => r.createdAt ≤ now ∧ r.policyAccounted = false
  | .recordReceipt _ now => r.hostObservation = none → r.createdAt ≤ now
  | .recordLedgerOutcome outcome now =>
    r.ledgerOutcome = .unknown → outcome ≠ .unknown → r.createdAt ≤ now ∧ 0 < ledgerOf outcome

theorem transition_valid_iff (h : Valid P r)
    (hnext : next ∉ [AuthorizationStatus.approvalPending, .deliveryPending, .receiptObserved,
      .settled])
    (happly : r.transition next now = .ok r') :
    Valid P r' ↔ r.createdAt ≤ now ∧ (next = .refused → r.policyAccounted = false) := by
  obtain ⟨hallow, rfl⟩ := transition_eq_ok.1 happly
  exact valid_transition_iff h hallow hnext

theorem transition_valid_iff_le (h : Valid P r)
    (hnext : next ∉ [AuthorizationStatus.approvalPending, .deliveryPending, .receiptObserved,
      .settled, .refused])
    (happly : r.transition next now = .ok r') : Valid P r' ↔ r.createdAt ≤ now := by
  simp only [mem_cons, not_or] at hnext
  rw [transition_valid_iff h (by simp [hnext]) happly]
  simp [hnext]

/-- **One change.**  A change of a valid record leaves a valid record exactly when it is
harmless. -/
theorem apply_valid_iff [DecidableEq D] (h : Valid P r) (happly : change.apply P r = .ok r') :
    Valid P r' ↔ Change.Harmless r change := by
  cases change with
  | markApprovalPending nonce now =>
    obtain ⟨hallow, rfl⟩ := transition_eq_ok.1 happly
    exact valid_requireApproval_iff h hallow
  | claimReady now => exact transition_valid_iff_le h (by decide) (claimReady_eq_ok happly).2
  | markPolicyAccounted =>
    obtain ⟨hstatus, rfl⟩ := markPolicyAccounted_eq_ok happly
    refine ⟨fun _ => trivial, fun _ => ?_⟩
    exact ⟨h.id, h.updated, h.expires, h.nonce, h.pending, h.fresh,
      fun _ => by simp [hstatus, unaccounted], h.early, h.late, h.observed, h.outcome, h.artifact,
      h.expiry⟩
  | markDeliveryPending digest now =>
    obtain ⟨hallow, rfl⟩ := transition_eq_ok.1 happly
    have hunknown := outcome_of_allows hallow h.outcome
    have hearly : r.status ∉ observable := by
      revert hallow
      cases r.status <;> decide
    refine (valid_later_iff h (by decide) (fun _ => rfl)
      fun hobs => absurd (h.observed hobs).1 hearly).trans (and_iff_left ?_)
    rw [hunknown]
    rfl
  | markRefused now =>
    rw [transition_valid_iff h (by decide) happly]
    simp [Change.Harmless]
  | recordReceipt receipt now =>
    rcases recordReceipt_eq_ok happly with ⟨hobs, rfl⟩ | ⟨hobs, hobserve⟩
    · exact ⟨fun _ hnone => absurd hnone hobs, fun _ => h⟩
    · obtain ⟨hstatus, observation, rfl⟩ := observeReceipt_eq_ok hobserve
      have hallow : r.status.allows .receiptObserved = true := by
        rw [hstatus]
        rfl
      have hunknown := outcome_of_allows hallow h.outcome
      have hcred : r.credentialDigest.isSome := h.late (by rw [hstatus]; decide)
      refine (valid_later_iff h (by decide) (fun _ => hcred) fun _ => ⟨by decide, hcred⟩).trans ?_
      simp [Change.Harmless, hobs, hunknown, outcomeAllowed]
  | recordLedgerOutcome outcome now =>
    rcases recordLedgerOutcome_eq_ok happly with ⟨hsame, rfl⟩ | ⟨hunknown, ledger, at_, rfl, htr⟩ |
      ⟨hunknown, ledger, at_, rfl, htr⟩
    · exact ⟨fun _ hunknown hne => absurd hsame (by simp [hunknown, hne]), fun _ => h⟩
    · obtain ⟨hallow, rfl⟩ := transition_eq_ok.1 htr
      have hcred : r.credentialDigest.isSome := by
        refine h.late ?_
        revert hallow
        cases r.status <;> decide
      refine (valid_later_iff h (by decide) (fun _ => hcred) fun _ => ⟨by decide, hcred⟩).trans ?_
      simp [Change.Harmless, hunknown, ledgerOf, outcomeAllowed]
    · obtain ⟨-, rfl⟩ := transition_eq_ok.1 htr
      refine (valid_later_iff h (by decide) (fun hs => absurd hs (by decide))
        fun hobs => ⟨by decide, (h.observed hobs).2⟩).trans ?_
      simp [Change.Harmless, hunknown, ledgerOf, outcomeAllowed]
  | _ => exact transition_valid_iff_le h (by decide) happly

/-! ## All records -/

/-- Two records of one store: no identifier, fingerprint or nonce in common. -/
structure Apart (r s : AuthorizationRecord D A) : Prop where
  id : r.authorizationId ≠ s.authorizationId
  fingerprint : r.fingerprint ≠ s.fingerprint
  nonce : ∀ nonce, r.approvalNonce = some nonce → s.approvalNonce ≠ some nonce

theorem Apart.symm (h : Apart r s) : Apart s r :=
  ⟨h.id.symm, h.fingerprint.symm, fun nonce hs hr => h.nonce nonce hr hs⟩

instance : Std.Symm (Apart (D := D) (A := A)) := ⟨fun _ _ => Apart.symm⟩

/-- `Apart` looks at the identifier, the fingerprint and the nonce only. -/
theorem Apart.congr {s' : AuthorizationRecord D A} (h : Apart r s)
    (hr : r'.authorizationId = r.authorizationId ∧ r'.fingerprint = r.fingerprint ∧
      r'.approvalNonce = r.approvalNonce)
    (hs : s'.authorizationId = s.authorizationId ∧ s'.fingerprint = s.fingerprint ∧
      s'.approvalNonce = s.approvalNonce) :
    Apart r' s' := by
  refine ⟨?_, ?_, fun nonce hn => ?_⟩
  · rw [hr.1, hs.1]
    exact h.id
  · rw [hr.2.1, hs.2.1]
    exact h.fingerprint
  · rw [hs.2.2]
    exact h.nonce nonce (hr.2.2 ▸ hn)

structure RecordsOk (P : Primitives D A) (rs : List (AuthorizationRecord D A)) : Prop where
  valid : ∀ r ∈ rs, Valid P r
  apart : rs.Pairwise Apart

theorem not_seen_iff {seen : List (AuthorizationRecord D A)} :
    ¬ (r.authorizationId ∈ seen.map (·.authorizationId) ∨ r.fingerprint ∈ seen.map (·.fingerprint) ∨
      r.approvalNonce.any (· ∈ seen.flatMap fun s => s.approvalNonce.toList) = true) ↔
    ∀ s ∈ seen, Apart s r := by
  simp only [not_or, mem_map, not_exists, not_and, mem_flatMap, Option.any_eq_true,
    Option.mem_toList, decide_eq_true_eq]
  constructor
  · rintro ⟨hid, hfp, hnonce⟩ s hs
    exact ⟨hid s hs, hfp s hs, fun nonce hsn hrn => hnonce nonce hrn s hs hsn⟩
  · intro h
    exact ⟨fun s hs => (h s hs).id, fun s hs => (h s hs).fingerprint,
      fun nonce hrn s hs hsn => (h s hs).nonce nonce hsn hrn⟩

theorem checkRecords_eq_ok_iff [DecidableEq D] {u : Unit} :
    ∀ (rs seen : List (AuthorizationRecord D A)),
    checkRecords P (seen.map (·.authorizationId)) (seen.map (·.fingerprint))
      (seen.flatMap fun s => s.approvalNonce.toList) rs = .ok u ↔
    RecordsOk P rs ∧ ∀ r ∈ rs, ∀ s ∈ seen, Apart s r
  | [], seen => by
    simp only [checkRecords, not_mem_nil, IsEmpty.forall_iff, implies_true, and_true, true_iff]
    exact ⟨fun _ h => (by cases h), List.Pairwise.nil⟩
  | r :: rs, seen => by
    have ih := checkRecords_eq_ok_iff (u := u) rs (r :: seen)
    simp only [map_cons, flatMap_cons] at ih
    simp only [checkRecords, bind_eq_ok_iff, refuseIf_eq_ok_iff, exists_const, validate_eq_ok_iff,
      not_seen_iff]
    rw [ih]
    constructor
    · rintro ⟨hvalid, hr, hrs, hrest⟩
      refine ⟨⟨forall_mem_cons.2 ⟨hvalid, hrs.valid⟩, pairwise_cons.2
        ⟨fun s hs => hrest s hs r mem_cons_self, hrs.apart⟩⟩, forall_mem_cons.2
        ⟨hr, fun s hs t ht => hrest s hs t (mem_cons_of_mem _ ht)⟩⟩
    · rintro ⟨hok, hapart⟩
      obtain ⟨hvalid, hvalids⟩ := forall_mem_cons.1 hok.valid
      obtain ⟨hr, hrs⟩ := forall_mem_cons.1 hapart
      obtain ⟨hhead, htail⟩ := pairwise_cons.1 hok.apart
      exact ⟨hvalid, hr, ⟨hvalids, htail⟩, fun s hs => forall_mem_cons.2 ⟨hhead s hs, hrs s hs⟩⟩

/-- The snapshots that pass the checks behind the tag. -/
structure WireOk (P : Primitives D A) (wire : WireStore D A) : Prop where
  version : wire.version = 1 ∧ wire.generation = 0 ∨ wire.version = storeVersion ∧ 1 ≤ wire.generation
  size : wire.records.length ≤ maxTotalRecords
  records : RecordsOk P wire.records

theorem checkWire_eq_ok_iff [DecidableEq D] {wire wire' : WireStore D A} :
    checkWire P wire = .ok wire' ↔ WireOk P wire ∧ wire' = wire := by
  have hrecords := checkRecords_eq_ok_iff (P := P) (u := ()) wire.records []
  simp only [not_mem_nil, IsEmpty.forall_iff, implies_true, and_true] at hrecords
  unfold checkWire
  simp only [bind_eq_ok_iff, refuseIf_eq_ok_iff, exists_const]
  rw [not_or, not_not, not_lt]
  constructor
  · rintro ⟨⟨hversion, hsize⟩, ⟨⟩, hcheck, hwire⟩
    exact ⟨⟨hversion, hsize, hrecords.1 hcheck⟩, (Except.ok.inj hwire).symm⟩
  · rintro ⟨h, rfl⟩
    exact ⟨⟨h.version, h.size⟩, (), hrecords.2 h.records, rfl⟩

/-! ## Operations -/

/-- The records that an operation leaves are readable under this condition. -/
def Operation.Harmless (records : List (AuthorizationRecord D A)) : Operation D A → Prop
  | .insertPrepared record _ =>
    (∃ r ∈ records, r.fingerprint = record.fingerprint) ∨
    ∀ r ∈ records, r.authorizationId ≠ record.authorizationId ∧
      ∀ nonce, record.approvalNonce = some nonce → r.approvalNonce ≠ some nonce
  | .onRecord id change =>
    ∀ r ∈ records, r.authorizationId = id → Change.Harmless r change ∧
      ∀ nonce, newNonce change = some nonce → ∀ s ∈ records, s.authorizationId ≠ id →
        s.approvalNonce ≠ some nonce
  | .prune _ => True

theorem RecordsOk.append_singleton_iff (h : RecordsOk P rs) (hr : Valid P r) :
    RecordsOk P (rs ++ [r]) ↔ ∀ s ∈ rs, Apart s r := by
  constructor
  · intro h' s hs
    exact (pairwise_append.1 h'.apart).2.2 s hs r mem_cons_self
  · intro hapart
    exact ⟨forall_mem_append.2 ⟨h.valid, forall_mem_singleton.2 hr⟩,
      pairwise_append.2 ⟨h.apart, pairwise_singleton _ _, fun s hs =>
        forall_mem_singleton.2 (hapart s hs)⟩⟩

theorem recordsOk_middle_iff : RecordsOk P (l ++ r :: rest) ↔
      Valid P r ∧ (∀ s ∈ l ++ rest, Apart r s) ∧ RecordsOk P (l ++ rest) := by
  have hvalid : (∀ s ∈ l ++ r :: rest, Valid P s) ↔ Valid P r ∧ ∀ s ∈ l ++ rest, Valid P s := by
    simp only [forall_mem_append, forall_mem_cons]
    tauto
  have hapart : (l ++ r :: rest).Pairwise Apart ↔
      (∀ s ∈ l ++ rest, Apart r s) ∧ (l ++ rest).Pairwise Apart :=
    (pairwise_middle Apart.symm).trans pairwise_cons
  constructor
  · intro h
    exact ⟨(hvalid.1 h.valid).1, (hapart.1 h.apart).1, (hvalid.1 h.valid).2, (hapart.1 h.apart).2⟩
  · rintro ⟨hr, hhead, hrest⟩
    exact ⟨hvalid.2 ⟨hr, hrest.valid⟩, hapart.2 ⟨hhead, hrest.apart⟩⟩

theorem recordsOk_change_iff [DecidableEq D] (h : RecordsOk P (l ++ r :: rest))
    (happly : change.apply P r = .ok r') :
    RecordsOk P (l ++ r' :: rest) ↔ Change.Harmless r change ∧
      ∀ nonce, newNonce change = some nonce → ∀ s ∈ l ++ rest, s.approvalNonce ≠ some nonce := by
  obtain ⟨hr, hhead, hrest⟩ := recordsOk_middle_iff.1 h
  have hfollows := follows_of_apply happly
  have hnonce := approvalNonce_of_apply happly
  rw [recordsOk_middle_iff, apply_valid_iff hr happly, and_iff_left hrest]
  refine and_congr_right fun _ => ⟨fun happart nonce hnew s hs => ?_, fun hnew s hs => ?_⟩
  · refine (happart s hs).nonce nonce ?_
    rw [hnonce, hnew]
    rfl
  · refine ⟨?_, ?_, fun nonce hn => ?_⟩
    · rw [hfollows.id]
      exact (hhead s hs).id
    · rw [hfollows.fingerprint]
      exact (hhead s hs).fingerprint
    · rw [hnonce] at hn
      rcases hset : newNonce change with _ | set
      · rw [hset] at hn
        exact (hhead s hs).nonce nonce hn
      · rw [hset] at hn
        exact hnew nonce (hset.trans hn) s hs

theorem valid_expired (h : Valid P r) (now : Int64) : Valid P (expired now r) := by
  unfold expired
  split_ifs with hexpired
  · refine (valid_transition_iff h (expirable_allows _ hexpired.2) (by decide)).2
      ⟨Int64.le_trans h.expires hexpired.1, fun href => ?_⟩
    cases href
  · exact h

theorem RecordsOk.pruned (h : RecordsOk P rs) (now : Int64) : RecordsOk P (pruned now rs) := by
  refine ⟨fun r hr => ?_, List.Pairwise.filter _ (List.Pairwise.map _ (fun r s hrs => ?_) h.apart)⟩
  · obtain ⟨s, hs, rfl⟩ := mem_map.1 (mem_filter.1 hr).1
    exact valid_expired (h.valid s hs) now
  · have hnonce : ∀ t : AuthorizationRecord D A, (expired now t).approvalNonce = t.approvalNonce := by
      intro t
      unfold expired
      split_ifs <;> rfl
    exact hrs.congr ⟨(follows_expired now r).id, (follows_expired now r).fingerprint, hnonce r⟩
      ⟨(follows_expired now s).id, (follows_expired now s).fingerprint, hnonce s⟩

/-- **One operation.**  The records are readable afterwards exactly when it is harmless. -/
theorem update_recordsOk_iff [DecidableEq D] {wire wire' : WireStore D A}
    (h : RecordsOk P wire.records)
    (hinsert : ∀ record now, op = .insertPrepared record now → Valid P record)
    (hupdate : op.update P wire = .ok (answer, wire')) :
    RecordsOk P wire'.records ↔ Operation.Harmless wire.records op := by
  rcases update_cases hupdate with ⟨record, now, existing, rfl, hmem, hfp, -, -, -, rfl⟩ |
    ⟨record, now, rfl, hnew, -, -, rfl⟩ |
    ⟨id, change, l, r, rest, r', rfl, hrecords, -, hid, happly, -, rfl⟩ | ⟨now, count, rfl, -, rfl⟩
  · exact ⟨fun _ => .inl ⟨existing, hmem, hfp⟩, fun _ => h⟩
  · rw [h.append_singleton_iff (hinsert record now rfl)]
    constructor
    · intro hapart
      exact .inr fun r hr => ⟨(hapart r hr).id, fun nonce hn hr' => (hapart r hr).nonce nonce hr' hn⟩
    · rintro (⟨r, hr, hfp⟩ | hapart)
      · exact absurd hfp (hnew r hr)
      · exact fun r hr => ⟨(hapart r hr).1, hnew r hr, fun nonce hr' hn =>
          (hapart r hr).2 nonce hn hr'⟩
  · rw [hrecords] at h
    rw [recordsOk_change_iff h happly]
    obtain ⟨-, hhead, -⟩ := recordsOk_middle_iff.1 h
    -- Only this record has the identifier.
    have hne : ∀ s ∈ l ++ rest, s.authorizationId ≠ id :=
      fun s hs heq => (hhead s hs).id (hid.trans heq.symm)
    have hsplit : ∀ s, s ∈ wire.records ↔ s = r ∨ s ∈ l ++ rest := by
      rw [hrecords]
      simp only [mem_append, mem_cons]
      tauto
    constructor
    · rintro ⟨hharmless, hnonce⟩ s hs hsid
      rcases (hsplit s).1 hs with rfl | hs
      · exact ⟨hharmless, fun nonce hnew t ht htid =>
          hnonce nonce hnew t (((hsplit t).1 ht).resolve_left fun heq => htid (heq ▸ hid))⟩
      · exact absurd hsid (hne s hs)
    · intro hall
      obtain ⟨hharmless, hnonce⟩ := hall r ((hsplit r).2 (.inl rfl)) hid
      exact ⟨hharmless, fun nonce hnew s hs =>
        hnonce nonce hnew s ((hsplit s).2 (.inr hs)) (hne s hs)⟩
  · exact ⟨fun _ => trivial, fun _ => h.pruned now⟩

/-! ## Reading -/

section

variable {K T B : Type} {C : Codec D A K T B} {key : K} {disk : Disk K T B} {wire wire' : WireStore D A}

theorem checkKey_eq_ok_iff [DecidableEq K] {u : Unit} :
    checkKey C key disk = .ok u ↔ disk.key = some key ∧ C.refuseOwnerPublicKey key = .ok () := by
  unfold checkKey
  rcases hkey : disk.key with _ | current
  · simp
  · simp only [bind_eq_ok_iff, refuseIf_eq_ok_iff, not_not, Option.some.injEq]
    constructor
    · rintro ⟨⟨⟩, howner, rfl⟩
      exact ⟨rfl, howner⟩
    · rintro ⟨rfl, howner⟩
      exact ⟨(), howner, rfl⟩

theorem readAuthenticated_eq_ok_iff [DecidableEq D] [DecidableEq T] {file : Option (StateFile T B)} :
    readAuthenticated P C key file = .ok wire ↔
      ∃ tag body, file = some (.tagged tag body) ∧ hmacTagBytes + C.size body ≤ maxStoreBytes ∧
        tag = C.computeTag key body ∧ C.fromSlice body = some wire ∧ WireOk P wire := by
  rcases file with _ | _ | _ | ⟨tag, body⟩
  · simp [readAuthenticated]
  · simp [readAuthenticated]
  · simp [readAuthenticated]
  · simp only [readAuthenticated, Option.some.injEq, StateFile.tagged.injEq]
    split_ifs with hsize htag
    · simp [not_le.2 hsize]
    · simp [htag]
    · rcases hslice : C.fromSlice body with _ | found
      · simp [hslice]
      · rw [checkWire_eq_ok_iff]
        constructor
        · rintro ⟨hok, rfl⟩
          exact ⟨tag, body, ⟨rfl, rfl⟩, not_lt.1 hsize, not_not.1 htag, hslice, hok⟩
        · rintro ⟨_, _, ⟨rfl, rfl⟩, -, -, hslice', hok⟩
          obtain rfl := Option.some.inj (hslice.symm.trans hslice')
          exact ⟨hok, rfl⟩

/-! ## Publications -/

variable {steps : List (Step K T B)}

/-- The snapshot that follows `wire`. -/
def following (wire wire' : WireStore D A) : WireStore D A :=
  { wire' with generation := wire.generation + 1 }

def publication (C : Codec D A K T B) (key : K) (wire : WireStore D A) : List (Step K T B) :=
  [.generation wire.generation, .temporary (fileOf C key wire), .persist (fileOf C key wire)]

theorem writeAtomic_eq_ok {expected : Option ℕ}
    (h : writeAtomic C key wire expected disk = .ok steps) :
    C.size (C.toVec wire) ≤ maxStoreBytes ∧ disk.counter = expected ∧
      steps = publication C key wire := by
  unfold writeAtomic at h
  simp only [bind_eq_ok_iff, refuseIf_eq_ok_iff, exists_const, not_lt, not_not] at h
  obtain ⟨hsize, hcounter, hsteps⟩ := h
  exact ⟨hsize, hcounter, (Except.ok.inj hsteps).symm⟩

/-! ## Mutations -/

variable [DecidableEq D] [DecidableEq K] [DecidableEq T]

/-- What `read_verified` returns: an empty store before the first write, or the snapshot of the
counter's generation. -/
theorem readVerified_eq_ok_iff : readVerified P C key disk = .ok wire ↔
      (disk.key = some key ∧ C.refuseOwnerPublicKey key = .ok ()) ∧
      (disk.file = none ∧ disk.counter = some 0 ∧ wire = ⟨storeVersion, 0, []⟩ ∨
        ∃ file, disk.file = some file ∧ readAuthenticated P C key (some file) = .ok wire ∧
          disk.counter = some wire.generation ∧ wire.version = storeVersion ∧
            0 < wire.generation) := by
  unfold readVerified
  simp only [bind_eq_ok_iff, checkKey_eq_ok_iff, exists_const]
  refine and_congr_right fun _ => ?_
  unfold readSnapshot
  rcases hfile : disk.file with _ | file
  · rcases hcounter : disk.counter with _ | _ | n
    · simp
    · simp [eq_comm]
    · simp
  · simp only [bind_eq_ok_iff, reduceCtorEq, false_and, Option.some.injEq, false_or]
    constructor
    · rintro ⟨found, hread, hrest⟩
      rcases hcounter : disk.counter with _ | generation
      · rw [hcounter] at hrest
        cases hrest
      · rw [hcounter] at hrest
        dsimp only at hrest
        split_ifs at hrest with hbad
        obtain rfl := Except.ok.inj hrest
        simp only [not_or, not_not] at hbad
        exact ⟨file, rfl, hread, by rw [hbad.2.1], hbad.1, by omega⟩
    · rintro ⟨_, rfl, hread, hcounter, hversion, hpos⟩
      refine ⟨wire, hread, ?_⟩
      rw [hcounter]
      dsimp only
      rw [if_neg]
      simp only [not_or, not_not]
      exact ⟨hversion, trivial, by omega⟩

/-- **What a mutation does** when it answers. -/
structure Mutation (P : Primitives D A) (C : Codec D A K T B) (key : K) (op : Operation D A)
    (disk : Disk K T B) (answer : Answer D A) (steps : List (Step K T B))
    (wire wire' : WireStore D A) : Prop where
  read : readVerified P C key disk = .ok wire
  update : op.update P wire = .ok (answer, wire')
  size : C.size (C.toVec (following wire wire')) ≤ maxStoreBytes
  counter : disk.counter = some wire.generation
  steps : steps = publication C key (following wire wire')

/-- A mutation is refused and writes nothing, or it publishes the next snapshot. -/
theorem mutate_cases (P : Primitives D A) (C : Codec D A K T B) (key : K) (op : Operation D A)
    (disk : Disk K T B) : (∃ e, mutate P C key op disk = ⟨[], .error e⟩) ∨
    ∃ answer steps wire wire', mutate P C key op disk = ⟨steps, .ok answer⟩ ∧
      Mutation P C key op disk answer steps wire wire' := by
  unfold mutate
  rcases hnext : nextSnapshot P C key op disk with e | ⟨answer, next, generation⟩
  · exact .inl ⟨e, rfl⟩
  rcases hwrite : writeAtomic C key next (some generation) disk with e | steps
  · simp only [hwrite]
    exact .inl ⟨e, rfl⟩
  · simp only [hwrite]
    unfold nextSnapshot at hnext
    simp only [bind_eq_ok_iff, refuseIf_eq_ok_iff, exists_const] at hnext
    obtain ⟨-, -, wire, hread, ⟨_, wire'⟩, hupdate, -, hpure⟩ := hnext
    cases hpure
    obtain ⟨hsize, hcounter, hsteps⟩ := writeAtomic_eq_ok hwrite
    exact .inr ⟨_, steps, wire, wire', rfl, hread, hupdate, hsize, hcounter, hsteps⟩

theorem update_frame (h : op.update P wire = .ok (answer, wire')) : wire'.version = wire.version ∧
      (wire.records.length ≤ maxTotalRecords → wire'.records.length ≤ maxTotalRecords) := by
  rcases update_cases h with ⟨_, _, _, -, -, -, -, -, -, rfl⟩ | ⟨record, _, -, -, hlen, -, rfl⟩ |
    ⟨_, _, l, r, rest, r', -, hrecords, -, -, -, -, rfl⟩ | ⟨now, _, -, -, rfl⟩
  · exact ⟨rfl, id⟩
  · refine ⟨rfl, fun _ => ?_⟩
    simp only [length_append, length_singleton]
    omega
  · refine ⟨rfl, fun hsize => ?_⟩
    rw [hrecords] at hsize
    simp only [length_append] at hsize ⊢
    exact hsize
  · refine ⟨rfl, fun hsize => ?_⟩
    have hle := length_filter_le (retained now) (wire.records.map (expired now))
    rw [length_map] at hle
    exact hle.trans hsize

theorem recordsOk_of_read (h : readVerified P C key disk = .ok wire) :
    wire.version = storeVersion ∧ wire.records.length ≤ maxTotalRecords ∧
      RecordsOk P wire.records := by
  obtain ⟨-, ⟨-, -, rfl⟩ | ⟨file, -, hread, -, hversion, -⟩⟩ := readVerified_eq_ok_iff.1 h
  · exact ⟨rfl, Nat.zero_le _, fun _ hr => (by cases hr), List.Pairwise.nil⟩
  · obtain ⟨_, _, -, -, -, -, hok⟩ := readAuthenticated_eq_ok_iff.1 hread
    exact ⟨hversion, hok.size, hok.records⟩

/-- The file of the next snapshot has room for its tag. -/
def Fits (P : Primitives D A) (C : Codec D A K T B) (op : Operation D A) (wire : WireStore D A) :
    Prop :=
  ∀ answer wire', op.update P wire = .ok (answer, wire') →
    hmacTagBytes + C.size (C.toVec (following wire wire')) ≤ maxStoreBytes

theorem Mutation.readable_iff (hC : C.Lawful) {op : Operation D A} {answer : Answer D A}
    {steps : List (Step K T B)} (h : Mutation P C key op disk answer steps wire wire')
    (hinsert : ∀ record now, op = .insertPrepared record now → record.validate P = .ok ()) :
    (∃ next, readVerified P C key (steps.foldl Disk.apply disk) = .ok next) ↔
      Operation.Harmless wire.records op ∧ Fits P C op wire := by
  obtain ⟨hversion, hsize, hrecords⟩ := recordsOk_of_read h.read
  obtain ⟨hversion', hsize'⟩ := update_frame h.update
  rw [← update_recordsOk_iff hrecords
    (fun record now hop => validate_eq_ok_iff.1 (hinsert record now hop)) h.update]
  rw [h.steps]
  have hkey := (readVerified_eq_ok_iff.1 h.read).1
  have hfits : Fits P C op wire ↔
      hmacTagBytes + C.size (C.toVec (following wire wire')) ≤ maxStoreBytes := by
    refine ⟨fun hroom => hroom answer wire' h.update, fun hroom answer₁ wire₁ hupdate => ?_⟩
    rw [h.update] at hupdate
    cases hupdate
    exact hroom
  rw [hfits]
  constructor
  · rintro ⟨next, hnext⟩
    obtain ⟨-, ⟨hnone, -⟩ | ⟨file, hfile, hauth, -⟩⟩ := readVerified_eq_ok_iff.1 hnext
    · cases hnone
    · obtain ⟨tag, body, hfile', hbody, -, hslice, hok⟩ := readAuthenticated_eq_ok_iff.1 hauth
      cases hfile
      cases hfile'
      rw [hC] at hslice
      obtain rfl := Option.some.inj hslice
      exact ⟨hok.records, hbody⟩
  · rintro ⟨hok, hbody⟩
    refine ⟨following wire wire', readVerified_eq_ok_iff.2 ⟨hkey, .inr ⟨_, rfl, ?_, rfl, ?_, ?_⟩⟩⟩
    · refine readAuthenticated_eq_ok_iff.2 ⟨_, _, rfl, hbody, rfl, hC _, .inr ⟨?_, ?_⟩, hsize' hsize,
        hok⟩
      · exact hversion'.trans hversion
      · exact Nat.succ_le_succ (Nat.zero_le _)
    · exact hversion'.trans hversion
    · exact Nat.succ_pos _

/-- **When the store can be read again.**  A mutation of a readable store answers and completes its
write.  The store can be read again exactly when the operation is harmless on the records it found
and the file fits the limit with its tag. -/
theorem readable_iff_harmless (hC : C.Lawful) {op : Operation D A} {answer : Answer D A}
    {steps : List (Step K T B)} (hread : readVerified P C key disk = .ok wire)
    (hinsert : ∀ record now, op = .insertPrepared record now → record.validate P = .ok ())
    (hmutate : mutate P C key op disk = ⟨steps, .ok answer⟩) :
    (∃ next, readVerified P C key (steps.foldl Disk.apply disk) = .ok next) ↔
      Operation.Harmless wire.records op ∧ Fits P C op wire := by
  obtain ⟨e, hrefused⟩ | ⟨_, _, wire₀, wire', hanswer, hmut⟩ := mutate_cases P C key op disk
  · cases hrefused.symm.trans hmutate
  cases hanswer.symm.trans hmutate
  obtain rfl : wire = wire₀ := Except.ok.inj (hread.symm.trans hmut.read)
  exact hmut.readable_iff hC hinsert

/-- The call inserts only valid records, and is harmless on what it finds. -/
def Safe (P : Primitives D A) (C : Codec D A K T B) (key : K) (disk : Disk K T B)
    (op : Operation D A) : Prop :=
  (∀ record now, op = .insertPrepared record now → record.validate P = .ok ()) ∧
    ∀ wire, readVerified P C key disk = .ok wire →
      Operation.Harmless wire.records op ∧ Fits P C op wire

end

/-! ## A clock that was set back -/

/-- A hash for which every fingerprint has the same text. -/
def primitivesOf (sha256 : List (Framing.Sym D) → D) : Primitives D Unit where
  sha256 := sha256
  hex _ := "0123456789abcdef0123456789abcdef0123456789abcdef0123456789abcdef"
  encodes _ := true
  revalidates _ := true

/-- Snapshots stand for their texts, and a tag is the key. -/
def plainCodec : Codec D Unit ℕ ℕ (WireStore D Unit) where
  toVec := id
  fromSlice := some
  size _ := 1000
  computeTag key _ := key
  refuseOwnerPublicKey _ := .ok ()

theorem plainCodec_lawful : (plainCodec (D := D)).Lawful := fun _ => rfl

/-- A charge that expires at `2000`. -/
def chargeOf (digest : D) : PreparedCharge D Unit where
  selected := ⟨none, "1", "native", "G", .ok digest, 2000, digest⟩
  payer := "G"
  artifact := ()
  artifactHash := digest

/-- A record of the charge that was prepared at `1000`. -/
def recordOf (digest fingerprint : D) : AuthorizationRecord D Unit where
  authorizationId := "mpp_0123456789abcdef0123456789abcdef"
  fingerprint := fingerprint
  status := .prepared
  createdAt := 1000
  updatedAt := 1000
  expiresAt := 2000
  prepared := chargeOf digest
  approvalNonce := none
  credentialDigest := none
  hostObservation := none
  ledgerOutcome := .unknown
  policyAccounted := false

def plainPrimitives : Primitives ℕ Unit := primitivesOf fun _ => 0

def preparedAtThousand : AuthorizationRecord ℕ Unit := recordOf 0 0

def storeOfOne : Disk ℕ ℕ (WireStore ℕ Unit) :=
  ⟨some 7, some 1, some (fileOf plainCodec 7 ⟨storeVersion, 1, [preparedAtThousand]⟩)⟩

def makeReady (now : Int64) : Operation ℕ Unit :=
  .onRecord "mpp_0123456789abcdef0123456789abcdef" (.markReady now)

def afterReady (now : Int64) : Disk ℕ ℕ (WireStore ℕ Unit) :=
  (mutate plainPrimitives plainCodec 7 (makeReady now) storeOfOne).steps.foldl Disk.apply storeOfOne

theorem read_storeOfOne : readVerified plainPrimitives plainCodec 7 storeOfOne =
    .ok ⟨storeVersion, 1, [preparedAtThousand]⟩ := rfl

theorem safe_makeReady : Safe plainPrimitives plainCodec 7 storeOfOne (makeReady 1001) := by
  refine ⟨fun _ _ h => (by cases h), fun wire hread => ?_⟩
  cases read_storeOfOne.symm.trans hread
  refine ⟨fun r hr _ => ⟨?_, fun nonce h => (by cases h)⟩, fun _ _ _ => ?_⟩
  · rw [mem_singleton.1 hr]
    show (1000 : Int64) ≤ 1001
    decide
  · show 32 + 1000 ≤ maxStoreBytes
    decide

/-- The record is made ready at `1001`, and the store can be read. -/
theorem readable_after_ready :
    ∃ next, readVerified plainPrimitives plainCodec 7 (afterReady 1001) = .ok next := by
  have hmutate : mutate plainPrimitives plainCodec 7 (makeReady 1001) storeOfOne =
      ⟨(mutate plainPrimitives plainCodec 7 (makeReady 1001) storeOfOne).steps,
        .ok (.record { preparedAtThousand with status := .ready, updatedAt := 1001 })⟩ := rfl
  exact (readable_iff_harmless plainCodec_lawful read_storeOfOne safe_makeReady.1 hmutate).2
    (safe_makeReady.2 _ read_storeOfOne)

/-- The record is made ready at `999`, before it was prepared: the call answers, and the store
cannot be read any more. -/
theorem unreadable_after_ready :
    (readVerified plainPrimitives plainCodec 7 storeOfOne).isOk = true ∧
    (mutate plainPrimitives plainCodec 7 (makeReady 999) storeOfOne).answer.isOk = true ∧
    (readVerified plainPrimitives plainCodec 7 (afterReady 999)).isOk = false := by
  decide +kernel

end AgentWallet.Mpp.Readable
