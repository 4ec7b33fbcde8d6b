import AgentWallet.Mpp.Store

/-!
# What the operations do

One inversion for each change of a record that answered, and one for the operations
(`update_cases`): which records there were, which there are, and what was checked.
-/

namespace AgentWallet.Mpp.Operations

open Base.Checks Base.Saturating Mpp.Record Mpp.Store Mpp.Record.AuthorizationRecord List

variable {D A : Type} {P : Primitives D A} {r r' : AuthorizationRecord D A}
  {now : Int64} {receipt : PaymentReceipt D} {change : Change D}

/-! ## Changes of one record -/

theorem claimReady_eq_ok (h : Store.claimReady now r = .ok r') :
    minChallengeLifetimeSecs ≤ subI64 r.expiresAt.toInt now.toInt ∧
      r.transition .authorizing now = .ok r' := by
  unfold Store.claimReady at h
  split_ifs at h with hlt
  exact ⟨not_lt.1 hlt, h⟩

theorem markPolicyAccounted_eq_ok (h : Store.markPolicyAccounted r = .ok r') :
    r.status = .authorizing ∧ r' = { r with policyAccounted := true } := by
  unfold Store.markPolicyAccounted at h
  split_ifs at h with hstatus
  exact ⟨not_not.1 hstatus, (Except.ok.inj h).symm⟩

theorem observeReceipt_eq_ok (h : observeReceipt P receipt now r = .ok r') :
    r.status = .authorized ∧ ∃ observation, r' = { r with
      hostObservation := some observation, status := .receiptObserved, updatedAt := now } := by
  unfold observeReceipt at h
  simp only [bind_eq_ok_iff, refuseIf_eq_ok_iff, exists_const] at h
  obtain ⟨hstatus, -, -, -, htransition⟩ := h
  obtain ⟨-, rfl⟩ := transition_eq_ok.1 htransition
  exact ⟨not_not.1 hstatus, _, rfl⟩

theorem recordReceipt_eq_ok [DecidableEq D] (h : Store.recordReceipt P receipt now r = .ok r') :
    (r.hostObservation ≠ none ∧ r' = r) ∨
    (r.hostObservation = none ∧ observeReceipt P receipt now r = .ok r') := by
  unfold Store.recordReceipt at h
  rcases hobs : r.hostObservation with _ | existing
  · rw [hobs] at h
    exact .inr ⟨rfl, h⟩
  · rw [hobs] at h
    dsimp only at h
    split_ifs at h
    exact .inl ⟨by simp, (Except.ok.inj h).symm⟩

theorem recordLedgerOutcome_eq_ok {outcome : LedgerOutcome}
    (h : Store.recordLedgerOutcome outcome now r = .ok r') :
    ((r.ledgerOutcome ≠ .unknown ∨ outcome = .unknown) ∧ r' = r) ∨
    (r.ledgerOutcome = .unknown ∧ (∃ ledger at_, outcome = .settled ledger at_ ∧
      { r with ledgerOutcome := outcome }.transition .settled now = .ok r')) ∨
    (r.ledgerOutcome = .unknown ∧ ∃ ledger at_, outcome = .failed ledger at_ ∧
      { r with ledgerOutcome := outcome }.transition .failed now = .ok r') := by
  unfold Store.recordLedgerOutcome at h
  split_ifs at h with hknown hsame
  · exact .inl ⟨.inl hknown, (Except.ok.inj h).symm⟩
  · have hunknown := not_not.1 hknown
    cases outcome with
    | unknown => exact .inl ⟨.inr rfl, (Except.ok.inj h).symm⟩
    | settled ledger at_ => exact .inr (.inl ⟨hunknown, ledger, at_, rfl, h⟩)
    | failed ledger at_ => exact .inr (.inr ⟨hunknown, ledger, at_, rfl, h⟩)

/-- What no change touches, and how the status moves. -/
structure Follows (r r' : AuthorizationRecord D A) : Prop where
  id : r'.authorizationId = r.authorizationId
  fingerprint : r'.fingerprint = r.fingerprint
  createdAt : r'.createdAt = r.createdAt
  expiresAt : r'.expiresAt = r.expiresAt
  prepared : r'.prepared = r.prepared
  status : r'.status = r.status ∨ r.status.allows r'.status = true

theorem Follows.refl (r : AuthorizationRecord D A) : Follows r r :=
  ⟨rfl, rfl, rfl, rfl, rfl, .inl rfl⟩

theorem follows_of_transition {next : AuthorizationStatus} (h : r.transition next now = .ok r') :
    Follows r r' := by
  obtain ⟨hallow, rfl⟩ := transition_eq_ok.1 h
  exact ⟨rfl, rfl, rfl, rfl, rfl, .inr hallow⟩

theorem follows_of_apply [DecidableEq D] (h : change.apply P r = .ok r') : Follows r r' := by
  cases change with
  | claimReady now => exact follows_of_transition (claimReady_eq_ok h).2
  | markPolicyAccounted =>
    obtain ⟨-, rfl⟩ := markPolicyAccounted_eq_ok h
    exact ⟨rfl, rfl, rfl, rfl, rfl, .inl rfl⟩
  | markApprovalPending nonce now | markDeliveryPending digest now =>
    obtain ⟨hallow, rfl⟩ := transition_eq_ok.1 h
    exact ⟨rfl, rfl, rfl, rfl, rfl, .inr hallow⟩
  | recordReceipt receipt now =>
    rcases recordReceipt_eq_ok h with ⟨-, rfl⟩ | ⟨-, hobserve⟩
    · exact .refl _
    · obtain ⟨hstatus, observation, rfl⟩ := observeReceipt_eq_ok hobserve
      exact ⟨rfl, rfl, rfl, rfl, rfl, .inr (by rw [hstatus]; rfl)⟩
  | recordLedgerOutcome outcome now =>
    rcases recordLedgerOutcome_eq_ok h with ⟨-, rfl⟩ | ⟨-, _, _, -, htr⟩ | ⟨-, _, _, -, htr⟩
    · exact .refl _
    all_goals
      obtain ⟨hallow, rfl⟩ := transition_eq_ok.1 htr
      exact ⟨rfl, rfl, rfl, rfl, rfl, .inr hallow⟩
  | _ => exact follows_of_transition h

def newNonce : Change D → Option String
  | .markApprovalPending nonce _ => some nonce
  | _ => none

theorem approvalNonce_of_apply [DecidableEq D] (h : change.apply P r = .ok r') :
    r'.approvalNonce = (newNonce change).or r.approvalNonce := by
  cases change with
  | claimReady now =>
    obtain ⟨-, rfl⟩ := transition_eq_ok.1 (claimReady_eq_ok h).2
    rfl
  | markPolicyAccounted =>
    obtain ⟨-, rfl⟩ := markPolicyAccounted_eq_ok h
    rfl
  | recordReceipt receipt now =>
    rcases recordReceipt_eq_ok h with ⟨-, rfl⟩ | ⟨-, hobserve⟩
    · rfl
    · obtain ⟨-, observation, rfl⟩ := observeReceipt_eq_ok hobserve
      rfl
  | recordLedgerOutcome outcome now =>
    rcases recordLedgerOutcome_eq_ok h with ⟨-, rfl⟩ | ⟨-, _, _, -, htr⟩ | ⟨-, _, _, -, htr⟩
    · rfl
    all_goals
      obtain ⟨-, rfl⟩ := transition_eq_ok.1 htr
      rfl
  | _ =>
    obtain ⟨-, rfl⟩ := transition_eq_ok.1 h
    rfl

/-! ## The records -/

theorem updateFirst_eq_ok {id : String} {onMissing : MppError}
    {update : AuthorizationRecord D A → Except MppError (AuthorizationRecord D A)} :
    ∀ {rs rs' : List (AuthorizationRecord D A)},
      updateFirst id onMissing update rs = .ok (r', rs') →
      ∃ l r rest, rs = l ++ r :: rest ∧ (∀ s ∈ l, s.authorizationId ≠ id) ∧
        r.authorizationId = id ∧ update r = .ok r' ∧ rs' = l ++ r' :: rest
  | [], _, h => by cases h
  | r :: rs, rs', h => by
    unfold updateFirst at h
    split_ifs at h with hid
    · obtain ⟨found, hupdate, hpure⟩ := bind_eq_ok_iff.1 h
      cases hpure
      exact ⟨[], r, rs, rfl, fun _ hs => (by cases hs), hid, hupdate, rfl⟩
    · obtain ⟨⟨found, tail⟩, hrest, hpure⟩ := bind_eq_ok_iff.1 h
      cases hpure
      obtain ⟨l, s, rest, rfl, hl, hs, hupdate, rfl⟩ := updateFirst_eq_ok hrest
      exact ⟨r :: l, s, rest, rfl, forall_mem_cons.2 ⟨hid, hl⟩, hs, hupdate, rfl⟩

/-- A record behind `prune`'s first loop. -/
def expired (now : Int64) (r : AuthorizationRecord D A) : AuthorizationRecord D A :=
  if r.expiresAt ≤ now ∧ r.status ∈ expirable then
    { r with status := .expiredUnresolved, updatedAt := now }
  else r

theorem expirable_allows : ∀ s ∈ expirable, s.allows .expiredUnresolved = true := by
  decide

theorem expireRecord_eq_ok (now : Int64) (r : AuthorizationRecord D A) :
    expireRecord now r = .ok (expired now r) := by
  unfold expireRecord expired
  split_ifs with h
  · exact transition_eq_ok.2 ⟨expirable_allows _ h.2, rfl⟩
  · rfl

theorem follows_expired (now : Int64) (r : AuthorizationRecord D A) : Follows r (expired now r) := by
  unfold expired
  split_ifs with h
  · exact ⟨rfl, rfl, rfl, rfl, rfl, .inr (expirable_allows _ h.2)⟩
  · exact .refl r

theorem mapM_expireRecord (now : Int64) : ∀ rs : List (AuthorizationRecord D A),
    rs.mapM (expireRecord now) = .ok (rs.map (expired now))
  | [] => rfl
  | r :: rs => by
    rw [mapM_cons, expireRecord_eq_ok, mapM_expireRecord now rs]
    rfl

/-- The records that `prune` keeps. -/
def pruned (now : Int64) (rs : List (AuthorizationRecord D A)) : List (AuthorizationRecord D A) :=
  (rs.map (expired now)).filter (retained now)

/-- **What an operation does.** -/
theorem update_cases [DecidableEq D] {op : Operation D A} {wire wire' : WireStore D A}
    {answer : Answer D A} (h : op.update P wire = .ok (answer, wire')) :
    (∃ record now existing, op = .insertPrepared record now ∧ existing ∈ wire.records ∧
      existing.fingerprint = record.fingerprint ∧ existing.status ∈ unclaimed ∧
      now ≤ existing.expiresAt ∧ answer = .record existing ∧ wire' = wire) ∨
    (∃ record now, op = .insertPrepared record now ∧
      (∀ r ∈ wire.records, r.fingerprint ≠ record.fingerprint) ∧
      wire.records.length < maxTotalRecords ∧ answer = .record record ∧
      wire' = { wire with records := wire.records ++ [record] }) ∨
    (∃ id change l r rest r', op = .onRecord id change ∧ wire.records = l ++ r :: rest ∧
      (∀ s ∈ l, s.authorizationId ≠ id) ∧ r.authorizationId = id ∧ change.apply P r = .ok r' ∧
      answer = .record r' ∧ wire' = { wire with records := l ++ r' :: rest }) ∨
    ∃ now count, op = .prune now ∧ answer = .pruned count ∧
      wire' = { wire with records := pruned now wire.records } := by
  cases op with
  | insertPrepared record now =>
    obtain ⟨⟨found, wire''⟩, hinsert, hpure⟩ := bind_eq_ok_iff.1 h
    cases hpure
    unfold Store.insertPrepared at hinsert
    rcases hfind : wire.records.find? (fun e => e.fingerprint = record.fingerprint) with _ | existing
    · rw [hfind] at hinsert
      split_ifs at hinsert with hactive htotal
      cases hinsert
      refine .inr (.inl ⟨record, now, rfl, fun r hr heq => ?_, not_le.1 htotal, rfl, rfl⟩)
      exact absurd (List.find?_eq_none.1 hfind r hr) (by simpa using heq)
    · rw [hfind] at hinsert
      dsimp only at hinsert
      split_ifs at hinsert with hlive
      cases hinsert
      exact .inl ⟨record, now, found, rfl, mem_of_find?_eq_some hfind,
        by simpa using List.find?_some hfind, hlive.1, hlive.2, rfl, rfl⟩
  | onRecord id change =>
    obtain ⟨⟨found, records⟩, hupdate, hpure⟩ := bind_eq_ok_iff.1 h
    cases hpure
    obtain ⟨l, r, rest, hrecords, hl, hr, happly, hnew⟩ := updateFirst_eq_ok hupdate
    exact .inr (.inr (.inl ⟨id, change, l, r, rest, found, rfl, hrecords, hl, hr, happly, rfl,
      by rw [hnew]⟩))
  | prune now =>
    obtain ⟨⟨count, wire''⟩, hprune, hpure⟩ := bind_eq_ok_iff.1 h
    cases hpure
    unfold Store.prune at hprune
    rw [mapM_expireRecord] at hprune
    cases hprune
    exact .inr (.inr (.inr ⟨now, _, rfl, rfl, rfl⟩))

end AgentWallet.Mpp.Operations
