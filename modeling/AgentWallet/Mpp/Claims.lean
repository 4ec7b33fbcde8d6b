import AgentWallet.Mpp.Snapshots

/-!
# At most one claim

A claimed authorization never goes back to a status before its claim.  It leaves the store only when
`prune` finds it expired for longer than the retention time, and the fingerprint fixes the expiry:
an identical record that is inserted again is expired as well, and `claim_ready` refuses it.
-/

namespace AgentWallet.Mpp.Claims

open Base.Checks Base.Framing Base.Runs Base.Saturating Mpp.Record Mpp.Store Mpp.Operations List
open Mpp.Readable Mpp.Snapshots Mpp.Record.AuthorizationRecord

variable {D A K T B : Type} {P : Primitives D A}
  {r r' : AuthorizationRecord D A} {clock clock' : ℤ} {before : List AuthorizationStatus}
  {records : List (AuthorizationRecord D A)} {fingerprint : D} {now : Int64} {change : Change D}
  {op : Operation D A} {wire wire' : WireStore D A} {kind : Change D → Bool} {key : K}
  {profileName networkPassphrase : String} {answer : Answer D A}

/-! ## Fingerprints and expiry -/

/-- The fingerprint is that of the prepared charge, and so is the expiry. -/
def Bound (P : Primitives D A) (r : AuthorizationRecord D A) : Prop :=
  r.expiresAt = r.prepared.selected.effectiveExpiresAt ∧ ∃ profileName networkPassphrase,
    authorizationFingerprint P profileName networkPassphrase r.prepared.payer r.prepared.selected =
      .ok r.fingerprint

theorem fingerprint_eq_ok {payer : String} {selected : SelectedChallenge D}
    (h : authorizationFingerprint P profileName networkPassphrase payer selected = .ok fingerprint) :
    ∃ message, fingerprint = P.sha256 (message ++ i64Bytes selected.effectiveExpiresAt) := by
  obtain ⟨context, -, hpure⟩ := bind_eq_ok_iff.1 h
  exact ⟨_, (Except.ok.inj hpure).symm⟩

/-- **The fingerprint fixes the expiry.** -/
theorem expiresAt_eq (hsha : P.sha256.Injective) {s : AuthorizationRecord D A}
    (hr : Bound P r) (hs : Bound P s) (h : r.fingerprint = s.fingerprint) :
    r.expiresAt = s.expiresAt := by
  obtain ⟨hre, _, _, hrf⟩ := hr
  obtain ⟨hse, _, _, hsf⟩ := hs
  obtain ⟨m, hm⟩ := fingerprint_eq_ok hrf
  obtain ⟨n, hn⟩ := fingerprint_eq_ok hsf
  have heq : m ++ i64Bytes r.prepared.selected.effectiveExpiresAt =
      n ++ i64Bytes s.prepared.selected.effectiveExpiresAt := hsha (by rw [← hm, ← hn, h])
  rw [hre, hse]
  exact (append_i64Bytes_inj heq).2

/-- What a prepare inserts: a new record, as it is, ready, or waiting for an approval. -/
def FromPrepare (P : Primitives D A) (record : AuthorizationRecord D A) : Prop :=
  ∃ profileName networkPassphrase prepared now r,
    new P profileName networkPassphrase prepared now = .ok r ∧
    (record = r ∨ (∃ now', r.allowCommit now' = .ok record) ∨
      ∃ nonce now', r.requireApproval nonce now' = .ok record)

theorem bound_of_new {prepared : PreparedCharge D A}
    (h : new P profileName networkPassphrase prepared now = .ok r) :
    Bound P r ∧ r.status = .prepared := by
  unfold new at h
  simp only [bind_eq_ok_iff, refuseIf_eq_ok_iff, exists_const] at h
  obtain ⟨fingerprint, hfp, -, hpure⟩ := h
  obtain rfl := Except.ok.inj hpure
  exact ⟨⟨rfl, profileName, networkPassphrase, hfp⟩, rfl⟩

theorem FromPrepare.bound {record : AuthorizationRecord D A} (h : FromPrepare P record) :
    Bound P record ∧ record.status ∈ unclaimed := by
  obtain ⟨profileName, networkPassphrase, prepared, now, r, hnew, hrecord⟩ := h
  obtain ⟨hbound, hstatus⟩ := bound_of_new hnew
  rcases hrecord with rfl | ⟨now', hallow⟩ | ⟨nonce, now', hrequire⟩
  · exact ⟨hbound, by rw [hstatus]; decide⟩
  · obtain ⟨-, rfl⟩ := transition_eq_ok.1 hallow
    exact ⟨hbound, by simp [unclaimed]⟩
  · obtain ⟨-, rfl⟩ := transition_eq_ok.1 hrequire
    exact ⟨hbound, by simp [unclaimed]⟩

theorem Bound.follows (h : Bound P r) (hf : Follows r r') : Bound P r' := by
  obtain ⟨hexp, profileName, networkPassphrase, hfp⟩ := h
  refine ⟨?_, profileName, networkPassphrase, ?_⟩
  · rw [hf.expiresAt, hf.prepared]
    exact hexp
  · rw [hf.fingerprint, hf.prepared]
    exact hfp

/-! ## Once a record has left some statuses -/

/-- The fingerprint's records are expired for longer than the retention time. -/
def Dead (P : Primitives D A) (clock : ℤ) (fingerprint : D) : Prop :=
  ∀ r, Bound P r → r.fingerprint = fingerprint → r.expiresAt.toInt + terminalRetentionSecs < clock

/-- A status of a dead record: no claim succeeds any more. -/
def unclaimable : List AuthorizationStatus :=
  [.prepared, .approvalPending, .ready, .expiredUnresolved]

/-- The record is in the store behind the statuses `before`, or it is dead and was never claimed
again. -/
def Once (P : Primitives D A) (before : List AuthorizationStatus)
    (records : List (AuthorizationRecord D A)) (clock : ℤ) (fingerprint : D) : Prop :=
  ((∃ r ∈ records, r.fingerprint = fingerprint) ∧
    ∀ r ∈ records, r.fingerprint = fingerprint → r.status ∉ before) ∨
  (Dead P clock fingerprint ∧
    ∀ r ∈ records, r.fingerprint = fingerprint → r.status ∈ unclaimable)

/-- Statuses that are not entered from outside. -/
def Initial (before : List AuthorizationStatus) : Prop :=
  ∀ s next : AuthorizationStatus, s ∉ before → s.allows next = true → next ∉ before

theorem initial_unclaimed : Initial unclaimed := by
  unfold Initial
  decide

def undelivered : List AuthorizationStatus := [.prepared, .approvalPending, .ready, .authorizing]

theorem initial_undelivered : Initial undelivered := by
  unfold Initial
  decide

theorem unclaimable_allows : ∀ s next : AuthorizationStatus, s ∈ unclaimable →
    s.allows next = true → next ≠ .authorizing → next ∈ unclaimable := by
  decide

theorem Dead.mono (h : Dead P clock fingerprint) (hle : clock ≤ clock') :
    Dead P clock' fingerprint :=
  fun r hr hfp => lt_of_lt_of_le (h r hr hfp) hle

theorem Once.mono (h : Once P before records clock fingerprint) (hle : clock ≤ clock') :
    Once P before records clock' fingerprint := by
  rcases h with h | ⟨hdead, h⟩
  · exact .inl h
  · exact .inr ⟨hdead.mono hle, h⟩

/-- A record that follows one behind `before` is behind it too. -/
theorem Initial.follows (hbefore : Initial before) (hf : Follows r r') (h : r.status ∉ before) :
    r'.status ∉ before := by
  rcases hf.status with heq | hallow
  · rwa [heq]
  · exact hbefore _ _ h hallow

/-! ## One operation -/

def reading : Operation D A → Option Int64
  | .insertPrepared _ now | .prune now => some now
  | .onRecord _ change =>
    match change with
    | .markReady now | .markApprovalPending _ now | .claimReady now | .markDeliveryPending _ now
    | .markAuthorized now | .markIndeterminate now | .markFailed now | .markRefused now
    | .markAuthorizedWithheld now | .recordReceipt _ now | .recordLedgerOutcome _ now => some now
    | .markPolicyAccounted => none

/-- The reading is not ahead of the clock and at most the retention time behind it. -/
def Timely (clock : ℤ) (op : Operation D A) : Prop :=
  ∀ now, reading op = some now → now.toInt ≤ clock ∧ clock ≤ now.toInt + terminalRetentionSecs

theorem lt_of_claimable {expires now : ℤ} (h : minChallengeLifetimeSecs ≤ subI64 expires now) :
    now < expires := by
  unfold subI64 satAdd minChallengeLifetimeSecs i64Min i64Max at h
  omega

theorem authorizing_of_apply [DecidableEq D] (h : change.apply P r = .ok r')
    (hstatus : r'.status = .authorizing) :
    r.status = .authorizing ∨ ∃ now, change = .claimReady now ∧ now.toInt < r.expiresAt.toInt := by
  have hother : ∀ {next : AuthorizationStatus} {now : Int64} {r₀ : AuthorizationRecord D A},
      next ≠ .authorizing → r₀.transition next now ≠ .ok r' := by
    intro next now r₀ hne htr
    obtain ⟨-, rfl⟩ := transition_eq_ok.1 htr
    exact hne hstatus
  cases change with
  | claimReady now => exact .inr ⟨now, rfl, lt_of_claimable (claimReady_eq_ok h).1⟩
  | markPolicyAccounted => exact .inl (markPolicyAccounted_eq_ok h).1
  | recordReceipt receipt now =>
    rcases recordReceipt_eq_ok h with ⟨-, rfl⟩ | ⟨-, hobserve⟩
    · exact .inl hstatus
    · obtain ⟨-, observation, rfl⟩ := observeReceipt_eq_ok hobserve
      cases hstatus
  | recordLedgerOutcome outcome now =>
    rcases recordLedgerOutcome_eq_ok h with ⟨-, rfl⟩ | ⟨-, _, _, -, htr⟩ | ⟨-, _, _, -, htr⟩
    · exact .inl hstatus
    all_goals exact absurd htr (hother (by decide))
  | _ => exact absurd h (hother (by decide))

theorem unclaimable_of_apply [DecidableEq D] {id : String} (hdead : Dead P clock r.fingerprint)
    (hbound : Bound P r) (htimely : Timely clock (.onRecord id change : Operation D A))
    (hr : r.status ∈ unclaimable) (h : change.apply P r = .ok r') : r'.status ∈ unclaimable := by
  rcases (follows_of_apply h).status with heq | hallow
  · rwa [heq]
  · refine unclaimable_allows _ _ hr hallow fun hauth => ?_
    rcases authorizing_of_apply h hauth with hstatus | ⟨now, rfl, hlt⟩
    · rw [hstatus] at hr
      exact absurd hr (by decide)
    · have hexp := hdead r hbound rfl
      have hclock := (htimely now rfl).2
      omega

/-- A record that `prune` drops is expired for longer than the retention time. -/
theorem expired_of_not_retained (h : retained now r = false) :
    r.expiresAt.toInt + terminalRetentionSecs < now.toInt := by
  simp only [retained, Bool.or_eq_false_iff, decide_eq_false_iff_not] at h
  have hadd := h.2
  have hnow := now.toInt_lt
  unfold addI64 satAdd i64Min i64Max terminalRetentionSecs at hadd
  unfold terminalRetentionSecs
  omega

theorem mem_pruned_iff {s : AuthorizationRecord D A} :
    s ∈ pruned now records ↔ ∃ r ∈ records, expired now r = s ∧ retained now s = true := by
  unfold pruned
  rw [mem_filter, mem_map]
  constructor
  · rintro ⟨⟨r, hr, rfl⟩, hret⟩
    exact ⟨r, hr, rfl, hret⟩
  · rintro ⟨r, hr, rfl, hret⟩
    exact ⟨⟨r, hr, rfl⟩, hret⟩

/-- A record that changes, follows the one it was: the other records stay. -/
theorem Once.changed [DecidableEq D] {l rest : List (AuthorizationRecord D A)} {id : String}
    (hbefore : Initial before) (hbound : Bound P r)
    (htimely : Timely clock (.onRecord id change : Operation D A))
    (happly : change.apply P r = .ok r') (h : Once P before (l ++ r :: rest) clock fingerprint) :
    Once P before (l ++ r' :: rest) clock fingerprint := by
  have hf := follows_of_apply happly
  unfold Once at h ⊢
  simp only [forall_mem_append, forall_mem_cons] at h ⊢
  rcases h with ⟨⟨s, hs, hfp⟩, hl, hr, hrest⟩ | ⟨hdead, hl, hr, hrest⟩
  · refine .inl ⟨?_, hl, fun hfp => hbefore.follows hf (hr (hf.fingerprint ▸ hfp)), hrest⟩
    simp only [mem_append, mem_cons] at hs ⊢
    rcases hs with hs | rfl | hs
    · exact ⟨s, .inl hs, hfp⟩
    · exact ⟨r', .inr (.inl rfl), hf.fingerprint.trans hfp⟩
    · exact ⟨s, .inr (.inr hs), hfp⟩
  · refine .inr ⟨hdead, hl, fun hfp => ?_, hrest⟩
    rw [hf.fingerprint] at hfp
    exact unclaimable_of_apply (hfp ▸ hdead) hbound htimely (hr hfp) happly

theorem Once.update [DecidableEq D] (hsha : P.sha256.Injective) (hbefore : Initial before)
    (hbound : ∀ r ∈ wire.records, Bound P r) (htimely : Timely clock op)
    (hinsert : ∀ record now, op = .insertPrepared record now → FromPrepare P record)
    (hupdate : op.update P wire = .ok (answer, wire'))
    (h : Once P before wire.records clock fingerprint) :
    Once P before wire'.records clock fingerprint := by
  rcases update_cases hupdate with ⟨_, _, _, -, -, -, -, -, -, rfl⟩ |
    ⟨record, now, rfl, hnew, -, -, rfl⟩ |
    ⟨id, change, l, r, rest, r', rfl, hrecords, -, -, happly, -, rfl⟩ | ⟨now, count, rfl, -, rfl⟩
  · exact h
  · obtain ⟨-, hstatus⟩ := (hinsert record now rfl).bound
    simp only [Once, forall_mem_append, forall_mem_singleton]
    rcases h with ⟨⟨r, hr, hfp⟩, hall⟩ | ⟨hdead, hall⟩
    · exact .inl ⟨⟨r, mem_append_left _ hr, hfp⟩, hall, fun hsame =>
        absurd (hfp.trans hsame.symm) (hnew r hr)⟩
    · refine .inr ⟨hdead, hall, fun _ => ?_⟩
      revert hstatus
      cases record.status <;> decide
  · rw [hrecords] at h hbound
    exact h.changed hbefore (hbound r (by simp)) htimely happly
  · rcases h with ⟨⟨r, hr, hfp⟩, hall⟩ | ⟨hdead, hall⟩
    · by_cases hkept : ∃ s ∈ pruned now wire.records, s.fingerprint = fingerprint
      · refine .inl ⟨hkept, fun s hs hsfp => ?_⟩
        obtain ⟨t, ht, rfl, -⟩ := mem_pruned_iff.1 hs
        have hf := follows_expired now t
        exact hbefore.follows hf (hall t ht (hf.fingerprint.symm.trans hsfp))
      · -- Its record was dropped, so every record with this fingerprint is expired.
        refine .inr ⟨fun s hs hsfp => ?_, fun s hs hsfp => absurd ⟨s, hs, hsfp⟩ hkept⟩
        have hf := follows_expired now r
        have hdropped : retained now (expired now r) = false := by
          by_contra hret
          exact hkept ⟨expired now r, mem_pruned_iff.2 ⟨r, hr, rfl, by simpa using hret⟩,
            hf.fingerprint.trans hfp⟩
        have hexp := expired_of_not_retained hdropped
        rw [hf.expiresAt, expiresAt_eq hsha (hbound r hr) hs (hfp.trans hsfp.symm)] at hexp
        have hclock := (htimely now rfl).1
        omega
    · refine .inr ⟨hdead, fun s hs hsfp => ?_⟩
      obtain ⟨t, ht, rfl, -⟩ := mem_pruned_iff.1 hs
      have hf := follows_expired now t
      have hstatus := hall t ht (hf.fingerprint.symm.trans hsfp)
      unfold expired
      split_ifs
      · simp [unclaimable]
      · exact hstatus

theorem bound_update [DecidableEq D] (hbound : ∀ r ∈ wire.records, Bound P r)
    (hinsert : ∀ record now, op = .insertPrepared record now → FromPrepare P record)
    (hupdate : op.update P wire = .ok (answer, wire')) : ∀ r ∈ wire'.records, Bound P r := by
  rcases update_cases hupdate with ⟨_, _, _, -, -, -, -, -, -, rfl⟩ |
    ⟨record, now, rfl, -, -, -, rfl⟩ |
    ⟨id, change, l, r, rest, r', rfl, hrecords, -, -, happly, -, rfl⟩ | ⟨now, count, rfl, -, rfl⟩
  · exact hbound
  · exact forall_mem_append.2 ⟨hbound, forall_mem_singleton.2 (hinsert record now rfl).bound.1⟩
  · rw [hrecords] at hbound
    simp only [forall_mem_append, forall_mem_cons] at hbound ⊢
    exact ⟨hbound.1, hbound.2.1.follows (follows_of_apply happly), hbound.2.2⟩
  · intro s hs
    obtain ⟨r, hr, rfl, -⟩ := mem_pruned_iff.1 hs
    exact (hbound r hr).follows (follows_expired now r)

/-! ## Kinds of changes -/

def isClaim : Change D → Bool
  | .claimReady _ => true
  | _ => false

def isDelivery : Change D → Bool
  | .markDeliveryPending _ _ => true
  | _ => false

/-- The changes of a kind take a record out of the statuses `before`; of a dead record only a claim
could. -/
structure Leaves [DecidableEq D] (P : Primitives D A) (kind : Change D → Bool)
    (before : List AuthorizationStatus) : Prop where
  initial : Initial before
  status : ∀ change r r', kind change = true → change.apply P r = .ok r' →
    r.status ∈ before ∧ r'.status ∉ before
  claims : ∀ change r r', kind change = true → change.apply P r = .ok r' → r.status ∈ unclaimable →
    ∃ now, change = .claimReady now ∧ now.toInt < r.expiresAt.toInt

theorem leaves_isClaim [DecidableEq D] : Leaves P isClaim unclaimed := by
  refine ⟨initial_unclaimed, fun change r r' hkind happly => ?_, fun change r r' hkind happly _ => ?_⟩
  · cases change <;> cases hkind
    obtain ⟨hallow, rfl⟩ := transition_eq_ok.1 (claimReady_eq_ok happly).2
    refine ⟨?_, by simp [unclaimed]⟩
    revert hallow
    cases r.status <;> decide
  · cases change <;> cases hkind
    exact ⟨_, rfl, lt_of_claimable (claimReady_eq_ok happly).1⟩

theorem leaves_isDelivery [DecidableEq D] : Leaves P isDelivery undelivered := by
  have hauth : ∀ change r r', isDelivery change = true → change.apply P r = .ok r' →
      r.status = .authorizing ∧ r'.status = .deliveryPending := by
    intro change r r' hkind happly
    cases change <;> cases hkind
    obtain ⟨hallow, rfl⟩ := transition_eq_ok.1 happly
    refine ⟨?_, rfl⟩
    revert hallow
    cases r.status <;> decide
  refine ⟨initial_undelivered, fun change r r' hkind happly => ?_,
    fun change r r' hkind happly hr => ?_⟩
  · obtain ⟨hr, hr'⟩ := hauth change r r' hkind happly
    rw [hr, hr']
    decide
  · rw [(hauth change r r' hkind happly).1] at hr
    exact absurd hr (by decide)

theorem Leaves.not_once [DecidableEq D] (hk : Leaves P kind before) {id : String}
    (htimely : Timely clock (.onRecord id change : Operation D A)) (hkind : kind change = true)
    (happly : change.apply P r = .ok r') (hr : r ∈ records) (hbound : Bound P r) :
    ¬ Once P before records clock r.fingerprint := by
  rintro (⟨-, hall⟩ | ⟨hdead, hall⟩)
  · exact hall r hr rfl (hk.status change r r' hkind happly).1
  · obtain ⟨now, rfl, hlt⟩ := hk.claims change r r' hkind happly (hall r hr rfl)
    have hexp := hdead r hbound rfl
    have hclock := (htimely now rfl).2
    omega

theorem Leaves.once [DecidableEq D] (hk : Leaves P kind before)
    {l rest : List (AuthorizationRecord D A)} (hok : RecordsOk P (l ++ r :: rest))
    (hkind : kind change = true) (happly : change.apply P r = .ok r') (clock : ℤ) :
    Once P before (l ++ r' :: rest) clock r'.fingerprint := by
  obtain ⟨-, hapart, -⟩ := recordsOk_middle_iff.1 hok
  have hother : ∀ s ∈ l ++ rest, s.fingerprint = r'.fingerprint → s.status ∉ before := by
    intro s hs hfp
    rw [(follows_of_apply happly).fingerprint] at hfp
    exact absurd hfp.symm (hapart s hs).fingerprint
  rw [forall_mem_append] at hother
  refine .inl ⟨⟨r', by simp, rfl⟩, forall_mem_append.2 ⟨hother.1, ?_⟩⟩
  exact forall_mem_cons.2 ⟨fun _ => (hk.status change r r' hkind happly).2, hother.2⟩

/-! ## One event -/

section

variable {C : Codec D A K T B} {w : World D A K T B}

def Held (w : World D A K T B) (records : List (AuthorizationRecord D A)) : Prop :=
  records = w.renamed ∨ w.interrupted = some records

def SameRecords (w w' : World D A K T B) : Prop :=
  w'.renamed = w.renamed ∧ w'.interrupted = w.interrupted

theorem SameRecords.held {w' : World D A K T B} (h : SameRecords w w') (hheld : Held w' records) :
    Held w records := by
  unfold Held at hheld ⊢
  rwa [h.1, h.2] at hheld

theorem publication_effect (hC : C.Lawful) (w : World D A K T B) (key : K) (wire : WireStore D A)
    (hpos : 0 < wire.generation) (cut : ℕ) :
    (cut ≤ 1 ∧ SameRecords w (w.applyAll C ((publication C key wire).take cut))) ∨
    (cut = 2 ∧ (w.applyAll C ((publication C key wire).take cut)).renamed = w.renamed ∧
      (w.applyAll C ((publication C key wire).take cut)).interrupted = some wire.records) ∨
    (3 ≤ cut ∧ (w.applyAll C ((publication C key wire).take cut)).renamed = wire.records ∧
      (w.applyAll C ((publication C key wire).take cut)).interrupted = none) := by
  obtain ⟨m, hm⟩ : ∃ m, wire.generation = m + 1 := ⟨wire.generation - 1, by omega⟩
  have hrecords := recordsIn_fileOf hC key wire
  unfold Readable.publication
  rw [hm]
  rcases cut with _ | _ | _ | cut
  · exact .inl ⟨by omega, rfl, rfl⟩
  · exact .inl ⟨by omega, rfl, rfl⟩
  · exact .inr (.inl ⟨rfl, rfl, congrArg some hrecords⟩)
  · rw [take_of_length_le (by simp)]
    exact .inr (.inr ⟨by omega, hrecords, rfl⟩)

theorem counter_applyAll {w : World D A K T B} : ∀ {steps : List (Step K T B)},
    (w.applyAll C steps).disk.counter = none → w.disk.counter = none := by
  intro steps
  induction steps generalizing w with
  | nil => exact id
  | cons step steps ih =>
    intro h
    have hstep := ih h
    cases step with
    | generation n => cases n <;> cases hstep
    | _ => exact hstep

variable {key : K}

theorem held_of_publication (hC : C.Lawful) (hpos : 0 < wire.generation) {cut : ℕ}
    (hheld : Held (w.applyAll C ((publication C key wire).take cut)) records) :
    Held w records ∨ records = wire.records := by
  rcases publication_effect hC w key wire hpos cut with ⟨-, hsame⟩ | ⟨-, hren, hint⟩ | ⟨-, hren, hint⟩
  · exact .inl (hsame.held hheld)
  · rcases hheld with h | h
    · exact .inl (.inl (h.trans hren))
    · exact .inr (Option.some.inj (h.symm.trans hint))
  · rcases hheld with h | h
    · exact .inr (h.trans hren)
    · rw [hint] at h
      cases h

theorem mint_effect (newKey : K) (cut : ℕ) : (w.disk.counter = none ∨
      SameRecords w (w.applyAll C ((mintSteps newKey w.disk).take cut))) ∧
    ∀ records, Held (w.applyAll C ((mintSteps newKey w.disk).take cut)) records →
      Held w records ∨ records = [] := by
  unfold mintSteps
  split_ifs with hcounter
  · refine ⟨.inl hcounter, fun records hheld => ?_⟩
    rcases cut with _ | _ | cut
    · exact .inl hheld
    · exact .inr (hheld.resolve_right fun h => by cases h)
    · rw [take_of_length_le (by simp)] at hheld
      exact .inr (hheld.resolve_right fun h => by cases h)
  · rcases cut with _ | cut
    · exact ⟨.inr ⟨rfl, rfl⟩, fun records h => .inl h⟩
    · rw [take_of_length_le (by simp)]
      exact ⟨.inr ⟨rfl, rfl⟩, fun records h => .inl h⟩

/-- Records of an earlier version carry their fingerprint too. -/
def LegacyBound [DecidableEq D] [DecidableEq T] (P : Primitives D A) (C : Codec D A K T B)
    (legacy : Legacy K T B) : Prop :=
  ∀ entry ∈ legacy, ∀ wire, readAuthenticated P C entry.1 (some entry.2) = .ok wire →
    ∀ r ∈ wire.records, Bound P r

theorem bound_of_adoption [DecidableEq D] [DecidableEq T] {legacy : Legacy K T B}
    (hlegacy : LegacyBound P C legacy) (hinv : Snapshots.Inv P C legacy w)
    (hkey : w.disk.key = some key) (hcounter : w.disk.counter = none)
    (hread : readAuthenticated P C key w.disk.file = .ok wire) : ∀ r ∈ wire.records, Bound P r := by
  obtain ⟨tag, body, hfile, -, htag, -, -⟩ := readAuthenticated_eq_ok_iff.1 hread
  rcases hinv.file _ hfile key htag with hw | hl
  · obtain ⟨wire', hform⟩ := hinv.form key _ hw
    rw [hform] at hw
    obtain ⟨counter, hc, -⟩ := hinv.bounded key wire' hkey hw
    rw [hcounter] at hc
    cases hc
  · rw [hfile] at hread
    exact hlegacy _ hl wire hread

variable [DecidableEq D] [DecidableEq K] [DecidableEq T]

/-- What the call of an event answers, when it completes. -/
def answered (P : Primitives D A) (C : Codec D A K T B) (w : World D A K T B) :
    Event D A K T B → Option (Answer D A)
  | .mutate key op cut =>
    if (mutate P C key op w.disk).steps.length ≤ cut then
      (mutate P C key op w.disk).answer.toOption
    else none
  | _ => none

/-- **What a mutation does to the records.**  It changes nothing and does not answer, or it applies
its operation to the records it read: to the records of a temporary file, or to those of the store,
and then it answers. -/
theorem mutate_effect (hC : C.Lawful) (key : K) (op : Operation D A) (cut : ℕ) :
    (SameRecords w (w.step C P (.mutate key op cut)) ∧ answered P C w (.mutate key op cut) = none) ∨
    ∃ wire answer wire', readVerified P C key w.disk = .ok wire ∧
      op.update P wire = .ok (answer, wire') ∧
      (((w.step C P (.mutate key op cut)).renamed = w.renamed ∧
        (w.step C P (.mutate key op cut)).interrupted = some wire'.records ∧
        answered P C w (.mutate key op cut) = none) ∨
      ((w.step C P (.mutate key op cut)).renamed = wire'.records ∧
        (w.step C P (.mutate key op cut)).interrupted = none ∧
        answered P C w (.mutate key op cut) = some answer)) := by
  simp only [answered, World.step]
  rcases mutate_cases P C key op w.disk with ⟨e, hplan⟩ | ⟨answer, steps, wire, wire', hplan, hmut⟩
  · rw [hplan]
    exact .inl ⟨by simp [World.applyAll, SameRecords], by simp [Except.toOption]⟩
  · have hlength : (publication C key (following wire wire')).length = 3 := rfl
    simp only [hplan, hmut.steps, hlength]
    rcases publication_effect hC w key (following wire wire') (Nat.succ_pos _) cut with
      ⟨hcut, hsame⟩ | ⟨hcut, hren, hint⟩ | ⟨hcut, hren, hint⟩
    · exact .inl ⟨hsame, if_neg (by omega)⟩
    · exact .inr ⟨wire, answer, wire', hmut.read, hmut.update, .inl ⟨hren, hint, if_neg (by omega)⟩⟩
    · exact .inr ⟨wire, answer, wire', hmut.read, hmut.update, .inr ⟨hren, hint, if_pos hcut⟩⟩

/-- The records after a mutation: those before it, or what its operation made of those it read. -/
theorem held_of_mutate (hC : C.Lawful) {cut : ℕ}
    (hheld : Held (w.step C P (.mutate key op cut)) records) :
    Held w records ∨ ∃ wire answer wire', readVerified P C key w.disk = .ok wire ∧
      op.update P wire = .ok (answer, wire') ∧ records = wire'.records := by
  rcases mutate_effect hC key op cut with ⟨hsame, -⟩ |
    ⟨wire, answer, wire', hread, hupdate, ⟨hren, hint, -⟩ | ⟨hren, hint, -⟩⟩
  · exact .inl (hsame.held hheld)
  · rcases hheld with h | h
    · exact .inl (.inl (h.trans hren))
    · exact .inr ⟨wire, answer, wire', hread, hupdate, Option.some.inj (h.symm.trans hint)⟩
  · rcases hheld with h | h
    · exact .inr ⟨wire, answer, wire', hread, hupdate, h.trans hren⟩
    · cases h.symm.trans hint

theorem verifyOrAdopt_effect (hC : C.Lawful) (key : K) (cut : ℕ) : (w.disk.counter = none ∨
      SameRecords w (w.applyAll C ((verifyOrAdopt P C key w.disk).steps.take cut))) ∧
    ∀ records, Held (w.applyAll C ((verifyOrAdopt P C key w.disk).steps.take cut)) records →
      Held w records ∨ ∃ wire, readAuthenticated P C key w.disk.file = .ok wire ∧
        wire.version = 1 ∧ records = wire.records := by
  rcases verifyOrAdopt_steps (P := P) key w.disk with hsteps |
    ⟨hcounter, wire, hread, hversion, hsteps⟩
  · rw [hsteps]
    simp only [take_nil, World.applyAll]
    exact ⟨.inr ⟨rfl, rfl⟩, fun records h => .inl h⟩
  · refine ⟨.inl hcounter, fun records hheld => ?_⟩
    rw [hsteps] at hheld
    rcases cut with _ | cut
    · exact .inl hheld
    · have hpos : 0 < (adopted wire).generation := Nat.one_pos
      rcases held_of_publication hC hpos hheld with h | h
      · exact .inl h
      · exact .inr ⟨wire, hread, hversion, h⟩

/-! ## Runs -/

/-- The fingerprint of the record that a change of this kind left, when the call answered. -/
def marked (kind : Change D → Bool) (P : Primitives D A) (C : Codec D A K T B)
    (w : World D A K T B) (e : Event D A K T B) : List D :=
  match e, answered P C w e with
  | .mutate _ (.onRecord _ change) _, some (.record r) => if kind change then [r.fingerprint] else []
  | _, _ => []

end

/-- The world, the clock, and the fingerprints for which `claim_ready` and `mark_delivery_pending`
answered. -/
structure System (D A K T B : Type) where
  world : World D A K T B
  clock : ℤ
  claims : List D
  digests : List D

variable [DecidableEq D] [DecidableEq K] [DecidableEq T]

def System.step (C : Codec D A K T B) (P : Primitives D A) (s : System D A K T B)
    (e : ℤ × Event D A K T B) : System D A K T B :=
  ⟨s.world.step C P e.2, e.1, s.claims ++ marked isClaim P C s.world e.2,
    s.digests ++ marked isDelivery P C s.world e.2⟩

/-- No reset; what is inserted comes from a prepare, and operations are timely. -/
def Ordinary (P : Primitives D A) (clock : ℤ) : Event D A K T B → Prop
  | .reset _ _ => False
  | .mutate _ op _ =>
    Timely clock op ∧ ∀ record now, op = .insertPrepared record now → FromPrepare P record
  | _ => True

def Permitted (C : Codec D A K T B) (P : Primitives D A) (legacy : Legacy K T B)
    (s : System D A K T B) (e : ℤ × Event D A K T B) : Prop :=
  Allowed C legacy s.world e.2 ∧ s.clock ≤ e.1 ∧ Ordinary P e.1 e.2

/-- Every fingerprint that was claimed or delivered stands behind it in every snapshot. -/
structure Inv (P : Primitives D A) (C : Codec D A K T B) (legacy : Legacy K T B)
    (s : System D A K T B) : Prop where
  snapshots : Snapshots.Inv P C legacy s.world
  bound : ∀ records, Held s.world records → ∀ r ∈ records, Bound P r
  claims : ∀ fingerprint ∈ s.claims, ∀ records, Held s.world records →
    Once P unclaimed records s.clock fingerprint
  digests : ∀ fingerprint ∈ s.digests, ∀ records, Held s.world records →
    Once P undelivered records s.clock fingerprint
  fresh : s.world.disk.counter = none → s.claims = [] ∧ s.digests = []
  once : s.claims.Nodup ∧ s.digests.Nodup

variable {C : Codec D A K T B} {legacy : Legacy K T B}

theorem marked_of_none {w : World D A K T B} {e : Event D A K T B} (h : answered P C w e = none) :
    marked kind P C w e = [] := by
  unfold marked
  rw [h]
  split <;> first | rfl | (rename_i heq; cases heq)

/-- **One mutation, one kind of marks.** -/
theorem marks_mutate (hsha : P.sha256.Injective) (hC : C.Lawful)
    (hk : Leaves P kind before) {w : World D A K T B} (hinv : Snapshots.Inv P C legacy w)
    (hbound : ∀ records, Held w records → ∀ r ∈ records, Bound P r) (hle : clock ≤ clock')
    {marks : List D} (hnodup : marks.Nodup)
    (honce : ∀ fingerprint ∈ marks, ∀ records, Held w records →
      Once P before records clock fingerprint)
    (key : K) (cut : ℕ) (htimely : Timely clock' op)
    (hinsert : ∀ record now, op = .insertPrepared record now → FromPrepare P record) :
    (marks ++ marked kind P C w (.mutate key op cut)).Nodup ∧
    ∀ fingerprint ∈ marks ++ marked kind P C w (.mutate key op cut),
      ∀ records, Held (w.step C P (.mutate key op cut)) records →
        Once P before records clock' fingerprint := by
  have hafter : ∀ fingerprint ∈ marks, ∀ records, Held (w.step C P (.mutate key op cut)) records →
      Once P before records clock' fingerprint := by
    intro fingerprint hf records hheld
    rcases held_of_mutate hC hheld with h | ⟨wire, answer, wire', hread, hupdate, rfl⟩
    · exact (honce fingerprint hf records h).mono hle
    · have hread := hinv.records_of_read hC hread
      exact Once.update hsha hk.initial (hbound _ hread) htimely hinsert hupdate
        ((honce fingerprint hf _ hread).mono hle)
  rcases hmarked : marked kind P C w (.mutate key op cut) with _ | ⟨f, fs⟩
  · rw [append_nil]
    exact ⟨hnodup, hafter⟩
  -- A change of the kind was made: it is the first one for its record.
  have hne : marked kind P C w (.mutate key op cut) ≠ [] := by simp [hmarked]
  rcases mutate_effect hC key op cut with ⟨-, hnone⟩ |
    ⟨wire, answer, wire', hread, hupdate, ⟨-, -, hnone⟩ | ⟨hren, hint, hanswer⟩⟩
  · exact absurd (marked_of_none hnone) hne
  · exact absurd (marked_of_none hnone) hne
  obtain ⟨id, change, r', rfl, rfl, hkind, rfl, rfl⟩ : ∃ id change r',
      op = .onRecord id change ∧ answer = .record r' ∧ kind change = true ∧
        f = r'.fingerprint ∧ fs = [] := by
    unfold marked at hmarked
    rw [hanswer] at hmarked
    rcases op with _ | ⟨id, change⟩ | _ <;> rcases answer with r' | _ <;> try cases hmarked
    dsimp only at hmarked
    split_ifs at hmarked with hkind
    cases hmarked
    exact ⟨id, change, r', rfl, rfl, hkind, rfl, rfl⟩
  rcases update_cases hupdate with ⟨_, _, _, h, -⟩ | ⟨_, _, h, -⟩ |
    ⟨_, _, l, r, rest, _, h, hwire, -, -, happly, hr', rfl⟩ | ⟨_, _, h, -⟩ <;> cases h
  cases hr'
  have hheld : Held w wire.records := hinv.records_of_read hC hread
  have hok := (recordsOk_of_read hread).2.2
  have hr : r ∈ wire.records := by simp [hwire]
  have hnew : r'.fingerprint ∉ marks := fun hmem => by
    rw [(follows_of_apply happly).fingerprint] at hmem
    exact hk.not_once htimely hkind happly hr (hbound _ hheld r hr) ((honce _ hmem _ hheld).mono hle)
  refine ⟨nodup_append_comm.2 (nodup_cons.2 ⟨hnew, hnodup⟩),
    forall_mem_append.2 ⟨hafter, forall_mem_singleton.2 fun records h => ?_⟩⟩
  rcases h with h | h
  · rw [h, hren]
    exact hk.once (hwire ▸ hok) hkind happly clock'
  · cases h.symm.trans hint

variable {s : System D A K T B}

omit [DecidableEq K] in
theorem Inv.opened (h : Inv P C legacy s) {w' : World D A K T B} (hle : s.clock ≤ clock')
    (hinv : Snapshots.Inv P C legacy w')
    (hbound : ∀ records, Held w' records → ∀ r ∈ records, Bound P r)
    (hsame : s.world.disk.counter = none ∨ SameRecords s.world w')
    (hcounter : w'.disk.counter = none → s.world.disk.counter = none) :
    Inv P C legacy ⟨w', clock', s.claims, s.digests⟩ := by
  refine ⟨hinv, hbound, fun f hf records hheld => ?_, fun f hf records hheld => ?_,
    fun hnone => h.fresh (hcounter hnone), h.once⟩ <;> rcases hsame with hnone | hsame
  · exact absurd hf (by simp [(h.fresh hnone).1])
  · exact (h.claims f hf records (hsame.held hheld)).mono hle
  · exact absurd hf (by simp [(h.fresh hnone).2])
  · exact (h.digests f hf records (hsame.held hheld)).mono hle

theorem Inv.mutated (hsha : P.sha256.Injective) (hC : Sound C) (h : Inv P C legacy s)
    (hle : s.clock ≤ clock') {cut : ℕ} (htimely : Timely clock' op)
    (hinsert : ∀ record now, op = .insertPrepared record now → FromPrepare P record) :
    Inv P C legacy (s.step C P (clock', .mutate key op cut)) := by
  obtain ⟨hclaims, hclaimed⟩ := marks_mutate hsha hC.lawful leaves_isClaim h.snapshots h.bound hle
    h.once.1 h.claims key cut htimely hinsert
  obtain ⟨hdigests, hdelivered⟩ := marks_mutate hsha hC.lawful leaves_isDelivery h.snapshots h.bound
    hle h.once.2 h.digests key cut htimely hinsert
  refine ⟨h.snapshots.mutate hC key op cut, fun records hheld => ?_, hclaimed, hdelivered,
    fun hnone => ?_, hclaims, hdigests⟩
  · rcases held_of_mutate hC.lawful hheld with hheld | ⟨wire, answer, wire', hread, hupdate, rfl⟩
    · exact h.bound records hheld
    · exact bound_update (h.bound _ (h.snapshots.records_of_read hC.lawful hread)) hinsert hupdate
  · -- Without a counter nothing is read, so nothing is claimed.
    have hcounter : s.world.disk.counter = none := counter_applyAll hnone
    have hanswer : answered P C s.world (.mutate key op cut) = none := by
      rcases mutate_effect hC.lawful key op cut with ⟨-, hnone⟩ |
        ⟨wire, answer, wire', hread, -⟩
      · exact hnone
      · rw [(h.snapshots.unwritten_of_read hread).2.1] at hcounter
        cases hcounter
    obtain ⟨hc, hd⟩ := h.fresh hcounter
    show s.claims ++ marked isClaim P C s.world _ = [] ∧
      s.digests ++ marked isDelivery P C s.world _ = []
    rw [hc, hd, marked_of_none hanswer, marked_of_none hanswer]
    exact ⟨rfl, rfl⟩

theorem Inv.adopting (hC : Sound C) (hlegacy : LegacyBound P C legacy) (h : Inv P C legacy s)
    (hle : s.clock ≤ clock') (hkey : s.world.disk.key = some key) (cut : ℕ) :
    Inv P C legacy ⟨s.world.applyAll C ((verifyOrAdopt P C key s.world.disk).steps.take cut), clock',
      s.claims, s.digests⟩ := by
  obtain ⟨hsame, hheld⟩ := verifyOrAdopt_effect hC.lawful key cut
  refine h.opened hle (h.snapshots.verifyOrAdopt hC hkey cut) (fun records hr => ?_) hsame
    counter_applyAll
  rcases hheld records hr with hr | ⟨wire, hread, hversion, rfl⟩
  · exact h.bound records hr
  · -- A version 1 snapshot is read only when it is adopted, without a counter.
    rcases hsame with hcounter | hsame
    · exact bound_of_adoption hlegacy h.snapshots hkey hcounter hread
    · exact h.bound _ (hsame.held hr)

/-- **Every event keeps the invariant.** -/
theorem Inv.step (hsha : P.sha256.Injective) (hC : Sound C)
    (hlegacy : LegacyBound P C legacy) (s : System D A K T B) (e : ℤ × Event D A K T B)
    (h : Inv P C legacy s) (hok : Permitted C P legacy s e) : Inv P C legacy (s.step C P e) := by
  obtain ⟨clock', e⟩ := e
  obtain ⟨hallowed, hle, hordinary⟩ := hok
  have hquiet : ∀ {e' : Event D A K T B}, answered P C s.world e' = none →
      s.step C P (clock', e') = ⟨s.world.step C P e', clock', s.claims, s.digests⟩ := by
    intro e' hnone
    unfold System.step
    rw [marked_of_none hnone, marked_of_none hnone, append_nil, append_nil]
  cases e with
  | mutate key op cut => exact h.mutated hsha hC hle hordinary.1 hordinary.2
  | openForPrepare newKey cut =>
    rw [hquiet rfl]
    unfold World.step
    dsimp only
    rcases openForPrepare_steps (P := P) newKey s.world.disk with hsteps |
      ⟨hkey, hsteps⟩ | ⟨key, hkey, hsteps⟩
    · rw [hsteps, take_nil]
      exact h.opened hle h.snapshots h.bound (.inr ⟨rfl, rfl⟩) id
    · rw [hsteps]
      obtain ⟨hsame, hheld⟩ := mint_effect newKey cut
      refine h.opened hle (h.snapshots.mint hkey hallowed cut) (fun records hr => ?_) hsame
        counter_applyAll
      rcases hheld records hr with hr | rfl
      · exact h.bound records hr
      · exact fun r hr => (by cases hr)
    · rw [hsteps]
      exact h.adopting hC hlegacy hle hkey cut
  | openForRead cut =>
    rw [hquiet rfl]
    unfold World.step
    dsimp only
    rcases openForRead_steps (P := P) s.world.disk with hsteps | ⟨key, hkey, hsteps⟩
    · rw [hsteps, take_nil]
      exact h.opened hle h.snapshots h.bound (.inr ⟨rfl, rfl⟩) id
    · rw [hsteps]
      exact h.adopting hC hlegacy hle hkey cut
  | reset newKey cut => exact absurd hordinary id
  | delete =>
    rw [hquiet rfl]
    exact h.opened hle (Snapshots.Inv.step hC s.world .delete h.snapshots hallowed) h.bound
      (.inr ⟨rfl, rfl⟩) id
  | replace file =>
    rw [hquiet rfl]
    exact h.opened hle (Snapshots.Inv.step hC s.world (.replace file) h.snapshots hallowed) h.bound
      (.inr ⟨rfl, rfl⟩) id

structure Begin (P : Primitives D A) (C : Codec D A K T B) (legacy : Legacy K T B)
    (s : System D A K T B) : Prop where
  world : Start P C legacy s.world
  claims : s.claims = []
  digests : s.digests = []

omit [DecidableEq K] in
theorem Begin.inv (h : Begin P C legacy s) : Inv P C legacy s := by
  refine ⟨h.world.inv, fun records hheld r hr => ?_, fun f hf => ?_, fun f hf => ?_,
    fun _ => ⟨h.claims, h.digests⟩, by rw [h.claims]; exact nodup_nil,
    by rw [h.digests]; exact nodup_nil⟩
  · rcases hheld with heq | heq
    · rw [heq, h.world.renamed] at hr
      cases hr
    · rw [h.world.interrupted] at heq
      cases heq
  · rw [h.claims] at hf
    cases hf
  · rw [h.digests] at hf
    cases hf

/-- **At most one claim.**  In every run of prepares, approvals, commits, receipts, reconciliations
and prunes by any number of processes, without a reset and with a clock that does not go back,
`claim_ready` answers at most once for a fingerprint, and a credential digest is recorded at most
once for it. -/
theorem claims_at_most_once (hsha : P.sha256.Injective) (hC : Sound C)
    (hlegacy : LegacyBound P C legacy) {s : System D A K T B} (hs : Begin P C legacy s)
    (events : List (ℤ × Event D A K T B))
    (hok : Along (System.step C P) (Permitted C P legacy) s events) :
    (run (System.step C P) s events).claims.Nodup ∧
      (run (System.step C P) s events).digests.Nodup :=
  (run_invariant_along (Inv.step hsha hC hlegacy) events s hs.inv hok).once

/-- A hash without collisions that computes: the message, with every digest behind its length. -/
def flatten : List (Sym (List ℕ)) → List ℕ
  | [] => []
  | .byte b :: rest => 0 :: b.toNat :: flatten rest
  | .digest d :: rest => 1 :: d.length :: (d ++ flatten rest)

theorem flatten_injective : flatten.Injective := by
  intro m
  induction m with
  | nil =>
    intro n h
    rcases n with _ | ⟨_ | _, n⟩
    · rfl
    · cases h
    · cases h
  | cons x m ih =>
    intro n h
    rcases x with b | d <;> rcases n with _ | ⟨c | e, n⟩
    · cases h
    · simp only [flatten, List.cons.injEq, true_and] at h
      rw [UInt8.toNat_inj.1 h.1, ih h.2]
    · cases h
    · cases h
    · cases h
    · simp only [flatten, List.cons.injEq, true_and] at h
      obtain ⟨rfl, hrest⟩ := append_inj h.2 h.1
      rw [ih hrest]

def flatPrimitives : Primitives (List ℕ) Unit := primitivesOf flatten

/-- What a prepare makes of the charge at `1000`. -/
def flatRecord : AuthorizationRecord (List ℕ) Unit :=
  recordOf [] (((authorizationFingerprint flatPrimitives "default" "test" "G"
    (chargeOf []).selected).toOption).getD [])

/-- The record is prepared, made ready and claimed; a second claim is refused.  Behind the retention
time it is pruned and inserted again; by then it has expired, and a claim is refused again. -/
def claimedOperations : List (Int64 × Operation (List ℕ) Unit) :=
  let change c := Operation.onRecord flatRecord.authorizationId c
  [(1000, .insertPrepared flatRecord 1000), (1001, change (.markReady 1001)),
    (1002, change (.claimReady 1002)), (1003, change (.claimReady 1003)),
    (1004, change (.markFailed 1004)), (9000000, .prune 9000000),
    (9000001, .insertPrepared flatRecord 9000001), (9000002, change (.markReady 9000002)),
    (9000003, change (.claimReady 9000003))]

def claimedRun : List (ℤ × Event (List ℕ) Unit ℕ ℕ (WireStore (List ℕ) Unit)) :=
  (1000, .openForPrepare 7 9) :: claimedOperations.map fun x => (x.1.toInt, .mutate 7 x.2 9)

def newSystem : System (List ℕ) Unit ℕ ℕ (WireStore (List ℕ) Unit) :=
  ⟨⟨⟨none, none, none⟩, ∅, ∅, [], none⟩, 0, [], []⟩

theorem legacyBound_empty : LegacyBound flatPrimitives plainCodec ∅ := fun _ h => (by cases h)

theorem begin_newSystem : Begin flatPrimitives plainCodec ∅ newSystem :=
  ⟨⟨rfl, rfl, rfl, rfl, fun _ h => (by cases h), fun _ h => (by cases h), fun _ h => (by cases h),
    fun _ h => (by cases h)⟩, rfl, rfl⟩

theorem fromPrepare_flatRecord : FromPrepare flatPrimitives flatRecord := by
  exact ⟨"default", "test", chargeOf [], 1000, flatRecord, rfl, .inl rfl⟩

theorem permitted_operation {s : System (List ℕ) Unit ℕ ℕ (WireStore (List ℕ) Unit)} {now : Int64}
    {op : Operation (List ℕ) Unit} (hreading : reading op = some now)
    (hinsert : ∀ record now, op = .insertPrepared record now → record = flatRecord)
    (hclock : s.clock ≤ now.toInt) :
    Permitted plainCodec flatPrimitives ∅ s (now.toInt, .mutate 7 op 9) := by
  refine ⟨trivial, hclock, fun now' hnow' => ?_, fun record now' hop => ?_⟩
  · obtain rfl := Option.some.inj (hreading.symm.trans hnow')
    have hpos : (0 : ℤ) ≤ terminalRetentionSecs := by decide
    omega
  · rw [hinsert record now' hop]
    exact fromPrepare_flatRecord

theorem along_operations : ∀ {ops : List (Int64 × Operation (List ℕ) Unit)}
    {s : System (List ℕ) Unit ℕ ℕ (WireStore (List ℕ) Unit)},
    (∀ x ∈ ops, reading x.2 = some x.1 ∧
      ∀ record now, x.2 = .insertPrepared record now → record = flatRecord) →
    (s.clock :: ops.map fun x => x.1.toInt).Pairwise (· ≤ ·) →
    Along (System.step plainCodec flatPrimitives) (Permitted plainCodec flatPrimitives ∅) s
      (ops.map fun x => (x.1.toInt, .mutate 7 x.2 9))
  | [], _, _, _ => trivial
  | x :: _, _, hops, hclock => by
    obtain ⟨hreading, hinsert⟩ := hops x mem_cons_self
    obtain ⟨hhere, hlater⟩ := pairwise_cons.mp hclock
    exact ⟨permitted_operation hreading hinsert (hhere _ mem_cons_self),
      along_operations (fun y hy => hops y (mem_cons_of_mem _ hy)) hlater⟩

theorem permitted_claimedRun :
    Along (System.step plainCodec flatPrimitives) (Permitted plainCodec flatPrimitives ∅) newSystem
      claimedRun := by
  refine ⟨⟨fun h => h, by decide, trivial⟩, along_operations ?_ ?_⟩
  · simp only [claimedOperations, forall_mem_cons, not_mem_nil, IsEmpty.forall_iff, implies_true,
      and_true]
    simp [reading]
  · decide +kernel

theorem claimedRun_claims :
    (run (System.step plainCodec flatPrimitives) newSystem claimedRun).claims =
      [flatRecord.fingerprint] ∧
    (run (System.step plainCodec flatPrimitives) newSystem claimedRun).claims.Nodup := by
  refine ⟨by decide +kernel, (claims_at_most_once
    flatten_injective plainCodec_sound legacyBound_empty begin_newSystem claimedRun
    permitted_claimedRun).1⟩

end AgentWallet.Mpp.Claims
