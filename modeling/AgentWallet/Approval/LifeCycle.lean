import AgentWallet.Approval.Store
import AgentWallet.Base.Runs

/-!
# The life cycle of an approval

A process opens the store under its lock, keeps the entries in memory, and every operation that
changes them writes the file anew.  A run is any sequence of openings, operations and closings by
any number of processes; the write of an operation may fail in front of its rename, which leaves the
file alone.
-/

namespace AgentWallet.Approval.LifeCycle

open Base.Checks Base.Runs Approval.Store
open List hiding replace

variable {nonce : String} {m m' : Entries} {e e' : PendingApproval} {written : Bool}
  {nowMs process : ℕ} {f : PendingApproval → PendingApproval}

/-! ## Operations of an open store -/

/-- The operations of the approval store. -/
inductive Op where
  | insert (entry : PendingApproval) (nowUnixMs : ℕ)
  | recordAttestation (nonce blob : String) (nowMs : ℕ)
  | recordTrustlineClawbackOptInAttestation (nonce blob : String) (nowMs : ℕ)
  | recordRuleProposalAttestation (nonce blob : String) (nowMs : ℕ)
  | recordPasskeyAssertion (nonce : String) (assertion : AssertionInput) (nowMs : ℕ)
  | recordPasskeyRegistration (nonce : String) (registration : RegistrationInput) (nowMs : ℕ)
  | reject (nonce : String) (nowUnixMs ttlMs : ℕ)
  | consume (nonce txHash : String) (outcome : ConsumedOutcome)
  | remove (nonce : String)
  | gcExpired (nowUnixMs : ℕ)

/-- What an operation returns when it succeeds. -/
inductive Answer where
  | unit
  | found (b : Bool)
  | removed (n : ℕ)

/-- An operation up to its write: the entries it leaves in memory, whether it writes them, and what
it returns if the write, when there is one, does not fail. -/
structure Attempt where
  entries : Entries
  persists : Bool
  answer : Except ApprovalError Answer

/-- A recorded attestation is written, a refusal changes nothing. -/
def recording (m : Entries) : Except ApprovalError Entries → Attempt
  | .error e => ⟨m, false, .error e⟩
  | .ok m' => ⟨m', true, .ok .unit⟩

/-- An entry is looked up and replaced; without it there is nothing to do. -/
def replacing (m : Entries) (nonce : String) (replaced : Except ApprovalError Entries) : Attempt :=
  match get m nonce, replaced with
  | none, _ => ⟨m, false, .ok (.found false)⟩
  | some _, .error e => ⟨m, false, .error e⟩
  | some _, .ok m' => ⟨m', true, .ok (.found true)⟩

/-- An operation up to its write.  Only an insertion sweeps what has expired first. -/
def Op.attempt (m : Entries) : Op → Attempt
  | .insert entry nowUnixMs =>
    let pruned := Store.gcExpired m nowUnixMs
    if maxPendingApprovals ≤ pruned.length then
      ⟨pruned, true, .error (.pendingStoreFull maxPendingApprovals)⟩
    -- the sweep stays in memory
    else if pruned.any (·.approvalNonce = entry.approvalNonce) then
      ⟨pruned, false, .error (.duplicateNonce entry.approvalNonce)⟩
    else ⟨pruned ++ [entry], true, .ok .unit⟩
  | .recordAttestation nonce blob nowMs =>
    recording m (Store.recordAttestation m nonce blob nowMs)
  | .recordTrustlineClawbackOptInAttestation nonce blob nowMs =>
    recording m (Store.recordTrustlineClawbackOptInAttestation m nonce blob nowMs)
  | .recordRuleProposalAttestation nonce blob nowMs =>
    recording m (Store.recordRuleProposalAttestation m nonce blob nowMs)
  | .recordPasskeyAssertion nonce assertion nowMs =>
    recording m (Store.recordPasskeyAssertion m nonce assertion nowMs)
  | .recordPasskeyRegistration nonce registration nowMs =>
    recording m (Store.recordPasskeyRegistration m nonce registration nowMs)
  | .reject nonce nowUnixMs ttlMs => replacing m nonce (.ok (Store.reject m nonce nowUnixMs ttlMs))
  | .consume nonce txHash outcome => replacing m nonce (Store.consume m nonce txHash outcome)
  | .remove nonce =>
    let kept := Store.remove m nonce
    let removed := decide (kept.length < m.length)
    ⟨kept, removed, .ok (.found removed)⟩
  | .gcExpired nowUnixMs =>
    let kept := Store.gcExpired m nowUnixMs
    let removed := m.length - kept.length
    ⟨kept, decide (0 < removed), .ok (.removed removed)⟩

/-! ## Runs -/

variable {op : Op}

/-- The file, the process with the open store and its entries, and, beside them, the nonces that
were inserted and the nonces whose attestation was recorded. -/
structure World where
  disk : Entries := []
  holder : Option (ℕ × Entries) := none
  issued : List String := []
  attested : List String := []

inductive Event where
  | opened (process : ℕ)
  /-- An operation; `written` says that its write, when there is one, does not fail. -/
  | call (process : ℕ) (op : Op) (written : Bool)
  | closed (process : ℕ)

def Op.attests : Op → Option String
  | .recordAttestation nonce _ _ | .recordTrustlineClawbackOptInAttestation nonce _ _
  | .recordRuleProposalAttestation nonce _ _ | .recordPasskeyAssertion nonce _ _
  | .recordPasskeyRegistration nonce _ _ => some nonce
  | _ => none

/-- The nonce an operation replaces by a tombstone. -/
def Op.entombs : Op → Option String
  | .reject nonce _ _ | .consume nonce _ _ => some nonce
  | _ => none

def Op.inserts : Op → Option PendingApproval
  | .insert entry _ => some entry
  | _ => none

def Attempt.landed (a : Attempt) (written : Bool) : Bool := !a.persists || written

def Attempt.result (a : Attempt) (written : Bool) : Except ApprovalError Answer :=
  if a.landed written then a.answer else .error .io

def World.call (w : World) (m : Entries) (process : ℕ) (op : Op) (written : Bool) : World :=
  let a := op.attempt m
  { disk := if a.persists && written then a.entries else w.disk
    holder := some (process, a.entries)
    issued := op.inserts.toList.map (·.approvalNonce) ++ w.issued
    attested :=
      if (a.result written).toBool then op.attests.toList ++ w.attested else w.attested }

def World.step (w : World) : Event → World
  | .opened process => if w.holder = none then { w with holder := some (process, w.disk) } else w
  | .call process op written =>
    match w.holder with
    | some (holder, m) => if holder = process then w.call m process op written else w
    | none => w
  | .closed process =>
    if (w.holder.map (·.1)) = some process then { w with holder := none } else w

/-! ## What an operation can do -/

variable {w : World}

/-- The store keeps the record that an entry of its kind is attested with; a tombstone counts as
recorded, since nothing attests it. -/
def recorded (e : PendingApproval) : Bool :=
  match e.kind with
  | .signWithPasskey => e.passkeyAssertion.isSome
  | .registerPasskey registrationInput => registrationInput.isSome
  | .rejected _ | .consumed _ _ _ => true
  | _ => e.attestationBlob.isSome

theorem recorded_of_tombstone (h : e.kind.isTombstone = true) : recorded e = true := by
  unfold recorded
  cases hk : e.kind <;> simp [hk, ApprovalKind.isTombstone] at h ⊢

theorem get_cons (e : PendingApproval) (m : Entries) (nonce : String) :
    Store.get (e :: m) nonce = if e.approvalNonce = nonce then some e else Store.get m nonce := by
  unfold Store.get
  split_ifs with h <;> simp [h]

theorem mem_of_get (h : get m nonce = some e) : e ∈ m ∧ e.approvalNonce = nonce :=
  ⟨mem_of_find?_eq_some h, by simpa using List.find?_some h⟩

inductive Change (op : Op) (e e' : PendingApproval) : Prop
  | attested (nonce : op.attests = some e.approvalNonce) (before : recorded e = false)
      (after : recorded e' = true)
  | entombed (nonce : op.entombs = some e.approvalNonce) (after : e'.kind.isTombstone = true)

/-- What an operation does to the entries `m`. -/
inductive Outcome (op : Op) (m : Entries) : Entries → Prop
  | dropped (keep : PendingApproval → Bool) : Outcome op m (m.filter keep)
  | inserted (keep : PendingApproval → Bool) (entry : PendingApproval)
      (inserts : op.inserts = some entry)
      (fresh : entry.approvalNonce ∉ (m.filter keep).map (·.approvalNonce)) :
      Outcome op m (m.filter keep ++ [entry])
  | replaced (nonce : String) (e : PendingApproval) (f : PendingApproval → PendingApproval)
      (found : get m nonce = some e) (change : Change op e (f e))
      (same : ∀ e, (f e).approvalNonce = e.approvalNonce) : Outcome op m (replace m nonce f)

theorem Outcome.unchanged (op : Op) (m : Entries) : Outcome op m m := by
  have h : Outcome op m (m.filter fun _ => true) := .dropped _
  rwa [filter_true] at h

/-- A record function that succeeds finds an entry without a record and leaves it with one. -/
def Records (m : Entries) (nonce : String) (m' : Entries) : Prop :=
  ∃ e f, get m nonce = some e ∧ m' = replace m nonce f ∧ recorded e = false ∧
    recorded (f e) = true ∧ ∀ e, (f e).approvalNonce = e.approvalNonce

theorem recordBlob_records {accepts : ApprovalKind → Bool} {expected : String} {blob : String}
    (haccepts : ∀ e : PendingApproval, accepts e.kind = true → recorded e = e.attestationBlob.isSome)
    (h : recordBlob accepts expected m nonce blob nowMs = .ok m') : Records m nonce m' := by
  unfold recordBlob at h
  rcases hget : get m nonce with _ | e <;> simp only [hget, reduceCtorEq] at h
  simp only [bind_eq_ok_iff, refuseIf_eq_ok_iff, Bool.not_eq_false, Bool.not_eq_true] at h
  obtain ⟨-, -, -, hkind, -, hnone, h⟩ := h
  cases h
  refine ⟨e, _, hget, rfl, ?_, ?_, fun _ => rfl⟩
  · rw [haccepts e hkind, hnone]
  · exact (haccepts { e with attestationBlob := some blob } hkind).trans rfl

theorem recordPasskeyAssertion_records {assertion : AssertionInput}
    (h : recordPasskeyAssertion m nonce assertion nowMs = .ok m') : Records m nonce m' := by
  unfold recordPasskeyAssertion at h
  rcases hget : get m nonce with _ | e <;> simp only [hget, reduceCtorEq] at h
  simp only [bind_eq_ok_iff, refuseIf_eq_ok_iff, not_not] at h
  obtain ⟨-, -, -, hkind, -, hnone, -, -, h⟩ := h
  cases h
  refine ⟨e, _, hget, rfl, ?_, ?_, fun _ => rfl⟩
  · simp [recorded, hkind, hnone]
  · simp [recorded, hkind]

theorem recordPasskeyRegistration_records {registration : RegistrationInput}
    (h : recordPasskeyRegistration m nonce registration nowMs = .ok m') : Records m nonce m' := by
  unfold recordPasskeyRegistration at h
  rcases hget : get m nonce with _ | e <;> simp only [hget, reduceCtorEq] at h
  simp only [bind_eq_ok_iff] at h
  obtain ⟨-, -, h⟩ := h
  rcases hkind : e.kind with _ | _ | _ | _ | _ | (_ | r) | _ | _ | _ | _ | _ <;>
    simp only [hkind, reduceCtorEq] at h
  cases h
  refine ⟨e, _, hget, rfl, ?_, ?_, fun _ => rfl⟩
  · simp [recorded, hkind]
  · simp [recorded]

theorem attempt_of_attests (h : op.attests = some nonce) (m : Entries) :
    ∃ x, op.attempt m = recording m x ∧ ∀ m', x = .ok m' → Records m nonce m' := by
  cases op <;> simp only [Op.attests, reduceCtorEq, Option.some.injEq] at h <;> subst h <;>
    refine ⟨_, rfl, fun m' hm' => ?_⟩
  · refine recordBlob_records (fun e he => ?_) hm'
    unfold recorded
    cases hk : e.kind <;> simp [hk, ApprovalKind.attestedDigest] at he ⊢
  · refine recordBlob_records (fun e he => ?_) hm'
    unfold recorded
    cases hk : e.kind <;> simp [hk, ApprovalKind.isTrustlineClawbackOptIn] at he ⊢
  · refine recordBlob_records (fun e he => ?_) hm'
    unfold recorded
    cases hk : e.kind <;> simp [hk, ApprovalKind.isRuleProposalSimulated] at he ⊢
  · exact recordPasskeyAssertion_records hm'
  · exact recordPasskeyRegistration_records hm'

theorem consume_eq_ok {txHash : String} {outcome : ConsumedOutcome} (hget : get m nonce = some e)
    (h : Store.consume m nonce txHash outcome = .ok m') :
    m' = replace m nonce (consumedTombstone txHash outcome) := by
  simp only [Store.consume, hget, bind_eq_ok_iff] at h
  obtain ⟨-, -, h⟩ := h
  cases h
  rfl

theorem attempt_spec (op : Op) (m : Entries) : Outcome op m (op.attempt m).entries := by
  rcases hattests : op.attests with _ | nonce
  · cases op with
    | insert entry nowUnixMs =>
      simp only [Op.attempt]
      split_ifs with hfull hdup
      · exact .dropped _
      · exact .dropped _
      · refine .inserted _ entry rfl fun hmem => hdup ?_
        obtain ⟨e, he, hnonce⟩ := mem_map.mp hmem
        exact any_eq_true.mpr ⟨e, he, decide_eq_true hnonce⟩
    | reject nonce nowUnixMs ttlMs =>
      simp only [Op.attempt, replacing]
      rcases hget : get m nonce with _ | e
      · exact .unchanged _ m
      · obtain ⟨-, rfl⟩ := mem_of_get hget
        exact .replaced _ e _ hget (.entombed rfl rfl) fun _ => rfl
    | consume nonce txHash outcome =>
      simp only [Op.attempt, replacing]
      rcases hget : get m nonce with _ | e
      · exact .unchanged _ m
      · rcases hconsume : Store.consume m nonce txHash outcome with _ | m'
        · exact .unchanged _ m
        · obtain ⟨-, rfl⟩ := mem_of_get hget
          obtain rfl := consume_eq_ok hget hconsume
          exact .replaced _ e _ hget (.entombed rfl rfl) fun _ => rfl
    | remove nonce => exact .dropped _
    | gcExpired nowUnixMs => exact .dropped _
    | _ => simp [Op.attests] at hattests
  · obtain ⟨x, hattempt, hrecords⟩ := attempt_of_attests hattests m
    rw [hattempt]
    rcases x with _ | m'
    · exact .unchanged _ m
    · obtain ⟨e, f, hget, rfl, hbefore, hafter, hsame⟩ := hrecords m' rfl
      obtain ⟨-, rfl⟩ := mem_of_get hget
      exact .replaced _ e f hget (.attested hattests hbefore hafter) hsame

/-! ## What follows for the entries -/

theorem replace_map_nonce (hf : ∀ e, (f e).approvalNonce = e.approvalNonce) (m : Entries) :
    (replace m nonce f).map (·.approvalNonce) = m.map (·.approvalNonce) := by
  induction m with
  | nil => rfl
  | cons e m ih =>
    unfold replace
    split_ifs
    · simp [hf]
    · simp [ih]

theorem mem_replace (h : e' ∈ replace m nonce f) :
    e' ∈ m ∨ ∃ e, get m nonce = some e ∧ e' = f e := by
  induction m with
  | nil => exact absurd h not_mem_nil
  | cons e m ih =>
    unfold replace at h
    split_ifs at h with he
    · rcases mem_cons.mp h with rfl | h
      · exact .inr ⟨e, by rw [get_cons, if_pos he], rfl⟩
      · exact .inl (mem_cons_of_mem _ h)
    · rcases mem_cons.mp h with rfl | h
      · exact .inl mem_cons_self
      · rcases ih h with h | ⟨e₁, hget, rfl⟩
        · exact .inl (mem_cons_of_mem _ h)
        · refine .inr ⟨e₁, ?_, rfl⟩
          rw [get_cons, if_neg he, hget]

theorem eq_of_mem_replace (hnodup : (m.map (·.approvalNonce)).Nodup)
    (hf : ∀ e, (f e).approvalNonce = e.approvalNonce) (hget : get m nonce = some e)
    (h : e' ∈ replace m nonce f) (hnonce : e'.approvalNonce = nonce) : e' = f e := by
  have hnodup' : ((replace m nonce f).map (·.approvalNonce)).Nodup := by
    rwa [replace_map_nonce hf]
  have hmem : f e ∈ replace m nonce f := by
    clear h hnodup hnodup'
    induction m with
    | nil => cases hget
    | cons e₁ m ih =>
      unfold replace
      rw [get_cons] at hget
      split_ifs at hget ⊢ with he
      · rw [Option.some.inj hget]
        exact mem_cons_self
      · exact mem_cons_of_mem _ (ih hget)
  refine inj_on_of_nodup_map hnodup' h hmem ?_
  rw [hnonce, hf, (mem_of_get hget).2]

theorem Outcome.nodup (h : Outcome op m m') (hnodup : (m.map (·.approvalNonce)).Nodup) :
    (m'.map (·.approvalNonce)).Nodup := by
  have hkept (keep : PendingApproval → Bool) : ((m.filter keep).map (·.approvalNonce)).Nodup :=
    hnodup.sublist (filter_sublist.map _)
  cases h with
  | dropped keep => exact hkept keep
  | inserted keep entry hinserts hfresh =>
    rw [map_append, map_singleton, ← concat_eq_append]
    exact (hkept keep).concat hfresh
  | replaced nonce e f hget hchange hsame => rwa [replace_map_nonce hsame]

theorem Outcome.mem (h : Outcome op m m') (hmem : e' ∈ m') : e' ∈ m ∨ op.inserts = some e' ∨
      ∃ e ∈ m, get m e'.approvalNonce = some e ∧ e.approvalNonce = e'.approvalNonce ∧
        Change op e e' := by
  cases h with
  | dropped keep => exact .inl (mem_of_mem_filter hmem)
  | inserted keep entry hinserts hfresh =>
    rcases mem_append.mp hmem with hmem | hmem
    · exact .inl (mem_of_mem_filter hmem)
    · rw [mem_singleton.mp hmem]
      exact .inr (.inl hinserts)
  | replaced nonce e f hget hchange hsame =>
    rcases mem_replace hmem with hmem | ⟨e₁, hget₁, rfl⟩
    · exact .inl hmem
    · obtain rfl : e = e₁ := Option.some.inj (hget.symm.trans hget₁)
      obtain ⟨hold, rfl⟩ := mem_of_get hget
      exact .inr (.inr ⟨e, hold, by rwa [hsame], (hsame e).symm, hchange⟩)

/-! ## The invariants of a run -/

/-- An insertion brings a nonce that none before it brought, or one that the open store holds while
nothing in it has expired. -/
def Fresh (w : World) : Event → Prop
  | .call process (.insert entry nowUnixMs) _ => entry.approvalNonce ∉ w.issued ∨
      ∀ m, w.holder = some (process, m) → entry.approvalNonce ∈ m.map (·.approvalNonce) ∧
        ∀ e ∈ m, e.isExpired nowUnixMs = false
  | _ => True

/-- No write fails, and no tombstone is replaced. -/
def Settled (w : World) : Event → Prop
  | .call process op written => written = true ∧ ∀ m nonce e, w.holder = some (process, m) →
      op.entombs = some nonce → Store.get m nonce = some e → e.kind.isTombstone = false
  | _ => True

structure Inv (w : World) : Prop where
  /-- Memory and file agree. -/
  agree : ∀ process m, w.holder = some (process, m) → m = w.disk
  nodup : (w.disk.map (·.approvalNonce)).Nodup
  issued : ∀ e ∈ w.disk, e.approvalNonce ∈ w.issued
  attested_issued : ∀ nonce ∈ w.attested, nonce ∈ w.issued
  attested_nodup : w.attested.Nodup
  attested_recorded : ∀ e ∈ w.disk, e.approvalNonce ∈ w.attested → recorded e = true

theorem records_of_attested (hok : ((op.attempt m).result written).toBool = true)
    (h : op.attests = some nonce) : Records m nonce (op.attempt m).entries := by
  obtain ⟨x, hattempt, hrecords⟩ := attempt_of_attests h m
  rw [hattempt] at hok ⊢
  rcases x with e | m'
  · simp [recording, Attempt.result, Attempt.landed, Except.toBool] at hok
  · exact hrecords m' rfl

theorem call_disk
    (h : (op.attempt w.disk).entries = w.disk ∨
      ((op.attempt w.disk).persists = true ∧ written = true)) :
    (w.call w.disk process op written).disk = (op.attempt w.disk).entries := by
  simp only [World.call]
  rcases h with h | ⟨hpersists, rfl⟩
  · rw [h, ite_self]
  · rw [hpersists]
    rfl

/-- What an operation does not write it does not change, when it is no insertion of a nonce that the
store holds. -/
theorem entries_of_not_persists
    (hfresh : ∀ entry, op.inserts = some entry → entry.approvalNonce ∉ m.map (·.approvalNonce))
    (h : (op.attempt m).persists = false) : (op.attempt m).entries = m := by
  have hrecording : ∀ x, (recording m x).persists = false → (recording m x).entries = m := by
    rintro (e | m') hx
    · rfl
    · cases hx
  have hreplacing : ∀ nonce x, (replacing m nonce x).persists = false →
      (replacing m nonce x).entries = m := by
    intro nonce x hx
    unfold replacing at hx ⊢
    split at hx
    · rfl
    · rfl
    · cases hx
  have hfilter : ∀ keep : PendingApproval → Bool, m.length ≤ (m.filter keep).length →
      m.filter keep = m := fun keep => filter_sublist.eq_of_length_le
  cases op with
  | insert entry nowUnixMs =>
    simp only [Op.attempt] at h ⊢
    split_ifs at h ⊢ with hfull hdup
    obtain ⟨e, he, hnonce⟩ := any_eq_true.1 hdup
    refine absurd (mem_map.2 ⟨e, mem_of_mem_filter he, ?_⟩) (hfresh entry rfl)
    exact of_decide_eq_true hnonce
  | reject nonce nowUnixMs ttlMs => exact hreplacing _ _ h
  | consume nonce txHash outcome => exact hreplacing _ _ h
  | remove nonce => exact hfilter _ (not_lt.1 (of_decide_eq_false h))
  | gcExpired nowUnixMs =>
    have hnone := of_decide_eq_false h
    refine hfilter _ ?_
    show m.length ≤ (Store.gcExpired m nowUnixMs).length
    omega
  | _ => exact hrecording _ h

/-- An insertion of a nonce that the store holds is refused, and nothing happens when nothing has
expired. -/
theorem attempt_of_held {entry : PendingApproval}
    (hheld : entry.approvalNonce ∈ m.map (·.approvalNonce))
    (hlive : ∀ e ∈ m, e.isExpired nowMs = false) :
    ∃ persists err, (Op.insert entry nowMs).attempt m = ⟨m, persists, .error err⟩ := by
  have hkept : Store.gcExpired m nowMs = m := filter_eq_self.2 (by simpa using hlive)
  simp only [Op.attempt, hkept]
  split_ifs with hfull hdup
  · exact ⟨_, _, rfl⟩
  · exact ⟨_, _, rfl⟩
  · obtain ⟨e, he, hnonce⟩ := mem_map.1 hheld
    exact absurd (any_eq_true.2 ⟨e, he, decide_eq_true hnonce⟩) hdup

theorem mem_attested_call (h : nonce ∈ (w.call w.disk process op written).attested) :
    nonce ∈ w.attested ∨ Records w.disk nonce (op.attempt w.disk).entries := by
  simp only [World.call] at h
  split_ifs at h with hok
  · rcases mem_append.mp h with h | h
    · exact .inr (records_of_attested hok (Option.mem_toList.mp h))
    · exact .inl h
  · exact .inl h

theorem Inv.call (h : Inv w)
    (hfresh : ∀ entry, op.inserts = some entry → entry.approvalNonce ∉ w.issued)
    (hsettled : (op.attempt w.disk).entries = w.disk ∨
      ((op.attempt w.disk).persists = true ∧ written = true)) :
    Inv (w.call w.disk process op written) := by
  have hdisk : (w.call w.disk process op written).disk = _ := call_disk hsettled
  have hspec := attempt_spec op w.disk
  -- an entry that is attested has no successor that is not
  have hnew : ∀ nonce ∈ w.attested, ¬ Records w.disk nonce (op.attempt w.disk).entries := by
    rintro nonce hnonce ⟨e, f, hget, -, hbefore, -⟩
    obtain ⟨hmem, rfl⟩ := mem_of_get hget
    rw [h.attested_recorded e hmem hnonce] at hbefore
    cases hbefore
  refine ⟨?_, ?_, ?_, ?_, ?_, ?_⟩
  · rintro process' m hm
    rw [hdisk]
    simp only [World.call, Option.some.injEq, Prod.mk.injEq] at hm
    exact hm.2.symm
  · rw [hdisk]
    exact hspec.nodup h.nodup
  · rw [hdisk]
    intro e' he'
    refine mem_append.mpr ?_
    rcases hspec.mem he' with hold | hinserts | ⟨e, hold, -, hnonce, -⟩
    · exact .inr (h.issued e' hold)
    · refine .inl (mem_map.mpr ⟨e', ?_, rfl⟩)
      exact Option.mem_toList.mpr hinserts
    · exact .inr (hnonce ▸ h.issued e hold)
  · intro nonce hnonce
    refine mem_append_right _ ?_
    rcases mem_attested_call hnonce with hold | ⟨e, f, hget, -⟩
    · exact h.attested_issued nonce hold
    · obtain ⟨hmem, rfl⟩ := mem_of_get hget
      exact h.issued e hmem
  · simp only [World.call]
    split_ifs with hok
    · rcases hattests : op.attests with _ | nonce
      · exact h.attested_nodup
      · refine nodup_cons.mpr ⟨fun hmem => ?_, h.attested_nodup⟩
        exact hnew nonce hmem (records_of_attested hok hattests)
    · exact h.attested_nodup
  · rw [hdisk]
    intro e' he' hnonce
    rcases mem_attested_call hnonce with hold | ⟨e, f, hget, heq, -, hafter, hsame⟩
    · rcases hspec.mem he' with hmem | hinserts | ⟨e, hmem, -, hsame, hchange⟩
      · exact h.attested_recorded e' hmem hold
      · exact absurd (h.attested_issued _ hold) (hfresh e' hinserts)
      · cases hchange with
        | attested _ _ hafter => exact hafter
        | entombed _ hafter => exact recorded_of_tombstone hafter
    · rw [heq] at he'
      rw [eq_of_mem_replace h.nodup hsame hget he' rfl]
      exact hafter

/-- What a call of a process that has the store open is: an insertion that is refused and changes
nothing, or an operation that is written or changes nothing and brings no nonce that was there. -/
theorem Inv.call_cases (h : Inv w) (hholder : w.holder = some (process, w.disk))
    (hfresh : Fresh w (.call process op written)) (hsettled : Settled w (.call process op written)) :
    (op.attests = none ∧ ∃ persists err, op.attempt w.disk = ⟨w.disk, persists, .error err⟩) ∨
      (∀ entry, op.inserts = some entry → entry.approvalNonce ∉ w.issued) ∧
        ((op.attempt w.disk).entries = w.disk ∨
          ((op.attempt w.disk).persists = true ∧ written = true)) := by
  have hnew : (∀ entry, op.inserts = some entry → entry.approvalNonce ∉ w.issued) →
      (op.attempt w.disk).entries = w.disk ∨
        ((op.attempt w.disk).persists = true ∧ written = true) := by
    intro hnonce
    rcases hpersists : (op.attempt w.disk).persists with _ | _
    · refine .inl (entries_of_not_persists (fun entry hentry hmem => ?_) hpersists)
      obtain ⟨e, he, heq⟩ := mem_map.1 hmem
      exact hnonce entry hentry (heq ▸ h.issued e he)
    · exact .inr ⟨rfl, hsettled.1⟩
  rcases hinserts : op.inserts with _ | entry
  · exact .inr ⟨by simp, hnew (by simp [hinserts])⟩
  · cases op <;> cases hinserts
    rcases hfresh with hnonce | hheld
    · have hall : ∀ e, some entry = some e → e.approvalNonce ∉ w.issued := by
        rintro e ⟨⟩
        exact hnonce
      exact .inr ⟨hall, hnew hall⟩
    · obtain ⟨hmem, hlive⟩ := hheld _ hholder
      exact .inl ⟨rfl, attempt_of_held hmem hlive⟩

/-- A refused call leaves the file, the memory and the attestations as they were. -/
theorem call_of_refused {persists : Bool} {err : ApprovalError}
    (h : op.attempt w.disk = ⟨w.disk, persists, .error err⟩) (hattests : op.attests = none) :
    w.call w.disk process op written = { w with
      holder := some (process, w.disk)
      issued := op.inserts.toList.map (·.approvalNonce) ++ w.issued } := by
  simp [World.call, h, hattests]

/-- A step changes nothing, opens or closes the store, or is a call of the process that has it
open. -/
theorem World.step_cases (w : World) (event : Event) : w.step event = w ∨
    (∃ process, w.step event = { w with holder := some (process, w.disk) }) ∨
    w.step event = { w with holder := none } ∨
    ∃ process op written m, event = .call process op written ∧ w.holder = some (process, m) ∧
      w.step event = w.call m process op written := by
  cases event with
  | opened process =>
    simp only [World.step]
    split_ifs
    · exact .inr (.inl ⟨process, rfl⟩)
    · exact .inl rfl
  | closed process =>
    simp only [World.step]
    split_ifs
    · exact .inr (.inr (.inl rfl))
    · exact .inl rfl
  | call process op written =>
    simp only [World.step]
    rcases hholder : w.holder with _ | ⟨holder, m⟩
    · exact .inl rfl
    · simp only
      split_ifs with hprocess
      · subst hprocess
        exact .inr (.inr (.inr ⟨holder, op, written, m, rfl, rfl, rfl⟩))
      · exact .inl rfl

theorem Inv.step (h : Inv w) (event : Event) (hfresh : Fresh w event) (hsettled : Settled w event) :
    Inv (w.step event) := by
  rcases w.step_cases event with hs | ⟨process, hs⟩ | hs |
    ⟨process, op, written, m, rfl, hholder, hs⟩ <;> rw [hs]
  · exact h
  · exact { h with agree := fun _ _ hm => (Prod.mk.inj (Option.some.inj hm)).2.symm }
  · exact { h with agree := fun _ _ hm => by cases hm }
  · obtain rfl := h.agree process m hholder
    rcases h.call_cases hholder hfresh hsettled with ⟨hattests, persists, err, hrefused⟩ | hcall
    · rw [call_of_refused hrefused hattests]
      exact { h with
        agree := fun _ _ hm => (Prod.mk.inj (Option.some.inj hm)).2.symm
        issued := fun e he => mem_append_right _ (h.issued e he)
        attested_issued := fun nonce hnonce => mem_append_right _ (h.attested_issued nonce hnonce) }
    · exact h.call hcall.1 hcall.2

/-- Every entry under the nonce is the tombstone of kind `kind`. -/
structure Final (nonce : String) (kind : ApprovalKind) (w : World) : Prop where
  issued : nonce ∈ w.issued
  kind : ∀ e ∈ w.disk, e.approvalNonce = nonce → e.kind = kind

theorem Final.step {kind : ApprovalKind} (hkind : kind.isTombstone = true) (h : Inv w)
    (hfinal : Final nonce kind w) (event : Event) (hfresh : Fresh w event)
    (hsettled : Settled w event) : Final nonce kind (w.step event) := by
  rcases w.step_cases event with hs | ⟨process, hs⟩ | hs |
    ⟨process, op, written, m, rfl, hholder, hs⟩ <;> rw [hs]
  · exact hfinal
  · exact ⟨hfinal.issued, hfinal.kind⟩
  · exact ⟨hfinal.issued, hfinal.kind⟩
  · obtain rfl := h.agree process m hholder
    refine ⟨mem_append_right _ hfinal.issued, fun e' he' hnonce => ?_⟩
    rcases h.call_cases hholder hfresh hsettled with
      ⟨hattests, persists, err, hrefused⟩ | ⟨hnew, hwritten⟩
    · rw [call_of_refused hrefused hattests] at he'
      exact hfinal.kind e' he' hnonce
    rw [call_disk hwritten] at he'
    rcases (attempt_spec op w.disk).mem he' with hold | hinserts | ⟨e, hold, hget, hsame, hchange⟩
    · exact hfinal.kind e' hold hnonce
    · exact absurd (hnonce ▸ hfinal.issued) (hnew e' hinserts)
    · -- the entry before is the tombstone, which neither attests nor is replaced
      have htomb : e.kind.isTombstone = true := by
        rw [hfinal.kind e hold (hsame.trans hnonce), hkind]
      cases hchange with
      | attested _ hbefore _ =>
        rw [recorded_of_tombstone htomb] at hbefore
        cases hbefore
      | entombed hop _ =>
        rw [hsettled.2 _ _ e hholder (hsame ▸ hop) hget] at htomb
        cases htomb

/-- Along every run whose insertions bring fresh nonces, whose writes do not fail and whose
tombstones are not replaced: a nonce is attested once, the memory of the open store is the file, and
a tombstone keeps its kind, its hash and its outcome for as long as the file has its nonce. -/
theorem life_cycle (events later : List Event)
    (h : Along World.step (fun w event => Fresh w event ∧ Settled w event) {} (events ++ later)) :
    (run World.step {} events).attested.Nodup ∧
      (∀ process m, (run World.step {} events).holder = some (process, m) →
        m = (run World.step {} events).disk) ∧
      ∀ nonce e e', Store.get (run World.step {} events).disk nonce = some e →
        e.kind.isTombstone = true →
        Store.get (run World.step {} (events ++ later)).disk nonce = some e' → e'.kind = e.kind := by
  have hstep : ∀ w event, Inv w → Fresh w event ∧ Settled w event → Inv (w.step event) :=
    fun w event hinv hok => hinv.step event hok.1 hok.2
  have hinit : Inv {} := by constructor <;> simp
  have hinv := run_invariant_along hstep events {} hinit h.left
  refine ⟨hinv.attested_nodup, hinv.agree, fun nonce e e' hget htomb hget' => ?_⟩
  obtain ⟨hmem, rfl⟩ := mem_of_get hget
  have hfinal : Final e.approvalNonce e.kind (run World.step {} events) := by
    refine ⟨hinv.issued e hmem, fun e₁ hmem₁ hnonce => ?_⟩
    rw [inj_on_of_nodup_map hinv.nodup hmem₁ hmem hnonce]
  have hboth : ∀ w event, Inv w ∧ Final e.approvalNonce e.kind w → Fresh w event ∧ Settled w event →
      Inv (w.step event) ∧ Final e.approvalNonce e.kind (w.step event) :=
    fun w event hw hok =>
      ⟨hw.1.step event hok.1 hok.2, hw.2.step htomb hw.1 event hok.1 hok.2⟩
  have hlater := run_invariant_along hboth later _ ⟨hinv, hfinal⟩ h.right
  rw [run_append] at hget'
  obtain ⟨hmem', hnonce⟩ := mem_of_get hget'
  exact hlater.2.kind e' hmem' hnonce

/-! ## The size of the store -/

/-- No more entries than the store may hold, and one for each nonce. -/
structure Bounded (m : Entries) : Prop where
  length : m.length ≤ maxPendingApprovals
  nodup : (m.map (·.approvalNonce)).Nodup

theorem Bounded.attempt (h : Bounded m) (op : Op) : Bounded (op.attempt m).entries := by
  have hspec := attempt_spec op m
  refine ⟨?_, hspec.nodup h.nodup⟩
  have hkept : ∀ keep : PendingApproval → Bool, (m.filter keep).length ≤ maxPendingApprovals :=
    fun keep => (length_filter_le keep m).trans h.length
  rcases hinserts : op.inserts with - | entry
  · generalize (op.attempt m).entries = m' at hspec ⊢
    cases hspec with
    | dropped keep => exact hkept keep
    | inserted keep entry hinserted => simp [hinserts] at hinserted
    | replaced nonce e f hget hchange hsame =>
      have hlength : (replace m nonce f).length = m.length := by
        simpa using congrArg List.length (replace_map_nonce hsame m)
      exact hlength.trans_le h.length
  · -- only an insertion adds an entry, and it counts what the sweep leaves
    cases op <;> cases hinserts
    simp only [Op.attempt]
    split_ifs with hfull
    · exact hkept _
    · exact hkept _
    · rw [length_append, length_singleton]
      exact not_le.mp hfull

/-- **The store never overflows.**  After every run of any processes, with any writes failing, the
file and the entries of the process that has it open are bounded, and no nonce is there twice. -/
theorem bounded_of_run (events : List Event) : Bounded (run World.step {} events).disk ∧
    ∀ held ∈ (run World.step {} events).holder, Bounded held.2 := by
  refine run_invariant (P := fun w : World => Bounded w.disk ∧ ∀ held ∈ w.holder, Bounded held.2)
    (fun w event h (_ : True) => ?_) events {} ?_ fun _ _ => trivial
  · rcases w.step_cases event with hs | ⟨process, hs⟩ | hs |
      ⟨process, op, written, m, -, hholder, hs⟩ <;> rw [hs]
    · exact h
    · exact ⟨h.1, by simpa using h.1⟩
    · exact ⟨h.1, by simp⟩
    · have hm := (h.2 _ hholder).attempt op
      refine ⟨?_, by simpa [World.call] using hm⟩
      simp only [World.call]
      split_ifs
      · exact hm
      · exact h.1
  · exact ⟨⟨by simp, by simp⟩, by simp⟩

def payment : PendingApproval where
  approvalNonce := "n"
  processUid := "1000"
  createdAtUnixMs := 0
  expiresAtUnixMs := 100
  kind := .paymentSimulated "00"

def spentOn : String := String.ofList (List.replicate 64 'a')

def spending : List Event :=
  [.opened 0, .call 0 (.insert payment 1) true, .call 0 (.recordAttestation "n" "blob" 2) true,
    .call 0 (.consume "n" spentOn .confirmed) true]

def spent : PendingApproval :=
  { payment with kind := .consumed "PaymentSimulated" spentOn .confirmed,
                 attestationBlob := some "blob" }

/-- The same nonce is brought again while the payment is pending, and refused. -/
def spendingTwice : List Event :=
  spending.take 2 ++ .call 0 (.insert payment 1) true :: spending.drop 2

theorem spending_final : Store.get (run World.step {} spendingTwice).disk "n" = some spent ∧
      Store.get (run World.step {} (spendingTwice ++ [.closed 0, .opened 1])).disk "n" = some spent ∧
      spent.kind.isTombstone = true ∧ (run World.step {} spendingTwice).attested.Nodup := by
  refine ⟨by decide +kernel, by decide +kernel, rfl, ?_⟩
  refine (life_cycle spendingTwice [.closed 0, .opened 1] ?_).1
  refine ⟨⟨trivial, trivial⟩, ⟨.inl not_mem_nil, rfl, ?_⟩, ⟨.inr ?_, rfl, ?_⟩, ⟨trivial, rfl, ?_⟩,
    ⟨trivial, rfl, ?_⟩, ⟨trivial, trivial⟩, ⟨trivial, trivial⟩, trivial⟩
  · rintro m nonce e h hnonce
    cases hnonce
  · rintro m h
    cases h
    decide +kernel
  · rintro m nonce e h hnonce
    cases hnonce
  · rintro m nonce e h hnonce
    cases hnonce
  · rintro m nonce e h hnonce hget
    cases h
    cases hnonce
    cases hget
    rfl

/-- A payment, and its rejection whose write fails. -/
def failedReject : List Event :=
  [.opened 0, .call 0 (.insert payment 1) true, .call 0 (.reject "n" 5 100) false]

/-- The rejection fails and stays in memory only; the next insertion writes it to the file.  And a
spent approval turns into a rejected one. -/
theorem refused_reject_lands : ((Op.reject "n" 5 100).attempt [payment]).result false = .error .io ∧
      (run World.step {} failedReject).disk = [payment] ∧
      (run World.step {} failedReject).holder ≠ some (0, [payment]) ∧
      (Store.get (run World.step {} (failedReject ++
        [.call 0 (.insert { payment with approvalNonce := "other" } 6) true])).disk "n").map
          (·.kind) = some (.rejected "PaymentSimulated") ∧
      (Store.get (run World.step {} (spending ++ [.call 0 (.reject "n" 5 100) true])).disk "n").map
        (·.kind) = some (.rejected "Consumed") := by
  refine ⟨rfl, ?_, ?_, ?_, ?_⟩ <;> decide +kernel

end AgentWallet.Approval.LifeCycle
