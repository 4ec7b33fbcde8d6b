import AgentWallet.Base.Interleaving

/-!
# The channel pool and the ledger

`submit_pooled` takes a lease of a free channel, submits one transaction with the next sequence
number and releases the channel with the outcome.  The pool never asks the ledger for a sequence
number except after `tx_bad_seq`: it counts.
-/

namespace AgentWallet.Pool.Channels

open Base.Runs Base.Interleaving List

/-! ## The pool -/

inductive ChannelStatus where
  | free
  | inFlight
deriving DecidableEq

structure ChannelEntry where
  index : ℕ
  publicKey : String
  sequenceNumber : ℤ
  status : ChannelStatus
deriving DecidableEq

structure ChannelLease where
  index : ℕ
  publicKey : String
  sequenceNumber : ℤ
deriving DecidableEq

inductive TerminalOutcome where
  | success
  | txBadSeq
  | failed

inductive PoolError where
  | poolExhausted (poolSize : ℕ)
  | notInitialised
deriving DecidableEq

def acquireFirst : List ChannelEntry → Option (ChannelLease × List ChannelEntry)
  | [] => none
  | c :: cs =>
    if c.status = .free then
      some (⟨c.index, c.publicKey, c.sequenceNumber⟩, { c with status := .inFlight } :: cs)
    else (acquireFirst cs).map fun (lease, cs') => (lease, c :: cs')

def acquire (channels : List ChannelEntry) : Except PoolError (ChannelLease × List ChannelEntry) :=
  if channels.length = 0 then .error .notInitialised
  else
    match acquireFirst channels with
    | some (lease, channels') => .ok (lease, channels')
    | none => .error (.poolExhausted channels.length)

/-- The first channel with the index is changed. -/
def modifyFirst (index : ℕ) (f : ChannelEntry → ChannelEntry) : List ChannelEntry → List ChannelEntry
  | [] => []
  | c :: cs => if c.index = index then f c :: cs else c :: modifyFirst index f cs

def released (outcome : TerminalOutcome) (freshSequence : Option ℤ) (c : ChannelEntry) :
    ChannelEntry :=
  match outcome with
  | .success => { c with sequenceNumber := c.sequenceNumber + 1, status := .free }
  | .txBadSeq =>
    { c with sequenceNumber := freshSequence.getD c.sequenceNumber, status := .free }
  | .failed => { c with status := .free }

def release (lease : ChannelLease) (outcome : TerminalOutcome) (freshSequence : Option ℤ)
    (channels : List ChannelEntry) : List ChannelEntry :=
  modifyFirst lease.index (released outcome freshSequence) channels

def updateSequence (index : ℕ) (freshSequence : ℤ) (channels : List ChannelEntry) :
    List ChannelEntry :=
  modifyFirst index (fun c => { c with sequenceNumber := freshSequence }) channels

/-! ## Submissions -/

variable {lease : ChannelLease}

/-- An error of a submission: its wire code and its text. -/
structure WalletError where
  code : String
  text : String

/-- The code of `SubmissionError::SequenceNumberStale`, or a text that names `tx_bad_seq`. -/
def isTxBadSeq (e : WalletError) : Bool :=
  e.code = "submission.sequence_number_stale" ||
    (("submission.".toList.isPrefixOf e.code.toList || "ledger.".toList.isPrefixOf e.code.toList) &&
      (decide ("tx_bad_seq".toList <:+: e.text.toList.map Char.toLower) ||
        decide ("txbadseq".toList <:+: e.text.toList.map Char.toLower)))

/-- A transaction: the channel that is its source, and its sequence number. -/
abbrev Tx := ℕ × ℤ

/-- The pool and the ledger: the sequence number of every channel's account, the transactions that
may still be applied, and those that were.  `refetching` are the channels that were released with
`tx_bad_seq` and for which no fresh number has been written since. -/
structure Shared where
  channels : List ChannelEntry
  onChain : ℕ → ℤ
  pending : List Tx
  applied : List Tx
  refetching : List ℕ

/-- Where a call of `submit_pooled` stands. -/
inductive Phase where
  | idle
  | leased (lease : ChannelLease)
  | submitted (lease : ChannelLease)
  | fetching (index : ℕ)
  | writing (index : ℕ) (freshSequence : ℤ)

/-- An action of a call with what its surroundings answer, or of the ledger. -/
inductive Action where
  | acquire
  /-- Deriving the key, building or signing fails. -/
  | abandon
  | submit
  /-- What `submit_transaction_and_wait` returns. -/
  | result (result : Except WalletError Unit)
  /-- What `fetch_account` returns. -/
  | fetch (sequenceNumber : Option ℤ)
  | write
  | ledgerApplies (tx : Tx)
  | ledgerDrops (tx : Tx)

def ChannelLease.tx (lease : ChannelLease) : Tx := (lease.index, lease.sequenceNumber + 1)

/-- The ledger applies a pending transaction with the next sequence number. -/
def ledgerApplies (s : Shared) (tx : Tx) : Shared :=
  if tx ∈ s.pending ∧ tx.2 = s.onChain tx.1 + 1 then
    { s with
      onChain := Function.update s.onChain tx.1 tx.2
      pending := s.pending.filter (· ≠ tx)
      applied := tx :: s.applied }
  else s

def ledgerDrops (s : Shared) (tx : Tx) : Shared :=
  { s with pending := s.pending.filter (· ≠ tx) }

/-- The end of a submission: the outcome is told from the error. -/
def finish (s : Shared) (lease : ChannelLease) : Except WalletError Unit → Shared × Phase
  | .ok () => ({ s with channels := release lease .success none s.channels }, .idle)
  | .error e =>
    if isTxBadSeq e then
      ({ s with
          channels := release lease .txBadSeq none s.channels
          refetching := lease.index :: s.refetching },
        .fetching lease.index)
    else ({ s with channels := release lease .failed none s.channels }, .idle)

/-- A step of a process, or of the ledger. -/
def act (s : Shared) : Phase → Action → Shared × Phase
  | .idle, .acquire =>
    match acquire s.channels with
    | .ok (lease, channels) => ({ s with channels := channels }, .leased lease)
    | .error _ => (s, .idle)
  | .leased lease, .abandon =>
    ({ s with channels := release lease .failed none s.channels }, .idle)
  | .leased lease, .submit => ({ s with pending := lease.tx :: s.pending }, .submitted lease)
  | .submitted lease, .result result => finish s lease result
  | .fetching _, .fetch none => (s, .idle)
  | .fetching index, .fetch (some sequenceNumber) => (s, .writing index sequenceNumber)
  | .writing index freshSequence, .write =>
    ({ s with
        channels := updateSequence index freshSequence s.channels
        refetching := s.refetching.filter (· ≠ index) },
      .idle)
  | phase, .ledgerApplies tx => (ledgerApplies s tx, phase)
  | phase, .ledgerDrops tx => (ledgerDrops s tx, phase)
  | phase, _ => (s, phase)

/-- The condition.  A confirmed transaction was applied; one that is released as failed was not
applied and cannot be, one with `tx_bad_seq` cannot be applied any more; a channel is not handed out
while its sequence number is being re-fetched, and what is written then is the ledger's number. -/
def Counted (s : Shared) : Phase → Action → Prop
  | .idle, .acquire => ∀ lease channels, acquire s.channels = .ok (lease, channels) →
    lease.index ∉ s.refetching
  | .submitted lease, .result (.ok ()) => lease.tx ∈ s.applied
  | .submitted lease, .result (.error e) =>
    lease.tx ∉ s.pending ∧ (isTxBadSeq e = false → lease.tx ∉ s.applied)
  | .writing index freshSequence, .write => freshSequence = s.onChain index
  | _, _ => True

/-! ## Operations of the pool as maps -/

variable {q : Phase} {c : Config Shared Phase}

/-- The channel with the index is changed, wherever it is. -/
def modify (index : ℕ) (f : ChannelEntry → ChannelEntry) (channels : List ChannelEntry) :
    List ChannelEntry :=
  channels.map fun c => if c.index = index then f c else c

theorem modifyFirst_eq {index : ℕ} {f : ChannelEntry → ChannelEntry} :
    ∀ {channels : List ChannelEntry}, (channels.map (·.index)).Nodup →
      modifyFirst index f channels = modify index f channels
  | [], _ => rfl
  | c :: cs, h => by
    rw [map_cons, nodup_cons] at h
    unfold modifyFirst modify
    rw [map_cons]
    by_cases hc : c.index = index
    · rw [if_pos hc, if_pos hc]
      congr 1
      refine (map_id _).symm.trans (map_congr_left fun d hd => ?_)
      rw [if_neg]
      · rfl
      · intro hd'
        exact h.1 (mem_map.2 ⟨d, hd, hd'.trans hc.symm⟩)
    · rw [if_neg hc, if_neg hc, modifyFirst_eq h.2]
      rfl

theorem acquireFirst_eq_some : ∀ {channels channels' : List ChannelEntry} {lease : ChannelLease},
    (channels.map (·.index)).Nodup → acquireFirst channels = some (lease, channels') →
      ⟨lease.index, lease.publicKey, lease.sequenceNumber, .free⟩ ∈ channels ∧
      channels' = modify lease.index (fun c => { c with status := .inFlight }) channels
  | [], _, _, _, h => by cases h
  | c :: cs, channels', lease, hnodup, h => by
    unfold acquireFirst at h
    have hnodup' := hnodup
    rw [map_cons, nodup_cons] at hnodup'
    split_ifs at h with hfree
    · cases h
      refine ⟨?_, ?_⟩
      · obtain ⟨index, publicKey, sequenceNumber, status⟩ := c
        obtain rfl : status = .free := hfree
        exact mem_cons_self
      · rw [← modifyFirst_eq hnodup]
        simp [modifyFirst]
    · obtain ⟨⟨lease', cs'⟩, hrest, heq⟩ := Option.map_eq_some_iff.1 h
      cases heq
      obtain ⟨hmem, rfl⟩ := acquireFirst_eq_some hnodup'.2 hrest
      refine ⟨mem_cons_of_mem _ hmem, ?_⟩
      unfold modify
      rw [map_cons, if_neg]
      intro hc
      exact hnodup'.1 (mem_map.2 ⟨_, hmem, hc.symm⟩)

theorem acquire_eq_ok {channels channels' : List ChannelEntry}
    (hnodup : (channels.map (·.index)).Nodup) (h : acquire channels = .ok (lease, channels')) :
    ⟨lease.index, lease.publicKey, lease.sequenceNumber, .free⟩ ∈ channels ∧
    channels' = modify lease.index (fun c => { c with status := .inFlight }) channels := by
  unfold acquire at h
  split_ifs at h
  rcases hfirst : acquireFirst channels with _ | ⟨lease', cs⟩
  · rw [hfirst] at h
    cases h
  · rw [hfirst] at h
    cases h
    exact acquireFirst_eq_some hnodup hfirst

section modify

variable {index : ℕ} {f : ChannelEntry → ChannelEntry} {channels : List ChannelEntry}

theorem mem_modify {c : ChannelEntry} (hf : ∀ c, (f c).index = c.index) :
    c ∈ modify index f channels ↔ (c.index = index ∧ ∃ d ∈ channels, d.index = index ∧ c = f d) ∨
      (c.index ≠ index ∧ c ∈ channels) := by
  unfold modify
  rw [mem_map]
  constructor
  · rintro ⟨d, hd, rfl⟩
    by_cases hi : d.index = index
    · rw [if_pos hi]
      exact .inl ⟨(hf d).trans hi, d, hd, hi, rfl⟩
    · rw [if_neg hi]
      exact .inr ⟨hi, hd⟩
  · rintro (⟨-, d, hd, hi, rfl⟩ | ⟨hi, hc⟩)
    · exact ⟨d, hd, if_pos hi⟩
    · exact ⟨c, hc, if_neg hi⟩

theorem map_index_modify (hf : ∀ c, (f c).index = c.index) :
    (modify index f channels).map (·.index) = channels.map (·.index) := by
  unfold modify
  rw [map_map]
  refine map_congr_left fun c _ => ?_
  simp only [Function.comp]
  split_ifs with hi
  · exact hf c
  · rfl

end modify

theorem index_released (outcome : TerminalOutcome) (fresh : Option ℤ) (c : ChannelEntry) :
    (released outcome fresh c).index = c.index := by
  cases outcome <;> rfl

theorem status_released (outcome : TerminalOutcome) (fresh : Option ℤ) (c : ChannelEntry) :
    (released outcome fresh c).status = .free := by
  cases outcome <;> rfl

/-! ## The invariant, channel by channel -/

/-- No transaction of the channel can be applied. -/
def Quiet (s : Shared) (index : ℕ) : Prop := ∀ n, (index, n) ∉ s.pending

structure Local (s : Shared) (index : ℕ) : Prop where
  free : ∀ c ∈ s.channels, c.index = index → c.status = .free → index ∉ s.refetching →
    c.sequenceNumber = s.onChain index ∧ Quiet s index
  refetching : index ∈ s.refetching →
    Quiet s index ∧ ∀ c ∈ s.channels, c.index = index → c.status = .free
  applied : ∀ n, (index, n) ∈ s.applied → n ≤ s.onChain index

structure Sound (s : Shared) : Prop where
  nodup : (s.channels.map (·.index)).Nodup
  channel : ∀ index, Local s index

def Entered (s : Shared) (lease : ChannelLease) : Prop :=
  ⟨lease.index, lease.publicKey, lease.sequenceNumber, .inFlight⟩ ∈ s.channels ∧
    lease.index ∉ s.refetching

def Asserts (s : Shared) : Phase → Prop
  | .idle => True
  | .leased lease =>
    Entered s lease ∧ s.onChain lease.index = lease.sequenceNumber ∧ Quiet s lease.index
  | .submitted lease =>
    Entered s lease ∧
    (∀ n, (lease.index, n) ∈ s.pending →
      n = lease.sequenceNumber + 1 ∧ s.onChain lease.index = lease.sequenceNumber) ∧
    (lease.tx ∈ s.applied → s.onChain lease.index = lease.sequenceNumber + 1) ∧
    (lease.tx ∉ s.applied → s.onChain lease.index = lease.sequenceNumber)
  | .fetching index | .writing index _ => index ∈ s.refetching

def concerns : Phase → Option ℕ
  | .idle => none
  | .leased lease | .submitted lease => some lease.index
  | .fetching index | .writing index _ => some index

def Apart (p q : Phase) : Prop := ∀ index, concerns p = some index → concerns q ≠ some index

theorem Apart.symm {p : Phase} (h : Apart p q) : Apart q p := fun index hq hp => h index hp hq

structure Agrees (s s' : Shared) (index : ℕ) : Prop where
  channels : ∀ c : ChannelEntry, c.index = index → (c ∈ s'.channels ↔ c ∈ s.channels)
  onChain : s'.onChain index = s.onChain index
  pending : ∀ n, (index, n) ∈ s'.pending ↔ (index, n) ∈ s.pending
  applied : ∀ n, (index, n) ∈ s'.applied ↔ (index, n) ∈ s.applied
  refetching : index ∈ s'.refetching ↔ index ∈ s.refetching

section

variable {s s' : Shared} {index : ℕ}

theorem Agrees.quiet (h : Agrees s s' index) (hq : Quiet s index) : Quiet s' index :=
  fun n hn => hq n ((h.pending n).1 hn)

theorem Agrees.channel (h : Agrees s s' index) (hl : Local s index) : Local s' index := by
  refine ⟨fun c hc hi hfree hr => ?_, fun hr => ?_, fun n hn => ?_⟩
  · obtain ⟨hseq, hq⟩ := hl.free c ((h.channels c hi).1 hc) hi hfree (mt h.refetching.2 hr)
    rw [h.onChain]
    exact ⟨hseq, h.quiet hq⟩
  · obtain ⟨hq, hfree⟩ := hl.refetching (h.refetching.1 hr)
    exact ⟨h.quiet hq, fun c hc hi => hfree c ((h.channels c hi).1 hc) hi⟩
  · rw [h.onChain]
    exact hl.applied n ((h.applied n).1 hn)

theorem Agrees.entered (h : Agrees s s' lease.index) (he : Entered s lease) : Entered s' lease :=
  ⟨(h.channels _ rfl).2 he.1, mt h.refetching.1 he.2⟩

variable {phase : Phase}

theorem Agrees.asserts (ha : Asserts s phase)
    (h : ∀ index, concerns phase = some index → Agrees s s' index) : Asserts s' phase := by
  cases phase with
  | idle => trivial
  | leased lease =>
    have hagrees := h lease.index rfl
    obtain ⟨he, hseq, hq⟩ := ha
    exact ⟨hagrees.entered he, hagrees.onChain.trans hseq, hagrees.quiet hq⟩
  | submitted lease =>
    have hagrees := h lease.index rfl
    obtain ⟨he, hpending, happlied, hnot⟩ := ha
    refine ⟨hagrees.entered he, fun n hn => ?_, fun hin => ?_, fun hnin => ?_⟩
    · rw [hagrees.onChain]
      exact hpending n ((hagrees.pending n).1 hn)
    · rw [hagrees.onChain]
      exact happlied ((hagrees.applied _).1 hin)
    · rw [hagrees.onChain]
      exact hnot (mt (hagrees.applied _).2 hnin)
  | fetching index | writing index freshSequence => exact (h index rfl).refetching.2 ha

/-- What an action of a call leaves: it touches one channel, the one that its next phase may be
about. -/
structure Kept (s : Shared) (next : Shared × Phase) (index : ℕ) : Prop where
  indices : next.1.channels.map (·.index) = s.channels.map (·.index)
  agrees : ∀ i, i ≠ index → Agrees s next.1 i
  channel : Local next.1 index
  asserts : Asserts next.1 next.2
  scope : ∀ i, concerns next.2 = some i → i = index

variable {next : Shared × Phase}

theorem Kept.sound (h : Kept s next index) (hs : Sound s) : Sound next.1 := by
  refine ⟨by rw [h.indices]; exact hs.nodup, fun i => ?_⟩
  by_cases hi : i = index
  · rw [hi]
    exact h.channel
  · exact (h.agrees i hi).channel (hs.channel i)

theorem Kept.others (h : Kept s next index) (hq : Asserts s q) (hne : concerns q ≠ some index) :
    Asserts next.1 q ∧ Apart next.2 q := by
  refine ⟨Agrees.asserts hq fun i hi => h.agrees i fun heq => hne (heq ▸ hi), fun i hi => ?_⟩
  rw [h.scope i hi]
  exact hne

theorem Sound.eq_of_index (h : Sound s) {c d : ChannelEntry} (hc : c ∈ s.channels)
    (hd : d ∈ s.channels) (hi : c.index = d.index) : c = d :=
  inj_on_of_nodup_map h.nodup hc hd hi

theorem agrees_modify {f : ChannelEntry → ChannelEntry} (hf : ∀ c, (f c).index = c.index) {i : ℕ}
    (hi : i ≠ index) : Agrees s { s with channels := modify index f s.channels } i := by
  refine ⟨fun c hc => ?_, rfl, fun _ => .rfl, fun _ => .rfl, .rfl⟩
  rw [mem_modify hf, hc]
  simp [hi]

/-! ## Actions of a call -/

theorem kept_acquire (h : Sound s) {channels : List ChannelEntry}
    (hacquire : acquire s.channels = .ok (lease, channels)) (hr : lease.index ∉ s.refetching) :
    Kept s ({ s with channels := channels }, .leased lease) lease.index ∧
    ∀ q, Asserts s q → concerns q ≠ some lease.index := by
  obtain ⟨hmem, rfl⟩ := acquire_eq_ok h.nodup hacquire
  obtain ⟨hseq, hquiet⟩ := (h.channel lease.index).free _ hmem rfl rfl hr
  have hf : ∀ c : ChannelEntry, ({ c with status := .inFlight } : ChannelEntry).index = c.index :=
    fun _ => rfl
  refine ⟨⟨map_index_modify hf, fun i hi => agrees_modify hf hi, ⟨fun c hc hi hfree _ => ?_,
    fun hin => absurd hin hr, (h.channel lease.index).applied⟩, ⟨⟨?_, hr⟩, hseq.symm, hquiet⟩,
    fun i hi => (Option.some.inj hi).symm⟩, fun q hq hc => ?_⟩
  · -- The channel of the lease is in flight now.
    rcases (mem_modify hf).1 hc with ⟨-, d, -, -, rfl⟩ | ⟨hne, -⟩
    · cases hfree
    · exact absurd hi hne
  · exact (mem_modify hf).2 (.inl ⟨rfl, _, hmem, rfl, rfl⟩)
  · -- Another call about this channel has it in flight, or is re-fetching its number.
    have hentered : ∀ other : ChannelLease, Entered s other → other.index ≠ lease.index := by
      intro other he hi
      have heq := h.eq_of_index he.1 hmem hi
      exact absurd (congrArg ChannelEntry.status heq) (by simp)
    cases q with
    | idle => cases hc
    | leased other | submitted other => exact hentered other hq.1 (Option.some.inj hc)
    | fetching i | writing i freshSequence => exact hr (Option.some.inj hc ▸ hq)

theorem kept_release (h : Sound s) (he : Entered s lease) {outcome : TerminalOutcome}
    (hquiet : Quiet s lease.index)
    (hseq : (released outcome none ⟨lease.index, lease.publicKey, lease.sequenceNumber,
      .inFlight⟩).sequenceNumber = s.onChain lease.index) :
    Kept s ({ s with channels := release lease outcome none s.channels }, .idle) lease.index := by
  have hf := index_released outcome none
  unfold release
  rw [modifyFirst_eq h.nodup]
  refine ⟨map_index_modify hf, fun i hi => agrees_modify hf hi, ⟨fun c hc hi _ _ => ⟨?_, hquiet⟩,
    fun hin => absurd hin he.2, (h.channel lease.index).applied⟩, trivial, fun i hi => (by cases hi)⟩
  rcases (mem_modify hf).1 hc with ⟨-, d, hd, hdi, rfl⟩ | ⟨hne, -⟩
  · rw [h.eq_of_index hd he.1 hdi]
    exact hseq
  · exact absurd hi hne

theorem kept_badSeq (h : Sound s) (hquiet : Quiet s lease.index) : Kept s ({ s with
        channels := release lease .txBadSeq none s.channels
        refetching := lease.index :: s.refetching }, .fetching lease.index) lease.index := by
  have hf := index_released .txBadSeq none
  unfold release
  rw [modifyFirst_eq h.nodup]
  refine ⟨map_index_modify hf, fun i hi => ?_, ⟨fun c _ _ _ hnot => ?_, fun _ => ⟨hquiet,
    fun c hc hi => ?_⟩, (h.channel lease.index).applied⟩, mem_cons_self,
    fun i hi => (Option.some.inj hi).symm⟩
  · have hagrees := agrees_modify (s := s) hf hi
    refine ⟨hagrees.channels, rfl, fun _ => .rfl, fun _ => .rfl, ?_⟩
    simp [hi]
  · exact absurd mem_cons_self hnot
  · rcases (mem_modify hf).1 hc with ⟨-, d, -, -, rfl⟩ | ⟨hne, -⟩
    · exact status_released ..
    · exact absurd hi hne

theorem kept_submit (h : Sound s) (ha : Asserts s (.leased lease)) :
    Kept s ({ s with pending := lease.tx :: s.pending }, .submitted lease) lease.index := by
  obtain ⟨he, hseq, hquiet⟩ := ha
  refine ⟨rfl, fun i hi => ⟨fun _ _ => .rfl, rfl, fun n => ?_, fun _ => .rfl, .rfl⟩,
    ⟨fun c hc hi hfree _ => ?_, fun hin => absurd hin he.2, (h.channel lease.index).applied⟩,
    ⟨he, fun n hn => ?_, fun hin => ?_, fun _ => hseq⟩, fun i hi => (Option.some.inj hi).symm⟩
  · simp [ChannelLease.tx, hi]
  · rw [h.eq_of_index hc he.1 hi] at hfree
    cases hfree
  · rcases mem_cons.1 hn with hn | hn
    · exact ⟨(Prod.mk.inj hn).2, hseq⟩
    · exact absurd hn (hquiet n)
  · -- An applied transaction has a number that the ledger has passed.
    have hle := (h.channel lease.index).applied _ hin
    omega

theorem kept_write (h : Sound s) {freshSequence : ℤ} (hin : index ∈ s.refetching)
    (hfresh : freshSequence = s.onChain index) : Kept s ({ s with
        channels := updateSequence index freshSequence s.channels
        refetching := s.refetching.filter (· ≠ index) }, .idle) index := by
  have hf : ∀ c : ChannelEntry,
      ({ c with sequenceNumber := freshSequence } : ChannelEntry).index = c.index := fun _ => rfl
  obtain ⟨hquiet, -⟩ := (h.channel index).refetching hin
  unfold updateSequence
  rw [modifyFirst_eq h.nodup]
  refine ⟨map_index_modify hf, fun i hi => ?_, ⟨fun c hc hi _ _ => ⟨?_, hquiet⟩, fun hin => ?_,
    (h.channel index).applied⟩, trivial, fun i hi => (by cases hi)⟩
  · have hagrees := agrees_modify (s := s) hf hi
    refine ⟨hagrees.channels, rfl, fun _ => .rfl, fun _ => .rfl, ?_⟩
    simp [hi]
  · rcases (mem_modify hf).1 hc with ⟨-, d, -, -, rfl⟩ | ⟨hne, -⟩
    · exact hfresh
    · exact absurd hi hne
  · simp at hin

/-! ## The ledger -/

theorem sound_ledgerDrops (h : Sound s) (tx : Tx) : Sound (ledgerDrops s tx) := by
  refine ⟨h.nodup, fun i => ⟨fun c hc hi hfree hr => ?_, fun hr => ?_, (h.channel i).applied⟩⟩
  · obtain ⟨hseq, hq⟩ := (h.channel i).free c hc hi hfree hr
    exact ⟨hseq, fun n hn => hq n (mem_filter.1 hn).1⟩
  · obtain ⟨hq, hfree⟩ := (h.channel i).refetching hr
    exact ⟨fun n hn => hq n (mem_filter.1 hn).1, hfree⟩

theorem asserts_ledgerDrops (ha : Asserts s phase) (tx : Tx) :
    Asserts (ledgerDrops s tx) phase := by
  cases phase with
  | leased lease => exact ⟨ha.1, ha.2.1, fun n hn => ha.2.2 n (mem_filter.1 hn).1⟩
  | submitted lease => exact ⟨ha.1, fun n hn => ha.2.1 n (mem_filter.1 hn).1, ha.2.2⟩
  | _ => exact ha

theorem sound_ledgerApplies (h : Sound s) (tx : Tx) : Sound (ledgerApplies s tx) := by
  obtain ⟨k, m⟩ := tx
  unfold ledgerApplies
  split_ifs with hnext
  · obtain ⟨hpending, hm⟩ := hnext
    dsimp only at hm
    refine ⟨h.nodup, fun i => ?_⟩
    have hloud : Quiet s i → i ≠ k := fun hq hi => hq m (hi ▸ hpending)
    refine ⟨fun c hc hi hfree hr => ?_, fun hr => ?_, fun n hn => ?_⟩
    · obtain ⟨hseq, hq⟩ := (h.channel i).free c hc hi hfree hr
      refine ⟨?_, fun n hn => hq n (mem_filter.1 hn).1⟩
      simp only [Function.update_of_ne (hloud hq)]
      exact hseq
    · obtain ⟨hq, hfree⟩ := (h.channel i).refetching hr
      exact ⟨fun n hn => hq n (mem_filter.1 hn).1, hfree⟩
    · by_cases hi : i = k
      · subst hi
        simp only [Function.update_self]
        rcases mem_cons.1 hn with hn | hn
        · exact (Prod.mk.inj hn).2.le
        · have hle := (h.channel i).applied n hn
          omega
      · simp only [Function.update_of_ne hi]
        rcases mem_cons.1 hn with hn | hn
        · exact absurd (Prod.mk.inj hn).1 hi
        · exact (h.channel i).applied n hn
  · exact h

theorem asserts_ledgerApplies (ha : Asserts s phase) (tx : Tx) :
    Asserts (ledgerApplies s tx) phase := by
  obtain ⟨k, m⟩ := tx
  unfold ledgerApplies
  split_ifs with hnext
  · obtain ⟨hpending, hm⟩ := hnext
    cases phase with
    | leased lease =>
      obtain ⟨he, hseq, hq⟩ := ha
      have hne : lease.index ≠ k := fun hi => hq m (hi ▸ hpending)
      refine ⟨he, ?_, fun n hn => hq n (mem_filter.1 hn).1⟩
      simp only [Function.update_of_ne hne]
      exact hseq
    | submitted lease =>
      obtain ⟨he, hpend, happlied, hnot⟩ := ha
      by_cases hi : lease.index = k
      · subst hi
        obtain ⟨rfl, hseq⟩ := hpend m hpending
        refine ⟨he, fun n hn => ?_, fun _ => ?_, fun hnin => ?_⟩
        · obtain ⟨hn, hne⟩ := mem_filter.1 hn
          obtain ⟨rfl, -⟩ := hpend n hn
          simp at hne
        · simp
        · exact absurd mem_cons_self hnin
      · simp only [Asserts, Function.update_of_ne hi]
        refine ⟨he, fun n hn => hpend n (mem_filter.1 hn).1, fun hin => happlied ?_,
          fun hnin => hnot fun hin => hnin (mem_cons_of_mem _ hin)⟩
        rcases mem_cons.1 hin with hin | hin
        · exact absurd (Prod.mk.inj hin).1 hi
        · exact hin
    | _ => exact ha
  · exact ha

/-! ## Runs -/

theorem quiet_of_submitted (ha : Asserts s (.submitted lease))
    (hgone : lease.tx ∉ s.pending ∨ lease.tx ∈ s.applied) : Quiet s lease.index := by
  obtain ⟨-, hpending, happlied, -⟩ := ha
  intro n hn
  obtain ⟨rfl, hseq⟩ := hpending n hn
  rcases hgone with hgone | hin
  · exact hgone hn
  · have := happlied hin
    omega

theorem act_cases (h : Sound s) (ha : Asserts s phase) {action : Action}
    (hok : Counted s phase action) :
    (∃ next, act s phase action = (s, next) ∧ Asserts s next ∧ ∀ i, concerns next = some i →
      concerns phase = some i) ∨ (∃ index, Kept s (act s phase action) index ∧
      ∀ q, Asserts s q → Apart phase q → concerns q ≠ some index) ∨
    ∃ s', act s phase action = (s', phase) ∧ Sound s' ∧ ∀ q, Asserts s q → Asserts s' q := by
  have hstill : act s phase action = (s, phase) → (∃ next, act s phase action = (s, next) ∧
      Asserts s next ∧ ∀ i, concerns next = some i → concerns phase = some i) :=
    fun heq => ⟨phase, heq, ha, fun _ hi => hi⟩
  cases action with
  | ledgerApplies tx =>
    refine .inr (.inr ⟨ledgerApplies s tx, ?_, sound_ledgerApplies h tx,
      fun q hq => asserts_ledgerApplies hq tx⟩)
    cases phase <;> rfl
  | ledgerDrops tx =>
    refine .inr (.inr ⟨ledgerDrops s tx, ?_, sound_ledgerDrops h tx,
      fun q hq => asserts_ledgerDrops hq tx⟩)
    cases phase <;> rfl
  | acquire =>
    cases phase with
    | idle =>
      simp only [act]
      rcases hacquire : acquire s.channels with e | ⟨lease, channels⟩
      · exact .inl ⟨.idle, rfl, trivial, fun _ hi => hi⟩
      · obtain ⟨hkept, hothers⟩ := kept_acquire h hacquire (hok lease channels hacquire)
        exact .inr (.inl ⟨lease.index, hkept, fun q hq _ => hothers q hq⟩)
    | _ => exact .inl (hstill rfl)
  | abandon =>
    cases phase with
    | leased lease =>
      obtain ⟨he, hseq, hquiet⟩ := ha
      exact .inr (.inl ⟨lease.index, kept_release h he hquiet hseq.symm,
        fun q _ hapart => hapart _ rfl⟩)
    | _ => exact .inl (hstill rfl)
  | submit =>
    cases phase with
    | leased lease =>
      exact .inr (.inl ⟨lease.index, kept_submit h ha, fun q _ hapart => hapart _ rfl⟩)
    | _ => exact .inl (hstill rfl)
  | result result =>
    cases phase with
    | submitted lease =>
      refine .inr (.inl ⟨lease.index, ?_, fun q _ hapart => hapart _ rfl⟩)
      simp only [act]
      rcases result with e | ⟨⟩
      · obtain ⟨hgone, hnot⟩ := hok
        have hquiet := quiet_of_submitted ha (.inl hgone)
        simp only [finish]
        split_ifs with hbad
        · exact kept_badSeq h hquiet
        · exact kept_release h ha.1 hquiet (ha.2.2.2 (hnot (by simpa using hbad))).symm
      · have hquiet := quiet_of_submitted ha (.inr hok)
        exact kept_release h ha.1 hquiet (ha.2.2.1 hok).symm
    | _ => exact .inl (hstill rfl)
  | fetch sequenceNumber =>
    cases phase with
    | fetching index =>
      rcases sequenceNumber with _ | sequenceNumber
      · exact .inl ⟨.idle, rfl, trivial, fun _ hi => (by cases hi)⟩
      · exact .inl ⟨.writing index sequenceNumber, rfl, ha, fun _ hi => hi⟩
    | _ => exact .inl (hstill rfl)
  | write =>
    cases phase with
    | writing index freshSequence =>
      exact .inr (.inl ⟨index, kept_write h ha hok, fun q _ hapart => hapart _ rfl⟩)
    | _ => exact .inl (hstill rfl)

end

/-- The beginning of a run: every channel is free with the number of its account, and nothing of it
is pending. -/
structure Begin (c : Config Shared Phase) : Prop where
  idle : ∀ i, c.phase i = .idle
  nodup : (c.shared.channels.map (·.index)).Nodup
  free : ∀ e ∈ c.shared.channels, e.status = .free ∧ e.sequenceNumber = c.shared.onChain e.index ∧
    Quiet c.shared e.index
  applied : c.shared.applied = []
  refetching : c.shared.refetching = []

theorem Begin.inv (h : Begin c) : Inv Sound Asserts Apart c := by
  refine ⟨⟨h.nodup, fun i => ⟨fun e he hi _ _ => ?_, fun hr => ?_, fun n hn => ?_⟩⟩, fun i => ?_,
    fun i j _ => ?_⟩
  · rw [← hi]
    exact (h.free e he).2
  · rw [h.refetching] at hr
    cases hr
  · rw [h.applied] at hn
    cases hn
  · rw [h.idle i]
    trivial
  · rw [h.idle i]
    exact fun index hc => (by cases hc)

theorem run_sound (hc : Begin c) (schedule : List (ℕ × Action))
    (hok : Along (advance act) (Meets Counted) c schedule) :
    Inv Sound Asserts Apart (run (advance act) c schedule) := by
  refine run_inv (fun _ _ h => h.symm) (fun s p a h ha hok => ?_)
      (fun s p a q h ha hq hapart hok => ?_)
    hc.inv schedule hok
  · rcases act_cases h ha hok with ⟨next, heq, hnext, -⟩ | ⟨index, hkept, -⟩ | ⟨s', heq, hs', hkeep⟩
    · rw [heq]
      exact ⟨h, hnext⟩
    · exact ⟨hkept.sound h, hkept.asserts⟩
    · rw [heq]
      exact ⟨hs', hkeep p ha⟩
  · rcases act_cases h ha hok with ⟨next, heq, -, hscope⟩ | ⟨index, hkept, hothers⟩ |
      ⟨s', heq, -, hkeep⟩
    · rw [heq]
      exact ⟨hq, fun i hi => hapart i (hscope i hi)⟩
    · exact hkept.others hq (hothers q hq hapart)
    · rw [heq]
      exact ⟨hkeep q hq, hapart⟩

def Holds (index : ℕ) : Phase → Prop
  | .leased lease | .submitted lease => lease.index = index
  | _ => False

/-- **A lease agrees with the ledger.**  Behind every counted schedule of any number of calls, a
lease that is handed out is the only live one of its channel, its sequence number is the ledger's,
and no transaction of the channel with the next number can still be applied. -/
theorem lease_agrees_with_ledger {c : Config Shared Phase} (hc : Begin c)
    (schedule : List (ℕ × Action)) (hok : Along (advance act) (Meets Counted) c schedule) (i : ℕ)
    (hnext : Meets Counted (run (advance act) c schedule) (i, .acquire))
    (hidle : (run (advance act) c schedule).phase i = .idle) {lease : ChannelLease}
    {channels : List ChannelEntry}
    (hacquire : acquire (run (advance act) c schedule).shared.channels = .ok (lease, channels)) :
    (∀ j, ¬ Holds lease.index ((run (advance act) c schedule).phase j)) ∧
    lease.sequenceNumber = (run (advance act) c schedule).shared.onChain lease.index ∧
    lease.tx ∉ (run (advance act) c schedule).shared.pending := by
  have hinv := run_sound hc schedule hok
  have hr : lease.index ∉ (run (advance act) c schedule).shared.refetching := by
    unfold Meets at hnext
    rw [hidle] at hnext
    exact hnext lease channels hacquire
  obtain ⟨hkept, hothers⟩ := kept_acquire hinv.shared hacquire hr
  obtain ⟨hmem, -⟩ := acquire_eq_ok hinv.shared.nodup hacquire
  obtain ⟨hseq, hquiet⟩ := (hinv.shared.channel lease.index).free _ hmem rfl rfl hr
  refine ⟨fun j hj => ?_, hseq, hquiet _⟩
  have hne := hothers _ (hinv.phase j)
  cases hphase : (run (advance act) c schedule).phase j with
  | leased other =>
    rw [hphase] at hj hne
    exact hne (congrArg some hj)
  | submitted other =>
    rw [hphase] at hj hne
    exact hne (congrArg some hj)
  | _ =>
    rw [hphase] at hj
    exact hj

/-- One channel at `100`. -/
def onePool : Config Shared Phase :=
  ⟨⟨[⟨1, "G", 100, .free⟩], fun _ => 100, [], [], []⟩, fun _ => .idle⟩

theorem begin_onePool : Begin onePool := by
  refine ⟨fun _ => rfl, by decide, fun e he => ?_, rfl, rfl⟩
  rw [mem_singleton.1 he]
  exact ⟨rfl, rfl, fun _ h => (by cases h)⟩

def confirmedPayment : List (ℕ × Action) :=
  [(0, .acquire), (0, .submit), (0, .ledgerApplies (1, 101)), (0, .result (.ok ()))]

/-- What `map_operation_result` makes of an underfunded payment. -/
def insufficientBalance : WalletError :=
  ⟨"ledger.insufficient_balance", "insufficient balance: have unknown XLM, need unknown XLM"⟩

/-- A payment that is applied and fails in the ledger. -/
def failedPayment : List (ℕ × Action) :=
  [(0, .acquire), (0, .submit), (0, .ledgerApplies (1, 101)),
    (0, .result (.error insufficientBalance))]

/-- Behind a confirmed payment the next lease has the next number. -/
theorem lease_after_confirmed :
    (101 : ℤ) = (run (advance act) onePool confirmedPayment).shared.onChain 1 ∧
    ((1, 102) : Tx) ∉ (run (advance act) onePool confirmedPayment).shared.pending := by
  have hacquire : acquire (run (advance act) onePool confirmedPayment).shared.channels =
      .ok (⟨1, "G", 101⟩, [⟨1, "G", 101, .inFlight⟩]) := by decide +kernel
  have hok : Along (advance act) (Meets Counted) onePool confirmedPayment := by
    refine ⟨fun _ _ _ h => (by cases h), trivial, trivial, ?_, trivial⟩
    show ((1, 101) : Tx) ∈ [(1, 101)]
    decide
  exact (lease_agrees_with_ledger begin_onePool confirmedPayment hok 1
    (fun _ _ _ h => (by cases h)) rfl hacquire).2

/-- Behind a payment that failed in the ledger the next lease still has the old number. -/
theorem stale_lease : Begin onePool ∧
    acquire (run (advance act) onePool failedPayment).shared.channels =
      .ok (⟨1, "G", 100⟩, [⟨1, "G", 100, .inFlight⟩]) ∧
    (run (advance act) onePool failedPayment).shared.onChain 1 = 101 :=
  ⟨begin_onePool, by decide +kernel, by decide +kernel⟩

end AgentWallet.Pool.Channels
