import AgentWallet.Base.Runs
import AgentWallet.PolicyState.Durable

/-!
# Anti-rollback

The window store against an adversary with the file system.  A `World` is the durable state
together with two histories that no process can read: the body the keyring counter last committed
and every file content ever written under the HMAC key.  Operations run in any order and stop after
any of their durable writes; between them the adversary deletes the file or puts another in its
place (`Event`).  That the HMAC is unforgeable is `Allowed`: a file whose tag matches was written
under the key.
-/

namespace AgentWallet.PolicyState.AntiRollback

open Base.Runs PolicyState.Wire PolicyState.Durable List

structure World (Body Tag Digest : Type) where
  store : StoreState Body Tag Digest
  committed : Option WireFile
  written : Set (FileContent Body Tag)

variable {Body Tag Digest : Type} [DecidableEq Tag] [DecidableEq Digest] (C : Codec Body Tag Digest)

def World.write (w : World Body Tag Digest) (x : Write) : World Body Tag Digest :=
  match x with
  | .generation wire => ⟨applyWrite C w.store x, some wire, w.written⟩
  | .file wire => ⟨applyWrite C w.store x, w.committed, insert (contentOf C wire) w.written⟩

/-- What can happen: an operation that stops after at most `k` of its durable writes, or the
adversary at the file. -/
inductive Event (Body Tag : Type) where
  | command (cmd : Command) (k : ℕ)
  | delete
  | replace (content : FileContent Body Tag)

def World.step (w : World Body Tag Digest) : Event Body Tag → World Body Tag Digest
  | .command cmd k =>
    match plan C w.store cmd with
    | .error _ => w
    | .ok ws => (ws.take k).foldl (World.write C) w
  | .delete => { w with store := { w.store with file := none } }
  | .replace content => { w with store := { w.store with file := some content } }

def TagMatches : FileContent Body Tag → Prop
  | .short => False
  | .tagged tag body => tag = C.computeTag body

/-- Unforgeability: the adversary has no file with a matching tag but those written under the
key. -/
def Allowed (w : World Body Tag Digest) : Event Body Tag → Prop
  | .replace content => TagMatches C content → content ∈ w.written
  | _ => True

/-- A profile before its first write by this version of the store: no counter or a numeric one, and
files that verify. -/
structure Start (w : World Body Tag Digest) : Prop where
  counter : ∀ c, w.store.counter = some c → c.bodySha256 = none
  written : ∀ content ∈ w.written, ∃ wire, verifyWithKey C content = .ok wire
  file : ∀ content, w.store.file = some content → TagMatches C content → content ∈ w.written

/-- What every event keeps: a digest in the counter is that of the committed body, and files with
matching tags are files that were written, which verify. -/
structure Inv (w : World Body Tag Digest) : Prop where
  committed : ∀ c D, w.store.counter = some c → c.bodySha256 = some D →
    ∃ b, w.committed = some b ∧ Plain b ∧ c.generation = b.generation ∧ D = bodyDigest C b
  written : ∀ content ∈ w.written, ∃ wire, verifyWithKey C content = .ok wire
  file : ∀ content, w.store.file = some content → TagMatches C content → content ∈ w.written

variable {C} {w : World Body Tag Digest}

omit [DecidableEq Digest] in
theorem Start.inv (h : Start C w) : Inv C w := by
  refine ⟨fun c D hc hD => ?_, h.written, h.file⟩
  rw [h.counter c hc] at hD
  cases hD

/-! ### Every event keeps the invariant -/

variable {d : StoreState Body Tag Digest} {content : FileContent Body Tag}

/-- A write an operation makes: a counter of a plain body, a file of a version that reads back. -/
def WriteOk : Write → Prop
  | .generation wire => Plain wire
  | .file wire => wire.version ≤ wireVersion

theorem plan_writeOk {cmd : Command} {ws : List Write} (h : plan C d cmd = .ok ws) :
    ∀ x ∈ ws, WriteOk x := by
  intro x hx
  rcases plan_cases h with rfl | ⟨next, hnext, -, rfl⟩ | ⟨original, next, -, -, hnext, -, -, rfl⟩
  · cases hx
  · simp only [mem_cons, not_mem_nil, or_false] at hx
    rcases hx with rfl | rfl
    · exact hnext
    · exact hnext.1.le
  · simp only [mem_cons, not_mem_nil, or_false] at hx
    rcases hx with rfl | rfl | rfl
    · exact le_refl wireVersion
    · exact hnext
    · exact hnext.1.le

omit [DecidableEq Digest] in
theorem Inv.write (hC : C.Lawful) (h : Inv C w) {x : Write} (hx : WriteOk x) :
    Inv C (w.write C x) := by
  cases x with
  | generation wire =>
    refine ⟨fun c D hc hD => ?_, h.written, h.file⟩
    cases hc
    cases hD
    exact ⟨wire, rfl, hx, rfl, rfl⟩
  | file wire =>
    refine ⟨h.committed, fun content hcontent => ?_, fun content hfile _ => ?_⟩
    · rcases Set.mem_insert_iff.1 hcontent with rfl | hold
      · exact ⟨wire, verify_contentOf hC hx⟩
      · exact h.written content hold
    · cases hfile
      exact Set.mem_insert _ _

omit [DecidableEq Digest] in
theorem Inv.writes (hC : C.Lawful) : ∀ (ws : List Write) {w : World Body Tag Digest}, Inv C w →
    (∀ x ∈ ws, WriteOk x) → Inv C (ws.foldl (World.write C) w)
  | [], _, h, _ => h
  | x :: ws, _, h, hws => Inv.writes hC ws (h.write hC (hws x mem_cons_self))
      fun y hy => hws y (mem_cons_of_mem _ hy)

theorem Inv.step (hC : C.Lawful) (w : World Body Tag Digest) (e : Event Body Tag) (h : Inv C w)
    (hok : Allowed C w e) : Inv C (w.step C e) := by
  cases e with
  | command cmd k =>
    simp only [World.step]
    cases hplan : plan C w.store cmd with
    | error e => exact h
    | ok ws => exact h.writes hC _ fun x hx => plan_writeOk hplan x (mem_of_mem_take hx)
  | delete => exact ⟨h.committed, h.written, fun content hfile => by cases hfile⟩
  | replace content =>
    refine ⟨h.committed, h.written, fun content' hfile hmatch => ?_⟩
    cases hfile
    exact hok hmatch

theorem Inv.run (hC : C.Lawful) (h : Start C w) (events : List (Event Body Tag))
    (hok : Along (World.step C) (Allowed C) w events) : Inv C (run (World.step C) w events) :=
  run_invariant_along (Inv.step hC) events w h.inv hok

/-! ### What a read returns -/

omit [DecidableEq Tag] [DecidableEq Digest] in
theorem toVec_injective (hC : C.Lawful) : C.toVec.Injective := by
  intro a b hab
  have hrt := hC.fromSlice_toVec a
  rw [hab, hC.fromSlice_toVec b] at hrt
  exact (Except.ok.inj hrt).symm

omit [DecidableEq Tag] [DecidableEq Digest] in
theorem bodyDigest_injective (hC : C.Lawful) : Function.Injective (bodyDigest C) :=
  hC.sha256_injective.comp (toVec_injective hC)

/-- A body is in a file when it is the file's image or the file's candidate. -/
def Carries (C : Codec Body Tag Digest) (content : FileContent Body Tag) (b : WireFile) : Prop :=
  ∃ wire, verifyWithKey C content = .ok wire ∧
    (b = { wire with prepared := none } ∨ wire.prepared = some b)

theorem Inv.read_eq_ok (hC : C.Lawful) (h : Inv C w) {c : GenerationState Digest} {D : Digest}
    (hc : w.store.counter = some c) (hD : c.bodySha256 = some D) {b : WireFile}
    (hread : readVerified C w.store = .ok b) :
    w.committed = some b ∧ ∃ content, w.store.file = some content ∧ Carries C content b := by
  rcases readVerified_eq_ok hread with ⟨-, hnone, -⟩ | ⟨content, wire, hfile, hver, hsel⟩
  · rw [hc] at hnone
    cases hnone
  · obtain ⟨-, c', hc', -, hdig, himage⟩ := selectGeneration_eq_ok hsel
    rw [hc] at hc'
    cases hc'
    obtain ⟨b', hb', -, -, hDb'⟩ := h.committed c D hc hD
    have hbb : b' = b := bodyDigest_injective hC (hDb'.symm.trans (hdig D hD))
    subst hbb
    refine ⟨hb', content, hfile, wire, hver, ?_⟩
    rcases himage with himage | ⟨himage, -, -⟩
    · exact Or.inl himage
    · exact Or.inr himage

theorem Inv.read_error_of_written (h : Inv C w) (hfile : w.store.file = some content)
    (hcontent : content ∈ w.written) {e : WindowStoreError}
    (hread : readVerified C w.store = .error e) : e = .generationMismatch := by
  obtain ⟨wire, hver⟩ := h.written content hcontent
  rw [readVerified_of_file hfile hver] at hread
  exact selectGeneration_error hread

theorem read_error_of_not_matches (hfile : d.file = some content) (hno : ¬ TagMatches C content) :
    ∃ e, readVerified C d = .error e := by
  cases content with
  | short => exact ⟨_, by simp only [readVerified, hfile]; rfl⟩
  | tagged tag body =>
    have hne : tag ≠ C.computeTag body := hno
    refine ⟨.hmacMismatch, ?_⟩
    simp only [readVerified, hfile, verifyWithKey]
    rw [if_pos hne]

/-- **No rollback.**  After any run of operations, crashes and replacements of the file, with a
digest in the counter: a read that succeeds returns the body the counter last committed; a missing
file is refused; a file written at some time that does not carry the committed body (older,
an abandoned candidate, substituted) is refused, both as a generation mismatch; and a file that was
never written under the key is refused. -/
theorem read_committed_or_refused (hC : C.Lawful) {w : World Body Tag Digest} (hw : Start C w)
    (events : List (Event Body Tag)) (hok : Along (World.step C) (Allowed C) w events)
    {c : GenerationState Digest} {D : Digest}
    (hc : (run (World.step C) w events).store.counter = some c) (hD : c.bodySha256 = some D) :
    (∀ b, readVerified C (run (World.step C) w events).store = .ok b →
      (run (World.step C) w events).committed = some b) ∧
    ((run (World.step C) w events).store.file = none →
      readVerified C (run (World.step C) w events).store = .error .generationMismatch) ∧
    (∀ content ∈ (run (World.step C) w events).written,
      (run (World.step C) w events).store.file = some content →
      (∀ b, (run (World.step C) w events).committed = some b → ¬ Carries C content b) →
      readVerified C (run (World.step C) w events).store = .error .generationMismatch) ∧
    (∀ content, (run (World.step C) w events).store.file = some content →
      content ∉ (run (World.step C) w events).written →
      ∃ e, readVerified C (run (World.step C) w events).store = .error e) := by
  have hinv := Inv.run hC hw events hok
  generalize run (World.step C) w events = v at hinv hc
  refine ⟨fun b hread => (hinv.read_eq_ok hC hc hD hread).1, fun hnone => ?_,
    fun content hcontent hfile hcarries => ?_, fun content hfile hcontent => ?_⟩
  · simp only [readVerified, hnone, hc]
  · cases hread : readVerified C v.store with
    | error e => rw [hinv.read_error_of_written hfile hcontent hread]
    | ok b =>
      obtain ⟨hb, content', hfile', hcarr⟩ := hinv.read_eq_ok hC hc hD hread
      rw [hfile] at hfile'
      cases hfile'
      exact absurd hcarr (hcarries b hb)
  · exact read_error_of_not_matches hfile fun hmatch => hcontent (hinv.file content hfile hmatch)

/-- Spend is recorded over a reset window; the file of the reset, put back, is refused. -/
theorem read_refuses_restored_reset :
    readVerified plainCodec (run (World.step plainCodec) ⟨⟨none, none⟩, none, ∅⟩ [.command .reset 2,
        .command (.store (.recordAuthorized [⟨⟨"alice", 1, "native", 60⟩, 5, 7, .count "1m" 3⟩]) 9) 2,
        .replace (contentOf plainCodec ⟨3, 1, [], none⟩)]).store = .error .generationMismatch := by
  have hstart : Start plainCodec ⟨⟨none, none⟩, none, ∅⟩ :=
    ⟨fun c hc => (by cases hc), fun content hc => hc.elim, fun content hc => by cases hc⟩
  refine (read_committed_or_refused plainCodec_lawful hstart _ ?_ rfl rfl).2.2.1 _ ?_ rfl ?_
  · exact ⟨trivial, trivial, fun _ => Or.inr (Or.inl rfl), trivial⟩
  · exact Or.inr (Or.inl rfl)
  · rintro b hb ⟨wire, hwire, hcarries⟩
    cases hb
    cases hwire
    revert hcarries
    decide

end AgentWallet.PolicyState.AntiRollback
