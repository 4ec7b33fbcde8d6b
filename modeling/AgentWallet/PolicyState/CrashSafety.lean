import AgentWallet.PolicyState.AntiRollback

/-!
# Crash safety of a settlement

`confirm`, `release` and `mark_operator_required` commit through three durable writes: the current
image with the candidate in it, the counter, the candidate alone.  A process that stops between
them leaves a file that still reads, as the state before the settlement until the counter is
committed and as the state after it from then on (`settlement_crash_safe`).  What is left behaves
like the file one would get by writing out what it reads (`compacted`): later operations see the
same reads, make the same writes and return the same results (`outcomes_compacted`).
-/

namespace AgentWallet.PolicyState.CrashSafety

open Base.Runs Base.Saturating PolicyState.Wire PolicyState.Durable
open PolicyState.AntiRollback

variable {Body Tag Digest : Type} [DecidableEq Tag] [DecidableEq Digest]
  {C : Codec Body Tag Digest} {d : StoreState Body Tag Digest} {original : WireFile}
  {c : GenerationState Digest} {op : StoreOp} {nowMs : ℕ} {image b : WireFile}
  {content : FileContent Body Tag} {d' : StoreState Body Tag Digest}

/-- The durable states that operations, crashes and replacements of the file lead to, from a
profile with no counter or a numeric one. -/
def Reachable (C : Codec Body Tag Digest) (d : StoreState Body Tag Digest) : Prop :=
  ∃ w events, Start C w ∧ Along (World.step C) (Allowed C) w events ∧
    (run (World.step C) w events).store = d

theorem Reachable.digest_of_read (hC : C.Lawful) (hd : Reachable C d)
    (hread : readVerified C d = .ok original) (hc : d.counter = some c) :
    ∀ D, c.bodySha256 = some D → D = bodyDigest C { original with version := wireVersion } := by
  intro D hD
  obtain ⟨w, events, hw, hok, rfl⟩ := hd
  have hinv := Inv.run hC hw events hok
  obtain ⟨hcommitted, -⟩ := hinv.read_eq_ok hC hc hD hread
  obtain ⟨b, hb, hplain, -, rfl⟩ := hinv.committed c D hc hD
  rw [hcommitted] at hb
  cases hb
  have hself : { original with version := wireVersion } = original := by
    cases original
    cases hplain.1
    rfl
  rw [hself]

/-! ### Reading the images of a settlement -/

theorem counter_of_read (hread : readVerified C d = .ok original) (hg : 0 < original.generation) :
    ∃ c, d.counter = some c ∧ c.generation = original.generation := by
  rcases readVerified_eq_ok hread with ⟨-, -, rfl⟩ | ⟨content, wire, -, -, hsel⟩
  · exact absurd hg (by decide)
  · obtain ⟨-, c, hc, hgen, -, -⟩ := selectGeneration_eq_ok hsel
    exact ⟨c, hc, hgen⟩

variable {next : WireFile}

section

variable (hnext : Plain next) (hgen : original.generation + 1 = next.generation)
  (hle : next.generation ≤ u64Max)
include hnext hgen hle

theorem candidateRefused_preparedImage :
    candidateRefused (preparedImage original next) = false := by
  refine (candidateRefused_eq_false rfl).2 ⟨rfl, hnext.1, hnext.2, ?_⟩
  show checkedAdd u64Max original.generation 1 = some next.generation
  unfold checkedAdd
  rw [if_pos (by omega), hgen]

omit [DecidableEq Tag] in
theorem select_prepared_before (hc : c.generation = original.generation)
    (hdig : ∀ D, c.bodySha256 = some D →
      D = bodyDigest C { original with version := wireVersion, prepared := none }) :
    selectGeneration C (preparedImage original next) (some c) =
      .ok { original with version := wireVersion, prepared := none } := by
  have himage : imageAt (preparedImage original next) c =
      some { original with version := wireVersion, prepared := none } := by
    unfold imageAt
    rw [if_pos (by exact hc)]
    rfl
  unfold selectGeneration
  rw [candidateRefused_preparedImage hnext hgen hle]
  simp only [himage]
  cases hD : c.bodySha256 with
  | none => rfl
  | some D =>
    have hDb := hdig D hD
    simp [hDb]

omit [DecidableEq Tag] in
theorem select_prepared_after : selectGeneration C (preparedImage original next)
      (some ⟨next.generation, some (bodyDigest C next)⟩) = .ok next := by
  have himage : imageAt (preparedImage original next)
      ⟨next.generation, some (bodyDigest C next)⟩ = some next := by
    have hne : next.generation ≠ (preparedImage original next).generation := by
      show next.generation ≠ original.generation
      omega
    unfold imageAt
    rw [if_neg hne]
    simp [preparedImage]
  unfold selectGeneration
  rw [candidateRefused_preparedImage hnext hgen hle]
  simp [himage]

end

/-! ### What an operation is going to write -/

def settlementWrites (original next : WireFile) : List Write :=
  [.file (preparedImage original next), .generation next, .file next]

/-- The writes that take the store from one body to the next: a settlement of a file that has a
generation keeps the body it replaces readable, any other operation commits the counter first. -/
def storeWrites (op : StoreOp) (original next : WireFile) : List Write :=
  if isSettlement op = true ∧ 0 < original.generation then settlementWrites original next
  else [.generation next, .file next]

section

variable (hread : readVerified C d = .ok original)
include hread

section

variable (hearly : ¬ returnsEarly op = true) (himage : op.image nowMs original = .ok (some image))
include hearly himage

theorem plan_of_image {g : ℕ} (hinc : incrementGeneration original.generation = .ok g) :
    plan C d (.store op nowMs) =
      .ok (storeWrites op original { image with generation := g, prepared := none }) := by
  have hnext : nextGeneration d = .ok g := by
    rw [nextGeneration, readVerified_generation hread, hinc]
  simp only [plan]
  rw [if_neg hearly]
  simp only [hread, himage, commitWrites, hinc, hnext]
  unfold storeWrites
  by_cases hset : isSettlement op = true
  · rw [if_pos hset]
    by_cases h0 : original.generation = 0
    · rw [if_pos h0, if_neg (by omega)]
    · rw [if_neg h0, if_pos ⟨hset, by omega⟩]
      rfl
  · have hprep : image.prepared = none :=
      (image_plain himage).2.trans (readVerified_plain hread).1
    rw [if_neg hset, if_neg fun h => hset h.1, ← hprep]

theorem plan_of_exhausted {e : WindowStoreError}
    (hinc : incrementGeneration original.generation = .error e) :
    plan C d (.store op nowMs) = .error e := by
  have hnext : nextGeneration d = .error e := by
    rw [nextGeneration, readVerified_generation hread, hinc]
  simp only [plan]
  rw [if_neg hearly]
  simp [hread, himage, commitWrites, hinc, hnext]

end

/-- **The plan follows the atomic operation.**  On the body it read, an operation touches nothing
and is to leave it, or fails as the atomic operation does, or makes its writes towards the atomic
operation's result. -/
theorem plan_exec (op : StoreOp) (nowMs : ℕ) :
    (plan C d (.store op nowMs) = .ok [] ∧ op.exec nowMs original = .ok original) ∨
    (∃ e, plan C d (.store op nowMs) = .error e ∧ op.exec nowMs original = .error e) ∨
    (∃ next, op.exec nowMs original = .ok next ∧ Plain next ∧
      original.generation + 1 = next.generation ∧ next.generation ≤ u64Max ∧
      plan C d (.store op nowMs) = .ok (storeWrites op original next)) := by
  by_cases hearly : returnsEarly op = true
  · -- only `confirm` returns early, and then it has no image either
    refine Or.inl ⟨by simp only [plan]; rw [if_pos hearly], ?_⟩
    cases op with
    | confirm id createdAt =>
      have hnone : closeMs createdAt = none := Option.isNone_iff_eq_none.1 hearly
      simp [StoreOp.exec, StoreOp.image, hnone]
    | _ => cases hearly
  rcases himage : op.image nowMs original with e | _ | image
  · refine Or.inr (Or.inl ⟨e, ?_, by simp only [StoreOp.exec, himage]⟩)
    simp only [plan, hread, himage]
    rw [if_neg hearly]
  · refine Or.inl ⟨?_, by simp only [StoreOp.exec, himage]⟩
    simp only [plan, hread, himage]
    rw [if_neg hearly]
  · rcases hinc : incrementGeneration original.generation with e | g
    · exact Or.inr (Or.inl ⟨e, plan_of_exhausted hread hearly himage hinc,
        by simp only [StoreOp.exec, himage, hinc]⟩)
    · obtain ⟨rfl, hle⟩ := incrementGeneration_eq_ok hinc
      have hexec : op.exec nowMs original = .ok (settledBody original image) := by
        simp only [StoreOp.exec, himage, hinc]
        rfl
      exact Or.inr (Or.inr ⟨settledBody original image, hexec, ⟨(image_plain himage).1, rfl⟩, rfl,
        hle, plan_of_image hread hearly himage hinc⟩)

end

/-! ### What is left after a crash -/

theorem readVerified_file (hC : C.Lawful) {wire : WireFile} (hv : wire.version ≤ wireVersion)
    (counter : Option (GenerationState Digest)) :
    readVerified C ⟨counter, some (contentOf C wire)⟩ = selectGeneration C wire counter :=
  readVerified_of_file rfl (verify_contentOf hC hv)

theorem read_committed (hC : C.Lawful) (hnext : Plain next) :
    readVerified C ⟨some ⟨next.generation, some (bodyDigest C next)⟩, some (contentOf C next)⟩ =
      .ok next := by
  rw [readVerified_file hC hnext.1.le]
  exact selectGeneration_of_plain hnext.2 rfl fun D hD => (Option.some.inj hD).symm

/-- The state with the file written out as it reads. -/
def compacted (C : Codec Body Tag Digest) (d : StoreState Body Tag Digest) (b : WireFile) :
    StoreState Body Tag Digest :=
  ⟨d.counter, some (contentOf C b)⟩

theorem readVerified_compacted (hC : C.Lawful) (hfile : d.file = some content)
    (hread : readVerified C d = .ok b) : readVerified C (compacted C d b) = .ok b := by
  obtain ⟨hp, hv⟩ := readVerified_plain hread
  rcases readVerified_eq_ok hread with ⟨hnone, -, -⟩ | ⟨content', wire, -, -, hsel⟩
  · rw [hfile] at hnone
    cases hnone
  · obtain ⟨-, c, hc, hgen, hdig, -⟩ := selectGeneration_eq_ok hsel
    unfold compacted
    rw [readVerified_file hC hv, hc]
    exact selectGeneration_of_plain hp hgen hdig

/-! ### Later operations -/

def complete (C : Codec Body Tag Digest) (d : StoreState Body Tag Digest) (cmd : Command) :
    StoreState Body Tag Digest :=
  match plan C d cmd with
  | .error _ => d
  | .ok ws => applyWrites C d ws

/-- What later operations show: the writes each makes or the error it returns, and what is read
after it. -/
def outcomes (C : Codec Body Tag Digest) : StoreState Body Tag Digest → List Command →
    List (Except WindowStoreError (List Write) × Except WindowStoreError WireFile)
  | _, [] => []
  | d, cmd :: cmds =>
    (plan C d cmd, readVerified C (complete C d cmd)) :: outcomes C (complete C d cmd) cmds

theorem plan_congr (hc : d.counter = d'.counter) (hr : readVerified C d = readVerified C d')
    (cmd : Command) : plan C d cmd = plan C d' cmd := by
  cases cmd with
  | reset => simp only [plan, nextGeneration, hc]
  | store op nowMs => simp only [plan, nextGeneration, hc, hr]

theorem applyWrites_eq {cmd : Command} {ws : List Write} (h : plan C d cmd = .ok ws) (hne : ws ≠ []) :
    applyWrites C d ws = applyWrites C d' ws := by
  rcases plan_cases h with rfl | ⟨next, -, -, rfl⟩ | ⟨o, next, -, -, -, -, -, rfl⟩
  · exact absurd rfl hne
  · rfl
  · rfl

theorem outcomes_congr : ∀ (cmds : List Command) {d d' : StoreState Body Tag Digest},
    d.counter = d'.counter → readVerified C d = readVerified C d' →
      outcomes C d cmds = outcomes C d' cmds
  | [], _, _, _, _ => rfl
  | cmd :: cmds, d, d', hc, hr => by
    have hplan := plan_congr hc hr cmd
    have hnext : (complete C d cmd).counter = (complete C d' cmd).counter ∧
        readVerified C (complete C d cmd) = readVerified C (complete C d' cmd) := by
      unfold complete
      rw [← hplan]
      cases hp : plan C d cmd with
      | error e => exact ⟨hc, hr⟩
      | ok ws =>
        by_cases hne : ws = []
        · subst hne
          exact ⟨hc, hr⟩
        · have heq : applyWrites C d ws = applyWrites C d' ws := applyWrites_eq hp hne
          dsimp only
          rw [heq]
          exact ⟨rfl, rfl⟩
    unfold outcomes
    rw [hplan, hnext.2, outcomes_congr cmds hnext.1 hnext.2]

theorem outcomes_compacted (hC : C.Lawful) (hfile : d.file = some content)
    (hread : readVerified C d = .ok b) (later : List Command) :
    outcomes C d later = outcomes C (compacted C d b) later :=
  outcomes_congr later rfl (hread.trans (readVerified_compacted hC hfile hread).symm)

theorem file_of_read (hread : readVerified C d = .ok original) (hg : 0 < original.generation) :
    ∃ content, d.file = some content := by
  rcases readVerified_eq_ok hread with ⟨-, -, rfl⟩ | ⟨content, wire, hfile, -, -⟩
  · exact absurd hg (by decide)
  · exact ⟨content, hfile⟩

theorem read_before_commit (hC : C.Lawful) (hd : Reachable C d)
    (hread : readVerified C d = .ok original) (hg : 0 < original.generation) (hnext : Plain next)
    (hgen : original.generation + 1 = next.generation) (hle : next.generation ≤ u64Max) :
    readVerified C (applyWrites C d ((settlementWrites original next).take 1)) =
      .ok { original with version := wireVersion, prepared := none } := by
  obtain ⟨c, hc, hcgen⟩ := counter_of_read hread hg
  obtain ⟨hprep, -⟩ := readVerified_plain hread
  have hself : { original with version := wireVersion, prepared := none } =
      { original with version := wireVersion } := by rw [← hprep]
  have hdig := hd.digest_of_read hC hread hc
  rw [← hself] at hdig
  rw [← select_prepared_before hnext hgen hle hcgen hdig, ← hc]
  exact readVerified_file hC le_rfl d.counter

theorem read_from_commit (hC : C.Lawful) (hnext : Plain next)
    (hgen : original.generation + 1 = next.generation) (hle : next.generation ≤ u64Max) (k : ℕ) :
    readVerified C (applyWrites C d ((settlementWrites original next).take (k + 2))) = .ok next ∧
      ∃ content, (applyWrites C d ((settlementWrites original next).take (k + 2))).file =
        some content := by
  rcases k with _ | k
  · refine ⟨?_, _, rfl⟩
    rw [← select_prepared_after (C := C) hnext hgen hle]
    exact readVerified_file hC le_rfl _
  · rw [List.take_of_length_le (by simp [settlementWrites])]
    exact ⟨read_committed hC hnext, _, rfl⟩

/-- **A settlement survives a crash.**  From any reachable state whose file reads as `original`,
stop `confirm`, `release` or `mark_operator_required` after any number `k` of its durable writes.
The file reads: as the records before the settlement while the counter is not committed, as the
settled file from the commit on, and as before when the settlement fails.  Everything later goes as
from the file written out as it reads. -/
theorem settlement_crash_safe (hC : C.Lawful) (hd : Reachable C d)
    (hread : readVerified C d = .ok original) (hg : 0 < original.generation) {op : StoreOp}
    (hop : isSettlement op = true) (nowMs k : ℕ) :
    ∃ b, readVerified C (runCommand C d (.store op nowMs) k) = .ok b ∧
      (k ≤ 1 → b.entries = original.entries) ∧
      (∀ post, op.exec nowMs original = .ok post → 2 ≤ k → b = post) ∧
      (∀ e, op.exec nowMs original = .error e → b = original) ∧
      ∀ later, outcomes C (runCommand C d (.store op nowMs) k) later =
        outcomes C (compacted C (runCommand C d (.store op nowMs) k) b) later := by
  obtain ⟨content, hfile⟩ := file_of_read hread hg
  rcases plan_exec hread op nowMs with ⟨hplan, hexec⟩ | ⟨e, hplan, hexec⟩ |
    ⟨next, hexec, hnext, hgen, hle, hplan⟩
  · have hrun : runCommand C d (.store op nowMs) k = d := by
      simp only [runCommand, hplan, List.take_nil]
      rfl
    rw [hrun, hexec]
    exact ⟨original, hread, fun _ => rfl, fun post hpost _ => Except.ok.inj hpost,
      fun _ _ => rfl, outcomes_compacted hC hfile hread⟩
  · have hrun : runCommand C d (.store op nowMs) k = d := by simp only [runCommand, hplan]
    rw [hrun, hexec]
    exact ⟨original, hread, fun _ => rfl, fun post hpost => (by cases hpost), fun _ _ => rfl,
      outcomes_compacted hC hfile hread⟩
  · have hrun : runCommand C d (.store op nowMs) k =
        applyWrites C d ((settlementWrites original next).take k) := by
      simp only [runCommand, hplan, storeWrites, if_pos (And.intro hop hg)]
    rw [hrun, hexec]
    -- one case per number of writes made
    rcases k with _ | _ | k
    · exact ⟨original, hread, fun _ => rfl, fun _ _ h2 => absurd h2 (by omega),
        fun e he => (by cases he), outcomes_compacted hC hfile hread⟩
    · have hstate := read_before_commit hC hd hread hg hnext hgen hle
      exact ⟨_, hstate, fun _ => rfl, fun _ _ h2 => absurd h2 (by omega),
        fun e he => (by cases he), outcomes_compacted hC rfl hstate⟩
    · obtain ⟨hstate, content', hfile'⟩ := read_from_commit hC hnext hgen hle k
      exact ⟨next, hstate, fun h1 => absurd h1 (by omega), fun post hpost _ => Except.ok.inj hpost,
        fun e he => (by cases he), outcomes_compacted hC hfile' hstate⟩

/-- A version 2 file with one pending reservation, under a numeric counter. -/
def legacyFile : WireFile :=
  ⟨2, 4, [⟨1, "native", 60, [{ tsMs := 5, amount := 7, id := "a", status := .pending }]⟩], none⟩

/-- Releasing the reservation of a version 2 file, stopped after its first write: the reservation is
still read, from a file now of version 3. -/
theorem settlement_crash_safe_legacy : ∃ b, readVerified plainCodec (runCommand plainCodec
        ⟨some ⟨4, none⟩, some (contentOf plainCodec legacyFile)⟩ (.store (.release "a") 9) 1) =
          .ok b ∧ b.entries = legacyFile.entries := by
  have hstart : Start plainCodec ⟨⟨some ⟨4, none⟩, some (contentOf plainCodec legacyFile)⟩, none,
      {contentOf plainCodec legacyFile}⟩ := by
    refine ⟨fun c hc => ?_, fun content hcontent => ?_, fun content hfile _ => ?_⟩
    · cases hc
      rfl
    · cases hcontent
      exact ⟨legacyFile, rfl⟩
    · cases hfile
      exact rfl
  have hread : readVerified plainCodec
      ⟨some ⟨4, none⟩, some (contentOf plainCodec legacyFile)⟩ = .ok legacyFile := rfl
  have hop : isSettlement (.release "a") = true := rfl
  obtain ⟨b, hb, hpre, -⟩ := settlement_crash_safe plainCodec_lawful
    ⟨_, [], hstart, trivial, rfl⟩ hread (by decide) hop 9 1
  exact ⟨b, hb, hpre le_rfl⟩

end AgentWallet.PolicyState.CrashSafety
