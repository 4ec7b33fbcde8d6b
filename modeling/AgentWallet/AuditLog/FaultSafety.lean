import AgentWallet.AuditLog.AnchorAgreement

/-!
# Appends that fail

A writer commits its state at one point, while its bytes reach the directory at several points
before.  A failure between the two leaves a file that the state does not describe.  Of the failures
a call can meet, those that are `Harmless` keep the state and the file together along every run
(`describes_of_run`): lines that are written not at all, and the failures of everything that does
not write to the log.  A row that is written whole and then not synced is not harmless: the next row
names the hash before it, and the file does not replay (`unsynced_row_breaks_chain`).
-/

namespace AgentWallet.AuditLog.FaultSafety

open Base Base.Programs
open List hiding rotate
open Timestamps Entry Files Writer Steps HonestRuns Generations Retention AnchorAgreement

variable {K D : Type} {env : LogEnv K D} {w w' : World K} {c : Call K} {content seed hash : Text}
  {lf : LineFaults} {e : AuditEntry K} {dir : Directory} {name : Text}

/-! ## What is kept -/

/-- The writer's hash, count and offset describe the bytes of the file at the path. -/
def Describes (env : LogEnv K D) (w : World K) : Prop :=
  ∃ content seed, Holding env w content ∧ initialChainSeed env w.dir = .ok seed ∧
    readAndVerifyEntryChain env content 0 seed =
      .ok ⟨w.writer.lastHash, w.writer.entryCount, w.writer.endOffset⟩

/-- The same, of a file that ends with a complete line. -/
structure Sound (env : LogEnv K D) (w : World K) (content seed : Text) : Prop
    extends Holding env w content where
  terminated : Lines.Terminated 10 content
  seeded : initialChainSeed env w.dir = .ok seed
  replays : readAndVerifyEntryChain env content 0 seed =
    .ok ⟨w.writer.lastHash, w.writer.entryCount, w.writer.endOffset⟩

def Together (env : LogEnv K D) (w : World K) : Prop := ∃ content seed, Sound env w content seed

/-- What holds between two calls: a rotation was cut off, and no call goes on from there, or the
writer and its file belong together. -/
def Kept (env : LogEnv K D) (w : World K) : Prop :=
  w.writer.partialRotationArchive ≠ none ∨ Together env w

theorem Together.describes (h : Together env w) : Describes env w := by
  obtain ⟨content, seed, h⟩ := h
  exact ⟨content, seed, h.toHolding, h.seeded, h.replays⟩

theorem initialChainSeed_of_lookup {dir' : Directory}
    (h : ∀ n, n ≠ env.stem → dir'.files.lookup n = dir.files.lookup n) :
    initialChainSeed env dir' = initialChainSeed env dir := by
  have harchives : archives env dir' = archives env dir := archives_of_lookup h
  have hlength : (siblings env dir').length = (siblings env dir).length := by
    rw [← length_archives, ← length_archives, harchives]
  unfold initialChainSeed collectFileChain
  rw [hlength, harchives]
  split_ifs
  · rfl
  dsimp only
  rw [dropLast_concat]
  rcases hlast : (archives env dir).getLast? with _ | newest
  · rfl
  · have hne := ne_stem_of_mem_archives (mem_of_getLast? hlast)
    simp [h newest hne]

section

variable (h : Sound env w content seed)
include h

theorem Sound.of_sameLog (hs : SameLog w w') : Sound env w' content seed := by
  have hdir : w'.dir = w.dir := by
    have h := congrArg Surroundings.dir hs.surroundings
    exact h
  refine ⟨⟨?_, ?_⟩, h.terminated, ?_, ?_⟩
  · rw [hs.writer]
    exact h.held
  · rw [hdir]
    exact h.file
  · rw [hdir]
    exact h.seeded
  · rw [hs.writer]
    exact h.replays

theorem Sound.stamped (ms : ℕ) : Sound env (w.stamped ms) content seed := by
  refine ⟨Holding.stamped h.toHolding ms, h.terminated, ?_, ?_⟩
  · rw [stamped_dir]
    exact h.seeded
  · rw [stamped_writer]
    exact h.replays

theorem Sound.nothing :
    Sound env { w with dir := appendTo w.dir env.stem content [] } content seed := by
  have hother : ∀ n, n ≠ env.stem → (appendTo w.dir env.stem content []).files.lookup n =
      w.dir.files.lookup n := fun n hn => AList.lookup_insert_ne hn
  refine ⟨⟨h.held, ?_⟩, h.terminated, ?_, h.replays⟩
  · rw [show (appendTo w.dir env.stem content []).files.lookup env.stem =
      some (.regular (content ++ [])) from AList.lookup_insert _, append_nil]
  · rw [← h.seeded]
    exact initialChainSeed_of_lookup hother

/-- **A row that names the tip goes behind the file.** -/
theorem Sound.committed (fails : Bool) (hprev : e.previousEntryHash = w.writer.lastHash)
    (hhash : entryHash env e = some hash) :
    Sound env (committed env w fails content e hash) (content ++ line env e) seed := by
  refine Sound.of_sameLog ?_ (SameLog.storeAnchor _ _ _)
  have hfiles : (signedDir env w e (appendTo w.dir env.stem content (line env e))).files =
      (appendTo w.dir env.stem content (line env e)).files := signedDir_files w _
  refine ⟨⟨h.held, ?_⟩, Lines.terminated_append h.terminated Lines.terminated_snoc, ?_,
    replay_append h.replays h.terminated hprev hhash⟩
  · rw [hfiles]
    exact AList.lookup_insert _
  · rw [← h.seeded]
    refine initialChainSeed_of_lookup fun n hn => ?_
    rw [hfiles]
    exact AList.lookup_insert_ne hn

end

/-! ## Lines -/

/-- A line that is written whole, or not at all. -/
def AllOrNothing (lf : LineFaults) : Prop := LineFaults.Whole lf ∨ lf.write = some 0

theorem exec_writeLine_nothing (hw : Holding env w content) (hwrite : lf.write = some 0) :
    exec (writeLine env lf e) w =
      (.error .io, { w with dir := appendTo w.dir env.stem content [] }) := by
  have hwritten : lf.written (line env e) = [] := by
    unfold LineFaults.written
    rw [hwrite]
    rfl
  have hne : ¬ ([] : Text) = line env e := by simp [line]
  unfold writeLine
  rw [exec_bind_ok (exec_modify _ _), hwrite]
  simp only [hwritten, if_neg hne, hw.appendBytes]
  rfl

/-- **A row is committed, or nothing happened.** -/
theorem together_commitAppend (hrow : AllOrNothing c.faults.row)
    (hsidecar : LineFaults.Whole c.faults.row → c.faults.sidecarWrite = none) :
    Triple (Together env) (commitAppend env c) (fun _ => Together env) (Together env) := by
  rintro w ⟨content, seed, h⟩
  suffices hfinal : Together env (exec (commitAppend env c) w).2 from
    ⟨fun _ _ => hfinal, fun _ _ => hfinal⟩
  rcases hhash : entryHash env (chained env c.entry w.writer.lastHash) with _ | hash
  · have hexec : exec (commitAppend env c) w = (.error .hash, w) := by
      have hcompute : computeEntryHash env (canonicalJsonBody env
          (chained env c.entry w.writer.lastHash)) w.writer.lastHash = none := hhash
      unfold commitAppend
      rw [exec_bind_ok (exec_get w)]
      simp only [hcompute]
      rfl
    rw [hexec]
    exact ⟨content, seed, h⟩
  · rcases hrow with hwhole | hnothing
    · rw [exec_commitAppend h.toHolding hwhole (hsidecar hwhole) hhash]
      exact ⟨_, seed, h.committed _ rfl hhash⟩
    · have hcompute : computeEntryHash env (canonicalJsonBody env
          (chained env c.entry w.writer.lastHash)) w.writer.lastHash = some hash := hhash
      unfold commitAppend
      rw [exec_bind_ok (exec_get w)]
      simp only [hcompute]
      rw [exec_bind_error (exec_writeLine_nothing h.toHolding hnothing)]
      exact ⟨content, seed, h.nothing⟩

/-! ## Rotations -/

/-- A rotation finds room under a name behind all archives, and nothing fails between its handoff
and the new file. -/
structure RotationHarmless (env : LogEnv K D) (dir : Directory) (f : Faults) (name : Text) :
    Prop where
  sidecarRename : f.sidecarRename = false
  logRename : f.logRename = false
  readDir : f.readDir = false
  sibling : isRotatedSibling env.stem name = true
  last : ∀ n ∈ archives env dir, n < name
  room : (archives env dir).length < rotatedFileChainCap ∨ f.removeFails = []

theorem archives_rotated {f : Faults} (node : FileNode)
    (hname : isRotatedSibling env.stem name = true) (hlast : ∀ n ∈ archives env dir, n < name)
    (hroom : (archives env dir).length < rotatedFileChainCap ∨ f.removeFails = []) :
    ∃ older, archives env (prune env (movedDir env dir node name) f) = older ++ [name] ∧
      older.length < rotatedFileChainCap := by
  have hmoved : archives env (movedDir env dir node name) = archives env dir ++ [name] :=
    archives_movedDir hname hlast
  rcases hroom with hroom | hremoved
  · refine ⟨(archives env dir).filter fun n => !decide (n ∈ excess env (movedDir env dir node name) ∧
      n ∉ f.removeFails), ?_, (length_filter_le _ _).trans_lt hroom⟩
    have hkept : name ∉ excess env (movedDir env dir node name) := notMem_excess_last hmoved
    rw [archives_prune, hmoved, filter_append]
    simp [hkept]
  · refine ⟨(archives env dir).drop ((archives env dir ++ [name]).length - maxRotatedFiles), ?_, ?_⟩
    · rw [archives_prune_none hremoved, hmoved, drop_append_of_le_length]
      simp [maxRotatedFiles]
    · rw [length_drop, length_append]
      unfold rotatedFileChainCap maxRotatedFiles
      omega

/-- **A rotation leaves an empty file behind its handoff.** -/
theorem Sound.rotated (h : Sound env w content seed) (hf : RotationHarmless env w.dir c.faults name)
    (hne : name ≠ env.stem)
    (hhash : entryHash env (handoffRow env c name w.writer.lastHash) = some hash) :
    Sound env (rotated env w c content name hash) [] hash := by
  have hkind : (handoffRow env c name w.writer.lastHash).eventKind = .auditRotationHandoff name :=
    (truncateArgKeysIfNeeded_keeps _).eventKind
  have hdir : (Steps.rotated env w c content name hash).dir.files =
      (prune env (movedDir env (appendTo w.dir env.stem content
        (line env (handoffRow env c name w.writer.lastHash)))
        (.regular (content ++ line env (handoffRow env c name w.writer.lastHash))) name)
        c.faults).files.insert env.stem (.regular []) := rfl
  generalize handoffRow env c name w.writer.lastHash = handoff at hhash hkind hdir
  set appended := appendTo w.dir env.stem content (line env handoff)
  have hother : ∀ n, n ≠ env.stem → appended.files.lookup n = w.dir.files.lookup n :=
    fun n hn => AList.lookup_insert_ne hn
  have happended : archives env appended = archives env w.dir := archives_of_lookup hother
  have hlast : ∀ n ∈ archives env appended, n < name := by
    rw [happended]
    exact hf.last
  set moved := movedDir env appended (.regular (content ++ line env handoff)) name
  have hmoved : archives env moved = archives env appended ++ [name] :=
    archives_movedDir hf.sibling hlast
  obtain ⟨older, hnames, hlength⟩ := archives_rotated
    (.regular (content ++ line env handoff)) hf.sibling hlast (by rw [happended]; exact hf.room)
  have hfile : (prune env moved c.faults).files.lookup name =
      some (.regular (content ++ line env handoff)) := by
    rw [lookup_prune_files, if_neg fun hmem => notMem_excess_last hmoved hmem.1,
      lookup_movedDir_files hne, if_pos rfl]
  have hseed : initialChainSeed env (Steps.rotated env w c content name hash).dir = .ok hash := by
    have hsame : ∀ n, n ≠ env.stem → (Steps.rotated env w c content name hash).dir.files.lookup n =
        (prune env moved c.faults).files.lookup n := fun n hn => by
      rw [hdir]
      exact AList.lookup_insert_ne hn
    rw [initialChainSeed_of_lookup hsame]
    exact initialChainSeed_of_newest hnames hlength hfile h.terminated hkind hhash
  refine ⟨⟨rfl, ?_⟩, Lines.terminated_nil, hseed, replay_nil hash⟩
  exact AList.lookup_insert _

/-- **A rotation closes the file, or nothing happened, or it was cut off.** -/
theorem kept_rotate (h : Sound env w content seed) (hhandoff : AllOrNothing c.faults.handoff)
    (hrotation : LineFaults.Whole c.faults.handoff →
      RotationHarmless env w.dir c.faults (rotatedName env w c)) :
    (∀ a, (exec (rotate env c) w).1 = .ok a → Together env (exec (rotate env c) w).2) ∧
      ∀ err, (exec (rotate env c) w).1 = .error err → Kept env (exec (rotate env c) w).2 := by
  have hstamp : exec (compactTimestamp c.rotationMs) w =
      (.ok (w.rotationStamp c.rotationMs), w.stamped c.rotationMs) := rfl
  have hrotate : exec (rotate env c) w =
      exec (rotateTo env c (rotatedName env w c)) (w.stamped c.rotationMs) := by
    unfold rotate
    rw [exec_bind_ok hstamp]
    rfl
  have hne : rotatedName env w c ≠ env.stem := rotatedName_ne_stem
  have hdir : (w.stamped c.rotationMs).dir = w.dir := stamped_dir w _
  have hs := h.stamped c.rotationMs
  rw [hrotate]
  rw [← hdir] at hrotation
  generalize rotatedName env w c = name at hne hrotation ⊢
  generalize w.stamped c.rotationMs = s at hs hrotation ⊢
  have hprev : (handoffRow env c name s.writer.lastHash).previousEntryHash = s.writer.lastHash :=
    previousEntryHash_handoffRow _
  rcases hhash : entryHash env (handoffRow env c name s.writer.lastHash) with _ | hash
  · have hexec : exec (rotateTo env c name) s = (.error .hash, s) := by
      unfold entryHash at hhash
      rw [hprev] at hhash
      unfold rotateTo appendRotationHandoff
      refine exec_bind_error ?_
      rw [exec_bind_ok (exec_get s)]
      simp only [hhash]
      rfl
    exact Triple.of_error hexec (.inr ⟨content, seed, hs⟩)
  rcases hhandoff with hwhole | hnothing
  · have hf := hrotation hwhole
    have hrotationWhole : RotationWhole c.faults :=
      ⟨hwhole, hf.sidecarRename, hf.logRename, hf.readDir⟩
    rcases hcreate : c.faults.create with _ | _
    · exact Triple.of_ok (exec_rotateTo hs.toHolding hrotationWhole hhash hcreate hne)
        ⟨[], hash, hs.rotated hf hne hhash⟩
    · exact Triple.of_error (exec_rotateTo_fails hs.toHolding hrotationWhole hhash hcreate)
        (.inl (Option.some_ne_none _))
  · have hexec : exec (rotateTo env c name) s =
        (.error .io, { s with dir := appendTo s.dir env.stem content [] }) := by
      unfold entryHash at hhash
      rw [hprev] at hhash
      unfold rotateTo appendRotationHandoff
      refine exec_bind_error ?_
      rw [exec_bind_ok (exec_get s)]
      simp only [hhash]
      exact exec_bind_error (exec_writeLine_nothing hs.toHolding hnothing)
    exact Triple.of_error hexec (.inr ⟨content, seed, hs.nothing⟩)

/-! ## Calls -/

/-- The failures of a call that keep the writer and its file together. -/
structure Harmless (env : LogEnv K D) (w : World K) (c : Call K) : Prop where
  row : AllOrNothing c.faults.row
  sidecar : LineFaults.Whole c.faults.row → c.faults.sidecarWrite = none
  handoff : Rotates w → AllOrNothing c.faults.handoff
  rotation : Rotates w → LineFaults.Whole c.faults.handoff →
    RotationHarmless env w.dir c.faults (rotatedName env w c)

theorem harmless_of_small (h : ¬ Rotates w) (hrow : AllOrNothing c.faults.row)
    (hsidecar : LineFaults.Whole c.faults.row → c.faults.sidecarWrite = none) : Harmless env w c :=
  ⟨hrow, hsidecar, fun hrotates => absurd hrotates h, fun hrotates => absurd hrotates h⟩

theorem kept_rotateIfNeeded (h : Sound env w content seed) (hc : Harmless env w c) :
    Triple (SameLog w) (rotateIfNeeded env c) (fun _ => Together env) (Kept env) := by
  intro s hs
  have hsound := h.of_sameLog hs
  have hdir : s.dir = w.dir := by
    have hdir := congrArg Surroundings.dir hs.surroundings
    exact hdir
  have hheld : s.heldContent = w.heldContent := by
    rw [hsound.heldContent, h.heldContent]
  have hname : rotatedName env s c = rotatedName env w c := by
    have hstamp := congrArg Surroundings.lastRotationTimestamp hs.surroundings
    have hcounter := congrArg Surroundings.rotationCollisionCounter hs.surroundings
    unfold rotatedName World.rotationStamp
    rw [hstamp, hcounter]
  rcases hlen : c.faults.lenMetadata with _ | _
  · have hexec : exec (rotateIfNeeded env c) s =
        exec (if s.heldContent.length ≥ rotationThresholdBytes then rotate env c else pure ()) s := by
      unfold rotateIfNeeded
      rw [hlen, exec_bind_ok (show exec (failIf false : Action K Unit) s = (.ok (), s) from rfl),
        exec_bind_ok (exec_get s)]
    rw [hexec]
    split_ifs with hlarge
    · have hrotates : Rotates w := by
        unfold Rotates
        rw [← hheld]
        exact hlarge
      refine kept_rotate hsound (hc.handoff hrotates) fun hwhole => ?_
      rw [hdir, hname]
      exact hc.rotation hrotates hwhole
    · exact Triple.of_ok (exec_pure () s) ⟨content, seed, hsound⟩
  · have hexec : exec (rotateIfNeeded env c) s = (.error .io, s) := by
      unfold rotateIfNeeded
      rw [hlen]
      exact exec_bind_error rfl
    exact Triple.of_error hexec (.inr ⟨content, seed, hsound⟩)

/-- **A call whose failures are harmless keeps the writer and its file together.** -/
theorem Kept.step (h : Kept env w) (hc : Harmless env w c) : Kept env (step env w c) := by
  rcases hdetect : w.writer.partialRotationArchive with _ | archive
  · obtain ⟨content, seed, hsound⟩ := h.resolve_left fun hne => hne hdetect
    have hkept : ∀ s, SameLog w s → Kept env s := fun s hs =>
      .inr ⟨content, seed, hsound.of_sameLog hs⟩
    have hrefuse : Triple (fun s => s = w) (refusePartialRotation : Action K Unit)
        (fun _ => SameLog w) (Kept env) := by
      refine Triple.get_bind_rule fun s hs => ?_
      subst hs
      rw [hdetect]
      exact Triple.pure_rule fun s hs => hs ▸ SameLog.refl _
    have hprepare : Triple (fun s => s = w) (prepareAppend env c) (fun _ => Together env)
        (Kept env) := by
      refine hrefuse.bind_rule fun _ => ?_
      refine ((keepsLog_guardLog w).fails hkept).bind_rule fun _ => ?_
      refine ((keepsLog_retryTipAnchorIfBehind _ w).fails hkept).bind_rule fun _ => ?_
      exact kept_rotateIfNeeded hsound hc
    have hwrite : Triple (fun s => s = w) (writeEntry env c) (fun _ => Together env) (Kept env) :=
      hprepare.bind_rule fun _ =>
        (together_commitAppend hc.row hc.sidecar).fails fun _ hs => .inr hs
    obtain ⟨hok, herr⟩ := hwrite w rfl
    rcases hexec : (exec (writeEntry env c) w).1 with err | u
    · exact herr err hexec
    · exact .inr (hok u hexec)
  · have hexec : exec (writeEntry env c) w = (.error (.partialRotation archive), w) := by
      have hrefuse : exec (refusePartialRotation : Action K Unit) w =
          (.error (.partialRotation archive), w) := by
        unfold refusePartialRotation
        rw [exec_bind_ok (exec_get w), hdetect]
        rfl
      exact exec_bind_error (exec_bind_error hrefuse)
    unfold HonestRuns.step final
    rw [hexec]
    exact h

/-- **Along every run whose failures are harmless** the hash, the count and the offset of a writer
that is not in the middle of a rotation describe the bytes in the file. -/
theorem describes_of_run (h : Together env w) (calls : List (Call K))
    (hcalls : Runs.Along (step env) (Harmless env) w calls)
    (hwhole : (Runs.run (step env) w calls).writer.partialRotationArchive = none) :
    Describes env (Runs.run (step env) w calls) := by
  have hkept : Kept env (Runs.run (step env) w calls) :=
    Runs.run_invariant_along (fun _ _ hs hc => hs.step hc) calls w (.inr h) hcalls
  exact (hkept.resolve_left fun hne => hne hwhole).describes

/-! ## A row that is not synced -/

/-- The call with a sync of its row that fails. -/
def unsynced (c : Call K) : Call K :=
  { c with faults := { Faults.none with row := ⟨none, true, false⟩ } }

/-- The bytes of a row are in the file, and the writer does not know it. -/
def leftover (env : LogEnv K D) (w : World K) (content : Text) (row : AuditEntry K) : World K :=
  { w with dir := appendTo w.dir env.stem content (line env row), history := w.history ++ [row] }

/-- A writer without an anchor that has a short file and owes nothing. -/
structure Unguarded (env : LogEnv K D) (w : World K) (content : Text) : Prop
    extends Holding env w content where
  anchored : w.writer.anchored = false
  whole : w.writer.partialRotationArchive = none
  settled : w.writer.pendingTipAnchor = none
  small : content.length < rotationThresholdBytes

theorem Unguarded.exec_writeEntry (h : Unguarded env w content)
    (hlen : c.faults.lenMetadata = false) :
    exec (writeEntry env c) w = exec (commitAppend env c) w := by
  have hrefuse : exec (refusePartialRotation : Action K Unit) w = (.ok (), w) := by
    unfold refusePartialRotation
    rw [exec_bind_ok (exec_get w), h.whole]
    rfl
  have hguard : exec (guardLog env c) w = (.ok (), w) := by
    have hmoved : exec (refuseIfLogMovedOnAppend env c.faults) w = (.ok (), w) := by
      unfold refuseIfLogMovedOnAppend
      rw [exec_bind_ok (exec_get w), if_pos h.anchored]
      rfl
    unfold guardLog
    rw [exec_tryCatch, hmoved]
  have hretry : exec (retryTipAnchorIfBehind c.faults.anchorRetry : Action K Unit) w =
      (.ok (), w) := by
    unfold retryTipAnchorIfBehind
    rw [exec_modify, h.settled]
  have hlength : exec (rotateIfNeeded env c) w = (.ok (), w) := by
    have hnot : ¬ w.heldContent.length ≥ rotationThresholdBytes := by
      rw [h.heldContent]
      exact Nat.not_le.2 h.small
    have hlenOk : exec (failIf c.faults.lenMetadata : Action K Unit) w = (.ok (), w) := by
      rw [hlen]
      rfl
    unfold rotateIfNeeded
    rw [exec_bind_ok hlenOk, exec_bind_ok (exec_get w), if_neg hnot, exec_pure]
  have hprepare : exec (prepareAppend env c) w = (.ok (), w) := by
    unfold prepareAppend
    rw [exec_bind_ok hrefuse, exec_bind_ok hguard, exec_bind_ok hretry, hlength]
  unfold writeEntry
  rw [exec_bind_ok hprepare]

theorem exec_commitAppend_unsynced (hw : Holding env w content)
    (hhash : entryHash env (chained env c.entry w.writer.lastHash) = some hash) :
    exec (commitAppend env (unsynced c)) w =
      (.error .io, leftover env w content (chained env c.entry w.writer.lastHash)) := by
  have hcompute : computeEntryHash env (canonicalJsonBody env
      (chained env c.entry w.writer.lastHash)) w.writer.lastHash = some hash := hhash
  unfold commitAppend
  rw [exec_bind_ok (exec_get w)]
  simp only [unsynced, hcompute]
  refine exec_bind_error ?_
  unfold writeLine
  rw [exec_bind_ok (exec_modify _ _)]
  simp only [LineFaults.written, hw.appendBytes]
  rfl

theorem not_replays_of_fork {e' : AuditEntry K} (hsha : env.hashes.sha256.Injective)
    (hprev : e'.previousEntryHash = zeroBlockHash env) (scan : ChainScan) :
    readAndVerifyEntryChain env (lines env [e, e']) 0 seed ≠ .ok scan := by
  intro hreplay
  obtain ⟨s, hfold, -⟩ := replay_ok hreplay
  have hlinked := replayLines_linked hfold
  have hentries : (Lines.rawLines 10 (lines env [e, e'])).filterMap (readLine env) = [e, e'] :=
    parsedEntries_lines [e, e']
  rw [hentries] at hlinked
  obtain ⟨-, hash, hhash, hnext, -⟩ := hlinked
  rw [← hnext, hprev] at hhash
  exact entryHash_ne_zeroBlockHash hsha e hhash

/-- **A row that is written whole and not synced breaks the chain**: the call fails, the next one
answers, and the file holds two rows behind the genesis hash. -/
theorem unsynced_row_forks (hsha : env.hashes.sha256.Injective) (c c' : Call K)
    (hf : c'.faults = .none) (h : Unguarded env w [])
    (hlast : w.writer.lastHash = zeroBlockHash env)
    (hsmall : (line env (chained env c.entry (zeroBlockHash env))).length <
      rotationThresholdBytes) : exec (writeEntry env (unsynced c)) w =
        (.error .io, leftover env w [] (chained env c.entry (zeroBlockHash env))) ∧
      ∃ w', exec (writeEntry env c')
          (leftover env w [] (chained env c.entry (zeroBlockHash env))) = (.ok (), w') ∧
        w'.writer.logDiverged = w.writer.logDiverged ∧ w'.writer.partialRotationArchive = none ∧
        ¬ Describes env w' := by
  have hroot : ∀ entry, ∃ hash, entryHash env (chained env entry w.writer.lastHash) = some hash :=
    fun entry => exists_entryHash (hlast.trans rfl)
  obtain ⟨hash, hhash⟩ := hroot c.entry
  obtain ⟨hash', hhash'⟩ := hroot c'.entry
  constructor
  · rw [h.exec_writeEntry rfl, exec_commitAppend_unsynced h.toHolding hhash, hlast]
  have hleft : Unguarded env (leftover env w [] (chained env c.entry (zeroBlockHash env)))
      (line env (chained env c.entry (zeroBlockHash env))) :=
    ⟨h.toHolding.append _ _, h.anchored, h.whole, h.settled, hsmall⟩
  have hwriter : (leftover env w [] (chained env c.entry (zeroBlockHash env))).writer = w.writer :=
    rfl
  generalize leftover env w [] (chained env c.entry (zeroBlockHash env)) = w₁ at hleft hwriter ⊢
  rw [← hwriter] at hhash' hlast ⊢
  have hcommit := exec_commitAppend hleft.toHolding (by rw [hf]; exact whole_none)
    (by rw [hf]; rfl) hhash'
  rw [show c'.faults.anchorRow = false by rw [hf]; rfl, committed_of_settled env hleft.settled]
    at hcommit
  refine ⟨_, (hleft.exec_writeEntry (by rw [hf]; rfl)).trans hcommit, rfl, hleft.whole, ?_⟩
  rintro ⟨content, seed, hheld, -, hreplay⟩
  have hcontent : content = lines env
      [chained env c.entry (zeroBlockHash env), chained env c'.entry w₁.writer.lastHash] := by
    have hfile := hheld.file
    rw [signedDir_files] at hfile
    have heq := (show (appendTo w₁.dir env.stem _ _).files.lookup env.stem = _ from
      AList.lookup_insert _).symm.trans hfile
    simpa [lines] using heq.symm
  rw [hcontent] at hreplay
  exact not_replays_of_fork hsha hlast _ hreplay

/-! ## On a new log -/

section

open PlainLog

theorem together_plainWriter (anchored : Bool) : Together plainLog (plainWriter anchored) :=
  ⟨[], zeroBlockHash plainLog, (honest_plainWriter anchored).toHolding, Lines.terminated_nil,
    initialChainSeed_of_archives_nil archives_emptyLog, replay_nil _⟩

/-- A row whose anchor is not stored, one of which not a byte is written, and one that is
written. -/
def troubled : List (Call Unit) :=
  [{ (plainCall 0).toCall with faults := { Faults.none with anchorRow := true } },
    { (plainCall 1).toCall with faults := { Faults.none with row := ⟨some 0, false, false⟩ } },
    (plainCall 2).toCall]

/-- The two rows that are written stand in the file as the writer counts them. -/
theorem describes_troubled : Describes plainLog
    (Runs.run (step plainLog) (plainWriter true) troubled) ∧
    (Runs.run (step plainLog) (plainWriter true) troubled).history.length = 2 := by
  have hsmall : ∀ calls ∈ [[], troubled.take 1, troubled.take 2],
      ¬ Rotates (Runs.run (step plainLog) (plainWriter true) calls) := by
    unfold Rotates
    decide +kernel
  have hfirst := hsmall [] (by simp)
  have hsecond := hsmall (troubled.take 1) (by simp)
  have hthird := hsmall (troubled.take 2) (by simp)
  refine ⟨describes_of_run (together_plainWriter true) troubled ⟨?_, ?_, ?_, trivial⟩
    (by decide +kernel), by decide +kernel⟩
  · exact harmless_of_small hfirst (.inl whole_none) fun _ => rfl
  · exact harmless_of_small hsecond (.inr rfl) fun h => absurd h.write (Option.some_ne_none _)
  · exact harmless_of_small hthird (.inl whole_none) fun _ => rfl

/-- **The first row is not synced, the second one is written.** -/
theorem unsynced_row_breaks_chain :
    ∃ w₁, exec (writeEntry plainLog (unsynced (plainCall 0).toCall)) (plainWriter false) =
        (.error .io, w₁) ∧ ∃ w₂, exec (writeEntry plainLog (plainCall 1).toCall) w₁ = (.ok (), w₂) ∧
        w₂.writer.logDiverged = none ∧ w₂.writer.partialRotationArchive = none ∧
        ¬ Describes plainLog w₂ := by
  have hsmall : (line plainLog (chained plainLog (plainCall 0).toCall.entry
      (zeroBlockHash plainLog))).length < rotationThresholdBytes := by decide +kernel
  have hunguarded : Unguarded plainLog (plainWriter false) [] :=
    ⟨(honest_plainWriter false).toHolding, rfl, rfl, rfl, by decide⟩
  obtain ⟨hfirst, w₂, hsecond, hlatch, hwhole, hnot⟩ := unsynced_row_forks plainHashes_injective
    (plainCall 0).toCall (plainCall 1).toCall rfl hunguarded rfl hsmall
  exact ⟨_, hfirst, w₂, hsecond, hlatch, hwhole, hnot⟩

end

end AgentWallet.AuditLog.FaultSafety
