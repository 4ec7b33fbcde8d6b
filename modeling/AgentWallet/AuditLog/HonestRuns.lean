import AgentWallet.AuditLog.Steps
import AgentWallet.Base.Runs

/-!
# Honest runs of the audit writer

Runs of a writer that was opened on an empty directory and whose operations never fail.  Every call
succeeds, with or without a rotation (`exec_writeEntry`), and after every run the entries written so
far form one chain from the genesis hash to the writer's last hash, which the stored anchor names
(`honest_run`).  The clock plays no part in this.
-/

namespace AgentWallet.AuditLog.HonestRuns

open Base Base.Programs Timestamps Entry Files Writer Steps

variable {K D : Type}

/-! ## One call -/

section

variable {env : LogEnv K D} {w w' : World K} {c : Call K} {content hash name : Text}
  {e : AuditEntry K}

/-- A writer with which nothing went wrong. -/
structure Live (env : LogEnv K D) (w : World K) (content : Text) : Prop
    extends Intact env w content where
  digest : ∃ d, w.writer.lastHash = env.hashes.hashText d
  settled : w.writer.pendingTipAnchor = none

/-- What an append leaves: one row, or a handoff, a rotation and one row. -/
inductive Appended (env : LogEnv K D) (w : World K) (content : Text) (c : Call K) :
    World K → Prop
  | row {hash : Text} (hsmall : content.length < rotationThresholdBytes)
      (hhash : entryHash env (chained env c.entry w.writer.lastHash) = some hash) :
      Appended env w content c
        (committed env w false content (chained env c.entry w.writer.lastHash) hash)
  | rotation {handoffHash hash : Text} (hlarge : rotationThresholdBytes ≤ content.length)
      (hhandoff : entryHash env (handoffRow env c (rotatedName env w c) w.writer.lastHash) =
        some handoffHash)
      (hhash : entryHash env (chained env c.entry handoffHash) = some hash) :
      Appended env w content c
        (committed env
          (rotated env (w.stamped c.rotationMs) c content (rotatedName env w c) handoffHash)
          false [] (chained env c.entry handoffHash) hash)

theorem exists_entryHash {d : D} (h : e.previousEntryHash = env.hashes.hashText d) :
    ∃ hash, entryHash env e = some hash :=
  ⟨_, computeEntryHash_eq_some.2 ⟨d, h, rfl⟩⟩

theorem whole_none : LineFaults.Whole LineFaults.none := ⟨rfl, rfl, rfl⟩

theorem rotationWhole_none : RotationWhole Faults.none := ⟨whole_none, rfl, rfl, rfl⟩

theorem previousEntryHash_handoffRow (lastHash : Text) :
    (handoffRow env c name lastHash).previousEntryHash = lastHash :=
  (truncateArgKeysIfNeeded_keeps _).previousEntryHash

theorem Holding.stamped (h : Holding env w content) (ms : ℕ) : Holding env (w.stamped ms) content :=
  ⟨by rw [stamped_writer]; exact h.held, by rw [stamped_dir]; exact h.file⟩

theorem holding_rotated : Holding env (rotated env w c content name hash) [] :=
  ⟨rfl, AList.lookup_insert _⟩

theorem exec_prepareAppend (h : Live env w content) (hf : c.faults = .none) :
    exec (prepareAppend env c) w =
      exec (if content.length ≥ rotationThresholdBytes then rotate env c else pure ()) w := by
  have hdetect : exec (refusePartialRotation : Action K Unit) w = (.ok (), w) := by
    unfold refusePartialRotation
    rw [exec_bind_ok (exec_get w), h.whole]
    rfl
  have hretry : exec (retryTipAnchorIfBehind c.faults.anchorRetry : Action K Unit) w =
      (.ok (), w) := by
    unfold retryTipAnchorIfBehind
    rw [exec_modify, h.settled]
  have hlen : exec (failIf c.faults.lenMetadata : Action K Unit) w = (.ok (), w) := by
    rw [hf]
    rfl
  unfold prepareAppend
  rw [exec_bind_ok hdetect, exec_bind_ok (exec_guardLog h.toIntact hf), exec_bind_ok hretry]
  unfold rotateIfNeeded
  rw [exec_bind_ok hlen, exec_bind_ok (exec_get w), h.heldContent]

/-- **Every call succeeds when nothing fails.** -/
theorem exec_writeEntry (h : Live env w content) (hf : c.faults = .none) :
    ∃ w', exec (writeEntry env c) w = (.ok (), w') ∧ Appended env w content c w' := by
  obtain ⟨d, hd⟩ := h.digest
  have hrow : LineFaults.Whole c.faults.row := by
    rw [hf]
    exact whole_none
  have hsidecar : c.faults.sidecarWrite = none := by rw [hf]; rfl
  have hanchor : c.faults.anchorRow = false := by rw [hf]; rfl
  rcases Nat.lt_or_ge content.length rotationThresholdBytes with hsmall | hlarge
  · obtain ⟨hash, hhash⟩ : ∃ hash, entryHash env (chained env c.entry w.writer.lastHash) =
        some hash := exists_entryHash hd
    have hprepare : exec (prepareAppend env c) w = (.ok (), w) := by
      rw [exec_prepareAppend h hf, if_neg (by omega), exec_pure]
    refine ⟨_, ?_, .row hsmall hhash⟩
    unfold writeEntry
    rw [exec_bind_ok hprepare, exec_commitAppend h.toHolding hrow hsidecar hhash, hanchor]
  · obtain ⟨handoffHash, hhandoff⟩ : ∃ hash,
        entryHash env (handoffRow env c (rotatedName env w c) w.writer.lastHash) = some hash :=
      exists_entryHash ((previousEntryHash_handoffRow _).trans hd)
    obtain ⟨d', hd'⟩ := exists_digest hhandoff
    obtain ⟨hash, hhash⟩ : ∃ hash, entryHash env (chained env c.entry handoffHash) = some hash :=
      exists_entryHash hd'
    have hstamp : exec (compactTimestamp c.rotationMs) w =
        (.ok (w.rotationStamp c.rotationMs), w.stamped c.rotationMs) := rfl
    have hstamped : entryHash env (handoffRow env c (rotatedName env w c)
        (w.stamped c.rotationMs).writer.lastHash) = some handoffHash := by
      rw [stamped_writer]
      exact hhandoff
    have hrotate : exec (rotate env c) w =
        (.ok (), rotated env (w.stamped c.rotationMs) c content (rotatedName env w c)
          handoffHash) := by
      unfold rotate
      rw [exec_bind_ok hstamp]
      exact exec_rotateTo (Holding.stamped h.toHolding _) (hf ▸ rotationWhole_none) hstamped
        (by rw [hf]; rfl) rotatedName_ne_stem
    refine ⟨_, ?_, .rotation hlarge hhandoff hhash⟩
    unfold writeEntry
    rw [exec_bind_ok ((exec_prepareAppend h hf).trans (by rw [if_pos hlarge]; exact hrotate)),
      exec_commitAppend holding_rotated hrow hsidecar hhash, hanchor]
    rfl

/-! ## What it leaves -/

variable {content' : Text}

theorem storeAnchor_of_settled (h : w.writer.pendingTipAnchor = none) (anchor : TipAnchor) :
    w.storeAnchor false anchor = { w with
        storedAnchor := if w.writer.anchored = true then some anchor else w.storedAnchor } := by
  have hself : w.setWriter (fun wr => { wr with pendingTipAnchor := none }) = w := by
    unfold World.setWriter
    rw [← h]
  unfold World.storeAnchor
  rw [hself]
  rcases w.writer.anchored with _ | _ <;> rfl

theorem committed_of_settled (env : LogEnv K D) (h : w.writer.pendingTipAnchor = none)
    (content : Text) (e : AuditEntry K) (hash : Text) : committed env w false content e hash =
      { w with
        dir := signedDir env w e (appendTo w.dir env.stem content (line env e))
        storedAnchor :=
          if w.writer.anchored = true then
            some ⟨w.writer.entryCount + 1, hash, (content ++ line env e).length⟩
          else w.storedAnchor
        history := w.history ++ [e]
        writer :=
          { w.writer with
            lastHash := hash
            isNewFile := false
            entryCount := w.writer.entryCount + 1
            endOffset := (content ++ line env e).length } } := by
  refine storeAnchor_of_settled ?_ _
  exact h

/-- A writer with a complete file, between two calls or behind a rotation. -/
structure Steady (env : LogEnv K D) (w : World K) (content : Text) : Prop
    extends Holding env w content where
  terminated : Lines.Terminated 10 content
  unlatched : w.writer.logDiverged = none
  whole : w.writer.partialRotationArchive = none
  settled : w.writer.pendingTipAnchor = none

theorem Live.steady (h : Live env w content) : Steady env w content :=
  ⟨h.toHolding, h.terminated, h.unlatched, h.whole, h.settled⟩

theorem Steady.live_committed (h : Steady env w content) (hhash : entryHash env e = some hash) :
    Live env (committed env w false content e hash) (content ++ line env e) := by
  have hfile : (signedDir env w e (appendTo w.dir env.stem content (line env e))).files.lookup
      env.stem = some (.regular (content ++ line env e)) := by
    rw [signedDir_files]
    exact AList.lookup_insert _
  rw [committed_of_settled env h.settled]
  exact
    { held := h.held
      file := hfile
      terminated := Lines.terminated_append h.terminated Lines.terminated_snoc
      endOffset := rfl
      tip := .inr ⟨content, e, h.terminated, rfl, hhash⟩
      unlatched := h.unlatched
      whole := h.whole
      digest := exists_digest hhash
      settled := h.settled }

theorem rotated_of_settled (h : w.writer.pendingTipAnchor = none) (hf : c.faults = .none) :
    (rotated env w c content name hash).writer =
      { w.writer with
        heldName := env.stem
        lastHash := hash
        isNewFile := true
        entryCount := 0
        endOffset := 0 } := by
  unfold rotated handedOff
  rw [hf]
  simp [Faults.none, storeAnchor_of_settled h]

theorem Live.steady_rotated (h : Live env w content) (hf : c.faults = .none) :
    Steady env (rotated env (w.stamped c.rotationMs) c content name hash) [] := by
  have hsettled : (w.stamped c.rotationMs).writer.pendingTipAnchor = none := by
    rw [stamped_writer]
    exact h.settled
  refine ⟨holding_rotated, Lines.terminated_nil, ?_, ?_, ?_⟩
  all_goals rw [rotated_of_settled hsettled hf, stamped_writer]
  · exact h.unlatched
  · exact h.whole
  · exact h.settled

/-! ## The chain of everything written -/

/-- The entries written so far form a chain, and the anchor names its tip. -/
structure Honest (env : LogEnv K D) (w : World K) (content : Text) : Prop
    extends Live env w content where
  chain : Linked env (zeroBlockHash env) w.history w.writer.lastHash
  anchor : w.storedAnchor =
    if w.writer.anchored = true ∧ w.history ≠ [] then
      some ⟨w.writer.entryCount, w.writer.lastHash, w.writer.endOffset⟩
    else none
  counted : w.history ≠ [] → w.writer.entryCount ≠ 0

theorem Steady.honest_committed (h : Steady env w content)
    (hchain : Linked env (zeroBlockHash env) w.history e.previousEntryHash)
    (hhash : entryHash env e = some hash)
    (hanchor : w.writer.anchored = false → w.storedAnchor = none) :
    Honest env (committed env w false content e hash) (content ++ line env e) := by
  refine ⟨h.live_committed hhash, ?_, ?_, fun _ => ?_⟩
  · rw [committed_of_settled env h.settled]
    exact HashChain.linked_snoc.2 ⟨hchain, hhash⟩
  · rw [committed_of_settled env h.settled]
    rcases hanchored : w.writer.anchored with _ | _
    · simp [hanchor hanchored]
    · simp
  · rw [committed_of_settled env h.settled]
    exact Nat.succ_ne_zero _

theorem rotated_lastRotationTimestamp (w : World K) :
    (rotated env w c content name hash).lastRotationTimestamp = w.lastRotationTimestamp := by
  unfold rotated handedOff World.storeAnchor
  split_ifs <;> rfl

theorem rotated_history (w : World K) : (rotated env w c content name hash).history =
      w.history ++ [handoffRow env c name w.writer.lastHash] := rfl

theorem stamped_history (w : World K) (ms : ℕ) : (w.stamped ms).history = w.history := by
  unfold World.stamped
  split_ifs <;> rfl

theorem stamped_storedAnchor (w : World K) (ms : ℕ) :
    (w.stamped ms).storedAnchor = w.storedAnchor := by
  unfold World.stamped
  split_ifs <;> rfl

theorem rotated_storedAnchor (h : w.writer.anchored = false) :
    (rotated env w c content name hash).storedAnchor = w.storedAnchor := by
  unfold rotated handedOff World.storeAnchor
  simp [h]

/-- **Every call extends the chain.** -/
theorem Appended.honest (happended : Appended env w content c w') (h : Honest env w content)
    (hf : c.faults = .none) : ∃ content', Honest env w' content' := by
  have hanchor : w.writer.anchored = false → w.storedAnchor = none := fun ha => by
    rw [h.anchor, if_neg (by simp [ha])]
  cases happended with
  | row hsmall hhash => exact ⟨_, h.toLive.steady.honest_committed h.chain hhash hanchor⟩
  | rotation hlarge hhandoff hhash =>
    refine ⟨_, (h.toLive.steady_rotated hf).honest_committed ?_ hhash fun ha => ?_⟩
    · rw [rotated_history, stamped_history, stamped_writer]
      refine HashChain.Linked.snoc h.chain ?_ hhandoff
      exact previousEntryHash_handoffRow _
    · have hsettled : (w.stamped c.rotationMs).writer.pendingTipAnchor = none := by
        rw [stamped_writer]
        exact h.settled
      rw [rotated_of_settled hsettled hf, stamped_writer] at ha
      rw [rotated_storedAnchor (by rw [stamped_writer]; exact ha), stamped_storedAnchor, hanchor ha]

section

variable (h : w.writer.pendingTipAnchor = none)
include h

theorem committed_anchored :
    (committed env w false content e hash).writer.anchored = w.writer.anchored := by
  rw [committed_of_settled env h]

theorem committed_history : (committed env w false content e hash).history = w.history ++ [e] := by
  rw [committed_of_settled env h]

theorem rotated_anchored (hf : c.faults = .none) :
    (rotated env w c content name hash).writer.anchored = w.writer.anchored := by
  rw [rotated_of_settled h hf]

end

section

variable (happended : Appended env w content c w') (h : Live env w content) (hf : c.faults = .none)
include happended h hf

theorem Appended.anchored : w'.writer.anchored = w.writer.anchored := by
  cases happended with
  | row hsmall hhash => exact committed_anchored h.settled
  | rotation hlarge hhandoff hhash =>
    have hsettled : (w.stamped c.rotationMs).writer.pendingTipAnchor = none := by
      rw [stamped_writer]
      exact h.settled
    rw [committed_anchored (h.steady_rotated hf).settled, rotated_anchored hsettled hf,
      stamped_writer]

theorem Appended.history : (content.length < rotationThresholdBytes ∧
      w'.history = w.history ++ [chained env c.entry w.writer.lastHash]) ∨
    (rotationThresholdBytes ≤ content.length ∧ ∃ handoffHash,
      w'.history = w.history ++ [handoffRow env c (rotatedName env w c) w.writer.lastHash] ++
        [chained env c.entry handoffHash]) := by
  cases happended with
  | row hsmall hhash => exact .inl ⟨hsmall, committed_history h.settled⟩
  | @rotation handoffHash _ hlarge hhandoff hhash =>
    refine .inr ⟨hlarge, handoffHash, ?_⟩
    rw [committed_history (h.steady_rotated hf).settled, rotated_history, stamped_history,
      stamped_writer]

end

theorem Live.content_eq (h : Live env w content) (h' : Live env w content') :
    content = content' := by
  have heq := h.file.symm.trans h'.file
  simpa using heq

theorem Appended.length_pos (happended : Appended env w content c w') (h : Live env w content)
    (hf : c.faults = .none) (h' : Live env w' content') :
    (if rotationThresholdBytes ≤ content.length then 0 else content.length) < content'.length := by
  cases happended with
  | row hsmall hhash =>
    rw [if_neg (by omega), h'.content_eq (h.steady.live_committed hhash)]
    simp [line]
  | rotation hlarge hhandoff hhash =>
    rw [if_pos hlarge, h'.content_eq ((h.steady_rotated hf).live_committed hhash)]
    simp [line]

end

/-! ## Runs -/

section

variable {env : LogEnv K D} {w w₀ : World K} {content : Text}

/-- The calls of one writer, one after the other. -/
def step (env : LogEnv K D) (w : World K) (c : Call K) : World K := final (writeEntry env c) w

theorem Honest.step {c : Call K} (h : Honest env w content) (hf : c.faults = .none) :
    ∃ content', Appended env w content c (step env w c) ∧ Honest env (step env w c) content' := by
  obtain ⟨w', hexec, happended⟩ := exec_writeEntry h.toLive hf
  obtain ⟨content', hhonest⟩ := happended.honest h hf
  have hstep : HonestRuns.step env w c = w' := by
    unfold HonestRuns.step final
    rw [hexec]
  rw [hstep]
  exact ⟨content', happended, hhonest⟩

def empty : Surroundings K where
  dir := ⟨∅, ∅⟩
  storedAnchor := none
  lastRotationTimestamp := 0
  rotationCollisionCounter := 0
  history := []

def emptyLog (env : LogEnv K D) : Directory :=
  ⟨(∅ : AList fun _ : Text => FileNode).insert env.stem (.regular []), ∅⟩

theorem archives_emptyLog : archives env (emptyLog env) = [] := archives_insert_stem _ _

variable {hmacKey : Option Text} {anchored : Bool} {adoptionRow : ℕ → Call K}

theorem honest_opened : Honest env (openedWorld env empty hmacKey anchored (emptyLog env) []
    ⟨zeroBlockHash env, 0, 0⟩) [] where
  held := rfl
  file := AList.lookup_insert _
  terminated := Lines.terminated_nil
  endOffset := rfl
  tip := .inl rfl
  unlatched := rfl
  whole := rfl
  digest := ⟨_, rfl⟩
  settled := rfl
  chain := rfl
  anchor := by simp [openedWorld, empty]
  counted h := absurd rfl h

variable [DecidableEq D]

theorem openInner_empty_eq : openInner env hmacKey anchored adoptionRow empty =
    (detectPartialRotation env (emptyLog env) []).bind fun _ =>
      .ok (openedWorld env empty hmacKey anchored (emptyLog env) [] ⟨zeroBlockHash env, 0, 0⟩) := by
  have hreconcile : reconcileOnOpen env adoptionRow (openedWorld env empty hmacKey anchored
      (emptyLog env) [] ⟨zeroBlockHash env, 0, 0⟩) =
        .ok (openedWorld env empty hmacKey anchored (emptyLog env) []
          ⟨zeroBlockHash env, 0, 0⟩) := by
    cases anchored with
    | false => rfl
    | true =>
      have hlen : (openedWorld env (empty : Surroundings K) hmacKey true (emptyLog env) []
          ⟨zeroBlockHash env, 0, 0⟩).pathLen env = 0 := honest_opened.pathLen
      unfold reconcileOnOpen reconcileTipAnchor
      simp only [hlen]
      rfl
  unfold openInner
  rw [show openAppend env (empty : Surroundings K).dir = .ok (emptyLog env, []) from rfl]
  show (detectPartialRotation env (emptyLog env) []).bind _ = _
  congr 1
  funext u
  rw [initialChainSeed_of_archives_nil archives_emptyLog]
  exact hreconcile

theorem openInner_empty (h : openInner env hmacKey anchored adoptionRow empty = .ok w₀) :
    detectPartialRotation env (emptyLog env) [] = .ok () ∧
      w₀ = openedWorld env empty hmacKey anchored (emptyLog env) [] ⟨zeroBlockHash env, 0, 0⟩ := by
  rw [openInner_empty_eq] at h
  obtain ⟨⟨⟩, hdetect, hopened⟩ := Checks.bind_eq_ok_iff.1 h
  exact ⟨hdetect, (Except.ok.inj hopened).symm⟩

/-- **After every honest run the entries form one chain, and the anchor names its tip.** -/
theorem honest_run (hopen : openInner env hmacKey anchored adoptionRow empty = .ok w₀)
    (calls : List (Call K)) (hf : ∀ c ∈ calls, c.faults = .none) :
    ∃ content, Honest env (Runs.run (step env) w₀ calls) content := by
  obtain ⟨-, rfl⟩ := openInner_empty hopen
  refine Runs.run_invariant (P := fun w => ∃ content, Honest env w content)
    (fun w c ⟨content, hw⟩ hc => ?_) calls _ ⟨[], honest_opened⟩ hf
  obtain ⟨content', -, hhonest⟩ := hw.step hc
  exact ⟨content', hhonest⟩

end

end AgentWallet.AuditLog.HonestRuns
