import AgentWallet.AuditLog.Writer

/-!
# What an append does

The effect of `write_entry` as functions of the state: `World.committed` is the state a row leaves
that was written whole, `World.rotated` the state behind a rotation.  `exec_commitAppend` and
`exec_rotate` say when the code reaches them; the guard in front of every append changes nothing but
the anchor and the latch (`guardLog_rule`), and lets a writer pass whose file ends with the entry it
wrote last (`exec_guardLog`).
-/

namespace AgentWallet.AuditLog.Steps

open Base Base.Programs Timestamps Entry Files Writer List

variable {K D : Type}

/-! ## The states -/

section

variable (env : LogEnv K D)

/-- The directory after the first row of a file was signed. -/
def signedDir (w : World K) (row : AuditEntry K) (dir : Directory) : Directory :=
  match w.writer.isNewFile, w.writer.hmacKey with
  | true, some key => writeSidecar env dir (sidecarContent env key row)
  | _, _ => dir

/-- The state a row leaves whose line was written whole behind `content`. -/
def committed (w : World K) (anchorFails : Bool) (content : Text) (row : AuditEntry K)
    (hash : Text) : World K :=
  World.storeAnchor
    { w with
      dir := signedDir env w row (appendTo w.dir env.stem content (line env row))
      history := w.history ++ [row]
      writer :=
        { w.writer with
          lastHash := hash
          isNewFile := false
          entryCount := w.writer.entryCount + 1
          endOffset := (content ++ line env row).length } }
    anchorFails ⟨w.writer.entryCount + 1, hash, (content ++ line env row).length⟩

/-- The directory with the sidecar and the log under the rotated name. -/
def movedDir (dir : Directory) (node : FileNode) (rotatedName : Text) : Directory :=
  moveLog env
    (match activeSidecar env dir with
      | none => dir
      | some sidecar => moveSidecar env dir sidecar rotatedName)
    node rotatedName

/-- The state of a rotation before the new file: the old one has its rotated name and the excess
files are gone. -/
def handedOff (w : World K) (c : Call K) (content rotatedName hash : Text) : World K :=
  let handoff := handoffRow env c rotatedName w.writer.lastHash
  let anchor := TipAnchor.mk (w.writer.entryCount + 1) hash (content ++ line env handoff).length
  let stored := w.storeAnchor c.faults.anchorHandoff anchor
  { stored with
    dir := prune env
      (movedDir env (appendTo w.dir env.stem content (line env handoff))
        (.regular (content ++ line env handoff)) rotatedName)
      c.faults
    history := w.history ++ [handoff]
    writer :=
      { stored.writer with
        heldName := rotatedName
        entryCount := w.writer.entryCount + 1
        endOffset := (content ++ line env handoff).length } }

def rotated (w : World K) (c : Call K) (content rotatedName hash : Text) : World K :=
  let w' := handedOff env w c content rotatedName hash
  { w' with
    dir := { w'.dir with files := w'.dir.files.insert env.stem (.regular []) }
    writer :=
      { w'.writer with
        heldName := env.stem
        lastHash := hash
        isNewFile := true
        entryCount := 0
        endOffset := 0 } }

end

/-! ## Lookups -/

section

variable {env : LogEnv K D} {dir : Directory} {f : Faults} {name rotatedName content : Text}
  {node : FileNode}

theorem lookup_foldl_erase (names : List Text) (files : AList fun _ : Text => FileNode)
    (name : Text) :
    (names.foldl (fun l n => l.erase n) files).lookup name =
      if name ∈ names then none else files.lookup name := by
  induction names generalizing files with
  | nil => simp
  | cons n names ih =>
    rw [foldl_cons, ih]
    by_cases hn : name = n
    · subst hn
      simp [AList.lookup_erase]
    · simp [hn]

theorem lookup_prune_files :
    (prune env dir f).files.lookup name =
      if name ∈ excess env dir ∧ name ∉ f.removeFails then none else dir.files.lookup name := by
  unfold prune
  rw [lookup_foldl_erase]
  simp

theorem lookup_prune_sidecars :
    (prune env dir f).sidecars.lookup name =
      if name ∈ excess env dir ∧ name ∉ f.removeSidecarFails then none
      else dir.sidecars.lookup name := by
  unfold prune
  rw [lookup_foldl_erase]
  simp

theorem notMem_excess_stem : env.stem ∉ excess env dir :=
  fun h => ne_stem_of_mem_archives (mem_of_mem_take h) rfl

theorem lookup_movedDir_files (hname : rotatedName ≠ env.stem) :
    (movedDir env dir node rotatedName).files.lookup name =
      if name = rotatedName then some node
      else if name = env.stem then none
      else dir.files.lookup name := by
  have hfiles : (movedDir env dir node rotatedName).files =
      (dir.files.erase env.stem).insert rotatedName node := by
    unfold movedDir
    split <;> rfl
  rw [hfiles]
  split_ifs with h h'
  · rw [h, AList.lookup_insert]
  · rw [h', AList.lookup_insert_ne (Ne.symm hname), AList.lookup_erase]
  · rw [AList.lookup_insert_ne h, AList.lookup_erase_ne h']

end

/-! ## Rotated siblings -/

section

variable {env : LogEnv K D} {dir dir' : Directory} {f : Faults} {name content : Text}
  {node : FileNode}

theorem archives_of_lookup (h : ∀ n, n ≠ env.stem → dir'.files.lookup n = dir.files.lookup n) :
    archives env dir' = archives env dir := by
  refine archives_eq sorted_archives fun n => ?_
  rw [mem_archives]
  refine and_congr_right fun hsibling => ?_
  rw [h n (ne_stem_of_isRotatedSibling hsibling)]

theorem archives_movedDir (hname : isRotatedSibling env.stem name = true)
    (hlast : ∀ n ∈ archives env dir, n < name) :
    archives env (movedDir env dir node name) = archives env dir ++ [name] := by
  have hne := ne_stem_of_isRotatedSibling hname
  refine archives_eq ?_ fun n => ?_
  · refine pairwise_append.2 ⟨sorted_archives, pairwise_singleton _ _, ?_⟩
    intro a ha b hb
    rw [mem_singleton.1 hb]
    exact hlast a ha
  · rw [mem_append, mem_archives, lookup_movedDir_files hne]
    by_cases hn : n = name
    · subst hn
      simp [hname]
    · by_cases hstem : n = env.stem
      · subst hstem
        simp [hn, isRotatedSibling_stem]
      · simp [hn, hstem]

theorem archives_prune :
    archives env (prune env dir f) = (archives env dir).filter fun n =>
      !decide (n ∈ excess env dir ∧ n ∉ f.removeFails) := by
  refine archives_eq (sorted_archives.filter _) fun n => ?_
  rw [mem_filter, mem_archives, lookup_prune_files]
  by_cases h : n ∈ excess env dir ∧ n ∉ f.removeFails
  · simp [h]
  · simp [h]

theorem archives_prune_none (hf : f.removeFails = []) :
    archives env (prune env dir f) =
      (archives env dir).drop ((archives env dir).length - maxRotatedFiles) := by
  have hnodup : (archives env dir).Nodup := nodup_archives
  rw [archives_prune, hf]
  set l := archives env dir
  set k := l.length - maxRotatedFiles
  have hdisjoint := disjoint_take_drop hnodup (le_refl k)
  have hfront : (l.take k).filter (fun n => !decide (n ∈ l.take k ∧ n ∉ [])) = [] :=
    filter_eq_nil_iff.2 fun n hn => by simp [hn]
  have hback : (l.drop k).filter (fun n => !decide (n ∈ l.take k ∧ n ∉ [])) = l.drop k :=
    filter_eq_self.2 fun n hn => by simpa using fun h => hdisjoint h hn
  calc l.filter (fun n => !decide (n ∈ l.take k ∧ n ∉ []))
      = (l.take k ++ l.drop k).filter (fun n => !decide (n ∈ l.take k ∧ n ∉ [])) := by
        rw [take_append_drop]
    _ = l.drop k := by rw [filter_append, hfront, hback, nil_append]

theorem notMem_excess_last {older : List Text} (h : archives env dir = older ++ [name]) :
    name ∉ excess env dir := by
  have hnodup : (older ++ [name]).Nodup := h ▸ nodup_archives
  have hlast : name ∉ older := fun hmem => by
    have hdisjoint := (nodup_append.1 hnodup).2.2
    exact hdisjoint name hmem name (by simp) rfl
  unfold excess
  rw [h]
  intro hmem
  have hlen : (older ++ [name]).length - maxRotatedFiles ≤ older.length := by
    simp [maxRotatedFiles]
  rw [take_append_of_le_length hlen] at hmem
  exact hlast (mem_of_mem_take hmem)

end

/-! ## The steps of an append -/

section

variable {env : LogEnv K D} {w : World K} {c : Call K} {f : Faults} {lf : LineFaults}
  {content name hash : Text} {e : AuditEntry K} {node : FileNode}

/-- The writer's handle leads to the file at the path, which has this content. -/
structure Holding (env : LogEnv K D) (w : World K) (content : Text) : Prop where
  held : w.writer.heldName = env.stem
  file : w.dir.files.lookup env.stem = some (.regular content)

section

variable (h : Holding env w content)
include h

theorem Holding.heldContent : w.heldContent = content := by
  unfold World.heldContent
  rw [h.held, h.file]

theorem Holding.pathLen : w.pathLen env = content.length := by
  unfold World.pathLen
  rw [h.file]

theorem Holding.appendBytes (l : Text) :
    w.appendBytes l = w.setDir fun dir => appendTo dir env.stem content l := by
  unfold World.appendBytes
  rw [h.held, h.heldContent]

end

theorem exec_failIf (fails : Bool) :
    exec (failIf fails : Action K Unit) w = (if fails then .error .io else .ok (), w) := by
  cases fails <;> rfl

/-- No part of the writing of a line fails. -/
structure LineFaults.Whole (lf : LineFaults) : Prop where
  write : lf.write = none
  sync : lf.sync = false
  metadata : lf.metadata = false

theorem exec_writeLine (hw : Holding env w content) (hlf : LineFaults.Whole lf) :
    exec (writeLine env lf e) w =
      (.ok (), { w with
        dir := appendTo w.dir env.stem content (line env e)
        history := w.history ++ [e] }) := by
  unfold writeLine
  rw [exec_bind, exec_modify]
  simp only [LineFaults.written, hlf.write, hlf.sync, hw.appendBytes]
  rfl

theorem exec_updateEndOffset (hlf : LineFaults.Whole lf) {n : ℕ}
    (hn : w.heldContent.length = n) :
    exec (updateEndOffset lf) w = (.ok (), w.setWriter fun wr => { wr with endOffset := n }) := by
  unfold updateEndOffset
  rw [hlf.metadata, ← hn]
  rfl

theorem Holding.append (h : Holding env w content) (l : Text) (history : List (AuditEntry K)) :
    Holding env { w with dir := appendTo w.dir env.stem content l, history := history }
      (content ++ l) :=
  ⟨h.held, AList.lookup_insert _⟩

theorem exec_signChainRootIfKeyed (hf : f.sidecarWrite = none) :
    exec (signChainRootIfKeyed env f e) w =
      (.ok (), w.setDir fun dir =>
        match w.writer.hmacKey with
        | none => dir
        | some key => writeSidecar env dir (sidecarContent env key e)) := by
  unfold signChainRootIfKeyed writeRootHmacSidecar
  rw [exec_bind, exec_get]
  rcases hkey : w.writer.hmacKey with _ | key
  · simp only [hkey]
    rfl
  · simp only [hkey, hf]
    rfl

theorem signedDir_files (w : World K) (dir : Directory) :
    (signedDir env w e dir).files = dir.files := by
  unfold signedDir
  split <;> rfl

theorem exec_signIfNewFile (hf : f.sidecarWrite = none) :
    exec (signIfNewFile env f e) w =
      (.ok (), (w.setDir fun dir => signedDir env w e dir).setWriter fun wr =>
        { wr with isNewFile := false }) := by
  unfold signIfNewFile signedDir
  rw [exec_bind, exec_get]
  rcases hnew : w.writer.isNewFile with _ | _
  · have hself : (w.setWriter fun wr => { wr with isNewFile := false }) = w := by
      unfold World.setWriter
      rw [← hnew]
    rw [← hself]
    rfl
  · simp only [hnew, if_true, exec_bind, exec_signChainRootIfKeyed hf]
    rcases w.writer.hmacKey with _ | key <;> rfl

/-- **A row that is written whole.** -/
theorem exec_commitAppend (hw : Holding env w content) (hlf : LineFaults.Whole c.faults.row)
    (hf : c.faults.sidecarWrite = none)
    (hhash : entryHash env (chained env c.entry w.writer.lastHash) = some hash) :
    exec (commitAppend env c) w =
      (.ok (), committed env w c.faults.anchorRow content
        (chained env c.entry w.writer.lastHash) hash) := by
  have hcompute : computeEntryHash env
      (canonicalJsonBody env (chained env c.entry w.writer.lastHash)) w.writer.lastHash =
        some hash := hhash
  have hsigned : Holding env
      { w with
        dir := signedDir env w (chained env c.entry w.writer.lastHash)
          (appendTo w.dir env.stem content
          (line env (chained env c.entry w.writer.lastHash))) }
      (content ++ line env (chained env c.entry w.writer.lastHash)) := by
    refine ⟨hw.held, ?_⟩
    rw [signedDir_files]
    exact (hw.append _ []).file
  unfold commitAppend
  rw [exec_bind_ok (exec_get w)]
  simp only [hcompute]
  rw [exec_bind_ok (exec_writeLine hw hlf), exec_bind_ok (exec_signIfNewFile hf),
    exec_bind_ok (exec_modify _ _)]
  refine (exec_bind_ok (exec_updateEndOffset hlf
    (n := (content ++ line env (chained env c.entry w.writer.lastHash)).length) ?length)).trans ?_
  case length => exact congrArg List.length hsigned.heldContent
  rfl

/-! ## The steps of a rotation -/

theorem stamped_writer (w : World K) (ms : ℕ) : (w.stamped ms).writer = w.writer := by
  unfold World.stamped
  split_ifs <;> rfl

theorem stamped_dir (w : World K) (ms : ℕ) : (w.stamped ms).dir = w.dir := by
  unfold World.stamped
  split_ifs <;> rfl

theorem exec_appendRotationHandoff (hw : Holding env w content)
    (hlf : LineFaults.Whole c.faults.handoff)
    (hhash : entryHash env (handoffRow env c name w.writer.lastHash) = some hash) :
    exec (appendRotationHandoff env c name) w =
      (.ok hash, World.storeAnchor
        { w with
          dir := appendTo w.dir env.stem content
            (line env (handoffRow env c name w.writer.lastHash))
          history := w.history ++ [handoffRow env c name w.writer.lastHash]
          writer :=
            { w.writer with
              entryCount := w.writer.entryCount + 1
              endOffset := (content ++
                line env (handoffRow env c name w.writer.lastHash)).length } }
        c.faults.anchorHandoff
        ⟨w.writer.entryCount + 1, hash,
          (content ++ line env (handoffRow env c name w.writer.lastHash)).length⟩) := by
  have hprev : (handoffRow env c name w.writer.lastHash).previousEntryHash = w.writer.lastHash :=
    (truncateArgKeysIfNeeded_keeps _).previousEntryHash
  have hcompute : computeEntryHash env
      (canonicalJsonBody env (handoffRow env c name w.writer.lastHash)) w.writer.lastHash =
        some hash := by
    rw [← hhash]
    unfold entryHash
    rw [hprev]
  have happended := hw.append (line env (handoffRow env c name w.writer.lastHash)) []
  unfold appendRotationHandoff
  rw [exec_bind_ok (exec_get w)]
  simp only [hcompute]
  rw [exec_bind_ok (exec_writeLine hw hlf), exec_bind_ok (exec_modify _ _)]
  refine (exec_bind_ok (exec_updateEndOffset hlf
    (n := (content ++ line env (handoffRow env c name w.writer.lastHash)).length)
      ?length)).trans ?_
  case length => exact congrArg List.length happended.heldContent
  rfl

theorem exec_renameSidecar (hf : f.sidecarRename = false) :
    exec (renameSidecar env f name) w =
      (.ok (), w.setDir fun dir =>
        match activeSidecar env dir with
        | none => dir
        | some node => moveSidecar env dir node name) := by
  unfold renameSidecar
  rw [exec_bind_ok (exec_get w)]
  rcases hside : activeSidecar env w.dir with _ | node
  · unfold World.setDir
    simp only [hside]
    rfl
  · unfold World.setDir
    simp only [hside, hf]
    rfl

theorem exec_renameLog (hf : f.logRename = false) (hw : w.writer.heldName = env.stem)
    (hfile : w.dir.files.lookup env.stem = some node) :
    exec (renameLog env f name) w =
      (.ok (), (w.setDir fun dir => moveLog env dir node name).setWriter fun wr =>
        { wr with heldName := name }) := by
  unfold renameLog
  rw [exec_bind_ok (exec_get w)]
  simp only [hfile]
  rw [exec_bind, exec_failIf, hf]
  simp only [Bool.false_eq_true, if_false, exec_modify]
  unfold World.setWriter World.setDir
  simp [hw]

theorem exec_pruneRotatedFiles (hf : f.readDir = false) :
    exec (pruneRotatedFiles env f) w = (.ok (), w.setDir fun dir => prune env dir f) := by
  unfold pruneRotatedFiles
  rw [hf]
  rfl

theorem exec_createNewActiveFile (hf : f.create = false)
    (hfile : w.dir.files.lookup env.stem = none) :
    exec (createNewActiveFile env f name) w =
      (.ok (), w.setDir fun dir =>
        { dir with files := dir.files.insert env.stem (.regular []) }) := by
  unfold createNewActiveFile
  rw [exec_bind_ok (exec_get w), hf, hfile]
  rfl

theorem exec_createNewActiveFile_fails (hf : f.create = true) :
    exec (createNewActiveFile env f name) w =
      (.error (.partialRotation name), w.setWriter fun wr =>
        { wr with partialRotationArchive := some name }) := by
  unfold createNewActiveFile
  rw [hf]
  rfl

def rotatedName (env : LogEnv K D) (w : World K) (c : Call K) : Text :=
  env.stem ++ [46] ++ w.rotationStamp c.rotationMs

theorem rotatedName_ne_stem : rotatedName env w c ≠ env.stem := by
  intro h
  have hlength := congrArg List.length h
  simp [rotatedName] at hlength

/-- No step of a rotation fails up to the new file. -/
structure RotationWhole (f : Faults) : Prop where
  handoff : LineFaults.Whole f.handoff
  sidecarRename : f.sidecarRename = false
  logRename : f.logRename = false
  readDir : f.readDir = false

theorem lookup_prune_movedDir {dir : Directory} (hname : name ≠ env.stem) :
    (prune env (movedDir env dir node name) f).files.lookup env.stem = none := by
  rw [lookup_prune_files, if_neg fun h => notMem_excess_stem h.1, lookup_movedDir_files hname,
    if_neg (Ne.symm hname), if_pos rfl]

theorem storeAnchor_with (dir : Directory) (history : List (AuditEntry K)) (count offset : ℕ)
    (fails : Bool) (anchor : TipAnchor) :
    World.storeAnchor
        { w with
          dir := dir
          history := history
          writer := { w.writer with entryCount := count, endOffset := offset } } fails anchor =
      { w.storeAnchor fails anchor with
        dir := dir
        history := history
        writer :=
          { (w.storeAnchor fails anchor).writer with
            entryCount := count
            endOffset := offset } } := by
  unfold World.storeAnchor
  rcases w with ⟨s, wr⟩
  rcases hanchored : wr.anchored with _ | _
  · simp [hanchored]
  · cases fails <;> simp [World.setWriter]

theorem storeAnchor_heldName (fails : Bool) (anchor : TipAnchor) :
    (w.storeAnchor fails anchor).writer.heldName = w.writer.heldName := by
  unfold World.storeAnchor
  split_ifs <;> rfl

theorem exec_finishRotation (node : FileNode) (hf : RotationWhole f)
    (hw : w.writer.heldName = env.stem)
    (hfile : w.dir.files.lookup env.stem = some node) :
    exec (finishRotation env f name hash) w =
      exec (startActiveFile env f name hash)
        ((w.setDir fun dir => prune env (moveLog env dir node name) f).setWriter fun wr =>
          { wr with heldName := name }) := by
  unfold finishRotation
  rw [exec_bind_ok (exec_renameLog hf.logRename hw hfile),
    exec_bind_ok (exec_pruneRotatedFiles hf.readDir)]
  rfl

section

variable (hw : Holding env w content) (hf : RotationWhole c.faults)
  (hhash : entryHash env (handoffRow env c name w.writer.lastHash) = some hash)

include hw hf hhash

theorem exec_rotateTo_eq :
    exec (rotateTo env c name) w =
      exec (startActiveFile env c.faults name hash) (handedOff env w c content name hash) := by
  unfold rotateTo
  rw [exec_bind_ok (exec_appendRotationHandoff hw hf.handoff hhash), storeAnchor_with,
    exec_bind_ok (exec_renameSidecar hf.sidecarRename)]
  refine (exec_finishRotation
    (.regular (content ++ line env (handoffRow env c name w.writer.lastHash))) hf ?held ?file).trans
    ?state
  case held => exact (storeAnchor_heldName _ _).trans hw.held
  case file =>
    -- the sidecar's rename leaves the log where it is
    unfold World.setDir
    dsimp only
    split
    · exact AList.lookup_insert _
    · exact AList.lookup_insert _
  case state => rfl

/-- **A rotation.** -/
theorem exec_rotateTo (hcreate : c.faults.create = false) (hname : name ≠ env.stem) :
    exec (rotateTo env c name) w = (.ok (), rotated env w c content name hash) := by
  have hnone : (handedOff env w c content name hash).dir.files.lookup env.stem = none :=
    lookup_prune_movedDir hname
  rw [exec_rotateTo_eq hw hf hhash, startActiveFile,
    exec_bind_ok (exec_createNewActiveFile hcreate hnone)]
  rfl

theorem exec_rotateTo_fails (hcreate : c.faults.create = true) :
    exec (rotateTo env c name) w =
      (.error (.partialRotation name),
        (handedOff env w c content name hash).setWriter fun wr =>
          { wr with partialRotationArchive := some name }) := by
  rw [exec_rotateTo_eq hw hf hhash, startActiveFile,
    exec_bind_error (exec_createNewActiveFile_fails hcreate)]

end

/-! ## The guard -/

/-- Nothing changed but the anchor, the latch and the row that is owed. -/
structure SameLog (w w' : World K) : Prop where
  surroundings : w'.toSurroundings = { w.toSurroundings with storedAnchor := w'.storedAnchor }
  writer : w'.writer =
    { w.writer with
      pendingTipAnchor := w'.writer.pendingTipAnchor
      logDiverged := w'.writer.logDiverged
      owedRowAnchored := w'.writer.owedRowAnchored }

theorem SameLog.refl (w : World K) : SameLog w w := ⟨rfl, rfl⟩

theorem SameLog.trans {w w' w'' : World K} (h : SameLog w w') (h' : SameLog w' w'') :
    SameLog w w'' :=
  ⟨by rw [h'.surroundings, h.surroundings], by rw [h'.writer, h.writer]⟩

theorem SameLog.storeAnchor (w : World K) (fails : Bool) (anchor : TipAnchor) :
    SameLog w (w.storeAnchor fails anchor) := by
  unfold World.storeAnchor
  split_ifs <;> exact ⟨rfl, rfl⟩

/-- The program changes nothing but the anchor, the latch and the row that is owed. -/
def KeepsLog (x : Action K Unit) : Prop :=
  ∀ w, Triple (SameLog w) x (fun _ => SameLog w) (SameLog w)

theorem keepsLog_modify {f : World K → World K} (h : ∀ w, SameLog w (f w)) :
    KeepsLog (modify f) :=
  fun _ => Triple.modify_rule fun s hs => hs.trans (h s)

theorem keepsLog_pure : KeepsLog (pure () : Action K Unit) :=
  fun _ => Triple.pure_rule fun _ hs => hs

theorem keepsLog_throw (e : WriterError) : KeepsLog (throw e : Action K Unit) :=
  fun _ => Triple.throw_rule fun _ hs => hs

theorem keepsLog_failIf (fails : Bool) : KeepsLog (failIf fails : Action K Unit) := by
  cases fails
  · exact keepsLog_pure
  · exact keepsLog_throw .io

theorem KeepsLog.bind {x y : Action K Unit} (hx : KeepsLog x) (hy : KeepsLog y) :
    KeepsLog (x >>= fun _ => y) :=
  fun w => (hx w).bind_rule fun _ => hy w

theorem keepsLog_get {f : World K → Action K Unit} (h : ∀ s, KeepsLog (f s)) :
    KeepsLog (get >>= f) :=
  fun w => Triple.get_bind_rule fun s hs => (h s w).pre fun _ heq => heq ▸ hs

theorem keepsLog_latch (reason : String) : KeepsLog (latch env reason) := by
  refine KeepsLog.bind (keepsLog_modify fun w => ?_) (keepsLog_get fun _ => keepsLog_throw _)
  exact ⟨rfl, rfl⟩

theorem keepsLog_refuseIfLogMovedOnAppend : KeepsLog (refuseIfLogMovedOnAppend env f) := by
  have hreplaced : KeepsLog (refuseIfReplaced env f) := keepsLog_get fun s => by
    split
    · exact keepsLog_throw _
    · split_ifs
      · exact keepsLog_throw _
      · exact keepsLog_pure
      · exact keepsLog_latch _
  have htruncated : KeepsLog (refuseIfTruncated env f) :=
    (keepsLog_failIf _).bind (keepsLog_get fun s => by
      split_ifs
      · exact keepsLog_latch _
      · exact keepsLog_pure)
  have htip : KeepsLog (refuseIfTipRewritten env f) := keepsLog_get fun s => by
    split_ifs
    · exact keepsLog_pure
    · exact keepsLog_throw _
    · split
      · exact keepsLog_throw _
      · split_ifs
        · exact keepsLog_pure
        · exact keepsLog_latch _
  refine keepsLog_get fun s => ?_
  split_ifs
  · exact keepsLog_pure
  · exact hreplaced.bind (htruncated.bind htip)

theorem keepsLog_anchorOwedRow (fails : Bool) (entry : AuditEntry K) :
    KeepsLog (anchorOwedRow env fails entry) := by
  have hrow : KeepsLog (anchorTheRefusedRow env fails entry) := keepsLog_get fun s => by
    dsimp only
    split
    · exact keepsLog_pure
    · exact (keepsLog_modify fun w => SameLog.storeAnchor w _ _).bind
        (keepsLog_modify fun _ => ⟨rfl, rfl⟩)
  refine keepsLog_get fun s => ?_
  split_ifs
  · exact keepsLog_pure
  · exact hrow

theorem keepsLog_guardLog : KeepsLog (guardLog env c) := fun w =>
  Triple.try_rule (keepsLog_refuseIfLogMovedOnAppend w) fun e =>
    (keepsLog_anchorOwedRow _ _ w).bind_rule fun _ => keepsLog_throw e w

theorem keepsLog_retryTipAnchorIfBehind (fails : Bool) :
    KeepsLog (retryTipAnchorIfBehind fails : Action K Unit) :=
  keepsLog_modify fun w => by
    split
    · exact SameLog.refl w
    · split_ifs
      · exact SameLog.refl w
      · exact ⟨rfl, rfl⟩

/-- A writer whose file ends with the entry it wrote last. -/
structure Intact (env : LogEnv K D) (w : World K) (content : Text) : Prop
    extends Holding env w content where
  terminated : Lines.Terminated 10 content
  endOffset : w.writer.endOffset = content.length
  tip : w.writer.entryCount = 0 ∨ ∃ before e, Lines.Terminated 10 before ∧
    content = before ++ line env e ∧ entryHash env e = some w.writer.lastHash
  unlatched : w.writer.logDiverged = none
  whole : w.writer.partialRotationArchive = none

theorem Intact.entryIsIntactAt (h : Intact env w content) (hcount : w.writer.entryCount ≠ 0) :
    w.entryIsIntactAt env w.writer.endOffset w.writer.lastHash = .ok true := by
  obtain ⟨before, e, hbefore, hcontent, hhash⟩ := h.tip.resolve_left hcount
  unfold World.entryIsIntactAt
  rw [h.heldContent, h.endOffset, hcontent, readLastLineBefore_lines hbefore e le_rfl]
  simp [env.json.fromSlice_toVec, hhash]

/-- **The guard lets an intact writer pass.** -/
theorem exec_guardLog (h : Intact env w content) (hf : c.faults = .none) :
    exec (guardLog env c) w = (.ok (), w) := by
  have hreplaced : exec (refuseIfReplaced env c.faults) w = (.ok (), w) := by
    have hpath : w.holdsPath env = true := by
      unfold World.holdsPath
      rw [h.held, h.file]
      simp [fileExists]
    unfold refuseIfReplaced
    rw [exec_bind_ok (exec_get w), h.unlatched, hf]
    simp only [hpath]
    rfl
  have htruncated : exec (refuseIfTruncated env c.faults) w = (.ok (), w) := by
    have hlen : ¬ w.pathLen env < w.writer.endOffset := by
      rw [h.pathLen, h.endOffset]
      exact lt_irrefl _
    have hmetadata : exec (failIf c.faults.pathMetadata) w = (.ok (), w) := by
      rw [hf]
      rfl
    unfold refuseIfTruncated
    rw [exec_bind_ok hmetadata, exec_bind_ok (exec_get w), if_neg hlen]
    rfl
  have htip : exec (refuseIfTipRewritten env c.faults) w = (.ok (), w) := by
    unfold refuseIfTipRewritten
    rw [exec_bind_ok (exec_get w), hf]
    by_cases hcount : w.writer.entryCount = 0
    · rw [if_pos hcount]
      rfl
    · rw [if_neg hcount, h.entryIsIntactAt hcount]
      rfl
  have hmoved : exec (refuseIfLogMovedOnAppend env c.faults) w = (.ok (), w) := by
    unfold refuseIfLogMovedOnAppend
    rw [exec_bind_ok (exec_get w)]
    split_ifs
    · rfl
    · rw [exec_bind_ok hreplaced, exec_bind_ok htruncated, htip]
  unfold guardLog
  rw [exec_tryCatch, hmoved]

end

end AgentWallet.AuditLog.Steps
