import AgentWallet.AuditLog.HonestRuns

/-!
# The generations of an honest log

What the directory of an honest run looks like: one archive for each rotation, of which the newest
ten are kept, and the active file.  `Layout` relates a directory to the generations in it; a row and
a rotation keep the relation (`Layout.row`, `Layout.rotation`).  The archives are in order because
their names are the readings of a clock that moves forward.
-/

namespace AgentWallet.AuditLog.Generations

open Base Timestamps Entry Files Writer Steps HonestRuns List

variable {K D : Type} {α : Type} {l : List α}

/-! ## Names -/

section

variable {ms ms' : ℕ}

def archiveName (env : LogEnv K D) (ms : ℕ) : Text := env.stem ++ [46] ++ compact ms

theorem notMem_fieldsText (t : DateTime) (millis : ℕ) :
    (45 : UInt8) ∉ fieldsText [84] t millis := by
  intro hmem
  have hcases : (45 : UInt8) ∈ fieldsText [] t millis ∨ (45 : UInt8) = 84 := by
    simp only [fieldsText, mem_append, not_mem_nil] at hmem ⊢
    tauto
  rcases hcases with hdigit | heq
  · exact absurd (isDigit_of_mem_fieldsText hdigit) (by decide)
  · exact absurd heq (by decide)

theorem isRotationSuffix_compact (h : Fits (epochToDatetime (ms / 1000))) :
    isRotationSuffix (compact ms) = true := by
  rw [compact_eq h]
  unfold isRotationSuffix splitOnce
  rw [if_neg (notMem_fieldsText _ _)]
  simp [isCompactTimestamp, fieldsText, Decimal.decimal, Decimal.isDigit_digit]

theorem isRotatedSibling_archiveName (env : LogEnv K D) (h : ms / 1000 < endOf2099) :
    isRotatedSibling env.stem (archiveName env ms) = true := by
  have hsuffix : (env.stem ++ [46]).isPrefixOf? (archiveName env ms) = some (compact ms) :=
    List.isPrefixOf?_eq_some_iff_append_eq.2 rfl
  unfold isRotatedSibling
  rw [hsuffix]
  exact isRotationSuffix_compact (fits_of_lt h)

theorem archiveName_lt (env : LogEnv K D) (h : ms' / 1000 < endOf2099) (hlt : ms < ms') :
    archiveName env ms < archiveName env ms' :=
  append_left_lt (compact_lt (fits_of_lt (by omega)) (fits_of_lt h) hlt)

end

/-! ## The newest archives -/

def newest {α : Type} (l : List α) : List α := l.drop (l.length - maxRotatedFiles)

theorem newest_snoc (l : List α) (a : α) : newest (newest l ++ [a]) = newest (l ++ [a]) := by
  unfold newest
  rw [length_append, length_append, length_drop, length_singleton]
  rcases Nat.lt_or_ge l.length maxRotatedFiles with h | h
  · rw [show l.length - maxRotatedFiles = 0 by omega, drop_zero, Nat.sub_zero]
  · have hfew : l.length - (l.length - maxRotatedFiles) + 1 - maxRotatedFiles = 1 := by omega
    rw [hfew, drop_append_of_le_length (by rw [length_drop]; simp [maxRotatedFiles] at h ⊢; omega),
      drop_drop, drop_append_of_le_length (by simp [maxRotatedFiles] at h ⊢)]
    congr 2
    omega

theorem newest_eq_self (h : l.length ≤ maxRotatedFiles) : newest l = l := by
  unfold newest
  rw [Nat.sub_eq_zero_of_le h, drop_zero]

theorem length_newest_le (l : List α) : (newest l).length ≤ maxRotatedFiles := by
  unfold newest
  rw [length_drop]
  omega

theorem mem_of_mem_newest {a : α} (h : a ∈ newest l) : a ∈ l :=
  mem_of_mem_drop h

/-! ## The directory of an honest log -/

/-- One archive: the rows, the handoff behind them and the reading of the clock in its name. -/
structure Generation (K : Type) where
  ms : ℕ
  rows : List (AuditEntry K)
  handoff : AuditEntry K

def Generation.entries (g : Generation K) : List (AuditEntry K) := g.rows ++ [g.handoff]

section

variable (env : LogEnv K D)

def Generation.name (g : Generation K) : Text := archiveName env g.ms

def lines (es : List (AuditEntry K)) : Text := es.flatMap (line env)

def rootTag (key : Text) (es : List (AuditEntry K)) : Option FileNode :=
  es.head?.map fun e => .regular (sidecarContent env key e)

/-- The archives of the directory are these, each with its sidecar. -/
structure Stored (key : Text) (dir : Directory) (archived : List (Generation K)) : Prop where
  names : archives env dir = archived.map (Generation.name env)
  files : ∀ g ∈ archived, dir.files.lookup (g.name env) = some (.regular (lines env g.entries))
  tags : ∀ g ∈ archived, dir.sidecars.lookup (g.name env) = rootTag env key g.entries
  onlyTags : ∀ name, isRotatedSibling env.stem name = true →
    (dir.sidecars.lookup name).isSome = true → name ∈ archived.map (Generation.name env)
  only : ∀ name, name ≠ env.stem → (dir.files.lookup name).isSome = true →
    isRotatedSibling env.stem name = true

/-- The directory holds these archives and this active file, each with its sidecar, and nothing
else. -/
structure Holds (key : Text) (dir : Directory) (archived : List (Generation K))
    (active : List (AuditEntry K)) : Prop extends Stored env key dir archived where
  file : dir.files.lookup env.stem = some (.regular (lines env active))
  tag : dir.sidecars.lookup env.stem = rootTag env key active

end

section

variable {env : LogEnv K D} {key content hash : Text} {dir : Directory} {w : World K} {c : Call K}
  {archived : List (Generation K)} {active : List (AuditEntry K)} {e : AuditEntry K}

theorem lines_snoc (es : List (AuditEntry K)) (e : AuditEntry K) :
    lines env (es ++ [e]) = lines env es ++ line env e := by
  unfold lines
  rw [flatMap_append, flatMap_singleton]

theorem rootTag_snoc (hne : active ≠ []) :
    rootTag env key (active ++ [e]) = rootTag env key active := by
  obtain ⟨a, l, rfl⟩ := exists_cons_of_ne_nil hne
  rfl

theorem Stored.name_ne_stem (h : Stored env key dir archived) {g : Generation K}
    (hg : g ∈ archived) : g.name env ≠ env.stem := by
  have hmem : g.name env ∈ archives env dir := by
    rw [h.names]
    exact mem_map_of_mem hg
  exact ne_stem_of_mem_archives hmem

theorem signedDir_sidecars (hkey : w.writer.hmacKey = some key)
    (hnew : w.writer.isNewFile = decide (active = [])) (dir : Directory) :
    (signedDir env w e dir).sidecars =
      if active = [] then dir.sidecars.insert env.stem (.regular (sidecarContent env key e))
      else dir.sidecars := by
  unfold signedDir
  rw [hkey, hnew]
  by_cases hactive : active = []
  · simp [hactive, writeSidecar]
  · simp [hactive]

/-- **A row goes behind the active file.** -/
theorem Holds.row (h : Holds env key dir archived active) (hkey : w.writer.hmacKey = some key)
    (hnew : w.writer.isNewFile = decide (active = [])) :
    Holds env key (signedDir env w e (appendTo dir env.stem (lines env active) (line env e)))
      archived (active ++ [e]) := by
  have hfile : ∀ name, name ≠ env.stem →
      (appendTo dir env.stem (lines env active) (line env e)).files.lookup name =
        dir.files.lookup name := fun name hname => AList.lookup_insert_ne hname
  have htag : ∀ name, name ≠ env.stem →
      (signedDir env w e (appendTo dir env.stem (lines env active) (line env e))).sidecars.lookup
        name = dir.sidecars.lookup name := by
    intro name hname
    rw [signedDir_sidecars hkey hnew]
    split_ifs
    · exact AList.lookup_insert_ne hname
    · rfl
  refine ⟨⟨?_, ?_, ?_, ?_, ?_⟩, ?_, ?_⟩
  · rw [← h.names]
    refine archives_of_lookup fun name hname => ?_
    rw [signedDir_files]
    exact hfile name hname
  · intro g hg
    rw [signedDir_files, hfile _ (h.name_ne_stem hg)]
    exact h.files g hg
  · intro g hg
    rw [htag _ (h.name_ne_stem hg)]
    exact h.tags g hg
  · intro name hname htagged
    rw [htag _ (ne_stem_of_isRotatedSibling hname)] at htagged
    exact h.onlyTags name hname htagged
  · intro name hstem hname
    rw [signedDir_files, hfile name hstem] at hname
    exact h.only name hstem hname
  · rw [signedDir_files, lines_snoc]
    exact AList.lookup_insert _
  · rw [signedDir_sidecars hkey hnew]
    split_ifs with hactive
    · subst hactive
      exact AList.lookup_insert _
    · rw [rootTag_snoc hactive]
      exact h.tag

theorem Holds.activeSidecar (h : Holds env key dir archived active) (hne : active ≠ []) :
    ∃ node, rootTag env key active = some node ∧ activeSidecar env dir = some node := by
  obtain ⟨a, l, rfl⟩ := exists_cons_of_ne_nil hne
  refine ⟨_, rfl, ?_⟩
  unfold Writer.activeSidecar
  rw [h.tag]
  rfl

theorem lookup_movedDir_sidecars {node sidecar : FileNode} {name rotatedName : Text}
    (hside : Writer.activeSidecar env dir = some sidecar) (hname : rotatedName ≠ env.stem) :
    (movedDir env dir node rotatedName).sidecars.lookup name =
      if name = rotatedName then some sidecar else if name = env.stem then none
      else dir.sidecars.lookup name := by
  have hsidecars : (movedDir env dir node rotatedName).sidecars =
      (dir.sidecars.erase env.stem).insert rotatedName sidecar := by
    unfold movedDir
    rw [hside]
    rfl
  rw [hsidecars]
  split_ifs with h h'
  · rw [h, AList.lookup_insert]
  · rw [h', AList.lookup_insert_ne (Ne.symm hname), AList.lookup_erase]
  · rw [AList.lookup_insert_ne h, AList.lookup_erase_ne h']

theorem Holds.moved (h : Holds env key dir archived active) (hne : active ≠ []) {ms : ℕ}
    (hms : ms / 1000 < endOf2099) (hlast : ∀ g ∈ archived, g.ms < ms) (handoff : AuditEntry K) :
    let moved := movedDir env (appendTo dir env.stem (lines env active) (line env handoff))
      (.regular (lines env active ++ line env handoff)) (archiveName env ms)
    Stored env key moved (archived ++ [⟨ms, active, handoff⟩]) ∧
      moved.sidecars.lookup env.stem = none := by
  have hsibling := isRotatedSibling_archiveName env hms
  have hstem := ne_stem_of_isRotatedSibling hsibling
  have hfile : ∀ name, name ≠ env.stem →
      (appendTo dir env.stem (lines env active) (line env handoff)).files.lookup name =
        dir.files.lookup name := fun name hname => AList.lookup_insert_ne hname
  have hbefore : ∀ g ∈ archived, g.name env < archiveName env ms := fun g hg =>
    archiveName_lt env hms (hlast g hg)
  have hother : ∀ g ∈ archived, g.name env ≠ archiveName env ms := fun g hg heq => by
    have hlt := hbefore g hg
    rw [heq] at hlt
    exact List.lt_irrefl _ hlt
  obtain ⟨sidecar, htag, hside⟩ := h.activeSidecar hne
  have hside : Writer.activeSidecar env
      (appendTo dir env.stem (lines env active) (line env handoff)) = some sidecar := hside
  have harchives : archives env (appendTo dir env.stem (lines env active) (line env handoff)) =
      archived.map (Generation.name env) := by
    rw [archives_of_lookup hfile, h.names]
  have hself : Generation.name env ⟨ms, active, handoff⟩ = archiveName env ms := rfl
  refine ⟨⟨?_, ?_, ?_, ?_, ?_⟩, ?_⟩
  · rw [archives_movedDir hsibling, harchives, map_append]
    · rfl
    · intro name hname
      rw [harchives] at hname
      obtain ⟨g, hg, rfl⟩ := mem_map.1 hname
      exact hbefore g hg
  · intro g hg
    rw [lookup_movedDir_files hstem]
    rcases mem_append.1 hg with hg | hg
    · rw [if_neg (hother g hg), if_neg (h.name_ne_stem hg), hfile _ (h.name_ne_stem hg)]
      exact h.files g hg
    · rw [mem_singleton.1 hg, if_pos hself, ← lines_snoc]
      rfl
  · intro g hg
    rw [lookup_movedDir_sidecars hside hstem]
    rcases mem_append.1 hg with hg | hg
    · rw [if_neg (hother g hg), if_neg (h.name_ne_stem hg)]
      exact h.tags g hg
    · rw [mem_singleton.1 hg, if_pos hself, ← htag, ← rootTag_snoc hne]
      rfl
  · intro name hname htagged
    rw [lookup_movedDir_sidecars hside hstem] at htagged
    rw [map_append, mem_append]
    split_ifs at htagged with hrotated hactive
    · exact .inr (by rw [hrotated]; exact mem_singleton_self _)
    · cases htagged
    · exact .inl (h.onlyTags name hname htagged)
  · intro name hactive hname
    rw [lookup_movedDir_files hstem] at hname
    split_ifs at hname with hrotated
    · rw [hrotated]
      exact hsibling
    · rw [hfile name hactive] at hname
      exact h.only name hactive hname
  · rw [lookup_movedDir_sidecars hside hstem, if_neg (Ne.symm hstem), if_pos rfl]

theorem Stored.prune (h : Stored env key dir archived) :
    Stored env key (prune env dir .none) (newest archived) := by
  have hlength : (archives env dir).length = archived.length := by
    rw [h.names, length_map]
  have hnames : archives env (Writer.prune env dir .none) =
      (newest archived).map (Generation.name env) := by
    unfold newest
    rw [archives_prune_none rfl, hlength, h.names, map_drop]
  have hkept : ∀ g ∈ newest archived, g.name env ∉ excess env dir := by
    intro g hg hexcess
    have hmem : g.name env ∈ archives env (Writer.prune env dir .none) := by
      rw [hnames]
      exact mem_map_of_mem hg
    rw [archives_prune] at hmem
    simp [Faults.none, hexcess] at hmem
  refine ⟨hnames, ?_, ?_, ?_, ?_⟩
  · intro g hg
    rw [lookup_prune_files, if_neg fun hx => hkept g hg hx.1]
    exact h.files g (mem_of_mem_newest hg)
  · intro g hg
    rw [lookup_prune_sidecars, if_neg fun hx => hkept g hg hx.1]
    exact h.tags g (mem_of_mem_newest hg)
  · intro name hname htagged
    rw [lookup_prune_sidecars] at htagged
    split_ifs at htagged with hexcess
    · cases htagged
    · rw [← hnames, archives_prune, mem_filter, h.names]
      refine ⟨h.onlyTags name hname htagged, ?_⟩
      simp only [Faults.none, not_mem_nil, not_false_eq_true] at hexcess ⊢
      simpa using hexcess
  · intro name hactive hname
    rw [lookup_prune_files] at hname
    split_ifs at hname
    · cases hname
    · exact h.only name hactive hname

/-- **A rotation turns the active file into the newest archive.** -/
theorem Holds.rotation (h : Holds env key dir archived active) (hne : active ≠ []) {ms : ℕ}
    (hms : ms / 1000 < endOf2099) (hlast : ∀ g ∈ archived, g.ms < ms) (handoff : AuditEntry K) :
    let moved := movedDir env (appendTo dir env.stem (lines env active) (line env handoff))
      (.regular (lines env active ++ line env handoff)) (archiveName env ms)
    Holds env key
      { Writer.prune env moved .none with
        files := (Writer.prune env moved .none).files.insert env.stem (.regular []) }
      (newest (archived ++ [⟨ms, active, handoff⟩])) [] := by
  intro moved
  obtain ⟨hmoved, htag⟩ := h.moved hne hms hlast handoff
  have hpruned := hmoved.prune
  have hcreated : ∀ name, name ≠ env.stem →
      ((Writer.prune env moved .none).files.insert env.stem (.regular [])).lookup name =
        (Writer.prune env moved .none).files.lookup name :=
    fun name hname => AList.lookup_insert_ne hname
  refine ⟨⟨?_, ?_, hpruned.tags, hpruned.onlyTags, ?_⟩, AList.lookup_insert _, ?_⟩
  · rw [← hpruned.names]
    exact archives_of_lookup hcreated
  · intro g hg
    exact (hcreated _ (hpruned.name_ne_stem hg)).trans (hpruned.files g hg)
  · intro name hactive hname
    exact hpruned.only name hactive (by rw [← hcreated name hactive]; exact hname)
  · rw [lookup_prune_sidecars, if_neg fun hx => notMem_excess_stem hx.1]
    exact htag

end

/-! ## Honest calls -/

/-- A call of an honest writer: a row, the reading of the clock in its timestamp, and the readings
of a rotation, should the call need one. -/
structure HonestCall (K : Type) where
  entry : AuditEntry K
  entryMs : ℕ
  ts_eq : entry.ts = iso8601Utc entryMs
  notHandoff : entry.isHandoff = false
  rotationMs : ℕ
  handoffMs : ℕ
  handoffRequestId : Text

def HonestCall.toCall (c : HonestCall K) : Call K where
  entry := c.entry
  rotationMs := c.rotationMs
  handoffMs := c.handoffMs
  handoffRequestId := c.handoffRequestId
  faults := .none

def Rotates (w : World K) : Prop := rotationThresholdBytes ≤ w.heldContent.length

instance (w : World K) : Decidable (Rotates w) := by unfold Rotates; infer_instance

def HonestCall.readings (w : World K) (c : HonestCall K) : List ℕ :=
  if Rotates w then [c.entryMs, c.rotationMs, c.handoffMs] else [c.entryMs]

def honestStep (env : LogEnv K D) (w : World K) (c : HonestCall K) : World K := step env w c.toCall

def readings (env : LogEnv K D) : World K → List (HonestCall K) → List ℕ
  | _, [] => []
  | w, c :: calls => c.readings w ++ readings env (honestStep env w c) calls

/-! ## The layout of a run -/

def Readable (e : AuditEntry K) : Prop := ∃ ms, e.ts = iso8601Utc ms ∧ ms / 1000 < endOf2099

/-- A complete generation, from before the instant `t`. -/
structure Complete (env : LogEnv K D) (t : ℕ) (g : Generation K) : Prop where
  rows_ne : g.rows ≠ []
  rows : ∀ e ∈ g.rows, e.isHandoff = false
  handoff : g.handoff.eventKind = .auditRotationHandoff (g.name env)
  ms_le : g.ms ≤ t
  readable : ∀ e ∈ g.entries, Readable e

/-- A writer and its directory, ready for a row; the last reading was `t`. -/
structure Ready (env : LogEnv K D) (key : Text) (t : ℕ) (w : World K)
    (gens : List (Generation K)) (active : List (AuditEntry K)) : Prop
    extends Steady env w (lines env active) where
  chain : Linked env (zeroBlockHash env) w.history w.writer.lastHash
  unanchored : w.writer.anchored = false → w.storedAnchor = none
  holds : Holds env key w.dir (newest gens) active
  history : w.history = gens.flatMap Generation.entries ++ active
  key : w.writer.hmacKey = some key
  isNew : w.writer.isNewFile = decide (active = [])
  count : w.writer.entryCount = active.length
  owed : w.writer.owedRowAnchored = false
  rows : ∀ e ∈ active, e.isHandoff = false ∧ Readable e
  complete : ∀ g ∈ gens, Complete env t g
  stamp : ∀ m, t < m → m / 1000 < endOf2099 → w.lastRotationTimestamp < compactNumber m

/-- A writer and its directory between two calls. -/
structure Layout (env : LogEnv K D) (key : Text) (t : ℕ) (w : World K)
    (gens : List (Generation K)) (active : List (AuditEntry K)) : Prop
    extends Ready env key t w gens active where
  honest : Honest env w (lines env active)
  begun : active = [] → gens = []

section

variable {env : LogEnv K D} {key : Text} {t t' : ℕ} {w : World K} {gens : List (Generation K)}
  {active : List (AuditEntry K)} {c : HonestCall K}

theorem Complete.mono {g : Generation K} (h : Complete env t g) (ht : t ≤ t') : Complete env t' g :=
  ⟨h.rows_ne, h.rows, h.handoff, h.ms_le.trans ht, h.readable⟩

theorem keeps_chained (c : HonestCall K) :
    SameChainFields (truncateArgKeysIfNeeded env c.entry) c.entry :=
  truncateArgKeysIfNeeded_keeps c.entry

theorem isHandoff_chained (c : HonestCall K) (lastHash : Text) :
    (chained env c.entry lastHash).isHandoff = false := by
  have hnot := c.notHandoff
  unfold AuditEntry.isHandoff at hnot ⊢
  unfold chained
  rw [(keeps_chained c).eventKind]
  exact hnot

theorem ts_chained (c : HonestCall K) (lastHash : Text) :
    (chained env c.entry lastHash).ts = iso8601Utc c.entryMs :=
  (keeps_chained c).ts.trans c.ts_eq

theorem row_ok (c : HonestCall K) (hms : c.entryMs / 1000 < endOf2099) (lastHash : Text) :
    (chained env c.entry lastHash).isHandoff = false ∧ Readable (chained env c.entry lastHash) :=
  ⟨isHandoff_chained c lastHash, c.entryMs, ts_chained c lastHash, hms⟩

/-- **A row goes behind the active file.** -/
theorem Ready.row {hash : Text} (h : Ready env key t w gens active)
    (hms : c.entryMs / 1000 < endOf2099)
    (hhash : entryHash env (chained env c.entry w.writer.lastHash) = some hash) : Layout env key t
      (committed env w false (lines env active) (chained env c.entry w.writer.lastHash) hash)
      gens (active ++ [chained env c.entry w.writer.lastHash]) := by
  have hhonest := h.toSteady.honest_committed h.chain
    hhash h.unanchored
  rw [← lines_snoc] at hhonest
  have heq := committed_of_settled env h.settled (lines env active)
    (chained env c.entry w.writer.lastHash) hash
  refine { hhonest.toLive.steady with
           chain := hhonest.chain, unanchored := ?_, holds := ?_, history := ?_, key := ?_,
           isNew := ?_, count := ?_, owed := ?_, rows := ?_, complete := h.complete, stamp := ?_,
           honest := hhonest, begun := by simp }
  · intro ha
    rw [hhonest.anchor, if_neg (by simp [ha])]
  · rw [heq]
    exact h.holds.row h.key h.isNew
  · rw [heq]
    rw [h.history, append_assoc]
  · rw [heq]
    exact h.key
  · rw [heq]
    simp
  · rw [heq]
    simp [h.count]
  · rw [heq]
    exact h.owed
  · intro e he
    rcases mem_append.1 he with he | he
    · exact h.rows e he
    · rw [mem_singleton.1 he]
      exact row_ok c hms _
  · intro m hm hlt
    rw [heq]
    exact h.stamp m hm hlt

theorem Ready.rotationStamp (h : Ready env key t w gens active) (ht : t < c.rotationMs)
    (hms : c.rotationMs / 1000 < endOf2099) :
    rotatedName env w c.toCall = archiveName env c.rotationMs ∧
      (w.stamped c.rotationMs).lastRotationTimestamp = compactNumber c.rotationMs := by
  have hlater := h.stamp c.rotationMs ht hms
  have hstamp : w.rotationStamp c.toCall.rotationMs = compact c.rotationMs := if_pos hlater
  constructor
  · unfold rotatedName archiveName
    rw [hstamp]
  · unfold World.stamped
    rw [if_pos hlater]

variable {handoffHash : Text}

theorem Ready.holds_rotated (h : Ready env key t w gens active) (hne : active ≠ [])
    (ht : t < c.rotationMs) (hms : c.rotationMs / 1000 < endOf2099) : Holds env key
      (rotated env (w.stamped c.rotationMs) c.toCall (lines env active)
        (archiveName env c.rotationMs) handoffHash).dir (newest (gens ++ [⟨c.rotationMs, active,
        handoffRow env c.toCall (archiveName env c.rotationMs) w.writer.lastHash⟩])) [] := by
  have hlast : ∀ g ∈ newest gens, g.ms < c.rotationMs := fun g hg => by
    have hle := (h.complete g (mem_of_mem_newest hg)).ms_le
    omega
  have hrotation := h.holds.rotation hne hms hlast
    (handoffRow env c.toCall (archiveName env c.rotationMs) w.writer.lastHash)
  rw [newest_snoc] at hrotation
  unfold rotated handedOff
  rw [stamped_dir, stamped_writer]
  exact hrotation

theorem complete_handoff (h : Ready env key t w gens active) (hne : active ≠ [])
    (hms : c.handoffMs / 1000 < endOf2099) (hle : c.rotationMs ≤ c.handoffMs) :
    Complete env c.handoffMs (⟨c.rotationMs, active,
      handoffRow env c.toCall (archiveName env c.rotationMs) w.writer.lastHash⟩ : Generation K) := by
  have hkeeps : SameChainFields
      (handoffRow env c.toCall (archiveName env c.rotationMs) w.writer.lastHash) _ :=
    truncateArgKeysIfNeeded_keeps _
  refine ⟨hne, fun e he => (h.rows e he).1, hkeeps.eventKind, hle, fun e he => ?_⟩
  rcases mem_append.1 he with he | he
  · exact (h.rows e he).2
  · rw [mem_singleton.1 he]
    exact ⟨c.handoffMs, hkeeps.ts, hms⟩

/-- **A rotation closes the active file.** -/
theorem Layout.rotation (h : Layout env key t w gens active) (hne : active ≠ [])
    (ht : t < c.rotationMs) (hhandoffMs : c.rotationMs < c.handoffMs)
    (hms : c.handoffMs / 1000 < endOf2099)
    (hhandoff : entryHash env (handoffRow env c.toCall
      (archiveName env c.rotationMs) w.writer.lastHash) = some handoffHash) :
    Ready env key c.handoffMs (rotated env (w.stamped c.rotationMs) c.toCall (lines env active)
        (archiveName env c.rotationMs) handoffHash) (gens ++ [⟨c.rotationMs, active,
        handoffRow env c.toCall (archiveName env c.rotationMs) w.writer.lastHash⟩]) [] := by
  have hrotationMs : c.rotationMs / 1000 < endOf2099 := by omega
  obtain ⟨-, hstamp⟩ := h.rotationStamp ht hrotationMs
  have hsettled : (w.stamped c.rotationMs).writer.pendingTipAnchor = none := by
    rw [stamped_writer]
    exact h.settled
  have hwriter : (rotated env (w.stamped c.rotationMs) c.toCall (lines env active)
      (archiveName env c.rotationMs) handoffHash).writer = _ := rotated_of_settled hsettled rfl
  rw [stamped_writer] at hwriter
  have hhistory : (rotated env (w.stamped c.rotationMs) c.toCall (lines env active)
      (archiveName env c.rotationMs) handoffHash).history = _ := rotated_history _
  rw [stamped_history, stamped_writer, h.history] at hhistory
  have hsteady : Steady env (rotated env (w.stamped c.rotationMs) c.toCall (lines env active)
      (archiveName env c.rotationMs) handoffHash) [] :=
    h.honest.toLive.steady_rotated (c := c.toCall) rfl
  have hholds : Holds env key (rotated env (w.stamped c.rotationMs) c.toCall (lines env active)
      (archiveName env c.rotationMs) handoffHash).dir _ [] := h.holds_rotated hne ht hrotationMs
  have hunanchored : w.writer.anchored = false → (rotated env (w.stamped c.rotationMs) c.toCall
      (lines env active) (archiveName env c.rotationMs) handoffHash).storedAnchor = none := by
    intro ha
    rw [rotated_storedAnchor (by rw [stamped_writer]; exact ha), stamped_storedAnchor,
      h.unanchored ha]
  have hlast : (rotated env (w.stamped c.rotationMs) c.toCall (lines env active)
      (archiveName env c.rotationMs) handoffHash).lastRotationTimestamp =
        compactNumber c.rotationMs := by
    rw [rotated_lastRotationTimestamp, hstamp]
  have hchain := HashChain.Linked.snoc h.chain (previousEntryHash_handoffRow _) hhandoff
  rw [h.history] at hchain
  generalize rotated env (w.stamped c.rotationMs) c.toCall (lines env active)
    (archiveName env c.rotationMs) handoffHash = w₁ at *
  refine ⟨hsteady, ?_, ?_, hholds, ?_, ?_, ?_, ?_, ?_, ?_, ?_, ?_⟩
  · rw [hhistory, hwriter]
    exact hchain
  · rw [hwriter]
    exact hunanchored
  · rw [hhistory]
    simp [Generation.entries]
  · rw [hwriter]
    exact h.key
  · rw [hwriter]
    rfl
  · rw [hwriter]
    rfl
  · rw [hwriter]
    exact h.owed
  · simp
  · intro g hg
    rcases mem_append.1 hg with hg | hg
    · exact (h.complete g hg).mono (by omega)
    · rw [mem_singleton.1 hg]
      exact complete_handoff h.toReady hne hms hhandoffMs.le
  · intro m hm hlt
    rw [hlast]
    exact compactNumber_lt (fits_of_lt (by omega)) (fits_of_lt hlt) (by omega)

theorem Ready.mono (h : Ready env key t w gens active) (ht : t ≤ t') :
    Ready env key t' w gens active :=
  { h with
    complete := fun g hg => (h.complete g hg).mono ht
    stamp := fun m hm => h.stamp m (by omega) }

theorem rotates_iff {content : Text} (h : Honest env w content) :
    Rotates w ↔ rotationThresholdBytes ≤ content.length := by
  unfold Rotates
  rw [h.heldContent]

/-- **What an honest call leaves.** -/
theorem Layout.step (h : Layout env key t w gens active)
    (hread : ∀ r ∈ c.readings w, t ≤ r ∧ r / 1000 < endOf2099)
    (hsorted : (c.readings w).Pairwise (· < ·)) : ∃ t' ∈ c.readings w, ∃ gens' active',
      Layout env key t' (honestStep env w c) gens' active' ∧
        (honestStep env w c).writer.anchored = w.writer.anchored := by
  obtain ⟨-, happended, -⟩ := h.honest.step (c := c.toCall) rfl
  have hanchored := happended.anchored h.honest.toLive rfl
  have hrotates := rotates_iff h.honest
  unfold HonestCall.readings at hread hsorted ⊢
  unfold honestStep
  generalize HonestRuns.step env w c.toCall = w' at happended hanchored ⊢
  cases happended with
  | row hsmall hhash =>
    rw [if_neg fun hr => absurd (hrotates.1 hr) (by omega)] at hread ⊢
    have hentry := hread c.entryMs (by simp)
    exact ⟨c.entryMs, by simp, gens, _, (h.toReady.mono hentry.1).row hentry.2 hhash, hanchored⟩
  | rotation hlarge hhandoff hhash =>
    rw [if_pos (hrotates.2 hlarge)] at hread hsorted ⊢
    have hentry := hread c.entryMs (by simp)
    have hrotation := hread c.rotationMs (by simp)
    have hhandoffMs := hread c.handoffMs (by simp)
    have horder : c.entryMs < c.rotationMs ∧ c.rotationMs < c.handoffMs := by
      simp only [pairwise_cons, mem_cons, not_mem_nil, or_false] at hsorted
      exact ⟨hsorted.1 _ (.inl rfl), hsorted.2.1 _ rfl⟩
    have hne : active ≠ [] := by
      rintro rfl
      exact absurd hlarge (by simp [lines, rotationThresholdBytes])
    have ht : t < c.rotationMs := by omega
    rw [(h.rotationStamp ht hrotation.2).1] at hhandoff hanchored ⊢
    have hready := h.rotation hne ht horder.2 hhandoffMs.2 hhandoff
    exact ⟨c.handoffMs, by simp, _, _, hready.row hentry.2 hhash, hanchored⟩

/-- **What an honest run leaves**, as long as the clock shows no time after 2099. -/
theorem Layout.run (calls : List (HonestCall K)) (h : Layout env key t w gens active)
    (hread : ∀ r ∈ readings env w calls, t ≤ r ∧ r / 1000 < endOf2099)
    (hsorted : (readings env w calls).Pairwise (· < ·)) :
    ∃ t' gens' active', Layout env key t' (Runs.run (honestStep env) w calls) gens' active' ∧
      (Runs.run (honestStep env) w calls).writer.anchored = w.writer.anchored := by
  induction calls generalizing t w gens active with
  | nil => exact ⟨t, gens, active, h, rfl⟩
  | cons c calls ih =>
    obtain ⟨hsorted₁, hsorted₂, hlater⟩ := pairwise_append.1 hsorted
    obtain ⟨t', ht', gens', active', hnext, hanchored⟩ :=
      h.step (fun r hr => hread r (mem_append_left _ hr)) hsorted₁
    obtain ⟨t'', gens'', active'', hlast, hkept⟩ := ih hnext
      (fun r hr => ⟨(hlater t' ht' r hr).le, (hread r (mem_append_right _ hr)).2⟩) hsorted₂
    exact ⟨t'', gens'', active'', hlast, hkept.trans hanchored⟩

theorem layout_opened {anchored : Bool} :
    Layout env key 0 (openedWorld env empty (some key) anchored (emptyLog env) []
      ⟨zeroBlockHash env, 0, 0⟩) [] [] := by
  have hhonest : Honest env (openedWorld env empty (some key) anchored (emptyLog env) []
      ⟨zeroBlockHash env, 0, 0⟩) [] := honest_opened
  have hnone : ∀ name, name ≠ env.stem → (emptyLog env).files.lookup name = none :=
    fun name hname => AList.lookup_insert_ne hname
  have hholds : Holds env key (emptyLog env) [] [] := by
    refine ⟨⟨archives_emptyLog, by simp, by simp, ?_, ?_⟩, AList.lookup_insert _, rfl⟩
    · intro name _ htagged
      cases htagged
    · intro name hactive hname
      rw [hnone name hactive] at hname
      cases hname
  refine ⟨⟨hhonest.toLive.steady, hhonest.chain, fun _ => rfl, hholds, rfl, rfl, rfl, rfl, rfl,
    by simp, by simp, fun m hm hlt => ?_⟩, hhonest, fun _ => rfl⟩
  exact (Nat.zero_le _).trans_lt (compactNumber_lt (fits_of_lt (by omega)) (fits_of_lt hlt) hm)

end

end AgentWallet.AuditLog.Generations
