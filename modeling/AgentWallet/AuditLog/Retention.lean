import AgentWallet.AuditLog.Generations
import AgentWallet.AuditLog.PlainLog
import AgentWallet.AuditLog.TamperEvidence

/-!
# Which honest logs verify

An honest log verifies and opens again as long as no archive was pruned and every timestamp can be
read back (`verifyLog_of_layout`, `openInner_of_layout`).  Both conditions are needed: an accepted
log holds every entry that was ever written (`logEntries_eq_history`), so none may be missing, and
the verifier reads no timestamp after 2099.
-/

namespace AgentWallet.AuditLog.Retention

open Base List Base.Checks
open Timestamps Entry Files Verify Writer Steps HonestRuns Generations TamperEvidence

variable {K D : Type} [DecidableEq D] {env : LogEnv K D} {key : Text} {dir : Directory}
  {ctx : FileContext} {w w' : Walk} {e : AuditEntry K} {hash : Text}

/-! ## Verifying a file -/

theorem parse_of_readable (h : Readable e) : ∃ ms, parseAuditTimestampMs e.ts = .ok ms := by
  obtain ⟨ms, hts, hms⟩ := h
  exact ⟨ms, by rw [hts, parse_iso8601Utc hms]⟩

theorem verifyLine_line {last : Option Text} (hread : Readable e)
    (hprev : e.previousEntryHash = w.prevHash) (hhash : entryHash env e = some hash)
    (hfirst : checkFirstEntry env dir ctx w (canonicalJsonBody env e) = .ok ())
    (hkind : checkKind ctx (w.lineIndex + 1) e w.lastHandoffNextFile = .ok last) :
    ∃ w', verifyLine env dir ctx w (line env e) = .ok w' ∧ w'.prevHash = hash ∧
      w'.isFirstEntry = false ∧ w'.lastHandoffNextFile = last := by
  obtain ⟨ms, hms⟩ := parse_of_readable hread
  obtain ⟨text, htext⟩ := Option.isSome_iff_exists.1 (env.json.toVec_utf8 e)
  have hblank : Utf8.isBlank text = false := by
    by_contra h
    have hnone : env.json.fromSlice (env.json.toVec e) = none :=
      fromSlice_eq_none_of_isBlank htext (by simpa using h)
    rw [env.json.fromSlice_toVec] at hnone
    cases hnone
  have hcompute : computeEntryHash env (canonicalJsonBody env e) w.prevHash = some hash := by
    rw [← hhash, ← hprev]
    rfl
  unfold verifyLine
  rw [stripLineTerminator_line, htext, readLine_line]
  simp only [hblank, Bool.false_eq_true]
  unfold verifyEntry
  simp only [hms, hprev, ne_eq, hcompute, hfirst, hkind]
  exact ⟨_, rfl, rfl, rfl, rfl⟩

theorem checkKind_row (h : e.isHandoff = false) (n : ℕ) (last : Option Text) :
    checkKind ctx n e last = .ok last := by
  unfold AuditEntry.isHandoff at h
  unfold checkKind
  rcases hkind : e.eventKind with nextFileName | kind
  · rw [hkind] at h
    cases h
  · rfl

/-- **The rows of a file are accepted.** -/
theorem verifyLines_rows {es : List (AuditEntry K)} (hes : Linked env w.prevHash es hash)
    (hrows : ∀ e ∈ es, e.isHandoff = false ∧ Readable e)
    (hroot : w.isFirstEntry = true → ∀ e ∈ es.head?,
      checkChainRoot env dir ctx (canonicalJsonBody env e) = .ok ()) :
    ∃ w', (es.map (line env)).foldlM (verifyLine env dir ctx) w = .ok w' ∧ w'.prevHash = hash ∧
      w'.lastHandoffNextFile = w.lastHandoffNextFile ∧ (es ≠ [] → w'.isFirstEntry = false) := by
  induction es generalizing w with
  | nil =>
    cases hes
    exact ⟨w, rfl, rfl, rfl, fun h => absurd rfl h⟩
  | cons e es ih =>
    obtain ⟨hprev, t, ht, hrest⟩ := hes
    have hrow := hrows e mem_cons_self
    have hfirst : checkFirstEntry env dir ctx w (canonicalJsonBody env e) = .ok () := by
      unfold checkFirstEntry
      split_ifs with h
      · exact hroot h e rfl
      · rfl
    obtain ⟨w₁, hline, htip, hnot, hlast⟩ := verifyLine_line hrow.2 hprev ht hfirst
      (checkKind_row hrow.1 _ _)
    obtain ⟨w', hlines, hhash, hhandoff, hdone⟩ := ih (by rw [htip]; exact hrest)
      (fun e he => hrows e (mem_cons_of_mem _ he)) (fun h => absurd h (by simp [hnot]))
    refine ⟨w', ?_, hhash, hhandoff.trans hlast, fun _ => ?_⟩
    · exact bind_eq_ok_iff.2 ⟨w₁, hline, hlines⟩
    · by_cases hes : es = []
      · subst hes
        cases Except.ok.inj hlines
        exact hnot
      · exact hdone hes

theorem checkChainRoot_of_rootTag (es : List (AuditEntry K)) (hkey : ctx.hmacKey = some key)
    (hhead : es.head? = some e) (htag : dir.sidecars.lookup ctx.name = rootTag env key es) :
    checkChainRoot env dir ctx (canonicalJsonBody env e) = .ok () := by
  have hlookup : dir.sidecars.lookup ctx.name =
      some (.regular (sidecarContent env key e)) := by
    rw [htag]
    unfold rootTag
    rw [hhead]
    rfl
  have htrim := Utf8.trimmed_of_printable
    (env.hashes.hashText_printable (env.hashes.hmac key (canonicalJsonBody env e)))
  have hread : readTag (some (.regular (sidecarContent env key e))) =
      .ok (signChainRoot env key (canonicalJsonBody env e)) := by
    obtain ⟨text, htext, hencode⟩ := Option.map_eq_some_iff.1 htrim
    unfold readTag openRegularFile sidecarContent signChainRoot
    simp [htext, hencode]
  have hverify : verifyChainRoot env key (canonicalJsonBody env e)
      (signChainRoot env key (canonicalJsonBody env e)) = true := by
    unfold verifyChainRoot signChainRoot
    rw [env.hashes.decodeHash_hashText]
    exact decide_eq_true rfl
  unfold checkChainRoot
  rw [hkey, hlookup]
  simp [fileExists, hread, hverify]

/-! ## Verifying a directory -/

section

variable {p : Progress} {g : Generation K} {archived : List (Generation K)}
  {active : List (AuditEntry K)} {t : ℕ}

/-- A file whose lines are accepted and whose handoff names it is accepted. -/
theorem verifyFile_of_lines {name : Text} {isActive : Bool} {es : List (AuditEntry K)}
    (hfile : dir.files.lookup name = some (.regular (lines env es)))
    (hlines : (es.map (line env)).foldlM (verifyLine env dir (fileContext (some key) p name isActive))
      (initialWalk env (fileContext (some key) p name isActive)) = .ok w)
    (hchecked : checkHandoff (fileContext (some key) p name isActive) w = .ok ()) :
    verifyFile env dir (some key) isActive p name = .ok (advance (some key) p name isActive w) := by
  have hsingle : verifySingleFile env dir (fileContext (some key) p name isActive) = .ok w := by
    unfold verifySingleFile
    rw [show (fileContext (some key) p name isActive).name = name from rfl, hfile]
    refine bind_eq_ok_iff.2 ⟨_, rfl, bind_eq_ok_iff.2 ⟨w, ?_, ?_⟩⟩
    · unfold lines
      rw [rawLines_lines, hlines]
    · exact bind_eq_ok_iff.2 ⟨(), hchecked, rfl⟩
  unfold verifyFile
  rw [hfile]
  exact bind_eq_ok_iff.2 ⟨w, hsingle, rfl⟩

theorem verifyFile_archive (hg : Complete env t g)
    (hfile : dir.files.lookup (g.name env) = some (.regular (lines env g.entries)))
    (htag : dir.sidecars.lookup (g.name env) = rootTag env key g.entries)
    (hlinked : Linked env (p.tip env) g.entries hash) :
    ∃ p', verifyFile env dir (some key) false p (g.name env) = .ok p' ∧ p'.tip env = hash := by
  set ctx := fileContext (some key) p (g.name env) false with hctx
  obtain ⟨t', hrows, hhandoff, t'', hhash, rfl⟩ := HashChain.linked_append.1 hlinked
  obtain ⟨first, rest, hcons⟩ := exists_cons_of_ne_nil hg.rows_ne
  have hroot : ∀ e ∈ g.rows.head?, checkChainRoot env dir ctx (canonicalJsonBody env e) =
      .ok () := by
    intro e he
    refine checkChainRoot_of_rootTag g.entries rfl ?_ htag
    unfold Generation.entries
    rw [hcons] at he ⊢
    exact he
  obtain ⟨w₁, hlines, htip, hlast, hnot⟩ := verifyLines_rows (w := initialWalk env ctx) hrows
    (fun e he => ⟨hg.rows e he, hg.readable e (mem_append_left _ he)⟩) fun _ => hroot
  have hkind : checkKind ctx (w₁.lineIndex + 1) g.handoff w₁.lastHandoffNextFile =
      .ok (some (g.name env)) := by
    unfold checkKind
    rw [hg.handoff]
    rfl
  have hfirst : checkFirstEntry env dir ctx w₁ (canonicalJsonBody env g.handoff) = .ok () := by
    unfold checkFirstEntry
    rw [hnot hg.rows_ne]
    rfl
  obtain ⟨w₂, hline, htip₂, -, hlast₂⟩ := verifyLine_line
    (hg.readable g.handoff (by simp [Generation.entries])) (hhandoff.trans htip.symm) hhash hfirst
    hkind
  refine ⟨_, verifyFile_of_lines hfile ?_ ?_, htip₂⟩
  · unfold Generation.entries
    rw [map_append, foldlM_append]
    exact bind_eq_ok_iff.2 ⟨w₁, hlines, bind_eq_ok_iff.2 ⟨w₂, hline, rfl⟩⟩
  · unfold checkHandoff
    rw [hlast₂]
    exact if_pos rfl

theorem verifyFiles_archives (hcomplete : ∀ g ∈ archived, Complete env t g)
    (hfiles : ∀ g ∈ archived, dir.files.lookup (g.name env) = some (.regular (lines env g.entries)))
    (htags : ∀ g ∈ archived, dir.sidecars.lookup (g.name env) = rootTag env key g.entries)
    (hlinked : Linked env (p.tip env) (archived.flatMap Generation.entries) hash) :
    ∃ p', (archived.map (Generation.name env)).foldlM (verifyFile env dir (some key) false) p =
      .ok p' ∧ p'.tip env = hash := by
  induction archived generalizing p with
  | nil =>
    cases hlinked
    exact ⟨p, rfl, rfl⟩
  | cons g archived ih =>
    obtain ⟨t', hg, hrest⟩ := HashChain.linked_append.1 hlinked
    obtain ⟨p₁, hp₁, htip⟩ := verifyFile_archive (hcomplete g mem_cons_self)
      (hfiles g mem_cons_self) (htags g mem_cons_self) hg
    obtain ⟨p', hp', htip'⟩ := ih (fun g hg => hcomplete g (mem_cons_of_mem _ hg))
      (fun g hg => hfiles g (mem_cons_of_mem _ hg))
      (fun g hg => htags g (mem_cons_of_mem _ hg)) (by rw [htip]; exact hrest)
    refine ⟨p', ?_, htip'⟩
    exact bind_eq_ok_iff.2 ⟨p₁, hp₁, hp'⟩

theorem verifyFile_active (hrows : ∀ e ∈ active, e.isHandoff = false ∧ Readable e)
    (hfile : dir.files.lookup env.stem = some (.regular (lines env active)))
    (htag : dir.sidecars.lookup env.stem = rootTag env key active)
    (hlinked : Linked env (p.tip env) active hash) :
    ∃ p', verifyFile env dir (some key) true p env.stem = .ok p' := by
  set ctx := fileContext (some key) p env.stem true
  have hroot : ∀ e ∈ active.head?, checkChainRoot env dir ctx (canonicalJsonBody env e) = .ok () :=
    fun e he => checkChainRoot_of_rootTag active rfl he htag
  obtain ⟨w₁, hlines, -, -, -⟩ := verifyLines_rows (w := initialWalk env ctx) hlinked hrows
    fun _ => hroot
  exact ⟨_, verifyFile_of_lines hfile hlines rfl⟩

/-- **A log that lost no archive verifies.** -/
theorem verifyLog_of_layout {w : World K} {gens : List (Generation K)}
    (h : Layout env key t w gens active) (hgens : gens.length ≤ maxRotatedFiles) :
    ∃ ok, verifyLog env w.dir (some key) = .ok ok := by
  have hholds := h.holds
  rw [newest_eq_self hgens] at hholds
  have hchain := h.chain
  rw [h.history] at hchain
  obtain ⟨t', hgensLinked, hactive⟩ := HashChain.linked_append.1 hchain
  obtain ⟨p, hp, htip⟩ := verifyFiles_archives (p := initialProgress) h.complete hholds.files
    hholds.tags hgensLinked
  obtain ⟨p', hp'⟩ := verifyFile_active h.rows hholds.file hholds.tag
    (by rw [htip]; exact hactive)
  have hfiles : verifyFiles env w.dir (some key) initialProgress
      (archives env w.dir ++ [env.stem]) = .ok p' := by
    rw [hholds.names]
    refine (verifyFiles_append (cons_ne_nil _ _)).2 ⟨p, hp, ?_⟩
    exact bind_eq_ok_iff.2 ⟨p', hp', rfl⟩
  have hcap : (archives env w.dir).length ≤ rotatedFileChainCap := by
    rw [hholds.names, length_map]
    exact hgens.trans (by decide)
  refine ⟨⟨p'.totalEntries, p'.filesWalked, p'.perFile, p'.warnings, true, p'.activeTip⟩, ?_⟩
  unfold verifyLog
  rw [collectFileChain_eq hcap]
  refine bind_eq_ok_iff.2 ⟨_, rfl, ?_⟩
  exact bind_eq_ok_iff.2 ⟨p', hfiles, rfl⟩

end

/-! ## Opening again -/

section

variable {name : Text} {t : ℕ} {w : World K} {gens : List (Generation K)}
  {active : List (AuditEntry K)} {l suffix : Text}

theorem getLast?_of_suffix (h : suffix <:+ l) (hne : suffix ≠ []) :
    l.getLast? = suffix.getLast? := by
  obtain ⟨front, rfl⟩ := h
  rw [List.getLast?_append_of_ne_nil _ hne]

theorem isDigit_getLast (hne : l ≠ []) (hall : l.all Decimal.isDigit = true) :
    ∃ b, l.getLast? = some b ∧ Decimal.isDigit b = true :=
  ⟨l.getLast hne, List.getLast?_eq_some_getLast hne, all_eq_true.1 hall _ (getLast_mem hne)⟩

theorem isDigit_of_isRotationSuffix (h : isRotationSuffix suffix = true) :
    ∃ b, suffix.getLast? = some b ∧ Decimal.isDigit b = true := by
  unfold isRotationSuffix splitOnce at h
  split_ifs at h with hdash
  · simp only [Bool.and_eq_true] at h
    obtain ⟨⟨⟨hne, hall⟩, -⟩, -⟩ := h
    set collision := (suffix.dropWhile fun b => decide (b ≠ 45)).drop 1
    have hne : collision ≠ [] := by simpa [List.isEmpty_iff] using hne
    have hsuffix : collision <:+ suffix :=
      (drop_suffix 1 _).trans (dropWhile_suffix _)
    rw [getLast?_of_suffix hsuffix hne]
    exact isDigit_getLast hne hall
  · unfold isCompactTimestamp at h
    simp only [Bool.and_eq_true, Bool.or_eq_true, decide_eq_true_eq] at h
    obtain ⟨⟨⟨hlength, -⟩, -⟩, hall⟩ := h
    have hne : suffix.drop 9 ≠ [] := by
      intro hnil
      have hle := drop_eq_nil_iff.1 hnil
      omega
    rw [getLast?_of_suffix (drop_suffix 9 suffix) hne]
    exact isDigit_getLast hne hall

omit [DecidableEq D] in
theorem not_tmp_of_isRotatedSibling (h : isRotatedSibling env.stem name = true) :
    ([46, 116, 109, 112] : Text).isSuffixOf name = false := by
  unfold isRotatedSibling at h
  split at h
  · rename_i suffix hsuffix
    obtain ⟨b, hlast, hdigit⟩ := isDigit_of_isRotationSuffix h
    have hne : suffix ≠ [] := by
      rintro rfl
      cases hlast
    have happ := List.isPrefixOf?_eq_some_iff_append_eq.1 hsuffix
    rw [Bool.eq_false_iff]
    intro htmp
    have htmp := getLast?_of_suffix (isSuffixOf_iff_suffix.1 htmp) (by simp)
    rw [getLast?_of_suffix ⟨_, happ⟩ hne, hlast] at htmp
    rw [Option.some.inj htmp] at hdigit
    exact absurd hdigit (by decide)
  · cases h

omit [DecidableEq D] in
theorem detectPartialLastEntry_lines (active : List (AuditEntry K)) :
    detectPartialLastEntry env (lines env active) = none := by
  unfold detectPartialLastEntry
  rcases eq_nil_or_concat' active with rfl | ⟨init, e, rfl⟩
  · rfl
  rw [lines_snoc]
  have hne := toVec_ne_nil env.json e
  have hbrace : (env.json.toVec e).getLast hne = 125 := by
    have hclosed := env.json.toVec_closed e
    rw [List.getLast?_eq_some_getLast hne] at hclosed
    exact Option.some.inj hclosed
  -- the file ends with a brace and a line feed, so the scan does not give up
  obtain ⟨front, hfront⟩ : ∃ front, lines env init ++ line env e = front ++ [125] ++ [10] := by
    refine ⟨lines env init ++ (env.json.toVec e).dropLast, ?_⟩
    unfold line
    rw [append_assoc (lines env init) _ [125], ← hbrace, dropLast_append_getLast, append_assoc]
  set content := lines env init ++ line env e
  have hrun : content.rtakeWhile (fun b => decide (b = 10)) = [10] := by
    rw [hfront, rtakeWhile_concat_pos _ _ _ (by decide),
      rtakeWhile_concat_neg _ _ _ (by decide)]
    rfl
  have hlast : Lines.lastLine (fun b => decide (b = (10 : UInt8))) 10 content =
      some (env.json.toVec e) := by
    refine Lines.lastLine_snoc (Lines.terminated_flatMap env.json.toVec init) (by decide)
      (env.json.toVec_newline e) hne ?_
    rw [hbrace]
    decide
  rw [if_neg (by rw [hfront]; simp), Lines.scanBack_giveUp (by decide), hrun,
    if_neg (by decide), hlast]
  simp [env.json.isValue_toVec]

omit [DecidableEq D] in
theorem detectPartialRotation_of_layout (h : Layout env key t w gens active)
    (hstem : ([46, 116, 109, 112] : Text).isSuffixOf env.stem = false) :
    detectPartialRotation env w.dir (lines env active) = .ok () := by
  have horphan : orphanSidecar env w.dir = none := by
    unfold orphanSidecar
    rw [List.find?_eq_none]
    intro name hname hfound
    simp only [Bool.and_eq_true] at hfound
    have htagged : (w.dir.sidecars.lookup name).isSome = true :=
      AList.lookup_isSome.2 (AList.mem_keys.2 hname)
    obtain ⟨g, hg, rfl⟩ := mem_map.1 (h.holds.onlyTags name hfound.1 htagged)
    rw [h.holds.files g hg] at hfound
    exact absurd hfound.2 (by simp)
  have htmp : tmpFile w.dir = none := by
    unfold tmpFile
    rw [List.find?_eq_none]
    intro name hname hfound
    have hfile : (w.dir.files.lookup name).isSome = true :=
      AList.lookup_isSome.2 (AList.mem_keys.2 hname)
    by_cases hactive : name = env.stem
    · rw [hactive, hstem] at hfound
      cases hfound
    · rw [not_tmp_of_isRotatedSibling (h.holds.only name hactive hfile)] at hfound
      cases hfound
  unfold detectPartialRotation
  rw [horphan, htmp, detectPartialLastEntry_lines]

omit [DecidableEq D] in
theorem initialChainSeed_of_layout (h : Layout env key t w gens active) :
    ∃ seed, initialChainSeed env w.dir = .ok seed ∧ Linked env seed active w.writer.lastHash := by
  have hchain := h.chain
  rw [h.history] at hchain
  obtain ⟨seed, hgens, hactive⟩ := HashChain.linked_append.1 hchain
  refine ⟨seed, ?_, hactive⟩
  rcases eq_nil_or_concat' gens with rfl | ⟨older, g, rfl⟩
  · have hnone : archives env w.dir = [] := h.holds.names
    rw [initialChainSeed_of_archives_nil hnone, show zeroBlockHash env = seed from hgens]
  · have hnewest : newest (older ++ [g]) = (newest (older ++ [g])).dropLast ++ [g] := by
      have hdrop : newest (older ++ [g]) = older.drop ((older ++ [g]).length - maxRotatedFiles) ++
          [g] := by
        unfold newest
        rw [drop_append_of_le_length (by simp [maxRotatedFiles])]
      rw [hdrop, dropLast_concat]
    have hg := h.complete g (by simp)
    have hmem : g ∈ newest (older ++ [g]) := by
      rw [hnewest]
      simp
    have hfile := h.holds.files g hmem
    unfold Generation.entries at hfile
    rw [lines_snoc] at hfile
    rw [flatMap_append, flatMap_singleton] at hgens
    obtain ⟨_, _, hentries⟩ := HashChain.linked_append.1 hgens
    have hhash := (HashChain.linked_snoc.1 hentries).2
    have hnames : archives env w.dir =
        (newest (older ++ [g])).dropLast.map (Generation.name env) ++ [g.name env] := by
      rw [h.holds.names]
      conv_lhs => rw [hnewest]
      rw [map_append]
      rfl
    refine initialChainSeed_of_newest hnames ?_ hfile (Lines.terminated_flatMap env.json.toVec _)
      hg.handoff hhash
    · rw [length_map, length_dropLast]
      exact (Nat.sub_le _ _).trans_lt ((length_newest_le _).trans_lt (by decide))

theorem World.eq_of_writer {w w' : World K} (hs : w.toSurroundings = w'.toSurroundings)
    (hw : w.writer = w'.writer) : w = w' := by
  rcases w with ⟨s, wr⟩
  rcases w' with ⟨s', wr'⟩
  obtain rfl : s = s' := hs
  obtain rfl : wr = wr' := hw
  rfl

omit [DecidableEq D] in
theorem lines_eq_nil_iff : lines env active = [] ↔ active = [] := by
  constructor
  · intro h
    by_contra hne
    obtain ⟨e, l, rfl⟩ := exists_cons_of_ne_nil hne
    exact absurd h (by simp [lines, line])
  · rintro rfl
    rfl

omit [DecidableEq D] in
theorem openedWorld_of_layout (h : Layout env key t w gens active) :
    openedWorld env w.toSurroundings (some key) w.writer.anchored w.dir
      (lines env active) ⟨w.writer.lastHash, active.length, (lines env active).length⟩ = w := by
  refine World.eq_of_writer rfl (AuditWriter.ext h.held.symm rfl ?_ h.key.symm rfl h.count.symm
    h.honest.endOffset.symm h.settled.symm h.unlatched.symm h.owed.symm h.whole.symm)
  rw [h.isNew]
  exact decide_eq_decide.2 lines_eq_nil_iff

variable {adoptionRow : ℕ → Call K}

theorem reconcileOnOpen_of_layout (h : Layout env key t w gens active) :
    reconcileOnOpen env adoptionRow w = .ok w := by
  unfold reconcileOnOpen
  split_ifs with hanchored
  · rfl
  have hanchored : w.writer.anchored = true := by simpa using hanchored
  unfold reconcileTipAnchor
  by_cases hactive : active = []
  · have hhistory : w.history = [] := by
      rw [h.history, hactive, h.begun hactive]
      rfl
    have hlen : w.pathLen env = 0 := by
      rw [h.honest.pathLen, hactive]
      rfl
    have hself : (w.setWriter fun wr => { wr with entryCount := 0, endOffset := 0 }) = w := by
      refine World.eq_of_writer rfl (AuditWriter.ext rfl rfl rfl rfl rfl ?_ ?_ rfl rfl rfl rfl)
      · rw [h.count, hactive]
        rfl
      · rw [h.honest.endOffset, hactive]
        rfl
    rw [h.honest.anchor, if_neg (by simp [hhistory])]
    unfold adoptTipAnchor
    simp only [hlen, hself]
    rfl
  · have hhistory : w.history ≠ [] := by
      rw [h.history]
      simp [hactive]
    have hcount : w.writer.entryCount ≠ 0 := by
      rw [h.count]
      exact fun hzero => hactive (length_eq_zero_iff.1 hzero)
    have hself : w.adoptAnchor
        ⟨w.writer.entryCount, w.writer.lastHash, w.writer.endOffset⟩ = w := by
      refine World.eq_of_writer rfl (AuditWriter.ext rfl rfl ?_ rfl rfl rfl rfl rfl rfl rfl rfl)
      rw [h.isNew]
      simp [World.adoptAnchor, World.setWriter, hactive]
    have hlen : w.pathLen env = w.writer.endOffset := by
      rw [h.honest.pathLen, h.honest.endOffset]
    rw [h.honest.anchor, if_pos ⟨hanchored, hhistory⟩]
    simp only [h.honest.entryIsIntactAt hcount, hlen]
    rw [hself]
    rfl

/-- **A log opens again**, with the writer that closed it. -/
theorem openInner_of_layout (h : Layout env key t w gens active)
    (hstem : ([46, 116, 109, 112] : Text).isSuffixOf env.stem = false) :
    openInner env (some key) w.writer.anchored adoptionRow w.toSurroundings = .ok w := by
  obtain ⟨seed, hseed, hlinked⟩ := initialChainSeed_of_layout h
  have hopen : openAppend env w.dir = .ok (w.dir, lines env active) := by
    unfold openAppend
    rw [h.holds.file]
  have hscan : openScan env (lines env active) seed =
      .ok ⟨w.writer.lastHash, active.length, (lines env active).length⟩ := by
    unfold openScan
    split_ifs with hempty
    · rw [lines_eq_nil_iff.1 hempty] at hlinked ⊢
      rw [show seed = w.writer.lastHash from hlinked]
      rfl
    · exact replay_lines hlinked
  refine bind_eq_ok_iff.2 ⟨_, hopen, ?_⟩
  refine bind_eq_ok_iff.2 ⟨(), detectPartialRotation_of_layout h hstem, ?_⟩
  refine bind_eq_ok_iff.2 ⟨seed, hseed, ?_⟩
  refine bind_eq_ok_iff.2 ⟨_, hscan, ?_⟩
  rw [openedWorld_of_layout h]
  exact reconcileOnOpen_of_layout h

end

/-! ## What an accepted log holds -/

section

variable {hmacKey : Option Text} {content : Text} {t r : ℕ} {w : World K} {c : HonestCall K}
  {gens archived : List (Generation K)} {active : List (AuditEntry K)} {ok : VerifyOk}

/-- **An accepted log holds everything that was ever written.**  Its walk ends with the last line of
the active file, and the hash of that entry determines the chain before it. -/
theorem logEntries_eq_history (hsha : env.hashes.sha256.Injective)
    (h : Honest env w content) (hne : w.history ≠ [])
    (hverify : verifyLog env w.dir hmacKey = .ok ok) : logEntries env w.dir = w.history := by
  obtain ⟨before, e, hbefore, rfl, hhash⟩ := h.tip.resolve_left (h.counted hne)
  obtain ⟨p, tip, -, -, -, hlinked⟩ := verifyLog_inv hverify
  have hactive : fileEntries env w.dir env.stem = parsedEntries env before ++ [e] := by
    rw [fileEntries_eq h.file]
    have hline : Lines.rawLines 10 (line env e) = [line env e] :=
      Lines.rawLines_line (env.json.toVec_newline e)
    unfold parsedEntries
    rw [Lines.rawLines_append hbefore, hline, filterMap_append]
    simp only [filterMap_cons, readLine_line, filterMap_nil]
  have hentries : logEntries env w.dir =
      (archives env w.dir).flatMap (fileEntries env w.dir) ++ parsedEntries env before ++ [e] := by
    unfold logEntries
    rw [flatMap_append, flatMap_singleton, hactive, append_assoc]
  have htip : entryHash env e = some tip.tipHash := by
    rw [hentries] at hlinked
    exact (HashChain.linked_snoc.1 hlinked).2
  rw [← Option.some.inj (hhash.symm.trans htip)] at hlinked
  exact hlinked.eq_of_tip (entryHash_inj hsha) (entryHash_ne_zeroBlockHash hsha) h.chain

theorem parse_of_mem_logEntries (hverify : verifyLog env dir hmacKey = .ok ok)
    (he : e ∈ logEntries env dir) : ∃ ms, parseAuditTimestampMs e.ts = .ok ms := by
  obtain ⟨name, hname, he⟩ := mem_flatMap.1 he
  obtain ⟨content, haccepted⟩ := accepted_of_verifyLog hverify hname
  rw [fileEntries_eq haccepted.1] at he
  exact haccepted.parse he

omit [DecidableEq D] in
theorem logEntries_of_layout (h : Layout env key t w gens active) :
    logEntries env w.dir = (newest gens).flatMap Generation.entries ++ active := by
  unfold logEntries
  rw [flatMap_append, flatMap_singleton, h.holds.names, flatMap_map, fileEntries_eq h.holds.file]
  congr 1
  · refine flatMap_congr fun g hg => ?_
    rw [fileEntries_eq (h.holds.files g hg)]
    exact parsedEntries_lines g.entries
  · exact parsedEntries_lines active

omit [DecidableEq D] in
theorem countP_handoffs (hcomplete : ∀ g ∈ archived, Complete env t g)
    (hrows : ∀ e ∈ active, e.isHandoff = false ∧ Readable e) :
    (archived.flatMap Generation.entries ++ active).countP AuditEntry.isHandoff =
      archived.length := by
  have hactive : active.countP AuditEntry.isHandoff = 0 :=
    countP_eq_zero.2 fun e he => by simp [(hrows e he).1]
  rw [countP_append, hactive, Nat.add_zero]
  induction archived with
  | nil => rfl
  | cons g rest ih =>
    have hg := hcomplete g mem_cons_self
    have hone : g.entries.countP AuditEntry.isHandoff = 1 := by
      have hzero : g.rows.countP AuditEntry.isHandoff = 0 :=
        countP_eq_zero.2 fun e he => by simp [hg.rows e he]
      unfold Generation.entries
      rw [countP_append, hzero, countP_singleton]
      unfold AuditEntry.isHandoff
      rw [hg.handoff]
      rfl
    rw [flatMap_cons, countP_append, hone,
      ih fun g hg => hcomplete g (mem_cons_of_mem _ hg), length_cons, Nat.add_comm]

omit [DecidableEq D] in
theorem isHandoff_of_getLast (hcomplete : ∀ g ∈ gens, Complete env t g) :
    ∀ e ∈ (gens.flatMap Generation.entries).getLast?, e.isHandoff = true := by
  intro e he
  rcases eq_nil_or_concat' gens with rfl | ⟨init, g, rfl⟩
  · cases he
  · have hlast : e = g.handoff := by simpa [Generation.entries, eq_comm] using he
    rw [hlast, AuditEntry.isHandoff, (hcomplete g (by simp)).handoff]

/-! ## Readings and entries -/

omit [DecidableEq D] in
theorem ts_handoffRow (c : HonestCall K) (name lastHash : Text) :
    (handoffRow env c.toCall name lastHash).ts = iso8601Utc c.handoffMs :=
  (truncateArgKeysIfNeeded_keeps _).ts

omit [DecidableEq D] in
theorem exists_ts_of_mem_readings (h : Honest env w content)
    (hsorted : (c.readings w).Pairwise (· < ·)) (hr : r ∈ c.readings w) :
    ∃ e ∈ (honestStep env w c).history, ∃ ms, r ≤ ms ∧ e.ts = iso8601Utc ms := by
  obtain ⟨-, happended, -⟩ := h.step (c := c.toCall) rfl
  have hrotates := rotates_iff h
  unfold HonestCall.readings at hsorted hr
  unfold honestStep
  rcases happended.history h.toLive rfl with ⟨hsmall, hhistory⟩ | ⟨hlarge, hash, hhistory⟩
  · rw [if_neg fun hrot => absurd (hrotates.1 hrot) (by omega), mem_singleton] at hr
    rw [hhistory]
    exact ⟨_, mem_append_right _ (mem_singleton_self _), c.entryMs, hr.le, ts_chained c _⟩
  · rw [if_pos (hrotates.2 hlarge)] at hsorted hr
    have horder : c.rotationMs < c.handoffMs := by
      simp only [pairwise_cons, mem_cons, not_mem_nil, or_false] at hsorted
      exact hsorted.2.1 _ rfl
    rw [hhistory]
    simp only [mem_cons, not_mem_nil, or_false] at hr
    rcases hr with rfl | rfl | rfl
    · exact ⟨_, mem_append_right _ (mem_singleton_self _), c.entryMs, le_rfl, ts_chained c _⟩
    · exact ⟨handoffRow env c.toCall (rotatedName env w c.toCall) w.writer.lastHash, by simp,
        c.handoffMs, horder.le, ts_handoffRow c _ _⟩
    · exact ⟨handoffRow env c.toCall (rotatedName env w c.toCall) w.writer.lastHash, by simp,
        c.handoffMs, le_rfl, ts_handoffRow c _ _⟩

omit [DecidableEq D] in
theorem history_prefix_run (calls : List (HonestCall K)) (h : Honest env w content) :
    w.history <+: (Runs.run (honestStep env) w calls).history := by
  induction calls generalizing w content with
  | nil => exact prefix_refl _
  | cons c calls ih =>
    obtain ⟨content', happended, hnext⟩ := h.step (c := c.toCall) rfl
    refine List.IsPrefix.trans ?_ (ih hnext)
    rcases happended.history h.toLive rfl with ⟨-, hhistory⟩ | ⟨-, hash, hhistory⟩
    · exact ⟨_, hhistory.symm⟩
    · exact ⟨_, (hhistory.trans (append_assoc _ _ _)).symm⟩

omit [DecidableEq D] in
theorem exists_ts_of_mem_readings_run (calls : List (HonestCall K)) (h : Honest env w content)
    (hsorted : (readings env w calls).Pairwise (· < ·)) (hr : r ∈ readings env w calls) :
    ∃ e ∈ (Runs.run (honestStep env) w calls).history, ∃ ms, r ≤ ms ∧ e.ts = iso8601Utc ms := by
  induction calls generalizing w content with
  | nil => cases hr
  | cons c calls ih =>
    obtain ⟨content', -, hnext⟩ := h.step (c := c.toCall) rfl
    obtain ⟨hsorted₁, hsorted₂, -⟩ := pairwise_append.1 hsorted
    rcases mem_append.1 hr with hr | hr
    · obtain ⟨e, he, hts⟩ := exists_ts_of_mem_readings h hsorted₁ hr
      exact ⟨e, (history_prefix_run calls hnext).subset he, hts⟩
    · exact ih hnext hsorted₂ hr

/-! ## How often a run rotates -/

omit [DecidableEq D] in
theorem countP_history_step (h : Honest env w content) :
    (honestStep env w c).history.countP AuditEntry.isHandoff =
      w.history.countP AuditEntry.isHandoff + if Rotates w then 1 else 0 := by
  obtain ⟨-, happended, -⟩ := h.step (c := c.toCall) rfl
  unfold honestStep
  rcases happended.history h.toLive rfl with ⟨hsmall, hhistory⟩ | ⟨hlarge, hash, hhistory⟩
  · rw [if_neg fun hrot => absurd ((rotates_iff h).1 hrot) (by omega), hhistory,
      countP_append]
    simp [HonestCall.toCall, isHandoff_chained]
  · have hhandoff : (handoffRow env c.toCall (rotatedName env w c.toCall)
        w.writer.lastHash).isHandoff = true := by
      unfold AuditEntry.isHandoff
      rw [show (handoffRow env c.toCall (rotatedName env w c.toCall) w.writer.lastHash).eventKind =
        .auditRotationHandoff (rotatedName env w c.toCall) from
          (truncateArgKeysIfNeeded_keeps _).eventKind]
    rw [if_pos ((rotates_iff h).2 hlarge), hhistory, countP_append, countP_append,
      countP_singleton, hhandoff]
    simp [HonestCall.toCall, isHandoff_chained]

omit [DecidableEq D] in
/-- **However short the rows are**, a file takes at most `rotationThresholdBytes` of them, `n` of
which are in the active file at the beginning. -/
theorem length_le_run_rotations (calls : List (HonestCall K)) (h : Honest env w content) {n : ℕ}
    (hcontent : n ≤ content.length) (hn : n ≤ rotationThresholdBytes) :
    n + calls.length + w.history.countP AuditEntry.isHandoff * rotationThresholdBytes ≤
      ((Runs.run (honestStep env) w calls).history.countP AuditEntry.isHandoff + 1) *
        rotationThresholdBytes := by
  induction calls generalizing w content n with
  | nil =>
    rw [Nat.add_mul]
    simp only [length_nil, Runs.run, foldl_nil]
    omega
  | cons c calls ih =>
    obtain ⟨content', happended, hnext⟩ := h.step (c := c.toCall) rfl
    have hlength := happended.length_pos h.toLive rfl hnext.toLive
    have hstep : (honestStep env w c).history.countP AuditEntry.isHandoff = _ :=
      countP_history_step h
    unfold honestStep at hstep
    by_cases hrotates : Rotates w
    · rw [if_pos ((rotates_iff h).1 hrotates)] at hlength
      have hrest := ih hnext hlength (by decide)
      rw [hstep, if_pos hrotates, Nat.add_mul] at hrest
      refine le_trans ?_ hrest
      rw [length_cons]
      omega
    · have hsmall : ¬ rotationThresholdBytes ≤ content.length := fun hlarge =>
        hrotates ((rotates_iff h).2 hlarge)
      rw [if_neg hsmall] at hlength
      rw [if_neg hrotates, Nat.add_zero] at hstep
      have hrest := ih (n := n + 1) hnext (by omega) (by omega)
      rw [hstep] at hrest
      refine le_trans ?_ hrest
      rw [length_cons]
      omega

/-! ## The logs that verify -/

omit [DecidableEq D] in
theorem not_tmp_stem (h : detectPartialRotation env (emptyLog env) [] = .ok ()) :
    ([46, 116, 109, 112] : Text).isSuffixOf env.stem = false := by
  rw [Bool.eq_false_iff]
  intro htmp
  have hfound : tmpFile (emptyLog env) = some env.stem := by
    unfold tmpFile
    rw [show (emptyLog env).files.keys = [env.stem] from rfl, List.find?_cons_of_pos htmp]
  unfold detectPartialRotation at h
  rw [hfound] at h
  split at h <;> cases h

theorem readings_of_verifyLog (hsha : env.hashes.sha256.Injective)
    (calls : List (HonestCall K)) (h : Honest env w content)
    (hsorted : (readings env w calls).Pairwise (· < ·))
    (hverify : verifyLog env (Runs.run (honestStep env) w calls).dir hmacKey = .ok ok) :
    ∀ r ∈ readings env w calls, r / 1000 < endOf2099 := by
  intro r hr
  obtain ⟨e, he, ms, hle, hts⟩ := exists_ts_of_mem_readings_run calls h hsorted hr
  have hhonest : ∃ content', Honest env (Runs.run (honestStep env) w calls) content' :=
    Runs.run_invariant (P := fun w => ∃ content, Honest env w content)
      (fun w c ⟨content, hw⟩ _ => by
        obtain ⟨content', -, hnext⟩ := hw.step (c := c.toCall) rfl
        exact ⟨content', hnext⟩) calls w ⟨content, h⟩ fun _ _ => trivial
  obtain ⟨content', hhonest⟩ := hhonest
  rw [← logEntries_eq_history hsha hhonest (ne_nil_of_mem he) hverify] at he
  obtain ⟨n, hparse⟩ := parse_of_mem_logEntries hverify he
  by_contra hlate
  refine absurd (hts ▸ hparse) (parse_iso8601Utc_error ?_ n)
  exact (Nat.le_of_not_lt hlate).trans (Nat.div_le_div_right hle)

section

variable {anchored : Bool} {adoptionRow : ℕ → Call K} {w₀ : World K}
  (hopen : openInner env (some key) anchored adoptionRow empty = .ok w₀)
  (calls : List (HonestCall K)) (hclock : (readings env w₀ calls).Pairwise (· < ·))
  (hread : ∀ r ∈ readings env w₀ calls, r / 1000 < endOf2099)

include hopen hclock hread

theorem layout_run :
    ∃ t gens active, Layout env key t (Runs.run (honestStep env) w₀ calls) gens active ∧
      (Runs.run (honestStep env) w₀ calls).writer.anchored = anchored := by
  obtain ⟨-, rfl⟩ := openInner_empty hopen
  exact layout_opened.run calls (fun r hr => ⟨Nat.zero_le r, hread r hr⟩) hclock

/-- **What the pruning leaves.**  The files hold the end of what was written, in order and each row
once.  Whole generations are missing in front of it, one for each rotation above the number of
archives that are kept, and the log opens again with the writer as it was. -/
theorem retained_of_run : ∃ w lost, Runs.run (honestStep env) w₀ calls = w ∧
    w.history = lost ++ logEntries env w.dir ∧ (∀ e ∈ lost.getLast?, e.isHandoff = true) ∧
    lost.countP AuditEntry.isHandoff = w.history.countP AuditEntry.isHandoff - maxRotatedFiles ∧
    openInner env (some key) anchored adoptionRow w.toSurroundings = .ok w := by
  obtain ⟨hdetect, -⟩ := openInner_empty hopen
  obtain ⟨t, gens, active, h, rfl⟩ := layout_run hopen calls hclock hread
  set lost := gens.take (gens.length - maxRotatedFiles) with hlost
  have hcomplete : ∀ g ∈ lost, Complete env t g := fun g hg => h.complete g (mem_of_mem_take hg)
  have hcount : (lost.flatMap Generation.entries ++ []).countP AuditEntry.isHandoff = lost.length :=
    countP_handoffs hcomplete (by simp)
  refine ⟨_, lost.flatMap Generation.entries, rfl, ?_, isHandoff_of_getLast hcomplete, ?_,
    openInner_of_layout h (not_tmp_stem hdetect)⟩
  · rw [logEntries_of_layout h, h.history, ← append_assoc, newest, ← flatMap_append, take_append_drop]
  · rw [append_nil] at hcount
    rw [hcount, h.history, countP_handoffs h.complete h.rows, hlost, length_take,
      min_eq_left (Nat.sub_le _ _)]

end

theorem rotations_of_verifyLog (hsha : env.hashes.sha256.Injective)
    (h : Layout env key t w gens active) (hverify : verifyLog env w.dir hmacKey = .ok ok) :
    w.history.countP AuditEntry.isHandoff ≤ maxRotatedFiles := by
  by_cases hne : w.history = []
  · rw [hne]
    exact Nat.zero_le _
  have hkept := logEntries_eq_history hsha h.honest hne hverify
  rw [logEntries_of_layout h, h.history] at hkept
  have hcount := congrArg (List.countP AuditEntry.isHandoff) hkept
  rw [countP_handoffs h.complete h.rows,
    countP_handoffs (fun g hg => h.complete g (mem_of_mem_newest hg)) h.rows] at hcount
  rw [h.history, countP_handoffs h.complete h.rows, ← hcount]
  exact length_newest_le gens

/-- **Which honest logs verify and open again.**  Those that lost no archive to the pruning and were
written before 2100. -/
theorem honest_log_accepted_iff (hsha : env.hashes.sha256.Injective)
    {anchored : Bool} {adoptionRow : ℕ → Call K} {w₀ : World K}
    (hopen : openInner env (some key) anchored adoptionRow empty = .ok w₀)
    (calls : List (HonestCall K)) (hclock : (readings env w₀ calls).Pairwise (· < ·)) :
    ((∃ ok, verifyLog env (Runs.run (honestStep env) w₀ calls).dir (some key) = .ok ok) ∧
      openInner env (some key) anchored adoptionRow
        (Runs.run (honestStep env) w₀ calls).toSurroundings =
          .ok (Runs.run (honestStep env) w₀ calls)) ↔
      (Runs.run (honestStep env) w₀ calls).history.countP AuditEntry.isHandoff ≤ maxRotatedFiles ∧
        ∀ r ∈ readings env w₀ calls, r / 1000 < endOf2099 := by
  obtain ⟨hdetect, heq⟩ := openInner_empty hopen
  constructor
  · rintro ⟨⟨ok, hverify⟩, -⟩
    have hread : ∀ r ∈ readings env w₀ calls, r / 1000 < endOf2099 := by
      subst heq
      exact readings_of_verifyLog hsha calls honest_opened hclock hverify
    obtain ⟨t, gens, active, h, -⟩ := layout_run hopen calls hclock hread
    exact ⟨rotations_of_verifyLog hsha h hverify, hread⟩
  · rintro ⟨hkept, hread⟩
    obtain ⟨t, gens, active, h, hanchored⟩ := layout_run hopen calls hclock hread
    rw [h.history, countP_handoffs h.complete h.rows] at hkept
    refine ⟨verifyLog_of_layout h hkept, ?_⟩
    rw [← hanchored]
    exact openInner_of_layout h (not_tmp_stem hdetect)

end

/-! ## Rows by the clock -/

section

open PlainLog

def plainRow (n : ℕ) : AuditEntry Unit :=
  { PlainLog.bareEntry (.other ()) [] with
    ts := iso8601Utc (3 * n)
    tool := Framing.utf8 "stellar_pay" }

/-- The call for it, three milliseconds after the one before. -/
def plainCall (n : ℕ) : HonestCall Unit where
  entry := plainRow n
  entryMs := 3 * n
  ts_eq := rfl
  notHandoff := rfl
  rotationMs := 3 * n + 1
  handoffMs := 3 * n + 2
  handoffRequestId := []

def plainCalls (n k : ℕ) : List (HonestCall Unit) := (List.range' n k).map plainCall

theorem readings_plainCalls (k : ℕ) : ∀ (n : ℕ) (w : World Unit),
    (readings plainLog w (plainCalls n k)).Pairwise (· < ·) ∧
      ∀ r ∈ readings plainLog w (plainCalls n k), 3 * n ≤ r ∧ r < 3 * (n + k) := by
  induction k with
  | zero => exact fun n w => ⟨List.Pairwise.nil, by simp [plainCalls, readings]⟩
  | succ k ih =>
    intro n w
    obtain ⟨hsorted, hrange⟩ := ih (n + 1) (honestStep plainLog w (plainCall n))
    have hfirst : ((plainCall n).readings w).Pairwise (· < ·) ∧
        ∀ r ∈ (plainCall n).readings w, 3 * n ≤ r ∧ r < 3 * (n + 1) := by
      unfold HonestCall.readings plainCall
      split_ifs
      · simp
        omega
      · simp
    refine ⟨pairwise_append.2 ⟨hfirst.1, hsorted, fun r hr r' hr' => ?_⟩, fun r hr => ?_⟩
    · have h := hfirst.2 r hr
      have h' := hrange r' hr'
      omega
    · rcases mem_append.1 hr with hr | hr
      · have h := hfirst.2 r hr
        omega
      · have h := hrange r hr
        omega

def plainWriter (anchored : Bool) : World Unit :=
  openedWorld plainLog empty (some []) anchored (emptyLog plainLog) []
    ⟨zeroBlockHash plainLog, 0, 0⟩

theorem openInner_plainLog (anchored : Bool) (adoptionRow : ℕ → Call Unit) :
    openInner plainLog (some []) anchored adoptionRow empty = .ok (plainWriter anchored) := by
  have hdetect : detectPartialRotation plainLog (emptyLog plainLog) [] = .ok () := by decide +kernel
  rw [openInner_empty_eq]
  rfl

theorem honest_plainWriter (anchored : Bool) : Honest plainLog (plainWriter anchored) [] :=
  honest_opened

/-- The anchored log after `k` rows. -/
def plainRun (k : ℕ) : World Unit :=
  Runs.run (honestStep plainLog) (plainWriter true) (plainCalls 0 k)

theorem plainRun_succ (k : ℕ) : plainRun (k + 1) =
    honestStep plainLog (plainRun k) (plainCall k) := by
  have hcalls : plainCalls 0 (k + 1) = plainCalls 0 k ++ [plainCall k] := by
    simp [plainCalls, range'_concat]
  unfold plainRun
  rw [hcalls, Runs.run_append]
  rfl

theorem honest_plainRun (k : ℕ) : ∃ content, Honest plainLog (plainRun k) content := by
  induction k with
  | zero => exact ⟨[], honest_plainWriter true⟩
  | succ k ih =>
    obtain ⟨content, h⟩ := ih
    obtain ⟨content', -, hnext⟩ := h.step (c := (plainCall k).toCall) rfl
    rw [plainRun_succ]
    exact ⟨content', hnext⟩

theorem readings_plainRun {k : ℕ} (hk : k ≤ 12 * rotationThresholdBytes) :
    ∀ r ∈ readings plainLog (plainWriter true) (plainCalls 0 k), r / 1000 < endOf2099 := by
  intro r hr
  have hr := (readings_plainCalls k 0 _).2 r hr
  unfold rotationThresholdBytes at hk
  unfold endOf2099
  omega

theorem layout_plainRun {k : ℕ} (hk : k ≤ 12 * rotationThresholdBytes) :
    ∃ t gens active, Layout plainLog [] t (plainRun k) gens active ∧
      (plainRun k).writer.anchored = true :=
  layout_run (openInner_plainLog true fun _ => (plainCall 0).toCall) _
    (readings_plainCalls k 0 _).1 (readings_plainRun hk)

theorem le_plainRun_rotations (k : ℕ) :
    k ≤ ((plainRun k).history.countP AuditEntry.isHandoff + 1) * rotationThresholdBytes := by
  have hlength := length_le_run_rotations (plainCalls 0 k) (honest_plainWriter true)
    (Nat.zero_le _) (Nat.zero_le _)
  have hcalls : (plainCalls 0 k).length = k := by rw [plainCalls, length_map, length_range']
  have hnone : (plainWriter true).history.countP AuditEntry.isHandoff = 0 := rfl
  rw [hcalls, hnone, Nat.zero_mul, Nat.zero_add, Nat.add_zero] at hlength
  exact hlength

theorem plainRun_rotates : maxRotatedFiles <
    (plainRun (12 * rotationThresholdBytes)).history.countP AuditEntry.isHandoff := by
  have hlength := le_plainRun_rotations (12 * rotationThresholdBytes)
  generalize (plainRun (12 * rotationThresholdBytes)).history.countP AuditEntry.isHandoff = n
    at hlength
  have hle := Nat.le_of_mul_le_mul_right hlength (by decide)
  unfold maxRotatedFiles
  omega

/-- **Every number of rotations that is kept occurs**: a row adds at most one.  The run ends with
the row that made the last of them. -/
theorem exists_plainRun {n : ℕ} (hpos : 0 < n) (hn : n ≤ maxRotatedFiles) :
    ∃ k < 12 * rotationThresholdBytes,
      (plainRun (k + 1)).history.countP AuditEntry.isHandoff = n := by
  -- the first run with `n` rotations has no more of them
  have hreached : ∃ k, n ≤ (plainRun k).history.countP AuditEntry.isHandoff :=
    ⟨_, hn.trans plainRun_rotates.le⟩
  obtain ⟨first, hfirst, hleast⟩ := Nat.findX hreached
  have hbound : first ≤ 12 * rotationThresholdBytes := by
    by_contra hlt
    exact hleast _ (not_le.1 hlt) (hn.trans plainRun_rotates.le)
  cases first with
  | zero => exact absurd (hpos.trans_le hfirst) (lt_irrefl 0)
  | succ k =>
    obtain ⟨content, h⟩ := honest_plainRun k
    have hstep := countP_history_step (c := plainCall k) h
    rw [← plainRun_succ] at hstep
    have hle : (if Rotates (plainRun k) then 1 else 0) ≤ 1 := by split_ifs <;> omega
    have hlast := hleast k (Nat.lt_succ_self k)
    exact ⟨k, hbound, by omega⟩

/-- The newest row of a run is in the active file. -/
theorem active_ne_nil {k t : ℕ} {gens : List (Generation Unit)} {active : List (AuditEntry Unit)}
    (h : Layout plainLog [] t (plainRun (k + 1)) gens active) : active ≠ [] := by
  rintro rfl
  obtain ⟨content, hhonest⟩ := honest_plainRun k
  obtain ⟨-, happended, -⟩ := hhonest.step (c := (plainCall k).toCall) rfl
  have hlast : ∃ front e, (plainRun (k + 1)).history = front ++ [e] ∧ e.isHandoff = false := by
    rw [plainRun_succ]
    unfold honestStep
    rcases happended.history hhonest.toLive rfl with ⟨-, hhistory⟩ | ⟨-, hash, hhistory⟩
    · exact ⟨_, _, hhistory, isHandoff_chained (plainCall k) _⟩
    · exact ⟨_, _, hhistory, isHandoff_chained (plainCall k) _⟩
  obtain ⟨front, e, hhistory, hrow⟩ := hlast
  rw [h.history, append_nil] at hhistory
  have hhandoff := isHandoff_of_getLast h.complete e (by simp [hhistory])
  rw [hrow] at hhandoff
  cases hhandoff

/-- **A log with ten archives is accepted.** -/
theorem plain_log_accepted : ∃ k,
    (plainRun k).history.countP AuditEntry.isHandoff = maxRotatedFiles ∧
      (∃ ok, verifyLog plainLog (plainRun k).dir (some []) = .ok ok) ∧
      openInner plainLog (some []) true (fun _ => (plainCall 0).toCall)
        (plainRun k).toSurroundings = .ok (plainRun k) := by
  obtain ⟨k, hk, hrotations⟩ := exists_plainRun (n := maxRotatedFiles) (by decide) le_rfl
  refine ⟨k + 1, hrotations, (honest_log_accepted_iff plainHashes_injective
    (openInner_plainLog true _) (plainCalls 0 (k + 1)) (readings_plainCalls (k + 1) 0 _).1).2
    ⟨?_, readings_plainRun hk⟩⟩
  exact hrotations.le

/-- **After the eleventh rotation the log does not verify**: the oldest archive is gone and the next
one does not begin with the genesis hash. -/
theorem plain_log_rejected :
    openInner plainLog (some []) true (fun _ => (plainCall 0).toCall) empty =
        .ok (plainWriter true) ∧ (readings plainLog (plainWriter true)
        (plainCalls 0 (12 * rotationThresholdBytes))).Pairwise (· < ·) ∧
      ¬ ∃ ok, verifyLog plainLog (plainRun (12 * rotationThresholdBytes)).dir (some []) = .ok ok := by
  refine ⟨openInner_plainLog true _, (readings_plainCalls _ 0 _).1, ?_⟩
  rintro ⟨ok, hverify⟩
  obtain ⟨t, gens, active, h, -⟩ := layout_plainRun le_rfl
  have hrotations := plainRun_rotates
  exact absurd (rotations_of_verifyLog plainHashes_injective h hverify) (by omega)

/-- Rows are lost in the same run, and the files hold all the others. -/
theorem plain_log_pruned : ∃ w lost, plainRun (12 * rotationThresholdBytes) = w ∧ lost ≠ [] ∧
    w.history = lost ++ logEntries plainLog w.dir := by
  obtain ⟨w, lost, hw, hhistory, -, hcount, -⟩ := retained_of_run
    (openInner_plainLog true fun _ => (plainCall 0).toCall) _
    (readings_plainCalls (12 * rotationThresholdBytes) 0 _).1 (readings_plainRun le_rfl)
  refine ⟨w, lost, hw, fun hnil => ?_, hhistory⟩
  have hrotations := plainRun_rotates
  rw [show plainRun (12 * rotationThresholdBytes) = w from hw] at hrotations
  rw [hnil, countP_nil] at hcount
  omega

end

end AgentWallet.AuditLog.Retention
