import AgentWallet.AuditLog.Retention

/-!
# The writer's anchor check and the verifier's

Opening a log and verifying it both compare the stored anchor with the active file.  The verifier
compares the three numbers with the end of the last entry, the writer compares the offset with the
length of the file and never looks at the count.  They agree except on anchors that name the last
entry with another offset behind it or with another count (`open_agrees_with_walk_iff`).
-/

namespace AgentWallet.AuditLog.AnchorAgreement

open Base List Base.Checks
open Timestamps Entry Files Verify Writer HonestRuns Generations TamperEvidence Retention

variable {K D : Type} {env : LogEnv K D} {e : AuditEntry K} {content seed : Text}
  {scan : ChainScan} {s s' : Replay} {raw : Text} {raws : List Text}

/-- White space behind an object may be left out. -/
def TrimsEnd (json : Json K) : Prop :=
  ∀ l r e, r.all isAsciiWhitespace = true → json.fromSlice (l ++ r) = some e →
    json.fromSlice l = some e

/-! ## What a replay says -/

/-- The last entry of a file, the lines before it and those behind. -/
structure LastEntry (env : LogEnv K D) (raws : List Text) (offset : ℕ) (scan : ChainScan)
    (front : List Text) (raw : Text) (blanks : List Text) (e : AuditEntry K) : Prop where
  split : raws = front ++ raw :: blanks
  read : readLine env raw = some e
  hash : entryHash env e = some scan.lastHash
  blank : ∀ x ∈ blanks, ∀ b ∈ x, isAsciiWhitespace b = true
  endOffset : scan.endOffset = offset + (front.flatten ++ raw).length
  count : scan.entryCount ≠ 0

/-- **What a replay found**: nothing but white space, or the last entry of the file. -/
theorem replayLines_inv (h : raws.foldlM (replayLine env) s = .ok s') :
    ((∀ x ∈ raws, ∀ b ∈ x, isAsciiWhitespace b = true) ∧ s'.scan = s.scan) ∨
      ∃ front raw blanks e, LastEntry env raws s.consumed s'.scan front raw blanks e := by
  induction raws using List.reverseRecOn generalizing s' with
  | nil =>
    cases Except.ok.inj h
    exact .inl ⟨by simp, rfl⟩
  | append_singleton raws raw ih =>
    rw [foldlM_append] at h
    obtain ⟨s₁, hlines, hline⟩ := bind_eq_ok_iff.1 h
    have hline : replayLine env s₁ raw = .ok s' := by
      obtain ⟨s₂, hline, hnil⟩ := bind_eq_ok_iff.1 hline
      cases Except.ok.inj hnil
      exact hline
    rcases replayLine_inv hline with ⟨hblank, rfl⟩ | ⟨e, hash, hread, -, hhash, rfl⟩
    · have hraw := isAsciiWhitespace_of_strip hblank
      rcases ih hlines with ⟨hall, hscan⟩ | ⟨front, raw', blanks, e, hlast⟩
      · refine .inl ⟨fun x hx => ?_, hscan⟩
        rcases mem_append.1 hx with hx | hx
        · exact hall x hx
        · rw [mem_singleton.1 hx]
          exact hraw
      · refine .inr ⟨front, raw', blanks ++ [raw], e, ?_, hlast.read, hlast.hash, fun x hx => ?_,
          hlast.endOffset, hlast.count⟩
        · rw [hlast.split, append_assoc, cons_append]
        · rcases mem_append.1 hx with hx | hx
          · exact hlast.blank x hx
          · rw [mem_singleton.1 hx]
            exact hraw
    · refine .inr ⟨raws, raw, [], e, rfl, hread, hhash, by simp, ?_, Nat.succ_ne_zero _⟩
      show s₁.consumed + raw.length = _
      rw [replayLines_consumed hlines, length_append]
      omega

theorem mem_of_replayLines (h : raws.foldlM (replayLine env) s = .ok s') (hraw : raw ∈ raws) :
    ∃ s₁ s₂, replayLine env s₁ raw = .ok s₂ := by
  induction raws generalizing s with
  | nil => cases hraw
  | cons first raws ih =>
    obtain ⟨s₁, hline, hrest⟩ := bind_eq_ok_iff.1 h
    rcases mem_cons.1 hraw with rfl | hraw
    · exact ⟨s, s₁, hline⟩
    · exact ih hrest hraw

section

variable (h : readAndVerifyEntryChain env content 0 seed = .ok scan)
include h

theorem replay_ok :
    ∃ s, (Lines.rawLines 10 content).foldlM (replayLine env) ⟨⟨seed, 0, 0⟩, 0⟩ = .ok s ∧
      s.scan = scan := by
  unfold readAndVerifyEntryChain at h
  rw [drop_zero] at h
  rcases hfold : (Lines.rawLines 10 content).foldlM (replayLine env) ⟨⟨seed, 0, 0⟩, 0⟩ with err | s
  · rw [hfold] at h
    cases h
  · rw [hfold] at h
    exact ⟨s, rfl, Except.ok.inj h⟩

theorem replay_inv :
    ((∀ b ∈ content, isAsciiWhitespace b = true) ∧ scan = ⟨seed, 0, 0⟩) ∨ ∃ front raw blanks e,
        LastEntry env (Lines.rawLines 10 content) 0 scan front raw blanks e := by
  obtain ⟨s, hfold, rfl⟩ := replay_ok h
  rcases replayLines_inv hfold with ⟨hall, hscan⟩ | hlast
  · refine .inl ⟨fun b hb => ?_, hscan⟩
    have hflat : (Lines.rawLines 10 content).flatten = content := Lines.flatten_rawLines
    rw [← hflat] at hb
    obtain ⟨x, hx, hb⟩ := mem_flatten.1 hb
    exact hall x hx b hb
  · exact .inr hlast

theorem endOffset_le_length : scan.endOffset ≤ content.length := by
  rcases replay_inv h with ⟨-, rfl⟩ | ⟨front, raw, blanks, e, hlast⟩
  · exact Nat.zero_le _
  · have hflat : (Lines.rawLines 10 content).flatten = content := Lines.flatten_rawLines
    rw [hlast.split] at hflat
    rw [hlast.endOffset, ← hflat]
    simp

end

/-! ## The anchored entry -/

/-- The last line before an offset is an entry with the hash. -/
def intactAt (env : LogEnv K D) (content : Text) (endOffset : ℕ) (tipHash : Text) : Bool :=
  match readLastLineBefore content endOffset with
  | none => false
  | some l =>
    match env.json.fromSlice l with
    | none => false
    | some e => decide (entryHash env e = some tipHash)

theorem anchoredEntryIsIntact_eq {dir : Directory}
    (hfile : dir.files.lookup env.stem = some (.regular content)) (anchor : TipAnchor) :
    anchoredEntryIsIntact env dir anchor =
      .ok (intactAt env content anchor.endOffset anchor.tipHash) := by
  unfold anchoredEntryIsIntact intactAt
  rw [hfile]
  refine bind_eq_ok_iff.2 ⟨content, rfl, ?_⟩
  rcases readLastLineBefore content anchor.endOffset with _ | l
  · rfl
  · rcases he : env.json.fromSlice l with _ | e
    · simp [he]
    · simp [he]

theorem entryIsIntactAt_eq {w : World K} (hheld : w.heldContent = content)
    (hscan : readAndVerifyEntryChain env content 0 seed = .ok scan) (endOffset : ℕ)
    (tipHash : Text) :
    w.entryIsIntactAt env endOffset tipHash = .ok (intactAt env content endOffset tipHash) := by
  obtain ⟨s, hfold, -⟩ := replay_ok hscan
  have hlines : ∀ raw ∈ Lines.rawLines 10 content, (123 : UInt8) ∈ stripLineTerminator raw →
      ∃ e, readLine env raw = some e := by
    intro raw hraw hbrace
    obtain ⟨s₁, s₂, hline⟩ := mem_of_replayLines hfold hraw
    rcases replayLine_inv hline with ⟨hblank, -⟩ | ⟨e, hash, he, -⟩
    · exact absurd (all_eq_true.1 hblank 123 hbrace) (by decide)
    · exact ⟨e, he⟩
  unfold World.entryIsIntactAt intactAt
  rw [hheld]
  rcases hline : readLastLineBefore content endOffset with _ | l
  · rfl
  rcases he : env.json.fromSlice l with _ | e
  · simp [he]
  simp only [he]
  obtain ⟨front, rest, hentries, -⟩ := parsedEntries_of_readLastLineBefore hlines hline he
  have hmem : e ∈ parsedEntries env content := by
    rw [hentries]
    simp
  obtain ⟨raw, hraw, hread⟩ := mem_filterMap.1 hmem
  obtain ⟨s₁, s₂, hreplay⟩ := mem_of_replayLines hfold hraw
  rcases replayLine_inv hreplay with ⟨hblank, -⟩ | ⟨e', hash, he', -, hhash, -⟩
  · rw [readLine_eq_none_of_blank (isAsciiWhitespace_of_strip hblank)] at hread
    cases hread
  · rw [hread] at he'
    obtain rfl := Option.some.inj he'
    rw [hhash]
    simp

/-- **The backward scan finds the entry of a line** when only white space follows the line before
the offset. -/
theorem readLastLineBefore_of_line (htrim : TrimsEnd env.json) {front rest : List Text}
    (hsplit : Lines.rawLines 10 content = front ++ raw :: rest) (hread : readLine env raw = some e)
    {offset : ℕ} (hle : (front.flatten ++ raw).length ≤ offset)
    (hblank : ∀ b ∈ rest.flatten.take (offset - (front.flatten ++ raw).length),
      isAsciiWhitespace b = true) :
    ∃ l, readLastLineBefore content offset = some l ∧ env.json.fromSlice l = some e := by
  have hne : raw.rdropWhile isAsciiWhitespace ≠ [] := by
    intro hnil
    have hnone : readLine env raw = none :=
      readLine_eq_none_of_blank (rdropWhile_eq_nil_iff.1 hnil)
    rw [hread] at hnone
    cases hnone
  have hlastByte : isAsciiWhitespace ((raw.rdropWhile isAsciiWhitespace).getLast hne) = false := by
    simpa using rdropWhile_last_not isAsciiWhitespace raw hne
  refine ⟨raw.rdropWhile isAsciiWhitespace, ?_, ?_⟩
  · rw [readLastLineBefore_eq, Lines.lastLine_take (by decide) hsplit hne hle hblank,
      Option.map_some, stripLineTerminator_of_not_whitespace hne hlastByte]
  · -- what the writer of the line put behind the object is white space
    have hcut := rdropWhile_append_rtakeWhile (l := raw) (p := isAsciiWhitespace)
    obtain ⟨r, hstrip⟩ := exists_stripLineTerminator_append hne hlastByte
      (raw.rtakeWhile isAsciiWhitespace)
    have hshorter := stripLineTerminator_shortens
      (raw.rdropWhile isAsciiWhitespace ++ raw.rtakeWhile isAsciiWhitespace)
    rw [hstrip, prefix_append_right_inj] at hshorter
    rw [hcut] at hstrip
    unfold readLine at hread
    rw [hstrip] at hread
    refine htrim _ r e (all_eq_true.2 fun b hb => ?_) hread
    exact mem_rtakeWhile_imp (hshorter.subset hb)

theorem intactAt_iff (htrim : TrimsEnd env.json)
    (hscan : readAndVerifyEntryChain env content 0 seed = .ok scan) (hcount : scan.entryCount ≠ 0)
    {endOffset : ℕ} (hend : scan.endOffset ≤ endOffset) (tipHash : Text) :
    intactAt env content endOffset tipHash = true ↔ tipHash = scan.lastHash := by
  rcases replay_inv hscan with ⟨-, rfl⟩ | ⟨front, raw, blanks, e, hlast⟩
  · exact absurd rfl hcount
  have hlen : (front.flatten ++ raw).length ≤ endOffset := by
    rw [hlast.endOffset] at hend
    omega
  obtain ⟨l, hline, hread⟩ := readLastLineBefore_of_line htrim hlast.split hlast.read hlen
    fun b hb => by
      obtain ⟨x, hx, hb⟩ := mem_flatten.1 (mem_of_mem_take hb)
      exact hlast.blank x hx b hb
  unfold intactAt
  rw [hline]
  simp only [hread, hlast.hash, decide_eq_true_eq, Option.some.injEq]
  exact eq_comm

theorem intactAt_of_empty (hscan : readAndVerifyEntryChain env content 0 seed = .ok scan)
    (hcount : scan.entryCount = 0) (endOffset : ℕ) (tipHash : Text) :
    intactAt env content endOffset tipHash = false := by
  rcases replay_inv hscan with ⟨hall, -⟩ | ⟨front, raw, blanks, e, hlast⟩
  · have hnone : readLastLineBefore content endOffset = none := by
      rw [readLastLineBefore_eq]
      unfold Lines.lastLine
      rw [if_pos (rdropWhile_eq_nil_iff.2 fun b hb => hall b (mem_of_mem_take hb))]
      rfl
    unfold intactAt
    rw [hnone]
  · exact absurd hcount hlast.count

/-! ## The two refusals -/

section

variable {dir : Directory} {anchor : TipAnchor}

/-- The walk of the active file ends where its replay does. -/
def walkedTip (scan : ChainScan) : VerifiedTip := ⟨scan.entryCount, scan.lastHash, scan.endOffset⟩

def OpenRefuses {α : Type} (r : Except WriterError α) : Prop :=
  ∃ count offset len reason, r = .error (.tipAnchorMismatch count offset len reason)

def WalkRefuses (r : Except VerifyError Unit) : Prop :=
  ∃ count offset actual actualOffset reason,
    r = .error (.tipAnchorMismatch count offset actual actualOffset reason)

theorem not_openRefuses_ok {α : Type} (a : α) : ¬ OpenRefuses (.ok a) := by
  rintro ⟨_, _, _, _, h⟩
  cases h

theorem not_walkRefuses_ok (u : Unit) : ¬ WalkRefuses (.ok u) := by
  rintro ⟨_, _, _, _, _, h⟩
  cases h

theorem not_openRefuses_replayLines (raws : List Text) (s : Replay) :
    ¬ OpenRefuses (raws.foldlM (replayLine env) s) := by
  induction raws generalizing s with
  | nil => exact not_openRefuses_ok s
  | cons raw raws ih =>
    rw [foldlM_cons]
    rcases hline : replayLine env s raw with err | s₁
    · rintro ⟨_, _, _, _, h⟩
      cases Except.error.inj h
      unfold replayLine replayEntry at hline
      split_ifs at hline
      split at hline
      · cases hline
      · split_ifs at hline
        · cases hline
        · split at hline <;> cases hline
    · exact ih s₁

theorem not_openRefuses_advanceAnchor (w : World K) : ¬ OpenRefuses (advanceAnchor env w anchor) := by
  rintro ⟨_, _, _, _, h⟩
  unfold advanceAnchor readAndVerifyEntryChain at h
  rcases hfold : (Lines.rawLines 10 (w.heldContent.drop anchor.endOffset)).foldlM (replayLine env)
      ⟨⟨anchor.tipHash, 0, anchor.endOffset⟩, anchor.endOffset⟩ with err | s
  · rw [hfold] at h
    cases Except.error.inj h
    exact not_openRefuses_replayLines _ _ ⟨_, _, _, _, hfold⟩
  · rw [hfold] at h
    cases h

/-- **When the writer refuses the anchor.** -/
theorem openRefuses_reconcile_iff [DecidableEq D] {w : World K} (hheld : w.heldContent = content)
    (hlen : w.pathLen env = content.length) (hseed : initialChainSeed env w.dir = .ok seed)
    (hscan : readAndVerifyEntryChain env content 0 seed = .ok scan)
    (hstored : w.storedAnchor = some anchor) : OpenRefuses (reconcileTipAnchor env w) ↔
      seed ≠ anchor.tipHash ∧ (content.length < anchor.endOffset ∨
        intactAt env content anchor.endOffset anchor.tipHash = false) := by
  have hreplay : replayActiveFile env w = .ok scan := by
    unfold replayActiveFile
    rw [hseed, hheld]
    exact hscan
  unfold reconcileTipAnchor
  rw [hstored]
  simp only [entryIsIntactAt_eq hheld hscan]
  show OpenRefuses (if _ then _ else _) ↔ _
  split_ifs with hcurrent
  · simp only [not_openRefuses_ok, false_iff, not_and, not_or]
    exact fun _ => ⟨by omega, by simp [hcurrent.1]⟩
  · unfold reconcileBehind
    rw [hseed, hlen]
    dsimp only
    split_ifs with htip hshort hintact
    · unfold adoptRotatedFile
      rw [hreplay]
      exact iff_of_false (not_openRefuses_ok _) fun h => h.1 htip
    · exact iff_of_true ⟨_, _, _, _, rfl⟩ ⟨htip, .inl hshort⟩
    · exact iff_of_true ⟨_, _, _, _, rfl⟩ ⟨htip, .inr hintact⟩
    · refine iff_of_false (not_openRefuses_advanceAnchor w) ?_
      rintro ⟨-, h | h⟩
      · exact hshort h
      · exact hintact h

/-- **When the verifier refuses the anchor.** -/
theorem walkRefuses_iff (hfile : dir.files.lookup env.stem = some (.regular content))
    (hseed : initialChainSeed env dir = .ok seed) :
    WalkRefuses (checkAnchorAgainstWalk env dir anchor (some (walkedTip scan))) ↔
      ¬ (anchor.entryCount = scan.entryCount ∧ anchor.tipHash = scan.lastHash ∧
        anchor.endOffset = scan.endOffset) ∧ seed ≠ anchor.tipHash ∧
      (scan.endOffset ≤ anchor.endOffset ∨
        intactAt env content anchor.endOffset anchor.tipHash = false) := by
  have hmatches : anchor.matchesTip (walkedTip scan).entryCount (walkedTip scan).tipHash
      (walkedTip scan).endOffset = true ↔ anchor.entryCount = scan.entryCount ∧
        anchor.tipHash = scan.lastHash ∧ anchor.endOffset = scan.endOffset := by
    unfold TipAnchor.matchesTip walkedTip
    simp only [Bool.and_eq_true, decide_eq_true_eq]
    tauto
  have hhandoff : anchorNamesTheRotationHandoff env dir anchor = true ↔
      seed = anchor.tipHash := by
    unfold anchorNamesTheRotationHandoff
    rw [hseed]
    exact decide_eq_true_iff
  unfold checkAnchorAgainstWalk
  dsimp only
  split_ifs with hm hh
  · exact iff_of_false (not_walkRefuses_ok _) fun h => h.1 (hmatches.1 hm)
  · exact iff_of_false (not_walkRefuses_ok _) fun h => h.2.1 (hhandoff.1 hh)
  · have hm := fun h => hm (hmatches.2 h)
    have hh := fun h => hh (hhandoff.2 h)
    unfold checkAnchorBehind
    rw [anchoredEntryIsIntact_eq hfile]
    by_cases hshort : (walkedTip scan).endOffset < anchor.endOffset
    · rw [if_pos hshort]
      refine iff_of_true ⟨_, _, _, _, _, rfl⟩ ⟨hm, hh, .inl ?_⟩
      exact hshort.le
    · rw [if_neg hshort]
      show WalkRefuses (if intactAt env content anchor.endOffset anchor.tipHash = false then
        Except.error _ else if (walkedTip scan).endOffset = anchor.endOffset then Except.error _
          else Except.ok ()) ↔ _
      split_ifs with hintact hequal
      · exact iff_of_true ⟨_, _, _, _, _, rfl⟩ ⟨hm, hh, .inr hintact⟩
      · exact iff_of_true ⟨_, _, _, _, _, rfl⟩ ⟨hm, hh, .inl hequal.le⟩
      · refine iff_of_false (not_walkRefuses_ok _) ?_
        rintro ⟨-, -, h | h⟩
        · have hle : (walkedTip scan).endOffset ≤ anchor.endOffset := h
          omega
        · exact hintact h

end

/-! ## The walk and the replay -/

section

variable [DecidableEq D] {dir : Directory} {ctx : FileContext} {w w' : Walk} {p : Text}
  {hmacKey : Option Text}

/-- The walk and the replay are at the same entry; they began with `p` and `seed`. -/
structure Follows (p seed : Text) (w : Walk) (s : Replay) : Prop where
  entries : w.entries = s.scan.entryCount
  endOffset : w.endOffset = s.scan.endOffset
  consumed : w.consumed = s.consumed
  start : s.scan.entryCount = 0 → w.prevHash = p ∧ s.scan.lastHash = seed
  tip : s.scan.entryCount ≠ 0 → w.prevHash = s.scan.lastHash

theorem Follows.line (h : Follows p seed w s) (hverify : verifyLine env dir ctx w raw = .ok w')
    (hreplay : replayLine env s raw = .ok s') : Follows p seed w' s' := by
  rcases verifyLine_inv hverify with ⟨text, htext, hblank, rfl⟩ |
    ⟨e, he, -, hhash, -, hentries, hend, hconsumed⟩
  · rcases replayLine_inv hreplay with ⟨-, rfl⟩ | ⟨e, hash, he, -⟩
    · exact ⟨h.entries, h.endOffset, congrArg (· + raw.length) h.consumed, h.start, h.tip⟩
    · have hnone : readLine env raw = none := fromSlice_eq_none_of_isBlank htext hblank
      rw [hnone] at he
      cases he
  · rcases replayLine_inv hreplay with ⟨hblank, -⟩ | ⟨e', hash, he', -, hhash', rfl⟩
    · rw [readLine_eq_none_of_blank (isAsciiWhitespace_of_strip hblank)] at he
      cases he
    · rw [he] at he'
      obtain rfl := Option.some.inj he'
      refine ⟨by rw [hentries, h.entries], by rw [hend, h.consumed], by rw [hconsumed, h.consumed],
        fun hzero => absurd hzero (Nat.succ_ne_zero _), fun _ => ?_⟩
      exact Option.some.inj (hhash.symm.trans hhash')

theorem Follows.lines (h : Follows p seed w s)
    (hverify : raws.foldlM (verifyLine env dir ctx) w = .ok w')
    (hreplay : raws.foldlM (replayLine env) s = .ok s') : Follows p seed w' s' := by
  induction raws generalizing w s with
  | nil =>
    cases Except.ok.inj hverify
    cases Except.ok.inj hreplay
    exact h
  | cons raw raws ih =>
    obtain ⟨w₁, hline, hverify⟩ := bind_eq_ok_iff.1 hverify
    obtain ⟨s₁, hline', hreplay⟩ := bind_eq_ok_iff.1 hreplay
    exact ih (h.line hline hline') hverify hreplay

theorem lastHandoff_of_blank (h : raws.foldlM (verifyLine env dir ctx) w = .ok w')
    (hblank : ∀ raw ∈ raws, readLine env raw = none) :
    w'.lastHandoffNextFile = w.lastHandoffNextFile := by
  induction raws generalizing w with
  | nil =>
    cases Except.ok.inj h
    rfl
  | cons raw raws ih =>
    obtain ⟨w₁, hline, hrest⟩ := bind_eq_ok_iff.1 h
    rw [ih hrest fun r hr => hblank r (mem_cons_of_mem _ hr)]
    rcases verifyLine_inv hline with ⟨text, -, -, rfl⟩ | ⟨e, he, -⟩
    · rfl
    · rw [hblank raw mem_cons_self] at he
      cases he

theorem archiveSeed_of_walk (hlines : (Lines.rawLines 10 content).foldlM (verifyLine env dir ctx) w =
      .ok w') (hstart : w.lastHandoffNextFile = none) (hhandoff : w'.lastHandoffNextFile ≠ none)
    {name : Text} (hseed : archiveSeed env name content = .ok seed) : seed = w'.prevHash := by
  unfold archiveSeed at hseed
  rcases hline : readLastLineBefore content content.length with _ | l
  · -- a file of white space has no handoff
    refine absurd ((lastHandoff_of_blank hlines fun raw hraw => ?_).trans hstart) hhandoff
    rw [readLastLineBefore_eq, Option.map_eq_none_iff, take_length] at hline
    unfold Lines.lastLine at hline
    split_ifs at hline with hblank
    refine readLine_eq_none_of_blank fun b hb => rdropWhile_eq_nil_iff.1 hblank b ?_
    have hflat : (Lines.rawLines 10 content).flatten = content := Lines.flatten_rawLines
    rw [← hflat]
    exact mem_flatten.2 ⟨raw, hraw, hb⟩
  · rw [hline] at hseed
    rcases he : env.json.fromSlice l with _ | e
    · simp only [he] at hseed
      cases hseed
    simp only [he] at hseed
    obtain ⟨front, rest, hentries, hrest⟩ := parsedEntries_of_readLastLineBefore
      (fun raw hraw => readLine_of_verifyLines hlines hraw) hline he
    rw [hrest le_rfl] at hentries
    have hlinked : Linked env w.prevHash (parsedEntries env content) w'.prevHash :=
      verifyLines_inv hlines
    rw [hentries] at hlinked
    have hhash := (HashChain.linked_snoc.1 hlinked).2
    exact Option.some.inj ((handoffSeed_inv hseed).symm.trans hhash)

/-- **The walk of the archives ends at the seed of the active file.** -/
theorem tip_eq_seed {q : Progress}
    (hfiles : (archives env dir).foldlM (verifyFile env dir hmacKey false) initialProgress = .ok q)
    (hseed : initialChainSeed env dir = .ok seed) : q.tip env = seed := by
  rcases eq_nil_or_concat' (archives env dir) with hnil | ⟨older, newest, hnames⟩
  · rw [hnil] at hfiles
    cases Except.ok.inj hfiles
    rw [initialChainSeed_of_archives_nil hnil] at hseed
    exact Except.ok.inj hseed
  · rw [hnames, foldlM_append] at hfiles
    obtain ⟨q₁, -, hlast⟩ := bind_eq_ok_iff.1 hfiles
    obtain ⟨q₂, hfile, hnil⟩ := bind_eq_ok_iff.1 hlast
    cases Except.ok.inj hnil
    obtain ⟨w, hw, rfl⟩ := verifyFile_inv hfile
    obtain ⟨content, hcontent, hlines, hcheck⟩ := verifySingleFile_inv hw
    have hcontent : dir.files.lookup newest = some (.regular content) := hcontent
    have hhandoff : w.lastHandoffNextFile ≠ none := by
      intro hnone
      unfold checkHandoff fileContext at hcheck
      simp only [hnone] at hcheck
      cases hcheck
    unfold initialChainSeed collectFileChain at hseed
    split_ifs at hseed
    simp only [dropLast_concat, hnames, List.getLast?_append_cons, List.getLast?_singleton,
      hcontent] at hseed
    exact (archiveSeed_of_walk hlines rfl hhandoff hseed).symm

/-- **The tip an accepted walk reports is where the active file's replay ends.** -/
theorem activeTip_eq_walkedTip (hfile : dir.files.lookup env.stem = some (.regular content))
    (hseed : initialChainSeed env dir = .ok seed)
    (hscan : readAndVerifyEntryChain env content 0 seed = .ok scan) {ok : VerifyOk}
    (hverify : verifyLog env dir hmacKey = .ok ok) : ok.activeTip = some (walkedTip scan) := by
  obtain ⟨q, tip, hfiles, ⟨w, hw, rfl⟩, htip, -⟩ := verifyLog_inv hverify
  obtain ⟨content', hcontent, hlines, -⟩ := verifySingleFile_inv hw
  obtain rfl : content' = content := by
    have heq := (show dir.files.lookup env.stem = _ from hcontent).symm.trans hfile
    simpa using heq
  obtain ⟨s, hreplay, rfl⟩ := replay_ok hscan
  have hfollows : Follows (q.tip env) seed w s :=
    Follows.lines ⟨rfl, rfl, rfl, fun _ => ⟨rfl, rfl⟩, fun hne => absurd rfl hne⟩ hlines hreplay
  have hprev : w.prevHash = s.scan.lastHash := by
    by_cases hzero : s.scan.entryCount = 0
    · obtain ⟨hp, hs⟩ := hfollows.start hzero
      rw [hp, hs, tip_eq_seed hfiles hseed]
    · exact hfollows.tip hzero
  rw [htip, walkedTip, hfollows.entries, hfollows.endOffset, hprev]

end

/-! ## Opening and verifying -/

section

variable [DecidableEq D] {sur : Surroundings K} {anchor : TipAnchor} {hmacKey : Option Text}
  {adoptionRow : ℕ → Call K}

theorem openRefuses_bind_ok {α β : Type} (r : Except WriterError α) (f : α → β) :
    OpenRefuses (r >>= fun a => .ok (f a)) ↔ OpenRefuses r := by
  rcases r with err | a
  · constructor
    · rintro ⟨_, _, _, _, h⟩
      cases Except.error.inj h
      exact ⟨_, _, _, _, rfl⟩
    · rintro ⟨_, _, _, _, h⟩
      cases Except.error.inj h
      exact ⟨_, _, _, _, rfl⟩
  · exact iff_of_false (not_openRefuses_ok _) (not_openRefuses_ok _)

omit [DecidableEq D] in
theorem openScan_eq (hscan : readAndVerifyEntryChain env content 0 seed = .ok scan) :
    openScan env content seed = .ok scan := by
  unfold openScan
  split_ifs with hempty
  · rw [hempty] at hscan
    exact hscan
  · exact hscan

omit [DecidableEq D] in
theorem detectPartialRotation_inv (env : LogEnv K D) (dir : Directory) (content : Text) :
    detectPartialRotation env dir content = .ok () ∨ ∃ state,
      detectPartialRotation env dir content =
        .error (.integrityViolation (.partialRotation state)) := by
  unfold detectPartialRotation
  rcases orphanSidecar env dir with _ | name
  · rcases tmpFile dir with _ | name
    · rcases detectPartialLastEntry env content with _ | state
      · exact .inl rfl
      · exact .inr ⟨state, rfl⟩
    · exact .inr ⟨_, rfl⟩
  · exact .inr ⟨_, rfl⟩

/-- **When a log does not open because of its anchor.** -/
theorem openRefuses_iff (hfile : sur.dir.files.lookup env.stem = some (.regular content))
    (hseed : initialChainSeed env sur.dir = .ok seed)
    (hscan : readAndVerifyEntryChain env content 0 seed = .ok scan)
    (hstored : sur.storedAnchor = some anchor) :
    OpenRefuses (openInner env hmacKey true adoptionRow sur) ↔
      detectPartialRotation env sur.dir content = .ok () ∧ seed ≠ anchor.tipHash ∧
        (content.length < anchor.endOffset ∨
          intactAt env content anchor.endOffset anchor.tipHash = false) := by
  have hopen : openAppend env sur.dir = .ok (sur.dir, content) := by
    unfold openAppend
    rw [hfile]
  unfold openInner
  rw [hopen]
  show OpenRefuses (detectPartialRotation env sur.dir content >>= _) ↔ _
  by_cases hdetect : detectPartialRotation env sur.dir content = .ok ()
  · rw [hdetect, hseed]
    show OpenRefuses (openScan env content seed >>= _) ↔ _
    rw [openScan_eq hscan]
    set w := openedWorld env sur hmacKey true sur.dir content scan
    have hheld : w.heldContent = content := by
      unfold World.heldContent
      rw [show w.dir.files.lookup w.writer.heldName = _ from hfile]
    have hlen : w.pathLen env = content.length := by
      unfold World.pathLen
      rw [show w.dir.files.lookup env.stem = _ from hfile]
    have hreconcile := openRefuses_reconcile_iff hheld hlen hseed hscan hstored
    simp only [true_and]
    rw [← hreconcile]
    exact openRefuses_bind_ok (reconcileTipAnchor env w) _
  · obtain ⟨state, hstate⟩ := (detectPartialRotation_inv env sur.dir content).resolve_left hdetect
    refine iff_of_false ?_ fun h => hdetect h.1
    rw [hstate]
    rintro ⟨_, _, _, _, h⟩
    cases Except.error.inj h

/-- **Which anchors the writer and the verifier agree on.**  The tip an accepted walk reports is the
one the replay of the active file finds; and with that tip the two refusals coincide exactly when an
anchor that names neither the tip nor the handoff, at or behind the last entry or without its entry,
meets no finding of a partial rotation, and an anchor that names the last entry, with an offset in
the white space behind it, has that entry's offset and count. -/
theorem open_agrees_with_walk_iff (htrim : TrimsEnd env.json)
    (hfile : sur.dir.files.lookup env.stem = some (.regular content))
    (hseed : initialChainSeed env sur.dir = .ok seed)
    (hscan : readAndVerifyEntryChain env content 0 seed = .ok scan)
    (hstored : sur.storedAnchor = some anchor) :
    (∀ key ok, verifyLog env sur.dir key = .ok ok → ok.activeTip = some (walkedTip scan)) ∧
    ((OpenRefuses (openInner env hmacKey true adoptionRow sur) ↔
        WalkRefuses (checkAnchorAgainstWalk env sur.dir anchor (some (walkedTip scan)))) ↔
      (¬ (anchor.entryCount = scan.entryCount ∧ anchor.tipHash = scan.lastHash ∧
          anchor.endOffset = scan.endOffset) ∧ seed ≠ anchor.tipHash ∧
        (scan.endOffset ≤ anchor.endOffset ∨
          intactAt env content anchor.endOffset anchor.tipHash = false) →
        detectPartialRotation env sur.dir content = .ok ()) ∧
      (detectPartialRotation env sur.dir content = .ok () → seed ≠ anchor.tipHash →
        anchor.tipHash = scan.lastHash → scan.endOffset ≤ anchor.endOffset →
        anchor.endOffset ≤ content.length →
        anchor.endOffset = scan.endOffset ∧ anchor.entryCount = scan.entryCount)) := by
  refine ⟨fun key ok hverify => activeTip_eq_walkedTip hfile hseed hscan hverify, ?_⟩
  rw [openRefuses_iff hfile hseed hscan hstored, walkRefuses_iff hfile hseed]
  have hlen := endOffset_le_length hscan
  have hempty : scan.entryCount = 0 → scan.lastHash = seed ∧
      intactAt env content anchor.endOffset anchor.tipHash = false := by
    intro hzero
    refine ⟨?_, intactAt_of_empty hscan hzero _ _⟩
    rcases replay_inv hscan with ⟨-, rfl⟩ | ⟨front, raw, blanks, e, hlast⟩
    · rfl
    · exact absurd hzero hlast.count
  have hintact : scan.entryCount ≠ 0 → scan.endOffset ≤ anchor.endOffset →
      (intactAt env content anchor.endOffset anchor.tipHash = false ↔
        anchor.tipHash ≠ scan.lastHash) := by
    intro hcount hend
    rw [Bool.eq_false_iff, ne_eq, intactAt_iff htrim hscan hcount hend]
  by_cases hdetect : detectPartialRotation env sur.dir content = .ok ()
  · simp only [hdetect, implies_true]
    by_cases htip : seed = anchor.tipHash
    · simp [htip]
    rcases Nat.lt_or_ge anchor.endOffset scan.endOffset with hbefore | hbehind
    · -- an offset inside the file: both look at the entry that ends there
      have hne : ¬ anchor.endOffset = scan.endOffset := by omega
      have hnotLong : ¬ content.length < anchor.endOffset := by omega
      have hnotLe : ¬ scan.endOffset ≤ anchor.endOffset := by omega
      simp [hne, hnotLong, hnotLe]
    · by_cases hzero : scan.entryCount = 0
      · obtain ⟨hlast, hfalse⟩ := hempty hzero
        have hne : ¬ anchor.tipHash = scan.lastHash := by
          rw [hlast]
          exact fun h => htip h.symm
        simp [htip, hfalse, hne]
      · rw [hintact hzero hbehind]
        by_cases hlast : anchor.tipHash = scan.lastHash
        · -- the anchor names the last entry: the writer looks at the length only
          rcases Nat.lt_or_ge content.length anchor.endOffset with hlong | hshort
          · have hne : ¬ anchor.endOffset = scan.endOffset := by omega
            have hnotLe : ¬ anchor.endOffset ≤ content.length := by omega
            simp [htip, hbehind, hlong, hne, hnotLe]
          · have hnotLong : ¬ content.length < anchor.endOffset := by omega
            have hseedLast : ¬ seed = scan.lastHash := fun h => htip (h.trans hlast.symm)
            simp only [hnotLong, hshort, hbehind, hlast, hseedLast, ne_eq, not_true_eq_false,
              not_false_eq_true, or_false, and_false, and_true, true_and, false_iff, not_not,
              true_implies]
            exact and_comm
        · simp [htip, hlast]
  · simp [hdetect]

end

/-! ## An honest log -/

section

variable {key : Text} {t : ℕ} {w : World K} {gens : List (Generation K)}
  {active : List (AuditEntry K)}

theorem replay_of_layout (h : Layout env key t w gens active) :
    ∃ seed, initialChainSeed env w.dir = .ok seed ∧ Linked env seed active w.writer.lastHash ∧
      readAndVerifyEntryChain env (lines env active) 0 seed =
        .ok ⟨w.writer.lastHash, w.writer.entryCount, w.writer.endOffset⟩ := by
  obtain ⟨seed, hseed, hlinked⟩ := initialChainSeed_of_layout h
  refine ⟨seed, hseed, hlinked, ?_⟩
  rw [h.count, h.honest.endOffset]
  exact replay_lines hlinked

/-- **The verifier accepts an honest log's own anchor.** -/
theorem anchor_accepted_of_layout [DecidableEq D] (h : Layout env key t w gens active)
    {hmacKey : Option Text} {ok : VerifyOk} (hverify : verifyLog env w.dir hmacKey = .ok ok) :
    checkAnchorAgainstWalk env w.dir
      ⟨w.writer.entryCount, w.writer.lastHash, w.writer.endOffset⟩ ok.activeTip = .ok () := by
  obtain ⟨seed, hseed, -, hscan⟩ := replay_of_layout h
  rw [activeTip_eq_walkedTip h.holds.file hseed hscan hverify]
  unfold checkAnchorAgainstWalk
  simp [TipAnchor.matchesTip, walkedTip]

/-- The same log under an anchor with another count. -/
def recounted (w : World K) : Surroundings K :=
  { w.toSurroundings with
    storedAnchor := some ⟨w.writer.entryCount + 1, w.writer.lastHash, w.writer.endOffset⟩ }

/-- **A count that is too high is refused by the verifier only.** -/
theorem recounted_of_layout [DecidableEq D] (hsha : env.hashes.sha256.Injective)
    (htrim : TrimsEnd env.json) (h : Layout env key t w [] active) (hactive : active ≠ [])
    (hmacKey : Option Text) (adoptionRow : ℕ → Call K) : ∃ content seed scan anchor,
    (recounted w).dir.files.lookup env.stem = some (.regular content) ∧
      initialChainSeed env (recounted w).dir = .ok seed ∧
      readAndVerifyEntryChain env content 0 seed = .ok scan ∧
      (recounted w).storedAnchor = some anchor ∧
      ¬ OpenRefuses (openInner env hmacKey true adoptionRow (recounted w)) ∧ WalkRefuses
        (checkAnchorAgainstWalk env (recounted w).dir anchor (some (walkedTip scan))) := by
  obtain ⟨seed, hseed, hlinked, hscan⟩ := replay_of_layout h
  have hroot : seed = zeroBlockHash env := by
    rw [initialChainSeed_of_archives_nil (h.holds.names.trans rfl)] at hseed
    exact (Except.ok.inj hseed).symm
  have htip : seed ≠ w.writer.lastHash := by
    rw [hroot] at hlinked ⊢
    exact (hlinked.tip_ne hactive (entryHash_ne_zeroBlockHash hsha)).symm
  have hcount : w.writer.entryCount ≠ 0 := by
    rw [h.count]
    exact fun hzero => hactive (length_eq_zero_iff.1 hzero)
  have hfile : (recounted w).dir.files.lookup env.stem = some (.regular (lines env active)) :=
    h.holds.file
  refine ⟨lines env active, seed, _, _, hfile, hseed, hscan, rfl, ?_, ?_⟩
  · rw [openRefuses_iff hfile hseed hscan rfl]
    rintro ⟨-, -, hlong | hintact⟩
    · rw [h.honest.endOffset] at hlong
      exact absurd hlong (lt_irrefl _)
    · have htrue := (intactAt_iff htrim hscan hcount le_rfl w.writer.lastHash).2 rfl
      rw [hintact] at htrue
      cases htrue
  · rw [walkRefuses_iff hfile hseed]
    exact ⟨fun hm => absurd hm.1 (Nat.succ_ne_self _), htip, .inl le_rfl⟩

end

/-! ## The plain log -/

section

open PlainLog

theorem trimsEnd_plainJson : TrimsEnd plainLog.json := by
  intro l r e hr he
  rcases eq_nil_or_concat' r with rfl | ⟨r, b, rfl⟩
  · rw [append_nil] at he
    exact he
  · have hclosed := plainLog.json.toVec_closed e
    have heq : l ++ (r ++ [b]) = plainLog.json.toVec e := (plainToVec_of_fromSlice he).symm
    rw [← heq, ← append_assoc, List.getLast?_concat] at hclosed
    have hb := all_eq_true.1 hr b (by simp)
    rw [Option.some.inj hclosed] at hb
    exact absurd hb (by decide)

theorem layout_oneRow : ∃ t active, Layout plainLog [] t (plainRun 1) [] active ∧ active ≠ [] := by
  obtain ⟨t, gens, active, h, -⟩ := layout_plainRun (k := 1) (by decide)
  have hrotates : ¬ Rotates (plainWriter true) := fun hrot =>
    absurd ((rotates_iff (honest_plainWriter true)).1 hrot) (by decide)
  have hcount : (plainRun 1).history.countP AuditEntry.isHandoff = 0 := by
    have hnew : plainRun 0 = plainWriter true := rfl
    rw [plainRun_succ, hnew, countP_history_step (honest_plainWriter true), if_neg hrotates]
    rfl
  have hgens : gens = [] := by
    rw [← length_eq_zero_iff, ← countP_handoffs h.complete h.rows, ← h.history]
    exact hcount
  subst hgens
  exact ⟨t, active, h, active_ne_nil h⟩

/-- The anchor says two entries, the file has one. -/
theorem recounted_disagrees : ∃ content seed scan anchor,
    (recounted (plainRun 1)).dir.files.lookup plainLog.stem = some (.regular content) ∧
      initialChainSeed plainLog (recounted (plainRun 1)).dir = .ok seed ∧
      readAndVerifyEntryChain plainLog content 0 seed = .ok scan ∧
      (recounted (plainRun 1)).storedAnchor = some anchor ∧
      ¬ OpenRefuses (openInner plainLog (some []) true (fun _ => (plainCall 0).toCall)
        (recounted (plainRun 1))) ∧
      WalkRefuses (checkAnchorAgainstWalk plainLog (recounted (plainRun 1)).dir anchor
        (some (walkedTip scan))) := by
  obtain ⟨t, active, h, hactive⟩ := layout_oneRow
  exact recounted_of_layout plainHashes_injective trimsEnd_plainJson h hactive _ _

/-- A run of rows with a rotation: an archive, an active file with rows in it, and the anchor of the
newest. -/
theorem exists_rotated : ∃ k t gens active, Layout plainLog [] t (plainRun k) gens active ∧
    gens.length = 1 ∧ active ≠ [] ∧ (plainRun k).storedAnchor =
      some ⟨(plainRun k).writer.entryCount, (plainRun k).writer.lastHash,
        (plainRun k).writer.endOffset⟩ := by
  obtain ⟨k, hk, hrotations⟩ := exists_plainRun (n := 1) (by decide) (by decide)
  obtain ⟨t, gens, active, h, hanchored⟩ := layout_plainRun hk
  have hactive := active_ne_nil h
  have hhistory : (plainRun (k + 1)).history ≠ [] := by
    rw [h.history]
    simp [hactive]
  refine ⟨k + 1, t, gens, active, h, ?_, hactive, ?_⟩
  · rw [← countP_handoffs h.complete h.rows, ← h.history]
    exact hrotations
  · rw [h.honest.anchor, if_pos ⟨hanchored, hhistory⟩]

/-- The writer and the verifier agree on the anchor that was stored behind a rotation. -/
theorem rotated_agrees : ∃ k scan anchor, (plainRun k).storedAnchor = some anchor ∧
      (OpenRefuses (openInner plainLog (some []) true (fun _ => (plainCall 0).toCall)
          (plainRun k).toSurroundings) ↔ WalkRefuses
          (checkAnchorAgainstWalk plainLog (plainRun k).dir anchor (some (walkedTip scan)))) := by
  obtain ⟨k, t, gens, active, h, hgens, -, hstored⟩ := exists_rotated
  obtain ⟨seed, hseed, -, hscan⟩ := replay_of_layout h
  refine ⟨k, _, _, hstored, (open_agrees_with_walk_iff trimsEnd_plainJson h.holds.file hseed hscan
    hstored).2.2 ⟨fun _ => ?_, fun _ _ _ _ _ => ⟨rfl, rfl⟩⟩⟩
  exact detectPartialRotation_of_layout h (by decide)

/-- A log with a rotation, verified as it was written. -/
theorem rotated_tamper_evident : ∃ k, (plainRun k).history.countP AuditEntry.isHandoff = 1 ∧
    (plainRun k).history <+: logEntries plainLog (plainRun k).dir := by
  obtain ⟨k, t, gens, active, h, hgens, -, hstored⟩ := exists_rotated
  have hrun : Runs.run (step plainLog) (plainWriter true)
      ((plainCalls 0 k).map HonestCall.toCall) = plainRun k := foldl_map
  refine ⟨k, ?_, ?_⟩
  · rw [h.history, countP_handoffs h.complete h.rows, hgens]
  obtain ⟨ok, hverify⟩ := verifyLog_of_layout h (by rw [hgens]; decide)
  have hevident := anchored_verification_tamper_evident plainHashes_injective
    (openInner_plainLog true fun _ => (plainCall 0).toCall) ((plainCalls 0 k).map HonestCall.toCall)
    (by simp [HonestCall.toCall]) (by rw [hrun]; exact hstored) hverify
    (anchor_accepted_of_layout h hverify)
  rwa [hrun] at hevident

end

end AgentWallet.AuditLog.AnchorAgreement
