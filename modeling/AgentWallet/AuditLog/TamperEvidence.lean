import AgentWallet.AuditLog.HonestRuns
import AgentWallet.AuditLog.Verify

/-!
# Anchored verification is tamper evident

An anchor is accepted against a directory in three ways (`checkAnchorAgainstWalk_inv`): it names the
tip of the walk, or the handoff at the end of the newest archive, or an entry of the active file.
In each of them an entry with the anchored hash is among the entries of the directory
(`mem_logEntries_of_anchor`); as the hash knows the chain before it, everything the honest writer
wrote comes first (`anchored_verification_tamper_evident`).
-/

namespace AgentWallet.AuditLog.TamperEvidence

open Base Timestamps Entry Files Verify Writer HonestRuns List Base.Checks

variable {K D : Type} [DecidableEq D] {env : LogEnv K D} {dir : Directory}
  {hmacKey : Option Text} {p p' : Progress} {name content : Text} {e : AuditEntry K}
  {ok : VerifyOk} {anchor : TipAnchor} {tip : VerifiedTip}

/-! ## Accepted files -/

def Accepted (env : LogEnv K D) (dir : Directory) (name content : Text) : Prop :=
  dir.files.lookup name = some (.regular content) ∧
    ∃ ctx w w', (Lines.rawLines 10 content).foldlM (verifyLine env dir ctx) w = .ok w'

theorem accepted_of_verifyFiles {names : List Text}
    (h : verifyFiles env dir hmacKey p names = .ok p') (hname : name ∈ names) :
    ∃ content, Accepted env dir name content := by
  induction names generalizing p with
  | nil => cases hname
  | cons first names ih =>
    obtain ⟨p₁, hfile, hrest⟩ := bind_eq_ok_iff.1 h
    rcases mem_cons.1 hname with rfl | hname
    · obtain ⟨w, hw, -⟩ := verifyFile_inv hfile
      obtain ⟨content, hcontent, hlines, -⟩ := verifySingleFile_inv hw
      exact ⟨content, hcontent, _, _, w, hlines⟩
    · exact ih hrest hname

theorem accepted_of_verifyLog (h : verifyLog env dir hmacKey = .ok ok)
    (hname : name ∈ archives env dir ++ [env.stem]) : ∃ content, Accepted env dir name content := by
  unfold verifyLog at h
  simp only [bind_eq_ok_iff] at h
  obtain ⟨chain, hchain, p', hfiles, -⟩ := h
  unfold collectFileChain at hchain
  split_ifs at hchain
  cases Except.ok.inj hchain
  exact accepted_of_verifyFiles hfiles hname

theorem readLine_of_verifyLines {ctx : FileContext} {w w' : Walk} {raws : List Text} {raw : Text}
    (hlines : raws.foldlM (verifyLine env dir ctx) w = .ok w') (hraw : raw ∈ raws)
    (hbrace : (123 : UInt8) ∈ stripLineTerminator raw) : ∃ e, readLine env raw = some e := by
  obtain ⟨w₁, w₂, haccepted⟩ := mem_of_verifyLines hlines hraw
  rcases verifyLine_inv haccepted with ⟨text, htext, hblank, -⟩ | ⟨e, he, -⟩
  · rw [← Utf8.encode_of_decode htext] at hbrace
    exact absurd hbrace (Utf8.notMem_of_isBlank (by decide) hblank)
  · exact ⟨e, he⟩

/-- **The entry the backward scan finds is one the forward walk read.** -/
theorem Accepted.mem_parsedEntries (h : Accepted env dir name content) {endOffset : ℕ} {l : Text}
    (hline : readLastLineBefore content endOffset = some l) (he : env.json.fromSlice l = some e) :
    e ∈ parsedEntries env content := by
  obtain ⟨-, ctx, w, w', hlines⟩ := h
  obtain ⟨front, rest, hentries, -⟩ := parsedEntries_of_readLastLineBefore
    (fun raw hraw => readLine_of_verifyLines hlines hraw) hline he
  rw [hentries]
  simp

theorem Accepted.parse (h : Accepted env dir name content) (he : e ∈ parsedEntries env content) :
    ∃ ms, parseAuditTimestampMs e.ts = .ok ms := by
  obtain ⟨-, ctx, w, w', hlines⟩ := h
  obtain ⟨raw, hraw, hread⟩ := mem_filterMap.1 he
  obtain ⟨w₁, w₂, haccepted⟩ := mem_of_verifyLines hlines hraw
  rcases verifyLine_inv haccepted with ⟨text, htext, hblank, -⟩ | ⟨e', he', -, -, hparse, -⟩
  · have hnone : readLine env raw = none := fromSlice_eq_none_of_isBlank htext hblank
    rw [hnone] at hread
    cases hread
  · rw [hread] at he'
    obtain rfl := Option.some.inj he'
    exact hparse

theorem mem_logEntries (hname : name ∈ archives env dir ++ [env.stem])
    (h : Accepted env dir name content) (he : e ∈ parsedEntries env content) :
    e ∈ logEntries env dir := by
  unfold logEntries
  rw [mem_flatMap]
  refine ⟨name, hname, ?_⟩
  rw [fileEntries_eq h.1]
  exact he

/-! ## Accepted anchors -/

omit [DecidableEq D] in
theorem initialChainSeed_inv {seed : Text} (h : initialChainSeed env dir = .ok seed) :
    seed = zeroBlockHash env ∨ ∃ newest ∈ archives env dir, ∃ content l e,
        openFile (dir.files.lookup newest) = .content content ∧
        readLastLineBefore content content.length = some l ∧ env.json.fromSlice l = some e ∧
        entryHash env e = some seed := by
  unfold initialChainSeed collectFileChain at h
  split_ifs at h
  dsimp only at h
  rw [dropLast_concat] at h
  rcases hlast : (archives env dir).getLast? with _ | newest
  · rw [hlast] at h
    exact .inl (Except.ok.inj h).symm
  rw [hlast] at h
  have hmem : newest ∈ archives env dir := mem_of_getLast? hlast
  dsimp only at h
  split at h
  · exact .inl (Except.ok.inj h).symm
  · cases h
  rename_i content hopen
  unfold archiveSeed at h
  split at h
  · exact .inl (Except.ok.inj h).symm
  rename_i l hline
  split at h
  · rename_i e he
    exact .inr ⟨newest, hmem, content, l, e, hopen, hline, he, handoffSeed_inv h⟩
  · cases h

omit [DecidableEq D] in
/-- **The ways in which an anchor is accepted.** -/
theorem checkAnchorAgainstWalk_inv (h : checkAnchorAgainstWalk env dir anchor (some tip) = .ok ()) :
    anchor.tipHash = tip.tipHash ∨ initialChainSeed env dir = .ok anchor.tipHash ∨
      ∃ content l e, dir.files.lookup env.stem = some (.regular content) ∧
        readLastLineBefore content anchor.endOffset = some l ∧ env.json.fromSlice l = some e ∧
        entryHash env e = some anchor.tipHash := by
  unfold checkAnchorAgainstWalk at h
  dsimp only at h
  split_ifs at h with hmatches hhandoff
  · unfold TipAnchor.matchesTip at hmatches
    simp only [Bool.and_eq_true, decide_eq_true_eq] at hmatches
    exact .inl hmatches.2
  · unfold anchorNamesTheRotationHandoff at hhandoff
    split at hhandoff
    · rename_i seed hseed
      rw [hseed, of_decide_eq_true hhandoff]
      exact .inr (.inl rfl)
    · cases hhandoff
  · unfold checkAnchorBehind at h
    by_cases hshort : tip.endOffset < anchor.endOffset
    · rw [if_pos hshort] at h
      cases h
    rw [if_neg hshort] at h
    obtain ⟨intact, hintact, h⟩ := bind_eq_ok_iff.1 h
    obtain rfl : intact = true := by
      cases intact with
      | false => cases h
      | true => rfl
    obtain ⟨content, hopen, hintact⟩ := bind_eq_ok_iff.1 hintact
    rcases hline : readLastLineBefore content anchor.endOffset with _ | l
    · rw [hline] at hintact
      cases hintact
    rw [hline] at hintact
    rcases he : env.json.fromSlice l with _ | e
    · simp only [he] at hintact
      cases hintact
    simp only [he] at hintact
    have hhash := Except.ok.inj hintact
    exact .inr (.inr ⟨content, l, e, openRegularFile_eq_ok hopen, hline, he,
      of_decide_eq_true hhash⟩)

theorem mem_logEntries_of_anchor (hverify : verifyLog env dir hmacKey = .ok ok)
    (hanchor : checkAnchorAgainstWalk env dir anchor (some tip) = .ok ())
    (hroot : anchor.tipHash ≠ zeroBlockHash env) : anchor.tipHash = tip.tipHash ∨
      ∃ e ∈ logEntries env dir, entryHash env e = some anchor.tipHash := by
  rcases checkAnchorAgainstWalk_inv hanchor with htip | hseed |
    ⟨content, l, e, hcontent, hline, he, hhash⟩
  · exact .inl htip
  · rcases initialChainSeed_inv hseed with hzero |
      ⟨newest, hnewest, content, l, e, hopen, hline, he, hhash⟩
    · exact absurd hzero hroot
    · have hname : newest ∈ archives env dir ++ [env.stem] := mem_append_left _ hnewest
      obtain ⟨content', haccepted⟩ := accepted_of_verifyLog hverify hname
      rw [haccepted.1] at hopen
      cases hopen
      exact .inr ⟨e, mem_logEntries hname haccepted (haccepted.mem_parsedEntries hline he), hhash⟩
  · have hname : env.stem ∈ archives env dir ++ [env.stem] := by simp
    obtain ⟨content', haccepted⟩ := accepted_of_verifyLog hverify hname
    obtain rfl : content' = content := by
      have heq := haccepted.1.symm.trans hcontent
      simpa using heq
    exact .inr ⟨e, mem_logEntries hname haccepted (haccepted.mem_parsedEntries hline he), hhash⟩

/-- **Anchored verification is tamper evident.**  Whatever directory is verified and whatever key it
is verified with: when the anchor an honest run left is accepted against it, the entries of the run
are a prefix of the entries of the directory. -/
theorem anchored_verification_tamper_evident (hsha : env.hashes.sha256.Injective)
    {writerKey : Option Text} {adoptionRow : ℕ → Call K} {w₀ : World K}
    (hopen : openInner env writerKey true adoptionRow empty = .ok w₀)
    (calls : List (Call K)) (hf : ∀ c ∈ calls, c.faults = .none) {anchor : TipAnchor}
    (hstored : (Runs.run (step env) w₀ calls).storedAnchor = some anchor) {ok : VerifyOk}
    (hverify : verifyLog env dir hmacKey = .ok ok)
    (hanchor : checkAnchorAgainstWalk env dir anchor ok.activeTip = .ok ()) :
    (Runs.run (step env) w₀ calls).history <+: logEntries env dir := by
  obtain ⟨content, hhonest⟩ := honest_run hopen calls hf
  set w := Runs.run (step env) w₀ calls
  rw [hhonest.anchor] at hstored
  split_ifs at hstored with hwritten
  obtain rfl := Option.some.inj hstored
  have hroot := hhonest.chain.tip_ne hwritten.2 (entryHash_ne_zeroBlockHash hsha)
  obtain ⟨p, tip, -, -, htip, hlinked⟩ := verifyLog_inv hverify
  rw [htip] at hanchor
  rcases mem_logEntries_of_anchor hverify hanchor hroot with heq | ⟨e, he, hhash⟩
  · have heq : w.writer.lastHash = tip.tipHash := heq
    have hchain := hhonest.chain
    rw [heq] at hchain
    rw [hchain.eq_of_tip (entryHash_inj hsha) (entryHash_ne_zeroBlockHash hsha) hlinked]
  · obtain ⟨before, after, hsplit⟩ := append_of_mem he
    rw [hsplit] at hlinked ⊢
    refine ⟨after, ?_⟩
    rw [hhonest.chain.eq_of_mem (entryHash_inj hsha) (entryHash_ne_zeroBlockHash hsha) hlinked hhash]
    simp

end AgentWallet.AuditLog.TamperEvidence
