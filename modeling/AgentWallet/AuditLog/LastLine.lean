import AgentWallet.AuditLog.AnchorAgreement

/-!
# The two backward scans

`read_last_line_before` and `detect_partial_last_entry` look for the last line of a file from its
end, 4096 bytes at a time.  The first agrees with the forward replay on every entry
(`readLastLineBefore_of_replay`).  The second takes a window of line feeds for a file of line feeds,
so it misses a torn line in front of 4096 of them (`detectPartialLastEntry_exact_iff`).
-/

namespace AgentWallet.AuditLog.LastLine

open Base Timestamps Entry Files Generations AnchorAgreement List

variable {K D : Type} {env : LogEnv K D} {content seed raw before l : Text} {scan : ChainScan}
  {front blanks rest : List Text}

/-! ## The last line before an offset -/

/-- **The backward scan agrees with the replay.**  From the end of the line of an entry up to the
line of the next one, it returns bytes that are read as the entry. -/
theorem readLastLineBefore_of_replay (htrim : TrimsEnd env.json)
    (hscan : readAndVerifyEntryChain env content 0 seed = .ok scan)
    (hsplit : Lines.rawLines 10 content = front ++ raw :: (blanks ++ rest))
    (hentry : (stripLineTerminator raw).all isAsciiWhitespace = false)
    (hblanks : ∀ x ∈ blanks, (stripLineTerminator x).all isAsciiWhitespace = true) {offset : ℕ}
    (hpast : (front.flatten ++ raw).length ≤ offset)
    (hnext : rest ≠ [] → offset ≤ (front.flatten ++ raw ++ blanks.flatten).length) :
    ∃ e bytes, readLine env raw = some e ∧ readLastLineBefore content offset = some bytes ∧
      env.json.fromSlice bytes = some e := by
  obtain ⟨s, hfold, -⟩ := replay_ok hscan
  have hmem : raw ∈ Lines.rawLines 10 content := by rw [hsplit]; simp
  obtain ⟨s₁, s₂, hline⟩ := mem_of_replayLines hfold hmem
  rcases replayLine_inv hline with ⟨hblank, -⟩ | ⟨e, -, hread, -⟩
  · rw [hentry] at hblank
    cases hblank
  have hwhite : ∀ b ∈ blanks.flatten, isAsciiWhitespace b = true := fun b hb => by
    obtain ⟨x, hx, hb⟩ := mem_flatten.1 hb
    exact isAsciiWhitespace_of_strip (hblanks x hx) b hb
  obtain ⟨bytes, hbytes, hparse⟩ := readLastLineBefore_of_line htrim hsplit hread hpast fun b hb => by
    refine hwhite b ?_
    rw [flatten_append] at hb
    by_cases hrest : rest = []
    · rw [hrest, flatten_nil, append_nil] at hb
      exact mem_of_mem_take hb
    · have hle := hnext hrest
      rw [take_append_of_le_length (by rw [length_append] at hle; omega)] at hb
      exact mem_of_mem_take hb
  exact ⟨e, bytes, hread, hbytes, hparse⟩

/-- The newest row behind a rotation is found at the end of the active file. -/
theorem rotated_found : ∃ k content seed scan raw e bytes,
    (Retention.plainRun k).dir.files.lookup PlainLog.plainLog.stem = some (.regular content) ∧
      readAndVerifyEntryChain PlainLog.plainLog content 0 seed = .ok scan ∧
      readLine PlainLog.plainLog raw = some e ∧
      readLastLineBefore content content.length = some bytes ∧
      PlainLog.plainLog.json.fromSlice bytes = some e := by
  obtain ⟨k, t, gens, active, h, -, hactive, -⟩ := exists_rotated
  obtain ⟨seed, -, -, hscan⟩ := replay_of_layout h
  obtain ⟨init, row, rfl⟩ := (eq_nil_or_concat' active).resolve_left hactive
  have hraws : Lines.rawLines 10 (lines PlainLog.plainLog (init ++ [row])) =
      init.map (line PlainLog.plainLog) ++ line PlainLog.plainLog row :: ([] ++ []) := by
    rw [lines, rawLines_lines, map_append, map_singleton, append_nil]
  have hflat := congrArg List.flatten hraws
  rw [Lines.flatten_rawLines, flatten_append, append_nil, flatten_singleton] at hflat
  have hentry : (stripLineTerminator (line PlainLog.plainLog row)).all isAsciiWhitespace = false := by
    rw [stripLineTerminator_line, all_eq_false]
    exact ⟨_, getLast_mem (toVec_ne_nil _ row), by simp [isAsciiWhitespace_getLast_toVec]⟩
  obtain ⟨e, bytes, hread, hbytes, hparse⟩ := readLastLineBefore_of_replay trimsEnd_plainJson hscan
    hraws hentry (by simp) (le_of_eq (congrArg List.length hflat.symm)) fun hne => absurd rfl hne
  exact ⟨k, _, seed, _, _, e, bytes, h.holds.file, hscan, hread, hbytes, hparse⟩

/-! ## A torn last line -/

/-- `classify_last_line` -/
def classifyLastLine (env : LogEnv K D) (fileSize : ℕ) (lastLine : Text) (offset : ℕ) :
    Option PartialRotationState :=
  if env.json.isValue lastLine then none else some (.partialHandoffWrite fileSize offset)

/-- The loop of `detect_partial_last_entry`.  The line behind the last line feed of the window
begins one byte after it. -/
def scanTail (env : LogEnv K D) (content : Text) : ℕ → ℕ → Text → Option PartialRotationState
  | 0, _, _ => none
  | fuel + 1, scanEnd, buf =>
    let chunkStart := scanEnd - min scanChunk scanEnd
    let buf := ((content.take scanEnd).drop chunkStart ++ buf).rdropWhile fun b => decide (b = 10)
    if buf = [] then none
    else if 10 ∈ buf then
      let nlIdx := (buf.rdropWhile fun b => decide (b ≠ 10)).length - 1
      let lastLine := buf.drop (nlIdx + 1)
      if lastLine = [] then none
      else classifyLastLine env content.length lastLine (chunkStart + nlIdx + 1)
    else if chunkStart = 0 then classifyLastLine env content.length buf 0
    else scanTail env content fuel chunkStart buf

def detectPartialLastEntry (env : LogEnv K D) (content : Text) : Option PartialRotationState :=
  if content.length = 0 then none else scanTail env content (content.length + 1) content.length []

/-- The last line that is not empty, and what comes before it. -/
structure IsLast (content before l : Text) : Prop where
  split : ∃ n, content = before ++ l ++ List.replicate n 10
  start : Lines.Terminated 10 before
  nonempty : l ≠ []
  line : (10 : UInt8) ∉ l

/-- The loop finds the line that the scan of the whole file finds, at its offset. -/
theorem scanTail_eq {t : Text} : ∀ {fuel scanEnd : ℕ} {buf : Text}, scanEnd ≤ content.length →
    (content.take scanEnd ++ buf).rdropWhile (fun b => decide (b = 10)) = t →
    scanTail env content fuel scanEnd buf =
      (Lines.scanBack true scanChunk (fun b => decide (b = 10)) 10 content fuel scanEnd buf).bind
        fun last => classifyLastLine env content.length last (t.length - last.length) := by
  intro fuel
  induction fuel with
  | zero => exact fun _ _ => rfl
  | succ fuel ih =>
    intro scanEnd buf hend ht
    simp only [scanTail, Lines.scanBack]
    set start := scanEnd - min scanChunk scanEnd with hstart
    rw [Lines.take_append_window _ _ (show start ≤ scanEnd by omega)] at ht
    set w := ((content.take scanEnd).drop start ++ buf).rdropWhile fun b => decide (b = 10) with hw
    by_cases hblank : w = []
    · simp [hblank]
    rw [Lines.rdropWhile_append_of_ne hblank] at ht
    have hlen : t.length = start + w.length := by
      rw [← ht, length_append, length_take, min_eq_left (by omega)]
    have hlast := rdropWhile_last_not (fun b : UInt8 => decide (b = 10)) _ hblank
    rw [if_neg hblank, if_neg hblank]
    by_cases hmem : 10 ∈ w
    · have hcut := congrArg List.length
        (rdropWhile_append_rtakeWhile (l := w) (p := fun b => decide (b ≠ 10)))
      have hfeed : w.rdropWhile (fun b => decide (b ≠ 10)) ≠ [] := fun hnil =>
        absurd (rdropWhile_eq_nil_iff.1 hnil 10 hmem) (by simp)
      have hpos := length_pos_of_ne_nil hfeed
      have hline : w.rtakeWhile (fun b => decide (b ≠ 10)) ≠ [] := fun hnil =>
        rtakeWhile_eq_nil_iff.1 hnil hblank (by simpa using hlast)
      rw [length_append] at hcut
      rw [if_pos hmem, if_pos hmem, Nat.sub_add_cancel hpos, Lines.drop_rdropWhile, if_neg hline,
        Option.bind_some]
      congr 1
      omega
    · rw [if_neg hmem, if_neg hmem]
      by_cases hzero : start = 0
      · rw [if_pos hzero, if_pos hzero, Option.bind_some]
        congr 1
        omega
      · rw [if_neg hzero, if_neg hzero]
        refine ih (by omega) ?_
        have hidem : w.rdropWhile (fun b => decide (b = 10)) = w := rdropWhile_idempotent _ _
        rw [Lines.rdropWhile_append_of_ne (by rwa [hidem]), hidem, ht]

theorem detectPartialLastEntry_eq (env : LogEnv K D) (content : Text) :
    detectPartialLastEntry env content =
      if scanChunk ≤ (content.rtakeWhile fun b => decide (b = 10)).length then none
      else (Lines.lastLine (fun b => decide (b = (10 : UInt8))) 10 content).bind fun last =>
        classifyLastLine env content.length last
          ((content.rdropWhile fun b => decide (b = 10)).length - last.length) := by
  unfold detectPartialLastEntry
  by_cases hempty : content.length = 0
  · rw [if_pos hempty, length_eq_zero_iff.1 hempty]
    rfl
  · rw [if_neg hempty, scanTail_eq le_rfl (by rw [take_length, append_nil]),
      Lines.scanBack_giveUp (by decide)]
    split_ifs <;> rfl

theorem IsLast.lastLine (h : IsLast content before l) :
    content.rdropWhile (fun b => decide (b = 10)) = before ++ l ∧
      Lines.lastLine (fun b => decide (b = (10 : UInt8))) 10 content = some l := by
  obtain ⟨n, rfl⟩ := h.split
  have hblank : (List.replicate n (10 : UInt8)).rdropWhile (fun b => decide (b = 10)) = [] :=
    rdropWhile_eq_nil_iff.2 fun b hb => by simp [eq_of_mem_replicate hb]
  have hlast : decide (l.getLast h.nonempty = 10) = false :=
    decide_eq_false fun heq => h.line (heq ▸ getLast_mem h.nonempty)
  have hself : l.rdropWhile (fun b => decide (b = 10)) = l :=
    rdropWhile_eq_self_iff.2 fun _ => by simpa using hlast
  rw [Lines.rdropWhile_append_of_blank hblank, Lines.lastLine_append_of_blank hblank,
    Lines.rdropWhile_append_of_ne (by rw [hself]; exact h.nonempty), hself]
  exact ⟨rfl, Lines.lastLine_append h.start h.line h.nonempty hlast⟩

theorem exists_isLast (h : Lines.lastLine (fun b => decide (b = (10 : UInt8))) 10 content = some l) :
    ∃ before, IsLast content before l := by
  obtain ⟨before, after, hsplit, hstart, hline, hafter, hne, -⟩ := Lines.lastLine_eq_some (by simp) h
  refine ⟨before, ⟨after.length, ?_⟩, hstart, hne, hline⟩
  rw [hsplit, append_assoc, ← eq_replicate_of_mem fun b hb => by simpa using hafter b hb]

/-- The report on the last line, for a run of line feeds shorter than a window. -/
theorem detectPartialLastEntry_of_isLast (h : IsLast content before l) :
    detectPartialLastEntry env content =
      if scanChunk ≤ content.length - (before ++ l).length then none
      else classifyLastLine env content.length l before.length := by
  have hcut := congrArg List.length
    (rdropWhile_append_rtakeWhile (l := content) (p := fun b => decide (b = 10)))
  rw [detectPartialLastEntry_eq, h.lastLine.2, Option.bind_some]
  rw [length_append, h.lastLine.1] at hcut
  rw [h.lastLine.1, ← hcut, Nat.add_sub_cancel_left, length_append, Nat.add_sub_cancel]

/-- **When torn tails are detected exactly.**  The report is about the last line that is not empty,
at its first byte, as long as no line that is no JSON stands in front of a whole window of line
feeds. -/
theorem detectPartialLastEntry_exact_iff (env : LogEnv K D) (content : Text) :
    (∀ state, detectPartialLastEntry env content = some state ↔ ∃ before l,
      IsLast content before l ∧ env.json.isValue l = false ∧
        state = .partialHandoffWrite content.length before.length) ↔
      ∀ before l, IsLast content before l → env.json.isValue l = false →
        content.length - (before ++ l).length < scanChunk := by
  constructor
  · intro hexact before l hlast hvalue
    have hreport := (hexact _).2 ⟨before, l, hlast, hvalue, rfl⟩
    rw [detectPartialLastEntry_of_isLast hlast] at hreport
    split_ifs at hreport with hrun
    exact not_le.1 hrun
  · intro hshort state
    constructor
    · intro hreport
      have hfound := hreport
      rw [detectPartialLastEntry_eq] at hfound
      split_ifs at hfound
      obtain ⟨l, hl, -⟩ := Option.bind_eq_some_iff.1 hfound
      obtain ⟨before, hlast⟩ := exists_isLast hl
      rw [detectPartialLastEntry_of_isLast hlast] at hreport
      unfold classifyLastLine at hreport
      split_ifs at hreport with _ hvalue
      exact ⟨before, l, hlast, by simpa using hvalue, (Option.some.inj hreport).symm⟩
    · rintro ⟨before, l, hlast, hvalue, rfl⟩
      rw [detectPartialLastEntry_of_isLast hlast, if_neg (not_le.2 (hshort before l hlast hvalue)),
        classifyLastLine, hvalue]
      rfl

/-- An opening brace and a window of line feeds: a torn line that is not reported. -/
theorem detectPartialLastEntry_misses : let content : Text := [123] ++ List.replicate scanChunk 10
    IsLast content [] [123] ∧ PlainLog.plainLog.json.isValue [123] = false ∧
      detectPartialLastEntry PlainLog.plainLog content = none := by
  intro content
  have hlast : IsLast content [] [123] :=
    ⟨⟨scanChunk, rfl⟩, Lines.terminated_nil, by decide, by decide⟩
  refine ⟨hlast, by decide, ?_⟩
  rw [detectPartialLastEntry_of_isLast hlast, if_pos (by simp [content])]

end AgentWallet.AuditLog.LastLine
