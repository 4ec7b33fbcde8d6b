import Mathlib

/-!
# Lines of a file

`rawLines sep` cuts a list of symbols behind every `sep`, as a reader does that fills a buffer up to
and with the next separator; the last line may lack one.  `lastLine ws sep` is the last line that is
not blank, without the white space behind it, and `scanBack` finds it from the end of the file in
windows of a fixed size (`scanBack_eq`).
-/

namespace AgentWallet.Base.Lines

open List

variable {α : Type*} {sep : α} {ws : α → Bool} {l m x : List α}
  {β : Type*} {front rs : List (List α)} {r : List α}

/-! ## Complete lines -/

/-- The list is empty or ends with a separator. -/
def Terminated (sep : α) (l : List α) : Prop := ∀ h : l ≠ [], l.getLast h = sep

theorem terminated_nil : Terminated sep ([] : List α) := fun h => absurd rfl h

theorem terminated_snoc : Terminated sep (l ++ [sep]) := fun _ => getLast_append_singleton _

theorem Terminated.tail {a : α} (h : Terminated sep (a :: l)) : Terminated sep l := fun hl => by
  rw [← h (cons_ne_nil a l), getLast_cons hl]

theorem terminated_append (hl : Terminated sep l) (hm : Terminated sep m) :
    Terminated sep (l ++ m) := by
  by_cases hme : m = []
  · rw [hme, append_nil]
    exact hl
  · intro h
    rw [getLast_append_of_ne_nil h hme]
    exact hm hme

theorem terminated_flatMap (f : β → List α) (bs : List β) :
    Terminated sep (bs.flatMap fun b => f b ++ [sep]) := by
  induction bs with
  | nil => exact terminated_nil
  | cons b bs ih =>
    exact terminated_append terminated_snoc ih

/-! ## White space at the end -/

theorem rdropWhile_append_of_ne (h : m.rdropWhile ws ≠ []) :
    (l ++ m).rdropWhile ws = l ++ m.rdropWhile ws := by
  induction m using List.reverseRecOn with
  | nil => exact absurd rfl h
  | append_singleton m a ih =>
    by_cases ha : ws a = true
    · rw [rdropWhile_concat_pos _ _ _ ha] at h ⊢
      rw [← append_assoc, rdropWhile_concat_pos _ _ _ ha]
      exact ih h
    · rw [← append_assoc, rdropWhile_concat_neg _ _ _ ha,
        rdropWhile_concat_neg _ _ _ ha, append_assoc]

theorem rdropWhile_append_of_blank (h : m.rdropWhile ws = []) :
    (l ++ m).rdropWhile ws = l.rdropWhile ws := by
  induction m using List.reverseRecOn with
  | nil => rw [append_nil]
  | append_singleton m a ih =>
    have hall := rdropWhile_eq_nil_iff.1 h
    have ha : ws a = true := hall a (by simp)
    rw [← append_assoc, rdropWhile_concat_pos _ _ _ ha]
    exact ih (rdropWhile_eq_nil_iff.2 fun b hb => hall b (by simp [hb]))

theorem drop_rdropWhile (p : α → Bool) : l.drop (l.rdropWhile p).length = l.rtakeWhile p := by
  have hcut := rdropWhile_append_rtakeWhile (l := l) (p := p)
  exact (congrArg (List.drop _) hcut.symm).trans drop_left

theorem take_append_window (content buf : List α) {start scanEnd : ℕ} (h : start ≤ scanEnd) :
    content.take scanEnd ++ buf =
      content.take start ++ ((content.take scanEnd).drop start ++ buf) := by
  have htake : (content.take scanEnd).take start = content.take start := by
    rw [take_take, min_eq_left h]
  rw [← append_assoc, ← htake, take_append_drop]

/-! ## Definitions -/

variable [DecidableEq α]

/-- The lines of a list, each with its separator. -/
def rawLines (sep : α) : List α → List (List α)
  | [] => []
  | a :: l =>
    if a = sep then [a] :: rawLines sep l
    else
      match rawLines sep l with
      | [] => [[a]]
      | r :: rs => (a :: r) :: rs

/-- The last line that is not blank, without the white space behind it. -/
def lastLine (ws : α → Bool) (sep : α) (l : List α) : Option (List α) :=
  if l.rdropWhile ws = [] then none
  else some ((l.rdropWhile ws).rtakeWhile fun a => decide (a ≠ sep))

/-- The search for the last line from the end: one window of `chunk` symbols more in each round,
`buf` what the rounds before have collected.  With `giveUp` the search ends at a blank window. -/
def scanBack (giveUp : Bool) (chunk : ℕ) (ws : α → Bool) (sep : α) (content : List α) :
    ℕ → ℕ → List α → Option (List α)
  | 0, _, _ => none
  | fuel + 1, scanEnd, buf =>
    let chunkStart := scanEnd - min chunk scanEnd
    let window := ((content.take scanEnd).drop chunkStart ++ buf).rdropWhile ws
    if window = [] then
      if giveUp || decide (chunkStart = 0) then none
      else scanBack giveUp chunk ws sep content fuel chunkStart window
    else if sep ∈ window then some (window.rtakeWhile fun a => decide (a ≠ sep))
    else if chunkStart = 0 then some window
    else scanBack giveUp chunk ws sep content fuel chunkStart window

/-! ## Lines from the start -/

theorem rawLines_eq_nil_iff : rawLines sep l = [] ↔ l = [] := by
  cases l with
  | nil => simp [rawLines]
  | cons a l =>
    unfold rawLines
    split_ifs
    · simp
    · split <;> simp

theorem flatten_rawLines : (rawLines sep l).flatten = l := by
  induction l with
  | nil => rfl
  | cons a l ih =>
    unfold rawLines
    split_ifs
    · rw [flatten_cons, ih]
      rfl
    · split
      · rename_i hnil
        rw [rawLines_eq_nil_iff.1 hnil]
        rfl
      · rename_i r rs hcons
        rw [hcons] at ih
        rw [← ih]
        rfl

theorem rawLines_append (h : Terminated sep l) :
    rawLines sep (l ++ m) = rawLines sep l ++ rawLines sep m := by
  induction l with
  | nil => rfl
  | cons a l ih =>
    have ih := ih h.tail
    by_cases ha : a = sep
    · simp only [cons_append, rawLines, if_pos ha, ih]
    · have hl : l ≠ [] := by
        rintro rfl
        exact ha (h (cons_ne_nil a []))
      have hlines : rawLines sep l ≠ [] := mt rawLines_eq_nil_iff.1 hl
      obtain ⟨r, rs, hr⟩ := exists_cons_of_ne_nil hlines
      simp only [cons_append, rawLines, if_neg ha, ih, hr]

theorem exists_rawLines_append (hx : sep ∉ x) (hne : x ≠ []) :
    ∃ y rs, rawLines sep (x ++ m) = (x ++ y) :: rs := by
  induction x with
  | nil => exact absurd rfl hne
  | cons a x ih =>
    have ha : a ≠ sep := fun h => hx (h ▸ mem_cons_self)
    have hx' : sep ∉ x := fun h => hx (mem_cons_of_mem _ h)
    by_cases hxe : x = []
    · subst hxe
      rcases hm : rawLines sep m with _ | ⟨r, rs⟩
      · exact ⟨[], [], by simp [rawLines, hm]⟩
      · exact ⟨r, rs, by simp [rawLines, ha, hm]⟩
    · obtain ⟨y, rs, hy⟩ := ih hx' hxe
      exact ⟨y, rs, by simp [rawLines, ha, hy]⟩

theorem rawLines_of_line_start (hl : Terminated sep l) (hx : sep ∉ x) (hne : x ≠ []) :
    ∃ y rs, rawLines sep (l ++ (x ++ m)) = rawLines sep l ++ (x ++ y) :: rs := by
  obtain ⟨y, rs, h⟩ := exists_rawLines_append hx hne
  exact ⟨y, rs, by rw [rawLines_append hl, h]⟩

theorem rawLines_line (hx : sep ∉ x) : rawLines sep (x ++ [sep]) = [x ++ [sep]] := by
  induction x with
  | nil => simp [rawLines]
  | cons a x ih =>
    have ha : a ≠ sep := fun h => hx (h ▸ mem_cons_self)
    have ih := ih fun h => hx (mem_cons_of_mem _ h)
    simp [rawLines, ha, ih]

theorem rawLines_flatMap {f : β → List α} (hf : ∀ b, sep ∉ f b) (bs : List β) :
    rawLines sep (bs.flatMap fun b => f b ++ [sep]) = bs.map fun b => f b ++ [sep] := by
  induction bs with
  | nil => rfl
  | cons b bs ih =>
    rw [flatMap_cons, rawLines_append terminated_snoc, rawLines_line (hf b), ih]
    rfl

/-! ## The last line -/

theorem rtakeWhile_append_of_mem (h : sep ∈ m) :
    ((l ++ m).rtakeWhile fun a => decide (a ≠ sep)) = m.rtakeWhile fun a => decide (a ≠ sep) := by
  induction m using List.reverseRecOn with
  | nil => cases h
  | append_singleton m a ih =>
    rw [← append_assoc]
    by_cases ha : a = sep
    · rw [rtakeWhile_concat_neg _ _ _ (by simpa using ha),
        rtakeWhile_concat_neg _ _ _ (by simpa using ha)]
    · have hm : sep ∈ m := by
        rcases mem_append.1 h with h | h
        · exact h
        · exact absurd (mem_singleton.1 h).symm ha
      rw [rtakeWhile_concat_pos _ _ _ (by simpa using ha),
        rtakeWhile_concat_pos _ _ _ (by simpa using ha), ih hm]

theorem lastLine_append_of_blank (h : m.rdropWhile ws = []) :
    lastLine ws sep (l ++ m) = lastLine ws sep l := by
  unfold lastLine
  rw [rdropWhile_append_of_blank h]

/-- **The search from the end finds the last line**, unless it gives up before. -/
theorem scanBack_eq {giveUp : Bool} {chunk : ℕ} (hchunk : 0 < chunk) {content : List α} :
    ∀ {fuel scanEnd : ℕ} {buf : List α}, scanEnd < fuel → 0 < scanEnd →
      buf.rdropWhile ws = buf → sep ∉ buf →
      (giveUp = true → ((content.take scanEnd).drop (scanEnd - min chunk scanEnd) ++
        buf).rdropWhile ws ≠ []) → scanBack giveUp chunk ws sep content fuel scanEnd buf =
        lastLine ws sep (content.take scanEnd ++ buf) := by
  intro fuel
  induction fuel with
  | zero => exact fun h => absurd h (by omega)
  | succ fuel ih =>
    intro scanEnd buf hfuel hpos hbuf hsep hgiveUp
    have hlt : scanEnd - min chunk scanEnd < scanEnd := by omega
    set start := scanEnd - min chunk scanEnd with hstart
    have hsplit := take_append_window content buf hlt.le
    simp only [scanBack, ← hstart]
    rw [hsplit]
    set w := (content.take scanEnd).drop start ++ buf with hw
    by_cases hblank : w.rdropWhile ws = []
    · -- nothing but white space so far
      have hgoOn : giveUp = false := Bool.eq_false_iff.2 fun h => hgiveUp h hblank
      rw [if_pos hblank, lastLine_append_of_blank hblank, hgoOn, Bool.false_or]
      by_cases hzero : start = 0
      · rw [if_pos (decide_eq_true hzero), hzero]
        rfl
      · have hnext : scanBack giveUp chunk ws sep content fuel start [] =
            lastLine ws sep (content.take start ++ []) :=
          ih (by omega) (by omega) rfl (by simp) fun h => absurd h (by simp [hgoOn])
        rw [append_nil, hgoOn] at hnext
        rw [if_neg (by simp [hzero]), hblank, hnext]
    · have hline : lastLine ws sep (content.take start ++ w) =
          some ((content.take start ++ w.rdropWhile ws).rtakeWhile fun a => decide (a ≠ sep)) := by
        unfold lastLine
        rw [rdropWhile_append_of_ne hblank, if_neg (by simp [hblank])]
      rw [if_neg hblank, hline]
      by_cases hmem : sep ∈ w.rdropWhile ws
      · rw [if_pos hmem, rtakeWhile_append_of_mem hmem]
      · rw [if_neg hmem]
        by_cases hzero : start = 0
        · have hself : (w.rdropWhile ws).rtakeWhile (fun a => decide (a ≠ sep)) = w.rdropWhile ws :=
            rtakeWhile_eq_self_iff.2 fun b hb => by
              simpa using fun h : b = sep => hmem (h ▸ hb)
          rw [if_pos hzero, hzero, take_zero, nil_append, hself]
        · have htrim := rdropWhile_idempotent ws w
          have hne : (w.rdropWhile ws).rdropWhile ws ≠ [] := by rwa [htrim]
          rw [if_neg hzero, ih (by omega) (by omega) htrim hmem fun _ => by
            rw [rdropWhile_append_of_ne hne]
            exact append_ne_nil_of_right_ne_nil _ hne]
          unfold lastLine
          rw [rdropWhile_append_of_ne hne, htrim, if_neg (by simp [hblank])]

/-- A search that gives up at a blank window fails at a run of white space as long as a window. -/
theorem scanBack_giveUp {chunk : ℕ} (hchunk : 0 < chunk) (content : List α) :
    scanBack true chunk ws sep content (content.length + 1) content.length [] =
      if chunk ≤ (content.rtakeWhile ws).length then none else lastLine ws sep content := by
  have hcut := rdropWhile_append_rtakeWhile (l := content) (p := ws)
  have hlen := congrArg List.length hcut
  rw [length_append] at hlen
  have hlast := rdropWhile_last_not ws content
  have hback : ∀ a ∈ content.rtakeWhile ws, ws a = true := fun _ => mem_rtakeWhile_imp
  set t := content.rdropWhile ws with ht
  set r := content.rtakeWhile ws
  have hwindow :
      (content.take content.length).drop (content.length - min chunk content.length) ++ [] =
      t.drop (content.length - min chunk content.length) ++
        r.drop (content.length - min chunk content.length - t.length) := by
    rw [take_length, append_nil, ← drop_append, hcut]
  by_cases hblank : (t.drop (content.length - min chunk content.length) ++
      r.drop (content.length - min chunk content.length - t.length)).rdropWhile ws = []
  · have hnone : chunk ≤ r.length ∨ t = [] := by
      by_contra! hshort
      have hmem : t.getLast hshort.2 ∈ t.drop (content.length - min chunk content.length) := by
        have hne : t.drop (content.length - min chunk content.length) ≠ [] := by
          have hpos := length_pos_of_ne_nil hshort.2
          rw [ne_eq, drop_eq_nil_iff]
          omega
        rw [← getLast_drop hne]
        exact getLast_mem hne
      exact hlast hshort.2 (rdropWhile_eq_nil_iff.1 hblank _ (mem_append_left _ hmem))
    simp only [scanBack, hwindow, hblank, Bool.true_or, if_true]
    rcases hnone with hrun | hnil
    · rw [if_pos hrun]
    · simp [lastLine, ← ht, hnil]
  · have hrun : ¬ chunk ≤ r.length := fun hrun => hblank <| by
      rw [drop_eq_nil_of_le (by omega), nil_append]
      exact rdropWhile_eq_nil_iff.2 fun a ha => hback a (mem_of_mem_drop ha)
    have hpos : 0 < content.length := Nat.pos_of_ne_zero fun hzero => hblank <| by
      rw [length_eq_zero_iff.1 (show t.length = 0 by omega),
        length_eq_zero_iff.1 (show r.length = 0 by omega)]
      simp
    rw [if_neg hrun, scanBack_eq hchunk (Nat.lt_succ_self _) hpos rfl (by simp) fun _ => by
      rwa [hwindow], take_length, append_nil]

theorem lastLine_eq_some (hws : ws sep = true) (h : lastLine ws sep l = some x) :
    ∃ before after, l = before ++ (x ++ after) ∧ Terminated sep before ∧ sep ∉ x ∧
      (∀ a ∈ after, ws a = true) ∧ ∃ hne : x ≠ [], ws (x.getLast hne) = false := by
  unfold lastLine at h
  split_ifs at h with hblank
  obtain rfl := Option.some.inj h
  have hlast := rdropWhile_last_not ws l hblank
  have hafter := rdropWhile_append_rtakeWhile (l := l) (p := ws)
  set t := l.rdropWhile ws
  have hcut := rdropWhile_append_rtakeWhile (l := t) (p := fun a => decide (a ≠ sep))
  have hnotSep : t.getLast hblank ≠ sep := fun hs => hlast (hs ▸ hws)
  have hne : t.rtakeWhile (fun a => decide (a ≠ sep)) ≠ [] := fun hnil =>
    rtakeWhile_eq_nil_iff.1 hnil hblank (by simpa using hnotSep)
  refine ⟨t.rdropWhile fun a => decide (a ≠ sep), l.rtakeWhile ws, ?_, fun hb => ?_, fun hmem => ?_,
    fun a ha => mem_rtakeWhile_imp ha, hne, ?_⟩
  · rw [← append_assoc, hcut, hafter]
  · simpa using rdropWhile_last_not _ _ hb
  · simpa using mem_rtakeWhile_imp hmem
  · rw [(rtakeWhile_suffix (l := t) _).getLast hne]
    simpa using hlast

theorem lastLine_append (hl : Terminated sep l) (hx : sep ∉ x) (hne : x ≠ [])
    (hlast : ws (x.getLast hne) = false) : lastLine ws sep (l ++ x) = some x := by
  have hself : x.rdropWhile ws = x :=
    rdropWhile_eq_self_iff.2 fun _ => by simp [hlast]
  have hdrop : (l ++ x).rdropWhile ws = l ++ x := by
    rw [rdropWhile_append_of_ne (by rwa [hself]), hself]
  unfold lastLine
  rw [hdrop, if_neg (by simp [hne])]
  have hxall : ∀ a ∈ x, decide (a ≠ sep) = true := fun a ha => by
    simpa using fun h : a = sep => hx (h ▸ ha)
  have htake : (l ++ x).rtakeWhile (fun a => decide (a ≠ sep)) = x := by
    unfold List.rtakeWhile
    rw [reverse_append, takeWhile_append_of_pos fun a ha =>
      hxall a (mem_reverse.1 ha)]
    have hnil : l.reverse.takeWhile (fun a => decide (a ≠ sep)) = [] := by
      rcases eq_nil_or_concat' l with rfl | ⟨l', a, rfl⟩
      · rfl
      · have ha : a = sep := by simpa using hl (by simp)
        simp [ha]
    rw [hnil, append_nil, reverse_reverse]
  rw [htake]

theorem lastLine_snoc (hl : Terminated sep l) (hws : ws sep = true) (hx : sep ∉ x)
    (hne : x ≠ []) (hlast : ws (x.getLast hne) = false) :
    lastLine ws sep (l ++ (x ++ [sep])) = some x := by
  rw [← append_assoc, lastLine_append_of_blank (by simp [hws]), lastLine_append hl hx hne hlast]

theorem rawLines_split (h : rawLines sep l = front ++ r :: rs) :
    Terminated sep front.flatten ∧ sep ∉ r.dropLast ∧ r ≠ [] := by
  induction l generalizing front r rs with
  | nil => exact absurd h (by simp [rawLines])
  | cons a l ih =>
    unfold rawLines at h
    split_ifs at h with ha
    · cases front with
      | nil =>
        obtain ⟨rfl, -⟩ := List.cons.inj h
        exact ⟨terminated_nil, by simp, by simp⟩
      | cons f front =>
        obtain ⟨rfl, hrest⟩ := List.cons.inj h
        obtain ⟨hfront, hr⟩ := ih hrest
        refine ⟨?_, hr⟩
        rw [ha]
        exact terminated_append (fun _ => rfl) hfront
    · split at h
      · cases front with
        | nil =>
          obtain ⟨rfl, -⟩ := List.cons.inj h
          exact ⟨terminated_nil, by simp, by simp⟩
        | cons f front => exact absurd (List.cons.inj h).2 (by simp)
      · rename_i r₀ rs₀ hcons
        have hfirst : Terminated sep ([] : List (List α)).flatten ∧ sep ∉ r₀.dropLast ∧ r₀ ≠ [] :=
          ih hcons
        cases front with
        | nil =>
          obtain ⟨rfl, -⟩ := List.cons.inj h
          refine ⟨terminated_nil, ?_, by simp⟩
          rw [dropLast_cons_of_ne_nil hfirst.2.2, mem_cons, not_or]
          exact ⟨Ne.symm ha, hfirst.2.1⟩
        | cons f front =>
          obtain ⟨rfl, hrest⟩ := List.cons.inj h
          have hlines : rawLines sep l = (r₀ :: front) ++ r :: rs := by rw [hcons, hrest]; rfl
          obtain ⟨hfront, hr⟩ := ih hlines
          refine ⟨fun hne => ?_, hr⟩
          have hne' : (r₀ :: front).flatten ≠ [] := by simp [hfirst.2.2]
          have hlast := hfront hne'
          simp only [flatten_cons, cons_append] at hlast hne' ⊢
          rw [getLast_cons hne']
          exact hlast

theorem lastLine_take (hws : ws sep = true) (h : rawLines sep l = front ++ r :: rs)
    (hr : r.rdropWhile ws ≠ []) {k : ℕ} (hk : (front.flatten ++ r).length ≤ k)
    (hrs : ∀ a ∈ rs.flatten.take (k - (front.flatten ++ r).length), ws a = true) :
    lastLine ws sep (l.take k) = some (r.rdropWhile ws) := by
  obtain ⟨hfront, hsep, -⟩ := rawLines_split h
  have hl : l = front.flatten ++ r ++ rs.flatten := by
    have hflat : (rawLines sep l).flatten = l := flatten_rawLines
    rw [h] at hflat
    simpa using hflat.symm
  have hblank : (rs.flatten.take (k - (front.flatten ++ r).length)).rdropWhile ws = [] :=
    rdropWhile_eq_nil_iff.2 hrs
  have hcut := rdropWhile_append_rtakeWhile (l := r) (p := ws)
  have hrest : (r.rtakeWhile ws).rdropWhile ws = [] :=
    rdropWhile_eq_nil_iff.2 fun a ha => mem_rtakeWhile_imp ha
  have hlast : ws ((r.rdropWhile ws).getLast hr) = false := by
    simpa using rdropWhile_last_not ws r hr
  have hnotMem : sep ∉ r.rdropWhile ws := by
    intro hmem
    -- a separator could only be the last symbol, which is no white space
    obtain ⟨init, a, hinit⟩ := (eq_nil_or_concat' (r.rdropWhile ws)).resolve_left hr
    rw [hinit, mem_append, mem_singleton] at hmem
    rcases hmem with hmem | rfl
    · refine hsep ?_
      rw [← hcut, hinit, append_assoc, dropLast_append_of_ne_nil (by simp)]
      exact mem_append_left _ hmem
    · simp only [hinit, getLast_append_singleton] at hlast
      rw [hws] at hlast
      cases hlast
  rw [hl, take_append, take_of_length_le hk, lastLine_append_of_blank hblank]
  conv_lhs => rw [← hcut]
  rw [← append_assoc, lastLine_append_of_blank hrest, lastLine_append hfront hnotMem hr hlast]

end AgentWallet.Base.Lines
