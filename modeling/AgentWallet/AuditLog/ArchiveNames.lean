import AgentWallet.AuditLog.Retention

/-!
# The order of the archive names

`compact_timestamp` names a rotated file by the clock, with a counter behind it when the clock has
not moved on, and the readers of the log sort the names as texts.  `names_in_rotation_order`: while
the clock does not step back and no counter grows by a digit within a millisecond, the order of the
names is the order of the rotations.
-/

namespace AgentWallet.AuditLog.ArchiveNames

open Base.Decimal Timestamps Entry Files Writer Generations Retention PlainLog List

variable {K D : Type}

/-- The names of successive rotations in one process, one for each reading of the clock. -/
def names (env : LogEnv K D) (w : World K) : List ℕ → List Text
  | [] => []
  | ms :: readings => (env.stem ++ [46] ++ w.rotationStamp ms) :: names env (w.stamped ms) readings

/-- The call before this one found the clock where it was. -/
def collides (w : World K) (ms : ℕ) : Bool := decide (compactNumber ms ≤ w.lastRotationTimestamp)

/-- A reading in front of the year 10000 that does not step back; the counter of a third rotation in
one millisecond has as many digits as that of the second. -/
structure Orderly (w : World K) (collided : Bool) (ms : ℕ) : Prop where
  year : (epochToDatetime (ms / 1000)).year < 10000
  forward : w.lastRotationTimestamp ≤ compactNumber ms
  counter : collided = true → compactNumber ms = w.lastRotationTimestamp →
    ∀ k, w.rotationCollisionCounter + 1 ≠ 10 ^ k

def OrderlyRun (w : World K) (collided : Bool) : List ℕ → Prop
  | [] => True
  | ms :: readings => Orderly w collided ms ∧ OrderlyRun (w.stamped ms) (collides w ms) readings

abbrev counterText (n : ℕ) : Text := (Nat.toDigits 10 n).map fun c => UInt8.ofNat c.toNat

/-- The stamp handed out last, as the process remembers it. -/
def Last (w : World K) (collided : Bool) (stamp : Text) : Prop :=
  ∃ ms, Fits (epochToDatetime (ms / 1000)) ∧ compactNumber ms = w.lastRotationTimestamp ∧
    stamp = compact ms ++
      if collided = true then [45] ++ counterText w.rotationCollisionCounter else []

variable {env : LogEnv K D} {w : World K} {collided : Bool} {ms ms' : ℕ} {stamp : Text}
  {readings : List ℕ}

theorem Orderly.fits (h : Orderly w collided ms) : Fits (epochToDatetime (ms / 1000)) :=
  (dated_epochToDatetime _).fits h.year

theorem length_compact (h : Fits (epochToDatetime (ms / 1000))) : (compact ms).length = 18 := by
  rw [compact_eq h]
  simp [fieldsText]

theorem eq_of_compactNumber (h : Fits (epochToDatetime (ms / 1000)))
    (h' : Fits (epochToDatetime (ms' / 1000))) (heq : compactNumber ms = compactNumber ms') :
    ms = ms' := by
  rcases Nat.lt_trichotomy ms ms' with hlt | heq' | hgt
  · have := compactNumber_lt h h' hlt
    omega
  · exact heq'
  · have := compactNumber_lt h' h hgt
    omega

theorem last_stamped (h : Orderly w collided ms) :
    Last (w.stamped ms) (collides w ms) (w.rotationStamp ms) := by
  refine ⟨ms, h.fits, ?_⟩
  have hforward := h.forward
  unfold World.stamped World.rotationStamp collides
  rcases Nat.lt_or_ge w.lastRotationTimestamp (compactNumber ms) with hlt | hge
  · rw [if_pos hlt, if_pos hlt, decide_eq_false (by omega)]
    simp
  · rw [if_neg (by omega), if_neg (by omega), decide_eq_true hge, append_assoc]
    exact ⟨by simp; omega, rfl⟩

/-- **One rotation.** Its name is behind the one before it. -/
theorem Last.lt (hlast : Last w collided stamp) (h : Orderly w collided ms) :
    stamp < w.rotationStamp ms := by
  obtain ⟨ms', hfits, hnumber, hstamp⟩ := hlast
  rw [hstamp]
  have hforward := h.forward
  unfold World.rotationStamp
  by_cases hlater : compactNumber ms > w.lastRotationTimestamp
  · rw [if_pos hlater]
    -- a later millisecond decides on the first eighteen bytes
    have hlt : ms' < ms := by
      by_contra hle
      rcases Nat.lt_or_eq_of_le (not_lt.1 hle) with hlt | rfl
      · have := compactNumber_lt h.fits hfits hlt
        omega
      · omega
    have hlen : (compact ms').length = (compact ms).length := by
      rw [length_compact hfits, length_compact h.fits]
    rw [← append_nil (compact ms)]
    exact append_lt_of_lt hlen (compact_lt hfits h.fits hlt) _ _
  · obtain rfl : ms' = ms := eq_of_compactNumber hfits h.fits (by omega)
    rw [if_neg hlater, append_assoc]
    refine append_left_lt ?_
    split_ifs with hcollided
    · refine append_left_lt ?_
      exact toDigits_lt_succ (h.counter hcollided hnumber)
    · exact nil_lt_cons _ _

theorem isRotatedSibling_stamp (env : LogEnv K D) (h : Orderly w collided ms) :
    isRotatedSibling env.stem (env.stem ++ [46] ++ w.rotationStamp ms) = true := by
  have hsuffix : (env.stem ++ [46]).isPrefixOf? (env.stem ++ [46] ++ w.rotationStamp ms) =
      some (w.rotationStamp ms) := List.isPrefixOf?_eq_some_iff_append_eq.2 rfl
  have hcompact := isRotationSuffix_compact h.fits
  have hdash : (45 : UInt8) ∉ compact ms := by
    rw [compact_eq h.fits]
    exact notMem_fieldsText _ _
  unfold isRotatedSibling
  simp only [hsuffix]
  unfold World.rotationStamp
  split_ifs with hlater
  · exact hcompact
  · have hdigits : ∀ b ∈ counterText (w.rotationCollisionCounter + 1), isDigit b = true := by
      intro b hb
      rw [counterText, toDigits_eq_decimal] at hb
      exact isDigit_of_mem_decimal hb
    have hsplit : splitOnce 45 (compact ms ++ [45] ++ counterText (w.rotationCollisionCounter + 1)) =
        some (compact ms, counterText (w.rotationCollisionCounter + 1)) := by
      have hfront : ∀ b ∈ compact ms, decide (b ≠ 45) = true := fun b hb =>
        decide_eq_true fun heq => hdash (heq ▸ hb)
      unfold splitOnce
      rw [append_assoc, takeWhile_append_of_pos hfront, dropWhile_append_of_pos hfront]
      simp
    have hstamp : isCompactTimestamp (compact ms) = true := by
      unfold isRotationSuffix splitOnce at hcompact
      rw [if_neg hdash] at hcompact
      exact hcompact
    unfold isRotationSuffix
    rw [hsplit]
    simp only [Bool.and_eq_true, all_eq_true]
    exact ⟨⟨⟨by simp, hdigits⟩, decide_eq_true (length_compact h.fits)⟩, hstamp⟩

/-- **A run.** The names are accepted, in order, and behind the one handed out before. -/
theorem names_behind (env : LogEnv K D) (h : OrderlyRun w collided readings) :
    (∀ name ∈ names env w readings, isRotatedSibling env.stem name = true) ∧
      (names env w readings).Pairwise (· < ·) ∧
      ∀ stamp, Last w collided stamp → ∀ name ∈ names env w readings,
        env.stem ++ [46] ++ stamp < name := by
  induction readings generalizing w collided with
  | nil => exact ⟨by simp [names], .nil, by simp [names]⟩
  | cons ms readings ih =>
    obtain ⟨hms, hrest⟩ := h
    obtain ⟨hsibling, hsorted, hbehind⟩ := ih hrest
    have hnext := hbehind _ (last_stamped hms)
    refine ⟨?_, pairwise_cons.2 ⟨hnext, hsorted⟩, fun stamp hlast => ?_⟩
    · exact forall_mem_cons.2 ⟨isRotatedSibling_stamp env hms, hsibling⟩
    · have hlt : env.stem ++ [46] ++ stamp < env.stem ++ [46] ++ w.rotationStamp ms :=
        append_left_lt (hlast.lt hms)
      exact forall_mem_cons.2 ⟨hlt, fun name hname => List.lt_trans hlt (hnext name hname)⟩

theorem getLast_max {l : List Text} {a b : Text} (h : l.Pairwise (· < ·))
    (hlast : l.getLast? = some b)
    (ha : a ∈ l) : a ≤ b := by
  obtain ⟨front, rfl⟩ := List.getLast?_eq_some_iff.1 hlast
  rcases mem_append.1 ha with ha | ha
  · exact Std.le_of_lt ((pairwise_append.1 h).2.2 a ha b (mem_singleton_self b))
  · rw [mem_singleton.1 ha]
    exact Std.le_refl b

/-- **Archive names sort in rotation order.** In every directory whose archives are rotations of the
run, the newest archive by name is the one of the last rotation, if it is still there. -/
theorem names_in_rotation_order (env : LogEnv K D) (w : World K) (readings : List ℕ)
    (h : OrderlyRun w false readings) :
    (∀ name ∈ names env w readings, isRotatedSibling env.stem name = true) ∧
      (names env w readings).Pairwise (· < ·) ∧
      ∀ dir name, (∀ n ∈ archives env dir, n ∈ names env w readings) → name ∈ archives env dir →
        (names env w readings).getLast? = some name → (archives env dir).getLast? = some name := by
  obtain ⟨hsibling, hsorted, -⟩ := names_behind env h
  refine ⟨hsibling, hsorted, fun dir name hdir hname hlast => ?_⟩
  obtain ⟨newest, hnewest⟩ : ∃ newest, (archives env dir).getLast? = some newest :=
    ⟨_, List.getLast?_eq_some_getLast (ne_nil_of_mem hname)⟩
  have hle := getLast_max hsorted hlast (hdir newest (mem_of_getLast? hnewest))
  have hge := getLast_max sorted_archives hnewest hname
  rw [hnewest, Std.le_antisymm hle hge]

/-- Two rotations in one millisecond and one in the next. -/
theorem two_rotations_in_order : OrderlyRun (plainWriter false) false [1000, 1000, 1001] ∧
      (names plainLog (plainWriter false) [1000, 1000, 1001]).Pairwise (· < ·) := by
  have h : OrderlyRun (plainWriter false) false [1000, 1000, 1001] := by
    refine ⟨⟨?_, ?_, fun h => absurd h Bool.false_ne_true⟩, ⟨?_, ?_, fun h => absurd h ?_⟩,
      ⟨?_, ?_, fun _ h => absurd h ?_⟩, trivial⟩ <;> decide +kernel
  exact ⟨h, (names_in_rotation_order plainLog (plainWriter false) _ h).2.1⟩

/-- The tenth collision in a millisecond sorts in front of the ninth, and a clock that steps back
puts the newer name in front. -/
theorem names_out_of_order :
    ¬ (names plainLog (plainWriter false) (List.replicate 11 1000)).Pairwise (· < ·) ∧
      ¬ (names plainLog (plainWriter false) [2000, 1000]).Pairwise (· < ·) := by
  decide +kernel

end AgentWallet.AuditLog.ArchiveNames
