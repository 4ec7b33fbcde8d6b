import AgentWallet.Base.Runs
import AgentWallet.Mpp.Readable

/-!
# Snapshots and their generations

The store against an adversary with the file system.  A `World` is the disk with histories that no
process can read: the keys in use so far, every file that was completely written with the key it was
written under, the records of the last mutation whose rename completed since the last completed
reset (`renamed`), and those of a mutation that was interrupted behind its temporary file
(`interrupted`).
-/

namespace AgentWallet.Mpp.Snapshots

open Base.Checks Base.Runs Mpp.Record Mpp.Store Mpp.Readable List

structure World (D A K T B : Type) where
  disk : Disk K T B
  keys : Set K
  written : Set (K × StateFile T B)
  renamed : List (AuthorizationRecord D A)
  interrupted : Option (List (AuthorizationRecord D A))

/-- A call with the number of durable steps it makes, or the adversary at the state file. -/
inductive Event (D A K T B : Type) where
  | mutate (key : K) (op : Operation D A) (cut : ℕ)
  | openForPrepare (newKey : K) (cut : ℕ)
  | openForRead (cut : ℕ)
  | reset (newKey : K) (cut : ℕ)
  | delete
  | replace (file : StateFile T B)

variable {D A K T B : Type}

section

variable (C : Codec D A K T B)

def recordsIn : StateFile T B → List (AuthorizationRecord D A)
  | .tagged _ body => (C.fromSlice body).elim [] fun wire => wire.records
  | _ => []

/-- One durable step, with the histories.  A reset is complete when the counter is back at zero. -/
def World.apply (w : World D A K T B) (step : Step K T B) : World D A K T B :=
  match step with
  | .audit => w
  | .generation 0 => { w with disk := w.disk.apply step, renamed := [], interrupted := none }
  | .generation (_ + 1) => { w with disk := w.disk.apply step }
  | .temporary file =>
    { w with
      disk := w.disk.apply step
      written := w.written ∪ {entry | w.disk.key = some entry.1 ∧ entry.2 = file}
      interrupted := some (recordsIn C file) }
  | .persist file =>
    { w with disk := w.disk.apply step, renamed := recordsIn C file, interrupted := none }
  | .rotateKey key => { w with disk := w.disk.apply step, keys := insert key w.keys }
  | .removeFile => { w with disk := w.disk.apply step }

def World.applyAll (w : World D A K T B) (steps : List (Step K T B)) : World D A K T B :=
  steps.foldl (World.apply C) w

variable [DecidableEq D] [DecidableEq K] [DecidableEq T] (P : Primitives D A)

def World.step (w : World D A K T B) : Event D A K T B → World D A K T B
  | .mutate key op cut => w.applyAll C ((mutate P C key op w.disk).steps.take cut)
  | .openForPrepare newKey cut => w.applyAll C ((openForPrepare P C newKey w.disk).steps.take cut)
  | .openForRead cut => w.applyAll C ((openForRead P C w.disk).steps.take cut)
  | .reset newKey cut => w.applyAll C ((resetAt newKey w.disk).steps.take cut)
  | .delete => { w with disk := { w.disk with file := none } }
  | .replace file => { w with disk := { w.disk with file := some file } }

end

/-! ## Assumptions -/

variable {key newKey : K} {wire : WireStore D A}

/-- The tag of the file is that of its body under the key. -/
def TagMatches (C : Codec D A K T B) (key : K) : StateFile T B → Prop
  | .tagged tag body => tag = C.computeTag key body
  | _ => False

/-- JSON is read back, and no tag is valid under two keys. -/
structure Sound (C : Codec D A K T B) : Prop where
  lawful : C.Lawful
  separate : ∀ key key' body, C.computeTag key body = C.computeTag key' body → key = key'

/-- Files of an earlier version of the store, with their keys. -/
abbrev Legacy (K T B : Type) := Set (K × StateFile T B)

/-- Tags are not forged: a file whose tag matches under a key was written under that key.  New keys
are fresh. -/
def Allowed (C : Codec D A K T B) (legacy : Legacy K T B) (w : World D A K T B) :
    Event D A K T B → Prop
  | .replace file => ∀ key, TagMatches C key file → (key, file) ∈ w.written ∪ legacy
  | .openForPrepare newKey _ => newKey ∉ w.keys
  | .reset newKey _ => newKey ∉ w.keys
  | _ => True

/-- A profile before the first call of this version of the store: no counter, and no files but those
of version 1. -/
structure Start [DecidableEq D] [DecidableEq T] (P : Primitives D A) (C : Codec D A K T B)
    (legacy : Legacy K T B) (w : World D A K T B) : Prop where
  counter : w.disk.counter = none
  written : w.written = ∅
  renamed : w.renamed = []
  interrupted : w.interrupted = none
  key : ∀ key, w.disk.key = some key → key ∈ w.keys
  legacyKeys : ∀ entry ∈ legacy, entry.1 ∈ w.keys
  legacyVersion : ∀ entry ∈ legacy, ∀ wire,
    readAuthenticated P C entry.1 (some entry.2) = .ok wire → wire.version = 1
  file : ∀ file, w.disk.file = some file → ∀ key, TagMatches C key file → (key, file) ∈ legacy

/-! ## The invariant -/

def Wrote (C : Codec D A K T B) (w : World D A K T B) (key : K) (wire : WireStore D A) : Prop :=
  (key, fileOf C key wire) ∈ w.written

/-- Files with a valid tag are those that were written, one for each key and generation. -/
structure Inv [DecidableEq D] [DecidableEq T] (P : Primitives D A) (C : Codec D A K T B)
    (legacy : Legacy K T B) (w : World D A K T B) : Prop where
  file : ∀ file, w.disk.file = some file → ∀ key, TagMatches C key file →
    (key, file) ∈ w.written ∪ legacy
  key : ∀ key, w.disk.key = some key → key ∈ w.keys
  keys : ∀ entry ∈ w.written ∪ legacy, entry.1 ∈ w.keys
  legacyVersion : ∀ entry ∈ legacy, ∀ wire,
    readAuthenticated P C entry.1 (some entry.2) = .ok wire → wire.version = 1
  form : ∀ key file, (key, file) ∈ w.written → ∃ wire, file = fileOf C key wire
  bounded : ∀ key wire, w.disk.key = some key → Wrote C w key wire →
    ∃ counter, w.disk.counter = some counter ∧ 0 < wire.generation ∧ wire.generation ≤ counter
  unique : ∀ key wire wire', Wrote C w key wire → Wrote C w key wire' →
    wire.generation = wire'.generation → wire = wire'
  current : ∀ key wire, w.disk.key = some key → Wrote C w key wire →
    w.disk.counter = some wire.generation →
    wire.records = w.renamed ∨ w.interrupted = some wire.records
  zero : w.disk.counter = some 0 → w.renamed = []

section

variable {C : Codec D A K T B}

theorem fileOf_inj (hC : C.Lawful) {key : K} {wire wire' : WireStore D A}
    (h : (fileOf C key wire : StateFile T B) = fileOf C key wire') : wire = wire' := by
  obtain ⟨-, hbody⟩ := StateFile.tagged.inj h
  have hread := hC wire
  rw [hbody, hC wire'] at hread
  exact (Option.some.inj hread).symm

@[simp] theorem recordsIn_fileOf (hC : C.Lawful) (key : K) (wire : WireStore D A) :
    recordsIn C (fileOf C key wire) = wire.records := by
  simp [recordsIn, fileOf, hC wire]

end

variable [DecidableEq D] [DecidableEq T] {P : Primitives D A} {C : Codec D A K T B}
  {legacy : Legacy K T B} {w : World D A K T B}

theorem Start.inv (h : Start P C legacy w) : Inv P C legacy w := by
  have hnone : ∀ {key wire}, ¬ Wrote C w key wire := fun {key wire} hw => by
    unfold Wrote at hw
    rw [h.written] at hw
    exact hw
  refine ⟨fun file hfile key hmatch => .inr (h.file file hfile key hmatch), h.key, ?_,
    h.legacyVersion, ?_, fun _ _ _ hw => absurd hw hnone, fun _ _ _ hw => absurd hw hnone,
    fun _ _ _ hw => absurd hw hnone, fun _ => h.renamed⟩
  · rintro entry (hw | hl)
    · rw [h.written] at hw
      cases hw
    · exact h.legacyKeys entry hl
  · intro key file hw
    rw [h.written] at hw
    cases hw

/-- No snapshot has the generation that comes next. -/
def Unwritten (C : Codec D A K T B) (w : World D A K T B) (key : K) (generation : ℕ) : Prop :=
  0 < generation ∧ ∀ wire, Wrote C w key wire → wire.generation < generation

theorem Inv.advance (h : Inv P C legacy w) (hkey : w.disk.key = some key) {n : ℕ}
    (hnew : Unwritten C w key n) : Inv P C legacy (w.apply C (.generation n)) := by
  obtain ⟨m, rfl⟩ : ∃ m, n = m + 1 := ⟨n - 1, by have := hnew.1; omega⟩
  refine ⟨h.file, h.key, h.keys, h.legacyVersion, h.form, fun key' wire hkey' hw => ?_, h.unique,
    fun key' wire hkey' hw hcounter => ?_, fun hzero => ?_⟩
  · obtain rfl : key = key' := Option.some.inj (hkey.symm.trans hkey')
    obtain ⟨-, -, hpos, -⟩ := h.bounded key wire hkey hw
    exact ⟨m + 1, rfl, hpos, (hnew.2 wire hw).le⟩
  · obtain rfl : key = key' := Option.some.inj (hkey.symm.trans hkey')
    have hlt := hnew.2 wire hw
    have heq : m + 1 = wire.generation := Option.some.inj hcounter
    omega
  · cases hzero

theorem Inv.stage (hC : C.Lawful) (h : Inv P C legacy w) (hkey : w.disk.key = some key)
    (hcounter : w.disk.counter = some wire.generation) (hnew : Unwritten C w key wire.generation) :
    Inv P C legacy (w.apply C (.temporary (fileOf C key wire))) := by
  have hwrote : ∀ {key' wire'}, Wrote C (w.apply C (.temporary (fileOf C key wire))) key' wire' →
      Wrote C w key' wire' ∨ key' = key ∧ wire' = wire := by
    rintro key' wire' (hw | ⟨hkey', hfile⟩)
    · exact .inl hw
    · obtain rfl : key = key' := Option.some.inj (hkey.symm.trans hkey')
      exact .inr ⟨rfl, fileOf_inj hC hfile⟩
  refine ⟨fun file hfile key' hmatch => ?_, h.key, ?_, h.legacyVersion, ?_,
    fun key' wire' hkey' hw => ?_, fun key' wire₁ wire₂ h₁ h₂ heq => ?_,
    fun key' wire' hkey' hw hgen => ?_, h.zero⟩
  · rcases h.file file hfile key' hmatch with hw | hl
    · exact .inl (.inl hw)
    · exact .inr hl
  · rintro entry ((hw | ⟨hkey', -⟩) | hl)
    · exact h.keys entry (.inl hw)
    · exact h.key entry.1 hkey'
    · exact h.keys entry (.inr hl)
  · rintro key' file (hw | ⟨hkey', rfl⟩)
    · exact h.form key' file hw
    · obtain rfl : key = key' := Option.some.inj (hkey.symm.trans hkey')
      exact ⟨wire, rfl⟩
  · rcases hwrote hw with hw | ⟨-, rfl⟩
    · exact h.bounded key' wire' hkey' hw
    · exact ⟨wire'.generation, hcounter, hnew.1, le_refl _⟩
  · -- An older snapshot has an older generation.
    rcases hwrote h₁ with hw₁ | ⟨rfl, rfl⟩ <;> rcases hwrote h₂ with hw₂ | ⟨hk₂, rfl⟩
    · exact h.unique key' wire₁ wire₂ hw₁ hw₂ heq
    · rw [hk₂] at hw₁
      have hlt := hnew.2 wire₁ hw₁
      omega
    · have hlt := hnew.2 wire₂ hw₂
      omega
    · rfl
  · rcases hwrote hw with hw | ⟨-, rfl⟩
    · obtain rfl : key = key' := Option.some.inj (hkey.symm.trans hkey')
      have hlt := hnew.2 wire' hw
      have heq : wire.generation = wire'.generation := Option.some.inj (hcounter.symm.trans hgen)
      omega
    · exact .inr (congrArg some (recordsIn_fileOf hC key wire'))

theorem Inv.rename (hC : Sound C) (h : Inv P C legacy w) (hkey : w.disk.key = some key)
    (hcounter : w.disk.counter = some wire.generation) (hwrote : Wrote C w key wire) :
    Inv P C legacy (w.apply C (.persist (fileOf C key wire))) := by
  refine ⟨fun file hfile key' hmatch => ?_, h.key, h.keys, h.legacyVersion, h.form, h.bounded,
    h.unique, fun key' wire' hkey' hw hgen => ?_, fun hzero => ?_⟩
  · obtain rfl : fileOf C key wire = file := Option.some.inj hfile
    obtain rfl : key = key' := hC.separate _ _ _ hmatch
    exact .inl hwrote
  · obtain rfl : key = key' := Option.some.inj (hkey.symm.trans hkey')
    have heq : wire.generation = wire'.generation := Option.some.inj (hcounter.symm.trans hgen)
    obtain rfl := h.unique key wire wire' hwrote hw heq
    exact .inl (recordsIn_fileOf hC.lawful key wire).symm
  · obtain ⟨counter, hc, hpos, hle⟩ := h.bounded key wire hkey hwrote
    have h0 : wire.generation = 0 := Option.some.inj (hcounter.symm.trans hzero)
    omega

theorem Inv.rotate (h : Inv P C legacy w) (hfresh : newKey ∉ w.keys) :
    Inv P C legacy (w.apply C (.rotateKey newKey)) := by
  have hnone : ∀ {key wire}, some newKey = some key → ¬ Wrote C w key wire := by
    intro key wire hkey hw
    rw [← Option.some.inj hkey] at hw
    exact hfresh (h.keys _ (.inl hw))
  refine ⟨h.file, fun key hkey => ?_,
      fun entry hentry => Set.mem_insert_of_mem _ (h.keys entry hentry),
    h.legacyVersion, h.form, fun key wire hkey hw => absurd hw (hnone hkey), h.unique,
    fun key wire hkey hw => absurd hw (hnone hkey), h.zero⟩
  rw [← Option.some.inj hkey]
  exact Set.mem_insert _ _

theorem Inv.unlink (h : Inv P C legacy w) :
    Inv P C legacy { w with disk := { w.disk with file := none } } :=
  ⟨fun file hfile => (by cases hfile), h.key, h.keys, h.legacyVersion, h.form, h.bounded, h.unique,
    h.current, h.zero⟩

theorem Inv.restart (h : Inv P C legacy w)
    (hnone : ∀ key wire, w.disk.key = some key → ¬ Wrote C w key wire) :
    Inv P C legacy (w.apply C (.generation 0)) :=
  ⟨h.file, h.key, h.keys, h.legacyVersion, h.form,
    fun key wire hkey hw => absurd hw (hnone key wire hkey), h.unique,
    fun key wire hkey hw => absurd hw (hnone key wire hkey), fun _ => rfl⟩

/-! ## Calls -/

theorem Inv.publication (hC : Sound C) (h : Inv P C legacy w) (hkey : w.disk.key = some key)
    (hnew : Unwritten C w key wire.generation) (cut : ℕ) :
    Inv P C legacy (w.applyAll C ((publication C key wire).take cut)) := by
  have h₁ := h.advance hkey hnew
  obtain ⟨m, hm⟩ : ∃ m, wire.generation = m + 1 := ⟨wire.generation - 1, by have := hnew.1; omega⟩
  have hkey₁ : (w.apply C (.generation wire.generation)).disk.key = some key := by
    rw [hm]
    exact hkey
  have hcounter₁ : (w.apply C (.generation wire.generation)).disk.counter = some wire.generation := by
    rw [hm]
    rfl
  have hwritten₁ : (w.apply C (.generation wire.generation)).written = w.written := by
    rw [hm]
    rfl
  have hnew₁ : Unwritten C (w.apply C (.generation wire.generation)) key wire.generation := by
    refine ⟨hnew.1, fun wire' hw => hnew.2 wire' ?_⟩
    unfold Wrote at hw ⊢
    rwa [hwritten₁] at hw
  have h₂ := h₁.stage hC.lawful hkey₁ hcounter₁ hnew₁
  have h₃ := h₂.rename hC hkey₁ hcounter₁ (.inr ⟨hkey₁, rfl⟩)
  rcases cut with _ | _ | _ | cut
  · exact h
  · exact h₁
  · exact h₂
  · rw [take_of_length_le (by simp [Readable.publication])]
    exact h₃

theorem Inv.mint (h : Inv P C legacy w) (hkey : w.disk.key = none) (hfresh : newKey ∉ w.keys)
    (cut : ℕ) : Inv P C legacy (w.applyAll C ((mintSteps newKey w.disk).take cut)) := by
  have hzero := h.restart fun key wire hkey' => by
    rw [hkey] at hkey'
    cases hkey'
  unfold mintSteps
  split_ifs with hcounter
  · rcases cut with _ | _ | cut
    · exact h
    · exact hzero
    · rw [take_of_length_le (by simp)]
      exact hzero.rotate hfresh
  · rcases cut with _ | cut
    · exact h
    · rw [take_of_length_le (by simp)]
      exact h.rotate hfresh

theorem Inv.reset (h : Inv P C legacy w) (hfresh : newKey ∉ w.keys) (cut : ℕ) :
    Inv P C legacy (w.applyAll C ((resetAt newKey w.disk).steps.take cut)) := by
  have hrotate := h.rotate hfresh
  have hremove := hrotate.unlink
  have hzero := hremove.restart fun key wire hkey hw => by
    obtain rfl : newKey = key := Option.some.inj hkey
    exact hfresh (h.keys _ (.inl hw))
  rcases cut with _ | _ | _ | _ | cut
  · exact h
  · exact h
  · exact hrotate
  · exact hremove
  · rw [take_of_length_le (by simp [resetAt])]
    exact hzero

section

variable [DecidableEq K]

theorem Inv.unwritten_of_read (h : Inv P C legacy w)
    (hread : readVerified P C key w.disk = .ok wire) :
    w.disk.key = some key ∧ w.disk.counter = some wire.generation ∧
      Unwritten C w key (wire.generation + 1) := by
  obtain ⟨⟨hkey, -⟩, hcase⟩ := readVerified_eq_ok_iff.1 hread
  have hcounter : w.disk.counter = some wire.generation := by
    rcases hcase with ⟨-, hzero, rfl⟩ | ⟨-, -, -, hcounter, -⟩
    · exact hzero
    · exact hcounter
  refine ⟨hkey, hcounter, Nat.succ_pos _, fun wire' hw => ?_⟩
  obtain ⟨counter, hc, -, hle⟩ := h.bounded key wire' hkey hw
  obtain rfl : wire.generation = counter := Option.some.inj (hcounter.symm.trans hc)
  omega

theorem Inv.mutate (hC : Sound C) (h : Inv P C legacy w) (key : K) (op : Operation D A) (cut : ℕ) :
    Inv P C legacy (w.step C P (.mutate key op cut)) := by
  show Inv P C legacy (w.applyAll C ((Store.mutate P C key op w.disk).steps.take cut))
  rcases mutate_cases P C key op w.disk with ⟨e, hplan⟩ | ⟨_, steps, wire, wire', hplan, hmut⟩
  · simpa [hplan, World.applyAll] using h
  · obtain ⟨hkey, -, hnew⟩ := h.unwritten_of_read hmut.read
    rw [hplan, hmut.steps]
    exact h.publication hC hkey hnew cut

theorem verifyOrAdopt_steps (key : K) (disk : Disk K T B) :
    (verifyOrAdopt P C key disk).steps = [] ∨ disk.counter = none ∧ ∃ wire : WireStore D A,
      readAuthenticated P C key disk.file = .ok wire ∧ wire.version = 1 ∧
        (verifyOrAdopt P C key disk).steps = .audit :: publication C key (adopted wire) := by
  unfold verifyOrAdopt
  rcases hcounter : disk.counter with _ | counter
  · rcases hadopt : adoptable P C key disk with _ | wire
    · exact .inl rfl
    · dsimp only
      rcases hwrite : writeAtomic C key wire none disk with _ | steps
      · exact .inl rfl
      · obtain ⟨-, -, rfl⟩ := writeAtomic_eq_ok hwrite
        unfold adoptable at hadopt
        simp only [bind_eq_ok_iff, refuseIf_eq_ok_iff, exists_const] at hadopt
        obtain ⟨-, found, hread, hversion, hpure⟩ := hadopt
        obtain rfl := Except.ok.inj hpure
        exact .inr ⟨rfl, found, hread, not_not.1 hversion, rfl⟩
  · exact .inl rfl

theorem Inv.verifyOrAdopt (hC : Sound C) (h : Inv P C legacy w) (hkey : w.disk.key = some key)
    (cut : ℕ) : Inv P C legacy (w.applyAll C ((verifyOrAdopt P C key w.disk).steps.take cut)) := by
  rcases verifyOrAdopt_steps (P := P) key w.disk with hsteps |
    ⟨hcounter, wire, -, -, hsteps⟩
  · rw [hsteps]
    simpa [World.applyAll] using h
  · have hnew : Unwritten C w key (adopted wire).generation := by
      refine ⟨Nat.one_pos, fun wire' hw => ?_⟩
      obtain ⟨counter, hc, -⟩ := h.bounded key wire' hkey hw
      rw [hcounter] at hc
      cases hc
    rw [hsteps]
    rcases cut with _ | cut
    · exact h
    · exact h.publication hC hkey hnew cut

/-- What `open_for_prepare` writes: it provisions a profile without a key, or adopts. -/
theorem openForPrepare_steps (newKey : K) (disk : Disk K T B) :
    (openForPrepare P C newKey disk).steps = [] ∨
    (disk.key = none ∧ (openForPrepare P C newKey disk).steps = mintSteps newKey disk) ∨
    ∃ key, disk.key = some key ∧
      (openForPrepare P C newKey disk).steps = (Store.verifyOrAdopt P C key disk).steps := by
  unfold openForPrepare
  by_cases hadvanced : advanced disk = true ∧ disk.file = none
  · rw [if_pos hadvanced]
    exact .inl rfl
  · rw [if_neg hadvanced]
    rcases hkey : disk.key with _ | key
    · dsimp only
      split_ifs with hstate
      · exact .inl rfl
      · refine .inr (.inl ⟨rfl, ?_⟩)
        -- The counter is there when the new store is verified, so nothing is adopted.
        have hnone : (Store.verifyOrAdopt P C newKey
            ((mintSteps newKey disk).foldl Disk.apply disk)).steps = [] := by
          rcases verifyOrAdopt_steps (P := P) newKey
            ((mintSteps newKey disk).foldl Disk.apply disk) with hsteps | ⟨hcounter, -⟩
          · exact hsteps
          · unfold mintSteps at hcounter
            split_ifs at hcounter with hnone
            · cases hcounter
            · exact absurd hcounter hnone
        rw [hnone, append_nil]
    · dsimp only
      rcases howner : C.refuseOwnerPublicKey key with _ | _
      · exact .inl rfl
      · exact .inr (.inr ⟨key, rfl, rfl⟩)

theorem openForRead_steps (disk : Disk K T B) : (openForRead P C disk).steps = [] ∨
    ∃ key, disk.key = some key ∧
      (openForRead P C disk).steps = (Store.verifyOrAdopt P C key disk).steps := by
  unfold openForRead
  by_cases hadvanced : advanced disk = true ∧ disk.file = none
  · rw [if_pos hadvanced]
    exact .inl rfl
  · rw [if_neg hadvanced]
    rcases hkey : disk.key with _ | key
    · split_ifs <;> exact .inl rfl
    · dsimp only
      rcases howner : C.refuseOwnerPublicKey key with _ | _
      · exact .inl rfl
      · exact .inr ⟨key, rfl, rfl⟩

/-- **Every event keeps the invariant.** -/
theorem Inv.step (hC : Sound C) (w : World D A K T B) (e : Event D A K T B) (h : Inv P C legacy w)
    (hok : Allowed C legacy w e) : Inv P C legacy (w.step C P e) := by
  cases e with
  | mutate key op cut => exact h.mutate hC key op cut
  | openForPrepare newKey cut =>
    show Inv P C legacy (w.applyAll C ((Store.openForPrepare P C newKey w.disk).steps.take cut))
    rcases openForPrepare_steps (P := P) newKey w.disk with hsteps |
      ⟨hkey, hsteps⟩ | ⟨key, hkey, hsteps⟩
    · rw [hsteps]
      simpa [World.applyAll] using h
    · rw [hsteps]
      exact h.mint hkey hok cut
    · rw [hsteps]
      exact h.verifyOrAdopt hC hkey cut
  | openForRead cut =>
    show Inv P C legacy (w.applyAll C ((Store.openForRead P C w.disk).steps.take cut))
    rcases openForRead_steps (P := P) w.disk with hsteps | ⟨key, hkey, hsteps⟩
    · rw [hsteps]
      simpa [World.applyAll] using h
    · rw [hsteps]
      exact h.verifyOrAdopt hC hkey cut
  | reset newKey cut => exact h.reset hok cut
  | delete => exact h.unlink
  | replace file =>
    refine ⟨fun file' hfile key hmatch => ?_, h.key, h.keys, h.legacyVersion, h.form, h.bounded,
      h.unique, h.current, h.zero⟩
    obtain rfl : file = file' := Option.some.inj hfile
    exact hok key hmatch

theorem Inv.run (hC : Sound C) (h : Inv P C legacy w) (events : List (Event D A K T B))
    (hok : Along (World.step C P) (Allowed C legacy) w events) :
    Inv P C legacy (run (World.step C P) w events) :=
  run_invariant_along (Inv.step hC) events w h hok

/-! ## What a read returns -/

theorem Inv.records_of_read (hC : C.Lawful) (h : Inv P C legacy w)
    (hread : readVerified P C key w.disk = .ok wire) :
    wire.records = w.renamed ∨ w.interrupted = some wire.records := by
  obtain ⟨⟨hkey, -⟩, ⟨-, hzero, rfl⟩ | ⟨file, hfile, hauth, hcounter, hversion, -⟩⟩ :=
    readVerified_eq_ok_iff.1 hread
  · exact .inl (h.zero hzero).symm
  · obtain ⟨tag, body, hfile', -, htag, hslice, -⟩ := readAuthenticated_eq_ok_iff.1 hauth
    obtain rfl := Option.some.inj hfile'
    rcases h.file _ hfile key htag with hw | hl
    · obtain ⟨wire', hform⟩ := h.form key _ hw
      -- The body is that of the snapshot that was written.
      obtain ⟨-, hbody⟩ := StateFile.tagged.inj hform
      rw [hbody, hC wire'] at hslice
      obtain rfl := Option.some.inj hslice
      rw [hform] at hw
      exact h.current key wire' hkey hw hcounter
    · have hone := h.legacyVersion _ hl wire hauth
      rw [hone] at hversion
      cases hversion

/-- **No rollback.**  After every run of mutations, openings and resets that stop after any of their
durable steps, with an adversary that deletes and replaces the state file in between: a read that
succeeds returns the records of the last mutation whose rename completed since the last completed
reset, or those of the mutation that was interrupted behind its temporary file since then.  And two
snapshots that were written under one key with the same generation are the same. -/
theorem read_renamed_or_interrupted (hC : Sound C) (hw : Start P C legacy w)
    (events : List (Event D A K T B)) (hok : Along (World.step C P) (Allowed C legacy) w events) :
    (∀ key wire, readVerified P C key (run (World.step C P) w events).disk = .ok wire →
      wire.records = (run (World.step C P) w events).renamed ∨
        (run (World.step C P) w events).interrupted = some wire.records) ∧
    ∀ key wire wire', Wrote C (run (World.step C P) w events) key wire →
      Wrote C (run (World.step C P) w events) key wire' → wire.generation = wire'.generation →
      wire = wire' := by
  have hinv := hw.inv.run hC events hok
  exact ⟨fun key wire hread => hinv.records_of_read hC.lawful hread, hinv.unique⟩

end

/-! ## A temporary file in the place of the state file -/

def newProfile : World ℕ Unit ℕ ℕ (WireStore ℕ Unit) := ⟨⟨none, none, none⟩, ∅, ∅, [], none⟩

/-- The temporary file of the interrupted call. -/
def readyFile : StateFile ℕ (WireStore ℕ Unit) :=
  fileOf plainCodec 7
    ⟨storeVersion, 2, [{ preparedAtThousand with status := .ready, updatedAt := 1001 }]⟩

/-- A record is inserted, the call that makes it ready crashes before its rename, and its temporary
file is put in the place of the state file. -/
def interruptedRun : List (Event ℕ Unit ℕ ℕ (WireStore ℕ Unit)) :=
  [.openForPrepare 7 9, .mutate 7 (.insertPrepared preparedAtThousand 1000) 9,
    .mutate 7 (makeReady 1001) 2, .replace readyFile]

omit [DecidableEq D] in
theorem plainCodec_sound : Sound (plainCodec (D := D)) := ⟨plainCodec_lawful, fun _ _ _ h => h⟩

theorem start_newProfile : Start plainPrimitives plainCodec ∅ newProfile :=
  ⟨rfl, rfl, rfl, rfl, fun _ h => (by cases h), fun _ h => (by cases h), fun _ h => (by cases h),
    fun _ h => (by cases h)⟩

theorem allowed_interruptedRun :
    Along (World.step plainCodec plainPrimitives) (Allowed plainCodec ∅) newProfile
      interruptedRun := by
  refine ⟨fun h => h, trivial, trivial, fun key hmatch => ?_, trivial⟩
  obtain rfl : 7 = key := hmatch
  exact .inl (.inr ⟨rfl, rfl⟩)

/-- The run ends with a store that reads as one of the two. -/
theorem interruptedRun_reads : ∃ wire, readVerified plainPrimitives plainCodec 7
      (run (World.step plainCodec plainPrimitives) newProfile interruptedRun).disk = .ok wire ∧
    (wire.records = (run (World.step plainCodec plainPrimitives) newProfile interruptedRun).renamed ∨
      (run (World.step plainCodec plainPrimitives) newProfile interruptedRun).interrupted =
        some wire.records) := by
  have hread := (read_renamed_or_interrupted plainCodec_sound start_newProfile interruptedRun
    allowed_interruptedRun).1 7
  have hok : (readVerified plainPrimitives plainCodec 7 (run (World.step plainCodec plainPrimitives)
      newProfile interruptedRun).disk).toOption.isSome = true := by
    decide +kernel
  rcases hwire : readVerified plainPrimitives plainCodec 7
      (run (World.step plainCodec plainPrimitives)
      newProfile interruptedRun).disk with _ | wire
  · rw [hwire] at hok
    cases hok
  · exact ⟨wire, rfl, hread wire hwire⟩

/-- A read accepts the temporary file: it returns the ready record, of a call whose rename never
completed. -/
theorem temporary_file_is_read : Start plainPrimitives plainCodec ∅ newProfile ∧
    Along (World.step plainCodec plainPrimitives) (Allowed plainCodec ∅) newProfile interruptedRun ∧
    ((readVerified plainPrimitives plainCodec 7
      (run (World.step plainCodec plainPrimitives) newProfile interruptedRun).disk).toOption.map
        fun wire => wire.records.map (·.status)) = some [.ready] ∧
    (run (World.step plainCodec plainPrimitives) newProfile interruptedRun).renamed.map (·.status) =
      [.prepared] :=
  ⟨start_newProfile, allowed_interruptedRun, by decide +kernel, by decide +kernel⟩

end AgentWallet.Mpp.Snapshots
