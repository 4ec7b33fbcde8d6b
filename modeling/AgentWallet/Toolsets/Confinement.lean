import AgentWallet.Base.Programs
import AgentWallet.Toolsets.Extract

/-!
# Where an extraction writes

The loop of `extract_to_staging` over a whole file system, with links outside of the staging
directory and failures of any operation.  It refines the extraction into a tree
(`extractOnDisk_refines`): what it writes lies below the staging directory, and when it goes through
the staging directory holds that tree.
-/

namespace AgentWallet.Toolsets.Confinement

open Base Base.Programs Base.FileSystem List Base.Checks
open Extract

variable {s s' : Extraction} {entry : Option ArchiveEntry}

/-! ## The disk -/

abbrev Files := Fs String Bytes

/-- How an operation ends; a write may stop after some bytes. -/
inductive Fault where
  | none
  | refused
  | torn (written : ℕ)
deriving DecidableEq

/-- The files, how the next operations end, and for each file written the path asked for and the
place it was written to. -/
structure Disk where
  fs : Files
  faults : List Fault
  written : List (Path × Path)

abbrev Io := Program InstallError Disk

section

variable (follow : Path → Option Path)

def Disk.next (d : Disk) : Disk := { d with faults := d.faults.tail }

def Disk.fault (d : Disk) : Fault := d.faults.headD .none

def ensureDirStep (path : Path) : Io Unit := ExceptT.mk fun d =>
  match d.fault, ensureDir follow d.fs path with
  | .none, some fs => (.ok (), { d.next with fs := fs })
  | _, _ => (.error .io, d.next)

/-- `create_dir_all` -/
def createDirAllOnDisk (path : Path) : Io Unit :=
  (lineage path).foldlM (fun _ p => ensureDirStep follow p) ()

def Disk.write (d : Disk) (path place : Path) (fs : Files) : Disk :=
  { d.next with fs := fs, written := d.written ++ [(path, place)] }

/-- `OpenOptions::create_new`, `write_all` and `flush`. -/
def createNewStep (path : Path) (content : Bytes) : Io Unit := ExceptT.mk fun d =>
  match d.fault with
  | .none =>
    match FileSystem.createNew follow d.fs path content with
    | some (place, fs) => (.ok (), d.write path place fs)
    | none => (.error .io, d.next)
  | .refused => (.error .io, d.next)
  | .torn n =>
    match FileSystem.createNew follow d.fs path (content.take n) with
    | some (place, fs) => (.error .io, d.write path place fs)
    | none => (.error .io, d.next)

/-! ## The loop -/

variable (staging : Path)

def writeOnDisk (totalBytesRead : ℕ) (entry : ArchiveEntry) (path : Path) : Io ℕ :=
  match entry.entryType with
  | .directory => do
    createDirAllOnDisk follow (staging ++ path)
    return totalBytesRead
  | _ => do
    createDirAllOnDisk follow (staging ++ path.dropLast)
    let (content, total) ← lift (readContent totalBytesRead entry)
    createNewStep follow (staging ++ path) content
    return total

def extractEntryOnDisk (package : String) (s : Progress) (entry : Option ArchiveEntry) :
    Io Progress := do
  let c ← lift (checkEntry package s entry)
  let total ← writeOnDisk follow staging s.totalBytesRead c.entry c.path
  return s.after c total

def extractOnDisk (package : String) (archive : Archive) : Io Unit := do
  let s ← archive.entries.foldlM (extractEntryOnDisk follow staging package) .start
  lift (checkArchive archive s.topLevelDir)

end

/-! ## The tree as the disk holds it -/

variable {package : String}

def nodeOf : TreeNode → Node String Bytes
  | .file content => .file content
  | .directory => .directory

def Below (staging p : Path) : Prop := ∃ q, q ≠ [] ∧ p = staging ++ q

def Frame (staging : Path) (fs₀ : Files) (d : Disk) : Prop :=
  ∀ p, ¬ Below staging p → d.fs p = fs₀ p

/-- The staging directory holds the tree. -/
structure Holds (staging : Path) (fs₀ : Files) (tree : Tree) (d : Disk) : Prop where
  below : ∀ q, q ≠ [] → d.fs (staging ++ q) = (tree.lookup q).map nodeOf
  frame : Frame staging fs₀ d
  once : (d.written.map Prod.fst).Nodup
  written : ∀ x ∈ d.written, x.2 = x.1 ∧
    ∃ q content, q ≠ [] ∧ x.1 = staging ++ q ∧ tree.lookup q = some (.file content)

/-- The staging directory has just been made: it is there with all directories above it, and is
empty. -/
structure Fresh (staging : Path) (fs : Files) : Prop where
  directories : ∀ p ∈ lineage staging, fs p = some .directory
  empty : ∀ q, q ≠ [] → fs (staging ++ q) = none

section

variable {follow : Path → Option Path} {staging : Path} {fs₀ : Files} {tree tree' : Tree} {p : Path}

theorem not_below_of_lineage (h : p ∈ lineage staging) : ¬ Below staging p := by
  rintro ⟨q, hq, rfl⟩
  have hlen := (mem_lineage.mp h).1.length_le
  have hpos : 0 < q.length := length_pos_of_ne_nil hq
  simp only [length_append] at hlen
  omega

variable {q r : Path}

theorem lookup_concat {node : TreeNode} (hq : tree.lookup q = none) :
    (tree ++ [(q, node)]).lookup r = if r = q then some node else tree.lookup r := by
  rw [lookup_append]
  by_cases hr : r = q
  · subst hr
    simp [hq]
  · have hne : (r == q) = false := by simpa using hr
    simp [hr, lookup_cons, hne]

theorem lookup_makeDir (h : makeDir tree q = .ok tree') (r : Path) :
    tree'.lookup r = if r = q then some .directory else tree.lookup r := by
  unfold makeDir at h
  rcases hnode : tree.lookup q with _ | _ | _ <;> rw [hnode] at h
  · obtain rfl := Except.ok.inj h
    exact lookup_concat hnode
  · cases h
  · obtain rfl := Except.ok.inj h
    by_cases hr : r = q
    · rw [if_pos hr, hr, hnode]
    · rw [if_neg hr]

variable {content : Bytes}

theorem not_file_of_makeDir (h : makeDir tree q = .ok tree') :
    tree.lookup q ≠ some (.file content) := by
  intro hfile
  rw [makeDir, hfile] at h
  cases h

variable {d : Disk}

theorem Holds.next (h : Holds staging fs₀ tree d) : Holds staging fs₀ tree d.next :=
  ⟨h.below, h.frame, h.once, h.written⟩

variable {fs : Files}

theorem Holds.makeDir (h : Holds staging fs₀ tree d) (hq : q ≠ [])
    (hmake : Extract.makeDir tree q = .ok tree') (hat : fs (staging ++ q) = some .directory)
    (hother : ∀ p, p ≠ staging ++ q → fs p = d.fs p) :
    Holds staging fs₀ tree' { d.next with fs := fs } := by
  refine ⟨fun r hr => ?_, fun p hp => ?_, h.once, fun x hx => ?_⟩
  · rw [lookup_makeDir hmake]
    by_cases hrq : r = q
    · subst hrq
      simp [hat, nodeOf]
    · have hne : staging ++ r ≠ staging ++ q := fun heq => hrq (append_cancel_left heq)
      rw [if_neg hrq]
      exact (hother _ hne).trans (h.below r hr)
  · have hne : p ≠ staging ++ q := fun heq => hp ⟨q, hq, heq⟩
    exact (hother p hne).trans (h.frame p hp)
  · obtain ⟨hplace, r, content, hr, hpath, hfile⟩ := h.written x hx
    refine ⟨hplace, r, content, hr, hpath, ?_⟩
    have hrq : r ≠ q := by
      rintro rfl
      exact not_file_of_makeDir hmake hfile
    rw [lookup_makeDir hmake, if_neg hrq, hfile]

theorem Holds.createNew (h : Holds staging fs₀ tree d) (hq : q ≠ []) (hnew : tree.lookup q = none) :
    Holds staging fs₀ (tree ++ [(q, .file content)]) (d.write (staging ++ q) (staging ++ q)
      (Function.update d.fs (staging ++ q) (some (.file content)))) := by
  refine ⟨fun r hr => ?_, fun p hp => ?_, ?_, fun x hx => ?_⟩
  · rw [lookup_concat hnew]
    by_cases hrq : r = q
    · subst hrq
      simp [Disk.write, nodeOf]
    · have hne : staging ++ r ≠ staging ++ q := fun heq => hrq (append_cancel_left heq)
      rw [if_neg hrq]
      exact (Function.update_of_ne hne _ _).trans (h.below r hr)
  · have hne : p ≠ staging ++ q := fun heq => hp ⟨q, hq, heq⟩
    exact (Function.update_of_ne hne _ _).trans (h.frame p hp)
  · -- a path written before has a file in the tree, and this one has nothing
    have hfresh : staging ++ q ∉ d.written.map Prod.fst := by
      intro hmem
      obtain ⟨x, hx, hxq⟩ := mem_map.mp hmem
      obtain ⟨-, r, c, -, hpath, hfile⟩ := h.written x hx
      have hrq : r = q := append_cancel_left (hpath.symm.trans hxq)
      rw [hrq, hnew] at hfile
      cases hfile
    have hdisjoint : (d.written.map Prod.fst ++ [staging ++ q]).Nodup :=
      nodup_append.mpr ⟨h.once, nodup_singleton _, fun a ha b hb hab => by
        rw [mem_singleton] at hb
        exact hfresh (hb ▸ hab ▸ ha)⟩
    simpa [Disk.write] using hdisjoint
  · rcases mem_append.mp hx with hold | hlast
    · obtain ⟨hplace, r, c, hr, hpath, hfile⟩ := h.written x hold
      have hrq : r ≠ q := by
        rintro rfl
        rw [hnew] at hfile
        cases hfile
      exact ⟨hplace, r, c, hr, hpath, by rw [lookup_concat hnew, if_neg hrq, hfile]⟩
    · obtain rfl := mem_singleton.mp hlast
      exact ⟨rfl, q, content, hq, rfl, by rw [lookup_concat hnew, if_pos rfl]⟩

/-! ## One operation -/

variable {path : Path}

theorem exec_ensureDirStep (hfault : d.fault = .none) (h : ensureDir follow d.fs p = some fs) :
    exec (ensureDirStep follow p) d = (.ok (), { d.next with fs := fs }) := by
  simp [exec, ensureDirStep, ExceptT.run_mk, StateT.run, hfault, h]

theorem exec_ensureDirStep_refused (h : d.fault ≠ .none ∨ ensureDir follow d.fs p = none) :
    exec (ensureDirStep follow p) d = (.error .io, d.next) := by
  simp only [exec, ensureDirStep, ExceptT.run_mk, StateT.run]
  rcases h with h | h
  · rcases hfault : d.fault with _ | _ | n
    · exact absurd hfault h
    · rfl
    · rfl
  · rcases hfault : d.fault with _ | _ | n <;> simp only [h]

theorem exec_createNewStep (follow : Path → Option Path) (p : Path) (content : Bytes) (d : Disk) :
    exec (createNewStep follow p content) d = (.error .io, d.next) ∨
      (∃ place fs, FileSystem.createNew follow d.fs p content = some (place, fs) ∧
        exec (createNewStep follow p content) d = (.ok (), d.write p place fs)) ∨
      ∃ n place fs, FileSystem.createNew follow d.fs p (content.take n) = some (place, fs) ∧
        exec (createNewStep follow p content) d = (.error .io, d.write p place fs) := by
  simp only [exec, createNewStep, ExceptT.run_mk, StateT.run]
  rcases d.fault with _ | _ | n
  · rcases hcreate : FileSystem.createNew follow d.fs p content with _ | ⟨place, fs⟩
    · exact .inl (by simp only)
    · exact .inr (.inl ⟨place, fs, rfl, by simp only⟩)
  · exact .inl rfl
  · rcases hcreate : FileSystem.createNew follow d.fs p (content.take n) with _ | ⟨place, fs⟩
    · exact .inl (by simp only [hcreate])
    · exact .inr (.inr ⟨n, place, fs, hcreate, by simp only [hcreate]⟩)

variable (hbase : ∀ p ∈ lineage staging, fs₀ p = some .directory)

include hbase in
theorem Holds.parents (h : Holds staging fs₀ tree d)
    (hq : ∀ r ∈ parents q, tree.lookup r = some .directory) :
    ∀ p ∈ parents (staging ++ q), d.fs p = some .directory := by
  intro p hp
  rcases mem_parents_append hp with hs | ⟨r, hr, rfl⟩
  · rw [h.frame p (not_below_of_lineage hs), hbase p hs]
  · rw [h.below r (mem_parents.mp hr).2.1, hq r hr]
    rfl

theorem Holds.not_link (h : Holds staging fs₀ tree d) (hq : q ≠ []) :
    isLink (d.fs (staging ++ q)) = false := by
  rw [h.below q hq]
  rcases tree.lookup q with _ | _ | _ <;> rfl

include hbase in
theorem ensureDirStep_rule (hq : q ≠ [])
    (hparents : ∀ r ∈ FileSystem.parents q, tree.lookup r = some .directory) :
    Triple (Holds staging fs₀ tree) (ensureDirStep follow (staging ++ q))
      (fun _ d => ∃ tree', makeDir tree q = .ok tree' ∧ Holds staging fs₀ tree' d)
      (Frame staging fs₀) := by
  refine Triple.of_exec fun d hd => ?_
  rcases hstep : ensureDir follow d.fs (staging ++ q) with _ | fs
  · exact .inr ⟨_, _, exec_ensureDirStep_refused (.inr hstep), hd.frame⟩
  by_cases hfault : d.fault = .none
  · obtain ⟨hat, hbefore, hother⟩ := ensureDir_eq_some (hd.parents hbase hparents)
      (hd.not_link hq) hstep
    have hmake : ∃ tree', makeDir tree q = .ok tree' := by
      rw [hd.below q hq] at hbefore
      unfold makeDir
      rcases hnode : tree.lookup q with _ | c | _ <;> rw [hnode] at hbefore
      · exact ⟨_, rfl⟩
      · rcases hbefore with hb | hb <;> cases hb
      · exact ⟨_, rfl⟩
    obtain ⟨tree', hmake⟩ := hmake
    exact .inl ⟨_, _, exec_ensureDirStep hfault hstep, tree', hmake, hd.makeDir hq hmake hat hother⟩
  · exact .inr ⟨_, _, exec_ensureDirStep_refused (.inl hfault), hd.frame⟩

include hbase in
theorem ensureDirStep_base (hp : p ∈ lineage staging) :
    Triple (Holds staging fs₀ tree) (ensureDirStep follow p) (fun _ => Holds staging fs₀ tree)
      (Frame staging fs₀) := by
  refine Triple.of_exec fun d hd => ?_
  have hthere : ∀ r ∈ lineage staging, d.fs r = some .directory := fun r hr => by
    rw [hd.frame r (not_below_of_lineage hr), hbase r hr]
  have hparents : ∀ r ∈ FileSystem.parents p, d.fs r = some .directory := by
    intro r hr
    obtain ⟨hfront, hne, -⟩ := mem_parents.mp hr
    exact hthere r (mem_lineage.mpr ⟨hfront.trans (mem_lineage.mp hp).1, hne⟩)
  have hstep : ensureDir follow d.fs p = some d.fs := by
    rw [ensureDir, locate_of_directories hparents, Option.bind_some, hthere p hp]
  by_cases hfault : d.fault = .none
  · exact .inl ⟨_, _, exec_ensureDirStep hfault hstep, hd.next⟩
  · exact .inr ⟨_, _, exec_ensureDirStep_refused (.inl hfault), hd.frame⟩

include hbase in
theorem createNewStep_rule (hq : q ≠ [])
    (hparents : ∀ r ∈ FileSystem.parents q, tree.lookup r = some .directory) :
    Triple (Holds staging fs₀ tree) (createNewStep follow (staging ++ q) content)
      (fun _ d => ∃ tree', createNew tree q content = .ok tree' ∧ Holds staging fs₀ tree' d)
      (Frame staging fs₀) := by
  refine Triple.of_exec fun d hd => ?_
  have hcreated : ∀ c place fs, FileSystem.createNew follow d.fs (staging ++ q) c =
      some (place, fs) → tree.lookup q = none ∧
        Holds staging fs₀ (tree ++ [(q, .file c)]) (d.write (staging ++ q) place fs) := by
    intro c place fs hcreate
    obtain ⟨rfl, hnew, rfl⟩ := createNew_eq_some (hd.parents hbase hparents) hcreate
    rw [hd.below q hq, Option.map_eq_none_iff] at hnew
    exact ⟨hnew, hd.createNew hq hnew⟩
  rcases exec_createNewStep follow (staging ++ q) content d with
    hexec | ⟨place, fs, hcreate, hexec⟩ | ⟨n, place, fs, hcreate, hexec⟩
  · exact .inr ⟨_, _, hexec, hd.frame⟩
  · obtain ⟨hnew, hd'⟩ := hcreated content place fs hcreate
    exact .inl ⟨_, _, hexec, _, by rw [Extract.createNew, hnew], hd'⟩
  · exact .inr ⟨_, _, hexec, (hcreated _ place fs hcreate).2.frame⟩

/-! ## The loop refines the extraction into a tree -/

include hbase in
theorem ensureDirs_rule (before : List Path) {after : List Path} (hq : lineage q = before ++ after)
    (hbefore : ∀ r ∈ before, tree.lookup r = some .directory) : Triple (Holds staging fs₀ tree)
      ((after.map fun r => staging ++ r).foldlM (fun _ p => ensureDirStep follow p) ())
      (fun _ d => ∃ tree', after.foldlM makeDir tree = .ok tree' ∧
        (∀ r ∈ before ++ after, tree'.lookup r = some .directory) ∧ Holds staging fs₀ tree' d)
      (Frame staging fs₀) := by
  induction after generalizing before tree with
  | nil => exact Triple.pure_rule fun d hd => ⟨tree, rfl, by simpa using hbefore, hd⟩
  | cons p after ih =>
    have hp : p ∈ lineage q := by rw [hq]; simp
    have hparents : ∀ r ∈ FileSystem.parents p, tree.lookup r = some .directory :=
      fun r hr => hbefore r (mem_of_lineage_eq hq hr)
    refine Triple.bind_rule (ensureDirStep_rule hbase (mem_lineage.mp hp).2 hparents) fun _ => ?_
    refine Triple.of_states fun d hd => ?_
    obtain ⟨tree₁, hmake, hd⟩ := hd
    have hmore : ∀ r ∈ before ++ [p], tree₁.lookup r = some .directory := by
      intro r hr
      rw [lookup_makeDir hmake]
      by_cases hrp : r = p
      · rw [if_pos hrp]
      · rw [if_neg hrp]
        have hmem : r ∈ before := by simpa [hrp] using hr
        exact hbefore r hmem
    refine Triple.pre ?_ fun d' hd' => hd' ▸ hd
    refine (ih _ (by rw [hq]; simp) hmore).post fun _ d' hd' => ?_
    obtain ⟨tree', hfold, hall, hd'⟩ := hd'
    refine ⟨tree', ?_, by simpa using hall, hd'⟩
    rw [foldlM_cons, bind_eq_ok_iff]
    exact ⟨tree₁, hmake, hfold⟩

include hbase in
theorem createDirAllOnDisk_rule (q : Path) :
    Triple (Holds staging fs₀ tree) (createDirAllOnDisk follow (staging ++ q))
      (fun _ d => ∃ tree', createDirAll tree q = .ok tree' ∧
        (∀ r ∈ lineage q, tree'.lookup r = some .directory) ∧ Holds staging fs₀ tree' d)
      (Frame staging fs₀) := by
  rw [createDirAllOnDisk, lineage_append, foldlM_append]
  have habove : Triple (Holds staging fs₀ tree)
      ((lineage staging).foldlM (fun _ p => ensureDirStep follow p) ())
      (fun _ => Holds staging fs₀ tree) (Frame staging fs₀) :=
    Triple.foldlM_rule (fun _ _ hp => ensureDirStep_base hbase hp) ()
  exact Triple.bind_rule habove fun _ =>
    ensureDirs_rule hbase [] rfl (fun _ hr => absurd hr not_mem_nil)

theorem parents_subset_lineage_dropLast (h : r ∈ FileSystem.parents q) :
    r ∈ lineage q.dropLast := by
  obtain ⟨hfront, hne, hlen⟩ := mem_parents.mp h
  refine mem_lineage.mpr ⟨?_, hne⟩
  rw [prefix_iff_eq_take] at hfront ⊢
  rw [dropLast_eq_take, take_take, min_eq_left (by omega)]
  exact hfront

include hbase in
theorem writeOnDisk_rule {entry : ArchiveEntry} (hpath : path ≠ []) :
    Triple (Holds staging fs₀ s.tree) (writeOnDisk follow staging s.totalBytesRead entry path)
      (fun total d => ∃ tree', writeEntry s entry path = .ok (tree', total) ∧
        Holds staging fs₀ tree' d) (Frame staging fs₀) := by
  unfold writeOnDisk writeEntry
  rcases entry.entryType <;> dsimp only
  case directory =>
    refine Triple.bind_rule (createDirAllOnDisk_rule hbase _) fun _ => ?_
    refine Triple.pure_rule fun d hd => ?_
    obtain ⟨tree', hdirs, -, hd⟩ := hd
    exact ⟨tree', bind_eq_ok_iff.mpr ⟨tree', hdirs, rfl⟩, hd⟩
  -- a file is written behind the directories of its path
  all_goals
    refine Triple.bind_rule (createDirAllOnDisk_rule hbase _) fun _ => ?_
    refine Triple.of_states fun d hd => ?_
    obtain ⟨tree₁, hdirs, hthere, hd⟩ := hd
    refine Triple.pre ?_ fun d' hd' => hd' ▸ hd
    refine Triple.lift_bind_rule (fun _ h => h.frame) fun x hread => ?_
    have hparents : ∀ r ∈ FileSystem.parents path, tree₁.lookup r = some .directory :=
      fun r hr => hthere r (parents_subset_lineage_dropLast hr)
    refine Triple.bind_rule (createNewStep_rule hbase hpath hparents) fun _ => ?_
    refine Triple.pure_rule fun d' hd' => ?_
    obtain ⟨tree', hcreate, hd'⟩ := hd'
    refine ⟨tree', ?_, hd'⟩
    simp only [bind_eq_ok_iff]
    exact ⟨tree₁, hdirs, x, hread, tree', hcreate, rfl⟩

theorem ne_nil_of_checkTopLevel {package top : String} {topLevelDir : Option String}
    (h : checkTopLevel package topLevelDir path = .ok top) : path ≠ [] := by
  rintro rfl
  simp only [checkTopLevel, bind_eq_ok_iff] at h
  obtain ⟨_, hhead, -⟩ := h
  cases hhead

include hbase in
theorem extractEntryOnDisk_rule (entry : Option ArchiveEntry) :
    Triple (Holds staging fs₀ s.tree) (extractEntryOnDisk follow staging package s.toProgress entry)
      (fun p d => ∃ s', extractEntry package s entry = .ok s' ∧ p = s'.toProgress ∧
        Holds staging fs₀ s'.tree d) (Frame staging fs₀) := by
  refine Triple.lift_bind_rule (fun _ h => h.frame) fun c hcheck => ?_
  have hpath : c.path ≠ [] := ne_nil_of_checkTopLevel (checkEntry_eq_ok hcheck).2.2.2.1
  refine Triple.bind_rule (writeOnDisk_rule hbase hpath) fun total => ?_
  refine Triple.pure_rule fun d hd => ?_
  obtain ⟨tree', hwrite, hd⟩ := hd
  exact ⟨_, extractEntry_eq_ok_iff.mpr ⟨c, tree', total, hcheck, hwrite, rfl⟩, rfl, hd⟩

include hbase in
theorem extractEntriesOnDisk_rule (entries : List (Option ArchiveEntry)) :
    Triple (Holds staging fs₀ s.tree)
      (entries.foldlM (extractEntryOnDisk follow staging package) s.toProgress)
      (fun p d => ∃ s', entries.foldlM (extractEntry package) s = .ok s' ∧ p = s'.toProgress ∧
        Holds staging fs₀ s'.tree d) (Frame staging fs₀) := by
  induction entries generalizing s with
  | nil => exact Triple.pure_rule fun d hd => ⟨s, rfl, rfl, hd⟩
  | cons entry entries ih =>
    refine Triple.bind_rule (extractEntryOnDisk_rule hbase entry) fun p => ?_
    refine Triple.of_states fun d hd => ?_
    obtain ⟨s₁, hentry, rfl, hd⟩ := hd
    refine Triple.pre ?_ fun d' hd' => hd' ▸ hd
    refine ih.post fun _ d' hd' => ?_
    obtain ⟨s', hfold, hp, hd'⟩ := hd'
    refine ⟨s', ?_, hp, hd'⟩
    rw [foldlM_cons, bind_eq_ok_iff]
    exact ⟨s₁, hentry, hfold⟩

include hbase in
theorem extractOnDisk_refines (follow : Path → Option Path) (package : String) (archive : Archive) :
    Triple (Holds staging fs₀ []) (extractOnDisk follow staging package archive)
      (fun _ d => ∃ tree, extractToStaging package archive = .ok tree ∧ Holds staging fs₀ tree d)
      (Frame staging fs₀) := by
  have hloop : Triple (Holds staging fs₀ [])
      (archive.entries.foldlM (extractEntryOnDisk follow staging package) .start) _ _ :=
    extractEntriesOnDisk_rule (s := .start) hbase archive.entries
  refine Triple.bind_rule hloop fun p => ?_
  refine Triple.lift_rule ?_ fun _ d hcheck hd => ?_
  · rintro d ⟨s, -, -, hd⟩
    exact hd.frame
  · obtain ⟨s, hfold, rfl, hd⟩ := hd
    refine ⟨s.tree, ?_, hd⟩
    simp only [extractToStaging, bind_eq_ok_iff]
    exact ⟨s, hfold, (), hcheck, rfl⟩

end

/-! ## What the tree holds -/

def entrySize (entry : ArchiveEntry) : ℕ :=
  if entry.entryType = .regular then (entry.content.map List.length).getD 0 else 0

/-- The name of an entry up to the case of its letters. -/
def entryKey (entry : Option ArchiveEntry) : Option (List Char) :=
  entry.bind fun e => (entryPath e).toOption.map collisionKey

/-- The entry is a file with that path and that content. -/
structure IsFile (entry : ArchiveEntry) (path : Path) (content : Bytes) : Prop where
  regular : entry.entryType = .regular
  named : entryPath entry = .ok path
  content : entry.content = some content

section

variable {package : String} {tree tree' : Tree} {path : Path}

theorem lookup_file_createDirAll {q : Path} {content : Bytes}
    (h : createDirAll tree path = .ok tree') :
    tree'.lookup q = some (.file content) ↔ tree.lookup q = some (.file content) := by
  refine foldlM_invariant (P := fun t => t.lookup q = some (.file content) ↔
    tree.lookup q = some (.file content)) ?_ Iff.rfl h
  intro t p _ t' ht hmake
  rw [lookup_makeDir hmake, ← ht]
  by_cases hqp : q = p
  · subst hqp
    simp [not_file_of_makeDir hmake]
  · rw [if_neg hqp]

theorem writeEntry_eq_ok {entry : ArchiveEntry} {total : ℕ} (hother : entry.entryType ≠ .other)
    (h : writeEntry s entry path = .ok (tree', total)) :
    (∀ q content, tree'.lookup q = some (.file content) ↔ s.tree.lookup q = some (.file content) ∨
        entry.entryType = .regular ∧ q = path ∧ entry.content = some content) ∧
    (entry.entryType = .regular → ∃ content, entry.content = some content) ∧
    total = s.totalBytesRead + entrySize entry ∧ entrySize entry ≤ maxEntryBytes ∧
    (s.totalBytesRead ≤ maxTotalDecompressed → total ≤ maxTotalDecompressed) := by
  unfold writeEntry at h
  rcases htype : entry.entryType <;> rw [htype] at h <;>
    simp only [bind_eq_ok_iff, Except.ok.injEq] at h
  case directory =>
    obtain ⟨t, ht, rfl, rfl⟩ := h
    refine ⟨fun q content => ?_, by simp, by simp [entrySize, htype], by simp [entrySize, htype], id⟩
    simp [lookup_file_createDirAll ht]
  case regular =>
    obtain ⟨t, ht, ⟨content, total'⟩, hread, t', hcreate, rfl, rfl⟩ := h
    obtain ⟨hcontent, hsize, rfl, htotal⟩ := readContent_eq_ok hread
    have hentry : entrySize entry = content.length := by simp [entrySize, htype, hcontent]
    refine ⟨fun q c => ?_, fun _ => ⟨content, hcontent⟩, by rw [hentry], by omega, fun _ => by omega⟩
    unfold Extract.createNew at hcreate
    rcases hnew : t.lookup path with _ | node <;> rw [hnew] at hcreate
    · obtain rfl := Except.ok.inj hcreate
      rw [lookup_concat hnew, ← lookup_file_createDirAll ht]
      by_cases hq : q = path
      · subst hq
        simp [hnew, hcontent]
      · simp [hq]
    · cases hcreate
  case other => exact absurd htype hother

/-- What the loop has done with the entries so far. -/
structure Faithful (package : String) (done : List (Option ArchiveEntry)) (s : Extraction) :
    Prop where
  files : ∀ q content, s.tree.lookup q = some (.file content) ↔
    ∃ entry, some entry ∈ done ∧ IsFile entry q content
  read : ∀ entry ∈ done, ∃ e path, entry = some e ∧ entryPath e = .ok path ∧
    (e.entryType = .directory ∨ ∃ content, IsFile e path content)
  keys : done.map entryKey = (s.seenNames.map some).reverse
  once : s.seenNames.Nodup
  count : s.entryCount = done.length
  few : done.length ≤ maxEntries
  small : ∀ entry, some entry ∈ done → entrySize entry ≤ maxEntryBytes
  total : s.totalBytesRead = (done.map fun entry => (entry.map entrySize).getD 0).sum
  bounded : s.totalBytesRead ≤ maxTotalDecompressed

theorem faithful_start : Faithful package [] .start where
  files := by simp [Extraction.start]
  read := by simp
  keys := rfl
  once := nodup_nil
  count := rfl
  few := Nat.zero_le _
  small := by simp
  total := rfl
  bounded := Nat.zero_le _

theorem Faithful.step {done : List (Option ArchiveEntry)} (hs : Faithful package done s)
    (h : extractEntry package s entry = .ok s') : Faithful package (done ++ [entry]) s' := by
  obtain ⟨c, tree, total, hcheck, hwrite, rfl⟩ := extractEntry_eq_ok_iff.mp h
  obtain ⟨rfl, hother, hpath, -, hname, hcount⟩ := checkEntry_eq_ok hcheck
  obtain ⟨hfiles, hread, htotal, hsize, hbounded⟩ := writeEntry_eq_ok hother hwrite
  have hdone : s.entryCount = done.length := hs.count
  have hcount : s.entryCount + 1 ≤ maxEntries := hcount
  refine ⟨fun q content => ?_, fun e he => ?_, ?_, nodup_cons.mpr ⟨hname, hs.once⟩,
    by simp [Progress.after, hdone], by simpa [← hdone] using hcount, fun e he => ?_, ?_,
      hbounded hs.bounded⟩
  · rw [hfiles, hs.files]
    constructor
    · rintro (⟨e, he, hfile⟩ | ⟨hregular, rfl, hcontent⟩)
      · exact ⟨e, mem_append_left _ he, hfile⟩
      · exact ⟨c.entry, by simp, hregular, hpath, hcontent⟩
    · rintro ⟨e, he, hfile⟩
      rcases mem_append.mp he with he | he
      · exact .inl ⟨e, he, hfile⟩
      · obtain rfl : e = c.entry := by simpa using he
        have hq : q = c.path := Except.ok.inj (hfile.named.symm.trans hpath)
        exact .inr ⟨hfile.regular, hq, hfile.content⟩
  · rcases mem_append.mp he with he | he
    · exact hs.read e he
    · refine ⟨c.entry, c.path, mem_singleton.mp he, hpath, ?_⟩
      rcases htype : c.entry.entryType
      case directory => exact .inl rfl
      case regular =>
        obtain ⟨content, hcontent⟩ := hread htype
        exact .inr ⟨content, htype, hpath, hcontent⟩
      case other => exact absurd htype hother
  · simp [Progress.after, hs.keys, entryKey, hpath, Except.toOption]
  · rcases mem_append.mp he with he | he
    · exact hs.small e he
    · obtain rfl : e = c.entry := by simpa using he
      exact hsize
  · simp [Progress.after, htotal, hs.total]

variable {archive : Archive}

theorem extractToStaging_faithful (h : extractToStaging package archive = .ok tree) :
    ∃ s, s.tree = tree ∧ Faithful package archive.entries s := by
  simp only [extractToStaging, bind_eq_ok_iff] at h
  obtain ⟨s, hfold, -, -, htree⟩ := h
  have hstart : Faithful package [] .start := faithful_start
  have hs := foldlM_prefix (fun _ _ _ _ hs hstep => Faithful.step hs hstep) hstart hfold
  exact ⟨s, Except.ok.inj htree, hs⟩

/-! ## Confinement -/

variable {staging : Path} {fs₀ : Files} {d : Disk}

/-- What a disk holds behind an extraction that went through. -/
structure Confined (staging : Path) (package : String) (archive : Archive) (fs₀ : Files)
    (d : Disk) : Prop where
  /-- What was created is the directory of the package or lies below it. -/
  created : ∀ p, fs₀ p = none → d.fs p ≠ none → staging ++ [package] <+: p
  kept : ∀ p, fs₀ p ≠ none → d.fs p = fs₀ p
  /-- No file was written twice. -/
  once : (d.written.map Prod.fst).Nodup
  /-- A file was written where its path says, not where a link leads. -/
  direct : ∀ x ∈ d.written, x.2 = x.1
  /-- The files created are the regular entries. -/
  files : ∀ p content, fs₀ p = none → (d.fs p = some (.file content) ↔
    ∃ entry path, some entry ∈ archive.entries ∧ IsFile entry path content ∧ p = staging ++ path)
  read : ∀ entry ∈ archive.entries, ∃ e path, entry = some e ∧ entryPath e = .ok path ∧
    (e.entryType = .directory ∨ ∃ content, IsFile e path content)
  /-- No two entries have the same name up to the case of its letters. -/
  distinct : (archive.entries.map entryKey).Nodup
  few : archive.entries.length ≤ maxEntries
  small : ∀ entry, some entry ∈ archive.entries → entrySize entry ≤ maxEntryBytes
  bounded : (archive.entries.map fun entry => (entry.map entrySize).getD 0).sum ≤
    maxTotalDecompressed

theorem Fresh.holds (h : Fresh staging fs₀) (faults : List Fault) :
    Holds staging fs₀ [] ⟨fs₀, faults, []⟩ where
  below q hq := by simpa using h.empty q hq
  frame _ _ := rfl
  once := nodup_nil
  written := by simp

theorem Holds.created (h : Holds staging fs₀ tree d) {p : Path} (hp : fs₀ p = none)
    (hthere : d.fs p ≠ none) : ∃ q node, q ≠ [] ∧ p = staging ++ q ∧ tree.lookup q = some node := by
  by_cases hbelow : Below staging p
  · obtain ⟨q, hq, rfl⟩ := hbelow
    rw [h.below q hq, ne_eq, Option.map_eq_none_iff, ← ne_eq, Option.ne_none_iff_exists'] at hthere
    obtain ⟨node, hnode⟩ := hthere
    exact ⟨q, node, hq, rfl, hnode⟩
  · exact absurd ((h.frame p hbelow).trans hp) hthere

theorem Holds.confined (hfresh : Fresh staging fs₀)
    (htree : extractToStaging package archive = .ok tree) (hd : Holds staging fs₀ tree d) :
    Confined staging package archive fs₀ d := by
  obtain ⟨s, rfl, hs⟩ := extractToStaging_faithful htree
  refine ⟨fun p hp hthere => ?_, fun p hp => ?_, hd.once, fun x hx => (hd.written x hx).1,
    fun p content hp => ?_, hs.read, ?_, hs.few, hs.small, hs.total ▸ hs.bounded⟩
  · obtain ⟨q, node, hq, rfl, hnode⟩ := hd.created hp hthere
    have hhead := (extractToStaging_origin htree _ (mem_of_lookup hnode)).contained
    obtain ⟨rest, rfl⟩ : ∃ rest, q = package :: rest := by
      rcases q with _ | ⟨a, rest⟩
      · exact absurd rfl hq
      · exact ⟨rest, by simpa using hhead⟩
    exact ⟨rest, by simp⟩
  · refine hd.frame p ?_
    rintro ⟨q, hq, rfl⟩
    exact hp (hfresh.empty q hq)
  · constructor
    · intro hfile
      obtain ⟨q, node, hq, rfl, hnode⟩ := hd.created hp (by simp [hfile])
      rw [hd.below q hq, hnode] at hfile
      rcases node with c | _
      · obtain rfl : c = content := by simpa [nodeOf] using hfile
        obtain ⟨entry, hentry, hisFile⟩ := (hs.files q c).mp hnode
        exact ⟨entry, q, hentry, hisFile, rfl⟩
      · simp [nodeOf] at hfile
    · rintro ⟨entry, q, hentry, hisFile, rfl⟩
      have hnode := (hs.files q content).mpr ⟨entry, hentry, hisFile⟩
      have hq : q ≠ [] := by
        rintro rfl
        have hhead := (extractToStaging_origin htree _ (mem_of_lookup hnode)).contained
        cases hhead
      rw [hd.below q hq, hnode]
      rfl
  · rw [hs.keys, nodup_reverse]
    exact hs.once.map (Option.some_injective _)

/-- An extraction into a fresh staging directory, wherever links outside of it lead and whichever
operations fail, changes nothing outside of it; one that goes through has created the directory of
the package and the entries of the archive in it. -/
theorem extraction_confined (follow : Path → Option Path) (hfresh : Fresh staging fs₀)
    (package : String) (archive : Archive) (faults : List Fault) {result : Except InstallError Unit}
    {d : Disk} (hrun : exec (extractOnDisk follow staging package archive) ⟨fs₀, faults, []⟩ =
      (result, d)) : (∀ p, ¬ Below staging p → d.fs p = fs₀ p) ∧
      (result = .ok () → Confined staging package archive fs₀ d) := by
  obtain ⟨hok, herror⟩ := extractOnDisk_refines hfresh.directories follow package archive _
    (hfresh.holds faults)
  rw [hrun] at hok herror
  rcases result with e | ⟨⟩
  · exact ⟨herror e rfl, fun h => by cases h⟩
  · obtain ⟨tree, htree, hd⟩ := hok () rfl
    exact ⟨hd.frame, fun _ => hd.confined hfresh htree⟩

end

def emptyStaging : Files := fun p => if p = ["s"] then some .directory else none

theorem emptyStaging_fresh : Fresh ["s"] emptyStaging where
  directories p hp := by
    obtain rfl : p = ["s"] := by simpa [lineage] using hp
    rfl
  empty q hq := by simp [emptyStaging, hq]

/-- A package with its directory, `p/a`, the directory `p/d` and `p/d/b`. -/
def twoFiles : Archive where
  entries := [some ⟨.directory, [112, 47], none⟩, some ⟨.regular, [112, 47, 97], some [1]⟩,
    some ⟨.directory, [112, 47, 100, 47], none⟩,
    some ⟨.regular, [112, 47, 100, 47, 98], some [2, 3]⟩]
  trailingData := some false

/-- The disk behind the extraction of that package. -/
def twoFilesRun : Except InstallError Unit × Disk :=
  exec (extractOnDisk (fun _ => none) ["s"] "p" twoFiles) ⟨emptyStaging, [], []⟩

theorem twoFiles_confined : twoFilesRun.1 = .ok () ∧
    Confined ["s"] "p" twoFiles emptyStaging twoFilesRun.2 := by
  have hok : twoFilesRun.1 = .ok () := by decide +kernel
  have hrun := extraction_confined (fun _ => none) emptyStaging_fresh "p" twoFiles []
    (Prod.eta twoFilesRun).symm
  exact ⟨hok, hrun.2 hok⟩

/-- The directory of the package is created too. -/
theorem package_directory_created : Fresh ["s"] emptyStaging ∧ twoFilesRun.1 = .ok () ∧
    emptyStaging ["s", "p"] = none ∧ twoFilesRun.2.fs ["s", "p"] = some .directory :=
  ⟨emptyStaging_fresh, by decide +kernel, rfl, by rfl⟩

end AgentWallet.Toolsets.Confinement
