import Mathlib

/-!
# File systems with links

A file system maps paths to nodes.  A path that leads through links stands for another place, and
where links lead is left open; a path whose directories are all there stands for itself
(`locate_of_directories`).  The lemmas say what the two creating operations change: the node at
the path, where nothing was, and nothing else.
-/

namespace AgentWallet.Base.FileSystem

open List

variable {N C : Type} {path p : List N} {follow : List N → Option (List N)}

inductive Node (N C : Type) where
  | file (content : C)
  | directory
  | link (target : List N)

abbrev Fs (N C : Type) := List N → Option (Node N C)

def isDirectory : Option (Node N C) → Bool
  | some .directory => true
  | _ => false

def isLink : Option (Node N C) → Bool
  | some (.link _) => true
  | _ => false

theorem isDirectory_iff {x : Option (Node N C)} : isDirectory x = true ↔ x = some .directory := by
  rcases x with _ | _ | _ | _ <;> simp [isDirectory]

/-- The path and the directories above it, the topmost first. -/
def lineage (path : List N) : List (List N) := path.inits.filter fun p => !p.isEmpty

def parents (path : List N) : List (List N) := (lineage path).filter fun p => p.length < path.length

theorem mem_lineage : p ∈ lineage path ↔ p <+: path ∧ p ≠ [] := by
  simp [lineage]

theorem mem_parents : p ∈ parents path ↔ p <+: path ∧ p ≠ [] ∧ p.length < path.length := by
  simp [parents, mem_lineage, and_assoc]

theorem pairwise_inits : ∀ path : List N, path.inits.Pairwise fun p q => p.length < q.length
  | [] => by simp
  | a :: path => by
    rw [inits_cons, pairwise_cons]
    refine ⟨?_, ?_⟩
    · intro q hq
      obtain ⟨t, -, rfl⟩ := mem_map.mp hq
      simp
    · rw [pairwise_map]
      exact (pairwise_inits path).imp fun h => by simpa using h

theorem pairwise_lineage (path : List N) : (lineage path).Pairwise fun p q => p.length < q.length :=
  (pairwise_inits path).filter _

theorem lineage_append (s t : List N) :
    lineage (s ++ t) = lineage s ++ (lineage t).map fun l => s ++ l := by
  have htail : t.inits.tail = lineage t := by
    rcases t with _ | ⟨a, t⟩
    · rfl
    · simp [lineage, filter_map, Function.comp_def]
  have hkeep : ((lineage t).map fun l => s ++ l).filter (fun p => !p.isEmpty) =
      (lineage t).map fun l => s ++ l := by
    rw [filter_eq_self]
    intro p hp
    obtain ⟨l, hl, rfl⟩ := mem_map.mp hp
    simp [(mem_lineage.mp hl).2]
  rw [lineage, inits_append, filter_append, htail, hkeep]
  rfl

theorem mem_parents_append {s t : List N} (h : p ∈ parents (s ++ t)) :
    p ∈ lineage s ∨ ∃ l ∈ parents t, p = s ++ l := by
  obtain ⟨hmem, hlen⟩ := mem_filter.mp h
  rw [lineage_append] at hmem
  rcases mem_append.mp hmem with hs | ht
  · exact .inl hs
  · obtain ⟨l, hl, rfl⟩ := mem_map.mp ht
    obtain ⟨hfront, hne⟩ := mem_lineage.mp hl
    have hshort : l.length < t.length := by simpa using hlen
    exact .inr ⟨l, mem_parents.mpr ⟨hfront, hne, hshort⟩, rfl⟩

theorem mem_of_lineage_eq {q : List N} {before after : List (List N)}
    (h : lineage path = before ++ p :: after) (hq : q ∈ parents p) : q ∈ before := by
  obtain ⟨hfront, hne, hlen⟩ := mem_parents.mp hq
  have hp : p ∈ lineage path := by rw [h]; simp
  have hmem : q ∈ lineage path := mem_lineage.mpr ⟨hfront.trans (mem_lineage.mp hp).1, hne⟩
  have hsorted := pairwise_lineage path
  rw [h] at hmem hsorted
  rcases mem_append.mp hmem with hbefore | hafter
  · exact hbefore
  · exfalso
    rcases mem_cons.mp hafter with rfl | hafter
    · omega
    · have hlt : p.length < q.length :=
        (pairwise_cons.mp (pairwise_append.mp hsorted).2.1).1 q hafter
      omega

/-- The place a path stands for: itself, where all directories above it are there, and wherever the
links lead, where there is one among them. -/
def locate (follow : List N → Option (List N)) (fs : Fs N C) (path : List N) :
    Option (List N) :=
  if (parents path).all fun p => isDirectory (fs p) then some path
  else if (parents path).any fun p => isLink (fs p) then follow path
  else none

variable {fs : Fs N C}

theorem locate_of_directories (h : ∀ p ∈ parents path, fs p = some .directory) :
    locate follow fs path = some path := by
  have hall : ((parents path).all fun p => isDirectory (fs p)) = true := by
    rw [all_eq_true]
    exact fun p hp => isDirectory_iff.mpr (h p hp)
  rw [locate, if_pos hall]

section

variable [DecidableEq N]

/-- `mkdir`, where a directory that is already there is no error; a link may lead to one. -/
def ensureDir (follow : List N → Option (List N)) (fs : Fs N C) (path : List N) :
    Option (Fs N C) :=
  (locate follow fs path).bind fun place =>
    match fs place with
    | none => some (Function.update fs place (some .directory))
    | some (.file _) => none
    | some _ => some fs

/-- The creation of a file where nothing stands: the place it is written to, and the file system
behind it. -/
def createNew (follow : List N → Option (List N)) (fs : Fs N C) (path : List N)
    (content : C) : Option (List N × Fs N C) :=
  (locate follow fs path).bind fun place =>
    match fs place with
    | none => some (place, Function.update fs place (some (.file content)))
    | some _ => none

variable {fs' : Fs N C}

theorem ensureDir_eq_some (hparents : ∀ p ∈ parents path, fs p = some .directory)
    (hlink : isLink (fs path) = false) (h : ensureDir follow fs path = some fs') :
    fs' path = some .directory ∧ (fs path = none ∨ fs path = some .directory) ∧
      ∀ p, p ≠ path → fs' p = fs p := by
  rw [ensureDir, locate_of_directories hparents, Option.bind_some] at h
  rcases hnode : fs path with _ | _ | _ | _ <;> rw [hnode] at h hlink
  · obtain rfl := Option.some.inj h
    exact ⟨by simp, .inl rfl, fun p hp => by simp [hp]⟩
  · cases h
  · obtain rfl := Option.some.inj h
    exact ⟨hnode, .inr rfl, fun _ _ => rfl⟩
  · cases hlink

theorem createNew_eq_some {place : List N} {content : C}
    (hparents : ∀ p ∈ parents path, fs p = some .directory)
    (h : createNew follow fs path content = some (place, fs')) :
    place = path ∧ fs path = none ∧ fs' = Function.update fs path (some (.file content)) := by
  rw [createNew, locate_of_directories hparents, Option.bind_some] at h
  rcases hnode : fs path with _ | _ <;> rw [hnode] at h
  · obtain ⟨rfl, rfl⟩ := Prod.mk.inj (Option.some.inj h)
    exact ⟨rfl, rfl, rfl⟩
  · cases h

end

end AgentWallet.Base.FileSystem
