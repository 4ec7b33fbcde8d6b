import Mathlib

/-!
# Documents as streams of events

A parser of YAML gives a document as a stream of events, with a start and an end around the content
of every sequence and mapping.  `Node` is the tree a stream stands for and `streamEvents` the stream
of a list of documents.
-/

namespace AgentWallet.Base.Yaml

open List

/-- An event, with the anchor a node carries; `0` is none. -/
inductive Event where
  | streamStart
  | streamEnd
  | documentStart
  | documentEnd
  | aliasOf (anchorId : ℕ)
  | scalar (value : String) (anchorId : ℕ)
  | sequenceStart (anchorId : ℕ)
  | sequenceEnd
  | mappingStart (anchorId : ℕ)
  | mappingEnd
deriving DecidableEq

mutual

inductive Node where
  | aliasOf (anchorId : ℕ)
  | scalar (value : String) (anchorId : ℕ)
  | sequence (anchorId : ℕ) (items : Nodes)
  | mapping (anchorId : ℕ) (entries : Entries)

inductive Nodes where
  | nil
  | cons (item : Node) (items : Nodes)

inductive Entries where
  | nil
  | cons (key value : Node) (entries : Entries)

end

def Entries.toList : Entries → List (Node × Node)
  | .nil => []
  | .cons key value entries => (key, value) :: entries.toList

def Node.scalar? : Node → Option String
  | .scalar value _ => some value
  | _ => none

/-! ## Streams -/

mutual

def Node.events : Node → List Event
  | .aliasOf anchorId => [.aliasOf anchorId]
  | .scalar value anchorId => [.scalar value anchorId]
  | .sequence anchorId items => .sequenceStart anchorId :: (items.events ++ [.sequenceEnd])
  | .mapping anchorId entries => .mappingStart anchorId :: (entries.events ++ [.mappingEnd])

def Nodes.events : Nodes → List Event
  | .nil => []
  | .cons item items => item.events ++ items.events

def Entries.events : Entries → List Event
  | .nil => []
  | .cons key value entries => key.events ++ (value.events ++ entries.events)

end

theorem Entries.events_eq : ∀ entries : Entries,
    entries.events = entries.toList.flatMap fun entry => entry.1.events ++ entry.2.events
  | .nil => rfl
  | .cons key value entries => by
    rw [Entries.events, Entries.toList, flatMap_cons, Entries.events_eq entries, append_assoc]

def documentEvents (root : Node) : List Event :=
  .documentStart :: (root.events ++ [.documentEnd])

def streamEvents (docs : List Node) : List Event :=
  .streamStart :: (docs.flatMap documentEvents ++ [.streamEnd])

/-- An event outside of all documents' content. -/
def Event.isFraming : Event → Bool
  | .streamStart => true
  | .streamEnd => true
  | .documentStart => true
  | .documentEnd => true
  | _ => false

mutual

theorem Node.not_isFraming : ∀ (n : Node) {ev : Event}, ev ∈ n.events → ev.isFraming = false
  | .aliasOf _, _, h => by rw [mem_singleton.1 h]; rfl
  | .scalar _ _, _, h => by rw [mem_singleton.1 h]; rfl
  | .sequence _ items, _, h => by
    rcases mem_cons.1 h with rfl | h
    · rfl
    rcases mem_append.1 h with h | h
    · exact Nodes.not_isFraming items h
    · rw [mem_singleton.1 h]; rfl
  | .mapping _ entries, _, h => by
    rcases mem_cons.1 h with rfl | h
    · rfl
    rcases mem_append.1 h with h | h
    · exact Entries.not_isFraming entries h
    · rw [mem_singleton.1 h]; rfl

theorem Nodes.not_isFraming : ∀ (items : Nodes) {ev : Event}, ev ∈ items.events →
    ev.isFraming = false
  | .nil, _, h => by cases h
  | .cons item items, _, h => by
    rcases mem_append.1 h with h | h
    · exact Node.not_isFraming item h
    · exact Nodes.not_isFraming items h

theorem Entries.not_isFraming : ∀ (entries : Entries) {ev : Event}, ev ∈ entries.events →
    ev.isFraming = false
  | .nil, _, h => by cases h
  | .cons key value entries, _, h => by
    rcases mem_append.1 h with h | h
    · exact Node.not_isFraming key h
    rcases mem_append.1 h with h | h
    · exact Node.not_isFraming value h
    · exact Entries.not_isFraming entries h

end

theorem streamEnd_notMem (docs : List Node) : Event.streamEnd ∉ docs.flatMap documentEvents := by
  intro h
  obtain ⟨root, -, h⟩ := mem_flatMap.1 h
  rcases mem_cons.1 h with h | h
  · cases h
  rcases mem_append.1 h with h | h
  · exact Bool.noConfusion (Node.not_isFraming root h)
  · cases mem_singleton.1 h

/-! ## Passing over a tree -/

section

variable {σ : Type*} {f : σ → Event → σ} {P : ℕ → σ → Prop}

/-- What is kept at every event inside of a collection. -/
structure Skims (f : σ → Event → σ) (P : ℕ → σ → Prop) : Prop where
  aliasOf : ∀ {d s} anchorId, P d s → P d (f s (.aliasOf anchorId))
  scalar : ∀ {d s} value anchorId, P d s → P d (f s (.scalar value anchorId))
  sequenceStart : ∀ {d s} anchorId, P d s → P (d + 1) (f s (.sequenceStart anchorId))
  sequenceEnd : ∀ {d s}, P (d + 1) s → P d (f s .sequenceEnd)
  mappingStart : ∀ {d s} anchorId, P d s → P (d + 1) (f s (.mappingStart anchorId))
  mappingEnd : ∀ {d s}, P (d + 1) s → P d (f s .mappingEnd)

mutual

theorem Skims.node (h : Skims f P) : ∀ (n : Node) {d : ℕ} {s : σ}, P d s → P d (n.events.foldl f s)
  | .aliasOf anchorId, _, _, hs => h.aliasOf anchorId hs
  | .scalar value anchorId, _, _, hs => h.scalar value anchorId hs
  | .sequence anchorId items, _, _, hs => by
    rw [Node.events, foldl_cons, foldl_append]
    exact h.sequenceEnd (Skims.nodes h items (h.sequenceStart anchorId hs))
  | .mapping anchorId entries, _, _, hs => by
    rw [Node.events, foldl_cons, foldl_append]
    exact h.mappingEnd (Skims.entries h entries (h.mappingStart anchorId hs))

theorem Skims.nodes (h : Skims f P) : ∀ (items : Nodes) {d : ℕ} {s : σ}, P d s →
    P d (items.events.foldl f s)
  | .nil, _, _, hs => hs
  | .cons item items, _, _, hs => by
    rw [Nodes.events, foldl_append]
    exact Skims.nodes h items (Skims.node h item hs)

theorem Skims.entries (h : Skims f P) : ∀ (entries : Entries) {d : ℕ} {s : σ}, P d s →
    P d (entries.events.foldl f s)
  | .nil, _, _, hs => hs
  | .cons key value entries, _, _, hs => by
    rw [Entries.events, foldl_append, foldl_append]
    exact Skims.entries h entries (Skims.node h value (Skims.node h key hs))

end

end

end AgentWallet.Base.Yaml
