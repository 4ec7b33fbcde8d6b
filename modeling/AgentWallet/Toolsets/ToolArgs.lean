import Mathlib

/-!
# The guard on tool arguments

`validate_toolset_tool_args` walks a JSON value with a stack of its own and three ways to stop: too
many nodes, too deep a node, a key of the denylist.  What is on the stack stands for all nodes below
it, and the walk succeeds exactly when these are few enough and each is safe (`walk_eq_ok_iff`).
-/

namespace AgentWallet.Toolsets.ToolArgs

open List

/-- `serde_json::Value` -/
inductive Json where
  | null
  | bool (value : Bool)
  | number (text : String)
  | string (text : String)
  | array (items : List Json)
  | object (fields : List (String × Json))

inductive ToolsetArgsError where
  | dangerousKey (matchedKey : String)
  | nestingTooDeep (depth maxDepth : ℕ)
  | tooManyNodes (countLimit : ℕ)

def argsKeyDenylist : List String :=
  ["toJSON", "then", "__proto__", "constructor", "prototype", "toString", "valueOf",
    "__defineGetter__", "__defineSetter__", "__lookupGetter__", "__lookupSetter__"]

def toolsetArgsMaxDepth : ℕ := 16

def toolsetArgsMaxNodes : ℕ := 1024

/-- The entry of the denylist that the key is; letter case counts. -/
def denylistMatch (key : String) : Option String :=
  argsKeyDenylist.find? fun denied => decide (key = denied)

abbrev Stack := List (Json × ℕ)

/-- The loop over an object's entries: every key is checked before its value is pushed. -/
def pushFields (depth : ℕ) : List (String × Json) → Stack → Except ToolsetArgsError Stack
  | [], stack => .ok stack
  | (key, child) :: fields, stack =>
    match denylistMatch key with
    | some matched => .error (.dangerousKey matched)
    | none => pushFields depth fields ((child, depth + 1) :: stack)

def pushItems (depth : ℕ) (items : List Json) (stack : Stack) : Stack :=
  items.foldl (fun stack item => (item, depth + 1) :: stack) stack

/-- What a popped node leaves on the stack. -/
def visit (value : Json) (depth : ℕ) (stack : Stack) : Except ToolsetArgsError Stack :=
  if depth > toolsetArgsMaxDepth then .error (.nestingTooDeep depth toolsetArgsMaxDepth)
  else
    match value with
    | .object fields => pushFields depth fields stack
    | .array items => .ok (pushItems depth items stack)
    | _ => .ok stack

/-- The walk, with `left` nodes until `nodes_visited` reaches `TOOLSET_ARGS_MAX_NODES`. -/
def walk : ℕ → Stack → Except ToolsetArgsError Unit
  | _, [] => .ok ()
  | 0, _ :: _ => .error (.tooManyNodes toolsetArgsMaxNodes)
  | left + 1, (value, depth) :: stack =>
    match visit value depth stack with
    | .error e => .error e
    | .ok stack => walk left stack

def validateToolsetToolArgs (args : Json) : Except ToolsetArgsError Unit :=
  walk toolsetArgsMaxNodes [(args, 0)]

/-! ## The nodes of a value -/

mutual

/-- All nodes of a value that stands at a depth, each with its own depth. -/
def nodes : Json → ℕ → List (Json × ℕ)
  | .array items, depth => (.array items, depth) :: nodesOfItems items (depth + 1)
  | .object fields, depth => (.object fields, depth) :: nodesOfFields fields (depth + 1)
  | value, depth => [(value, depth)]

def nodesOfItems : List Json → ℕ → List (Json × ℕ)
  | [], _ => []
  | item :: items, depth => nodes item depth ++ nodesOfItems items depth

def nodesOfFields : List (String × Json) → ℕ → List (Json × ℕ)
  | [], _ => []
  | (_, child) :: fields, depth => nodes child depth ++ nodesOfFields fields depth

end

/-- A node that is not too deep and has no key of the denylist. -/
def Safe (node : Json × ℕ) : Prop :=
  node.2 ≤ toolsetArgsMaxDepth ∧
    ∀ fields, node.1 = .object fields → ∀ field ∈ fields, field.1 ∉ argsKeyDenylist

/-- The nodes below the stack. -/
def pending (stack : Stack) : List (Json × ℕ) := stack.flatMap fun node => nodes node.1 node.2

theorem pending_cons (value : Json) (depth : ℕ) (stack : Stack) :
    pending ((value, depth) :: stack) = nodes value depth ++ pending stack := rfl

theorem denylistMatch_eq_none_iff {key : String} :
    denylistMatch key = none ↔ key ∉ argsKeyDenylist := by
  unfold denylistMatch
  rw [List.find?_eq_none]
  constructor
  · exact fun h hmem => h key hmem (decide_eq_true rfl)
  · exact fun h denied hmem heq => h (of_decide_eq_true heq ▸ hmem)

theorem pushItems_perm (depth : ℕ) (items : List Json) (stack : Stack) :
    (pending (pushItems depth items stack)).Perm
      (nodesOfItems items (depth + 1) ++ pending stack) := by
  induction items generalizing stack with
  | nil => rfl
  | cons item items ih =>
    refine (ih ((item, depth + 1) :: stack)).trans ?_
    rw [pending_cons, nodesOfItems, ← append_assoc]
    exact perm_append_comm.append_right _

theorem pushFields_eq_ok_iff {depth : ℕ} {fields : List (String × Json)} {stack stack' : Stack} :
    pushFields depth fields stack = .ok stack' ↔ (∀ field ∈ fields, field.1 ∉ argsKeyDenylist) ∧
        stack' = pushItems depth (fields.map Prod.snd) stack := by
  induction fields generalizing stack with
  | nil => simp [pushFields, pushItems, eq_comm]
  | cons field fields ih =>
    obtain ⟨key, child⟩ := field
    rw [forall_mem_cons, ← denylistMatch_eq_none_iff]
    unfold pushFields
    rcases denylistMatch key with - | matched
    · simp [ih, pushItems]
    · simp

theorem nodesOfFields_eq (fields : List (String × Json)) (depth : ℕ) :
    nodesOfFields fields depth = nodesOfItems (fields.map Prod.snd) depth := by
  induction fields with
  | nil => rfl
  | cons field fields ih =>
    rw [map_cons, nodesOfFields, nodesOfItems, ih]

/-- **One visit.**  It succeeds exactly on a safe node, and leaves what was pending but for the node
itself. -/
theorem visit_spec (value : Json) (depth : ℕ) (stack : Stack) :
    (∃ stack', visit value depth stack = .ok stack' ∧ Safe (value, depth) ∧
      ((value, depth) :: pending stack').Perm (nodes value depth ++ pending stack)) ∨
    (∃ e, visit value depth stack = .error e) ∧ ¬ Safe (value, depth) ∧
      (value, depth) ∈ nodes value depth := by
  have hself : (value, depth) ∈ nodes value depth := by cases value <;> simp [nodes]
  unfold visit
  split_ifs with hdepth
  · exact .inr ⟨⟨_, rfl⟩, fun h => absurd h.1 (by simpa using hdepth), hself⟩
  have hle : depth ≤ toolsetArgsMaxDepth := not_lt.1 hdepth
  cases value with
  | object fields =>
    rcases hpush : pushFields depth fields stack with e | stack'
    · refine .inr ⟨⟨e, hpush⟩, fun h => ?_, hself⟩
      rw [pushFields_eq_ok_iff.2 ⟨h.2 fields rfl, rfl⟩] at hpush
      cases hpush
    · obtain ⟨hkeys, rfl⟩ := pushFields_eq_ok_iff.1 hpush
      refine .inl ⟨_, hpush, ⟨hle, fun _ heq => Json.object.inj heq ▸ hkeys⟩, ?_⟩
      rw [nodes, nodesOfFields_eq]
      exact (pushItems_perm depth _ stack).cons _
  | array items =>
    refine .inl ⟨_, rfl, ⟨hle, fun _ heq => by cases heq⟩, ?_⟩
    rw [nodes]
    exact (pushItems_perm depth items stack).cons _
  | _ => exact .inl ⟨stack, rfl, ⟨hle, fun _ heq => by cases heq⟩, by simp [nodes]⟩

/-- **The walk** succeeds exactly when the pending nodes are few enough and safe. -/
theorem walk_eq_ok_iff (left : ℕ) (stack : Stack) : walk left stack = .ok () ↔
      (pending stack).length ≤ left ∧ ∀ node ∈ pending stack, Safe node := by
  induction left generalizing stack with
  | zero =>
    rcases stack with - | ⟨⟨value, depth⟩, stack⟩
    · simp [walk, pending]
    · have hpos : nodes value depth ≠ [] := by cases value <;> simp [nodes]
      simp [walk, pending_cons, hpos]
  | succ left ih =>
    rcases stack with - | ⟨⟨value, depth⟩, stack⟩
    · simp [walk, pending]
    rw [pending_cons]
    unfold walk
    rcases visit_spec value depth stack with ⟨stack', hvisit, hsafe, hperm⟩ |
      ⟨⟨e, hvisit⟩, hunsafe, hmem⟩
    · rw [hvisit, ← hperm.length_eq, length_cons, Nat.succ_le_succ_iff]
      simp [ih, ← hperm.mem_iff, hsafe]
    · rw [hvisit]
      simp only [reduceCtorEq, false_iff, not_and, not_forall]
      exact fun _ => ⟨_, mem_append_left _ hmem, hunsafe⟩

/-- **The guard accepts exactly the safe values.** -/
theorem validateToolsetToolArgs_eq_ok_iff (args : Json) : validateToolsetToolArgs args = .ok () ↔
      (nodes args 0).length ≤ toolsetArgsMaxNodes ∧
        (∀ node ∈ nodes args 0, node.2 ≤ toolsetArgsMaxDepth) ∧
        ∀ depth fields, (Json.object fields, depth) ∈ nodes args 0 →
          ∀ field ∈ fields, field.1 ∉ argsKeyDenylist := by
  have hpending : pending [(args, 0)] = nodes args 0 := append_nil _
  unfold validateToolsetToolArgs
  rw [walk_eq_ok_iff, hpending]
  refine and_congr_right fun _ => ⟨fun h => ⟨fun node hmem => (h node hmem).1, ?_⟩,
      fun h node hmem => ?_⟩
  · exact fun depth fields hmem => (h _ hmem).2 fields rfl
  · obtain ⟨value, depth⟩ := node
    refine ⟨h.1 _ hmem, fun fields heq => h.2 depth fields ?_⟩
    rw [← show value = _ from heq]
    exact hmem

end AgentWallet.Toolsets.ToolArgs
