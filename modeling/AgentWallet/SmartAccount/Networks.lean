import AgentWallet.Base.Checks
import AgentWallet.Base.Runs

/-!
# The registries of `networks.toml`

Two registries share one file: the multicall routers under `multicall`, keyed by a name derived from
the network passphrase, and the deployed verifiers and policies under `networks`, keyed by the
passphrase. A file is what a parser makes of it: the values at their paths, with a mark where a
table is empty. Each registry reads the paths it knows, keeps what it read in memory, and writes a
file that consists of its own entries.
-/

namespace AgentWallet.SmartAccount.Networks

open Base.Checks Base.Runs List

variable {passphrase : String} {n : ℕ}

/-! ## Files -/

abbrev Path := List String

inductive Leaf where
  | string (s : String)
  | integer (n : ℤ)
  | other (text : String)
  /-- A table with nothing in it. -/
  | emptyTable
deriving DecidableEq

abbrev Doc := List (Path × Leaf)

def get (doc : Doc) (path : Path) : Option Leaf := doc.lookup path

/-- The path has a value that is not a table. -/
def isValue (doc : Doc) (path : Path) : Bool :=
  match get doc path with
  | none | some .emptyTable => false
  | some _ => true

/-- The file of one top-level table; the table is there when it is empty. -/
def tableFile (table : String) (leaves : Doc) : Doc :=
  if leaves.isEmpty then [([table], .emptyTable)] else leaves

/-- The keys of the table at the top-level key `table`. -/
def names (table : String) (doc : Doc) : List String :=
  (doc.filterMap fun leaf =>
    match leaf.1 with
    | key :: name :: _ => if key = table then some name else none
    | _ => none).dedup

inductive Slot where
  | webauthn
  | ed25519
  | spendingLimitPolicy
  | simpleThresholdPolicy
  | weightedThresholdPolicy
deriving DecidableEq

inductive SaError where
  | networksTomlParse
  | multicallSha256Drift (attempted expected : String) (existing : Option String)
  | multicallRegistryEntryNotFound (networkSafename : String)
  /-- The drift error of the slot. -/
  | sha256Drift (slot : Slot) (network recorded attempted : String)

/-! ## The multicall registry -/

variable {path : Path} {leaf leaf' : Leaf} {slot : Slot}

structure MulticallRegistryEntry where
  networkPassphrase : String
  address : String
  wasmSha256 : String
deriving DecidableEq

/-- What the code takes from other libraries: the check of a contract strkey and the cut of a
warning to its cap. -/
structure Externals where
  isContract : String → Bool
  truncateToByteCap : String → String

def multicallWasmSha256 : String :=
  "2bf863ffdeba3315e1d9ca4fc2a970b2f16fe72ca92a7fdef0166eb3699db69d"

def isValidSha256Hex (s : String) : Bool :=
  s.length == 64 && s.toList.all fun c =>
    c.isDigit || ('a' ≤ c && c ≤ 'f') || ('A' ≤ c && c ≤ 'F')

/-- The key of an entry: the passphrase in lower case, other characters as dashes, none at the
ends. -/
def networkSafenameFromPassphrase (passphrase : String) : String :=
  let dashed := passphrase.toList.map fun c =>
    if c.isAlphanum || c == '-' || c == '_' then c.toLower else '-'
  String.ofList ((((dashed.dropWhile (· == '-')).reverse).dropWhile (· == '-')).reverse)

/-- The entry under a key, when its three fields are there. -/
def entryAt (doc : Doc) (safename : String) : Option MulticallRegistryEntry :=
  match get doc ["multicall", safename, "network_passphrase"],
    get doc ["multicall", safename, "address"], get doc ["multicall", safename, "wasm_sha256"] with
  | some (.string networkPassphrase), some (.string address), some (.string wasmSha256) =>
    some ⟨networkPassphrase, address, wasmSha256⟩
  | _, _, _ => none

/-- The entries of the file; a key without the three fields does not parse. -/
def rawEntries (doc : Doc) : Except SaError (List (String × MulticallRegistryEntry)) := do
  refuseIf (isValue doc ["multicall"] = true) .networksTomlParse
  (names "multicall" doc).mapM fun safename => do
    let entry ← okOr (entryAt doc safename) .networksTomlParse
    return (safename, entry)

structure RegistryLoadWarning where
  networkSafename : String
  reason : String

structure MulticallRegistry where
  entries : List MulticallRegistryEntry
  partialLoadWarnings : List RegistryLoadWarning

variable (X : Externals)

def isLoaded (entry : MulticallRegistryEntry) : Bool :=
  X.isContract entry.address && isValidSha256Hex entry.wasmSha256

def loadWarning (safename : String) (entry : MulticallRegistryEntry) : Option RegistryLoadWarning :=
  if X.isContract entry.address = false then
    some ⟨safename, X.truncateToByteCap ("invalid C-strkey address: " ++ entry.address)⟩
  else if isValidSha256Hex entry.wasmSha256 = false then
    some ⟨safename, X.truncateToByteCap ("invalid SHA-256 hex: " ++ entry.wasmSha256)⟩
  else if entry.wasmSha256 ≠ multicallWasmSha256 then
    some ⟨safename, X.truncateToByteCap ("wasm_sha256 " ++
      String.ofList (entry.wasmSha256.toList.take 8) ++ " != MULTICALL_WASM_SHA256 " ++
      String.ofList (multicallWasmSha256.toList.take 8) ++
      "; lookup will refuse (update wasm_sha256 after re-vendoring)")⟩
  else none

def warningCap : ℕ := 32

def load (file : Option Doc) : Except SaError MulticallRegistry := do
  let raws ← rawEntries (file.getD [])
  return ⟨(raws.map (·.2)).filter (isLoaded X),
    (raws.filterMap fun raw => loadWarning X raw.1 raw.2).take warningCap⟩

/-- A record for a network that has none; another digest is refused. -/
def register (entries : List MulticallRegistryEntry) (entry : MulticallRegistryEntry) :
    Except SaError (List MulticallRegistryEntry) :=
  if entry.wasmSha256 ≠ multicallWasmSha256 then
    .error (.multicallSha256Drift entry.wasmSha256 multicallWasmSha256 none)
  else
    match entries.find? (·.networkPassphrase = entry.networkPassphrase) with
    | some existing =>
      if existing.wasmSha256 ≠ entry.wasmSha256 then
        .error (.multicallSha256Drift entry.wasmSha256 multicallWasmSha256
          (some existing.wasmSha256))
      else .ok entries
    | none => .ok (entries ++ [entry])

def unregister (entries : List MulticallRegistryEntry) (networkPassphrase : String) :
    Except SaError (List MulticallRegistryEntry) :=
  if entries.any (·.networkPassphrase = networkPassphrase) then
    .ok (entries.eraseP (·.networkPassphrase = networkPassphrase))
  else .error (.multicallRegistryEntryNotFound networkPassphrase)

def entryLeaves (entry : MulticallRegistryEntry) : List (Path × Leaf) :=
  let safename := networkSafenameFromPassphrase entry.networkPassphrase
  [(["multicall", safename, "network_passphrase"], .string entry.networkPassphrase),
    (["multicall", safename, "address"], .string entry.address),
    (["multicall", safename, "wasm_sha256"], .string entry.wasmSha256)]

/-- The file that `save` writes; of two entries with one key the later one is written. -/
def savedFile (entries : List MulticallRegistryEntry) : Doc :=
  tableFile "multicall" (entries.reverse.flatMap entryLeaves)

/-! ## The registry of verifiers and policies -/

namespace Slot

def all : List Slot :=
  [.webauthn, .ed25519, .spendingLimitPolicy, .simpleThresholdPolicy, .weightedThresholdPolicy]

/-- The common part of the three keys of a slot. -/
def key : Slot → String
  | .webauthn => "webauthn_verifier"
  | .ed25519 => "ed25519_verifier"
  | .spendingLimitPolicy => "spending_limit_policy"
  | .simpleThresholdPolicy => "simple_threshold_policy"
  | .weightedThresholdPolicy => "weighted_threshold_policy"

end Slot

structure SlotEntry where
  address : String
  wasmSha256 : String
  deployedAtUnixMs : ℕ

abbrev NetworkRecord := Slot → Option SlotEntry

def isTable (doc : Doc) (path : Path) : Bool :=
  doc.any fun leaf => decide (path <+: leaf.1 ∧ path ≠ leaf.1)

def stringField (doc : Doc) (path : Path) : Except SaError (Option String) :=
  match get doc path with
  | some (.string s) => .ok (some s)
  | some _ => .error .networksTomlParse
  | none => if isTable doc path then .error .networksTomlParse else .ok none

/-- An optional `u64`. -/
def u64Field (doc : Doc) (path : Path) : Except SaError (Option ℕ) :=
  match get doc path with
  | some (.integer n) => if 0 ≤ n ∧ n < 2 ^ 64 then .ok (some n.toNat) else .error .networksTomlParse
  | some _ => .error .networksTomlParse
  | none => if isTable doc path then .error .networksTomlParse else .ok none

inductive Field where
  | address
  | wasmSha256
  | deployedAt
deriving DecidableEq

def Field.suffix : Field → String
  | .address => "_address"
  | .wasmSha256 => "_wasm_sha256"
  | .deployedAt => "_deployed_at_unix_ms"

def slotPath (passphrase : String) (slot : Slot) (field : Field) : Path :=
  ["networks", passphrase, slot.key ++ field.suffix]

def slotAt (doc : Doc) (passphrase : String) (slot : Slot) : Except SaError (Option SlotEntry) := do
  let address ← stringField doc (slotPath passphrase slot .address)
  let wasmSha256 ← stringField doc (slotPath passphrase slot .wasmSha256)
  let deployedAt ← u64Field doc (slotPath passphrase slot .deployedAt)
  match address, wasmSha256, deployedAt with
  | some address, some wasmSha256, some deployedAt =>
    return some ⟨address, wasmSha256, deployedAt⟩
  | _, _, _ => return none

def recordAt (doc : Doc) (passphrase : String) : Except SaError NetworkRecord := do
  refuseIf (isValue doc ["networks", passphrase] = true) .networksTomlParse
  let webauthn ← slotAt doc passphrase .webauthn
  let ed25519 ← slotAt doc passphrase .ed25519
  let spendingLimitPolicy ← slotAt doc passphrase .spendingLimitPolicy
  let simpleThresholdPolicy ← slotAt doc passphrase .simpleThresholdPolicy
  let weightedThresholdPolicy ← slotAt doc passphrase .weightedThresholdPolicy
  return fun
    | .webauthn => webauthn
    | .ed25519 => ed25519
    | .spendingLimitPolicy => spendingLimitPolicy
    | .simpleThresholdPolicy => simpleThresholdPolicy
    | .weightedThresholdPolicy => weightedThresholdPolicy

/-- The records by the passphrase of their network. -/
abbrev Records := List (String × NetworkRecord)

def openAt (file : Option Doc) : Except SaError Records := do
  let doc := file.getD []
  refuseIf (isValue doc ["networks"] = true) .networksTomlParse
  (names "networks" doc).mapM fun passphrase => do
    let record ← recordAt doc passphrase
    return (passphrase, record)

/-- The record of a network, empty when there is none. -/
def recordOf (records : Records) (passphrase : String) : NetworkRecord :=
  (records.lookup passphrase).getD fun _ => none

def setRecord (records : Records) (passphrase : String) (record : NetworkRecord) : Records :=
  (passphrase, record) :: records.filter (·.1 ≠ passphrase)

/-- Fills an empty slot; the slot with the same hash is left as it is, with another one refused. -/
def recordSlot (slot : Slot) (records : Records) (passphrase address wasmSha256 : String)
    (nowMs : ℕ) : Except SaError Records :=
  match recordOf records passphrase slot with
  | some existing =>
    if existing.wasmSha256 = wasmSha256 then .ok records
    else .error (.sha256Drift slot passphrase existing.wasmSha256 wasmSha256)
  | none => .ok (setRecord records passphrase (Function.update (recordOf records passphrase) slot
      (some ⟨address, wasmSha256, nowMs⟩)))

def recordWebauthnVerifier := recordSlot .webauthn
def recordEd25519Verifier := recordSlot .ed25519
def recordSpendingLimitPolicy := recordSlot .spendingLimitPolicy
def recordSimpleThresholdPolicy := recordSlot .simpleThresholdPolicy
def recordWeightedThresholdPolicy := recordSlot .weightedThresholdPolicy

def slotLeaves (passphrase : String) (slot : Slot) (entry : SlotEntry) : List (Path × Leaf) :=
  [(slotPath passphrase slot .address, .string entry.address),
    (slotPath passphrase slot .wasmSha256, .string entry.wasmSha256),
    (slotPath passphrase slot .deployedAt, .integer entry.deployedAtUnixMs)]

def recordLeaves (records : Records) : Doc :=
  records.flatMap fun record => Slot.all.flatMap fun slot =>
    (record.2 slot).toList.flatMap (slotLeaves record.1 slot)

/-- The file that `persist` writes; a record without a slot is left out. -/
def persistedFile (records : Records) : Doc := tableFile "networks" (recordLeaves records)

/-! ## Runs -/

variable {entry : MulticallRegistryEntry} {records : Records}
  {entries state : List MulticallRegistryEntry}

/-- A registry in memory, with the file it was loaded from and the networks it was asked to
change. -/
structure Opened (σ : Type) where
  state : σ
  loaded : Doc
  touched : List String
deriving DecidableEq

structure World where
  file : Option Doc
  multicall : Option (Opened (List MulticallRegistryEntry)) := none
  verifiers : Option (Opened Records) := none

inductive Event where
  | load
  | register (entry : MulticallRegistryEntry)
  | unregister (networkPassphrase : String)
  | save
  | openAt
  | record (slot : Slot) (passphrase address wasmSha256 : String) (nowMs : ℕ)
  | persist

/-- A change of the state in memory that may be refused. -/
def Opened.change {σ : Type} (o : Opened σ) (passphrase : String) (x : Except SaError σ) : Opened σ :=
  match x with
  | .ok state => ⟨state, o.loaded, passphrase :: o.touched⟩
  | .error _ => o

def World.doc (w : World) : Doc := w.file.getD []

def World.step (w : World) : Event → World
  | .load =>
    match Networks.load X w.file with
    | .ok registry => { w with multicall := some ⟨registry.entries, w.doc, []⟩ }
    | .error _ => w
  | .register entry =>
    { w with multicall := w.multicall.map fun o =>
        o.change entry.networkPassphrase (Networks.register o.state entry) }
  | .unregister networkPassphrase =>
    { w with multicall := w.multicall.map fun o =>
        o.change networkPassphrase (Networks.unregister o.state networkPassphrase) }
  | .save =>
    match w.multicall with
    | some o => { w with file := some (savedFile o.state) }
    | none => w
  | .openAt =>
    match Networks.openAt w.file with
    | .ok records => { w with verifiers := some ⟨records, w.doc, []⟩ }
    | .error _ => w
  | .record slot passphrase address wasmSha256 nowMs =>
    { w with verifiers := w.verifiers.map fun o =>
        o.change passphrase (recordSlot slot o.state passphrase address wasmSha256 nowMs) }
  | .persist =>
    match w.verifiers with
    | some o => { w with file := some (persistedFile o.state) }
    | none => w

/-! ## What an operation owns -/

variable {w : World} {o : Opened (List MulticallRegistryEntry)}

/-- The passphrase of the router entry under a key. -/
def passphraseAt (doc : Doc) (safename : String) : Option Leaf :=
  get doc ["multicall", safename, "network_passphrase"]

/-- The router entry under a key is one of the network: it is there before the operation, or it is
new and its key has nothing else. -/
def EntryOf (doc doc' : Doc) (passphrase safename : String) : Prop :=
  passphraseAt doc safename = some (.string passphrase) ∨
    passphraseAt doc' safename = some (.string passphrase) ∧
      ∀ rest, get doc ("multicall" :: safename :: rest) = none

/-- The values an operation may change: the entries of the networks that the registry was asked to
change since it was loaded, and the mark of its own table when that is empty. -/
def Owned (w w' : World) (path : Path) : Event → Prop
  | .save => path = ["multicall"] ∨
      ∃ o safename rest passphrase, w.multicall = some o ∧ passphrase ∈ o.touched ∧
        path = "multicall" :: safename :: rest ∧ EntryOf w.doc w'.doc passphrase safename
  | .persist => path = ["networks"] ∨
      ∃ o passphrase rest, w.verifiers = some o ∧ passphrase ∈ o.touched ∧
        path = "networks" :: passphrase :: rest
  | _ => False

def Frame (w : World) (event : Event) : Prop :=
  ∀ path, ¬ Owned w (w.step X event) path event →
    get (w.step X event).doc path = get w.doc path

/-- Every value belongs to a complete router entry that the loading keeps. -/
def OnlyEntries (doc : Doc) : Prop :=
  ∀ path leaf, path ≠ ["multicall"] → get doc path = some leaf → ∃ entry,
    isLoaded X entry = true ∧ (path, leaf) ∈ entryLeaves entry ∧
      ∀ other ∈ entryLeaves entry, get doc other.1 = some other.2

/-- Every value belongs to a complete slot. -/
def OnlySlots (doc : Doc) : Prop :=
  ∀ path leaf, path ≠ ["networks"] → get doc path = some leaf → ∃ passphrase slot entry,
    (path, leaf) ∈ slotLeaves passphrase slot entry ∧
      ∀ other ∈ slotLeaves passphrase slot entry, get doc other.1 = some other.2

/-- A write finds the file its registry was loaded from, with nothing in it but what the registry
keeps, and no two router entries have one key. -/
def Clean (w : World) : Event → Prop
  | .save => ∀ o, w.multicall = some o → o.loaded = w.doc ∧ OnlyEntries X w.doc ∧
      (o.state.map fun entry => networkSafenameFromPassphrase entry.networkPassphrase).Nodup
  | .persist => ∀ o, w.verifiers = some o → o.loaded = w.doc ∧ OnlySlots w.doc
  | _ => True

/-! ## Lookups -/

section lookups

variable {α β ε : Type} {l : List (α × β)} {k : α} {v : β}

theorem lookup_eq_some_iff [BEq α] [LawfulBEq α] (h : ∀ x ∈ l, ∀ y ∈ l, x.1 = y.1 → x.2 = y.2) :
    l.lookup k = some v ↔ (k, v) ∈ l := by
  induction l with
  | nil => simp
  | cons x l ih =>
    obtain ⟨k', v'⟩ := x
    by_cases hk : k = k'
    · subst hk
      rw [lookup_cons_self, mem_cons]
      refine ⟨fun heq => .inl (by rw [Option.some.inj heq]), ?_⟩
      rintro (heq | hmem)
      · rw [(Prod.mk.inj heq).2]
      · exact congrArg some (h (k, v') mem_cons_self (k, v) (mem_cons_of_mem _ hmem) rfl)
    · have hne : (k == k') = false := beq_false_of_ne hk
      rw [lookup_cons, hne, ih fun x hx y hy => h x (mem_cons_of_mem _ hx) y (mem_cons_of_mem _ hy)]
      simp [hk]

theorem mem_of_lookup [BEq α] [LawfulBEq α] (h : l.lookup k = some v) : (k, v) ∈ l := by
  induction l with
  | nil => cases h
  | cons x l ih =>
    rw [lookup_cons] at h
    split at h
    · rename_i heq
      rw [eq_of_beq heq, ← Option.some.inj h]
      exact mem_cons_self
    · exact mem_cons_of_mem _ (ih h)

variable {g : α → Except ε β} {r : List (α × β)}

theorem mem_of_mapM_pairs {l : List α} (h : (l.mapM fun a => do let b ← g a; return (a, b)) = .ok r)
    {a : α} {b : β} : (a, b) ∈ r ↔ a ∈ l ∧ g a = .ok b := by
  induction l generalizing r with
  | nil =>
    cases h
    simp
  | cons x l ih =>
    simp only [mapM_cons, bind_eq_ok_iff] at h
    obtain ⟨_, ⟨y, hy, hpair⟩, r', hr', hr⟩ := h
    cases hpair
    cases hr
    rw [mem_cons, mem_cons, ih hr', Prod.mk.injEq]
    constructor
    · rintro (⟨rfl, rfl⟩ | ⟨hmem, hg⟩)
      · exact ⟨.inl rfl, hy⟩
      · exact ⟨.inr hmem, hg⟩
    · rintro ⟨rfl | hmem, hg⟩
      · exact .inl ⟨rfl, Except.ok.inj (hg.symm.trans hy)⟩
      · exact .inr ⟨hmem, hg⟩

theorem keys_of_mapM_pairs {l : List α}
    (h : (l.mapM fun a => do let b ← g a; return (a, b)) = .ok r) : r.map (·.1) = l := by
  induction l generalizing r with
  | nil =>
    cases h
    rfl
  | cons x l ih =>
    simp only [mapM_cons, bind_eq_ok_iff] at h
    obtain ⟨_, ⟨y, hy, hpair⟩, r', hr', hr⟩ := h
    cases hpair
    cases hr
    rw [map_cons, ih hr']

end lookups

variable {doc : Doc}

theorem mem_names {table name : String} {rest : Path}
    (h : get doc (table :: name :: rest) = some leaf) : name ∈ names table doc := by
  refine mem_dedup.mpr (mem_filterMap.mpr ⟨_, mem_of_lookup h, ?_⟩)
  simp

theorem get_tableFile {table : String} (h : path ≠ [table]) :
    get (tableFile table doc) path = get doc path := by
  unfold tableFile
  split_ifs with hempty
  · rw [List.isEmpty_iff.mp hempty, get, lookup_cons, beq_false_of_ne h]
    rfl
  · rfl

variable {X}

/-! ## The multicall registry keeps its entries -/

theorem mem_entries_iff {registry : MulticallRegistry} (h : load X (some doc) = .ok registry) :
    entry ∈ registry.entries ↔
      isLoaded X entry = true ∧ ∃ safename, entryAt doc safename = some entry := by
  simp only [load, rawEntries, bind_eq_ok_iff] at h
  obtain ⟨raws, ⟨-, -, hraws⟩, h⟩ := h
  cases h
  rw [mem_filter, mem_map, and_comm]
  refine and_congr_right fun _ => ?_
  constructor
  · rintro ⟨⟨safename, _⟩, hmem, rfl⟩
    exact ⟨safename, okOr_eq_ok_iff.mp ((mem_of_mapM_pairs hraws).mp hmem).2⟩
  · rintro ⟨safename, hentry⟩
    refine ⟨(safename, entry), (mem_of_mapM_pairs hraws).mpr ⟨?_, okOr_eq_ok_iff.mpr hentry⟩, rfl⟩
    unfold entryAt at hentry
    rcases hget : get doc ["multicall", safename, "network_passphrase"] with _ | leaf
    · simp [hget] at hentry
    · exact mem_names hget

theorem entryAt_eq_some_iff {safename : String} : entryAt doc safename = some entry ↔
      get doc ["multicall", safename, "network_passphrase"] = some (.string entry.networkPassphrase) ∧
      get doc ["multicall", safename, "address"] = some (.string entry.address) ∧
      get doc ["multicall", safename, "wasm_sha256"] = some (.string entry.wasmSha256) := by
  constructor
  · intro h
    unfold entryAt at h
    split at h
    · rename_i h₁ h₂ h₃
      cases h
      exact ⟨h₁, h₂, h₃⟩
    · cases h
  · rintro ⟨h₁, h₂, h₃⟩
    unfold entryAt
    rw [h₁, h₂, h₃]

theorem leaves_iff_entryAt : (∀ leaf ∈ entryLeaves entry, get doc leaf.1 = some leaf.2) ↔
      entryAt doc (networkSafenameFromPassphrase entry.networkPassphrase) = some entry := by
  rw [entryAt_eq_some_iff]
  simp [entryLeaves]

theorem safename_of_mem_leaves (h : (path, leaf) ∈ entryLeaves entry) :
    ∃ rest, path = "multicall" :: networkSafenameFromPassphrase entry.networkPassphrase :: rest := by
  simp only [entryLeaves, mem_cons, not_mem_nil, or_false] at h
  rcases h with ⟨rfl, -⟩ | ⟨rfl, -⟩ | ⟨rfl, -⟩ <;> exact ⟨_, rfl⟩

theorem leaf_unique (h : (path, leaf) ∈ entryLeaves entry) (h' : (path, leaf') ∈ entryLeaves entry) :
    leaf = leaf' := by
  simp only [entryLeaves, mem_cons, not_mem_nil, or_false] at h h'
  rcases h with ⟨rfl, rfl⟩ | ⟨rfl, rfl⟩ | ⟨rfl, rfl⟩ <;> simpa [eq_comm] using h'

theorem get_savedFile_iff
    (hnodup : (entries.map fun entry =>
      networkSafenameFromPassphrase entry.networkPassphrase).Nodup) (hpath : path ≠ ["multicall"]) :
    get (savedFile entries) path = some leaf ↔
      ∃ entry ∈ entries, (path, leaf) ∈ entryLeaves entry := by
  rw [savedFile, get_tableFile hpath, get, lookup_eq_some_iff]
  · simp
  · rintro ⟨path, leaf⟩ hx ⟨_, leaf'⟩ hy rfl
    simp only [mem_flatMap, mem_reverse] at hx hy
    obtain ⟨entry, hentry, hx⟩ := hx
    obtain ⟨entry', hentry', hy⟩ := hy
    obtain ⟨rest, hpath⟩ := safename_of_mem_leaves hx
    obtain ⟨rest', hpath'⟩ := safename_of_mem_leaves hy
    have hname : networkSafenameFromPassphrase entry.networkPassphrase =
        networkSafenameFromPassphrase entry'.networkPassphrase :=
      (List.cons.inj (List.cons.inj (hpath.symm.trans hpath')).2).1
    obtain rfl := inj_on_of_nodup_map hnodup hentry hentry' hname
    exact leaf_unique hx hy

/-- What the registry in memory has of the networks it was not asked to change is what it loaded. -/
def KeepsEntries (X : Externals) (o : Opened (List MulticallRegistryEntry)) : Prop :=
  ∃ registry, load X (some o.loaded) = .ok registry ∧
    ∀ entry : MulticallRegistryEntry, entry.networkPassphrase ∉ o.touched →
      (entry ∈ o.state ↔ entry ∈ registry.entries)

theorem KeepsEntries.change (h : KeepsEntries X o)
    {x : Except SaError (List MulticallRegistryEntry)}
    (hx : ∀ state, x = .ok state → ∀ entry : MulticallRegistryEntry,
      entry.networkPassphrase ≠ passphrase → (entry ∈ state ↔ entry ∈ o.state)) :
    KeepsEntries X (o.change passphrase x) := by
  obtain ⟨registry, hload, hkeeps⟩ := h
  rcases x with e | state
  · exact ⟨registry, hload, hkeeps⟩
  · refine ⟨registry, hload, fun entry hentry => ?_⟩
    obtain ⟨hne, hentry⟩ := not_or.mp (mt mem_cons.mpr hentry)
    rw [← hkeeps entry hentry]
    exact hx state rfl entry hne

theorem mem_register {added : MulticallRegistryEntry} (h : register entries added = .ok state)
    (hne : entry.networkPassphrase ≠ added.networkPassphrase) :
    entry ∈ state ↔ entry ∈ entries := by
  unfold register at h
  split_ifs at h
  split at h
  · split_ifs at h
    cases h
    rfl
  · cases h
    have hentry : entry ≠ added := fun heq => hne (by rw [heq])
    simp [hentry]

theorem mem_unregister (h : unregister entries passphrase = .ok state)
    (hne : entry.networkPassphrase ≠ passphrase) : entry ∈ state ↔ entry ∈ entries := by
  unfold unregister at h
  split_ifs at h
  cases h
  exact mem_eraseP_of_neg (by simpa using hne)

theorem ne_multicall_of_mem_leaves (h : (path, leaf) ∈ entryLeaves entry) : path ≠ ["multicall"] := by
  obtain ⟨rest, rfl⟩ := safename_of_mem_leaves h
  simp

/-- In a file with entries only, an entry is under the name of its passphrase. -/
theorem OnlyEntries.safename {safename : String} (h : OnlyEntries X doc)
    (hat : entryAt doc safename = some entry) :
    safename = networkSafenameFromPassphrase entry.networkPassphrase := by
  obtain ⟨entry', -, hmem, -⟩ := h _ _ (by simp) (entryAt_eq_some_iff.mp hat).1
  simp only [entryLeaves, mem_cons, Prod.mk.injEq, List.cons.injEq, Leaf.string.injEq,
    not_mem_nil, or_false] at hmem
  rcases hmem with ⟨⟨-, hname, -⟩, hpassphrase⟩ | ⟨⟨-, -, hfield, -⟩, -⟩ | ⟨⟨-, -, hfield, -⟩, -⟩
  · rw [hname, hpassphrase]
  · exact absurd hfield (by decide)
  · exact absurd hfield (by decide)

/-- A value under a name is one of an entry with that name. -/
theorem OnlyEntries.entry_of_get {safename : String} {rest : Path} (h : OnlyEntries X doc)
    (hget : get doc ("multicall" :: safename :: rest) = some leaf) :
    ∃ entry, isLoaded X entry = true ∧ entryAt doc safename = some entry ∧
      networkSafenameFromPassphrase entry.networkPassphrase = safename := by
  obtain ⟨entry, hloads, hleaf, hleaves⟩ := h _ _ (by simp) hget
  obtain ⟨rest', hpath⟩ := safename_of_mem_leaves hleaf
  have hname : safename = networkSafenameFromPassphrase entry.networkPassphrase :=
    (List.cons.inj (List.cons.inj hpath).2).1
  exact ⟨entry, hloads, hname ▸ leaves_iff_entryAt.mp hleaves, hname.symm⟩

/-- A clean `save` keeps every value it does not own. -/
theorem frame_save (ho : w.multicall = some o) (hkeeps : KeepsEntries X o)
    (hclean : Clean X w .save) : Frame X w .save := by
  obtain ⟨hloaded, honly, hnodup⟩ := hclean o ho
  obtain ⟨registry, hload, hkeeps⟩ := hkeeps
  rw [hloaded] at hload
  intro path howned
  have hstep : (w.step X .save).doc = savedFile o.state := by
    simp only [World.step, ho]
    rfl
  obtain ⟨hpath, howned⟩ := not_or.mp howned
  rw [hstep] at howned ⊢
  -- an untouched entry of the file is in memory
  have hkept : ∀ entry safename, isLoaded X entry = true → entryAt w.doc safename = some entry →
      entry.networkPassphrase ∉ o.touched → entry ∈ o.state := fun entry safename hloads hat hnew =>
    (hkeeps entry hnew).mpr ((mem_entries_iff hload).mpr ⟨hloads, safename, hat⟩)
  refine Option.ext fun leaf => ?_
  rw [get_savedFile_iff hnodup hpath]
  constructor
  · rintro ⟨entry, hentry, hleaf⟩
    obtain ⟨rest, hpath'⟩ := safename_of_mem_leaves hleaf
    have huntouched : entry.networkPassphrase ∉ o.touched := by
      intro htouched
      have hentryOf := fun h => howned ⟨o, _, rest, _, ho, htouched, hpath', h⟩
      have hsaved : passphraseAt (savedFile o.state) _ = some (.string entry.networkPassphrase) :=
        (get_savedFile_iff hnodup (by simp)).mpr ⟨entry, hentry, mem_cons_self⟩
      -- the key is taken in the file, by an entry that is still in memory
      refine hentryOf (.inr ⟨hsaved, fun _ => Option.eq_none_iff_forall_ne_some.mpr ?_⟩)
      intro leaf' hget
      obtain ⟨other, hloads, hat, hname⟩ := honly.entry_of_get hget
      have hsame : other ∈ o.state → other = entry :=
        fun hother => inj_on_of_nodup_map hnodup hother hentry hname
      have hpassphrase : other.networkPassphrase = entry.networkPassphrase := by
        by_cases hmem : other.networkPassphrase ∈ o.touched
        · refine absurd ⟨o, _, rest, _, ho, hmem, hpath', .inl ?_⟩ howned
          exact (entryAt_eq_some_iff.mp hat).1
        · rw [hsame (hkept other _ hloads hat hmem)]
      exact hentryOf (.inl (hpassphrase ▸ (entryAt_eq_some_iff.mp hat).1))
    obtain ⟨-, safename, hat⟩ := (mem_entries_iff hload).mp ((hkeeps entry huntouched).mp hentry)
    rw [honly.safename hat] at hat
    exact leaves_iff_entryAt.mpr hat _ hleaf
  · intro hget
    obtain ⟨entry, hloads, hleaf, hleaves⟩ := honly path leaf hpath hget
    obtain ⟨rest, hpath'⟩ := safename_of_mem_leaves hleaf
    have hat := leaves_iff_entryAt.mp hleaves
    refine ⟨entry, hkept entry _ hloads hat fun htouched => ?_, hleaf⟩
    exact howned ⟨o, _, rest, _, ho, htouched, hpath', .inl (entryAt_eq_some_iff.mp hat).1⟩

/-! ## The registry of verifiers and policies keeps its slots -/

theorem stringField_eq_some_iff {s : String} :
    stringField doc path = .ok (some s) ↔ get doc path = some (.string s) := by
  unfold stringField
  rcases get doc path with _ | (_ | _ | _)
  · split_ifs <;> simp
  all_goals simp

theorem get_of_u64Field (h : u64Field doc path = .ok (some n)) :
    get doc path = some (.integer n) := by
  unfold u64Field at h
  rcases hget : get doc path with _ | (_ | m | _) <;> simp only [hget, reduceCtorEq] at h
  · split_ifs at h
    simp at h
  · split_ifs at h with hrange
    cases h
    rw [Int.toNat_of_nonneg hrange.1]

theorem eq_of_u64Field {y : Option ℕ} (h : get doc path = some (.integer n))
    (hy : u64Field doc path = .ok y) : y = some n := by
  simp only [u64Field, h] at hy
  split_ifs at hy
  cases hy
  rfl

variable {entry : SlotEntry}

theorem leaves_of_slotAt (h : slotAt doc passphrase slot = .ok (some entry)) :
    ∀ leaf ∈ slotLeaves passphrase slot entry, get doc leaf.1 = some leaf.2 := by
  simp only [slotAt, bind_eq_ok_iff] at h
  obtain ⟨address, haddress, wasmSha256, hwasm, deployedAt, hdeployed, h⟩ := h
  rcases address with _ | address <;> rcases wasmSha256 with _ | wasmSha256 <;>
    rcases deployedAt with _ | deployedAt <;> cases h
  simpa [slotLeaves] using ⟨stringField_eq_some_iff.mp haddress, stringField_eq_some_iff.mp hwasm,
    get_of_u64Field hdeployed⟩

theorem eq_of_slotAt {y : Option SlotEntry} (h : slotAt doc passphrase slot = .ok y)
    (hleaves : ∀ leaf ∈ slotLeaves passphrase slot entry, get doc leaf.1 = some leaf.2) :
    y = some entry := by
  simp only [slotLeaves, forall_mem_cons, not_mem_nil, IsEmpty.forall_iff, implies_true,
    and_true] at hleaves
  obtain ⟨haddress, hwasm, hdeployed⟩ := hleaves
  simp only [slotAt, stringField_eq_some_iff.mpr haddress, stringField_eq_some_iff.mpr hwasm,
    bind_eq_ok_iff, Except.ok.injEq, exists_eq_left'] at h
  obtain ⟨deployedAt, hu64, h⟩ := h
  obtain rfl := eq_of_u64Field hdeployed hu64
  exact (Except.ok.inj h).symm

theorem slotAt_of_recordAt {record : NetworkRecord} (h : recordAt doc passphrase = .ok record)
    (slot : Slot) : slotAt doc passphrase slot = .ok (record slot) := by
  simp only [recordAt, bind_eq_ok_iff] at h
  obtain ⟨-, -, webauthn, h₁, ed25519, h₂, spending, h₃, simple, h₄, weighted, h₅, h⟩ := h
  cases h
  cases slot
  · exact h₁
  · exact h₂
  · exact h₃
  · exact h₄
  · exact h₅

theorem functional_of_nodup (h : (records.map (·.1)).Nodup) :
    ∀ x ∈ records, ∀ y ∈ records, x.1 = y.1 → x.2 = y.2 :=
  fun _ hx _ hy hkey => congrArg (·.2) (inj_on_of_nodup_map h hx hy hkey)

theorem recordOf_of_mem (h : (records.map (·.1)).Nodup) {record : NetworkRecord}
    (hmem : (passphrase, record) ∈ records) : recordOf records passphrase = record := by
  unfold recordOf
  rw [(lookup_eq_some_iff (functional_of_nodup h)).mpr hmem]
  rfl

theorem mem_of_recordOf (h : recordOf records passphrase slot = some entry) :
    (passphrase, recordOf records passphrase) ∈ records := by
  unfold recordOf at h ⊢
  rcases hlookup : records.lookup passphrase with _ | record
  · rw [hlookup] at h
    cases h
  · exact mem_of_lookup hlookup

theorem openAt_spec (h : openAt (some doc) = .ok records) : (records.map (·.1)).Nodup ∧
      (∀ passphrase ∈ names "networks" doc, ∀ slot,
        slotAt doc passphrase slot = .ok (recordOf records passphrase slot)) ∧
      ∀ passphrase slot entry, recordOf records passphrase slot = some entry →
        slotAt doc passphrase slot = .ok (some entry) := by
  simp only [openAt, bind_eq_ok_iff, Option.getD_some] at h
  obtain ⟨-, -, h⟩ := h
  have hkeys := keys_of_mapM_pairs h
  have hnodup : (records.map (·.1)).Nodup := by
    rw [hkeys]
    exact nodup_dedup _
  have hslot : ∀ passphrase record, (passphrase, record) ∈ records → ∀ slot,
      slotAt doc passphrase slot = .ok (recordOf records passphrase slot) := by
    intro passphrase record hmem slot
    rw [recordOf_of_mem hnodup hmem]
    exact slotAt_of_recordAt ((mem_of_mapM_pairs h).mp hmem).2 slot
  refine ⟨hnodup, fun passphrase hname => ?_, fun passphrase slot entry hentry => ?_⟩
  · rw [← hkeys] at hname
    obtain ⟨⟨_, record⟩, hmem, rfl⟩ := mem_map.mp hname
    exact hslot _ record hmem
  · rw [← hentry]
    exact hslot _ _ (mem_of_recordOf hentry) slot

/-- The registry in memory has one record for a network, and of the networks it was not asked to
change what it loaded. -/
def KeepsRecords (o : Opened Records) : Prop :=
  (o.state.map (·.1)).Nodup ∧ ∃ records, openAt (some o.loaded) = .ok records ∧
    ∀ passphrase ∉ o.touched, recordOf o.state passphrase = recordOf records passphrase

theorem setRecord_nodup (h : (records.map (·.1)).Nodup) (passphrase : String)
    (record : NetworkRecord) : ((setRecord records passphrase record).map (·.1)).Nodup := by
  refine nodup_cons.mpr ⟨fun hmem => ?_, h.sublist (filter_sublist.map _)⟩
  obtain ⟨x, hx, hkey⟩ := mem_map.mp hmem
  exact of_decide_eq_true (mem_filter.mp hx).2 hkey

theorem recordOf_setRecord {other : String} {record : NetworkRecord} (hne : other ≠ passphrase) :
    recordOf (setRecord records passphrase record) other = recordOf records other := by
  have hlookup : (setRecord records passphrase record).lookup other =
      (records.filter (·.1 ≠ passphrase)).lookup other := by
    rw [setRecord, lookup_cons, beq_false_of_ne hne]
  unfold recordOf
  rw [hlookup]
  congr 1
  clear hlookup
  induction records with
  | nil => rfl
  | cons x records ih =>
    rw [filter_cons]
    split_ifs with hx
    · rw [lookup_cons, lookup_cons, ih]
    · have hkey : other ≠ x.1 := by
        intro heq
        exact hne (heq.trans (by simpa using hx))
      rw [ih, lookup_cons, beq_false_of_ne hkey]

theorem KeepsRecords.record {o : Opened Records} (h : KeepsRecords o) (slot : Slot)
    (passphrase address wasmSha256 : String) (nowMs : ℕ) : KeepsRecords (o.change passphrase
      (recordSlot slot o.state passphrase address wasmSha256 nowMs)) := by
  obtain ⟨hnodup, records, hopen, hkeeps⟩ := h
  unfold recordSlot
  split
  · split_ifs
    · refine ⟨hnodup, records, hopen, fun other hother => hkeeps other fun hmem => hother ?_⟩
      exact mem_cons_of_mem _ hmem
    · exact ⟨hnodup, records, hopen, hkeeps⟩
  · refine ⟨setRecord_nodup hnodup _ _, records, hopen, fun other hother => ?_⟩
    obtain ⟨hne, hother⟩ := not_or.mp (mt mem_cons.mpr hother)
    rw [← hkeeps other hother]
    exact recordOf_setRecord hne

theorem slotPath_inj {passphrase' : String} {slot' : Slot} {field field' : Field}
    (h : slotPath passphrase slot field = slotPath passphrase' slot' field') :
    passphrase = passphrase' ∧ slot = slot' ∧ field = field' := by
  obtain ⟨hpassphrase, hkey⟩ :=
    List.cons.inj (List.cons.inj h).2
  refine ⟨hpassphrase, ?_⟩
  have hkey := (List.cons.inj hkey).1
  have hall : ∀ s ∈ Slot.all, ∀ s' ∈ Slot.all, ∀ f ∈ [Field.address, .wasmSha256, .deployedAt],
      ∀ f' ∈ [Field.address, .wasmSha256, .deployedAt],
        s.key ++ f.suffix = s'.key ++ f'.suffix → s = s' ∧ f = f' := by
    decide +kernel
  refine hall slot ?_ slot' ?_ field ?_ field' ?_ hkey
  · cases slot <;> decide
  · cases slot' <;> decide
  · cases field <;> decide
  · cases field' <;> decide

section

variable (h : (path, leaf) ∈ slotLeaves passphrase slot entry)
include h

theorem path_of_mem_slotLeaves : ∃ field, path = slotPath passphrase slot field := by
  simp only [slotLeaves, mem_cons, not_mem_nil, or_false] at h
  rcases h with ⟨rfl, -⟩ | ⟨rfl, -⟩ | ⟨rfl, -⟩ <;> exact ⟨_, rfl⟩

theorem slotLeaf_unique (h' : (path, leaf') ∈ slotLeaves passphrase slot entry) : leaf = leaf' := by
  have hne : ∀ f f' : Field, f ≠ f' → slotPath passphrase slot f ≠ slotPath passphrase slot f' :=
    fun f f' hf heq => hf (slotPath_inj heq).2.2
  simp only [slotLeaves, mem_cons, Prod.mk.injEq, not_mem_nil, or_false] at h h'
  rcases h with ⟨rfl, rfl⟩ | ⟨rfl, rfl⟩ | ⟨rfl, rfl⟩ <;>
    rcases h' with ⟨hpath, rfl⟩ | ⟨hpath, rfl⟩ | ⟨hpath, rfl⟩ <;>
    first
    | rfl
    | exact absurd hpath (hne _ _ (by decide))

end

theorem get_persistedFile_iff (hnodup : (records.map (·.1)).Nodup) (hpath : path ≠ ["networks"]) :
    get (persistedFile records) path = some leaf ↔
      ∃ passphrase slot entry, recordOf records passphrase slot = some entry ∧
        (path, leaf) ∈ slotLeaves passphrase slot entry := by
  have hmem : ∀ x, x ∈ recordLeaves records ↔ ∃ passphrase slot entry,
      recordOf records passphrase slot = some entry ∧ x ∈ slotLeaves passphrase slot entry := by
    intro x
    simp only [recordLeaves, mem_flatMap, Option.mem_toList]
    constructor
    · rintro ⟨⟨passphrase, record⟩, hrecord, slot, -, entry, hentry, hx⟩
      exact ⟨passphrase, slot, entry, by rw [recordOf_of_mem hnodup hrecord]; exact hentry, hx⟩
    · rintro ⟨passphrase, slot, entry, hentry, hx⟩
      exact ⟨_, mem_of_recordOf hentry, slot, by cases slot <;> decide, entry, hentry, hx⟩
  rw [persistedFile, get_tableFile hpath, get, lookup_eq_some_iff, hmem]
  rintro ⟨path, leaf⟩ hx ⟨_, leaf'⟩ hy rfl
  obtain ⟨passphrase, slot, entry, hentry, hx⟩ := (hmem _).mp hx
  obtain ⟨passphrase', slot', entry', hentry', hy⟩ := (hmem _).mp hy
  obtain ⟨field, hpath⟩ := path_of_mem_slotLeaves hx
  obtain ⟨field', hpath'⟩ := path_of_mem_slotLeaves hy
  obtain ⟨rfl, rfl, -⟩ := slotPath_inj (hpath.symm.trans hpath')
  obtain rfl := Option.some.inj (hentry.symm.trans hentry')
  exact slotLeaf_unique hx hy

theorem frame_persist {o : Opened Records} (ho : w.verifiers = some o) (hkeeps : KeepsRecords o)
    (hclean : Clean X w .persist) : Frame X w .persist := by
  obtain ⟨hloaded, honly⟩ := hclean o ho
  obtain ⟨hnodup, records, hopen, hkeeps⟩ := hkeeps
  rw [hloaded] at hopen
  obtain ⟨-, hnamed, hslots⟩ := openAt_spec hopen
  intro path howned
  have hstep : (w.step X .persist).doc = persistedFile o.state := by
    simp only [World.step, ho]
    rfl
  obtain ⟨hpath, howned⟩ := not_or.mp howned
  rw [hstep]
  refine Option.ext fun leaf => ?_
  rw [get_persistedFile_iff hnodup hpath]
  have huntouched : ∀ passphrase slot entry, (path, leaf) ∈ slotLeaves passphrase slot entry →
      recordOf o.state passphrase = recordOf records passphrase := by
    intro passphrase slot entry hleaf
    obtain ⟨field, rfl⟩ := path_of_mem_slotLeaves hleaf
    exact hkeeps passphrase fun htouched => howned ⟨o, passphrase, _, ho, htouched, rfl⟩
  constructor
  · rintro ⟨passphrase, slot, entry, hentry, hleaf⟩
    rw [huntouched passphrase slot entry hleaf] at hentry
    exact leaves_of_slotAt (hslots passphrase slot entry hentry) _ hleaf
  · intro hget
    obtain ⟨passphrase, slot, entry, hleaf, hleaves⟩ := honly path leaf hpath hget
    refine ⟨passphrase, slot, entry, ?_, hleaf⟩
    rw [huntouched passphrase slot entry hleaf]
    have hname : passphrase ∈ names "networks" w.doc := by
      obtain ⟨field, rfl⟩ := path_of_mem_slotLeaves hleaf
      exact mem_names hget
    exact eq_of_slotAt (hnamed passphrase hname slot) hleaves

/-! ## Runs -/

structure Inv (X : Externals) (w : World) : Prop where
  multicall : ∀ o, w.multicall = some o → KeepsEntries X o
  verifiers : ∀ o, w.verifiers = some o → KeepsRecords o

theorem Inv.step (h : Inv X w) (event : Event) : Inv X (w.step X event) := by
  cases event with
  | load =>
    simp only [World.step]
    rcases hload : load X w.file with e | registry
    · exact h
    · refine ⟨?_, h.verifiers⟩
      rintro _ ⟨⟩
      exact ⟨registry, hload, fun _ _ => Iff.rfl⟩
  | register added =>
    refine ⟨?_, h.verifiers⟩
    rintro _ hmap
    obtain ⟨o, ho, rfl⟩ := Option.map_eq_some_iff.mp hmap
    exact (h.multicall o ho).change fun state hstate entry hne => mem_register hstate hne
  | unregister passphrase =>
    refine ⟨?_, h.verifiers⟩
    rintro _ hmap
    obtain ⟨o, ho, rfl⟩ := Option.map_eq_some_iff.mp hmap
    exact (h.multicall o ho).change fun state hstate entry hne => mem_unregister hstate hne
  | save | persist =>
    simp only [World.step]
    split
    · exact ⟨h.multicall, h.verifiers⟩
    · exact h
  | openAt =>
    simp only [World.step]
    rcases hopen : openAt w.file with e | records
    · exact h
    · refine ⟨h.multicall, ?_⟩
      rintro _ ⟨⟩
      exact ⟨(openAt_spec hopen).1, records, hopen, fun _ _ => rfl⟩
  | record slot passphrase address wasmSha256 nowMs =>
    refine ⟨h.multicall, ?_⟩
    rintro _ hmap
    obtain ⟨o, ho, rfl⟩ := Option.map_eq_some_iff.mp hmap
    exact (h.verifiers o ho).record slot passphrase address wasmSha256 nowMs

theorem Inv.frame (h : Inv X w) {event : Event} (hclean : Clean X w event) : Frame X w event := by
  cases event with
  | save =>
    rcases ho : w.multicall with _ | o
    · intro path _
      simp [World.step, ho]
    · exact frame_save ho (h.multicall o ho) hclean
  | persist =>
    rcases ho : w.verifiers with _ | o
    · intro path _
      simp [World.step, ho]
    · exact frame_persist ho (h.verifiers o ho) hclean
  | load | openAt =>
    intro path _
    simp only [World.step]
    split <;> rfl
  | register entry | unregister passphrase | record slot passphrase address wasmSha256 nowMs =>
    exact fun _ _ => rfl

/-- After any run over any file, an operation changes only what it owns, if it is clean. -/
theorem frame_of_run (X : Externals) (file : Option Doc) (events : List Event) (event : Event)
    (h : Clean X (run (World.step X) ⟨file, none, none⟩ events) event) :
    Frame X (run (World.step X) ⟨file, none, none⟩ events) event := by
  have hinit : Inv X ⟨file, none, none⟩ := ⟨fun _ h => (by cases h), fun _ h => (by cases h)⟩
  have hinv : Inv X (run (World.step X) ⟨file, none, none⟩ events) :=
    run_invariant (fun _ event hw (_ : True) => hw.step event) events _ hinit fun _ _ => trivial
  exact hinv.frame h

theorem onlyEntries_savedFile
    (hnodup : (entries.map fun entry =>
      networkSafenameFromPassphrase entry.networkPassphrase).Nodup)
    (hloaded : ∀ entry ∈ entries, isLoaded X entry = true) : OnlyEntries X (savedFile entries) := by
  intro path leaf hpath hget
  obtain ⟨entry, hentry, hleaf⟩ := (get_savedFile_iff hnodup hpath).mp hget
  refine ⟨entry, hloaded entry hentry, hleaf, fun other hother => ?_⟩
  exact (get_savedFile_iff hnodup (ne_multicall_of_mem_leaves hother)).mpr ⟨entry, hentry, hother⟩

/-- Strkeys that start with a `C`. -/
def prefixed : Externals := ⟨fun s => s.toList.head? == some 'C', id⟩

def testnetRouter : MulticallRegistryEntry :=
  ⟨"Test SDF Network ; September 2015", "CROUTER", multicallWasmSha256⟩

def futurenetRouter : MulticallRegistryEntry :=
  ⟨"Test SDF Future Network ; October 2022", "CFUTURE", multicallWasmSha256⟩

/-- A router is added to a file with one other router. -/
theorem register_futurenet_frame :
    Frame prefixed (run (World.step prefixed) ⟨some (savedFile [testnetRouter]), none, none⟩
      [.load, .register futurenetRouter]) .save := by
  refine frame_of_run prefixed _ _ _ ?_
  intro o ho
  have hopened : (run (World.step prefixed) ⟨some (savedFile [testnetRouter]), none, none⟩
      [.load, .register futurenetRouter]).multicall = some ⟨[testnetRouter, futurenetRouter],
        savedFile [testnetRouter], [futurenetRouter.networkPassphrase]⟩ := by decide +kernel
  obtain rfl := Option.some.inj (hopened.symm.trans ho)
  have honly : OnlyEntries prefixed (savedFile [testnetRouter]) :=
    onlyEntries_savedFile (by decide +kernel) (by decide +kernel)
  exact ⟨rfl, honly, by decide +kernel⟩

def shared : Doc :=
  savedFile [testnetRouter] ++
    slotLeaves testnetRouter.networkPassphrase .webauthn ⟨"CVERIFIER", "00", 1⟩

/-- Loading and saving the routers drops the verifier, opening and persisting the verifiers drops
the router. -/
theorem save_drops_networks :
    ¬ Frame prefixed (run (World.step prefixed) ⟨some shared, none, none⟩ [.load]) .save ∧
      ¬ Frame prefixed (run (World.step prefixed) ⟨some shared, none, none⟩ [.openAt]) .persist := by
  constructor
  · intro h
    have hdropped := h (slotPath testnetRouter.networkPassphrase .webauthn .address) ?_
    · exact absurd hdropped (by decide +kernel)
    · rintro (hpath | ⟨o, safename, rest, passphrase, -, -, hpath, -⟩) <;>
        exact absurd (List.cons.inj hpath).1 (by decide)
  · intro h
    have hdropped := h ["multicall", "test-sdf-network---september-2015", "address"] ?_
    · exact absurd hdropped (by decide +kernel)
    · rintro (hpath | ⟨o, passphrase, rest, -, -, hpath⟩) <;>
        exact absurd (List.cons.inj hpath).1 (by decide)

end AgentWallet.SmartAccount.Networks
