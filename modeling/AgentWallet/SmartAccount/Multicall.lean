import AgentWallet.Policy.Value
import AgentWallet.Base.Checks

/-!
# Multicall bundles: the policy's view and the router's calls

A bundle of JSON invocations is read twice.  `decompose_bundle` (`bundle.rs`) turns it into the
descriptors the policy judges, `build_exec_invocations` (`multicall.rs`) into the calls the router
makes.  The second reader encodes every JSON string as a string value, so none of its calls has an
address among its arguments (`not_isTransfer_of_built`), while the first one takes strings for the
addresses of a token transfer.  The two agree on an invocation exactly when its JSON does not look
like a transfer (`judged_as_executed_iff`).
-/

namespace AgentWallet.SmartAccount.Multicall

open Base Base.Saturating Policy.Value List Base.Checks

variable {idx : ℕ}

/-! ## JSON -/

/-- A JSON value; a number that is no 64-bit integer is a float. -/
inductive JsonValue where
  | null
  | bool (b : Bool)
  | number (n : ℤ)
  | float
  | string (s : String)
  | array (elems : List JsonValue)
  | object

def JsonValue.toArg : JsonValue → JsonArg
  | .string s => .string s
  | .number n => .integer n
  | _ => .other

/-- `as_array`, with nothing for any other value. -/
def JsonValue.elems : JsonValue → List JsonValue
  | .array elems => elems
  | _ => []

/-- `MulticallInvocation` -/
structure MulticallInvocation where
  targetContract : String
  fnName : String
  argsJson : JsonValue

/-! ## Values of the contract host -/

abbrev Key := List UInt8

inductive ScAddress where
  | account (key : Key)
  | contract (id : Key)

inductive ScVal where
  | void
  /-- `Int128Parts` -/
  | i128 (hi : ℤ) (lo : ℕ)
  | string (s : String)
  | symbol (s : String)
  | address (a : ScAddress)
  | vec (elems : List ScVal)

def ScVal.ofInt (n : ℤ) : ScVal := .i128 (n / 2 ^ 64) (n % 2 ^ 64).toNat

/-- The decoders of addresses, with the texts of their errors. -/
structure Strkeys extends TextFormats where
  contract : String → Except String Key
  account : String → Except String Key
  isContract_eq : ∀ s, isContract s = (contract s).toOption.isSome
  isAccount_eq : ∀ s, isAccount s = (account s).toOption.isSome

variable (F : Strkeys)

def address (s : String) : Option ScAddress :=
  ((F.account s).toOption.map .account).orElse fun _ => (F.contract s).toOption.map .contract

/-! ## The encoder -/

variable {a : ScAddress} {call : ScVal}

def maxLength : ℕ := 2 ^ 32 - 1

def innerAt (idx : ℕ) : String := "inner[" ++ toString idx ++ "]"

/-- The characters within the first `n` bytes. -/
def firstBytes (n : ℕ) : List Char → List Char
  | [] => []
  | c :: cs => if c.utf8Size ≤ n then c :: firstBytes (n - c.utf8Size) cs else []

/-- `validate_soroban_symbol`; where the cut of a long symbol falls inside a character the source
panics instead. -/
def validateSorobanSymbol (s : String) : Except String String :=
  if s.isEmpty then .error "symbol must not be empty"
  else if s.utf8ByteSize > 32 then
    .error ("symbol '" ++ String.ofList (firstBytes 32 s.toList) ++
      "' exceeds 32-byte Soroban limit")
  else
    match s.toList.find? fun c => !(c.isAlphanum || c == '_') with
    | some c => .error ("symbol contains invalid character '" ++ c.toString ++ "'")
    | none => .ok s

/-- A JSON argument as it is encoded; no JSON yields an address. -/
def jsonArgToScval (idx elemIdx : ℕ) : JsonValue → Except String ScVal
  | .number n =>
    if 0 ≤ n ∧ n ≤ u64Max then .ok (.i128 0 n.toNat)
    else if -2 ^ 63 ≤ n ∧ n < 0 then .ok (.i128 (-1) (n + 2 ^ 64).toNat)
    else .error (innerAt idx ++ " arg[" ++ toString elemIdx ++
      "]: numeric value out of i64/u64 range")
  | .float =>
    .error (innerAt idx ++ " arg[" ++ toString elemIdx ++ "]: numeric value out of i64/u64 range")
  | .string s =>
    if s.utf8ByteSize ≤ maxLength then .ok (.string s)
    else .error (innerAt idx ++ " arg[" ++ toString elemIdx ++ "]: string arg too long")
  | .bool _ => unsupported "Bool"
  | .object => unsupported "Object"
  | .array _ => unsupported "Array (nested)"
  | .null => .ok .void
where
  unsupported (kind : String) : Except String ScVal :=
    .error (innerAt idx ++ " arg[" ++ toString elemIdx ++ "]: unsupported JSON argument shape '" ++
      kind ++ "'; encode complex args as pre-serialised XDR base64 strings")

def encodeArgs (idx : ℕ) : ℕ → List JsonValue → Except String (List ScVal)
  | _, [] => .ok []
  | elemIdx, elem :: elems => do
    let val ← jsonArgToScval idx elemIdx elem
    let vals ← encodeArgs idx (elemIdx + 1) elems
    .ok (val :: vals)

/-- `json_args_to_scval_vec` -/
def jsonArgsToScvalVec (idx : ℕ) : JsonValue → Except String ScVal
  | .array elems => do
    let vals ← encodeArgs idx 0 elems
    if vals.length ≤ maxLength then .ok (.vec vals)
    else .error (innerAt idx ++ " args VecM encoding failed")
  | .null => .ok (.vec [])
  | _ => .error (innerAt idx ++ " args_json is not an array")

def explain {α : Type} (idx : ℕ) (what : String) : Except String α → Except String α
  | .ok a => .ok a
  | .error e => .error (innerAt idx ++ ": " ++ what ++ ": " ++ e)

/-- The tuple of one invocation, or the reason of the `MulticallFailed` in phase `build`. -/
def buildInvocation (idx : ℕ) (invocation : MulticallInvocation) : Except String ScVal := do
  let contract ← explain idx "invalid target_contract C-strkey" (F.contract invocation.targetContract)
  let symbol ← explain idx "invalid fn_name symbol" (validateSorobanSymbol invocation.fnName)
  let args ← explain idx "args encoding failed" (jsonArgsToScvalVec idx invocation.argsJson)
  .ok (.vec [.address (.contract contract), .symbol symbol, args])

def buildFrom : ℕ → List MulticallInvocation → Except String (List ScVal)
  | _, [] => .ok []
  | idx, invocation :: bundle => do
    let call ← buildInvocation F idx invocation
    let calls ← buildFrom (idx + 1) bundle
    .ok (call :: calls)

/-- `build_exec_invocations` -/
def buildExecInvocations (bundle : List MulticallInvocation) : Except String (List ScVal) :=
  buildFrom F 0 bundle

/-! ## The policy gate -/

/-- The triples `submit_multicall_bundle` hands to the decomposition. -/
def rawBundle (bundle : List MulticallInvocation) : List (String × String × List JsonArg) :=
  bundle.map fun inv => (inv.targetContract, inv.fnName, inv.argsJson.elems.map JsonValue.toArg)

def descriptors (bundle : List MulticallInvocation) : List InnerOpDescriptor :=
  decomposeBundle F.toTextFormats (rawBundle bundle)

def IsTransfer (call : ScVal) (asset sender recipient : String) (amount : ℤ) : Prop :=
  ∃ contract addrFrom addrTo, F.contract asset = .ok contract ∧ address F sender = some addrFrom ∧
    address F recipient = some addrTo ∧
    call = .vec [.address (.contract contract), .symbol "transfer",
      .vec [.address addrFrom, .address addrTo, .ofInt amount]]

/-- The policy takes the invocation for a transfer exactly when the router transfers these
tokens. -/
def JudgedAsExecuted (bundle : List MulticallInvocation) (calls : List ScVal) (i : ℕ) : Prop :=
  ∀ asset sender recipient amount,
    (descriptors F bundle)[i]? = some (.tokenTransfer asset sender recipient amount) ↔
      ∃ call, calls[i]? = some call ∧ IsTransfer F call asset sender recipient amount

variable {F} {bundle : List MulticallInvocation} {calls : List ScVal}

theorem jsonArgToScval_ne_address {elemIdx : ℕ} {elem : JsonValue} :
    jsonArgToScval idx elemIdx elem ≠ .ok (.address a) := by
  intro h
  unfold jsonArgToScval jsonArgToScval.unsupported at h
  split at h
  · split_ifs at h <;> cases h
  · cases h
  · split_ifs at h
    cases h
  all_goals cases h

theorem address_notMem_of_encodeArgs : ∀ {elems : List JsonValue} {idx elemIdx : ℕ}
    {vals : List ScVal}, encodeArgs idx elemIdx elems = .ok vals → ScVal.address a ∉ vals
  | [], _, _, vals, h => by
    obtain rfl := Except.ok.inj h
    exact not_mem_nil
  | elem :: elems, idx, elemIdx, vals, h => by
    obtain ⟨val, hval, hrest⟩ := bind_eq_ok_iff.1 h
    obtain ⟨tail, htail, heq⟩ := bind_eq_ok_iff.1 hrest
    obtain rfl := Except.ok.inj heq
    intro hmem
    rcases mem_cons.1 hmem with hhead | hmem
    · exact jsonArgToScval_ne_address (hhead ▸ hval)
    · exact address_notMem_of_encodeArgs htail hmem

theorem explain_eq_ok {α : Type} {what : String} {x : Except String α} {a : α}
    (h : explain idx what x = .ok a) : x = .ok a := by
  cases x with
  | ok b => exact h
  | error e => cases h

theorem buildInvocation_args {invocation : MulticallInvocation}
    (h : buildInvocation F idx invocation = .ok call) :
    ∃ contract symbol vals, call = .vec [.address (.contract contract), .symbol symbol, .vec vals] ∧
      ∀ a, ScVal.address a ∉ vals := by
  obtain ⟨contract, -, h⟩ := bind_eq_ok_iff.1 h
  obtain ⟨symbol, -, h⟩ := bind_eq_ok_iff.1 h
  obtain ⟨args, hargs, h⟩ := bind_eq_ok_iff.1 h
  obtain rfl := Except.ok.inj h
  have hargs := explain_eq_ok hargs
  unfold jsonArgsToScvalVec at hargs
  split at hargs
  · obtain ⟨vals, hvals, heq⟩ := bind_eq_ok_iff.1 hargs
    split_ifs at heq
    obtain rfl := Except.ok.inj heq
    exact ⟨contract, symbol, vals, rfl, fun a => address_notMem_of_encodeArgs hvals⟩
  · obtain rfl := Except.ok.inj hargs
    exact ⟨contract, symbol, [], rfl, fun a => not_mem_nil⟩
  · cases hargs

theorem mem_buildFrom : ∀ {bundle : List MulticallInvocation} {idx : ℕ} {calls : List ScVal},
    buildFrom F idx bundle = .ok calls →
      ∀ call ∈ calls, ∃ idx' invocation, buildInvocation F idx' invocation = .ok call
  | [], _, _, h => by
    obtain rfl := Except.ok.inj h
    exact fun call hcall => absurd hcall not_mem_nil
  | invocation :: bundle, idx, calls, h => by
    obtain ⟨first, hfirst, h⟩ := bind_eq_ok_iff.1 h
    obtain ⟨rest, hrest, h⟩ := bind_eq_ok_iff.1 h
    obtain rfl := Except.ok.inj h
    intro call hcall
    rcases mem_cons.1 hcall with rfl | hcall
    · exact ⟨idx, invocation, hfirst⟩
    · exact mem_buildFrom hrest call hcall

/-- **The router never transfers tokens for a bundle**: no call it builds has an address among its
arguments. -/
theorem not_isTransfer_of_built (h : buildExecInvocations F bundle = .ok calls)
    (hcall : call ∈ calls) (asset sender recipient : String) (amount : ℤ) :
    ¬ IsTransfer F call asset sender recipient amount := by
  rintro ⟨contract, addrFrom, addrTo, -, -, -, rfl⟩
  obtain ⟨idx, invocation, hbuilt⟩ := mem_buildFrom h _ hcall
  obtain ⟨contract', symbol, vals, heq, hnone⟩ := buildInvocation_args hbuilt
  simp only [ScVal.vec.injEq, List.cons.injEq, and_true] at heq
  exact hnone addrFrom (heq.2.2 ▸ mem_cons_self)

/-! ## What is taken for a transfer -/

/-- An amount that is not negative: an unsigned 64-bit integer, or a text that is read as one. -/
def IsAmount (F : Strkeys) (value : JsonValue) : Prop :=
  (∃ n, value = .number n ∧ 0 ≤ n ∧ n ≤ u64Max) ∨
    ∃ s n, value = .string s ∧ F.parseI128 s = some n ∧ 0 ≤ n

/-- The JSON of a transfer: the function name, the texts of two accounts and an amount. -/
def LooksLikeTransfer (F : Strkeys) (invocation : MulticallInvocation) : Prop :=
  invocation.fnName = "transfer" ∧ ∃ sender recipient amount,
    invocation.argsJson = .array [.string sender, .string recipient, amount] ∧
      F.isAccount sender = true ∧ F.isAccount recipient = true ∧ IsAmount F amount

theorem eq_string_of_asStr {value : JsonValue} {s : String} (h : value.toArg.asStr = some s) :
    value = .string s := by
  cases value with
  | string s' =>
    obtain rfl := Option.some.inj h
    rfl
  | _ => cases h

theorem isAmount_iff {value : JsonValue} : IsAmount F value ↔
    ∃ n, parseI128Arg F.toTextFormats value.toArg = some n ∧ 0 ≤ n := by
  cases value with
  | number n =>
    simp only [IsAmount, JsonValue.toArg, parseI128Arg]
    constructor
    · rintro (⟨n', heq, hnonneg, hle⟩ | ⟨s, n', heq, -⟩)
      · cases heq
        exact ⟨n, if_pos ⟨by omega, hle⟩, hnonneg⟩
      · cases heq
    · rintro ⟨n', heq, hnonneg⟩
      split_ifs at heq with hrange
      cases heq
      exact .inl ⟨n, rfl, hnonneg, hrange.2⟩
  | string s => simp [IsAmount, JsonValue.toArg, parseI128Arg]
  | _ => simp [IsAmount, JsonValue.toArg, parseI128Arg]

theorem decomposed_iff {invocation : MulticallInvocation}
    (hcontract : F.isContract invocation.targetContract = true) :
    (∃ asset sender recipient amount, tryDecomposeAsTokenTransfer F.toTextFormats
        invocation.targetContract invocation.fnName (invocation.argsJson.elems.map JsonValue.toArg) =
          some (.tokenTransfer asset sender recipient amount)) ↔ LooksLikeTransfer F invocation := by
  constructor
  · rintro ⟨asset, sender, recipient, amount, h⟩
    unfold tryDecomposeAsTokenTransfer at h
    split_ifs at h with hname
    rcases hargs : invocation.argsJson.elems with _ | ⟨e₀, _ | ⟨e₁, _ | ⟨e₂, _ | ⟨e₃, rest⟩⟩⟩⟩
    · simp [hargs] at h
    · simp [hargs] at h
    · simp [hargs] at h
    · simp only [hargs, map_cons, map_nil, Option.bind_eq_bind, Option.bind_eq_some_iff, guard] at h
      obtain ⟨from', h₀, _, hfrom, to', h₁, _, hto, n, hn, _, hnonneg, -⟩ := h
      have harray : invocation.argsJson = .array [e₀, e₁, e₂] := by
        cases hjson : invocation.argsJson with
        | array elems => rw [hjson] at hargs; exact congrArg _ hargs
        | _ => rw [hjson] at hargs; cases hargs
      rw [eq_string_of_asStr h₀, eq_string_of_asStr h₁] at harray
      refine ⟨by simpa [hcontract] using hname, from', to', e₂, harray, ?_, ?_,
        isAmount_iff.2 ⟨n, hn, ?_⟩⟩
      · by_contra hnot
        simp [hnot] at hfrom
      · by_contra hnot
        simp [hnot] at hto
      · by_contra hnot
        simp [hnot] at hnonneg
    · simp [hargs] at h
  · rintro ⟨hname, sender, recipient, amount, hjson, hsender, hrecipient, hamount⟩
    obtain ⟨n, hn, hnonneg⟩ := isAmount_iff.1 hamount
    have hstring : ∀ s, (JsonValue.string s).toArg = .string s := fun _ => rfl
    refine ⟨invocation.targetContract, sender, recipient, n, ?_⟩
    simp [tryDecomposeAsTokenTransfer, hcontract, hname, hjson, JsonValue.elems, hstring,
      JsonArg.asStr, hsender, hrecipient, hn, hnonneg, guard]

theorem isContract_of_buildFrom : ∀ {bundle : List MulticallInvocation} {idx : ℕ}
    {calls : List ScVal}, buildFrom F idx bundle = .ok calls →
      ∀ invocation ∈ bundle, F.isContract invocation.targetContract = true
  | [], _, _, _ => fun _ hmem => absurd hmem not_mem_nil
  | first :: bundle, idx, calls, h => by
    obtain ⟨call, hcall, h⟩ := bind_eq_ok_iff.1 h
    obtain ⟨rest, hrest, -⟩ := bind_eq_ok_iff.1 h
    obtain ⟨contract, hcontract, -⟩ := bind_eq_ok_iff.1 hcall
    intro invocation hmem
    rcases mem_cons.1 hmem with rfl | hmem
    · rw [F.isContract_eq, explain_eq_ok hcontract]
      rfl
    · exact isContract_of_buildFrom hrest invocation hmem

/-- **The policy judges what the router executes exactly where the JSON does not look like a
transfer.** -/
theorem judged_as_executed_iff (h : buildExecInvocations F bundle = .ok calls) (i : ℕ) :
    JudgedAsExecuted F bundle calls i ↔
      ∀ invocation, bundle[i]? = some invocation → ¬ LooksLikeTransfer F invocation := by
  have hnot : ∀ asset sender recipient amount,
      ¬ ∃ call, calls[i]? = some call ∧ IsTransfer F call asset sender recipient amount := by
    rintro asset sender recipient amount ⟨call, hcall, htransfer⟩
    exact not_isTransfer_of_built h (mem_of_getElem? hcall) _ _ _ _ htransfer
  have hdescriptor : ∀ asset sender recipient amount,
      (descriptors F bundle)[i]? = some (.tokenTransfer asset sender recipient amount) ↔
        ∃ invocation, bundle[i]? = some invocation ∧ tryDecomposeAsTokenTransfer F.toTextFormats
          invocation.targetContract invocation.fnName
            (invocation.argsJson.elems.map JsonValue.toArg) =
              some (.tokenTransfer asset sender recipient amount) := by
    intro asset sender recipient amount
    simp only [descriptors, rawBundle, decomposeBundle, getElem?_map, Option.map_map,
      Option.map_eq_some_iff, Function.comp_apply]
    refine exists_congr fun invocation => and_congr_right fun _ => ?_
    cases tryDecomposeAsTokenTransfer F.toTextFormats invocation.targetContract invocation.fnName
      (invocation.argsJson.elems.map JsonValue.toArg) with
    | none => simp
    | some inner => simp
  constructor
  · intro hagree invocation hinv hlooks
    have hcontract := isContract_of_buildFrom h invocation (mem_of_getElem? hinv)
    obtain ⟨asset, sender, recipient, amount, heq⟩ := (decomposed_iff hcontract).2 hlooks
    exact hnot _ _ _ _ ((hagree asset sender recipient amount).1
      ((hdescriptor _ _ _ _).2 ⟨invocation, hinv, heq⟩))
  · intro hplain asset sender recipient amount
    refine iff_of_false (fun hjudged => ?_) (hnot _ _ _ _)
    obtain ⟨invocation, hinv, heq⟩ := (hdescriptor _ _ _ _).1 hjudged
    have hcontract := isContract_of_buildFrom h invocation (mem_of_getElem? hinv)
    exact hplain invocation hinv ((decomposed_iff hcontract).1 ⟨_, _, _, _, heq⟩)

/-! ## On two bundles -/

def threeKeys : Strkeys where
  isContract s := s == "CTOKEN"
  isAccount s := s == "GSENDER" || s == "GRECIPIENT"
  parseI128 _ := none
  contract s := if s == "CTOKEN" then .ok [1] else .error "invalid"
  account s :=
    if s == "GSENDER" then .ok [2] else if s == "GRECIPIENT" then .ok [3] else .error "invalid"
  isContract_eq s := by split_ifs with h <;> simp [h, Except.toOption]
  isAccount_eq s := by split_ifs with h h' <;> simp [*, Except.toOption]

def symbolCall : MulticallInvocation := ⟨"CTOKEN", "symbol", .array []⟩

def transferCall : MulticallInvocation :=
  ⟨"CTOKEN", "transfer", .array [.string "GSENDER", .string "GRECIPIENT", .number 30]⟩

/-- A call that is no transfer is judged as one that is none. -/
theorem symbol_judged_as_executed : buildExecInvocations threeKeys [symbolCall] =
        .ok [.vec [.address (.contract [1]), .symbol "symbol", .vec []]] ∧
      JudgedAsExecuted threeKeys [symbolCall]
        [.vec [.address (.contract [1]), .symbol "symbol", .vec []]] 0 := by
  have hbuilt : buildExecInvocations threeKeys [symbolCall] =
      .ok [.vec [.address (.contract [1]), .symbol "symbol", .vec []]] := by rfl
  refine ⟨hbuilt, (judged_as_executed_iff hbuilt 0).2 fun invocation hinv hlooks => ?_⟩
  obtain rfl := Option.some.inj hinv
  exact absurd hlooks.1 (by decide)

/-- **A transfer of 30** is judged as one, and the router passes three arguments
of which two are strings. -/
theorem transfer_not_executed : buildExecInvocations threeKeys [transferCall] =
        .ok [.vec [.address (.contract [1]), .symbol "transfer",
          .vec [.string "GSENDER", .string "GRECIPIENT", .i128 0 30]]] ∧
      descriptors threeKeys [transferCall] = [.tokenTransfer "CTOKEN" "GSENDER" "GRECIPIENT" 30] ∧
      ¬ JudgedAsExecuted threeKeys [transferCall] [.vec [.address (.contract [1]),
        .symbol "transfer", .vec [.string "GSENDER", .string "GRECIPIENT", .i128 0 30]]] 0 := by
  have hdescriptors : descriptors threeKeys [transferCall] =
      [.tokenTransfer "CTOKEN" "GSENDER" "GRECIPIENT" 30] := by decide
  refine ⟨rfl, hdescriptors, fun h => ?_⟩
  have htransfer := (h "CTOKEN" "GSENDER" "GRECIPIENT" 30).1 (by rw [hdescriptors]; rfl)
  obtain ⟨call, hcall, contract, addrFrom, addrTo, -, -, -, rfl⟩ := htransfer
  simp at hcall

end AgentWallet.SmartAccount.Multicall
