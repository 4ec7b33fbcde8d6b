import AgentWallet.Base.Checks
import AgentWallet.Base.Split
import AgentWallet.Base.Utf8

/-!
# SEP-7 requests

`parse.rs`: a URI `web+stellar:<operation>?<params>` is split at `&` and `=`, percent-decoded, and
read into a request.  Texts are lists of characters.  Base64 and XDR, addresses, URLs, IP addresses
and the check of host names are parameters.
-/

namespace AgentWallet.Sep7.Parse

open Base Base.Checks

variable {name : String}

abbrev Text := List Char

inductive Sep7Error where
  | malformedUri (detail : String)
  | unknownOperation (operation : Text)
  | missingRequiredParam (param : String)
  | invalidParamValue (param detail : String)
  | msgTooLong (len : ℕ)
  | tooManyChainLevels (depth : ℕ)
  | invalidOriginDomain (detail : String)
  | tomlFetchFailed (authorityHint : String)
  | signingKeyNotInToml
  | signatureVerificationFailed (detail : String)
deriving DecidableEq

structure Externals where
  /-- The canonical base64 of a `TransactionEnvelope`, or what is wrong with the text. -/
  envelope : Text → Except String Text
  /-- The key of an `ed25519::PublicKey` strkey. -/
  account : Text → Option (List UInt8)
  isUrl : Text → Bool
  isIpAddr : Text → Bool
  isValidLdhHomeDomain : Text → Bool
  /-- `{:?}` of a text. -/
  debug : Text → String

/-! ## Requests -/

inductive MemoType where
  | memoText
  | memoId
  | memoHash
  | memoReturn
deriving DecidableEq

structure Sep7TxParams where
  xdrCanonical : Text
  replace : Option Text
  callbackRaw : Option Text
  pubkey : Option Text
  chain : Option Text
  msg : Option Text
  networkPassphrase : Option Text
  originDomain : Option Text
  signatureRaw : Option Text
deriving DecidableEq

structure Sep7PayParams where
  destination : Text
  amount : Option Text
  assetCode : Option Text
  assetIssuer : Option Text
  memo : Option Text
  memoType : Option MemoType
  callbackRaw : Option Text
  msg : Option Text
  networkPassphrase : Option Text
  originDomain : Option Text
  signatureRaw : Option Text
deriving DecidableEq

inductive Sep7Request where
  | tx (params : Sep7TxParams)
  | pay (params : Sep7PayParams)
deriving DecidableEq

/-! ## Query parameters -/

variable {t : MemoType}

def hexDigit (b : UInt8) : Option UInt8 :=
  if 48 ≤ b ∧ b ≤ 57 then some (b - 48)
  else if 97 ≤ b ∧ b ≤ 102 then some (b - 97 + 10)
  else if 65 ≤ b ∧ b ≤ 70 then some (b - 65 + 10)
  else none

/-- `%` and two digits are one byte. -/
def unescape : List UInt8 → Option (List UInt8)
  | [] => some []
  | b :: rest =>
    if b = 37 then
      match rest with
      | hi :: lo :: rest => do
        let hi ← hexDigit hi
        let lo ← hexDigit lo
        let out ← unescape rest
        some ((hi <<< 4 ||| lo) :: out)
      | _ => none
    else (unescape rest).map (b :: ·)

def percentDecode (s : Text) : Option Text :=
  (unescape (Utf8.encode (s.map fun c => if c = '+' then ' ' else c))).bind Utf8.decode

/-- The parameters in the order of the text, every name once. -/
abbrev Params := List (Text × Text)

def Params.get (params : Params) (name : String) : Option Text := params.lookup name.toList

/-- A decoded pair; without a `=` the value is empty. -/
def decodePair (pair : Text) : Except Sep7Error (Text × Text) :=
  let kv := (Split.splitOnce '=' pair).getD (pair, [])
  match percentDecode kv.1 with
  | none => .error (.malformedUri "query parameter key contains invalid percent-encoding")
  | some key =>
    match percentDecode kv.2 with
    | none => .error (.malformedUri "query parameter value contains invalid percent-encoding")
    | some value => .ok (key, value)

variable (E : Externals)

def insertPair (params : Params) (pair : Text) : Except Sep7Error Params :=
  match decodePair pair with
  | .error e => .error e
  | .ok (key, value) =>
    if key ∈ params.map Prod.fst then
      .error (.invalidParamValue "query" ("duplicate parameter: " ++ E.debug key))
    else .ok (params ++ [(key, value)])

def insertPairs : Params → List Text → Except Sep7Error Params
  | params, [] => .ok params
  | params, pair :: pairs =>
    match insertPair E params pair with
    | .error e => .error e
    | .ok params => insertPairs params pairs

/-- The pairs of a query; empty ones are skipped. -/
def queryPairs (query : Text) : List Text :=
  (Split.splitOn '&' query).filter fun pair => !pair.isEmpty

def parseQueryParams (query : Text) : Except Sep7Error Params :=
  insertPairs E [] (queryPairs query)

/-! ## Checks of fields -/

def msgMaxChars : ℕ := 300

def maxChainDepth : ℕ := 7

def scheme : Text := "web+stellar:".toList

def stripScheme (uri : Text) : Option Text :=
  if scheme.isPrefixOf uri then some (uri.drop scheme.length) else none

def splitQuery (afterScheme : Text) : Text × Text :=
  (Split.splitOnce '?' afterScheme).getD (afterScheme, [])

def validateTransactionEnvelopeXdr (raw : Text) : Except Sep7Error Text :=
  match E.envelope raw with
  | .error detail => .error (.invalidParamValue "xdr" detail)
  | .ok canonical => .ok canonical

def validateReplaceField (replace : Text) : Except Sep7Error Text :=
  match Split.splitOnce ';' replace with
  | none =>
    .error (.invalidParamValue "replace"
      "must contain exactly one ';' separating field-refs from hints")
  | some (fields, hints) =>
    let ids := fun (section_ : Text) =>
      ((Split.splitOn ',' section_).filter fun s => !s.isEmpty).filterMap (Split.splitOnce ':')
    let left := ((ids fields).map Prod.snd).toFinset
    let right := ((ids hints).map Prod.fst).toFinset
    if left = right then .ok replace
    else
      .error (.invalidParamValue "replace" ("unbalanced replace identifiers: left has " ++
        toString left.card ++ ", right has " ++ toString right.card))

def validateCallback (callback : Text) : Except Sep7Error Text :=
  if "url:".toList.isPrefixOf callback = false then
    .error (.invalidParamValue "callback" "callback must start with the 'url:' prefix")
  else if E.isUrl (callback.drop 4) = false then
    .error (.invalidParamValue "callback" "the URL after 'url:' is not a valid URL")
  else .ok callback

def validateGStrkey (param : String) (value : Text) : Except Sep7Error Text :=
  match E.account value with
  | none => .error (.invalidParamValue param "must be a valid Stellar ed25519 public key G-strkey")
  | some _ => .ok value

/-- `parse_sep7_uri_chain` with so many levels left. -/
def parseChain : ℕ → Text → Except Sep7Error Unit
  | 0, _ => .error (.tooManyChainLevels (maxChainDepth + 1))
  | levels + 1, uri =>
    match stripScheme uri with
    | none => .error (.malformedUri "chain URI must start with 'web+stellar:'")
    | some afterScheme =>
      match parseQueryParams E (splitQuery afterScheme).2 with
      | .error e => .error e
      | .ok params =>
        match params.get "chain" with
        | none => .ok ()
        | some nested => parseChain levels nested

def validateChain (chain : Text) : Except Sep7Error Text := do
  parseChain E maxChainDepth chain
  .ok chain

def validateMsg (msg : Text) : Except Sep7Error Text :=
  if msg.length > msgMaxChars then .error (.msgTooLong msg.length) else .ok msg

def validateOriginDomainSyntax (domain : Text) : Except Sep7Error Text :=
  let labels := Split.splitOn '.' domain
  let quoted := "'" ++ String.ofList domain ++ "'"
  if E.isIpAddr domain then
    .error (.invalidOriginDomain (quoted ++ " is an IP address, not a valid FQDN"))
  else if labels.all fun label => !label.isEmpty && label.all Char.isDigit then
    .error (.invalidOriginDomain
      (quoted ++ " consists of numeric labels only; must be a valid FQDN"))
  else if (labels.filter fun label => !label.isEmpty).length < 2 then
    .error (.invalidOriginDomain
      (quoted ++ " is a single-label hostname; a valid FQDN requires at least two labels"))
  else if E.isValidLdhHomeDomain domain = false then
    .error (.invalidOriginDomain (quoted ++ " is not a valid lowercase RFC 1035 LDH FQDN"))
  else .ok domain

/-- The characters of an amount, with the points before them. -/
def checkAmountChars : ℕ → Text → Except Sep7Error Unit
  | _, [] => .ok ()
  | dots, c :: cs =>
    if c.isDigit then checkAmountChars dots cs
    else if c = '.' then
      if dots + 1 > 1 then
        .error (.invalidParamValue "amount" "amount has more than one decimal point")
      else checkAmountChars (dots + 1) cs
    else
      .error (.invalidParamValue "amount"
        "amount must consist of digits and an optional decimal point")

def validateAmount (amount : Text) : Except Sep7Error Text :=
  if Utf8.trim amount = [] then
    .error (.invalidParamValue "amount" "amount must not be empty")
  else do
    checkAmountChars 0 (Utf8.trim amount)
    .ok amount

def validateAssetCode (code : Text) : Except Sep7Error Text :=
  if code = [] ∨ (Utf8.encode code).length > 12 then
    .error (.invalidParamValue "asset_code" "asset_code must be 1–12 characters")
  else if code.all Char.isAlphanum = false then
    .error (.invalidParamValue "asset_code"
      "asset_code must be ASCII alphanumeric characters only")
  else .ok code

def validateAssetCoherence (assetCode assetIssuer : Option Text) : Except Sep7Error Unit :=
  match assetCode with
  | none => .ok ()
  | some code =>
    if code.map Char.toUpper ≠ "XLM".toList ∧ assetIssuer = none then
      .error (.invalidParamValue "asset_issuer"
        "asset_issuer is required when asset_code is a non-XLM asset")
    else .ok ()

def parseMemoType (s : Text) : Except Sep7Error MemoType :=
  if s = "MEMO_TEXT".toList then .ok .memoText
  else if s = "MEMO_ID".toList then .ok .memoId
  else if s = "MEMO_HASH".toList then .ok .memoHash
  else if s = "MEMO_RETURN".toList then .ok .memoReturn
  else
    .error (.invalidParamValue "memo_type" ("unknown memo_type: " ++ E.debug s ++
      "; must be one of MEMO_TEXT, MEMO_ID, MEMO_HASH, MEMO_RETURN"))

def validateMemoCoherence (memo : Option Text) (memoType : Option MemoType) :
    Except Sep7Error Unit :=
  match memo, memoType with
  | some _, none =>
    .error (.invalidParamValue "memo_type" "memo_type is required when memo is present")
  | none, some _ =>
    .error (.invalidParamValue "memo" "memo is required when memo_type is present")
  | _, _ => .ok ()

/-! ## Operations -/

def required (params : Params) (name : String) : Except Sep7Error Text :=
  match params.get name with
  | none => .error (.missingRequiredParam name)
  | some value => .ok value

/-- A parameter that is checked when it is there. -/
def optional {α : Type} (params : Params) (name : String) (check : Text → Except Sep7Error α) :
    Except Sep7Error (Option α) :=
  match params.get name with
  | none => .ok none
  | some value => (check value).map some

def parseTxParams (params : Params) : Except Sep7Error Sep7TxParams := do
  let xdrRaw ← required params "xdr"
  let xdrCanonical ← validateTransactionEnvelopeXdr E xdrRaw
  let replace ← optional params "replace" validateReplaceField
  let callbackRaw ← optional params "callback" (validateCallback E)
  let pubkey ← optional params "pubkey" (validateGStrkey E "pubkey")
  let chain ← optional params "chain" (validateChain E)
  let msg ← optional params "msg" validateMsg
  let originDomain ← optional params "origin_domain" (validateOriginDomainSyntax E)
  .ok
    { xdrCanonical
      replace
      callbackRaw
      pubkey
      chain
      msg
      networkPassphrase := params.get "network_passphrase"
      originDomain
      signatureRaw := params.get "signature" }

/-- A destination is a federation address or an account. -/
def validateDestination (destination : Text) : Except Sep7Error Text :=
  if '*' ∈ destination then .ok destination else validateGStrkey E "destination" destination

def parsePayParams (params : Params) : Except Sep7Error Sep7PayParams := do
  let raw ← required params "destination"
  let destination ← validateDestination E raw
  let amount ← optional params "amount" validateAmount
  let assetCode ← optional params "asset_code" validateAssetCode
  let assetIssuer ← optional params "asset_issuer" (validateGStrkey E "asset_issuer")
  validateAssetCoherence assetCode assetIssuer
  let memoType ← optional params "memo_type" (parseMemoType E)
  validateMemoCoherence (params.get "memo") memoType
  let callbackRaw ← optional params "callback" (validateCallback E)
  let msg ← optional params "msg" validateMsg
  let originDomain ← optional params "origin_domain" (validateOriginDomainSyntax E)
  .ok
    { destination
      amount
      assetCode
      assetIssuer
      memo := params.get "memo"
      memoType
      callbackRaw
      msg
      networkPassphrase := params.get "network_passphrase"
      originDomain
      signatureRaw := params.get "signature" }

/-- `sanitize_operation` -/
def sanitizeOperation (op : Text) : Text :=
  (op.take 16).map fun c => if 33 ≤ c.toNat ∧ c.toNat ≤ 126 then c else '?'

def parseOperation (operation : Text) (params : Params) : Except Sep7Error Sep7Request :=
  if operation = "tx".toList then (parseTxParams E params).map .tx
  else if operation = "pay".toList then (parsePayParams E params).map .pay
  else .error (.unknownOperation (sanitizeOperation operation))

def parseSep7Uri (uri : Text) : Except Sep7Error Sep7Request :=
  match stripScheme uri with
  | none => .error (.malformedUri "URI must start with 'web+stellar:'")
  | some afterScheme =>
    if afterScheme = [] then .error (.malformedUri "URI has no operation after 'web+stellar:'")
    else do
      let params ← parseQueryParams E (splitQuery afterScheme).2
      parseOperation E (splitQuery afterScheme).1 params

/-- `strip_signature_param` -/
def stripSignatureParam (uri : Text) : Text :=
  match Split.before "&signature=".toList uri with
  | some text => text
  | none =>
    match Split.before "?signature=".toList uri with
    | some text => text
    | none => uri

/-! ## What the parser reads -/

variable {E} {params : Params} {uri : Text}

/-- The names that an operation reads besides the signature. -/
def txNames : List String :=
  ["xdr", "replace", "callback", "pubkey", "chain", "msg", "network_passphrase", "origin_domain"]

def payNames : List String :=
  ["destination", "amount", "asset_code", "asset_issuer", "memo", "memo_type", "callback", "msg",
    "network_passphrase", "origin_domain"]

def Sep7Request.names : Sep7Request → List String
  | .tx _ => txNames
  | .pay _ => payNames

/-- A value as the request has it: an envelope in its canonical form, all others as they are. -/
def readValue (E : Externals) (name : String) (value : Text) : Except String Text :=
  if name = "xdr" then E.envelope value else .ok value

def Sep7Request.unsigned : Sep7Request → Sep7Request
  | .tx params => .tx { params with signatureRaw := none }
  | .pay params => .pay { params with signatureRaw := none }

def Sep7Request.originDomain : Sep7Request → Option Text
  | .tx params => params.originDomain
  | .pay params => params.originDomain

def Sep7Request.signatureRaw : Sep7Request → Option Text
  | .tx params => params.signatureRaw
  | .pay params => params.signatureRaw

def Passes (check : Text → Except Sep7Error Text) : Prop := ∀ v v', check v = .ok v' → v' = v

theorem passes_validateReplaceField : Passes validateReplaceField := by
  intro v v' h
  unfold validateReplaceField at h
  split at h
  · cases h
  · dsimp only at h
    split_ifs at h
    exact (Except.ok.inj h).symm

theorem passes_validateCallback : Passes (validateCallback E) := by
  intro v v' h
  unfold validateCallback at h
  split_ifs at h
  exact (Except.ok.inj h).symm

theorem passes_validateGStrkey (param : String) : Passes (validateGStrkey E param) := by
  intro v v' h
  unfold validateGStrkey at h
  split at h
  · cases h
  · exact (Except.ok.inj h).symm

theorem passes_validateChain : Passes (validateChain E) := by
  intro v v' h
  obtain ⟨-, -, h⟩ := bind_eq_ok_iff.1 h
  exact (Except.ok.inj h).symm

theorem passes_validateMsg : Passes validateMsg := by
  intro v v' h
  unfold validateMsg at h
  split_ifs at h
  exact (Except.ok.inj h).symm

theorem passes_validateOriginDomainSyntax : Passes (validateOriginDomainSyntax E) := by
  intro v v' h
  unfold validateOriginDomainSyntax at h
  dsimp only at h
  split_ifs at h
  exact (Except.ok.inj h).symm

theorem passes_validateAmount : Passes validateAmount := by
  intro v v' h
  unfold validateAmount at h
  split_ifs at h
  obtain ⟨-, -, h⟩ := bind_eq_ok_iff.1 h
  exact (Except.ok.inj h).symm

theorem passes_validateAssetCode : Passes validateAssetCode := by
  intro v v' h
  unfold validateAssetCode at h
  split_ifs at h
  exact (Except.ok.inj h).symm

theorem passes_validateDestination : Passes (validateDestination E) := by
  intro v v' h
  unfold validateDestination at h
  split_ifs at h
  · exact (Except.ok.inj h).symm
  · exact passes_validateGStrkey _ v v' h

theorem required_eq_ok {v : Text} (h : required params name = .ok v) :
    params.get name = some v := by
  unfold required at h
  split at h
  · cases h
  · rename_i value hvalue
    rw [hvalue, Except.ok.inj h]

theorem optional_eq_ok {check : Text → Except Sep7Error Text} {v : Option Text}
    (hcheck : Passes check) (h : optional params name check = .ok v) : v = params.get name := by
  unfold optional at h
  split at h
  · rename_i hnone
    rw [hnone, Except.ok.inj h]
  · rename_i value hvalue
    rcases hresult : check value with e | v'
    · rw [hresult] at h
      cases h
    · rw [hresult] at h
      rw [hvalue, ← Except.ok.inj h, hcheck value v' hresult]

def MemoType.text : MemoType → Text
  | .memoText => "MEMO_TEXT".toList
  | .memoId => "MEMO_ID".toList
  | .memoHash => "MEMO_HASH".toList
  | .memoReturn => "MEMO_RETURN".toList

theorem parseMemoType_eq_ok {s : Text} (h : parseMemoType E s = .ok t) : s = t.text := by
  unfold parseMemoType at h
  split_ifs at h with h₁ h₂ h₃ h₄
  all_goals
    obtain rfl := Except.ok.inj h
    assumption

theorem MemoType.text_inj {t' : MemoType} (h : t.text = t'.text) : t = t' := by
  cases t <;> cases t' <;> first | rfl | exact absurd h (by decide)

theorem optional_memoType {v : Option MemoType}
    (h : optional params "memo_type" (parseMemoType E) = .ok v) :
    params.get "memo_type" = v.map MemoType.text := by
  unfold optional at h
  split at h
  · rename_i hnone
    rw [hnone, ← Except.ok.inj h]
    rfl
  · rename_i value hvalue
    rcases hresult : parseMemoType E value with e | t
    · rw [hresult] at h
      cases h
    · rw [hresult] at h
      rw [hvalue, ← Except.ok.inj h, parseMemoType_eq_ok hresult]
      rfl

/-- What a `tx` request has from its parameters. -/
structure ReadsTx (E : Externals) (params : Params) (tx : Sep7TxParams) : Prop where
  xdr : (params.get "xdr").map E.envelope = some (.ok tx.xdrCanonical)
  replace : tx.replace = params.get "replace"
  callback : tx.callbackRaw = params.get "callback"
  pubkey : tx.pubkey = params.get "pubkey"
  chain : tx.chain = params.get "chain"
  msg : tx.msg = params.get "msg"
  networkPassphrase : tx.networkPassphrase = params.get "network_passphrase"
  originDomain : tx.originDomain = params.get "origin_domain"
  signature : tx.signatureRaw = params.get "signature"

theorem readsTx_of_parse {tx : Sep7TxParams} (h : parseTxParams E params = .ok tx) :
    ReadsTx E params tx := by
  obtain ⟨raw, hraw, h⟩ := bind_eq_ok_iff.1 h
  obtain ⟨xdr, hxdr, h⟩ := bind_eq_ok_iff.1 h
  obtain ⟨replace, hreplace, h⟩ := bind_eq_ok_iff.1 h
  obtain ⟨callback, hcallback, h⟩ := bind_eq_ok_iff.1 h
  obtain ⟨pubkey, hpubkey, h⟩ := bind_eq_ok_iff.1 h
  obtain ⟨chain, hchain, h⟩ := bind_eq_ok_iff.1 h
  obtain ⟨msg, hmsg, h⟩ := bind_eq_ok_iff.1 h
  obtain ⟨domain, hdomain, h⟩ := bind_eq_ok_iff.1 h
  obtain rfl := Except.ok.inj h
  refine ⟨?_, optional_eq_ok passes_validateReplaceField hreplace,
    optional_eq_ok passes_validateCallback hcallback,
    optional_eq_ok (passes_validateGStrkey _) hpubkey, optional_eq_ok passes_validateChain hchain,
    optional_eq_ok passes_validateMsg hmsg, rfl,
    optional_eq_ok passes_validateOriginDomainSyntax hdomain, rfl⟩
  rw [required_eq_ok hraw]
  unfold validateTransactionEnvelopeXdr at hxdr
  split at hxdr
  · cases hxdr
  · rename_i canonical hcanonical
    rw [← Except.ok.inj hxdr, ← hcanonical]
    rfl

/-- What a `pay` request has from its parameters. -/
structure ReadsPay (params : Params) (pay : Sep7PayParams) : Prop where
  destination : params.get "destination" = some pay.destination
  amount : pay.amount = params.get "amount"
  assetCode : pay.assetCode = params.get "asset_code"
  assetIssuer : pay.assetIssuer = params.get "asset_issuer"
  memo : pay.memo = params.get "memo"
  memoType : params.get "memo_type" = pay.memoType.map MemoType.text
  callback : pay.callbackRaw = params.get "callback"
  msg : pay.msg = params.get "msg"
  networkPassphrase : pay.networkPassphrase = params.get "network_passphrase"
  originDomain : pay.originDomain = params.get "origin_domain"
  signature : pay.signatureRaw = params.get "signature"

theorem readsPay_of_parse {pay : Sep7PayParams} (h : parsePayParams E params = .ok pay) :
    ReadsPay params pay := by
  obtain ⟨raw, hraw, h⟩ := bind_eq_ok_iff.1 h
  obtain ⟨destination, hdestination, h⟩ := bind_eq_ok_iff.1 h
  obtain ⟨amount, hamount, h⟩ := bind_eq_ok_iff.1 h
  obtain ⟨code, hcode, h⟩ := bind_eq_ok_iff.1 h
  obtain ⟨issuer, hissuer, h⟩ := bind_eq_ok_iff.1 h
  obtain ⟨-, -, h⟩ := bind_eq_ok_iff.1 h
  obtain ⟨memoType, hmemoType, h⟩ := bind_eq_ok_iff.1 h
  obtain ⟨-, -, h⟩ := bind_eq_ok_iff.1 h
  obtain ⟨callback, hcallback, h⟩ := bind_eq_ok_iff.1 h
  obtain ⟨msg, hmsg, h⟩ := bind_eq_ok_iff.1 h
  obtain ⟨domain, hdomain, h⟩ := bind_eq_ok_iff.1 h
  obtain rfl := Except.ok.inj h
  refine ⟨?_, optional_eq_ok passes_validateAmount hamount,
    optional_eq_ok passes_validateAssetCode hcode,
    optional_eq_ok (passes_validateGStrkey _) hissuer, rfl, optional_memoType hmemoType,
    optional_eq_ok passes_validateCallback hcallback, optional_eq_ok passes_validateMsg hmsg, rfl,
    optional_eq_ok passes_validateOriginDomainSyntax hdomain, rfl⟩
  rw [required_eq_ok hraw, passes_validateDestination _ _ hdestination]

end AgentWallet.Sep7.Parse
