import AgentWallet.Base.Checks
import AgentWallet.Base.Utf8
import AgentWallet.Soroban.Types

/-!
# SEP-45 challenges

`parse_and_validate` looks at the authorization entries of a challenge before the client signs its
own. The steps check that every entry calls `web_auth_verify` of the expected contract without
sub-invocations, take a reference from the first argument of the first entry, compare seven keys of
the first argument of the others with it, and pick the server's and the client's entry by the
address of their credentials.
-/

namespace AgentWallet.Sep45.Entries

open Base.Checks Soroban.Types List

variable {a b : Bytes} {contract : String} {index : ℕ} {entry : SorobanAuthorizationEntry}

inductive Sep45Error where
  | xdrDecodeError (detail : String)
  | invalidEntryCount (found expectedMin : ℕ)
  | missingServerEntry
  | missingClientEntry
  | unsupportedCredentialType (entryIndex : ℕ)
  | invalidContractAddress (found expected : String)
  | invalidFunctionName (found expected : String)
  | missingNonce (entryIndex : ℕ)
  | nonceMismatch (entryIndex : ℕ)
  | invalidArgsCount (found expectedMin : ℕ)
  | invalidArgsFormat (detail : String)
  | invalidExpectedContractArg (detail : String)
  | invalidExpectedServerKeyArg (detail : String)
  | invalidAccountArg (detail : String)
  | homeDomainMismatch (found expected : String)
  | webAuthDomainMismatch (found expected : String)
  | webAuthDomainAccountMismatch (found expected : String)
  | missingClientDomainOp
  | clientDomainMismatch (found expected : String)
  | invalidClientDomainAccount (detail : String)
  | unexpectedSubInvocations (entryIndex : ℕ)
  | missingServerSignature
  | invalidServerSignature (detail : String)
deriving DecidableEq

/-- What the code takes from other libraries: the decoder of the list, strkeys, the debug format of
a text, keys on the ed25519 curve, and the check of a signature of an authorization on a network. -/
structure Externals where
  decodeEntries : String → Except String (List SorobanAuthorizationEntry)
  accountStrkey : Bytes → String
  contractStrkey : Bytes → String
  contractFromString : String → Except String Bytes
  publicKeyFromString : String → Except String Bytes
  debug : String → String
  verifyingKey : Bytes → Except String Unit
  verifyStrict : (networkPassphrase : String) → (nonce : ℤ) → (expirationLedger : ℕ) →
    SorobanAuthorizedInvocation → (publicKey signature : Bytes) → Except String Unit

def webAuthVerifyFn : String := "web_auth_verify"

def fromUtf8 (b : Bytes) : Option String := (Base.Utf8.decode b).map String.ofList

variable (X : Externals)

def scAddressToString : ScAddress → Except Sep45Error String
  | .account key => .ok (X.accountStrkey key)
  | .contract id => .ok (X.contractStrkey id)
  | _ => .error (.invalidContractAddress "non-account non-contract ScAddress variant"
      "C-strkey contract address")

/-! ## The argument map -/

abbrev ArgsMap := List (String × String)

/-- The loop over the entries of the map, with the names seen so far. -/
def extractFrom : List (ScVal × ScVal) → List String → ArgsMap → Except Sep45Error ArgsMap
  | [], _, result => .ok result
  | (.symbol sym, val) :: rest, seen, result =>
    match fromUtf8 sym with
    | none => .error (.invalidArgsFormat "args map contains a Symbol key with invalid UTF-8 bytes")
    | some key =>
      if key ∈ seen then .error (.invalidArgsFormat ("duplicate key '" ++ key ++ "' in args map"))
      else
        match val with
        | .string s =>
          match fromUtf8 s with
          | none => .error (.invalidArgsFormat
              ("args map value for key '" ++ key ++ "' contains invalid UTF-8 bytes"))
          | some value => extractFrom rest (key :: seen) (result ++ [(key, value)])
        | _ => extractFrom rest (key :: seen) result
  | _ :: rest, seen, result => extractFrom rest seen result

def extractArgsMap : ScVal → Except Sep45Error ArgsMap
  | .map entries => extractFrom entries [] []
  | _ => .error (.invalidArgsCount 0 5)

/-- `get(..).unwrap_or("")` -/
def ArgsMap.text (args : ArgsMap) (key : String) : String := (args.lookup key).getD ""

/-! ## The steps -/

def nonContractFunction : Sep45Error :=
  .invalidFunctionName "<non-contract function>" webAuthVerifyFn

def checkStructure (expectedContract : String) (index : ℕ) (entry : SorobanAuthorizationEntry) :
    Except Sep45Error Unit :=
  if entry.rootInvocation.subInvocations ≠ [] then .error (.unexpectedSubInvocations index)
  else
    match entry.rootInvocation.function with
    | .other _ => .error nonContractFunction
    | .contractFn call => do
      let found ← scAddressToString X call.contractAddress
      refuseIf (found ≠ expectedContract) (.invalidContractAddress found expectedContract)
      let name := (fromUtf8 call.functionName).getD "<invalid utf8>"
      refuseIf (name ≠ webAuthVerifyFn) (.invalidFunctionName name webAuthVerifyFn)

def checkEach (check : ℕ → SorobanAuthorizationEntry → Except Sep45Error Unit) :
    ℕ → List SorobanAuthorizationEntry → Except Sep45Error Unit
  | _, [] => .ok ()
  | index, entry :: rest => do
    check index entry
    checkEach check (index + 1) rest

structure Reference where
  account : String
  homeDomain : String
  webAuthDomain : String
  webAuthDomainAccount : String
  clientDomain : Option String
  clientDomainAccount : Option String
  nonce : String
deriving DecidableEq

/-- The arguments of `parse_and_validate` besides the challenge. -/
structure Expected where
  networkPassphrase : String
  webAuthContract : String
  homeDomain : String
  webAuthDomain : String
  serverSigningKey : String
  clientDomain : Option String
  account : String

def firstArgs (onMissing : Sep45Error) (entry : SorobanAuthorizationEntry) :
    Except Sep45Error ArgsMap :=
  match entry.rootInvocation.function with
  | .other _ => .error nonContractFunction
  | .contractFn call =>
    match call.args with
    | [] => .error onMissing
    | arg :: _ => extractArgsMap arg

/-- A value that has to be there and to be the expected one. -/
def matching (args : ArgsMap) (key expected : String) (mismatch : String → Sep45Error) :
    Except Sep45Error String :=
  match args.lookup key with
  | none => .error (mismatch "")
  | some found => if found ≠ expected then .error (mismatch found) else .ok found

/-- The comparison of the optional `client_domain`. -/
def checkClientDomain (expected found : Option String) : Except Sep45Error Unit :=
  match expected, found with
  | some expected, some found =>
    refuseIf (found ≠ expected) (.clientDomainMismatch found expected)
  | some expected, none => .error (.clientDomainMismatch "" expected)
  | none, some found => .error (.clientDomainMismatch found "")
  | none, none => .ok ()

/-- The optional `client_domain_account` is a public key. -/
def checkClientDomainAccount : Option String → Except Sep45Error Unit
  | none => .ok ()
  | some key => do
    let _ ← (X.publicKeyFromString key).mapError fun e =>
      Sep45Error.invalidClientDomainAccount
        ("client_domain_account " ++ X.debug key ++ " is not a valid G-strkey: " ++ e)

/-- Steps 7 and 8: the reference from the first entry. -/
def reference (E : Expected) (first : SorobanAuthorizationEntry) : Except Sep45Error Reference := do
  let args ← firstArgs (.invalidArgsCount 0 1) first
  refuseIf (args.length < 5) (.invalidArgsCount args.length 5)
  let account ← okOr (args.lookup "account")
    (.invalidAccountArg "account arg is absent from args map")
  let _ ← (X.contractFromString account).mapError fun e =>
    Sep45Error.invalidAccountArg
      ("account arg " ++ X.debug account ++ " is not a valid C-strkey: " ++ e)
  refuseIf (account ≠ E.account) (.invalidAccountArg ("account arg " ++ X.debug account ++
    " does not match the requested client account " ++ X.debug E.account))
  let homeDomain ← matching args "home_domain" E.homeDomain (.homeDomainMismatch · E.homeDomain)
  let webAuthDomain ← matching args "web_auth_domain" E.webAuthDomain
    (.webAuthDomainMismatch · E.webAuthDomain)
  let webAuthDomainAccount ← matching args "web_auth_domain_account" E.serverSigningKey
    (.webAuthDomainAccountMismatch · E.serverSigningKey)
  let _ ← (X.publicKeyFromString webAuthDomainAccount).mapError fun _ =>
    Sep45Error.webAuthDomainAccountMismatch webAuthDomainAccount E.serverSigningKey
  checkClientDomain E.clientDomain (args.lookup "client_domain")
  checkClientDomainAccount X (args.lookup "client_domain_account")
  let nonce ← okOr (args.lookup "nonce") (.missingNonce 0)
  refuseIf (nonce = "") (.missingNonce 0)
  pure
    { account := account
      homeDomain := homeDomain
      webAuthDomain := webAuthDomain
      webAuthDomainAccount := webAuthDomainAccount
      clientDomain := args.lookup "client_domain"
      clientDomainAccount := args.lookup "client_domain_account"
      nonce := nonce }

def checkNonce (ref : Reference) (index : ℕ) (entry : SorobanAuthorizationEntry) :
    Except Sep45Error Unit := do
  let args ← firstArgs (.missingNonce index) entry
  let nonce ← okOr (args.lookup "nonce") (.missingNonce index)
  refuseIf (nonce ≠ ref.nonce) (.nonceMismatch index)

/-- The named strings of a later entry against those of the first; others are not compared. -/
def checkArgs (ref : Reference) (index : ℕ) (entry : SorobanAuthorizationEntry) :
    Except Sep45Error Unit := do
  let args ← firstArgs (.missingNonce index) entry
  refuseIf (args.text "web_auth_domain" ≠ ref.webAuthDomain)
    (.webAuthDomainMismatch (args.text "web_auth_domain") ref.webAuthDomain)
  refuseIf (args.text "account" ≠ ref.account) (.invalidAccountArg
    ("account arg in entry " ++ toString index ++ " (" ++ X.debug (args.text "account") ++
      ") differs from reference entry (" ++ X.debug ref.account ++ ")"))
  refuseIf (args.text "home_domain" ≠ ref.homeDomain)
    (.homeDomainMismatch (args.text "home_domain") ref.homeDomain)
  refuseIf (args.text "web_auth_domain_account" ≠ ref.webAuthDomainAccount)
    (.webAuthDomainAccountMismatch (args.text "web_auth_domain_account") ref.webAuthDomainAccount)
  match ref.clientDomain with
  | none => .ok ()
  | some clientDomain =>
    refuseIf (args.text "client_domain" ≠ clientDomain)
      (.clientDomainMismatch (args.text "client_domain") clientDomain)
  match ref.clientDomainAccount with
  | none => .ok ()
  | some clientDomainAccount =>
    refuseIf (args.text "client_domain_account" ≠ clientDomainAccount)
      (.invalidClientDomainAccount ("client_domain_account in entry " ++ toString index ++ " (" ++
        X.debug (args.text "client_domain_account") ++ ") differs from reference entry (" ++
        X.debug clientDomainAccount ++ ")"))

/-! ## Roles -/

inductive Role where
  | server
  | client
  | clientDomain
deriving DecidableEq

def roleOf (E : Expected) (ref : Reference) (address : String) : Option Role :=
  if address = E.serverSigningKey then some .server
  else if address = ref.account then some .client
  else if ref.clientDomainAccount = some address then some .clientDomain
  else none

def credentialAddress (index : ℕ) (entry : SorobanAuthorizationEntry) : Except Sep45Error String :=
  match entry.credentials with
  | .address credentials => scAddressToString X credentials.address
  | _ => .error (.unsupportedCredentialType index)

structure Slots where
  server : Option ℕ
  client : Option ℕ
  clientDomain : Option ℕ

/-- An entry with a role takes its slot, also when it is taken. -/
def Slots.set (slots : Slots) (index : ℕ) : Option Role → Slots
  | some .server => { slots with server := some index }
  | some .client => { slots with client := some index }
  | some .clientDomain => { slots with clientDomain := some index }
  | none => slots

/-- Steps 10 and 11: the loop over the credentials. -/
def classify (E : Expected) (ref : Reference) :
    ℕ → List SorobanAuthorizationEntry → Slots → Except Sep45Error Slots
  | _, [], slots => .ok slots
  | index, entry :: rest, slots => do
    let address ← credentialAddress X index entry
    classify E ref (index + 1) rest (slots.set index (roleOf E ref address))

/-! ## The server's signature -/

def lastBytes (name : String) : List (ScVal × ScVal) → Option Bytes → Option Bytes
  | [], found => found
  | (.symbol sym, .bytes b) :: rest, found =>
    lastBytes name rest (if (fromUtf8 sym).getD "" = name then some b else found)
  | _ :: rest, found => lastBytes name rest found

/-- The key and the signature in the first element of the entry's signature vector. -/
def verifyServerSignature (E : Expected) (serverKey : Bytes) (entry : SorobanAuthorizationEntry) :
    Except Sep45Error Unit :=
  match entry.credentials with
  | .address credentials =>
    match credentials.signature with
    | .vec (.map entries :: _) => do
      let publicKey ← okOr (lastBytes "public_key" entries none) .missingServerSignature
      let signature ← okOr (lastBytes "signature" entries none) .missingServerSignature
      refuseIf (publicKey ≠ serverKey) (.invalidServerSignature
        "public_key in signature does not match expected server signing key")
      refuseIf (publicKey.length ≠ 32) (.invalidServerSignature
        ("public_key has wrong length: expected 32 bytes, got " ++ toString publicKey.length))
      (X.verifyingKey publicKey).mapError fun e =>
        Sep45Error.invalidServerSignature ("invalid ed25519 public key bytes: " ++ e)
      refuseIf (signature.length ≠ 64) (.invalidServerSignature
        ("signature has wrong length: expected 64 bytes, got " ++ toString signature.length))
      (X.verifyStrict E.networkPassphrase credentials.nonce credentials.signatureExpirationLedger
        entry.rootInvocation publicKey signature).mapError fun e =>
          Sep45Error.invalidServerSignature ("ed25519 verification failed: " ++ e)
    | .vec (_ :: _) => .error (.invalidServerSignature "first signature entry is not a Map")
    | _ => .error .missingServerSignature
  | _ => .error (.unsupportedCredentialType 0)

/-! ## The whole validation -/

structure AuthorizationEntries where
  entries : List SorobanAuthorizationEntry
  serverAccount : Bytes
  reference : Reference
  webAuthContract : Bytes
  serverEntryIndex : ℕ
  clientEntryIndex : ℕ
  clientDomainEntryIndex : Option ℕ
deriving DecidableEq

/-- Structure, nonce, arguments and roles of the entries, then the server's signature. -/
def validate (E : Expected) (entries : List SorobanAuthorizationEntry) :
    Except Sep45Error AuthorizationEntries :=
  match entries with
  | [] => .error (.invalidEntryCount 0 1)
  | first :: rest => do
    let contract ← (X.contractFromString E.webAuthContract).mapError fun e =>
      Sep45Error.invalidExpectedContractArg ("expected_web_auth_contract " ++
        X.debug E.webAuthContract ++ " is not a valid C-strkey: " ++ e)
    let serverKey ← (X.publicKeyFromString E.serverSigningKey).mapError fun e =>
      Sep45Error.invalidExpectedServerKeyArg ("expected_server_signing_key " ++
        X.debug E.serverSigningKey ++ " is not a valid G-strkey: " ++ e)
    checkEach (checkStructure X E.webAuthContract) 0 (first :: rest)
    let ref ← reference X E first
    refuseIf (ref.clientDomain.isSome ∧ (first :: rest).length < 3)
      (.invalidEntryCount (first :: rest).length 3)
    checkEach (checkNonce ref) 1 rest
    checkEach (checkArgs X ref) 1 rest
    let slots ← classify X E ref 0 (first :: rest) ⟨none, none, none⟩
    let server ← okOr slots.server .missingServerEntry
    let client ← okOr slots.client .missingClientEntry
    refuseIf (ref.clientDomain.isSome ∧ slots.clientDomain = none) .missingClientDomainOp
    let entry ← okOr (first :: rest)[server]? .missingServerEntry
    verifyServerSignature X E serverKey entry
    pure ⟨first :: rest, serverKey, ref, contract, server, client, slots.clientDomain⟩

def Externals.Lawful : Prop :=
  ∀ a b s, scAddressToString X a = .ok s → scAddressToString X b = .ok s → a = b

def entryRole (E : Expected) (ref : Reference) (entry : SorobanAuthorizationEntry) : Option Role :=
  match credentialAddress X 0 entry with
  | .ok address => roleOf E ref address
  | .error _ => none

variable {X} {E : Expected} {ref : Reference}

/-- A call of `web_auth_verify` of the expected contract, and nothing below it. -/
structure WellFormed (X : Externals) (contract : String) (entry : SorobanAuthorizationEntry) :
    Prop where
  subInvocations : entry.rootInvocation.subInvocations = []
  call : ∃ call, entry.rootInvocation.function = .contractFn call ∧
    scAddressToString X call.contractAddress = .ok contract ∧
    fromUtf8 call.functionName = some webAuthVerifyFn

/-- The `client_domain_account` that the first entry names. -/
def clientDomainAccount (entries : List SorobanAuthorizationEntry) : Option String :=
  entries.head?.bind fun first =>
    (firstArgs (.invalidArgsCount 0 1) first).toOption.bind (·.lookup "client_domain_account")

/-- What an accepted challenge is known to be. -/
structure Accepted (X : Externals) (E : Expected) (entries : List SorobanAuthorizationEntry)
    (r : AuthorizationEntries) : Prop where
  entries_eq : r.entries = entries
  account : r.reference.account = E.account
  clientDomain : r.reference.clientDomainAccount = clientDomainAccount entries
  wellFormed : ∀ entry ∈ r.entries, WellFormed X E.webAuthContract entry
  server : ∃ server, r.entries[r.serverEntryIndex]? = some server ∧
    entryRole X E r.reference server = some .server ∧
    verifyServerSignature X E r.serverAccount server = .ok ()

def expectedLogin : Expected where
  networkPassphrase := "test"
  webAuthContract := "CW"
  homeDomain := "example.com"
  webAuthDomain := "auth.example.com"
  serverSigningKey := "G" ++ String.ofList (List.replicate 32 'S')
  clientDomain := none
  account := "CA"

def utf8 (s : String) : Bytes := Base.Utf8.encode s.toList

def loginArgs : ScVal :=
  .map [(.symbol (utf8 "account"), .string (utf8 "CA")),
    (.symbol (utf8 "home_domain"), .string (utf8 "example.com")),
    (.symbol (utf8 "nonce"), .string (utf8 "1")),
    (.symbol (utf8 "web_auth_domain"), .string (utf8 "auth.example.com")),
    (.symbol (utf8 "web_auth_domain_account"), .string (utf8 expectedLogin.serverSigningKey))]

def loginEntry (address : ScAddress) (signature : ScVal) (args : List ScVal) :
    SorobanAuthorizationEntry :=
  ⟨.address ⟨address, 0, 100, signature⟩,
    .mk (.contractFn ⟨.contract [87], utf8 "web_auth_verify", args⟩) []⟩

def serverEntry : SorobanAuthorizationEntry :=
  loginEntry (.account (List.replicate 32 83))
    (.vec [.map [(.symbol (utf8 "public_key"), .bytes (List.replicate 32 83)),
      (.symbol (utf8 "signature"), .bytes (List.replicate 64 0))]]) [loginArgs]

def clientEntry (args : List ScVal) : SorobanAuthorizationEntry :=
  loginEntry (.contract [65]) .void args

/-- The server's entry and a client entry with these arguments. -/
def challenge (args : List ScVal) : List SorobanAuthorizationEntry := [serverEntry, clientEntry args]

def validated (args : List ScVal) : AuthorizationEntries where
  entries := challenge args
  serverAccount := List.replicate 32 83
  reference := ⟨"CA", "example.com", "auth.example.com", expectedLogin.serverSigningKey, none,
    none, "1"⟩
  webAuthContract := []
  serverEntryIndex := 0
  clientEntryIndex := 1
  clientDomainEntryIndex := none

end AgentWallet.Sep45.Entries
