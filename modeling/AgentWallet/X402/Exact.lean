import AgentWallet.Base.Checks
import AgentWallet.Base.Programs
import AgentWallet.Base.Utf8
import AgentWallet.Policy.Spending
import AgentWallet.Soroban.Types

/-!
# x402 payments of the exact scheme

`create_payment` builds one token transfer, has the endpoint simulate it, signs the authorization of
the transfer, has the endpoint simulate it again with the signature, and returns the envelope.
Every question to the endpoint, to the oracle of the cross-check, to the signer and to the hook
before the transmission is an event of a history, and every answer may depend on the whole history
before it.
-/

namespace AgentWallet.X402.Exact

open Base.Checks Base.Programs Soroban.Types List
open Policy.Spending (Network PaymentRequirements)

variable {answer : Except String Bytes} {α β : Type} {strkey : String} {expiration : ℕ}

/-! ## Types -/

inductive Sep43Error where
  | invalidXdr (detail : String)
  | malformedAuthEntry (detail : String)
  | invalidNetworkPassphrase (detail : String)
  | invalidAddress (detail expectedType : String)
  /-- The failure of the signer. -/
  | signer (detail : String)

inductive X402Error where
  /-- A failure of the validation of the requirements. -/
  | requirements (error : Policy.Spending.RequirementsError)
  | invalidAssetAddress (detail : String)
  | invalidRecipientAddress (detail : String)
  | invalidPayerAddress (detail : String)
  | authEntrySignFailed (source : Sep43Error)
  | rpcSimulateFailed (detail : String)
  | transactionBuildFailed (detail : String)
  | unexpectedAuthEntries (detail : String)
  | endpointIdentity (error : String)
  | crossCheck (error : String)
  | transmitGateRefused (detail : String)

inductive Strkey where
  | publicKeyEd25519 (key : Bytes)
  | contract (id : Bytes)
  | muxedAccountEd25519 (id : ℕ) (key : Bytes)
  | other

/-- What an authorization signature is made over. -/
structure SorobanAuthorization where
  networkId : Bytes
  nonce : ℤ
  signatureExpirationLedger : ℕ
  invocation : SorobanAuthorizedInvocation

inductive HashIdPreimage where
  | sorobanAuthorization (preimage : SorobanAuthorization)
  | sorobanAuthorizationWithAddress (address : ScAddress) (preimage : SorobanAuthorization)
  | other

structure SorobanTransactionData where
  /-- Empty without the extension that lists them. -/
  archivedSorobanEntries : List ℕ
  resourceFee : ℤ
  /-- The footprint and the resource limits. -/
  resources : Bytes
deriving DecidableEq

/-- The invocation of a host function that calls a contract. -/
structure InvokeHostFunctionOp where
  hostFunction : InvokeContractArgs
  auth : List SorobanAuthorizationEntry
deriving DecidableEq

structure TransactionEnvelope where
  source : String
  fee : ℕ
  operations : List InvokeHostFunctionOp
  sorobanData : Option SorobanTransactionData
deriving DecidableEq

structure SimulateTransactionResponse where
  error : Option String
  restorePreamble : Bool
  minResourceFee : ℕ
  /-- The text of the transaction data is empty. -/
  noTransactionData : Bool
  transactionData : Except String SorobanTransactionData
  /-- The authorization entries of every result. -/
  results : Except String (List (List SorobanAuthorizationEntry))
  latestLedger : ℕ

structure GetHealthResponse where
  status : String
  latestLedger : ℕ

structure CrossCheckWitness where
  authority : String
  oracleLedger : ℕ
  inputsDigest : Bytes

inductive CrossCheckOutcome where
  | passed (witness : CrossCheckWitness)
  | skipped (reason : String)
  | notRequired

def CrossCheckOutcome.witness : CrossCheckOutcome → Option CrossCheckWitness
  | .passed witness => some witness
  | _ => none

structure SorobanWitnessInputs where
  envelope : TransactionEnvelope
  primary : SimulateTransactionResponse
  expirationLedger : ℕ
  resourceFeeCeiling : ℕ

/-- What the hook is told about the signed authorization. -/
structure AuthorizationToTransmit where
  network : String
  scheme : String
  payer : String
  payTo : String
  asset : String
  amount : ℤ
  signatureExpirationLedger : ℕ
  crossCheck : Option CrossCheckWitness

/-- The payload without its fixed fields: version 2, no resource and no extensions. -/
structure CreatedPayment where
  accepted : PaymentRequirements
  /-- The encoding of the envelope. -/
  transaction : String
  crossCheck : CrossCheckOutcome

/-- What the code takes from other libraries: strkeys, quoting, the digest and the encodings. -/
structure Externals where
  strkey : String → Except String Strkey
  publicKeyString : Bytes → String
  quoteServerText : String → String
  debug : String → String
  redactStrkey : String → String
  sha256 : Bytes → Bytes
  preimageXdr : HashIdPreimage → Except String Bytes
  decodePreimage : Bytes → Except String HashIdPreimage
  envelopeXdr : TransactionEnvelope → Except String String
  decodeEnvelope : String → Except String TransactionEnvelope
  /-- The text of an envelope is read as that envelope. -/
  decodeEnvelope_of_xdr : ∀ envelope text,
    envelopeXdr envelope = .ok text → decodeEnvelope text = .ok envelope

/-- A question of a payment and its answer. -/
inductive Event where
  | endpointIdentity (answer : Except String Unit)
  | simulate (envelope : TransactionEnvelope) (answer : Except String SimulateTransactionResponse)
  | witness (inputs : SorobanWitnessInputs) (answer : Except String CrossCheckOutcome)
  | getHealth (answer : Except String GetHealthResponse)
  | sign (payload : Bytes) (answer : Except String Bytes)
  | beforeTransmit (authorization : AuthorizationToTransmit) (answer : Except X402Error Unit)

/-- Everything a payment asks, with the answers it gets. -/
structure Surroundings where
  endpointIdentity : List Event → Except String Unit
  publicKey : Except String Bytes
  simulate : TransactionEnvelope → List Event → Except String SimulateTransactionResponse
  witness : SorobanWitnessInputs → List Event → Except String CrossCheckOutcome
  getHealth : List Event → Except String GetHealthResponse
  sign : Bytes → List Event → Except String Bytes
  beforeTransmit : AuthorizationToTransmit → List Event → Except X402Error Unit

/-! ## The transfer -/

variable {t history after : List Event} {f : α → Program X402Error (List Event) β}
  {R : β → List Event → Prop} {event : Event} {x : Except X402Error α}

def baseFeeStroops : ℕ := 100
def estimatedLedgerCloseSeconds : ℕ := 5
def maxSignedValiditySeconds : ℕ := 300
def maxResourceFeeStroops : ℕ := 10000000
def healthyStatus : String := "healthy"
def placeholderSource : String := "GAAAAAAAAAAAAAAAAAAAAAAAAAAAAAAAAAAAAAAAAAAAAAAAAAAAAWHF"

def utf8 (s : String) : Bytes := Base.Utf8.encode s.toList

variable (X : Externals)

def strkeyToScAddress (strkey : String) : Except X402Error ScAddress := do
  let parsed ← (X.strkey strkey).mapError fun e => .invalidAssetAddress
    ("strkey parse failed for " ++ X.quoteServerText strkey ++ ": " ++ e)
  match parsed with
  | .publicKeyEd25519 key => .ok (.account key)
  | .contract id => .ok (.contract id)
  | _ => .error (.invalidAssetAddress
      ("strkey " ++ X.quoteServerText strkey ++ " is not a G- or C-strkey"))

def strkeyToRecipientScAddress (strkey : String) : Except X402Error ScAddress := do
  let parsed ← (X.strkey strkey).mapError fun e => .invalidRecipientAddress
    ("recipient strkey parse failed for " ++ X.quoteServerText strkey ++ ": " ++ e)
  match parsed with
  | .publicKeyEd25519 key => .ok (.account key)
  | .contract id => .ok (.contract id)
  | .muxedAccountEd25519 id key => .ok (.muxedAccount id key)
  | .other => .error (.invalidRecipientAddress
      ("recipient strkey " ++ X.quoteServerText strkey ++ " is not a G-, C-, or M-strkey"))

def gStrkeyToAccountAddress (strkey : String) : Except X402Error ScAddress :=
  match X.strkey strkey with
  | .ok (.publicKeyEd25519 key) => .ok (.account key)
  | .ok _ => .error (.invalidPayerAddress
      ("payer strkey " ++ X.debug strkey ++ " is not a G-strkey"))
  | .error e => .error (.invalidPayerAddress
      ("payer strkey parse failed for " ++ X.debug strkey ++ ": " ++ e))

def buildSep41TransferInvoke (contract : Bytes) (sender recipient : ScAddress) (amount : ℤ) :
    InvokeContractArgs :=
  ⟨.contract contract, utf8 "transfer", [.address sender, .address recipient, .i128 amount]⟩

def buildSacTransferInvoke (sacContract sender recipient : String) (amount : ℤ) :
    Except X402Error InvokeContractArgs := do
  let contractAddress ← strkeyToScAddress X sacContract
  let senderSc ← gStrkeyToAccountAddress X sender
  let recipientSc ← strkeyToRecipientScAddress X recipient
  match contractAddress with
  | .contract contract => .ok (buildSep41TransferInvoke contract senderSc recipientSc amount)
  | _ => .error (.invalidAssetAddress
      ("asset " ++ X.quoteServerText sacContract ++ " is not a contract address"))

/-! ## Checks of the answers -/

/-- The refusal details of one simulation phase. -/
structure SimulationPhase where
  requestFailed : String
  answerError : String
  restorePreamble : String
  noFeeOrData : String
  feeCeiling : String
  archivedEntries : String
  embeddedFee : String

def firstSimulation : SimulationPhase where
  requestFailed := "first simulation request failed: "
  answerError := "simulate returned error: "
  restorePreamble := "the simulation returned a restore preamble; this wallet does not restore " ++
    "archived ledger entries"
  noFeeOrData := "simulate returned no min_resource_fee / transaction_data"
  feeCeiling := "the simulation's minimum resource fee exceeds the wallet's ceiling of " ++
    "10000000 stroops"
  archivedEntries := "the simulation's transaction data restores archived ledger entries; this " ++
    "wallet does not restore them"
  embeddedFee := "the simulation's transaction data embeds a resource fee outside zero to its " ++
    "minimum resource fee"

def checkSimulationAnswer (response : SimulateTransactionResponse) (phase : SimulationPhase) :
    Except X402Error ℕ :=
  match response.error with
  | some error => .error (.rpcSimulateFailed (phase.answerError ++ error))
  | none => do
    refuseIf (response.restorePreamble = true) (.rpcSimulateFailed phase.restorePreamble)
    refuseIf (response.minResourceFee = 0 ∨ response.noTransactionData = true)
      (.rpcSimulateFailed phase.noFeeOrData)
    refuseIf (maxResourceFeeStroops < response.minResourceFee)
      (.rpcSimulateFailed phase.feeCeiling)
    .ok response.minResourceFee

def checkTransactionData (data : SorobanTransactionData) (minResourceFee : ℕ)
    (phase : SimulationPhase) : Except X402Error Unit := do
  refuseIf (data.archivedSorobanEntries ≠ []) (.rpcSimulateFailed phase.archivedEntries)
  refuseIf (data.resourceFee < 0 ∨ (minResourceFee : ℤ) < data.resourceFee)
    (.rpcSimulateFailed phase.embeddedFee)

/-- `u32::saturating_add(1)`. -/
def nextLedger (ledger : ℕ) : ℕ := min (ledger + 1) (2 ^ 32 - 1)

def checkSimulationLedger (simulation health expiration : ℕ) : Except X402Error Unit := do
  refuseIf (simulation = 0) (.rpcSimulateFailed "the simulation reports ledger zero")
  refuseIf (nextLedger health < simulation) (.rpcSimulateFailed
    "the simulation reports a ledger more than one ahead of the endpoint's health")
  refuseIf (expiration ≤ health) (.rpcSimulateFailed
    "the endpoint's health ledger has reached the signature expiration ledger")

/-- `ceil(min(seconds, 300) / 5)`. -/
def expirationWindowLedgers (maxTimeoutSeconds : ℕ) : ℕ :=
  (min maxTimeoutSeconds maxSignedValiditySeconds + (estimatedLedgerCloseSeconds - 1)) /
    estimatedLedgerCloseSeconds

def computeSignatureExpirationLedger (latestLedger maxTimeoutSeconds : ℕ) : Option ℕ :=
  let sum := latestLedger + expirationWindowLedgers maxTimeoutSeconds
  if sum < 2 ^ 32 then some sum else none

def singleResult (results : List (List SorobanAuthorizationEntry)) :
    Except X402Error (List SorobanAuthorizationEntry) :=
  match results with
  | [] => .error (.rpcSimulateFailed "simulate returned no result entry")
  | [result] => .ok result
  | _ => .error (.rpcSimulateFailed "simulation returned more than one result")

/-- The only authorization entry of the simulation has to be the payer's. -/
def selectPayerAuthEntry (entries : List SorobanAuthorizationEntry) (payer : ScAddress) :
    Except X402Error (SorobanAddressCredentials × SorobanAuthorizedInvocation) :=
  match entries with
  | [entry] =>
    match entry.credentials with
    | .address credentials => do
      refuseIf (credentials.address ≠ payer) (.unexpectedAuthEntries
        "the simulated authorization entry is for an account other than the payer")
      .ok (credentials, entry.rootInvocation)
    | .sourceAccount => .error (.unexpectedAuthEntries
        ("the simulated authorization entry has source-account credentials, " ++
          "not the payer's address credentials"))
    | .addressV2 _ => .error (.unexpectedAuthEntries
        ("the simulated authorization entry has AddressV2 credentials; " ++
          "this flow signs legacy address credentials only"))
    | .addressWithDelegates _ => .error (.unexpectedAuthEntries
        ("the simulated authorization entry has delegated address credentials; " ++
          "this flow signs legacy address credentials only"))
  | _ => .error (.unexpectedAuthEntries
      "the simulation must return exactly one authorization entry, the payer's")

/-- How the call that the simulation authorizes differs from the transfer that was built. -/
def rootFunctionDifference (simulated : SorobanAuthorizedFunction) (built : InvokeContractArgs) :
    Option String :=
  match simulated with
  | .other _ => some "the simulated root invocation is not a contract call"
  | .contractFn simulated =>
    if simulated.contractAddress ≠ built.contractAddress then
      some "the simulated root invocation calls a contract other than the payment asset"
    else if simulated.functionName ≠ built.functionName then
      some "the simulated root invocation calls a function other than transfer"
    else
      match simulated.args, built.args with
      | [sender, recipient, amount], [builtSender, builtRecipient, builtAmount] =>
        if sender ≠ builtSender then
          some "the simulated root invocation passes a from argument other than the payer"
        else if recipient ≠ builtRecipient then
          some "the simulated root invocation passes a to argument other than payTo"
        else if amount ≠ builtAmount then
          some "the simulated root invocation passes an amount other than the required amount"
        else none
      | _, _ => some ("the simulated root invocation passes a different number of arguments " ++
          "than transfer(from, to, amount)")

/-- The entry is unsigned and authorizes the transfer that was built, nothing else. -/
def checkPayerAuthEntry (credentials : SorobanAddressCredentials)
    (invocation : SorobanAuthorizedInvocation) (built : InvokeContractArgs) :
    Except X402Error Unit := do
  refuseIf (credentials.signatureExpirationLedger ≠ 0) (.unexpectedAuthEntries
    "the simulated authorization entry has a non-zero signature expiration ledger")
  refuseIf (credentials.signature ≠ .void) (.unexpectedAuthEntries
    "the simulated authorization entry already carries a signature")
  match rootFunctionDifference invocation.function built with
  | some detail => .error (.unexpectedAuthEntries detail)
  | none => refuseIf (invocation.subInvocations ≠ []) (.unexpectedAuthEntries
      "the simulated root invocation carries nested calls")

/-- The signature value of an account with one key. -/
def gKeySigToScval (pubkey sig : Bytes) : ScVal :=
  .vec [.map [(.symbol (utf8 "public_key"), .bytes pubkey),
    (.symbol (utf8 "signature"), .bytes sig)]]

variable (S : Surroundings)

variable (N : Network) (requirements : PaymentRequirements)

/-- The transaction with one invocation that the placeholder account would send. -/
def buildEnvelope (fee : ℕ) (invokeArgs : InvokeContractArgs)
    (auth : List SorobanAuthorizationEntry) (sorobanData : Option SorobanTransactionData) :
    TransactionEnvelope :=
  ⟨placeholderSource, fee, [⟨invokeArgs, auth⟩], sorobanData⟩

/-- What the steps up to the signature leave. -/
structure Prepared where
  amount : ℤ
  payerKey : Bytes
  payerStrkey : String
  invokeArgs : InvokeContractArgs
  payerCredentials : SorobanAddressCredentials
  signatureExpirationLedger : ℕ
  crossCheck : CrossCheckOutcome
  healthLedger : ℕ

/-- Steps 1 to 5: validate, identify, build, simulate, cross-check. -/
def prepare : Program X402Error (List Event) Prepared := do
  let amount ← lift ((Policy.Spending.validateRequirements N requirements).mapError .requirements)
  let identity ← ask S.endpointIdentity .endpointIdentity
  lift (identity.mapError .endpointIdentity)
  let payerKey ← lift (S.publicKey.mapError fun e =>
    .rpcSimulateFailed ("signer public_key fetch failed: " ++ e))
  let payerStrkey := X.publicKeyString payerKey
  let invokeArgs ← lift (buildSacTransferInvoke X requirements.asset payerStrkey
    requirements.payTo amount)
  let simEnvelope := buildEnvelope baseFeeStroops invokeArgs [] none
  let simAnswer ← ask (S.simulate simEnvelope) (.simulate simEnvelope)
  let simResponse ← lift (simAnswer.mapError fun e =>
    .rpcSimulateFailed (firstSimulation.requestFailed ++ e))
  let firstMinResourceFee ← lift (checkSimulationAnswer simResponse firstSimulation)
  let firstTransactionData ← lift (simResponse.transactionData.mapError fun _ =>
    .rpcSimulateFailed "the simulation's transaction data does not decode")
  lift (checkTransactionData firstTransactionData firstMinResourceFee firstSimulation)
  let results ← lift (simResponse.results.mapError fun e =>
    .rpcSimulateFailed ("simulate results decode failed: " ++ e))
  let firstResult ← lift (singleResult results)
  let payerScAddress ← lift (gStrkeyToAccountAddress X payerStrkey)
  let (payerCredentials, simulatedInvocation) ←
    lift (selectPayerAuthEntry firstResult payerScAddress)
  lift (checkPayerAuthEntry payerCredentials simulatedInvocation invokeArgs)
  let signatureExpirationLedger ← lift (okOr
    (computeSignatureExpirationLedger simResponse.latestLedger requirements.maxTimeoutSeconds)
    (.rpcSimulateFailed ("the simulation's latest ledger leaves no room for the signature " ++
      "expiration window")))
  let inputs : SorobanWitnessInputs :=
    ⟨simEnvelope, simResponse, signatureExpirationLedger, maxResourceFeeStroops⟩
  let outcome ← ask (S.witness inputs) (.witness inputs)
  let crossCheck ← lift (outcome.mapError .crossCheck)
  let healthAnswer ← ask S.getHealth .getHealth
  let health ← lift (healthAnswer.mapError fun _ =>
    .rpcSimulateFailed "the endpoint's health could not be read")
  lift (refuseIf (health.status ≠ healthyStatus)
    (.rpcSimulateFailed "the endpoint reports a health status other than healthy"))
  lift (checkSimulationLedger simResponse.latestLedger health.latestLedger
    signatureExpirationLedger)
  return ⟨amount, payerKey, payerStrkey, invokeArgs, payerCredentials, signatureExpirationLedger,
    crossCheck, health.latestLedger⟩

variable {p : Prepared}

/-- A transfer and the authorization of it. -/
structure Transfer where
  payer : String
  amount : ℤ
  contract : Bytes
  source : Bytes
  recipient : ScAddress
  nonce : ℤ
  expirationLedger : ℕ

namespace Transfer

variable (a : Transfer)

/-- `transfer(payer, payTo, amount)` of the asset. -/
def call : InvokeContractArgs :=
  ⟨.contract a.contract, utf8 "transfer",
    [.address (.account a.source), .address a.recipient, .i128 a.amount]⟩

def invocation : SorobanAuthorizedInvocation := .mk (.contractFn a.call) []

def preimage (networkPassphrase : String) : HashIdPreimage :=
  .sorobanAuthorization
    ⟨X.sha256 (utf8 networkPassphrase), a.nonce, a.expirationLedger, a.invocation⟩

/-- The entry with the signature of the payer's key. -/
def entry (signature : Bytes) : SorobanAuthorizationEntry :=
  ⟨.address ⟨.account a.source, a.nonce, a.expirationLedger, gKeySigToScval a.source signature⟩,
    a.invocation⟩

def toTransmit (witness : Option CrossCheckWitness) : AuthorizationToTransmit :=
  ⟨requirements.network, requirements.scheme, a.payer, requirements.payTo, requirements.asset,
    a.amount, a.expirationLedger, witness⟩

/-- The transfer is the one that the requirements ask for, from the account of the signer's key. -/
structure Requested : Prop where
  payer : ∃ key, S.publicKey = .ok key ∧ a.payer = X.publicKeyString key
  source : X.strkey a.payer = .ok (.publicKeyEd25519 a.source)
  recipient : strkeyToRecipientScAddress X requirements.payTo = .ok a.recipient
  contract : X.strkey requirements.asset = .ok (.contract a.contract)
  amount : Policy.Spending.validateRequirements N requirements = .ok a.amount

end Transfer

def Event.payload : Event → Option Bytes
  | .sign payload _ => some payload
  | _ => none

/-- The authorization entries that leave the wallet. -/
def Event.sent : Event → List SorobanAuthorizationEntry
  | .simulate envelope _ => envelope.operations.flatMap (·.auth)
  | .witness inputs _ => inputs.envelope.operations.flatMap (·.auth)
  | _ => []

/-- Nothing is signed and nothing signed is sent. -/
def Unsigned (history : List Event) : Prop :=
  ∀ event ∈ history, event.payload = none ∧ event.sent = []

/-- The expiration is counted from the ledgers that the endpoint reported. -/
structure Current (expirationLedger : ℕ) (history : List Event) : Prop where
  simulated : ∃ envelope response, .simulate envelope (.ok response) ∈ history ∧
    expirationLedger ≤ response.latestLedger + 60
  health : ∃ response, .getHealth (.ok response) ∈ history ∧
    expirationLedger ≤ response.latestLedger + 61

def Passed (a : Transfer) (history : List Event) : Prop :=
  ∃ witness, .beforeTransmit (a.toTransmit requirements witness) (.ok ()) ∈ history

/-- What follows the question for the signature of `a`: no other is asked for, and what is sent is
the signed entry, behind the hook. -/
structure Followed (a : Transfer) (answer : Except String Bytes) (history : List Event) : Prop where
  unsigned : ∀ event ∈ history, event.payload = none
  sent : ∀ before event after, history = before ++ event :: after → event.sent ≠ [] →
    Passed requirements a before ∧ ∃ signature, answer = .ok signature ∧
      event.sent = [a.entry signature]

/-- The text of the returned payment is read as an envelope with the signed entry of `a` in one
invocation of the transfer, under the fee bound, and the hook passed it. -/
structure Carries (a : Transfer) (answer : Except String Bytes) (after : List Event)
    (payment : CreatedPayment) : Prop where
  accepted : payment.accepted = requirements
  passed : Passed requirements a after
  envelope : ∃ envelope signature, X.decodeEnvelope payment.transaction = .ok envelope ∧
    answer = .ok signature ∧ envelope.operations = [⟨a.call, [a.entry signature]⟩] ∧
    envelope.fee ≤ 100 + 10 ^ 7

/-- The history has one question to the signer, about the authorization of the requested transfer
`a` on the profile's network; `after` is what follows it. -/
def Asked (a : Transfer) (answer : Except String Bytes) (after history : List Event) : Prop :=
  ∃ before xdr, history = before ++ .sign (X.sha256 xdr) answer :: after ∧
    X.preimageXdr (a.preimage X N.passphrase) = .ok xdr ∧ a.Requested X S N requirements ∧
    Current a.expirationLedger before ∧ Unsigned before ∧ Followed requirements a answer after

variable {X S N requirements}

/-! ## The checks -/

theorem Unsigned.nil : Unsigned [] := by simp [Unsigned]

theorem Unsigned.snoc (h : Unsigned history) (hpayload : event.payload = none)
    (hsent : event.sent = []) : Unsigned (history ++ [event]) := by
  intro e he
  rcases mem_append.mp he with he | he
  · exact h e he
  · rw [mem_singleton.mp he]
    exact ⟨hpayload, hsent⟩

variable {a : Transfer}

theorem Followed.nil : Followed requirements a answer [] :=
  ⟨by simp, by simp⟩

theorem Followed.snoc (h : Followed requirements a answer history) (hpayload : event.payload = none)
    (hsent : event.sent ≠ [] → Passed requirements a history ∧ ∃ signature, answer = .ok signature ∧
      event.sent = [a.entry signature]) :
    Followed requirements a answer (history ++ [event]) := by
  refine ⟨fun e he => ?_, fun before e after heq he => ?_⟩
  · rcases mem_append.mp he with he | he
    · exact h.unsigned e he
    · rw [mem_singleton.mp he, hpayload]
  · -- the event is the last one, or the split is one of `history`
    rcases eq_nil_or_concat after with rfl | ⟨after, last, rfl⟩
    · obtain ⟨rfl, hevent⟩ := append_inj' heq rfl
      obtain rfl : event = e := by simpa using hevent
      exact hsent he
    · rw [concat_eq_append, ← cons_append, ← append_assoc] at heq
      obtain ⟨rfl, -⟩ := append_inj' heq rfl
      exact h.sent before e after rfl he

/-! ## The three parts of a payment -/

/-- The prepared values are those of the transfer `a`. -/
structure Prepared.Of (p : Prepared) (a : Transfer) : Prop where
  payer : p.payerStrkey = a.payer
  amount : p.amount = a.amount
  call : p.invokeArgs = a.call
  account : p.payerCredentials.address = .account a.source
  nonce : p.payerCredentials.nonce = a.nonce
  expirationLedger : p.signatureExpirationLedger = a.expirationLedger

variable (X S N requirements) in
/-- The prepared values are those of the requested transfer, and nothing is signed yet. -/
structure Ready (p : Prepared) (a : Transfer) (history : List Event) : Prop where
  prepared : p.Of a
  requested : a.Requested X S N requirements
  current : Current a.expirationLedger history
  unsigned : Unsigned history

variable (X S N requirements) in
/-- What holds of the history of a payment that failed. -/
def Sound (history : List Event) : Prop :=
  Unsigned history ∨ ∃ a answer after, Asked X S N requirements a answer after history

theorem Asked.snoc (h : Asked X S N requirements a answer after history)
    (hpayload : event.payload = none)
    (hsent : event.sent ≠ [] → Passed requirements a after ∧ ∃ signature, answer = .ok signature ∧
      event.sent = [a.entry signature]) :
    Asked X S N requirements a answer (after ++ [event]) (history ++ [event]) := by
  obtain ⟨before, xdr, rfl, hxdr, hrequested, hcurrent, hunsigned, hfollowed⟩ := h
  exact ⟨before, xdr, by simp, hxdr, hrequested, hcurrent, hunsigned, hfollowed.snoc hpayload hsent⟩

section

end

end AgentWallet.X402.Exact
