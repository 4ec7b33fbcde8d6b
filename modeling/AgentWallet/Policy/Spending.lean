import AgentWallet.Policy.Criteria

/-!
# The spending tools

How the arguments of a spending tool become the value descriptor the gate sizes.  A payment or an
account creation is decoded from the envelope it will sign (`decodePayArgs`,
`decodeCreateAccountArgs`) and its descriptor derived from the decoded arguments
(`deriveValueClass`).  A DEX trade and an x402 payment build their leg themselves, the trade from
its canonicalised path (`dexTradeValueLeg`), the payment from the requirements (`x402ValueLeg`).
-/

namespace AgentWallet.Policy.Spending

open Base.Saturating Policy.Value Policy.Criteria

/-- `i64::MAX`. -/
def i64Max : ℤ := 2 ^ 63 - 1

/-- `MAINNET_PASSPHRASE`. -/
def mainnetPassphrase : String := "Public Global Stellar Network ; September 2015"

/-- `TESTNET_PASSPHRASE`. -/
def testnetPassphrase : String := "Test SDF Network ; September 2015"

inductive LedgerAsset where
  | native
  | credit (code issuer : String)

/-- The network of a profile, with the formats of its texts: strkeys, decimal numbers, the contract
ids of its assets. -/
structure Network extends TextFormats where
  passphrase : String
  mainnetUrl : Bool
  isMuxed : String → Bool
  isWhitespace : Char → Bool
  parseI64 : String → Option ℤ
  parseLegacyAmount : Option String → String → Except String ℤ
  sacContractId : LedgerAsset → String

variable (N : Network)

/-! ## Decoded envelopes -/

def xdrAssetToString : LedgerAsset → String
  | .native => "XLM"
  | .credit code issuer => code ++ ":" ++ issuer

inductive PayOp where
  | payment (destination : String) (asset : LedgerAsset) (amount : Int64)
  | pathPaymentStrictReceive (destination : String) (sendAsset : LedgerAsset) (sendMax : Int64)
      (destAsset : LedgerAsset) (destAmount : Int64)
  | pathPaymentStrictSend (destination : String) (sendAsset : LedgerAsset) (sendAmount : Int64)
      (destAsset : LedgerAsset) (destMin : Int64)

structure PolicyArgs where
  amountStroops : Option JsonArg := none
  amount : Option JsonArg := none
  startingBalanceStroops : Option JsonArg := none
  startingBalance : Option JsonArg := none
  asset : Option JsonArg := none
  assetCode : Option JsonArg := none
  assetIssuer : Option JsonArg := none
  destination : Option JsonArg := none
  destAmountStroops : Option JsonArg := none
  destAsset : Option JsonArg := none

def decimal (n : Int64) : JsonArg := .string (toString n.toInt)

/-- The arguments of a path payment: the debit is the send side. -/
def pathPaymentArgs (destination : String) (sendAsset : LedgerAsset) (sendDebitCeiling : Int64)
    (destAsset : LedgerAsset) (destAmount : Int64) : PolicyArgs :=
  { amountStroops := some (decimal sendDebitCeiling)
    asset := some (.string (xdrAssetToString sendAsset))
    destination := some (.string destination)
    destAmountStroops := some (decimal destAmount)
    destAsset := some (.string (xdrAssetToString destAsset)) }

/-- A path payment is sized by what it may send. -/
def decodePayArgs : PayOp → PolicyArgs
  | .payment destination asset amount =>
    { amountStroops := some (decimal amount)
      asset := some (.string (xdrAssetToString asset))
      destination := some (.string destination) }
  | .pathPaymentStrictReceive destination sendAsset sendMax destAsset destAmount =>
    pathPaymentArgs destination sendAsset sendMax destAsset destAmount
  | .pathPaymentStrictSend destination sendAsset sendAmount destAsset destMin =>
    pathPaymentArgs destination sendAsset sendAmount destAsset destMin

/-- The arguments of an account-creation envelope. -/
def decodeCreateAccountArgs (destination : String) (startingBalance : Int64) : PolicyArgs :=
  { startingBalanceStroops := some (decimal startingBalance)
    destination := some (.string destination) }

/-! ## The derivation -/

/-- Reads a stroop amount: a decimal text or a JSON number, never negative. -/
def valueAsStroopsI64 : JsonArg → Option ℤ
  | .string s => (N.parseI64 s).filter (0 ≤ ·)
  | .integer n => if 0 ≤ n ∧ n ≤ i64Max then some n else none
  | .other => none

def textOf (arg : Option JsonArg) : Option String := arg.bind JsonArg.asStr

/-- The amount of a tool: its resolved key, else its legacy key. -/
def resolveStroops (toolName caller resolvedKey : String) (resolved legacy : Option JsonArg)
    (legacyAsset : Option String) : Except PolicyError (Option ℤ) :=
  match resolved, textOf legacy with
  | some v, _ =>
    match valueAsStroopsI64 N v with
    | some stroops => .ok (some stroops)
    | none => .error (.criterionEvaluationFailed (caller ++ ": field '" ++ resolvedKey ++
        "' present but not a valid stroop amount for tool '" ++ toolName ++ "'"))
  | none, some text =>
    match N.parseLegacyAmount legacyAsset text with
    | .ok stroops => .ok (some stroops)
    | .error e => .error (.criterionEvaluationFailed (caller ++ ": " ++ e))
  | none, none => .ok none

/-- The debit of a payment or an account creation. -/
def resolvePayOrCreateAccountStroops (toolName : String) (args : PolicyArgs) (caller : String) :
    Except PolicyError (Option ℤ) :=
  match toolName with
  | "stellar_pay" | "stellar_pay_commit" =>
    resolveStroops N toolName caller "amount_stroops" args.amountStroops args.amount
      (some ((textOf args.asset).getD "native"))
  | "stellar_create_account" | "stellar_create_account_commit" =>
    resolveStroops N toolName caller "starting_balance_stroops" args.startingBalanceStroops
      args.startingBalance none
  | _ => .ok none

def derivedAmount (toolName : String) (args : PolicyArgs) : Option ℤ :=
  match resolvePayOrCreateAccountStroops N toolName args "derive" with
  | .ok amount => amount
  | .error _ => none

/-- The legs of a payment: the debit, and what the recipient of a path payment receives. -/
def payLegs (toolName : String) (args : PolicyArgs) : List ValueLeg :=
  let destination := textOf args.destination
  let debitLeg : ValueLeg := ⟨.payment, derivedAmount N toolName args,
    (textOf args.asset).map assetNormalise, destination⟩
  let destAmount := (textOf args.destAmountStroops).bind N.parseI64
  let destAsset := (textOf args.destAsset).map assetNormalise
  if destAmount.isSome || destAsset.isSome then
    [debitLeg, ⟨.pathPaymentReceive, destAmount, destAsset, destination⟩]
  else [debitLeg]

def trustlineAsset (args : PolicyArgs) : Option String :=
  ((textOf args.asset).map assetNormalise).orElse fun _ => do
    let code ← textOf args.assetCode
    let issuer ← textOf args.assetIssuer
    return assetNormalise (code ++ ":" ++ issuer)

/-- Derives the value class of a call from its tool and arguments. -/
def deriveValueClass (toolName : String) (args : PolicyArgs) : ValueClass :=
  match toolName with
  | "stellar_pay" | "stellar_pay_commit" => .value (payLegs N toolName args)
  | "stellar_create_account" | "stellar_create_account_commit" =>
    .value [⟨.accountCreation, derivedAmount N toolName args, some "native",
      textOf args.destination⟩]
  | "stellar_claim" | "stellar_claim_commit" => .value [⟨.claim, none, none, none⟩]
  | "stellar_trustline" | "stellar_trustline_commit" =>
    .value [⟨.trustline, none, trustlineAsset args, none⟩]
  | "stellar_sep43_sign_transaction" | "stellar_sep43_sign_and_submit_transaction" =>
    .opaqueEffect .rawTransactionSignature
  | "stellar_sep43_sign_auth_entry" => .opaqueEffect .rawAuthEntrySignature
  | _ => .readOnly

/-! ## DEX trades -/

/-- Failures of the canonicalisation of a token. -/
inductive SacError where
  | invalidIssuer
  | invalidCode (reason : String)
  | ambiguousBareCode
  | unrecognisedFormat

/-- `str::trim`. -/
def trim (s : String) : String :=
  String.ofList (((s.toList.dropWhile N.isWhitespace).reverse.dropWhile N.isWhitespace).reverse)

def splitAtColon (s : String) : Option (String × String) :=
  match s.toList.span (· != ':') with
  | (_, []) => none
  | (code, _ :: issuer) => some (String.ofList code, String.ofList issuer)

def isAsciiAlphanumeric (c : Char) : Bool :=
  ('a' ≤ c && c ≤ 'z') || ('A' ≤ c && c ≤ 'Z') || ('0' ≤ c && c ≤ '9')

def parseClassicAsset (code issuer : String) : Except SacError LedgerAsset :=
  if !N.isAccount issuer then .error .invalidIssuer
  else if code.utf8ByteSize == 0 then .error (.invalidCode "asset code is empty")
  else if code.utf8ByteSize > 12 then .error (.invalidCode "asset code exceeds 12 characters")
  else if !code.toList.all isAsciiAlphanumeric then
    .error (.invalidCode "asset code must be ASCII alphanumeric")
  else .ok (.credit code issuer)

/-- Every spelling of a token becomes a contract id. -/
def canonicaliseToken (token : String) : Except SacError String :=
  let token := trim N token
  if N.isContract token then .ok token
  else if eqIgnoreAsciiCase token "native" then .ok (N.sacContractId .native)
  else
    match splitAtColon token with
    | some (code, issuer) => (parseClassicAsset N code issuer).map N.sacContractId
    | none =>
      if token.toList != [] && token.toList.all isAsciiAlphanumeric then .error .ambiguousBareCode
      else .error .unrecognisedFormat

def canonicalisePath (tokens : List String) : Except SacError (List String) :=
  tokens.mapM (canonicaliseToken N)

/-- The arguments of `stellar_dex_trade`. -/
structure DexTradeArgs where
  chainId : String
  fromAddress : String
  qtyIn : String
  qtyOutMin : String
  path : List String
  deadline : Option ℕ

structure TradeArgs where
  fromAddress : String
  amountIn : ℤ
  amountOutMin : ℤ
  path : List String
  deadline : Option ℕ

/-- Why the trade tool refuses a call by itself. -/
inductive DexRefusal where
  | mainnetWriteForbidden
  | invalidParams (detail : String)
  | canonicalisationFailed (e : SacError)
  | unrecognisedNetwork (network : String)
  | invalidArguments (reason : String)

def parseI128Field (field s : String) : Except DexRefusal ℤ :=
  match N.parseI128 s with
  | some n => .ok n
  | none => .error (.invalidParams (field ++ ": not a valid decimal i128: " ++ s.quote))

def pinnedRouterForNetwork (network : String) : Except DexRefusal String :=
  match network with
  | "stellar:testnet" | "testnet" =>
    .ok "CCJUD55AG6W5HAI5LRVNKAE5WDP5XGZBUDS5WNTIVDU7O264UZZE7BRD"
  | "stellar:pubnet" | "pubnet" | "mainnet" =>
    .ok "CAG5LRYQ5JVEUI5TEID72EYOVX44TTUJT5BQR2J6J77FH65PCCFAJDDH"
  | other => .error (.unrecognisedNetwork other)

/-- The debit leg of a trade: the send side, under the first token of the path. -/
def dexTradeValueLeg (qtyIn : ℤ) (canonicalPath : List String) (routerAddress : String) : ValueLeg :=
  ⟨.dexTrade, some qtyIn, canonicalPath.head?, some routerAddress⟩

/-- The trade as it is signed, and the leg that the policy sees. -/
def dexTrade (args : DexTradeArgs) : Except DexRefusal (TradeArgs × ValueLeg) := do
  if N.passphrase = mainnetPassphrase then throw .mainnetWriteForbidden
  let qtyIn ← parseI128Field N "qty_in" args.qtyIn
  let qtyOutMin ← parseI128Field N "qty_out_min" args.qtyOutMin
  let router ← pinnedRouterForNetwork args.chainId
  match canonicalisePath N args.path with
  | .error e => throw (.canonicalisationFailed e)
  | .ok path =>
    return (⟨args.fromAddress, qtyIn, qtyOutMin, path, args.deadline⟩,
      dexTradeValueLeg qtyIn path router)

def maxDeadlineOffsetSecs : ℕ := 3600

/-- The checks of the adapter, after the gate and before anything is signed. -/
def validateTradeArgs (nowSecs : ℕ) (args : TradeArgs) : Except DexRefusal Unit :=
  if !N.isContract args.fromAddress then
    .error (.invalidArguments
      "from_address must be a C-strkey (contract address); G-strkeys are not supported")
  else if args.amountIn ≤ 0 then .error (.invalidArguments "amount_in must be positive")
  else if args.amountOutMin < 0 then .error (.invalidArguments "amount_out_min must be >= 0")
  else if args.path.length < 2 ∨ args.path.length > 5 then
    .error (.invalidArguments ("path length " ++ toString args.path.length ++
      " is out of range [2, 5]"))
  else
    match args.deadline with
    | none => .ok ()
    | some deadline =>
      if deadline ≤ nowSecs then
        .error (.invalidArguments "deadline is in the past or at current time")
      else if deadline > nowSecs + maxDeadlineOffsetSecs then
        .error (.invalidArguments "deadline is too far in the future (max +3600s)")
      else .ok ()

/-! ## x402 payments -/

structure PaymentRequirements where
  scheme : String
  network : String
  asset : String
  amount : String
  payTo : String
  maxTimeoutSeconds : ℕ
  areFeesSponsored : Option Bool

/-- The variants of `X402Error` that the validation of the requirements answers with. -/
inductive RequirementsError where
  | unsupportedScheme (scheme : String)
  | unsupportedNetwork (network : String)
  | networkPassphraseMismatch (network expectedPassphrase profilePassphrase : String)
  | mainnetSigningForbidden
  | invalidAssetAddress (asset : String)
  | feesNotSponsored
  | amountConversion (amount : String)
  | invalidRecipientAddress (payTo : String)
  | invalidPaymentRequired (detail : String)

def x402NetworkToPassphrase (network : String) : Except RequirementsError String :=
  match network with
  | "stellar:pubnet" => .ok mainnetPassphrase
  | "stellar:testnet" => .ok testnetPassphrase
  | other => .error (.unsupportedNetwork other)

/-- The amount of the transfer, in atomic units. -/
def x402Amount (r : PaymentRequirements) : Except RequirementsError ℤ :=
  match N.parseI128 r.amount with
  | none => .error (.amountConversion r.amount)
  | some amount => if amount ≤ 0 then .error (.amountConversion r.amount) else .ok amount

/-- The recipient is an account, a contract or a muxed account. -/
def x402Recipient (r : PaymentRequirements) : Except RequirementsError Unit :=
  if N.isAccount r.payTo || N.isContract r.payTo || N.isMuxed r.payTo then .ok ()
  else .error (.invalidRecipientAddress r.payTo)

/-- Validates the requirements and returns the amount of the transfer. -/
def validateRequirements (r : PaymentRequirements) : Except RequirementsError ℤ :=
  if r.scheme ≠ "exact" then .error (.unsupportedScheme r.scheme)
  else
    match x402NetworkToPassphrase r.network with
    | .error e => .error e
    | .ok passphrase =>
      if passphrase ≠ N.passphrase then
        .error (.networkPassphraseMismatch r.network passphrase N.passphrase)
      else if passphrase = mainnetPassphrase ∨ N.mainnetUrl = true then
        .error .mainnetSigningForbidden
      else if N.isContract r.asset = false then .error (.invalidAssetAddress r.asset)
      else if r.areFeesSponsored ≠ some true then .error .feesNotSponsored
      else
        match x402Amount N r, x402Recipient N r with
        | .error e, _ => .error e
        | .ok _, .error e => .error e
        | .ok amount, .ok () =>
          if r.maxTimeoutSeconds = 0 then
            .error (.invalidPaymentRequired "maxTimeoutSeconds must be at least 1")
          else .ok amount

def x402ValueLeg (r : PaymentRequirements) (amount : ℤ) : ValueLeg :=
  ⟨.x402Payment, some amount, some r.asset, some r.payTo⟩

/-! ## Calls -/

inductive Spend where
  | payCommit (op : PayOp)
  | createAccountCommit (destination : String) (startingBalance : Int64)
  | dexTrade (args : DexTradeArgs)
  | x402Payment (authenticated : Bool) (requirements : PaymentRequirements)

/-- The debit a call signs for: the name of the asset and the amount. -/
structure SignedDebit where
  asset : String
  amount : ℤ
deriving DecidableEq

def PayOp.debit : PayOp → SignedDebit
  | .payment _ asset amount => ⟨xdrAssetToString asset, amount.toInt⟩
  | .pathPaymentStrictReceive _ sendAsset sendMax _ _ => ⟨xdrAssetToString sendAsset, sendMax.toInt⟩
  | .pathPaymentStrictSend _ sendAsset sendAmount _ _ =>
    ⟨xdrAssetToString sendAsset, sendAmount.toInt⟩

/-- A call whose tool has no objection: the descriptor the gate is asked with, and the debit that is
signed. -/
def Spend.submission (nowSecs : ℕ) : Spend → Option (ValueClass × SignedDebit)
  | .payCommit op => some (deriveValueClass N "stellar_pay_commit" (decodePayArgs op), op.debit)
  | .createAccountCommit destination startingBalance =>
    some (deriveValueClass N "stellar_create_account_commit"
        (decodeCreateAccountArgs destination startingBalance),
      ⟨xdrAssetToString .native, startingBalance.toInt⟩)
  | .dexTrade args =>
    match Spending.dexTrade N args with
    | .error _ => none
    | .ok (trade, leg) =>
      match validateTradeArgs N nowSecs trade, trade.path with
      | .ok (), token :: _ => some (.value [leg], ⟨token, trade.amountIn⟩)
      | _, _ => none
  | .x402Payment _ r =>
    match validateRequirements N r with
    | .error _ => none
    | .ok amount => some (.value [x402ValueLeg r amount], ⟨r.asset, amount⟩)

def Spend.toolName : Spend → String
  | .payCommit _ => "stellar_pay_commit"
  | .createAccountCommit _ _ => "stellar_create_account_commit"
  | .dexTrade _ => "stellar_dex_trade"
  | .x402Payment true _ => "stellar_x402_authenticated_payment"
  | .x402Payment false _ => "stellar_x402_create_payment"

end AgentWallet.Policy.Spending
