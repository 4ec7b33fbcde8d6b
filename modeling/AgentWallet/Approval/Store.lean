import AgentWallet.Base.Checks

/-!
# The approval store

The pending approvals of a profile, one entry for each wallet-issued nonce.  Every operation opens
the store under its lock, so an operation is a function of the entries the file holds.  An
operator's decision replaces an entry: `reject` and `consume` leave a tombstone under the nonce,
which no attestation path accepts, and expired entries are swept by `gcExpired` and by every
`insert`.
-/

namespace AgentWallet.Approval.Store

open Base.Checks

/-- What is known of the transaction an approval was spent on. -/
inductive ConsumedOutcome where
  | confirmed
  | unknown
deriving DecidableEq

/-- The result of the registration ceremony of a passkey, as it is stored. -/
abbrev RegistrationInput := List UInt8

/-- The grant that a first invocation waits for. -/
structure ToolsetGate where
  toolsetName : String
  capability : String
  destination : String
  asset : String
  amountMinStroops : ℤ
  amountMaxStroops : ℤ
deriving DecidableEq

/-- What an entry asks for.  Only the fields an operation reads are kept; the digests of proposals
and charges are written in hexadecimal. -/
inductive ApprovalKind where
  | paymentSimulated (envelopeSha256Hex : String)
  | signWithPasskey
  | trustlineClawbackOptIn (network code issuer : String)
  | claimSimulated (envelopeSha256Hex : String)
  | trustlineSimulated (envelopeSha256Hex : String)
  | registerPasskey (registrationInput : Option RegistrationInput)
  | toolsetFirstInvokeGate (gate : ToolsetGate)
  | ruleProposalSimulated (chainId proposalSha256 : String)
  | mppChargeSimulated (profile chainId preparedArtifactHash : String)
  | rejected (originalKindName : String)
  | consumed (originalKindName txHash : String) (outcome : ConsumedOutcome)
deriving DecidableEq

namespace ApprovalKind

/-- The name of a kind in errors and tombstones. -/
def kindName : ApprovalKind → String
  | .paymentSimulated _ => "PaymentSimulated"
  | .signWithPasskey => "SignWithPasskey"
  | .trustlineClawbackOptIn _ _ _ => "TrustlineClawbackOptIn"
  | .claimSimulated _ => "ClaimSimulated"
  | .trustlineSimulated _ => "TrustlineSimulated"
  | .registerPasskey _ => "RegisterPasskey"
  | .toolsetFirstInvokeGate _ => "ToolsetFirstInvokeGate"
  | .ruleProposalSimulated _ _ => "RuleProposalSimulated"
  | .mppChargeSimulated _ _ _ => "MppChargeSimulated"
  | .rejected _ => "Rejected"
  | .consumed _ _ _ => "Consumed"

/-- The digest that `record_attestation` attests, for the kinds it takes. -/
def attestedDigest : ApprovalKind → Option String
  | .paymentSimulated digest => some digest
  | .claimSimulated digest => some digest
  | .trustlineSimulated digest => some digest
  | .mppChargeSimulated _ _ digest => some digest
  | _ => none

def isTrustlineClawbackOptIn : ApprovalKind → Bool
  | .trustlineClawbackOptIn _ _ _ => true
  | _ => false

def isRuleProposalSimulated : ApprovalKind → Bool
  | .ruleProposalSimulated _ _ => true
  | _ => false

def isTombstone : ApprovalKind → Bool
  | .rejected _ | .consumed _ _ _ => true
  | _ => false

end ApprovalKind

/-- The result of the signing ceremony of a passkey. -/
structure AssertionInput where
  credentialId : List UInt8
  authenticatorData : List UInt8
  clientDataJson : List UInt8
  signatureCompact : List UInt8
deriving DecidableEq

structure PendingApproval where
  approvalNonce : String
  processUid : String
  createdAtUnixMs : ℕ
  expiresAtUnixMs : ℕ
  reason : Option String := none
  kind : ApprovalKind
  /-- The fields of the kind that no operation reads; equality of kinds takes them in. -/
  summary : String := ""
  attestationBlob : Option String := none
  passkeyAssertion : Option AssertionInput := none
deriving DecidableEq

def PendingApproval.isExpired (e : PendingApproval) (nowUnixMs : ℕ) : Bool :=
  decide (e.expiresAtUnixMs ≤ nowUnixMs)

inductive ApprovalError where
  | pendingStoreFull (max : ℕ)
  | duplicateNonce (nonce : String)
  | notFound
  | expired
  | alreadyAttested
  | wrongKind (expected actual : String)
  | invalidEntry (detail : String)
  | invalid (reason : String)
  | io

abbrev Entries := List PendingApproval

def maxPendingApprovals : ℕ := 4096

def get (entries : Entries) (nonce : String) : Option PendingApproval :=
  entries.find? (·.approvalNonce = nonce)

def replace (entries : Entries) (nonce : String) (f : PendingApproval → PendingApproval) : Entries :=
  match entries with
  | [] => []
  | e :: es => if e.approvalNonce = nonce then f e :: es else e :: replace es nonce f

def gcExpired (entries : Entries) (nowUnixMs : ℕ) : Entries :=
  entries.filter (!·.isExpired nowUnixMs)

/-- Stores the attestation of an entry of an accepted kind, once. -/
def recordBlob (accepts : ApprovalKind → Bool) (expected : String) (entries : Entries)
    (nonce blob : String) (nowMs : ℕ) : Except ApprovalError Entries :=
  match get entries nonce with
  | none => .error .notFound
  | some e => do
    refuseIf (e.isExpired nowMs = true) .expired
    refuseIf (accepts e.kind = false) (.wrongKind expected e.kind.kindName)
    refuseIf (e.attestationBlob.isSome = true) .alreadyAttested
    return replace entries nonce fun e => { e with attestationBlob := some blob }

/-- Stores the attestation of a payment, a claim, a trustline or a charge. -/
def recordAttestation : Entries → (nonce blob : String) → ℕ → Except ApprovalError Entries :=
  recordBlob (·.attestedDigest.isSome)
    "PaymentSimulated, ClaimSimulated, TrustlineSimulated, or MppChargeSimulated"

def recordTrustlineClawbackOptInAttestation :
    Entries → (nonce blob : String) → ℕ → Except ApprovalError Entries :=
  recordBlob (·.isTrustlineClawbackOptIn) "TrustlineClawbackOptIn"

def recordRuleProposalAttestation :
    Entries → (nonce blob : String) → ℕ → Except ApprovalError Entries :=
  recordBlob (·.isRuleProposalSimulated) "RuleProposalSimulated"

def p256HalfOrderBe : List UInt8 :=
  [0x7f, 0xff, 0xff, 0xff, 0x80, 0x00, 0x00, 0x00, 0x7f, 0xff, 0xff, 0xff, 0xff, 0xff, 0xff, 0xff,
    0xde, 0x73, 0x7d, 0x56, 0xd3, 0x8b, 0xcf, 0x42, 0x79, 0xdc, 0xe5, 0x61, 0x7e, 0x31, 0x92, 0xa8]

def validateSignatureCompact (signatureCompact : List UInt8) : Except ApprovalError Unit := do
  refuseIf (signatureCompact.length ≠ 64) (.invalid
    ("AssertionInput.signature_compact MUST be 64 bytes (r||s big-endian); got " ++
      toString signatureCompact.length))
  refuseIf (p256HalfOrderBe < signatureCompact.drop 32) (.invalid
    "AssertionInput.signature_compact MUST be low-S normalised")

def recordPasskeyAssertion (entries : Entries) (nonce : String) (assertion : AssertionInput)
    (nowMs : ℕ) : Except ApprovalError Entries :=
  match get entries nonce with
  | none => .error .notFound
  | some e => do
    refuseIf (e.isExpired nowMs = true) .expired
    refuseIf (e.kind ≠ .signWithPasskey) (.wrongKind "SignWithPasskey" e.kind.kindName)
    refuseIf (e.passkeyAssertion.isSome = true) .alreadyAttested
    validateSignatureCompact assertion.signatureCompact
    return replace entries nonce fun e => { e with passkeyAssertion := some assertion }

/-- Stores the registration of a passkey, once. -/
def recordPasskeyRegistration (entries : Entries) (nonce : String) (registration : RegistrationInput)
    (nowMs : ℕ) : Except ApprovalError Entries :=
  match get entries nonce with
  | none => .error .notFound
  | some e => do
    refuseIf (e.isExpired nowMs = true) .expired
    match e.kind with
    | .registerPasskey (some _) => .error .alreadyAttested
    | .registerPasskey none =>
      .ok (replace entries nonce fun e => { e with kind := .registerPasskey (some registration) })
    | other => .error (.wrongKind "RegisterPasskey" other.kindName)

def remove (entries : Entries) (nonce : String) : Entries :=
  entries.filter (·.approvalNonce ≠ nonce)

def rejectedTombstone (nowUnixMs ttlMs : ℕ) (e : PendingApproval) : PendingApproval :=
  { e with createdAtUnixMs := nowUnixMs, expiresAtUnixMs := min (nowUnixMs + ttlMs) (2 ^ 64 - 1),
           reason := none, kind := .rejected e.kind.kindName, summary := "",
           attestationBlob := none, passkeyAssertion := none }

/-- Replaces an entry by the tombstone of a rejection. -/
def reject (entries : Entries) (nonce : String) (nowUnixMs ttlMs : ℕ) : Entries :=
  replace entries nonce (rejectedTombstone nowUnixMs ttlMs)

def isAsciiHexDigit (c : Char) : Bool :=
  c.isDigit || ('a' ≤ c && c ≤ 'f') || ('A' ≤ c && c ≤ 'F')

/-- A hash as a tombstone may hold it: 64 lowercase hexadecimal digits. -/
def validateConsumedInvariants (txHash : String) : Except ApprovalError Unit := do
  refuseIf (txHash.length ≠ 64 ∨ txHash.toList.all isAsciiHexDigit = false)
    (.invalidEntry "Consumed.tx_hash must be 64 hex characters")
  refuseIf (txHash.toList.any Char.isUpper = true)
    (.invalidEntry "Consumed.tx_hash must be lowercase hex")

/-- The tombstone of a spent entry, which keeps its lifetime and its attestation. -/
def consumedTombstone (txHash : String) (outcome : ConsumedOutcome) (e : PendingApproval) :
    PendingApproval :=
  { e with reason := none, kind := .consumed e.kind.kindName txHash outcome, summary := "",
           passkeyAssertion := none }

/-- Replaces an entry by the tombstone of a consumption; an unknown nonce changes nothing. -/
def consume (entries : Entries) (nonce txHash : String) (outcome : ConsumedOutcome) :
    Except ApprovalError Entries :=
  match get entries nonce with
  | none => .ok entries
  | some _ => do
    validateConsumedInvariants txHash
    return replace entries nonce (consumedTombstone txHash outcome)

end AgentWallet.Approval.Store
