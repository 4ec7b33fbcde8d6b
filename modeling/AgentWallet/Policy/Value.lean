import AgentWallet.Policy.StateStore

/-!
# Value legs and bundles

What a call does to on-chain value, as the policy criteria see it.  A single call carries a
`ValueClass`; a multicall bundle carries one `InnerOpDescriptor` per inner invocation, obtained from
the raw invocations by `decomposeBundle`.

An asset is a name.  `assetNormalise` is the one normalisation the derivation and the criteria
share, and `matchingDebit` is the part of a leg that counts towards a cap on an asset.
-/

namespace AgentWallet.Policy.Value

open Base.Saturating

variable {asset sender recipient : String} {amount : ℤ}

inductive ToolValueKind where
  | readOnly
  | movesValue
  | opaqueSign
deriving DecidableEq

/-- A tool, as far as the engine reads it. -/
structure ToolDescriptor where
  name : String
  chainId : String
  valueKind : ToolValueKind

inductive ActionKind where
  | payment
  | accountCreation
  | claim
  | trustline
  | dexTrade
  | lend
  | lendWithdraw
  | vaultDeposit
  | vaultWithdraw
  | x402Payment
  | mppCharge
  | contractInvoke
  | pathPaymentReceive

/-- The kinds that reduce the wallet's spendable balance. -/
def ActionKind.carriesDebit : ActionKind → Bool
  | .payment | .accountCreation | .dexTrade | .lend | .vaultDeposit | .x402Payment | .mppCharge
  | .contractInvoke => true
  | .claim | .trustline | .lendWithdraw | .vaultWithdraw | .pathPaymentReceive => false

structure ValueLeg where
  kind : ActionKind
  amount : Option ℤ
  asset : Option String
  destination : Option String

/-- Why the effect of a call cannot be resolved. -/
inductive OpaqueReason where
  | rawTransactionSignature
  | rawAuthEntrySignature

inductive ValueClass where
  | readOnly
  | value (legs : List ValueLeg)
  | opaqueEffect (reason : OpaqueReason)

def eqIgnoreAsciiCase (a b : String) : Bool :=
  a.toList.map Char.toLower == b.toList.map Char.toLower

/-- The canonical name of an asset: `native` for every spelling of the native asset, any other name
verbatim. -/
def assetNormalise (asset : String) : String :=
  if eqIgnoreAsciiCase asset "native" || eqIgnoreAsciiCase asset "xlm" then "native" else asset

theorem assetNormalise_idem (asset : String) :
    assetNormalise (assetNormalise asset) = assetNormalise asset := by
  unfold assetNormalise
  split_ifs <;> rfl

def matchingDebit (criterionAsset : String) (leg : ValueLeg) : Option ℤ :=
  if leg.kind.carriesDebit && leg.asset.map assetNormalise == some criterionAsset then leg.amount
  else none

/-! ## Bundles -/

/-- One inner operation of a multicall bundle. -/
inductive InnerOpDescriptor where
  | tokenTransfer (asset sender recipient : String) (amount : ℤ)
  | generic (target fnName : String)
deriving DecidableEq

inductive JsonArg where
  | string (s : String)
  | integer (n : ℤ)
  | other

/-- The text formats a decomposition reads. -/
structure TextFormats where
  isContract : String → Bool
  isAccount : String → Bool
  parseI128 : String → Option ℤ

/-- Parses an argument as an amount.  A JSON integer has 64 bits, signed or unsigned. -/
def parseI128Arg (F : TextFormats) : JsonArg → Option ℤ
  | .string s => F.parseI128 s
  | .integer n => if -2 ^ 63 ≤ n ∧ n ≤ u64Max then some n else none
  | .other => none

def JsonArg.asStr : JsonArg → Option String
  | .string s => some s
  | _ => none

/-- A transfer in the eyes of the policy. -/
def tryDecomposeAsTokenTransfer (F : TextFormats) (target fnName : String) (args : List JsonArg) :
    Option InnerOpDescriptor :=
  if F.isContract target && fnName == "transfer" then
    match args with
    | [arg₀, arg₁, arg₂] => do
      let sender ← arg₀.asStr
      guard (F.isAccount sender)
      let recipient ← arg₁.asStr
      guard (F.isAccount recipient)
      let amount ← parseI128Arg F arg₂
      guard (0 ≤ amount)
      return .tokenTransfer target sender recipient amount
    | _ => none
  else none

def decomposeBundle (F : TextFormats) (raw : List (String × String × List JsonArg)) :
    List InnerOpDescriptor :=
  raw.map fun (target, fnName, args) =>
    (tryDecomposeAsTokenTransfer F target fnName args).getD (.generic target fnName)

/-- What an inner operation transfers of an asset. -/
def InnerOpDescriptor.transferOf (criterionAsset : String) : InnerOpDescriptor → Option ℤ
  | .tokenTransfer asset _ _ amount =>
    if assetNormalise asset = criterionAsset then some amount else none
  | .generic _ _ => none

def valueClassForInner : InnerOpDescriptor → ValueClass
  | .tokenTransfer asset _ recipient amount =>
    .value [⟨.payment, some amount, some (assetNormalise asset), some recipient⟩]
  | .generic _ _ => .readOnly

variable {F : TextFormats}

theorem tryDecompose_amount_nonneg {target fnName : String} {args : List JsonArg}
    (h : tryDecomposeAsTokenTransfer F target fnName args =
      some (.tokenTransfer asset sender recipient amount)) :
    0 ≤ amount := by
  unfold tryDecomposeAsTokenTransfer at h
  split at h
  · split at h
    · simp only [Option.bind_eq_bind, Option.bind_eq_some_iff, guard] at h
      obtain ⟨_, -, _, -, _, -, _, -, parsed, -, _, hguard, heq⟩ := h
      cases heq
      by_contra hneg
      rw [if_neg hneg] at hguard
      cases hguard
    · cases h
  · cases h

theorem decomposeBundle_amount_nonneg {raw : List (String × String × List JsonArg)}
    (h : .tokenTransfer asset sender recipient amount ∈ decomposeBundle F raw) : 0 ≤ amount := by
  obtain ⟨⟨target, fnName, args⟩, -, heq⟩ := List.mem_map.mp h
  cases ht : tryDecomposeAsTokenTransfer F target fnName args with
  | none =>
    simp only [ht] at heq
    cases heq
  | some inner =>
    simp only [ht] at heq
    subst heq
    exact tryDecompose_amount_nonneg ht

end AgentWallet.Policy.Value
