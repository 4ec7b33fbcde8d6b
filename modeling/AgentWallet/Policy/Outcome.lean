import Mathlib

/-!
# Policy decisions

The outcome types of the policy engine: `DenyReason`, `ApprovalRequest` and `Decision`.  Stroop
amounts are `i128` in the source and `ℤ` here; the functions that build a reason clamp to the
machine range themselves.
-/

namespace AgentWallet.Policy.Outcome

/-- The reasons a policy denies with. -/
inductive DenyReason where
  | perTxCapExceeded (asset : String) (maxStroops attemptedStroops : ℤ)
  | approvalAboveExceeded (asset : String) (maxStroops attemptedStroops : ℤ)
  | perPeriodCapExceeded (asset window : String)
      (maxStroops attemptedStroops periodUsedStroops : ℤ)
  | rateLimitExceeded (window : String) (maxCalls callsInWindow : ℕ)
  | counterpartyDenied (kind value : String)
  | minimumReserveBreached (reserveRequiredStroops balanceStroops : ℤ)
  | ownerSignatureStale (rotatedAt : String)
  | noMatchingRule
  | explicitRuleDeny
  | counterpartyKindUnsupported (kind : String)
  | evaluationError (detail : String)
  | unsizableValueEffect (detail : String)
  | innerInvocationCountCapExceeded (max attempted : ℕ)
  | bundleAggregateCapExceeded (asset : Option String) (max sum : ℤ)
  | bundleContainsGenericKind (innerIndex : ℕ)
  | bundleDenied (innerIndex : ℕ) (denyReason : DenyReason)
  | quorumNotSatisfied (groupsShortBy : List String) (combinator : String)
  | homeDomainNotResolved (homeDomain : String)
  | sep10SessionMissing (accountId : String)
  | sep45SessionMissing (contractId : String)
deriving DecidableEq

/-- A request for an operator's approval. -/
structure ApprovalRequest where
  nonce : String
  ttlSeconds : ℕ
  reason : Option String := none
  approvalUrl : Option String := none

/-- What the engine decides about a call. -/
inductive Decision where
  | allow
  | deny (reason : DenyReason)
  | requireApproval (request : ApprovalRequest)

end AgentWallet.Policy.Outcome
