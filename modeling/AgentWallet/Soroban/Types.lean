import Mathlib

/-!
# Values and authorizations of the contract host

The XDR types that authorizations are made of.  Byte strings are lists of bytes; a kind of value
that no function here looks into stands with its encoding.
-/

namespace AgentWallet.Soroban.Types

/-- Bytes of a key, a hash, a symbol or a text. -/
abbrev Bytes := List UInt8

inductive ScAddress where
  | account (key : Bytes)
  | contract (id : Bytes)
  | muxedAccount (id : ℕ) (key : Bytes)
  /-- A claimable balance or a liquidity pool. -/
  | other (encoding : Bytes)
deriving DecidableEq

inductive Scalar where
  | void
  | symbol (s : Bytes)
  | string (s : Bytes)
  | bytes (b : Bytes)
  | i128 (n : ℤ)
  | address (a : ScAddress)
  | vecNone
  | mapNone
  | other (encoding : Bytes)
deriving DecidableEq

inductive ScVal where
  | scalar (s : Scalar)
  | vec (elems : List ScVal)
  | map (entries : List (ScVal × ScVal))

namespace ScVal

@[match_pattern] abbrev void : ScVal := scalar .void
@[match_pattern] abbrev symbol (s : Bytes) : ScVal := scalar (.symbol s)
@[match_pattern] abbrev string (s : Bytes) : ScVal := scalar (.string s)
@[match_pattern] abbrev bytes (b : Bytes) : ScVal := scalar (.bytes b)
@[match_pattern] abbrev i128 (n : ℤ) : ScVal := scalar (.i128 n)
@[match_pattern] abbrev address (a : ScAddress) : ScVal := scalar (.address a)

mutual

def decEq : (a b : ScVal) → Decidable (a = b)
  | scalar s, scalar t => decidable_of_iff (s = t) (by simp)
  | vec xs, vec ys =>
    haveI := decEqList xs ys
    decidable_of_iff (xs = ys) (by simp)
  | map xs, map ys =>
    haveI := decEqEntries xs ys
    decidable_of_iff (xs = ys) (by simp)
  | scalar _, vec _ | scalar _, map _ | vec _, scalar _ | vec _, map _ | map _, scalar _
  | map _, vec _ => isFalse fun h => by cases h

def decEqList : (xs ys : List ScVal) → Decidable (xs = ys)
  | [], [] => isTrue rfl
  | [], _ :: _ | _ :: _, [] => isFalse fun h => by cases h
  | x :: xs, y :: ys =>
    haveI := decEq x y
    haveI := decEqList xs ys
    decidable_of_iff (x = y ∧ xs = ys) (by simp)

def decEqEntries : (xs ys : List (ScVal × ScVal)) → Decidable (xs = ys)
  | [], [] => isTrue rfl
  | [], _ :: _ | _ :: _, [] => isFalse fun h => by cases h
  | (k, v) :: xs, (l, w) :: ys =>
    haveI := decEq k l
    haveI := decEq v w
    haveI := decEqEntries xs ys
    decidable_of_iff ((k = l ∧ v = w) ∧ xs = ys) (by simp)

end

instance : DecidableEq ScVal := decEq

end ScVal

@[ext] structure InvokeContractArgs where
  contractAddress : ScAddress
  functionName : Bytes
  args : List ScVal
deriving DecidableEq

inductive SorobanAuthorizedFunction where
  | contractFn (args : InvokeContractArgs)
  /-- The creation of a contract. -/
  | other (encoding : Bytes)
deriving DecidableEq

inductive SorobanAuthorizedInvocation where
  | mk (function : SorobanAuthorizedFunction) (subInvocations : List SorobanAuthorizedInvocation)

namespace SorobanAuthorizedInvocation

def function : SorobanAuthorizedInvocation → SorobanAuthorizedFunction
  | mk function _ => function

def subInvocations : SorobanAuthorizedInvocation → List SorobanAuthorizedInvocation
  | mk _ subInvocations => subInvocations

theorem ext {a b : SorobanAuthorizedInvocation} (hf : a.function = b.function)
    (hs : a.subInvocations = b.subInvocations) : a = b := by
  obtain ⟨f, xs⟩ := a
  obtain ⟨g, ys⟩ := b
  obtain rfl : f = g := hf
  obtain rfl : xs = ys := hs
  rfl

mutual

def decEq : (a b : SorobanAuthorizedInvocation) → Decidable (a = b)
  | mk f xs, mk g ys =>
    haveI := decEqList xs ys
    decidable_of_iff (f = g ∧ xs = ys) (by simp)

def decEqList : (xs ys : List SorobanAuthorizedInvocation) → Decidable (xs = ys)
  | [], [] => isTrue rfl
  | [], _ :: _ | _ :: _, [] => isFalse fun h => by cases h
  | x :: xs, y :: ys =>
    haveI := decEq x y
    haveI := decEqList xs ys
    decidable_of_iff (x = y ∧ xs = ys) (by simp)

end

instance : DecidableEq SorobanAuthorizedInvocation := decEq

end SorobanAuthorizedInvocation

structure SorobanAddressCredentials where
  address : ScAddress
  nonce : ℤ
  signatureExpirationLedger : ℕ
  signature : ScVal
deriving DecidableEq

inductive SorobanCredentials where
  | sourceAccount
  | address (credentials : SorobanAddressCredentials)
  | addressV2 (encoding : Bytes)
  | addressWithDelegates (encoding : Bytes)
deriving DecidableEq

structure SorobanAuthorizationEntry where
  credentials : SorobanCredentials
  rootInvocation : SorobanAuthorizedInvocation
deriving DecidableEq

end AgentWallet.Soroban.Types
