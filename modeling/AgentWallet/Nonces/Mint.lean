import AgentWallet.Base.Checks
import AgentWallet.Base.Framing

/-!
# Commit nonces

A nonce binds a simulated envelope to the commit that follows it: a random salt and a keyed hash
over the process's boot nonce, the envelope's digest, the expiry, the tool and the chain
(`computeTag`). The salt is not part of what is hashed.  Verification recomputes the hash and
consults the replay window, which is keyed on salt and tag together; the commit path does the two in
separate steps (`verifyHmacOnly`, then `evictExpired` and `recordVerifiedNonce` under the window's
lock).
-/

namespace AgentWallet.Nonces.Mint

open Base.Checks Base.Framing

inductive NonceError where
  | invalidTool (tool : String)
  | invalidEnvelope
  | chainMismatch (expected got : String)
  | expired
  | ttlExceeded (maxMs requestedMs : ℕ)
  | ttlTooShort (minMs requestedMs : ℕ)
  | replayed
  | hmacMismatch
  | inputTooLong (field : String) (len : ℕ)
  | keyring (detail : String)

structure Binding where
  envelopeXdr : List UInt8
  expiryUnixMs : UInt64
  toolName : String
  chainId : String
deriving DecidableEq

/-- A nonce: 16 bytes of salt, then the tag. -/
structure Nonce (Tag : Type) where
  salt : Vector UInt8 16
  tag : Tag
deriving DecidableEq

/-- SHA-256, and HMAC-SHA256 under the profile's key. -/
structure Hashes (Digest Tag : Type) where
  sha256 : List UInt8 → Digest
  hmac : List (Sym Digest) → Tag

/-- The minter of one profile in one process. -/
structure NonceMint where
  chainId : String
  maxTtlMs : ℕ
  bootNonce : Vector UInt8 16

def maxTtlMs : ℕ := 300000

def minTtlMs : ℕ := 30000

/-- The minter of a profile; the boot nonce is drawn once per process. -/
def NonceMint.fromProfile (chainId : String) (bootNonce : Vector UInt8 16) : NonceMint :=
  ⟨chainId, Mint.maxTtlMs, bootNonce⟩

variable {Digest Tag : Type}

/-! ## Tags -/

variable {t : Tag}

def lengthPrefixU32 (field : String) (len : ℕ) : Except NonceError Unit :=
  refuseIf (2 ^ 32 ≤ len) (.inputTooLong field len)

def tagInput (H : Hashes Digest Tag) (m : NonceMint) (b : Binding) : List (Sym Digest) :=
  bytes m.bootNonce.toList ++ .digest (H.sha256 b.envelopeXdr) ::
    (bytes (beBytes 8 b.expiryUnixMs.toNat) ++
      (frame (utf8 b.toolName) ++ (frame (utf8 b.chainId) ++ [])))

def computeTag (H : Hashes Digest Tag) (m : NonceMint) (b : Binding) : Except NonceError Tag := do
  lengthPrefixU32 "tool_name" (utf8 b.toolName).length
  lengthPrefixU32 "chain_id" (utf8 b.chainId).length
  return H.hmac (tagInput H m b)

theorem computeTag_eq_ok {H : Hashes Digest Tag} {m : NonceMint} {b : Binding}
    (h : computeTag H m b = .ok t) : (utf8 b.toolName).length < 2 ^ 32 ∧
      (utf8 b.chainId).length < 2 ^ 32 ∧ H.hmac (tagInput H m b) = t := by
  unfold computeTag lengthPrefixU32 at h
  simp only [bind_eq_ok_iff, refuseIf_eq_ok_iff, exists_const] at h
  obtain ⟨htool, hchain, hok⟩ := h
  exact ⟨by omega, by omega, Except.ok.inj hok⟩

/-- **A tag fits one binding.** -/
theorem computeTag_inj {H : Hashes Digest Tag} (hsha : H.sha256.Injective)
    (hhmac : H.hmac.Injective) {m : NonceMint} {b c : Binding}
    (hb : computeTag H m b = .ok t) (hc : computeTag H m c = .ok t) : b = c := by
  obtain ⟨htoolb, hchainb, heqb⟩ := computeTag_eq_ok hb
  obtain ⟨htoolc, hchainc, heqc⟩ := computeTag_eq_ok hc
  have hinput : tagInput H m b = tagInput H m c := hhmac (heqb.trans heqc.symm)
  -- field by field: boot nonce, envelope digest, expiry, tool, chain
  obtain ⟨-, h1⟩ := fixed_append_inj rfl hinput
  obtain ⟨hdigest, h2⟩ := digest_cons_inj h1
  obtain ⟨hexpiry, h3⟩ := fixed_append_inj (by simp) h2
  obtain ⟨htool, h4⟩ := frame_append_inj htoolb htoolc h3
  obtain ⟨hchain, -⟩ := frame_append_inj hchainb hchainc h4
  have hms : b.expiryUnixMs.toNat = c.expiryUnixMs.toNat :=
    beBytes_inj (by simpa using b.expiryUnixMs.toNat_lt) (by simpa using c.expiryUnixMs.toNat_lt)
      hexpiry
  cases b
  cases c
  simp only [Binding.mk.injEq]
  exact ⟨hsha hdigest, UInt64.toNat_inj.1 hms, utf8_injective htool, utf8_injective hchain⟩

/-! ## The replay window -/

abbrev ReplayWindow (Tag : Type) := List (Nonce Tag × ℕ)

def Consumed (w : ReplayWindow Tag) (n : Nonce Tag) : Prop := ∃ e ∈ w, e.1 = n

instance [DecidableEq Tag] (w : ReplayWindow Tag) (n : Nonce Tag) : Decidable (Consumed w n) :=
  inferInstanceAs (Decidable (∃ e ∈ w, e.1 = n))

/-- Removes the nonces whose expiry is not after `nowUnixMs`. -/
def evictExpired (w : ReplayWindow Tag) (nowUnixMs : ℕ) : ReplayWindow Tag :=
  w.filter (nowUnixMs < ·.2)

variable [DecidableEq Tag]

/-- Refuses a nonce that is already in the window. -/
def checkNotReplayed (w : ReplayWindow Tag) (n : Nonce Tag) : Except NonceError Unit :=
  refuseIf (Consumed w n) .replayed

def record (w : ReplayWindow Tag) (n : Nonce Tag) (expiryUnixMs : ℕ) :
    Except NonceError (ReplayWindow Tag) :=
  if Consumed w n then .error .replayed else .ok ((n, expiryUnixMs) :: w)

/-! ## Minting and verifying

`key` is what loading the key from the keyring answers. -/

omit [DecidableEq Tag] in
/-- The salt goes into the nonce, not into its tag. -/
def mint (H : Hashes Digest Tag) (m : NonceMint) (isRegistered : String → Bool) (b : Binding)
    (nowUnixMs : ℕ) (key : Except NonceError Unit) (salt : Vector UInt8 16) :
    Except NonceError (Nonce Tag) := do
  refuseIf (isRegistered b.toolName = false) (.invalidTool b.toolName)
  refuseIf (b.envelopeXdr = []) .invalidEnvelope
  refuseIf (b.chainId ≠ m.chainId) (.chainMismatch m.chainId b.chainId)
  refuseIf (b.expiryUnixMs.toNat < nowUnixMs) .expired
  let ttl := b.expiryUnixMs.toNat - nowUnixMs
  refuseIf (m.maxTtlMs < ttl) (.ttlExceeded m.maxTtlMs ttl)
  refuseIf (ttl < minTtlMs) (.ttlTooShort minTtlMs ttl)
  key
  let tag ← computeTag H m b
  return ⟨salt, tag⟩

/-- Checks expiry, chain and tag, without the replay window. -/
def verifyHmacOnly (H : Hashes Digest Tag) (m : NonceMint) (n : Nonce Tag) (b : Binding)
    (nowUnixMs : ℕ) (key : Except NonceError Unit) : Except NonceError Unit := do
  refuseIf (b.expiryUnixMs.toNat ≤ nowUnixMs) .expired
  refuseIf (b.chainId ≠ m.chainId) (.chainMismatch m.chainId b.chainId)
  key
  let tag ← computeTag H m b
  refuseIf (tag ≠ n.tag) .hmacMismatch

def verify (H : Hashes Digest Tag) (m : NonceMint) (w : ReplayWindow Tag) (n : Nonce Tag)
    (b : Binding) (nowUnixMs : ℕ) (key : Except NonceError Unit) :
    Except NonceError (ReplayWindow Tag) := do
  refuseIf (b.expiryUnixMs.toNat ≤ nowUnixMs) .expired
  refuseIf (b.chainId ≠ m.chainId) (.chainMismatch m.chainId b.chainId)
  checkNotReplayed w n
  key
  let tag ← computeTag H m b
  refuseIf (tag ≠ n.tag) .hmacMismatch
  record w n b.expiryUnixMs.toNat

/-- Records a nonce that `verifyHmacOnly` accepted. -/
def recordVerifiedNonce (w : ReplayWindow Tag) (n : Nonce Tag) (expiryUnixMs : ℕ) :
    Except NonceError (ReplayWindow Tag) := record w n expiryUnixMs

section Inversion

variable {H : Hashes Digest Tag} {m : NonceMint} {w w' : ReplayWindow Tag} {n : Nonce Tag}
  {b : Binding} {now : ℕ} {key : Except NonceError Unit}

omit [DecidableEq Tag] in
theorem mint_eq_ok {isRegistered : String → Bool} {salt : Vector UInt8 16}
    (h : mint H m isRegistered b now key salt = .ok n) :
    n.salt = salt ∧ computeTag H m b = .ok n.tag := by
  unfold mint at h
  simp only [bind_eq_ok_iff, refuseIf_eq_ok_iff, exists_const] at h
  obtain ⟨-, -, -, -, -, -, -, -, tag, htag, hn⟩ := h
  cases hn
  exact ⟨rfl, htag⟩

theorem record_eq_ok {expiry : ℕ} (h : record w n expiry = .ok w') :
    ¬ Consumed w n ∧ w' = (n, expiry) :: w := by
  unfold record at h
  split_ifs at h with hc
  exact ⟨hc, (Except.ok.inj h).symm⟩

theorem verifyHmacOnly_eq_ok (h : verifyHmacOnly H m n b now key = .ok ()) :
    now < b.expiryUnixMs.toNat ∧ computeTag H m b = .ok n.tag := by
  unfold verifyHmacOnly at h
  simp only [bind_eq_ok_iff, refuseIf_eq_ok_iff, exists_const] at h
  obtain ⟨hexpiry, -, -, -, tag, htag, heq⟩ := h
  rw [htag, not_ne_iff.1 heq]
  exact ⟨by omega, rfl⟩

theorem verify_eq_ok (h : verify H m w n b now key = .ok w') :
    now < b.expiryUnixMs.toNat ∧ computeTag H m b = .ok n.tag ∧ ¬ Consumed w n ∧
      w' = (n, b.expiryUnixMs.toNat) :: w := by
  unfold verify checkNotReplayed at h
  simp only [bind_eq_ok_iff, refuseIf_eq_ok_iff, exists_const] at h
  obtain ⟨hexpiry, -, -, -, -, tag, htag, heq, hrecord⟩ := h
  rw [htag, not_ne_iff.1 heq]
  exact ⟨by omega, rfl, record_eq_ok hrecord⟩

omit [DecidableEq Tag] in
theorem mem_evictExpired {e : Nonce Tag × ℕ} (h : now < e.2) : e ∈ evictExpired w now ↔ e ∈ w := by
  unfold evictExpired
  simp [h]

end Inversion

end AgentWallet.Nonces.Mint
