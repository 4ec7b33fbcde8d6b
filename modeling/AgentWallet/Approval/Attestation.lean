import AgentWallet.Base.Framing

/-!
# Attestations

`attestation.rs`: the messages that are hashed and tagged when an operator approves something.  An
attestation binds the profile, the chain, the nonce of the approval, the digest of what is approved
and the approving process; the digest commits to an envelope, a toolset grant, a clawback opt-in or
a rule proposal.
-/

namespace AgentWallet.Approval.Attestation

open Base.Framing List

def Key : Type := { l : List UInt8 // l.length = 32 }

/-- SHA-256 with digests in `D`, and HMAC-SHA256 with tags in `T`. -/
structure Hashes (D T : Type) where
  sha256 : List (Sym D) → D
  hmac : Key → List (Sym D) → T

/-- No two messages have the same digest, and none the same tag under one key. -/
structure Hashes.Injective {D T : Type} (H : Hashes D T) : Prop where
  sha256 : H.sha256.Injective
  hmac : ∀ key, Function.Injective (H.hmac key)

/-- The length of a field as a big-endian `u32`, saturated. -/
def lengthBytes {D : Type} (l : List UInt8) : List (Sym D) :=
  bytes (beBytes 4 (min l.length (2 ^ 32 - 1)))

def field {D : Type} (l : List UInt8) : List (Sym D) := lengthBytes l ++ bytes l

section

variable {D T : Type} (H : Hashes D T)

/-! ## Digests -/

def toolsetGateDomainTag : List UInt8 := utf8 "stellar-agent-toolset-grant:v1"

def trustlineClawbackOptInDomainTag : List UInt8 :=
  utf8 "stellar-agent-trustline-clawback-opt-in:v1"

def ruleProposalDomainTag : List UInt8 := utf8 "stellar-agent-rule-proposal-v1"

def attestationTag : List UInt8 := utf8 "stellar-agent-approval-attestation:v2"

/-- `envelope_sha256` -/
def envelopeSha256 (envelopeXdr : List UInt8) : D := H.sha256 (bytes envelopeXdr)

def computeToolsetGateDigest (toolsetName capability destination asset : String)
    (amountMinStroops amountMaxStroops : Int64) : D :=
  H.sha256 (bytes toolsetGateDomainTag ++ (field (utf8 toolsetName) ++ (field (utf8 capability) ++
    (field (utf8 destination) ++ (field (utf8 asset) ++
      (i64Bytes amountMinStroops ++ i64Bytes amountMaxStroops))))))

def computeTrustlineClawbackOptInDigest (network code issuer : String) : D :=
  H.sha256 (bytes trustlineClawbackOptInDomainTag ++ (field (utf8 network) ++
    (field (utf8 code) ++ field (utf8 issuer))))

def computeRuleProposalDigest (invokeContractArgsXdr smartAccountXdr authRuleIdsXdr : List UInt8)
    (flagsByte : UInt8) : D :=
  H.sha256 (bytes ruleProposalDomainTag ++ (field invokeContractArgsXdr ++
    (field smartAccountXdr ++ (field authRuleIdsXdr ++ bytes [flagsByte]))))

/-! ## Attestations -/

structure AttestationBinding where
  profileName : String
  chainId : String

/-- What an attestation is computed from, besides the key. -/
@[ext] structure AttestationInput (D : Type) where
  binding : AttestationBinding
  approvalNonce : String
  envelopeSha256 : D
  processUid : String

def computeAttestation (key : Key) (input : AttestationInput D) : T :=
  H.hmac key (bytes attestationTag ++ (field (utf8 input.binding.profileName) ++
    (field (utf8 input.binding.chainId) ++ (field (utf8 input.approvalNonce) ++
      (.digest input.envelopeSha256 :: field (utf8 input.processUid))))))

end

/-! ## Subjects -/

/-- The discriminants of `TransactionEnvelope`: version 0, version 1 and fee bump. -/
def envelopeDiscriminants : List (List UInt8) := [[0, 0, 0, 0], [0, 0, 0, 2], [0, 0, 0, 5]]

/-- The XDR of an envelope, as far as its discriminant. -/
def EnvelopeXdr : Type :=
  { l : List UInt8 // ∃ discriminant ∈ envelopeDiscriminants, discriminant <+: l }

inductive Subject where
  | payment (envelope : EnvelopeXdr)
  | claim (envelope : EnvelopeXdr)
  | trustline (envelope : EnvelopeXdr)
  | toolsetGate (toolsetName capability destination asset : String)
      (amountMinStroops amountMaxStroops : Int64)
  | clawbackOptIn (network code issuer : String)
  | ruleProposal (invokeContractArgsXdr smartAccountXdr authRuleIdsXdr : List UInt8)
      (flagsByte : UInt8)

/-- The kinds of subjects and their fields: payments, claims and trustline changes are all approved
by their envelope. -/
inductive Content where
  | envelope (xdr : EnvelopeXdr)
  | toolsetGate (toolsetName capability destination asset : String)
      (amountMinStroops amountMaxStroops : Int64)
  | clawbackOptIn (network code issuer : String)
  | ruleProposal (invokeContractArgsXdr smartAccountXdr authRuleIdsXdr : List UInt8)
      (flagsByte : UInt8)

def Subject.content : Subject → Content
  | .payment envelope => .envelope envelope
  | .claim envelope => .envelope envelope
  | .trustline envelope => .envelope envelope
  | .toolsetGate toolsetName capability destination asset amountMin amountMax =>
    .toolsetGate toolsetName capability destination asset amountMin amountMax
  | .clawbackOptIn network code issuer => .clawbackOptIn network code issuer
  | .ruleProposal args account ids flags => .ruleProposal args account ids flags

def Content.digest {D T : Type} (H : Hashes D T) : Content → D
  | .envelope xdr => envelopeSha256 H xdr.1
  | .toolsetGate toolsetName capability destination asset amountMin amountMax =>
    computeToolsetGateDigest H toolsetName capability destination asset amountMin amountMax
  | .clawbackOptIn network code issuer => computeTrustlineClawbackOptInDigest H network code issuer
  | .ruleProposal args account ids flags => computeRuleProposalDigest H args account ids flags

/-- The digest an approval of the subject attests. -/
def Subject.digest {D T : Type} (H : Hashes D T) (s : Subject) : D := s.content.digest H

/-- The fields that are written behind their length. -/
def Content.fields : Content → List (List UInt8)
  | .envelope _ => []
  | .toolsetGate toolsetName capability destination asset _ _ =>
    [utf8 toolsetName, utf8 capability, utf8 destination, utf8 asset]
  | .clawbackOptIn network code issuer => [utf8 network, utf8 code, utf8 issuer]
  | .ruleProposal args account ids _ => [args, account, ids]

def AttestationInput.fields {D : Type} (input : AttestationInput D) : List (List UInt8) :=
  [utf8 input.binding.profileName, utf8 input.binding.chainId, utf8 input.approvalNonce,
    utf8 input.processUid]

/-- Every length fits a `u32`. -/
def Short (fields : List (List UInt8)) : Prop := ∀ l ∈ fields, l.length < 2 ^ 32

instance (fields : List (List UInt8)) : Decidable (Short fields) :=
  inferInstanceAs (Decidable (∀ l ∈ fields, l.length < 2 ^ 32))

/-! ## Reading a message back -/

section

variable {D T : Type} {H : Hashes D T} {u v : List (Sym D)}

theorem field_eq_frame {l : List UInt8} (hl : l.length < 2 ^ 32) :
    (field l : List (Sym D)) = frame l := by
  unfold field lengthBytes frame
  rw [min_eq_left (by omega)]

variable {a b : List UInt8}

theorem field_append_inj (ha : a.length < 2 ^ 32) (hb : b.length < 2 ^ 32)
    (h : field a ++ u = field b ++ v) : a = b ∧ u = v := by
  rw [field_eq_frame ha, field_eq_frame hb] at h
  exact frame_append_inj ha hb h

theorem short_cons {l : List UInt8} {fields : List (List UInt8)} :
    Short (l :: fields) ↔ l.length < 2 ^ 32 ∧ Short fields := forall_mem_cons

theorem field_inj (ha : a.length < 2 ^ 32) (hb : b.length < 2 ^ 32)
    (h : (field a : List (Sym D)) = field b) : a = b := by
  have happend : (field a : List (Sym D)) ++ [] = field b ++ [] := by
    rw [append_nil, append_nil]
    exact h
  exact (field_append_inj ha hb happend).1

theorem text_append_inj {s t : String} (hs : (utf8 s).length < 2 ^ 32)
    (ht : (utf8 t).length < 2 ^ 32) (h : field (utf8 s) ++ u = field (utf8 t) ++ v) :
    s = t ∧ u = v := by
  obtain ⟨heq, hrest⟩ := field_append_inj hs ht h
  exact ⟨utf8_injective heq, hrest⟩

/-- **The messages of an attestation.** -/
theorem attestationInput_inj (hH : H.Injective) {key : Key} {input input' : AttestationInput D}
    (hshort : Short input.fields) (hshort' : Short input'.fields)
    (h : computeAttestation H key input = computeAttestation H key input') : input = input' := by
  simp only [AttestationInput.fields, short_cons] at hshort hshort'
  obtain ⟨hprofile, hchain, hnonce, huid, -⟩ := hshort
  obtain ⟨hprofile', hchain', hnonce', huid', -⟩ := hshort'
  have hmessage := append_cancel_left (hH.hmac key h)
  obtain ⟨eprofile, hmessage⟩ := text_append_inj hprofile hprofile' hmessage
  obtain ⟨echain, hmessage⟩ := text_append_inj hchain hchain' hmessage
  obtain ⟨enonce, hmessage⟩ := text_append_inj hnonce hnonce' hmessage
  obtain ⟨edigest, hmessage⟩ := digest_cons_inj hmessage
  have euid : input.processUid = input'.processUid := utf8_injective (field_inj huid huid' hmessage)
  obtain ⟨⟨profile, chain⟩, nonce, digest, uid⟩ := input
  dsimp only at eprofile echain enonce edigest euid
  rw [eprofile, echain, enonce, edigest, euid]

/-! ## Digests of subjects -/

variable {tag tag' : List UInt8} {c a' b' c' : String} {envelope : EnvelopeXdr}

theorem toolsetGate_inj (hH : H.Injective) {a b d d' : String} {lo hi lo' hi' : Int64}
    (hshort : Short (Content.toolsetGate a b c d lo hi).fields)
    (hshort' : Short (Content.toolsetGate a' b' c' d' lo' hi').fields)
    (h : computeToolsetGateDigest H a b c d lo hi = computeToolsetGateDigest H a' b' c' d' lo' hi') :
    a = a' ∧ b = b' ∧ c = c' ∧ d = d' ∧ lo = lo' ∧ hi = hi' := by
  simp only [Content.fields, short_cons] at hshort hshort'
  have hmessage := append_cancel_left (hH.sha256 h)
  obtain ⟨ea, hmessage⟩ := text_append_inj hshort.1 hshort'.1 hmessage
  obtain ⟨eb, hmessage⟩ := text_append_inj hshort.2.1 hshort'.2.1 hmessage
  obtain ⟨ec, hmessage⟩ := text_append_inj hshort.2.2.1 hshort'.2.2.1 hmessage
  obtain ⟨ed, hmessage⟩ := text_append_inj hshort.2.2.2.1 hshort'.2.2.2.1 hmessage
  obtain ⟨elo, hmessage⟩ := i64Bytes_append_inj hmessage
  have hend : i64Bytes hi ++ ([] : List (Sym D)) = i64Bytes hi' ++ [] := by
    exact hmessage
  exact ⟨ea, eb, ec, ed, elo, (i64Bytes_append_inj hend).1⟩

theorem clawbackOptIn_inj (hH : H.Injective) {a b : String}
    (hshort : Short (Content.clawbackOptIn a b c).fields)
    (hshort' : Short (Content.clawbackOptIn a' b' c').fields)
    (h : computeTrustlineClawbackOptInDigest H a b c =
      computeTrustlineClawbackOptInDigest H a' b' c') :
    a = a' ∧ b = b' ∧ c = c' := by
  simp only [Content.fields, short_cons] at hshort hshort'
  have hmessage := append_cancel_left (hH.sha256 h)
  obtain ⟨ea, hmessage⟩ := text_append_inj hshort.1 hshort'.1 hmessage
  obtain ⟨eb, hmessage⟩ := text_append_inj hshort.2.1 hshort'.2.1 hmessage
  exact ⟨ea, eb, utf8_injective (field_inj hshort.2.2.1 hshort'.2.2.1 hmessage)⟩

theorem ruleProposal_inj (hH : H.Injective) {c a' b' c' : List UInt8} {flags flags' : UInt8}
    (hshort : Short (Content.ruleProposal a b c flags).fields)
    (hshort' : Short (Content.ruleProposal a' b' c' flags').fields)
    (h : computeRuleProposalDigest H a b c flags = computeRuleProposalDigest H a' b' c' flags') :
    a = a' ∧ b = b' ∧ c = c' ∧ flags = flags' := by
  simp only [Content.fields, short_cons] at hshort hshort'
  have hmessage := append_cancel_left (hH.sha256 h)
  obtain ⟨ea, hmessage⟩ := field_append_inj hshort.1 hshort'.1 hmessage
  obtain ⟨eb, hmessage⟩ := field_append_inj hshort.2.1 hshort'.2.1 hmessage
  obtain ⟨ec, hmessage⟩ := field_append_inj hshort.2.2.1 hshort'.2.2.1 hmessage
  exact ⟨ea, eb, ec, (List.cons.inj (bytes_injective hmessage)).1⟩

theorem take_eq_of_message (htag : 16 ≤ tag.length) (htag' : 16 ≤ tag'.length)
    (h : bytes tag ++ u = bytes tag' ++ v) : tag.take 16 = tag'.take 16 := by
  have htake := congrArg (List.take 16) h
  rw [take_append_of_le_length (by simpa using htag),
    take_append_of_le_length (by simpa using htag')] at htake
  refine bytes_injective (D := D) ?_
  unfold bytes at htake ⊢
  rw [map_take, map_take]
  exact htake

theorem envelope_ne_message (htag : tag.head? = some 115) :
    (bytes envelope.1 : List (Sym D)) ≠ bytes tag ++ u := by
  intro h
  obtain ⟨l, discriminant, hmem, rest, rfl⟩ := envelope
  obtain ⟨tail, rfl⟩ : ∃ tail, tag = 115 :: tail := by
    rcases tag with _ | ⟨b, tail⟩
    · cases htag
    · exact ⟨tail, by rw [Option.some.inj htag]⟩
  fin_cases hmem <;> simp [bytes] at h

/-! ## Two kinds -/

section

variable (hH : H.Injective)
include hH

theorem tagged_ne (htag : 16 ≤ tag.length) (htag' : 16 ≤ tag'.length)
    (hne : tag.take 16 ≠ tag'.take 16) :
    H.sha256 (bytes tag ++ u) ≠ H.sha256 (bytes tag' ++ v) := by
  intro h
  exact hne (take_eq_of_message htag htag' (hH.sha256 h))

theorem toolsetGate_ne_clawbackOptIn : H.sha256 (bytes toolsetGateDomainTag ++ u) ≠
      H.sha256 (bytes trustlineClawbackOptInDomainTag ++ v) :=
  tagged_ne hH (by decide +kernel) (by decide +kernel) (by decide +kernel)

theorem toolsetGate_ne_ruleProposal :
    H.sha256 (bytes toolsetGateDomainTag ++ u) ≠ H.sha256 (bytes ruleProposalDomainTag ++ v) :=
  tagged_ne hH (by decide +kernel) (by decide +kernel) (by decide +kernel)

theorem clawbackOptIn_ne_ruleProposal : H.sha256 (bytes trustlineClawbackOptInDomainTag ++ u) ≠
      H.sha256 (bytes ruleProposalDomainTag ++ v) :=
  tagged_ne hH (by decide +kernel) (by decide +kernel) (by decide +kernel)

theorem envelope_ne_tagged (htag : tag.head? = some 115) :
    envelopeSha256 H envelope.1 ≠ H.sha256 (bytes tag ++ u) :=
  fun h => envelope_ne_message htag (hH.sha256 h)

end

/-- **The messages of the subjects.** -/
theorem content_eq_of_digest_eq (hH : H.Injective) {s t : Content} (hs : Short s.fields)
    (ht : Short t.fields) (h : s.digest H = t.digest H) : s = t := by
  cases s with
  | envelope e =>
    cases t with
    | envelope f => rw [Subtype.ext (bytes_injective (hH.sha256 h) : e.1 = f.1)]
    | toolsetGate | clawbackOptIn | ruleProposal =>
      exact absurd h (envelope_ne_tagged hH (by decide +kernel))
  | toolsetGate a b c d lo hi =>
    cases t with
    | envelope => exact absurd h.symm (envelope_ne_tagged hH (by decide +kernel))
    | toolsetGate a' b' c' d' lo' hi' =>
      obtain ⟨rfl, rfl, rfl, rfl, rfl, rfl⟩ := toolsetGate_inj hH hs ht h
      rfl
    | clawbackOptIn => exact absurd h (toolsetGate_ne_clawbackOptIn hH)
    | ruleProposal => exact absurd h (toolsetGate_ne_ruleProposal hH)
  | clawbackOptIn a b c =>
    cases t with
    | envelope => exact absurd h.symm (envelope_ne_tagged hH (by decide +kernel))
    | toolsetGate => exact absurd h.symm (toolsetGate_ne_clawbackOptIn hH)
    | clawbackOptIn a' b' c' =>
      obtain ⟨rfl, rfl, rfl⟩ := clawbackOptIn_inj hH hs ht h
      rfl
    | ruleProposal => exact absurd h (clawbackOptIn_ne_ruleProposal hH)
  | ruleProposal a b c flags =>
    cases t with
    | envelope => exact absurd h.symm (envelope_ne_tagged hH (by decide +kernel))
    | toolsetGate => exact absurd h.symm (toolsetGate_ne_ruleProposal hH)
    | clawbackOptIn => exact absurd h.symm (clawbackOptIn_ne_ruleProposal hH)
    | ruleProposal a' b' c' flags' =>
      obtain ⟨rfl, rfl, rfl, rfl⟩ := ruleProposal_inj hH hs ht h
      rfl

end

/-! ## What an attestation authorises -/

/-- **An attestation authorises exactly one thing.**  Two attestations under one key with the same
blob are of the same profile, chain, nonce, digest and process, and two subjects with the same
digest are of the same kind with the same fields. -/
theorem attestation_binds {D T : Type} (H : Hashes D T) (hH : H.Injective) :
    (∀ (key : Key) (input input' : AttestationInput D), Short input.fields → Short input'.fields →
      computeAttestation H key input = computeAttestation H key input' → input = input') ∧
    ∀ s t : Subject, Short s.content.fields → Short t.content.fields →
      s.digest H = t.digest H → s.content = t.content := by
  exact ⟨fun _ _ _ hshort hshort' h => attestationInput_inj hH hshort hshort' h,
    fun _ _ hs ht h => content_eq_of_digest_eq hH hs ht h⟩

/-- Hashes without collisions: every message is its own digest. -/
inductive Plain where
  | mk (message : List (Sym Plain))

def plainHashes : Hashes Plain (Key × List (Sym Plain)) where
  sha256 := .mk
  hmac key message := (key, message)

theorem plainHashes_injective : plainHashes.Injective :=
  ⟨fun _ _ h => Plain.mk.inj h, fun _ _ _ h => (Prod.mk.inj h).2⟩

def zeroKey : Key := ⟨List.replicate 32 0, by decide⟩

def grantUpTo (max : Int64) : Subject := .toolsetGate "swap" "pay" "G" "native" 0 max

def attested (digest : Plain) : AttestationInput Plain :=
  ⟨⟨"default", "stellar:testnet"⟩, "nonce", digest, "1000"⟩

/-- Grants with different limits have different digests, and so different attestations. -/
theorem grants_attested_apart :
    (grantUpTo 5).digest plainHashes ≠ (grantUpTo 6).digest plainHashes ∧
    computeAttestation plainHashes zeroKey (attested ((grantUpTo 5).digest plainHashes)) ≠
      computeAttestation plainHashes zeroKey (attested ((grantUpTo 6).digest plainHashes)) := by
  have hgrants : (grantUpTo 5).digest plainHashes ≠ (grantUpTo 6).digest plainHashes := by
    intro h
    have hcontent := (attestation_binds plainHashes plainHashes_injective).2 (grantUpTo 5)
      (grantUpTo 6) (by decide +kernel) (by decide +kernel) h
    exact absurd (Content.toolsetGate.inj hcontent).2.2.2.2.2 (by decide)
  refine ⟨hgrants, fun h => hgrants ?_⟩
  exact congrArg AttestationInput.envelopeSha256
    ((attestation_binds plainHashes plainHashes_injective).1 zeroKey (attested _) (attested _)
      (by decide +kernel) (by decide +kernel) h)

end AgentWallet.Approval.Attestation
