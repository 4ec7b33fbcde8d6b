import AgentWallet.Base.Utf8
import AgentWallet.Network.SubmissionRecord

/-!
# The key of an envelope

`submit_transaction_idempotent` keys its record of an envelope by `SHA-256` over the base64 text it
is handed.  The text is trimmed before it is decoded but not before it is hashed, so an envelope has
one key for each way of putting white space around its text (`key_identifies_iff`).
-/

namespace AgentWallet.Network.EnvelopeKey

open Base Base.Utf8 Profile.Receipt SubmissionRecord Base.Checks

/-- The code outside the wallet: `SHA-256` in hexadecimal, standard base64 that refuses padding bits
other than zero, and the reader of a `TransactionEnvelope`. -/
structure Codecs (E : Type) where
  sha256Hex : List UInt8 → String
  base64 : List Char → Option (List UInt8)
  fromXdr : List UInt8 → Option E
  sha256Hex_injective : sha256Hex.Injective
  base64_canonical : ∀ s t bytes, base64 s = some bytes → base64 t = some bytes → s = t

variable {E : Type} {C : Codecs E} {s t : List Char} {e e' : E} {key key' : String}

def base64Decode (C : Codecs E) (s : List Char) : Except WalletError (List UInt8) :=
  okOr (C.base64 (trim s)) .xdrCodecFailed

def envelopeHashHex (C : Codecs E) (envelopeXdr : List Char) : String :=
  C.sha256Hex (encode envelopeXdr)

def decodeAndHashEnvelope (C : Codecs E) (envelopeXdr : List Char) :
    Except WalletError (E × String) := do
  let xdrBytes ← base64Decode C envelopeXdr
  let envelopeHash := envelopeHashHex C envelopeXdr
  let envelope ← okOr (C.fromXdr xdrBytes) .xdrCodecFailed
  return (envelope, envelopeHash)

theorem decodeAndHashEnvelope_eq_ok (h : decodeAndHashEnvelope C s = .ok (e, key)) :
    (∃ bytes, C.base64 (trim s) = some bytes ∧ C.fromXdr bytes = some e) ∧
      key = envelopeHashHex C s := by
  obtain ⟨bytes, hb, h⟩ := bind_eq_ok_iff.1 h
  obtain ⟨envelope, hx, h⟩ := bind_eq_ok_iff.1 h
  cases h
  exact ⟨⟨bytes, okOr_eq_ok_iff.1 hb, okOr_eq_ok_iff.1 hx⟩, rfl⟩

section

variable (hs : decodeAndHashEnvelope C s = .ok (e, key))
  (ht : decodeAndHashEnvelope C t = .ok (e', key'))
include hs ht

theorem envelope_of_trim (h : trim s = trim t) : e = e' := by
  obtain ⟨⟨b, hb, hx⟩, -⟩ := decodeAndHashEnvelope_eq_ok hs
  obtain ⟨⟨c, hc, hy⟩, -⟩ := decodeAndHashEnvelope_eq_ok ht
  rw [h, hc] at hb
  cases hb
  exact Option.some.inj (hx.symm.trans hy)

theorem key_eq_iff : key = key' ↔ s = t := by
  rw [(decodeAndHashEnvelope_eq_ok hs).2, (decodeAndHashEnvelope_eq_ok ht).2]
  refine ⟨fun h => ?_, fun h => by rw [h]⟩
  have hdecode := congrArg decode (C.sha256Hex_injective h)
  rw [decode_encode, decode_encode] at hdecode
  exact Option.some.inj hdecode

end

/-- One envelope, one record: wherever its first submission begins a record, a second one finds
it. -/
def OneRecord (key key' : String) : Prop :=
  ∀ (id id' : Identity) (map map' : ReceiptMap), id.envelopeHash = key → id'.envelopeHash = key' →
    tryBegin map id = .ok (.winner, some map') →
      tryBegin map' id' = .ok (.alreadyPresent (pendingReceipt id none), none)

theorem oneRecord_self (key : String) : OneRecord key key := by
  rintro id id' map map' rfl hid' h
  unfold tryBegin at h ⊢
  rcases hl : map.lookup id.envelopeHash with - | existing
  · simp only [hl, Except.ok.injEq, Prod.mk.injEq, Option.some.injEq, true_and] at h
    rw [← h, hid', AList.lookup_insert]
  · simp [hl] at h

/-- The two texts are not two spellings of one envelope: they differ in more than the white space
around them, and the reader does not take two byte strings for one envelope. -/
structure OneSpelling (C : Codecs E) (s t : List Char) : Prop where
  text : trim s = trim t → s = t
  bytes : ∀ b c, C.base64 (trim s) = some b → C.base64 (trim t) = some c →
    C.fromXdr b = C.fromXdr c → b = c

/-- **When the key identifies the envelope.** -/
theorem key_identifies_iff (hs : decodeAndHashEnvelope C s = .ok (e, key))
    (ht : decodeAndHashEnvelope C t = .ok (e', key')) :
    ((key = key' ↔ e = e') ∧ (e = e' → OneRecord key key')) ↔ OneSpelling C s t := by
  obtain ⟨⟨b, hb, hx⟩, -⟩ := decodeAndHashEnvelope_eq_ok hs
  obtain ⟨⟨c, hc, hy⟩, -⟩ := decodeAndHashEnvelope_eq_ok ht
  rw [key_eq_iff hs ht]
  constructor
  · rintro ⟨hiff, -⟩
    refine ⟨fun htrim => hiff.2 (envelope_of_trim hs ht htrim), fun b' c' hb' hc' hread => ?_⟩
    cases hb.symm.trans hb'
    cases hc.symm.trans hc'
    obtain rfl := hiff.2 (Option.some.inj (hx.symm.trans (hread.trans hy)))
    exact Option.some.inj (hb.symm.trans hc)
  · intro h
    have hsame : e = e' → s = t := by
      rintro rfl
      obtain rfl := h.bytes b c hb hc (hx.trans hy.symm)
      exact h.text (C.base64_canonical _ _ b hb hc)
    refine ⟨⟨fun hst => envelope_of_trim hs ht (congrArg trim hst), hsame⟩, fun he => ?_⟩
    rw [← (key_eq_iff hs ht).2 (hsame he)]
    exact oneRecord_self key

/-! ## A small envelope -/

def alphabet : List Char :=
  "ABCDEFGHIJKLMNOPQRSTUVWXYZabcdefghijklmnopqrstuvwxyz0123456789+/".toList

/-- Six bits as a character. -/
def sextet (n : ℕ) : Char := alphabet.getD n '='

def toBase64 : List ℕ → List Char
  | [] => []
  | [a] => [sextet (a / 4), sextet (a % 4 * 16), '=', '=']
  | [a, b] => [sextet (a / 4), sextet (a % 4 * 16 + b / 16), sextet (b % 16 * 4), '=']
  | a :: b :: c :: rest => sextet (a / 4) :: sextet (a % 4 * 16 + b / 16) ::
      sextet (b % 16 * 4 + c / 64) :: sextet (c % 64) :: toBase64 rest

/-- The bytes of a text in groups of four characters. -/
def groups : List Char → List ℕ
  | a :: b :: c :: d :: rest =>
    let byte₁ := alphabet.idxOf a * 4 + alphabet.idxOf b / 16
    let byte₂ := alphabet.idxOf b % 16 * 16 + alphabet.idxOf c / 4
    let byte₃ := alphabet.idxOf c % 4 * 64 + alphabet.idxOf d
    (byte₁ :: ((if c = '=' then [] else [byte₂]) ++ if d = '=' then [] else [byte₃])) ++ groups rest
  | _ => []

/-- An `XDR` union with an opaque body. -/
structure SmallEnvelope where
  tag : ℕ
  body : List UInt8
deriving DecidableEq

def word (n : ℕ) : List UInt8 := [24, 16, 8, 0].map fun shift => UInt8.ofNat (n / 2 ^ shift)

def number (bytes : List UInt8) : ℕ := bytes.foldl (fun n byte => n * 256 + byte.toNat) 0

/-- The body is padded with zeros to words. -/
def SmallEnvelope.toXdr (e : SmallEnvelope) : List UInt8 :=
  word e.tag ++ word e.body.length ++ e.body ++ List.replicate ((4 - e.body.length % 4) % 4) 0

/-- Base64 and `XDR` readers that accept what the writers give. -/
def smallCodecs : Codecs SmallEnvelope where
  sha256Hex b := String.ofList (b.map char)
  base64 s :=
    let bytes := (groups s).map UInt8.ofNat
    if toBase64 (bytes.map UInt8.toNat) = s then some bytes else none
  fromXdr bytes :=
    let e : SmallEnvelope :=
      ⟨number (bytes.take 4), (bytes.drop 8).take (number ((bytes.drop 4).take 4))⟩
    if e.toXdr = bytes then some e else none
  sha256Hex_injective b c h :=
    List.map_injective_iff.2 (fun x y hxy => by
      have hall : ∀ n < 256, (char (UInt8.ofNat n)).toNat = n := by decide +kernel
      have hx := hall x.toNat x.toNat_lt
      have hy := hall y.toNat y.toNat_lt
      rw [UInt8.ofNat_toNat] at hx hy
      exact UInt8.toNat_inj.1 (by rw [← hx, ← hy, hxy])) (String.ofList_injective h)
  base64_canonical s t bytes hs ht := by
    obtain ⟨hs, hbytes⟩ := Option.ite_none_right_eq_some.1 hs
    obtain ⟨ht, hbytes'⟩ := Option.ite_none_right_eq_some.1 ht
    rw [← hs, ← ht, Option.some.inj hbytes, Option.some.inj hbytes']

def smallText : List Char := "AAAAAgAAAAEHAAAA".toList

def otherText : List Char := "AAAAAgAAAAEIAAAA".toList

/-- A text and the same text after a blank: one envelope under two keys, two records. -/
theorem blank_two_keys : ∃ key key',
    decodeAndHashEnvelope smallCodecs smallText = .ok (⟨2, [7]⟩, key) ∧
    decodeAndHashEnvelope smallCodecs (' ' :: smallText) = .ok (⟨2, [7]⟩, key') ∧
    ¬ OneRecord key key' := by
  refine ⟨"AAAAAgAAAAEHAAAA", " AAAAAgAAAAEHAAAA", by decide +kernel, by decide +kernel, fun h => ?_⟩
  have hno := h ⟨"AAAAAgAAAAEHAAAA", "", "", 0, 0, 0⟩ ⟨" AAAAAgAAAAEHAAAA", "", "", 0, 0, 0⟩ ∅ _ rfl
    rfl rfl
  exact absurd hno (by decide +kernel)

/-- Two envelopes have two keys. -/
theorem other_key_identifies : ∃ key key',
    decodeAndHashEnvelope smallCodecs smallText = .ok (⟨2, [7]⟩, key) ∧
    decodeAndHashEnvelope smallCodecs otherText = .ok (⟨2, [8]⟩, key') ∧
    (key = key' ↔ (⟨2, [7]⟩ : SmallEnvelope) = ⟨2, [8]⟩) := by
  have hs : decodeAndHashEnvelope smallCodecs smallText =
      .ok (⟨2, [7]⟩, "AAAAAgAAAAEHAAAA") := by decide +kernel
  have ht : decodeAndHashEnvelope smallCodecs otherText =
      .ok (⟨2, [8]⟩, "AAAAAgAAAAEIAAAA") := by decide +kernel
  refine ⟨_, _, hs, ht, ((key_identifies_iff hs ht).2 ⟨by decide +kernel, ?_⟩).1⟩
  have hbytes : smallCodecs.base64 (trim smallText) = some (SmallEnvelope.toXdr ⟨2, [7]⟩) ∧
      smallCodecs.base64 (trim otherText) = some (SmallEnvelope.toXdr ⟨2, [8]⟩) ∧
      smallCodecs.fromXdr (SmallEnvelope.toXdr ⟨2, [7]⟩) ≠
        smallCodecs.fromXdr (SmallEnvelope.toXdr ⟨2, [8]⟩) := by decide +kernel
  intro b c hb hc hread
  cases hbytes.1.symm.trans hb
  cases hbytes.2.1.symm.trans hc
  exact absurd hread hbytes.2.2

end AgentWallet.Network.EnvelopeKey
