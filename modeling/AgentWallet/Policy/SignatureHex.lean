import AgentWallet.Base.Framing

/-!
# The hex text of a policy signature

`hex_to_bytes` and `decode_hex_sig` of the policy loader.  The decoder cuts the text at even byte
offsets, which panics inside a character, and hands each pair to `u8::from_str_radix`, which also
takes a plus sign.  `hexToBytes_exact_iff` names the texts on which it is not a hex decoder.
-/

namespace AgentWallet.Policy.SignatureHex

open Base.Framing List

inductive Panic where
  | sliceInsideCharacter
deriving DecidableEq

inductive PolicyError where
  | ownerSignatureInvalid (profile : String) (rulesWithSignedOptionalKeys : List String)
  | other (text : String)

def hexDigit (b : UInt8) : Option ℕ :=
  if 48 ≤ b ∧ b ≤ 57 then some (b.toNat - 48)
  else if 65 ≤ b ∧ b ≤ 70 then some (b.toNat - 55)
  else if 97 ≤ b ∧ b ≤ 102 then some (b.toNat - 87)
  else none

/-- `u8::from_str_radix(.., 16)` on two bytes: a plus sign may stand in front of the digits. -/
def fromStrRadix (a b : UInt8) : Option UInt8 :=
  if a = 43 then (hexDigit b).map UInt8.ofNat
  else
    match hexDigit a, hexDigit b with
    | some hi, some lo => some (UInt8.ofNat (16 * hi + lo))
    | _, _ => none

/-- `str::is_char_boundary` in front of these bytes: no continuation byte follows. -/
def isCharBoundary (rest : List UInt8) : Bool :=
  rest.head?.all fun b => !(decide (128 ≤ b) && decide (b < 192))

/-- The pairs in turn; `collect` stops at the first one that is no number. -/
def hexPairs : List UInt8 → Except Panic (Option (List UInt8))
  | a :: b :: rest =>
    if isCharBoundary (a :: b :: rest) && isCharBoundary rest then
      match fromStrRadix a b with
      | some byte => (hexPairs rest).map (Option.map (byte :: ·))
      | none => .ok none
    else .error .sliceInsideCharacter
  | _ => .ok (some [])

def hexToBytes (s : String) : Except Panic (Option (List UInt8)) :=
  if (utf8 s).length % 2 ≠ 0 then .ok none else hexPairs (utf8 s)

def decodeHexSig (hex profile : String) : Except Panic (Except PolicyError (List UInt8)) :=
  (hexToBytes hex).map fun decoded =>
    match decoded with
    | some bytes => if bytes.length = 64 then .ok bytes
        else .error (.ownerSignatureInvalid profile [])
    | none => .error (.ownerSignatureInvalid profile [])

/-- What the loader finds around the signature: steps 1 to 5, the verification and the body. -/
structure Loader (α : Type) where
  sigHex : Except PolicyError String
  verify : List UInt8 → Except PolicyError Unit
  rulesWithSignedOptionalKeys : List String
  parsePolicyBody : Except PolicyError α

def loadSignedPolicy {α : Type} (l : Loader α) (profile : String) :
    Except Panic (Except PolicyError α) :=
  match l.sigHex with
  | .error e => .ok (.error e)
  | .ok sigHex =>
    (decodeHexSig sigHex profile).map fun decoded => do
      let sig ← decoded
      (l.verify sig).mapError fun e =>
        match e with
        | .ownerSignatureInvalid profile _ =>
          .ownerSignatureInvalid profile l.rulesWithSignedOptionalKeys
        | e => e
      l.parsePolicyBody

/-! ## Texts of hex digits -/

/-- The bytes that an even number of hex digits encodes. -/
def hexBytes : List UInt8 → Option (List UInt8)
  | [] => some []
  | [_] => none
  | a :: b :: rest =>
    match hexDigit a, hexDigit b with
    | some hi, some lo => (hexBytes rest).map (UInt8.ofNat (16 * hi + lo) :: ·)
    | _, _ => none

/-- A pair that `from_str_radix` takes. -/
def IsPair (a b : UInt8) : Prop := (a = 43 ∨ (hexDigit a).isSome) ∧ (hexDigit b).isSome

/-- Bytes that are such pairs, one after the other. -/
inductive Pairs : List UInt8 → Prop
  | nil : Pairs []
  | cons {a b : UInt8} {rest : List UInt8} : IsPair a b → Pairs rest → Pairs (a :: b :: rest)

/-- The first two bytes are not a slice between characters. -/
def Cut (text : List UInt8) : Prop :=
  2 ≤ text.length ∧ (isCharBoundary text && isCharBoundary (text.drop 2)) = false

/-- Pairs up to a pair that cuts a character, or pairs to the end and a sign among them. -/
def Misread (text : List UInt8) : Prop :=
  ∃ front rest, text = front ++ rest ∧ Pairs front ∧ (Cut rest ∨ rest = [] ∧ 43 ∈ front)

variable {a b : UInt8} {rest text : List UInt8}

theorem hexDigit_plus : hexDigit 43 = none := by decide

theorem isPair_of_fromStrRadix (h : (fromStrRadix a b).isSome = true) : IsPair a b := by
  unfold fromStrRadix at h
  unfold IsPair
  split_ifs at h with ha
  · exact ⟨.inl ha, by simpa using h⟩
  · rcases hhi : hexDigit a with - | hi
    · simp [hhi] at h
    · rcases hlo : hexDigit b with - | lo
      · simp [hlo] at h
      · exact ⟨.inr rfl, rfl⟩

theorem not_isPair (h : fromStrRadix a b = none) : ¬ IsPair a b := by
  rintro ⟨ha, hb⟩
  obtain ⟨lo, hlo⟩ := Option.isSome_iff_exists.1 hb
  unfold fromStrRadix at h
  split_ifs at h with hplus
  · simp [hlo] at h
  · obtain ⟨hi, hhi⟩ := Option.isSome_iff_exists.1 (ha.resolve_left hplus)
    simp [hhi, hlo] at h

/-- A split of a text whose first pair is no cut takes that pair. -/
theorem exists_pairs_cons {R : List UInt8 → List UInt8 → Prop} (h : ¬ R [] (a :: b :: rest)) :
    (∃ front back, a :: b :: rest = front ++ back ∧ Pairs front ∧ R front back) ↔
      IsPair a b ∧ ∃ front back, rest = front ++ back ∧ Pairs front ∧ R (a :: b :: front) back := by
  constructor
  · rintro ⟨front, back, htext, hpairs, hR⟩
    cases hpairs with
    | nil =>
      exact absurd (htext ▸ hR) h
    | cons hpair hpairs =>
      obtain ⟨rfl, rfl, rfl⟩ := htext
      exact ⟨hpair, _, _, rfl, hpairs, hR⟩
  · rintro ⟨hpair, front, back, rfl, hpairs, hR⟩
    exact ⟨_, back, rfl, .cons hpair hpairs, hR⟩

section

variable (heven : text.length % 2 = 0)
include heven

theorem eq_nil_of_short (h : ∀ a b rest, text = a :: b :: rest → False) : text = [] := by
  rcases text with - | ⟨a, - | ⟨b, rest⟩⟩
  · rfl
  · simp at heven
  · exact (h a b rest rfl).elim

/-- **Nothing is decoded** unless the pairs reach the end or a cut. -/
theorem hexPairs_eq_none_iff : hexPairs text = .ok none ↔
    ¬ ∃ front rest, text = front ++ rest ∧ Pairs front ∧ (Cut rest ∨ rest = []) := by
  fun_induction hexPairs text with
  | case1 a b rest hcut byte hbyte ih =>
    have hpair := isPair_of_fromStrRadix (Option.isSome_of_eq_some hbyte)
    rw [exists_pairs_cons (by simp_all [Cut]), and_iff_right hpair, ← ih (by simp at heven; omega)]
    rcases hexPairs rest with _ | _ | _ <;> simp [Except.map]
  | case2 a b rest hcut hbyte =>
    rw [exists_pairs_cons (by simp_all [Cut])]
    exact iff_of_true rfl fun h => not_isPair hbyte h.1
  | case3 a b rest hcut =>
    simp only [reduceCtorEq, false_iff, not_not]
    exact ⟨[], _, rfl, .nil, .inl ⟨by simp, by simpa using hcut⟩⟩
  | case4 text hshort =>
    obtain rfl := eq_nil_of_short heven hshort
    simp only [Except.ok.injEq, reduceCtorEq, false_iff, not_not]
    exact ⟨[], [], rfl, .nil, .inr rfl⟩

/-- **On pairs of bytes**: the decoder is the hex decoder unless it misreads the text. -/
theorem hexPairs_exact_iff : hexPairs text = .ok (hexBytes text) ↔ ¬ Misread text := by
  unfold Misread
  fun_induction hexPairs text with
  | case1 a b rest hcut byte hbyte ih =>
    have hrest : rest.length % 2 = 0 := by simp at heven; omega
    have hpair := isPair_of_fromStrRadix (Option.isSome_of_eq_some hbyte)
    obtain ⟨lo, hlo⟩ := Option.isSome_iff_exists.1 hpair.2
    rw [exists_pairs_cons (by simp_all [Cut]), and_iff_right hpair]
    by_cases hplus : a = 43
    · -- the sign is no digit: the text encodes nothing
      subst hplus
      have hnone : hexBytes (43 :: b :: rest) = none := by simp [hexBytes, hexDigit_plus]
      simp only [hnone, mem_cons, true_or, and_true, ← hexPairs_eq_none_iff hrest]
      rcases hexPairs rest with _ | _ | _ <;> simp [Except.map]
    · obtain ⟨hi, hhi⟩ := Option.isSome_iff_exists.1 (hpair.1.resolve_left hplus)
      have hb : (43 : UInt8) ≠ b := fun h => by simp [← h, hexDigit_plus] at hlo
      have hvalue : byte = UInt8.ofNat (16 * hi + lo) := by
        simpa [fromStrRadix, hplus, hhi, hlo] using hbyte.symm
      have hbytes : hexBytes (a :: b :: rest) = (hexBytes rest).map (byte :: ·) := by
        simp [hexBytes, hhi, hlo, hvalue]
      simp only [hbytes, mem_cons, Ne.symm hplus, hb, false_or, ← ih hrest]
      rcases hexPairs rest with _ | _ | _ <;> rcases hexBytes rest with _ | _ <;> simp [Except.map]
  | case2 a b rest hcut hbyte =>
    rw [exists_pairs_cons (by simp_all [Cut])]
    refine iff_of_true ?_ fun h => not_isPair hbyte h.1
    rcases hhi : hexDigit a with - | hi <;> rcases hlo : hexDigit b with - | lo <;>
      simp [hexBytes, hhi, hlo]
    refine absurd (⟨.inr ?_, ?_⟩ : IsPair a b) (not_isPair hbyte) <;> simp [hhi, hlo]
  | case3 a b rest hcut =>
    simp only [reduceCtorEq, false_iff, not_not]
    exact ⟨[], _, rfl, .nil, .inl ⟨by simp, by simpa using hcut⟩⟩
  | case4 text hshort =>
    obtain rfl := eq_nil_of_short heven hshort
    refine iff_of_true rfl ?_
    rintro ⟨front, rest, htext, -, hcut | ⟨-, hplus⟩⟩
    · obtain ⟨rfl, rfl⟩ := append_eq_nil_iff.1 htext.symm
      simp [Cut] at hcut
    · obtain ⟨rfl, rfl⟩ := append_eq_nil_iff.1 htext.symm
      cases hplus

end

theorem hexBytes_of_odd (h : text.length % 2 ≠ 0) : hexBytes text = none := by
  fun_induction hexBytes text with
  | case1 => simp at h
  | case2 => rfl
  | case3 a b rest hi hhi lo hlo ih =>
    rw [ih (by simp at h; omega)]
    rfl
  | case4 => rfl

/-- **The signature text.** The decoder answers as a hex decoder, and a malformed signature is
refused by the loader, exactly on the texts of odd length and on those it does not misread. -/
theorem hexToBytes_exact_iff (s profile : String) : (hexToBytes s = .ok (hexBytes (utf8 s)) ∧
      ∀ (α : Type) (l : Loader α), l.sigHex = .ok s →
        (∀ bytes, hexBytes (utf8 s) = some bytes → bytes.length ≠ 64) →
        loadSignedPolicy l profile = .ok (.error (.ownerSignatureInvalid profile []))) ↔
      ((utf8 s).length % 2 = 0 → ¬ Misread (utf8 s)) := by
  have hexact : hexToBytes s = .ok (hexBytes (utf8 s)) ↔
      ((utf8 s).length % 2 = 0 → ¬ Misread (utf8 s)) := by
    unfold hexToBytes
    split_ifs with hodd
    · rw [hexBytes_of_odd hodd]
      exact iff_of_true rfl fun h => absurd h hodd
    · have heven : (utf8 s).length % 2 = 0 := by omega
      rw [hexPairs_exact_iff heven, forall_prop_of_true heven]
  rw [← hexact]
  refine and_iff_left_of_imp fun h α l hsig hmalformed => ?_
  simp only [loadSignedPolicy, decodeHexSig, hsig, h]
  rcases hbytes : hexBytes (utf8 s) with - | bytes
  · rfl
  · simp only [Except.map, if_neg (hmalformed bytes hbytes)]
    rfl

/-- A plus sign is taken for a digit, and a character across an even offset panics. -/
theorem hexToBytes_misreads : hexToBytes "+f" = .ok (some [15]) ∧ hexBytes (utf8 "+f") = none ∧
      hexToBytes "0é0" = .error .sliceInsideCharacter ∧ hexBytes (utf8 "0é0") = none := by
  decide +kernel

end AgentWallet.Policy.SignatureHex
