import Mathlib

/-!
# UTF-8 texts in a file

`decode` reads bytes as UTF-8 and `encode` is its inverse.  `isBlank` and `trim` follow the Unicode
`White_Space` property; a blank text holds no other ASCII byte than white space
(`notMem_of_isBlank`), and a text of printable ASCII bytes in front of a line feed is what `trim`
leaves (`trimmed_of_printable`).
-/

namespace AgentWallet.Base.Utf8

open List

variable {l : List UInt8} {b : UInt8} {s : List Char}

instance lawfulBEqText : LawfulBEq (List Char) := inferInstance

def decode (l : List UInt8) : Option (List Char) :=
  (ByteArray.utf8Decode? ⟨l.toArray⟩).map Array.toList

def encode (s : List Char) : List UInt8 := s.flatMap String.utf8EncodeChar

/-- The code points with the `White_Space` property. -/
def whiteSpace : List ℕ :=
  [9, 10, 11, 12, 13, 32, 0x85, 0xA0, 0x1680, 0x2000, 0x2001, 0x2002, 0x2003, 0x2004, 0x2005,
    0x2006, 0x2007, 0x2008, 0x2009, 0x200A, 0x2028, 0x2029, 0x202F, 0x205F, 0x3000]

def isWhiteSpace (c : Char) : Bool := decide (c.toNat ∈ whiteSpace)

def isBlank (s : List Char) : Bool := s.all isWhiteSpace

def trim (s : List Char) : List Char := (s.dropWhile isWhiteSpace).rdropWhile isWhiteSpace

theorem decode_encode (s : List Char) : decode (encode s) = some s := by
  have h : (⟨(encode s).toArray⟩ : ByteArray) = s.utf8Encode := by
    apply ByteArray.ext
    simp [encode, List.utf8Encode]
  unfold decode
  rw [h]
  simp

theorem encode_of_decode (h : decode l = some s) : encode s = l := by
  obtain ⟨a, ha, rfl⟩ := Option.map_eq_some_iff.1 h
  have hsome : (ByteArray.utf8Decode? ⟨l.toArray⟩).isSome = true := by rw [ha]; rfl
  have hback := ByteArray.utf8Encode_get_utf8Decode? (h := hsome)
  have hget : (ByteArray.utf8Decode? ⟨l.toArray⟩).get hsome = a := by simp [ha]
  rw [hget] at hback
  have hdata := congrArg (fun b : ByteArray => b.data.toList) hback
  simpa [List.utf8Encode, encode] using hdata

theorem encode_append (s t : List Char) : encode (s ++ t) = encode s ++ encode t :=
  flatMap_append

theorem notMem_encode_whiteSpace (hb : 33 ≤ b ∧ b < 128) {c : Char} (hc : isWhiteSpace c = true) :
    b ∉ String.utf8EncodeChar c := by
  have hmem : c.toNat ∈ whiteSpace := of_decide_eq_true hc
  have hall : ∀ n ∈ whiteSpace, ∀ x ∈ String.utf8EncodeChar (Char.ofNat n), x < 33 ∨ 128 ≤ x := by
    decide +kernel
  intro hin
  rw [← Char.ofNat_toNat c] at hin
  rcases hall _ hmem b hin with h | h
  · exact absurd hb.1 (by simpa using h)
  · exact absurd hb.2 (by simpa using h)

theorem notMem_of_isBlank (hb : 33 ≤ b ∧ b < 128) (hs : isBlank s = true) : b ∉ encode s := by
  intro hin
  obtain ⟨c, hc, hbc⟩ := mem_flatMap.1 hin
  exact notMem_encode_whiteSpace hb (all_eq_true.1 hs c hc) hbc

/-! ## Printable ASCII -/

def char (b : UInt8) : Char := Char.ofNat b.toNat

theorem printable_ascii : ∀ n < 128, 33 ≤ n →
    String.utf8EncodeChar (char (UInt8.ofNat n)) = [UInt8.ofNat n] ∧
      isWhiteSpace (char (UInt8.ofNat n)) = false := by
  decide +kernel

theorem printable_byte (hb : 33 ≤ b ∧ b < 128) :
    String.utf8EncodeChar (char b) = [b] ∧ isWhiteSpace (char b) = false := by
  have h := printable_ascii b.toNat hb.2 hb.1
  rwa [UInt8.ofNat_toNat] at h

section

variable (hl : ∀ b ∈ l, 33 ≤ b ∧ b < 128)
include hl

theorem encode_map_char : encode (l.map char) = l := by
  induction l with
  | nil => rfl
  | cons b l ih =>
    have hb := (printable_byte (hl b mem_cons_self)).1
    have ih := ih fun c hc => hl c (mem_cons_of_mem _ hc)
    unfold encode at ih ⊢
    rw [map_cons, flatMap_cons, hb, ih]
    rfl

theorem trim_map_char : trim (l.map char ++ ['\n']) = l.map char := by
  have hnot : ∀ c ∈ l.map char, isWhiteSpace c = false := fun c hc => by
    obtain ⟨b, hb, rfl⟩ := mem_map.1 hc
    exact (printable_byte (hl b hb)).2
  have hlast : ∀ h : l.map char ≠ [], ¬ isWhiteSpace ((l.map char).getLast h) = true := fun h => by
    rw [hnot _ (getLast_mem h)]
    exact Bool.false_ne_true
  have hself : (l.map char).rdropWhile isWhiteSpace = l.map char :=
    rdropWhile_eq_self_iff.2 hlast
  unfold trim
  cases l with
  | nil => decide
  | cons b l =>
    have hhead : isWhiteSpace (char b) = false := hnot _ (by simp)
    rw [map_cons, cons_append, dropWhile_cons_of_neg (by simp [hhead]), ← cons_append, ← map_cons,
      rdropWhile_concat_pos _ _ _ (by decide), hself]

/-- **What is read of a printable text in front of a line feed.** -/
theorem trimmed_of_printable : (decode (l ++ [10])).map (fun s => encode (trim s)) = some l := by
  have hbytes : l ++ [10] = encode (l.map char ++ ['\n']) := by
    rw [encode_append, encode_map_char hl]
    rfl
  rw [hbytes, decode_encode, Option.map_some, trim_map_char hl, encode_map_char hl]

end

end AgentWallet.Base.Utf8
