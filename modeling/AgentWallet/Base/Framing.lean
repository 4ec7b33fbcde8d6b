import Mathlib

/-!
# Messages for a keyed hash

A message that is hashed or tagged is a list of symbols: bytes, and digests of another hash
function, which take a fixed number of bytes and so stand as one symbol each (`Sym`).  Fields of a
fixed width are written as they are; a field of variable length is written behind its length as four
big-endian bytes (`frame`).

The rules that split an equality of two messages into equalities of their fields, one field at a
time:
-/

namespace AgentWallet.Base.Framing

open List

variable {a b : List UInt8} {n m : Int64}

inductive Sym (D : Type*) where
  | byte (b : UInt8)
  | digest (d : D)
deriving DecidableEq

variable {D : Type*}

def bytes (l : List UInt8) : List (Sym D) := l.map .byte

def utf8 (s : String) : List UInt8 := s.toByteArray.data.toList

/-- The last `width` bytes of a number, the most significant one first. -/
def beBytes : ℕ → ℕ → List UInt8
  | 0, _ => []
  | width + 1, n => UInt8.ofNat (n / 256 ^ width) :: beBytes width n

/-- The eight bytes of a signed number, in two's complement. -/
def i64Bytes (n : Int64) : List (Sym D) := bytes (beBytes 8 n.toUInt64.toNat)

/-- A field of variable length: its length, then its bytes. -/
def frame (l : List UInt8) : List (Sym D) := bytes (beBytes 4 l.length) ++ bytes l

theorem bytes_injective : Function.Injective (bytes (D := D)) :=
  map_injective_iff.2 fun _ _ h => Sym.byte.inj h

theorem utf8_injective : utf8.Injective := by
  intro s t h
  have hdata : s.toByteArray.data = t.toByteArray.data := Array.toList_inj.1 h
  exact String.toByteArray_inj.1 (ByteArray.ext hdata)

instance countableString : Countable String := utf8_injective.countable

@[simp] theorem length_bytes (l : List UInt8) : (bytes (D := D) l).length = l.length :=
  length_map _

@[simp] theorem length_beBytes : ∀ width n : ℕ, (beBytes width n).length = width
  | 0, _ => rfl
  | width + 1, n => by rw [beBytes, length_cons, length_beBytes width n]

theorem mod_eq_of_beBytes : ∀ {width n m : ℕ}, beBytes width n = beBytes width m →
    n % 256 ^ width = m % 256 ^ width
  | 0, n, m, _ => by omega
  | width + 1, n, m, h => by
    obtain ⟨hhead, htail⟩ := List.cons.inj h
    have ih := mod_eq_of_beBytes htail
    have hbyte : n / 256 ^ width % 256 = m / 256 ^ width % 256 := by
      simpa using congrArg UInt8.toNat hhead
    have hn := Nat.mod_pow_succ (b := 256) (k := width) (x := n)
    have hm := Nat.mod_pow_succ (b := 256) (k := width) (x := m)
    rw [hn, hm, ih, hbyte]

theorem beBytes_inj {width n m : ℕ} (hn : n < 256 ^ width) (hm : m < 256 ^ width)
    (h : beBytes width n = beBytes width m) : n = m := by
  have hmod := mod_eq_of_beBytes h
  rwa [Nat.mod_eq_of_lt hn, Nat.mod_eq_of_lt hm] at hmod

variable {u v : List (Sym D)}

theorem fixed_append_inj (hlen : a.length = b.length) (h : bytes a ++ u = bytes b ++ v) :
    a = b ∧ u = v := by
  obtain ⟨hab, huv⟩ := append_inj h (by simpa using hlen)
  exact ⟨bytes_injective hab, huv⟩

theorem i64Bytes_injective : Function.Injective (i64Bytes (D := D)) := by
  intro n m h
  have hlt : ∀ k : Int64, k.toUInt64.toNat < 256 ^ 8 := fun k => by
    have hk := k.toUInt64.toNat_lt
    norm_num at hk ⊢
    exact hk
  have hnat := beBytes_inj (hlt n) (hlt m) (bytes_injective h)
  have hwords : n.toUInt64 = m.toUInt64 := UInt64.toNat_inj.1 hnat
  exact congrArg Int64.ofUInt64 hwords

@[simp] theorem length_i64Bytes (n : Int64) : (i64Bytes (D := D) n).length = 8 := by
  unfold i64Bytes
  rw [length_bytes, length_beBytes]

theorem i64Bytes_append_inj (h : i64Bytes n ++ u = i64Bytes m ++ v) : n = m ∧ u = v := by
  obtain ⟨hbytes, hrest⟩ := append_inj h (by simp)
  exact ⟨i64Bytes_injective hbytes, hrest⟩

theorem append_i64Bytes_inj (h : u ++ i64Bytes n = v ++ i64Bytes m) : u = v ∧ n = m := by
  obtain ⟨hrest, hbytes⟩ := append_inj' h (by simp)
  exact ⟨hrest, i64Bytes_injective hbytes⟩

theorem digest_cons_inj {d e : D} (h : Sym.digest d :: u = Sym.digest e :: v) : d = e ∧ u = v := by
  obtain ⟨hd, huv⟩ := List.cons.inj h
  exact ⟨Sym.digest.inj hd, huv⟩

theorem frame_append_inj (ha : a.length < 2 ^ 32) (hb : b.length < 2 ^ 32)
    (h : frame a ++ u = frame b ++ v) : a = b ∧ u = v := by
  unfold frame at h
  rw [append_assoc, append_assoc] at h
  obtain ⟨hlens, hrest⟩ := fixed_append_inj (by simp) h
  have hlen : a.length = b.length := beBytes_inj (by norm_num; omega) (by norm_num; omega) hlens
  exact fixed_append_inj hlen hrest

end AgentWallet.Base.Framing
