import Mathlib

/-!
# Decimal numbers of a fixed width

`decimal width n` is the last `width` decimal digits of `n` as ASCII bytes, the most significant one
first, and `value` reads a text of digits back.  On numbers that fit, the order of the texts is the
order of the numbers (`decimal_lt`).
-/

namespace AgentWallet.Base.Decimal

open List

variable {width n m : ℕ} {b : UInt8} {a : List UInt8}

def isDigit (b : UInt8) : Bool := decide (48 ≤ b) && decide (b ≤ 57)

def digit (d : ℕ) : UInt8 := UInt8.ofNat (48 + d % 10)

/-- The last `width` digits of a number. -/
def decimal : ℕ → ℕ → List UInt8
  | 0, _ => []
  | width + 1, n => digit (n / 10 ^ width) :: decimal width n

def value (l : List UInt8) : ℕ := l.foldl (fun v b => 10 * v + (b.toNat - 48)) 0

theorem toNat_digit (d : ℕ) : (digit d).toNat = 48 + d % 10 := by
  have h : 48 + d % 10 < 2 ^ 8 := by omega
  exact UInt8.toNat_ofNat_of_lt h

theorem isDigit_digit (d : ℕ) : isDigit (digit d) = true := by
  have h := toNat_digit d
  simp only [isDigit, Bool.and_eq_true, decide_eq_true_eq, UInt8.le_iff_toNat_le]
  have h48 : (48 : UInt8).toNat = 48 := rfl
  have h57 : (57 : UInt8).toNat = 57 := rfl
  omega

@[simp] theorem length_decimal (width n : ℕ) : (decimal width n).length = width := by
  induction width with
  | zero => rfl
  | succ width ih => rw [decimal, length_cons, ih]

theorem isDigit_of_mem_decimal (h : b ∈ decimal width n) : isDigit b = true := by
  induction width with
  | zero => cases h
  | succ width ih =>
    rcases mem_cons.1 h with rfl | h
    · exact isDigit_digit _
    · exact ih h

theorem foldl_value_acc (l : List UInt8) (v : ℕ) :
    l.foldl (fun v b => 10 * v + (b.toNat - 48)) v = v * 10 ^ l.length + value l := by
  induction l generalizing v with
  | nil => simp [value]
  | cons b l ih =>
    unfold value
    rw [foldl_cons, foldl_cons, ih, ih (10 * 0 + _), length_cons]
    ring

theorem value_cons (b : UInt8) (l : List UInt8) :
    value (b :: l) = (b.toNat - 48) * 10 ^ l.length + value l := by
  have h : value (b :: l) = (10 * 0 + (b.toNat - 48)) * 10 ^ l.length + value l :=
    foldl_value_acc l _
  rw [h, Nat.zero_add]

theorem value_decimal_mod (width n : ℕ) : value (decimal width n) = n % 10 ^ width := by
  induction width with
  | zero => simp [decimal, value, Nat.mod_one]
  | succ width ih =>
    have hdigit : (digit (n / 10 ^ width)).toNat - 48 = n / 10 ^ width % 10 := by
      rw [toNat_digit]
      omega
    rw [decimal, value_cons, ih, hdigit, length_decimal, Nat.mod_pow_succ]
    ring

theorem value_decimal (h : n < 10 ^ width) : value (decimal width n) = n := by
  rw [value_decimal_mod, Nat.mod_eq_of_lt h]

theorem toNat_of_isDigit (h : isDigit b = true) : 48 ≤ b.toNat ∧ b.toNat ≤ 57 := by
  simp only [isDigit, Bool.and_eq_true, decide_eq_true_eq] at h
  exact h

theorem value_lt_pow {l : List UInt8} (h : ∀ b ∈ l, isDigit b = true) :
    value l < 10 ^ l.length := by
  induction l with
  | nil => simp [value]
  | cons b l ih =>
    have hb := toNat_of_isDigit (h b mem_cons_self)
    have hl := ih fun c hc => h c (mem_cons_of_mem _ hc)
    rw [value_cons, length_cons, pow_succ]
    nlinarith [Nat.mul_le_mul_right (10 ^ l.length) (show b.toNat - 48 ≤ 9 by omega)]

theorem value_lt_of_lt {b : List UInt8} (hlen : a.length = b.length)
    (ha : ∀ c ∈ a, isDigit c = true) (hb : ∀ c ∈ b, isDigit c = true) (h : a < b) :
    value a < value b := by
  induction a generalizing b with
  | nil =>
    obtain rfl : b = [] := length_eq_zero_iff.1 hlen.symm
    exact absurd h (List.lt_irrefl _)
  | cons x a ih =>
    cases b with
    | nil => cases hlen
    | cons y b =>
      have hlen' : a.length = b.length := by simpa using hlen
      have ha' : ∀ c ∈ a, isDigit c = true := fun c hc => ha c (mem_cons_of_mem _ hc)
      have hb' : ∀ c ∈ b, isDigit c = true := fun c hc => hb c (mem_cons_of_mem _ hc)
      rw [value_cons, value_cons, hlen']
      rcases cons_lt_cons_iff.1 h with hxy | ⟨rfl, hab⟩
      · have hx := toNat_of_isDigit (ha x mem_cons_self)
        have hlt := UInt8.lt_iff_toNat_lt.1 hxy
        have hrest := value_lt_pow ha'
        rw [hlen'] at hrest
        have hstep := Nat.mul_le_mul_right (10 ^ b.length)
          (show x.toNat - 48 + 1 ≤ y.toNat - 48 by omega)
        rw [Nat.add_mul] at hstep
        omega
      · exact Nat.add_lt_add_left (ih hlen' ha' hb' hab) _

theorem decimal_lt_of_mod (h : n % 10 ^ width < m % 10 ^ width) :
    decimal width n < decimal width m := by
  induction width with
  | zero => simp [Nat.mod_one] at h
  | succ width ih =>
    rw [decimal, decimal, cons_lt_cons_iff]
    rw [Nat.mod_pow_succ, Nat.mod_pow_succ] at h
    have hn' := toNat_digit (n / 10 ^ width)
    have hm' := toNat_digit (m / 10 ^ width)
    rcases Nat.lt_trichotomy (n / 10 ^ width % 10) (m / 10 ^ width % 10) with hlt | heq | hgt
    · exact .inl (UInt8.lt_iff_toNat_lt.2 (by omega))
    · refine .inr ⟨UInt8.toNat_inj.1 (by omega), ih ?_⟩
      rw [heq] at h
      omega
    · have hmul : 10 ^ width * (m / 10 ^ width % 10) + 10 ^ width ≤
          10 ^ width * (n / 10 ^ width % 10) := by
        exact Nat.mul_le_mul_left _ hgt
      omega

/-- **Order.** -/
theorem decimal_lt (hm : m < 10 ^ width) (h : n < m) : decimal width n < decimal width m :=
  decimal_lt_of_mod (by rwa [Nat.mod_eq_of_lt hm, Nat.mod_eq_of_lt (h.trans hm)])

theorem append_lt_of_lt {b : List UInt8} (hlen : a.length = b.length) (h : a < b) (u v : List UInt8) :
    a ++ u < b ++ v := by
  induction a generalizing b with
  | nil =>
    obtain rfl : b = [] := length_eq_zero_iff.1 hlen.symm
    exact absurd h (List.lt_irrefl _)
  | cons x a ih =>
    cases b with
    | nil => cases hlen
    | cons y b =>
      rw [cons_append, cons_append, cons_lt_cons_iff]
      rcases cons_lt_cons_iff.1 h with hxy | ⟨rfl, hab⟩
      · exact .inl hxy
      · exact .inr ⟨rfl, ih (by simpa using hlen) hab⟩

theorem field_lt (hm : m < 10 ^ width) {u v : List UInt8} (h : n < m ∨ n = m ∧ u < v) :
    decimal width n ++ u < decimal width m ++ v := by
  rcases h with h | ⟨rfl, h⟩
  · exact append_lt_of_lt (by simp) (decimal_lt hm h) u v
  · exact append_left_lt h

theorem decimal_append (width n : ℕ) : decimal width (n / 10) ++ [digit n] =
    decimal (width + 1) n := by
  induction width with
  | zero => simp [decimal]
  | succ width ih =>
    rw [decimal, cons_append, ih, decimal, decimal, decimal, Nat.div_div_eq_div_mul, pow_succ']

theorem toDigits_eq_decimal (n : ℕ) : (Nat.toDigits 10 n).map (fun c => UInt8.ofNat c.toNat) =
    decimal (Nat.toDigits 10 n).length n := by
  have hdigit : ∀ d < 10, UInt8.ofNat (Nat.digitChar d).toNat = digit d := by decide
  induction n using Nat.strong_induction_on with
  | _ n ih =>
    rcases Nat.lt_or_ge n 10 with hlt | hge
    · rw [Nat.toDigits_of_lt_base hlt]
      simp [decimal, hdigit n hlt]
    · have hmod : digit (n % 10) = digit n := by simp [digit]
      rw [Nat.toDigits_of_base_le (by decide) hge, map_append, ih (n / 10) (by omega),
        length_append, length_singleton, ← decimal_append, map_singleton,
        hdigit _ (Nat.mod_lt _ (by decide)), hmod]

/-- **Order of the next number**, unless it has a digit more. -/
theorem toDigits_lt_succ (h : ∀ k, n + 1 ≠ 10 ^ k) :
    (Nat.toDigits 10 n).map (fun c => UInt8.ofNat c.toNat) <
      (Nat.toDigits 10 (n + 1)).map fun c => UInt8.ofNat c.toNat := by
  have hpos : ∀ m, 0 < (Nat.toDigits 10 m).length := fun m => Nat.length_toDigits_pos
  have hfits : ∀ m, m < 10 ^ (Nat.toDigits 10 m).length := fun m =>
    (Nat.length_toDigits_le_iff (by decide) (hpos m)).1 le_rfl
  have hlen : (Nat.toDigits 10 n).length = (Nat.toDigits 10 (n + 1)).length := by
    refine le_antisymm ?_ ?_
    · exact (Nat.length_toDigits_le_iff (by decide) (hpos _)).2 ((Nat.lt_succ_self n).trans (hfits _))
    · refine (Nat.length_toDigits_le_iff (by decide) (hpos n)).2 ?_
      exact lt_of_le_of_ne (hfits n) (h _)
  rw [toDigits_eq_decimal, toDigits_eq_decimal, hlen]
  exact decimal_lt (hfits _) (Nat.lt_succ_self n)
end AgentWallet.Base.Decimal
