import DefiantHarness.Foundation.Decimal

/-! The positional text of a decimal, and the decimal that reading the text gives back. -/
namespace Foundation

/-- A decimal in text normal form: no exponent part, no trailing zero after the point. -/
structure PlainDecimal where
  decimal : Decimal
  positional : decimal.exponent ≤ 0
  trimmed : decimal.exponent = 0 ∨ ¬ 10 ∣ decimal.coefficient
deriving DecidableEq

namespace Decimal

/-- Drop trailing zeros of a coefficient with `k` fraction digits. -/
def trim : Nat → Nat → Nat × Nat
  | c, 0 => (c, 0)
  | c, k + 1 => if 10 ∣ c then trim (c / 10) k else (c, k + 1)

theorem trim_value (c k : Nat) : (trim c k).1 * 10 ^ k = c * 10 ^ (trim c k).2 := by
  induction k generalizing c with
  | zero => simp [trim]
  | succ k ih =>
    unfold trim
    split
    next divides =>
      obtain ⟨q, rfl⟩ := divides
      have tail := ih q
      rw [Nat.mul_div_cancel_left _ (by norm_num), pow_succ]
      calc (trim q k).1 * (10 ^ k * 10) = (trim q k).1 * 10 ^ k * 10 := by ring
        _ = 10 * q * 10 ^ (trim q k).2 := by rw [tail]; ring
    next => rfl

theorem trim_trimmed (c k : Nat) : (trim c k).2 = 0 ∨ ¬ 10 ∣ (trim c k).1 := by
  induction k generalizing c with
  | zero => exact .inl rfl
  | succ k ih =>
    unfold trim
    split
    next => exact ih _
    next ragged => exact .inr ragged

/-- The normal form of the text that formatting without an exponent writes. -/
def plain (d : Decimal) : PlainDecimal :=
  let shifted := d.coefficient * 10 ^ d.exponent.toNat
  let parts := trim shifted (-d.exponent).toNat
  { decimal := ⟨d.negative, parts.1, -(parts.2 : Int)⟩
    positional := by simp
    trimmed := (trim_trimmed _ _).imp (fun whole => neg_eq_zero.2 (Int.natCast_eq_zero.2 whole)) id }

theorem plain_value (d : Decimal) : d.plain.decimal.value = d.value := by
  have trimmed := trim_value (d.coefficient * 10 ^ d.exponent.toNat) (-d.exponent).toNat
  set parts := trim (d.coefficient * 10 ^ d.exponent.toNat) (-d.exponent).toNat with partsEq
  have cast : (parts.1 : ℚ) * 10 ^ (-d.exponent).toNat =
      d.coefficient * 10 ^ d.exponent.toNat * 10 ^ parts.2 := by exact_mod_cast trimmed
  have split : (10 : ℚ) ^ d.exponent = 10 ^ d.exponent.toNat / 10 ^ (-d.exponent).toNat := by
    rw [← zpow_natCast, ← zpow_natCast, ← zpow_sub₀ (by norm_num)]
    congr 1
    omega
  have same : (parts.1 : ℚ) * (10 : ℚ) ^ (-(parts.2 : Int)) =
      d.coefficient * (10 : ℚ) ^ d.exponent := by
    rw [split, zpow_neg, zpow_natCast]
    field_simp
    linarith
  have shape : d.plain.decimal = ⟨d.negative, parts.1, -(parts.2 : Int)⟩ := rfl
  rw [shape]
  cases sign : d.negative <;> simpa [value, signed, sign] using same

@[simp] theorem plain_negative (d : Decimal) : d.plain.decimal.negative = d.negative := rfl

/-- A value read from a text is written back as the same text. -/
@[simp] theorem plain_decimal (p : PlainDecimal) : p.decimal.plain = p := by
  obtain ⟨⟨negative, coefficient, exponent⟩, positional, trimmed⟩ := p
  have whole : exponent.toNat = 0 := by simpa using positional
  have untouched : trim coefficient (-exponent).toNat = (coefficient, (-exponent).toNat) := by
    cases places : (-exponent).toNat with
    | zero => rfl
    | succ k =>
      have ragged := trimmed.resolve_left (show ¬ exponent = 0 by omega)
      rw [trim, if_neg ragged]
  simp only at positional
  simp only [plain, whole, pow_zero, mul_one, untouched, PlainDecimal.mk.injEq, Decimal.mk.injEq,
    true_and]
  omega

end Decimal

namespace PlainDecimal

def fractionDigits (p : PlainDecimal) : Nat := (-p.decimal.exponent).toNat

/-- The digits of the integer part, then of the fraction after a point. -/
def chars (p : PlainDecimal) : List Char :=
  let k := p.fractionDigits
  let c := p.decimal.coefficient
  (if p.decimal.negative then ['-'] else []) ++ Nat.toDigits 10 (c / 10 ^ k) ++
    if k = 0 then [] else '.' :: (Nat.toDigits 10 (c % 10 ^ k)).leftpad k '0'

def text (p : PlainDecimal) : String := String.ofList p.chars

/-- Read digits with an optional sign and an optional point. -/
def readUnsigned (negative : Bool) (cs : List Char) : Option Decimal :=
  let whole := cs.takeWhile (·.isDigit)
  match cs.dropWhile (·.isDigit) with
  | [] => if whole = [] then none else some ⟨negative, Nat.ofDigitChars 10 whole 0, 0⟩
  | '.' :: fraction =>
    if fraction.all (·.isDigit) && !(whole ++ fraction).isEmpty then
      some ⟨negative, Nat.ofDigitChars 10 (whole ++ fraction) 0, -(fraction.length : Int)⟩
    else none
  | _ => none

def read (text : String) : Option Decimal :=
  match text.toList with
  | '-' :: cs => readUnsigned true cs
  | cs => readUnsigned false cs

private theorem digits_all (n : Nat) : ∀ c ∈ Nat.toDigits 10 n, c.isDigit = true :=
  fun _ member => Nat.isDigit_of_mem_toDigits (by norm_num) (by norm_num) member

private theorem takeWhile_digits (n : Nat) (rest : List Char)
    (stops : ∀ c ∈ rest.head?, c.isDigit = false) :
    (Nat.toDigits 10 n ++ rest).takeWhile (·.isDigit) = Nat.toDigits 10 n ∧
      (Nat.toDigits 10 n ++ rest).dropWhile (·.isDigit) = rest := by
  rw [List.takeWhile_append_of_pos (digits_all n), List.dropWhile_append_of_pos (digits_all n)]
  cases rest with
  | nil => simp
  | cons c cs =>
    have stop : c.isDigit = false := stops c rfl
    simp [stop]

private theorem fraction_length {n k : Nat} (below : n < 10 ^ k) (positive : 0 < k) :
    ((Nat.toDigits 10 n).leftpad k '0').length = k := by
  have short := (Nat.length_toDigits_le_iff (by norm_num) positive).2 below
  simp only [List.leftpad, List.length_append, List.length_replicate]
  omega

private theorem fraction_all (n k : Nat) :
    ((Nat.toDigits 10 n).leftpad k '0').all (·.isDigit) = true := by
  simp only [List.leftpad, List.all_append, List.all_replicate, Bool.and_eq_true]
  refine ⟨by split <;> decide, ?_⟩
  rw [List.all_eq_true]
  exact digits_all n

private theorem whole_fraction (c k : Nat) (positive : 0 < k) :
    Nat.ofDigitChars 10 (Nat.toDigits 10 (c / 10 ^ k) ++
      (Nat.toDigits 10 (c % 10 ^ k)).leftpad k '0') 0 = c := by
  have below : c % 10 ^ k < 10 ^ k := Nat.mod_lt _ (by positivity)
  have fraction : Nat.ofDigitChars 10 ((Nat.toDigits 10 (c % 10 ^ k)).leftpad k '0') 0 =
      c % 10 ^ k := by
    simp [List.leftpad, Nat.ofDigitChars_append]
  rw [Nat.ofDigitChars_append, Nat.ofDigitChars_ten_toDigits,
    Nat.ofDigitChars_eq_ofDigitChars_zero, fraction, fraction_length below positive,
    Nat.div_add_mod]

private theorem readUnsigned_chars (p : PlainDecimal) (negative : Bool) :
    readUnsigned negative (Nat.toDigits 10 (p.decimal.coefficient / 10 ^ p.fractionDigits) ++
      if p.fractionDigits = 0 then [] else
        '.' :: (Nat.toDigits 10 (p.decimal.coefficient % 10 ^ p.fractionDigits)).leftpad
          p.fractionDigits '0') = some { p.decimal with negative := negative } := by
  have exponent : p.decimal.exponent = -(p.fractionDigits : Int) := by
    have := p.positional
    unfold fractionDigits
    omega
  -- without a point the scan of the digits takes the whole text
  by_cases none : p.fractionDigits = 0
  · obtain ⟨take, drop⟩ := takeWhile_digits (p.decimal.coefficient / 10 ^ p.fractionDigits) []
      (by simp)
    rw [if_pos none]
    simp only [readUnsigned, take, drop]
    simp [none, exponent, Nat.toDigits_ne_nil]
  · obtain ⟨take, drop⟩ := takeWhile_digits (p.decimal.coefficient / 10 ^ p.fractionDigits)
      ('.' :: (Nat.toDigits 10 (p.decimal.coefficient % 10 ^ p.fractionDigits)).leftpad
        p.fractionDigits '0') (by simp)
    have below : p.decimal.coefficient % 10 ^ p.fractionDigits < 10 ^ p.fractionDigits :=
      Nat.mod_lt _ (by positivity)
    have positive := Nat.pos_of_ne_zero none
    rw [if_neg none]
    simp only [readUnsigned, take, drop, fraction_all, whole_fraction _ _ positive,
      fraction_length below positive, exponent]
    simp [Nat.toDigits_ne_nil]

private theorem toDigits_head_ne (n : Nat) (rest : List Char) (c : Char) (other : c.isDigit = false) :
    ∀ cs, Nat.toDigits 10 n ++ rest ≠ c :: cs := by
  intro cs equal
  cases digits : Nat.toDigits 10 n with
  | nil => exact Nat.toDigits_ne_nil digits
  | cons d ds =>
    have digit := digits_all n d (by simp [digits])
    rw [digits] at equal
    simp only [List.cons_append, List.cons.injEq] at equal
    rw [equal.1, other] at digit
    cases digit

/-- Reading a written decimal gives it back. -/
theorem read_text (p : PlainDecimal) : read p.text = some p.decimal := by
  have unsigned := readUnsigned_chars p p.decimal.negative
  unfold read text chars
  rw [String.toList_ofList]
  cases sign : p.decimal.negative with
  | true =>
    simp only [↓reduceIte, List.cons_append, List.nil_append]
    rw [sign] at unsigned
    rw [unsigned, ← sign]
  | false =>
    simp only [Bool.false_eq_true, ↓reduceIte, List.nil_append]
    rw [sign] at unsigned
    split
    next cs equal => exact absurd equal (toDigits_head_ne _ _ '-' rfl cs)
    next => rw [unsigned, ← sign]

theorem text_injective {p q : PlainDecimal} (equal : p.text = q.text) : p = q := by
  have same : p.decimal = q.decimal := by
    simpa [read_text] using congrArg read equal
  cases p
  cases q
  simpa using same

end PlainDecimal
end Foundation
