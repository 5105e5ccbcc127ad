import Mathlib.Data.Int.Log
import Mathlib.Data.Rat.Floor
import DefiantHarness.Foundation.DecimalText
import DefiantHarness.Foundation.Numeral

/-! Finite binary64 floating point: correct rounding, and the shortest decimal text. -/
namespace Foundation

/-- A finite double, `(-1)^negative * mantissa * 2^exponent`: subnormal or normal. -/
structure Binary64 where
  negative : Bool
  mantissa : Nat
  exponent : Int
  stored : (mantissa < 2 ^ 52 ∧ exponent = -1074) ∨
    (2 ^ 52 ≤ mantissa ∧ mantissa < 2 ^ 53 ∧ -1074 ≤ exponent ∧ exponent ≤ 971)
deriving DecidableEq

namespace Binary64

def magnitude (x : Binary64) : ℚ := x.mantissa * (2 : ℚ) ^ x.exponent

def zero (negative : Bool) : Binary64 := ⟨negative, 0, -1074, .inl ⟨by norm_num, rfl⟩⟩

/-- A rounded mantissa at its exponent; `none` is beyond the largest double. -/
def pack (negative : Bool) (m : Nat) (e : Int) : Option Binary64 :=
  if stored : (m < 2 ^ 52 ∧ e = -1074) ∨ (2 ^ 52 ≤ m ∧ m < 2 ^ 53 ∧ -1074 ≤ e ∧ e ≤ 971) then
    some ⟨negative, m, e, stored⟩
  else if carried : m = 2 ^ 53 ∧ -1074 ≤ e ∧ e < 971 then
    some ⟨negative, 2 ^ 52, e + 1, .inr ⟨le_rfl, by norm_num, by omega, by omega⟩⟩
  else none

/-- The exponent that a positive value is rounded at. -/
def gridExponent (q : ℚ) : Int := max (Int.log 2 q - 52) (-1074)

/-- The double nearest to a value that is not negative, ties to even. -/
def nearest (negative : Bool) (q : ℚ) : Option Binary64 :=
  if q ≤ 0 then some (zero negative)
  else
    let e := gridExponent q
    let scaled := q / (2 : ℚ) ^ e
    pack negative (Decimal.divHalfEven scaled.num.toNat scaled.den) e

private theorem gridExponent_magnitude (x : Binary64) (positive : 0 < x.mantissa) :
    gridExponent x.magnitude = x.exponent := by
  have power : (0 : ℚ) < (2 : ℚ) ^ x.exponent := by positivity
  have mantissa : (0 : ℚ) < x.mantissa := by exact_mod_cast positive
  have value : 0 < x.magnitude := mul_pos mantissa power
  have below (k : Nat) (bound : x.mantissa < 2 ^ k) :
      Int.log 2 x.magnitude < k + x.exponent := by
    refine (Int.lt_zpow_iff_log_lt (by norm_num) value).1 ?_
    rw [magnitude, Nat.cast_ofNat, zpow_add₀ (by norm_num), zpow_natCast]
    exact mul_lt_mul_of_pos_right (by exact_mod_cast bound) power
  have above (k : Nat) (bound : 2 ^ k ≤ x.mantissa) :
      k + x.exponent ≤ Int.log 2 x.magnitude := by
    refine (Int.zpow_le_iff_le_log (by norm_num) value).1 ?_
    rw [magnitude, Nat.cast_ofNat, zpow_add₀ (by norm_num), zpow_natCast]
    exact mul_le_mul_of_nonneg_right (by exact_mod_cast bound) power.le
  unfold gridExponent
  rcases x.stored with ⟨small, least⟩ | ⟨low, high, least, _⟩
  · have := below 52 small
    omega
  · have := below 53 high
    have := above 52 low
    omega

/-- Every double is the nearest to its own value. -/
@[simp] theorem nearest_magnitude (x : Binary64) : nearest x.negative x.magnitude = some x := by
  have power : (0 : ℚ) < (2 : ℚ) ^ x.exponent := by positivity
  rcases Nat.eq_zero_or_pos x.mantissa with none | positive
  · have least : x.exponent = -1074 := by
      rcases x.stored with ⟨_, least⟩ | ⟨low, _⟩
      · exact least
      · omega
    rw [nearest, if_pos (by simp [magnitude, none])]
    cases x
    simp_all [zero]
  · have value : ¬ x.magnitude ≤ 0 :=
      not_le.2 (mul_pos (by exact_mod_cast positive) power)
    have scaled : x.magnitude / (2 : ℚ) ^ x.exponent = (x.mantissa : ℚ) := by
      rw [magnitude, mul_div_cancel_right₀ _ power.ne']
    rw [nearest, if_neg value]
    simp only [gridExponent_magnitude x positive, scaled, Rat.num_natCast, Int.toNat_natCast,
      Rat.den_natCast, Decimal.divHalfEven_exact one_pos (one_dvd _), Nat.div_one]
    rw [pack, dif_pos x.stored]

/-- Read a number token with correct rounding; `none` is an infinity. -/
def ofNumeral (n : Numeral) : Option Binary64 := nearest n.negative n.magnitude

/-- An `n`-digit decimal that reads back, the closest one first. -/
def candidate (x : Binary64) (n : Nat) : Option (Nat × Int) :=
  let k := Int.log 10 x.magnitude + 1 - n
  let scaled := x.magnitude / (10 : ℚ) ^ k
  let low := scaled.num.toNat / scaled.den
  [Decimal.divHalfEven scaled.num.toNat scaled.den, low, low + 1].findSome? fun c : Nat =>
    if nearest x.negative (c * (10 : ℚ) ^ k) = some x then some (c, k) else none

/-- Every digit of the value. -/
def exactDecimal (x : Binary64) : Nat × Int :=
  if 0 ≤ x.exponent then (x.mantissa * 2 ^ x.exponent.toNat, 0)
  else (x.mantissa * 5 ^ (-x.exponent).toNat, x.exponent)

/-- Drop the trailing zeros of a coefficient. -/
def dropZeros (c : Nat) (k : Int) : Nat × Int :=
  let n := (Nat.toDigits 10 c).length
  let parts := Decimal.trim c n
  (parts.1, k + (n - parts.2 : Int))

/-- The fewest digits that read back as the same double. -/
def shortest (x : Binary64) : Nat × Int :=
  let decimal := ((List.range 17).findSome? fun n => x.candidate (n + 1)).getD x.exactDecimal
  dropZeros decimal.1 decimal.2

def twoDigits (n : Nat) : List Char := (Nat.toDigits 10 n).leftpad 2 '0'

/-- Digits with `k` powers of ten as a positional text, or with an exponent when far from one. -/
def place (negative : Bool) (digits : List Char) (k : Int) : Numeral :=
  let point := digits.length + k
  -- outside this range `repr` writes an exponent
  if point ≤ -4 ∨ 16 < point then
    ⟨negative, digits.take 1, if digits.length ≤ 1 then none else some (digits.drop 1),
      some (decide (point - 1 < 0), twoDigits (point - 1).natAbs)⟩
  else if point ≤ 0 then
    ⟨negative, ['0'], some (List.replicate (-point).toNat '0' ++ digits), none⟩
  else if 0 ≤ k then
    ⟨negative, digits ++ List.replicate k.toNat '0', some ['0'], none⟩
  else ⟨negative, digits.take point.toNat, some (digits.drop point.toNat), none⟩

/-- `repr`: the token with the fewest digits that reads back. -/
def numeral (x : Binary64) : Numeral :=
  if x.mantissa = 0 then ⟨x.negative, ['0'], some ['0'], none⟩
  else place x.negative (Nat.toDigits 10 x.shortest.1) x.shortest.2

theorem dropZeros_value (c : Nat) (k : Int) :
    ((dropZeros c k).1 : ℚ) * (10 : ℚ) ^ (dropZeros c k).2 = c * (10 : ℚ) ^ k := by
  set n := (Nat.toDigits 10 c).length with length
  have trimmed : ((Decimal.trim c n).1 : ℚ) * 10 ^ n = c * 10 ^ (Decimal.trim c n).2 := by
    exact_mod_cast Decimal.trim_value c n
  have shape : dropZeros c k = ((Decimal.trim c n).1, k + (n - (Decimal.trim c n).2 : Int)) := rfl
  have power : (10 : ℚ) ^ (Decimal.trim c n).2 ≠ 0 := by positivity
  rw [shape, zpow_add₀ (by norm_num), zpow_sub₀ (by norm_num), zpow_natCast, zpow_natCast]
  field_simp
  rw [trimmed, mul_comm]

private theorem exactDecimal_value (x : Binary64) :
    (x.exactDecimal.1 : ℚ) * (10 : ℚ) ^ x.exactDecimal.2 = x.magnitude := by
  unfold exactDecimal magnitude
  split
  next whole =>
    have power : (2 : ℚ) ^ x.exponent = 2 ^ x.exponent.toNat := by
      rw [← zpow_natCast]
      congr 1
      omega
    simp [power]
  next fractional =>
    obtain ⟨n, exponent⟩ : ∃ n : Nat, x.exponent = -(n : Int) := ⟨(-x.exponent).toNat, by omega⟩
    have power : (10 : ℚ) ^ n = 2 ^ n * 5 ^ n := by rw [← mul_pow]; norm_num
    simp only [exponent, neg_neg, Int.toNat_natCast, zpow_neg, zpow_natCast, power]
    push_cast
    field_simp

private theorem candidate_reads {x : Binary64} {n : Nat} {decimal : Nat × Int}
    (found : x.candidate n = some decimal) :
    nearest x.negative (decimal.1 * (10 : ℚ) ^ decimal.2) = some x := by
  obtain ⟨c, _, taken⟩ := List.exists_of_findSome?_eq_some found
  split at taken
  next reads =>
    cases taken
    exact reads
  next => cases taken

/-- The shortest digits read back as the double they are written for. -/
theorem shortest_reads (x : Binary64) :
    nearest x.negative (x.shortest.1 * (10 : ℚ) ^ x.shortest.2) = some x := by
  unfold shortest
  simp only [dropZeros_value]
  cases found : (List.range 17).findSome? fun n => x.candidate (n + 1) with
  | none => rw [Option.getD_none, exactDecimal_value, nearest_magnitude]
  | some decimal =>
    obtain ⟨n, _, taken⟩ := List.exists_of_findSome?_eq_some found
    exact candidate_reads taken

private theorem ofDigitChars_zeros (n : Nat) (ds : List Char) :
    Nat.ofDigitChars 10 (List.replicate n '0' ++ ds) 0 = Nat.ofDigitChars 10 ds 0 := by
  rw [Nat.ofDigitChars_append, Nat.ofDigitChars_replicate_zero, Nat.mul_zero]

private theorem ofDigitChars_twoDigits (n : Nat) : Nat.ofDigitChars 10 (twoDigits n) 0 = n := by
  rw [twoDigits, List.leftpad, ofDigitChars_zeros, Nat.ofDigitChars_ten_toDigits]

private theorem place_far (negative : Bool) {digits : List Char} {k : Int} (nonempty : digits ≠ [])
    (far : digits.length + k ≤ -4 ∨ 16 < digits.length + k) :
    (place negative digits k).coefficient = Nat.ofDigitChars 10 digits 0 ∧
      (place negative digits k).scale = k := by
  have length := List.length_pos_of_ne_nil nonempty
  unfold place
  simp only [if_pos far, Numeral.coefficient, Numeral.scale, ofDigitChars_twoDigits,
    decide_eq_true_eq]
  by_cases short : digits.length ≤ 1
  · rw [if_pos short, Option.getD_none, List.append_nil, List.take_of_length_le short]
    refine ⟨rfl, ?_⟩
    rw [List.length_nil]
    split <;> omega
  · rw [if_neg short, Option.getD_some, List.take_append_drop, List.length_drop]
    refine ⟨rfl, ?_⟩
    split <;> omega

private theorem place_near {negative : Bool} {digits : List Char} {k : Int}
    (near : ¬ (digits.length + k ≤ -4 ∨ 16 < digits.length + k)) :
    (place negative digits k).magnitude = Nat.ofDigitChars 10 digits 0 * (10 : ℚ) ^ k := by
  unfold place
  simp only [if_neg near]
  split
  -- the point stands before all the digits
  next below =>
    have zeros : ['0'] ++ (List.replicate (-(digits.length + k)).toNat '0' ++ digits) =
        List.replicate ((-(digits.length + k)).toNat + 1) '0' ++ digits := by
      rw [List.replicate_succ, List.cons_append, List.cons_append, List.nil_append]
    have scale : -(((-(digits.length + k)).toNat + digits.length : Nat) : Int) = k := by omega
    simp only [Numeral.magnitude, Numeral.coefficient, Numeral.scale, Option.getD_some, zeros,
      ofDigitChars_zeros, List.length_append, List.length_replicate, zero_sub, scale]
  next above =>
    split
    -- the point stands after them, behind `k` zeros
    next whole =>
      have zeros : Nat.ofDigitChars 10 (digits ++ List.replicate k.toNat '0' ++ ['0']) 0 =
          10 ^ (k.toNat + 1) * Nat.ofDigitChars 10 digits 0 := by
        rw [List.append_assoc, ← List.replicate_succ', Nat.ofDigitChars_append,
          Nat.ofDigitChars_replicate_zero]
      have power : (10 : ℚ) ^ k = 10 ^ k.toNat := by
        rw [← zpow_natCast]
        congr 1
        omega
      simp only [Numeral.magnitude, Numeral.coefficient, Numeral.scale, Option.getD_some, zeros,
        List.length_singleton, power]
      push_cast
      rw [pow_succ, zpow_neg_one]
      ring
    next fractional =>
      have scale : -((digits.length - (digits.length + k).toNat : Nat) : Int) = k := by omega
      simp only [Numeral.magnitude, Numeral.coefficient, Numeral.scale, Option.getD_some,
        List.take_append_drop, List.length_drop, zero_sub, scale]

/-- Placing the point and the exponent keeps the value. -/
theorem place_magnitude (negative : Bool) {digits : List Char} (k : Int) (nonempty : digits ≠ []) :
    (place negative digits k).magnitude = Nat.ofDigitChars 10 digits 0 * (10 : ℚ) ^ k := by
  by_cases far : digits.length + k ≤ -4 ∨ 16 < digits.length + k
  · obtain ⟨coefficient, scale⟩ := place_far negative nonempty far
    rw [Numeral.magnitude, coefficient, scale]
  · exact place_near far

theorem place_negative (negative : Bool) (digits : List Char) (k : Int) :
    (place negative digits k).negative = negative := by
  unfold place
  simp only
  split
  next => rfl
  split
  next => rfl
  split <;> rfl

private theorem digits_append {ds es : List Char} (first : Numeral.Digits ds)
    (rest : ∀ c ∈ es, c.isDigit = true) : Numeral.Digits (ds ++ es) := by
  refine ⟨fun c member => ?_, by simp [first.nonempty]⟩
  rcases List.mem_append.1 member with left | right
  · exact first.digit c left
  · exact rest c right

private theorem digits_zeros (n : Nat) : ∀ c ∈ List.replicate n '0', c.isDigit = true := by
  intro c member
  rw [List.eq_of_mem_replicate member]
  rfl

private theorem digits_twoDigits (n : Nat) : Numeral.Digits (twoDigits n) := by
  refine ⟨fun c member => ?_, ?_⟩
  · rcases List.mem_append.1 member with zero | digit
    · exact digits_zeros _ c zero
    · exact (Numeral.digits_toDigits n).digit c digit
  · simp [twoDigits, List.leftpad, Nat.toDigits_ne_nil]

private theorem digits_zero : Numeral.Digits ['0'] := ⟨by simp, by simp⟩

private theorem head_take {ds : List Char} {n : Nat} (leading : '0' ∉ ds.head?) :
    '0' ∉ (ds.take n).head? := by
  cases ds with
  | nil => simp
  | cons d ds =>
    cases n with
    | zero => simp
    | succ n => exact leading

private theorem digits_take {ds : List Char} {n : Nat} (digits : Numeral.Digits ds)
    (positive : 0 < n) : Numeral.Digits (ds.take n) := by
  refine ⟨fun c member => digits.digit c (List.mem_of_mem_take member), ?_⟩
  have := List.length_pos_of_ne_nil digits.nonempty
  apply List.ne_nil_of_length_pos
  rw [List.length_take]
  omega

private theorem digits_drop {ds : List Char} {n : Nat} (digits : Numeral.Digits ds)
    (short : n < ds.length) : Numeral.Digits (ds.drop n) := by
  refine ⟨fun c member => digits.digit c (List.mem_of_mem_drop member), ?_⟩
  apply List.ne_nil_of_length_pos
  rw [List.length_drop]
  omega

theorem place_wellFormed (negative : Bool) {digits : List Char} (k : Int)
    (formed : Numeral.Digits digits) (leading : '0' ∉ digits.head?) :
    (place negative digits k).WellFormed := by
  have length := List.length_pos_of_ne_nil formed.nonempty
  unfold place
  simp only
  split
  -- the exponent form
  next far =>
    refine ⟨digits_take formed one_pos, .inr (head_take leading), fun ds taken => ?_,
      fun e taken => ?_⟩
    · simp only at taken
      split at taken
      next => cases taken
      next long =>
        cases taken
        exact digits_drop formed (not_le.1 long)
    · cases taken
      exact digits_twoDigits _
  split
  next below =>
    refine ⟨digits_zero, .inl rfl, fun ds taken => ?_, nofun⟩
    cases taken
    refine ⟨fun c member => ?_, by simp [formed.nonempty]⟩
    rcases List.mem_append.1 member with zero | digit
    · exact digits_zeros _ c zero
    · exact formed.digit c digit
  split
  next whole =>
    refine ⟨digits_append formed (digits_zeros _), .inr ?_, fun ds taken => ?_, nofun⟩
    · simp only
      rwa [List.head?_append_of_ne_nil _ formed.nonempty]
    · cases taken
      exact digits_zero
  next fractional =>
    refine ⟨digits_take formed (by omega), .inr (head_take leading), fun ds taken => ?_, nofun⟩
    cases taken
    exact digits_drop formed (by omega)

private theorem shortest_positive {x : Binary64} (positive : x.mantissa ≠ 0) :
    x.shortest.1 ≠ 0 := by
  intro none
  have reads := shortest_reads x
  rw [none, Nat.cast_zero, zero_mul, nearest, if_pos le_rfl, Option.some.injEq] at reads
  exact positive (by rw [← reads]; rfl)

theorem numeral_wellFormed (x : Binary64) : x.numeral.WellFormed := by
  unfold numeral
  split
  next => exact ⟨digits_zero, .inl rfl, fun ds taken => by cases taken; exact digits_zero, nofun⟩
  next positive =>
    refine place_wellFormed _ _ (Numeral.digits_toDigits _) ?_
    rcases Numeral.leading_toDigits x.shortest.1 with zero | leading
    · have value := congrArg (fun cs => Nat.ofDigitChars 10 cs 0) zero
      simp only [Nat.ofDigitChars_ten_toDigits] at value
      exact absurd value (shortest_positive positive)
    · exact leading

/-- The text of a double is never an integer token. -/
@[simp] theorem numeral_isInteger (x : Binary64) : x.numeral.isInteger = false := by
  unfold numeral place
  simp only
  split
  next => rfl
  split
  next => simp [Numeral.isInteger]
  split
  next => rfl
  split <;> rfl

/-- Reading the text of a double gives the double back. -/
@[simp] theorem ofNumeral_numeral (x : Binary64) : ofNumeral x.numeral = some x := by
  unfold numeral
  split
  next none =>
    have own := nearest_magnitude x
    have magnitude : x.magnitude = 0 := by simp [Binary64.magnitude, none]
    rw [magnitude] at own
    rw [ofNumeral, ← own]
    simp [Numeral.magnitude, Numeral.coefficient, Nat.ofDigitChars]
  next =>
    rw [ofNumeral, place_negative, place_magnitude _ _ Nat.toDigits_ne_nil,
      Nat.ofDigitChars_ten_toDigits, shortest_reads]

end Binary64
end Foundation
