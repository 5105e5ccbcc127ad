import Mathlib.Data.Rat.Defs
import Mathlib.Data.Nat.Log
import Mathlib.Algebra.Order.Field.Rat
import Mathlib.Algebra.Order.Field.Power
import Mathlib.Tactic.Ring
import Mathlib.Tactic.FieldSimp
import Mathlib.Tactic.NormNum
import Mathlib.Tactic.Linarith
import Mathlib.Tactic.Positivity
import Mathlib.Tactic.Push

/-! Finite decimal floating point: exact values, and arithmetic in a rounding context. -/
namespace Foundation

/-- A finite decimal number, `(-1)^negative * coefficient * 10^exponent`. -/
structure Decimal where
  negative : Bool
  coefficient : Nat
  exponent : Int
deriving DecidableEq, Repr

/-- A rounding context: `prec` digits, adjusted exponents between `emin` and `emax`. -/
structure Context where
  prec : Nat
  emin : Int
  emax : Int
  ordered : emin ≤ emax

namespace Context

/-- The least exponent of a subnormal result. -/
def etiny (c : Context) : Int := c.emin - c.prec + 1

/-- The largest exponent of a result that uses every digit. -/
def etop (c : Context) : Int := c.emax - c.prec + 1

theorem etiny_le_etop (c : Context) : c.etiny ≤ c.etop := by
  have := c.ordered
  unfold etiny etop
  omega

/-- The rationals that the context stores without rounding. -/
def Representable (c : Context) (v : ℚ) : Prop :=
  ∃ (m e : Int), v = m * (10 : ℚ) ^ e ∧ |m| < 10 ^ c.prec ∧ c.etiny ≤ e ∧ e ≤ c.etop

end Context

namespace Decimal

def zero : Decimal := ⟨false, 0, 0⟩

def ofNat (n : Nat) : Decimal := ⟨false, n, 0⟩

/-- The coefficient with its sign. -/
def signed (d : Decimal) : Int := if d.negative then -(d.coefficient : Int) else d.coefficient

/-- The exact rational that the decimal denotes. -/
def value (d : Decimal) : ℚ := d.signed * (10 : ℚ) ^ d.exponent

/-- The signed coefficient at a smaller exponent. -/
def scaled (d : Decimal) (e : Int) : Int := d.signed * 10 ^ (d.exponent - e).toNat

def neg (d : Decimal) : Decimal := { d with negative := !d.negative }

def isZero (d : Decimal) : Bool := d.coefficient == 0

/-- Numerical order, decided at the smaller of the two exponents. -/
def lt (a b : Decimal) : Bool :=
  a.scaled (min a.exponent b.exponent) < b.scaled (min a.exponent b.exponent)

/-- Numerical equality: `1.0` and `1` are equal. -/
def eqv (a b : Decimal) : Bool :=
  a.scaled (min a.exponent b.exponent) == b.scaled (min a.exponent b.exponent)

/-- The exact sum, at the smaller of the two exponents. -/
def addExact (a b : Decimal) : Decimal :=
  let e := min a.exponent b.exponent
  let n := a.scaled e + b.scaled e
  ⟨if n = 0 then a.negative && b.negative else decide (n < 0), n.natAbs, e⟩

def digits (d : Decimal) : Nat := Nat.log 10 d.coefficient + 1

/-- `n / k` rounded to the nearest integer, ties to even. -/
def divHalfEven (n k : Nat) : Nat :=
  let q := n / k
  let r := n % k
  if k < 2 * r ∨ (2 * r = k ∧ q % 2 = 1) then q + 1 else q

/-- Round an exact result into the context; `none` is a trapped overflow. -/
def fix (c : Context) (d : Decimal) : Option Decimal :=
  if d.coefficient = 0 then
    some { d with exponent := min (max d.exponent c.etiny) c.emax }
  else
    let least : Int := d.digits + d.exponent - c.prec
    if c.etop < least then none
    else
      let least := max least c.etiny
      if d.exponent < least then
        let q := divHalfEven d.coefficient (10 ^ (least - d.exponent).toNat)
        if 10 ^ c.prec ≤ q then
          -- the rounding carried into one more digit
          if c.etop < least + 1 then none
          else some { d with coefficient := q / 10, exponent := least + 1 }
        else some { d with coefficient := q, exponent := least }
      else some d

/-- Addition in a context: the exact sum, rounded. -/
def add (c : Context) (a b : Decimal) : Option Decimal := fix c (addExact a b)

/-- Subtraction adds the operand with its sign flipped. -/
def sub (c : Context) (a b : Decimal) : Option Decimal := add c a b.neg

/-- A left fold of additions from a start value. -/
def sumFrom (c : Context) : Decimal → List Decimal → Option Decimal
  | start, [] => some start
  | start, d :: ds => (add c start d).bind fun s => sumFrom c s ds

theorem scaled_value {d : Decimal} {e : Int} (below : e ≤ d.exponent) :
    (d.scaled e : ℚ) * (10 : ℚ) ^ e = d.value := by
  have shift : (10 : ℚ) ^ d.exponent = 10 ^ (d.exponent - e).toNat * (10 : ℚ) ^ e := by
    rw [← zpow_natCast, ← zpow_add₀ (by norm_num)]
    congr 1
    omega
  simp only [scaled, value, Int.cast_mul, Int.cast_pow, Int.cast_ofNat, shift]
  ring

@[simp] theorem zero_value : zero.value = 0 := by simp [zero, value, signed]

@[simp] theorem ofNat_value (n : Nat) : (ofNat n).value = n := by simp [ofNat, value, signed]

@[simp] theorem neg_value (d : Decimal) : d.neg.value = -d.value := by
  cases sign : d.negative <;> simp [neg, value, signed, sign]

theorem value_eq_zero_iff (d : Decimal) : d.value = 0 ↔ d.coefficient = 0 := by
  have power : (10 : ℚ) ^ d.exponent ≠ 0 := by positivity
  unfold value signed
  split <;> simp [power]

theorem isZero_iff (d : Decimal) : d.isZero = true ↔ d.value = 0 := by
  simp [isZero, value_eq_zero_iff]

theorem lt_iff (a b : Decimal) : a.lt b = true ↔ a.value < b.value := by
  have power : (0 : ℚ) < (10 : ℚ) ^ min a.exponent b.exponent := by positivity
  rw [← scaled_value (min_le_left a.exponent b.exponent),
    ← scaled_value (min_le_right a.exponent b.exponent), mul_lt_mul_iff_left₀ power]
  simp [lt]

theorem eqv_iff (a b : Decimal) : a.eqv b = true ↔ a.value = b.value := by
  have power : (10 : ℚ) ^ min a.exponent b.exponent ≠ 0 := by positivity
  rw [← scaled_value (min_le_left a.exponent b.exponent),
    ← scaled_value (min_le_right a.exponent b.exponent), mul_left_inj' power]
  simp [eqv]

private theorem signed_of_parts (n : Int) (sign : Bool) (zeroSign : n ≠ 0 → sign = decide (n < 0)) :
    (if sign then -((n.natAbs : Nat) : Int) else n.natAbs) = n := by
  by_cases zero : n = 0
  · subst zero
    simp
  · rw [zeroSign zero]
    by_cases negative : n < 0
    · simp only [negative, decide_true, if_true]
      omega
    · simp only [negative, decide_false, Bool.false_eq_true, if_false]
      omega

@[simp] theorem addExact_value (a b : Decimal) : (addExact a b).value = a.value + b.value := by
  set e := min a.exponent b.exponent with least
  have parts : (addExact a b).signed = a.scaled e + b.scaled e :=
    signed_of_parts _ _ fun nonzero => if_neg nonzero
  have exponent : (addExact a b).exponent = e := rfl
  rw [value, parts, exponent, ← scaled_value (d := a) (e := e) (min_le_left _ _),
    ← scaled_value (d := b) (e := e) (min_le_right _ _)]
  push_cast
  ring

theorem coefficient_lt (d : Decimal) : d.coefficient < 10 ^ d.digits :=
  Nat.lt_pow_succ_log_self (by norm_num) _

theorem le_coefficient {d : Decimal} (nonzero : d.coefficient ≠ 0) :
    10 ^ (d.digits - 1) ≤ d.coefficient := by
  simpa [digits] using Nat.pow_log_le_self 10 nonzero

theorem abs_signed (d : Decimal) : |d.signed| = d.coefficient := by
  unfold signed
  split <;> simp

theorem abs_value (d : Decimal) : |d.value| = d.coefficient * (10 : ℚ) ^ d.exponent := by
  have power : (0 : ℚ) < (10 : ℚ) ^ d.exponent := by positivity
  rw [value, abs_mul, abs_of_pos power, ← Int.cast_abs, abs_signed]
  simp

private theorem rounded_digits (d : Decimal) {k : Nat} {p : Nat} (wide : d.digits ≤ k + p) :
    d.coefficient / 10 ^ k < 10 ^ p := by
  rw [Nat.div_lt_iff_lt_mul (by positivity), ← pow_add, add_comm p k]
  exact d.coefficient_lt.trans_le (Nat.pow_le_pow_right (by norm_num) wide)

theorem divHalfEven_exact {n k : Nat} (positive : 0 < k) (divides : k ∣ n) :
    divHalfEven n k = n / k := by
  have remainder : n % k = 0 := Nat.mod_eq_zero_of_dvd divides
  unfold divHalfEven
  simp only [remainder]
  rw [if_neg]
  omega

/-- A grid multiple keeps its value when its coefficient is divided down to the grid. -/
private theorem divided_value {d : Decimal} {e : Int} {k : Nat} (shift : d.exponent + k = e)
    (divides : 10 ^ k ∣ d.coefficient) :
    ({ d with coefficient := d.coefficient / 10 ^ k, exponent := e } : Decimal).value = d.value := by
  obtain ⟨q, equal⟩ := divides
  have power : (10 : ℚ) ^ e = 10 ^ k * (10 : ℚ) ^ d.exponent := by
    rw [← shift, zpow_add₀ (by norm_num), zpow_natCast, mul_comm]
  cases sign : d.negative <;> simp [value, signed, sign, power, equal] <;> ring

/-- A representable value whose leading digit sits at `top` has its grid at or above `top`. -/
private theorem grid_of_magnitude {c : Context} {m e top : Int} (bound : |m| < 10 ^ c.prec)
    (large : (10 : ℚ) ^ (top - 1 + c.prec) ≤ |(m : ℚ) * 10 ^ e|) : top ≤ e := by
  have power : (0 : ℚ) < (10 : ℚ) ^ e := by positivity
  have small : |(m : ℚ) * 10 ^ e| < (10 : ℚ) ^ (e + c.prec) := by
    rw [abs_mul, abs_of_pos power, zpow_add₀ (by norm_num), zpow_natCast, mul_comm]
    refine mul_lt_mul_of_pos_left ?_ power
    exact_mod_cast bound
  have below := (zpow_lt_zpow_iff_right₀ (by norm_num : (1 : ℚ) < 10)).1 (large.trans_lt small)
  omega

theorem leading_le_abs {d : Decimal} (nonzero : d.coefficient ≠ 0) :
    (10 : ℚ) ^ ((d.digits : Int) - 1 + d.exponent) ≤ |d.value| := by
  rw [abs_value, zpow_add₀ (by norm_num)]
  refine mul_le_mul_of_nonneg_right ?_ (by positivity)
  have leading : (10 : ℚ) ^ (d.digits - 1) ≤ d.coefficient := by
    exact_mod_cast le_coefficient nonzero
  have index : ((d.digits : Int) - 1) = ((d.digits - 1 : Nat) : Int) := by
    have : 1 ≤ d.digits := by simp [digits]
    omega
  rwa [index, zpow_natCast]

/-- A value on the grid `10^e` with a coefficient on a finer grid has a divisible coefficient. -/
private theorem divides_of_grid {d : Decimal} {m e least : Int} {k : Nat}
    (grid : d.value = m * (10 : ℚ) ^ e) (above : least ≤ e) (shift : d.exponent + k = least) :
    10 ^ k ∣ d.coefficient := by
  have index : (10 : ℚ) ^ e = 10 ^ (e - least).toNat * 10 ^ k * (10 : ℚ) ^ d.exponent := by
    rw [← zpow_natCast, ← zpow_natCast, ← zpow_add₀ (by norm_num), ← zpow_add₀ (by norm_num)]
    congr 1
    omega
  have power : (10 : ℚ) ^ d.exponent ≠ 0 := by positivity
  have equal : (d.signed : ℚ) = m * 10 ^ (e - least).toNat * 10 ^ k := by
    have := grid
    rw [value, index, ← mul_assoc, ← mul_assoc] at this
    exact mul_right_cancel₀ power this
  have divides : (10 : Int) ^ k ∣ d.signed :=
    ⟨m * 10 ^ (e - least).toNat, by rw [mul_comm]; exact_mod_cast equal⟩
  have : ((10 ^ k : Nat) : Int) ∣ (d.coefficient : Int) := by
    rw [← abs_signed, dvd_abs]
    exact_mod_cast divides
  exact Int.natCast_dvd_natCast.1 this

/-- A representable exact result is stored without rounding. -/
theorem fix_exact {c : Context} {d : Decimal} (exact : c.Representable d.value) :
    ∃ r, fix c d = some r ∧ r.value = d.value := by
  by_cases zero : d.coefficient = 0
  · refine ⟨_, if_pos zero, ?_⟩
    rw [(value_eq_zero_iff d).2 zero, value_eq_zero_iff]
    exact zero
  obtain ⟨m, e, grid, bound, low, high⟩ := exact
  have large : (10 : ℚ) ^ ((d.digits + d.exponent - c.prec) - 1 + c.prec) ≤ |(m : ℚ) * 10 ^ e| := by
    rw [← grid]
    refine le_of_eq_of_le ?_ (leading_le_abs zero)
    congr 1
    ring
  -- the exact value lies on a grid no finer than the one `fix` rounds to
  have above : (d.digits : Int) + d.exponent - c.prec ≤ e := grid_of_magnitude bound large
  simp only [fix, if_neg zero, if_neg (not_lt.2 (above.trans high))]
  split
  next finer =>
    set least := max ((d.digits : Int) + d.exponent - c.prec) c.etiny with leastEq
    have shift : d.exponent + ((least - d.exponent).toNat : Nat) = least := by omega
    have divides := divides_of_grid grid (max_le above low) shift
    have narrow : d.coefficient / 10 ^ (least - d.exponent).toNat < 10 ^ c.prec := by
      refine rounded_digits d ?_
      have := le_max_left ((d.digits : Int) + d.exponent - c.prec) c.etiny
      omega
    -- the division leaves no remainder, so nothing is rounded
    rw [divHalfEven_exact (by positivity) divides, if_neg (not_le.2 narrow)]
    exact ⟨_, rfl, divided_value shift divides⟩
  next => exact ⟨d, rfl, rfl⟩

/-- Addition is exact precisely when the context can store the exact sum. -/
theorem add_exact {c : Context} {a b : Decimal} (exact : c.Representable (a.value + b.value)) :
    ∃ r, add c a b = some r ∧ r.value = a.value + b.value := by
  rw [← addExact_value] at exact ⊢
  exact fix_exact exact

/-- Every partial sum of a fold from `start` is representable. -/
def PartialSums (c : Context) : ℚ → List ℚ → Prop
  | _, [] => True
  | start, v :: vs => c.Representable (start + v) ∧ PartialSums c (start + v) vs

theorem sumFrom_exact {c : Context} (start : Decimal) {ds : List Decimal}
    (exact : PartialSums c start.value (ds.map value)) :
    ∃ total, sumFrom c start ds = some total ∧
      total.value = start.value + (ds.map value).sum := by
  induction ds generalizing start with
  | nil => exact ⟨start, rfl, by simp⟩
  | cons d ds ih =>
    obtain ⟨first, stored, step⟩ := add_exact exact.1
    obtain ⟨total, rest, tail⟩ := ih first (by rw [step]; exact exact.2)
    refine ⟨total, by simp [sumFrom, stored, rest], ?_⟩
    rw [tail, step, List.map_cons, List.sum_cons]
    ring

end Decimal
end Foundation
