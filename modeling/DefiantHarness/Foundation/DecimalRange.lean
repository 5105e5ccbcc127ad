import DefiantHarness.Foundation.Decimal

/-! When rounding into a decimal context overflows. -/
namespace Foundation

/-- Below the greatest finite number by more than half of its last digit. -/
def Context.InRange (c : Context) (v : ℚ) : Prop :=
  |v| < (10 ^ c.prec - 1 / 2) * (10 : ℚ) ^ c.etop

namespace Decimal

variable {c : Context} {d : Decimal}

/-- Rounding stays below an even bound exactly below half of the last unit before it: the tie goes
up. -/
private theorem divHalfEven_lt_iff {n k m : Nat} (positive : 0 < k) (half : 0 < m) :
    divHalfEven n k < 2 * m ↔ 2 * n < (4 * m - 1) * k := by
  have parts := Nat.div_add_mod n k
  have small := Nat.mod_lt n positive
  obtain ⟨h, rfl⟩ : ∃ h, m = h + 1 := ⟨m - 1, by omega⟩
  unfold divHalfEven
  simp only
  generalize n / k = q at parts ⊢
  generalize n % k = r at parts small ⊢
  rw [show 4 * (h + 1) - 1 = 4 * h + 3 by omega]
  rcases lt_trichotomy q (2 * h + 1) with below | rfl | above
  · have product : k * (q + 1) ≤ k * (2 * h + 1) := Nat.mul_le_mul_left k below
    have left : (if k < 2 * r ∨ 2 * r = k ∧ q % 2 = 1 then q + 1 else q) < 2 * (h + 1) := by
      split <;> omega
    simp only [left, true_iff]
    nlinarith
  · -- the odd quotient just below the bound
    have odd : (2 * h + 1) % 2 = 1 := by omega
    simp only [odd, and_true]
    constructor
    · intro low
      split at low
      next => omega
      next down =>
        have less : 2 * r < k := by omega
        nlinarith
    · intro low
      have less : 2 * r < k := by nlinarith
      rw [if_neg (by omega)]
      omega
  · have product : k * (2 * h + 2) ≤ k * q := Nat.mul_le_mul_left k above
    constructor
    · intro low
      split at low <;> omega
    · intro low
      nlinarith

private theorem inRange_of_lt (positive : 0 < c.prec)
    (below : |d.value| < (10 : ℚ) ^ (c.prec + c.etop - 1)) : c.InRange d.value := by
  refine below.trans_le ?_
  have split : (10 : ℚ) ^ (c.prec + c.etop - 1) = 10 ^ c.prec / 10 * (10 : ℚ) ^ c.etop := by
    rw [zpow_sub₀ (by norm_num), zpow_add₀ (by norm_num), zpow_natCast, zpow_one]
    ring
  rw [split]
  apply mul_le_mul_of_nonneg_right _ (by positivity)
  have large : (10 : ℚ) ≤ 10 ^ c.prec := le_self_pow₀ (by norm_num) (by omega)
  linarith

private theorem abs_value_lt : |d.value| < (10 : ℚ) ^ ((d.digits : Int) + d.exponent) := by
  rw [abs_value, zpow_add₀ (by norm_num), zpow_natCast]
  apply mul_lt_mul_of_pos_right _ (by positivity)
  exact_mod_cast d.coefficient_lt

/-- A coefficient that needs no rounding is in range. -/
private theorem inRange_of_coarse (positive : 0 < c.prec)
    (high : (d.digits : Int) + d.exponent - c.prec ≤ c.etop)
    (narrow : (d.digits : Int) - c.prec ≤ 0 ∨ c.etop ≤ d.exponent) : c.InRange d.value := by
  rcases lt_or_ge d.exponent c.etop with below | above
  · apply inRange_of_lt positive
    refine abs_value_lt.trans_le (zpow_le_zpow_right₀ (by norm_num) ?_)
    omega
  · rw [Context.InRange, abs_value]
    have whole : (d.coefficient : ℚ) ≤ 10 ^ d.digits - 1 := by
      have := d.coefficient_lt
      have step : (d.coefficient : ℚ) + 1 ≤ 10 ^ d.digits := by exact_mod_cast this
      linarith
    have unit : (10 : ℚ) ^ c.etop ≤ (10 : ℚ) ^ d.exponent := zpow_le_zpow_right₀ (by norm_num) above
    have top : (10 : ℚ) ^ d.digits * (10 : ℚ) ^ d.exponent ≤ 10 ^ c.prec * (10 : ℚ) ^ c.etop := by
      rw [← zpow_natCast, ← zpow_natCast, ← zpow_add₀ (by norm_num), ← zpow_add₀ (by norm_num)]
      exact zpow_le_zpow_right₀ (by norm_num) (by omega)
    have some : (0 : ℚ) < (10 : ℚ) ^ c.etop := by positivity
    have power : (0 : ℚ) < (10 : ℚ) ^ d.exponent := by positivity
    calc (d.coefficient : ℚ) * (10 : ℚ) ^ d.exponent
        ≤ (10 ^ d.digits - 1) * (10 : ℚ) ^ d.exponent := mul_le_mul_of_nonneg_right whole power.le
      _ < (10 ^ c.prec - 1 / 2) * (10 : ℚ) ^ c.etop := by linarith

/-- The range at the grid of a rounded coefficient. -/
private theorem lt_grid_iff {k : Nat} {e : Int} (grid : d.exponent + k = e) :
    |d.value| < (10 ^ c.prec - 1 / 2) * (10 : ℚ) ^ e ↔
      2 * d.coefficient < (2 * 10 ^ c.prec - 1) * 10 ^ k := by
  have power : (0 : ℚ) < (10 : ℚ) ^ d.exponent := by positivity
  have split : (10 : ℚ) ^ e = 10 ^ k * (10 : ℚ) ^ d.exponent := by
    rw [← grid, zpow_add₀ (by norm_num), zpow_natCast, mul_comm]
  have whole : ((2 * 10 ^ c.prec - 1 : Nat) : ℚ) = 2 * 10 ^ c.prec - 1 := by
    have one : 1 ≤ 2 * 10 ^ c.prec := by
      have : 0 < 10 ^ c.prec := by positivity
      omega
    push_cast [Nat.cast_sub one]
    ring
  have cast : 2 * d.coefficient < (2 * 10 ^ c.prec - 1) * 10 ^ k ↔
      (2 * d.coefficient : ℚ) < (2 * 10 ^ c.prec - 1) * 10 ^ k := by
    rw [← whole]
    exact_mod_cast Iff.rfl
  rw [abs_value, split, ← mul_assoc, mul_lt_mul_iff_of_pos_right power, cast]
  constructor <;> intro low <;> linarith

/-- Rounding overflows exactly outside the range. -/
theorem fix_isSome_iff (positive : 0 < c.prec) : (fix c d).isSome = true ↔ c.InRange d.value := by
  by_cases zero : d.coefficient = 0
  · simp only [fix, if_pos zero, Option.isSome_some, true_iff]
    apply inRange_of_lt positive
    rw [(value_eq_zero_iff d).2 zero, abs_zero]
    positivity
  simp only [fix, if_neg zero]
  split
  next wide =>
    -- the leading digit alone is out of range
    simp only [Option.isSome_none, Bool.false_eq_true, false_iff, Context.InRange, not_lt]
    have leading := leading_le_abs zero
    have order : (10 : ℚ) ^ ((c.prec : Int) + c.etop) ≤ (10 : ℚ) ^ ((d.digits : Int) - 1 + d.exponent) :=
      zpow_le_zpow_right₀ (by norm_num) (by omega)
    rw [zpow_add₀ (by norm_num), zpow_natCast] at order
    have some : (0 : ℚ) < (10 : ℚ) ^ c.etop := by positivity
    linarith
  next fits =>
    have grids := c.etiny_le_etop
    set least := max ((d.digits : Int) + d.exponent - c.prec) c.etiny with leastEq
    have atMost : least ≤ c.etop := max_le (not_lt.1 fits) grids
    have leading : (d.digits : Int) + d.exponent - c.prec ≤ least := le_max_left _ _
    have even : (10 : Nat) ^ c.prec = 2 * (5 * 10 ^ (c.prec - 1)) := by
      obtain ⟨p, same⟩ : ∃ p, c.prec = p + 1 := ⟨c.prec - 1, by omega⟩
      rw [same, pow_succ, Nat.add_sub_cancel]
      ring
    split
    next finer =>
      have grid : d.exponent + ((least - d.exponent).toNat : Nat) = least := by omega
      have rounds := divHalfEven_lt_iff (n := d.coefficient)
        (k := 10 ^ (least - d.exponent).toNat) (m := 5 * 10 ^ (c.prec - 1)) (by positivity) (by positivity)
      rw [show 4 * (5 * 10 ^ (c.prec - 1)) - 1 = 2 * 10 ^ c.prec - 1 by omega, ← even,
        ← lt_grid_iff grid] at rounds
      split
      next carried =>
        split
        next high =>
          have outside := rounds.not.1 (not_lt.2 carried)
          rw [show least = c.etop by omega] at outside
          simpa [Context.InRange] using outside
        next low =>
          simp only [Option.isSome_some, true_iff]
          apply inRange_of_lt positive
          refine abs_value_lt.trans_le (zpow_le_zpow_right₀ (by norm_num) ?_)
          omega
      next within =>
        simp only [Option.isSome_some, true_iff]
        refine (rounds.1 (not_le.1 within)).trans_le ?_
        apply mul_le_mul_of_nonneg_left (zpow_le_zpow_right₀ (by norm_num) atMost)
        have large : (1 : ℚ) ≤ 10 ^ c.prec := one_le_pow₀ (by norm_num)
        linarith
    next coarse =>
      simp only [Option.isSome_some, true_iff]
      apply inRange_of_coarse positive (not_lt.1 fits)
      left
      omega

theorem add_isSome_iff (positive : 0 < c.prec) {a b : Decimal} :
    (add c a b).isSome = true ↔ c.InRange (a.value + b.value) := by
  rw [add, fix_isSome_iff positive, addExact_value]

theorem sub_isSome_iff (positive : 0 < c.prec) {a b : Decimal} :
    (sub c a b).isSome = true ↔ c.InRange (a.value - b.value) := by
  rw [sub, add_isSome_iff positive, neg_value, sub_eq_add_neg]

end Decimal
end Foundation
