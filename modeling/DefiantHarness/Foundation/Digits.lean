import DefiantHarness.Foundation.DecimalText
import Mathlib.Tactic.IntervalCases

/-! Decimal digit strings: appending zeros, cutting zeros off, and splitting at the point. -/
namespace Foundation

def trailingZeros (ds : List Char) : Nat := (ds.reverse.takeWhile (· == '0')).length

theorem toDigits_step {n : Nat} (large : 10 ≤ n) :
    Nat.toDigits 10 n = Nat.toDigits 10 (n / 10) ++ [Nat.digitChar (n % 10)] :=
  Nat.toDigits_of_base_le (by norm_num) large

/-- A power of ten appends zeros. -/
theorem toDigits_mul_pow {n : Nat} (positive : 0 < n) (k : Nat) :
    Nat.toDigits 10 (n * 10 ^ k) = Nat.toDigits 10 n ++ List.replicate k '0' := by
  induction k with
  | zero => simp
  | succ k ih =>
    have one : 1 ≤ n * 10 ^ k := Nat.mul_pos positive (by positivity)
    have shape : n * 10 ^ (k + 1) = n * 10 ^ k * 10 := by rw [pow_succ, mul_assoc]
    rw [toDigits_step (by omega), shape, Nat.mul_div_cancel _ (by norm_num), ih,
      Nat.mul_mod_left, List.append_assoc, List.replicate_succ']
    rfl

theorem toDigits_leftpad_length {n k : Nat} (below : n < 10 ^ k) (positive : 0 < k) :
    ((Nat.toDigits 10 n).leftpad k '0').length = k := by
  have short := (Nat.length_toDigits_le_iff (by norm_num) positive).2 below
  simp only [List.leftpad, List.length_append, List.length_replicate]
  omega

private theorem leftpad_step {n k : Nat} (below : n < 10 ^ (k + 1)) (positive : 0 < k) :
    (Nat.toDigits 10 n).leftpad (k + 1) '0' =
      (Nat.toDigits 10 (n / 10)).leftpad k '0' ++ [Nat.digitChar (n % 10)] := by
  by_cases small : n < 10
  · have quotient : n / 10 = 0 := Nat.div_eq_of_lt small
    obtain ⟨k, rfl⟩ : ∃ j, k = j + 1 := ⟨k - 1, by omega⟩
    rw [quotient, Nat.toDigits_of_lt_base small, Nat.mod_eq_of_lt small, Nat.toDigits_zero]
    simp only [List.leftpad, List.length_singleton, Nat.add_sub_cancel]
    rw [List.replicate_succ']
  · have step := toDigits_step (not_lt.1 small)
    rw [step]
    simp only [List.leftpad, List.length_append, List.length_singleton, Nat.reduceSubDiff]
    rw [List.append_assoc]

/-- The digits of a number, cut `k` places from the right. -/
theorem toDigits_split {n k : Nat} (positive : 0 < k) (large : 10 ^ k ≤ n) :
    Nat.toDigits 10 n =
      Nat.toDigits 10 (n / 10 ^ k) ++ (Nat.toDigits 10 (n % 10 ^ k)).leftpad k '0' := by
  induction k generalizing n with
  | zero => exact absurd positive (lt_irrefl 0)
  | succ k ih =>
    rcases Nat.eq_zero_or_pos k with rfl | more
    · have below : n % 10 < 10 := Nat.mod_lt _ (by norm_num)
      have digit : (Nat.toDigits 10 (n % 10)).leftpad 1 '0' = [Nat.digitChar (n % 10)] := by
        rw [Nat.toDigits_of_lt_base below]
        rfl
      simp only [zero_add, pow_one] at large ⊢
      rw [toDigits_step large, digit]
    · have power : 10 ^ (k + 1) = 10 * 10 ^ k := pow_succ' ..
      have one : 1 ≤ 10 ^ k := Nat.one_le_pow _ _ (by norm_num)
      have quotient : n / 10 ^ (k + 1) = n / 10 / 10 ^ k := by rw [power, Nat.div_div_eq_div_mul]
      have remainder : n % 10 ^ (k + 1) / 10 = n / 10 % 10 ^ k := by
        rw [power, Nat.mod_mul_right_div_self]
      have last : n % 10 ^ (k + 1) % 10 = n % 10 := by
        rw [power, Nat.mod_mul_right_mod]
      rw [toDigits_step (by omega), ih more (show 10 ^ k ≤ n / 10 by omega),
        leftpad_step (Nat.mod_lt _ (by positivity)) more, remainder, last, quotient,
        List.append_assoc]

private theorem digitChar_zero_iff {d : Nat} (below : d < 10) : d.digitChar = '0' ↔ d = 0 := by
  interval_cases d <;> decide

/-- Trimming a coefficient cuts its trailing zeros, at most one for each fraction digit. -/
theorem trim_digits {n : Nat} (positive : 0 < n) (k : Nat) :
    let removed := min k (trailingZeros (Nat.toDigits 10 n))
    Nat.toDigits 10 (Decimal.trim n k).1 =
        (Nat.toDigits 10 n).take ((Nat.toDigits 10 n).length - removed) ∧
      (Decimal.trim n k).2 = k - removed := by
  induction k generalizing n with
  | zero => simp [Decimal.trim]
  | succ k ih =>
    have digit : n % 10 < 10 := Nat.mod_lt _ (by norm_num)
    -- one step of `trim` takes one zero off the end of the digits
    by_cases divides : 10 ∣ n
    · have zero : n % 10 = 0 := Nat.mod_eq_zero_of_dvd divides
      have large : 10 ≤ n := Nat.le_of_dvd positive divides
      have tail := ih (show 0 < n / 10 by omega)
      have shape : Nat.toDigits 10 n = Nat.toDigits 10 (n / 10) ++ ['0'] := by
        rw [toDigits_step large, zero]
        rfl
      have zeros : trailingZeros (Nat.toDigits 10 n) =
          trailingZeros (Nat.toDigits 10 (n / 10)) + 1 := by
        simp [trailingZeros, shape]
      have bound : trailingZeros (Nat.toDigits 10 (n / 10)) ≤ (Nat.toDigits 10 (n / 10)).length := by
        have := (List.takeWhile_prefix (· == '0') (l := (Nat.toDigits 10 (n / 10)).reverse)).length_le
        rwa [List.length_reverse] at this
      simp only at tail
      rw [Decimal.trim, if_pos divides, zeros]
      have least : min (k + 1) (trailingZeros (Nat.toDigits 10 (n / 10)) + 1) =
          min k (trailingZeros (Nat.toDigits 10 (n / 10))) + 1 := by omega
      simp only [least, tail.1, tail.2]
      refine ⟨?_, by omega⟩
      rw [shape, List.length_append, List.length_singleton, Nat.add_sub_add_right,
        List.take_append_of_le_length (by omega)]
    -- the last digit is not a zero, and `trim` stops
    · have ragged : trailingZeros (Nat.toDigits 10 n) = 0 := by
        have nonzero : n % 10 ≠ 0 := fun zero => divides (Nat.dvd_of_mod_eq_zero zero)
        have last : (n % 10).digitChar ≠ '0' := fun same => nonzero ((digitChar_zero_iff digit).1 same)
        by_cases large : 10 ≤ n
        · simp [trailingZeros, toDigits_step large, last]
        · have own : n % 10 = n := Nat.mod_eq_of_lt (not_le.1 large)
          rw [own] at last
          simp [trailingZeros, Nat.toDigits_of_lt_base (not_le.1 large), last]
      rw [Decimal.trim, if_neg divides, ragged]
      simp

end Foundation
