import Mathlib.Data.Rat.Defs
import Mathlib.Data.List.TakeWhile
import Mathlib.Algebra.Order.Field.Rat
import Mathlib.Tactic.Ring
import Mathlib.Tactic.FieldSimp
import Mathlib.Tactic.NormNum
import Mathlib.Tactic.Positivity
import Mathlib.Tactic.IntervalCases

/-! Decimal number tokens: an integer part, an optional fraction and an optional exponent. -/
namespace Foundation

structure Numeral where
  negative : Bool
  whole : List Char
  fraction : Option (List Char)
  exponent : Option (Bool × List Char)
deriving DecidableEq

namespace Numeral

def takeDigits (cs : List Char) : List Char := cs.takeWhile (·.isDigit)

def dropDigits (cs : List Char) : List Char := cs.dropWhile (·.isDigit)

def scanMinus : List Char → Bool × List Char
  | '-' :: cs => (true, cs)
  | cs => (false, cs)

/-- A lone zero, or digits that do not start with one. -/
def scanWhole : List Char → Option (List Char × List Char)
  | '0' :: cs => some (['0'], cs)
  | cs => if takeDigits cs = [] then none else some (takeDigits cs, dropDigits cs)

def scanFraction : List Char → Option (List Char) × List Char
  | '.' :: cs =>
    if takeDigits cs = [] then (none, '.' :: cs) else (some (takeDigits cs), dropDigits cs)
  | cs => (none, cs)

def scanSign : List Char → Bool × List Char
  | '-' :: cs => (true, cs)
  | '+' :: cs => (false, cs)
  | cs => (false, cs)

def scanExponent : List Char → Option (Bool × List Char) × List Char
  | [] => (none, [])
  | c :: cs =>
    let (negative, ds) := scanSign cs
    -- an `e` without digits is not part of the number
    if (c = 'e' ∨ c = 'E') ∧ takeDigits ds ≠ [] then
      (some (negative, takeDigits ds), dropDigits ds)
    else (none, c :: cs)

/-- The longest number token at the start of the text. -/
def scan (cs : List Char) : Option (Numeral × List Char) :=
  let (negative, cs) := scanMinus cs
  (scanWhole cs).map fun (whole, cs) =>
    let (fraction, cs) := scanFraction cs
    let (exponent, cs) := scanExponent cs
    (⟨negative, whole, fraction, exponent⟩, cs)

def fractionChars : Option (List Char) → List Char
  | some ds => '.' :: ds
  | none => []

def exponentChars : Option (Bool × List Char) → List Char
  | some (negative, ds) => 'e' :: (if negative then '-' else '+') :: ds
  | none => []

/-- The text of a token; an exponent is written with its sign. -/
def chars (n : Numeral) : List Char :=
  (if n.negative then ['-'] else []) ++
    (n.whole ++ (fractionChars n.fraction ++ exponentChars n.exponent))

structure Digits (ds : List Char) : Prop where
  digit : ∀ c ∈ ds, c.isDigit = true
  nonempty : ds ≠ []

structure WellFormed (n : Numeral) : Prop where
  whole : Digits n.whole
  leading : n.whole = ['0'] ∨ '0' ∉ n.whole.head?
  fraction : ∀ ds ∈ n.fraction, Digits ds
  exponent : ∀ e ∈ n.exponent, Digits e.2

/-- The text goes on with something that no number token contains. -/
def Ends (rest : List Char) : Prop :=
  ∀ c ∈ rest.head?, c.isDigit = false ∧ c ≠ '.' ∧ c ≠ 'e' ∧ c ≠ 'E'

def isInteger (n : Numeral) : Bool := n.fraction.isNone && n.exponent.isNone

/-- The digits read as one natural number. -/
def coefficient (n : Numeral) : Nat := Nat.ofDigitChars 10 (n.whole ++ n.fraction.getD []) 0

/-- The power of ten that the coefficient is scaled by. -/
def scale (n : Numeral) : Int :=
  (match n.exponent with
    | some (negative, ds) =>
      if negative then -(Nat.ofDigitChars 10 ds 0 : Int) else Nat.ofDigitChars 10 ds 0
    | none => 0) - (n.fraction.getD []).length

def magnitude (n : Numeral) : ℚ := n.coefficient * (10 : ℚ) ^ n.scale

def toInt (n : Numeral) : Int := if n.negative then -(n.coefficient : Int) else n.coefficient

def ofInt (i : Int) : Numeral := ⟨decide (i < 0), Nat.toDigits 10 i.natAbs, none, none⟩

private theorem span_digits {ds rest : List Char} (digit : ∀ c ∈ ds, c.isDigit = true)
    (stops : ∀ c ∈ rest.head?, c.isDigit = false) :
    takeDigits (ds ++ rest) = ds ∧ dropDigits (ds ++ rest) = rest := by
  rw [takeDigits, dropDigits, List.takeWhile_append_of_pos digit,
    List.dropWhile_append_of_pos digit]
  cases rest with
  | nil => simp
  | cons c cs =>
    have stop : c.isDigit = false := stops c rfl
    simp [stop]

private theorem scanWhole_digits {ds rest : List Char} (digits : Digits ds)
    (leading : ds = ['0'] ∨ '0' ∉ ds.head?) (stops : ∀ c ∈ rest.head?, c.isDigit = false) :
    scanWhole (ds ++ rest) = some (ds, rest) := by
  obtain ⟨take, drop⟩ := span_digits digits.digit stops
  rcases leading with rfl | leading
  · rfl
  · cases ds with
    | nil => exact absurd rfl digits.nonempty
    | cons d ds =>
      have other : d ≠ '0' := by simpa using leading
      rw [List.cons_append] at take drop ⊢
      unfold scanWhole
      split
      next zero =>
        simp only [List.cons.injEq] at zero
        exact absurd zero.1 other
      next => rw [take, drop, if_neg (List.cons_ne_nil _ _)]

private theorem scanFraction_chars {fraction : Option (List Char)} {rest : List Char}
    (digits : ∀ ds ∈ fraction, Digits ds) (stops : ∀ c ∈ rest.head?, c.isDigit = false)
    (point : fraction = none → scanFraction rest = (none, rest)) :
    scanFraction (fractionChars fraction ++ rest) = (fraction, rest) := by
  cases fraction with
  | none => exact point rfl
  | some ds =>
    obtain ⟨take, drop⟩ := span_digits (digits ds rfl).digit stops
    simp only [fractionChars, List.cons_append, scanFraction, take, drop]
    rw [if_neg (digits ds rfl).nonempty]

private theorem scanExponent_chars {exponent : Option (Bool × List Char)} {rest : List Char}
    (digits : ∀ e ∈ exponent, Digits e.2) (ends : Ends rest) :
    scanExponent (exponentChars exponent ++ rest) = (exponent, rest) := by
  cases exponent with
  | none =>
    cases rest with
    | nil => rfl
    | cons c cs =>
      have other := ends c rfl
      simp only [exponentChars, List.nil_append, scanExponent]
      rw [if_neg (by tauto)]
  | some e =>
    obtain ⟨negative, ds⟩ := e
    obtain ⟨take, drop⟩ := span_digits (digits _ rfl).digit fun c head => (ends c head).1
    have sign : scanSign ((if negative then '-' else '+') :: (ds ++ rest)) =
        (negative, ds ++ rest) := by
      cases negative <;> rfl
    simp only [exponentChars, List.cons_append, scanExponent, sign, take, drop]
    rw [if_pos ⟨.inl trivial, (digits _ rfl).nonempty⟩]

private theorem head_exponent (exponent : Option (Bool × List Char)) {rest : List Char}
    (ends : Ends rest) :
    ∀ c ∈ (exponentChars exponent ++ rest).head?, c.isDigit = false ∧ c ≠ '.' := by
  intro c head
  cases exponent with
  | none => exact ⟨(ends c head).1, (ends c head).2.1⟩
  | some e =>
    simp only [exponentChars, List.cons_append, List.head?_cons, Option.mem_some_iff] at head
    subst head
    decide

private theorem head_fraction (fraction : Option (List Char)) {rest : List Char}
    (stops : ∀ c ∈ rest.head?, c.isDigit = false) :
    ∀ c ∈ (fractionChars fraction ++ rest).head?, c.isDigit = false := by
  intro c head
  cases fraction with
  | none => exact stops c head
  | some ds =>
    simp only [fractionChars, List.cons_append, List.head?_cons, Option.mem_some_iff] at head
    subst head
    decide

private theorem scanMinus_chars {negative : Bool} {cs : List Char} (unsigned : '-' ∉ cs.head?) :
    scanMinus ((if negative then ['-'] else []) ++ cs) = (negative, cs) := by
  cases negative with
  | true => rfl
  | false =>
    simp only [Bool.false_eq_true, ↓reduceIte, List.nil_append]
    unfold scanMinus
    split
    next => exact absurd rfl unsigned
    next => rfl

private theorem head_digits {ds rest : List Char} (digits : Digits ds) :
    ∀ c ∈ (ds ++ rest).head?, c.isDigit = true := by
  intro c head
  cases ds with
  | nil => exact absurd rfl digits.nonempty
  | cons d ds =>
    simp only [List.cons_append, List.head?_cons, Option.mem_some_iff] at head
    subst head
    exact digits.digit _ List.mem_cons_self

/-- Scanning a written token gives the token back. -/
theorem scan_chars {n : Numeral} {rest : List Char} (formed : n.WellFormed) (ends : Ends rest) :
    scan (n.chars ++ rest) = some (n, rest) := by
  have tail := head_exponent n.exponent ends
  have stops := head_fraction n.fraction fun c head => (tail c head).1
  have unsigned : '-' ∉ (n.whole ++ (fractionChars n.fraction ++
      (exponentChars n.exponent ++ rest))).head? := by
    intro head
    exact absurd (head_digits formed.whole _ head) (by decide)
  have point : n.fraction = none → scanFraction (exponentChars n.exponent ++ rest) =
      (none, exponentChars n.exponent ++ rest) := by
    intro _
    unfold scanFraction
    split
    next cs same => exact absurd rfl (tail '.' (by rw [same]; rfl)).2
    next => rfl
  simp only [chars, List.append_assoc, scan, scanMinus_chars unsigned,
    scanWhole_digits formed.whole formed.leading stops, Option.map_some,
    scanFraction_chars formed.fraction (fun c head => (tail c head).1) point,
    scanExponent_chars formed.exponent ends]

theorem digits_toDigits (n : Nat) : Digits (Nat.toDigits 10 n) :=
  ⟨fun _ member => Nat.isDigit_of_mem_toDigits (by norm_num) (by norm_num) member,
    Nat.toDigits_ne_nil⟩

private theorem digitChar_ne_zero {d : Nat} (positive : 0 < d) (below : d < 10) :
    d.digitChar ≠ '0' := by
  interval_cases d <;> decide

/-- Only zero is written with a leading zero. -/
theorem leading_toDigits (n : Nat) :
    Nat.toDigits 10 n = ['0'] ∨ '0' ∉ (Nat.toDigits 10 n).head? := by
  induction n using Nat.strongRecOn with
  | _ n ih =>
    by_cases small : n < 10
    · rw [Nat.toDigits_of_lt_base small]
      rcases Nat.eq_zero_or_pos n with rfl | positive
      · exact .inl rfl
      · exact .inr (by simpa using (digitChar_ne_zero positive small).symm)
    · rw [Nat.toDigits_of_base_le (by norm_num) (not_lt.1 small)]
      refine .inr ?_
      have quotient : n / 10 ≠ 0 := by omega
      have nonempty := Nat.toDigits_ne_nil (b := 10) (n := n / 10)
      rw [List.head?_append_of_ne_nil _ nonempty]
      rcases ih (n / 10) (by omega) with zero | leading
      · have value := congrArg (fun cs => Nat.ofDigitChars 10 cs 0) zero
        simp only [Nat.ofDigitChars_ten_toDigits] at value
        exact absurd value quotient
      · exact leading

theorem ofInt_wellFormed (i : Int) : (ofInt i).WellFormed :=
  ⟨digits_toDigits _, leading_toDigits _, by simp [ofInt], by simp [ofInt]⟩

@[simp] theorem ofInt_isInteger (i : Int) : (ofInt i).isInteger = true := rfl

@[simp] theorem ofInt_toInt (i : Int) : (ofInt i).toInt = i := by
  simp only [ofInt, toInt, coefficient, Option.getD_none, List.append_nil,
    Nat.ofDigitChars_ten_toDigits, decide_eq_true_eq]
  split <;> omega

end Numeral
end Foundation
