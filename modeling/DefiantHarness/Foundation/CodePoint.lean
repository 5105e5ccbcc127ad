import DefiantHarness.Foundation.Utf8
import Mathlib.Data.Fin.Basic
import Mathlib.Data.List.Basic
import Mathlib.Tactic.Common

/-! Text as sequences of code points in which surrogates may stand alone, and its UTF-16 code
units. -/
namespace Foundation

/-- A code point, surrogates included. -/
abbrev CodePoint := Fin 0x110000

abbrev Points := List CodePoint

abbrev CodeUnit := Fin 0x10000

namespace CodeUnit

def high (u : CodeUnit) : Bool := 0xD800 ≤ u.val && u.val < 0xDC00

def low (u : CodeUnit) : Bool := 0xDC00 ≤ u.val && u.val < 0xE000

/-- The code point that a unit spells on its own. -/
def point (u : CodeUnit) : CodePoint := ⟨u.val, by omega⟩

/-- The supplementary code point that a surrogate pair spells. -/
def pair (u v : CodeUnit) : CodePoint :=
  ⟨0x10000 + (u.val % 1024) * 1024 + v.val % 1024, by omega⟩

/-- Read surrogate pairs as one code point. -/
def join : List CodeUnit → Points
  | [] => []
  | [u] => [u.point]
  | u :: v :: us => if u.high && v.low then pair u v :: join us else u.point :: join (v :: us)

end CodeUnit

namespace CodePoint

def high (c : CodePoint) : Bool := 0xD800 ≤ c.val && c.val < 0xDC00

def low (c : CodePoint) : Bool := 0xDC00 ≤ c.val && c.val < 0xE000

/-- One unit, or a surrogate pair above the basic plane. -/
def units (c : CodePoint) : List CodeUnit :=
  if small : c.val < 0x10000 then [⟨c.val, small⟩]
  else
    [⟨0xD800 + (c.val - 0x10000) / 1024, by omega⟩,
      ⟨0xDC00 + (c.val - 0x10000) % 1024, by omega⟩]

def ofChar (c : Char) : CodePoint := ⟨c.toNat, by
  have valid := c.valid
  simp only [UInt32.isValidChar, Nat.isValidChar] at valid
  have : c.val.toNat = c.toNat := rfl
  omega⟩

/-- A character between the quotes of `repr`. Above Latin-1 everything but surrogates counts as
printable. -/
def shown (quote : Char) (c : CodePoint) : List Char :=
  let digit (i : Nat) : Char := Nat.digitChar (c.val / 16 ^ i % 16)
  if c.val = quote.toNat ∨ c.val = 0x5C then ['\\', Char.ofNat c.val]
  else if c.val = 0x09 then ['\\', 't']
  else if c.val = 0x0A then ['\\', 'n']
  else if c.val = 0x0D then ['\\', 'r']
  else if c.val < 0x20 ∨ (0x7F ≤ c.val ∧ c.val ≤ 0xA0) ∨ c.val = 0xAD then
    ['\\', 'x', digit 1, digit 0]
  -- a lone surrogate cannot be printed
  else if c.high || c.low then ['\\', 'u', digit 3, digit 2, digit 1, digit 0]
  else [Char.ofNat c.val]

end CodePoint

namespace Points

instance : LawfulBEq Points := inferInstanceAs (LawfulBEq (List CodePoint))

def units (s : Points) : List CodeUnit := s.flatMap CodePoint.units

/-- Text of an ordinary string. -/
def ofString (s : String) : Points := (charsOf s).map CodePoint.ofChar

theorem ofString_eq (s : String) : ofString s = s.toList.map CodePoint.ofChar := by
  rw [ofString, charsOf_eq]

/-- The ordinary string of a text without surrogates. -/
def toString (s : Points) : String := String.ofList (s.map fun c => Char.ofNat c.val)

def quoteMark (s : Points) : Char :=
  if s.contains (.ofChar '\'') && !s.contains (.ofChar '"') then '"' else '\''

/-- `repr` of a text. -/
def repr (s : Points) : String :=
  String.ofList (s.quoteMark :: s.flatMap (CodePoint.shown s.quoteMark) ++ [s.quoteMark])

/-- No high surrogate stands directly before a low one. -/
def unpaired : Points → Bool
  | c :: d :: s => !(c.high && d.low) && unpaired (d :: s)
  | _ => true

@[simp] theorem units_nil : units [] = [] := rfl

@[simp] theorem units_cons (c : CodePoint) (s : Points) : units (c :: s) = c.units ++ units s := rfl

end Points

open CodeUnit

@[simp] theorem point_units (u : CodeUnit) : u.point.units = [u] := by
  simp [CodePoint.units, point]

@[simp] theorem pair_units {u v : CodeUnit} (high : u.high = true) (low : v.low = true) :
    (pair u v).units = [u, v] := by
  simp only [CodeUnit.high, CodeUnit.low, Bool.and_eq_true, decide_eq_true_eq] at high low
  have large : ¬ (pair u v).val < 0x10000 := by
    simp only [pair]
    omega
  simp only [CodePoint.units, dif_neg large, List.cons.injEq, Fin.ext_iff, and_true]
  simp only [pair]
  omega

/-- Joined units spell the same units again. -/
@[simp] theorem units_join (us : List CodeUnit) : Points.units (join us) = us := by
  induction us using join.induct with
  | case1 => rfl
  | case2 u => simp [join]
  | case3 u v us paired ih =>
    rw [join, if_pos paired, Points.units_cons, ih]
    simp only [Bool.and_eq_true] at paired
    simp [pair_units paired.1 paired.2]
  | case4 u v us apart ih =>
    rw [join, if_neg apart, Points.units_cons, ih]
    simp

theorem join_injective {us vs : List CodeUnit} (same : join us = join vs) : us = vs := by
  have units := congrArg Points.units same
  rwa [units_join, units_join] at units

private theorem units_small {c : CodePoint} (small : c.val < 0x10000) :
    c.units = [⟨c.val, small⟩] := dif_pos small

private theorem join_cons_small {c : CodePoint} {us : List CodeUnit} (small : c.val < 0x10000)
    (apart : ∀ v ∈ us.head?, ¬ (c.high = true ∧ v.low = true)) :
    join (c.units ++ us) = c :: join us := by
  have alone : CodeUnit.point ⟨c.val, small⟩ = c := rfl
  rw [units_small small, List.singleton_append]
  cases us with
  | nil => simp [join, alone]
  | cons v us =>
    have split : ¬ (CodeUnit.high ⟨c.val, small⟩ && v.low) = true := by
      rw [Bool.and_eq_true]
      exact apart v rfl
    rw [join, if_neg split, alone]

private theorem join_cons_astral {c : CodePoint} {us : List CodeUnit} (large : ¬ c.val < 0x10000) :
    join (c.units ++ us) = c :: join us := by
  have bound := c.isLt
  rw [CodePoint.units, dif_neg large, List.cons_append, List.singleton_append]
  have paired : (CodeUnit.high ⟨0xD800 + (c.val - 0x10000) / 1024, by omega⟩ &&
      CodeUnit.low ⟨0xDC00 + (c.val - 0x10000) % 1024, by omega⟩) = true := by
    simp only [CodeUnit.high, CodeUnit.low, Bool.and_eq_true, decide_eq_true_eq]
    omega
  rw [join, if_pos paired, List.cons.injEq]
  refine ⟨?_, rfl⟩
  simp only [pair, Fin.ext_iff]
  omega

private theorem head_units {c : CodePoint} {s : Points} {v : CodeUnit}
    (first : v ∈ (Points.units (c :: s)).head?) : v.low = true → c.low = true := by
  intro low
  by_cases small : c.val < 0x10000
  · rw [Points.units_cons, units_small small] at first
    simp only [List.singleton_append, List.head?_cons, Option.mem_some_iff] at first
    rw [← first] at low
    exact low
  · rw [Points.units_cons, CodePoint.units, dif_neg small] at first
    simp only [List.cons_append, List.head?_cons, Option.mem_some_iff] at first
    rw [← first] at low
    simp only [CodeUnit.low, Bool.and_eq_true, decide_eq_true_eq] at low
    have bound := c.isLt
    omega

/-- Text without adjacent surrogate pairs survives its code units. -/
theorem join_units {s : Points} (unpaired : s.unpaired = true) : join s.units = s := by
  induction s with
  | nil => rfl
  | cons c s ih =>
    have tail : Points.unpaired s = true := by
      cases s with
      | nil => rfl
      | cons d s =>
        simp only [Points.unpaired, Bool.and_eq_true] at unpaired
        exact unpaired.2
    rw [Points.units_cons]
    -- a point of the basic plane is one unit, and `unpaired` keeps it from joining with the next
    by_cases small : c.val < 0x10000
    · rw [join_cons_small small ?_, ih tail]
      cases s with
      | nil => simp
      | cons d s =>
        simp only [Points.unpaired, Bool.and_eq_true, Bool.not_eq_true', Bool.and_eq_false_iff] at unpaired
        intro v first both
        have low := head_units first both.2
        rcases unpaired.1 with high | apart
        · rw [both.1] at high
          cases high
        · rw [low] at apart
          cases apart
    · rw [join_cons_astral small, ih tail]

/-- Joined units never leave an adjacent pair. -/
theorem unpaired_join (us : List CodeUnit) : Points.unpaired (join us) = true := by
  have high_point (u : CodeUnit) : CodePoint.high u.point = u.high := rfl
  have low_point (u : CodeUnit) : CodePoint.low u.point = u.low := rfl
  have above (u v : CodeUnit) :
      CodePoint.high (pair u v) = false ∧ CodePoint.low (pair u v) = false := by
    constructor <;> refine Bool.eq_false_iff.2 fun surrogate => ?_
    · simp only [CodePoint.high, Bool.and_eq_true, decide_eq_true_eq] at surrogate
      simp only [pair] at surrogate
      omega
    · simp only [CodePoint.low, Bool.and_eq_true, decide_eq_true_eq] at surrogate
      simp only [pair] at surrogate
      omega
  -- a point may go in front unless it is high and the next one low
  have cons (c : CodePoint) (s : Points) (apart : ∀ d ∈ s.head?, (c.high && d.low) = false)
      (rest : Points.unpaired s = true) : Points.unpaired (c :: s) = true := by
    cases s with
    | nil => rfl
    | cons d s => simp [Points.unpaired, apart d rfl, rest]
  induction us using join.induct with
  | case1 => rfl
  | case2 u => rfl
  | case3 u v us paired ih =>
    rw [join, if_pos paired]
    exact cons _ _ (fun d _ => by simp [(above u v).1]) ih
  | case4 u v us apart ih =>
    rw [join, if_neg apart]
    refine cons _ _ ?_ ih
    intro d first
    rw [high_point]
    -- the next point is the second unit itself or a pair that it starts
    cases us with
    | nil =>
      simp only [join, List.head?_cons, Option.mem_some_iff] at first
      rw [← first, low_point]
      simpa using apart
    | cons w us =>
      rw [join] at first
      split at first
      · simp only [List.head?_cons, Option.mem_some_iff] at first
        rw [← first, (above v w).2, Bool.and_false]
      · simp only [List.head?_cons, Option.mem_some_iff] at first
        rw [← first, low_point]
        simpa using apart

theorem join_units_iff {s : Points} : join s.units = s ↔ s.unpaired = true := by
  constructor
  · intro same
    rw [← same]
    exact unpaired_join _
  · exact join_units

/-- The units of an astral code point are a surrogate pair. -/
private theorem units_astral {c : CodePoint} (large : ¬ c.val < 0x10000) :
    ∃ u v, c.units = [u, v] ∧ u.high = true ∧ v.low = true := by
  have bound := c.isLt
  refine ⟨_, _, dif_neg large, ?_, ?_⟩
  · simp only [CodeUnit.high, Bool.and_eq_true, decide_eq_true_eq]
    omega
  · simp only [CodeUnit.low, Bool.and_eq_true, decide_eq_true_eq]
    omega

private theorem high_not_low {u : CodeUnit} (high : u.high = true) : u.low = false := by
  simp only [CodeUnit.high, Bool.and_eq_true, decide_eq_true_eq] at high
  simp only [CodeUnit.low, Bool.and_eq_false_iff, decide_eq_false_iff_not]
  omega

private theorem join_length_of_units {us : List CodeUnit} {s : Points} (spelled : s.units = us) :
    (join us).length ≤ s.length := by
  induction us using join.induct generalizing s with
  | case1 => simp [join]
  | case2 u =>
    cases s with
    | nil => simp at spelled
    | cons c s => simp [join]
  | case3 u v us paired ih =>
    rw [join, if_pos paired, List.length_cons]
    rw [Bool.and_eq_true] at paired
    cases s with
    | nil => simp at spelled
    | cons c s =>
      rw [Points.units_cons] at spelled
      by_cases small : c.val < 0x10000
      · rw [units_small small, List.singleton_append, List.cons.injEq] at spelled
        cases s with
        | nil => simp at spelled
        | cons d s =>
          -- a low unit is never the first of an astral code point
          have basic : d.val < 0x10000 := by
            by_contra large
            obtain ⟨a, b, shape, high, _⟩ := units_astral large
            rw [Points.units_cons, shape, List.cons_append, List.cons.injEq] at spelled
            rw [← spelled.2.1, high_not_low high] at paired
            exact absurd paired.2 (by simp)
          rw [Points.units_cons, units_small basic, List.singleton_append, List.cons.injEq] at spelled
          have shorter := ih spelled.2.2
          simp only [List.length_cons]
          omega
      · obtain ⟨a, b, shape, _, _⟩ := units_astral small
        rw [shape, List.cons_append, List.singleton_append, List.cons.injEq, List.cons.injEq]
          at spelled
        have shorter := ih spelled.2.2
        simp only [List.length_cons]
        omega
  | case4 u v us apart ih =>
    rw [join, if_neg apart, List.length_cons]
    cases s with
    | nil => simp at spelled
    | cons c s =>
      rw [Points.units_cons] at spelled
      by_cases small : c.val < 0x10000
      · rw [units_small small, List.singleton_append, List.cons.injEq] at spelled
        exact Nat.succ_le_succ (ih spelled.2)
      · obtain ⟨a, b, shape, high, low⟩ := units_astral small
        rw [shape, List.cons_append, List.singleton_append, List.cons.injEq, List.cons.injEq]
          at spelled
        rw [← spelled.1, ← spelled.2.1, high, low] at apart
        exact absurd rfl apart

/-- Joining never makes a text longer. -/
theorem join_length_le (s : Points) : (join s.units).length ≤ s.length :=
  join_length_of_units rfl

/-- Text of an ordinary string has no surrogates to join. -/
@[simp] theorem join_ofString (s : String) : join (Points.ofString s).units = Points.ofString s := by
  apply join_units
  rw [Points.ofString_eq]
  induction s.toList with
  | nil => rfl
  | cons c cs ih =>
    have plain : (CodePoint.ofChar c).high = false := by
      have valid := c.valid
      simp only [UInt32.isValidChar, Nat.isValidChar] at valid
      have code : (CodePoint.ofChar c).val = c.val.toNat := rfl
      refine Bool.eq_false_iff.2 fun surrogate => ?_
      simp only [CodePoint.high, Bool.and_eq_true, decide_eq_true_eq] at surrogate
      omega
    cases cs with
    | nil => rfl
    | cons d ds =>
      simp only [List.map_cons, Points.unpaired, plain, Bool.false_and, Bool.not_false, Bool.true_and]
      exact ih

theorem ofChar_injective : Function.Injective CodePoint.ofChar := by
  intro c d equal
  have code : (CodePoint.ofChar c).val = (CodePoint.ofChar d).val := by rw [equal]
  exact Char.toNat_inj.1 code

theorem ofString_injective {s t : String} (same : Points.ofString s = Points.ofString t) : s = t := by
  rw [Points.ofString_eq, Points.ofString_eq] at same
  exact String.toList_injective (ofChar_injective.list_map same)

theorem toString_ofString (s : String) : (Points.ofString s).toString = s := by
  have chars : (fun c : CodePoint => Char.ofNat c.val) ∘ CodePoint.ofChar = id := by
    funext c
    exact Char.ofNat_toNat c
  rw [Points.toString, Points.ofString_eq, List.map_map, chars, List.map_id, String.ofList_toList]

/-! ### Text below the surrogates -/

namespace Points

/-- Every code point is below the surrogates. -/
def plain (s : Points) : Bool := s.all fun c => c.val < 0xD800

end Points

private theorem join_cons_plain {c : CodePoint} (below : c.val < 0xD800) (s : Points) :
    join (Points.units (c :: s)) = c :: join s.units := by
  rw [Points.units_cons]
  apply join_cons_small (by omega)
  rintro v - ⟨high, -⟩
  simp only [CodePoint.high, Bool.and_eq_true, decide_eq_true_eq] at high
  omega

/-- What starts at or above the surrogates still does when it is joined. -/
private theorem join_cons_above {c : CodePoint} (above : 0xD800 ≤ c.val) (s : Points) :
    ∃ d t, join (Points.units (c :: s)) = d :: t ∧ 0xD800 ≤ d.val := by
  have first (u : CodeUnit) (us : List CodeUnit) (large : 0xD800 ≤ u.val) :
      ∃ d t, join (u :: us) = d :: t ∧ 0xD800 ≤ d.val := by
    cases us with
    | nil => exact ⟨u.point, [], rfl, large⟩
    | cons v us =>
      rw [join]
      split
      · exact ⟨_, _, rfl, by simp only [pair]; omega⟩
      · exact ⟨_, _, rfl, large⟩
  rw [Points.units_cons]
  by_cases small : c.val < 0x10000
  · rw [units_small small]
    exact first _ _ above
  · rw [CodePoint.units, dif_neg small]
    exact first _ _ (by simp only; omega)

/-- Joining keeps how text compares with text below the surrogates. -/
theorem join_lt_iff {s : Points} (plain : s.plain = true) (t : Points) :
    join t.units < s ↔ t < s := by
  induction s generalizing t with
  | nil => simp
  | cons a s ih =>
    simp only [Points.plain, List.all_cons, Bool.and_eq_true, decide_eq_true_eq] at plain
    cases t with
    | nil => simp [join]
    | cons c t =>
      by_cases below : c.val < 0xD800
      · rw [join_cons_plain below, List.cons_lt_cons_iff, List.cons_lt_cons_iff, ih plain.2]
      · obtain ⟨d, u, shape, large⟩ := join_cons_above (not_lt.1 below) t
        -- the first code point decides on both sides
        rw [shape, List.cons_lt_cons_iff, List.cons_lt_cons_iff]
        have left : ¬ d < a := fun less => by have := Fin.lt_def.1 less; omega
        have right : ¬ c < a := fun less => by have := Fin.lt_def.1 less; omega
        have apart : d ≠ a := fun same => by rw [same] at large; omega
        have apart' : c ≠ a := fun same => by rw [same] at below; omega
        simp [left, right, apart, apart']

theorem lt_join_iff {s : Points} (plain : s.plain = true) (t : Points) :
    s < join t.units ↔ s < t := by
  induction s generalizing t with
  | nil =>
    cases t with
    | nil => simp [join]
    | cons c t =>
      by_cases below : c.val < 0xD800
      · rw [join_cons_plain below]
        simp
      · obtain ⟨d, u, shape, -⟩ := join_cons_above (not_lt.1 below) t
        rw [shape]
        simp
  | cons a s ih =>
    simp only [Points.plain, List.all_cons, Bool.and_eq_true, decide_eq_true_eq] at plain
    cases t with
    | nil => simp [join]
    | cons c t =>
      by_cases below : c.val < 0xD800
      · rw [join_cons_plain below, List.cons_lt_cons_iff, List.cons_lt_cons_iff, ih plain.2]
      · obtain ⟨d, u, shape, large⟩ := join_cons_above (not_lt.1 below) t
        rw [shape, List.cons_lt_cons_iff, List.cons_lt_cons_iff]
        -- joining may change the point, but it stays above every plain one
        have left : a < d := Fin.lt_def.2 (by omega)
        have right : a < c := Fin.lt_def.2 (by omega)
        simp [left, right]

/-- Only text below the surrogates joins to such text. -/
theorem eq_of_join {s t : Points} (plain : s.plain = true) (same : join t.units = s) : t = s := by
  apply List.le_antisymm
  · apply List.not_lt.1
    rw [← lt_join_iff plain, same]
    exact List.lt_irrefl s
  · apply List.not_lt.1
    rw [← join_lt_iff plain, same]
    exact List.lt_irrefl s

theorem join_plain {s : Points} (plain : s.plain = true) : join s.units = s := by
  apply List.le_antisymm
  · apply List.not_lt.1
    rw [lt_join_iff plain]
    exact List.lt_irrefl s
  · apply List.not_lt.1
    rw [join_lt_iff plain]
    exact List.lt_irrefl s

end Foundation
