import Mathlib.Data.List.Infix
import DefiantHarness.Foundation.CodePoint

/-! Shell-style patterns: stars, single wildcards and bracketed sets of code points. -/
namespace Foundation

namespace Glob

def star : CodePoint := .ofChar '*'

def question : CodePoint := .ofChar '?'

def opening : CodePoint := .ofChar '['

def closing : CodePoint := .ofChar ']'

def bang : CodePoint := .ofChar '!'

def hyphen : CodePoint := .ofChar '-'

/-- A set of code points between brackets: ranges, possibly all but them. -/
structure CharSet where
  negated : Bool
  ranges : List (CodePoint × CodePoint)
deriving DecidableEq

def CharSet.has (set : CharSet) (c : CodePoint) : Bool :=
  (set.ranges.any fun r => decide (r.1 ≤ c) && decide (c ≤ r.2)) != set.negated

/-- One element of a pattern. -/
inductive Token where
  | any
  | one
  | literal (c : CodePoint)
  | set (chars : CharSet)
deriving DecidableEq

/-- The text inside brackets, and what follows the closing one. -/
def closeBracket : Points → Option (Points × Points)
  | [] => none
  | c :: s =>
    if c = closing then some ([], s)
    else (closeBracket s).map fun (inside, after) => (c :: inside, after)

/-- A closing bracket in first place, or after a negation, stands for itself. -/
def bracket : Points → Option (Points × Points)
  | c :: d :: s =>
    if c = bang && d = closing then (closeBracket s).map fun (inside, after) => (c :: d :: inside, after)
    else if c = closing || c = bang then
      (closeBracket (d :: s)).map fun (inside, after) => (c :: inside, after)
    else closeBracket (c :: d :: s)
  | s => if s.head? = some closing then none else closeBracket s

/-- Cut off a piece of at least `n` code points at the next hyphen. -/
def cut : Nat → Points → Points × Option Points
  | _, [] => ([], none)
  -- a hyphen before this position is one of the characters
  | 0, c :: s =>
    if c = hyphen then ([], some s)
    else
      let (piece, rest) := cut 0 s
      (c :: piece, rest)
  | n + 1, c :: s =>
    let (piece, rest) := cut n s
    (c :: piece, rest)

/-- The pieces between the hyphens that make ranges; a hyphen at the end stands for itself. -/
def pieces : Nat → Nat → Points → List Points
  | 0, _, s => [s]
  | fuel + 1, n, s =>
    match cut n s with
    | (piece, none) => [piece]
    | (piece, some []) => [piece ++ [hyphen]]
    | (piece, some rest) => piece :: pieces fuel 2 rest

/-- Drop the ends of the ranges that run backwards. -/
def mergeBackward : List Points → List Points
  | [] => []
  | piece :: rest =>
    match mergeBackward rest with
    | [] => [piece]
    | next :: others =>
      match piece.getLast?, next.head? with
      | some lo, some hi =>
        -- a reversed range is empty, and takes its two ends with it
        if hi < lo then (piece.dropLast ++ next.tail) :: others else piece :: next :: others
      | _, _ => piece :: next :: others

/-- Every code point of the pieces, and a range over each hyphen between two of them. -/
def rangesOf : List Points → List (CodePoint × CodePoint)
  | [] => []
  | [piece] => piece.map fun c => (c, c)
  | piece :: next :: rest =>
    (piece.map fun c => (c, c)) ++
      (match piece.getLast?, next.head? with
      | some lo, some hi => [(lo, hi)]
      | none, some _ => [(hyphen, hyphen)]
      | _, none => []) ++ rangesOf (next :: rest)

/-- The set that a text between brackets stands for: nothing at all where only a backward range was
there, and everything where only a negation is left. -/
def charSet (inside : Points) : CharSet :=
  let first := if inside.head? = some bang then 2 else 1
  match mergeBackward (pieces inside.length first inside) with
  | (c :: piece) :: rest =>
    if c = bang then ⟨true, rangesOf (piece :: rest)⟩ else ⟨false, rangesOf ((c :: piece) :: rest)⟩
  | other => ⟨false, rangesOf other⟩

def tokens : Nat → Points → List Token
  | 0, _ => []
  | _ + 1, [] => []
  | fuel + 1, c :: s =>
    if c = star then .any :: tokens fuel s
    else if c = question then .one :: tokens fuel s
    else if c = opening then
      match bracket s with
      | some (inside, after) => .set (charSet inside) :: tokens fuel after
      -- an opening bracket that is never closed stands for itself
      | none => .literal c :: tokens fuel s
    else .literal c :: tokens fuel s

def Token.admits : Token → CodePoint → Bool
  | .any, _ => true
  | .one, _ => true
  | .literal d, c => d == c
  | .set chars, c => chars.has c

def matchTokens : List Token → Points → Bool
  | [], s => s.isEmpty
  | .any :: ts, s => s.tails.any fun rest => matchTokens ts rest
  | t :: ts, s =>
    match s with
    | [] => false
    | c :: rest => t.admits c && matchTokens ts rest

end Glob

/-- Whether a name matches a pattern, upper and lower case apart. -/
def fnmatchcase (name pattern : Points) : Bool :=
  Glob.matchTokens (Glob.tokens pattern.length pattern) name

example : fnmatchcase (.ofString "fs.write-2") (.ofString "fs.[!a-r]*-[0-9]") = true := by decide

/-! ### Patterns without wildcards but a last star -/

namespace Glob

/-- A code point that stands for itself everywhere in a pattern. -/
def plain (c : CodePoint) : Bool := c != star && c != question && c != opening

private theorem tokens_plain {s : Points} (literal : s.all plain = true) (fuel : Nat) (rest : Points) :
    tokens (s.length + fuel) (s ++ rest) = s.map Token.literal ++ tokens fuel rest := by
  induction s with
  | nil => simp
  | cons c s ih =>
    rw [List.all_cons, Bool.and_eq_true] at literal
    obtain ⟨first, others⟩ := literal
    simp only [plain, Bool.and_eq_true, bne_iff_ne] at first
    rw [List.length_cons, Nat.add_right_comm, List.cons_append, tokens, if_neg first.1.1,
      if_neg first.1.2, if_neg first.2, ih others]
    rfl

private theorem matchTokens_plain (s : Points) (ts : List Token) (name : Points) :
    matchTokens (s.map Token.literal ++ ts) name = true ↔
      ∃ rest, name = s ++ rest ∧ matchTokens ts rest = true := by
  induction s generalizing name with
  | nil => simp
  | cons c s ih =>
    cases name with
    | nil => simp [matchTokens]
    | cons d name =>
      rw [List.map_cons, List.cons_append, matchTokens]
      · simp only [Token.admits, Bool.and_eq_true, beq_iff_eq, ih, List.cons_append, List.cons.injEq]
        constructor
        · rintro ⟨rfl, rest, rfl, found⟩
          exact ⟨rest, ⟨rfl, rfl⟩, found⟩
        · rintro ⟨rest, ⟨rfl, rfl⟩, found⟩
          exact ⟨rfl, rest, rfl, found⟩
      · simp

end Glob

/-- A plain pattern matches only itself. -/
theorem fnmatchcase_plain {pattern : Points} (literal : pattern.all Glob.plain = true) (name : Points) :
    fnmatchcase name pattern = true ↔ name = pattern := by
  have read := Glob.tokens_plain literal 0 []
  rw [Nat.add_zero, List.append_nil] at read
  rw [fnmatchcase, read, Glob.matchTokens_plain]
  simp [Glob.tokens, Glob.matchTokens]

/-- A plain pattern with a star after it matches what starts with it. -/
theorem fnmatchcase_star {start : Points} (literal : start.all Glob.plain = true) (name : Points) :
    fnmatchcase name (start ++ [Glob.star]) = true ↔ start <+: name := by
  have read := Glob.tokens_plain literal 1 [Glob.star]
  rw [fnmatchcase, List.length_append, List.length_singleton, read, Glob.matchTokens_plain]
  have rest (s : Points) : Glob.matchTokens (Glob.tokens 1 [Glob.star]) s = true := by
    simp [Glob.tokens, Glob.matchTokens, List.any_eq_true]
  simp only [rest, and_true]
  exact ⟨fun ⟨after, same⟩ => ⟨after, same.symm⟩, fun ⟨after, same⟩ => ⟨after, same.symm⟩⟩

end Foundation
