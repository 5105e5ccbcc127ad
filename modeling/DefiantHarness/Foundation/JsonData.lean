import DefiantHarness.Foundation.Binary64
import DefiantHarness.Foundation.CodePoint

/-! JSON documents and the ASCII text that an encoder writes for them. -/
namespace Foundation

/-- A JSON document; the fields of an object stand in the order they are written in. -/
inductive Data where
  | null
  | bool (value : Bool)
  | int (value : Int)
  | float (value : Binary64)
  | str (text : Points)
  | arr (items : List Data)
  | obj (fields : List (Points × Data))

namespace Data

/-- Induction over a document with its items and fields. -/
@[elab_as_elim]
theorem induction_on {motive : Data → Prop} (null : motive .null) (bool : ∀ b, motive (.bool b))
    (int : ∀ i, motive (.int i)) (float : ∀ x, motive (.float x)) (str : ∀ s, motive (.str s))
    (arr : ∀ items, (∀ x ∈ items, motive x) → motive (.arr items))
    (obj : ∀ fields, (∀ f ∈ fields, motive f.2) → motive (.obj fields)) (x : Data) : motive x :=
  @Data.rec motive (fun items => ∀ y ∈ items, motive y) (fun fields => ∀ f ∈ fields, motive f.2)
    (fun f => motive f.2) null bool int float str arr obj
    (by simp) (fun _ _ head tail => List.forall_mem_cons.2 ⟨head, tail⟩)
    (by simp) (fun _ _ head tail => List.forall_mem_cons.2 ⟨head, tail⟩) (fun _ _ held => held) x

end Data

/-- Whitespace that a reader skips between tokens. -/
def isBlank (c : Char) : Bool := c == ' ' || c == '\n' || c == '\t' || c == '\r'

/-- The whitespace before each entry of a container, by depth, and after a colon. -/
structure Layout where
  entry : Nat → List Char
  colon : List Char
  blank_entry : ∀ d, ∀ c ∈ entry d, isBlank c = true
  blank_colon : ∀ c ∈ colon, isBlank c = true

namespace Layout

/-- No whitespace at all. -/
def compact : Layout := ⟨fun _ => [], [], by simp, by simp⟩

@[simp] theorem compact_entry (d : Nat) : compact.entry d = [] := rfl

@[simp] theorem compact_colon : compact.colon = [] := rfl

/-- One entry a line, indented by `n` blanks a level. -/
def indented (n : Nat) : Layout where
  entry d := '\n' :: List.replicate (n * d) ' '
  colon := [' ']
  blank_entry d c member := by
    rcases List.mem_cons.1 member with rfl | rest
    · rfl
    · rw [List.eq_of_mem_replicate rest]
      rfl
  blank_colon c member := by
    rw [List.mem_singleton.1 member]
    rfl

end Layout

namespace CodeUnit

def hexDigits (u : CodeUnit) : List Char :=
  [Nat.digitChar (u.val / 4096), Nat.digitChar (u.val / 256 % 16), Nat.digitChar (u.val / 16 % 16),
    Nat.digitChar (u.val % 16)]

/-- One unit of a string token; everything outside printable ASCII is escaped. -/
def escape (u : CodeUnit) : List Char :=
  if u.val = 0x22 then ['\\', '"']
  else if u.val = 0x5C then ['\\', '\\']
  else if u.val = 0x08 then ['\\', 'b']
  else if u.val = 0x0C then ['\\', 'f']
  else if u.val = 0x0A then ['\\', 'n']
  else if u.val = 0x0D then ['\\', 'r']
  else if u.val = 0x09 then ['\\', 't']
  -- everything beyond ASCII is escaped, by units and not by points
  else if 0x20 ≤ u.val ∧ u.val ≤ 0x7E then [Char.ofNat u.val]
  else '\\' :: 'u' :: hexDigits u

end CodeUnit

/-- The source characters between the quotes of a string token. -/
def escaped (s : Points) : List Char := s.units.flatMap CodeUnit.escape

def quoted (s : Points) : List Char := '"' :: escaped s ++ ['"']

namespace Data

mutual

/-- The text of a document whose outermost container stands at depth `d`. -/
def render (l : Layout) (d : Nat) : Data → List Char
  | .null => ['n', 'u', 'l', 'l']
  | .bool true => ['t', 'r', 'u', 'e']
  | .bool false => ['f', 'a', 'l', 's', 'e']
  | .int i => (Numeral.ofInt i).chars
  | .float x => x.numeral.chars
  | .str s => quoted s
  -- empty containers have no layout
  | .arr [] => ['[', ']']
  | .arr (x :: xs) =>
    '[' :: l.entry (d + 1) ++ render l (d + 1) x ++ renderItems l (d + 1) xs ++ l.entry d ++ [']']
  | .obj [] => ['{', '}']
  | .obj ((k, x) :: fs) =>
    '{' :: l.entry (d + 1) ++ quoted k ++ ':' :: l.colon ++ render l (d + 1) x ++
      renderFields l (d + 1) fs ++ l.entry d ++ ['}']

/-- The further items, each after its comma. -/
def renderItems (l : Layout) (d : Nat) : List Data → List Char
  | [] => []
  | x :: xs => ',' :: l.entry d ++ render l d x ++ renderItems l d xs

def renderFields (l : Layout) (d : Nat) : List (Points × Data) → List Char
  | [] => []
  | (k, x) :: fs =>
    ',' :: l.entry d ++ quoted k ++ ':' :: l.colon ++ render l d x ++ renderFields l d fs

end

end Data

end Foundation
