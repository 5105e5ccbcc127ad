import DefiantHarness.Foundation.JsonData
import DefiantHarness.Foundation.Refusal

/-! Reading JSON text, with hooks for objects and numbers; the reader inverts the encoder. -/
namespace Foundation

namespace CodeUnit

def hexValue (c : Char) : Option Nat :=
  let n := c.toNat
  if 0x30 ≤ n ∧ n ≤ 0x39 then some (n - 0x30)
  else if 0x41 ≤ n ∧ n ≤ 0x46 then some (n - 0x37)
  else if 0x61 ≤ n ∧ n ≤ 0x66 then some (n - 0x57)
  else none

def ofHex (a b c d : Char) : Option CodeUnit := do
  let a ← hexValue a
  let b ← hexValue b
  let c ← hexValue c
  let d ← hexValue d
  pure (Fin.ofNat 0x10000 (((a * 16 + b) * 16 + c) * 16 + d))

/-- The escapes of one letter. -/
def ofEscape : Char → Option CodeUnit
  | '"' => some 0x22
  | '\\' => some 0x5C
  | '/' => some 0x2F
  | 'b' => some 0x08
  | 'f' => some 0x0C
  | 'n' => some 0x0A
  | 'r' => some 0x0D
  | 't' => some 0x09
  | _ => none

end CodeUnit

/-- The units of a string token after its opening quote, and the text after its closing one. -/
def scanString : List Char → Option (List CodeUnit × List Char)
  | [] => none
  | '"' :: cs => some ([], cs)
  | '\\' :: 'u' :: a :: b :: c :: d :: cs => do
    let unit ← CodeUnit.ofHex a b c d
    let (us, rest) ← scanString cs
    pure (unit :: us, rest)
  | '\\' :: c :: cs => do
    let unit ← CodeUnit.ofEscape c
    let (us, rest) ← scanString cs
    pure (unit :: us, rest)
  | c :: cs => do
    -- control characters must be escaped
    guard (0x20 ≤ c.toNat)
    let (us, rest) ← scanString cs
    pure ((CodePoint.ofChar c).units ++ us, rest)

/-- What a reader does with each object, constant and number. -/
structure Hooks (ε : Type) where
  invalid : ε
  object : List (Points × Data) → Except ε Data
  constant : Except ε Data
  float : Numeral → Except ε Data
  int : Numeral → Except ε Data

def skipBlanks (cs : List Char) : List Char := cs.dropWhile isBlank

namespace Hooks

variable {ε : Type} (h : Hooks ε)

def number (n : Numeral) : Except ε Data := if n.isInteger then h.int n else h.float n

/-- A value that is not a container: a constant, a string or a number. -/
def scalar : List Char → Except ε (Data × List Char)
  | '"' :: cs => do
    let (us, rest) ← orRefuse (scanString cs) h.invalid
    pure (.str (CodeUnit.join us), rest)
  | 'n' :: 'u' :: 'l' :: 'l' :: cs => pure (.null, cs)
  | 't' :: 'r' :: 'u' :: 'e' :: cs => pure (.bool true, cs)
  | 'f' :: 'a' :: 'l' :: 's' :: 'e' :: cs => pure (.bool false, cs)
  -- the three constants that are no JSON, which the hook refuses or reads
  | 'N' :: 'a' :: 'N' :: cs => h.constant.map (·, cs)
  | 'I' :: 'n' :: 'f' :: 'i' :: 'n' :: 'i' :: 't' :: 'y' :: cs => h.constant.map (·, cs)
  | '-' :: 'I' :: 'n' :: 'f' :: 'i' :: 'n' :: 'i' :: 't' :: 'y' :: cs => h.constant.map (·, cs)
  | cs => do
    let (n, rest) ← orRefuse (Numeral.scan cs) h.invalid
    let x ← h.number n
    pure (x, rest)

mutual

def parse : Nat → List Char → Except ε (Data × List Char)
  | 0, _ => .error h.invalid
  | n + 1, '[' :: cs =>
    match skipBlanks cs with
    | ']' :: rest => pure (.arr [], rest)
    | cs => do
      let (items, rest) ← parseItems n cs
      pure (.arr items, rest)
  -- an object reaches the hook when it is complete, so inner objects come first
  | n + 1, '{' :: cs =>
    match skipBlanks cs with
    | '}' :: rest => (h.object []).map (·, rest)
    | cs => do
      let (fields, rest) ← parseFields n cs
      let x ← h.object fields
      pure (x, rest)
  | _ + 1, cs => h.scalar cs

/-- Items up to the closing bracket; the text starts at an item. -/
def parseItems : Nat → List Char → Except ε (List Data × List Char)
  | 0, _ => .error h.invalid
  | n + 1, cs => do
    let (x, cs) ← parse n cs
    match skipBlanks cs with
    | ']' :: rest => pure ([x], rest)
    -- a comma promises another item
    | ',' :: cs => do
      let (xs, rest) ← parseItems n (skipBlanks cs)
      pure (x :: xs, rest)
    | _ => .error h.invalid

/-- Fields up to the closing brace; the text starts at a name. -/
def parseFields : Nat → List Char → Except ε (List (Points × Data) × List Char)
  | 0, _ => .error h.invalid
  | n + 1, '"' :: cs => do
    let (us, cs) ← orRefuse (scanString cs) h.invalid
    match skipBlanks cs with
    | ':' :: cs => do
      let (x, cs) ← parse n (skipBlanks cs)
      match skipBlanks cs with
      | '}' :: rest => pure ([(CodeUnit.join us, x)], rest)
      | ',' :: cs => do
        let (fs, rest) ← parseFields n (skipBlanks cs)
        pure ((CodeUnit.join us, x) :: fs, rest)
      | _ => .error h.invalid
    | _ => .error h.invalid
  | _ + 1, _ => .error h.invalid

end

/-- The one document that the whole text holds. -/
def loads (text : List Char) : Except ε Data := do
  let (x, rest) ← h.parse (text.length + 1) (skipBlanks text)
  refuseIf (skipBlanks rest ≠ []) h.invalid
  pure x

mutual

/-- The document that re-reading a written one gives. -/
def reread : Data → Except ε Data
  | .null => pure .null
  | .bool b => pure (.bool b)
  | .int i => h.int (Numeral.ofInt i)
  | .float x => h.float x.numeral
  -- two surrogates that were written apart come back as one point
  | .str s => pure (.str (CodeUnit.join s.units))
  | .arr items => do
    let items ← rereadItems items
    pure (.arr items)
  | .obj fields => do
    let fields ← rereadFields fields
    h.object fields

def rereadItems : List Data → Except ε (List Data)
  | [] => pure []
  | x :: xs => do
    let x ← reread x
    let xs ← rereadItems xs
    pure (x :: xs)

def rereadFields : List (Points × Data) → Except ε (List (Points × Data))
  | [] => pure []
  | (k, x) :: fs => do
    let x ← reread x
    let fs ← rereadFields fs
    pure ((CodeUnit.join k.units, x) :: fs)

end

end Hooks

private theorem hexValue_digit : ∀ n : Fin 16, CodeUnit.hexValue (Nat.digitChar n) = some n.val := by
  decide

private theorem hexValue_digitChar {n : Nat} (small : n < 16) :
    CodeUnit.hexValue (Nat.digitChar n) = some n := hexValue_digit ⟨n, small⟩

theorem ofHex_hexDigits (u : CodeUnit) :
    CodeUnit.ofHex (Nat.digitChar (u.val / 4096)) (Nat.digitChar (u.val / 256 % 16))
      (Nat.digitChar (u.val / 16 % 16)) (Nat.digitChar (u.val % 16)) = some u := by
  have bound := u.isLt
  simp only [CodeUnit.ofHex, hexValue_digitChar (show u.val / 4096 < 16 by omega),
    hexValue_digitChar (show u.val / 256 % 16 < 16 by omega),
    hexValue_digitChar (show u.val / 16 % 16 < 16 by omega),
    hexValue_digitChar (show u.val % 16 < 16 by omega), Option.bind_eq_bind, Option.bind_some,
    Option.pure_def, Option.some.injEq, Fin.ext_iff, Fin.val_ofNat]
  omega

private theorem scanString_plain {c : Char} (tail : List Char) (quote : c ≠ '"')
    (backslash : c ≠ '\\') (printable : 0x20 ≤ c.toNat) :
    scanString (c :: tail) =
      (scanString tail).map fun (us, rest) => ((CodePoint.ofChar c).units ++ us, rest) := by
  rw [scanString.eq_def]
  split
  next => contradiction
  next same =>
    simp only [List.cons.injEq] at same
    exact absurd same.1 quote
  next same =>
    simp only [List.cons.injEq] at same
    exact absurd same.1 backslash
  next same =>
    simp only [List.cons.injEq] at same
    exact absurd same.1 backslash
  next same =>
    simp only [List.cons.injEq] at same
    obtain ⟨rfl, rfl⟩ := same
    simp only [printable, guard, ↓reduceIte]
    cases scanString tail <;> rfl

theorem char_toNat {n : Nat} (small : n ≤ 0x7E) : (Char.ofNat n).toNat = n := by
  have valid : n.isValidChar := .inl (by omega)
  rw [Char.ofNat, dif_pos valid]
  rfl

private theorem scanString_letter {c : Char} {u : CodeUnit} (tail : List Char) (other : c ≠ 'u')
    (letter : CodeUnit.ofEscape c = some u) :
    scanString ('\\' :: c :: tail) = (scanString tail).map fun (us, rest) => (u :: us, rest) := by
  rw [scanString.eq_def]
  split
  next => contradiction
  next same => simp at same
  next same =>
    simp only [List.cons.injEq] at same
    exact absurd same.2.1 other
  next same =>
    simp only [List.cons.injEq, true_and] at same
    obtain ⟨rfl, rfl⟩ := same
    simp only [letter]
    cases scanString tail <;> rfl
  next no_letter same =>
    simp only [List.cons.injEq] at same
    obtain ⟨rfl, rfl⟩ := same
    exact absurd rfl (no_letter c tail rfl)

private theorem scanString_hex (u : CodeUnit) (tail : List Char) :
    scanString ('\\' :: 'u' :: u.hexDigits ++ tail) =
      (scanString tail).map fun (us, rest) => (u :: us, rest) := by
  simp only [CodeUnit.hexDigits, List.cons_append, List.nil_append, scanString, ofHex_hexDigits]
  cases scanString tail <;> rfl

/-- An escaped unit is read back as the unit. -/
theorem scanString_escape (u : CodeUnit) (tail : List Char) :
    scanString (u.escape ++ tail) = (scanString tail).map fun (us, rest) => (u :: us, rest) := by
  have named {v : CodeUnit} (same : u.val = v.val) : v = u := (Fin.ext same).symm
  unfold CodeUnit.escape
  split
  next same => exact scanString_letter tail (by decide) (congrArg some (named same))
  split
  next same => exact scanString_letter tail (by decide) (congrArg some (named same))
  split
  next same => exact scanString_letter tail (by decide) (congrArg some (named same))
  split
  next same => exact scanString_letter tail (by decide) (congrArg some (named same))
  split
  next same => exact scanString_letter tail (by decide) (congrArg some (named same))
  split
  next same => exact scanString_letter tail (by decide) (congrArg some (named same))
  split
  next same => exact scanString_letter tail (by decide) (congrArg some (named same))
  split
  -- the seven named escapes are above; a printable unit stands for itself
  next quote backslash _ _ _ _ _ printable =>
    have code := char_toNat printable.2
    have other {c : Char} (differs : u.val ≠ c.toNat) : Char.ofNat u.val ≠ c := by
      rintro rfl
      exact differs code.symm
    have units : (CodePoint.ofChar (Char.ofNat u.val)).units = [u] := by
      have point : CodePoint.ofChar (Char.ofNat u.val) = u.point := Fin.ext code
      rw [point, point_units]
    rw [List.singleton_append, scanString_plain tail (other quote) (other backslash)
      (by rw [code]; exact printable.1), units]
    rfl
  next => exact scanString_hex u tail

/-- A string token is read back as its code units. -/
theorem scanString_escaped (s : Points) (rest : List Char) :
    scanString (escaped s ++ '"' :: rest) = some (s.units, rest) := by
  unfold escaped
  induction s.units with
  | nil => rfl
  | cons u us ih =>
    rw [List.flatMap_cons, List.append_assoc, scanString_escape, ih]
    rfl

/-- The text goes on with whitespace or punctuation that closes a value. -/
def Closes (rest : List Char) : Prop :=
  ∀ c ∈ rest.head?, isBlank c = true ∨ c = ',' ∨ c = ']' ∨ c = '}'

private theorem Closes.ends {rest : List Char} (closes : Closes rest) : Numeral.Ends rest := by
  intro c head
  have cases := closes c head
  simp only [isBlank, Bool.or_eq_true, beq_iff_eq] at cases
  rcases cases with (((rfl | rfl) | rfl) | rfl) | rfl | rfl | rfl <;> decide

private theorem skipBlanks_blank {cs : List Char} (blank : ∀ c ∈ cs, isBlank c = true)
    (rest : List Char) : skipBlanks (cs ++ rest) = skipBlanks rest :=
  List.dropWhile_append_of_pos blank

@[simp] private theorem skipBlanks_cons {c : Char} (visible : isBlank c = false) (cs : List Char) :
    skipBlanks (c :: cs) = c :: cs := by
  simp [skipBlanks, visible]

private theorem closes_entry (l : Layout) (d : Nat) {c : Char} (close : c = ']' ∨ c = '}')
    (rest : List Char) : Closes (l.entry d ++ c :: rest) := by
  intro e head
  cases entry : l.entry d with
  | nil =>
    rw [entry, List.nil_append, List.head?_cons, Option.mem_some_iff] at head
    subst head
    exact .inr (.inr close)
  | cons b bs =>
    rw [entry, List.cons_append, List.head?_cons, Option.mem_some_iff] at head
    subst head
    exact .inl (l.blank_entry d _ (by simp [entry]))

/-- How the text of a value starts. -/
private def Starts (cs : List Char) : Prop :=
  ∃ c tail, cs = c :: tail ∧ isBlank c = false ∧ c ≠ ']'

private theorem digit_visible {c : Char} (digit : c.isDigit = true) :
    isBlank c = false ∧ c ≠ ']' := by
  constructor
  · refine Bool.eq_false_iff.2 fun blank => ?_
    simp only [isBlank, Bool.or_eq_true, beq_iff_eq] at blank
    rcases blank with ((rfl | rfl) | rfl) | rfl <;> simp at digit
  · rintro rfl
    simp at digit

/-- A number token starts with a digit, or with a minus sign and a digit. -/
theorem chars_start {n : Numeral} (formed : n.WellFormed) :
    ∃ c tail, c.isDigit = true ∧ (n.chars = c :: tail ∨ n.chars = '-' :: c :: tail) := by
  cases whole : n.whole with
  | nil => exact absurd whole formed.whole.nonempty
  | cons c cs =>
    refine ⟨c, cs ++ (Numeral.fractionChars n.fraction ++ Numeral.exponentChars n.exponent),
      formed.whole.digit c (by simp [whole]), ?_⟩
    unfold Numeral.chars
    cases n.negative
    · exact .inl (by simp [whole])
    · exact .inr (by simp [whole])

private theorem starts_chars {n : Numeral} (formed : n.WellFormed) : Starts n.chars := by
  obtain ⟨c, tail, digit, same | same⟩ := chars_start formed
  · exact ⟨c, tail, same, digit_visible digit⟩
  · exact ⟨'-', c :: tail, same, rfl, by decide⟩

private theorem starts_render (l : Layout) (d : Nat) (x : Data) : Starts (x.render l d) := by
  cases x with
  | null => exact ⟨_, _, rfl, rfl, by decide⟩
  | bool b => cases b <;> exact ⟨_, _, rfl, rfl, by decide⟩
  | int i => exact starts_chars (Numeral.ofInt_wellFormed i)
  | float x => exact starts_chars x.numeral_wellFormed
  | str s => exact ⟨_, _, rfl, rfl, by decide⟩
  | arr items => cases items <;> exact ⟨_, _, rfl, rfl, by decide⟩
  | obj fields => rcases fields with _ | ⟨⟨k, x⟩, fs⟩ <;> exact ⟨_, _, rfl, rfl, by decide⟩

private theorem skipBlanks_render (l : Layout) (d : Nat) (x : Data) (rest : List Char) :
    skipBlanks (x.render l d ++ rest) = x.render l d ++ rest := by
  obtain ⟨c, tail, same, visible, _⟩ := starts_render l d x
  rw [same, List.cons_append, skipBlanks_cons visible]

namespace Hooks

variable {ε : Type} {h : Hooks ε}

private theorem scalar_digit {c : Char} {cs : List Char} (digit : c.isDigit = true) :
    h.scalar (c :: cs) = (do
      let (n, rest) ← orRefuse (Numeral.scan (c :: cs)) h.invalid
      let x ← h.number n
      pure (x, rest)) := by
  rw [scalar.eq_def]
  split
  case h_8 => rfl
  all_goals
    next same =>
      simp only [List.cons.injEq] at same
      rw [same.1] at digit
      simp at digit

private theorem scalar_minus {c : Char} {cs : List Char} (digit : c.isDigit = true) :
    h.scalar ('-' :: c :: cs) = (do
      let (n, rest) ← orRefuse (Numeral.scan ('-' :: c :: cs)) h.invalid
      let x ← h.number n
      pure (x, rest)) := by
  rw [scalar.eq_def]
  split
  case h_8 => rfl
  all_goals
    next same =>
      simp only [List.cons.injEq] at same
      first
        | exact absurd same.1 (by decide)
        | rw [same.2.1] at digit
          simp at digit

private theorem parse_digit {c : Char} {cs : List Char} {n : Nat} (digit : c.isDigit = true) :
    h.parse (n + 1) (c :: cs) = h.scalar (c :: cs) := by
  rw [parse.eq_def]
  split
  next none => cases none
  next same =>
    simp only [List.cons.injEq] at same
    rw [same.1] at digit
    simp at digit
  next same =>
    simp only [List.cons.injEq] at same
    rw [same.1] at digit
    simp at digit
  next same => rfl

/-- A written number is read by the hook for its kind. -/
theorem parse_number {m : Numeral} {n : Nat} {rest : List Char} (formed : m.WellFormed)
    (ends : Numeral.Ends rest) :
    h.parse (n + 1) (m.chars ++ rest) = (h.number m).map (·, rest) := by
  have scanned := Numeral.scan_chars formed ends
  obtain ⟨c, tail, digit, same | same⟩ := chars_start formed
  · rw [same, List.cons_append] at scanned ⊢
    rw [parse_digit digit, scalar_digit digit, scanned]
    simp only [orRefuse, ok_bind]
    cases h.number m <;> rfl
  · rw [same, List.cons_append, List.cons_append] at scanned ⊢
    have minus : h.parse (n + 1) ('-' :: c :: (tail ++ rest)) =
        h.scalar ('-' :: c :: (tail ++ rest)) := rfl
    rw [minus, scalar_minus digit, scanned]
    simp only [orRefuse, ok_bind]
    cases h.number m <;> rfl

private theorem parse_string {s : Points} {n : Nat} {rest : List Char} :
    h.parse (n + 1) (quoted s ++ rest) = .ok (.str (CodeUnit.join s.units), rest) := by
  have scanned := scanString_escaped s rest
  have shape : quoted s ++ rest = '"' :: (escaped s ++ '"' :: rest) := by
    simp [quoted]
  have step : h.parse (n + 1) (quoted s ++ rest) = h.scalar ('"' :: (escaped s ++ '"' :: rest)) := by
    rw [shape]
    rfl
  rw [step, scalar, scanned]
  rfl

/-- What reading a written value means: the reader stops right after it. -/
private def Reads (h : Hooks ε) (l : Layout) (x : Data) : Prop :=
  ∀ d n rest, (x.render l d).length < n → Closes rest →
    h.parse n (x.render l d ++ rest) = (h.reread x).map (·, rest)

private theorem parseItems_render {l : Layout} {x : Data} {xs : List Data} (head : Reads h l x)
    (tail : ∀ y ∈ xs, Reads h l y) (d e n : Nat) (rest : List Char)
    (fuel : (x.render l d ++ Data.renderItems l d xs).length + 1 < n) :
    h.parseItems n (x.render l d ++ (Data.renderItems l d xs ++ (l.entry e ++ ']' :: rest))) =
      (h.rereadItems (x :: xs)).map (·, rest) := by
  -- fuel is spent at each item, so the bound is restated for what is left
  induction xs generalizing x n with
  | nil =>
    obtain ⟨n, rfl⟩ : ∃ m, n = m + 1 := ⟨n - 1, by omega⟩
    simp only [Data.renderItems, List.append_nil, List.nil_append] at fuel ⊢
    rw [parseItems, head d n _ (by omega) (closes_entry l e (.inl rfl) rest), rereadItems]
    cases h.reread x with
    | error fault => rfl
    | ok y =>
      simp only [Except.map, ok_bind, skipBlanks_blank (l.blank_entry e),
        skipBlanks_cons (show isBlank ']' = false from rfl), rereadItems, pure_eq_ok]
  | cons y ys ih =>
    obtain ⟨n, rfl⟩ : ∃ m, n = m + 1 := ⟨n - 1, by omega⟩
    have rest_items := ih (tail y (by simp)) (fun z member => tail z (by simp [member]))
    simp only [Data.renderItems, List.append_assoc, List.cons_append, List.length_append,
      List.length_cons] at fuel ⊢
    rw [parseItems, head d n _ (by omega) (by simp [Closes]), rereadItems]
    cases h.reread x with
    | error fault => rfl
    | ok z =>
      simp only [Except.map, ok_bind, skipBlanks_cons (show isBlank ',' = false from rfl),
        skipBlanks_blank (l.blank_entry d), skipBlanks_render]
      rw [rest_items n (by simp only [List.length_append]; omega)]
      cases h.rereadItems (y :: ys) <;> rfl

private theorem parseFields_render {l : Layout} {k : Points} {x : Data} {fs : List (Points × Data)}
    (head : Reads h l x) (tail : ∀ f ∈ fs, Reads h l f.2) (d e n : Nat) (rest : List Char)
    (fuel : (x.render l d ++ Data.renderFields l d fs).length + 1 < n) :
    h.parseFields n (quoted k ++ ':' :: (l.colon ++ (x.render l d ++
      (Data.renderFields l d fs ++ (l.entry e ++ '}' :: rest))))) =
      (h.rereadFields ((k, x) :: fs)).map (·, rest) := by
  -- as for the items, with a name and a colon before each value
  induction fs generalizing k x n with
  | nil =>
    obtain ⟨n, rfl⟩ : ∃ m, n = m + 1 := ⟨n - 1, by omega⟩
    simp only [Data.renderFields, List.append_nil, List.nil_append, quoted, List.cons_append,
      List.append_assoc] at fuel ⊢
    rw [parseFields, scanString_escaped]
    simp only [orRefuse, ok_bind, skipBlanks_cons (show isBlank ':' = false from rfl),
      skipBlanks_blank l.blank_colon, skipBlanks_render]
    rw [head d n _ (by omega) (closes_entry l e (.inr rfl) rest), rereadFields]
    cases h.reread x with
    | error fault => rfl
    | ok y =>
      simp only [Except.map, ok_bind, skipBlanks_blank (l.blank_entry e),
        skipBlanks_cons (show isBlank '}' = false from rfl), rereadFields, pure_eq_ok]
  | cons f fs ih =>
    obtain ⟨k', y⟩ := f
    obtain ⟨n, rfl⟩ : ∃ m, n = m + 1 := ⟨n - 1, by omega⟩
    have rest_fields := ih (k := k') (tail (k', y) (by simp)) (fun z member => tail z (by simp [member]))
    simp only [Data.renderFields, quoted, List.append_assoc, List.cons_append, List.length_append,
      List.length_cons, List.nil_append] at fuel rest_fields ⊢
    rw [parseFields, scanString_escaped]
    simp only [orRefuse, ok_bind, skipBlanks_cons (show isBlank ':' = false from rfl),
      skipBlanks_blank l.blank_colon, skipBlanks_render]
    rw [head d n _ (by omega) (by simp [Closes]), rereadFields]
    cases h.reread x with
    | error fault => rfl
    | ok z =>
      simp only [Except.map, ok_bind, skipBlanks_cons (show isBlank ',' = false from rfl),
        skipBlanks_blank (l.blank_entry d), skipBlanks_cons (show isBlank '"' = false from rfl)]
      rw [rest_fields n (by omega)]
      cases h.rereadFields ((k', y) :: fs) <;> rfl

private theorem parse_items {cs : List Char} {n : Nat} (starts : Starts (skipBlanks cs)) :
    h.parse (n + 1) ('[' :: cs) = (h.parseItems n (skipBlanks cs)).map fun (items, rest) =>
      (.arr items, rest) := by
  obtain ⟨c, tail, same, _, open_⟩ := starts
  rw [parse]
  split
  next closed =>
    rw [same, List.cons.injEq] at closed
    exact absurd closed.1 open_
  next => cases h.parseItems n (skipBlanks cs) <;> rfl

private theorem reads (l : Layout) (x : Data) : Reads h l x := by
  intro d n rest fuel closes
  obtain ⟨n, rfl⟩ : ∃ m, n = m + 1 := ⟨n - 1, by omega⟩
  induction x using Data.induction_on generalizing d n rest with
  | null => rfl
  | bool b => cases b <;> rfl
  | int i => exact parse_number (Numeral.ofInt_wellFormed i) closes.ends
  | float x =>
    have read := parse_number (h := h) (n := n) x.numeral_wellFormed closes.ends
    rw [number, if_neg (by simp)] at read
    exact read
  | str s => exact parse_string
  | arr items ih =>
    have items_read : ∀ y ∈ items, Reads h l y := by
      intro y member d n rest fuel closes
      obtain ⟨n, rfl⟩ : ∃ m, n = m + 1 := ⟨n - 1, by omega⟩
      exact ih y member d rest closes n fuel
    cases items with
    | nil => rfl
    | cons x xs =>
      simp only [Data.render, List.cons_append, List.append_assoc, List.nil_append,
        List.length_append, List.length_cons] at fuel ⊢
      -- after the bracket the layout's blanks are skipped, up to the first item
      have opened : skipBlanks (l.entry (d + 1) ++ (x.render l (d + 1) ++
          (Data.renderItems l (d + 1) xs ++ (l.entry d ++ ']' :: rest)))) =
          x.render l (d + 1) ++ (Data.renderItems l (d + 1) xs ++ (l.entry d ++ ']' :: rest)) :=
        (skipBlanks_blank (l.blank_entry _) _).trans (skipBlanks_render _ _ _ _)
      have starts : Starts (x.render l (d + 1) ++
          (Data.renderItems l (d + 1) xs ++ (l.entry d ++ ']' :: rest))) := by
        obtain ⟨c, tail, same, visible, open_⟩ := starts_render l (d + 1) x
        exact ⟨c, _, by rw [same]; rfl, visible, open_⟩
      rw [parse_items (by rw [opened]; exact starts), opened, parseItems_render
        (items_read x (by simp)) (fun y member => items_read y (by simp [member])) _ _ _ _
        (by simp only [List.length_append]; omega), reread]
      cases h.rereadItems (x :: xs) <;> rfl
  | obj fields ih =>
    have fields_read : ∀ f ∈ fields, Reads h l f.2 := by
      intro y member d n rest fuel closes
      obtain ⟨n, rfl⟩ : ∃ m, n = m + 1 := ⟨n - 1, by omega⟩
      exact ih y member d rest closes n fuel
    rcases fields with _ | ⟨⟨k, x⟩, fs⟩
    · rw [Data.render, reread, rereadFields]
      cases h.object [] <;> rfl
    · simp only [Data.render, List.cons_append, List.append_assoc, List.nil_append,
        List.length_append, List.length_cons] at fuel ⊢
      have opened (cs : List Char) : skipBlanks (l.entry (d + 1) ++ (quoted k ++ cs)) =
          quoted k ++ cs := (skipBlanks_blank (l.blank_entry _) _).trans rfl
      have entered (cs : List Char) : h.parse (n + 1) ('{' :: (l.entry (d + 1) ++ (quoted k ++ cs))) =
          h.parseFields n (quoted k ++ cs) >>= fun (fields, rest) =>
            h.object fields >>= fun x => pure (x, rest) := by
        rw [parse, opened]
        rfl
      rw [entered, parseFields_render (fields_read (k, x) (by simp))
        (fun f member => fields_read f (by simp [member])) _ _ _ _
        (by simp only [List.length_append]; omega), reread]
      cases h.rereadFields ((k, x) :: fs) with
      | error fault => rfl
      | ok fields =>
        simp only [Except.map, ok_bind]
        cases h.object fields <;> rfl

/-- Loading the text of a document gives the document that its hooks rebuild. -/
theorem loads_render (l : Layout) (x : Data) : h.loads (x.render l 0) = h.reread x := by
  have whole := reads (h := h) l x 0 ((x.render l 0).length + 1) [] (by omega) (by simp [Closes])
  have visible : skipBlanks (x.render l 0) = x.render l 0 := by
    simpa using skipBlanks_render l 0 x []
  rw [List.append_nil] at whole
  rw [loads, visible, whole]
  cases h.reread x <;> rfl

end Hooks

end Foundation
