import DefiantHarness.Foundation.JsonShape
import DefiantHarness.Foundation.JsonWidth
import DefiantHarness.Foundation.Text
import Mathlib.Tactic.IntervalCases

/-! Duplicate-safe, finite JSON loading after a bounded lexical preflight. -/
namespace DefiantHarness

open Foundation

def maxJsonNestingDepth : Nat := 64
def maxJsonLexicalTokens : Nat := 1000000
def maxJsonStringTokenCharacters : Nat := 8 * 1024 * 1024
def maxJsonNumberTokenCharacters : Nat := 1024

/-- Where the preflight stands between two characters. -/
inductive LexicalMode where
  | structural
  | string (escaped : Bool) (characters : Nat)
  | scalar (isNumber : Bool) (characters : Nat)
deriving DecidableEq, Repr

structure LexicalState where
  depth : Nat
  tokens : Nat
  mode : LexicalMode
deriving DecidableEq, Repr

/-- A character that ends a scalar. -/
def endsScalar (c : Char) : Bool := isSpace c || ['{', '}', '[', ']', ',', ':', '"'].contains c

def startsNumber (c : Char) : Bool :=
  ['-', '0', '1', '2', '3', '4', '5', '6', '7', '8', '9'].contains c

section Preflight

variable (label : String)

def exceeds (subject : String) (limit : Nat) (unit : String) : String :=
  label ++ " exceeds maximum JSON " ++ subject ++ " of " ++ toString limit ++ unit

def countTokens (s : LexicalState) : Except String LexicalState := do
  refuseIf (maxJsonLexicalTokens < s.tokens)
    (exceeds label "lexical token count" maxJsonLexicalTokens "")
  pure s

def checkNumber (isNumber : Bool) (characters : Nat) : Except String Unit :=
  refuseIf (isNumber = true ∧ maxJsonNumberTokenCharacters < characters)
    (exceeds label "number token length" maxJsonNumberTokenCharacters " characters")

/-- One character outside strings and scalars. -/
def structuralStep (depth tokens : Nat) (c : Char) : Except String LexicalState :=
  if c = '"' then countTokens label ⟨depth, tokens + 1, .string false 0⟩
  else if c = '[' ∨ c = '{' then do
    refuseIf (maxJsonNestingDepth < depth + 1) (exceeds label "nesting depth" maxJsonNestingDepth "")
    countTokens label ⟨depth + 1, tokens + 1, .structural⟩
  else if c = ']' ∨ c = '}' then countTokens label ⟨depth - 1, tokens, .structural⟩
  -- separators are free; every value and every bracket is a token
  else if isSpace c = true ∨ c = ',' ∨ c = ':' then pure ⟨depth, tokens, .structural⟩
  else do
    checkNumber label (startsNumber c) 1
    countTokens label ⟨depth, tokens + 1, .scalar (startsNumber c) 1⟩

def stringStep (depth tokens : Nat) (escaped : Bool) (characters : Nat) (c : Char) :
    Except String LexicalState :=
  if escaped = false ∧ c = '"' then pure ⟨depth, tokens, .structural⟩
  else do
    refuseIf (maxJsonStringTokenCharacters < characters + 1)
      (exceeds label "string token length" maxJsonStringTokenCharacters " characters")
    pure ⟨depth, tokens, .string (!escaped && c == '\\') (characters + 1)⟩

def lexicalStep (s : LexicalState) (c : Char) : Except String LexicalState :=
  match s.mode with
  | .string escaped characters => stringStep label s.depth s.tokens escaped characters c
  | .scalar isNumber characters =>
    if endsScalar c then structuralStep label s.depth s.tokens c
    else do
      checkNumber label isNumber (characters + 1)
      pure { s with mode := .scalar isNumber (characters + 1) }
  | .structural => structuralStep label s.depth s.tokens c

def preflightFrom : LexicalState → List Char → Except String Unit
  | _, [] => pure ()
  | s, c :: cs => do
    let s ← lexicalStep label s c
    preflightFrom s cs

def preflightStructure (text : List Char) : Except String Unit :=
  preflightFrom label ⟨0, 0, .structural⟩ text

/-- Reject an object that names a field twice. -/
def uniqueObject : List Field → Except String Data
  | fields =>
    if (fields.map (·.1)).Nodup then pure (.obj fields)
    else throw (label ++ " contains a duplicate JSON key")

def strictHooks : Hooks String where
  invalid := label ++ " is not valid JSON"
  object := uniqueObject label
  constant := .error (label ++ " contains a non-finite JSON number")
  float n := match Binary64.ofNumeral n with
    | some x => .ok (.float x)
    | none => .error (label ++ " contains a non-finite JSON number")
  int n := .ok (.int n.toInt)

/-- Decode unambiguous JSON after the bounded preflight. -/
def loadsStrictJson (text : List Char) : Except String Data := do
  preflightStructure label text
  (strictHooks label).loads text

end Preflight

/-- The lexical ceilings of the strict reader. -/
structure Lexical (x : Data) : Prop where
  depth : x.depth ≤ maxJsonNestingDepth
  tokens : x.tokens ≤ maxJsonLexicalTokens
  strings : ∀ s ∈ x.strings, (escaped s).length ≤ maxJsonStringTokenCharacters
  numbers : ∀ n ∈ x.numbers, n.length ≤ maxJsonNumberTokenCharacters

section Render

variable {label : String}

private abbrev Passes (label : String) (s : LexicalState) (cs : List Char) : Prop :=
  preflightFrom label s cs = .ok ()

private theorem passes_cons {s : LexicalState} {c : Char} {cs : List Char} :
    Passes label s (c :: cs) ↔ ∃ s', lexicalStep label s c = .ok s' ∧ Passes label s' cs := by
  rw [Passes, preflightFrom, bind_ok_iff]

private theorem countTokens_ok_iff {s t : LexicalState} :
    countTokens label s = .ok t ↔ s.tokens ≤ maxJsonLexicalTokens ∧ t = s := by
  rw [countTokens, refuseIf_bind_ok_iff, pure_ok_iff, not_lt]

private theorem passes_blank {c : Char} (blank : isBlank c = true) {d t : Nat} {cs : List Char} :
    Passes label ⟨d, t, .structural⟩ (c :: cs) ↔ Passes label ⟨d, t, .structural⟩ cs := by
  have step : lexicalStep label ⟨d, t, .structural⟩ c = .ok ⟨d, t, .structural⟩ := by
    simp only [isBlank, Bool.or_eq_true, beq_iff_eq] at blank
    rcases blank with ((rfl | rfl) | rfl) | rfl <;> rfl
  simp [passes_cons, step]

private theorem passes_blanks {bs : List Char} (blank : ∀ c ∈ bs, isBlank c = true) {d t : Nat}
    {cs : List Char} :
    Passes label ⟨d, t, .structural⟩ (bs ++ cs) ↔ Passes label ⟨d, t, .structural⟩ cs := by
  induction bs with
  | nil => rfl
  | cons b bs ih =>
    rw [List.cons_append, passes_blank (blank b (by simp)), ih fun c member => blank c (by simp [member])]

private theorem passes_separator {c : Char} (separator : c = ',' ∨ c = ':') {d t : Nat}
    {cs : List Char} :
    Passes label ⟨d, t, .structural⟩ (c :: cs) ↔ Passes label ⟨d, t, .structural⟩ cs := by
  have step : lexicalStep label ⟨d, t, .structural⟩ c = .ok ⟨d, t, .structural⟩ := by
    rcases separator with rfl | rfl <;> rfl
  simp [passes_cons, step]

private theorem passes_open {c : Char} (opens : c = '[' ∨ c = '{') {d t : Nat} {cs : List Char} :
    Passes label ⟨d, t, .structural⟩ (c :: cs) ↔ d + 1 ≤ maxJsonNestingDepth ∧
      t + 1 ≤ maxJsonLexicalTokens ∧ Passes label ⟨d + 1, t + 1, .structural⟩ cs := by
  have step : lexicalStep label ⟨d, t, .structural⟩ c = (do
      refuseIf (maxJsonNestingDepth < d + 1)
        (exceeds label "nesting depth" maxJsonNestingDepth "")
      countTokens label ⟨d + 1, t + 1, .structural⟩) := by
    rcases opens with rfl | rfl <;> rfl
  simp [passes_cons, step, countTokens_ok_iff, and_assoc]

private theorem passes_close {c : Char} (closes : c = ']' ∨ c = '}') {d t : Nat} {cs : List Char}
    (within : t ≤ maxJsonLexicalTokens) :
    Passes label ⟨d + 1, t, .structural⟩ (c :: cs) ↔ Passes label ⟨d, t, .structural⟩ cs := by
  have step : lexicalStep label ⟨d + 1, t, .structural⟩ c =
      countTokens label ⟨d, t, .structural⟩ := by
    rcases closes with rfl | rfl <;> rfl
  simp [passes_cons, step, countTokens_ok_iff, within]

/-! ### String tokens -/

private theorem passes_inside {c : Char} (quote : c ≠ '"') (backslash : c ≠ '\\') {d t n : Nat}
    {cs : List Char} :
    Passes label ⟨d, t, .string false n⟩ (c :: cs) ↔ n + 1 ≤ maxJsonStringTokenCharacters ∧
      Passes label ⟨d, t, .string false (n + 1)⟩ cs := by
  have step : lexicalStep label ⟨d, t, .string false n⟩ c = (do
      refuseIf (maxJsonStringTokenCharacters < n + 1)
        (exceeds label "string token length" maxJsonStringTokenCharacters " characters")
      pure ⟨d, t, .string false (n + 1)⟩) := by
    have other : (c == '\\') = false := by simpa using backslash
    simp [lexicalStep, stringStep, quote, other]
  simp only [passes_cons, step, refuseIf_bind_ok_iff, pure_ok_iff, not_lt]
  constructor
  · rintro ⟨_, ⟨room, rfl⟩, rest⟩
    exact ⟨room, rest⟩
  · rintro ⟨room, rest⟩
    exact ⟨_, ⟨room, rfl⟩, rest⟩

private theorem passes_backslash {c : Char} {d t n : Nat} {cs : List Char} :
    Passes label ⟨d, t, .string false n⟩ ('\\' :: c :: cs) ↔
      n + 2 ≤ maxJsonStringTokenCharacters ∧ Passes label ⟨d, t, .string false (n + 2)⟩ cs := by
  have first : lexicalStep label ⟨d, t, .string false n⟩ '\\' = (do
      refuseIf (maxJsonStringTokenCharacters < n + 1)
        (exceeds label "string token length" maxJsonStringTokenCharacters " characters")
      pure ⟨d, t, .string true (n + 1)⟩) := rfl
  have second : lexicalStep label ⟨d, t, .string true (n + 1)⟩ c = (do
      refuseIf (maxJsonStringTokenCharacters < n + 1 + 1)
        (exceeds label "string token length" maxJsonStringTokenCharacters " characters")
      pure ⟨d, t, .string false (n + 1 + 1)⟩) := by
    simp [lexicalStep, stringStep]
  simp only [passes_cons, first, refuseIf_bind_ok_iff, pure_ok_iff, not_lt]
  constructor
  · rintro ⟨_, ⟨_, rfl⟩, _, step, rest⟩
    rw [second, refuseIf_bind_ok_iff, pure_ok_iff, not_lt] at step
    obtain ⟨room, rfl⟩ := step
    exact ⟨room, rest⟩
  · rintro ⟨room, rest⟩
    refine ⟨_, ⟨by omega, rfl⟩, _, ?_, rest⟩
    rw [second, refuseIf_bind_ok_iff, pure_ok_iff, not_lt]
    exact ⟨room, rfl⟩

private theorem passes_verbatim {body : List Char} (plain : ∀ c ∈ body, c ≠ '"' ∧ c ≠ '\\')
    {d t n : Nat} {cs : List Char} (within : n ≤ maxJsonStringTokenCharacters) :
    Passes label ⟨d, t, .string false n⟩ (body ++ cs) ↔
      n + body.length ≤ maxJsonStringTokenCharacters ∧
        Passes label ⟨d, t, .string false (n + body.length)⟩ cs := by
  induction body generalizing n with
  | nil => simp [within]
  | cons c body ih =>
    have own := plain c (by simp)
    rw [List.cons_append, passes_inside own.1 own.2]
    constructor
    · rintro ⟨room, rest⟩
      rw [ih (fun e member => plain e (by simp [member])) room] at rest
      rw [List.length_cons, ← Nat.add_assoc, Nat.add_right_comm]
      exact rest
    · rintro ⟨room, rest⟩
      rw [List.length_cons, ← Nat.add_assoc, Nat.add_right_comm] at room rest
      exact ⟨by omega, (ih (fun e member => plain e (by simp [member])) (by omega)).2 ⟨room, rest⟩⟩

private theorem passes_escape (u : CodeUnit) {d t n : Nat} {cs : List Char}
    (within : n ≤ maxJsonStringTokenCharacters) :
    Passes label ⟨d, t, .string false n⟩ (u.escape ++ cs) ↔
      n + u.escape.length ≤ maxJsonStringTokenCharacters ∧
        Passes label ⟨d, t, .string false (n + u.escape.length)⟩ cs := by
  rcases u.escape_cases with ⟨c, shape, plain⟩ | ⟨c, tail, shape, plain⟩
  · rw [shape]
    exact passes_verbatim (by simpa using plain) within
  · rw [shape, List.cons_append, List.cons_append, passes_backslash]
    simp only [List.length_cons]
    constructor
    · rintro ⟨room, rest⟩
      rw [passes_verbatim plain room] at rest
      rw [show n + (tail.length + 1 + 1) = n + 2 + tail.length by omega]
      exact rest
    · rintro ⟨room, rest⟩
      rw [show n + (tail.length + 1 + 1) = n + 2 + tail.length by omega] at room rest
      exact ⟨by omega, (passes_verbatim plain (by omega)).2 ⟨room, rest⟩⟩

private theorem passes_units (us : List CodeUnit) {d t n : Nat} {rest : List Char}
    (within : n ≤ maxJsonStringTokenCharacters) :
    Passes label ⟨d, t, .string false n⟩ (us.flatMap CodeUnit.escape ++ '"' :: rest) ↔
      n + (us.flatMap CodeUnit.escape).length ≤ maxJsonStringTokenCharacters ∧
        Passes label ⟨d, t, .structural⟩ rest := by
  induction us generalizing n with
  | nil =>
    have step : lexicalStep label ⟨d, t, .string false n⟩ '"' = .ok ⟨d, t, .structural⟩ := rfl
    simp [passes_cons, step, within]
  | cons u us ih =>
    rw [List.flatMap_cons, List.append_assoc, passes_escape u within, List.length_append,
      ← Nat.add_assoc]
    constructor
    · rintro ⟨room, inner⟩
      exact (ih room).1 inner
    · rintro ⟨room, after⟩
      have first : n + u.escape.length ≤ maxJsonStringTokenCharacters := by omega
      exact ⟨first, (ih first).2 ⟨room, after⟩⟩

/-- A string token costs one token, and its source characters must fit. -/
private theorem passes_quoted (s : Points) {d t : Nat} {rest : List Char} :
    Passes label ⟨d, t, .structural⟩ (quoted s ++ rest) ↔ t + 1 ≤ maxJsonLexicalTokens ∧
      (escaped s).length ≤ maxJsonStringTokenCharacters ∧
        Passes label ⟨d, t + 1, .structural⟩ rest := by
  have step : lexicalStep label ⟨d, t, .structural⟩ '"' =
      countTokens label ⟨d, t + 1, .string false 0⟩ := rfl
  have body := @passes_units label s.units d (t + 1) 0 rest (Nat.zero_le maxJsonStringTokenCharacters)
  rw [Nat.zero_add] at body
  simp only [quoted, List.cons_append, List.append_assoc, List.nil_append, passes_cons, step,
    countTokens_ok_iff]
  constructor
  · rintro ⟨_, ⟨room, rfl⟩, inner⟩
    exact ⟨room, body.1 inner⟩
  · rintro ⟨room, inner⟩
    exact ⟨_, ⟨room, rfl⟩, body.2 inner⟩

/-! ### Scalars -/

/-- The text goes on with something that ends a scalar. -/
private def Breaks (rest : List Char) : Prop := ∀ c ∈ rest.head?, endsScalar c = true

private theorem passes_resume {rest : List Char} (breaks : Breaks rest) {d t n : Nat} {b : Bool} :
    Passes label ⟨d, t, .scalar b n⟩ rest ↔ Passes label ⟨d, t, .structural⟩ rest := by
  cases rest with
  | nil => exact Iff.rfl
  | cons c cs =>
    have ends : endsScalar c = true := breaks c rfl
    rw [passes_cons, passes_cons]
    simp [lexicalStep, ends]

private theorem passes_body {body : List Char} (unbroken : ∀ c ∈ body, endsScalar c = false)
    {d t n : Nat} {b : Bool} {rest : List Char} (breaks : Breaks rest)
    (within : b = true → n ≤ maxJsonNumberTokenCharacters) :
    Passes label ⟨d, t, .scalar b n⟩ (body ++ rest) ↔
      (b = true → n + body.length ≤ maxJsonNumberTokenCharacters) ∧
        Passes label ⟨d, t, .structural⟩ rest := by
  -- the scanner counts the characters of a number as it goes, and checks at each
  induction body generalizing n with
  | nil => simpa [passes_resume breaks] using fun _ => within
  | cons c body ih =>
    have step : lexicalStep label ⟨d, t, .scalar b n⟩ c = (do
        checkNumber label b (n + 1)
        pure ⟨d, t, .scalar b (n + 1)⟩) := by
      simp [lexicalStep, unbroken c (by simp)]
    have rest_unbroken : ∀ e ∈ body, endsScalar e = false := fun e member =>
      unbroken e (by simp [member])
    simp only [List.cons_append, passes_cons, step, checkNumber, refuseIf_bind_ok_iff, pure_ok_iff,
      not_and, not_lt, List.length_cons]
    rw [show n + (body.length + 1) = n + 1 + body.length by omega]
    constructor
    · rintro ⟨_, ⟨room, rfl⟩, inner⟩
      exact (ih rest_unbroken room).1 inner
    · rintro ⟨room, inner⟩
      have first : b = true → n + 1 ≤ maxJsonNumberTokenCharacters := fun number => by
        have := room number
        omega
      exact ⟨_, ⟨first, rfl⟩, (ih rest_unbroken first).2 ⟨room, inner⟩⟩

private theorem passes_scalar {c : Char} {body rest : List Char} (start : endsScalar c = false)
    (unbroken : ∀ e ∈ body, endsScalar e = false) (breaks : Breaks rest) {d t : Nat} :
    Passes label ⟨d, t, .structural⟩ (c :: body ++ rest) ↔ t + 1 ≤ maxJsonLexicalTokens ∧
      (startsNumber c = true → (c :: body).length ≤ maxJsonNumberTokenCharacters) ∧
        Passes label ⟨d, t + 1, .structural⟩ rest := by
  have step : lexicalStep label ⟨d, t, .structural⟩ c = (do
      checkNumber label (startsNumber c) 1
      countTokens label ⟨d, t + 1, .scalar (startsNumber c) 1⟩) := by
    simp only [endsScalar, List.contains_eq_mem, List.mem_cons, List.not_mem_nil, or_false,
      Bool.or_eq_false_iff, decide_eq_false_iff_not, not_or] at start
    simp [lexicalStep, structuralStep, start]
  have one : ¬ (startsNumber c = true ∧ maxJsonNumberTokenCharacters < 1) := by
    rintro ⟨_, impossible⟩
    exact absurd impossible (by decide)
  have inner := @passes_body label body unbroken d (t + 1) 1 (startsNumber c) rest breaks
    fun _ => by decide
  simp only [List.cons_append, passes_cons, step, checkNumber, refuseIf_bind_ok_iff,
    countTokens_ok_iff, List.length_cons]
  rw [show body.length + 1 = 1 + body.length by omega]
  constructor
  · rintro ⟨_, ⟨_, room, rfl⟩, rest⟩
    exact ⟨room, inner.1 rest⟩
  · rintro ⟨room, rest⟩
    exact ⟨_, ⟨one, room, rfl⟩, inner.2 rest⟩

private theorem digit_unbroken {c : Char} (digit : c.isDigit = true) : endsScalar c = false := by
  have code := digit_code digit
  have space : isSpace c = false := by
    simp only [isSpace, Bool.or_eq_false_iff, Bool.and_eq_false_iff, decide_eq_false_iff_not,
      beq_eq_false_iff_ne]
    omega
  have other {e : Char} (outside : ¬ (48 ≤ e.toNat ∧ e.toNat ≤ 57)) : c ≠ e := by
    rintro rfl
    exact outside code
  simp only [endsScalar, space, Bool.false_or, List.contains_eq_mem, decide_eq_false_iff_not,
    List.mem_cons, List.not_mem_nil, or_false, not_or]
  exact ⟨other (by decide), other (by decide), other (by decide), other (by decide),
    other (by decide), other (by decide), other (by decide)⟩

private theorem digit_starts {c : Char} (digit : c.isDigit = true) : startsNumber c = true := by
  have code := digit_code digit
  have same : c = Char.ofNat c.toNat := (Char.ofNat_toNat c).symm
  obtain ⟨low, high⟩ := code
  rw [same]
  generalize c.toNat = n at low high
  interval_cases n <;> decide

private theorem number_unbroken {n : Numeral} (formed : n.WellFormed) :
    ∀ c ∈ n.chars, endsScalar c = false := by
  intro c member
  rcases mem_chars formed member with digit | rfl | rfl | rfl | rfl
  · exact digit_unbroken digit
  all_goals decide

private theorem passes_number {n : Numeral} (formed : n.WellFormed) {d t : Nat} {rest : List Char}
    (breaks : Breaks rest) :
    Passes label ⟨d, t, .structural⟩ (n.chars ++ rest) ↔ t + 1 ≤ maxJsonLexicalTokens ∧
      n.chars.length ≤ maxJsonNumberTokenCharacters ∧
        Passes label ⟨d, t + 1, .structural⟩ rest := by
  have unbroken := number_unbroken formed
  have starts : ∃ c body, n.chars = c :: body ∧ startsNumber c = true := by
    obtain ⟨c, tail, digit, shape | shape⟩ := chars_start formed
    · exact ⟨c, tail, shape, digit_starts digit⟩
    · exact ⟨'-', c :: tail, shape, rfl⟩
  obtain ⟨c, body, shape, number⟩ := starts
  rw [shape] at unbroken ⊢
  rw [passes_scalar (unbroken c (by simp)) (fun e member => unbroken e (by simp [member])) breaks]
  simp [number]

/-! ### Whole documents -/

/-- A document that passes at a position: what it adds to the depth and to the tokens still fits. -/
private structure FitsAt (d t : Nat) (x : Data) : Prop where
  depth : d + x.depth ≤ maxJsonNestingDepth
  tokens : t + x.tokens ≤ maxJsonLexicalTokens
  strings : ∀ s ∈ x.strings, (escaped s).length ≤ maxJsonStringTokenCharacters
  numbers : ∀ n ∈ x.numbers, n.length ≤ maxJsonNumberTokenCharacters

/-- Scanning a written value means checking its measures, and going on behind it. -/
private def Scans (label : String) (l : Layout) (x : Data) : Prop :=
  ∀ e d t rest, t ≤ maxJsonLexicalTokens → d ≤ maxJsonNestingDepth → Breaks rest →
    (Passes label ⟨d, t, .structural⟩ (x.render l e ++ rest) ↔
      FitsAt d t x ∧ Passes label ⟨d, t + x.tokens, .structural⟩ rest)

private theorem breaks_entry (l : Layout) (e : Nat) {c : Char} (close : c = ']' ∨ c = '}')
    (rest : List Char) : Breaks (l.entry e ++ c :: rest) := by
  intro b head
  cases entry : l.entry e with
  | nil =>
    rw [entry, List.nil_append, List.head?_cons, Option.mem_some_iff] at head
    subst head
    rcases close with rfl | rfl <;> rfl
  | cons a as =>
    rw [entry, List.cons_append, List.head?_cons, Option.mem_some_iff] at head
    subst head
    have blank := l.blank_entry e a (by simp [entry])
    simp only [isBlank, Bool.or_eq_true, beq_iff_eq] at blank
    rcases blank with ((rfl | rfl) | rfl) | rfl <;> rfl

private structure FitItems (d t : Nat) (items : List Data) : Prop where
  depth : ∀ x ∈ items, d + x.depth ≤ maxJsonNestingDepth
  tokens : t + Data.tokensItems items ≤ maxJsonLexicalTokens
  strings : ∀ s ∈ Data.stringsItems items, (escaped s).length ≤ maxJsonStringTokenCharacters
  numbers : ∀ n ∈ Data.numbersItems items, n.length ≤ maxJsonNumberTokenCharacters

private structure FitFields (d t : Nat) (fields : List Field) : Prop where
  depth : ∀ f ∈ fields, d + f.2.depth ≤ maxJsonNestingDepth
  tokens : t + Data.tokensFields fields ≤ maxJsonLexicalTokens
  strings : ∀ s ∈ Data.stringsFields fields, (escaped s).length ≤ maxJsonStringTokenCharacters
  numbers : ∀ n ∈ Data.numbersFields fields, n.length ≤ maxJsonNumberTokenCharacters

private theorem fitItems_cons {d t : Nat} {x : Data} {xs : List Data} :
    FitItems d t (x :: xs) ↔ FitsAt d t x ∧ FitItems d (t + x.tokens) xs := by
  constructor
  · rintro ⟨depth, tokens, strings, numbers⟩
    rw [Data.tokensItems, ← Nat.add_assoc] at tokens
    simp only [List.forall_mem_cons, Data.stringsItems, Data.numbersItems, List.forall_mem_append]
      at depth strings numbers
    exact ⟨⟨depth.1, by omega, strings.1, numbers.1⟩, ⟨depth.2, tokens, strings.2, numbers.2⟩⟩
  · rintro ⟨⟨depth, _, strings, numbers⟩, ⟨depths, tokens, more, others⟩⟩
    refine ⟨?_, by rw [Data.tokensItems, ← Nat.add_assoc]; exact tokens, ?_, ?_⟩
    · exact List.forall_mem_cons.2 ⟨depth, depths⟩
    · exact List.forall_mem_append.2 ⟨strings, more⟩
    · exact List.forall_mem_append.2 ⟨numbers, others⟩

private theorem fitFields_cons {d t : Nat} {k : Points} {x : Data} {fs : List Field} :
    FitFields d t ((k, x) :: fs) ↔ t + 1 ≤ maxJsonLexicalTokens ∧
      (escaped k).length ≤ maxJsonStringTokenCharacters ∧ FitsAt d (t + 1) x ∧
        FitFields d (t + 1 + x.tokens) fs := by
  have count : t + Data.tokensFields ((k, x) :: fs) = t + 1 + x.tokens + Data.tokensFields fs := by
    rw [Data.tokensFields]
    omega
  constructor
  · rintro ⟨depth, tokens, strings, numbers⟩
    rw [count] at tokens
    simp only [List.forall_mem_cons, Data.stringsFields, Data.numbersFields, List.forall_mem_append,
      List.cons_append] at depth strings numbers
    exact ⟨by omega, strings.1, ⟨depth.1, by omega, strings.2.1, numbers.1⟩,
      ⟨depth.2, tokens, strings.2.2, numbers.2⟩⟩
  · rintro ⟨_, name, ⟨depth, _, strings, numbers⟩, ⟨depths, tokens, more, others⟩⟩
    refine ⟨?_, by rw [count]; exact tokens, ?_, ?_⟩
    · exact List.forall_mem_cons.2 ⟨depth, depths⟩
    · exact List.forall_mem_cons.2 ⟨name, List.forall_mem_append.2 ⟨strings, more⟩⟩
    · exact List.forall_mem_append.2 ⟨numbers, others⟩

private theorem fitsAt_arr {d t : Nat} {items : List Data} :
    FitsAt d t (.arr items) ↔ d + 1 ≤ maxJsonNestingDepth ∧ t + 1 ≤ maxJsonLexicalTokens ∧
      FitItems (d + 1) (t + 1) items := by
  have deep : d + (Data.arr items).depth ≤ maxJsonNestingDepth ↔ d + 1 ≤ maxJsonNestingDepth ∧
      ∀ x ∈ items, d + 1 + x.depth ≤ maxJsonNestingDepth := by
    have inner := @Data.depthItems_le items (maxJsonNestingDepth - (d + 1))
    rw [Data.depth]
    constructor
    · intro below
      have each := inner.1 (by omega)
      exact ⟨by omega, fun x member => by have := each x member; omega⟩
    · rintro ⟨shallow, each⟩
      have below := inner.2 fun x member => by have := each x member; omega
      omega
  constructor
  · rintro ⟨depth, tokens, strings, numbers⟩
    obtain ⟨shallow, each⟩ := deep.1 depth
    rw [Data.tokens] at tokens
    exact ⟨shallow, by omega, each, by omega, strings, numbers⟩
  · rintro ⟨shallow, _, each, tokens, strings, numbers⟩
    exact ⟨deep.2 ⟨shallow, each⟩, by rw [Data.tokens]; omega, strings, numbers⟩

private theorem fitsAt_obj {d t : Nat} {fields : List Field} :
    FitsAt d t (.obj fields) ↔ d + 1 ≤ maxJsonNestingDepth ∧ t + 1 ≤ maxJsonLexicalTokens ∧
      FitFields (d + 1) (t + 1) fields := by
  have deep : d + (Data.obj fields).depth ≤ maxJsonNestingDepth ↔ d + 1 ≤ maxJsonNestingDepth ∧
      ∀ f ∈ fields, d + 1 + f.2.depth ≤ maxJsonNestingDepth := by
    have inner := @Data.depthFields_le fields (maxJsonNestingDepth - (d + 1))
    rw [Data.depth]
    constructor
    · intro below
      have each := inner.1 (by omega)
      exact ⟨by omega, fun f member => by have := each f member; omega⟩
    · rintro ⟨shallow, each⟩
      have below := inner.2 fun f member => by have := each f member; omega
      omega
  constructor
  · rintro ⟨depth, tokens, strings, numbers⟩
    obtain ⟨shallow, each⟩ := deep.1 depth
    rw [Data.tokens] at tokens
    exact ⟨shallow, by omega, each, by omega, strings, numbers⟩
  · rintro ⟨shallow, _, each, tokens, strings, numbers⟩
    exact ⟨deep.2 ⟨shallow, each⟩, by rw [Data.tokens]; omega, strings, numbers⟩

private theorem breaks_items (l : Layout) (e e' : Nat) (xs : List Data) (rest : List Char) :
    Breaks (Data.renderItems l e xs ++ (l.entry e' ++ ']' :: rest)) := by
  cases xs with
  | nil => exact breaks_entry l e' (.inl rfl) rest
  | cons x xs =>
    intro c head
    simp only [Data.renderItems, List.cons_append, List.head?_cons, Option.mem_some_iff] at head
    subst head
    rfl

private theorem breaks_fields (l : Layout) (e e' : Nat) (fs : List Field) (rest : List Char) :
    Breaks (Data.renderFields l e fs ++ (l.entry e' ++ '}' :: rest)) := by
  rcases fs with _ | ⟨⟨k, x⟩, fs⟩
  · exact breaks_entry l e' (.inr rfl) rest
  · intro c head
    simp only [Data.renderFields, List.cons_append, List.head?_cons, Option.mem_some_iff] at head
    subst head
    rfl

private theorem scans_items {l : Layout} {xs : List Data} (each : ∀ x ∈ xs, Scans label l x)
    {e e' d t : Nat} {rest : List Char} (within : t ≤ maxJsonLexicalTokens)
    (shallow : d + 1 ≤ maxJsonNestingDepth) :
    Passes label ⟨d + 1, t, .structural⟩
      (Data.renderItems l e xs ++ (l.entry e' ++ ']' :: rest)) ↔
      FitItems (d + 1) t xs ∧ Passes label ⟨d, t + Data.tokensItems xs, .structural⟩ rest := by
  induction xs generalizing t with
  | nil =>
    have empty : FitItems (d + 1) t [] :=
      ⟨by simp, within, by simp [Data.stringsItems], by simp [Data.numbersItems]⟩
    rw [Data.renderItems, List.nil_append, passes_blanks (l.blank_entry e'),
      passes_close (.inl rfl) within]
    simp [empty, Data.tokensItems]
  | cons x xs ih =>
    simp only [Data.renderItems, List.cons_append, List.append_assoc]
    rw [passes_separator (.inl rfl), passes_blanks (l.blank_entry e),
      each x (by simp) e (d + 1) t _ within shallow (breaks_items l e e' xs rest), fitItems_cons,
      Data.tokensItems, ← Nat.add_assoc]
    constructor
    · rintro ⟨own, inner⟩
      obtain ⟨others, after⟩ := (ih (fun y member => each y (by simp [member])) own.tokens).1 inner
      exact ⟨⟨own, others⟩, after⟩
    · rintro ⟨⟨own, others⟩, after⟩
      exact ⟨own, (ih (fun y member => each y (by simp [member])) own.tokens).2 ⟨others, after⟩⟩

private theorem scans_fields {l : Layout} {fs : List Field} (each : ∀ f ∈ fs, Scans label l f.2)
    {e e' d t : Nat} {rest : List Char} (within : t ≤ maxJsonLexicalTokens)
    (shallow : d + 1 ≤ maxJsonNestingDepth) :
    Passes label ⟨d + 1, t, .structural⟩
      (Data.renderFields l e fs ++ (l.entry e' ++ '}' :: rest)) ↔
      FitFields (d + 1) t fs ∧ Passes label ⟨d, t + Data.tokensFields fs, .structural⟩ rest := by
  induction fs generalizing t with
  | nil =>
    have empty : FitFields (d + 1) t [] :=
      ⟨by simp, within, by simp [Data.stringsFields], by simp [Data.numbersFields]⟩
    rw [Data.renderFields, List.nil_append, passes_blanks (l.blank_entry e'),
      passes_close (.inr rfl) within]
    simp [empty, Data.tokensFields]
  | cons f fs ih =>
    obtain ⟨k, x⟩ := f
    have count : t + Data.tokensFields ((k, x) :: fs) = t + 1 + x.tokens + Data.tokensFields fs := by
      rw [Data.tokensFields]
      omega
    simp only [Data.renderFields, List.cons_append, List.append_assoc]
    rw [passes_separator (.inl rfl), passes_blanks (l.blank_entry e), passes_quoted,
      passes_separator (.inr rfl), passes_blanks l.blank_colon, fitFields_cons, count]
    constructor
    · rintro ⟨room, name, inner⟩
      rw [each (k, x) (by simp) e (d + 1) (t + 1) _ room shallow (breaks_fields l e e' fs rest)]
        at inner
      obtain ⟨own, inner⟩ := inner
      obtain ⟨others, after⟩ := (ih (fun y member => each y (by simp [member])) own.tokens).1 inner
      exact ⟨⟨room, name, own, others⟩, after⟩
    · rintro ⟨⟨room, name, own, others⟩, after⟩
      refine ⟨room, name, ?_⟩
      rw [each (k, x) (by simp) e (d + 1) (t + 1) _ room shallow (breaks_fields l e e' fs rest)]
      exact ⟨own, (ih (fun y member => each y (by simp [member])) own.tokens).2 ⟨others, after⟩⟩

private theorem scans_leaf {x : Data} {d t : Nat} {p : Prop} (leaf : x.depth = 0) (one : x.tokens = 1)
    (deep : d ≤ maxJsonNestingDepth)
    (fits : p ↔ (∀ s ∈ x.strings, (escaped s).length ≤ maxJsonStringTokenCharacters) ∧
      ∀ n ∈ x.numbers, n.length ≤ maxJsonNumberTokenCharacters) :
    FitsAt d t x ↔ t + 1 ≤ maxJsonLexicalTokens ∧ p := by
  rw [fits]
  constructor
  · rintro ⟨_, tokens, strings, numbers⟩
    exact ⟨by omega, strings, numbers⟩
  · rintro ⟨tokens, strings, numbers⟩
    exact ⟨by omega, by omega, strings, numbers⟩

private theorem unbroken_of_all {body : List Char} (all : body.all (fun c => !endsScalar c) = true) :
    ∀ c ∈ body, endsScalar c = false := by
  simpa using all

private theorem scans (l : Layout) (x : Data) : Scans label l x := by
  intro e d t rest within deep breaks
  -- `null`, `true` and `false` are one token each, and no number
  have literal {c : Char} {body : List Char} (start : endsScalar c = false)
      (unbroken : ∀ e ∈ body, endsScalar e = false) (word : startsNumber c = false) :
      Passes label ⟨d, t, .structural⟩ (c :: body ++ rest) ↔ (t + 1 ≤ maxJsonLexicalTokens ∧ True) ∧
        Passes label ⟨d, t + 1, .structural⟩ rest := by
    rw [passes_scalar start unbroken breaks]
    simp [word]
  induction x using Data.induction_on generalizing e d t rest with
  | null =>
    rw [scans_leaf (p := True) rfl rfl deep (by simp [Data.strings, Data.numbers])]
    exact literal rfl (unbroken_of_all rfl) rfl
  | bool b =>
    rw [scans_leaf (p := True) rfl rfl deep (by simp [Data.strings, Data.numbers])]
    cases b
    · exact literal rfl (unbroken_of_all rfl) rfl
    · exact literal rfl (unbroken_of_all rfl) rfl
  | int i =>
    rw [scans_leaf rfl rfl deep Iff.rfl, Data.render, passes_number (Numeral.ofInt_wellFormed i) breaks]
    simp [Data.strings, Data.numbers, Data.tokens, and_assoc]
  | float y =>
    rw [scans_leaf rfl rfl deep Iff.rfl, Data.render, passes_number y.numeral_wellFormed breaks]
    simp [Data.strings, Data.numbers, Data.tokens, and_assoc]
  | str s =>
    rw [scans_leaf rfl rfl deep Iff.rfl, Data.render, passes_quoted]
    simp [Data.strings, Data.numbers, Data.tokens, and_assoc]
  | arr items ih =>
    have each : ∀ y ∈ items, Scans label l y := fun y member e d t rest within deep breaks =>
      ih y member e d t rest within deep breaks fun start unbroken word => by
        rw [passes_scalar start unbroken breaks]
        simp [word]
    rw [fitsAt_arr]
    cases items with
    | nil =>
      simp only [Data.render, List.cons_append, List.nil_append]
      rw [passes_open (.inl rfl)]
      constructor
      · rintro ⟨shallow, room, inner⟩
        rw [passes_close (.inl rfl) room] at inner
        exact ⟨⟨shallow, room, by simp, by simpa [Data.tokensItems] using room,
          by simp [Data.stringsItems], by simp [Data.numbersItems]⟩, inner⟩
      · rintro ⟨⟨shallow, room, _⟩, after⟩
        exact ⟨shallow, room, (passes_close (.inl rfl) room).2 after⟩
    | cons y ys =>
      have others : ∀ z ∈ ys, Scans label l z := fun z member => each z (by simp [member])
      have count : t + (Data.arr (y :: ys)).tokens = t + 1 + y.tokens + Data.tokensItems ys := by
        rw [Data.tokens, Data.tokensItems]
        omega
      simp only [Data.render, List.cons_append, List.append_assoc, List.nil_append]
      rw [passes_open (.inl rfl), passes_blanks (l.blank_entry _), count, fitItems_cons]
      constructor
      · rintro ⟨shallow, room, inner⟩
        rw [each y (by simp) _ _ _ _ room shallow (breaks_items l _ _ ys rest)] at inner
        obtain ⟨own, inner⟩ := inner
        obtain ⟨fit, after⟩ := (scans_items others own.tokens shallow).1 inner
        exact ⟨⟨shallow, room, own, fit⟩, after⟩
      · rintro ⟨⟨shallow, room, own, fit⟩, after⟩
        refine ⟨shallow, room, ?_⟩
        rw [each y (by simp) _ _ _ _ room shallow (breaks_items l _ _ ys rest)]
        exact ⟨own, (scans_items others own.tokens shallow).2 ⟨fit, after⟩⟩
  | obj fields ih =>
    have each : ∀ f ∈ fields, Scans label l f.2 := fun f member e d t rest within deep breaks =>
      ih f member e d t rest within deep breaks fun start unbroken word => by
        rw [passes_scalar start unbroken breaks]
        simp [word]
    rw [fitsAt_obj]
    rcases fields with _ | ⟨⟨k, y⟩, fs⟩
    · simp only [Data.render, List.cons_append, List.nil_append]
      rw [passes_open (.inr rfl)]
      constructor
      · rintro ⟨shallow, room, inner⟩
        rw [passes_close (.inr rfl) room] at inner
        exact ⟨⟨shallow, room, by simp, by simpa [Data.tokensFields] using room,
          by simp [Data.stringsFields], by simp [Data.numbersFields]⟩, inner⟩
      · rintro ⟨⟨shallow, room, _⟩, after⟩
        exact ⟨shallow, room, (passes_close (.inr rfl) room).2 after⟩
    · have others : ∀ f ∈ fs, Scans label l f.2 := fun f member => each f (by simp [member])
      have count : t + (Data.obj ((k, y) :: fs)).tokens =
          t + 1 + 1 + y.tokens + Data.tokensFields fs := by
        rw [Data.tokens, Data.tokensFields]
        omega
      simp only [Data.render, List.cons_append, List.append_assoc, List.nil_append]
      -- a field adds the token of its name to those of its value
      rw [passes_open (.inr rfl), passes_blanks (l.blank_entry _), passes_quoted,
        passes_separator (.inr rfl), passes_blanks l.blank_colon, count, fitFields_cons]
      constructor
      · rintro ⟨shallow, room, named, name, inner⟩
        rw [each (k, y) (by simp) _ _ _ _ named shallow (breaks_fields l _ _ fs rest)] at inner
        obtain ⟨own, inner⟩ := inner
        obtain ⟨fit, after⟩ := (scans_fields others own.tokens shallow).1 inner
        exact ⟨⟨shallow, room, named, name, own, fit⟩, after⟩
      · rintro ⟨⟨shallow, room, named, name, own, fit⟩, after⟩
        refine ⟨shallow, room, named, name, ?_⟩
        rw [each (k, y) (by simp) _ _ _ _ named shallow (breaks_fields l _ _ fs rest)]
        exact ⟨own, (scans_fields others own.tokens shallow).2 ⟨fit, after⟩⟩

end Render

/-- The preflight passes the text of a document exactly within the lexical ceilings. -/
theorem preflightStructure_render (label : String) (l : Layout) (x : Data) :
    preflightStructure label (x.render l 0) = .ok () ↔ Lexical x := by
  have whole := @scans label l x 0 0 0 [] (by decide) (by decide) (by simp [Breaks])
  rw [List.append_nil] at whole
  have done : Passes label ⟨0, 0 + x.tokens, .structural⟩ [] := rfl
  unfold preflightStructure
  rw [show preflightFrom label ⟨0, 0, .structural⟩ (x.render l 0) = .ok () ↔ _ from whole]
  constructor
  · rintro ⟨⟨depth, tokens, strings, numbers⟩, _⟩
    exact ⟨by omega, by omega, strings, numbers⟩
  · rintro ⟨depth, tokens, strings, numbers⟩
    exact ⟨⟨by omega, by omega, strings, numbers⟩, done⟩

private theorem rereadItems_iff {label : String} {items ys : List Data}
    (each : ∀ x ∈ items, ∀ y, (strictHooks label).reread x = .ok y ↔
      x.joined.Distinct ∧ y = x.joined) :
    (strictHooks label).rereadItems items = .ok ys ↔
      Data.DistinctItems (Data.joinedItems items) ∧ ys = Data.joinedItems items := by
  induction items generalizing ys with
  | nil => simp [Hooks.rereadItems, Data.joinedItems, Data.DistinctItems, eq_comm]
  | cons x xs ih =>
    have rest (zs : List Data) := @ih zs fun y member => each y (by simp [member])
    simp only [Hooks.rereadItems, bind_ok_iff, pure_ok_iff, each x (by simp), rest,
      Data.joinedItems, Data.DistinctItems]
    constructor
    · rintro ⟨_, ⟨own, rfl⟩, _, ⟨others, rfl⟩, rfl⟩
      exact ⟨⟨own, others⟩, rfl⟩
    · rintro ⟨⟨own, others⟩, rfl⟩
      exact ⟨_, ⟨own, rfl⟩, _, ⟨others, rfl⟩, rfl⟩

private theorem rereadFields_iff {label : String} {fields gs : List Field}
    (each : ∀ f ∈ fields, ∀ y, (strictHooks label).reread f.2 = .ok y ↔
      f.2.joined.Distinct ∧ y = f.2.joined) :
    (strictHooks label).rereadFields fields = .ok gs ↔
      Data.DistinctFields (Data.joinedFields fields) ∧ gs = Data.joinedFields fields := by
  induction fields generalizing gs with
  | nil => simp [Hooks.rereadFields, Data.joinedFields, Data.DistinctFields, eq_comm]
  | cons f fs ih =>
    obtain ⟨k, x⟩ := f
    have rest (hs : List Field) := @ih hs fun f member => each f (by simp [member])
    have head := each (k, x) (by simp)
    simp only [Hooks.rereadFields, bind_ok_iff, pure_ok_iff, head, rest, Data.joinedFields,
      Data.DistinctFields]
    constructor
    · rintro ⟨_, ⟨own, rfl⟩, _, ⟨others, rfl⟩, rfl⟩
      exact ⟨⟨own, others⟩, rfl⟩
    · rintro ⟨⟨own, others⟩, rfl⟩
      exact ⟨_, ⟨own, rfl⟩, _, ⟨others, rfl⟩, rfl⟩

private theorem reread_iff {label : String} (x y : Data) :
    (strictHooks label).reread x = .ok y ↔ x.joined.Distinct ∧ y = x.joined := by
  induction x using Data.induction_on generalizing y with
  | null => simp [Hooks.reread, Data.joined, Data.Distinct, eq_comm]
  | bool b => simp [Hooks.reread, Data.joined, Data.Distinct, eq_comm]
  | int i => simp [Hooks.reread, strictHooks, Data.joined, Data.Distinct, eq_comm]
  | float x => simp [Hooks.reread, strictHooks, Data.joined, Data.Distinct, eq_comm]
  | str s => simp [Hooks.reread, Data.joined, Data.Distinct, eq_comm]
  | arr items ih =>
    simp only [Hooks.reread, bind_ok_iff, pure_ok_iff, rereadItems_iff ih, Data.joined, Data.Distinct]
    constructor
    · rintro ⟨_, ⟨own, rfl⟩, rfl⟩
      exact ⟨own, rfl⟩
    · rintro ⟨own, rfl⟩
      exact ⟨_, ⟨own, rfl⟩, rfl⟩
  | obj fields ih =>
    have object (gs : List Field) (y : Data) : (strictHooks label).object gs = .ok y ↔
        (gs.map (·.1)).Nodup ∧ y = .obj gs := by
      -- the one hook that may refuse: an object with a name twice
      simp only [strictHooks, uniqueObject]
      split
      next distinct => simp [distinct, eq_comm]
      next repeated => simp [repeated]
    simp only [Hooks.reread, bind_ok_iff, rereadFields_iff ih, object, Data.joined, Data.Distinct]
    constructor
    · rintro ⟨_, ⟨own, rfl⟩, names, rfl⟩
      exact ⟨⟨names, own⟩, rfl⟩
    · rintro ⟨⟨names, own⟩, rfl⟩
      exact ⟨_, ⟨own, rfl⟩, names, rfl⟩

/-- Reading back a written document: within the lexical ceilings and with distinct names it is the
document with its surrogate pairs joined, and otherwise it is refused. -/
theorem loadsStrictJson_render (label : String) (l : Layout) (x y : Data) :
    loadsStrictJson label (x.render l 0) = .ok y ↔
      Lexical x ∧ x.joined.Distinct ∧ y = x.joined := by
  rw [loadsStrictJson, unit_bind_ok_iff, preflightStructure_render, Hooks.loads_render, reread_iff]

end DefiantHarness
