import DefiantHarness.Foundation.JsonForm
import Mathlib.Algebra.BigOperators.Group.List.Basic

/-! The length of the text without whitespace, from the lengths of its parts. -/
namespace Foundation

namespace Data

/-- The text without whitespace. -/
def text (x : Data) : List Char := x.render Layout.compact 0

private theorem renderItems_depth {items : List Data}
    (same : ∀ x ∈ items, ∀ d, x.render Layout.compact d = x.text) (d e : Nat) :
    renderItems Layout.compact d items = renderItems Layout.compact e items := by
  induction items with
  | nil => rfl
  | cons x xs ih =>
    rw [renderItems, renderItems, same x (by simp) d, same x (by simp) e,
      ih fun y member => same y (by simp [member])]
    rfl

private theorem renderFields_depth {fields : List Field}
    (same : ∀ f ∈ fields, ∀ d, f.2.render Layout.compact d = f.2.text) (d e : Nat) :
    renderFields Layout.compact d fields = renderFields Layout.compact e fields := by
  induction fields with
  | nil => rfl
  | cons f fs ih =>
    obtain ⟨k, x⟩ := f
    rw [renderFields, renderFields, same (k, x) (by simp) d, same (k, x) (by simp) e,
      ih fun y member => same y (by simp [member])]
    rfl

/-- Without whitespace the depth does not show. -/
theorem render_compact (x : Data) (d : Nat) : x.render Layout.compact d = x.text := by
  induction x using Data.induction_on generalizing d with
  | null => rfl
  | bool b => cases b <;> rfl
  | int i => rfl
  | float x => rfl
  | str s => rfl
  | arr items ih =>
    cases items with
    | nil => rfl
    | cons x xs =>
      rw [text, render, render, ih x (by simp), ih x (by simp),
        renderItems_depth (fun y member d => ih y (by simp [member]) d) (d + 1) (0 + 1)]
      rfl
  | obj fields ih =>
    rcases fields with _ | ⟨⟨k, x⟩, fs⟩
    · rfl
    · rw [text, render, render, ih (k, x) (by simp), ih (k, x) (by simp),
        renderFields_depth (fun y member d => ih y (by simp [member]) d) (d + 1) (0 + 1)]
      rfl

private theorem renderItems_length (d : Nat) (items : List Data) :
    (renderItems Layout.compact d items).length =
      (items.map fun x => x.text.length).sum + items.length := by
  induction items with
  | nil => rfl
  | cons x xs ih =>
    rw [renderItems, render_compact]
    simp only [List.length_append, List.length_cons, ih, List.map_cons, List.sum_cons,
      Layout.compact_entry, List.length_nil]
    omega

private theorem renderFields_length (d : Nat) (fields : List Field) :
    (renderFields Layout.compact d fields).length =
      (fields.map fun f => (quoted f.1).length + f.2.text.length + 1).sum + fields.length := by
  induction fields with
  | nil => rfl
  | cons f fs ih =>
    obtain ⟨k, x⟩ := f
    rw [renderFields, render_compact]
    simp only [List.length_append, List.length_cons, ih, List.map_cons, List.sum_cons,
      Layout.compact_entry, Layout.compact_colon,
      List.length_nil]
    omega

/-- Two brackets, the items, and a comma between two of them. -/
theorem text_arr_length (items : List Data) :
    (arr items).text.length =
      2 + (items.map fun x => x.text.length).sum + (items.length - 1) := by
  cases items with
  | nil => rfl
  | cons x xs =>
    rw [text, render, render_compact]
    simp only [List.length_append, List.length_cons, renderItems_length, List.map_cons,
      List.sum_cons, Layout.compact_entry, List.length_nil]
    omega

/-- Two braces, the fields with a colon each, and a comma between two of them. -/
theorem text_obj_length (fields : List Field) :
    (obj fields).text.length =
      2 + (fields.map fun f => (quoted f.1).length + f.2.text.length + 1).sum +
        (fields.length - 1) := by
  rcases fields with _ | ⟨⟨k, x⟩, fs⟩
  · rfl
  · rw [text, render, render_compact]
    simp only [List.length_append, List.length_cons, renderFields_length, List.map_cons,
      List.sum_cons, Layout.compact_entry, Layout.compact_colon,
      List.length_nil]
    omega

end Data

theorem CodeUnit.escape_length (u : CodeUnit) :
    u.escape.length =
      if u.val ∈ [0x22, 0x5C, 0x08, 0x0C, 0x0A, 0x0D, 0x09] then 2
      else if 0x20 ≤ u.val ∧ u.val ≤ 0x7E then 1 else 6 := by
  simp only [CodeUnit.escape, List.mem_cons, List.not_mem_nil, or_false]
  by_cases quote : u.val = 0x22
  · simp [quote]
  by_cases backslash : u.val = 0x5C
  · simp [backslash]
  by_cases backspace : u.val = 0x08
  · simp [backspace]
  by_cases feed : u.val = 0x0C
  · simp [feed]
  by_cases line : u.val = 0x0A
  · simp [line]
  by_cases carriage : u.val = 0x0D
  · simp [carriage]
  by_cases tab : u.val = 0x09
  · simp [tab]
  by_cases printable : 0x20 ≤ u.val ∧ u.val ≤ 0x7E
  · simp [*]
  · simp only [quote, backslash, backspace, feed, line, carriage, tab, printable, or_self,
      if_false]
    rfl

theorem escaped_cons (c : CodePoint) (s : Points) :
    escaped (c :: s) = c.units.flatMap CodeUnit.escape ++ escaped s := by
  simp [escaped]

theorem quoted_length (s : Points) : (quoted s).length = 2 + (escaped s).length := by
  simp only [quoted, List.length_append, List.length_cons, List.length_nil]
  omega

/-- Every character of the list is ASCII. -/
def Ascii (cs : List Char) : Prop := ∀ c ∈ cs, c.toNat < 0x80

theorem Ascii.append {cs ds : List Char} (left : Ascii cs) (right : Ascii ds) :
    Ascii (cs ++ ds) := by
  intro c member
  rcases List.mem_append.1 member with first | second
  · exact left c first
  · exact right c second

private theorem ascii_digitChar : ∀ n : Fin 16, (Nat.digitChar n).toNat < 0x80 := by decide

private theorem ascii_hexDigits (u : CodeUnit) : Ascii u.hexDigits := by
  have bound := u.isLt
  have digit {n : Nat} (small : n < 16) : (Nat.digitChar n).toNat < 0x80 := ascii_digitChar ⟨n, small⟩
  intro c member
  simp only [CodeUnit.hexDigits, List.mem_cons, List.not_mem_nil, or_false] at member
  rcases member with rfl | rfl | rfl | rfl
  · exact digit (by omega)
  · exact digit (by omega)
  · exact digit (by omega)
  · exact digit (by omega)

private theorem ascii_escape (u : CodeUnit) : Ascii u.escape := by
  by_cases printable : 0x20 ≤ u.val ∧ u.val ≤ 0x7E
  · have code := char_toNat printable.2
    have plain : Ascii [Char.ofNat u.val] := by
      intro c member
      rw [List.mem_singleton.1 member, code]
      omega
    unfold CodeUnit.escape
    repeat' split
    all_goals first
      | exact plain
      | simp [Ascii]
  · unfold CodeUnit.escape
    repeat' split
    all_goals first
      | exact absurd ‹_› printable
      | exact Ascii.append (show Ascii ['\\', 'u'] by simp [Ascii]) (ascii_hexDigits u)
      | simp [Ascii]

/-- A unit is written as itself, or as a backslash, a letter and further plain characters. -/
theorem CodeUnit.escape_cases (u : CodeUnit) :
    (∃ c, u.escape = [c] ∧ c ≠ '"' ∧ c ≠ '\\') ∨
      ∃ c tail, u.escape = '\\' :: c :: tail ∧ ∀ e ∈ tail, e ≠ '"' ∧ e ≠ '\\' := by
  have bound := u.isLt
  have digit : ∀ n : Fin 16, Nat.digitChar n ≠ '"' ∧ Nat.digitChar n ≠ '\\' := by decide
  -- no hexadecimal digit is a quote or a backslash
  have hex : ∀ e ∈ u.hexDigits, e ≠ '"' ∧ e ≠ '\\' := by
    intro e member
    simp only [CodeUnit.hexDigits, List.mem_cons, List.not_mem_nil, or_false] at member
    rcases member with rfl | rfl | rfl | rfl
    · exact digit ⟨u.val / 4096, by omega⟩
    · exact digit ⟨u.val / 256 % 16, by omega⟩
    · exact digit ⟨u.val / 16 % 16, by omega⟩
    · exact digit ⟨u.val % 16, by omega⟩
  have plain (quote : ¬ u.val = 0x22) (backslash : ¬ u.val = 0x5C) (small : u.val ≤ 0x7E) :
      Char.ofNat u.val ≠ '"' ∧ Char.ofNat u.val ≠ '\\' := by
    have code := char_toNat small
    constructor
    · intro same
      rw [same] at code
      exact quote code.symm
    · intro same
      rw [same] at code
      exact backslash code.symm
  unfold CodeUnit.escape
  repeat' split
  all_goals first
    | exact .inl ⟨_, rfl, plain ‹_› ‹_› (And.right ‹_›)⟩
    | exact .inr ⟨_, _, rfl, hex⟩
    | exact .inr ⟨_, [], rfl, by simp⟩

theorem ascii_quoted (s : Points) : Ascii (quoted s) := by
  have body : Ascii (escaped s) := by
    intro c member
    obtain ⟨u, _, inside⟩ := List.mem_flatMap.1 member
    exact ascii_escape u c inside
  have quote : Ascii ['"'] := by simp [Ascii]
  exact (quote.append body).append quote

/-- Characters that a string token writes as they are. -/
def Plain (cs : List Char) : Prop :=
  ∀ c ∈ cs, 0x20 ≤ c.toNat ∧ c.toNat ≤ 0x7E ∧ c.toNat ≠ 0x22 ∧ c.toNat ≠ 0x5C

theorem Plain.ascii {cs : List Char} (plain : Plain cs) : Ascii cs := by
  intro c member
  have := plain c member
  omega

/-- The characters of a number token. -/
theorem mem_chars {n : Numeral} (formed : n.WellFormed) {c : Char} (member : c ∈ n.chars) :
    c.isDigit = true ∨ c = '-' ∨ c = '+' ∨ c = '.' ∨ c = 'e' := by
  simp only [Numeral.chars, List.mem_append] at member
  rcases member with sign | whole | fraction | exponent
  · cases negative : n.negative <;> simp_all
  · exact .inl (formed.whole.digit c whole)
  · cases places : n.fraction with
    | none => simp [Numeral.fractionChars, places] at fraction
    | some ds =>
      simp only [Numeral.fractionChars, places, List.mem_cons] at fraction
      rcases fraction with rfl | digit
      · simp
      · exact .inl ((formed.fraction ds places).digit c digit)
  · cases power : n.exponent with
    | none => simp [Numeral.exponentChars, power] at exponent
    | some e =>
      obtain ⟨negative, ds⟩ := e
      simp only [Numeral.exponentChars, power, List.mem_cons] at exponent
      rcases exponent with rfl | sign | digit
      · simp
      · cases negative <;> simp_all
      · exact .inl ((formed.exponent _ power).digit c digit)

theorem digit_code {c : Char} (digit : c.isDigit = true) : 48 ≤ c.toNat ∧ c.toNat ≤ 57 := by
  simp only [Char.isDigit, Bool.and_eq_true, decide_eq_true_eq] at digit
  exact digit

/-- Number tokens are plain. -/
theorem plain_chars {n : Numeral} (formed : n.WellFormed) : Plain n.chars := by
  intro c member
  rcases mem_chars formed member with digit | rfl | rfl | rfl | rfl
  · have := digit_code digit
    omega
  all_goals decide

private theorem ascii_blank {cs : List Char} (blank : ∀ c ∈ cs, isBlank c = true) : Ascii cs := by
  intro c member
  have space := blank c member
  simp only [isBlank, Bool.or_eq_true, beq_iff_eq] at space
  rcases space with ((rfl | rfl) | rfl) | rfl <;> decide

private theorem ascii_cons {c : Char} {cs : List Char} (small : c.toNat < 0x80) (rest : Ascii cs) :
    Ascii (c :: cs) := by
  intro d member
  rcases List.mem_cons.1 member with rfl | later
  · exact small
  · exact rest d later

/-- The encoder writes ASCII only. -/
theorem Data.ascii_render (l : Layout) (x : Data) (d : Nat) : Ascii (x.render l d) := by
  have entry (d : Nat) : Ascii (l.entry d) := ascii_blank (l.blank_entry d)
  have colon : Ascii (l.colon) := ascii_blank l.blank_colon
  have closed {c : Char} (small : c.toNat < 0x80) : Ascii [c] := ascii_cons small (by simp [Ascii])
  induction x using Data.induction_on generalizing d with
  | null => simp [Ascii, render]
  | bool b => cases b <;> simp [Ascii, render]
  | int i => exact (plain_chars (Numeral.ofInt_wellFormed i)).ascii
  | float x => exact (plain_chars x.numeral_wellFormed).ascii
  | str s => exact ascii_quoted s
  | arr items ih =>
    have tail (xs : List Data) (each : ∀ x ∈ xs, ∀ d, Ascii (x.render l d)) (d : Nat) :
        Ascii (renderItems l d xs) := by
      induction xs with
      | nil => simp [Ascii, renderItems]
      | cons x xs step =>
        exact ascii_cons (by decide) (entry d) |>.append (each x (by simp) d) |>.append
          (step fun y member => each y (by simp [member]))
    cases items with
    | nil => simp [Ascii, render]
    | cons x xs =>
      exact ascii_cons (by decide) (entry _) |>.append (ih x (by simp) _) |>.append
        (tail xs (fun y member d => ih y (by simp [member]) d) _) |>.append (entry d) |>.append
          (closed (by decide))
  | obj fields ih =>
    have tail (fs : List Field) (each : ∀ f ∈ fs, ∀ d, Ascii (f.2.render l d)) (d : Nat) :
        Ascii (renderFields l d fs) := by
      induction fs with
      | nil => simp [Ascii, renderFields]
      | cons f fs step =>
        obtain ⟨k, x⟩ := f
        exact ascii_cons (by decide) (entry d) |>.append (ascii_quoted k) |>.append
          (ascii_cons (by decide) colon) |>.append (each (k, x) (by simp) d) |>.append
            (step fun y member => each y (by simp [member]))
    rcases fields with _ | ⟨⟨k, x⟩, fs⟩
    · simp [Ascii, render]
    · exact ascii_cons (by decide) (entry _) |>.append (ascii_quoted k) |>.append
        (ascii_cons (by decide) colon) |>.append (ih (k, x) (by simp) _) |>.append
          (tail fs (fun y member d => ih y (by simp [member]) d) _) |>.append (entry d) |>.append
            (closed (by decide))

end Foundation
