import Mathlib.Algebra.BigOperators.Ring.List
import Mathlib.Algebra.Order.BigOperators.Group.List
import DefiantHarness.Foundation.JsonShape
import DefiantHarness.Foundation.JsonWidth

/-! How long the text of a document is under a layout, and what that says about its parts. -/
namespace Foundation
namespace Data

variable (l : Layout) (d : Nat)

private theorem laidItems_length (items : List Data) :
    (renderItems l d items).length =
      (items.map fun x => 1 + (l.entry d).length + (x.render l d).length).sum := by
  induction items with
  | nil => rfl
  | cons x xs ih =>
    simp only [renderItems, List.length_append, List.length_cons, ih, List.map_cons, List.sum_cons]
    omega

private theorem laidFields_length (fields : List Field) :
    (renderFields l d fields).length = (fields.map fun f => 2 + (l.entry d).length + l.colon.length +
      (quoted f.1).length + (f.2.render l d).length).sum := by
  induction fields with
  | nil => rfl
  | cons f fs ih =>
    obtain ⟨k, x⟩ := f
    simp only [renderFields, List.length_append, List.length_cons, ih, List.map_cons, List.sum_cons]
    omega

/-- Each item with the bracket or comma before it, and the closing line. -/
theorem render_arr_length {items : List Data} (some : items ≠ []) :
    ((arr items).render l d).length = 1 + (l.entry d).length +
      (items.map fun x => 1 + (l.entry (d + 1)).length + (x.render l (d + 1)).length).sum := by
  cases items with
  | nil => exact absurd rfl some
  | cons x xs =>
    simp only [render, List.length_append, List.length_cons, laidItems_length, List.map_cons,
      List.sum_cons, List.length_nil]
    omega

theorem render_obj_length {fields : List Field} (some : fields ≠ []) :
    ((obj fields).render l d).length = 1 + (l.entry d).length +
      (fields.map fun f => 2 + (l.entry (d + 1)).length + l.colon.length + (quoted f.1).length +
        (f.2.render l (d + 1)).length).sum := by
  rcases fields with _ | ⟨⟨k, x⟩, fs⟩
  · exact absurd rfl some
  · simp only [render, List.length_append, List.length_cons, laidFields_length, List.map_cons,
      List.sum_cons, List.length_nil]
    omega

/-- No layout is shorter than the compact one. -/
theorem text_length_le (x : Data) : x.text.length ≤ (x.render l d).length := by
  induction x using Data.induction_on generalizing d with
  | arr items ih =>
    by_cases empty : items = []
    · subst empty
      exact Nat.le_refl _
    -- each item is no wider in the compact layout, and the separators are its narrowest
    · have each := @List.sum_le_sum _ _ _ _ _ _ items (fun x => 1 + (Layout.compact.entry 1).length +
          (x.render Layout.compact 1).length)
        (fun x => 1 + (l.entry (d + 1)).length + (x.render l (d + 1)).length) fun x member => by
            have inner := ih x member (d + 1)
            rw [render_compact]
            simp only [Layout.compact_entry, List.length_nil]
            omega
      have close : 1 + (Layout.compact.entry 0).length ≤ 1 + (l.entry d).length := by simp
      rw [text, render_arr_length Layout.compact 0 empty, render_arr_length l d empty]
      exact Nat.add_le_add close each
  | obj fields ih =>
    by_cases empty : fields = []
    · subst empty
      exact Nat.le_refl _
    · have each := @List.sum_le_sum _ _ _ _ _ _ fields (fun f => 2 + (Layout.compact.entry 1).length +
          Layout.compact.colon.length + (quoted f.1).length + (f.2.render Layout.compact 1).length)
        (fun f => 2 + (l.entry (d + 1)).length + l.colon.length + (quoted f.1).length +
          (f.2.render l (d + 1)).length) fun f member => by
            have inner := ih f member (d + 1)
            rw [render_compact]
            simp only [Layout.compact_entry, Layout.compact_colon, List.length_nil]
            omega
      have close : 1 + (Layout.compact.entry 0).length ≤ 1 + (l.entry d).length := by simp
      rw [text, render_obj_length Layout.compact 0 empty, render_obj_length l d empty]
      exact Nat.add_le_add close each
  | null => exact Nat.le_refl _
  | bool b => cases b <;> exact Nat.le_refl _
  | int i => exact Nat.le_refl _
  | float x => exact Nat.le_refl _
  | str s => exact Nat.le_refl _

private theorem le_sum_of_mem {α : Type} {f : α → Nat} {a : α} {as : List α} (member : a ∈ as) :
    f a ≤ (as.map f).sum :=
  List.single_le_sum (fun _ _ => Nat.zero_le _) _ (List.mem_map_of_mem member)

/-- The value of a field is shorter than the object around it. -/
theorem field_length_le {fields : List Field} {f : Field} (member : f ∈ fields) :
    (f.2.render l (d + 1)).length ≤ ((obj fields).render l d).length := by
  rw [render_obj_length l d (List.ne_nil_of_mem member)]
  have bound := le_sum_of_mem (f := fun f : Field => 2 + (l.entry (d + 1)).length + l.colon.length +
    (quoted f.1).length + (f.2.render l (d + 1)).length) member
  omega

/-- The source of a string is shorter than the text around it. -/
theorem escaped_length_le {x : Data} {s : Points} (member : s ∈ x.strings) :
    (escaped s).length ≤ (x.render l d).length := by
  induction x using Data.induction_on generalizing d with
  | arr items ih =>
    obtain ⟨x, own, listed⟩ := mem_stringsItems.1 member
    have bound := le_sum_of_mem (f := fun x : Data => 1 + (l.entry (d + 1)).length +
      (x.render l (d + 1)).length) own
    have inner := ih x own (d + 1) listed
    rw [render_arr_length l d (List.ne_nil_of_mem own)]
    omega
  | obj fields ih =>
    obtain ⟨f, own, listed⟩ := mem_stringsFields.1 member
    have bound := le_sum_of_mem (f := fun f : Field => 2 + (l.entry (d + 1)).length + l.colon.length +
      (quoted f.1).length + (f.2.render l (d + 1)).length) own
    rw [render_obj_length l d (List.ne_nil_of_mem own)]
    -- the text is the field's name or lies in its value
    rcases listed with rfl | listed
    · have name := quoted_length f.1
      omega
    · have inner := ih f own (d + 1) listed
      omega
  | str t =>
    rw [strings, List.mem_singleton] at member
    rw [member, render, quoted_length]
    omega
  | null => simp [strings] at member
  | bool b => simp [strings] at member
  | int i => simp [strings] at member
  | float x => simp [strings] at member

private theorem chars_pos (n : Numeral) (formed : n.WellFormed) : 1 ≤ n.chars.length := by
  obtain ⟨c, cs, -, shape | shape⟩ := chars_start formed <;> rw [shape] <;> simp

/-- From the second level on, an indented text has at least five characters for each token but the
first. -/
theorem tokens_le_indented {d : Nat} (inner : 2 ≤ d) (x : Data) :
    5 * x.tokens ≤ (x.render (Layout.indented 2) d).length + 4 := by
  -- a new line and its indentation, from the third level on
  have line (d : Nat) (inner : 2 ≤ d) : 7 ≤ ((Layout.indented 2).entry (d + 1)).length := by
    simp only [Layout.indented, List.length_cons, List.length_replicate]
    omega
  induction x using Data.induction_on generalizing d with
  | arr items ih =>
    by_cases empty : items = []
    · subst empty
      simp [tokens, tokensItems, render]
    · have each := @List.sum_le_sum _ _ _ _ _ _ items (fun x => 5 * x.tokens)
        (fun x => 1 + ((Layout.indented 2).entry (d + 1)).length +
          (x.render (Layout.indented 2) (d + 1)).length) fun x member => by
            have bound := ih x member (by omega : 2 ≤ d + 1)
            have space := line d inner
            omega
      rw [List.sum_map_mul_left] at each
      rw [tokens, tokensItems_eq, render_arr_length _ _ empty]
      omega
  | obj fields ih =>
    by_cases empty : fields = []
    · subst empty
      simp [tokens, tokensFields, render]
    · have each := @List.sum_le_sum _ _ _ _ _ _ fields (fun f => 5 * (f.2.tokens + 1))
        (fun f => 2 + ((Layout.indented 2).entry (d + 1)).length +
          (Layout.indented 2).colon.length + (quoted f.1).length +
            (f.2.render (Layout.indented 2) (d + 1)).length) fun f member => by
            have bound := ih f member (by omega : 2 ≤ d + 1)
            have space := line d inner
            omega
      rw [List.sum_map_mul_left] at each
      rw [← tokensFields_eq] at each
      rw [tokens, render_obj_length _ _ empty]
      apply (Nat.add_le_add_right (Nat.add_le_add_left each _) 4).trans'
      omega
  | null => simp [tokens, render]
  | bool b => cases b <;> simp [tokens, render]
  | int i =>
    have := chars_pos _ (Numeral.ofInt_wellFormed i)
    simp only [tokens, render]
    omega
  | float x =>
    have := chars_pos _ x.numeral_wellFormed
    simp only [tokens, render]
    omega
  | str s =>
    simp only [tokens, render, quoted_length]
    omega

private theorem sum_map_succ {α : Type} (f : α → Nat) (as : List α) :
    (as.map fun a => f a + 1).sum = (as.map f).sum + as.length := by
  induction as with
  | nil => rfl
  | cons a as ih =>
    rw [List.map_cons, List.map_cons, List.sum_cons, List.sum_cons, ih, List.length_cons]
    omega

/-- In the compact text every token but the first takes at least two characters. -/
theorem tokens_le_text (x : Data) : 2 * x.tokens ≤ x.text.length + 1 := by
  induction x using Data.induction_on with
  | arr items ih =>
    have each := @List.sum_le_sum _ _ _ _ _ _ items (fun x => 2 * x.tokens)
      (fun x => x.text.length + 1) ih
    rw [List.sum_map_mul_left, sum_map_succ] at each
    rw [tokens, tokensItems_eq, text_arr_length]
    omega
  | obj fields ih =>
    -- a field costs two tokens, and its name at least the two quotes
    have each := @List.sum_le_sum _ _ _ _ _ _ fields (fun f => 2 * (f.2.tokens + 1))
      (fun f => ((quoted f.1).length + f.2.text.length + 1) + 1) fun f member => by
        have bound := ih f member
        rw [quoted_length]
        omega
    rw [List.sum_map_mul_left,
      sum_map_succ fun f : Field => (quoted f.1).length + f.2.text.length + 1] at each
    rw [← tokensFields_eq] at each
    rw [tokens, text_obj_length]
    omega
  | null => simp [tokens, text, render]
  | bool b => cases b <;> simp [tokens, text, render]
  | int i =>
    have := chars_pos _ (Numeral.ofInt_wellFormed i)
    simp only [tokens, text, render]
    omega
  | float x =>
    have := chars_pos _ x.numeral_wellFormed
    simp only [tokens, text, render]
    omega
  | str s =>
    simp only [tokens, text, render, quoted_length]
    omega

end Data
end Foundation
