import Mathlib.Data.List.Lex
import Mathlib.Data.List.Sort
import DefiantHarness.Foundation.JsonParse

/-! The canonical text of a document, and how much of the document the text determines. -/
namespace Foundation

abbrev Field := Points × Data

namespace Data

def byName (f g : Field) : Prop := f.1 ≤ g.1

instance : DecidableRel byName := fun f g => inferInstanceAs (Decidable (f.1 ≤ g.1))

instance : Std.Total byName := ⟨fun f g => le_total f.1 g.1⟩

instance : IsTrans Field byName := ⟨fun _ _ _ => le_trans⟩

mutual

/-- Every object with its fields in the order of their names. -/
def sorted : Data → Data
  | .arr items => .arr (sortedItems items)
  | .obj fields => .obj ((sortedFields fields).insertionSort byName)
  | .null => .null
  | .bool b => .bool b
  | .int i => .int i
  | .float x => .float x
  | .str s => .str s

def sortedItems : List Data → List Data
  | [] => []
  | x :: xs => sorted x :: sortedItems xs

def sortedFields : List Field → List Field
  | [] => []
  | (k, x) :: fs => (k, sorted x) :: sortedFields fs

end

mutual

/-- Every string and name with its surrogate pairs read as one code point. -/
def joined : Data → Data
  | .arr items => .arr (joinedItems items)
  | .obj fields => .obj (joinedFields fields)
  | .null => .null
  | .bool b => .bool b
  | .int i => .int i
  | .float x => .float x
  | .str s => .str (CodeUnit.join s.units)

def joinedItems : List Data → List Data
  | [] => []
  | x :: xs => joined x :: joinedItems xs

def joinedFields : List Field → List Field
  | [] => []
  | (k, x) :: fs => (CodeUnit.join k.units, joined x) :: joinedFields fs

end

mutual

/-- Every string and name that occurs in a document. -/
def strings : Data → List Points
  | .arr items => stringsItems items
  | .obj fields => stringsFields fields
  | .str s => [s]
  | .null => []
  | .bool _ => []
  | .int _ => []
  | .float _ => []

def stringsItems : List Data → List Points
  | [] => []
  | x :: xs => strings x ++ stringsItems xs

def stringsFields : List Field → List Points
  | [] => []
  | (k, x) :: fs => k :: strings x ++ stringsFields fs

end

/-- Objects compare as maps: the order of their fields does not count. -/
def Same (x y : Data) : Prop := x.sorted = y.sorted

/-- The text that encoding with sorted names and no whitespace writes. -/
def canonical (x : Data) : List Char := x.sorted.render Layout.compact 0

theorem sortedItems_eq (items : List Data) : sortedItems items = items.map sorted := by
  induction items with
  | nil => rfl
  | cons x xs ih => rw [sortedItems, ih, List.map_cons]

theorem sortedFields_eq (fields : List Field) :
    sortedFields fields = fields.map fun f => (f.1, sorted f.2) := by
  induction fields with
  | nil => rfl
  | cons f fs ih =>
    obtain ⟨k, x⟩ := f
    rw [sortedFields, ih, List.map_cons]

theorem joinedItems_eq (items : List Data) : joinedItems items = items.map joined := by
  induction items with
  | nil => rfl
  | cons x xs ih => rw [joinedItems, ih, List.map_cons]

theorem joinedFields_eq (fields : List Field) :
    joinedFields fields = fields.map fun f => (CodeUnit.join f.1.units, joined f.2) := by
  induction fields with
  | nil => rfl
  | cons f fs ih =>
    obtain ⟨k, x⟩ := f
    rw [joinedFields, ih, List.map_cons]

theorem mem_stringsItems {s : Points} {items : List Data} :
    s ∈ stringsItems items ↔ ∃ x ∈ items, s ∈ x.strings := by
  induction items with
  | nil => simp [stringsItems]
  | cons x xs ih => simp [stringsItems, ih]

theorem mem_stringsFields {s : Points} {fields : List Field} :
    s ∈ stringsFields fields ↔ ∃ f ∈ fields, s = f.1 ∨ s ∈ f.2.strings := by
  induction fields with
  | nil => simp [stringsFields]
  | cons f fs ih =>
    obtain ⟨k, x⟩ := f
    simp [stringsFields, ih, or_assoc]

example : strings (.obj [(.ofString "b", .arr [.str (.ofString "a"), .null])]) =
    [.ofString "b", .ofString "a"] := by decide +kernel

/-- Sorting names neither adds nor drops a string. -/
theorem mem_strings_sorted {s : Points} (x : Data) : s ∈ x.sorted.strings ↔ s ∈ x.strings := by
  induction x using Data.induction_on with
  | arr items ih =>
    simp only [sorted, strings, mem_stringsItems, sortedItems_eq, List.mem_map]
    constructor
    · rintro ⟨_, ⟨x, member, rfl⟩, found⟩
      exact ⟨x, member, (ih x member).1 found⟩
    · rintro ⟨x, member, found⟩
      exact ⟨_, ⟨x, member, rfl⟩, (ih x member).2 found⟩
  | obj fields ih =>
    simp only [sorted, strings, mem_stringsFields, sortedFields_eq, List.mem_insertionSort,
      List.mem_map]
    constructor
    · rintro ⟨_, ⟨f, member, rfl⟩, name | found⟩
      · exact ⟨f, member, .inl name⟩
      · exact ⟨f, member, .inr ((ih f member).1 found)⟩
    · rintro ⟨f, member, name | found⟩
      · exact ⟨_, ⟨f, member, rfl⟩, .inl name⟩
      · exact ⟨_, ⟨f, member, rfl⟩, .inr ((ih f member).2 found)⟩
  | null => rfl
  | bool b => rfl
  | int i => rfl
  | float x => rfl
  | str s => rfl

@[simp] theorem escaped_join (s : Points) : escaped (CodeUnit.join s.units) = escaped s := by
  rw [escaped, units_join, escaped]

@[simp] theorem quoted_join (s : Points) : quoted (CodeUnit.join s.units) = quoted s := by
  rw [quoted, escaped_join, quoted]

private theorem renderItems_congr (l : Layout) {items : List Data} {f : Data → Data}
    (same : ∀ x ∈ items, ∀ d, (f x).render l d = x.render l d) (d : Nat) :
    renderItems l d (items.map f) = renderItems l d items := by
  induction items with
  | nil => rfl
  | cons x xs ih =>
    rw [List.map_cons, renderItems, renderItems, same x (by simp),
      ih fun y member => same y (by simp [member])]

/-- The text depends on the code units alone. -/
@[simp] theorem render_joined (l : Layout) (x : Data) (d : Nat) :
    x.joined.render l d = x.render l d := by
  induction x using Data.induction_on generalizing d with
  | arr items ih =>
    cases items with
    | nil => rfl
    | cons x xs =>
      rw [joined, joinedItems, joinedItems_eq, render, render, ih x (by simp),
        renderItems_congr l fun y member d => ih y (by simp [member]) d]
  | obj fields ih =>
    -- the first field is written apart from the others, which carry a comma
    rcases fields with _ | ⟨⟨k, x⟩, fs⟩
    · rfl
    · have tail (fs : List Field) (same : ∀ f ∈ fs, ∀ d, f.2.joined.render l d = f.2.render l d)
          (d : Nat) : renderFields l d (joinedFields fs) = renderFields l d fs := by
        induction fs with
        | nil => rfl
        | cons f fs step =>
          obtain ⟨k, x⟩ := f
          rw [joinedFields, renderFields, renderFields, quoted_join, same (k, x) (by simp),
            step fun f member => same f (by simp [member])]
      rw [joined, joinedFields, render, render, quoted_join, ih (k, x) (by simp),
        tail fs fun f member d => ih f (by simp [member]) d]
  | str s => exact quoted_join s
  | null => rfl
  | bool b => rfl
  | int i => rfl
  | float x => rfl

example : (joined (.str [0xD83D, 0xDE00])).render Layout.compact 0 = "\"\\ud83d\\ude00\"".toList := by
  decide +kernel

/-- Hooks that keep everything as it is read. -/
private def keep : Hooks Unit where
  invalid := ()
  object fields := .ok (.obj fields)
  constant := .error ()
  float n := (Binary64.ofNumeral n).elim (.error ()) fun x => .ok (.float x)
  int n := .ok (.int n.toInt)

private theorem reread_keep (x : Data) : keep.reread x = .ok x.joined := by
  induction x using Data.induction_on with
  | null => rfl
  | bool b => rfl
  | int i => simp [Hooks.reread, keep, joined]
  | float x => simp [Hooks.reread, keep, joined]
  | str s => rfl
  | arr items ih =>
    have tail (xs : List Data) (read : ∀ x ∈ xs, keep.reread x = .ok x.joined) :
        keep.rereadItems xs = .ok (joinedItems xs) := by
      induction xs with
      | nil => rfl
      | cons x xs step =>
        rw [Hooks.rereadItems, read x (by simp), step fun y member => read y (by simp [member])]
        rfl
    rw [Hooks.reread, tail items ih]
    rfl
  | obj fields ih =>
    have tail (fs : List Field) (read : ∀ f ∈ fs, keep.reread f.2 = .ok f.2.joined) :
        keep.rereadFields fs = .ok (joinedFields fs) := by
      induction fs with
      | nil => rfl
      | cons f fs step =>
        obtain ⟨k, x⟩ := f
        rw [Hooks.rereadFields, read (k, x) (by simp), step fun y member => read y (by simp [member])]
        rfl
    rw [Hooks.reread, tail fields ih]
    rfl

/-- Two documents have the same text exactly when they agree up to surrogate pairs. -/
theorem render_eq_iff (l : Layout) {x y : Data} :
    x.render l 0 = y.render l 0 ↔ x.joined = y.joined := by
  constructor
  · intro same
    have read := congrArg keep.loads same
    rw [Hooks.loads_render, Hooks.loads_render, reread_keep, reread_keep] at read
    exact Except.ok.inj read
  · intro same
    rw [← render_joined l x, same, render_joined]

theorem canonical_eq_iff {x y : Data} : x.canonical = y.canonical ↔ x.sorted.joined = y.sorted.joined :=
  render_eq_iff Layout.compact

/-- Documents that agree up to surrogate pairs are equal when their code units tell their strings
apart. -/
theorem eq_of_joined {x y : Data} (same : x.joined = y.joined)
    (apart : ∀ s ∈ x.strings, ∀ t ∈ y.strings, s.units = t.units → s = t) : x = y := by
  induction x using Data.induction_on generalizing y with
  | null => cases y <;> simp_all [joined]
  | bool b => cases y <;> simp_all [joined]
  | int i => cases y <;> simp_all [joined]
  | float x => cases y <;> simp_all [joined]
  | str s =>
    cases y with
    | str t =>
      simp only [joined, str.injEq] at same ⊢
      exact apart s (by simp [strings]) t (by simp [strings]) (join_injective same)
    | _ => simp [joined] at same
  | arr items ih =>
    cases y with
    | arr others =>
      simp only [joined, arr.injEq, strings] at same apart ⊢
      induction items generalizing others with
      | nil => cases others <;> simp_all [joinedItems]
      | cons x xs step =>
        cases others with
        | nil => simp [joinedItems] at same
        | cons y ys =>
          simp only [joinedItems, List.cons.injEq, stringsItems, List.mem_append] at same apart
          rw [ih x (by simp) same.1 fun s left t right => apart s (.inl left) t (.inl right),
            step (fun z member => ih z (by simp [member])) ys
              (fun s left t right => apart s (.inr left) t (.inr right)) same.2]
    | _ => simp [joined] at same
  | obj fields ih =>
    cases y with
    | obj others =>
      simp only [joined, obj.injEq, strings] at same apart ⊢
      induction fields generalizing others with
      | nil => rcases others with _ | ⟨⟨k, y⟩, fs⟩ <;> simp_all [joinedFields]
      | cons f fs step =>
        obtain ⟨k, x⟩ := f
        rcases others with _ | ⟨⟨k', y⟩, gs⟩
        · simp [joinedFields] at same
        · simp only [joinedFields, List.cons.injEq, Prod.mk.injEq, stringsFields,
            List.cons_append, List.mem_cons, List.mem_append] at same apart
          -- keys are texts too, so `apart` is asked about them as well
          obtain ⟨⟨name, value⟩, rest⟩ := same
          have head : x = y := ih (k, x) (by simp) value
            fun s left t right => apart s (.inr (.inl left)) t (.inr (.inl right))
          rw [apart k (.inl rfl) k' (.inl rfl) (join_injective name), head,
            step (fun z member => ih z (by simp [member])) gs
              (fun s left t right => apart s (.inr (.inr left)) t (.inr (.inr right))) rest]
    | _ => simp [joined] at same

/-- The canonical text determines a document whose strings its code units tell apart. -/
theorem same_of_canonical {x y : Data} (text : x.canonical = y.canonical)
    (apart : ∀ s ∈ x.strings, ∀ t ∈ y.strings, s.units = t.units → s = t) : x.Same y := by
  refine eq_of_joined (canonical_eq_iff.1 text) fun s left t right => ?_
  exact apart s ((mem_strings_sorted x).1 left) t ((mem_strings_sorted y).1 right)

@[simp] theorem sorted_sorted (x : Data) : x.sorted.sorted = x.sorted := by
  induction x using Data.induction_on with
  | arr items ih =>
    rw [sorted, sorted, sortedItems_eq, sortedItems_eq, List.map_map]
    exact congrArg arr (List.map_congr_left ih)
  | obj fields ih =>
    have total : Std.Total byName := ⟨fun f g => le_total f.1 g.1⟩
    have trans : IsTrans Field byName := ⟨fun _ _ _ => le_trans⟩
    have kept : sortedFields ((sortedFields fields).insertionSort byName) =
        (sortedFields fields).insertionSort byName := by
      rw [sortedFields_eq]
      conv_rhs => rw [← List.map_id ((sortedFields fields).insertionSort byName)]
      apply List.map_congr_left
      intro g member
      rw [List.mem_insertionSort, sortedFields_eq] at member
      obtain ⟨f, own, rfl⟩ := List.mem_map.1 member
      rw [ih f own, id]
    rw [sorted, sorted, kept]
    exact congrArg obj (List.Pairwise.insertionSort_eq (List.pairwise_insertionSort _ _))
  | null => rfl
  | bool b => rfl
  | int i => rfl
  | float x => rfl
  | str s => rfl

/-- A document without surrogate pairs is left as it is. -/
theorem joined_eq_self {x : Data} (unpaired : ∀ s ∈ x.strings, s.unpaired = true) : x.joined = x := by
  induction x using Data.induction_on with
  | arr items ih =>
    rw [joined, joinedItems_eq, arr.injEq]
    conv_rhs => rw [← List.map_id items]
    apply List.map_congr_left
    exact fun y member => ih y member fun s inside => unpaired s (mem_stringsItems.2 ⟨y, member, inside⟩)
  | obj fields ih =>
    rw [joined, joinedFields_eq, obj.injEq]
    conv_rhs => rw [← List.map_id fields]
    apply List.map_congr_left
    intro f member
    have name := join_units (unpaired f.1 (mem_stringsFields.2 ⟨f, member, .inl rfl⟩))
    have value := ih f member fun s inside =>
      unpaired s (mem_stringsFields.2 ⟨f, member, .inr inside⟩)
    rw [name, value, id]
  | str s => rw [joined, join_units (unpaired s (by simp [strings]))]
  | null => rfl
  | bool b => rfl
  | int i => rfl
  | float x => rfl

theorem unpaired_joined {x : Data} {s : Points} (member : s ∈ x.joined.strings) :
    s.unpaired = true := by
  induction x using Data.induction_on with
  | arr items ih =>
    rw [joined, strings, joinedItems_eq, mem_stringsItems] at member
    obtain ⟨_, inside, listed⟩ := member
    obtain ⟨y, own, rfl⟩ := List.mem_map.1 inside
    exact ih y own listed
  | obj fields ih =>
    rw [joined, strings, joinedFields_eq, mem_stringsFields] at member
    obtain ⟨_, inside, listed⟩ := member
    obtain ⟨f, own, rfl⟩ := List.mem_map.1 inside
    rcases listed with rfl | listed
    · exact unpaired_join _
    · exact ih f own listed
  | str t =>
    rw [joined, strings, List.mem_singleton] at member
    rw [member]
    exact unpaired_join _
  | null => simp [joined, strings] at member
  | bool b => simp [joined, strings] at member
  | int i => simp [joined, strings] at member
  | float x => simp [joined, strings] at member

end Data
end Foundation
