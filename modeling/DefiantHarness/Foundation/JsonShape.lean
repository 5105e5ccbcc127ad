import DefiantHarness.Foundation.JsonForm

/-! Measures of a document: nesting, lexical tokens, and its number tokens. -/
namespace Foundation
namespace Data

mutual

/-- How many containers stand around the innermost position. -/
def depth : Data → Nat
  | .arr items => depthItems items + 1
  | .obj fields => depthFields fields + 1
  | .null => 0
  | .bool _ => 0
  | .int _ => 0
  | .float _ => 0
  | .str _ => 0

def depthItems : List Data → Nat
  | [] => 0
  | x :: xs => max (depth x) (depthItems xs)

def depthFields : List Field → Nat
  | [] => 0
  | (_, x) :: fs => max (depth x) (depthFields fs)

end

mutual

/-- Scalars, names and opening brackets. -/
def tokens : Data → Nat
  | .arr items => tokensItems items + 1
  | .obj fields => tokensFields fields + 1
  | .null => 1
  | .bool _ => 1
  | .int _ => 1
  | .float _ => 1
  | .str _ => 1

def tokensItems : List Data → Nat
  | [] => 0
  | x :: xs => tokens x + tokensItems xs

def tokensFields : List Field → Nat
  | [] => 0
  | (_, x) :: fs => tokens x + 1 + tokensFields fs

end

mutual

/-- The number tokens of a document. -/
def numbers : Data → List (List Char)
  | .arr items => numbersItems items
  | .obj fields => numbersFields fields
  | .int i => [(Numeral.ofInt i).chars]
  | .float x => [x.numeral.chars]
  | .null => []
  | .bool _ => []
  | .str _ => []

def numbersItems : List Data → List (List Char)
  | [] => []
  | x :: xs => numbers x ++ numbersItems xs

def numbersFields : List Field → List (List Char)
  | [] => []
  | (_, x) :: fs => numbers x ++ numbersFields fs

end

mutual

/-- No object names a field twice. -/
def Distinct : Data → Prop
  | .arr items => DistinctItems items
  | .obj fields => (fields.map (·.1)).Nodup ∧ DistinctFields fields
  | .null => True
  | .bool _ => True
  | .int _ => True
  | .float _ => True
  | .str _ => True

def DistinctItems : List Data → Prop
  | [] => True
  | x :: xs => Distinct x ∧ DistinctItems xs

def DistinctFields : List Field → Prop
  | [] => True
  | (_, x) :: fs => Distinct x ∧ DistinctFields fs

end

theorem distinctItems_iff {items : List Data} : DistinctItems items ↔ ∀ x ∈ items, x.Distinct := by
  induction items with
  | nil => simp [DistinctItems]
  | cons x xs ih => simp [DistinctItems, ih]

theorem distinctFields_iff {fields : List Field} :
    DistinctFields fields ↔ ∀ f ∈ fields, f.2.Distinct := by
  induction fields with
  | nil => simp [DistinctFields]
  | cons f fs ih => simp [DistinctFields, ih]

theorem depthItems_le {items : List Data} {n : Nat} :
    depthItems items ≤ n ↔ ∀ x ∈ items, x.depth ≤ n := by
  induction items with
  | nil => simp [depthItems]
  | cons x xs ih => simp [depthItems, ih]

theorem depthFields_le {fields : List Field} {n : Nat} :
    depthFields fields ≤ n ↔ ∀ f ∈ fields, f.2.depth ≤ n := by
  induction fields with
  | nil => simp [depthFields]
  | cons f fs ih => simp [depthFields, ih]

theorem tokensItems_eq (items : List Data) : tokensItems items = (items.map tokens).sum := by
  induction items with
  | nil => rfl
  | cons x xs ih => rw [tokensItems, ih, List.map_cons, List.sum_cons]

theorem tokensFields_eq (fields : List Field) :
    tokensFields fields = (fields.map fun f => f.2.tokens + 1).sum := by
  induction fields with
  | nil => rfl
  | cons f fs ih => rw [tokensFields, ih, List.map_cons, List.sum_cons]

theorem mem_numbersItems {n : List Char} {items : List Data} :
    n ∈ numbersItems items ↔ ∃ x ∈ items, n ∈ x.numbers := by
  induction items with
  | nil => simp [numbersItems]
  | cons x xs ih => simp [numbersItems, ih]

theorem mem_numbersFields {n : List Char} {fields : List Field} :
    n ∈ numbersFields fields ↔ ∃ f ∈ fields, n ∈ f.2.numbers := by
  induction fields with
  | nil => simp [numbersFields]
  | cons f fs ih => simp [numbersFields, ih]

example : numbers (.obj [(.ofString "a", .arr [.int 12, .null, .int (-3)])]) = [['1', '2'], ['-', '3']] := by
  decide +kernel

/-! ### Sorting keeps the measures -/

private theorem mem_sortedFields {fields : List Field} {g : Field} :
    g ∈ (sortedFields fields).insertionSort byName ↔ ∃ f ∈ fields, (f.1, f.2.sorted) = g := by
  rw [List.mem_insertionSort, sortedFields_eq, List.mem_map]

@[simp] theorem depth_sorted (x : Data) : x.sorted.depth = x.depth := by
  induction x using Data.induction_on with
  | arr items ih =>
    have same (n : Nat) : depthItems (sortedItems items) ≤ n ↔ depthItems items ≤ n := by
      rw [depthItems_le, depthItems_le, sortedItems_eq, List.forall_mem_map]
      exact forall₂_congr fun x member => by rw [ih x member]
    rw [sorted, depth, depth, Nat.le_antisymm ((same _).2 (Nat.le_refl _)) ((same _).1 (Nat.le_refl _))]
  | obj fields ih =>
    have same (n : Nat) : depthFields ((sortedFields fields).insertionSort byName) ≤ n ↔
        depthFields fields ≤ n := by
      -- sorting permutes the fields, and the depth asks about each alone
      rw [depthFields_le, depthFields_le]
      constructor
      · intro each f member
        have bound := each (f.1, f.2.sorted) (mem_sortedFields.2 ⟨f, member, rfl⟩)
        rwa [ih f member] at bound
      · intro each g member
        obtain ⟨f, own, rfl⟩ := mem_sortedFields.1 member
        rw [ih f own]
        exact each f own
    rw [sorted, depth, depth, Nat.le_antisymm ((same _).2 (Nat.le_refl _)) ((same _).1 (Nat.le_refl _))]
  | null => rfl
  | bool b => rfl
  | int i => rfl
  | float x => rfl
  | str s => rfl

@[simp] theorem tokens_sorted (x : Data) : x.sorted.tokens = x.tokens := by
  induction x using Data.induction_on with
  | arr items ih =>
    have each : items.map (tokens ∘ sorted) = items.map tokens := List.map_congr_left ih
    rw [sorted, tokens, tokens, tokensItems_eq, tokensItems_eq, sortedItems_eq, List.map_map, each]
  | obj fields ih =>
    have order := (List.perm_insertionSort byName (sortedFields fields)).map fun f => f.2.tokens + 1
    have each : (sortedFields fields).map (fun f => f.2.tokens + 1) =
        fields.map fun f => f.2.tokens + 1 := by
      rw [sortedFields_eq, List.map_map]
      apply List.map_congr_left
      intro f member
      rw [Function.comp_apply, ih f member]
    rw [sorted, tokens, tokens, tokensFields_eq, tokensFields_eq, order.sum_eq, each]
  | null => rfl
  | bool b => rfl
  | int i => rfl
  | float x => rfl
  | str s => rfl

theorem mem_numbers_sorted {n : List Char} (x : Data) : n ∈ x.sorted.numbers ↔ n ∈ x.numbers := by
  induction x using Data.induction_on with
  | arr items ih =>
    rw [sorted, numbers, numbers, mem_numbersItems, mem_numbersItems, sortedItems_eq]
    constructor
    · rintro ⟨_, member, listed⟩
      obtain ⟨y, own, rfl⟩ := List.mem_map.1 member
      exact ⟨y, own, (ih y own).1 listed⟩
    · rintro ⟨y, own, listed⟩
      exact ⟨y.sorted, List.mem_map_of_mem own, (ih y own).2 listed⟩
  | obj fields ih =>
    rw [sorted, numbers, numbers, mem_numbersFields, mem_numbersFields]
    constructor
    · rintro ⟨_, member, listed⟩
      obtain ⟨f, own, rfl⟩ := mem_sortedFields.1 member
      exact ⟨f, own, (ih f own).1 listed⟩
    · rintro ⟨f, own, listed⟩
      exact ⟨_, mem_sortedFields.2 ⟨f, own, rfl⟩, (ih f own).2 listed⟩
  | null => rfl
  | bool b => rfl
  | int i => rfl
  | float x => rfl
  | str s => rfl

theorem distinct_sorted {x : Data} : x.sorted.Distinct ↔ x.Distinct := by
  induction x using Data.induction_on with
  | arr items ih =>
    rw [sorted, Distinct, Distinct, distinctItems_iff, distinctItems_iff, sortedItems_eq,
      List.forall_mem_map]
    exact forall₂_congr ih
  | obj fields ih =>
    have names : (((sortedFields fields).insertionSort byName).map (·.1)).Nodup ↔
        (fields.map (·.1)).Nodup := by
      rw [((List.perm_insertionSort byName (sortedFields fields)).map (·.1)).nodup_iff,
        sortedFields_eq, List.map_map]
      rfl
    rw [sorted, Distinct, Distinct, names, distinctFields_iff, distinctFields_iff]
    apply and_congr_right
    intro _
    constructor
    · exact fun each f member => (ih f member).1 (each _ (mem_sortedFields.2 ⟨f, member, rfl⟩))
    · intro each g member
      obtain ⟨f, own, rfl⟩ := mem_sortedFields.1 member
      exact (ih f own).2 (each f own)
  | null => exact Iff.rfl
  | bool b => exact Iff.rfl
  | int i => exact Iff.rfl
  | float x => exact Iff.rfl
  | str s => exact Iff.rfl

end Data
end Foundation
