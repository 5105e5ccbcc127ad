import Mathlib.Data.List.Nodup
import DefiantHarness.Foundation.JsonShape

/-! Host-language equality of documents, which compares numbers by their value, against equality of
their canonical texts. -/
namespace Foundation

/-- The value under a name; the first one counts. -/
def fieldAt (k : Points) (fields : List Field) : Option Data :=
  (fields.find? (·.1 == k)).map (·.2)

theorem mem_of_fieldAt {k : Points} {x : Data} {fields : List Field} (found : fieldAt k fields = some x) :
    (k, x) ∈ fields := by
  obtain ⟨f, first, rfl⟩ := Option.map_eq_some_iff.1 found
  have name : f.1 = k := by simpa using List.find?_some first
  rw [← name]
  exact List.mem_of_find?_eq_some first

theorem fieldAt_eq_some_iff {k : Points} {x : Data} {fields : List Field}
    (distinct : (fields.map (·.1)).Nodup) : fieldAt k fields = some x ↔ (k, x) ∈ fields := by
  refine ⟨mem_of_fieldAt, fun member => ?_⟩
  obtain ⟨f, first⟩ := Option.isSome_iff_exists.1 (List.find?_isSome.2
    ⟨(k, x), member, by simp⟩ : (fields.find? (·.1 == k)).isSome)
  have name : f.1 = k := by simpa using List.find?_some first
  have same := List.inj_on_of_nodup_map distinct (List.mem_of_find?_eq_some first) member name
  rw [fieldAt, first, same]
  rfl

theorem fieldAt_eq_none_iff {k : Points} {fields : List Field} :
    fieldAt k fields = none ↔ k ∉ fields.map (·.1) := by
  rw [fieldAt, Option.map_eq_none_iff, List.find?_eq_none, List.mem_map]
  constructor
  · rintro absent ⟨f, member, rfl⟩
    exact absent f member (beq_self_eq_true _)
  · intro absent f member same
    exact absent ⟨f, member, beq_iff_eq.1 same⟩

namespace Data

theorem same_arr_iff {items others : List Data} :
    (arr items).Same (arr others) ↔ List.Forall₂ Same items others := by
  rw [Same, sorted, sorted, arr.injEq, sortedItems_eq, sortedItems_eq, ← List.forall₂_eq_eq_eq,
    List.forall₂_map_left_iff, List.forall₂_map_right_iff]
  rfl

private theorem names_sortedFields (fields : List Field) :
    (sortedFields fields).map (·.1) = fields.map (·.1) := by
  rw [sortedFields_eq, List.map_map]
  rfl

private theorem mem_sortedFields_iff {fields : List Field} (distinct : (fields.map (·.1)).Nodup)
    {k : Points} {x : Data} :
    (k, x) ∈ sortedFields fields ↔ (fieldAt k fields).map sorted = some x := by
  rw [sortedFields_eq, List.mem_map, Option.map_eq_some_iff]
  constructor
  · rintro ⟨f, member, same⟩
    obtain ⟨rfl, rfl⟩ := Prod.mk.injEq .. ▸ same
    exact ⟨f.2, (fieldAt_eq_some_iff distinct).2 member, rfl⟩
  · rintro ⟨y, found, rfl⟩
    exact ⟨(k, y), (fieldAt_eq_some_iff distinct).1 found, rfl⟩

/-- Objects are the same when they hold the same under every name. -/
theorem same_obj_iff {fields others : List Field} (distinct : (fields.map (·.1)).Nodup)
    (distinct' : (others.map (·.1)).Nodup) :
    (obj fields).Same (obj others) ↔
      ∀ k, (fieldAt k fields).map sorted = (fieldAt k others).map sorted := by
  rw [Same, sorted, sorted, obj.injEq]
  constructor
  · intro same k
    apply Option.ext
    intro x
    rw [← mem_sortedFields_iff distinct, ← mem_sortedFields_iff distinct',
      ← List.mem_insertionSort byName, same, List.mem_insertionSort]
  · intro each
    have names : (sortedFields fields).Nodup :=
      List.Nodup.of_map (·.1) (by rw [names_sortedFields]; exact distinct)
    have names' : ((sortedFields others).map (·.1)).Nodup := by
      rw [names_sortedFields]
      exact distinct'
    have perm : (sortedFields fields).Perm (sortedFields others) := by
      rw [List.perm_ext_iff_of_nodup names names'.of_map]
      rintro ⟨k, x⟩
      rw [mem_sortedFields_iff distinct, mem_sortedFields_iff distinct', each]
    -- two fields of one name are one, so that sorting by name leaves no choice
    refine @List.Perm.eq_of_pairwise _ byName _ _ ?_ ?_ ?_ ?_
    · intro f g left right below above
      rw [List.mem_insertionSort] at left right
      exact List.inj_on_of_nodup_map names' (perm.mem_iff.1 left) right (le_antisymm below above)
    · exact List.pairwise_insertionSort _ _
    · exact List.pairwise_insertionSort _ _
    · exact (List.perm_insertionSort _ _).trans (perm.trans (List.perm_insertionSort _ _).symm)

/-! ### Fields in the order of their names -/

/-- The fields of an object, sorted by name and inside. -/
def arranged (fields : List Field) : List Field := (sortedFields fields).insertionSort byName

theorem sorted_obj (fields : List Field) : (obj fields).sorted = obj (arranged fields) := rfl

theorem arranged_names_perm (fields : List Field) :
    ((arranged fields).map (·.1)).Perm (fields.map (·.1)) := by
  rw [← names_sortedFields fields]
  exact (List.perm_insertionSort byName (sortedFields fields)).map (·.1)

theorem arranged_arranged (fields : List Field) : arranged (arranged fields) = arranged fields := by
  have again := sorted_sorted (obj fields)
  rw [sorted_obj, sorted_obj, obj.injEq] at again
  exact again

/-- What stands under a name, in sorted form. -/
theorem fieldAt_arranged {fields : List Field} (distinct : (fields.map (·.1)).Nodup) (k : Points) :
    fieldAt k (arranged fields) = (fieldAt k fields).map sorted := by
  have distinct' : ((arranged fields).map (·.1)).Nodup :=
    (arranged_names_perm fields).nodup_iff.2 distinct
  apply Option.ext
  intro x
  rw [fieldAt_eq_some_iff distinct', ← mem_sortedFields_iff distinct, arranged,
    List.mem_insertionSort]

/-- Without the fields of one name, arranged or not, an object is the same. -/
theorem arranged_filter {fields : List Field} (distinct : (fields.map (·.1)).Nodup) (name : Points) :
    (obj ((arranged fields).filter (·.1 != name))).Same (obj (fields.filter (·.1 != name))) := by
  -- the removed name is found nowhere, the other names as before
  have fieldAt_filter (k : Points) (others : List Field) :
      fieldAt k (others.filter (·.1 != name)) = if k = name then none else fieldAt k others := by
    induction others with
    | nil => simp [fieldAt]
    | cons f fs ih =>
      by_cases removed : f.1 = name
      · rw [List.filter_cons_of_neg (by simp [removed]), ih]
        by_cases here : k = name
        · rw [if_pos here, if_pos here]
        · rw [if_neg here, if_neg here, fieldAt, fieldAt, List.find?_cons_of_neg]
          rw [removed]
          simpa using Ne.symm here
      · rw [List.filter_cons_of_pos (by simp [removed])]
        by_cases this : f.1 = k
        · have other : k ≠ name := this ▸ removed
          simp [fieldAt, this, other]
        · have skip (rest : List Field) : fieldAt k (f :: rest) = fieldAt k rest := by
            rw [fieldAt, fieldAt, List.find?_cons_of_neg (by simpa using this)]
          rw [skip, skip, ih]
  have distinct' : ((arranged fields).map (·.1)).Nodup :=
    (arranged_names_perm fields).nodup_iff.2 distinct
  have nodup (others : List Field) (names : (others.map (·.1)).Nodup) :
      ((others.filter (·.1 != name)).map (·.1)).Nodup :=
    names.sublist (List.filter_sublist.map _)
  rw [same_obj_iff (nodup _ distinct') (nodup _ distinct)]
  intro k
  rw [fieldAt_filter, fieldAt_filter]
  split
  · rfl
  · rw [fieldAt_arranged distinct, Option.map_map]
    congr 1
    funext x
    exact sorted_sorted x

/-! ### Equality by value -/

/-- The value of a number; truth values count as 0 and 1. -/
def amount? : Data → Option ℚ
  | .bool b => some (if b then 1 else 0)
  | .int i => some i
  | .float x => some (if x.negative then -x.magnitude else x.magnitude)
  | _ => none

mutual

/-- `==` on decoded documents. -/
def equals : Data → Data → Bool
  | .null, .null => true
  | .str s, .str t => s == t
  | .arr items, .arr others => equalsItems items others
  | .obj fields, .obj others => fields.length == others.length && equalsFields fields others
  | .bool b, y => amount? (.bool b) == amount? y
  | .int i, y => amount? (.int i) == amount? y
  | .float x, y => amount? (.float x) == amount? y
  | _, _ => false

def equalsItems : List Data → List Data → Bool
  | [], [] => true
  | x :: xs, y :: ys => equals x y && equalsItems xs ys
  | _, _ => false

/-- Every field stands under its name in the other object with an equal value. -/
def equalsFields : List Field → List Field → Bool
  | [], _ => true
  | (k, x) :: fs, others =>
    (match fieldAt k others with
      | some y => equals x y
      | none => false) && equalsFields fs others

end

/-- A number of one document stands where the other one has an equal number of another kind, or a
zero of the other sign. -/
inductive Mixed : Data → Data → Prop where
  | number {x y : Data} (value : ℚ) (left : x.amount? = some value) (right : y.amount? = some value)
      (other : x ≠ y) : Mixed x y
  | item {items others : List Data} (i : Nat) {x y : Data} (left : items[i]? = some x)
      (right : others[i]? = some y) (mixed : Mixed x y) : Mixed (.arr items) (.arr others)
  | field {fields others : List Field} (k : Points) {x y : Data} (left : (k, x) ∈ fields)
      (right : (k, y) ∈ others) (mixed : Mixed x y) : Mixed (.obj fields) (.obj others)

theorem equalsItems_iff {items others : List Data} :
    equalsItems items others = true ↔ List.Forall₂ (fun x y => equals x y = true) items others := by
  induction items generalizing others with
  | nil => cases others <;> simp [equalsItems]
  | cons x xs ih => cases others <;> simp [equalsItems, ih]

theorem equalsFields_iff {fields others : List Field} :
    equalsFields fields others = true ↔
      ∀ f ∈ fields, ∃ y, fieldAt f.1 others = some y ∧ equals f.2 y = true := by
  induction fields with
  | nil => simp [equalsFields]
  | cons f fs ih =>
    obtain ⟨k, x⟩ := f
    rw [equalsFields, Bool.and_eq_true, ih, List.forall_mem_cons]
    apply and_congr_left
    intro _
    cases fieldAt k others <;> simp

/-- Equal objects have the same names, and equal values under them. -/
theorem equals_obj {fields others : List Field} (distinct : (fields.map (·.1)).Nodup)
    (equal : equals (.obj fields) (.obj others) = true) :
    (∀ k, k ∈ fields.map (·.1) ↔ k ∈ others.map (·.1)) ∧
      ∀ f ∈ fields, ∃ y, fieldAt f.1 others = some y ∧ equals f.2 y = true := by
  rw [equals, Bool.and_eq_true, beq_iff_eq, equalsFields_iff] at equal
  obtain ⟨length, each⟩ := equal
  have inside : fields.map (·.1) ⊆ others.map (·.1) := by
    intro k member
    obtain ⟨f, own, rfl⟩ := List.mem_map.1 member
    obtain ⟨y, found, -⟩ := each f own
    by_contra absent
    rw [fieldAt_eq_none_iff.2 absent] at found
    cases found
  have perm : (fields.map (·.1)).Perm (others.map (·.1)) :=
    (List.subperm_of_subset distinct inside).perm_of_length_le (by simp [length])
  exact ⟨fun k => perm.mem_iff, each⟩

private theorem same_of_amount {x y : Data} {value : ℚ} (left : x.amount? = some value)
    (right : y.amount? = some value) (unmixed : ¬ Mixed x y) : x.Same y := by
  by_contra other
  refine unmixed (.number value left right ?_)
  rintro rfl
  exact other rfl

/-- Equal documents without a mixed number are the same. -/
theorem same_of_equals {x y : Data} (distinct : x.Distinct) (distinct' : y.Distinct)
    (equal : equals x y = true) (unmixed : ¬ Mixed x y) : x.Same y := by
  induction x using Data.induction_on generalizing y with
  | null => cases y <;> simp_all [equals, Same]
  | str s => cases y <;> simp_all [equals, Same]
  | bool b =>
    rw [equals, beq_iff_eq] at equal
    exact same_of_amount rfl equal.symm unmixed
  | int i =>
    rw [equals, beq_iff_eq] at equal
    exact same_of_amount rfl equal.symm unmixed
  | float v =>
    rw [equals, beq_iff_eq] at equal
    exact same_of_amount rfl equal.symm unmixed
  -- position by position, under the path that leads there
  | arr items ih =>
    cases y with
    | arr others =>
      rw [equals, equalsItems_iff] at equal
      rw [Distinct, distinctItems_iff] at distinct distinct'
      rw [same_arr_iff, List.forall₂_iff_get]
      refine ⟨equal.length_eq, ?_⟩
      intro i left right
      apply ih _ (List.get_mem _ _) (distinct _ (List.get_mem _ _)) (distinct' _ (List.get_mem _ _))
      · exact equal.get left right
      · intro mixed
        exact unmixed (.item i (List.getElem?_eq_getElem left) (List.getElem?_eq_getElem right) mixed)
    | _ => simp [equals] at equal
  | obj fields ih =>
    cases y with
    | obj others =>
      obtain ⟨names, distinctValues⟩ := distinct
      obtain ⟨names', distinctValues'⟩ := distinct'
      rw [distinctFields_iff] at distinctValues distinctValues'
      -- equal objects have the same keys, whatever the order
      obtain ⟨keys, each⟩ := equals_obj names equal
      rw [same_obj_iff names names']
      intro k
      cases found : fieldAt k fields with
      | none =>
        rw [fieldAt_eq_none_iff, keys k, ← fieldAt_eq_none_iff] at found
        rw [found]
      | some x =>
        have left := (fieldAt_eq_some_iff names).1 found
        obtain ⟨y, other, equalValues⟩ := each (k, x) left
        have right := (fieldAt_eq_some_iff names').1 other
        have same : x.Same y := ih (k, x) left (distinctValues _ left) (distinctValues' _ right)
          equalValues fun mixed => unmixed (.field k left right mixed)
        rw [show fieldAt k others = some y from other]
        exact congrArg some same
    | _ => simp [equals] at equal

/-- Names of the same objects stand for the same values. -/
theorem Same.fieldAt {fields others : List Field} (distinct : (fields.map (·.1)).Nodup)
    (distinct' : (others.map (·.1)).Nodup) (same : (obj fields).Same (obj others)) (k : Points) :
    Option.Rel Same (fieldAt k fields) (fieldAt k others) := by
  have each := (same_obj_iff distinct distinct').1 same k
  cases left : Foundation.fieldAt k fields with
  | none =>
    rw [left, Option.map_none, eq_comm, Option.map_eq_none_iff] at each
    rw [each]
    exact .none
  | some x =>
    rw [left, Option.map_some, eq_comm, Option.map_eq_some_iff] at each
    obtain ⟨y, right, sorted⟩ := each
    rw [right]
    exact .some sorted.symm

theorem Same.length {fields others : List Field} (same : (obj fields).Same (obj others)) :
    fields.length = others.length := by
  rw [Same, sorted, sorted, obj.injEq] at same
  have sizes := congrArg List.length same
  simpa [List.length_insertionSort, sortedFields_eq] using sizes

theorem Same.arr {items : List Data} {z : Data} (same : (arr items).Same z) :
    ∃ others, z = .arr others := by
  cases z <;> simp_all [Same, sorted]

theorem Same.obj {fields : List Field} {z : Data} (same : (obj fields).Same z) :
    ∃ others, z = .obj others := by
  cases z <;> simp_all [Same, sorted]

/-- The same documents are equal. -/
theorem equals_of_same {x y : Data} (distinct : x.Distinct) (distinct' : y.Distinct)
    (same : x.Same y) : equals x y = true := by
  induction x using Data.induction_on generalizing y with
  | null | str s | bool b | int i | float v =>
    cases y <;> simp_all [Same, sorted, equals]
  | arr items ih =>
    cases y with
    | arr others =>
      rw [same_arr_iff] at same
      rw [Distinct, distinctItems_iff] at distinct distinct'
      rw [equals, equalsItems_iff, List.forall₂_iff_get]
      refine ⟨same.length_eq, ?_⟩
      intro i left right
      exact ih _ (List.get_mem _ _) (distinct _ (List.get_mem _ _)) (distinct' _ (List.get_mem _ _))
        (same.get left right)
    | _ => simp [Same, sorted] at same
  | obj fields ih =>
    cases y with
    | obj others =>
      obtain ⟨names, distinctValues⟩ := distinct
      obtain ⟨names', distinctValues'⟩ := distinct'
      rw [distinctFields_iff] at distinctValues distinctValues'
      have length : fields.length = others.length := same.length
      -- the sorted forms agree under each key
      rw [same_obj_iff names names'] at same
      rw [equals, Bool.and_eq_true, beq_iff_eq, equalsFields_iff]
      refine ⟨length, ?_⟩
      rintro ⟨k, x⟩ left
      have each := same k
      rw [(fieldAt_eq_some_iff names).2 left] at each
      obtain ⟨y, other, sorted⟩ := Option.map_eq_some_iff.1 each.symm
      have right := (fieldAt_eq_some_iff names').1 other
      exact ⟨y, other, ih (k, x) left (distinctValues _ left) (distinctValues' _ right) sorted.symm⟩
    | _ => simp [Same, sorted] at same

/-- Equality does not depend on the order of fields. -/
theorem equals_congr {x y x' y' : Data} (distinct : x.Distinct) (distinct' : x'.Distinct)
    (apart : y.Distinct) (apart' : y'.Distinct) (left : x.Same x') (right : y.Same y')
    (equal : equals x y = true) : equals x' y' = true := by
  induction x using Data.induction_on generalizing y x' y' with
  | null | str s | bool b | int i | float v =>
    cases x' <;> cases y <;> cases y' <;> simp_all [Same, sorted, equals, amount?]
  | arr items ih =>
    obtain ⟨items', rfl⟩ := left.arr
    cases y with
    | arr others =>
      obtain ⟨others', rfl⟩ := right.arr
      rw [same_arr_iff] at left right
      rw [Distinct, distinctItems_iff] at distinct distinct' apart apart'
      rw [equals, equalsItems_iff] at equal ⊢
      rw [List.forall₂_iff_get]
      have length : items'.length = others'.length := by
        rw [← left.length_eq, equal.length_eq, right.length_eq]
      refine ⟨length, fun i first second => ?_⟩
      have first' : i < items.length := by rw [left.length_eq]; exact first
      have second' : i < others.length := by rw [right.length_eq]; exact second
      exact ih _ (List.get_mem _ _) (distinct _ (List.get_mem _ _)) (distinct' _ (List.get_mem _ _))
        (apart _ (List.get_mem _ _)) (apart' _ (List.get_mem _ _)) (left.get first' first)
        (right.get second' second) (equal.get first' second')
    | _ => simp [equals] at equal
  | obj fields ih =>
    obtain ⟨fields', rfl⟩ := left.obj
    cases y with
    | obj others =>
      obtain ⟨others', rfl⟩ := right.obj
      obtain ⟨names, values⟩ := distinct
      obtain ⟨names', values'⟩ := distinct'
      obtain ⟨others₁, apart⟩ := apart
      obtain ⟨others₂, apart'⟩ := apart'
      rw [distinctFields_iff] at values values' apart apart'
      obtain ⟨-, each⟩ := equals_obj names equal
      rw [equals, Bool.and_eq_true, beq_iff_eq, equalsFields_iff] at equal ⊢
      refine ⟨by rw [← left.length, equal.1, right.length], ?_⟩
      rintro ⟨k, x'⟩ member'
      have own := left.fieldAt names names' k
      rw [(fieldAt_eq_some_iff names').2 member'] at own
      cases found : fieldAt k fields with
      | none =>
        rw [found] at own
        cases own
      | some x =>
        rw [found, Option.rel_some_some] at own
        have member := (fieldAt_eq_some_iff names).1 found
        -- from `x'` to `x` by the first, to `y` by the comparison, to `y'` by the second
        obtain ⟨y, other, equalValues⟩ := each (k, x) member
        have there := right.fieldAt others₁ others₂ k
        rw [show fieldAt k others = some y from other] at there
        cases found' : fieldAt k others' with
        | none =>
          rw [found'] at there
          cases there
        | some y' =>
          rw [found', Option.rel_some_some] at there
          refine ⟨y', rfl, ?_⟩
          exact ih (k, x) member (values _ member) (values' _ member')
            (apart _ ((fieldAt_eq_some_iff others₁).1 other))
            (apart' _ ((fieldAt_eq_some_iff others₂).1 found')) own there equalValues
    | _ => simp [equals] at equal

/-- The same documents have no mixed number. -/
theorem Mixed.not_same {x y : Data} (mixed : Mixed x y) (distinct : x.Distinct)
    (distinct' : y.Distinct) : ¬ x.Same y := by
  induction mixed with
  | @number x y value left right other =>
    intro same
    apply other
    cases x <;> cases y <;> simp_all [amount?, Same, sorted]
  | item i left right _ ih =>
    intro same
    rw [Distinct, distinctItems_iff] at distinct distinct'
    rw [same_arr_iff] at same
    apply ih (distinct _ (List.mem_of_getElem? left)) (distinct' _ (List.mem_of_getElem? right))
    obtain ⟨inside, rfl⟩ := List.getElem?_eq_some_iff.1 left
    obtain ⟨inside', rfl⟩ := List.getElem?_eq_some_iff.1 right
    exact same.get inside inside'
  | field k left right _ ih =>
    intro same
    obtain ⟨names, values⟩ := distinct
    obtain ⟨names', values'⟩ := distinct'
    rw [distinctFields_iff] at values values'
    apply ih (values _ left) (values' _ right)
    have each := (same_obj_iff names names').1 same k
    rw [(fieldAt_eq_some_iff names).2 left, (fieldAt_eq_some_iff names').2 right] at each
    exact Option.some.inj each

end Data
end Foundation
