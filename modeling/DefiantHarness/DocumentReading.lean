import DefiantHarness.ListedValues
import DefiantHarness.SameContent
import DefiantHarness.StateDocuments

/-! What is read back of a document: lists for tuples, and entries in another order. The loaders of the
contracts accept what they have accepted before. -/
namespace DefiantHarness

open Foundation

namespace Value

/-- One value is read back as another. -/
def ReadAs (v w : Value) : Prop :=
  ∃ x y, v.listed = .ofData x ∧ w = .ofData y ∧ x.Same y ∧ x.Distinct ∧ y.Distinct

theorem ReadAs.same {v w : Value} {x : Data} (read : ReadAs v w) (shape : v = .ofData x) : v.Same w := by
  obtain ⟨x', y, shape', written, order, -⟩ := read
  rw [shape, listed_ofData] at shape'
  obtain rfl := ofData_injective shape'
  exact ⟨x, y, shape, written, order⟩

theorem ReadAs.of_same {x y : Data} (same : x.Same y) (distinct : x.Distinct) :
    ReadAs (.ofData x) (.ofData y) := by
  refine ⟨x, y, listed_ofData x, rfl, same, distinct, ?_⟩
  rw [← Data.distinct_sorted, ← show x.sorted = y.sorted from same, Data.distinct_sorted]
  exact distinct

theorem ReadAs.refl {x : Data} (distinct : x.Distinct) : ReadAs (.ofData x) (.ofData x) :=
  .of_same rfl distinct

/-- A listed value is read back like the value itself. -/
theorem ReadAs.listed {v w : Value} (read : ReadAs v w) : ReadAs v.listed w := by
  obtain ⟨x, y, shape, rfl, same, distinct, -⟩ := read
  rw [shape]
  exact .of_same same distinct

theorem listed_listed (v : Value) : v.listed.listed = v.listed := by
  induction v using Value.induction_on with
  | list items ih =>
    rw [listed_list, listed_list, List.map_map]
    exact congrArg Value.list (List.map_congr_left ih)
  | tuple items ih =>
    rw [listed_tuple, listed_list, List.map_map]
    exact congrArg Value.list (List.map_congr_left ih)
  | dict entries ih =>
    rw [listed_dict, listed_dict, List.map_map]
    refine congrArg Value.dict (List.map_congr_left fun e member => ?_)
    exact Prod.ext rfl (ih e member).2
  | _ => rfl

/-- What a value is read back as, a listed one is read back as too. -/
theorem ReadAs.of_listed {v w : Value} (read : ReadAs v.listed w) : ReadAs v w := by
  obtain ⟨x, y, shape, rest⟩ := read
  exact ⟨x, y, (listed_listed v).symm.trans shape, rest⟩

theorem ReadAs.listed_listed {v w : Value} (read : ReadAs v w) : ReadAs v.listed w.listed := by
  obtain ⟨x, y, shape, rfl, rest⟩ := id read
  rw [listed_ofData]
  exact read.listed

/-- Two readings of one value are readings of each other. -/
theorem ReadAs.between {v w u : Value} (left : ReadAs v w) (right : ReadAs v u) : ReadAs w u := by
  obtain ⟨x, y, shape, rfl, same, -, distinct⟩ := left
  obtain ⟨x', z, shape', rfl, same', -, distinct'⟩ := right
  obtain rfl := ofData_injective (shape.symm.trans shape')
  exact ⟨y, z, listed_ofData y, rfl, same.symm.trans same', distinct, distinct'⟩

theorem ReadAs.trans {v w u : Value} (first : ReadAs v w) (second : ReadAs w u) : ReadAs v u := by
  obtain ⟨x, y, shape, rfl, same, distinct, -⟩ := first
  obtain ⟨y', z, shape', rfl, same', -, distinct'⟩ := second
  obtain rfl := ofData_injective ((listed_ofData y).symm.trans shape')
  exact ⟨x, z, shape, rfl, same.trans same', distinct, distinct'⟩

/-- The entries of two dictionaries, under the same names. -/
structure EntriesReadAs (es fs : List Entry) : Prop where
  lookup (name : String) : Option.Rel ReadAs (Durable.lookup name es) (Durable.lookup name fs)
  origin : ∀ f ∈ fs, ∃ e ∈ es, e.1 = f.1 ∧ ReadAs e.2 f.2
  named : ∀ e ∈ es, ∃ s, e.1 = .str s
  length : es.length = fs.length

theorem ofData_list {items : List Value} {x : Data} (shape : Value.list items = .ofData x) :
    ∃ xs, x = .arr xs ∧ items = xs.map ofData := by
  cases x with
  | arr xs =>
    rw [ofData, ofItems_eq, list.injEq] at shape
    exact ⟨xs, rfl, shape⟩
  | _ => cases shape

theorem ofData_dict {entries : List Entry} {x : Data} (shape : Value.dict entries = .ofData x) :
    ∃ fields, x = .obj fields ∧ entries = ofFields fields := by
  cases x with
  | obj fields => exact ⟨fields, rfl, dict.inj shape⟩
  | _ => cases shape

private theorem readAs_items {items : List Value} {w : Value} {x y : Data}
    (shape : Value.list (items.map listed) = .ofData x) (written : w = .ofData y) (same : x.Same y)
    (distinct : x.Distinct) (distinct' : y.Distinct) :
    ∃ others, w = .list others ∧ List.Forall₂ ReadAs items others := by
  obtain ⟨xs, rfl, each⟩ := ofData_list shape
  obtain ⟨ys, rfl⟩ := same.arr
  rw [Data.same_arr_iff] at same
  rw [Data.Distinct, Data.distinctItems_iff] at distinct distinct'
  refine ⟨ys.map ofData, by rw [written, ofData, ofItems_eq], ?_⟩
  -- position by position, in lists of one length
  rw [List.forall₂_map_right_iff, List.forall₂_iff_get]
  have length : items.length = xs.length := by simpa using congrArg List.length each
  refine ⟨by rw [length, same.length_eq], fun i left right => ?_⟩
  have inside : i < xs.length := by omega
  refine ⟨xs[i], ys[i], ?_, rfl, same.get inside right, distinct _ (List.getElem_mem _),
    distinct' _ (List.getElem_mem _)⟩
  have own := congrArg (·[i]?) each
  simpa [left, inside] using own

theorem ReadAs.list {items : List Value} {w : Value} (read : ReadAs (.list items) w) :
    ∃ others, w = .list others ∧ List.Forall₂ ReadAs items others := by
  obtain ⟨x, y, shape, written, same, distinct, distinct'⟩ := read
  rw [listed_list] at shape
  exact readAs_items shape written same distinct distinct'

theorem ReadAs.tuple {items : List Value} {w : Value} (read : ReadAs (.tuple items) w) :
    ∃ others, w = .list others ∧ List.Forall₂ ReadAs items others := by
  obtain ⟨x, y, shape, written, same, distinct, distinct'⟩ := read
  rw [listed_tuple] at shape
  exact readAs_items shape written same distinct distinct'

theorem lookup_listed (name : String) (entries : List Entry) :
    Durable.lookup name (entries.map fun e => (e.1, e.2.listed)) =
      (Durable.lookup name entries).map listed := by
  induction entries with
  | nil => rfl
  | cons e es ih =>
    obtain ⟨k, v⟩ := e
    cases k with
    | str s =>
      rw [List.map_cons, Durable.lookup, Durable.lookup, ih]
      split <;> rfl
    | _ => exact ih

theorem lookup_fields (name : String) (fields : List Field) :
    Durable.lookup name (ofFields fields) =
      (fieldAt (Points.ofString name) fields).map ofData := by
  induction fields with
  | nil => rfl
  | cons f fs ih =>
    obtain ⟨k, x⟩ := f
    rw [ofFields, Durable.lookup, ih]
    by_cases same : k = Points.ofString name <;> simp [fieldAt, same]

theorem ReadAs.dict {entries : List Entry} {w : Value} (read : ReadAs (.dict entries) w) :
    ∃ others, w = .dict others ∧ EntriesReadAs entries others := by
  obtain ⟨x, y, shape, written, same, distinct, distinct'⟩ := read
  rw [listed_dict] at shape
  obtain ⟨fields, rfl, each⟩ := ofData_dict shape
  obtain ⟨fields', rfl⟩ := same.obj
  obtain ⟨names, values⟩ := distinct
  obtain ⟨names', values'⟩ := distinct'
  rw [Data.distinctFields_iff] at values values'
  -- names are distinct on both sides, so each name finds one field here and one there
  have there := same.fieldAt names names'
  refine ⟨ofFields fields', written, ?_, ?_, ?_, ?_⟩
  · intro name
    have own := lookup_listed name entries
    rw [each, lookup_fields] at own
    rw [lookup_fields]
    have rel := there (Points.ofString name)
    cases found : Durable.lookup name entries with
    | none =>
      rw [found, Option.map_none, Option.map_eq_none_iff] at own
      rw [own] at rel
      cases other : fieldAt (Points.ofString name) fields' with
      | none => exact .none
      | some y =>
        rw [other] at rel
        cases rel
    | some v =>
      rw [found, Option.map_some, Option.map_eq_some_iff] at own
      obtain ⟨x, at_, listed⟩ := own
      rw [at_] at rel
      cases other : fieldAt (Points.ofString name) fields' with
      | none =>
        rw [other] at rel
        cases rel
      | some y =>
        rw [other, Option.rel_some_some] at rel
        exact .some ⟨x, y, listed.symm, rfl, rel, values _ ((fieldAt_eq_some_iff names).1 at_),
          values' _ ((fieldAt_eq_some_iff names').1 other)⟩
  · intro f member
    rw [ofFields_eq] at member
    obtain ⟨⟨k, y⟩, inside, rfl⟩ := List.mem_map.1 member
    have rel := there k
    rw [(fieldAt_eq_some_iff names').2 inside] at rel
    cases own : fieldAt k fields with
    | none =>
      rw [own] at rel
      cases rel
    | some x =>
      rw [own, Option.rel_some_some] at rel
      have held := (fieldAt_eq_some_iff names).1 own
      -- the entry that the field was made from
      have entry : (Value.str k, Value.ofData x) ∈ entries.map fun e => (e.1, e.2.listed) := by
        rw [each, ofFields_eq]
        exact List.mem_map_of_mem held
      obtain ⟨e, source, shape⟩ := List.mem_map.1 entry
      obtain ⟨key, listed⟩ := Prod.mk.inj shape
      exact ⟨e, source, key, x, y, listed, rfl, rel, values _ held, values' _ inside⟩
  · intro e member
    have entry := List.mem_map_of_mem (f := fun e : Entry => (e.1, e.2.listed)) member
    rw [each, ofFields_eq] at entry
    obtain ⟨f, -, shape⟩ := List.mem_map.1 entry
    exact ⟨f.1, (Prod.mk.inj shape).1.symm⟩
  · have sizes := congrArg List.length each
    rw [List.length_map, ofFields_eq, List.length_map] at sizes
    rw [sizes, ofFields_eq, List.length_map, same.length]

/-- Views that do not look into lists, tuples and dictionaries see the same. -/
theorem ReadAs.view {v w : Value} (read : ReadAs v w) (f : Value → α) (c : α)
    (list : ∀ items, f (.list items) = c) (tuple : ∀ items, f (.tuple items) = c)
    (dict : ∀ entries, f (.dict entries) = c) : f w = f v := by
  cases v with
  | list items =>
    obtain ⟨others, rfl, -⟩ := read.list
    rw [list, list]
  | tuple items =>
    obtain ⟨others, rfl, -⟩ := read.tuple
    rw [list, tuple]
  | dict entries =>
    obtain ⟨others, rfl, -⟩ := read.dict
    rw [dict, dict]
  | null | bool b | int i | float x | str s =>
    -- a scalar is read back as itself
    obtain ⟨x, y, shape, rfl, same, -, -⟩ := read
    cases x <;> cases shape
    cases y <;> cases same
    rfl
  | _ =>
    obtain ⟨x, y, shape, -⟩ := read
    cases x <;> cases shape

/-! ### Costs and hashes -/

theorem Alike.symm {v w : Value} (alike : Alike v w) : Alike w v :=
  ⟨alike.nodes.symm, alike.height.symm, alike.sortWork.symm, alike.bounded.symm⟩

theorem Alike.trans {u v w : Value} (first : Alike u v) (second : Alike v w) : Alike u w :=
  ⟨first.nodes.trans second.nodes, first.height.trans second.height,
    first.sortWork.trans second.sortWork, first.bounded.trans second.bounded⟩

/-- Two values that cost the same and have the same canonical text. -/
structure Interchangeable (v w : Value) : Prop where
  alike : Alike v w
  written : ∀ money, v.written money = w.written money

/-- Sequences cost the same when their items do. -/
theorem alike_items {items others : List Value} (each : List.Forall₂ Alike items others) :
    (nodesItems items = nodesItems others ∧ heightItems items = heightItems others) ∧
      sortWorkItems items = sortWorkItems others ∧ (BoundedItems items ↔ BoundedItems others) := by
  induction each with
  | nil => exact ⟨⟨rfl, rfl⟩, rfl, Iff.rfl⟩
  | cons head _ ih =>
    obtain ⟨⟨nodes, height⟩, work, bounded⟩ := ih
    simp only [nodesItems, heightItems, sortWorkItems, BoundedItems, head.nodes, head.height,
      head.sortWork, head.bounded, nodes, height, work, bounded, and_self]

/-- Dictionaries cost the same when they have the same keys and values that do. -/
theorem alike_dict {es fs : List Entry}
    (each : List.Forall₂ (fun e f => e.1 = f.1 ∧ Alike e.2 f.2) es fs) : Alike (.dict es) (.dict fs) := by
  have keys : es.map (·.1) = fs.map (·.1) := by
    rw [← List.forall₂_eq_eq_eq, List.forall₂_map_left_iff, List.forall₂_map_right_iff]
    exact each.imp fun _ _ both => both.1
  have values : (nodesEntries es = nodesEntries fs ∧ heightEntries es = heightEntries fs) ∧
      sortWorkEntries es = sortWorkEntries fs ∧ (BoundedEntries es ↔ BoundedEntries fs) := by
    clear keys
    induction each with
    | nil => exact ⟨⟨rfl, rfl⟩, rfl, Iff.rfl⟩
    | @cons e f _ _ head _ ih =>
      obtain ⟨⟨nodes, height⟩, work, bounded⟩ := ih
      obtain ⟨k, v⟩ := e
      obtain ⟨k', w⟩ := f
      obtain ⟨rfl, alike⟩ := head
      simp only [nodesEntries, heightEntries, sortWorkEntries, BoundedEntries, alike.nodes,
        alike.height, alike.sortWork, alike.bounded, nodes, height, work, bounded, and_self]
  obtain ⟨⟨nodes, height⟩, work, bounded⟩ := values
  have length := each.length_eq
  -- the work of sorting is counted over the keys alone
  have keyed (f : Value → Nat) : (es.map fun e => f e.1).sum = (fs.map fun e => f e.1).sum := by
    have mapped := congrArg (List.map f) keys
    rw [List.map_map, List.map_map] at mapped
    exact congrArg List.sum mapped
  constructor
  · rw [Value.nodes, Value.nodes, nodes]
  · rw [Value.height, Value.height, height]
  · rw [Value.sortWork, Value.sortWork, work, length, keyed]
  · rw [Bounded, Bounded, length, keys, bounded]

theorem alike_listed (v : Value) : Alike v v.listed := by
  induction v using Value.induction_on with
  | list items ih =>
    have each : List.Forall₂ Alike items (items.map listed) := by
      rw [List.forall₂_map_right_iff, List.forall₂_same]
      exact ih
    obtain ⟨⟨nodes, height⟩, work, bounded⟩ := alike_items each
    rw [listed_list]
    exact ⟨congrArg (1 + ·) nodes, height, work, bounded⟩
  | tuple items ih =>
    have each : List.Forall₂ Alike items (items.map listed) := by
      rw [List.forall₂_map_right_iff, List.forall₂_same]
      exact ih
    obtain ⟨⟨nodes, height⟩, work, bounded⟩ := alike_items each
    rw [listed_tuple]
    exact ⟨congrArg (1 + ·) nodes, height, work, bounded⟩
  | dict entries ih =>
    rw [listed_dict]
    apply alike_dict
    rw [List.forall₂_map_right_iff, List.forall₂_same]
    exact fun e member => ⟨rfl, (ih e member).2⟩
  | _ => exact ⟨rfl, rfl, rfl, Iff.rfl⟩

theorem ReadAs.interchangeable {v w : Value} (read : ReadAs v w) : Interchangeable v w := by
  obtain ⟨x, y, shape, rfl, same, -, -⟩ := read
  constructor
  · have left := alike_sorted x
    rw [show x.sorted = y.sorted from same] at left
    have listed := alike_listed v
    rw [shape] at listed
    exact (listed.trans left.symm).trans (alike_sorted y)
  · intro money
    rw [← written_listed, shape, written_ofData, written_ofData]
    exact same

theorem Interchangeable.refl (v : Value) : Interchangeable v v :=
  ⟨⟨rfl, rfl, rfl, Iff.rfl⟩, fun _ => rfl⟩

private theorem writtenEntries_congr {money : Decimal → PlainDecimal} {es fs : List Entry}
    (each : List.Forall₂ (fun e f => e.1 = f.1 ∧ Interchangeable e.2 f.2) es fs) :
    writtenEntries money es = writtenEntries money fs := by
  induction each with
  | nil => rfl
  | @cons e f _ _ head _ ih =>
    obtain ⟨k, v⟩ := e
    obtain ⟨k', w⟩ := f
    obtain ⟨rfl, alike⟩ := head
    rw [writtenEntries, writtenEntries, alike.written, ih]

theorem interchangeable_dict {es fs : List Entry}
    (each : List.Forall₂ (fun e f => e.1 = f.1 ∧ Interchangeable e.2 f.2) es fs) :
    Interchangeable (.dict es) (.dict fs) where
  alike := alike_dict (each.imp fun _ _ both => ⟨both.1, both.2.alike⟩)
  written money := by rw [written, written, writtenEntries_congr each]

theorem Interchangeable.admissible {v w : Value} (same : Interchangeable v w)
    (admissible : v.Admissible) : w.Admissible where
  bounded := same.alike.bounded.1 admissible.bounded
  height := same.alike.height ▸ admissible.height
  nodes := same.alike.nodes ▸ admissible.nodes
  sortWork := same.alike.sortWork ▸ admissible.sortWork

theorem Interchangeable.hashable {v w : Value} {n : Nat} (same : Interchangeable v w)
    (hashable : Hashable n v) : Hashable n w :=
  ⟨same.admissible hashable.admissible, same.written canonicalText ▸ hashable.bytes⟩

theorem Interchangeable.digest {v w : Value} (same : Interchangeable v w) (sha : TextHash) :
    digest sha v = digest sha w := by
  rw [DefiantHarness.digest, DefiantHarness.digest, same.written]

theorem Interchangeable.actionSha256Of {v w : Value} {sha : TextHash} {chunking : Chunking}
    {d : String} (same : Interchangeable v w) (hash : actionSha256Of sha chunking v = .ok d) :
    actionSha256Of sha chunking w = .ok d := by
  obtain ⟨hashable, rfl⟩ := actionSha256Of_ok_iff.1 hash
  exact actionSha256Of_ok_iff.2 ⟨same.hashable hashable, same.digest sha⟩

/-- The snapshot of what can be read back is the value itself. -/
theorem snapshot_of_listed {v : Value} {x : Data} (shape : v.listed = .ofData x) : v.snapshot = v := by
  -- there are no members and no amounts, which are all that a snapshot replaces
  have self {items : List Value} (each : ∀ v ∈ items, v.snapshot = v) :
      items.map snapshot = items := (List.map_congr_left each).trans (List.map_id _)
  have part {items : List Value} {xs : List Data} (each : items.map listed = xs.map ofData)
      (v : Value) (member : v ∈ items) : ∃ x, v.listed = .ofData x := by
    have inside := List.mem_map_of_mem (f := listed) member
    rw [each] at inside
    obtain ⟨x, -, own⟩ := List.mem_map.1 inside
    exact ⟨x, own.symm⟩
  induction v using Value.induction_on generalizing x with
  | list items ih =>
    rw [listed_list] at shape
    obtain ⟨xs, rfl, each⟩ := ofData_list shape
    rw [snapshot, snapshotItems_eq, self]
    intro v member
    obtain ⟨x, own⟩ := part each v member
    exact ih v member own
  | tuple items ih =>
    rw [listed_tuple] at shape
    obtain ⟨xs, rfl, each⟩ := ofData_list shape
    rw [snapshot, snapshotItems_eq, self]
    intro v member
    obtain ⟨x, own⟩ := part each v member
    exact ih v member own
  | dict entries ih =>
    rw [listed_dict] at shape
    obtain ⟨fields, rfl, each⟩ := ofData_dict shape
    rw [snapshot, snapshotEntries_eq]
    refine congrArg Value.dict ((List.map_congr_left ?_).trans (List.map_id _))
    rintro ⟨k, v⟩ member
    have entry := List.mem_map_of_mem (f := fun e : Entry => (e.1, e.2.listed)) member
    rw [each, ofFields_eq] at entry
    obtain ⟨f, -, own⟩ := List.mem_map.1 entry
    obtain ⟨key, listed⟩ := Prod.mk.inj own
    rw [(ih _ member).2 listed.symm, ← show Value.str f.1 = k from key]
    rfl
  | str s => rfl
  | null => rfl
  | bool b => rfl
  | int i => rfl
  | float x => rfl
  | _ => cases x <;> cases shape

/-! ### Equality -/

private theorem entryAt_fields (k : Points) (fields : List Field) :
    entryAt (.str k) (ofFields fields) = (fieldAt k fields).map ofData := by
  induction fields with
  | nil => rfl
  | cons f fs ih =>
    obtain ⟨k', x⟩ := f
    rw [ofFields, entryAt, ih]
    by_cases same : k' = k <;> simp [scalarEquals, scalar?, Data.equals, fieldAt, same]

theorem equalsItems_iff {items others : List Value} :
    equalsItems items others = true ↔ List.Forall₂ (fun v w => v.equals w = true) items others := by
  induction items generalizing others with
  | nil => cases others <;> simp [equalsItems]
  | cons v vs ih => cases others <;> simp [equalsItems, ih]

theorem equalsEntries_iff {es fs : List Entry} :
    equalsEntries es fs = true ↔ ∀ e ∈ es, ∃ w, entryAt e.1 fs = some w ∧ e.2.equals w = true := by
  induction es with
  | nil => simp [equalsEntries]
  | cons e es ih =>
    obtain ⟨k, v⟩ := e
    rw [equalsEntries, Bool.and_eq_true, ih, List.forall_mem_cons]
    apply and_congr_left
    intro _
    cases entryAt k fs <;> simp

/-- Decoded documents are equal as documents. -/
theorem equals_ofData (x y : Data) : (ofData x).equals (ofData y) = x.equals y := by
  induction x using Data.induction_on generalizing y with
  | arr items ih =>
    cases y with
    | arr others =>
      rw [Bool.eq_iff_iff, ofData, ofData, equals, equalsItems_iff, Data.equals, Data.equalsItems_iff,
        ofItems_eq, ofItems_eq, List.forall₂_map_left_iff, List.forall₂_map_right_iff]
      constructor <;> intro each <;> refine List.forall₂_iff_get.2 ⟨each.length_eq, ?_⟩ <;>
        intro i left right
      · exact (ih _ (List.get_mem _ _) _).symm.trans (each.get left right)
      · exact (ih _ (List.get_mem _ _) _).trans (each.get left right)
    | _ => simp [ofData, equals, scalarEquals, scalar?, Data.equals]
  | obj fields ih =>
    cases y with
    | obj others =>
      rw [Bool.eq_iff_iff, ofData, ofData, equals, Data.equals, Bool.and_eq_true, Bool.and_eq_true,
        equalsEntries_iff, Data.equalsFields_iff, ofFields_eq, ofFields_eq, List.length_map,
        List.length_map, ← ofFields_eq others, List.forall_mem_map]
      -- the same names, then the values under them
      refine and_congr_right fun _ => forall₂_congr fun f member => ?_
      rw [entryAt_fields]
      constructor
      · rintro ⟨w, found, equal⟩
        obtain ⟨y, at_, rfl⟩ := Option.map_eq_some_iff.1 found
        exact ⟨y, at_, (ih f member y).symm.trans equal⟩
      · rintro ⟨y, at_, equal⟩
        exact ⟨.ofData y, by rw [at_]; rfl, (ih f member y).trans equal⟩
    | _ => simp [ofData, equals, scalarEquals, scalar?, Data.equals]
  | _ => cases y <;> simp [ofData, equals, scalarEquals, scalar?, Data.equals, Data.amount?]

private theorem entryAt_listed (k : Value) (entries : List Entry) :
    entryAt k (entries.map fun e => (e.1, e.2.listed)) = (entryAt k entries).map listed := by
  induction entries with
  | nil => rfl
  | cons e es ih =>
    obtain ⟨k', v⟩ := e
    rw [List.map_cons, entryAt, entryAt, ih]
    split <;> rfl

private theorem forall₂_listed {items others : List Value}
    (ih : ∀ v ∈ items, ∀ w, v.equals w = true → v.listed.equals w.listed = true)
    (each : List.Forall₂ (fun v w => v.equals w = true) items others) :
    List.Forall₂ (fun v w => v.equals w = true) (items.map listed) (others.map listed) := by
  rw [List.forall₂_map_left_iff, List.forall₂_map_right_iff, List.forall₂_iff_get]
  exact ⟨each.length_eq, fun i left right => ih _ (List.get_mem _ _) _ (each.get left right)⟩

/-- Equal values are equal when tuples have become lists. -/
theorem equals_listed {v w : Value} (equal : v.equals w = true) : v.listed.equals w.listed = true := by
  induction v using Value.induction_on generalizing w with
  | list items ih =>
    cases w with
    | list others =>
      rw [equals, equalsItems_iff] at equal
      rw [listed_list, listed_list, equals, equalsItems_iff]
      exact forall₂_listed (fun v member w => ih v member) equal
    | _ => simp [equals, scalarEquals, scalar?] at equal
  | tuple items ih =>
    cases w with
    | tuple others =>
      rw [equals, equalsItems_iff] at equal
      rw [listed_tuple, listed_tuple, equals, equalsItems_iff]
      exact forall₂_listed (fun v member w => ih v member) equal
    | _ => simp [equals, scalarEquals, scalar?] at equal
  | dict entries ih =>
    cases w with
    | dict others =>
      rw [equals, Bool.and_eq_true, equalsEntries_iff] at equal
      rw [listed_dict, listed_dict, equals, Bool.and_eq_true, equalsEntries_iff, List.length_map,
        List.length_map, List.forall_mem_map]
      -- the lists stand under the same keys, so each is compared with its own
      refine ⟨equal.1, fun e member => ?_⟩
      obtain ⟨w, found, same⟩ := equal.2 e member
      exact ⟨w.listed, by rw [entryAt_listed, found]; rfl, (ih e member).2 same⟩
    | _ => simp [equals, scalarEquals, scalar?] at equal
  | _ =>
    cases w with
    | list others => simp [equals, scalarEquals, scalar?] at equal
    | tuple others => simp [equals, scalarEquals, scalar?] at equal
    | dict others => simp [equals, scalarEquals, scalar?] at equal
    | _ => exact equal

/-- Values that were equal are equal when they have been read back. -/
theorem ReadAs.equals {v v' w w' : Value} (left : ReadAs v v') (right : ReadAs w w')
    (equal : v.equals w = true) : v'.equals w' = true := by
  obtain ⟨x, x', shape, rfl, same, distinct, distinct'⟩ := left
  obtain ⟨y, y', shape', rfl, same', apart, apart'⟩ := right
  have listed := equals_listed equal
  rw [shape, shape', equals_ofData] at listed
  rw [equals_ofData]
  exact Data.equals_congr distinct distinct' apart apart' same same' listed

/-- A dictionary that is equal to a record has its names. -/
theorem lookup_of_equals {fields : List (String × Value)} {raw : List Entry} {name : String}
    (equal : (dict (Durable.record fields)).equals (.dict raw) = true)
    (member : name ∈ fields.map (·.1)) : ∃ v, Durable.lookup name raw = some v := by
  obtain ⟨⟨name, v⟩, own, rfl⟩ := List.mem_map.1 member
  rw [Value.equals, Bool.and_eq_true, equalsEntries_iff] at equal
  obtain ⟨w, found, -⟩ := equal.2 (.str (Points.ofString name), v) (by
    rw [Durable.record, List.mem_map]
    exact ⟨(name, v), own, rfl⟩)
  -- the first entry under the name is the one that was compared
  clear equal own member
  induction raw with
  | nil => cases found
  | cons e es ih =>
    obtain ⟨k, u⟩ := e
    rw [entryAt] at found
    split at found
    next same =>
      cases k with
      | str s =>
        have key : s = Points.ofString name := by simpa [scalarEquals, scalar?, Data.equals] using same
        exact ⟨u, by rw [Durable.lookup, if_pos key]⟩
      | _ => simp [scalarEquals, scalar?, Data.equals, Data.amount?] at same
    · obtain ⟨v', inside⟩ := ih found
      cases k with
      | str s =>
        rw [Durable.lookup]
        split
        · exact ⟨u, rfl⟩
        · exact ⟨v', inside⟩
      | _ => exact ⟨v', inside⟩

end Value
end DefiantHarness
