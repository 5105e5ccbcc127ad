import DefiantHarness.Foundation.JsonEquality
import DefiantHarness.Foundation.JsonLayout
import DefiantHarness.Reread

/-! What a hash accepts, it accepts with its fields in another order, and so each of its fields. -/
namespace DefiantHarness

open Foundation

namespace Value

/-- Names as keys are within the limits when they are short and distinct. -/
theorem keyed_names_iff {names : List Points} :
    Keyed (names.map .str) ↔ (∀ s ∈ names, s.length ≤ maxActionHashScalarCharacters) ∧ names.Nodup := by
  have apart : ((names.map Value.str).map keyCopy).Pairwise (fun a b => b.same a = false) ↔
      names.Nodup := by
    rw [List.map_map, List.pairwise_map, List.Nodup]
    refine List.Pairwise.iff fun s t => ?_
    rw [← Bool.not_eq_true]
    refine not_congr ⟨fun equal => ?_, fun equal => ?_⟩
    · exact (beq_iff_eq.1 (show (t == s) = true from equal)).symm
    · subst equal
      simp [keyCopy, Key.same]
  rw [Keyed, apart, List.forall_mem_map]
  refine and_congr_left fun _ => forall₂_congr fun s _ => ⟨fun each => each.1, fun short => ?_⟩
  refine ⟨short, by simp [family?], ?_⟩
  rw [List.forall_mem_map]
  exact fun _ _ => rfl

/-- The measures of the cost of a value, and its limits on scalars. -/
structure Alike (v w : Value) : Prop where
  nodes : v.nodes = w.nodes
  height : v.height = w.height
  sortWork : v.sortWork = w.sortWork
  bounded : v.Bounded ↔ w.Bounded

private theorem sum_congr {items : List α} {f g : α → Nat} (each : ∀ x ∈ items, f x = g x) :
    (items.map f).sum = (items.map g).sum := by
  rw [List.map_congr_left each]

/-- Sorting the fields of a document changes none of them. -/
theorem alike_sorted (x : Data) : Alike (ofData x.sorted) (ofData x) := by
  induction x using Data.induction_on with
  | null => exact ⟨rfl, rfl, rfl, Iff.rfl⟩
  | bool b => exact ⟨rfl, rfl, rfl, Iff.rfl⟩
  | int i => exact ⟨rfl, rfl, rfl, Iff.rfl⟩
  | float x => exact ⟨rfl, rfl, rfl, Iff.rfl⟩
  | str s => exact ⟨rfl, rfl, rfl, Iff.rfl⟩
  | arr items ih =>
    rw [Data.sorted, ofData, ofData, Data.sortedItems_eq, ofItems_eq, ofItems_eq, List.map_map]
    constructor
    · rw [nodes, nodes, nodesItems_eq, nodesItems_eq, List.map_map, List.map_map]
      exact congrArg _ (sum_congr fun x member => (ih x member).nodes)
    · rw [height, height]
      refine Nat.le_antisymm ?_ ?_ <;> rw [heightItems_le, List.forall_mem_map] <;> intro x member
      · exact ((ih x member).height ▸ heightItems_le.1 le_rfl _ (List.mem_map_of_mem member))
      · exact ((ih x member).height.symm ▸ heightItems_le.1 le_rfl _ (List.mem_map_of_mem member))
    · rw [sortWork, sortWork, sortWorkItems_eq, sortWorkItems_eq, List.map_map, List.map_map]
      exact sum_congr fun x member => (ih x member).sortWork
    · rw [Bounded, Bounded, boundedItems_iff, boundedItems_iff, List.forall_mem_map, List.forall_mem_map]
      exact forall₂_congr fun x member => (ih x member).bounded
  | obj fields ih =>
    rw [Data.sorted_obj, ofData, ofData]
    -- sorting moves whole fields, and every measure but the shape is a sum over them
    have order : (ofFields (Data.arranged fields)).Perm
        (fields.map fun f => (Value.str f.1, ofData f.2.sorted)) := by
      rw [ofFields_eq, Data.arranged]
      refine ((List.perm_insertionSort Data.byName _).map _).trans ?_
      rw [Data.sortedFields_eq, List.map_map]
      exact List.Perm.refl _
    have own : ofFields fields = fields.map fun f => (Value.str f.1, ofData f.2) := ofFields_eq fields
    have keys : ((ofFields (Data.arranged fields)).map (·.1)).Perm ((ofFields fields).map (·.1)) := by
      have mapped := order.map (·.1)
      rw [List.map_map] at mapped
      rw [own, List.map_map]
      exact mapped
    constructor
    · have values : ((ofFields (Data.arranged fields)).map fun e => e.2.nodes).sum =
          ((ofFields fields).map fun e => e.2.nodes).sum := by
        rw [(order.map fun e => e.2.nodes).sum_eq, own, List.map_map, List.map_map]
        exact sum_congr fun f member => (ih f member).nodes
      rw [nodes, nodes, nodesEntries_eq, nodesEntries_eq, (keys.map keyNodes).sum_eq, values]
    · rw [height, height]
      refine Nat.le_antisymm ?_ ?_ <;> rw [heightEntries_le]
      · intro e member
        obtain ⟨f, inside, rfl⟩ := List.mem_map.1 (order.mem_iff.1 member)
        have below := heightEntries_le.1 (le_refl (heightEntries (ofFields fields)))
          (Value.str f.1, ofData f.2) (by rw [own]; exact List.mem_map_of_mem inside)
        exact (ih f inside).height ▸ below
      · intro e member
        rw [own] at member
        obtain ⟨f, inside, rfl⟩ := List.mem_map.1 member
        have below := heightEntries_le.1 (le_refl (heightEntries (ofFields (Data.arranged fields))))
          (Value.str f.1, ofData f.2.sorted) (order.mem_iff.2 (List.mem_map_of_mem inside))
        exact (ih f inside).height ▸ below
    · rw [sortWork, sortWork, sortWorkEntries_eq, sortWorkEntries_eq,
        (order.map fun e => e.2.sortWork).sum_eq, (order.map fun e => e.1.keyWidth).sum_eq,
        order.length_eq, own]
      simp only [List.map_map, List.length_map]
      exact congrArg₂ _ rfl (sum_congr fun f member => (ih f member).sortWork)
    · have names (fs : List Field) : (ofFields fs).map (·.1) = (fs.map (·.1)).map Value.str := by
        rw [ofFields_eq, List.map_map, List.map_map]
        rfl
      have perm := Data.arranged_names_perm fields
      have values : BoundedEntries (ofFields (Data.arranged fields)) ↔ BoundedEntries (ofFields fields) := by
        rw [boundedEntries_iff, boundedEntries_iff, own, List.forall_mem_map]
        constructor
        · intro each f member
          exact (ih f member).bounded.1 (each _ (order.mem_iff.2 (List.mem_map_of_mem member)))
        · intro each e member
          obtain ⟨f, inside, rfl⟩ := List.mem_map.1 (order.mem_iff.1 member)
          exact (ih f inside).bounded.2 (each f inside)
      rw [Bounded, Bounded, names, names, keyed_names_iff, keyed_names_iff, values, order.length_eq,
        own, List.length_map, List.length_map, perm.nodup_iff]
      simp only [perm.mem_iff]

end Value

/-- Documents with the same content are hashed under the same ceiling. -/
theorem Hashable.of_same {n : Nat} {x y : Data} (hashable : Hashable n (.ofData x)) (same : x.Same y) :
    Hashable n (.ofData y) := by
  have left := Value.alike_sorted x
  have right := Value.alike_sorted y
  rw [show x.sorted = y.sorted from same] at left
  have admissible := hashable.admissible
  refine ⟨⟨right.bounded.1 (left.bounded.2 admissible.bounded), ?_, ?_, ?_⟩, ?_⟩
  · rw [← right.height, left.height]
    exact admissible.height
  · rw [← right.nodes, left.nodes]
    exact admissible.nodes
  · rw [← right.sortWork, left.sortWork]
    exact admissible.sortWork
  · have bytes := hashable.bytes
    rw [Value.written_ofData] at bytes ⊢
    rwa [← show x.sorted = y.sorted from same]

/-- A field of a document is hashed under its ceiling. -/
theorem Hashable.field {n : Nat} {fields : List Field} {f : Field}
    (hashable : Hashable n (.ofData (.obj fields))) (member : f ∈ fields) :
    Hashable n (.ofData f.2) := by
  have entry : (Value.str f.1, Value.ofData f.2) ∈ Value.ofFields fields := by
    rw [Value.ofFields_eq]
    exact List.mem_map_of_mem member
  -- a field takes a part of each allowance of the whole
  obtain ⟨⟨bounded, height, nodes, sortWork⟩, bytes⟩ := hashable
  rw [Value.ofData] at bounded height nodes sortWork
  refine ⟨⟨?_, ?_, ?_, ?_⟩, ?_⟩
  · rw [Value.Bounded, Value.boundedEntries_iff] at bounded
    exact bounded.2.2 _ entry
  · rw [Value.height] at height
    have below := Value.heightEntries_le.1 height _ entry
    dsimp only at below
    omega
  · rw [Value.nodes, Value.nodesEntries_eq] at nodes
    have part := List.single_le_sum (fun _ _ => Nat.zero_le _) _
      (List.mem_map_of_mem (f := fun e : Entry => e.2.nodes) entry)
    dsimp only at part
    omega
  · rw [Value.sortWork, Value.sortWorkEntries_eq] at sortWork
    have part := List.single_le_sum (fun _ _ => Nat.zero_le _) _
      (List.mem_map_of_mem (f := fun e : Entry => e.2.sortWork) entry)
    dsimp only at part
    omega
  · rw [Value.written_ofData, text_sorted_length] at bytes ⊢
    rw [Data.text_obj_length] at bytes
    have part := List.single_le_sum (fun _ _ => Nat.zero_le _) _
      (List.mem_map_of_mem (f := fun g : Field => (quoted g.1).length + g.2.text.length + 1) member)
    omega

end DefiantHarness
