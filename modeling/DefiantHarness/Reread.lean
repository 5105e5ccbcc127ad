import DefiantHarness.PayloadBinding
import DefiantHarness.StrictJson

/-! The value that a bounded value is read back as: it stays within the limits of the snapshot. -/
namespace DefiantHarness

open Foundation

/-- The value that reading the JSON of a bounded value gives, when it is read at all. -/
def reread (v : Value) : Value := Value.ofData (v.written canonicalText).joined

/-- The name that a key is read back as. -/
def rereadName (k : Value) : Points := CodeUnit.join (k.key?.getD .null).name.units

/-- Entries come back under text keys, in the order they were written in. -/
theorem reread_dict (entries : List Entry) :
    ∃ es, reread (.dict entries) = .dict es ∧
      es.Perm (entries.map fun e => (.str (rereadName e.1), reread e.2)) ∧
      es.map (·.1) = (Data.joinedFields (((Value.writtenEntries canonicalText entries).insertionSort
        byKey).map fun (k, x) => (k.name, x))).map fun f => Value.str f.1 := by
  have shape (fields : List (Key × Data)) :
      Value.ofFields (Data.joinedFields (fields.map fun (k, x) => (k.name, x))) =
        fields.map fun f => (.str (CodeUnit.join f.1.name.units), Value.ofData f.2.joined) := by
    rw [Value.ofFields_eq, Data.joinedFields_eq, List.map_map, List.map_map]
    rfl
  refine ⟨_, rfl, ?_, ?_⟩
  · rw [shape]
    refine ((List.perm_insertionSort byKey _).map _).trans ?_
    rw [Value.writtenEntries_eq, List.map_map]
    exact List.Perm.refl _
  · rw [Value.ofFields_eq, List.map_map]
    rfl

theorem reread_items (items : List Value) :
    Value.ofData (Data.arr (Value.writtenItems canonicalText items)).joined =
      .list (items.map reread) := by
  rw [Data.joined, Value.ofData, Data.joinedItems_eq, Value.ofItems_eq, Value.writtenItems_eq,
    List.map_map, List.map_map]
  rfl

/-! ### Measures -/

namespace Value

theorem nodesItems_eq (items : List Value) : nodesItems items = (items.map nodes).sum := by
  induction items with
  | nil => rfl
  | cons v vs ih => rw [nodesItems, ih, List.map_cons, List.sum_cons]

theorem sortWorkItems_eq (items : List Value) : sortWorkItems items = (items.map sortWork).sum := by
  induction items with
  | nil => rfl
  | cons v vs ih => rw [sortWorkItems, ih, List.map_cons, List.sum_cons]

theorem sortWorkEntries_eq (entries : List Entry) :
    sortWorkEntries entries = (entries.map fun e => e.2.sortWork).sum := by
  induction entries with
  | nil => rfl
  | cons e es ih => rw [sortWorkEntries, ih, List.map_cons, List.sum_cons]

theorem keyNodes_pos (k : Value) : 1 ≤ k.keyNodes := by
  cases k <;> simp [keyNodes]

end Value

private theorem reread_items_nodes {items : List Value}
    (each : ∀ v ∈ items, (reread v).nodes ≤ v.nodes) :
    (Value.list (items.map reread)).nodes ≤ 1 + Value.nodesItems items := by
  have total := List.sum_le_sum each
  rw [Value.nodes, Value.nodesItems_eq, Value.nodesItems_eq, List.map_map]
  simp only [Function.comp_def] at total ⊢
  omega

/-- Reading back claims no more nodes. -/
theorem reread_nodes (v : Value) : (reread v).nodes ≤ v.nodes := by
  induction v using Value.induction_on with
  | member mixed v ih => exact Nat.le_succ_of_le ih
  | list items ih =>
    rw [show reread (.list items) = _ from reread_items items]
    exact reread_items_nodes ih
  | tuple items ih =>
    rw [show reread (.tuple items) = _ from reread_items items]
    exact reread_items_nodes ih
  | dict entries ih =>
    obtain ⟨es, shape, order, _⟩ := reread_dict entries
    have count : Value.nodesEntries es =
        (entries.map fun e => 1 + (reread e.2).nodes).sum := by
      have sum := (order.map fun e => e.1.keyNodes + e.2.nodes).sum_eq
      rw [List.map_map] at sum
      rw [Value.nodesEntries_eq, List.map_map, ← List.sum_map_add]
      exact sum
    -- a key is read back as one text, so it has no more nodes than before
    have total : (entries.map fun e => 1 + (reread e.2).nodes).sum ≤ Value.nodesEntries entries := by
      rw [Value.nodesEntries_eq, List.map_map, ← List.sum_map_add]
      exact List.sum_le_sum fun e member =>
        Nat.add_le_add (Value.keyNodes_pos e.1) (ih e member).2
    rw [shape, Value.nodes, Value.nodes, count]
    omega
  | null => exact Nat.le_refl _
  | bool b => exact Nat.le_refl _
  | int i => exact Nat.le_refl _
  | float x => exact Nat.le_refl _
  | nonFinite => exact Nat.le_refl _
  | str s => exact Nat.le_refl _
  | decimal d => exact Nat.le_refl _
  | foreign => exact Nat.le_refl _

private theorem reread_items_height {items : List Value}
    (each : ∀ v ∈ items, (reread v).height = v.height) :
    (Value.list (items.map reread)).height = Value.heightItems items := by
  induction items with
  | nil => rfl
  | cons v vs ih =>
    have tail := ih fun w member => each w (by simp [member])
    rw [Value.height] at tail ⊢
    rw [List.map_cons, Value.heightItems, Value.heightItems, each v (by simp), tail]

private theorem heightEntries_perm {es fs : List Entry} (order : es.Perm fs) :
    Value.heightEntries es = Value.heightEntries fs := by
  have same (n : Nat) : Value.heightEntries es ≤ n ↔ Value.heightEntries fs ≤ n := by
    rw [Value.heightEntries_le, Value.heightEntries_le]
    constructor
    · exact fun each e member => each e (order.mem_iff.2 member)
    · exact fun each e member => each e (order.mem_iff.1 member)
  exact Nat.le_antisymm ((same _).2 (Nat.le_refl _)) ((same _).1 (Nat.le_refl _))

/-- Reading back keeps the depth of every node. -/
theorem reread_height (v : Value) : (reread v).height = v.height := by
  induction v using Value.induction_on with
  | member mixed v ih => exact ih
  | list items ih =>
    rw [show reread (.list items) = _ from reread_items items]
    exact reread_items_height ih
  | tuple items ih =>
    rw [show reread (.tuple items) = _ from reread_items items]
    exact reread_items_height ih
  | dict entries ih =>
    obtain ⟨es, shape, order, -⟩ := reread_dict entries
    -- the entries come back in another order, which the height does not see
    rw [shape, Value.height, Value.height, heightEntries_perm order]
    clear shape order
    induction entries with
    | nil => rfl
    | cons e es step =>
      obtain ⟨k, v⟩ := e
      rw [List.map_cons, Value.heightEntries, Value.heightEntries, (ih (k, v) (by simp)).2,
        step fun e member => ih e (by simp [member])]
  | null => rfl
  | bool b => rfl
  | int i => rfl
  | float x => rfl
  | nonFinite => rfl
  | str s => rfl
  | decimal d => rfl
  | foreign => rfl

/-- The key of a bounded entry is written under the name of its copy. -/
private theorem rereadName_copy {k : Value} (bounded : k.BoundedKey) (known : k.family? ≠ none) :
    rereadName k = CodeUnit.join k.keyCopy.name.units := by
  rw [rereadName, bounded.key known, Option.getD_some]

private theorem reread_keyWidth {k : Value} (bounded : k.BoundedKey) (known : k.family? ≠ none) :
    (Value.str (rereadName k)).keyWidth = k.keyWidth := by
  rw [rereadName_copy bounded known]
  exact congrArg List.length (Data.quoted_join _)

private theorem reread_items_sortWork {items : List Value}
    (each : ∀ v ∈ items, (reread v).sortWork = v.sortWork) :
    (Value.list (items.map reread)).sortWork = Value.sortWorkItems items := by
  rw [Value.sortWork, Value.sortWorkItems_eq, Value.sortWorkItems_eq, List.map_map]
  exact congrArg List.sum (List.map_congr_left each)

/-- Reading back charges the same sort work. -/
theorem reread_sortWork {v : Value} (bounded : v.Bounded) : (reread v).sortWork = v.sortWork := by
  induction v using Value.induction_on with
  | member mixed v ih => exact ih bounded
  | list items ih =>
    rw [show reread (.list items) = _ from reread_items items]
    exact reread_items_sortWork fun v member => ih v member (Value.boundedItems_iff.1 bounded v member)
  | tuple items ih =>
    rw [show reread (.tuple items) = _ from reread_items items]
    exact reread_items_sortWork fun v member => ih v member (Value.boundedItems_iff.1 bounded v member)
  | dict entries ih =>
    obtain ⟨_, keyed, values⟩ := bounded
    obtain ⟨es, shape, order, -⟩ := reread_dict entries
    -- each key is read back as a text of the width it was written in
    have widths : (es.map fun e => e.1.keyWidth).sum = (entries.map fun e => e.1.keyWidth).sum := by
      rw [(order.map fun e => e.1.keyWidth).sum_eq, List.map_map]
      refine congrArg List.sum (List.map_congr_left fun e member => ?_)
      obtain ⟨own, known, _⟩ := keyed.1 e.1 (List.mem_map_of_mem member)
      exact reread_keyWidth own known
    have inner : Value.sortWorkEntries es = Value.sortWorkEntries entries := by
      rw [Value.sortWorkEntries_eq, Value.sortWorkEntries_eq,
        (order.map fun e => e.2.sortWork).sum_eq, List.map_map]
      exact congrArg List.sum (List.map_congr_left fun e member =>
        (ih e member).2 (Value.boundedEntries_iff.1 values e member))
    have length : es.length = entries.length := by rw [order.length_eq, List.length_map]
    rw [shape, Value.sortWork, Value.sortWork, widths, inner, length]
  | null => rfl
  | bool b => rfl
  | int i => rfl
  | float x => rfl
  | nonFinite => rfl
  | str s => rfl
  | decimal d => rfl
  | foreign => rfl

/-! ### Limits on scalars and mappings -/

private theorem scalar_of_number {n : Nat} (short : n ≤ maxActionHashNumberCharacters) :
    n ≤ maxActionHashScalarCharacters :=
  short.trans (by decide)

private theorem join_scalar {s : Points} (short : s.length ≤ maxActionHashScalarCharacters) :
    (CodeUnit.join s.units).length ≤ maxActionHashScalarCharacters :=
  (join_length_le s).trans short

private theorem money_scalar {d : Decimal} (bounded : BoundedMoney d) :
    (ofChars (canonicalText d).chars).length ≤ maxActionHashScalarCharacters := by
  rw [ofChars, List.length_map]
  rcases bounded.2 with zero | ⟨_, short⟩
  · rw [canonicalText, if_pos zero]
    decide
  · exact scalar_of_number short

private theorem rereadName_scalar {k : Value} (bounded : k.BoundedKey) (known : k.family? ≠ none) :
    (rereadName k).length ≤ maxActionHashScalarCharacters := by
  rw [rereadName_copy bounded known]
  apply join_scalar
  induction k using Value.induction_on with
  | member mixed v ih =>
    cases mixed with
    | false => exact absurd rfl known
    | true => exact ih bounded known
  | str s => exact bounded
  | int i =>
    rw [show (Value.int i).keyCopy.name = (Numeral.ofInt i).chars.map CodePoint.ofChar from rfl,
      List.length_map]
    exact scalar_of_number bounded
  | float x =>
    rw [show (Value.float x).keyCopy.name = x.numeral.chars.map CodePoint.ofChar from rfl,
      List.length_map]
    exact scalar_of_number bounded
  | bool b => cases b <;> decide
  | null => decide
  | nonFinite => exact bounded.elim
  | decimal d => exact absurd rfl known
  | list items ih => exact bounded.elim
  | tuple items ih => exact bounded.elim
  | dict entries ih => exact bounded.elim
  | foreign => exact bounded.elim

private theorem reread_items_bounded {items : List Value} (each : ∀ v ∈ items, (reread v).Bounded) :
    (Value.list (items.map reread)).Bounded := by
  rw [Value.Bounded, Value.boundedItems_iff]
  intro w member
  obtain ⟨v, inside, rfl⟩ := List.mem_map.1 member
  exact each v inside

private theorem distinct_items {items : List Value}
    (distinct : (Data.arr (Value.writtenItems canonicalText items)).joined.Distinct) :
    ∀ v ∈ items, (v.written canonicalText).joined.Distinct := by
  rw [Data.joined, Data.Distinct, Data.distinctItems_iff, Data.joinedItems_eq,
    Value.writtenItems_eq] at distinct
  exact fun v member => distinct _ (List.mem_map_of_mem (List.mem_map_of_mem member))

private theorem distinct_dict {entries : List Entry}
    (distinct : ((Value.dict entries).written canonicalText).joined.Distinct) :
    ((Data.joinedFields (((Value.writtenEntries canonicalText entries).insertionSort
        byKey).map fun (k, x) => (k.name, x))).map (·.1)).Nodup ∧
      ∀ e ∈ entries, (e.2.written canonicalText).joined.Distinct := by
  rw [Value.written, Data.joined, Data.Distinct, Data.distinctFields_iff] at distinct
  refine ⟨distinct.1, fun e member => ?_⟩
  have listed : (e.1.key?.getD .null, e.2.written canonicalText) ∈
      (Value.writtenEntries canonicalText entries).insertionSort byKey := by
    rw [List.mem_insertionSort, Value.writtenEntries_eq]
    exact List.mem_map_of_mem member
  have field := List.mem_map_of_mem (f := fun f : Field => (CodeUnit.join f.1.units, f.2.joined))
    (List.mem_map_of_mem (f := fun (k, x) => (Key.name k, x)) listed)
  rw [← Data.joinedFields_eq] at field
  exact distinct.2 _ field

/-- What is read back with distinct names is inside the limits again. -/
theorem reread_bounded {v : Value} (bounded : v.Bounded)
    (distinct : (v.written canonicalText).joined.Distinct) : (reread v).Bounded := by
  induction v using Value.induction_on with
  | member mixed v ih => exact ih bounded distinct
  | list items ih =>
    rw [show reread (.list items) = _ from reread_items items]
    exact reread_items_bounded fun v member =>
      ih v member (Value.boundedItems_iff.1 bounded v member) (distinct_items distinct v member)
  | tuple items ih =>
    rw [show reread (.tuple items) = _ from reread_items items]
    exact reread_items_bounded fun v member =>
      ih v member (Value.boundedItems_iff.1 bounded v member) (distinct_items distinct v member)
  | dict entries ih =>
    obtain ⟨count, keyed, values⟩ := bounded
    obtain ⟨names, inner⟩ := distinct_dict distinct
    obtain ⟨es, shape, order, listed⟩ := reread_dict entries
    have length : es.length = entries.length := by rw [order.length_eq, List.length_map]
    rw [shape]
    refine ⟨by rw [length]; exact count, ⟨?_, ?_⟩, ?_⟩
    · rw [listed]
      -- every key comes back as a text, so there is one family only
      have text : ∀ k ∈ es.map (·.1), ∃ s, k = Value.str s ∧ s.length ≤ maxActionHashScalarCharacters := by
        intro k member
        obtain ⟨e, inside, rfl⟩ := List.mem_map.1 member
        obtain ⟨e', own, same⟩ := List.mem_map.1 (order.mem_iff.1 inside)
        obtain ⟨bounded, known, _⟩ := keyed.1 e'.1 (List.mem_map_of_mem own)
        exact ⟨rereadName e'.1, by rw [← same], rereadName_scalar bounded known⟩
      rw [listed] at text
      intro k member
      obtain ⟨s, rfl, short⟩ := text k member
      refine ⟨short, by simp [Value.family?], fun k' other => ?_⟩
      obtain ⟨t, rfl, _⟩ := text k' other
      rfl
    · rw [listed, List.map_map]
      have copies : ∀ fs : List Field, (fs.map (·.1)).Nodup →
          (fs.map (Value.keyCopy ∘ fun f => Value.str f.1)).Pairwise fun a b => b.same a = false := by
        intro fs distinct
        rw [List.pairwise_map]
        rw [List.Nodup, List.pairwise_map] at distinct
        refine distinct.imp fun {f g} apart => ?_
        simp [Value.keyCopy, Key.same, Ne.symm apart]
      exact copies _ names
    · rw [Value.boundedEntries_iff]
      intro e member
      obtain ⟨e', own, same⟩ := List.mem_map.1 (order.mem_iff.1 member)
      rw [← same]
      exact (ih e' own).2 (Value.boundedEntries_iff.1 values e' own) (inner e' own)
  | str s => exact join_scalar bounded
  | decimal d => exact join_scalar (money_scalar bounded)
  | null => trivial
  | bool b => trivial
  | int i => exact bounded
  | float x => exact bounded
  | nonFinite => exact bounded.elim
  | foreign => exact bounded.elim

/-! ### Texts -/

/-- Sorting the fields keeps the length of the text. -/
theorem text_sorted_length (x : Data) : x.sorted.text.length = x.text.length := by
  induction x using Data.induction_on with
  | null => rfl
  | bool b => rfl
  | int i => rfl
  | float x => rfl
  | str s => rfl
  | arr items ih =>
    have each : (items.map Data.sorted).map (fun x => x.text.length) =
        items.map fun x => x.text.length := by
      rw [List.map_map]
      exact List.map_congr_left ih
    rw [Data.sorted, Data.text_arr_length, Data.text_arr_length, Data.sortedItems_eq, each,
      List.length_map]
  | obj fields ih =>
    have order := List.perm_insertionSort Data.byName (Data.sortedFields fields)
    have each : (Data.sortedFields fields).map
        (fun f => (quoted f.1).length + f.2.text.length + 1) =
          fields.map fun f => (quoted f.1).length + f.2.text.length + 1 := by
      rw [Data.sortedFields_eq, List.map_map]
      apply List.map_congr_left
      intro f member
      simp only [Function.comp_apply, ih f member]
    have length : (Data.sortedFields fields).length = fields.length := by
      rw [Data.sortedFields_eq, List.length_map]
    rw [Data.sorted, Data.text_obj_length, Data.text_obj_length, order.length_eq, length,
      (order.map fun f => (quoted f.1).length + f.2.text.length + 1).sum_eq, each]

/-- What is read back has a text of the same length. -/
theorem reread_text_length (v : Value) :
    ((reread v).written canonicalText).text.length = (v.written canonicalText).text.length := by
  rw [reread, Value.written_ofData, text_sorted_length, Data.text, Data.render_joined]
  rfl

/-- What is read back with distinct names can be hashed under the same ceiling. -/
theorem reread_hashable {n : Nat} {v : Value} (hashable : Hashable n v)
    (distinct : (v.written canonicalText).joined.Distinct) : Hashable n (reread v) where
  admissible := {
    bounded := reread_bounded hashable.admissible.bounded distinct
    height := by
      rw [reread_height]
      exact hashable.admissible.height
    nodes := (reread_nodes v).trans hashable.admissible.nodes
    sortWork := by
      rw [reread_sortWork hashable.admissible.bounded]
      exact hashable.admissible.sortWork }
  bytes := by
    rw [reread_text_length]
    exact hashable.bytes

/-! ### Plain data -/

namespace Value

/-- A snapshot of decoded data is the data itself. -/
@[simp] theorem snapshot_ofData (x : Data) : (ofData x).snapshot = ofData x := by
  induction x using Data.induction_on with
  | null => rfl
  | bool b => rfl
  | int i => rfl
  | float x => rfl
  | str s => rfl
  | arr items ih =>
    rw [ofData, snapshot, snapshotItems_eq, ofItems_eq, List.map_map]
    exact congrArg list (List.map_congr_left ih)
  | obj fields ih =>
    rw [ofData, snapshot, snapshotEntries_eq, ofFields_eq, List.map_map]
    apply congrArg dict
    apply List.map_congr_left
    intro f member
    simp only [Function.comp_apply, ih f member]
    rfl

example : ((Value.tuple [.member true (.str (.ofString "a"))]).snapshot.written canonicalText).text =
    "[\"a\"]".toList := by decide +kernel

/-- The family of a bounded key is that of its copy. -/
private theorem BoundedKey.family {k : Value} (bounded : k.BoundedKey) (known : k.family? ≠ none) :
    k.family? = some k.keyCopy.family := by
  induction k using Value.induction_on with
  | member mixed v ih =>
    cases mixed with
    | false => exact absurd rfl known
    | true => exact ih bounded known
  | null => rfl
  | bool b => rfl
  | int i => rfl
  | float x => rfl
  | str s => rfl
  | nonFinite => exact bounded.elim
  | decimal d => exact absurd rfl known
  | list items ih => exact absurd rfl known
  | tuple items ih => exact absurd rfl known
  | dict entries ih => exact absurd rfl known
  | foreign => exact absurd rfl known

private theorem keyed_oneFamily {entries : List Entry} (keyed : Keyed (entries.map (·.1))) :
    oneFamily ((writtenEntries canonicalText entries).map (·.1)) = true := by
  have copies : (writtenEntries canonicalText entries).map (·.1) =
      entries.map fun e => e.1.keyCopy := by
    rw [writtenEntries_eq, List.map_map]
    apply List.map_congr_left
    intro e member
    obtain ⟨bounded, known, -⟩ := keyed.1 e.1 (List.mem_map_of_mem member)
    simp only [Function.comp_apply, bounded.key known, Option.getD_some]
  have families (e : Entry) (member : e ∈ entries) :
      e.1.family? = some e.1.keyCopy.family := by
    obtain ⟨bounded, known, -⟩ := keyed.1 e.1 (List.mem_map_of_mem member)
    exact bounded.family known
  rw [copies]
  cases entries with
  | nil => rfl
  | cons e es =>
    simp only [List.map_cons, oneFamily, List.all_map, List.all_eq_true, Function.comp_apply,
      beq_iff_eq]
    intro f member
    have other := (keyed.1 e.1 (by simp)).2.2 f.1 (List.mem_map_of_mem (by simp [member]))
    rw [families f (by simp [member]), families e (by simp)] at other
    exact Option.some.inj other

private theorem dumps_snapshotItems {items : List Value}
    (each : ∀ v ∈ items, v.snapshot.dumps .refuse = .ok (v.written canonicalText)) :
    dumpsItems .refuse (snapshotItems items) = .ok (writtenItems canonicalText items) := by
  induction items with
  | nil => rfl
  | cons v vs ih =>
    rw [snapshotItems, dumpsItems, each v (by simp), ok_bind,
      ih fun w member => each w (by simp [member])]
    rfl

private theorem dumps_snapshotEntries {entries : List Entry}
    (keys : ∀ e ∈ entries, e.1.key? = some e.1.keyCopy)
    (each : ∀ e ∈ entries, e.2.snapshot.dumps .refuse = .ok (e.2.written canonicalText)) :
    dumpsEntries .refuse (snapshotEntries entries) = .ok (writtenEntries canonicalText entries) := by
  induction entries with
  | nil => rfl
  | cons e es ih =>
    obtain ⟨k, v⟩ := e
    have key := keys (k, v) (by simp)
    rw [snapshotEntries, dumpsEntries, toValue_key key, each (k, v) (by simp),
      ih (fun e member => keys e (by simp [member])) fun e member => each e (by simp [member]),
      writtenEntries, key]
    rfl

/-- The plain encoder writes the snapshot of bounded data, as its document. -/
theorem Bounded.dumps_snapshot {v : Value} (bounded : v.Bounded) :
    v.snapshot.dumps .refuse = .ok (v.written canonicalText) := by
  induction v using Value.induction_on with
  | member mixed v ih => exact ih bounded
  | list items ih =>
    rw [snapshot, dumps, dumps_snapshotItems fun v member =>
      ih v member (boundedItems_iff.1 bounded v member)]
    rfl
  | tuple items ih =>
    rw [snapshot, dumps, dumps_snapshotItems fun v member =>
      ih v member (boundedItems_iff.1 bounded v member)]
    rfl
  | dict entries ih =>
    obtain ⟨_, keyed, values⟩ := bounded
    have keys : ∀ e ∈ entries, e.1.key? = some e.1.keyCopy := by
      intro e member
      obtain ⟨own, known, _⟩ := keyed.1 e.1 (List.mem_map_of_mem member)
      exact own.key known
    rw [snapshot, dumps, dumps_snapshotEntries keys fun e member =>
      (ih e member).2 (boundedEntries_iff.1 values e member), ok_bind,
      refuseIf_of_not (by rw [keyed_oneFamily keyed]; simp), ok_bind]
    rfl
  | int i =>
    -- an integer too long to print is no bounded number
    have digits : ¬ maxStrDigits < (Nat.toDigits 10 i.natAbs).length := by
      have key := BoundedKey.key (k := .int i) bounded (by simp [family?])
      intro long
      rw [key?, if_pos long] at key
      cases key
    rw [snapshot, dumps, refuseIf_of_not digits]
    rfl
  | null => rfl
  | bool b => rfl
  | float x => rfl
  | str s => rfl
  | decimal d => rfl
  | nonFinite => exact bounded.elim
  | foreign => exact bounded.elim

example : ((tuple [.decimal ⟨false, 150, -2⟩]).snapshot.dumps .refuse).map (fun x => x.text) =
    .ok "[\"1.5\"]".toList := by decide +kernel

/-- Data that JSON decodes to as it stands: text keys, lists, and no code point spelled as two
surrogates. -/
def Plain (v : Value) : Prop := ∃ x, v = ofData x ∧ ∀ s ∈ x.strings, s.unpaired = true

/-- One value, up to the order of dictionary entries. -/
def Same (v w : Value) : Prop := ∃ x y, v = ofData x ∧ w = ofData y ∧ x.Same y

theorem ofData_injective {x y : Data} (same : ofData x = ofData y) : x = y := by
  induction x using Data.induction_on generalizing y with
  | arr items ih =>
    cases y with
    | arr others =>
      rw [ofData, ofData, list.injEq, ofItems_eq, ofItems_eq] at same
      induction items generalizing others with
      | nil => cases others <;> simp_all
      | cons x xs step =>
        cases others with
        | nil => simp at same
        | cons y ys =>
          rw [List.map_cons, List.map_cons, List.cons.injEq] at same
          have rest := step (fun z member => ih z (by simp [member])) ys same.2
          rw [Data.arr.injEq] at rest
          rw [ih x (by simp) same.1, rest]
    | _ => simp [ofData] at same
  | obj fields ih =>
    cases y with
    | obj others =>
      rw [ofData, ofData, dict.injEq, ofFields_eq, ofFields_eq] at same
      induction fields generalizing others with
      | nil => cases others <;> simp_all
      | cons f fs step =>
        cases others with
        | nil => simp at same
        | cons g gs =>
          rw [List.map_cons, List.map_cons, List.cons.injEq, Prod.mk.injEq, str.injEq] at same
          have rest := step (fun z member => ih z (by simp [member])) gs same.2
          rw [Data.obj.injEq] at rest
          rw [Prod.ext same.1.1 (ih f (by simp) same.1.2), rest]
    | _ => simp [ofData] at same
  | null => cases y <;> simp_all [ofData]
  | bool b => cases y <;> simp_all [ofData]
  | int i => cases y <;> simp_all [ofData]
  | float x => cases y <;> simp_all [ofData]
  | str s => cases y <;> simp_all [ofData]

/-- Bounded data names no field twice. -/
theorem distinct_of_bounded {x : Data} (bounded : (ofData x).Bounded) : x.Distinct := by
  induction x using Data.induction_on with
  | arr items ih =>
    rw [ofData, Bounded, boundedItems_iff, ofItems_eq, List.forall_mem_map] at bounded
    exact Data.distinctItems_iff.2 fun x member => ih x member (bounded x member)
  | obj fields ih =>
    obtain ⟨-, keyed, values⟩ := bounded
    rw [boundedEntries_iff, ofFields_eq, List.forall_mem_map] at values
    refine ⟨?_, Data.distinctFields_iff.2 fun f member => ih f member (values f member)⟩
    have apart := keyed.2
    rw [ofFields_eq, List.map_map, List.map_map, List.pairwise_map] at apart
    rw [List.Nodup, List.pairwise_map]
    refine apart.imp fun {f g} other same => ?_
    simp [keyCopy, Key.same, same] at other
  | null => trivial
  | bool b => trivial
  | int i => trivial
  | float x => trivial
  | str s => trivial

/-- The key of an entry in a copy is bounded like the original, and is its own copy. -/
private theorem copy_bounded {k : Value} (bounded : k.BoundedKey) (known : k.family? ≠ none) :
    k.keyCopy.toValue.BoundedKey ∧ k.keyCopy.toValue.family? = some k.keyCopy.family ∧
      k.keyCopy.toValue.keyCopy = k.keyCopy := by
  induction k using Value.induction_on with
  | member mixed v ih =>
    cases mixed with
    | false => exact absurd rfl known
    | true => exact ih bounded known
  | null => exact ⟨trivial, rfl, rfl⟩
  | bool b => exact ⟨trivial, rfl, rfl⟩
  | int i => exact ⟨bounded, rfl, rfl⟩
  | float x => exact ⟨bounded, rfl, rfl⟩
  | str s => exact ⟨bounded, rfl, rfl⟩
  | nonFinite => exact bounded.elim
  | decimal d => exact absurd rfl known
  | list items ih => exact absurd rfl known
  | tuple items ih => exact absurd rfl known
  | dict entries ih => exact absurd rfl known
  | foreign => exact absurd rfl known

/-- The snapshot of bounded data is bounded. -/
theorem Bounded.snapshot {v : Value} (bounded : v.Bounded) : v.snapshot.Bounded := by
  induction v using Value.induction_on with
  | member mixed v ih => exact ih bounded
  | list items ih =>
    rw [Value.snapshot, Bounded, boundedItems_iff, snapshotItems_eq, List.forall_mem_map]
    exact fun v member => ih v member (boundedItems_iff.1 bounded v member)
  | tuple items ih =>
    rw [Value.snapshot, Bounded, boundedItems_iff, snapshotItems_eq, List.forall_mem_map]
    exact fun v member => ih v member (boundedItems_iff.1 bounded v member)
  | dict entries ih =>
    obtain ⟨count, keyed, values⟩ := bounded
    have keys : (snapshotEntries entries).map (·.1) = entries.map fun e => e.1.keyCopy.toValue := by
      rw [snapshotEntries_eq, List.map_map]
      rfl
    -- a key's copy is of the key's family and within its bounds
    have copy (e : Entry) (member : e ∈ entries) := by
      obtain ⟨own, known, alike⟩ := keyed.1 e.1 (List.mem_map_of_mem member)
      exact And.intro (copy_bounded own known) (own.family known)
    rw [Value.snapshot]
    refine ⟨by rw [snapshotEntries_eq, List.length_map]; exact count, ⟨?_, ?_⟩, ?_⟩
    · rw [keys, List.forall_mem_map]
      intro e member
      obtain ⟨⟨own, family, -⟩, source⟩ := copy e member
      refine ⟨own, by rw [family]; simp, ?_⟩
      rw [List.forall_mem_map]
      intro f other
      obtain ⟨⟨-, family', -⟩, source'⟩ := copy f other
      have alike := (keyed.1 e.1 (List.mem_map_of_mem member)).2.2 f.1 (List.mem_map_of_mem other)
      rw [family, family', ← source, ← source', alike]
    · have apart := keyed.2
      rw [List.map_map] at apart
      rw [keys, List.map_map]
      rwa [List.map_congr_left fun e member => show (keyCopy ∘ fun e : Entry => e.1.keyCopy.toValue) e =
        (keyCopy ∘ fun e : Entry => e.1) e from (copy e member).1.2.2]
    · rw [boundedEntries_iff, snapshotEntries_eq, List.forall_mem_map]
      exact fun e member => (ih e member).2 (boundedEntries_iff.1 values e member)
  | decimal d => exact money_scalar bounded
  | null => trivial
  | bool b => trivial
  | int i => exact bounded
  | float x => exact bounded
  | str s => exact bounded
  | nonFinite => exact bounded.elim
  | foreign => exact bounded.elim

end Value

/-- What plain bounded data is read back as: itself, with its names in order. -/
theorem reread_plain {v : Value} {x : Data} (bounded : v.Bounded) (plain : v.snapshot = .ofData x)
    (unpaired : ∀ s ∈ x.strings, s.unpaired = true) :
    (v.written canonicalText).joined = x.sorted ∧ x.sorted.Distinct := by
  have document : v.written canonicalText = x.sorted := by
    rw [← bounded.written_snapshot canonicalText, plain, Value.written_ofData]
  have own := bounded.snapshot
  rw [plain] at own
  rw [document]
  refine ⟨Data.joined_eq_self ?_, Data.distinct_sorted.2 (Value.distinct_of_bounded own)⟩
  exact fun s member => unpaired s ((Data.mem_strings_sorted x).1 member)

/-- Only plain data is read back as it was written. -/
theorem plain_of_reread {v w : Value} {x : Data} (same : v.Same w) (read : w = .ofData x.joined) :
    v.Plain := by
  obtain ⟨y, z, rfl, shape, order⟩ := same
  refine ⟨y, rfl, fun s member => ?_⟩
  rw [read] at shape
  have joined := Value.ofData_injective shape
  rw [← Data.mem_strings_sorted, show y.sorted = z.sorted from order, Data.mem_strings_sorted,
    ← joined] at member
  exact Data.unpaired_joined member

end DefiantHarness
