import DefiantHarness.JournalReading

/-! Records on their way through a state file: made plain, encoded, read back and looked up. -/
namespace DefiantHarness

open Foundation

namespace Value

/-- Data that can be made plain and then encoded without a fallback. -/
def Serializable (v : Value) : Prop :=
  ∃ safe x, v.enumSafe = .ok safe ∧ safe.dumps .refuse = .ok x

theorem serializable_str (s : Points) : (str s).Serializable := ⟨_, _, rfl, rfl⟩

theorem serializable_named (s : Points) : (member true (str s)).Serializable := ⟨_, _, rfl, rfl⟩

theorem serializable_amount {d : Decimal} (sign : 0 ≤ d.value) : (decimal d).Serializable := by
  have text : moneyText d = .ok d.plain := by
    rw [moneyText, money_ok_iff.2 ⟨rfl, sign⟩]
    rfl
  refine ⟨.str (Points.ofString d.plain.text), _, ?_, rfl⟩
  rw [enumSafe, text]
  rfl

private theorem serializable_items {items : List Value} :
    (∃ safe xs, enumSafeItems items = .ok safe ∧ dumpsItems .refuse safe = .ok xs) ↔
      ∀ v ∈ items, v.Serializable := by
  induction items with
  | nil => exact ⟨fun _ => List.forall_mem_nil _, fun _ => ⟨_, _, rfl, rfl⟩⟩
  | cons v vs ih =>
    rw [List.forall_mem_cons, ← ih]
    constructor
    · rintro ⟨safe, xs, normalized, dumped⟩
      simp only [enumSafeItems, bind_ok_iff, pure_ok_iff] at normalized
      obtain ⟨w, head, ws, tail, rfl⟩ := normalized
      simp only [dumpsItems, bind_ok_iff, pure_ok_iff] at dumped
      obtain ⟨x, first, ys, rest, rfl⟩ := dumped
      exact ⟨⟨w, x, head, first⟩, ws, ys, tail, rest⟩
    · rintro ⟨⟨w, x, head, first⟩, ws, ys, tail, rest⟩
      refine ⟨w :: ws, x :: ys, ?_, ?_⟩
      · rw [enumSafeItems, head, ok_bind, tail]
        rfl
      · rw [dumpsItems, first, ok_bind, rest]
        rfl

theorem serializable_list {items : List Value} :
    (list items).Serializable ↔ ∀ v ∈ items, v.Serializable := by
  rw [← serializable_items]
  constructor
  · rintro ⟨safe, x, normalized, dumped⟩
    obtain ⟨vs, inner, rfl⟩ := map_ok_iff.1 normalized
    obtain ⟨xs, written, rfl⟩ := map_ok_iff.1 dumped
    exact ⟨vs, xs, inner, written⟩
  · rintro ⟨vs, xs, inner, written⟩
    exact ⟨.list vs, .arr xs, map_ok_iff.2 ⟨vs, inner, rfl⟩, map_ok_iff.2 ⟨xs, written, rfl⟩⟩

private theorem serializable_entries {fields : List (String × Value)} :
    (∃ safe xs, enumSafeEntries (Durable.record fields) = .ok safe ∧
      dumpsEntries .refuse safe = .ok xs ∧
        xs.map (·.1) = fields.map fun f => Key.str (Points.ofString f.1)) ↔
      ∀ f ∈ fields, f.2.Serializable := by
  induction fields with
  | nil => exact ⟨fun _ => List.forall_mem_nil _, fun _ => ⟨_, _, rfl, rfl, rfl⟩⟩
  | cons f fs ih =>
    obtain ⟨name, v⟩ := f
    rw [List.forall_mem_cons, ← ih]
    constructor
    · rintro ⟨safe, xs, normalized, dumped, names⟩
      simp only [Durable.record, List.map_cons, enumSafeEntries, bind_ok_iff, pure_ok_iff] at normalized
      obtain ⟨w, head, ws, tail, rfl⟩ := normalized
      simp only [dumpsEntries, bind_ok_iff, orRefuse_ok_iff, pure_ok_iff] at dumped
      obtain ⟨key, -, x, first, ys, rest, rfl⟩ := dumped
      exact ⟨⟨w, x, head, first⟩, ws, ys, tail, rest, (List.cons.inj names).2⟩
    · rintro ⟨⟨w, x, head, first⟩, ws, ys, tail, rest, names⟩
      refine ⟨(.str (Points.ofString name), w) :: ws, (.str (Points.ofString name), x) :: ys, ?_, ?_, ?_⟩
      · rw [Durable.record, List.map_cons, enumSafeEntries, head, ok_bind]
        rw [Durable.record] at tail
        rw [tail]
        rfl
      · rw [dumpsEntries, key?, orRefuse, ok_bind, first, ok_bind, rest]
        rfl
      · rw [List.map_cons, List.map_cons, names]

private theorem oneFamily_texts (texts : List Points) : oneFamily (texts.map Key.str) = true := by
  cases texts with
  | nil => rfl
  | cons s ss => simp [oneFamily, Key.family]

/-- A record can be serialized exactly when each of its values can. -/
theorem serializable_record {fields : List (String × Value)} :
    (dict (Durable.record fields)).Serializable ↔ ∀ f ∈ fields, f.2.Serializable := by
  rw [← serializable_entries]
  constructor
  · rintro ⟨safe, x, normalized, dumped⟩
    obtain ⟨es, inner, rfl⟩ := map_ok_iff.1 normalized
    simp only [dumps, bind_ok_iff] at dumped
    obtain ⟨xs, written, -⟩ := dumped
    refine ⟨es, xs, inner, written, ?_⟩
    clear normalized
    induction fields generalizing es xs with
    | nil =>
      obtain rfl := pure_ok_iff.1 inner
      obtain rfl := pure_ok_iff.1 written
      rfl
    | cons f fs ih =>
      simp only [Durable.record, List.map_cons, enumSafeEntries, bind_ok_iff, pure_ok_iff] at inner
      obtain ⟨w, -, ws, tail, rfl⟩ := inner
      simp only [dumpsEntries, bind_ok_iff, orRefuse_ok_iff, pure_ok_iff] at written
      obtain ⟨key, named, y, -, ys, rest, rfl⟩ := written
      rw [List.map_cons, List.map_cons, ih ws tail ys rest]
      rw [key?, Option.some.injEq] at named
      rw [← named]
  · rintro ⟨es, xs, inner, written, names⟩
    refine ⟨.dict es, .obj ((xs.insertionSort byKey).map fun e => (e.1.name, e.2)),
      map_ok_iff.2 ⟨es, inner, rfl⟩, ?_⟩
    -- a record's keys are all texts
    have family : oneFamily (xs.map (·.1)) = true := by
      rw [names, show (fields.map fun f => Key.str (Points.ofString f.1)) =
        (fields.map fun f => Points.ofString f.1).map Key.str by rw [List.map_map]; rfl]
      exact oneFamily_texts _
    rw [dumps, written, ok_bind, refuseIf_of_not (by simp [family])]
    rfl

/-! ### Snapshots -/

private theorem enumSafeItems_each {items : List Value} {f : Value → Value}
    (each : ∀ v ∈ items, v.enumSafe = .ok (f v)) : enumSafeItems items = .ok (items.map f) := by
  induction items with
  | nil => rfl
  | cons v vs ih =>
    rw [enumSafeItems, each v (by simp), ok_bind, ih fun w member => each w (by simp [member])]
    rfl

private theorem enumSafeEntries_each {entries : List Entry} {f : Value → Value}
    (each : ∀ e ∈ entries, e.2.enumSafe = .ok (f e.2)) :
    enumSafeEntries entries = .ok (entries.map fun e => (e.1, f e.2)) := by
  induction entries with
  | nil => rfl
  | cons e es ih =>
    obtain ⟨k, v⟩ := e
    rw [enumSafeEntries, each (k, v) (by simp), ok_bind,
      ih fun w member => each w (by simp [member])]
    rfl

/-- Only the tuples of a snapshot are left to be made plain. -/
theorem enumSafe_snapshot (v : Value) : v.snapshot.enumSafe = .ok v.snapshot.listed := by
  induction v using Value.induction_on with
  | member mixed v ih => exact ih
  | list items ih =>
    rw [snapshot, snapshotItems_eq, listed_list, enumSafe,
      enumSafeItems_each (f := listed) (by rwa [List.forall_mem_map])]
    rfl
  | tuple items ih =>
    rw [snapshot, snapshotItems_eq, listed_tuple, enumSafe,
      enumSafeItems_each (f := listed) (by rwa [List.forall_mem_map])]
    rfl
  | dict entries ih =>
    rw [snapshot, snapshotEntries_eq, listed_dict, enumSafe, enumSafeEntries_each (f := listed)
      (by rw [List.forall_mem_map]; exact fun e member => (ih e member).2)]
    rfl
  | null => rfl
  | bool b => rfl
  | int i => rfl
  | float x => rfl
  | nonFinite => rfl
  | str s => rfl
  | decimal d => rfl
  | foreign => rfl

private theorem dumpsItems_congr {items : List Value} {f : Value → Value}
    (each : ∀ v ∈ items, (f v).dumps .refuse = v.dumps .refuse) :
    dumpsItems .refuse (items.map f) = dumpsItems .refuse items := by
  induction items with
  | nil => rfl
  | cons v vs ih =>
    rw [List.map_cons, dumpsItems, dumpsItems, each v (by simp),
      ih fun w member => each w (by simp [member])]

private theorem dumpsEntries_congr {entries : List Entry} {f : Value → Value}
    (each : ∀ e ∈ entries, (f e.2).dumps .refuse = e.2.dumps .refuse) :
    dumpsEntries .refuse (entries.map fun e => (e.1, f e.2)) = dumpsEntries .refuse entries := by
  induction entries with
  | nil => rfl
  | cons e es ih =>
    obtain ⟨k, v⟩ := e
    rw [List.map_cons, dumpsEntries, dumpsEntries, each (k, v) (by simp),
      ih fun w member => each w (by simp [member])]

/-- The encoder does not tell tuples from lists. -/
theorem dumps_listed (v : Value) : v.listed.dumps .refuse = v.dumps .refuse := by
  induction v using Value.induction_on with
  | list items ih => rw [listed_list, dumps, dumps, dumpsItems_congr ih]
  | tuple items ih => rw [listed_tuple, dumps, dumps, dumpsItems_congr ih]
  | dict entries ih =>
    rw [listed_dict, dumps, dumps, dumpsEntries_congr fun e member => (ih e member).2]
  | member mixed v ih => rfl
  | null => rfl
  | bool b => rfl
  | int i => rfl
  | float x => rfl
  | nonFinite => rfl
  | str s => rfl
  | decimal d => rfl
  | foreign => rfl

theorem Bounded.serializable_snapshot {v : Value} (bounded : v.Bounded) : v.snapshot.Serializable :=
  ⟨_, _, enumSafe_snapshot v, by rw [dumps_listed]; exact bounded.dumps_snapshot⟩

end Value

/-! ### Reading records back -/

namespace Durable

/-- A record is read back with its values read back, in the order of their names. -/
theorem joined_record (money : Decimal → PlainDecimal) (fields : List (String × Value)) :
    ((Value.dict (record fields)).written money).joined =
      .obj ((fields.map fun f => (Points.ofString f.1, (f.2.written money).joined)).insertionSort
        Data.byName) := by
  have reading := List.map_insertionSort Data.byName Data.byName
    (fun f : Field => (CodeUnit.join f.1.units, f.2.joined))
    (fields.map fun f => (Points.ofString f.1, f.2.written money)) (by
      intro f left g right
      obtain ⟨_, _, rfl⟩ := List.mem_map.1 left
      obtain ⟨_, _, rfl⟩ := List.mem_map.1 right
      simp [Data.byName])
  rw [written_record, Data.joined, Data.joinedFields_eq, reading, List.map_map]
  simp [Function.comp_def]

/-- Records with one list of names and values that read alike read alike. -/
theorem joined_record_congr {money money' : Decimal → PlainDecimal} {fs gs : List (String × Value)}
    (alike : List.Forall₂ (fun f g => f.1 = g.1 ∧
      (f.2.written money).joined = (g.2.written money').joined) fs gs) :
    ((Value.dict (record fs)).written money).joined =
      ((Value.dict (record gs)).written money').joined := by
  have same : fs.map (fun f => (Points.ofString f.1, (f.2.written money).joined)) =
      gs.map fun g => (Points.ofString g.1, (g.2.written money').joined) := by
    induction alike with
    | nil => rfl
    | cons head _ ih => rw [List.map_cons, List.map_cons, ih, head.1, head.2]
  rw [joined_record, joined_record, same]

/-- The dictionary that a written record is read back as. -/
def readBack (fields : List (String × Value)) : List Entry :=
  Value.ofFields ((fields.map fun f =>
    (Points.ofString f.1, (f.2.written Decimal.plain).joined)).insertionSort Data.byName)

theorem ofData_record (fields : List (String × Value)) :
    Value.ofData ((Value.dict (record fields)).written Decimal.plain).joined =
      .dict (readBack fields) := by
  rw [joined_record]
  rfl

theorem lookup_readBack (name : String) {v : Value} {fields : List (String × Value)}
    (once : (fields.map (·.1)).Nodup) (listed : (name, v) ∈ fields) :
    lookup name (readBack fields) = some (.ofData (v.written Decimal.plain).joined) := by
  apply lookup_of_mem
  · have order := (List.perm_insertionSort Data.byName (fields.map fun f =>
      (Points.ofString f.1, (f.2.written Decimal.plain).joined))).map (·.1)
    rw [order.nodup_iff, List.map_map]
    have named := once.map (f := Points.ofString) fun _ _ => ofString_injective
    rwa [List.map_map] at named
  · rw [List.mem_insertionSort]
    exact List.mem_map.2 ⟨(name, v), listed, rfl⟩

theorem name_readBack {fields : List (String × Value)} {e : Entry} (listed : e ∈ readBack fields) :
    ∃ f ∈ fields, e.1 = .str (Points.ofString f.1) := by
  rw [readBack, Value.ofFields_eq] at listed
  obtain ⟨_, inside, rfl⟩ := List.mem_map.1 listed
  rw [List.mem_insertionSort] at inside
  obtain ⟨f, own, rfl⟩ := List.mem_map.1 inside
  exact ⟨f, own, rfl⟩

/-- A record reads back without a name twice when each of its values does. -/
theorem distinct_joined_record {money : Decimal → PlainDecimal} {fields : List (String × Value)}
    (distinct : ((Value.dict (record fields)).written money).joined.Distinct) {f : String × Value}
    (listed : f ∈ fields) : (f.2.written money).joined.Distinct := by
  rw [joined_record, Data.Distinct, Data.distinctFields_iff] at distinct
  exact distinct.2 (Points.ofString f.1, (f.2.written money).joined)
    (by rw [List.mem_insertionSort]; exact List.mem_map_of_mem listed)

end Durable

/-! ### Values that cost no more -/

namespace Value

/-- Canonical data that costs no more to hash than another value. -/
structure Within (v w : Value) : Prop where
  bounded : w.Bounded
  height : w.height ≤ v.height
  nodes : w.nodes ≤ v.nodes
  sortWork : w.sortWork ≤ v.sortWork

/-- What reads like a hashed value and costs no more can be hashed. -/
theorem Within.hashable {v w : Value} (within : Within v w) {n : Nat} (hashable : Hashable n v)
    (text : (w.written canonicalText).text = (v.written canonicalText).text) : Hashable n w where
  admissible := {
    bounded := within.bounded
    height := within.height.trans hashable.admissible.height
    nodes := within.nodes.trans hashable.admissible.nodes
    sortWork := within.sortWork.trans hashable.admissible.sortWork }
  bytes := by rw [text]; exact hashable.bytes

theorem Bounded.within {v : Value} (bounded : v.Bounded) : Within v v :=
  ⟨bounded, Nat.le_refl _, Nat.le_refl _, Nat.le_refl _⟩

theorem within_reread {v : Value} (bounded : v.Bounded)
    (distinct : (v.written canonicalText).joined.Distinct) : Within v (reread v) where
  bounded := reread_bounded bounded distinct
  height := by rw [reread_height]
  nodes := reread_nodes v
  sortWork := by rw [reread_sortWork bounded]

private theorem sum_map_le {f g : α → Nat} {as bs : List α}
    (each : List.Forall₂ (fun a b => g b ≤ f a) as bs) : (bs.map g).sum ≤ (as.map f).sum := by
  induction each with
  | nil => exact Nat.le_refl _
  | cons head _ ih =>
    rw [List.map_cons, List.map_cons, List.sum_cons, List.sum_cons]
    exact Nat.add_le_add head ih

private theorem heightItems_mono {vs ws : List Value} (each : List.Forall₂ Within vs ws) :
    heightItems ws ≤ heightItems vs := by
  induction each with
  | nil => exact Nat.le_refl _
  | cons head _ ih =>
    have := head.height
    rw [heightItems, heightItems]
    omega

theorem within_list {vs ws : List Value} (each : List.Forall₂ Within vs ws) :
    Within (list vs) (list ws) where
  bounded := by
    rw [Bounded, boundedItems_iff]
    induction each with
    | nil => exact List.forall_mem_nil _
    | cons head _ ih => exact List.forall_mem_cons.2 ⟨head.bounded, ih⟩
  height := heightItems_mono each
  nodes := by
    rw [nodes, nodes, nodesItems_eq, nodesItems_eq]
    exact Nat.add_le_add_left (sum_map_le (each.imp fun _ _ within => within.nodes)) 1
  sortWork := by
    rw [sortWork, sortWork, sortWorkItems_eq, sortWorkItems_eq]
    exact sum_map_le (each.imp fun _ _ within => within.sortWork)

/-- Two records with the same names, the values of the second within those of the first. -/
abbrev WithinFields (fs gs : List (String × Value)) : Prop :=
  List.Forall₂ (fun f g => f.1 = g.1 ∧ Within f.2 g.2) fs gs

private theorem heightEntries_mono {fs gs : List (String × Value)} (each : WithinFields fs gs) :
    heightEntries (Durable.record gs) ≤ heightEntries (Durable.record fs) := by
  induction each with
  | nil => exact Nat.le_refl _
  | cons head _ ih =>
    have := head.2.height
    simp only [Durable.record, List.map_cons, heightEntries] at ih ⊢
    omega

private theorem record_map (f : Entry → Nat) (fields : List (String × Value)) :
    (Durable.record fields).map f = fields.map fun g => f (.str (Points.ofString g.1), g.2) := by
  rw [Durable.record, List.map_map]
  rfl

theorem within_record {fs gs : List (String × Value)} {names : List String}
    (named : gs.map (·.1) = names) (few : names.length ≤ maxActionHashMappingEntries)
    (distinct : (names.map Points.ofString).Nodup)
    (short : ∀ name ∈ names, (Points.ofString name).length ≤ maxActionHashScalarCharacters)
    (each : WithinFields fs gs) :
    Within (dict (Durable.record fs)) (dict (Durable.record gs)) where
  bounded := by
    apply bounded_record named few distinct short
    clear named
    induction each with
    | nil => exact List.forall_mem_nil _
    | cons head _ ih => exact List.forall_mem_cons.2 ⟨head.2.bounded, ih⟩
  height := heightEntries_mono each
  nodes := by
    rw [nodes, nodes, nodesEntries_eq, nodesEntries_eq, List.map_map, List.map_map, record_map,
      record_map, record_map, record_map]
    apply Nat.add_le_add_left
    exact Nat.add_le_add (sum_map_le (each.imp fun _ _ _ => Nat.le_refl 1))
      (sum_map_le (each.imp fun _ _ within => within.2.nodes))
  sortWork := by
    -- the names are the same on both sides, so only the values can shrink
    have widths : (Durable.record gs).map (fun e => e.1.keyWidth) =
        (Durable.record fs).map fun e => e.1.keyWidth := by
      clear named
      induction each with
      | nil => rfl
      | cons head _ ih =>
        simp only [Durable.record, List.map_cons] at ih ⊢
        rw [ih, head.1]
    have length : (Durable.record gs).length = (Durable.record fs).length := by
      have same := congrArg List.length widths
      rwa [List.length_map, List.length_map] at same
    have inner : sortWorkEntries (Durable.record gs) ≤ sortWorkEntries (Durable.record fs) := by
      rw [sortWorkEntries_eq, sortWorkEntries_eq, record_map, record_map]
      exact sum_map_le (each.imp fun _ _ within => within.2.sortWork)
    rw [sortWork, sortWork, widths, length]
    exact Nat.add_le_add_left inner _

end Value
end DefiantHarness
