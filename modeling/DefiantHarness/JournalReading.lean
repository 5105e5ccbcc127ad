import DefiantHarness.Foundation.JsonLayout
import DefiantHarness.JournalFile
import DefiantHarness.PayloadReading

/-! Whether the journal and the state stores read back what they wrote. -/
namespace DefiantHarness

open Foundation

namespace Value

/-! ### The measures of decoded data -/

/-- Decoded data claims one node for each token. -/
theorem nodes_ofData (x : Data) : (ofData x).nodes = x.tokens := by
  induction x using Data.induction_on with
  | arr items ih =>
    rw [ofData, nodes, nodesItems_eq, ofItems_eq, List.map_map, Data.tokens, Data.tokensItems_eq,
      Nat.add_comm]
    exact congrArg (fun ns : List Nat => ns.sum + 1) (List.map_congr_left ih)
  | obj fields ih =>
    rw [ofData, nodes, nodesEntries_eq, List.map_map, ← List.sum_map_add, ofFields_eq, List.map_map,
      Data.tokens, Data.tokensFields_eq, Nat.add_comm]
    apply congrArg (fun ns : List Nat => ns.sum + 1)
    apply List.map_congr_left
    intro f member
    rw [← ih f member, Nat.add_comm]
    rfl
  | null => rfl
  | bool b => rfl
  | int i => rfl
  | float x => rfl
  | str s => rfl

example : (ofData (.arr [.null, .obj [(.ofString "a", .bool true)]])).nodes = 5 := by decide +kernel

/-- Decoded data is no higher than its document is deep. -/
theorem height_ofData (x : Data) : (ofData x).height ≤ x.depth := by
  induction x using Data.induction_on with
  | arr items ih =>
    rw [ofData, height, heightItems_le, ofItems_eq, List.forall_mem_map, Data.depth]
    intro x member
    exact Nat.succ_le_succ ((ih x member).trans (Data.depthItems_le.1 (Nat.le_refl _) x member))
  | obj fields ih =>
    rw [ofData, height, heightEntries_le, ofFields_eq, List.forall_mem_map, Data.depth]
    intro f member
    exact Nat.succ_le_succ ((ih f member).trans (Data.depthFields_le.1 (Nat.le_refl _) f member))
  | null => exact Nat.le_refl _
  | bool b => exact Nat.le_refl _
  | int i => exact Nat.le_refl _
  | float x => exact Nat.le_refl _
  | str s => exact Nat.le_refl _

private theorem sortRounds_le {n : Nat} (few : n ≤ maxActionHashMappingEntries) :
    sortRounds n ≤ 16 := by
  rw [maxActionHashMappingEntries] at few
  unfold sortRounds
  split
  · omega
  · next more =>
    have below : Nat.log2 (n - 1) < 16 := (Nat.log2_lt (by omega)).2 (by omega)
    omega

/-- Sorting is charged at most sixteen rounds for each character. -/
theorem sortWork_ofData {x : Data} (bounded : (ofData x).Bounded) :
    (ofData x).sortWork ≤ 16 * x.text.length := by
  induction x using Data.induction_on with
  | arr items ih =>
    rw [ofData, Bounded, boundedItems_iff, ofItems_eq, List.forall_mem_map] at bounded
    have each := List.sum_le_sum fun x member => ih x member (bounded x member)
    rw [List.sum_map_mul_left] at each
    rw [ofData, sortWork, sortWorkItems_eq, ofItems_eq, List.map_map, Data.text_arr_length]
    simp only [Function.comp_def]
    omega
  | obj fields ih =>
    obtain ⟨count, -, values⟩ := bounded
    rw [boundedEntries_iff, ofFields_eq, List.forall_mem_map] at values
    rw [ofFields_eq, List.length_map] at count
    have each := List.sum_le_sum fun f member => ih f member (values f member)
    rw [List.sum_map_mul_left] at each
    have rounds := sortRounds_le count
    have names := Nat.mul_le_mul_left (fields.map fun f => (quoted f.1).length).sum rounds
    -- a field's text is its name, its value and the punctuation; only names are sorted by
    have split : (fields.map fun f => (quoted f.1).length + f.2.text.length + 1).sum =
        (fields.map fun f => (quoted f.1).length).sum + (fields.map fun f => f.2.text.length).sum +
          fields.length := by
      rw [List.sum_map_add, List.sum_map_add]
      simp
    have widths : ((ofFields fields).map fun e => e.1.keyWidth).sum =
        (fields.map fun f => (quoted f.1).length).sum := by
      rw [ofFields_eq, List.map_map]
      rfl
    have inner : sortWorkEntries (ofFields fields) =
        (fields.map fun f => (ofData f.2).sortWork).sum := by
      rw [sortWorkEntries_eq, ofFields_eq, List.map_map]
      rfl
    have length : (ofFields fields).length = fields.length := by rw [ofFields_eq, List.length_map]
    rw [ofData, sortWork, widths, inner, length, Data.text_obj_length, split]
    generalize (fields.map fun f => (quoted f.1).length).sum * sortRounds fields.length = work at *
    omega
  | null => exact Nat.zero_le _
  | bool b => exact Nat.zero_le _
  | int i => exact Nat.zero_le _
  | float x => exact Nat.zero_le _
  | str s => exact Nat.zero_le _

end Value

/-- Bounded data of a journal can be hashed again when its text fits. -/
theorem hashable_document {x : Data} (bounded : (Value.ofData x).Bounded)
    (deep : x.depth ≤ maxJsonNestingDepth) (many : x.tokens ≤ maxJsonLexicalTokens)
    (fits : x.text.length ≤ maxOperationJournalBytes) :
    Hashable maxOperationJournalBytes (.ofData x) where
  admissible := {
    bounded
    height := (Value.height_ofData x).trans deep
    nodes := by
      rw [Value.nodes_ofData]
      exact many.trans (by decide)
    sortWork := (Value.sortWork_ofData bounded).trans (by
      simp only [maxOperationJournalBytes, maxActionHashMappingSortWorkUnits] at fits ⊢
      omega) }
  bytes := by rw [Value.written_ofData, text_sorted_length]; exact fits

/-- Numbers of bounded data are short. -/
theorem numbers_of_bounded {x : Data} (bounded : (Value.ofData x).Bounded) :
    ∀ n ∈ x.numbers, n.length ≤ maxActionHashNumberCharacters := by
  induction x using Data.induction_on with
  | arr items ih =>
    rw [Value.ofData, Value.Bounded, Value.boundedItems_iff, Value.ofItems_eq,
      List.forall_mem_map] at bounded
    intro n member
    obtain ⟨x, own, listed⟩ := Data.mem_numbersItems.1 member
    exact ih x own (bounded x own) n listed
  | obj fields ih =>
    obtain ⟨-, -, values⟩ := bounded
    rw [Value.boundedEntries_iff, Value.ofFields_eq, List.forall_mem_map] at values
    intro n member
    obtain ⟨f, own, listed⟩ := Data.mem_numbersFields.1 member
    exact ih f own (values f own) n listed
  | int i =>
    intro n member
    rw [Data.numbers, List.mem_singleton] at member
    rw [member]
    exact bounded
  | float x =>
    intro n member
    rw [Data.numbers, List.mem_singleton] at member
    rw [member]
    exact bounded
  | null => simp [Data.numbers]
  | bool b => simp [Data.numbers]
  | str s => simp [Data.numbers]

/-! ### Records among decoded data -/

theorem lookup_ofFields {name : String} {fields : List Field} {v : Value}
    (found : Durable.lookup name (Value.ofFields fields) = some v) :
    ∃ x, (Points.ofString name, x) ∈ fields ∧ v = .ofData x := by
  induction fields with
  | nil => cases found
  | cons f fs ih =>
    obtain ⟨k, x⟩ := f
    rw [Value.ofFields, Durable.lookup] at found
    split at found
    next same => exact ⟨x, by simp [same], (Option.some.inj found).symm⟩
    next other =>
      obtain ⟨y, member, value⟩ := ih found
      exact ⟨y, by simp [member], value⟩

theorem lookup_of_mem (name : String) (x : Data) {fields : List Field}
    (distinct : (fields.map (·.1)).Nodup) (member : (Points.ofString name, x) ∈ fields) :
    Durable.lookup name (Value.ofFields fields) = some (.ofData x) := by
  induction fields with
  | nil => cases member
  | cons f fs ih =>
    obtain ⟨k, y⟩ := f
    rw [List.map_cons, List.nodup_cons] at distinct
    rw [Value.ofFields, Durable.lookup]
    rcases List.mem_cons.1 member with head | tail
    · obtain ⟨rfl, rfl⟩ := Prod.mk.inj head
      rw [if_pos rfl]
    · have other : k ≠ Points.ofString name := by
        rintro rfl
        exact distinct.1 (List.mem_map_of_mem (f := (·.1)) tail)
      rw [if_neg other]
      exact ih distinct.2 tail

/-- A dictionary of decoded data has exactly the names of a record in any order. -/
theorem namesExactly_of_perm {names : List String} {fields : List Field}
    (distinct : (fields.map (·.1)).Nodup) (order : (fields.map (·.1)).Perm (names.map Points.ofString)) :
    JournalFile.namesExactly names (Value.ofFields fields) = true := by
  rw [JournalFile.namesExactly, Bool.and_eq_true, List.all_eq_true, List.all_eq_true]
  constructor
  · intro e member
    rw [Value.ofFields_eq] at member
    obtain ⟨f, own, rfl⟩ := List.mem_map.1 member
    obtain ⟨name, listed, same⟩ := List.mem_map.1 (order.mem_iff.1 (List.mem_map_of_mem own))
    exact List.any_eq_true.2 ⟨name, listed, by simpa using same⟩
  · intro name listed
    obtain ⟨⟨k, x⟩, own, same⟩ := List.mem_map.1 (order.mem_iff.2 (List.mem_map_of_mem listed))
    obtain rfl : k = Points.ofString name := same
    rw [lookup_of_mem _ _ distinct own]
    rfl

private theorem sum_le_of_ones {α β : Type} {f : α → List β} {as : List α}
    (each : ∀ a ∈ as, 1 ≤ (f a).length) : as.length ≤ (as.map fun a => (f a).length).sum := by
  induction as with
  | nil => exact Nat.le_refl _
  | cons a as ih =>
    have head := each a (by simp)
    have tail := ih fun b member => each b (by simp [member])
    rw [List.length_cons, List.map_cons, List.sum_cons]
    omega

theorem unpaired_ofString (s : String) : (Points.ofString s).unpaired = true :=
  join_units_iff.1 (join_ofString s)

/-- A string is no longer than its source. -/
theorem length_le_escaped (s : Points) : s.length ≤ (escaped s).length := by
  induction s with
  | nil => exact Nat.le_refl _
  | cons c s ih =>
    have units : 1 ≤ c.units.length := by
      unfold CodePoint.units
      split <;> simp
    have own : c.units.length ≤ (c.units.flatMap CodeUnit.escape).length := by
      rw [List.length_flatMap]
      have each : ∀ u ∈ c.units, 1 ≤ u.escape.length := fun u _ => by
        unfold CodeUnit.escape
        split_ifs <;> simp
      have total := sum_le_of_ones each
      exact total
    rw [escaped_cons, List.length_cons, List.length_append]
    omega

/-- A record of short distinct names with bounded values is bounded. -/
theorem bounded_record {fields : List (String × Value)} {names : List String}
    (named : fields.map (·.1) = names) (few : names.length ≤ maxActionHashMappingEntries)
    (distinct : (names.map Points.ofString).Nodup)
    (short : ∀ name ∈ names, (Points.ofString name).length ≤ maxActionHashScalarCharacters)
    (values : ∀ f ∈ fields, f.2.Bounded) : (Value.dict (Durable.record fields)).Bounded := by
  subst named
  have keys : (Durable.record fields).map (·.1) = fields.map fun f => Value.str (Points.ofString f.1) := by
    rw [Durable.record, List.map_map]
    rfl
  rw [List.length_map] at few
  rw [List.forall_mem_map] at short
  refine ⟨by rw [Durable.record, List.length_map]; exact few, ⟨?_, ?_⟩, ?_⟩
  · rw [keys, List.forall_mem_map]
    intro f member
    refine ⟨short f member, by simp [Value.family?], ?_⟩
    rw [List.forall_mem_map]
    exact fun _ _ => rfl
  · rw [keys, List.map_map, List.pairwise_map]
    rw [List.map_map, List.Nodup, List.pairwise_map] at distinct
    refine distinct.imp fun {f g} apart => ?_
    simpa [Value.keyCopy, Key.same] using Ne.symm apart
  · rw [Value.boundedEntries_iff, Durable.record, List.forall_mem_map]
    exact values

namespace JournalFile

variable {sha : TextHash} {chunking : Chunking} {literals : Durable.Literals}
  {supply supply' : Durable.Supply literals}

theorem snapshotPayload_ok_iff {payload prepared : List Entry} {hash : String} :
    snapshotPayload sha chunking payload = .ok (prepared, hash) ↔
      Hashable maxOperationJournalBytes (.dict payload) ∧ prepared ≠ [] ∧
        (Value.dict payload).snapshot = .dict prepared ∧ hash = digest sha (.dict payload) := by
  simp only [snapshotPayload, bind_ok_iff, mapError_ok_iff, Prod.exists,
    authoritySnapshot_ok_iff (show 1 ≤ maxOperationJournalBytes by decide)
      (show maxOperationJournalBytes ≤ maxActionHashCanonicalBytes by decide)]
  constructor
  · rintro ⟨snapshot, digest, ⟨hashable, rfl, rfl⟩, decoded⟩
    split at decoded
    next e es shape =>
      obtain ⟨rfl, rfl⟩ := Prod.mk.inj (pure_ok_iff.1 decoded)
      exact ⟨hashable, by simp, shape, rfl⟩
    · cases decoded
  · rintro ⟨hashable, some, shape, rfl⟩
    refine ⟨_, _, ⟨hashable, rfl, rfl⟩, ?_⟩
    rw [shape]
    cases prepared with
    | nil => exact absurd rfl some
    | cons e es => rfl

theorem snapshotOperation_ok_iff {raw operation : List Entry} :
    snapshotOperation sha chunking raw = .ok operation ↔
      Hashable maxOperationJournalBytes (.dict raw) ∧
        (Value.dict raw).snapshot = .dict operation := by
  simp only [snapshotOperation, bind_ok_iff, mapError_ok_iff, Prod.exists,
    authoritySnapshot_ok_iff (show 1 ≤ maxOperationJournalBytes by decide)
      (show maxOperationJournalBytes ≤ maxActionHashCanonicalBytes by decide)]
  constructor
  · rintro ⟨snapshot, digest, ⟨hashable, rfl, rfl⟩, decoded⟩
    split at decoded
    next entries shape =>
      obtain rfl := pure_ok_iff.1 decoded
      exact ⟨hashable, shape⟩
    · cases decoded
  · rintro ⟨hashable, shape⟩
    refine ⟨_, _, ⟨hashable, rfl, rfl⟩, ?_⟩
    rw [shape]
    rfl

/-- The payload of an operation that was read is a part of the document. -/
theorem fromDict_payload {fields : List Field} {operation : JournalOperation}
    (read : fromDict sha chunking literals supply (Value.ofFields fields) = .ok operation) :
    ∃ z, (Points.ofString "payload", z) ∈ fields ∧ operation.payload = .ofData z := by
  simp only [fromDict, bind_ok_iff] at read
  obtain ⟨entries, snapshot, -, -, _, -, -, -, _, -, -, -, _, -, -, -, read⟩ := read
  obtain ⟨-, shape⟩ := snapshotOperation_ok_iff.1 snapshot
  have same : Value.ofFields fields = entries :=
    Value.dict.inj ((Value.snapshot_ofData (.obj fields)).symm.trans shape)
  subst same
  split at read
  next e es found =>
    obtain ⟨z, member, value⟩ := lookup_ofFields found
    simp only [bind_ok_iff, Prod.exists] at read
    obtain ⟨prepared, hash, payload, -, -, -, -, adopted⟩ := read
    obtain ⟨-, -, copy, -⟩ := snapshotPayload_ok_iff.1 payload
    obtain rfl := pure_ok_iff.1 adopted
    refine ⟨z, member, ?_⟩
    have kept : Value.dict prepared = .ofData z := by
      rw [← copy, value, Value.snapshot_ofData]
    show (Value.dict prepared).listed = .ofData z
    rw [kept, Value.listed_ofData]
  · cases read

/-- The fields that an operation is written as. -/
private def operationData (operation : JournalOperation) (payload : Data) : List Field := [
  (Points.ofString "operation_id", .str operation.operationId),
  (Points.ofString "kind", .str operation.kind),
  (Points.ofString "prepared_at", .str operation.preparedAt),
  (Points.ofString "payload", payload),
  (Points.ofString "payload_hash", .str operation.payloadHash)]

private def stateData (active : Data) : List Field := [
  (Points.ofString "schema_name", .str (Points.ofString journalSchema)),
  (Points.ofString "schema_version", .str (Points.ofString journalVersion)),
  (Points.ofString "active", active)]

private theorem operationData_names (operation : JournalOperation) (payload : Data) :
    ((operationData operation payload).map (·.1)) = operationFields.map Points.ofString := rfl

private theorem stateData_names (active : Data) :
    ((stateData active).map (·.1)) = stateFields.map Points.ofString := rfl

private abbrev sortedFields (fields : List Field) : List Field := fields.insertionSort Data.byName

private theorem written_toDict (operation : JournalOperation) :
    operation.toDict.written canonicalText =
      .obj (sortedFields (operationData operation (operation.payload.written canonicalText))) :=
  Durable.written_record canonicalText _

private theorem written_state (operation : JournalOperation) :
    (stateDocument (some operation)).written canonicalText =
      .obj (sortedFields (stateData (operation.toDict.written canonicalText))) :=
  Durable.written_record canonicalText _

private theorem mem_sorted {fields : List Field} {f : Field} :
    f ∈ sortedFields fields ↔ f ∈ fields := List.mem_insertionSort _

/-- Reading the joined fields of a sorted record finds a field of the record. -/
private theorem mem_joined_sorted {fields : List Field} {name : String} {x : Data}
    (names : ∀ f ∈ fields, ∃ n, f.1 = Points.ofString n)
    (member : (Points.ofString name, x) ∈ Data.joinedFields (sortedFields fields)) :
    ∃ y, (Points.ofString name, y) ∈ fields ∧ x = y.joined := by
  rw [Data.joinedFields_eq] at member
  obtain ⟨f, own, same⟩ := List.mem_map.1 member
  obtain ⟨n, spelled⟩ := names f (mem_sorted.1 own)
  obtain ⟨name', rfl⟩ := Prod.mk.inj same
  rw [spelled, join_ofString] at name'
  refine ⟨f.2, ?_, rfl⟩
  rw [← name', ← spelled]
  exact mem_sorted.1 own

private theorem depth_field {fields : List Field} {k : Points} {x : Data}
    (member : (k, x) ∈ fields) : x.depth + 1 ≤ (Data.obj (sortedFields fields)).depth := by
  rw [Data.depth]
  exact Nat.succ_le_succ (Data.depthFields_le.1 (Nat.le_refl _) _ (mem_sorted.2 member))

/-- An operation that is read back as itself has a plain payload that is not nested too deeply. -/
private theorem plain_of_active {operation read : JournalOperation} {text : List Char}
    (written : text = ((stateDocument (some operation)).written canonicalText).render
      (Layout.indented 2) 0)
    (found : active sha chunking literals supply (some text) = .ok (some read))
    (same : operation.Same read) :
    ∃ y, operation.payload = .ofData y ∧ (∀ s ∈ y.strings, s.unpaired = true) ∧ y.depth ≤ 62 := by
  rw [written, written_state] at found
  simp only [active, bind_ok_iff, readJson_render] at found
  obtain ⟨raw, ⟨-, lexical, -, rfl⟩, found⟩ := found
  rw [Data.joined, Value.ofData] at found
  simp only [bind_ok_iff] at found
  obtain ⟨-, -, -, -, -, -, found⟩ := found
  split at found
  · cases found
  · cases found
  next operation' shape =>
    obtain ⟨read', decoded, equal⟩ := map_ok_iff.1 found
    obtain rfl := Option.some.inj equal
    -- the active operation of the document, joined
    obtain ⟨x, listed, value⟩ := lookup_ofFields shape
    obtain ⟨a, member, rfl⟩ := mem_joined_sorted (by simp [stateData]) listed
    have active : a = operation.toDict.written canonicalText := by
      simpa [stateData, show Points.ofString "active" ≠ Points.ofString "schema_name" by decide,
        show Points.ofString "active" ≠ Points.ofString "schema_version" by decide] using member
    rw [active, written_toDict, Data.joined, Value.ofData, Value.dict.injEq] at value
    rw [value] at decoded
    obtain ⟨z, listed', payload⟩ := fromDict_payload decoded
    obtain ⟨p, member', rfl⟩ := mem_joined_sorted (by simp [operationData]) listed'
    have own : p = operation.payload.written canonicalText := by
      simpa [operationData, show Points.ofString "payload" ≠ Points.ofString "operation_id" by decide,
        show Points.ofString "payload" ≠ Points.ofString "kind" by decide,
        show Points.ofString "payload" ≠ Points.ofString "prepared_at" by decide,
        show Points.ofString "payload" ≠ Points.ofString "payload_hash" by decide] using member'
    obtain ⟨y, plain, unpaired⟩ := plain_of_reread same.2.2.2.2 payload
    refine ⟨y, plain, unpaired, ?_⟩
    have inner := depth_field member'
    have outer := depth_field member
    have deep := lexical.depth
    have nested : p.depth = y.depth := by rw [own, plain, Value.written_ofData, Data.depth_sorted]
    rw [nested] at inner
    rw [active, written_toDict] at outer
    rw [written_toDict] at deep
    simp only [maxJsonNestingDepth] at deep
    omega
  · cases found

/-- The data of an operation with a plain payload. -/
private def plainOperation (operation : JournalOperation) (y : Data) : Data :=
  .obj (operationData operation y)

private theorem toDict_plain {operation : JournalOperation} {y : Data}
    (plain : operation.payload = .ofData y) :
    operation.toDict = .ofData (plainOperation operation y) := by
  rw [JournalOperation.toDict, plain]
  rfl

private theorem state_plain {operation : JournalOperation} {y : Data}
    (plain : operation.payload = .ofData y) :
    stateDocument (some operation) = .ofData (.obj (stateData (plainOperation operation y))) := by
  rw [stateDocument, Option.map_some, Option.getD_some, toDict_plain plain]
  rfl

private theorem bounded_operation {operation : JournalOperation} {y : Data}
    (plain : operation.payload = .ofData y) (bounded : (Value.ofData y).Bounded)
    (short : ∀ s ∈ (plainOperation operation y).strings, s.length ≤ maxActionHashScalarCharacters) :
    (Value.ofData (plainOperation operation y)).Bounded := by
  have text (name : String) {s : Points} (member : (Points.ofString name, Data.str s) ∈
      operationData operation y) : (Value.str s).Bounded :=
    short s (Data.mem_stringsFields.2 ⟨_, member, .inr (by simp [Data.strings])⟩)
  rw [← toDict_plain plain, JournalOperation.toDict]
  apply @bounded_record _ operationFields rfl
  · decide
  · decide
  · decide
  · simp only [List.forall_mem_cons, List.not_mem_nil, false_implies, implies_true, and_true]
    refine ⟨text "operation_id" ?_, text "kind" ?_, text "prepared_at" ?_, ?_,
      text "payload_hash" ?_⟩
    all_goals first
      | simp [operationData]
      | rw [plain]; exact bounded

/-- What is known of an operation with a plain payload once its document has been written. -/
private structure PlainlyWritten (operation : JournalOperation) (y : Data) : Prop where
  payload : operation.payload = .ofData y
  bounded : (Value.ofData y).Bounded
  unpaired : ∀ s ∈ (plainOperation operation y).strings, s.unpaired = true
  nested : y.depth ≤ 62
  fits : utf8Length (((stateDocument (some operation)).written canonicalText).render
    (Layout.indented 2) 0) ≤ maxOperationJournalBytes

namespace PlainlyWritten

variable {operation : JournalOperation} {y : Data} (held : PlainlyWritten operation y)
include held

/-- The document, sorted. -/
private theorem document : (stateDocument (some operation)).written canonicalText =
    (Data.obj (stateData (plainOperation operation y))).sorted := by
  rw [state_plain held.payload, Value.written_ofData]

private theorem length_le : ((Data.obj (stateData (plainOperation operation y))).sorted.render
    (Layout.indented 2) 0).length ≤ maxOperationJournalBytes := by
  have bytes := held.fits
  rwa [held.document, utf8Length_ascii (Data.ascii_render _ _ 0)] at bytes

private theorem short : ∀ s ∈ (Data.obj (stateData (plainOperation operation y))).sorted.strings,
    (escaped s).length ≤ maxOperationJournalBytes :=
  fun _ member => (Data.escaped_length_le (Layout.indented 2) 0 member).trans held.length_le

omit held in
private theorem mem_strings {s : Points} (member : s ∈ (plainOperation operation y).strings) :
    s ∈ (Data.obj (stateData (plainOperation operation y))).sorted.strings := by
  rw [Data.mem_strings_sorted]
  exact Data.mem_stringsFields.2
    ⟨(Points.ofString "active", plainOperation operation y), by simp [stateData], .inr member⟩

private theorem boundedOperation : (Value.ofData (plainOperation operation y)).Bounded := by
  apply bounded_operation held.payload held.bounded
  intro s member
  have bytes := held.short s (mem_strings member)
  have chars := length_le_escaped s
  simp only [maxOperationJournalBytes, maxActionHashScalarCharacters] at bytes ⊢
  omega

private theorem boundedState :
    (Value.ofData (.obj (stateData (plainOperation operation y)))).Bounded := by
  rw [← state_plain held.payload]
  apply @bounded_record _ stateFields rfl
  · decide
  · decide
  · decide
  · simp only [List.forall_mem_cons, List.not_mem_nil, false_implies, implies_true, and_true,
      Option.map_some, Option.getD_some, toDict_plain held.payload]
    exact ⟨show (Points.ofString journalSchema).length ≤ maxActionHashScalarCharacters by decide,
      show (Points.ofString journalVersion).length ≤ maxActionHashScalarCharacters by decide,
      held.boundedOperation⟩

private theorem unpairedState :
    ∀ s ∈ (Data.obj (stateData (plainOperation operation y))).strings, s.unpaired = true := by
  intro s member
  obtain ⟨f, own, inside⟩ := Data.mem_stringsFields.1 member
  simp only [stateData, List.mem_cons, List.not_mem_nil, or_false] at own
  rcases own with rfl | rfl | rfl
  · rcases inside with rfl | inside
    · exact unpaired_ofString _
    · rw [Data.strings, List.mem_singleton] at inside
      rw [inside]
      exact unpaired_ofString _
  · rcases inside with rfl | inside
    · exact unpaired_ofString _
    · rw [Data.strings, List.mem_singleton] at inside
      rw [inside]
      exact unpaired_ofString _
  · rcases inside with rfl | inside
    · exact unpaired_ofString _
    · exact held.unpaired s inside

/-- The text of the payload leaves room for at most this many tokens. -/
private theorem tokens_le : y.tokens ≤ 900000 := by
  have operation' : (Points.ofString "active", (plainOperation operation y).sorted) ∈
      sortedFields (Data.sortedFields (stateData (plainOperation operation y))) := by
    rw [mem_sorted]
    simp [stateData, Data.sortedFields]
  have payload : (Points.ofString "payload", y.sorted) ∈
      sortedFields (Data.sortedFields (operationData operation y)) := by
    rw [mem_sorted]
    simp [operationData, Data.sortedFields]
  have outer := Data.field_length_le (Layout.indented 2) 0 operation'
  have inner := Data.field_length_le (Layout.indented 2) 1 payload
  have dense := Data.tokens_le_indented (show 2 ≤ 1 + 1 by decide) y.sorted
  have total := held.length_le
  rw [Data.tokens_sorted] at dense
  simp only [maxOperationJournalBytes] at total
  exact Nat.le_of_mul_le_mul_left (dense.trans (Nat.add_le_add_right
    (inner.trans (outer.trans total)) 4) |>.trans (by decide)) (by decide : 0 < 5)

private theorem lexical : Lexical (Data.obj (stateData (plainOperation operation y))).sorted where
  depth := by
    have nested := held.nested
    rw [Data.depth_sorted]
    simp only [Data.depth, Data.depthFields, stateData, plainOperation, operationData,
      maxJsonNestingDepth]
    omega
  tokens := by
    have few := held.tokens_le
    rw [Data.tokens_sorted]
    simp only [Data.tokens, Data.tokensFields, stateData, plainOperation, operationData,
      maxJsonLexicalTokens]
    omega
  strings s member := (held.short s member).trans (by decide)
  numbers n member := by
    rw [Data.mem_numbers_sorted] at member
    exact numbers_of_bounded held.boundedState n member

private theorem hashableOperation :
    Hashable maxOperationJournalBytes (.ofData (plainOperation operation y).sorted) := by
  have operation' : (Points.ofString "active", (plainOperation operation y).sorted) ∈
      sortedFields (Data.sortedFields (stateData (plainOperation operation y))) := by
    rw [mem_sorted]
    simp [stateData, Data.sortedFields]
  have outer := Data.field_length_le (Layout.indented 2) 0 operation'
  have again := reread_plain held.boundedOperation (Value.snapshot_ofData _) held.unpaired
  have bounded := reread_bounded held.boundedOperation (by rw [again.1]; exact again.2)
  rw [reread, again.1] at bounded
  apply hashable_document bounded
  · have deep := held.nested
    rw [Data.depth_sorted]
    simp only [Data.depth, Data.depthFields, plainOperation, operationData, maxJsonNestingDepth]
    omega
  · have few := held.tokens_le
    rw [Data.tokens_sorted]
    simp only [Data.tokens, Data.tokensFields, plainOperation, operationData, maxJsonLexicalTokens]
    omega
  · exact (Data.text_length_le (Layout.indented 2) 1 _).trans (outer.trans held.length_le)

private theorem hashablePayload : Hashable maxOperationJournalBytes (.ofData y.sorted) := by
  have payload : (Points.ofString "payload", y.sorted) ∈
      sortedFields (Data.sortedFields (operationData operation y)) := by
    rw [mem_sorted]
    simp [operationData, Data.sortedFields]
  have inner := Data.field_length_le Layout.compact 0 payload
  have unpaired : ∀ s ∈ y.strings, s.unpaired = true := fun s member =>
    held.unpaired s (Data.mem_stringsFields.2
      ⟨(Points.ofString "payload", y), by simp [operationData], .inr member⟩)
  have again := reread_plain held.bounded (Value.snapshot_ofData _) unpaired
  have bounded := reread_bounded held.bounded (by rw [again.1]; exact again.2)
  rw [reread, again.1] at bounded
  apply hashable_document bounded
  · have deep := held.nested
    rw [Data.depth_sorted, maxJsonNestingDepth]
    omega
  · have few := held.tokens_le
    rw [Data.tokens_sorted, maxJsonLexicalTokens]
    omega
  · have bytes := held.hashableOperation.bytes
    rw [Value.written_ofData, Data.sorted_sorted] at bytes
    exact ((Data.text_length_le Layout.compact (0 + 1) _).trans inner).trans bytes

end PlainlyWritten

private theorem sorted_names {fields : List Field} {names : List String}
    (named : fields.map (·.1) = names.map Points.ofString) :
    ((sortedFields (Data.sortedFields fields)).map (·.1)).Perm (names.map Points.ofString) := by
  have names : (Data.sortedFields fields).map (·.1) = fields.map (·.1) := by
    rw [Data.sortedFields_eq, List.map_map]
    rfl
  rw [← named, ← names]
  exact (List.perm_insertionSort Data.byName (Data.sortedFields fields)).map (·.1)

private theorem exactText_of_mem (name : String) (s : Points) {fields : List Field}
    (distinct : (fields.map (·.1)).Nodup) (member : (Points.ofString name, Data.str s) ∈ fields) :
    exactText name (Value.ofFields fields) = some s := by
  rw [exactText, lookup_of_mem _ _ distinct member]
  rfl

private theorem digest_sorted (x : Data) : digest sha (.ofData x.sorted) = digest sha (.ofData x) := by
  rw [digest, digest, Value.written_ofData, Value.written_ofData, Data.sorted_sorted]

/-- A plain operation is read back from its data. -/
private theorem fromDict_plain {operation : JournalOperation} {y : Data} {kind fresh now : String}
    (held : PlainlyWritten operation y) (named : operation.kind = Points.ofString kind)
    (known : kind ∈ operationKinds) (id : operation.operationId = Points.ofString ("op_" ++ fresh))
    (time : operation.preparedAt = Points.ofString now) (some : now ≠ "")
    (object : ∃ f fs, y.sorted = .obj (f :: fs))
    (hash : operation.payloadHash = Points.ofString (digest sha (.ofData y)))
    (valid : ∀ es, Value.ofData y.sorted = .dict es →
      validatePayload sha chunking literals supply operation.kind es = .ok ()) :
    ∃ read, fromDict sha chunking literals supply (Value.ofFields
        (sortedFields (Data.sortedFields (operationData operation y)))) = .ok read ∧
      operation.Same read := by
  set fields := sortedFields (Data.sortedFields (operationData operation y)) with fieldsEq
  have order : (fields.map (·.1)).Perm (operationFields.map Points.ofString) :=
    sorted_names (operationData_names operation y)
  have distinct : (fields.map (·.1)).Nodup := order.nodup_iff.2 (by decide)
  have listed (f : Field) (member : f ∈ Data.sortedFields (operationData operation y)) :
      f ∈ fields := mem_sorted.2 member
  have snapshot : snapshotOperation sha chunking (Value.ofFields fields) =
      .ok (Value.ofFields fields) :=
    snapshotOperation_ok_iff.2 ⟨held.hashableOperation, Value.snapshot_ofData (.obj fields)⟩
  have operationId := exactText_of_mem "operation_id" operation.operationId distinct
    (listed _ (by simp [operationData, Data.sortedFields, Data.sorted]))
  have kind' := exactText_of_mem "kind" operation.kind distinct
    (listed _ (by simp [operationData, Data.sortedFields, Data.sorted]))
  have preparedAt := exactText_of_mem "prepared_at" operation.preparedAt distinct
    (listed _ (by simp [operationData, Data.sortedFields, Data.sorted]))
  have payloadHash := exactText_of_mem "payload_hash" operation.payloadHash distinct
    (listed _ (by simp [operationData, Data.sortedFields, Data.sorted]))
  have payload := lookup_of_mem "payload" y.sorted distinct
    (listed _ (by simp [operationData, Data.sortedFields]))
  obtain ⟨f, fs, shape⟩ := object
  have entries : Value.ofData y.sorted =
      .dict ((Value.str f.1, Value.ofData f.2) :: Value.ofFields fs) := by
    rw [shape]
    rfl
  -- the payload read is its sorted self, and so is its digest's text
  have prepared : snapshotPayload sha chunking
      ((Value.str f.1, Value.ofData f.2) :: Value.ofFields fs) =
        .ok ((Value.str f.1, Value.ofData f.2) :: Value.ofFields fs, digest sha (.ofData y)) := by
    rw [snapshotPayload_ok_iff, ← entries, Value.snapshot_ofData, digest_sorted]
    exact ⟨held.hashablePayload, by simp, rfl, rfl⟩
  have isId : (Points.ofString "op_").isPrefixOf operation.operationId = true := by
    rw [id, List.isPrefixOf_iff_prefix]
    exact ⟨Points.ofString fresh, by simp [Points.ofString]⟩
  have isKind : operationKinds.all (fun k => Points.ofString k != operation.kind) = false := by
    rw [List.all_eq_false]
    exact ⟨kind, known, by simp [named]⟩
  have timed : operation.preparedAt ≠ [] := by
    rw [time]
    intro empty
    exact some (ofString_injective (t := "") empty)
  refine ⟨adopt operation.operationId operation.kind operation.preparedAt
    ((Value.str f.1, Value.ofData f.2) :: Value.ofFields fs)
      (Points.ofString (digest sha (.ofData y))), ?_, rfl, rfl, rfl, hash, ?_⟩
  · have valid := valid _ entries
    simp only [fromDict, snapshot, ok_bind, namesExactly_of_perm distinct order, operationId, kind',
      preparedAt, payloadHash, orRefuse, isId, isKind, payload, entries, prepared, valid]
    simp [refuseIf, timed, hash]
  · refine ⟨y, y.sorted, held.payload, ?_, (Data.sorted_sorted y).symm⟩
    show (Value.dict ((Value.str f.1, Value.ofData f.2) :: Value.ofFields fs)).listed = _
    rw [← entries, Value.listed_ofData]

/-- A plain operation is active in the file that was written for it. -/
private theorem active_plain {operation : JournalOperation} {y : Data} {kind fresh now : String}
    (held : PlainlyWritten operation y) (named : operation.kind = Points.ofString kind)
    (known : kind ∈ operationKinds) (id : operation.operationId = Points.ofString ("op_" ++ fresh))
    (time : operation.preparedAt = Points.ofString now) (some : now ≠ "")
    (object : ∃ f fs, y.sorted = .obj (f :: fs))
    (hash : operation.payloadHash = Points.ofString (digest sha (.ofData y)))
    (valid : ∀ es, Value.ofData y.sorted = .dict es →
      validatePayload sha chunking literals supply operation.kind es = .ok ()) :
    ∃ read, active sha chunking literals supply (Option.some (((stateDocument (Option.some operation)).written
        canonicalText).render (Layout.indented 2) 0)) = .ok (Option.some read) ∧
      operation.Same read := by
  obtain ⟨read, decoded, same⟩ := @fromDict_plain sha chunking literals supply _ _ _ _ _ held named known id time some
    object hash valid
  refine ⟨read, ?_, same⟩
  set fields := sortedFields (Data.sortedFields (stateData (plainOperation operation y))) with fieldsEq
  have shape : (stateDocument (Option.some operation)).written canonicalText = .obj fields :=
    held.document
  have again := reread_plain held.boundedState (Value.snapshot_ofData _) held.unpairedState
  rw [Value.written_ofData] at again
  have joined : (Data.obj fields).joined = .obj fields := again.1
  -- the file's text is read back as the value it was written from
  have raw : readJson fileName maxOperationJournalBytes ((Data.obj fields).render (Layout.indented 2) 0) =
      .ok (.ofData (.obj fields)) := by
    have bytes := held.fits
    rw [shape] at bytes
    exact readJson_render.2 ⟨bytes, held.lexical, by rw [joined]; exact again.2, by rw [joined]⟩
  have order : (fields.map (·.1)).Perm (stateFields.map Points.ofString) :=
    sorted_names (stateData_names _)
  have distinct : (fields.map (·.1)).Nodup := order.nodup_iff.2 (by decide)
  have listed (f : Field) (member : f ∈ Data.sortedFields (stateData (plainOperation operation y))) :
      f ∈ fields := mem_sorted.2 member
  have schemaName := exactText_of_mem "schema_name" (Points.ofString journalSchema) distinct
    (listed _ (by simp [stateData, Data.sortedFields, Data.sorted]))
  have schemaVersion := exactText_of_mem "schema_version" (Points.ofString journalVersion) distinct
      (listed _ (by simp [stateData, Data.sortedFields, Data.sorted]))
  have active' := lookup_of_mem "active" (plainOperation operation y).sorted distinct
    (listed _ (by simp [stateData, Data.sortedFields]))
  have supported : supportedJournalVersions.all (fun version =>
      Option.some (Points.ofString version) != Option.some (Points.ofString journalVersion)) = false := by
    decide
  have entries : Value.ofData (plainOperation operation y).sorted = .dict (Value.ofFields
      (sortedFields (Data.sortedFields (operationData operation y)))) := rfl
  have names := namesExactly_of_perm distinct order
  rw [shape]
  simp only [active, raw, ok_bind, Value.ofData, names, schemaName, schemaVersion, supported, active',
    entries, decoded]
  rfl

/-- What preparing an operation has checked and written. -/
theorem prepare_ok {file : Option (List Char)} {fresh now : String} {kind : Points}
    {payload : List Entry} {operation : JournalOperation} {text : List Char}
    (prepared : prepare sha chunking literals supply file fresh now kind payload = .ok (operation, text)) :
    ∃ copy k, k ∈ operationKinds ∧ kind = Points.ofString k ∧ copy ≠ [] ∧
      Hashable maxOperationJournalBytes (.dict payload) ∧
      (Value.dict payload).snapshot = .dict copy ∧ validatePayload sha chunking literals supply kind copy = .ok () ∧
      operation = adopt (Points.ofString ("op_" ++ fresh)) kind (Points.ofString now) copy
        (Points.ofString (digest sha (.dict payload))) ∧
      text = ((stateDocument (some operation)).written canonicalText).render (Layout.indented 2) 0 ∧
      utf8Length text ≤ maxOperationJournalBytes := by
  simp only [prepare, bind_ok_iff, pure_ok_iff, Prod.mk.injEq] at prepared
  obtain ⟨_, made, _, -, -, -, _, written, rfl, rfl⟩ := prepared
  simp only [prepareOperation, bind_ok_iff, refuseIf_ok_iff, pure_ok_iff, Prod.exists,
    Bool.not_eq_true, List.all_eq_false] at made
  obtain ⟨-, -, -, ⟨k, known, named⟩, -, -, copy, hash, snapshot, ⟨⟩, valid, rfl⟩ := made
  obtain ⟨hashable, some, shape, rfl⟩ := snapshotPayload_ok_iff.1 snapshot
  simp only [write, atomicWriteJson, bind_ok_iff, mapError_ok_iff, refuseIf_ok_iff, pure_ok_iff,
    not_lt] at written
  obtain ⟨document, dumped, -, fits, rfl⟩ := written
  obtain rfl := @dumps_refuse canonicalText _ _ dumped
  have same : kind = Points.ofString k := (bne_eq_false_iff_eq.1 named).symm
  exact ⟨copy, k, known, same, some, hashable, shape, valid, rfl, rfl, fits⟩

/-- A prepared operation is active again exactly when its payload has text keys, no code point
spelled as two surrogates, and at most 62 nested containers. -/
theorem active_prepare_iff {file : Option (List Char)} {fresh now : String} {kind : Points}
    {payload : List Entry} {operation : JournalOperation} {text : List Char} (timed : now ≠ "")
    (prepared : prepare sha chunking literals supply file fresh now kind payload = .ok (operation, text)) :
    (∃ read, active sha chunking literals supply' (some text) = .ok (some read) ∧ operation.Same read) ↔
      ∃ y, operation.payload = .ofData y ∧ (∀ s ∈ y.strings, s.unpaired = true) ∧ y.depth ≤ 62 := by
  obtain ⟨copy, k, known, rfl, some, hashable, shape, valid, adopted, rfl, fits⟩ := prepare_ok prepared
  constructor
  · rintro ⟨read, found, same⟩
    exact plain_of_active rfl found same
  · rintro ⟨y, plain, unpaired, nested⟩
    have copied : operation.payload = (Value.dict copy).listed := by
      rw [adopted]
      rfl
    -- what `prepare` has accepted it accepts again in the shape the file gives it
    have bounded : (Value.ofData y).Bounded := by
      rw [← plain, copied, ← shape]
      exact hashable.admissible.bounded.snapshot.listed
    have document : (Value.dict payload).written canonicalText = y.sorted := by
      rw [← hashable.admissible.bounded.written_snapshot canonicalText, shape,
        ← Value.written_listed, ← copied, plain, Value.written_ofData]
    have hash : digest sha (.dict payload) = digest sha (.ofData y) := by
      rw [digest, digest, document, Value.written_ofData]
    have strings : ∀ s ∈ (plainOperation operation y).strings, s.unpaired = true := by
      intro s member
      obtain ⟨f, own, inside⟩ := Data.mem_stringsFields.1 member
      simp only [operationData, adopted, adopt, List.mem_cons, List.not_mem_nil, or_false] at own
      rcases own with rfl | rfl | rfl | rfl | rfl
      all_goals rcases inside with rfl | inside
      all_goals first
        | exact unpaired_ofString _
        | exact unpaired s inside
        | rw [Data.strings, List.mem_singleton] at inside
          rw [inside]
          exact unpaired_ofString _
    have held : PlainlyWritten operation y := ⟨plain, bounded, strings, nested, fits⟩
    have valid' (es : List Entry) (entries : Value.ofData y.sorted = .dict es) :
        validatePayload sha chunking literals supply' operation.kind es = .ok () := by
      have distinct := Value.distinct_of_bounded bounded
      have read : Value.ReadAs (.dict copy) (.ofData y.sorted) :=
        ⟨y, y.sorted, by rw [← copied, plain], rfl, (Data.sorted_sorted y).symm, distinct,
          Data.distinct_sorted.2 distinct⟩
      obtain ⟨others, shape, reads⟩ := read.dict
      obtain rfl := Value.dict.inj (entries.symm.trans shape)
      rw [adopted]
      exact validatePayload_read reads valid
    -- an empty payload is refused before anything is written
    have object : ∃ f fs, y.sorted = .obj (f :: fs) := by
      rw [plain, Value.listed_dict] at copied
      cases y with
      | obj fields =>
        cases fields with
        | nil =>
          rw [Value.ofData, Value.dict.injEq, Value.ofFields] at copied
          exact absurd (List.map_eq_nil_iff.1 copied.symm) some
        | cons f fs =>
          have length := (List.perm_insertionSort Data.byName
            (Data.sortedFields (f :: fs))).length_eq
          rw [Data.sorted]
          cases sorted : (Data.sortedFields (f :: fs)).insertionSort Data.byName with
          | nil =>
            rw [sorted, Data.sortedFields_eq] at length
            simp at length
          | cons g gs => exact ⟨g, gs, rfl⟩
      | _ => simp [Value.ofData] at copied
    exact active_plain held (by rw [adopted]; rfl) known (by rw [adopted]; rfl) (by rw [adopted]; rfl)
      timed object (by rw [adopted, ← hash]; rfl) valid'

end JournalFile
end DefiantHarness
