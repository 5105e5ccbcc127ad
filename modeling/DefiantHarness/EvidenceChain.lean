import DefiantHarness.EvidenceLog
import DefiantHarness.Foundation.HashChain
import DefiantHarness.PayloadBinding

/-! The hash chain over decoded evidence records: its head binds the whole history. -/
namespace DefiantHarness

open Foundation

/-- A record as it is read back: a dictionary with text keys. -/
abbrev DecodedRecord := Dict Points Value

namespace DecodedRecord

def get (record : DecodedRecord) (name : String) : Option Value :=
  record.lookup (Points.ofString name)

/-- The content of a field that holds a string. -/
def text (record : DecodedRecord) (name : String) : Option Points :=
  record.get name >>= Value.text?

def value (record : DecodedRecord) : Value :=
  .dict (record.entries.map fun e => (.str e.1, e.2))

/-- Everything except the record's own hash. -/
def body (record : DecodedRecord) : DecodedRecord :=
  record.erase (Points.ofString "record_hash")

/-- Equal as canonical JSON. -/
def SameJson (r s : DecodedRecord) : Prop :=
  ∃ text, canonicalJson r.value = .ok text ∧ canonicalJson s.value = .ok text

end DecodedRecord

/-- Why a chain is, or is not, intact, with the values that the report quotes. -/
inductive ChainDetail where
  | intact
  /-- The record carries another previous hash than expected. -/
  | preceding (index : Nat) (recordId : Option Value) (expected : Points) (carried : Option Value)
  /-- The content of the record does not match its own hash. -/
  | content (index : Nat) (recordId : Option Value)
  | unreadable (message : String)

structure ChainStatus where
  ok : Bool
  count : Nat
  brokenAt : Option Nat
  detail : ChainDetail

/-- What verification raises: a read error in complete-read mode, or data that cannot be hashed. -/
inductive VerifyFault where
  | unreadable (message : String)
  | unhashable (fault : HashFault)
deriving DecidableEq

section Verify

variable (sha : TextHash) (requireCompleteRead : Bool)

/-- Complete-read mode drains the records after a failure and raises read errors. -/
def drain (failure : ChainStatus) : List (Except String DecodedRecord) → Except VerifyFault ChainStatus
  | [] => pure failure
  | .error message :: _ => throw (.unreadable message)
  | .ok _ :: records => drain failure records

def firstFailure (failure : ChainStatus) (records : List (Except String DecodedRecord)) :
    Except VerifyFault ChainStatus :=
  if requireCompleteRead then drain failure records else pure failure

/-- Verify the records from one on, given the hash before it and its index. -/
def verifyRecordsFrom (previous : Points) (index : Nat) :
    List (Except String DecodedRecord) → Except VerifyFault ChainStatus
  | [] => pure ⟨true, index, none, .intact⟩
  | .error message :: _ =>
    if requireCompleteRead then throw (.unreadable message)
    else pure ⟨false, index, some index, .unreadable message⟩
  | .ok record :: records =>
    -- a broken link is reported even where a later line cannot be read, unless all must be
    if record.text "previous_record_hash" ≠ some previous then
      firstFailure requireCompleteRead ⟨false, index + 1, some index,
        .preceding index (record.get "record_id") previous (record.get "previous_record_hash")⟩ records
    else do
      let recomputed ← (sha256Of sha record.body.value).mapError VerifyFault.unhashable
      if record.text "record_hash" ≠ some (Points.ofString recomputed) then
        firstFailure requireCompleteRead ⟨false, index + 1, some index,
          .content index (record.get "record_id")⟩ records
      else verifyRecordsFrom (Points.ofString recomputed) (index + 1) records

/-- Verify a stream of records, which may end with a read error. -/
def verifyEvidenceRecords (records : List (Except String DecodedRecord)) :
    Except VerifyFault ChainStatus :=
  verifyRecordsFrom sha requireCompleteRead (Points.ofString genesis) 0 records

end Verify

/-- The hash of the last record, as a head check reads it. -/
def headHashUnchecked (records : List DecodedRecord) : Option Points :=
  match records.getLast? with
  | some last => if last.entries = [] then some (Points.ofString genesis) else last.text "record_hash"
  | none => some (Points.ofString genesis)

/-- The records verify. -/
def Verified (sha : TextHash) (requireCompleteRead : Bool) (records : List DecodedRecord) : Prop :=
  ∃ status, verifyEvidenceRecords sha requireCompleteRead (records.map .ok) = .ok status ∧
    status.ok = true

/-- The chain that verification checks. -/
def evidenceChain (sha : TextHash) : HashChain DecodedRecord Points where
  back record := record.text "previous_record_hash"
  own record := record.text "record_hash"
  content record := (sha256Of sha record.body.value).toOption.map Points.ofString

/-! ### Verification is the chain -/

section Linked

variable {sha : TextHash} {complete : Bool}

private theorem drain_not_ok {failure status : ChainStatus} (broken : failure.ok = false)
    {records : List (Except String DecodedRecord)} (run : drain failure records = .ok status) :
    status.ok = false := by
  induction records with
  | nil =>
    rw [pure_ok_iff.1 run]
    exact broken
  | cons record records ih =>
    cases record with
    | error message => cases run
    | ok record => exact ih run

private theorem failure_not_ok {failure status : ChainStatus} (broken : failure.ok = false)
    {records : List (Except String DecodedRecord)}
    (run : firstFailure complete failure records = .ok status) : status.ok = false := by
  unfold firstFailure at run
  split at run
  · exact drain_not_ok broken run
  · rw [pure_ok_iff.1 run]
    exact broken

/-- One record is accepted when it carries both hashes. -/
private theorem verify_cons {previous : Points} {index : Nat} {record : DecodedRecord}
    {records : List (Except String DecodedRecord)} {status : ChainStatus} (ok : status.ok = true) :
    verifyRecordsFrom sha complete previous index (.ok record :: records) = .ok status ↔
      record.text "previous_record_hash" = some previous ∧
        ∃ recomputed, sha256Of sha record.body.value = .ok recomputed ∧
          record.text "record_hash" = some (Points.ofString recomputed) ∧
          verifyRecordsFrom sha complete (Points.ofString recomputed) (index + 1) records =
            .ok status := by
  -- a record that does not link ends the run with a status that is not ok
  have refused {failure : ChainStatus} (broken : failure.ok = false)
      (run : firstFailure complete failure records = .ok status) : False := by
    rw [failure_not_ok broken run] at ok
    cases ok
  rw [verifyRecordsFrom]
  split
  next apart =>
    constructor
    · exact fun run => (refused rfl run).elim
    · exact fun linked => absurd linked.1 apart
  next linked =>
    rw [not_not] at linked
    simp only [bind_ok_iff, mapError_ok_iff, linked, true_and]
    constructor
    · rintro ⟨recomputed, hash, run⟩
      split at run
      next apart => exact (refused rfl run).elim
      next own => exact ⟨recomputed, hash, not_not.1 own, run⟩
    · rintro ⟨recomputed, hash, own, run⟩
      refine ⟨recomputed, hash, ?_⟩
      rw [if_neg (not_not.2 own)]
      exact run

/-- Verification succeeds exactly on chains, and counts their records. -/
theorem verifyRecordsFrom_iff {previous : Points} {index : Nat} {records : List DecodedRecord}
    {status : ChainStatus} :
    verifyRecordsFrom sha complete previous index (records.map .ok) = .ok status ∧ status.ok = true ↔
      (evidenceChain sha).Linked previous records ∧
        status = ⟨true, index + records.length, none, .intact⟩ := by
  -- the hash carried along and the index grow with the list, so both stay general
  induction records generalizing previous index with
  | nil =>
    rw [List.map_nil, verifyRecordsFrom, pure_ok_iff]
    constructor
    · rintro ⟨rfl, -⟩
      exact ⟨trivial, rfl⟩
    · rintro ⟨-, rfl⟩
      exact ⟨rfl, rfl⟩
  | cons record records ih =>
    rw [List.map_cons]
    constructor
    · rintro ⟨run, ok⟩
      obtain ⟨back, recomputed, hash, own, rest⟩ := (verify_cons ok).1 run
      obtain ⟨links, rfl⟩ := ih.1 ⟨rest, ok⟩
      refine ⟨⟨back, Points.ofString recomputed, ?_, own, links⟩, ?_⟩
      · simp [evidenceChain, hash, Except.toOption]
      · rw [List.length_cons, Nat.add_assoc, Nat.add_comm 1]
    · rintro ⟨⟨back, hash, content, own, links⟩, rfl⟩
      refine ⟨(verify_cons rfl).2 ⟨back, ?_⟩, rfl⟩
      simp only [evidenceChain, Option.map_eq_some_iff] at content
      obtain ⟨recomputed, hashed, rfl⟩ := content
      cases result : sha256Of sha record.body.value with
      | error e => simp [result, Except.toOption] at hashed
      | ok digest =>
        simp only [result, Except.toOption, Option.some.injEq] at hashed
        obtain rfl := hashed
        refine ⟨digest, rfl, own, (ih.2 ⟨links, ?_⟩).1⟩
        rw [List.length_cons, Nat.add_assoc, Nat.add_comm 1]

theorem verified_iff {records : List DecodedRecord} :
    Verified sha complete records ↔
      (evidenceChain sha).Linked (Points.ofString genesis) records := by
  constructor
  · rintro ⟨status, run, ok⟩
    exact (verifyRecordsFrom_iff.1 ⟨run, ok⟩).1
  · intro links
    exact ⟨_, verifyRecordsFrom_iff.2 ⟨links, rfl⟩⟩

end Linked

/-! ### Canonical JSON of a record -/

/-- A string is written as itself, whichever subclass it has. -/
theorem Value.written_text {v : Value} {s : Points} (money : Decimal → PlainDecimal)
    (text : v.text? = some s) : v.written money = .str s := by
  induction v using Value.induction_on with
  | str t => rw [written, Option.some.inj text]
  | member mixed v ih =>
    cases mixed with
    | false => cases text
    | true => exact ih text
  | null => cases text
  | bool b => cases text
  | int i => cases text
  | float x => cases text
  | nonFinite => cases text
  | decimal d => cases text
  | list items ih => cases text
  | tuple items ih => cases text
  | dict entries ih => cases text
  | foreign => cases text

private theorem dumps_text {v : Value} {s : Points} (text : v.text? = some s) :
    v.dumps .refuse = .ok (.str s) := by
  induction v using Value.induction_on with
  | str t => rw [Value.dumps, Option.some.inj text]; rfl
  | member mixed v ih =>
    cases mixed with
    | false => cases text
    | true => exact ih text
  | null => cases text
  | bool b => cases text
  | int i => cases text
  | float x => cases text
  | nonFinite => cases text
  | decimal d => cases text
  | list items ih => cases text
  | tuple items ih => cases text
  | dict entries ih => cases text
  | foreign => cases text

/-- A string has canonical JSON. -/
private theorem canonicalJson_of_text {v : Value} {s : Points} (text : v.text? = some s) :
    ∃ t, canonicalJson v = .ok t := by
  have dumped : ∃ safe, v.enumSafe = .ok safe ∧ safe.dumps .refuse = .ok (.str s) := by
    cases v with
    | str t => exact ⟨_, rfl, dumps_text text⟩
    | member mixed v =>
      cases mixed with
      | false => cases text
      | true => exact ⟨v, rfl, dumps_text text⟩
    | _ => cases text
  obtain ⟨safe, normalized, document⟩ := dumped
  exact ⟨_, by rw [canonicalJson, normalized, ok_bind, document, ok_bind]; rfl⟩

private abbrev named (fields : List (Sigma fun _ : Points => Value)) : List Entry :=
  fields.map fun e => (.str e.1, e.2)

private theorem named_families {fields : List (Sigma fun _ : Points => Value)} {safe : List Entry}
    {written : List (Key × Data)} (normalized : Value.enumSafeEntries (named fields) = .ok safe)
    (dumped : Value.dumpsEntries .refuse safe = .ok written) :
    ∀ e ∈ written, e.1.family = .string := by
  induction fields generalizing safe written with
  | nil =>
    obtain rfl := pure_ok_iff.1 normalized
    obtain rfl := pure_ok_iff.1 dumped
    simp
  | cons e fields ih =>
    simp only [List.map_cons, Value.enumSafeEntries, bind_ok_iff, pure_ok_iff] at normalized
    obtain ⟨v, -, rest, others, rfl⟩ := normalized
    simp only [Value.dumpsEntries, Value.key?, orRefuse, ok_bind, bind_ok_iff, pure_ok_iff] at dumped
    obtain ⟨x, -, tail, inner, rfl⟩ := dumped
    intro e member
    rcases List.mem_cons.1 member with rfl | member
    · rfl
    · exact ih others inner e member

/-- What encoding fields with text keys comes down to. -/
private theorem dumpsNamed_iff {fields : List (Sigma fun _ : Points => Value)} :
    (∃ safe written, Value.enumSafeEntries (named fields) = .ok safe ∧
        Value.dumpsEntries .refuse safe = .ok written) ↔
      ∀ e ∈ fields, ∃ text, canonicalJson e.2 = .ok text := by
  induction fields with
  | nil => simp [named, Value.enumSafeEntries, Value.dumpsEntries]
  | cons e fields ih =>
    obtain ⟨k, v⟩ := e
    simp only [List.map_cons, Value.enumSafeEntries, bind_ok_iff, pure_ok_iff, List.forall_mem_cons]
    rw [← ih]
    constructor
    · rintro ⟨_, _, ⟨safe, normalized, rest, others, rfl⟩, dumped⟩
      simp only [Value.dumpsEntries, Value.key?, orRefuse, ok_bind, bind_ok_iff, pure_ok_iff] at dumped
      obtain ⟨x, document, written, tail, rfl⟩ := dumped
      refine ⟨⟨x.render Layout.compact 0, ?_⟩, rest, written, others, tail⟩
      rw [canonicalJson, normalized, ok_bind, document, ok_bind]
      rfl
    · rintro ⟨⟨text, own⟩, rest, written, others, tail⟩
      simp only [canonicalJson, bind_ok_iff, pure_ok_iff] at own
      obtain ⟨safe, normalized, document, dumped, rfl⟩ := own
      refine ⟨_, (.str k, document) :: written, ⟨safe, normalized, rest, others, rfl⟩, ?_⟩
      simp [Value.dumpsEntries, Value.key?, orRefuse, dumped, tail]

/-- A dictionary with text keys has canonical JSON when each of its values does. -/
private theorem canonicalJson_named_iff {fields : List (Sigma fun _ : Points => Value)} :
    (∃ text, canonicalJson (.dict (named fields)) = .ok text) ↔
      ∀ e ∈ fields, ∃ text, canonicalJson e.2 = .ok text := by
  rw [← dumpsNamed_iff]
  simp only [canonicalJson, Value.enumSafe, bind_ok_iff, pure_ok_iff]
  constructor
  · rintro ⟨_, _, normalized, _, dumped, rfl⟩
    obtain ⟨safe, inner, rfl⟩ := map_ok_iff.1 normalized
    simp only [Value.dumps, bind_ok_iff] at dumped
    obtain ⟨written, fields, -⟩ := dumped
    exact ⟨safe, written, inner, fields⟩
  · rintro ⟨safe, written, normalized, fields⟩
    have families := named_families normalized fields
    -- the keys are all texts, so sorting them cannot mix families
    have one : oneFamily (written.map (·.1)) = true := by
      cases written with
      | nil => rfl
      | cons e es =>
        simp only [List.map_cons, oneFamily, List.all_map, List.all_eq_true, Function.comp_apply,
          beq_iff_eq]
        intro f member
        rw [families f (by simp [member]), families e (by simp)]
    have document : (Value.dict safe).dumps .refuse =
        .ok (.obj ((written.insertionSort byKey).map fun f => (f.1.name, f.2))) := by
      rw [Value.dumps, fields, ok_bind, refuseIf_of_not (by rw [one]; simp), ok_bind]
      rfl
    exact ⟨_, _, map_ok_iff.2 ⟨safe, normalized, rfl⟩, _, document, rfl⟩

/-! ### The content of a record determines it -/

/-- The fields that a record is written as. -/
private def fieldsOf (record : DecodedRecord) : List Field :=
  record.entries.map fun e => (e.1, e.2.written Decimal.plain)

private theorem written_value (record : DecodedRecord) :
    record.value.written Decimal.plain = .obj ((fieldsOf record).insertionSort Data.byName) := by
  have entries : Value.writtenEntries Decimal.plain (named record.entries) =
      (fieldsOf record).map fun f => (Key.str f.1, f.2) := by
    rw [Value.writtenEntries_eq, fieldsOf, List.map_map, List.map_map]
    rfl
  rw [DecodedRecord.value, Value.written, entries, sort_texts]

private theorem fieldsOf_names (record : DecodedRecord) :
    ((fieldsOf record).map (·.1)).Nodup := by
  rw [fieldsOf, List.map_map]
  exact record.nodupKeys

/-- Sorting does not depend on the order that distinct names are inserted in. -/
private theorem sort_perm {fs gs : List Field} (order : fs.Perm gs) (names : (fs.map (·.1)).Nodup) :
    fs.insertionSort Data.byName = gs.insertionSort Data.byName := by
  have total : Std.Total Data.byName := ⟨fun f g => le_total f.1 g.1⟩
  have trans : IsTrans Field Data.byName := ⟨fun _ _ _ => le_trans⟩
  apply @List.Perm.eq_of_pairwise _ Data.byName
  · intro f g left right below above
    have same : f.1 = g.1 := le_antisymm below above
    rw [List.mem_insertionSort] at left right
    exact List.inj_on_of_nodup_map names left (order.mem_iff.2 right) same
  · exact List.pairwise_insertionSort _ _
  · exact List.pairwise_insertionSort _ _
  · exact (List.perm_insertionSort _ _).trans (order.trans (List.perm_insertionSort _ _).symm)

/-- A record is written as its body with its own hash put in its place. -/
private theorem written_with_hash {record : DecodedRecord} {hash : Points}
    (own : record.text "record_hash" = some hash) :
    (record.value.written Decimal.plain).joined =
      .obj (Data.joinedFields (((fieldsOf record.body).insertionSort Data.byName).orderedInsert
        Data.byName (Points.ofString "record_hash", .str hash))) := by
  obtain ⟨v, found, text⟩ := Option.bind_eq_some_iff.1 own
  have member := AList.mem_lookup_iff.1 found
  obtain ⟨w, front, back, absent, shape, erased⟩ :=
    List.exists_of_kerase (List.mem_keys_of_mem member)
  have value : w = v := by
    have again : record.lookup (Points.ofString "record_hash") = some w := by
      rw [← Option.mem_def, AList.mem_lookup_iff, shape]
      simp
    exact Option.some.inj (again.symm.trans found)
  have order : (fieldsOf record).Perm
      ((Points.ofString "record_hash", .str hash) :: fieldsOf record.body) := by
    have body : record.body.entries = front ++ back := erased
    simp only [fieldsOf, shape, body, value, List.map_append, List.map_cons]
    rw [Value.written_text Decimal.plain text]
    exact List.perm_middle
  rw [written_value, sort_perm order (fieldsOf_names record), List.insertionSort_cons, Data.joined]

private abbrev joinedField (f : Field) : Field := (CodeUnit.join f.1.units, f.2.joined)

/-- Inserting under a plain name commutes with reading. -/
private theorem joined_orderedInsert {k : Points} (plain : k.plain = true) (x : Data)
    (fs : List Field) :
    Data.joinedFields (fs.orderedInsert Data.byName (k, x)) =
      (Data.joinedFields fs).orderedInsert Data.byName (joinedField (k, x)) := by
  have self : CodeUnit.join k.units = k := join_plain plain
  rw [Data.joinedFields_eq, Data.joinedFields_eq]
  apply List.map_orderedInsert
  · intro f _
    simp only [Data.byName, self, ← not_lt]
    rw [lt_join_iff plain]
  · intro f _
    simp only [Data.byName, self, ← not_lt]
    rw [join_lt_iff plain]

/-- A field of one body is a field of any body with the same text. -/
private theorem body_field {r s : DecodedRecord} {k : Points} {v : Value} (plain : k.plain = true)
    (same : (r.body.value.written Decimal.plain).joined = (s.body.value.written Decimal.plain).joined)
    (found : r.body.lookup k = some v) :
    ∃ w, s.body.lookup k = some w ∧
      (v.written Decimal.plain).joined = (w.written Decimal.plain).joined := by
  rw [written_value, written_value, Data.joined, Data.joined, Data.obj.injEq, Data.joinedFields_eq,
    Data.joinedFields_eq] at same
  have listed : (k, v.written Decimal.plain) ∈ (fieldsOf r.body).insertionSort Data.byName := by
    rw [List.mem_insertionSort]
    exact List.mem_map.2 ⟨⟨k, v⟩, AList.mem_lookup_iff.1 found, rfl⟩
  have field := List.mem_map_of_mem (f := joinedField) listed
  rw [same] at field
  obtain ⟨g, inside, equal⟩ := List.mem_map.1 field
  rw [List.mem_insertionSort] at inside
  obtain ⟨⟨k', w⟩, entry, rfl⟩ := List.mem_map.1 inside
  obtain ⟨name, value⟩ := Prod.mk.inj equal
  have self : CodeUnit.join k.units = k := join_plain plain
  obtain rfl := eq_of_join plain (name.trans self)
  exact ⟨w, AList.mem_lookup_iff.2 entry, value.symm⟩

/-! ### The head binds the history -/

/-- The hash is free of collisions on canonical texts and never gives the hash before the first
record. -/
structure CollisionFree (sha : TextHash) : Prop where
  injective : ∀ v w a b, canonicalJson v = .ok a → canonicalJson w = .ok b → sha a = sha b → a = b
  fresh : ∀ v, sha256Of sha v ≠ .ok genesis

/-- Values with one hash are written alike, up to surrogate pairs. -/
theorem CollisionFree.written {sha : TextHash} (hash : CollisionFree sha) {v w : Value} {d : String}
    (left : sha256Of sha v = .ok d) (right : sha256Of sha w = .ok d) :
    (v.written Decimal.plain).joined = (w.written Decimal.plain).joined := by
  simp only [sha256Of, bind_ok_iff, pure_ok_iff] at left right
  obtain ⟨a, text, rfl⟩ := left
  obtain ⟨b, text', same⟩ := right
  have digests := congrArg String.toList same
  rw [String.toList_append, String.toList_append, List.append_cancel_left_eq] at digests
  have texts := hash.injective _ _ a b text text' (String.toList_injective digests)
  apply (Data.render_eq_iff Layout.compact).1
  exact (canonicalJson_text text).symm.trans (texts.trans (canonicalJson_text text'))

private theorem content_iff {sha : TextHash} {record : DecodedRecord} {hash : Points} :
    (evidenceChain sha).content record = some hash ↔
      ∃ digest, sha256Of sha record.body.value = .ok digest ∧ hash = Points.ofString digest := by
  simp only [evidenceChain, Option.map_eq_some_iff]
  cases sha256Of sha record.body.value <;> simp [Except.toOption, eq_comm]

/-- Records with one hash have one canonical text for their bodies. -/
private theorem body_text {sha : TextHash} (hash : CollisionFree sha) {r s : DecodedRecord}
    {digest : Points} (left : (evidenceChain sha).content r = some digest)
    (right : (evidenceChain sha).content s = some digest) :
    (∃ text, canonicalJson r.body.value = .ok text) ∧ (∃ text, canonicalJson s.body.value = .ok text) ∧
      (r.body.value.written Decimal.plain).joined = (s.body.value.written Decimal.plain).joined := by
  obtain ⟨d, hashed, rfl⟩ := content_iff.1 left
  obtain ⟨e, hashed', same⟩ := content_iff.1 right
  obtain rfl := ofString_injective same
  have written := hash.written hashed hashed'
  simp only [sha256Of, bind_ok_iff] at hashed hashed'
  obtain ⟨a, text, -⟩ := hashed
  obtain ⟨b, text', -⟩ := hashed'
  exact ⟨⟨a, text⟩, ⟨b, text'⟩, written⟩

private theorem canonicalJson_with_hash {record : DecodedRecord} {hash : Points}
    (own : record.text "record_hash" = some hash)
    (body : ∃ text, canonicalJson record.body.value = .ok text) :
    ∃ text, canonicalJson record.value = .ok text := by
  have each := canonicalJson_named_iff.1 body
  apply canonicalJson_named_iff.2
  rintro ⟨k, v⟩ member
  by_cases name : k = Points.ofString "record_hash"
  · obtain ⟨w, found, text⟩ := Option.bind_eq_some_iff.1 own
    have value : record.lookup k = some v := AList.mem_lookup_iff.2 member
    rw [name] at value
    obtain rfl := Option.some.inj (value.symm.trans found)
    exact canonicalJson_of_text text
  · apply each ⟨k, v⟩
    apply AList.mem_lookup_iff.1
    rw [Option.mem_def, DecodedRecord.body, AList.lookup_erase_ne name]
    exact AList.mem_lookup_iff.2 member

/-- A record is bound by its hash, with the hash of the record before it. -/
private theorem record_bound {sha : TextHash} (hash : CollisionFree sha) {r s : DecodedRecord}
    {digest p q : Points} (left : (evidenceChain sha).content r = some digest)
    (own : (evidenceChain sha).own r = some digest)
    (right : (evidenceChain sha).content s = some digest)
    (own' : (evidenceChain sha).own s = some digest) (back : (evidenceChain sha).back r = some p)
    (back' : (evidenceChain sha).back s = some q) :
    CodeUnit.join p.units = CodeUnit.join q.units ∧ r.SameJson s := by
  -- equal digests mean equal canonical texts of the two bodies
  obtain ⟨text, text', bodies⟩ := body_text hash left right
  constructor
  · obtain ⟨v, found, content⟩ := Option.bind_eq_some_iff.1 back
    obtain ⟨v', found', content'⟩ := Option.bind_eq_some_iff.1 back'
    have other : Points.ofString "previous_record_hash" ≠ Points.ofString "record_hash" := by decide
    have inside : r.body.lookup (Points.ofString "previous_record_hash") = some v := by
      rw [DecodedRecord.body, AList.lookup_erase_ne other]
      exact found
    obtain ⟨w, found'', equal⟩ := body_field (by decide) bodies inside
    rw [DecodedRecord.body, AList.lookup_erase_ne other] at found''
    obtain rfl := Option.some.inj (found'.symm.trans found'')
    rw [Value.written_text _ content, Value.written_text _ content'] at equal
    exact Data.str.inj equal
  · obtain ⟨t, json⟩ := canonicalJson_with_hash own text
    obtain ⟨t', json'⟩ := canonicalJson_with_hash own' text'
    -- the hash itself is not in the body: it is put back in the same place of both
    have same : t = t' := by
      rw [canonicalJson_text json, canonicalJson_text json']
      apply (Data.render_eq_iff Layout.compact).2
      rw [written_value, written_value, Data.joined, Data.joined, Data.obj.injEq] at bodies
      rw [written_with_hash own, written_with_hash own', joined_orderedInsert (by decide),
        joined_orderedInsert (by decide), bodies]
    exact ⟨t, json, same ▸ json'⟩

private theorem carried_joined {sha : TextHash} {p : Points}
    (carried : (evidenceChain sha).Carried (Points.ofString genesis) p) :
    CodeUnit.join p.units = p := by
  rcases carried with rfl | ⟨record, content⟩
  · exact join_ofString genesis
  · obtain ⟨digest, -, rfl⟩ := content_iff.1 content
    exact join_ofString digest

private theorem headHashUnchecked_of_linked {sha : TextHash} {records : List DecodedRecord}
    (links : (evidenceChain sha).Linked (Points.ofString genesis) records) :
    headHashUnchecked records = (evidenceChain sha).head (Points.ofString genesis) records := by
  unfold headHashUnchecked HashChain.head
  cases found : records.getLast? with
  | none => rfl
  | some last =>
    -- a linked record has fields, so the head check reads its hash
    obtain ⟨front, shape⟩ : ∃ front, records = front ++ [last] :=
      ⟨records.dropLast, (List.dropLast_append_getLast? last found).symm⟩
    rw [shape] at links
    obtain ⟨-, -, -, -, carried⟩ := HashChain.linked_concat.1 links
    have fields : last.entries ≠ [] := by
      intro empty
      obtain ⟨hash, own⟩ := Option.isSome_iff_exists.1 carried
      obtain ⟨v, found, -⟩ := Option.bind_eq_some_iff.1 own
      have member := AList.mem_lookup_iff.1 found
      rw [empty] at member
      cases member
    exact if_neg fields

/-- Two record lists that verify and have one head are the same, record by record, as canonical
JSON; so a list that differs from a verified one fails verification or has another head. -/
theorem evidence_chain_binds {sha : TextHash} (hash : CollisionFree sha)
    {records : List DecodedRecord} {complete : Bool} (verified : Verified sha complete records) :
    (∀ others complete', Verified sha complete' others →
      headHashUnchecked others = headHashUnchecked records →
        others.length = records.length ∧ List.Forall₂ DecodedRecord.SameJson records others) ∧
    ∀ edited complete', ¬ List.Forall₂ DecodedRecord.SameJson records edited →
      ¬ Verified sha complete' edited ∨ headHashUnchecked edited ≠ headHashUnchecked records := by
  have same (others : List DecodedRecord) (complete' : Bool) (other : Verified sha complete' others)
      (head : headHashUnchecked others = headHashUnchecked records) :
      List.Forall₂ DecodedRecord.SameJson records others := by
    have links := verified_iff.1 verified
    have links' := verified_iff.1 other
    rw [headHashUnchecked_of_linked links, headHashUnchecked_of_linked links'] at head
    -- from the head backwards: equal digests, then equal records and equal predecessors
    apply links.unique ?_ ?_ links' head.symm
    · intro r s digest p q left own right own' back back' carried carried'
      obtain ⟨joined, json⟩ := record_bound hash left own right own' back back'
      rw [carried_joined carried, carried_joined carried'] at joined
      exact ⟨joined, json⟩
    · intro r content
      obtain ⟨digest, hashed, equal⟩ := content_iff.1 content
      rw [← ofString_injective equal] at hashed
      exact hash.fresh _ hashed
  constructor
  · intro others complete' other head
    have bound := same others complete' other head
    exact ⟨bound.length_eq.symm, bound⟩
  · intro edited complete' differs
    by_contra kept
    rw [not_or, not_not, not_not] at kept
    exact differs (same edited complete' kept.1 kept.2)

/-- A hash that keeps the text, under a mark of its own. -/
def markedHash : TextHash := fun text => String.ofList ('h' :: text)

theorem markedHash_collisionFree : CollisionFree markedHash where
  injective _ _ a b _ _ same := by
    have chars := congrArg String.toList same
    rw [markedHash, markedHash, String.toList_ofList, String.toList_ofList] at chars
    exact (List.cons.inj chars).2
  fresh v hashed := by
    simp only [sha256Of, bind_ok_iff, pure_ok_iff] at hashed
    obtain ⟨text, -, same⟩ := hashed
    have chars := congrArg (fun s => s.toList[7]?) same
    rw [show genesis.toList[7]? = some '0' from by decide, markedHash, String.toList_append] at chars
    exact absurd chars (by simp)

/-- The hash of a record that holds nothing but the hash before it. -/
def linkHash (previous : String) : String :=
  "sha256:" ++ markedHash (Data.obj [(Points.ofString "previous_record_hash",
    .str (Points.ofString previous))]).canonical

def linkRecord (previous : String) : DecodedRecord :=
  ((∅ : DecodedRecord).set (Points.ofString "previous_record_hash") (.str (Points.ofString previous))).set
    (Points.ofString "record_hash") (.str (Points.ofString (linkHash previous)))

/-- A first record, and one behind it. -/
def linkedRecords : List DecodedRecord := [linkRecord genesis, linkRecord (linkHash genesis)]

/-- No edit of the two records verifies with their head, and whatever verifies with it are two records. -/
theorem evidence_chain_binds_first : Verified markedHash false linkedRecords ∧
    (∀ edited, ¬ List.Forall₂ DecodedRecord.SameJson linkedRecords edited →
      ¬ Verified markedHash false edited ∨ headHashUnchecked edited ≠ headHashUnchecked linkedRecords) ∧
    ∀ others, Verified markedHash false others →
      headHashUnchecked others = headHashUnchecked linkedRecords → others.length = 2 := by
  have accepted : (verifyEvidenceRecords markedHash false (linkedRecords.map .ok)).toOption.map (·.ok) =
      some true := by decide +kernel
  have verified : Verified markedHash false linkedRecords := by
    cases run : verifyEvidenceRecords markedHash false (linkedRecords.map .ok) with
    | error e =>
      rw [run] at accepted
      cases accepted
    | ok status =>
      rw [run] at accepted
      exact ⟨status, run, Option.some.inj accepted⟩
  have binds := evidence_chain_binds markedHash_collisionFree verified
  exact ⟨verified, fun edited differs => binds.2 edited false differs,
    fun others other head => (binds.1 others false other head).1⟩

end DefiantHarness
