import DefiantHarness.JournalReading
import DefiantHarness.RecordReading

/-! Whether the state stores read back what they wrote. -/
namespace DefiantHarness

open Foundation

open Value (EntriesReadAs)

/-- Plain data inside the lexical ceilings of the strict reader. -/
def Readable (document : Value) : Prop := Lexical (document.written canonicalText) ∧ document.Plain

namespace StateStore

variable {sha : TextHash} {chunking : Chunking} {store : StateStore} {document fs : List Entry}

theorem storeSnapshot_ok_iff {value : Value} :
    store.storeSnapshot sha chunking value = .ok document ↔
      Hashable store.maximumBytes value ∧ value.snapshot = .dict document := by
  simp only [storeSnapshot, bind_ok_iff, mapError_ok_iff, Prod.exists,
    authoritySnapshot_ok_iff store.inRange.1 store.inRange.2]
  constructor
  -- the match on the snapshot only lets a dictionary through
  · rintro ⟨snapshot, digest, ⟨hashable, rfl, rfl⟩, decoded⟩
    split at decoded
    next entries shape =>
      obtain rfl := pure_ok_iff.1 decoded
      exact ⟨hashable, shape⟩
    · cases decoded
  · rintro ⟨hashable, shape⟩
    refine ⟨_, _, ⟨hashable, rfl, rfl⟩, ?_⟩
    rw [shape]
    rfl

/-- The text of a document. -/
def textOf (document : List Entry) : List Char :=
  ((Value.dict document).written canonicalText).render (Layout.indented 2) 0

theorem replace_ok {text : List Char} (replaced : store.replace document = .ok text) :
    text = textOf document ∧ utf8Length text ≤ store.maximumBytes := by
  simp only [replace, atomicWriteJson, bind_ok_iff, mapError_ok_iff, refuseIf_ok_iff, pure_ok_iff,
    not_lt] at replaced
  obtain ⟨x, dumped, -, fits, rfl⟩ := replaced
  obtain rfl := @dumps_refuse canonicalText _ _ dumped
  exact ⟨rfl, fits⟩

/-- What the file of a document is read as. -/
theorem readSnapshot_textOf (fits : utf8Length (textOf document) ≤ store.maximumBytes) :
    store.readSnapshot sha chunking (textOf document) = .ok fs ↔
      Lexical ((Value.dict document).written canonicalText) ∧
        ((Value.dict document).written canonicalText).joined.Distinct ∧
          Hashable store.maximumBytes (reread (Value.dict document)) ∧
            reread (Value.dict document) = .dict fs := by
  obtain ⟨fields, shape⟩ : ∃ fields, (Value.dict document).written canonicalText = .obj fields := ⟨_, rfl⟩
  rw [textOf, shape] at fits
  simp only [readSnapshot, bind_ok_iff, mapError_ok_iff, textOf, shape, readJson_render,
    storeSnapshot_ok_iff, reread]
  constructor
  · rintro ⟨data, ⟨-, lexical, distinct, rfl⟩, hashable, written⟩
    rw [Value.snapshot_ofData] at written
    exact ⟨lexical, distinct, hashable, written⟩
  · rintro ⟨lexical, distinct, hashable, written⟩
    exact ⟨_, ⟨fits, lexical, distinct, rfl⟩, hashable, by rw [Value.snapshot_ofData]; exact written⟩

/-- A readable document is read back. -/
theorem readSnapshot_readable (fits : utf8Length (textOf document) ≤ store.maximumBytes)
    (hashable : Hashable store.maximumBytes (.dict document)) (readable : Readable (.dict document)) :
    ∃ fs, store.readSnapshot sha chunking (textOf document) = .ok fs ∧
      Value.ReadAs (.dict document) (.dict fs) := by
  obtain ⟨lexical, x, shape, unpaired⟩ := readable
  have bounded := hashable.admissible.bounded
  have snapshot : (Value.dict document).snapshot = .ofData x := by rw [shape, Value.snapshot_ofData]
  -- without split code points, reading back changes the order of the entries and nothing else
  obtain ⟨joined, distinct⟩ := reread_plain bounded snapshot unpaired
  have own := reread_hashable hashable (by rw [joined]; exact distinct)
  have again : reread (Value.dict document) = .ofData x.sorted := by rw [reread, joined]
  obtain ⟨fields, form⟩ : ∃ fields, x.sorted = .obj fields := by
    rw [← joined]
    exact ⟨_, rfl⟩
  refine ⟨Value.ofFields fields,
    (readSnapshot_textOf fits).2 ⟨lexical, by rw [joined]; exact distinct, own, ?_⟩, ?_⟩
  · rw [again, form]
    rfl
  · rw [shape, show Value.dict (Value.ofFields fields) = .ofData x.sorted by rw [form]; rfl]
    exact Value.ReadAs.of_same (Data.sorted_sorted x).symm (Data.distinct_sorted.1 distinct)

/-- Every text of a document that was read is free of split code points. -/
theorem readSnapshot_unpaired (fits : utf8Length (textOf document) ≤ store.maximumBytes)
    (read : store.readSnapshot sha chunking (textOf document) = .ok fs) :
    Lexical ((Value.dict document).written canonicalText) ∧ (Value.dict fs).Plain := by
  obtain ⟨lexical, -, -, written⟩ := (readSnapshot_textOf fits).1 read
  -- the reader joins what is split, so what it returns has nothing split left
  exact ⟨lexical, _, written.symm, fun s member => Data.unpaired_joined member⟩

end StateStore
/-- The texts of a document are those of every document that it is equal to. -/
theorem strings_of_equals {x y : Data} (equal : x.equals y = true) {s : Points} (member : s ∈ x.strings) :
    s ∈ y.strings := by
  induction x using Data.induction_on generalizing y with
  | str t => cases y <;> simp_all [Data.equals, Data.strings]
  | arr items ih =>
    cases y with
    | arr others =>
      rw [Data.equals, Data.equalsItems_iff] at equal
      rw [Data.strings, Data.mem_stringsItems] at member ⊢
      obtain ⟨x, own, inside⟩ := member
      -- equal lists are equal position by position
      obtain ⟨i, bound, rfl⟩ := List.mem_iff_getElem.1 own
      have bound' : i < others.length := by rw [← equal.length_eq]; exact bound
      exact ⟨others[i], List.getElem_mem bound', ih _ own (equal.get bound bound') inside⟩
    | _ => simp [Data.equals] at equal
  | obj fields ih =>
    cases y with
    | obj others =>
      rw [Data.equals, Bool.and_eq_true, Data.equalsFields_iff] at equal
      rw [Data.strings, Data.mem_stringsFields] at member ⊢
      obtain ⟨f, own, inside⟩ := member
      -- equal dictionaries hold equal values under the same names
      obtain ⟨y, at_, same⟩ := equal.2 f own
      refine ⟨(f.1, y), mem_of_fieldAt at_, inside.imp id fun deep => ih f own same deep⟩
    | _ => simp [Data.equals] at equal
  | _ => simp [Data.strings] at member

namespace Durable

/-- A value whose data, if it is any, has no split code points. -/
def Whole (v : Value) : Prop := ∀ x, v = .ofData x → ∀ s ∈ x.strings, s.unpaired = true

theorem whole_text (s : String) : Whole (text s) := by
  intro x shape t member
  cases x <;> cases shape
  rw [Data.strings, List.mem_singleton] at member
  rw [member]
  exact unpaired_ofString s

theorem whole_of_plain {v : Value} (plain : v.Plain) : Whole v := by
  obtain ⟨x, rfl, unpaired⟩ := plain
  intro y shape
  obtain rfl := Value.ofData_injective shape
  exact unpaired

/-- What is equal to plain data has its texts only. -/
theorem whole_of_equals {n v : Value} (plain : v.Plain) (equal : n.equals v = true) : Whole n.listed := by
  obtain ⟨y, rfl, unpaired⟩ := plain
  intro x shape s member
  have listed := Value.equals_listed equal
  rw [shape, Value.listed_ofData, Value.equals_ofData] at listed
  exact unpaired s (strings_of_equals listed member)

/-- Data in the same order as whole data has no split code points. -/
theorem Whole.unpaired {x y : Data} (whole : Whole (.ofData y)) (order : x.Same y) :
    ∀ s ∈ x.strings, s.unpaired = true := by
  intro s member
  apply whole y rfl
  rw [← Data.mem_strings_sorted, ← show x.sorted = y.sorted from order, Data.mem_strings_sorted]
  exact member

/-- The entries of plain data have whole names and plain values. -/
theorem plain_of_mem {es : List Entry} (plain : (Value.dict es).Plain) {e : Entry} (member : e ∈ es) :
    ∃ s : Points, e.1 = .str s ∧ s.unpaired = true ∧ e.2.Plain := by
  obtain ⟨x, shape, unpaired⟩ := plain
  obtain ⟨fields, rfl, rfl⟩ := Value.ofData_dict shape
  rw [Value.ofFields_eq] at member
  obtain ⟨f, own, rfl⟩ := List.mem_map.1 member
  refine ⟨f.1, rfl, unpaired f.1 ?_, f.2, rfl, fun s inside => unpaired s ?_⟩
  · rw [Data.strings, Data.mem_stringsFields]
    exact ⟨f, own, .inl rfl⟩
  · rw [Data.strings, Data.mem_stringsFields]
    exact ⟨f, own, .inr inside⟩

/-- A dictionary whose names and values are whole is whole. -/
theorem whole_dict {es : List Entry}
    (each : ∀ e ∈ es, ∀ k, e.1 = .str k → k.unpaired = true ∧ Whole e.2) : Whole (.dict es) := by
  intro x shape s member
  obtain ⟨named, rfl, rfl⟩ := Value.ofData_dict shape
  rw [Data.strings, Data.mem_stringsFields] at member
  obtain ⟨f, own, inside⟩ := member
  rw [Value.ofFields_eq, List.forall_mem_map] at each
  obtain ⟨key, value⟩ := each f own f.1 rfl
  rcases inside with rfl | inside
  · exact key
  · exact value f.2 rfl s inside

theorem whole_record {fields : List (String × Value)} (each : ∀ f ∈ fields, Whole f.2) :
    Whole (.dict (record fields)) := by
  apply whole_dict
  rw [record, List.forall_mem_map]
  rintro f own k key
  obtain rfl := Value.str.inj key
  exact ⟨unpaired_ofString f.1, each f own⟩

/-! ### Stores of records -/

namespace RecordStore

variable {α : Type} {literals : Literals} {sha : TextHash} {chunking : Chunking}
  {store : RecordStore literals α}

/-- What holds of a store whose records are rebuilt from what their durable forms are read back as, and
whose durable forms hold the texts that they were made from. -/
structure Rebuilds (store : RecordStore literals α) : Prop where
  again : ∀ supply supply' es fs a, store.load supply es = .ok a →
    EntriesReadAs (store.document a) fs → ∃ b, store.load supply' fs = .ok b ∧
      store.key b = store.key a ∧ Value.ReadAs (.dict (store.document a)) (.dict (store.document b))
  whole : ∀ supply es a, (Value.dict es).Plain → store.load supply es = .ok a →
    Whole (.dict (store.document a))

/-- The store's own read path accepts the file, and finds in it what was published. -/
def ReadsBack (sha : TextHash) (chunking : Chunking) (store : RecordStore literals α)
    (supply : Supply literals) (text : List Char) (data : List (Points × store.Sealed)) : Prop :=
  ∃ read, store.readAll sha chunking supply text = .ok read ∧
    (store.published data).Same (.dict (store.documentOf read))

/-- One record of the file is the one that was written. -/
theorem readEntry_read (rebuilds : store.Rebuilds) (supply : Supply literals) {k : Points}
    {record : store.Sealed} (named : k ≠ []) (keyed : store.key record.record = k) {w : Value}
    (read : Value.ReadAs (.dict (store.document record.record)) w) :
    ∃ b, store.readEntry supply (.str k, w) = .ok (k, b) ∧ Value.ReadAs w (.dict (store.document b)) := by
  obtain ⟨fs, rfl, entries⟩ := id read.dict
  obtain ⟨supply₀, es, made⟩ := record.made
  obtain ⟨b, loaded, key, again⟩ := rebuilds.again supply₀ supply es fs record.record made entries
  refine ⟨b, ?_, read.between again⟩
  -- the key is the identifier of the record, before and after
  simp only [readEntry, Value.exactText?, orRefuse, refuseIf_of_not named, ok_bind, loaded]
  rw [refuseIf_of_not (by rw [key, keyed]; simp)]
  rfl

theorem readEntry_ok {supply : Supply literals} {e : Entry} {r : Points × α}
    (read : store.readEntry supply e = .ok r) :
    ∃ raw, e = (.str r.1, .dict raw) ∧ store.load supply raw = .ok r.2 := by
  obtain ⟨k, v⟩ := e
  simp only [readEntry, bind_ok_iff, orRefuse_ok_iff, refuseIf_ok_iff] at read
  obtain ⟨key, text, _, -, read⟩ := read
  cases k with
  | str s =>
    obtain rfl := Option.some.inj text
    cases v with
    | dict raw =>
      simp only [bind_ok_iff, refuseIf_ok_iff, pure_ok_iff] at read
      obtain ⟨a, loaded, _, -, rfl⟩ := read
      exact ⟨raw, rfl, loaded⟩
    | _ => cases read
  | _ => cases text

/-- Records that are read from whole documents have whole documents. -/
theorem whole_of_read (rebuilds : store.Rebuilds) {supply : Supply literals} {fs : List Entry}
    {read : List (Points × α)} (plain : (Value.dict fs).Plain)
    (loaded : fs.mapM (store.readEntry supply) = .ok read) : Whole (.dict (store.documentOf read)) := by
  apply whole_dict
  rw [documentOf, List.forall_mem_map]
  rintro r member k key
  obtain rfl := Value.str.inj key
  -- each record that was read comes from an entry of the file
  obtain ⟨f, own, entry⟩ := source_of_made (mapM_ok_iff.1 loaded) member
  obtain ⟨raw, rfl, made⟩ := readEntry_ok entry
  obtain ⟨s, same, unpaired, inner⟩ := plain_of_mem plain own
  obtain rfl := Value.str.inj same
  exact ⟨unpaired, rebuilds.whole supply raw r.2 inner made⟩

/-- The records of a document are read from what it is read back as. -/
theorem mapM_readEntry (rebuilds : store.Rebuilds) (supply : Supply literals)
    {data : List (Points × store.Sealed)} {fs : List Entry}
    (keyed : ∀ e ∈ data, e.1 ≠ [] ∧ store.key e.2.record = e.1)
    (reads : Value.ReadAs (store.published data) (.dict fs)) :
    ∃ read, fs.mapM (store.readEntry supply) = .ok read ∧
      Value.ReadAs (.dict fs) (.dict (store.documentOf read)) := by
  obtain ⟨others, same, entries⟩ := id reads.dict
  obtain rfl := Value.dict.inj same
  obtain ⟨x, y, -, shape, -, -, distinct⟩ := reads
  obtain ⟨fields, rfl, rfl⟩ := Value.ofData_dict shape
  rw [Value.ofFields_eq] at entries ⊢
  -- each entry of the file comes from a record that was published under its key
  have each (f : Field) (member : f ∈ fields) : ∃ b,
      store.readEntry supply (.str f.1, .ofData f.2) = .ok (f.1, b) ∧
        Value.ReadAs (.ofData f.2) (.dict (store.document b)) := by
    obtain ⟨e, own, key, read⟩ := entries.origin _ (List.mem_map_of_mem member)
    rw [documentOf, List.map_map] at own
    obtain ⟨d, source, rfl⟩ := List.mem_map.1 own
    obtain ⟨named, held⟩ := keyed d source
    obtain same : d.1 = f.1 := Value.str.inj key
    rw [same] at named held
    exact readEntry_read rebuilds supply named held read
  obtain ⟨read, loaded, pairs⟩ : ∃ read : List (Points × α),
      (fields.map fun f => (Value.str f.1, Value.ofData f.2)).mapM (store.readEntry supply) = .ok read ∧
        List.Forall₂ (fun f r => f.1 = r.1 ∧ Value.ReadAs (.ofData f.2) (.dict (store.document r.2)))
          fields read := by
    simp only [mapM_ok_iff, List.forall₂_map_left_iff]
    clear entries distinct same shape
    induction fields with
    | nil => exact ⟨[], .nil, .nil⟩
    | cons f fs ih =>
      obtain ⟨head, tail⟩ := List.forall_mem_cons.1 each
      obtain ⟨b, loaded, own⟩ := head
      obtain ⟨read, more, pairs⟩ := ih tail
      exact ⟨(f.1, b) :: read, .cons loaded more, .cons ⟨rfl, own⟩ pairs⟩
  refine ⟨read, loaded, ?_⟩
  -- the records in the order of the file make a document that reads like the file
  have points : List.Forall₂ (fun f g => f.1 = g.1 ∧ Value.ReadAs f.2 g.2)
      (fields.map fun f => (f.1, Value.ofData f.2))
      (read.map fun r => (r.1, Value.dict (store.document r.2))) := by
    rw [List.forall₂_map_left_iff, List.forall₂_map_right_iff]
    exact pairs
  have apart : ((fields.map fun f => (f.1, Value.ofData f.2)).map (·.1)).Nodup := by
    rw [List.map_map]
    exact distinct.1
  have whole := readAs_fields points apart
  rw [List.map_map, List.map_map] at whole
  exact whole

/-- Records are read back exactly when their document is readable. -/
theorem readsBack_iff (rebuilds : store.Rebuilds) (supply : Supply literals)
    {data : List (Points × store.Sealed)} {text : List Char}
    (keyed : ∀ e ∈ data, e.1 ≠ [] ∧ store.key e.2.record = e.1)
    (written : store.write sha chunking data = .ok text) :
    store.ReadsBack sha chunking supply text data ↔ Readable (store.published data) := by
  simp only [write, bind_ok_iff, StateStore.storeSnapshot_ok_iff] at written
  obtain ⟨copy, ⟨hashable, snapshot⟩, replaced⟩ := written
  obtain ⟨rfl, fits⟩ := StateStore.replace_ok replaced
  have same : (Value.dict copy).written canonicalText = (store.published data).written canonicalText := by
    rw [← snapshot, hashable.admissible.bounded.written_snapshot]
  simp only [ReadsBack, readAll, bind_ok_iff]
  constructor
  -- what was read has no split code points, and the published document has the same texts
  · rintro ⟨read, ⟨fs, own, loaded⟩, x, y, shape, shape', order⟩
    obtain ⟨lexical, plain⟩ := StateStore.readSnapshot_unpaired fits own
    have whole := whole_of_read rebuilds plain loaded
    rw [shape'] at whole
    exact ⟨same ▸ lexical, x, shape, whole.unpaired order⟩
  · intro readable
    obtain ⟨-, x, shape, -⟩ := id readable
    -- plain data is its own snapshot
    have self : Value.dict copy = store.published data := by
      rw [← snapshot, shape, Value.snapshot_ofData]
    rw [← self] at hashable readable
    obtain ⟨fs, own, reads⟩ := @StateStore.readSnapshot_readable sha chunking _ _ fits hashable readable
    rw [self] at reads
    obtain ⟨read, loaded, again⟩ := mapM_readEntry rebuilds supply keyed reads
    exact ⟨read, ⟨fs, own, loaded⟩, (reads.trans again).same shape⟩

end RecordStore

/-! ### Approvals and executions -/

theorem plain_of_lookup {es : List Entry} (plain : (Value.dict es).Plain) {name : String} {v : Value}
    (found : lookup name es = some v) : v.Plain := by
  obtain ⟨x, shape, -⟩ := id plain
  obtain ⟨fields, rfl, rfl⟩ := Value.ofData_dict shape
  obtain ⟨y, member, rfl⟩ := lookup_ofFields found
  rw [Value.ofFields_eq] at plain
  obtain ⟨-, -, -, inner⟩ := plain_of_mem plain (List.mem_map_of_mem member)
  exact inner

theorem plain_field {es : List Entry} (plain : (Value.dict es).Plain) (name : String) {default : Value}
    (own : default.Plain) : (field es name default).Plain := by
  unfold field
  cases found : lookup name es with
  | none => exact own
  | some v => exact plain_of_lookup plain found

theorem plain_null : Value.null.Plain := ⟨.null, rfl, List.forall_mem_nil _⟩

theorem whole_listed {v : Value} (plain : v.Plain) : Whole v.listed := by
  obtain ⟨x, rfl, unpaired⟩ := plain
  rw [Value.listed_ofData]
  exact whole_of_plain ⟨x, rfl, unpaired⟩

/-- The plain form of a canonical contract has the texts of the contract. -/
theorem whole_of_contract {load : List Entry → Except HarnessError Value} {error : String → HarnessError}
    {name : String} {v n : Value} (plain : v.Plain) (made : contractSnapshot load error v name = .ok n) :
    Whole n.listed := by
  cases v with
  | dict raw =>
    simp only [contractSnapshot, bind_ok_iff, mapError_ok_iff, refuseIf_ok_iff, pure_ok_iff,
      Bool.not_eq_false] at made
    obtain ⟨n, -, _, equal, rfl⟩ := made
    exact whole_of_equals plain equal
  | _ => cases made

variable {literals : Literals} {sha : TextHash} {chunking : Chunking}

namespace ApprovalStore

private theorem plain_values {es : List Entry} (plain : (Value.dict es).Plain) (name : String) :
    (PendingApproval.values es name).Plain := by
  have defaults : (Value.dict (record PendingApproval.defaults)).Plain :=
    ⟨.obj [(.ofString "policy_ids", .arr []), (.ofString "expires_at", .str []),
      (.ofString "status", .str (.ofString "pending")), (.ofString "decided_by", .null),
      (.ofString "decided_at", .null), (.ofString "note", .str []),
      (.ofString "decision_attestation", .null), (.ofString "reserved_usd", .str (.ofString "0")),
      (.ofString "action_snapshot", .null), (.ofString "request_snapshot", .null),
      (.ofString "decision_snapshot", .null), (.ofString "execution_record_id", .str []),
      (.ofString "consumed_at", .null), (.ofString "execution_owner", .str []),
      (.ofString "execution_key", .str []), (.ofString "reconciliation_outcome", .str []),
      (.ofString "reconciled_by", .str []), (.ofString "reconciliation_note", .str []),
      (.ofString "reconciliation_started_at", .null),
      (.ofString "reconciliation_completed_at", .null),
      (.ofString "reconciliation_attestation", .null)], rfl, by decide +kernel⟩
  exact plain_field plain name (plain_field defaults name plain_null)

private theorem whole_of_optional {load : List Entry → Except HarnessError Value} {name : String}
    {v : Value} {n : Option Value} (plain : v.Plain)
    (made : PendingApproval.optionalContractSnapshot load v name = .ok n) :
    Whole (n.getD .null).listed := by
  rw [PendingApproval.optionalContractSnapshot, optionally] at made
  split at made
  · obtain rfl := pure_ok_iff.1 made
    exact whole_listed plain_null
  · obtain ⟨n, snapshot, rfl⟩ := map_ok_iff.1 made
    exact whole_of_contract plain snapshot

/-- Approvals are rebuilt from what is read back of them. -/
theorem rebuilds : (records sha chunking literals).Rebuilds where
  again supply supply' es fs a made entries := by
    obtain ⟨b, again, reads⟩ := PendingApproval.fromSnapshot_read supply'
      (PendingApproval.reading_of_document made entries) made
    refine ⟨b, again, ?_, reads.document⟩
    show b.approvalId = a.approvalId
    rw [reads.same]
  whole supply es a plain made := by
    simp only [records, PendingApproval.fromSnapshot, bind_ok_iff, pure_ok_iff] at made
    obtain ⟨_, -, _, -, _, -, _, -, _, -, action, h₁, request, h₂, decision, h₃, _, -, _, -, reserved, -,
      rfl⟩ := made
    have value := plain_values plain
    apply whole_record
    rw [List.forall_mem_map]
    intro name _
    unfold PendingApproval.stored
    split
    · exact whole_text _
    · split
      · exact whole_of_optional (value _) h₁
      · split
        · exact whole_of_optional (value _) h₂
        · split
          · exact whole_of_optional (value _) h₃
          · exact whole_listed (value name)

/-- Published approvals are read back exactly when their document is readable. -/
theorem readsBack_writeAll_iff {data : List (Points × (records sha chunking literals).Sealed)}
    {text : List Char} (written : writeAll sha chunking literals data = .ok text)
    (supply : Supply literals) :
    (records sha chunking literals).ReadsBack sha chunking supply text data ↔
      Readable ((records sha chunking literals).published data) := by
  simp only [writeAll, bind_ok_iff, checkAll_ok_iff, refuseIf_ok_iff, not_not] at written
  obtain ⟨_, keyed, written⟩ := written
  refine RecordStore.readsBack_iff rebuilds supply (fun e member => ?_) written
  obtain ⟨_, named, same⟩ := keyed e member
  exact ⟨named, same⟩

end ApprovalStore

namespace HookExecutionStore

/-- Executions are rebuilt from what is read back of them. -/
theorem rebuilds : (records sha chunking literals).Rebuilds where
  again supply supply' es fs a made entries := HookExecution.fromSnapshot_read supply' made entries
  whole supply es a plain made := by
    simp only [records, HookExecution.fromSnapshot, bind_ok_iff, pure_ok_iff] at made
    obtain ⟨_, -, _, -, action, h₁, request, h₂, decision, h₃, _, -, rfl⟩ := made
    have value (name : String) := plain_field plain name plain_null
    apply whole_record
    rw [List.forall_mem_map]
    intro name _
    unfold HookExecution.stored
    split
    · exact whole_of_contract (value _) h₁
    · split
      · exact whole_of_contract (value _) h₂
      · split
        · exact whole_of_contract (value _) h₃
        · exact whole_of_plain (value name)

private theorem named {supply : Supply literals} {es : List Entry} {a : HookExecution}
    (made : HookExecution.fromSnapshot sha chunking literals supply es = .ok a) : a.toolUseId ≠ [] := by
  simp only [HookExecution.fromSnapshot, HookExecution.checkFields, bind_ok_iff, pure_ok_iff,
    checkAll_ok_iff, refuseIf_ok_iff, Bool.not_eq_false] at made
  obtain ⟨_, -, _, ⟨_, filled', -⟩, _, -, _, -, _, -, _, -, rfl⟩ := made
  have own := filled' "tool_use_id" (by simp)
  intro empty
  rw [filled] at own
  cases text : (field es "tool_use_id" .null).exactText? <;> simp_all

/-- Published executions are read back exactly when their document is readable. -/
theorem readsBack_writeAll_iff {executions : List (records sha chunking literals).Sealed}
    {text : List Char} (written : writeAll sha chunking literals executions = .ok text)
    (supply : Supply literals) :
    (records sha chunking literals).ReadsBack sha chunking supply text
        (keyed sha chunking literals executions) ↔
      Readable ((records sha chunking literals).published (keyed sha chunking literals executions)) := by
  refine RecordStore.readsBack_iff rebuilds supply ?_ written
  rw [keyed, List.forall_mem_map]
  intro e _
  obtain ⟨supply, es, made⟩ := e.made
  exact ⟨named made, rfl⟩

end HookExecutionStore

namespace BudgetLedger

private theorem plain_setDefault {es : List Entry} (plain : (Value.dict es).Plain) (name : String) :
    (Value.dict (setDefault name (.dict []) es)).Plain := by
  unfold setDefault
  split
  · exact plain
  · obtain ⟨x, shape, unpaired⟩ := plain
    obtain ⟨fields, rfl, rfl⟩ := Value.ofData_dict shape
    -- an empty dictionary under a name of the ledger adds no text but the name
    refine ⟨.obj (fields ++ [(Points.ofString name, .obj [])]), ?_, fun s member => ?_⟩
    · rw [Value.ofData, Value.ofFields_eq, Value.ofFields_eq, List.map_append]
      rfl
    · rw [Data.strings, Data.mem_stringsFields] at member
      obtain ⟨f, own, inside⟩ := member
      rcases List.mem_append.1 own with there | last
      · exact unpaired s (Data.mem_stringsFields.2 ⟨f, there, inside⟩)
      · obtain rfl := List.mem_singleton.1 last
        rcases inside with rfl | inside
        · exact unpaired_ofString name
        · cases inside

/-- A published ledger is read back exactly when its document is readable, and inside the ceilings of the
snapshot as it was completed. -/
theorem validatedRead_write_iff {data : Value} {document : List Entry} {text : List Char}
    (accepted : accept sha chunking literals data = .ok document)
    (written : write sha chunking literals data = .ok text) :
    (∃ read, validatedRead sha chunking literals text = .ok read ∧
      (Value.dict document).Same (.dict read)) ↔
      Readable (.dict document) ∧ Hashable maxBudgetStateBytes (.dict document) := by
  rw [write, accepted, ok_bind] at written
  obtain ⟨rfl, fits⟩ := StateStore.replace_ok written
  simp only [accept, bind_ok_iff] at accepted
  obtain ⟨snapshot, -, valid⟩ := accepted
  simp only [validatedRead, bind_ok_iff]
  constructor
  -- the ledger that was read is the completed one, so its snapshot is that of the file
  · rintro ⟨read, ⟨fs, own, again⟩, x, y, shape, shape', order⟩
    obtain ⟨lexical, plain⟩ := StateStore.readSnapshot_unpaired fits own
    obtain ⟨-, -, hashable, -⟩ := (StateStore.readSnapshot_textOf fits).1 own
    obtain ⟨rfl, -⟩ := validate_ok_iff.1 again
    have whole : Whole (.dict (complete fs)) :=
      whole_of_plain (plain_setDefault (plain_setDefault plain _) _)
    rw [shape'] at whole
    have unpaired := whole.unpaired order
    refine ⟨⟨lexical, x, shape, unpaired⟩, ?_⟩
    have again : reread (Value.dict document) = .ofData x.sorted := by
      rw [reread, shape, Value.written_ofData, Data.joined_eq_self]
      exact fun s member => unpaired s ((Data.mem_strings_sorted x).1 member)
    rw [again] at hashable
    rw [shape]
    exact hashable.of_same (Data.sorted_sorted x)
  -- the completed document is complete when it is read, and sound as it was
  · rintro ⟨readable, hashable⟩
    obtain ⟨-, x, shape, -⟩ := id readable
    obtain ⟨fs, own, reads⟩ := @StateStore.readSnapshot_readable sha chunking _ _ fits hashable readable
    obtain ⟨others, same, entries⟩ := id reads.dict
    obtain rfl := Value.dict.inj same
    exact ⟨fs, ⟨fs, own, validate_read valid entries⟩, reads.same shape⟩

end BudgetLedger

end Durable
end DefiantHarness
