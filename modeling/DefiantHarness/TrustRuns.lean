import DefiantHarness.TrustChain

/-! Runs of enrollment and rotation: what the store writes is read back, and trust only grows. -/
namespace DefiantHarness

open Foundation

namespace TrustState

open Data (arranged fieldAt_arranged arranged_names_perm)

/-! ### Later clocks -/

section Later

variable {Instant : Type} [LinearOrder Instant] {clock : WallClock Instant} {now later : Instant}
  {sha : TextHash} {chunking : Chunking}

theorem timestamp_later (order : now ≤ later) {value : Option Data} {field : String} {time : Instant}
    (read : timestamp clock now value field = .ok time) :
    timestamp clock later value field = .ok time := by
  unfold timestamp at read ⊢
  split at read
  · simp only [bind_ok_iff, refuseIf_ok_iff, not_lt, orRefuse_ok_iff] at read ⊢
    obtain ⟨_, short, parsed, found, zoned, aware, _, past, same⟩ := read
    exact ⟨(), short, parsed, found, zoned, aware, (), past.trans (clock.horizon_mono _ _ order), same⟩
  · cases read

theorem checkTransition_later (order : now ≤ later) {index : Nat} {b : Bindings}
    {previousHash : Points} {previousTime : Instant} {raw : Data} {result : TrustTransition × Instant}
    (read : checkTransition clock now sha index b previousHash previousTime raw = .ok result) :
    checkTransition clock later sha index b previousHash previousTime raw = .ok result := by
  simp only [checkTransition, bind_ok_iff] at read ⊢
  obtain ⟨parts, shape, candidate, bindings, _, additive, _, numbers, _, hashes, time, signedAt, rest⟩ := read
  exact ⟨parts, shape, candidate, bindings, (), additive, (), numbers, (), hashes, time,
    timestamp_later order signedAt, rest⟩

theorem checkTransitions_later (order : now ≤ later) {items : List Data} {index : Nat} {b : Bindings}
    {previousHash : Points} {previousTime : Instant}
    {result : List TrustTransition × Bindings × Points × Instant}
    (read : checkTransitions clock now sha index b previousHash previousTime items = .ok result) :
    checkTransitions clock later sha index b previousHash previousTime items = .ok result := by
  induction items generalizing index b previousHash previousTime result with
  | nil => exact read
  | cons raw rest ih =>
    simp only [checkTransitions, bind_ok_iff] at read ⊢
    obtain ⟨first, checked, others, checkedRest, same⟩ := read
    exact ⟨first, checkTransition_later order checked, others, ih checkedRest, same⟩

theorem Accepted.at_later (order : now ≤ later) {fields : List Field} {s : OperatorTrustState}
    {enrolled updated : Instant} (accepted : Accepted clock now sha fields s enrolled updated) :
    Accepted clock later sha fields s enrolled updated := by
  obtain ⟨items, found, few, count, checked⟩ := accepted.transitions
  exact { accepted with
    enrolledAt := timestamp_later order accepted.enrolledAt
    updatedAt := timestamp_later order accepted.updatedAt
    transitions := ⟨items, found, few, count, checkTransitions_later order checked⟩ }

/-- A document that has been read is read at every later time. -/
theorem fromDict_later (order : now ≤ later) {raw : Data} {s : OperatorTrustState}
    (read : OperatorTrustState.fromDict clock now sha chunking raw = .ok s) :
    OperatorTrustState.fromDict clock later sha chunking raw = .ok s := by
  obtain ⟨fields, enrolled, updated, shape, hashable, accepted⟩ := fromDict_ok_iff.1 read
  exact fromDict_ok_iff.2 ⟨fields, enrolled, updated, shape, hashable, accepted.at_later order⟩

theorem get_later (order : now ≤ later) {file : Option (List Char)} {s : Option OperatorTrustState}
    (read : get clock now sha chunking file = .ok s) : get clock later sha chunking file = .ok s := by
  cases file with
  | none => exact read
  | some text =>
    simp only [get, bind_ok_iff] at read ⊢
    obtain ⟨raw, decoded, state, accepted, same⟩ := read
    exact ⟨raw, decoded, state, fromDict_later order accepted, same⟩

/-- Whenever it is read, a file holds one state. -/
theorem get_unique {file : Option (List Char)} {s t : Option OperatorTrustState}
    (first : get clock now sha chunking file = .ok s) (second : get clock later sha chunking file = .ok t) :
    s = t := by
  have left := get_later (le_max_left now later) first
  have right := get_later (le_max_right now later) second
  exact Except.ok.inj (left.symm.trans right)

theorem validateTrustTransition_later (order : now ≤ later) {attestation : List Field}
    (valid : validateTrustTransition clock now attestation = .ok ()) :
    validateTrustTransition clock later attestation = .ok () := by
  simp only [validateTrustTransition, bind_ok_iff, refuseIf_ok_iff, not_lt] at valid ⊢
  obtain ⟨_, names, _, schema, _, version, _, algorithm, _, purpose, keyId, keyIdRead, operator,
    operatorRead, note, noteRead, fromHash, fromRead, toHash, toRead, signature, signatureRead, i,
    fromGeneration, j, toGeneration, _, contiguous, _, keyIdFormed, _, hashes, signedAt, signedAtRead,
    time, parsed, _, past, rest⟩ := valid
  exact ⟨(), names, (), schema, (), version, (), algorithm, (), purpose, keyId, keyIdRead, operator,
    operatorRead, note, noteRead, fromHash, fromRead, toHash, toRead, signature, signatureRead, i,
    fromGeneration, j, toGeneration, (), contiguous, (), keyIdFormed, (), hashes, signedAt, signedAtRead,
    time, parsed, (), past.trans (clock.horizon_mono _ _ order), rest⟩

variable {Key : Type} {scheme : SignatureScheme Key} {policy : OperatorTrustPolicy Key}

theorem verifyTransitions_later (order : now ≤ later) {ts : List TrustTransition} {index : Nat}
    {b : Bindings} {previousHash : Points}
    (verified : verifyTransitions clock now sha scheme policy index b previousHash ts = .ok ()) :
    verifyTransitions clock later sha scheme policy index b previousHash ts = .ok () := by
  induction ts generalizing index b previousHash with
  | nil => rfl
  | cons t ts ih =>
    simp only [verifyTransitions, verifyTransition, OperatorTrustPolicy.requireTrustTransition,
      bind_ok_iff] at verified ⊢
    obtain ⟨_, ⟨operator, named, keyId, listed, _, held, _, valid, checks⟩, rest⟩ := verified
    exact ⟨(), ⟨operator, named, keyId, listed, (), held, (),
      validateTrustTransition_later order valid, checks⟩, ih rest⟩

theorem verify_later (order : now ≤ later) {s : OperatorTrustState}
    (verified : s.verify clock now sha scheme policy = .ok ()) :
    s.verify clock later sha scheme policy = .ok () := by
  rw [verify_ok_iff] at verified ⊢
  exact ⟨verified.1, verifyTransitions_later order verified.2⟩

end Later

/-! ### Arranged documents -/

section Arranged

variable {fields : List Field}

theorem textAt_arranged (distinct : (fields.map (·.1)).Nodup) (name : String) :
    textAt name (arranged fields) = textAt name fields := by
  rw [textAt, textAt, fieldAt_arranged distinct]
  rcases fieldAt (Points.ofString name) fields with _ | x
  · rfl
  · cases x <;> rfl

theorem intAt_arranged (distinct : (fields.map (·.1)).Nodup) (name : String) :
    intAt name (arranged fields) = intAt name fields := by
  rw [intAt, intAt, fieldAt_arranged distinct]
  rcases fieldAt (Points.ofString name) fields with _ | x
  · rfl
  · cases x <;> rfl

theorem boundedText_arranged (distinct : (fields.map (·.1)).Nodup) (name : Points) (field : String)
    (maximum : Nat) :
    boundedText (fieldAt name (arranged fields)) field maximum =
      boundedText (fieldAt name fields) field maximum := by
  rw [fieldAt_arranged distinct]
  rcases fieldAt name fields with _ | x
  · rfl
  · cases x <;> rfl

theorem namesExactly_arranged (names : List String) :
    namesExactly names (arranged fields) = namesExactly names fields := by
  rw [Bool.eq_iff_iff, namesExactly, namesExactly, List.isPerm_iff, List.isPerm_iff]
  exact (arranged_names_perm fields).congr_left _

theorem statementBytes_arranged (distinct : (fields.map (·.1)).Nodup) :
    statementBytes (arranged fields) = statementBytes fields := by
  have same := Data.arranged_filter distinct (Points.ofString "signature")
  rw [statementBytes, statementBytes, Data.canonical, Data.canonical,
    show (Data.obj _).sorted = (Data.obj _).sorted from same]

variable {Instant : Type} [LinearOrder Instant] {clock : WallClock Instant} {now : Instant}
  {sha : TextHash} {chunking : Chunking} {Key : Type} {scheme : SignatureScheme Key}
  {policy : OperatorTrustPolicy Key}

theorem validateTrustTransition_arranged (distinct : (fields.map (·.1)).Nodup) :
    validateTrustTransition clock now (arranged fields) =
      validateTrustTransition clock now fields := by
  simp only [validateTrustTransition, positiveAt, namesExactly_arranged, textAt_arranged distinct,
    intAt_arranged distinct, boundedText_arranged distinct]

theorem requireTrustTransition_arranged (distinct : (fields.map (·.1)).Nodup) (generation : Nat)
    (fromHash toHash operator note : Points) :
    policy.requireTrustTransition clock now scheme (arranged fields) generation fromHash toHash operator
        note =
      policy.requireTrustTransition clock now scheme fields generation fromHash toHash operator note := by
  simp only [OperatorTrustPolicy.requireTrustTransition, requireText,
    validateTrustTransition_arranged distinct, textAt_arranged distinct, intAt_arranged distinct,
    statementBytes_arranged distinct]

def TrustTransition.arranged (t : TrustTransition) : TrustTransition :=
  { t with attestation := Data.arranged t.attestation }

/-- The state that is read back, with the fields of every statement in order. -/
def OperatorTrustState.arranged (s : OperatorTrustState) : OperatorTrustState :=
  { s with transitions := s.transitions.map TrustTransition.arranged }

theorem OperatorTrustState.arranged_arranged (s : OperatorTrustState) :
    s.arranged.arranged = s.arranged := by
  simp only [OperatorTrustState.arranged, List.map_map, OperatorTrustState.mk.injEq, true_and]
  apply List.map_congr_left
  intro t _
  simp only [Function.comp_apply, TrustTransition.arranged, Data.arranged_arranged]

theorem verifyTransitions_arranged {ts : List TrustTransition} {index : Nat} {b : Bindings}
    {previousHash : Points} (distinct : ∀ t ∈ ts, (t.attestation.map (·.1)).Nodup) :
    verifyTransitions clock now sha scheme policy index b previousHash (ts.map TrustTransition.arranged) =
      verifyTransitions clock now sha scheme policy index b previousHash ts := by
  induction ts generalizing index b previousHash with
  | nil => rfl
  | cons t ts ih =>
    obtain ⟨here, rest⟩ := List.forall_mem_cons.1 distinct
    simp only [List.map_cons, verifyTransitions, verifyTransition, TrustTransition.arranged,
      textAt_arranged here, requireTrustTransition_arranged here]
    rw [ih rest]

theorem timestamp_arranged (distinct : (fields.map (·.1)).Nodup) (name : Points) (field : String) :
    timestamp clock now (fieldAt name (arranged fields)) field =
      timestamp clock now (fieldAt name fields) field := by
  rw [fieldAt_arranged distinct]
  rcases fieldAt name fields with _ | x
  · rfl
  · cases x <;> rfl

theorem hash_arranged (distinct : (fields.map (·.1)).Nodup) (name : Points) (field : String) :
    hash (fieldAt name (arranged fields)) field = hash (fieldAt name fields) field := by
  rw [fieldAt_arranged distinct]
  rcases fieldAt name fields with _ | x
  · rfl
  · cases x <;> rfl

/-- Ordered bindings are in order as a document. -/
theorem Ordered.sorted_toDict {b : Bindings} (ordered : Ordered b) : b.toDict.sorted = b.toDict := by
  have each : Data.sortedFields (b.map fun e => (e.1, Data.arr (e.2.map .str))) =
      b.map fun e => (e.1, Data.arr (e.2.map .str)) := by
    rw [Data.sortedFields_eq, List.map_map]
    apply List.map_congr_left
    intro e _
    simp only [Function.comp_apply, Data.sorted, Data.sortedItems_eq, List.map_map]
    rfl
  rw [Bindings.toDict, Data.sorted, each, Data.obj.injEq]
  apply List.Pairwise.insertionSort_eq
  have operators := ordered.operators
  rw [List.pairwise_map] at operators ⊢
  exact operators.imp fun below => below.le

theorem checkBindings_sorted {value : Option Data} {field : String} {b : Bindings}
    (read : checkBindings value field = .ok b) :
    checkBindings (value.map Data.sorted) field = .ok b := by
  obtain ⟨rfl, ordered⟩ := checkBindings_ok read
  rw [Option.map_some, ordered.sorted_toDict]
  exact read

private theorem equals_sorted (x : Data) (n : Nat) :
    Data.equals x.sorted (.int n) = Data.equals x (.int n) := by
  cases x <;> rfl

theorem attestationOf_sorted {index : Nat} {raw : Data} {attestation : List Field}
    {bindings : Option Data} (distinct : raw.Distinct)
    (read : attestationOf index raw = .ok (attestation, bindings)) :
    attestationOf index raw.sorted = .ok (arranged attestation, bindings.map Data.sorted) ∧
      (attestation.map (·.1)).Nodup := by
  unfold attestationOf at read
  split at read
  next fields =>
    obtain ⟨names, values⟩ := distinct
    rw [Data.distinctFields_iff] at values
    simp only [refuseIf_bind_ok_iff, Bool.not_eq_false] at read
    obtain ⟨exactly, read⟩ := read
    split at read
    next own found =>
      rw [pure_ok_iff, Prod.mk.injEq] at read
      obtain ⟨rfl, rfl⟩ := read
      have inside := values _ ((fieldAt_eq_some_iff names).1 found)
      refine ⟨?_, inside.1⟩
      rw [Data.sorted_obj, attestationOf, namesExactly_arranged, exactly,
        refuseIf_of_not (by decide), ok_bind, fieldAt_arranged names, fieldAt_arranged names, found]
      rfl
    · cases read
  · cases read

theorem checkTransition_sorted {index : Nat} {b : Bindings} {previousHash : Points}
    {previousTime time : Instant} {raw : Data} {t : TrustTransition} (distinct : raw.Distinct)
    (read : checkTransition clock now sha index b previousHash previousTime raw = .ok (t, time)) :
    checkTransition clock now sha index b previousHash previousTime raw.sorted =
      .ok (t.arranged, time) := by
  simp only [checkTransition, bind_ok_iff, refuseIf_ok_iff, pure_ok_iff, Prod.mk.injEq] at read ⊢
  obtain ⟨⟨attestation, bindings⟩, shape, candidate, checked, _, additive, _, numbers, _, hashes, _,
    signedAt, _, order, rfl, rfl⟩ := read
  obtain ⟨shape', nodup⟩ := attestationOf_sorted distinct shape
  have number (name : String) (expected : Nat) :
      (fieldAt (Points.ofString name) (arranged attestation)).any (Data.equals · (.int expected)) =
        (fieldAt (Points.ofString name) attestation).any (Data.equals · (.int expected)) := by
    rw [fieldAt_arranged nodup]
    rcases fieldAt (Points.ofString name) attestation with _ | x
    · rfl
    · exact equals_sorted x expected
  refine ⟨_, shape', candidate, checkBindings_sorted checked, (), additive, (), ?_, (), ?_, time, ?_, (),
    order, rfl, rfl⟩
  · rw [number, number]
    exact numbers
  · rw [textAt_arranged nodup, textAt_arranged nodup]
    exact hashes
  · rw [timestamp_arranged nodup]
    exact signedAt

theorem checkTransitions_sorted {items : List Data} {index : Nat} {b last : Bindings}
    {previousHash lastHash : Points} {previousTime lastTime : Instant} {ts : List TrustTransition}
    (distinct : ∀ raw ∈ items, raw.Distinct)
    (read : checkTransitions clock now sha index b previousHash previousTime items =
      .ok (ts, last, lastHash, lastTime)) :
    checkTransitions clock now sha index b previousHash previousTime (items.map Data.sorted) =
      .ok (ts.map TrustTransition.arranged, last, lastHash, lastTime) := by
  induction items generalizing index b previousHash previousTime ts with
  | nil =>
    rw [checkTransitions, pure_ok_iff, Prod.mk.injEq] at read
    obtain ⟨rfl, rest⟩ := read
    rw [List.map_nil, checkTransitions, pure_ok_iff, List.map_nil, rest]
  | cons raw rest ih =>
    obtain ⟨here, others⟩ := List.forall_mem_cons.1 distinct
    simp only [List.map_cons, checkTransitions, bind_ok_iff, pure_ok_iff, Prod.exists,
      Prod.mk.injEq] at read ⊢
    obtain ⟨t, time, first, ts, _, _, _, checked, rfl, rfl, rfl, rfl⟩ := read
    exact ⟨_, _, checkTransition_sorted here first, _, _, _, _, ih others checked, rfl, rfl, rfl, rfl⟩

theorem Accepted.sorted {s : OperatorTrustState} {enrolled updated : Instant}
    (distinct : (Data.obj fields).Distinct)
    (accepted : Accepted clock now sha fields s enrolled updated) :
    Accepted clock now sha (arranged fields) s.arranged enrolled updated := by
  obtain ⟨names, values⟩ := distinct
  rw [Data.distinctFields_iff] at values
  obtain ⟨items, found, few, count, checked⟩ := accepted.transitions
  have inside := values _ ((fieldAt_eq_some_iff names).1 found)
  rw [Data.Distinct, Data.distinctItems_iff] at inside
  constructor
  · rw [namesExactly_arranged]
    exact accepted.names
  · rw [textAt_arranged names]
    exact accepted.schema
  · rw [textAt_arranged names]
    exact accepted.version
  · rw [textAt_arranged names]
    exact accepted.mode
  · rw [intAt_arranged names]
    exact accepted.generation
  · rw [timestamp_arranged names]
    exact accepted.enrolledAt
  · rw [textAt_arranged names]
    exact accepted.enrolledText
  · rw [timestamp_arranged names]
    exact accepted.updatedAt
  · rw [textAt_arranged names]
    exact accepted.updatedText
  · exact accepted.order
  · rw [fieldAt_arranged names]
    exact checkBindings_sorted accepted.initial
  · rw [fieldAt_arranged names]
    exact checkBindings_sorted accepted.current
  · rw [hash_arranged names]
    exact accepted.initialHash
  · rw [hash_arranged names]
    exact accepted.currentHash
  · exact accepted.initialValue
  · exact accepted.currentValue
  · refine ⟨items.map Data.sorted, ?_, ?_, ?_, checkTransitions_sorted inside checked⟩
    · rw [fieldAt_arranged names, found, Option.map_some, Data.sorted, Data.sortedItems_eq]
    · rw [List.length_map]
      exact few
    · rw [List.length_map]
      exact count

/-- A document in which names are distinct is read in sorted form as well. -/
theorem fromDict_sorted {raw : Data} {s : OperatorTrustState}
    (unpaired : ∀ t ∈ raw.strings, t.unpaired = true)
    (read : OperatorTrustState.fromDict clock now sha chunking raw = .ok s) :
    OperatorTrustState.fromDict clock now sha chunking raw.sorted = .ok s.arranged := by
  obtain ⟨fields, enrolled, updated, rfl, hashable, accepted⟩ := fromDict_ok_iff.1 read
  have distinct := Value.distinct_of_bounded hashable.admissible.bounded
  obtain ⟨joined, again⟩ :=
    reread_plain hashable.admissible.bounded (Value.snapshot_ofData _) unpaired
  have own := reread_hashable hashable (by rw [joined]; exact again)
  rw [reread, joined] at own
  exact fromDict_ok_iff.2 ⟨arranged fields, enrolled, updated, rfl, own, accepted.sorted distinct⟩

end Arranged

/-! ### What a state is written as -/

section Written

variable {Instant : Type} [LinearOrder Instant] {clock : WallClock Instant} {now later : Instant}
  {sha : TextHash} {chunking : Chunking} {Key : Type} {scheme : SignatureScheme Key}
  {policy : OperatorTrustPolicy Key} {s : OperatorTrustState}

theorem fieldAt_record (name : String) (fields : List (String × Data)) :
    fieldAt (Points.ofString name) (record fields) = (fields.find? (·.1 == name)).map (·.2) := by
  induction fields with
  | nil => rfl
  | cons f fs ih =>
    rw [record, List.map_cons]
    by_cases here : f.1 = name
    · simp [fieldAt, here]
    · have other : Points.ofString f.1 ≠ Points.ofString name := fun same => here (ofString_injective same)
      rw [fieldAt, List.find?_cons_of_neg (by simpa using other), List.find?_cons_of_neg (by simpa using here)]
      exact ih

theorem toDict_injective {b c : Bindings} (same : b.toDict = c.toDict) : b = c := by
  rw [Bindings.toDict, Bindings.toDict, Data.obj.injEq] at same
  refine List.map_injective_iff.2 ?_ same
  rintro ⟨operator, keys⟩ ⟨other, keys'⟩ equal
  rw [Prod.mk.injEq, Data.arr.injEq] at equal
  rw [Prod.mk.injEq]
  exact ⟨equal.1, List.map_injective_iff.2 (fun _ _ => Data.str.inj) equal.2⟩

theorem checkBindings_toDict {b c : Bindings} {field : String}
    (read : checkBindings (some b.toDict) field = .ok c) : c = b :=
  (toDict_injective (Option.some.inj (checkBindings_ok read).1)).symm

theorem checkTransition_toDict {index : Nat} {b : Bindings} {previousHash : Points}
    {previousTime time : Instant} {t u : TrustTransition}
    (read : checkTransition clock now sha index b previousHash previousTime t.toDict = .ok (u, time)) :
    u = t := by
  have shape : attestationOf index t.toDict = .ok (t.attestation, some t.bindings.toDict) := by
    have names : namesExactly transitionFields (record [("attestation", .obj t.attestation),
        ("bindings", t.bindings.toDict)]) = true := by
      rw [namesExactly, List.isPerm_iff]
      simp [record, transitionFields]
    simp [TrustTransition.toDict, attestationOf, names, refuseIf_of_not, fieldAt_record]
  simp only [checkTransition, shape, ok_bind, bind_ok_iff, pure_ok_iff, Prod.mk.injEq] at read
  obtain ⟨candidate, checked, _, _, _, _, _, _, _, _, _, _, rfl, _⟩ := read
  rw [checkBindings_toDict checked]

theorem checkTransitions_toDict {ts us : List TrustTransition} {index : Nat} {b : Bindings}
    {previousHash : Points} {previousTime : Instant} {last : Bindings × Points × Instant}
    (read : checkTransitions clock now sha index b previousHash previousTime
      (ts.map TrustTransition.toDict) = .ok (us, last)) : us = ts := by
  induction ts generalizing index b previousHash previousTime us last with
  | nil =>
    rw [List.map_nil, checkTransitions, pure_ok_iff, Prod.mk.injEq] at read
    exact read.1
  | cons t ts ih =>
    simp only [List.map_cons, checkTransitions, bind_ok_iff, pure_ok_iff, Prod.exists,
      Prod.mk.injEq] at read
    obtain ⟨u, time, first, vs, _, _, _, rest, rfl, _⟩ := read
    obtain rfl := checkTransition_toDict first
    rw [ih rest]

/-- The document of a state is read as this state. -/
theorem fromDict_toDict {t : OperatorTrustState}
    (read : OperatorTrustState.fromDict clock now sha chunking s.toDict = .ok t) : t = s := by
  obtain ⟨fields, enrolled, updated, shape, _, accepted⟩ := fromDict_ok_iff.1 read
  obtain rfl : s.fields = fields := Data.obj.inj shape
  obtain ⟨items, found, _, _, checked⟩ := accepted.transitions
  have generation : intAt "generation" s.fields = some (s.generation : Int) := by
    simp [intAt, OperatorTrustState.fields, fieldAt_record]
  have enrolledText : textAt "enrolled_at" s.fields = some s.enrolledAt := by
    simp [textAt, OperatorTrustState.fields, fieldAt_record]
  have updatedText : textAt "updated_at" s.fields = some s.updatedAt := by
    simp [textAt, OperatorTrustState.fields, fieldAt_record]
  have initialBindings : fieldAt (Points.ofString "initial_bindings") s.fields =
      some s.initialBindings.toDict := by
    simp [OperatorTrustState.fields, fieldAt_record]
  have bindings : fieldAt (Points.ofString "bindings") s.fields = some s.bindings.toDict := by
    simp [OperatorTrustState.fields, fieldAt_record]
  have initial := checkBindings_toDict (initialBindings ▸ accepted.initial)
  have current := checkBindings_toDict (bindings ▸ accepted.current)
  have transitions : fieldAt (Points.ofString "transitions") s.fields =
      some (.arr (s.transitions.map TrustTransition.toDict)) := by
    simp [OperatorTrustState.fields, fieldAt_record]
  rw [transitions, Option.some.injEq, Data.arr.injEq] at found
  subst found
  have listed := checkTransitions_toDict checked
  have initialHash : fieldAt (Points.ofString "initial_bindings_hash") s.fields =
      some (.str s.initialBindingsHash) := by
    simp [OperatorTrustState.fields, fieldAt_record]
  have currentHash : fieldAt (Points.ofString "bindings_hash") s.fields = some (.str s.bindingsHash) := by
    simp [OperatorTrustState.fields, fieldAt_record]
  have first := accepted.initialHash
  have second := accepted.currentHash
  rw [initialHash, hash, refuseIf_bind_ok_iff, pure_ok_iff] at first
  rw [currentHash, hash, refuseIf_bind_ok_iff, pure_ok_iff] at second
  have count := Option.some.inj (generation.symm.trans accepted.generation)
  have since := Option.some.inj (enrolledText.symm.trans accepted.enrolledText)
  have until_ := Option.some.inj (updatedText.symm.trans accepted.updatedText)
  cases t
  cases s
  simp only [OperatorTrustState.mk.injEq]
  exact ⟨(Int.ofNat.inj count).symm, since.symm, until_.symm, initial, first.2, current, second.2, listed⟩

theorem Formed.nodup {attestation : List Field} (formed : Formed attestation) :
    (attestation.map (·.1)).Nodup := by
  have names := formed.names
  rw [namesExactly, List.isPerm_iff] at names
  exact names.nodup_iff.2 (by decide)

/-- The fields of a statement hold its texts and two integers. -/
theorem Formed.value {attestation : List Field} (formed : Formed attestation) {f : Field}
    (member : f ∈ attestation) :
    (∃ name ∈ statementTexts, ∃ s, f = (Points.ofString name, Data.str s) ∧
      textAt name attestation = some s) ∨ ∃ name i, f = (Points.ofString name, Data.int i) := by
  have names := formed.names
  rw [namesExactly, List.isPerm_iff] at names
  obtain ⟨name, listed, same⟩ := List.mem_map.1 (names.mem_iff.1 (List.mem_map_of_mem member))
  have found : fieldAt (Points.ofString name) attestation = some f.2 := by
    rw [fieldAt_eq_some_iff formed.nodup, same]
    exact member
  by_cases isText : name ∈ statementTexts
  · obtain ⟨s, text⟩ := formed.texts name isText
    refine .inl ⟨name, isText, s, ?_, text⟩
    rw [textAt, found] at text
    split at text
    next t value =>
      rw [Option.some.injEq] at value text
      rw [← text, ← value, same]
    · cases text
  · have number : name = "from_generation" ∨ name = "to_generation" := by
      simp only [attestationFields, statementTexts, List.mem_cons, List.not_mem_nil, or_false] at listed isText
      tauto
    obtain ⟨i, j, first, second⟩ := formed.generations
    have integer {k : Int} (read : intAt name attestation = some k) : f.2 = .int k := by
      rw [intAt, found] at read
      split at read
      next l value =>
        rw [Option.some.injEq] at value read
        rw [value, read]
      · cases read
    rcases number with rfl | rfl
    · exact .inr ⟨"from_generation", i, Prod.ext same.symm (integer first)⟩
    · exact .inr ⟨"to_generation", j, Prod.ext same.symm (integer second)⟩

/-- A verified statement comes from decoded text. -/
theorem Attested.unpaired {attestation : List Field} {generation : Nat}
    {fromHash toHash operator note : Points} (formed : Formed attestation)
    (attested : Attested policy scheme attestation generation fromHash toHash operator note) :
    ∀ t ∈ (Data.obj attestation).strings, t.unpaired = true := by
  intro t member
  obtain ⟨f, own, inside⟩ := Data.mem_stringsFields.1 member
  rcases formed.value own with ⟨name, listed, text, rfl, found⟩ | ⟨name, i, rfl⟩
  · rcases inside with rfl | inside
    · exact unpaired_ofString _
    · rw [Data.strings, List.mem_singleton] at inside
      subst inside
      by_cases operatorName : name = "operator"
      · rw [operatorName, attested.operatorText, Option.some.injEq] at found
        rw [← found]
        exact unpaired_ascii attested.plain.1
      · by_cases noteName : name = "note"
        · rw [noteName, attested.noteText, Option.some.injEq] at found
          rw [← found]
          exact unpaired_ascii attested.plain.2
        · have fixed := formed.unpaired name listed operatorName noteName
          rwa [found, Option.getD_some] at fixed
  · rcases inside with rfl | inside
    · exact unpaired_ofString _
    · simp [Data.strings] at inside

theorem Formed.depth_le {attestation : List Field} (formed : Formed attestation) :
    (Data.obj attestation).depth ≤ 1 := by
  rw [Data.depth]
  apply Nat.succ_le_succ
  rw [Data.depthFields_le]
  intro f member
  rcases formed.value member with ⟨name, _, text, rfl, _⟩ | ⟨name, i, rfl⟩
  · exact Nat.le_refl _
  · exact Nat.le_refl _

/-- What verification establishes about every statement of a state. -/
theorem verifyTransitions_formed {ts : List TrustTransition} {index : Nat} {b : Bindings}
    {previousHash : Points}
    (verified : verifyTransitions clock now sha scheme policy index b previousHash ts = .ok ()) :
    ∀ t ∈ ts, Formed t.attestation ∧ ∀ u ∈ (Data.obj t.attestation).strings, u.unpaired = true := by
  induction ts generalizing index b previousHash with
  | nil => simp
  | cons t ts ih =>
    rw [verifyTransitions, unit_bind_ok_iff] at verified
    rw [List.forall_mem_cons]
    refine ⟨?_, ih verified.2⟩
    simp only [verifyTransition, bind_ok_iff] at verified
    obtain ⟨⟨_, _, _, _, _, _, required⟩, _⟩ := verified
    obtain ⟨formed, attested⟩ := requireTrustTransition_attested required
    exact ⟨formed, attested.unpaired formed⟩

private theorem bindings_unpaired {b : Bindings} (sound : policy.Sound sha scheme) (ordered : Ordered b)
    (within : Within b policy.bindings) : ∀ t ∈ b.toDict.strings, t.unpaired = true := by
  intro t member
  obtain ⟨f, own, inside⟩ := Data.mem_stringsFields.1 member
  obtain ⟨e, entry, rfl⟩ := List.mem_map.1 own
  have bound {keyId : Points} (listed : keyId ∈ e.2) :
      e.1.unpaired = true ∧ keyId.unpaired = true := by
    obtain ⟨g, trusted, name, held⟩ := within e.1 keyId ⟨e, entry, rfl, listed⟩
    obtain ⟨operator, keys⟩ := sound.unpaired g trusted
    exact ⟨name ▸ operator, keys keyId held⟩
  rcases inside with rfl | inside
  · obtain ⟨keyId, listed⟩ := List.exists_mem_of_ne_nil _ (ordered.keys e entry).2
    exact (bound listed).1
  · obtain ⟨x, item, text⟩ := Data.mem_stringsItems.1 inside
    obtain ⟨keyId, listed, rfl⟩ := List.mem_map.1 item
    rw [Data.strings, List.mem_singleton] at text
    rw [text]
    exact (bound listed).2

theorem checkTransitions_ordered {items : List Data} {index : Nat} {b : Bindings}
    {previousHash : Points} {previousTime : Instant} {ts : List TrustTransition}
    {last : Bindings × Points × Instant}
    (read : checkTransitions clock now sha index b previousHash previousTime items = .ok (ts, last)) :
    ∀ t ∈ ts, Ordered t.bindings := by
  induction items generalizing index b previousHash previousTime ts last with
  | nil =>
    rw [checkTransitions, pure_ok_iff, Prod.mk.injEq] at read
    rw [read.1]
    simp
  | cons raw rest ih =>
    simp only [checkTransitions, bind_ok_iff, pure_ok_iff, Prod.exists, Prod.mk.injEq] at read
    obtain ⟨t, time, first, us, _, _, _, others, rfl, _⟩ := read
    rw [List.forall_mem_cons]
    refine ⟨?_, ih others⟩
    simp only [checkTransition, bind_ok_iff, pure_ok_iff, Prod.mk.injEq] at first
    obtain ⟨_, _, candidate, checked, _, _, _, _, _, _, _, _, _, _, rfl, _⟩ := first
    exact (checkBindings_ok checked).2

private theorem unpaired_of_timestamp {name field : String} {fields : List Field} {t : Points}
    {time : Instant} (found : textAt name fields = some t)
    (read : timestamp clock now (fieldAt (Points.ofString name) fields) field = .ok time) :
    t.unpaired = true := by
  unfold timestamp at read
  split at read
  next u value =>
    rw [textAt, value, Option.some.injEq] at found
    simp only [bind_ok_iff, orRefuse_ok_iff] at read
    obtain ⟨_, _, _, parsed, _⟩ := read
    exact found ▸ clock.parse_unpaired _ _ parsed
  · cases read

/-- A verified state of its own document comes from decoded text. -/
theorem verified_unpaired (sound : policy.Sound sha scheme)
    (read : OperatorTrustState.fromDict clock now sha chunking s.toDict = .ok s)
    (verified : s.verify clock now sha scheme policy = .ok ()) :
    ∀ t ∈ s.toDict.strings, t.unpaired = true := by
  obtain ⟨fields, enrolled, updated, shape, _, accepted⟩ := fromDict_ok_iff.1 read
  obtain ⟨chained, same⟩ := verified_chained sound read verified
  obtain ⟨items, _, _, _, checked⟩ := accepted.transitions
  have generations := chained.chain.all_within
  rw [same] at generations
  have statements := verifyTransitions_formed (verify_ok_iff.1 verified).2
  have texts (name : String) {t : Points} : t.unpaired = true →
      ∀ u, u = Points.ofString name ∨ u ∈ (Data.str t).strings → u.unpaired = true := by
    rintro unpaired u (rfl | inside)
    · exact unpaired_ofString _
    · rw [Data.strings, List.mem_singleton] at inside
      exact inside ▸ unpaired
  intro t member
  obtain ⟨f, own, inside⟩ := Data.mem_stringsFields.1 member
  simp only [OperatorTrustState.fields, record, List.map_cons, List.map_nil, List.mem_cons,
    List.not_mem_nil, or_false] at own
  rcases own with rfl | rfl | rfl | rfl | rfl | rfl | rfl | rfl | rfl | rfl | rfl
  · exact texts _ (unpaired_ofString _) t inside
  · exact texts _ (unpaired_ofString _) t inside
  · exact texts _ (unpaired_ofString _) t inside
  · rcases inside with rfl | inside
    · exact unpaired_ofString _
    · simp [Data.strings] at inside
  · exact texts _ (unpaired_of_timestamp accepted.enrolledText accepted.enrolledAt) t inside
  · exact texts _ (unpaired_of_timestamp accepted.updatedText accepted.updatedAt) t inside
  · rcases inside with rfl | inside
    · exact unpaired_ofString _
    · exact bindings_unpaired sound (checkBindings_ok accepted.initial).2
        (generations _ (by simp)) t inside
  · exact texts _ (accepted.initialValue ▸ unpaired_ofString _) t inside
  · rcases inside with rfl | inside
    · exact unpaired_ofString _
    · exact bindings_unpaired sound (checkBindings_ok accepted.current).2 (same ▸ Within.refl _) t inside
  · exact texts _ (accepted.currentValue ▸ unpaired_ofString _) t inside
  · rcases inside with rfl | inside
    · exact unpaired_ofString _
    · obtain ⟨x, item, inside⟩ := Data.mem_stringsItems.1 inside
      obtain ⟨u, listed, rfl⟩ := List.mem_map.1 item
      obtain ⟨g, part, inside⟩ := Data.mem_stringsFields.1 inside
      simp only [record, List.map_cons, List.map_nil, List.mem_cons, List.not_mem_nil, or_false] at part
      rcases part with rfl | rfl
      · rcases inside with rfl | inside
        · exact unpaired_ofString _
        · exact (statements u listed).2 t inside
      · rcases inside with rfl | inside
        · exact unpaired_ofString _
        · exact bindings_unpaired sound (checkTransitions_ordered checked u listed)
            (generations _ (by simpa using .inr ⟨u, listed, rfl⟩)) t inside

private theorem bindings_depth (b : Bindings) : b.toDict.depth ≤ 2 := by
  rw [Bindings.toDict, Data.depth]
  apply Nat.succ_le_succ
  rw [Data.depthFields_le, List.forall_mem_map]
  intro e _
  rw [Data.depth]
  apply Nat.succ_le_succ
  rw [Data.depthItems_le, List.forall_mem_map]
  exact fun _ _ => Nat.le_refl _

private theorem state_depth (formed : ∀ t ∈ s.transitions, Formed t.attestation) :
    s.toDict.depth ≤ 5 := by
  have transition : ∀ t ∈ s.transitions, t.toDict.depth ≤ 3 := by
    intro t member
    rw [TrustTransition.toDict, Data.depth]
    apply Nat.succ_le_succ
    rw [Data.depthFields_le]
    simp only [record, List.map_cons, List.map_nil, List.forall_mem_cons, List.not_mem_nil,
      false_implies, implies_true, and_true]
    exact ⟨(formed t member).depth_le.trans (by decide), bindings_depth t.bindings⟩
  have listed : Data.depthItems (s.transitions.map TrustTransition.toDict) ≤ 3 := by
    rw [Data.depthItems_le, List.forall_mem_map]
    exact transition
  rw [OperatorTrustState.toDict, Data.depth]
  apply Nat.succ_le_succ
  rw [Data.depthFields_le]
  have initial := (bindings_depth s.initialBindings).trans (by decide : 2 ≤ 4)
  have current := (bindings_depth s.bindings).trans (by decide : 2 ≤ 4)
  simp [OperatorTrustState.fields, record, Data.depth, textData, initial, current]
  omega

/-- A verified state of its own document is within the ceilings of the strict reader. -/
theorem verified_lexical (hashable : Hashable maxStateBytes (.ofData s.toDict))
    (formed : ∀ t ∈ s.transitions, Formed t.attestation) : Lexical s.toDict.sorted where
  depth := by
    rw [Data.depth_sorted]
    exact (state_depth formed).trans (by decide)
  tokens := by
    have bytes := hashable.bytes
    rw [Value.written_ofData, text_sorted_length] at bytes
    have few := Data.tokens_le_text s.toDict
    rw [Data.tokens_sorted]
    simp only [maxStateBytes, maxJsonLexicalTokens] at bytes ⊢
    omega
  strings t member := by
    have bytes := hashable.bytes
    rw [Value.written_ofData] at bytes
    exact ((Data.escaped_length_le Layout.compact 0 member).trans bytes).trans (by decide)
  numbers n member := by
    rw [Data.mem_numbers_sorted] at member
    exact numbers_of_bounded hashable.admissible.bounded n member

theorem verify_arranged (formed : ∀ t ∈ s.transitions, Formed t.attestation)
    (verified : s.verify clock now sha scheme policy = .ok ()) :
    s.arranged.verify clock now sha scheme policy = .ok () := by
  rw [verify_ok_iff] at verified ⊢
  refine ⟨verified.1, ?_⟩
  rw [← verified.2]
  exact verifyTransitions_arranged fun t member => (formed t member).nodup

/-- What has been written for a verified state is read back, and verified, at every later time. -/
theorem stateText_read {text : List Char} (sound : policy.Sound sha scheme)
    (written : stateText clock now sha chunking s = .ok text)
    (verified : s.verify clock now sha scheme policy = .ok ()) (order : now ≤ later) :
    get clock later sha chunking (some text) = .ok (some s.arranged) ∧
      s.arranged.verify clock later sha scheme policy = .ok () := by
  simp only [stateText, bind_ok_iff, atomicWriteJson, mapError_ok_iff, refuseIf_ok_iff, not_lt,
    pure_ok_iff] at written
  obtain ⟨candidate, read, document, dumped, _, fits, rfl⟩ := written
  obtain rfl := fromDict_toDict read
  obtain ⟨_, _, _, _, hashable, _⟩ := fromDict_ok_iff.1 read
  have statements := verifyTransitions_formed (verify_ok_iff.1 verified).2
  have formed : ∀ t ∈ candidate.transitions, Formed t.attestation :=
    fun t member => (statements t member).1
  have unpaired := verified_unpaired sound read verified
  have bounded := hashable.admissible.bounded
  have own := bounded.dumps_snapshot
  rw [Value.snapshot_ofData, Value.written_ofData] at own
  obtain rfl := Except.ok.inj (own.symm.trans dumped)
  obtain ⟨joined, distinct⟩ := reread_plain bounded (Value.snapshot_ofData _) unpaired
  rw [Value.written_ofData] at joined
  have decoded : readState (candidate.toDict.sorted.render (Layout.indented 2) 0) =
      .ok candidate.toDict.sorted := by
    simp only [readState, bind_ok_iff, refuseIf_ok_iff, not_lt, mapError_ok_iff,
      loadsStrictJson_render]
    exact ⟨(), fits, candidate.toDict.sorted,
      ⟨verified_lexical hashable formed, by rw [joined]; exact distinct, joined.symm⟩, rfl⟩
  refine ⟨?_, verify_later order (verify_arranged formed verified)⟩
  rw [get, decoded, ok_bind, fromDict_later order (fromDict_sorted unpaired read)]
  rfl

end Written

/-! ### Runs -/

section Runs

variable {Instant : Type} [LinearOrder Instant] (clock : WallClock Instant) (sha : TextHash)
  (chunking : Chunking) {Key : Type} (scheme : SignatureScheme Key)
  (readKey : Points → Option (KeyFile Key))

/-- A call of the store, with the time at which it reads the clock. -/
inductive Call (Instant : Type) where
  | resolve (now : Instant) (specs : List TrustSpec) (legacySigned : Bool)
  | rotate (now : Instant) (current candidate : List TrustSpec) (attestation : List Field)

def Call.run : Call Instant → Store Unit
  | .resolve now specs legacySigned => do
    let _ ← resolveForAuthority clock now sha chunking scheme readKey specs legacySigned
    pure ()
  | .rotate now current candidate attestation => do
    let current ← Proc.lift (OperatorTrustPolicy.fromSpecs sha scheme readKey current)
    let candidate ← Proc.lift (OperatorTrustPolicy.fromSpecs sha scheme readKey candidate)
    let _ ← TrustState.rotate clock now sha chunking scheme current candidate attestation
    pure ()

/-- The file after some calls, whether they return or raise. -/
def after (file : Option (List Char)) (calls : List (Call Instant)) : Option (List Char) :=
  calls.foldl (fun file call => (call.run clock sha chunking scheme readKey file).2) file

/-- A file that reads as a state from a time on, and is verified under configured keys. -/
structure Holds (file : Option (List Char)) (s : OperatorTrustState) (policy : OperatorTrustPolicy Key)
    (since : Instant) : Prop where
  configured : ∃ specs, OperatorTrustPolicy.fromSpecs sha scheme readKey specs = .ok policy
  read : ∀ later, since ≤ later → get clock later sha chunking file = .ok (some s)
  verified : ∀ later, since ≤ later → s.verify clock later sha scheme policy = .ok ()
  arranged : s.arranged = s

/-- The second state continues the first. -/
def Continues (s t : OperatorTrustState) : Prop :=
  t.initialBindings = s.initialBindings ∧ s.transitions <+: t.transitions

variable {clock sha chunking scheme readKey} {policy : OperatorTrustPolicy Key}
  {s t : OperatorTrustState} {file : Option (List Char)} {since : Instant}

theorem Continues.refl (s : OperatorTrustState) : Continues s s := ⟨rfl, List.prefix_refl _⟩

theorem Continues.trans {u : OperatorTrustState} (first : Continues s t) (second : Continues t u) :
    Continues s u :=
  ⟨second.1.trans first.1, first.2.trans second.2⟩

theorem Holds.chained (holds : Holds clock sha chunking scheme readKey file s policy since) :
    Chained sha scheme s ∧ s.bindings = policy.bindings := by
  obtain ⟨specs, configured⟩ := holds.configured
  have read := holds.read since le_rfl
  cases file with
  | none => cases read
  | some text =>
    simp only [get, bind_ok_iff, pure_ok_iff, Option.some.injEq] at read
    obtain ⟨raw, _, state, accepted, rfl⟩ := read
    exact verified_chained (fromSpecs_sound configured) accepted (holds.verified since le_rfl)

/-- The bindings of a state stay in every state that continues it. -/
theorem Continues.within (continues : Continues s t) (first : Chained sha scheme s)
    (second : Chained sha scheme t) : Within s.bindings t.bindings := by
  have last : s.bindings ∈ s.generations := by
    have chain := first.chain
    have ends {n : Nat} {b last : Bindings} {ts : List TrustTransition}
        (chain : Chain sha scheme n b ts last) : last ∈ b :: ts.map (·.bindings) := by
      induction chain with
      | done => simp
      | rotate _ _ ih => exact List.mem_cons_of_mem _ ih
    exact ends chain
  have inside : s.bindings ∈ t.generations := by
    rw [OperatorTrustState.generations, continues.1]
    exact ((List.prefix_cons_inj _).2 (continues.2.map _)).subset last
  exact second.chain.all_within _ inside

theorem get_none {now : Instant} (read : get clock now sha chunking file = .ok none) : file = none := by
  cases file with
  | none => rfl
  | some text =>
    simp only [get, bind_ok_iff, pure_ok_iff] at read
    obtain ⟨_, _, _, _, none⟩ := read
    cases none

/-- Whenever the file is read, it holds this state. -/
theorem Holds.eq_of_get (holds : Holds clock sha chunking scheme readKey file s policy since)
    {now : Instant} {found : Option OperatorTrustState}
    (read : get clock now sha chunking file = .ok found) : found = some s :=
  get_unique read (holds.read since le_rfl)

/-- A statement equals its arranged form. -/
theorem Formed.equals_arranged {attestation : List Field} (formed : Formed attestation) :
    Data.equals (.obj (arranged attestation)) (.obj attestation) = true := by
  have distinct : (Data.obj attestation).Distinct := by
    rw [Data.Distinct, Data.distinctFields_iff]
    refine ⟨formed.nodup, ?_⟩
    intro f member
    rcases formed.value member with ⟨_, _, _, rfl, _⟩ | ⟨_, _, rfl⟩ <;> trivial
  have sorted : (Data.obj (arranged attestation)).Distinct := Data.distinct_sorted.2 distinct
  exact Data.equals_of_same sorted distinct (Data.sorted_sorted (.obj attestation))

theorem enrolled_verify (now : Instant) (policy : OperatorTrustPolicy Key) :
    (OperatorTrustState.enrolled clock now sha policy).verify clock now sha scheme policy = .ok () :=
  verify_ok_iff.2 ⟨rfl, rfl⟩

/-- Enrollment writes only when there is no state yet; nothing that raises has written. -/
theorem resolveForAuthority_ends (now : Instant) (specs : List TrustSpec) (legacySigned : Bool) :
    (resolveForAuthority clock now sha chunking scheme readKey specs legacySigned).Ends
      (fun _ file' => file' = file ∨ file = none ∧ ∃ s policy,
        Holds clock sha chunking scheme readKey file' s policy now ∧ s.transitions = [])
      (fun _ file' => file' = file) file := by
  simp only [resolveForAuthority, Proc.ends_bind, Proc.ends_get, Proc.ends_lift]
  refine ⟨fun candidate configured => ⟨fun stored read => ?_, fun _ _ => trivial⟩, fun _ _ => trivial⟩
  rcases stored with _ | state <;> rcases candidate with _ | candidate
  · simp [Proc.ends_bind, Proc.ends_lift]
  · simp only [Proc.ends_bind, Proc.ends_lift, Proc.ends_set, Proc.ends_pure]
    refine ⟨fun text written => ⟨fun _ _ => .inr ⟨get_none read, ?_⟩, fun e raised => ?_⟩,
      fun _ _ => trivial⟩
    · have named : OperatorTrustPolicy.fromSpecs sha scheme readKey specs = .ok candidate := by
        split at configured
        · cases configured
        · obtain ⟨_, found, same⟩ := map_ok_iff.1 configured
          rw [← Option.some.inj same]
          exact found
      have verified : (OperatorTrustState.enrolled clock now sha candidate).verify clock now sha scheme
          candidate = .ok () := enrolled_verify now candidate
      have reading {later : Instant} (order : now ≤ later) :=
        stateText_read (fromSpecs_sound named) written verified order
      exact ⟨_, candidate, ⟨⟨specs, named⟩, fun later order => (reading order).1,
        fun later order => (reading order).2, OperatorTrustState.arranged_arranged _⟩, rfl⟩
    · rw [enrolled_verify] at raised
      cases raised
  · exact (Proc.ends_of_error rfl).2 rfl
  · simp [Proc.ends_bind, Proc.ends_lift]

/-- A rotation leaves the file when it is repeated or refused, and else continues the stored state up
to the keys that it brings. -/
theorem rotate_ends {now : Instant} {current candidate : OperatorTrustPolicy Key}
    {specs : List TrustSpec} {attestation : List Field}
    (named : OperatorTrustPolicy.fromSpecs sha scheme readKey specs = .ok candidate) :
    (rotate clock now sha chunking scheme current candidate attestation).Ends
      (fun _ file' => ∃ past, get clock now sha chunking file = .ok (some past) ∧
        (file' = file ∧ past.completed candidate attestation = true ∧
            past.verify clock now sha scheme candidate = .ok () ∨
          isAdditive past.bindings candidate.bindings = true ∧
            ∃ s, Holds clock sha chunking scheme readKey file' s candidate now ∧
              Continues past.arranged s ∧ s.completed candidate attestation = true))
      (fun _ file' => file' = file) file := by
  simp only [rotate, Proc.ends_bind, Proc.ends_get, Proc.ends_lift, orRefuse_ok_iff]
  refine ⟨fun stored read => ⟨fun past found => ?_, fun _ _ => trivial⟩, fun _ _ => trivial⟩
  subst found
  rw [Proc.ends_ite]
  constructor
  · intro completed
    simp only [Proc.ends_bind, Proc.ends_lift, Proc.ends_pure]
    exact ⟨fun _ verified => ⟨past, read, .inl ⟨trivial, completed, verified⟩⟩, fun _ _ => trivial⟩
  · intro _
    simp only [Proc.ends_bind, Proc.ends_lift, Proc.ends_set, Proc.ends_pure]
    refine ⟨fun updated succeeded => ⟨fun text written => ⟨past, read, .inr ?_⟩, fun _ _ => trivial⟩,
      fun _ _ => trivial⟩
    simp only [OperatorTrustState.successor, bind_ok_iff, refuseIf_ok_iff, pure_ok_iff,
      Bool.not_eq_false] at succeeded
    obtain ⟨_, verifiedCurrent, _, additive, operator, _, note, _, keyId, _, _, _, _, required, next, fresh,
      _, verified, rfl⟩ := succeeded
    obtain rfl := fromDict_toDict fresh
    have formed := (requireTrustTransition_attested required).1
    have reading {later : Instant} (order : now ≤ later) :=
      stateText_read (fromSpecs_sound named) written verified order
    rw [OperatorTrustPolicy.isAdditiveSuccessor, (verify_ok_iff.1 verifiedCurrent).1] at additive
    refine ⟨additive, _, ⟨⟨specs, named⟩, fun later order => (reading order).1,
      fun later order => (reading order).2, OperatorTrustState.arranged_arranged _⟩, ⟨rfl, ?_⟩, ?_⟩
    · simp only [OperatorTrustState.arranged, OperatorTrustState.rotated, List.map_append]
      exact List.prefix_append _ _
    · simp [OperatorTrustState.completed, OperatorTrustState.arranged, OperatorTrustState.rotated,
        TrustTransition.arranged, formed.equals_arranged]

/-- Ordered bindings are determined by what they bind. -/
theorem Ordered.eq_of_within {b c : Bindings} (first : Ordered b) (second : Ordered c)
    (left : Within b c) (right : Within c b) : b = c := by
  have keysOf {d : Bindings} (ordered : Ordered d) {e : Points × List Points} (entry : e ∈ d)
      (keyId : Points) : keyId ∈ e.2 ↔ d.Binds e.1 keyId := by
    constructor
    · exact fun listed => ⟨e, entry, rfl, listed⟩
    · rintro ⟨f, other, name, listed⟩
      have nodup : (d.map (·.1)).Nodup := ordered.operators.imp fun below => below.ne
      rwa [List.inj_on_of_nodup_map nodup entry other name.symm]
  -- an operator has a key, so it stands in both, with the same keys
  have inside {d d' : Bindings} (own : Ordered d) (other : Ordered d') (there : Within d d')
      (back : Within d' d) {e : Points × List Points} (entry : e ∈ d) : e ∈ d' := by
    obtain ⟨keyId, listed⟩ := List.exists_mem_of_ne_nil _ (own.keys e entry).2
    obtain ⟨f, entry', name, _⟩ := there _ _ ((keysOf own entry keyId).1 listed)
    have keys : e.2 = f.2 := by
      apply (own.keys e entry).1.eq_of_mem_iff (other.keys f entry').1
      intro k
      rw [keysOf own entry, keysOf other entry', name]
      exact ⟨there _ _, back _ _⟩
    rwa [show e = f from Prod.ext name.symm keys]
  have below {d : Bindings} (ordered : Ordered d) : d.Pairwise fun e f => e.1 < f.1 :=
    List.pairwise_map.1 ordered.operators
  have irrefl : Std.Irrefl fun e f : Points × List Points => e.1 < f.1 := ⟨fun e => lt_irrefl e.1⟩
  have antisymm : Std.Antisymm fun e f : Points × List Points => e.1 < f.1 :=
    ⟨fun _ _ less more => (lt_asymm less more).elim⟩
  exact (below first).eq_of_mem_iff (below second) fun e =>
    ⟨inside first second left right, inside second first right left⟩

theorem ordered_of_get {now : Instant} (read : get clock now sha chunking file = .ok (some s)) :
    Ordered s.bindings := by
  cases file with
  | none => cases read
  | some text =>
    simp only [get, bind_ok_iff, pure_ok_iff, Option.some.injEq] at read
    obtain ⟨raw, _, state, accepted, rfl⟩ := read
    obtain ⟨_, _, _, _, _, fields⟩ := fromDict_ok_iff.1 accepted
    exact (checkBindings_ok fields.current).2

/-- Nothing that raises has written. -/
theorem run_refused {call : Call Instant} {e : HarnessError} {file' : Option (List Char)}
    (raised : call.run clock sha chunking scheme readKey file = (.error e, file')) : file' = file := by
  have ends : (call.run clock sha chunking scheme readKey).Ends (fun _ _ => True)
      (fun _ file' => file' = file) file := by
    cases call with
    | resolve now specs legacySigned =>
      simp only [Call.run, Proc.ends_bind, Proc.ends_pure]
      exact (resolveForAuthority_ends now specs legacySigned).mono (fun _ _ _ => trivial)
        (fun _ _ same => same)
    | rotate now current candidate attestation =>
      simp only [Call.run, Proc.ends_bind, Proc.ends_lift, Proc.ends_pure]
      refine ⟨fun current _ => ⟨fun candidate named => ?_, fun _ _ => trivial⟩, fun _ _ => trivial⟩
      exact (rotate_ends named).mono (fun _ _ _ => trivial) (fun _ _ same => same)
  exact ends.error raised

/-- A call on a held file leaves it held, by a state that continues the one before. -/
theorem Holds.run (holds : Holds clock sha chunking scheme readKey file s policy since)
    (call : Call Instant) :
    ∃ t policy' since', Holds clock sha chunking scheme readKey
      (call.run clock sha chunking scheme readKey file).2 t policy' since' ∧ Continues s t := by
  have same : ∃ t policy' since', Holds clock sha chunking scheme readKey file t policy' since' ∧
      Continues s t := ⟨s, policy, since, holds, Continues.refl s⟩
  have ends : (call.run clock sha chunking scheme readKey).Ends
      (fun _ file' => ∃ t policy' since', Holds clock sha chunking scheme readKey file' t policy' since' ∧
        Continues s t)
      (fun _ file' => file' = file) file := by
    cases call with
    | resolve now specs legacySigned =>
      simp only [Call.run, Proc.ends_bind, Proc.ends_pure]
      refine (resolveForAuthority_ends now specs legacySigned).mono ?_ (fun _ _ same => same)
      rintro _ file' (rfl | ⟨rfl, _⟩)
      · exact same
      · cases holds.read since le_rfl
    | rotate now current candidate attestation =>
      simp only [Call.run, Proc.ends_bind, Proc.ends_lift, Proc.ends_pure]
      refine ⟨fun current _ => ⟨fun candidate named => ?_, fun _ _ => trivial⟩, fun _ _ => trivial⟩
      refine (rotate_ends named).mono ?_ (fun _ _ same => same)
      rintro _ file' ⟨past, read, ⟨rfl, _⟩ | ⟨_, t, held, continues, _⟩⟩
      · exact same
      · obtain rfl := Option.some.inj (holds.eq_of_get read)
        rw [holds.arranged] at continues
        exact ⟨t, candidate, now, held, continues⟩
  rcases run : call.run clock sha chunking scheme readKey file with ⟨_ | _, file'⟩
  · rw [ends.error run]
    exact same
  · exact ends.ok run

theorem Holds.after (holds : Holds clock sha chunking scheme readKey file s policy since)
    (calls : List (Call Instant)) :
    ∃ t policy' since', Holds clock sha chunking scheme readKey
      (TrustState.after clock sha chunking scheme readKey file calls) t policy' since' ∧
        Continues s t := by
  induction calls generalizing file s policy since with
  | nil => exact ⟨s, policy, since, holds, Continues.refl s⟩
  | cons call calls ih =>
    obtain ⟨t, policy', since', held, first⟩ := holds.run call
    obtain ⟨u, policy'', since'', held', second⟩ := ih held
    exact ⟨u, policy'', since'', held', first.trans second⟩

/-- Without a state only an enrollment writes. -/
theorem run_fresh (clock : WallClock Instant) (sha : TextHash) (chunking : Chunking)
    (scheme : SignatureScheme Key) (readKey : Points → Option (KeyFile Key)) (call : Call Instant) :
    (call.run clock sha chunking scheme readKey none).2 = none ∨
      ∃ s policy since, Holds clock sha chunking scheme readKey
        (call.run clock sha chunking scheme readKey none).2 s policy since := by
  have ends : (call.run clock sha chunking scheme readKey).Ends
      (fun _ file' => file' = none ∨ ∃ s policy since,
        Holds clock sha chunking scheme readKey file' s policy since)
      (fun _ file' => file' = none) none := by
    cases call with
    | resolve now specs legacySigned =>
      simp only [Call.run, Proc.ends_bind, Proc.ends_pure]
      refine (resolveForAuthority_ends now specs legacySigned).mono ?_ (fun _ _ same => same)
      rintro _ file' (rfl | ⟨_, s, policy, held, _⟩)
      · exact .inl rfl
      · exact .inr ⟨s, policy, now, held⟩
    | rotate now current candidate attestation =>
      simp only [Call.run, Proc.ends_bind, Proc.ends_lift, Proc.ends_pure]
      refine ⟨fun current _ => ⟨fun candidate named => ?_, fun _ _ => trivial⟩, fun _ _ => trivial⟩
      refine (rotate_ends named).mono ?_ (fun _ _ same => same)
      rintro _ file' ⟨past, read, _⟩
      cases read
  rcases run : call.run clock sha chunking scheme readKey none with ⟨_ | _, file'⟩
  · exact .inl (ends.error run)
  · exact ends.ok run

theorem after_held (clock : WallClock Instant) (sha : TextHash) (chunking : Chunking)
    (scheme : SignatureScheme Key) (readKey : Points → Option (KeyFile Key))
    (calls : List (Call Instant)) :
    TrustState.after clock sha chunking scheme readKey none calls = none ∨
      ∃ s policy since, Holds clock sha chunking scheme readKey
        (TrustState.after clock sha chunking scheme readKey none calls) s policy since := by
  induction calls with
  | nil => exact .inl rfl
  | cons call calls ih =>
    rw [TrustState.after, List.foldl_cons]
    rcases run_fresh clock sha chunking scheme readKey call with fresh | ⟨s, policy, since, holds⟩
    · rw [fresh]
      exact ih
    · obtain ⟨t, policy', since', held, _⟩ := holds.after calls
      exact .inr ⟨t, policy', since', held⟩

/-- A rotation that has been completed is never carried out again, however far the store has come. -/
theorem Holds.rotate_again (holds : Holds clock sha chunking scheme readKey file s policy since)
    {candidate current : OperatorTrustPolicy Key} {specs : List TrustSpec} {attestation : List Field}
    (named : OperatorTrustPolicy.fromSpecs sha scheme readKey specs = .ok candidate)
    (completed : s.completed candidate attestation = true) (calls : List (Call Instant))
    (now : Instant) :
    (rotate clock now sha chunking scheme current candidate attestation
      (TrustState.after clock sha chunking scheme readKey file calls)).2 =
        TrustState.after clock sha chunking scheme readKey file calls := by
  obtain ⟨t, policy', since', held, continues⟩ := holds.after calls
  set later := TrustState.after clock sha chunking scheme readKey file calls
  rcases run : rotate clock now sha chunking scheme current candidate attestation later with
    ⟨_ | _, file'⟩
  · exact (rotate_ends named).error run
  · obtain ⟨past, read, ⟨same, _⟩ | ⟨additive, _⟩⟩ := (rotate_ends named).ok run
    · exact same
    · obtain rfl := Option.some.inj (held.eq_of_get read)
      obtain ⟨changes, grows⟩ := isAdditive_iff_within additive
      -- the store has the keys already, so that a rotation to them adds nothing
      simp only [OperatorTrustState.completed, Bool.and_eq_true, beq_iff_eq] at completed
      have back := continues.within holds.chained.1 held.chained.1
      rw [completed.1] at back
      have own := ordered_of_get (holds.read since le_rfl)
      rw [completed.1] at own
      exact absurd ((ordered_of_get read).eq_of_within own grows back) changes

/-- Right after a rotation, the same call at a later time returns. -/
theorem Holds.rotate_returns (holds : Holds clock sha chunking scheme readKey file s policy since)
    {candidate current : OperatorTrustPolicy Key} {attestation : List Field} {now : Instant}
    (order : since ≤ now) (completed : s.completed candidate attestation = true)
    (verified : s.verify clock now sha scheme candidate = .ok ()) :
    rotate clock now sha chunking scheme current candidate attestation file = (.ok s, file) := by
  have read := holds.read now order
  change Proc.andThen _ _ file = _
  simp only [Proc.andThen]
  change Proc.andThen _ _ file = _
  simp only [Proc.andThen, Proc.lift, read]
  change Proc.andThen _ _ file = _
  simp only [Proc.andThen, Proc.lift, orRefuse, completed, ↓reduceIte]
  change Proc.andThen _ _ file = _
  simp only [Proc.andThen, Proc.lift, verified]
  rfl

end Runs
end TrustState

open TrustState in
/-- Operator trust is additive and chained: every accepted document is a chain of signed rotations,
what the store writes is accepted again, a run only adds keys, a refused call leaves the file, and a
completed rotation is not repeated. -/
theorem operator_trust_chained {Instant Key : Type} [LinearOrder Instant] (clock : WallClock Instant)
    (sha : TextHash) (chunking : Chunking) (scheme : SignatureScheme Key)
    (readKey : Points → Option (KeyFile Key)) :
    (∀ (now : Instant) (specs : List TrustSpec) (policy : TrustState.OperatorTrustPolicy Key)
      (raw : Data) (s : OperatorTrustState),
      TrustState.OperatorTrustPolicy.fromSpecs sha scheme readKey specs = .ok policy →
        OperatorTrustState.fromDict clock now sha chunking raw = .ok s →
          s.verify clock now sha scheme policy = .ok () →
            Chained sha scheme s ∧ s.bindings = policy.bindings) ∧
      (∀ (calls : List (Call Instant)) (text : List Char),
        after clock sha chunking scheme readKey none calls = some text →
          ∃ specs policy since s, TrustState.OperatorTrustPolicy.fromSpecs sha scheme readKey specs = .ok policy ∧
            Chained sha scheme s ∧ s.bindings = policy.bindings ∧
              ∀ later, since ≤ later → get clock later sha chunking (some text) = .ok (some s) ∧
                s.verify clock later sha scheme policy = .ok ()) ∧
      (∀ (calls more : List (Call Instant)) (now later : Instant) (s t : OperatorTrustState),
        get clock now sha chunking (after clock sha chunking scheme readKey none calls) =
            .ok (some s) →
          get clock later sha chunking
              (after clock sha chunking scheme readKey none (calls ++ more)) = .ok (some t) →
            Continues s t ∧ Within s.bindings t.bindings) ∧
      (∀ (call : Call Instant) (file file' : Option (List Char)) (e : HarnessError),
        call.run clock sha chunking scheme readKey file = (.error e, file') → file' = file) ∧
      ∀ (calls : List (Call Instant)) (now : Instant) (specs : List TrustSpec)
        (current candidate : TrustState.OperatorTrustPolicy Key) (attestation : List Field)
        (answer : OperatorTrustState) (file : Option (List Char)),
        TrustState.OperatorTrustPolicy.fromSpecs sha scheme readKey specs = .ok candidate →
          rotate clock now sha chunking scheme current candidate attestation
              (after clock sha chunking scheme readKey none calls) = (.ok answer, file) →
            (∀ (more : List (Call Instant)) (again : Instant) (other : TrustState.OperatorTrustPolicy Key),
              (rotate clock again sha chunking scheme other candidate attestation
                (after clock sha chunking scheme readKey file more)).2 =
                  after clock sha chunking scheme readKey file more) ∧
              ∃ s since, ∀ (again : Instant) (other : TrustState.OperatorTrustPolicy Key), since ≤ again →
                rotate clock again sha chunking scheme other candidate attestation file =
                  (.ok s, file) := by
  refine ⟨?_, ?_, ?_, ?_, ?_⟩
  · intro now specs policy raw s configured read verified
    exact verified_chained (fromSpecs_sound configured) read verified
  · intro calls text stored
    rcases after_held clock sha chunking scheme readKey calls with none | ⟨s, policy, since, holds⟩
    · rw [none] at stored
      cases stored
    · obtain ⟨specs, configured⟩ := holds.configured
      obtain ⟨chained, same⟩ := holds.chained
      rw [stored] at holds
      exact ⟨specs, policy, since, s, configured, chained, same,
        fun later order => ⟨holds.read later order, holds.verified later order⟩⟩
  · intro calls more now later s t first second
    rcases after_held clock sha chunking scheme readKey calls with none | ⟨u, policy, since, holds⟩
    · rw [none] at first
      cases first
    · obtain ⟨v, policy', since', held, continues⟩ := holds.after more
      rw [after, List.foldl_append] at second
      obtain rfl := Option.some.inj (holds.eq_of_get first)
      obtain rfl := Option.some.inj (held.eq_of_get second)
      exact ⟨continues, continues.within holds.chained.1 held.chained.1⟩
  · intro call file file' e raised
    exact run_refused raised
  · intro calls now specs current candidate attestation answer file named run
    obtain ⟨past, read, outcome⟩ := (rotate_ends named).ok run
    -- repeated or carried out, the file now holds a state with this rotation at its end
    have held : ∃ s policy since, Holds clock sha chunking scheme readKey file s policy since ∧
        s.completed candidate attestation = true ∧ ∀ later, now ≤ later →
          s.verify clock later sha scheme candidate = .ok () := by
      rcases outcome with ⟨rfl, completed, verified⟩ | ⟨_, s, held, _, completed⟩
      · rcases after_held clock sha chunking scheme readKey calls with none | ⟨u, policy, since, holds⟩
        · rw [none] at read
          cases read
        · obtain rfl := Option.some.inj (holds.eq_of_get read)
          exact ⟨past, policy, since, holds, completed, fun later order => verify_later order verified⟩
      · exact ⟨s, candidate, now, held, completed, held.verified⟩
    obtain ⟨s, policy, since, holds, completed, verified⟩ := held
    refine ⟨fun more again other => holds.rotate_again named completed more again, s, max since now, ?_⟩
    intro again other order
    exact holds.rotate_returns (le_of_max_le_left order) completed
      (verified again (le_of_max_le_right order))

namespace TrustState
namespace TwoKeys

/-- A clock that stands still. -/
def clock : WallClock (Fin 1) where
  parse s := if s = Points.ofString "2026-01-05T09:00:00Z" then some (some 0) else none
  utcNow _ := "2026-01-05T09:00:00Z"
  horizon := id
  utcNow_short := by decide
  parse_utcNow := by decide
  parse_unpaired s t parsed := by
    split at parsed
    next known =>
      rw [known]
      exact unpaired_ofString _
    · cases parsed
  le_horizon _ := le_rfl
  horizon_mono _ _ order := order

def digest (c : Char) : String := String.ofList (List.replicate 64 c)

def sha : TextHash := fun text => digest (if text.contains 'z' then 'b' else 'a')

/-- Two keys, that sign with zeros. -/
def scheme : SignatureScheme Bool where
  publicKey key := Points.ofString (if key then "z" else "y")
  verifies _ signature _ := signature == List.replicate 64 0
  signed _ _ := True
  unforgeable _ _ _ _ := trivial

def readKey (path : Points) : Option (KeyFile Bool) :=
  if path = Points.ofString "y.pem" then some ⟨113, some false⟩
  else if path = Points.ofString "z.pem" then some ⟨113, some true⟩
  else none

def spec (text : String) : TrustSpec := ⟨Points.ofString text, unpaired_ofString text⟩

def enrollment : Call (Fin 1) := .resolve 0 [spec "Zoe=y.pem"] false

/-- Zoe admits the key of Ann. -/
def rotation : Call (Fin 1) := .rotate 0 [spec "Zoe=y.pem"] [spec "Zoe=y.pem", spec "Ann=z.pem"] (record [
  ("schema_name", textData "defiant.operator.trust_transition"), ("schema_version", textData "0.1.0"),
  ("algorithm", textData "Ed25519"), ("purpose", textData "operator_trust_rotation"),
  ("key_id", textData ("sha256:" ++ digest 'a')), ("signed_at", textData "2026-01-05T09:00:00Z"),
  ("operator", textData "Zoe"), ("note", textData "second key"), ("from_generation", .int 1),
  ("to_generation", .int 2), ("from_bindings_hash", textData ("sha256:" ++ digest 'a')),
  ("to_bindings_hash", textData ("sha256:" ++ digest 'a')),
  ("signature", textData ("base64:" ++ String.ofList (List.replicate 86 'A') ++ "=="))])

/-- The file after some calls on a fresh store. -/
def file (calls : List (Call (Fin 1))) : Option (List Char) := after clock sha .single scheme readKey none calls

/-- How many operators and rotations the state of a file has. -/
def counts (file : Option (List Char)) : Option (Nat × Nat) :=
  (get clock 0 sha .single file).toOption.join.map fun s => (s.bindings.length, s.transitions.length)

theorem counts_some {file : Option (List Char)} {n : Nat × Nat} (counted : counts file = some n) :
    ∃ s, get clock 0 sha .single file = .ok (some s) ∧ (s.bindings.length, s.transitions.length) = n := by
  cases read : get clock 0 sha .single file with
  | error e =>
    rw [counts, read] at counted
    cases counted
  | ok stored =>
    rw [counts, read] at counted
    cases stored with
    | none => cases counted
    | some s => exact ⟨s, rfl, Option.some.inj counted⟩

theorem enrolled_counts : counts (file [enrollment]) = some (1, 0) := by decide +kernel

theorem rotated_counts : counts (file [enrollment, rotation]) = some (2, 1) := by decide +kernel

/-- A store that is enrolled with one operator and rotated to two keeps the first. -/
theorem operator_trust_chained_rotated : ∃ s t,
    get clock 0 sha .single (file [enrollment]) = .ok (some s) ∧ s.bindings.length = 1 ∧
      get clock 0 sha .single (file [enrollment, rotation]) = .ok (some t) ∧ t.bindings.length = 2 ∧
        Continues s t ∧ Within s.bindings t.bindings ∧ Chained sha scheme t := by
  obtain ⟨s, first, few⟩ := counts_some enrolled_counts
  obtain ⟨t, second, more⟩ := counts_some rotated_counts
  obtain ⟨_, stored, grows, _⟩ := operator_trust_chained clock sha .single scheme readKey
  obtain ⟨continues, within⟩ := grows [enrollment] [rotation] 0 0 s t first second
  refine ⟨s, t, first, (Prod.mk.inj few).1, second, (Prod.mk.inj more).1, continues, within, ?_⟩
  cases written : file [enrollment, rotation] with
  | none =>
    rw [written] at second
    cases second
  | some text =>
    obtain ⟨_, _, since, u, _, chained, _, read⟩ := stored [enrollment, rotation] text written
    rw [written] at second
    rwa [Option.some.inj (get_unique second (read 0 (Subsingleton.elim since 0).le).1)]

end TwoKeys
end TrustState

end DefiantHarness
