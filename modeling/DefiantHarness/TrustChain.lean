import DefiantHarness.JournalReading
import DefiantHarness.OperatorTrustState

/-! Accepted trust documents are chains of signed additive rotations. -/
namespace DefiantHarness

open Foundation

namespace TrustState

/-- Every key of the first bindings stays with its operator in the second. -/
def Within (b c : Bindings) : Prop := ∀ operator keyId, b.Binds operator keyId → c.Binds operator keyId

theorem Within.refl (b : Bindings) : Within b b := fun _ _ => id

theorem Within.trans {b c d : Bindings} (first : Within b c) (second : Within c d) : Within b d :=
  fun operator keyId bound => second operator keyId (first operator keyId bound)

/-- Operators and keys stand in strict order, and every operator has a key. -/
structure Ordered (b : Bindings) : Prop where
  operators : (b.map (·.1)).Pairwise (· < ·)
  keys : ∀ e ∈ b, e.2.Pairwise (· < ·) ∧ e.2 ≠ []

section Chains

variable {Key : Type} (sha : TextHash) (scheme : SignatureScheme Key)

/-- One signed additive rotation from the bindings of a generation. -/
structure Rotation (generation : Nat) (b : Bindings) (t : TrustTransition) : Prop where
  changes : b ≠ t.bindings
  grows : Within b t.bindings
  fromGeneration : intAt "from_generation" t.attestation = some (generation : Int)
  toGeneration : intAt "to_generation" t.attestation = some (generation + 1 : Int)
  fromHash : textAt "from_bindings_hash" t.attestation = some (sha256Of sha b.toDict)
  toHash : textAt "to_bindings_hash" t.attestation = some (sha256Of sha t.bindings.toDict)
  /-- The statement is signed with a key that the generation before binds to its operator. -/
  signer : ∃ operator key, textAt "operator" t.attestation = some operator ∧
    textAt "key_id" t.attestation = some (publicKeyId sha scheme key) ∧
      b.Binds operator (publicKeyId sha scheme key) ∧ scheme.signed key (statementBytes t.attestation)

/-- Rotations from a generation and its bindings to the last ones. -/
inductive Chain : Nat → Bindings → List TrustTransition → Bindings → Prop where
  | done (generation : Nat) (b : Bindings) : Chain generation b [] b
  | rotate {generation : Nat} {b last : Bindings} {t : TrustTransition} {ts : List TrustTransition}
    (rotation : Rotation sha scheme generation b t)
    (rest : Chain (generation + 1) t.bindings ts last) : Chain generation b (t :: ts) last

/-- A state whose generations are a chain, and in which no key ever changes its operator. -/
structure Chained (s : OperatorTrustState) : Prop where
  chain : Chain sha scheme 1 s.initialBindings s.transitions s.bindings
  generation : s.generation = s.transitions.length + 1
  initialHash : s.initialBindingsHash = sha256Of sha s.initialBindings.toDict
  currentHash : s.bindingsHash = sha256Of sha s.bindings.toDict
  grows : s.generations.Pairwise Within
  owner : ∀ b ∈ s.generations, ∀ c ∈ s.generations, ∀ keyId operator other,
    b.Binds operator keyId → c.Binds other keyId → operator = other

variable {sha scheme}

theorem Chain.within {generation : Nat} {b last : Bindings} {ts : List TrustTransition}
    (chain : Chain sha scheme generation b ts last) : Within b last := by
  induction chain with
  | done generation b => exact Within.refl b
  | rotate rotation _ ih => exact rotation.grows.trans ih

theorem Chain.all_within {generation : Nat} {b last : Bindings} {ts : List TrustTransition}
    (chain : Chain sha scheme generation b ts last) :
    ∀ c ∈ b :: ts.map (·.bindings), Within c last := by
  induction chain with
  | done generation b => simpa using Within.refl b
  | rotate rotation rest ih =>
    rw [List.forall_mem_cons]
    refine ⟨rotation.grows.trans rest.within, ?_⟩
    simpa using ih

theorem Chain.grows {generation : Nat} {b last : Bindings} {ts : List TrustTransition}
    (chain : Chain sha scheme generation b ts last) :
    (b :: ts.map (·.bindings)).Pairwise Within := by
  induction chain with
  | done generation b => simp
  | @rotate generation b last t ts rotation rest ih =>
    rw [List.map_cons, List.pairwise_cons]
    refine ⟨?_, ih⟩
    intro c member
    -- everything after the rotation contains what the rotation has added
    have later : Within t.bindings c := by
      rcases List.mem_cons.1 member with rfl | further
      · exact Within.refl _
      · exact (List.pairwise_cons.1 ih).1 c further
    exact rotation.grows.trans later

end Chains

/-! ### What the checks establish -/

theorem sortedSet_eq_iff {texts : List Points} :
    sortedSet texts = texts ↔ texts.Pairwise (· < ·) := by
  constructor
  · intro same
    have sorted : texts.Pairwise (· ≤ ·) := by
      rw [← same]
      exact List.pairwise_insertionSort _ _
    have distinct : texts.Nodup := by
      rw [← same]
      exact (List.perm_insertionSort _ _).nodup_iff.2 (List.nodup_dedup texts)
    exact (sorted.and distinct).imp fun both => lt_of_le_of_ne both.1 both.2
  · intro strict
    have distinct : texts.dedup = texts := List.Nodup.dedup (strict.imp fun below => below.ne)
    rw [sortedSet, distinct]
    exact (strict.imp fun below => below.le).insertionSort_eq

theorem keyIdOf_eq_some {x : Data} {s : Points} (found : keyIdOf x = some s) : x = .str s := by
  cases x with
  | str t =>
    rw [keyIdOf] at found
    split at found
    · rw [Option.some.inj found]
    · cases found
  | _ => cases found

private theorem keyIds_shape {items : List Data} {keyIds : List Points}
    (read : items.mapM keyIdOf = some keyIds) : items = keyIds.map .str := by
  induction items generalizing keyIds with
  | nil =>
    rw [List.mapM_nil] at read
    rw [← Option.some.inj read]
    rfl
  | cons x xs ih =>
    simp only [List.mapM_cons, bind, Option.bind_eq_some_iff, pure, Option.some.injEq] at read
    obtain ⟨s, first, rest, others, rfl⟩ := read
    rw [keyIdOf_eq_some first, ih others, List.map_cons]

theorem keySet_ok {value : Data} {field : String} {keyIds : List Points}
    (read : keySet value field = .ok keyIds) :
    value = .arr (keyIds.map .str) ∧ keyIds.Pairwise (· < ·) ∧ keyIds ≠ [] := by
  unfold keySet at read
  split at read
  · simp only [bind_ok_iff, orRefuse_ok_iff, refuseIf_ok_iff, pure_ok_iff, not_not,
      sortedSet_eq_iff] at read
    obtain ⟨_, listed, _, sorted, rfl⟩ := read
    have shape := keyIds_shape listed
    refine ⟨by rw [shape], sorted, ?_⟩
    rintro rfl
    cases shape
  · cases read

theorem operatorEntries_ok {field : String} {count : Nat} {fields : List Field} {b : Bindings}
    (read : operatorEntries field count fields = .ok b) :
    fields = b.map (fun e => (e.1, Data.arr (e.2.map .str))) ∧
      ∀ e ∈ b, e.2.Pairwise (· < ·) ∧ e.2 ≠ [] := by
  induction fields generalizing count b with
  | nil =>
    rw [operatorEntries, pure_ok_iff] at read
    subst read
    simp
  | cons f fs ih =>
    obtain ⟨operator, value⟩ := f
    simp only [operatorEntries, bind_ok_iff, refuseIf_ok_iff, pure_ok_iff] at read
    obtain ⟨_, _, keyIds, keys, _, _, entries, rest, rfl⟩ := read
    obtain ⟨shape, sorted, some⟩ := keySet_ok keys
    obtain ⟨tail, each⟩ := ih rest
    constructor
    · rw [List.map_cons, ← tail, shape]
    · rw [List.forall_mem_cons]
      exact ⟨⟨sorted, some⟩, each⟩

/-- Checked bindings are the ones of the document, in order. -/
theorem checkBindings_ok {value : Option Data} {field : String} {b : Bindings}
    (read : checkBindings value field = .ok b) : value = some b.toDict ∧ Ordered b := by
  unfold checkBindings at read
  split at read
  · simp only [bind_ok_iff, refuseIf_ok_iff, pure_ok_iff, not_not, sortedSet_eq_iff] at read
    obtain ⟨_, _, _, entries, _, sorted, rfl⟩ := read
    obtain ⟨shape, each⟩ := operatorEntries_ok entries
    rw [shape]
    exact ⟨rfl, sorted, each⟩
  · cases read

theorem keysOf_binds {b : Bindings} {operator keyId : Points} (listed : keyId ∈ b.keysOf operator) :
    b.Binds operator keyId := by
  rw [Bindings.keysOf] at listed
  cases found : b.find? (·.1 == operator) with
  | none => simp [found] at listed
  | some e =>
    have name : e.1 = operator := by simpa using List.find?_some found
    rw [found] at listed
    exact ⟨e, List.mem_of_find?_eq_some found, name, listed⟩

theorem isAdditive_iff_within {b c : Bindings} (additive : isAdditive b c = true) :
    b ≠ c ∧ Within b c := by
  simp only [isAdditive, Bool.and_eq_true, bne_iff_ne, List.all_eq_true] at additive
  refine ⟨additive.1, ?_⟩
  rintro operator keyId ⟨e, member, rfl, listed⟩
  have inside := (additive.2 e member).2 keyId listed
  exact keysOf_binds (by simpa using inside)

section Accepted

variable {Instant : Type} [LinearOrder Instant] {clock : WallClock Instant} {now : Instant}
  {sha : TextHash} {chunking : Chunking}

/-- Each transition adds to the bindings before it, up to the last ones. -/
def Additive : Bindings → List TrustTransition → Bindings → Prop
  | b, [], last => last = b
  | b, t :: ts, last => isAdditive b t.bindings = true ∧ Additive t.bindings ts last

theorem checkTransition_ok {index : Nat} {b : Bindings} {previousHash : Points}
    {previousTime signedAt : Instant} {raw : Data} {t : TrustTransition}
    (read : checkTransition clock now sha index b previousHash previousTime raw = .ok (t, signedAt)) :
    isAdditive b t.bindings = true := by
  simp only [checkTransition, bind_ok_iff, refuseIf_ok_iff, pure_ok_iff, Prod.mk.injEq,
    Bool.not_eq_false] at read
  obtain ⟨_, _, _, _, _, additive, _, _, _, _, _, _, _, _, rfl, rfl⟩ := read
  exact additive

theorem checkTransitions_length {items : List Data} {index : Nat} {b last : Bindings}
    {previousHash lastHash : Points} {previousTime lastTime : Instant} {ts : List TrustTransition}
    (read : checkTransitions clock now sha index b previousHash previousTime items =
      .ok (ts, last, lastHash, lastTime)) : items.length = ts.length := by
  induction items generalizing index b previousHash previousTime ts with
  | nil =>
    rw [checkTransitions, pure_ok_iff, Prod.mk.injEq] at read
    rw [read.1]
    rfl
  | cons raw rest ih =>
    simp only [checkTransitions, bind_ok_iff, pure_ok_iff, Prod.exists, Prod.mk.injEq] at read
    obtain ⟨_, _, _, _, _, _, _, others, rfl, rfl, rfl, rfl⟩ := read
    rw [List.length_cons, List.length_cons, ih others]

theorem checkTransitions_additive {items : List Data} {index : Nat} {b last : Bindings}
    {previousHash lastHash : Points} {previousTime lastTime : Instant} {ts : List TrustTransition}
    (read : checkTransitions clock now sha index b previousHash previousTime items =
      .ok (ts, last, lastHash, lastTime)) : Additive b ts last := by
  induction items generalizing index b previousHash previousTime ts with
  | nil =>
    rw [checkTransitions, pure_ok_iff, Prod.mk.injEq, Prod.mk.injEq] at read
    rw [read.1, Additive]
    exact read.2.1
  | cons raw rest ih =>
    simp only [checkTransitions, bind_ok_iff, pure_ok_iff, Prod.exists, Prod.mk.injEq] at read
    obtain ⟨t, signedAt, first, _, _, _, _, others, rfl, rfl, rfl, rfl⟩ := read
    exact ⟨checkTransition_ok first, ih others⟩

private theorem textAt_of_timestamp {name field : String} {fields : List Field} {time : Instant}
    (read : timestamp clock now (fieldAt (Points.ofString name) fields) field = .ok time) :
    ∃ s, textAt name fields = some s := by
  unfold timestamp at read
  split at read
  next s found => exact ⟨s, by rw [textAt, found]⟩
  · cases read

theorem trustStateSnapshot_ok_iff {raw : Data} {fields : List Field} :
    trustStateSnapshot sha chunking raw = .ok fields ↔
      raw = .obj fields ∧ Hashable maxStateBytes (.ofData raw) := by
  simp only [trustStateSnapshot, bind_ok_iff, mapError_ok_iff, Prod.exists,
    authoritySnapshot_ok_iff (n := maxStateBytes) (by decide) (by decide)]
  constructor
  · rintro ⟨_, _, ⟨hashable, _, _⟩, object⟩
    split at object
    · exact ⟨by rw [pure_ok_iff.1 object], hashable⟩
    · cases object
  · rintro ⟨rfl, hashable⟩
    exact ⟨_, _, ⟨hashable, rfl, rfl⟩, rfl⟩

variable (clock now sha) in
/-- What reading the fields of a document as a state checks, with the two times in it. -/
structure Accepted (fields : List Field) (s : OperatorTrustState) (enrolled updated : Instant) :
    Prop where
  names : namesExactly stateFields fields = true
  schema : textAt "schema_name" fields = some (Points.ofString trustStateSchema)
  version : textAt "schema_version" fields = some (Points.ofString trustStateVersion)
  mode : textAt "mode" fields = some (Points.ofString signedRequired)
  generation : intAt "generation" fields = some (s.generation : Int)
  enrolledAt : timestamp clock now (fieldAt (Points.ofString "enrolled_at") fields) "enrolled_at" =
    .ok enrolled
  enrolledText : textAt "enrolled_at" fields = some s.enrolledAt
  updatedAt : timestamp clock now (fieldAt (Points.ofString "updated_at") fields) "updated_at" =
    .ok updated
  updatedText : textAt "updated_at" fields = some s.updatedAt
  order : enrolled ≤ updated
  initial : checkBindings (fieldAt (Points.ofString "initial_bindings") fields) "initial_bindings" =
    .ok s.initialBindings
  current : checkBindings (fieldAt (Points.ofString "bindings") fields) "bindings" = .ok s.bindings
  initialHash : hash (fieldAt (Points.ofString "initial_bindings_hash") fields)
    "initial_bindings_hash" = .ok s.initialBindingsHash
  currentHash : hash (fieldAt (Points.ofString "bindings_hash") fields) "bindings_hash" =
    .ok s.bindingsHash
  initialValue : s.initialBindingsHash = sha256Of sha s.initialBindings.toDict
  currentValue : s.bindingsHash = sha256Of sha s.bindings.toDict
  transitions : ∃ items, fieldAt (Points.ofString "transitions") fields = some (.arr items) ∧
    items.length ≤ maxTransitions ∧ items.length + 1 = s.generation ∧
      checkTransitions clock now sha 1 s.initialBindings s.initialBindingsHash enrolled items =
        .ok (s.transitions, s.bindings, s.bindingsHash, updated)

theorem fromDict_ok_iff {raw : Data} {s : OperatorTrustState} :
    OperatorTrustState.fromDict clock now sha chunking raw = .ok s ↔
      ∃ fields enrolled updated, raw = .obj fields ∧ Hashable maxStateBytes (.ofData raw) ∧
        Accepted clock now sha fields s enrolled updated := by
  simp only [OperatorTrustState.fromDict, bind_ok_iff, trustStateSnapshot_ok_iff, refuseIf_ok_iff,
    orRefuse_ok_iff, not_not, not_lt, Bool.not_eq_false]
  constructor
  · rintro ⟨fields, ⟨shape, hashable⟩, _, names, _, schema, _, version, _, mode, generation, number, _,
      positive, enrolled, enrolledAt, updated, updatedAt, _, order, initial, initialRead, current,
      currentRead, initialHash, initialHashRead, currentHash, currentHashRead, _, initialValue, _,
      currentValue, rest⟩
    obtain ⟨enrolledText, textFound⟩ := textAt_of_timestamp enrolledAt
    obtain ⟨updatedText, textFound'⟩ := textAt_of_timestamp updatedAt
    split at rest
    next items found =>
      simp only [bind_ok_iff, refuseIf_ok_iff, not_lt, not_not, not_or, pure_ok_iff, Prod.exists] at rest
      obtain ⟨_, few, _, count, ts, last, lastHash, lastTime, chain, _, ⟨rfl, rfl⟩, _, rfl, rfl⟩ := rest
      rw [textFound, textFound']
      refine ⟨fields, enrolled, updated, shape, hashable, names, schema, version, mode, ?_, enrolledAt,
        textFound, updatedAt, textFound', order, initialRead, currentRead, initialHashRead,
        currentHashRead, initialValue, currentValue, items, found, few, ?_, chain⟩
      · rw [number, Int.toNat_of_nonneg (by omega)]
      · dsimp only
        omega
    · cases rest
  · rintro ⟨fields, enrolled, updated, shape, hashable, accepted⟩
    obtain ⟨items, found, few, count, chain⟩ := accepted.transitions
    refine ⟨fields, ⟨shape, hashable⟩, (), accepted.names, (), accepted.schema, (), accepted.version, (),
      accepted.mode, _, accepted.generation, (), by omega, _, accepted.enrolledAt, _, accepted.updatedAt,
      (), accepted.order, _, accepted.initial, _, accepted.current, _, accepted.initialHash, _,
      accepted.currentHash, (), accepted.initialValue, (), accepted.currentValue, ?_⟩
    rw [found]
    simp only [bind_ok_iff, refuseIf_ok_iff, not_lt, not_not, not_or, pure_ok_iff, Prod.exists, chain,
      Except.ok.injEq, Prod.mk.injEq]
    refine ⟨(), few, (), by omega, _, _, _, _, ⟨rfl, rfl, rfl, rfl⟩, (), ⟨rfl, rfl⟩, (), rfl, ?_⟩
    rw [accepted.enrolledText, accepted.updatedText]
    rfl

/-! ### Signed statements -/

theorem compareDigest_ok_iff {s t : Points} {same : Bool} :
    compareDigest s t = .ok same ↔
      asciiPoints s = true ∧ asciiPoints t = true ∧ same = (s == t) := by
  simp only [compareDigest, refuseIf_bind_ok_iff, pure_ok_iff, not_or, Bool.not_eq_false, and_assoc]

theorem requireText_ok_iff {name : String} {attestation : List Field} {expected : Points} :
    requireText name attestation expected = .ok () ↔
      (textAt name attestation).getD [] = expected ∧ asciiPoints expected = true := by
  simp only [requireText, bind_ok_iff, compareDigest_ok_iff, refuseIf_ok_iff, Bool.not_eq_false]
  constructor
  · rintro ⟨_, ⟨_, plain, rfl⟩, same⟩
    exact ⟨beq_iff_eq.1 same, plain⟩
  · rintro ⟨same, plain⟩
    exact ⟨true, ⟨same ▸ plain, plain, by rw [same, beq_self_eq_true]⟩, rfl⟩

theorem boundedText_ok {name field : String} {fields : List Field} {maximum : Nat} {s : Points}
    (read : boundedText (fieldAt (Points.ofString name) fields) field maximum = .ok s) :
    textAt name fields = some s := by
  unfold boundedText at read
  split at read
  next t found =>
    simp only [bind_ok_iff, pure_ok_iff] at read
    obtain ⟨_, _, _, _, rfl⟩ := read
    rw [textAt, found]
  · cases read

/-- The texts of a statement. -/
def statementTexts : List String := ["schema_name", "schema_version", "algorithm", "purpose",
  "key_id", "operator", "note", "from_bindings_hash", "to_bindings_hash", "signature", "signed_at"]

theorem unpaired_iff_isChain {s : Points} :
    s.unpaired = true ↔ s.IsChain fun c d => (c.high && d.low) = false := by
  induction s with
  | nil => simp [Points.unpaired]
  | cons c s ih =>
    cases s with
    | nil => simp [Points.unpaired]
    | cons d s =>
      rw [List.isChain_cons_cons, ← ih, Points.unpaired, Bool.and_eq_true, Bool.not_eq_true']

theorem unpaired_ascii {s : Points} (plain : asciiPoints s = true) : s.unpaired = true := by
  rw [unpaired_iff_isChain]
  apply List.Pairwise.isChain
  rw [List.pairwise_iff_forall_sublist]
  intro c d inside
  have small := List.all_eq_true.1 plain c (inside.subset (by simp))
  simp only [decide_eq_true_eq] at small
  have basic : c.high = false := by
    simp only [CodePoint.high, Bool.and_eq_false_iff, decide_eq_false_iff_not]
    omega
  rw [basic, Bool.false_and]

private theorem ascii_of_prefix {s t : Points} (prefixed : s.isPrefixOf t = true)
    (head : asciiPoints s = true) (tail : asciiPoints (t.drop s.length) = true) :
    asciiPoints t = true := by
  obtain ⟨rest, rfl⟩ := List.isPrefixOf_iff_prefix.1 prefixed
  rw [List.drop_left] at tail
  rw [asciiPoints, List.all_append, Bool.and_eq_true]
  exact ⟨head, tail⟩

theorem isHash_ascii {s : Points} (formed : isHash s = true) : asciiPoints s = true := by
  simp only [isHash, Bool.and_eq_true, List.all_eq_true] at formed
  obtain ⟨⟨prefixed, _⟩, digits⟩ := formed
  apply ascii_of_prefix prefixed (by decide)
  rw [asciiPoints, List.all_eq_true]
  intro c member
  have hex : asciiPoints (Points.ofString "0123456789abcdef") = true := by decide
  exact List.all_eq_true.1 hex c (by simpa using digits c member)

private theorem sextet_ascii {c : CodePoint} {i : Nat} (found : sextet c = some i) : c.val < 0x80 := by
  have table : asciiPoints sextets = true := by decide
  obtain ⟨d, member, same⟩ := List.findIdx?_isSome.symm.trans
    (by rw [show sextets.findIdx? (· == c) = some i from found]; rfl) |> List.any_eq_true.1
  have small := List.all_eq_true.1 table d member
  rw [← beq_iff_eq.1 same]
  simpa using small

private theorem base64Bytes_ascii {s : Points} {bytes : List Nat} (read : base64Bytes s = some bytes) :
    asciiPoints s = true := by
  induction s using base64Bytes.induct generalizing bytes with
  | case1 => rfl
  | case2 a b c d rest ih =>
    simp only [base64Bytes, bind, Option.bind_eq_some_iff] at read
    obtain ⟨i, first, j, second, read⟩ := read
    have left := sextet_ascii first
    have next := sextet_ascii second
    simp only [asciiPoints, List.all_cons, left, next, decide_true, Bool.true_and]
    split at read
    next padded =>
      have pad : asciiPoints ([c, d] ++ rest) = true := by
        rw [padded.1, padded.2]
        decide
      exact pad
    · obtain ⟨k, third, read⟩ := Option.bind_eq_some_iff.1 read
      have more := sextet_ascii third
      simp only [more, decide_true, Bool.true_and]
      split at read
      next padded =>
        have pad : asciiPoints ([d] ++ rest) = true := by
          rw [padded.1, padded.2]
          decide
        exact pad
      · obtain ⟨l, fourth, read⟩ := Option.bind_eq_some_iff.1 read
        obtain ⟨tail, others, _⟩ := Option.bind_eq_some_iff.1 read
        have last := sextet_ascii fourth
        simp only [last, decide_true, Bool.true_and]
        exact ih others
  | case3 s empty short =>
    rw [base64Bytes] at read
    · cases read
    · exact empty
    · exact short

theorem decodeSignature_ascii {s : Points} {bytes : List Nat} (read : decodeSignature s = .ok bytes) :
    asciiPoints s = true := by
  simp only [decodeSignature, bind_ok_iff, refuseIf_ok_iff, orRefuse_ok_iff, Bool.not_eq_false] at read
  obtain ⟨_, prefixed, _, decoded, _⟩ := read
  exact ascii_of_prefix prefixed (by decide) (base64Bytes_ascii decoded)

/-- A statement that follows the schema, at whatever time it is read. -/
structure Formed (attestation : List Field) : Prop where
  names : namesExactly attestationFields attestation = true
  texts : ∀ name ∈ statementTexts, ∃ s, textAt name attestation = some s
  generations : ∃ i j, intAt "from_generation" attestation = some i ∧
    intAt "to_generation" attestation = some j
  /-- Texts that the schema fixes, or decodes, come from decoded text. -/
  unpaired : ∀ name ∈ statementTexts, name ≠ "operator" → name ≠ "note" →
    ((textAt name attestation).getD []).unpaired = true

theorem validateTrustTransition_formed {attestation : List Field}
    (valid : validateTrustTransition clock now attestation = .ok ()) : Formed attestation := by
  simp only [validateTrustTransition, positiveAt, parsedTimestamp, bind_ok_iff, refuseIf_ok_iff,
    orRefuse_ok_iff, pure_ok_iff, not_not, not_or, Bool.not_eq_false] at valid
  obtain ⟨_, names, _, schema, _, version, _, algorithm, _, purpose, keyId, keyIdRead, _, operatorRead,
    _, noteRead, _, fromRead, _, toRead, signature, signatureRead, _, ⟨_, fromGeneration, _⟩, _,
    ⟨_, toGeneration, _⟩, _, _, _, keyIdFormed, _, ⟨fromFormed, toFormed⟩, signedAt, signedAtRead, time,
    ⟨_, parsed, zoned⟩, _, _, bytes, decoded, _⟩ := valid
  have key := boundedText_ok keyIdRead
  have first := boundedText_ok fromRead
  have second := boundedText_ok toRead
  have signed := boundedText_ok signatureRead
  have at_ := boundedText_ok signedAtRead
  have operator := boundedText_ok operatorRead
  have note := boundedText_ok noteRead
  refine ⟨names, ?_, ⟨_, _, fromGeneration, toGeneration⟩, ?_⟩
  · simp only [statementTexts, List.forall_mem_cons, List.not_mem_nil, false_implies, implies_true,
      and_true]
    exact ⟨⟨_, schema⟩, ⟨_, version⟩, ⟨_, algorithm⟩, ⟨_, purpose⟩, ⟨_, key⟩, ⟨_, operator⟩, ⟨_, note⟩,
      ⟨_, first⟩, ⟨_, second⟩, ⟨_, signed⟩, ⟨_, at_⟩⟩
  · simp only [statementTexts, List.forall_mem_cons, List.not_mem_nil, implies_true,
      and_true, schema, version, algorithm, purpose, key, first, second, signed, at_, Option.getD_some,
      ne_eq, not_true_eq_false, IsEmpty.forall_iff]
    refine ⟨fun _ _ => unpaired_ofString _, fun _ _ => unpaired_ofString _,
      fun _ _ => unpaired_ofString _, fun _ _ => unpaired_ofString _,
      fun _ _ => unpaired_ascii (isHash_ascii keyIdFormed), trivial, trivial,
      fun _ _ => unpaired_ascii (isHash_ascii fromFormed),
      fun _ _ => unpaired_ascii (isHash_ascii toFormed),
      fun _ _ => unpaired_ascii (decodeSignature_ascii decoded),
      fun _ _ => clock.parse_unpaired _ _ parsed⟩

variable {Key : Type} {scheme : SignatureScheme Key} {policy : OperatorTrustPolicy Key}

private theorem text_of_required {attestation : List Field} {name : String} {expected : Points}
    (formed : Formed attestation) (listed : name ∈ statementTexts)
    (required : requireText name attestation expected = .ok ()) :
    textAt name attestation = some expected := by
  obtain ⟨s, found⟩ := formed.texts name listed
  have same := (requireText_ok_iff.1 required).1
  rw [found] at same ⊢
  exact congrArg some same

/-- What a verified statement says, and the key that it verifies under. -/
structure Attested (policy : OperatorTrustPolicy Key) (scheme : SignatureScheme Key)
    (attestation : List Field) (generation : Nat) (fromHash toHash operator note : Points) : Prop where
  fromGeneration : intAt "from_generation" attestation = some (generation : Int)
  toGeneration : intAt "to_generation" attestation = some (generation + 1 : Int)
  fromText : textAt "from_bindings_hash" attestation = some fromHash
  toText : textAt "to_bindings_hash" attestation = some toHash
  operatorText : textAt "operator" attestation = some (strip operator)
  noteText : textAt "note" attestation = some (strip note)
  plain : asciiPoints (strip operator) = true ∧ asciiPoints (strip note) = true
  signer : ∃ keyId key signature, textAt "key_id" attestation = some keyId ∧
    policy.key? (strip operator) keyId = some key ∧
      scheme.verifies key signature (statementBytes attestation) = true

theorem requireTrustTransition_attested {attestation : List Field} {generation : Nat}
    {fromHash toHash operator note : Points}
    (required : policy.requireTrustTransition clock now scheme attestation generation fromHash toHash
      operator note = .ok ()) :
    Formed attestation ∧ Attested policy scheme attestation generation fromHash toHash operator
      note := by
  simp only [OperatorTrustPolicy.requireTrustTransition, bind_ok_iff, refuseIf_ok_iff, orRefuse_ok_iff,
    not_not, Bool.not_eq_false] at required
  obtain ⟨_, valid, _, fromGeneration, _, toGeneration, _, fromText, _, toText, _, operatorText, _,
    noteText, key, trusted, signature, _, verified⟩ := required
  have formed := validateTrustTransition_formed valid
  obtain ⟨keyId, found⟩ := formed.texts "key_id" (by decide)
  rw [found] at trusted
  exact ⟨formed, {
    fromGeneration, toGeneration
    fromText := text_of_required formed (by decide) fromText
    toText := text_of_required formed (by decide) toText
    operatorText := text_of_required formed (by decide) operatorText
    noteText := text_of_required formed (by decide) noteText
    plain := ⟨(requireText_ok_iff.1 operatorText).2, (requireText_ok_iff.1 noteText).2⟩
    signer := ⟨keyId, key, signature, found, trusted, verified⟩ }⟩

/-- Identifiers name their keys, no key has two operators, and names come from decoded text. -/
structure OperatorTrustPolicy.Sound (sha : TextHash) (scheme : SignatureScheme Key)
    (policy : OperatorTrustPolicy Key) : Prop where
  keyed : ∀ operator keyId key, policy.key? operator keyId = some key →
    publicKeyId sha scheme key = keyId
  owner : ∀ keyId operator other, policy.bindings.Binds operator keyId →
    policy.bindings.Binds other keyId → operator = other
  unpaired : ∀ e ∈ policy.bindings, e.1.unpaired = true ∧ ∀ keyId ∈ e.2, keyId.unpaired = true

theorem verifyTransition_rotation (sound : policy.Sound sha scheme) {index : Nat} {b : Bindings}
    {t : TrustTransition} (additive : isAdditive b t.bindings = true)
    (verified : verifyTransition clock now sha scheme policy index b (sha256Of sha b.toDict) t = .ok ()) :
    Rotation sha scheme index b t := by
  simp only [verifyTransition, bind_ok_iff, orRefuse_ok_iff, refuseIf_ok_iff, Bool.not_eq_false] at verified
  obtain ⟨operator, named, keyId, listed, _, held, required⟩ := verified
  obtain ⟨formed, attested⟩ := requireTrustTransition_attested required
  obtain ⟨keyId', key, signature, listed', trusted, signed⟩ := attested.signer
  obtain rfl : keyId' = keyId := Option.some.inj (listed'.symm.trans listed)
  have name := sound.keyed _ _ _ trusted
  obtain ⟨changes, grows⟩ := isAdditive_iff_within additive
  refine ⟨changes, grows, attested.fromGeneration, attested.toGeneration, attested.fromText,
    attested.toText, operator, key, named, ?_, ?_, scheme.unforgeable key signature _ signed⟩
  · rw [name]
    exact listed
  · rw [name]
    exact keysOf_binds (by simpa using held)

theorem verifyTransitions_chain (sound : policy.Sound sha scheme) {ts : List TrustTransition}
    {index : Nat} {b last : Bindings} (additive : Additive b ts last)
    (verified : verifyTransitions clock now sha scheme policy index b (sha256Of sha b.toDict) ts =
      .ok ()) : Chain sha scheme index b ts last := by
  induction ts generalizing index b with
  | nil =>
    rw [Additive] at additive
    rw [additive]
    exact .done index b
  | cons t ts ih =>
    rw [verifyTransitions, unit_bind_ok_iff] at verified
    exact .rotate (verifyTransition_rotation sound additive.1 verified.1) (ih additive.2 verified.2)

theorem verify_ok_iff {s : OperatorTrustState} :
    s.verify clock now sha scheme policy = .ok () ↔ policy.bindings = s.bindings ∧
      verifyTransitions clock now sha scheme policy 1 s.initialBindings s.initialBindingsHash
        s.transitions = .ok () := by
  rw [OperatorTrustState.verify, refuseIf_bind_ok_iff, not_not]

/-- A document that is read and verified under configured keys is a chain that ends at them. -/
theorem verified_chained (sound : policy.Sound sha scheme) {raw : Data} {s : OperatorTrustState}
    (read : OperatorTrustState.fromDict clock now sha chunking raw = .ok s)
    (verified : s.verify clock now sha scheme policy = .ok ()) :
    Chained sha scheme s ∧ s.bindings = policy.bindings := by
  obtain ⟨fields, enrolled, updated, _, _, accepted⟩ := fromDict_ok_iff.1 read
  obtain ⟨items, _, _, count, checked⟩ := accepted.transitions
  obtain ⟨same, signatures⟩ := verify_ok_iff.1 verified
  rw [accepted.initialValue] at signatures
  have chain := verifyTransitions_chain sound (checkTransitions_additive checked) signatures
  have length : items.length = s.transitions.length := checkTransitions_length checked
  refine ⟨⟨chain, by omega, accepted.initialValue, accepted.currentValue, chain.grows, ?_⟩, same.symm⟩
  -- every generation lies within the configured keys, where a key has one operator
  intro b first c second keyId operator other bound bound'
  have final := chain.all_within
  have here := final b first operator keyId bound
  have there := final c second other keyId bound'
  rw [← same] at here there
  exact sound.owner keyId operator other here there

end Accepted

/-! ### Keys from arguments -/

theorem unpaired_infix {s t : Points} (inside : t <:+: s) (unpaired : s.unpaired = true) :
    t.unpaired = true := by
  rw [unpaired_iff_isChain] at unpaired ⊢
  exact unpaired.infix inside

theorem strip_within (s : Points) : strip s <:+: s := by
  have right : strip s <+: stripLeft s := by
    rw [← List.reverse_suffix, strip, List.reverse_reverse]
    exact List.dropWhile_suffix _
  exact right.isInfix.trans (List.dropWhile_suffix _).isInfix

section Keys

variable {Key : Type} {sha : TextHash} {scheme : SignatureScheme Key}
  {readKey : Points → Option (KeyFile Key)}

/-- Every key stands under its identifier, which its operator owns. -/
structure Owned (sha : TextHash) (scheme : SignatureScheme Key) (collected : Collected Key) : Prop where
  keyed : ∀ operator keys, collected.keys.lookup operator = some keys →
    ∀ keyId key, keys.lookup keyId = some key →
      publicKeyId sha scheme key = keyId ∧ collected.owners.lookup keyId = some operator
  unpaired : ∀ operator keys, collected.keys.lookup operator = some keys → operator.unpaired = true

private theorem boundedText_some {s t : Points} {field : String} {maximum : Nat}
    (read : boundedText (some (.str s)) field maximum = .ok t) : t = s := by
  simp only [boundedText, bind_ok_iff, pure_ok_iff] at read
  obtain ⟨_, _, _, _, rfl⟩ := read
  rfl

theorem collect_owned {collected next : Collected Key} {spec : TrustSpec}
    (owned : Owned sha scheme collected)
    (taken : collect sha scheme readKey collected spec = .ok next) : Owned sha scheme next := by
  simp only [collect, bind_ok_iff, refuseIf_ok_iff, orRefuse_ok_iff, pure_ok_iff] at taken
  obtain ⟨_, _, operator, bounded, file, _, _, _, _, _, key, _, _, free, rfl⟩ := taken
  have name := boundedText_some bounded
  set keyId := publicKeyId sha scheme key
  -- the key is new, or this operator has it already
  have holder : ∀ previous, collected.owners.lookup keyId = some previous → previous = operator := by
    intro previous found
    by_contra other
    exact free ⟨previous, found, other⟩
  constructor
  · intro op keys found id k listed
    dsimp only at found ⊢
    have kept : ∀ ks, collected.keys.lookup op = some ks → ks.lookup id = some k →
        publicKeyId sha scheme k = id ∧ (collected.owners.set keyId operator).lookup id = some op := by
      intro ks before inside
      obtain ⟨same, owner⟩ := owned.keyed op ks before id k inside
      refine ⟨same, ?_⟩
      by_cases this : id = keyId
      · rw [this, Dict.lookup_set]
        rw [this] at owner
        rw [holder op owner]
      · rw [Dict.lookup_set_ne this, owner]
    by_cases here : op = operator
    · rw [here, Dict.lookup_set, Option.some.injEq] at found
      subst found
      by_cases this : id = keyId
      · rw [this, Dict.lookup_set, Option.some.injEq] at listed
        subst listed
        rw [this, here]
        exact ⟨rfl, Dict.lookup_set _ _ _⟩
      · rw [Dict.lookup_set_ne this] at listed
        cases before : collected.keys.lookup operator with
        | none => simp [before] at listed
        | some ks =>
          rw [before, Option.getD_some] at listed
          exact kept ks (here ▸ before) listed
    · rw [Dict.lookup_set_ne here] at found
      exact kept keys found listed
  · intro op keys found
    dsimp only at found
    by_cases here : op = operator
    · rw [here, name]
      refine unpaired_infix ((strip_within _).trans ?_) spec.unpaired
      exact (List.takeWhile_prefix _).isInfix
    · rw [Dict.lookup_set_ne here] at found
      exact owned.unpaired op keys found

theorem collectAll_owned {specs : List TrustSpec} {collected final : Collected Key}
    (owned : Owned sha scheme collected)
    (taken : collectAll sha scheme readKey collected specs = .ok final) : Owned sha scheme final := by
  induction specs generalizing collected with
  | nil =>
    rw [collectAll, pure_ok_iff] at taken
    exact taken ▸ owned
  | cons spec specs ih =>
    rw [collectAll, bind_ok_iff] at taken
    obtain ⟨next, first, rest⟩ := taken
    exact ih (collect_owned owned first) rest

theorem mem_bindings {policy : OperatorTrustPolicy Key} {e : Points × List Points}
    (member : e ∈ policy.bindings) :
    ∃ keys, policy.keys.lookup e.1 = some keys ∧ ∀ keyId, keyId ∈ e.2 ↔ keyId ∈ keys := by
  rw [OperatorTrustPolicy.bindings, List.mem_insertionSort, List.mem_map] at member
  obtain ⟨⟨operator, keys⟩, entry, rfl⟩ := member
  refine ⟨keys, AList.mem_lookup_iff.2 entry, fun keyId => ?_⟩
  rw [List.mem_insertionSort]
  rfl

/-- Keys that are read from arguments are sound. -/
theorem fromSpecs_sound {specs : List TrustSpec} {policy : OperatorTrustPolicy Key}
    (configured : OperatorTrustPolicy.fromSpecs sha scheme readKey specs = .ok policy) :
    policy.Sound sha scheme := by
  simp only [OperatorTrustPolicy.fromSpecs, bind_ok_iff, pure_ok_iff] at configured
  obtain ⟨_, _, final, taken, _, _, _, _, rfl⟩ := configured
  have start : Owned sha scheme (⟨∅, ∅, 0⟩ : Collected Key) := by
    constructor
    · intro operator keys found
      cases found
    · intro operator keys found
      cases found
  have owned : Owned sha scheme final := collectAll_owned start taken
  have held {operator keyId : Points}
      (bound : Bindings.Binds (OperatorTrustPolicy.bindings ⟨final.keys⟩) operator keyId) :
      final.owners.lookup keyId = some operator ∧ keyId.unpaired = true := by
    obtain ⟨e, member, rfl, listed⟩ := bound
    obtain ⟨keys, found, inside⟩ := mem_bindings member
    obtain ⟨key, keyed⟩ := Option.isSome_iff_exists.1 (AList.lookup_isSome.2 ((inside keyId).1 listed))
    obtain ⟨same, owner⟩ := owned.keyed _ _ found _ _ keyed
    refine ⟨owner, ?_⟩
    rw [← same]
    exact unpaired_ofString _
  constructor
  · intro operator keyId key found
    obtain ⟨keys, inside, listed⟩ := Option.bind_eq_some_iff.1 found
    exact (owned.keyed operator keys inside keyId key listed).1
  · intro keyId operator other first second
    exact Option.some.inj ((held first).1.symm.trans (held second).1)
  · intro e member
    obtain ⟨keys, found, _⟩ := mem_bindings member
    refine ⟨owned.unpaired _ _ found, fun keyId listed => ?_⟩
    exact (held ⟨e, member, rfl, listed⟩).2

end Keys
end TrustState
end DefiantHarness
