import DefiantHarness.SerializedRecords

/-! A sealed action that is written to a state file, and the action that is rebuilt from it. -/
namespace DefiantHarness

open Foundation

namespace Durable

/-- A text as it is read back. -/
def rejoined (s : Points) : Points := CodeUnit.join s.units

namespace ProposedAction

variable (sha : TextHash) (chunking : Chunking)

/-- `payload_hash` of an action that is not sealed. -/
def payloadHash (a : ProposedAction) : Except HashFault String :=
  actionSha256Of sha chunking (.dict a.payload)

/-- `authorization_hash` of an action that is not sealed. -/
def authorizationHash (a : ProposedAction) : Except HashFault String :=
  actionSha256Of sha chunking (a.authorizationSurface (.dict a.payload))

end ProposedAction

namespace SealedAction

/-- The fields of the durable form, before they are made plain. -/
def fields (p : SealedAction) : List (String × Value) := [
  ("tool_name", .str p.action.toolName), ("target", .str p.action.target),
  ("payload", .dict p.action.payload),
  ("side_effect_level", .member true (.str (Points.ofString p.action.sideEffectLevel.text))),
  ("agent_reason", p.action.agentReason), ("action_id", .str p.action.actionId),
  ("request_id", p.action.requestId),
  ("payload_sources", .list (p.action.payloadSources.map ContentRef.asDict)),
  ("estimated_cost_usd", .decimal p.action.estimatedCostUsd),
  ("created_at", .str p.action.createdAt),
  ("payload_hash", .str (Points.ofString p.payloadHash)),
  ("payload_trust", .str (Points.ofString (worstTrust p.action.payloadSources).text)),
  ("authorization_hash", .str (Points.ofString p.authorizationHash))]

/-- The document that the durable form is written as. -/
def document (p : SealedAction) : Data := (Value.dict (record p.fields)).written Decimal.plain

/-- Write the durable form to a state file, read the file back and rebuild the action. -/
def restore (timestamps : Timestamps) (fresh now : Points) (name : String) (maximum : Nat)
    (p : SealedAction) : Except HarnessError ProposedAction := do
  let data ← p.toDict.mapError fun fault => invalid fault.message
  let text ← atomicWriteJson name maximum data
  let read ← readJson name maximum text
  match read with
  | .dict raw => ProposedAction.fromDict timestamps fresh now raw
  | _ => throw (invalid "action must be an object")

/-- The rebuilt action has the fingerprints of the one that was written. -/
def RoundTrips (sha : TextHash) (chunking : Chunking) (timestamps : Timestamps) (fresh now : Points)
    (name : String) (maximum : Nat) (p : SealedAction) : Prop :=
  ∃ b, p.restore timestamps fresh now name maximum = .ok b ∧
    b.payloadHash sha chunking = .ok p.payloadHash ∧
    b.authorizationHash sha chunking = .ok p.authorizationHash

end SealedAction

/-- A reference that its constructor has made. -/
def ContentRef.Made (r : ContentRef) : Prop :=
  ∃ refId origin trust contentHash label, ContentRef.make refId origin trust contentHash label = .ok r

/-- The constructor accepts an action; sealing it checks it once more and takes its hashes. -/
def SealedFrom (sha : TextHash) (chunking : Chunking) (timestamps : Timestamps)
    (raw : ProposedAction) (p : SealedAction) : Prop :=
  (∀ r ∈ raw.payloadSources, r.Made) ∧
    ∃ built a, raw.validateContract timestamps = .ok built ∧
      built.validateContract timestamps = .ok a ∧ a.sealFingerprints sha chunking = .ok p

/-- Names and strings keep their order when they are read back as texts. -/
def InOrder (x : Data) : Prop := x.joined.sorted = x.joined

/-- When an action survives its state file: the request and the reason are JSON data, the document is
within the ceilings of the file and of the strict reader, no two names become one, the names of what
was hashed keep their order, and no amount of the request is a negative zero. -/
structure Restorable (maximum : Nat) (p : SealedAction) : Prop where
  request : p.action.requestId.Serializable
  reason : p.action.agentReason.Serializable
  fits : utf8Length (p.document.render (Layout.indented 2) 0) ≤ maximum
  lexical : Lexical p.document
  distinct : p.document.joined.Distinct
  payloadOrder : InOrder ((Value.dict p.action.payload).written canonicalText)
  requestOrder : InOrder (p.action.requestId.written canonicalText)
  zeros : p.action.requestId.negativeZeros = 0

/-! ### Writing -/

private theorem enumSafeEntries_append (es fs : List Entry) :
    Value.enumSafeEntries (es ++ fs) = (do
      let es ← Value.enumSafeEntries es
      let fs ← Value.enumSafeEntries fs
      pure (es ++ fs)) := by
  induction es with
  | nil =>
    rw [List.nil_append, Value.enumSafeEntries, pure_eq_ok, ok_bind]
    cases Value.enumSafeEntries fs <;> rfl
  | cons e es ih =>
    obtain ⟨k, v⟩ := e
    rw [List.cons_append, Value.enumSafeEntries, Value.enumSafeEntries, ih]
    cases v.enumSafe with
    | error fault => rfl
    | ok v =>
      cases Value.enumSafeEntries es with
      | error fault => rfl
      | ok es => cases Value.enumSafeEntries fs <;> rfl

/-- The durable form is the record of its fields, made plain. -/
theorem SealedAction.toDict_eq (p : SealedAction) :
    p.toDict = (Value.dict (record p.fields)).enumSafe := by
  set own := p.fields.take 10 with ownEq
  set hashes := p.fields.drop 10 with hashesEq
  have shape : asDict p.action = .dict (record own) := rfl
  have plain : Value.enumSafeEntries (record hashes) = .ok (record hashes) := rfl
  have split : record p.fields = record own ++ record hashes := rfl
  rw [toDict, shape, split, Value.enumSafe, Value.enumSafe, enumSafeEntries_append, plain]
  cases Value.enumSafeEntries (record own) <;> rfl

private theorem fields_once (p : SealedAction) : (p.fields.map (·.1)).Nodup := by
  change ["tool_name", "target", "payload", "side_effect_level", "agent_reason", "action_id",
    "request_id", "payload_sources", "estimated_cost_usd", "created_at", "payload_hash",
    "payload_trust", "authorization_hash"].Nodup
  decide

/-- The durable form is written exactly when it can be serialized and its text fits. -/
theorem written_iff {p : SealedAction} {name : String} {maximum : Nat} {text : List Char} :
    (∃ data, p.toDict = .ok data ∧ atomicWriteJson name maximum data = .ok text) ↔
      (Value.dict (record p.fields)).Serializable ∧
        text = p.document.render (Layout.indented 2) 0 ∧ utf8Length text ≤ maximum := by
  rw [SealedAction.toDict_eq]
  constructor
  · rintro ⟨data, normalized, written⟩
    simp only [atomicWriteJson, bind_ok_iff, mapError_ok_iff, refuseIf_ok_iff, pure_ok_iff,
      not_lt] at written
    obtain ⟨x, dumped, -, fits, rfl⟩ := written
    obtain rfl := enumSafe_written normalized dumped
    exact ⟨⟨data, _, normalized, dumped⟩, rfl, fits⟩
  · rintro ⟨⟨data, x, normalized, dumped⟩, rfl, fits⟩
    obtain rfl := enumSafe_written normalized dumped
    refine ⟨data, normalized, ?_⟩
    simp only [atomicWriteJson, bind_ok_iff, mapError_ok_iff, refuseIf_ok_iff, pure_ok_iff, not_lt]
    exact ⟨_, dumped, (), fits, rfl⟩

/-! ### Reading texts back -/

private theorem plain_of_blank {s : Points} (blank : s.all blankPoint = true) : s.plain = true := by
  rw [Points.plain, List.all_eq_true]
  intro c member
  have space := List.all_eq_true.1 blank c member
  rw [blankPoint, isSpace] at space
  by_contra large
  have above : ¬ c.val < 0xD800 := by simpa using large
  by_cases valid : c.val.isValidChar
  · have own : (Char.ofNat c.val).toNat = c.val := by
      rw [Char.ofNat, dif_pos valid]
      rfl
    simp only [own, Bool.or_eq_true, Bool.and_eq_true, decide_eq_true_eq, beq_iff_eq] at space
    omega
  · rw [Char.ofNat, dif_neg valid] at space
    exact absurd space (by decide)

/-- A text is blank exactly when it is blank after reading. -/
theorem rejoined_blank (s : Points) : (rejoined s).all blankPoint = s.all blankPoint := by
  rw [Bool.eq_iff_iff]
  constructor
  · intro blank
    rw [eq_of_join (plain_of_blank blank) rfl]
    exact blank
  · intro blank
    rw [rejoined, join_plain (plain_of_blank blank)]
    exact blank

theorem rejoined_length (s : Points) : (rejoined s).length ≤ s.length := join_length_le s

/-- Shorter texts take no more of the volume. -/
theorem requireAggregateText_mono {maximum used used' : Nat} {texts texts' : List Points}
    (shorter : List.Forall₂ (fun s t => t.length ≤ s.length) texts texts') (less : used' ≤ used)
    (within : requireAggregateText maximum used texts = .ok ()) :
    requireAggregateText maximum used' texts' = .ok () := by
  induction shorter generalizing used used' with
  | nil => rfl
  | cons head _ ih =>
    simp only [requireAggregateText, refuseIf_bind_ok_iff] at within ⊢
    exact ⟨by omega, ih (by omega) within.2⟩

namespace ContentRef

/-- A reference as it is read back. -/
def reread (r : ContentRef) : ContentRef where
  refId := rejoined r.refId
  origin := rejoined r.origin
  trust := r.trust
  contentHash := rejoined r.contentHash
  label := rejoined r.label

private theorem requireText_ok_iff {v : Value} {name : String} {s : Points} :
    requireText v name = .ok s ↔ v.text? = some s ∧ s.all blankPoint = false := by
  simp only [requireText, orRefuse_bind_ok_iff, refuseIf_bind_ok_iff, pure_ok_iff, Bool.not_eq_true]
  constructor
  · rintro ⟨t, found, visible, rfl⟩
    exact ⟨found, visible⟩
  · rintro ⟨found, visible⟩
    exact ⟨s, found, visible, rfl⟩

private theorem requireProvenanceText_ok_iff {v : Value} {name : String} {s : Points} :
    requireProvenanceText v name = .ok s ↔
      v.text? = some s ∧ s.length ≤ maxProvenanceTextItemCharacters := by
  simp only [requireProvenanceText, orRefuse_bind_ok_iff, refuseIf_bind_ok_iff, pure_ok_iff, not_lt]
  constructor
  · rintro ⟨t, found, short, rfl⟩
    exact ⟨found, short⟩
  · rintro ⟨found, short⟩
    exact ⟨s, found, short, rfl⟩

/-- What the constructor of a reference has checked. -/
structure Valid (r : ContentRef) : Prop where
  refId : r.refId.all blankPoint = false
  origin : r.origin.all blankPoint = false
  contentHash : r.contentHash.all blankPoint = false
  short : ∀ s ∈ r.texts, s.length ≤ maxProvenanceTextItemCharacters

theorem Made.valid {r : ContentRef} (made : r.Made) : r.Valid := by
  obtain ⟨_, _, _, _, _, made⟩ := made
  simp only [make, bind_ok_iff, requireText_ok_iff, requireProvenanceText_ok_iff, orRefuse_ok_iff,
    pure_ok_iff] at made
  obtain ⟨refId, ⟨-, visible⟩, origin, ⟨-, visible'⟩, hash, ⟨-, visible''⟩, _, ⟨⟨⟩, short⟩, _,
    ⟨⟨⟩, short'⟩, _, ⟨⟨⟩, short''⟩, label, ⟨-, short⟩, trust, -, rfl⟩ := made
  refine ⟨visible, visible', visible'', ?_⟩
  simp only [texts, List.forall_mem_cons]
  exact ⟨by assumption, by assumption, by assumption, by assumption, List.forall_mem_nil _⟩

/-- The constructor takes the fields of a valid reference. -/
theorem Valid.make {r : ContentRef} (valid : r.Valid) {trust : Value}
    (named : (trust.text? >>= Trust.ofText?) = some r.trust) :
    make (.str r.refId) (.str r.origin) trust (.str r.contentHash) (.str r.label) = .ok r := by
  have short := valid.short
  simp only [texts, List.forall_mem_cons] at short
  have text (s : Points) : (Value.str s).text? = some s := rfl
  simp only [ContentRef.make, bind_ok_iff, requireText_ok_iff, requireProvenanceText_ok_iff,
    orRefuse_ok_iff, pure_ok_iff, text, Option.some.injEq]
  exact ⟨_, ⟨rfl, valid.refId⟩, _, ⟨rfl, valid.origin⟩, _, ⟨rfl, valid.contentHash⟩, _, ⟨rfl, short.1⟩,
    _, ⟨rfl, short.2.1⟩, _, ⟨rfl, short.2.2.1⟩, _, ⟨rfl, short.2.2.2.1⟩, _, named, rfl⟩

theorem Valid.reread {r : ContentRef} (valid : r.Valid) : r.reread.Valid where
  refId := (rejoined_blank _).trans valid.refId
  origin := (rejoined_blank _).trans valid.origin
  contentHash := (rejoined_blank _).trans valid.contentHash
  short := by
    have short : ∀ s ∈ r.texts, (rejoined s).length ≤ maxProvenanceTextItemCharacters :=
      fun s member => (rejoined_length s).trans (valid.short s member)
    simp only [texts, List.forall_mem_cons] at short ⊢
    exact ⟨short.1, short.2.1, short.2.2.1, short.2.2.2.1, List.forall_mem_nil _⟩

/-- The fields of the dictionary of a reference. -/
def fields (r : ContentRef) : List (String × Value) := [
  ("ref_id", .str r.refId), ("origin", .str r.origin),
  ("trust", .member true (.str (Points.ofString r.trust.text))),
  ("content_hash", .str r.contentHash), ("label", .str r.label)]

private theorem fields_once (r : ContentRef) : (r.fields.map (·.1)).Nodup := by
  change ["ref_id", "origin", "trust", "content_hash", "label"].Nodup
  decide

private theorem lookup_fields (r : ContentRef) (i : Nat) {name : String} {v : Value}
    (place : r.fields[i]? = some (name, v)) :
    lookup name (readBack r.fields) = some (.ofData (v.written Decimal.plain).joined) :=
  lookup_readBack name (fields_once r) (List.mem_of_getElem? place)

/-- A reference is rebuilt from the dictionary that it is read back as. -/
theorem fromDict_readBack {r : ContentRef} (valid : r.Valid) :
    fromDict (.ofData (r.asDict.written Decimal.plain).joined) = .ok r.reread := by
  have refId := lookup_fields r 0 rfl
  have origin := lookup_fields r 1 rfl
  have trust := lookup_fields r 2 rfl
  have contentHash := lookup_fields r 3 rfl
  have label := lookup_fields r 4 rfl
  have named : Trust.ofText? (CodeUnit.join (Points.ofString r.trust.text).units) = some r.trust := by
    rw [join_ofString]
    cases r.trust <;> decide
  rw [show r.asDict = .dict (record r.fields) from rfl, ofData_record]
  simp only [fromDict, refId, origin, trust, contentHash, label, orRefuse, ok_bind, Option.getD_some]
  exact valid.reread.make named

end ContentRef

namespace SealedAction

/-- The entries of a dictionary. -/
private def entriesOf : Value → List Entry
  | .dict entries => entries
  | _ => []

/-- The action that is rebuilt from the durable form. -/
def restored (p : SealedAction) : ProposedAction where
  toolName := rejoined p.action.toolName
  target := rejoined p.action.target
  -- every text is joined as the decoder joins it, and the money is read from its plain text
  payload := entriesOf (.ofData ((Value.dict p.action.payload).written Decimal.plain).joined)
  sideEffectLevel := p.action.sideEffectLevel
  agentReason := .ofData (p.action.agentReason.written Decimal.plain).joined
  actionId := rejoined p.action.actionId
  requestId := .ofData (p.action.requestId.written Decimal.plain).joined
  payloadSources := p.action.payloadSources.map ContentRef.reread
  estimatedCostUsd := p.action.estimatedCostUsd.plain.decimal
  createdAt := p.action.createdAt

/-- The rebuilt payload is what the payload reads back as. -/
theorem restored_payload (p : SealedAction) : Value.dict p.restored.payload =
    .ofData ((Value.dict p.action.payload).written Decimal.plain).joined := rfl

/-- What the constructor and sealing have checked of an action. -/
structure Valid (timestamps : Timestamps) (p : SealedAction) : Prop where
  toolName : p.action.toolName.all blankPoint = false
  target : p.action.target.all blankPoint = false
  actionId : p.action.actionId.all blankPoint = false
  few : p.action.payloadSources.length ≤ maxProvenanceRefs
  volume : requireAggregateText maxProvenanceTextCharacters 0
    (p.action.payloadSources.flatMap ContentRef.texts) = .ok ()
  amount : 0 ≤ p.action.estimatedCostUsd.value
  created : p.action.createdAt ≠ [] ∧ ∃ t, p.action.createdAt = timestamps.write t
  sources : ∀ r ∈ p.action.payloadSources, r.Valid

private theorem fields_at (p : SealedAction) (i : Nat) {name : String} {v : Value}
    (place : p.fields[i]? = some (name, v)) :
    lookup name (readBack p.fields) = some (.ofData (v.written Decimal.plain).joined) :=
  lookup_readBack name (fields_once p) (List.mem_of_getElem? place)

private theorem sources_readBack {refs : List ContentRef} (valid : ∀ r ∈ refs, r.Valid) :
    ProposedAction.sourcesOf
        (some (.ofData ((Value.list (refs.map ContentRef.asDict)).written Decimal.plain).joined)) =
      .ok (refs.map ContentRef.reread) := by
  have items : Value.ofData ((Value.list (refs.map ContentRef.asDict)).written Decimal.plain).joined =
      .list (refs.map fun r => .ofData (r.asDict.written Decimal.plain).joined) := by
    rw [Value.written, Data.joined, Value.ofData, Value.writtenItems_eq, Data.joinedItems_eq,
      Value.ofItems_eq, List.map_map, List.map_map, List.map_map]
    rfl
  rw [items, ProposedAction.sourcesOf, mapM_ok_iff, List.forall₂_map_left_iff, List.forall₂_map_right_iff]
  exact List.forall₂_same.2 fun r member => ContentRef.fromDict_readBack (valid r member)

private theorem amount_readBack (d : Decimal) :
    amountOf (.ofData ((Value.decimal d).written Decimal.plain).joined) = some d.plain.decimal := by
  have text : ofChars d.plain.chars = Points.ofString d.plain.text := by
    simp [ofChars, Points.ofString, PlainDecimal.text]
  have chars : (Points.ofString d.plain.text).map (fun c => Char.ofNat c.val) = d.plain.chars := by
    rw [← text, ofChars, List.map_map]
    conv_rhs => rw [← List.map_id d.plain.chars]
    exact List.map_congr_left fun c _ => Char.ofNat_toNat c
  rw [Value.written, Data.joined, text, join_ofString, Value.ofData, amountOf, chars]
  exact PlainDecimal.read_text d.plain

private theorem plainText_ofData (x : Data) : (Value.ofData x).plainText = .ofData x := by
  cases x <;> rfl

private theorem texts_reread {refs : List ContentRef} :
    List.Forall₂ (fun s t : Points => t.length ≤ s.length) (refs.flatMap ContentRef.texts)
      ((refs.map ContentRef.reread).flatMap ContentRef.texts) := by
  induction refs with
  | nil => exact .nil
  | cons r refs ih =>
    exact .cons (rejoined_length _) (.cons (rejoined_length _) (.cons (rejoined_length _)
      (.cons (rejoined_length _) ih)))

/-- The rebuilt action passes the checks of its constructor. -/
theorem Valid.restored {timestamps : Timestamps} {p : SealedAction} (valid : p.Valid timestamps) :
    p.restored.validateContract timestamps = .ok p.restored := by
  have text (s : Points) (name : String) (visible : s.all blankPoint = false) :
      requireText (.str s) name = .ok s := by
    rw [requireText, Value.text?, orRefuse, ok_bind, refuseIf_of_not (by simp [visible])]
    rfl
  have visible {s : Points} (own : s.all blankPoint = false) : (rejoined s).all blankPoint = false :=
    (rejoined_blank s).trans own
  obtain ⟨timed, t, written⟩ := valid.created
  have created : utcTimestamp timestamps (.str p.restored.createdAt) "created_at" =
      .ok p.restored.createdAt := by
    rw [SealedAction.restored, utcTimestamp, Value.text?, orRefuse, ok_bind, refuseIf_of_not timed, ok_bind,
      written, timestamps.read_write]
    rfl
  have amount : money p.restored.estimatedCostUsd "estimated_cost_usd" =
      .ok p.restored.estimatedCostUsd :=
    money_ok_iff.2 ⟨rfl, (Decimal.plain_value _).symm ▸ valid.amount⟩
  -- reading joins surrogates, so the texts can only get shorter
  have volume : requireAggregateText maxProvenanceTextCharacters 0
      (p.restored.payloadSources.flatMap ContentRef.texts) = .ok () :=
    requireAggregateText_mono texts_reread (Nat.le_refl 0) valid.volume
  have few : ¬ maxProvenanceRefs < p.restored.payloadSources.length := by
    rw [SealedAction.restored, List.length_map]
    exact not_lt.2 valid.few
  have toolName := text p.restored.toolName "tool_name" (visible valid.toolName)
  have target := text p.restored.target "target" (visible valid.target)
  have actionId := text p.restored.actionId "action_id" (visible valid.actionId)
  rw [ProposedAction.validateContract, toolName, ok_bind, target, ok_bind, actionId, ok_bind,
    refuseIf_of_not few, ok_bind, volume, ok_bind, amount, ok_bind, created, ok_bind]
  simp only [SealedAction.restored, plainText_ofData, pure_eq_ok]

/-- The action is rebuilt from the dictionary that its durable form is read back as. -/
theorem Valid.fromDict {timestamps : Timestamps} {p : SealedAction} (valid : p.Valid timestamps)
    (fresh now : Points) :
    ProposedAction.fromDict timestamps fresh now (readBack p.fields) = .ok p.restored := by
  have toolName := fields_at p 0 rfl
  have target := fields_at p 1 rfl
  have payload := fields_at p 2 rfl
  have level := fields_at p 3 rfl
  have reason := fields_at p 4 rfl
  have actionId := fields_at p 5 rfl
  have request := fields_at p 6 rfl
  have sources := fields_at p 7 rfl
  have amount := fields_at p 8 rfl
  have created := fields_at p 9 rfl
  -- the name of the level is plain text and is read back as itself
  have named : SideEffect.ofText? (CodeUnit.join (Points.ofString p.action.sideEffectLevel.text).units) =
      some p.action.sideEffectLevel := by
    rw [join_ofString]
    cases p.action.sideEffectLevel <;> decide
  have expected : ¬ (readBack p.fields).all (fun e => ProposedAction.expected e.1) = false := by
    rw [Bool.not_eq_false, List.all_eq_true]
    intro e member
    obtain ⟨f, listed, key⟩ := name_readBack member
    rw [key, ProposedAction.expected, List.any_eq_true]
    have named : f.1 ∈ p.fields.map (·.1) := List.mem_map_of_mem listed
    exact ⟨f.1, named, by simp⟩
  have visible {s : Points} (own : s.all blankPoint = false) (name : String) :
      requireText (.ofData ((Value.str s).written Decimal.plain).joined) name = .ok (rejoined s) := by
    have seen := (rejoined_blank s).trans own
    rw [Value.written, Data.joined, Value.ofData, requireText, Value.text?, orRefuse, ok_bind]
    exact refuseIf_bind_ok_iff.2 ⟨by rw [← rejoined, seen]; exact Bool.false_ne_true, rfl⟩
  have time : (Value.ofData ((Value.str p.action.createdAt).written Decimal.plain).joined).text? =
      some p.action.createdAt := by
    obtain ⟨-, t, written⟩ := valid.created
    rw [Value.written, Data.joined, Value.ofData, Value.text?, written,
      join_plain (timestamps.plain_write t)]
  have entries : ProposedAction.payloadOf (some (.ofData
      ((Value.dict p.action.payload).written Decimal.plain).joined)) = .ok p.restored.payload := rfl
  have level' : ((Value.ofData ((Value.member true (.str (Points.ofString
      p.action.sideEffectLevel.text))).written Decimal.plain).joined).text? >>= SideEffect.ofText?) =
        some p.action.sideEffectLevel := named
  simp only [ProposedAction.fromDict, level, level', toolName, target, payload, reason, actionId, request,
    sources, amount, created, time, orRefuse, ok_bind, Option.getD_some, sources_readBack valid.sources,
    refuseIf_of_not expected, visible valid.toolName, visible valid.target, visible valid.actionId,
    entries, amount_readBack]
  exact valid.restored

/-- When the action is rebuilt, and as what. -/
theorem restore_ok_iff {timestamps : Timestamps} {p : SealedAction} (valid : p.Valid timestamps)
    {fresh now : Points} {name : String} {maximum : Nat} {b : ProposedAction} :
    p.restore timestamps fresh now name maximum = .ok b ↔
      (Value.dict (record p.fields)).Serializable ∧
        utf8Length (p.document.render (Layout.indented 2) 0) ≤ maximum ∧ Lexical p.document ∧
        p.document.joined.Distinct ∧ b = p.restored := by
  -- what can go wrong is writing, the lexical ceilings, and names that fall together
  obtain ⟨fields, shape⟩ : ∃ fields, p.document = .obj fields := ⟨_, rfl⟩
  have raw : Value.ofData p.document.joined = .dict (readBack p.fields) := ofData_record p.fields
  simp only [restore, bind_ok_iff, mapError_ok_iff]
  constructor
  · rintro ⟨data, normalized, text, written, read, found, rebuilt⟩
    obtain ⟨serializable, rfl, fits⟩ := written_iff.1 ⟨data, normalized, written⟩
    rw [shape] at found
    obtain ⟨-, lexical, distinct, rfl⟩ := readJson_render.1 found
    rw [← shape] at lexical distinct rebuilt
    rw [raw] at rebuilt
    have own := (valid.fromDict fresh now).symm.trans rebuilt
    exact ⟨serializable, fits, lexical, distinct, (Except.ok.inj own).symm⟩
  · rintro ⟨serializable, fits, lexical, distinct, rfl⟩
    obtain ⟨data, normalized, written⟩ := (@written_iff p name _ _).2 ⟨serializable, rfl, fits⟩
    refine ⟨data, normalized, _, written, .ofData p.document.joined, ?_, ?_⟩
    · rw [shape] at fits lexical distinct ⊢
      exact readJson_render.2 ⟨fits, lexical, distinct, rfl⟩
    · rw [raw]
      exact valid.fromDict fresh now

end SealedAction

end Durable
end DefiantHarness
