import DefiantHarness.ActionRoundTrip

/-! When an action that is rebuilt from its state file has the fingerprints that it was sealed with. -/
namespace DefiantHarness

open Foundation

/-- What is read back has the document of the original, its names sorted as texts. -/
theorem written_reread_joined (v : Value) :
    ((reread v).written canonicalText).joined = (v.written canonicalText).joined.sorted := by
  rw [reread, Value.written_ofData, Data.joined_eq_self]
  intro s member
  exact Data.unpaired_joined ((Data.mem_strings_sorted _).1 member)

private theorem coefficient_digits_le (p : PlainDecimal) :
    (Nat.toDigits 10 p.decimal.coefficient).length ≤ p.chars.length := by
  set c := p.decimal.coefficient with cEq
  set k := p.fractionDigits with kEq
  set whole := Nat.toDigits 10 (c / 10 ^ k) with wholeEq
  have positive : 0 < whole.length := Nat.length_toDigits_pos
  have below : c / 10 ^ k < 10 ^ whole.length :=
    (Nat.length_toDigits_le_iff (by norm_num) positive).1 (Nat.le_refl _)
  have bound : c < 10 ^ (whole.length + k) := by
    rw [pow_add]
    exact (Nat.div_lt_iff_lt_mul (by positivity)).1 below
  have digits : (Nat.toDigits 10 c).length ≤ whole.length + k :=
    (Nat.length_toDigits_le_iff (by norm_num) (by omega)).2 bound
  have text : whole.length + k ≤ p.chars.length := by
    rw [PlainDecimal.chars, ← kEq, ← cEq, ← wholeEq]
    by_cases none : k = 0
    · simp [none]
    · have padded : k ≤ ((Nat.toDigits 10 (c % 10 ^ k)).leftpad k '0').length := by
        rw [List.length_leftpad]
        exact le_max_left _ _
      simp only [if_neg none, List.length_append, List.length_cons]
      omega
  exact digits.trans text

/-- An amount stays bounded when it is read back. -/
theorem boundedMoney_plain {d : Decimal} (bounded : BoundedMoney d) :
    BoundedMoney d.plain.decimal := by
  have zero : d.plain.decimal.isZero = d.isZero := by
    rw [Bool.eq_iff_iff, Decimal.isZero_iff, Decimal.isZero_iff, Decimal.plain_value]
  rw [BoundedMoney, Decimal.plain_value, canonicalText_plain, zero]
  refine ⟨bounded.1, ?_⟩
  by_cases none : d.isZero = true
  · exact .inl none
  · obtain ⟨-, short⟩ := bounded.2.resolve_left none
    have text : canonicalText d = d.plain := if_neg none
    exact .inr ⟨(coefficient_digits_le d.plain).trans (text ▸ short), short⟩

namespace Durable

theorem digest_congr {sha : TextHash} {v w : Value}
    (alike : (v.written canonicalText).joined = (w.written canonicalText).joined) :
    digest sha v = digest sha w := by
  rw [digest, digest, text_eq_iff.2 alike]

/-- What sealing has hashed, and the copy of the payload that it keeps. -/
structure Hashed (sha : TextHash) (payload : Value) (p : SealedAction) : Prop where
  hashable : Hashable maxActionHashCanonicalBytes payload
  surface : Hashable maxActionHashCanonicalBytes (p.action.authorizationSurface payload.snapshot)
  payloadHash : p.payloadHash = digest sha payload
  authorizationHash : p.authorizationHash =
    digest sha (p.action.authorizationSurface payload.snapshot)
  copy : Value.dict p.action.payload = payload.snapshot.snapshot

private theorem sealedPayload_surface (a : ProposedAction) (entries : List Entry) :
    sealedPayload (a.authorizationSurface (.dict entries)).snapshot =
      some (Value.snapshotEntries entries) := rfl

theorem hashed_of_sealed {sha : TextHash} {chunking : Chunking} {a : ProposedAction} {p : SealedAction}
    (accepted : a.sealFingerprints sha chunking = .ok p) :
    Hashed sha (.dict a.payload) p ∧ p.action = { a with payload := p.action.payload } := by
  simp only [ProposedAction.sealFingerprints, bind_ok_iff, pure_ok_iff, orRefuse_ok_iff,
    Prod.exists, actionSnapshot_ok_iff] at accepted
  obtain ⟨_, _, ⟨payload, rfl, rfl⟩, _, _, ⟨surface, rfl, rfl⟩, kept, found, rfl⟩ := accepted
  refine ⟨⟨payload, surface, rfl, rfl, ?_⟩, rfl⟩
  rw [Value.snapshot, sealedPayload_surface, Option.some.injEq] at found
  rw [← found]
  rfl

private theorem validated {timestamps : Timestamps} {x y : ProposedAction}
    (accepted : x.validateContract timestamps = .ok y) :
    x.toolName.all blankPoint = false ∧ x.target.all blankPoint = false ∧
      x.actionId.all blankPoint = false ∧ x.payloadSources.length ≤ maxProvenanceRefs ∧
      requireAggregateText maxProvenanceTextCharacters 0
        (x.payloadSources.flatMap ContentRef.texts) = .ok () ∧ 0 ≤ x.estimatedCostUsd.value ∧
      x.createdAt ≠ [] ∧ ∃ t, timestamps.read x.createdAt = some t ∧
        y = { x with
          createdAt := timestamps.write t
          requestId := x.requestId.plainText
          agentReason := x.agentReason.plainText } := by
  simp only [ProposedAction.validateContract, bind_ok_iff, requireText, orRefuse_ok_iff,
    refuseIf_ok_iff, pure_ok_iff, money_ok_iff, utcTimestamp, Value.text?, Option.some.injEq,
    not_lt, Bool.not_eq_true] at accepted
  obtain ⟨_, ⟨_, rfl, _, visible, rfl⟩, _, ⟨_, rfl, _, visible', rfl⟩, _, ⟨_, rfl, _, visible'', rfl⟩, _,
    few, ⟨⟩, volume, _, ⟨rfl, amount⟩, _, ⟨_, rfl, _, timed, t, read, rfl⟩, rfl⟩ := accepted
  exact ⟨visible, visible', visible'', few, volume, amount, timed, t, read, rfl⟩

/-- What sealing has checked holds of the sealed action. -/
theorem SealedFrom.valid {sha : TextHash} {chunking : Chunking} {timestamps : Timestamps}
    {raw : ProposedAction} {p : SealedAction} (made : SealedFrom sha chunking timestamps raw p) :
    p.Valid timestamps := by
  obtain ⟨refs, built, a, first, second, accepted⟩ := made
  obtain ⟨-, -, -, -, -, -, -, t, -, rfl⟩ := validated first
  obtain ⟨toolName, target, actionId, few, volume, amount, timed, t', again, rfl⟩ := validated second
  obtain ⟨-, shape⟩ := hashed_of_sealed accepted
  rw [timestamps.read_write, Option.some.injEq] at again
  subst again
  exact {
    toolName := by rw [shape]; exact toolName
    target := by rw [shape]; exact target
    actionId := by rw [shape]; exact actionId
    few := by rw [shape]; exact few
    volume := by rw [shape]; exact volume
    amount := by rw [shape]; exact amount
    created := by rw [shape]; exact ⟨timed, t, rfl⟩
    sources := by rw [shape]; exact fun r member => (refs r member).valid }

/-! ### The two surfaces -/

section Surfaces

variable {p : SealedAction} {payload : Value}

private theorem text_alike (s : Points) : ((Value.str (rejoined s)).written canonicalText).joined =
    ((Value.str s).written canonicalText).joined := by
  rw [Value.written, Value.written, Data.joined, Data.joined, rejoined, units_join]

private theorem ref_alike (r : ContentRef) :
    (r.reread.asDict.written canonicalText).joined = (r.asDict.written canonicalText).joined :=
  joined_record_congr (.cons ⟨rfl, text_alike _⟩ (.cons ⟨rfl, text_alike _⟩ (.cons ⟨rfl, rfl⟩
    (.cons ⟨rfl, text_alike _⟩ (.cons ⟨rfl, text_alike _⟩ .nil)))))

private theorem refs_alike (refs : List ContentRef) :
    ((Value.list ((refs.map ContentRef.reread).map ContentRef.asDict)).written canonicalText).joined =
      ((Value.list (refs.map ContentRef.asDict)).written canonicalText).joined := by
  simp only [Value.written, Data.joined, Value.writtenItems_eq, Data.joinedItems_eq, List.map_map,
    Function.comp_def, ref_alike]

/-- The rebuilt action is hashed from the same text, given that its payload and its request are. -/
private theorem surface_alike
    (payloads : ((Value.dict p.restored.payload).written canonicalText).joined =
      (payload.written canonicalText).joined)
    (requests : (p.restored.requestId.written canonicalText).joined =
      (p.action.requestId.written canonicalText).joined) :
    ((p.restored.authorizationSurface (.dict p.restored.payload)).written canonicalText).joined =
      ((p.action.authorizationSurface payload).written canonicalText).joined := by
  have amount : ((Value.decimal p.action.estimatedCostUsd.plain.decimal).written canonicalText).joined =
      ((Value.decimal p.action.estimatedCostUsd).written canonicalText).joined := by
    rw [Value.written, Value.written, canonicalText_plain]
  exact joined_record_congr (.cons ⟨rfl, text_alike _⟩ (.cons ⟨rfl, requests⟩ (.cons ⟨rfl, text_alike _⟩
    (.cons ⟨rfl, text_alike _⟩ (.cons ⟨rfl, payloads⟩ (.cons ⟨rfl, rfl⟩ (.cons ⟨rfl, refs_alike _⟩
      (.cons ⟨rfl, amount⟩ .nil))))))))

private theorem text_within {s : Points} (bounded : (Value.str s).Bounded) :
    Value.Within (.str s) (.str (rejoined s)) :=
  ⟨(rejoined_length s).trans bounded, Nat.le_refl _, Nat.le_refl _, Nat.le_refl _⟩

/-- The values of a bounded record are bounded. -/
private theorem bounded_at (fields : List (String × Value))
    (bounded : (Value.dict (record fields)).Bounded) (i : Nat) {name : String} {v : Value}
    (place : fields[i]? = some (name, v)) : v.Bounded :=
  Value.boundedEntries_iff.1 bounded.2.2 (.str (Points.ofString name), v)
    (List.mem_map_of_mem (List.mem_of_getElem? place))

private def refNames : List String := ["ref_id", "origin", "trust", "content_hash", "label"]

private def surfaceNames : List String := ["action_id", "request_id", "tool_name", "target", "payload",
  "side_effect_level", "payload_sources", "estimated_cost_usd"]

private theorem ref_within {r : ContentRef} (bounded : r.asDict.Bounded) :
    Value.Within r.asDict r.reread.asDict := by
  have own (i : Nat) {name : String} {v : Value} (place : r.fields[i]? = some (name, v)) : v.Bounded :=
    bounded_at r.fields bounded i place
  exact Value.within_record (show _ = refNames from rfl) (by decide) (by decide) (by decide)
    (.cons ⟨rfl, text_within (own 0 rfl)⟩ (.cons ⟨rfl, text_within (own 1 rfl)⟩
      (.cons ⟨rfl, (own 2 rfl).within⟩ (.cons ⟨rfl, text_within (own 3 rfl)⟩
        (.cons ⟨rfl, text_within (own 4 rfl)⟩ .nil)))))

/-- The rebuilt action costs no more to hash, given that its payload and its request do not. -/
private theorem surface_within (bounded : (p.action.authorizationSurface payload).Bounded)
    (payloads : Value.Within payload (.dict p.restored.payload))
    (requests : Value.Within p.action.requestId p.restored.requestId) :
    Value.Within (p.action.authorizationSurface payload)
      (p.restored.authorizationSurface (.dict p.restored.payload)) := by
  have own (i : Nat) {name : String} {v : Value}
      (place : (surfaceFields p.action payload)[i]? = some (name, v)) : v.Bounded :=
    bounded_at (surfaceFields p.action payload) bounded i place
  have refs : Value.Within (.list (p.action.payloadSources.map ContentRef.asDict))
      (.list ((p.action.payloadSources.map ContentRef.reread).map ContentRef.asDict)) := by
    have each := Value.boundedItems_iff.1 (own 6 rfl)
    rw [List.forall_mem_map] at each
    apply Value.within_list
    rw [List.map_map, List.forall₂_map_left_iff, List.forall₂_map_right_iff]
    exact List.forall₂_same.2 fun r member => ref_within (each r member)
  have amount : Value.Within (.decimal p.action.estimatedCostUsd)
      (.decimal p.action.estimatedCostUsd.plain.decimal) :=
    ⟨boundedMoney_plain (own 7 rfl), Nat.le_refl _, Nat.le_refl _, Nat.le_refl _⟩
  exact Value.within_record (show _ = surfaceNames from rfl) (by decide) (by decide) (by decide)
    (.cons ⟨rfl, text_within (own 0 rfl)⟩ (.cons ⟨rfl, requests⟩ (.cons ⟨rfl, text_within (own 2 rfl)⟩
      (.cons ⟨rfl, text_within (own 3 rfl)⟩ (.cons ⟨rfl, payloads⟩ (.cons ⟨rfl, (own 5 rfl).within⟩
        (.cons ⟨rfl, refs⟩ (.cons ⟨rfl, amount⟩ .nil))))))))

end Surfaces

/-! ### The round trip -/

/-- The durable form can be serialized when the request and the reason can. -/
private theorem serializable_fields {timestamps : Timestamps} {p : SealedAction} {payload : Value}
    (valid : p.Valid timestamps) (bounded : payload.Bounded)
    (copy : Value.dict p.action.payload = payload.snapshot) :
    (Value.dict (record p.fields)).Serializable ↔
      p.action.requestId.Serializable ∧ p.action.agentReason.Serializable := by
  rw [Value.serializable_record]
  -- only these two fields may hold something that no JSON text holds
  constructor
  · intro each
    exact ⟨each _ (List.mem_of_getElem? (show p.fields[6]? = some ("request_id", _) from rfl)),
      each _ (List.mem_of_getElem? (show p.fields[4]? = some ("agent_reason", _) from rfl))⟩
  · rintro ⟨request, reason⟩
    have refs : (Value.list (p.action.payloadSources.map ContentRef.asDict)).Serializable := by
      rw [Value.serializable_list, List.forall_mem_map]
      intro r member
      rw [show r.asDict = .dict (record r.fields) from rfl, Value.serializable_record]
      simp only [ContentRef.fields, List.forall_mem_cons]
      exact ⟨Value.serializable_str _, Value.serializable_str _, Value.serializable_named _,
        Value.serializable_str _, Value.serializable_str _, List.forall_mem_nil _⟩
    have entries : (Value.dict p.action.payload).Serializable := by
      rw [copy]
      exact bounded.serializable_snapshot
    simp only [SealedAction.fields, List.forall_mem_cons]
    exact ⟨Value.serializable_str _, Value.serializable_str _, entries, Value.serializable_named _, reason,
      Value.serializable_str _, request, refs, Value.serializable_amount valid.amount,
      Value.serializable_str _, Value.serializable_str _, Value.serializable_str _,
      Value.serializable_str _, List.forall_mem_nil _⟩

/-- A request that is read back like it was hashed has its names in order and no negative zero. -/
private theorem request_iff {v : Value} :
    ((Value.ofData (v.written Decimal.plain).joined).written canonicalText).joined =
      (v.written canonicalText).joined ↔
        InOrder (v.written canonicalText) ∧ v.negativeZeros = 0 := by
  constructor
  · intro same
    have texts := congrArg List.length (text_eq_iff.2 same)
    rw [Value.written_ofData, text_sorted_length, Data.text, Data.render_joined] at texts
    have length := written_length v
    have none : v.negativeZeros = 0 := by
      simp only [Data.text] at texts length
      omega
    rw [written_agree none] at same
    exact ⟨(written_reread_joined v).symm.trans same, none⟩
  · rintro ⟨order, none⟩
    rw [written_agree none]
    exact (written_reread_joined v).trans order

namespace Hashed

variable {sha : TextHash} {payload : Value} {p : SealedAction}

private theorem written_payload (hashed : Hashed sha payload p) (money : Decimal → PlainDecimal) :
    (Value.dict p.action.payload).written money = payload.written canonicalText := by
  have bounded := hashed.hashable.admissible.bounded
  rw [hashed.copy, bounded.snapshot.written_snapshot, bounded.written_snapshot]

/-- The rebuilt payload is what the payload reads back as. -/
private theorem restored_payload (hashed : Hashed sha payload p) :
    Value.dict p.restored.payload = reread payload := by
  rw [SealedAction.restored_payload, hashed.written_payload, reread]

private theorem payload_iff (hashed : Hashed sha payload p) :
    ((Value.dict p.restored.payload).written canonicalText).joined =
      (payload.written canonicalText).joined ↔
        InOrder ((Value.dict p.action.payload).written canonicalText) := by
  rw [hashed.restored_payload, written_reread_joined, hashed.written_payload]
  rfl

variable {maximum : Nat}

private theorem payload_distinct (hashed : Hashed sha payload p) (restorable : Restorable maximum p) :
    (payload.written canonicalText).joined.Distinct := by
  rw [← hashed.written_payload Decimal.plain]
  exact distinct_joined_record restorable.distinct
    (List.mem_of_getElem? (show p.fields[2]? = some ("payload", _) from rfl))

/-- A restorable action is rebuilt with its payload hash. -/
private theorem restores_payloadHash (hashed : Hashed sha payload p) (chunking : Chunking)
    (restorable : Restorable maximum p) :
    p.restored.payloadHash sha chunking = .ok p.payloadHash := by
  refine actionSha256Of_ok_iff.2 ⟨?_, ?_⟩
  · rw [hashed.restored_payload]
    exact reread_hashable hashed.hashable (hashed.payload_distinct restorable)
  · rw [hashed.payloadHash]
    exact digest_congr (hashed.payload_iff.2 restorable.payloadOrder).symm

/-- A restorable action is rebuilt with its authorization hash. -/
private theorem restores_authorizationHash (hashed : Hashed sha payload p) (chunking : Chunking)
    (restorable : Restorable maximum p) :
    p.restored.authorizationHash sha chunking = .ok p.authorizationHash := by
  have bounded := hashed.hashable.admissible.bounded
  have copied := bounded.written_snapshot canonicalText
  have agree := written_agree restorable.zeros
  have payloads : Value.Within payload.snapshot (.dict p.restored.payload) := by
    rw [hashed.restored_payload, reread, ← copied, ← reread]
    apply Value.within_reread bounded.snapshot
    rw [copied]
    exact hashed.payload_distinct restorable
  have requests : Value.Within p.action.requestId p.restored.requestId := by
    rw [SealedAction.restored, agree, ← reread]
    apply Value.within_reread
    · exact bounded_at (surfaceFields p.action payload.snapshot) hashed.surface.admissible.bounded 1 rfl
    · rw [← agree]
      exact distinct_joined_record restorable.distinct
        (List.mem_of_getElem? (show p.fields[6]? = some ("request_id", _) from rfl))
  -- the reread surface differs from the sealed one in two fields, and neither shows in the text
  have alike := @surface_alike p payload.snapshot
    ((hashed.payload_iff.2 restorable.payloadOrder).trans (by rw [copied]))
    (request_iff.2 ⟨restorable.requestOrder, restorable.zeros⟩)
  refine actionSha256Of_ok_iff.2 ⟨?_, ?_⟩
  · exact (surface_within hashed.surface.admissible.bounded payloads requests).hashable
      hashed.surface (text_eq_iff.2 alike)
  · rw [hashed.authorizationHash]
    exact digest_congr alike.symm

end Hashed

/-- With a hash that tells texts apart, a sealed action is rebuilt from its state file with both of its
fingerprints exactly when it is restorable. -/
theorem restored_fingerprints_iff {sha : TextHash} (collisionFree : Function.Injective sha)
    (chunking : Chunking) (timestamps : Timestamps) (fresh now : Points) (name : String) (maximum : Nat)
    {raw : ProposedAction} {p : SealedAction} (made : SealedFrom sha chunking timestamps raw p) :
    p.RoundTrips sha chunking timestamps fresh now name maximum ↔ Restorable maximum p := by
  have valid := made.valid
  obtain ⟨-, _, a, -, -, accepted⟩ := made
  obtain ⟨hashed, -⟩ := hashed_of_sealed accepted
  have serializable := serializable_fields valid hashed.hashable.admissible.bounded.snapshot hashed.copy
  constructor
  · rintro ⟨b, restored, payloadHash, authorizationHash⟩
    obtain ⟨written, fits, lexical, distinct, rfl⟩ := (SealedAction.restore_ok_iff valid).1 restored
    have first := (actionSha256Of_ok_iff.1 payloadHash).2
    rw [hashed.payloadHash, digest_eq_iff collisionFree] at first
    have second := (actionSha256Of_ok_iff.1 authorizationHash).2
    rw [hashed.authorizationHash, digest_eq_iff collisionFree] at second
    -- equal surfaces are equal field by field
    have fields := surface_fields second
    simp only [surfaceFields, List.forall₂_cons] at fields
    have request := request_iff.1 fields.2.1.symm
    exact ⟨(serializable.1 written).1, (serializable.1 written).2, fits, lexical, distinct,
      hashed.payload_iff.1 first.symm, request.1, request.2⟩
  · intro restorable
    refine ⟨p.restored, (SealedAction.restore_ok_iff valid).2 ?_,
      hashed.restores_payloadHash chunking restorable, hashed.restores_authorizationHash chunking restorable⟩
    exact ⟨serializable.2 ⟨restorable.request, restorable.reason⟩, restorable.fits, restorable.lexical,
      restorable.distinct, rfl⟩

namespace RoundTripDemo

def time : Points := Points.ofString "2026-01-01T00:00:00Z"

/-- One instant, under its text. -/
def timestamps : Timestamps where
  Instant := Unit
  read s := if s = time then some () else none
  write _ := time
  read_write _ := if_pos rfl
  plain_write _ := by decide

/-- A mail with these entries. -/
def mail (payload : List Entry) : ProposedAction where
  toolName := Points.ofString "mail.send"
  target := Points.ofString "inbox"
  payload
  sideEffectLevel := .externalSend
  agentReason := .str (Points.ofString "asked to")
  actionId := Points.ofString "act_1"
  requestId := .str (Points.ofString "req_1")
  payloadSources := []
  estimatedCostUsd := .zero
  createdAt := time

def lettered : List Entry := [(.str (Points.ofString "body"), .str (Points.ofString "hello"))]

/-- The numbers 9 and 10 change places when they become names. -/
def numbered : List Entry :=
  [(.int 10, .str (Points.ofString "a")), (.int 9, .str (Points.ofString "b"))]

theorem mail_validated (payload : List Entry) :
    (mail payload).validateContract timestamps = .ok (mail payload) := rfl

theorem texts_apart : Function.Injective String.ofList := fun _ _ => String.ofList_injective

/-- A mail is sealed, and what `check` finds of it. -/
private theorem mail_sealed {payload : List Entry} {check : SealedAction → Bool}
    (found : ((mail payload).sealFingerprints String.ofList Chunking.single).toOption.map check =
      some true) :
    ∃ p, SealedFrom String.ofList Chunking.single timestamps (mail payload) p ∧ check p = true := by
  cases sealed : (mail payload).sealFingerprints String.ofList Chunking.single with
  | error fault =>
    rw [sealed] at found
    cases found
  | ok p =>
    rw [sealed] at found
    exact ⟨p, ⟨List.forall_mem_nil _, _, _, mail_validated payload, mail_validated payload, sealed⟩,
      Option.some.inj found⟩

/-- Both fingerprints of an action that was rebuilt from its file. -/
def rebuilt (p : SealedAction) : Option (Option String × Option String) :=
  (p.restore timestamps [] [] "approvals.json" maxApprovalStateBytes).toOption.map fun b =>
    ((b.payloadHash String.ofList Chunking.single).toOption,
      (b.authorizationHash String.ofList Chunking.single).toOption)

/-- A round trip, computed. -/
private theorem roundTrips_iff {p : SealedAction} :
    p.RoundTrips String.ofList Chunking.single timestamps [] [] "approvals.json" maxApprovalStateBytes ↔
      rebuilt p = some (some p.payloadHash, some p.authorizationHash) := by
  unfold rebuilt SealedAction.RoundTrips
  have computed (hash : Except HashFault String) (own : String) :
      hash.toOption = some own ↔ hash = .ok own := by
    cases hash <;> simp [Except.toOption]
  cases p.restore timestamps [] [] "approvals.json" maxApprovalStateBytes with
  | error e => simp [Except.toOption]
  | ok b =>
    rw [show (Except.ok b : Except HarnessError ProposedAction).toOption = some b from rfl,
      Option.map_some, Option.some.injEq, Prod.mk.injEq, computed, computed]
    simp

end RoundTripDemo

open RoundTripDemo

/-- A mail under a text name survives its file. -/
theorem restored_fingerprints_mail : ∃ p,
    SealedFrom String.ofList Chunking.single timestamps (mail lettered) p ∧
      Restorable maxApprovalStateBytes p := by
  obtain ⟨p, made, found⟩ := @mail_sealed lettered
    (fun p => rebuilt p == some (some p.payloadHash, some p.authorizationHash)) (by decide +kernel)
  exact ⟨p, made, (restored_fingerprints_iff texts_apart _ _ _ _ _ _ made).1
    (roundTrips_iff.2 (beq_iff_eq.1 found))⟩

/-- A mail whose entries are numbered 10 and 9 is read back with another payload hash. -/
theorem numbered_entries_rehash :
    ¬ ∀ (sha : TextHash) (chunking : Chunking) (timestamps : Timestamps) (fresh now : Points)
      (name : String) (raw : ProposedAction) (p : SealedAction), Function.Injective sha →
        SealedFrom sha chunking timestamps raw p →
          p.RoundTrips sha chunking timestamps fresh now name maxApprovalStateBytes := by
  intro survives
  obtain ⟨p, made, found⟩ := @mail_sealed numbered
    (fun p => rebuilt p != some (some p.payloadHash, some p.authorizationHash)) (by decide +kernel)
  have kept := survives _ _ _ [] [] "approvals.json" _ p texts_apart made
  rw [roundTrips_iff] at kept
  simp [kept] at found

end Durable
end DefiantHarness
