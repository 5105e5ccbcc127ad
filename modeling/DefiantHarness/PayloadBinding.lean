import DefiantHarness.DurableAction
import DefiantHarness.HashAgreement
import DefiantHarness.SnapshotCost

/-! What the fingerprints of an action bind: its payload, up to how strings spell their code
points. -/
namespace DefiantHarness

open Foundation

namespace Value

mutual

/-- The value that a document decodes to. -/
def ofData : Data → Value
  | .null => .null
  | .bool b => .bool b
  | .int i => .int i
  | .float x => .float x
  | .str s => .str s
  | .arr items => .list (ofItems items)
  | .obj fields => .dict (ofFields fields)

def ofItems : List Data → List Value
  | [] => []
  | x :: xs => ofData x :: ofItems xs

def ofFields : List Field → List Entry
  | [] => []
  | (k, x) :: fs => (.str k, ofData x) :: ofFields fs

end

theorem ofItems_eq (items : List Data) : ofItems items = items.map ofData := by
  induction items with
  | nil => rfl
  | cons x xs ih => rw [ofItems, ih, List.map_cons]

theorem ofFields_eq (fields : List Field) :
    ofFields fields = fields.map fun f => (.str f.1, ofData f.2) := by
  induction fields with
  | nil => rfl
  | cons f fs ih =>
    obtain ⟨k, x⟩ := f
    rw [ofFields, ih, List.map_cons]

theorem writtenItems_eq (money : Decimal → PlainDecimal) (items : List Value) :
    writtenItems money items = items.map (written money) := by
  induction items with
  | nil => rfl
  | cons v vs ih => rw [writtenItems, ih, List.map_cons]

theorem writtenEntries_eq (money : Decimal → PlainDecimal) (entries : List Entry) :
    writtenEntries money entries = entries.map fun e => (e.1.key?.getD .null, e.2.written money) := by
  induction entries with
  | nil => rfl
  | cons e es ih =>
    obtain ⟨k, v⟩ := e
    rw [writtenEntries, ih, List.map_cons]

end Value

/-- Fields with text keys are sorted by their names. -/
theorem sort_texts (fields : List Field) :
    ((fields.map fun f => (Key.str f.1, f.2)).insertionSort byKey).map (fun (k, x) => (k.name, x)) =
      fields.insertionSort Data.byName := by
  have names := List.map_insertionSort byKey Data.byName (fun e : Key × Data => (e.1.name, e.2))
    (fields.map fun f => (Key.str f.1, f.2)) (by
      intro a left b right
      obtain ⟨f, _, rfl⟩ := List.mem_map.1 left
      obtain ⟨g, _, rfl⟩ := List.mem_map.1 right
      simp [byKey, Key.le, Data.byName, Key.name])
  rw [names, List.map_map]
  congr 1
  exact List.map_id' fields

/-- A decoded document is written back with its names in order. -/
@[simp] theorem Value.written_ofData (money : Decimal → PlainDecimal) (x : Data) :
    (Value.ofData x).written money = x.sorted := by
  induction x using Data.induction_on with
  | null => rfl
  | bool b => rfl
  | int i => rfl
  | float x => rfl
  | str s => rfl
  | arr items ih =>
    rw [ofData, written, Data.sorted, writtenItems_eq, ofItems_eq, Data.sortedItems_eq,
      List.map_map]
    exact congrArg Data.arr (List.map_congr_left ih)
  | obj fields ih =>
    have entries : writtenEntries money (ofFields fields) =
        (Data.sortedFields fields).map fun f => (Key.str f.1, f.2) := by
      rw [writtenEntries_eq, ofFields_eq, Data.sortedFields_eq, List.map_map, List.map_map]
      exact List.map_congr_left fun f member => congrArg (Prod.mk (Key.str f.1)) (ih f member)
    rw [ofData, written, Data.sorted, entries, sort_texts]

/-- A record is written as an object with its fields in order. -/
theorem Durable.written_record (money : Decimal → PlainDecimal) (fields : List (String × Value)) :
    (Value.dict (record fields)).written money =
      .obj ((fields.map fun f => (Points.ofString f.1, f.2.written money)).insertionSort
        Data.byName) := by
  have entries : Value.writtenEntries money (record fields) =
      (fields.map fun f => (Points.ofString f.1, f.2.written money)).map
        fun f => (Key.str f.1, f.2) := by
    rw [Value.writtenEntries_eq, record, List.map_map, List.map_map]
    rfl
  rw [Value.written, entries, sort_texts]

/-- Objects that agree up to surrogate pairs agree in a field that neither names twice. -/
theorem joined_field {fs gs : List Field} {k : Points} {x y : Data}
    (same : (Data.obj fs).joined = (Data.obj gs).joined) (left : (k, x) ∈ fs) (right : (k, y) ∈ gs)
    (once : (gs.map fun f => CodeUnit.join f.1.units).Nodup) : x.joined = y.joined := by
  rw [Data.joined, Data.joined, Data.obj.injEq, Data.joinedFields_eq, Data.joinedFields_eq] at same
  have own : (CodeUnit.join k.units, x.joined) ∈
      gs.map fun f => (CodeUnit.join f.1.units, f.2.joined) := by
    rw [← same]
    exact List.mem_map.2 ⟨(k, x), left, rfl⟩
  have other : (CodeUnit.join k.units, y.joined) ∈
      gs.map fun f => (CodeUnit.join f.1.units, f.2.joined) :=
    List.mem_map.2 ⟨(k, y), right, rfl⟩
  have names : ((gs.map fun f => (CodeUnit.join f.1.units, f.2.joined)).map Prod.fst).Nodup := by
    rw [List.map_map]
    exact once
  exact congrArg Prod.snd (List.inj_on_of_nodup_map names own other rfl)

namespace Durable

/-- Records that agree up to surrogate pairs agree in every field that both have. -/
theorem record_field {money : Decimal → PlainDecimal} {fs gs : List (String × Value)}
    (same : ((Value.dict (record fs)).written money).joined = ((Value.dict (record gs)).written money).joined)
    (name : String) {v w : Value} (left : (name, v) ∈ fs) (right : (name, w) ∈ gs)
    (once : (gs.map (·.1)).Nodup) : (v.written money).joined = (w.written money).joined := by
  rw [written_record, written_record] at same
  have listed {fields : List (String × Value)} {u : Value} (member : (name, u) ∈ fields) :
      (Points.ofString name, u.written money) ∈
        (fields.map fun f => (Points.ofString f.1, f.2.written money)).insertionSort Data.byName := by
    rw [List.mem_insertionSort]
    exact List.mem_map.2 ⟨(name, u), member, rfl⟩
  refine joined_field same (listed left) (listed right) ?_
  have order := (List.perm_insertionSort Data.byName
    (gs.map fun f => (Points.ofString f.1, f.2.written money))).map fun f => CodeUnit.join f.1.units
  refine order.nodup_iff.2 ?_
  simp only [List.map_map, Function.comp_def, join_ofString]
  have named := once.map (f := Points.ofString) fun _ _ => ofString_injective
  rwa [List.map_map] at named

/-- Records with one list of names agree field by field. -/
theorem record_fields {money : Decimal → PlainDecimal} {fs gs : List (String × Value)}
    (same : ((Value.dict (record fs)).written money).joined = ((Value.dict (record gs)).written money).joined)
    (names : fs.map (·.1) = gs.map (·.1)) (once : (gs.map (·.1)).Nodup) :
    List.Forall₂ (fun f g => (f.2.written money).joined = (g.2.written money).joined) fs gs := by
  -- the names are those of the whole records, so the induction goes over parts of them
  have each : ∀ fields others : List (String × Value), fields ⊆ fs → others ⊆ gs →
      fields.map (·.1) = others.map (·.1) →
        List.Forall₂ (fun f g => (f.2.written money).joined = (g.2.written money).joined) fields others := by
    intro fields
    induction fields with
    | nil =>
      intro others _ _ none
      rw [List.map_eq_nil_iff.1 none.symm]
      exact List.Forall₂.nil
    | cons f fields ih =>
      intro others left right equal
      cases others with
      | nil => cases equal
      | cons g others =>
        obtain ⟨name, rest⟩ := List.cons.inj equal
        have listed : (f.1, g.2) ∈ gs := by
          rw [show f.1 = g.1 from name]
          exact right List.mem_cons_self
        constructor
        · exact record_field same f.1 (left List.mem_cons_self) listed once
        · exact ih others (List.subset_of_cons_subset left) (List.subset_of_cons_subset right) rest
  exact each fs gs (List.Subset.refl _) (List.Subset.refl _) names

/-- The fields of the authorization surface, as they are hashed. -/
def surfaceFields (a : ProposedAction) (payload : Value) : List (String × Value) := [
  ("action_id", .str a.actionId), ("request_id", a.requestId), ("tool_name", .str a.toolName),
  ("target", .str a.target), ("payload", payload),
  ("side_effect_level", .member true (.str (Points.ofString a.sideEffectLevel.text))),
  ("payload_sources", .list (a.payloadSources.map ContentRef.asDict)),
  ("estimated_cost_usd", .decimal a.estimatedCostUsd)]

/-- Equal surfaces are equal field by field, up to surrogate pairs. -/
theorem surface_fields {a b : ProposedAction} {v w : Value}
    (same : ((a.authorizationSurface v).written canonicalText).joined =
      ((b.authorizationSurface w).written canonicalText).joined) :
    List.Forall₂ (fun f g => (f.2.written canonicalText).joined = (g.2.written canonicalText).joined)
      (surfaceFields a v) (surfaceFields b w) := by
  apply record_fields same
  · rfl
  · change ["action_id", "request_id", "tool_name", "target", "payload", "side_effect_level",
      "payload_sources", "estimated_cost_usd"].Nodup
    decide

/-- Equal surfaces have equal payloads, up to surrogate pairs. -/
theorem surface_payload {a b : ProposedAction} {v w : Value}
    (same : ((a.authorizationSurface v).written canonicalText).joined =
      ((b.authorizationSurface w).written canonicalText).joined) :
    (v.written canonicalText).joined = (w.written canonicalText).joined := by
  have fields := surface_fields same
  simp only [surfaceFields, List.forall₂_cons] at fields
  exact fields.2.2.2.2.1

end Durable

/-- Equal canonical texts. -/
theorem text_eq_iff {x y : Data} : x.text = y.text ↔ x.joined = y.joined :=
  Data.render_eq_iff Layout.compact

theorem digest_eq_iff {sha : TextHash} (collisionFree : Function.Injective sha) {v w : Value} :
    digest sha v = digest sha w ↔
      (v.written canonicalText).joined = (w.written canonicalText).joined := by
  rw [← text_eq_iff, digest, digest]
  constructor
  · intro same
    have inner := congrArg String.toList same
    rw [String.toList_append, String.toList_append, List.append_cancel_left_eq] at inner
    exact collisionFree (String.toList_injective inner)
  · intro same
    rw [same]

/-- Documents whose strings and names are all drawn from `texts`. -/
def Over (texts : Set Points) (x : Data) : Prop := ∀ s ∈ x.strings, s ∈ texts

/-- The fingerprints of an action tell its payloads apart, whatever its other fields are. -/
def Bound (texts : Set Points) (sha : TextHash) (chunking : Chunking) : Prop :=
  ∀ (a b : Durable.ProposedAction) (fs gs : List Field) (p q : Durable.SealedAction),
    Over texts (.obj fs) → Over texts (.obj gs) →
    a.payload = Value.ofFields fs → b.payload = Value.ofFields gs →
    a.sealFingerprints sha chunking = .ok p → b.sealFingerprints sha chunking = .ok q →
    (p.payloadHash = q.payloadHash ∨ p.authorizationHash = q.authorizationHash) →
      (Data.obj fs).Same (.obj gs)

private theorem same_of_joined {texts : Set Points}
    (apart : ∀ s ∈ texts, ∀ t ∈ texts, s.units = t.units → s = t) {x y : Data} (left : Over texts x)
    (right : Over texts y) (joined : x.sorted.joined = y.sorted.joined) : x.Same y := by
  apply Data.eq_of_joined joined
  intro s inside t other
  exact apart s (left s ((Data.mem_strings_sorted x).1 inside)) t
    (right t ((Data.mem_strings_sorted y).1 other))

theorem sealed_hashes {sha : TextHash} {chunking : Chunking} {a : Durable.ProposedAction}
    {p : Durable.SealedAction} (accepted : a.sealFingerprints sha chunking = .ok p) :
    (Value.dict a.payload).Bounded ∧ p.payloadHash = digest sha (.dict a.payload) ∧
      p.authorizationHash = digest sha (a.authorizationSurface (Value.dict a.payload).snapshot) := by
  simp only [Durable.ProposedAction.sealFingerprints, bind_ok_iff, pure_ok_iff, orRefuse_ok_iff,
    Prod.exists, actionSnapshot_ok_iff] at accepted
  obtain ⟨_, _, ⟨hashable, rfl, rfl⟩, _, _, ⟨_, rfl, rfl⟩, _, _, rfl⟩ := accepted
  exact ⟨hashable.admissible.bounded, rfl, rfl⟩

/-- Canonical texts, and with a collision-free hash the fingerprints of an action, determine values
over a set of strings exactly when no two of those strings have the same code units. -/
theorem canonical_injective_iff (chunking : Chunking) (texts : Set Points) :
    ((∀ x y text, Over texts x → Over texts y → canonicalJson (Value.ofData x) = .ok text →
        canonicalJson (Value.ofData y) = .ok text → x.Same y) ∧
      ∀ sha, Function.Injective sha → Bound texts sha chunking) ↔
      ∀ s ∈ texts, ∀ t ∈ texts, s.units = t.units → s = t := by
  constructor
  · rintro ⟨injective, _⟩ s left t right units
    have written (s : Points) : canonicalJson (Value.ofData (.str s)) = .ok (quoted s) := rfl
    -- two texts of the same code units are written alike
    have texts_eq : quoted s = quoted t := by rw [quoted, quoted, escaped, escaped, units]
    have same := injective (.str s) (.str t) (quoted s) (by simpa [Over, Data.strings] using left)
      (by simpa [Over, Data.strings] using right) (written s) (by rw [texts_eq]; exact written t)
    simpa [Data.Same, Data.sorted] using same
  · intro apart
    refine ⟨?_, ?_⟩
    · intro x y text left right own other
      have joined : x.sorted.joined = y.sorted.joined := by
        have first := canonicalJson_text own
        have second := canonicalJson_text other
        rw [Value.written_ofData] at first second
        exact text_eq_iff.1 (first.symm.trans second)
      exact same_of_joined apart left right joined
    · intro sha collisionFree a b fs gs p q left right own other sealA sealB same
      obtain ⟨boundedA, payloadA, authorizationA⟩ := sealed_hashes sealA
      obtain ⟨boundedB, payloadB, authorizationB⟩ := sealed_hashes sealB
      have payloads : ((Value.dict a.payload).written canonicalText).joined =
          ((Value.dict b.payload).written canonicalText).joined := by
        -- the authorization's hash covers the payload too
        rcases same with payload | authorization
        · rw [payloadA, payloadB] at payload
          exact (digest_eq_iff collisionFree).1 payload
        · rw [authorizationA, authorizationB] at authorization
          have inner := Durable.surface_payload ((digest_eq_iff collisionFree).1 authorization)
          rwa [boundedA.written_snapshot, boundedB.written_snapshot] at inner
      rw [own, other] at payloads
      have decoded (hs : List Field) : (Value.dict (Value.ofFields hs)).written canonicalText =
          (Data.obj hs).sorted := Value.written_ofData canonicalText (.obj hs)
      rw [decoded, decoded] at payloads
      exact same_of_joined apart left right payloads

/-- `{"k": "\U0001F600"}` and `{"k": "\uD83D\uDE00"}` share their canonical text and payload hash. -/
theorem surrogate_pair_collides :
    ¬ ∀ (x y : Data) (text : List Char) (hash : String),
      canonicalJson (Value.ofData x) = .ok text → canonicalJson (Value.ofData y) = .ok text →
      actionSha256Of String.ofList Chunking.single (Value.ofData x) = .ok hash →
      actionSha256Of String.ofList Chunking.single (Value.ofData y) = .ok hash → x.Same y := by
  intro injective
  have text : canonicalJson (Value.ofData (.obj [([0x6B], .str [0x1F600])])) =
      .ok "\x7b\"k\":\"\\ud83d\\ude00\"\x7d".toList := by decide +kernel
  have text' : canonicalJson (Value.ofData (.obj [([0x6B], .str [0xD83D, 0xDE00])])) =
      .ok "\x7b\"k\":\"\\ud83d\\ude00\"\x7d".toList := by decide +kernel
  have hash : actionSha256Of String.ofList Chunking.single
      (Value.ofData (.obj [([0x6B], .str [0x1F600])])) =
      .ok "sha256:\x7b\"k\":\"\\ud83d\\ude00\"\x7d" := by decide +kernel
  have hash' : actionSha256Of String.ofList Chunking.single
      (Value.ofData (.obj [([0x6B], .str [0xD83D, 0xDE00])])) =
      .ok "sha256:\x7b\"k\":\"\\ud83d\\ude00\"\x7d" := by decide +kernel
  have same := injective _ _ _ _ text text' hash hash'
  simp [Data.Same, Data.sorted, Data.sortedFields] at same

end DefiantHarness
