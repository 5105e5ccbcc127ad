import DefiantHarness.ContractReading

/-! Contracts that are equal to what they are written as again: reading that back is reading the
contract itself back. -/
namespace DefiantHarness

open Foundation

namespace Value

private theorem scalar_shape {v : Value} {y : Data} (scalar : v.scalar? = some y) :
    v = .ofData y ∧ y.Distinct := by
  cases v <;> cases scalar <;> exact ⟨rfl, trivial⟩

private theorem scalarEquals_shape {v w : Value} (equal : v.scalarEquals w = true) :
    ∃ z, w = .ofData z ∧ z.Distinct := by
  rw [scalarEquals, Option.any_eq_true] at equal
  obtain ⟨x, -, equal⟩ := equal
  obtain ⟨y, scalar, -⟩ := (Option.any_eq_true _ _).1 equal
  exact ⟨y, scalar_shape scalar⟩

private theorem entryAt_str {k : Points} {es : List Entry} {w : Value}
    (found : entryAt (.str k) es = some w) : (Value.str k, w) ∈ es := by
  induction es with
  | nil => cases found
  | cons e es ih =>
    obtain ⟨own, v⟩ := e
    rw [entryAt] at found
    split at found
    next same =>
      obtain rfl := Option.some.inj found
      cases own with
      | str s =>
        have key : s = k := by simpa [scalarEquals, scalar?, Data.equals] using same
        rw [key]
        exact List.mem_cons_self
      | _ => simp [scalarEquals, scalar?, Data.equals, Data.amount?] at same
    · exact List.mem_cons_of_mem _ (ih found)

/-- Values that are all data are the items of data. -/
private theorem items_shape {vs : List Value} (each : ∀ v ∈ vs, ∃ z, v = .ofData z ∧ z.Distinct) :
    ∃ zs : List Data, vs = zs.map .ofData ∧ ∀ z ∈ zs, z.Distinct := by
  induction vs with
  | nil => exact ⟨[], rfl, List.forall_mem_nil _⟩
  | cons v vs ih =>
    obtain ⟨head, tail⟩ := List.forall_mem_cons.1 each
    obtain ⟨z, rfl, distinct⟩ := head
    obtain ⟨zs, rfl, others⟩ := ih tail
    exact ⟨z :: zs, rfl, List.forall_mem_cons.2 ⟨distinct, others⟩⟩

private theorem fields_shape {es : List Entry}
    (each : ∀ e ∈ es, ∃ k z, e = (Value.str k, .ofData z) ∧ z.Distinct) :
    ∃ fields : List Field, es = ofFields fields ∧ ∀ f ∈ fields, f.2.Distinct := by
  induction es with
  | nil => exact ⟨[], rfl, List.forall_mem_nil _⟩
  | cons e es ih =>
    obtain ⟨head, tail⟩ := List.forall_mem_cons.1 each
    obtain ⟨k, z, rfl, distinct⟩ := head
    obtain ⟨fields, rfl, others⟩ := ih tail
    exact ⟨(k, z) :: fields, rfl, List.forall_mem_cons.2 ⟨distinct, others⟩⟩

/-- A dictionary with data under each of as many names as it has entries is one of data. -/
private theorem fields_of_found {fields : List Field} {others : List Entry}
    (names : (fields.map (·.1)).Nodup) (length : fields.length = others.length)
    (found : ∀ f ∈ fields, ∃ z : Data, (Value.str f.1, Value.ofData z) ∈ others ∧ z.Distinct) :
    ∃ all : List Field, others = ofFields all ∧ (all.map (·.1)).Nodup ∧ ∀ f ∈ all, f.2.Distinct := by
  -- the data under the names, in the order of the names
  obtain ⟨zs, named, inside⟩ : ∃ zs : List Field, zs.map (·.1) = fields.map (·.1) ∧
      ∀ f ∈ zs, (Value.str f.1, Value.ofData f.2) ∈ others ∧ f.2.Distinct := by
    clear names length
    induction fields with
    | nil => exact ⟨[], rfl, List.forall_mem_nil _⟩
    | cons f fs ih =>
      obtain ⟨head, tail⟩ := List.forall_mem_cons.1 found
      obtain ⟨z, own, apart⟩ := head
      obtain ⟨zs, named, inside⟩ := ih tail
      exact ⟨(f.1, z) :: zs, by rw [List.map_cons, List.map_cons, named],
        List.forall_mem_cons.2 ⟨⟨own, apart⟩, inside⟩⟩
  have nodup : (ofFields zs).Nodup := by
    rw [ofFields_eq]
    apply List.Nodup.of_map Prod.fst
    rw [List.map_map]
    rw [← named] at names
    exact (List.Nodup.of_map (f := fun v : Value => v.text?.getD []) (by
      rw [List.map_map]
      exact names))
  have subset : ofFields zs ⊆ others := by
    intro e member
    rw [ofFields_eq] at member
    obtain ⟨f, own, rfl⟩ := List.mem_map.1 member
    exact (inside f own).1
  have size : (ofFields zs).length = others.length := by
    rw [ofFields_eq, List.length_map, ← length, ← @List.length_map _ _ zs (·.1), named,
      List.length_map]
  -- there are as many of them as entries, so the dictionary holds nothing else
  have perm : (ofFields zs).Perm others :=
    (List.subperm_of_subset nodup subset).perm_of_length_le size.ge
  obtain ⟨all, rfl, apart⟩ : ∃ all : List Field, others = ofFields all ∧ ∀ f ∈ all, f.2.Distinct := by
    apply fields_shape
    intro e member
    have own := perm.mem_iff.2 member
    rw [ofFields_eq] at own
    obtain ⟨f, there, rfl⟩ := List.mem_map.1 own
    exact ⟨f.1, f.2, rfl, (inside f there).2⟩
  refine ⟨all, rfl, ?_, apart⟩
  have keys := perm.map (fun e : Entry => e.1.text?.getD [])
  rw [ofFields_eq, ofFields_eq, List.map_map, List.map_map] at keys
  exact keys.nodup_iff.1 (named ▸ names)

/-- What is equal to data is data. -/
theorem plain_of_equals {x : Data} {v : Value} (distinct : x.Distinct)
    (equal : (ofData x).equals v = true) : ∃ z, v = .ofData z ∧ z.Distinct := by
  induction x using Data.induction_on generalizing v with
  | arr items ih =>
    cases v with
    | list others =>
      rw [ofData, equals, equalsItems_iff, ofItems_eq, List.forall₂_map_left_iff] at equal
      rw [Data.Distinct, Data.distinctItems_iff] at distinct
      obtain ⟨zs, rfl, apart⟩ : ∃ zs : List Data, others = zs.map .ofData ∧ ∀ z ∈ zs, z.Distinct := by
        apply items_shape
        intro w member
        -- each item is equal to the item of the data at its place
        obtain ⟨i, inside, rfl⟩ := List.mem_iff_getElem.1 member
        have inside' : i < items.length := by rw [equal.length_eq]; exact inside
        exact ih _ (List.getElem_mem _) (distinct _ (List.getElem_mem _)) (equal.get inside' inside)
      exact ⟨.arr zs, by rw [ofData, ofItems_eq], Data.distinctItems_iff.2 apart⟩
    | _ => simp [ofData, equals, scalarEquals, scalar?] at equal
  | obj fields ih =>
    cases v with
    | dict others =>
      obtain ⟨names, values⟩ := distinct
      rw [Data.distinctFields_iff] at values
      rw [ofData, equals, Bool.and_eq_true, beq_iff_eq, equalsEntries_iff, ofFields_eq,
        List.forall_mem_map, List.length_map] at equal
      obtain ⟨length, each⟩ := equal
      obtain ⟨all, rfl, apart, inner⟩ := fields_of_found names length fun f member => by
        obtain ⟨w, at_, same⟩ := each f member
        obtain ⟨z, rfl, distinct⟩ := ih f member (values f member) same
        exact ⟨z, entryAt_str at_, distinct⟩
      exact ⟨.obj all, rfl, apart, Data.distinctFields_iff.2 inner⟩
    | _ => simp [ofData, equals, scalarEquals, scalar?] at equal
  | _ =>
    cases v with
    | list others => simp [ofData, equals, scalarEquals, scalar?] at equal
    | tuple others => simp [ofData, equals, scalarEquals, scalar?] at equal
    | dict others => simp [ofData, equals, scalarEquals, scalar?] at equal
    | _ => exact scalarEquals_shape equal

/-- Equal values are read back alike when no number stands for one of another kind. -/
theorem ReadAs.of_equals {v n : Value} {x : Data} (shape : n.listed = .ofData x) (distinct : x.Distinct)
    (equal : n.equals v = true)
    (unmixed : ∀ z, v.listed = .ofData z → z.Distinct → ¬ Data.Mixed x z) :
    ReadAs v n.listed := by
  have listed := equals_listed equal
  rw [shape] at listed ⊢
  obtain ⟨z, shape', distinct'⟩ := plain_of_equals distinct listed
  rw [shape', equals_ofData] at listed
  -- equality of data only confuses numbers of two kinds, and those are excluded
  have same := Data.same_of_equals distinct distinct' listed (unmixed z shape' distinct')
  exact ⟨z, x, shape', rfl, same.symm, distinct', distinct⟩

end Value
namespace Durable

open Value (ReadAs EntriesReadAs)

/-- The plain form of a value has no numbers, so what is equal to it is the same. -/
def Settled (v : Value) : Prop :=
  ∀ n x, v.enumSafe = .ok n → n.listed = .ofData x → ∀ z, ¬ Data.Mixed x z

private theorem unmixed_str (s : Points) (z : Data) : ¬ Data.Mixed (.str s) z := by
  rintro ⟨⟩
  rename_i value left right other
  cases left

private theorem unmixed_null (z : Data) : ¬ Data.Mixed .null z := by
  rintro ⟨⟩
  rename_i value left right other
  cases left

theorem settled_str (s : Points) : Settled (.str s) := by
  intro n x safe shape z
  obtain rfl := pure_ok_iff.1 safe
  cases x <;> cases shape
  exact unmixed_str s z

theorem settled_null : Settled .null := by
  intro n x safe shape z
  obtain rfl := pure_ok_iff.1 safe
  cases x <;> cases shape
  exact unmixed_null z

theorem settled_member (mixed : Bool) (s : Points) : Settled (.member mixed (.str s)) := by
  intro n x safe shape z
  obtain rfl := pure_ok_iff.1 safe
  cases x <;> cases shape
  exact unmixed_str s z

theorem settled_decimal (d : Decimal) : Settled (.decimal d) := by
  intro n x safe shape z
  obtain ⟨text, -, rfl⟩ := map_ok_iff.1 safe
  cases x <;> cases shape
  exact unmixed_str _ z

theorem source_of_made {α β : Type} {R : α → β → Prop} {own : List α} {made : List β}
    (each : List.Forall₂ R own made) {b : β} (member : b ∈ made) : ∃ a ∈ own, R a b := by
  induction each with
  | nil => cases member
  | cons head _ ih =>
    rcases List.mem_cons.1 member with rfl | inside
    · exact ⟨_, List.mem_cons_self, head⟩
    · obtain ⟨a, there, related⟩ := ih inside
      exact ⟨a, List.mem_cons_of_mem _ there, related⟩

private theorem enumSafeItems_made {vs ns : List Value} (made : Value.enumSafeItems vs = .ok ns) :
    List.Forall₂ (fun v n => v.enumSafe = .ok n) vs ns := by
  induction vs generalizing ns with
  | nil =>
    obtain rfl := pure_ok_iff.1 made
    exact .nil
  | cons v vs ih =>
    simp only [Value.enumSafeItems, bind_ok_iff, pure_ok_iff] at made
    obtain ⟨n, head, rest, tail, rfl⟩ := made
    exact .cons head (ih tail)

theorem settled_list {vs : List Value} (each : ∀ v ∈ vs, Settled v) : Settled (.list vs) := by
  intro n x safe shape z mixed
  obtain ⟨ns, made, rfl⟩ := map_ok_iff.1 safe
  rw [Value.listed_list] at shape
  obtain ⟨xs, rfl, items⟩ := Value.ofData_list shape
  cases mixed with
  | number value left => cases left
  | item i left right mixed =>
    rename_i a b
    -- a number inside would be inside an item
    have member : Value.ofData a ∈ ns.map Value.listed := by
      rw [items]
      exact List.mem_map_of_mem (List.mem_of_getElem? left)
    obtain ⟨n, own, listed⟩ := List.mem_map.1 member
    obtain ⟨v, source, safe⟩ := source_of_made (enumSafeItems_made made) own
    exact each v source n a safe listed b mixed

/-- The data under a name of a record. -/
private theorem field_of_record {plain : List (String × Value)} {fields : List Field} {k : Points} {a : Data}
    (shape : (record plain).map (fun e => (e.1, e.2.listed)) = Value.ofFields fields)
    (member : (k, a) ∈ fields) :
    ∃ f ∈ plain, Points.ofString f.1 = k ∧ f.2.listed = .ofData a := by
  have entry : (Value.str k, Value.ofData a) ∈ (record plain).map (fun e => (e.1, e.2.listed)) := by
    rw [shape, Value.ofFields_eq]
    exact List.mem_map_of_mem member
  rw [record, List.map_map] at entry
  obtain ⟨f, own, same⟩ := List.mem_map.1 entry
  obtain ⟨key, listed⟩ := Prod.mk.inj same
  exact ⟨f, own, Value.str.inj key, listed⟩

theorem settled_record {fields : List (String × Value)} (each : ∀ f ∈ fields, Settled f.2) :
    Settled (.dict (record fields)) := by
  intro n x safe shape z mixed
  obtain ⟨plain, made, rfl⟩ := enumSafe_record.1 safe
  rw [Value.listed_dict] at shape
  obtain ⟨named, rfl, entries⟩ := Value.ofData_dict shape
  cases mixed with
  | number value left => cases left
  | field k left right mixed =>
    rename_i a b
    obtain ⟨g, own, -, listed⟩ := field_of_record entries left
    obtain ⟨f, source, -, safe⟩ := source_of_made made own
    exact each f source g.2 a safe listed b mixed

theorem settled_ref (r : ContentRef) : Settled r.asDict := by
  apply settled_record
  simp [settled_str, settled_member]

/-- A field of a contract whose plain form is settled, or that is the value it was made from. -/
def Kept (raw : List Entry) (f : String × Value) : Prop :=
  Settled f.2 ∨ ∀ v z, lookup f.1 raw = some v → v.listed = .ofData z → f.2 = v

/-- A contract is read back from its own plain form. -/
theorem readAs_of_kept {raw : List Entry} {parts plain : List (String × Value)} {w : Value}
    (made : List.Forall₂ (fun f g => f.1 = g.1 ∧ f.2.enumSafe = .ok g.2) parts plain)
    (kept : ∀ f ∈ parts, Kept raw f) (equal : (Value.dict (record plain)).equals (.dict raw) = true)
    (read : ReadAs (.dict (record plain)) w) : ReadAs (.dict raw) w := by
  obtain ⟨x, y, shape, rfl, same, distinct, distinct'⟩ := read
  -- first that the document is read back as its plain form, then as what that is read back as
  have own : ReadAs (.dict raw) (Value.dict (record plain)).listed := by
    apply ReadAs.of_equals shape distinct equal
    intro z whole distinct mixed
    rw [Value.listed_dict] at shape whole
    obtain ⟨named, rfl, entries⟩ := Value.ofData_dict shape
    obtain ⟨others, rfl, source⟩ := Value.ofData_dict whole
    cases mixed with
    | number value left => cases left
    | field k left right mixed =>
      rename_i a b
      obtain ⟨g, own, rfl, listed⟩ := field_of_record entries left
      obtain ⟨f, part, name, safe⟩ := source_of_made made own
      -- a mixed number would stand in one of the parts
      rcases kept f part with settled | same
      · exact settled g.2 a safe listed b mixed
      · -- the value it was made from is the plain form already
        obtain ⟨names, values⟩ := distinct
        rw [Data.distinctFields_iff] at values
        have there := Value.lookup_listed g.1 raw
        rw [source, Value.lookup_fields, (fieldAt_eq_some_iff names).2 right] at there
        obtain ⟨v, found, listed'⟩ := Option.map_eq_some_iff.1 there.symm
        rw [same v b (name ▸ found) listed', enumSafe_listed listed', Except.ok.injEq] at safe
        rw [← safe, listed', Value.listed_ofData] at listed
        obtain rfl := Value.ofData_injective listed
        have apart := values _ right
        exact mixed.not_same apart apart rfl
  rw [shape] at own
  exact own.trans (⟨x, y, Value.listed_ofData x, rfl, same, distinct, distinct'⟩)

/-- What is read back of the plain form of a canonical document is read back of the document. -/
def Canonical (load : List Entry → Except HarnessError Value) : Prop :=
  ∀ raw n w, load raw = .ok n → n.equals (.dict raw) = true → ReadAs n w → ReadAs (.dict raw) w

/-! ### Requests -/

namespace HarnessRequest

/-- A canonical request is read back from its durable form. -/
theorem readAs_canonical {r : HarnessRequest} {n w : Value} {raw : List Entry} (made : r.toDict = .ok n)
    (equal : n.equals (.dict raw) = true) (read : ReadAs n w) : ReadAs (.dict raw) w := by
  obtain ⟨plain, fields, rfl⟩ :=
    enumSafe_record.1 (show (Value.dict (record r.parts)).enumSafe = _ from made)
  refine readAs_of_kept fields (fun f member => .inl ?_) equal read
  have budget : Settled ((r.budgetLimitUsd.map Value.decimal).getD .null) := by
    cases r.budgetLimitUsd with
    | none => exact settled_null
    | some d => exact settled_decimal d
  have tools : Settled (.list (r.allowedTools.map .str)) :=
    settled_list (List.forall_mem_map.2 fun s _ => settled_str s)
  have inputs : Settled (.list (r.inputs.map ContentRef.asDict)) :=
    settled_list (List.forall_mem_map.2 fun ref _ => settled_ref ref)
  revert f
  simp [parts, settled_str, settled_member, text, budget, tools, inputs]

end HarnessRequest

/-! ### Decisions -/

private theorem dict_of_snapshot {v : Value} {z : Data} {entries : List Entry} {name : String}
    (shape : v.listed = .ofData z) (made : authorityMappingSnapshot v name = .ok entries) :
    v = .dict entries := by
  cases v with
  | dict own =>
    simp only [authorityMappingSnapshot, bind_ok_iff] at made
    obtain ⟨s, taken, result⟩ := made
    rw [authorityContractSnapshot, mapError_ok_iff, validate_ok_iff] at taken
    obtain ⟨-, -, rfl⟩ := taken
    rw [Value.snapshot_of_listed shape] at result
    rw [pure_ok_iff.1 result]
  | _ => cases made

namespace SealedDecision

private theorem make_inputs {literals : Literals} {d : Decision} {a : SealedDecision}
    {reason policyIds policyVersion rulesetHash approvalScope expiresAt redactions decisionInputs
      decidedAt : Value}
    (made : make literals d reason policyIds policyVersion rulesetHash approvalScope expiresAt
      redactions decisionInputs decidedAt = .ok a) :
    authorityMappingSnapshot decisionInputs "decision_inputs" = .ok a.decisionInputs := by
  simp only [make, bind_ok_iff, pure_ok_iff] at made
  obtain ⟨-, -, -, -, -, -, -, -, -, -, -, -, -, -, inputs, taken, -, -, -, -, rfl⟩ := made
  exact taken

/-- A canonical decision is read back from its durable form. -/
theorem readAs_canonical {literals : Literals} {supply : Supply literals} {a : SealedDecision}
    {n w : Value} {raw : List Entry} (loaded : fromDict literals supply raw = .ok a)
    (made : a.toDict literals = .ok n) (equal : n.equals (.dict raw) = true) (read : ReadAs n w) :
    ReadAs (.dict raw) w := by
  simp only [SealedDecision.toDict, bind_ok_iff, mapError_ok_iff] at made
  obtain ⟨checked, remade, normalized⟩ := made
  obtain ⟨plain, fields, rfl⟩ :=
    enumSafe_record.1 (show (Value.dict (record checked.parts)).enumSafe = _ from normalized)
  -- checking a decision twice leaves its inputs as they are in the document
  have inputs : Kept raw ("decision_inputs", .dict checked.decisionInputs) := by
    refine .inr fun v z found shape => ?_
    simp only [fromDict, bind_ok_iff] at loaded
    obtain ⟨_, -, _, -, -, -, _, -, loaded⟩ := loaded
    have own := make_inputs loaded
    rw [field, found, Option.getD_some] at own
    obtain rfl := dict_of_snapshot shape own
    exact (dict_of_snapshot shape (make_inputs remade)).symm
  have ids : Settled (.list (checked.policyIds.map .str)) :=
    settled_list (List.forall_mem_map.2 fun s _ => settled_str s)
  have redactions : Settled (.list (checked.redactions.map .str)) :=
    settled_list (List.forall_mem_map.2 fun s _ => settled_str s)
  have expiry : Settled ((checked.expiresAt.map Value.str).getD .null) := by
    cases checked.expiresAt with
    | none => exact settled_null
    | some s => exact settled_str s
  refine readAs_of_kept fields ?_ equal read
  have settled {name : String} {v : Value} (own : Settled v) : Kept raw (name, v) := .inl own
  simp only [parts, List.forall_mem_cons]
  exact ⟨settled (settled_member _ _), settled (settled_str _), settled ids, settled (settled_str _),
    settled (settled_str _), settled (settled_str _), settled expiry, settled redactions, inputs,
    settled (settled_str _), List.forall_mem_nil _⟩

end SealedDecision

/-! ### Actions -/

private theorem plainText_of_listed {v : Value} {z : Data} (shape : v.listed = .ofData z) :
    v.plainText = v := by
  cases v with
  | member mixed v => cases z <;> cases shape
  | _ => rfl

namespace ProposedAction

private theorem fromDict_values {timestamps : Timestamps} {fresh now : Points} {raw : List Entry}
    {a : ProposedAction} (loaded : fromDict timestamps fresh now raw = .ok a) :
    lookup "payload" raw = some (.dict a.payload) ∧
      a.agentReason = ((lookup "agent_reason" raw).getD (.str [])).plainText ∧
        a.requestId = ((lookup "request_id" raw).getD (.str [])).plainText := by
  simp only [fromDict, validateContract, bind_ok_iff, orRefuse_ok_iff, pure_ok_iff] at loaded
  obtain ⟨-, -, -, -, -, -, -, -, -, -, -, -, payload, found, -, -, -, -, -, -, entries, shape, -, -, -, -,
    -, -, -, -, -, -, -, -, -, -, -, -, -, -, rfl⟩ := loaded
  -- the sealed payload is the payload of the document
  cases payload with
  | dict own =>
    obtain rfl := pure_ok_iff.1 shape
    exact ⟨found, rfl, rfl⟩
  | _ => cases shape

/-- A canonical action is read back from its durable form. -/
theorem readAs_canonical {sha : TextHash} {chunking : Chunking} {timestamps : Timestamps}
    {fresh now : Points} {a : ProposedAction} {n w : Value} {raw : List Entry}
    (loaded : fromDict timestamps fresh now raw = .ok a) (made : a.toDict sha chunking = .ok n)
    (equal : n.equals (.dict raw) = true) (read : ReadAs n w) : ReadAs (.dict raw) w := by
  obtain ⟨payloadHash, authorizationHash, plain, -, -, fields, rfl⟩ := toDict_ok_iff.1 made
  obtain ⟨payload, reason, request⟩ := fromDict_values loaded
  -- a text of the action is the text of the document
  have text {name : String} {v : Value}
      (own : v = ((lookup name raw).getD (.str [])).plainText) : Kept raw (name, v) := by
    refine .inr fun u z found shape => ?_
    rw [own, found, Option.getD_some, plainText_of_listed shape]
  have kept : Kept raw ("payload", .dict a.payload) := by
    refine .inr fun v z found _ => ?_
    rw [payload] at found
    exact Option.some.inj found
  have settled {name : String} {v : Value} (own : Settled v) : Kept raw (name, v) := .inl own
  have sources : Settled (.list (a.payloadSources.map ContentRef.asDict)) :=
    settled_list (List.forall_mem_map.2 fun ref _ => settled_ref ref)
  set more := (marks a payloadHash authorizationHash).map fun f => (f.1, Value.str f.2) with moreEq
  have whole : List.Forall₂ (fun f g => f.1 = g.1 ∧ f.2.enumSafe = .ok g.2) (a.parts ++ more)
      (plain ++ more) := by
    refine List.rel_append fields ?_
    rw [moreEq, List.forall₂_map_left_iff, List.forall₂_map_right_iff, List.forall₂_same]
    exact fun f _ => ⟨rfl, rfl⟩
  have together : record plain ++ record more = record (plain ++ more) := by
    rw [record, record, record, List.map_append]
  rw [together] at equal read
  refine readAs_of_kept whole ?_ equal read
  rw [List.forall_mem_append, moreEq, List.forall_mem_map]
  refine ⟨?_, fun f _ => settled (settled_str f.2)⟩
  simp only [parts, List.forall_mem_cons]
  exact ⟨settled (settled_str _), settled (settled_str _), kept, settled (settled_member _ _), text reason,
    settled (settled_str _), text request, settled sources, settled (settled_decimal _),
    settled (settled_str _), List.forall_mem_nil _⟩

end ProposedAction

end Durable
end DefiantHarness
