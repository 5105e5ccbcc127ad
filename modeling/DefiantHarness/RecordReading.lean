import DefiantHarness.CanonicalContracts
import DefiantHarness.StateStores

/-! Records that have been read back: they pass the checks of their stores as before. -/
namespace DefiantHarness

open Foundation

namespace Durable

open Value (ReadAs EntriesReadAs)

/-! ### Contracts inside records -/

/-- What one loader has made of a canonical document, the other one makes of what is read back. -/
def Rereads (load load' : List Entry → Except HarnessError Value) : Prop :=
  ∀ es fs n, EntriesReadAs es fs → load es = .ok n → n.equals (.dict es) = true →
    ∃ m, load' fs = .ok m ∧ ReadAs n m

section Loaders

variable {sha : TextHash} {chunking : Chunking} {literals : Literals} {supply supply' : Supply literals}

theorem actionLoader_rereads :
    Rereads (actionLoader sha chunking literals supply) (actionLoader sha chunking literals supply') := by
  intro es fs n entries made equal
  simp only [actionLoader, bind_ok_iff, mapError_ok_iff] at made ⊢
  obtain ⟨a, loaded, written⟩ := made
  obtain ⟨⟨id, named⟩, time, timed⟩ := ProposedAction.lookup_of_canonical written equal
  -- a canonical document has its own identifier and time, so the other supply is not asked
  have other : ProposedAction.fromDict literals.timestamps supply'.fresh supply'.now es = .ok a := by
    rw [← loaded, ProposedAction.fromDict, ProposedAction.fromDict, named, timed]
    rfl
  obtain ⟨b, loaded', reads⟩ := ProposedAction.fromDict_read entries other
  obtain ⟨m, written', read⟩ := reads.toDict written
  exact ⟨m, ⟨b, loaded', written'⟩, read⟩

theorem requestLoader_rereads :
    Rereads (requestLoader literals supply) (requestLoader literals supply') := by
  intro es fs n entries made equal
  simp only [requestLoader, bind_ok_iff, mapError_ok_iff] at made ⊢
  obtain ⟨r, loaded, written⟩ := made
  obtain ⟨⟨id, named⟩, time, timed⟩ := HarnessRequest.lookup_of_canonical written equal
  have other : HarnessRequest.fromDict literals supply' es = .ok r := by
    rw [← loaded, HarnessRequest.fromDict, HarnessRequest.fromDict]
    simp only [field, named, timed]
    rfl
  exact ⟨n, ⟨r, HarnessRequest.fromDict_read entries other, written⟩,
    HarnessRequest.readAs_toDict written⟩

theorem decisionLoader_rereads :
    Rereads (decisionLoader literals supply) (decisionLoader literals supply') := by
  intro es fs n entries made equal
  simp only [decisionLoader, bind_ok_iff] at made ⊢
  obtain ⟨d, loaded, written⟩ := made
  obtain ⟨time, timed⟩ := SealedDecision.lookup_of_canonical written equal
  have other : SealedDecision.fromDict literals supply' es = .ok d := by
    rw [← loaded, SealedDecision.fromDict, SealedDecision.fromDict]
    simp only [field, timed]
    rfl
  obtain ⟨b, loaded', reads⟩ := SealedDecision.fromDict_read entries other
  obtain ⟨m, written', read⟩ := reads.toDict written
  exact ⟨m, ⟨b, loaded', written'⟩, read⟩

end Loaders

variable {v w : Value} {es fs : List Entry}

/-- A contract that was canonical is canonical when it is read back. -/
theorem contractSnapshot_read {load load' : List Entry → Except HarnessError Value}
    (rereads : Rereads load load') {error : String → HarnessError} {name : String} {n : Value}
    (read : ReadAs v w) (made : contractSnapshot load error v name = .ok n) :
    ∃ m, contractSnapshot load' error w name = .ok m ∧ ReadAs n m := by
  cases v with
  | dict es =>
    obtain ⟨fs, rfl, entries⟩ := id read.dict
    simp only [contractSnapshot, bind_ok_iff, mapError_ok_iff, refuseIf_ok_iff, pure_ok_iff] at made ⊢
    obtain ⟨n, loaded, _, canonical, rfl⟩ := made
    rw [Bool.not_eq_false] at canonical
    -- the contract that is made again is equal to what was read, as it was to what was written
    obtain ⟨m, loaded', own⟩ := rereads es fs n entries loaded canonical
    refine ⟨m, ⟨m, loaded', (), ?_, rfl⟩, own⟩
    rw [Bool.not_eq_false]
    exact own.equals read canonical
  | _ => cases made

/-! ### Views -/

theorem filled_read (read : ReadAs v w) : filled w = filled v := by
  rw [filled, filled, exactText?_read read]

theorem visible_read (read : ReadAs v w) : visible w = visible v := by
  rw [visible, visible, text?_read read]

theorem isText_read (read : ReadAs v w) : isText w = isText v := by
  rw [isText, isText, exactText?_read read]

theorem oneOf_read (read : ReadAs v w) (texts : List String) : oneOf texts w = oneOf texts v := by
  rw [oneOf, oneOf, text?_read read]

theorem truthy_read (read : ReadAs v w) : truthy w = truthy v := by
  cases v with
  | list own =>
    obtain ⟨others, rfl, each⟩ := read.list
    cases each <;> rfl
  | tuple own =>
    obtain ⟨others, rfl, each⟩ := read.tuple
    cases each <;> rfl
  | dict own =>
    obtain ⟨others, rfl, entries⟩ := read.dict
    -- a dictionary is read back with as many entries
    have length := entries.length
    cases own <;> cases others <;> first | rfl | cases length
  | null | bool b | int i | float x | str s =>
    obtain ⟨x, y, shape, rfl, same, -, -⟩ := read
    cases x <;> cases shape
    cases y <;> cases same
    rfl
  | _ =>
    obtain ⟨x, y, shape, -⟩ := read
    cases x <;> cases shape

theorem entries?_read (read : ReadAs v w) (shape : entries? v = some es) :
    ∃ fs, entries? w = some fs ∧ EntriesReadAs es fs := by
  cases v with
  | dict own =>
    obtain ⟨others, rfl, entries⟩ := read.dict
    obtain rfl := Option.some.inj shape
    exact ⟨others, rfl, entries⟩
  | _ => cases shape

theorem items?_read {items : List Value} (read : ReadAs v w) (shape : items? v = some items) :
    ∃ others, items? w = some others ∧ List.Forall₂ ReadAs items others := by
  cases v with
  | list own =>
    obtain ⟨others, rfl, each⟩ := read.list
    obtain rfl := Option.some.inj shape
    exact ⟨others, rfl, each⟩
  | _ => cases shape

private theorem entries_nil : EntriesReadAs [] [] where
  lookup _ := .none
  origin := List.forall_mem_nil _
  named := List.forall_mem_nil _
  length := rfl

private theorem entries?_of_plain (plain : isMapping v = false) : entries? v = none := by
  cases v <;> first | rfl | cases plain

theorem getOr_read (read : ReadAs v w) (name : String) {default : Value}
    (own : ReadAs default default) : ReadAs (getOr v name default) (getOr w name default) := by
  -- what is no dictionary is looked into as an empty one, before and after
  have both : EntriesReadAs ((entries? v).getD []) ((entries? w).getD []) := by
    cases mapping : isMapping v with
    | false =>
      rw [entries?_of_plain mapping, entries?_of_plain ((isMapping_read read).trans mapping)]
      exact entries_nil
    | true =>
      cases v with
      | dict es =>
        obtain ⟨fs, rfl, entries⟩ := read.dict
        exact entries
      | _ => cases mapping
  exact field_read both name own

theorem get_read (read : ReadAs v w) (name : String) : ReadAs (get v name) (get w name) :=
  getOr_read read name readAs_null

/-! ### Approvals -/

namespace PendingApproval

theorem parse_read (read : ReadAs v w) (literals : Literals) : parse literals w = parse literals v := by
  rw [parse, parse, exactText?_read read]

theorem shown_read (read : ReadAs v w) : shown w = shown v := by
  rw [shown, shown, exactText?_read read]

theorem quoted_read (read : ReadAs v w) : quoted w = quoted v := by
  rw [quoted, quoted, exactText?_read read]

section Values

variable {value value' : String → Value}
  (each : ∀ name, name ≠ "reserved_usd" → ReadAs (value name) (value' name))
include each

theorem checkTexts_read : checkTexts value' = checkTexts value := by
  have filled' (name : String) (other : name ≠ "reserved_usd") := filled_read (each name other)
  have text (name : String) (other : name ≠ "reserved_usd") := isText_read (each name other)
  have null (name : String) (other : name ≠ "reserved_usd") := isNull_read (each name other)
  have shown' (name : String) (other : name ≠ "reserved_usd") := shown_read (each name other)
  simp (disch := decide) only [checkTexts, checkAll, filled', text, null, shown',
    oneOf_read (each "status" (by decide))]

theorem checkTimes_read (literals : Literals) : checkTimes literals value' = checkTimes literals value := by
  have filled' (name : String) (other : name ≠ "reserved_usd") := filled_read (each name other)
  have text (name : String) (other : name ≠ "reserved_usd") := isText_read (each name other)
  have null (name : String) (other : name ≠ "reserved_usd") := isNull_read (each name other)
  have mapping (name : String) (other : name ≠ "reserved_usd") := isMapping_read (each name other)
  have time (name : String) (other : name ≠ "reserved_usd") := parse_read (each name other) literals
  simp (disch := decide) only [checkTimes, checkAll, filled', text, null, mapping, time,
    oneOf_read (each "status" (by decide)), shown_read (each "status" (by decide))]

theorem checkReconciliation_read : checkReconciliation value' = checkReconciliation value := by
  have filled' (name : String) (other : name ≠ "reserved_usd") := filled_read (each name other)
  have visible' (name : String) (other : name ≠ "reserved_usd") := visible_read (each name other)
  simp (disch := decide) only [checkReconciliation, List.map_cons, List.map_nil, filled', visible',
    oneOf_read (each "status" (by decide)), oneOf_read (each "reconciliation_outcome" (by decide)),
    quoted_read (each "reconciliation_outcome" (by decide))]

/-- Bindings that held are held by what is read back. -/
theorem checkBindings_read {action request decision action' request' decision' : Option Value}
    (actions : Option.Rel ReadAs action action') (requests : Option.Rel ReadAs request request')
    (decisions : Option.Rel ReadAs decision decision')
    (bound : checkBindings value action request decision = .ok ()) :
    checkBindings value' action' request' decision' = .ok () := by
  -- a binding compares a member of a contract with a member of the record, and both are read back
  have names {own other : Option Value} (reads : Option.Rel ReadAs own other) (name : String)
      (apart : name ≠ "reserved_usd") (same : ¬ own.any (fun v => !(get v name).equals (value name)) = true) :
      ¬ other.any (fun v => !(get v name).equals (value' name)) = true := by
    cases reads with
    | none => exact same
    | some read =>
      simp only [Option.any_some, Bool.not_eq_true, Bool.not_eq_false'] at same ⊢
      exact (get_read read name).equals (each name apart) same
  simp only [checkBindings, bind_ok_iff, checkAll_ok_iff, refuseIf_ok_iff] at bound ⊢
  obtain ⟨_, acted, _, requested, _, both, decided⟩ := bound
  have acts : ∀ name ∈ ["action_id", "request_id", "tool_name", "target", "payload_hash",
      "authorization_hash"], name ≠ "reserved_usd" := by decide
  have decides : ∀ name ∈ ["reason", "approval_scope", "policy_ids"], name ≠ "reserved_usd" := by decide
  refine ⟨(), fun name member => names actions name (acts name member) (acted name member), (),
    names requests "request_id" (by decide) requested, (), ?_,
    fun name member => names decisions name (decides name member) (decided name member)⟩
  cases actions with
  | none => exact both
  | some action =>
    cases requests with
    | none => exact both
    | some request =>
      simp only [Option.any_some, Bool.not_eq_true, Bool.not_eq_false'] at both ⊢
      exact (get_read action _).equals (get_read request _) both

end Values

theorem policyIdsValid_read (read : ReadAs v w) (valid : policyIdsValid v = true) :
    policyIdsValid w = true := by
  cases v with
  | list items =>
    obtain ⟨others, rfl, each⟩ := read.list
    simp only [policyIdsValid, List.all_eq_true] at valid ⊢
    intro w member
    obtain ⟨i, inside, rfl⟩ := List.mem_iff_getElem.1 member
    have inside' : i < items.length := by rw [each.length_eq]; exact inside
    exact (filled_read (each.get inside' inside)).trans (valid _ (List.getElem_mem _))
  | _ => cases valid

theorem optionalContractSnapshot_read {load load' : List Entry → Except HarnessError Value}
    (rereads : Rereads load load') {name : String} {n : Option Value} (read : ReadAs v w)
    (made : optionalContractSnapshot load v name = .ok n) :
    ∃ m, optionalContractSnapshot load' w name = .ok m ∧ Option.Rel ReadAs n m := by
  simp only [optionalContractSnapshot, optionally, isNull_read read] at made ⊢
  split at made
  next null =>
    obtain rfl := pure_ok_iff.1 made
    exact ⟨none, if_pos null, .none⟩
  next some =>
    obtain ⟨n, snapshot, rfl⟩ := map_ok_iff.1 made
    obtain ⟨m, snapshot', own⟩ := contractSnapshot_read rereads read snapshot
    exact ⟨m, by rw [if_neg some, snapshot']; rfl, .some own⟩

private theorem readAs_defaults : ReadAs (.dict (record defaults)) (.dict (record defaults)) := by
  apply readAs_record (List.forall₂_same.2 _) (by decide)
  simp [defaults, readAs_text, readAs_null, readAs_nil]

private theorem readAs_default (name : String) :
    ReadAs (field (record defaults) name .null) (field (record defaults) name .null) := by
  obtain ⟨_, ⟨⟩, entries⟩ := readAs_defaults.dict
  exact field_read entries name readAs_null

theorem values_read (entries : EntriesReadAs es fs) (name : String) :
    ReadAs (values es name) (values fs name) :=
  field_read entries name (readAs_default name)

/-- An approval and the one that is rebuilt from what is read back. -/
structure ReadsAs (a b : PendingApproval) : Prop where
  same : b = { a with document := b.document }
  document : ReadAs (.dict a.document) (.dict b.document)

/-- A snapshot that was accepted, and one whose members read back from it or from the amount that was
reserved. -/
structure Reading (literals : Literals) (es fs : List Entry) (reserved : PlainDecimal) : Prop where
  accepted : accepts fields fs = true
  present : requiredFields.all (fun name => (lookup name fs).isSome) = true
  each : ∀ name, name ≠ "reserved_usd" → ReadAs (values es name) (values fs name)
  amount : ∃ d, moneyOf literals (values fs "reserved_usd") "reserved_usd" = .ok d ∧
    moneyText d = .ok reserved

variable {sha : TextHash} {chunking : Chunking} {literals : Literals} {supply : Supply literals}

private theorem optional_read {n m : Option Value} (reads : Option.Rel ReadAs n m) :
    ReadAs (n.getD .null).listed (m.getD .null).listed := by
  cases reads with
  | none => exact readAs_null
  | some read => exact read.listed_listed

theorem stored_read {value value' : String → Value}
    (each : ∀ name, name ≠ "reserved_usd" → ReadAs (value name) (value' name))
    {action action' request request' decision decision' : Option Value}
    (actions : Option.Rel ReadAs action action') (requests : Option.Rel ReadAs request request')
    (decisions : Option.Rel ReadAs decision decision') (reserved : PlainDecimal) (name : String) :
    ReadAs (stored value action request decision reserved name)
      (stored value' action' request' decision' reserved name) := by
  unfold stored
  split
  · exact readAs_text _
  next other =>
    split
    · exact optional_read actions
    · split
      · exact optional_read requests
      · split
        · exact optional_read decisions
        · exact (each name other).listed_listed

/-- An approval is rebuilt from its reading, whatever fills in what its contracts leave out. -/
theorem fromSnapshot_read (supply' : Supply literals) {approval : PendingApproval}
    (reading : Reading literals es fs approval.reservedUsd)
    (made : fromSnapshot sha chunking literals supply es = .ok approval) :
    ∃ again, fromSnapshot sha chunking literals supply' fs = .ok again ∧ approval.ReadsAs again := by
  have each := reading.each
  have own (name : String) (other : name ≠ "reserved_usd") := each name other
  simp only [fromSnapshot, bind_ok_iff, refuseIf_ok_iff, pure_ok_iff, not_or, Bool.not_eq_false] at made ⊢
  obtain ⟨_, -, _, texts, _, ids, _, times, _, reconciled, action, h₁, request, h₂, decision, h₃, _,
    bound, amount, h₄, reserved, h₅, rfl⟩ := made
  obtain ⟨amount', g₄, g₅⟩ := reading.amount
  obtain ⟨action', g₁, actions⟩ :=
    optionalContractSnapshot_read actionLoader_rereads (own "action_snapshot" (by decide)) h₁
  obtain ⟨request', g₂, requests⟩ :=
    optionalContractSnapshot_read requestLoader_rereads (own "request_snapshot" (by decide)) h₂
  obtain ⟨decision', g₃, decisions⟩ :=
    optionalContractSnapshot_read decisionLoader_rereads (own "decision_snapshot" (by decide)) h₃
  refine ⟨_, ⟨(), ⟨reading.accepted, reading.present⟩, (), ?_, (),
    policyIdsValid_read (own "policy_ids" (by decide)) ids, (), ?_, (), ?_, action', g₁, request', g₂,
    decision', g₃, (), checkBindings_read each actions requests decisions bound, amount', g₄, reserved, g₅,
    rfl⟩, ?_, ?_⟩
  · rw [checkTexts_read each]
    exact texts
  · rw [checkTimes_read each]
    exact times
  · rw [checkReconciliation_read each]
    exact reconciled
  · rw [exactText?_read (own "approval_id" (by decide)), exactText?_read (own "action_id" (by decide)),
      exactText?_read (own "request_id" (by decide)), exactText?_read (own "status" (by decide))]
  · apply readAs_record
    · rw [List.forall₂_map_left_iff, List.forall₂_map_right_iff, List.forall₂_same]
      exact fun name _ => ⟨rfl, stored_read each actions requests decisions reserved name⟩
    · rw [List.map_map]
      exact (by decide : fields.Nodup)

/-- What is read back of a snapshot is a reading of it. -/
theorem reading_of_entries {approval : PendingApproval} (entries : EntriesReadAs es fs)
    (made : fromSnapshot sha chunking literals supply es = .ok approval) :
    Reading literals es fs approval.reservedUsd := by
  simp only [fromSnapshot, bind_ok_iff, refuseIf_ok_iff, pure_ok_iff, not_or, Bool.not_eq_false] at made
  obtain ⟨_, ⟨accepted, present⟩, _, -, _, -, _, -, _, -, _, -, _, -, _, -, _, -, amount, h₄, reserved, h₅,
    rfl⟩ := made
  refine ⟨accepts_read entries accepted, ?_, fun name _ => values_read entries name, amount, ?_, h₅⟩
  · simpa only [isSome_read entries] using present
  · rw [moneyOf_read (values_read entries _)]
    exact h₄

/-- The bounded snapshot of an approval is the approval itself. -/
theorem fromDict_read (supply' : Supply literals) {approval : PendingApproval} (read : ReadAs v w)
    (made : fromDict sha chunking literals supply v = .ok approval) :
    ∃ again, fromDict sha chunking literals supply' w = .ok again ∧ approval.ReadsAs again := by
  have positive : 1 ≤ maxApprovalStateBytes := by decide
  have below : maxApprovalStateBytes ≤ maxActionHashCanonicalBytes := by decide
  simp only [fromDict, bind_ok_iff, mapError_ok_iff, Prod.exists,
    authoritySnapshot_ok_iff positive below] at made ⊢
  obtain ⟨_, _, ⟨hashable, rfl, rfl⟩, made⟩ := made
  obtain ⟨x, y, shape, written, -⟩ := id read
  rw [Value.snapshot_of_listed shape] at made
  cases v with
  | dict es =>
    obtain ⟨fs, rfl, entries⟩ := id read.dict
    obtain ⟨again, made', reads⟩ := fromSnapshot_read supply' (reading_of_entries entries made) made
    refine ⟨again, ⟨_, _, ⟨read.interchangeable.hashable hashable, rfl, rfl⟩, ?_⟩, reads⟩
    rw [written, Value.snapshot_ofData, ← written]
    exact made'
  | _ => cases made

end PendingApproval

/-! ### Durable forms -/

/-- The value under a name of a record that is made name by name. -/
theorem lookup_made {names : List String} {name : String} (member : name ∈ names) (f : String → Value) :
    lookup name (record (names.map fun n => (n, f n))) = some (f name) := by
  induction names with
  | nil => cases member
  | cons n names ih =>
    have same : Points.ofString n = Points.ofString name ↔ n = name :=
      ⟨fun equal => ofString_injective equal, congrArg _⟩
    simp only [List.map_cons, record] at ih ⊢
    rw [lookup]
    by_cases here : n = name
    · rw [if_pos (same.2 here), here]
    · rw [if_neg (same.not.2 here)]
      exact ih ((List.mem_cons.1 member).resolve_left (Ne.symm here))

/-- Every member of a durable form is read back under its name. -/
theorem member_read {names : List String} {f : String → Value}
    (entries : EntriesReadAs (record (names.map fun n => (n, f n))) fs) {name : String}
    (member : name ∈ names) : ∃ u, lookup name fs = some u ∧ ReadAs (f name) u := by
  have each := entries.lookup name
  rw [lookup_made member] at each
  cases found : lookup name fs with
  | none =>
    rw [found] at each
    cases each
  | some u =>
    rw [found, Option.rel_some_some] at each
    exact ⟨u, rfl, each⟩

theorem accepts_made (names : List String) (f : String → Value) :
    accepts names (record (names.map fun n => (n, f n))) = true := by
  rw [accepts, record, List.map_map, List.all_eq_true, List.forall_mem_map]
  intro name member
  simp only [Function.comp_apply, Value.exactText?, Option.any_some, List.any_eq_true, beq_iff_eq]
  exact ⟨name, member, rfl⟩

/-- A member that is looked up is one of the accepted names. -/
theorem named_of_accepts {names : List String} {name : String} (accepted : accepts names es = true)
    (found : lookup name es = some v) : name ∈ names := by
  induction es with
  | nil => cases found
  | cons e es ih =>
    obtain ⟨k, own⟩ := e
    rw [accepts, List.all_cons, Bool.and_eq_true] at accepted
    obtain ⟨head, tail⟩ := accepted
    cases k with
    | str s =>
      rw [lookup] at found
      split at found
      next key =>
        simp only [Value.exactText?, Option.any_some, List.any_eq_true, beq_iff_eq] at head
        obtain ⟨other, member, same⟩ := head
        rw [key] at same
        exact ofString_injective same ▸ member
      · exact ih tail found
    | _ => cases head

theorem lookup_of_unnamed {names : List String} {name : String} (accepted : accepts names es = true)
    (other : name ∉ names) : lookup name es = none := by
  cases found : lookup name es with
  | none => rfl
  | some v => exact absurd (named_of_accepts accepted found) other

section Forms

variable {sha : TextHash} {chunking : Chunking} {literals : Literals} {supply : Supply literals}

theorem actionLoader_canonical : Canonical (actionLoader sha chunking literals supply) := by
  intro raw n w made equal read
  simp only [actionLoader, bind_ok_iff, mapError_ok_iff] at made
  obtain ⟨a, loaded, written⟩ := made
  exact ProposedAction.readAs_canonical loaded written equal read

theorem requestLoader_canonical : Canonical (requestLoader literals supply) := by
  intro raw n w made equal read
  simp only [requestLoader, bind_ok_iff, mapError_ok_iff] at made
  obtain ⟨r, -, written⟩ := made
  exact HarnessRequest.readAs_canonical written equal read

theorem decisionLoader_canonical : Canonical (decisionLoader literals supply) := by
  intro raw n w made equal read
  simp only [decisionLoader, bind_ok_iff] at made
  obtain ⟨d, loaded, written⟩ := made
  exact SealedDecision.readAs_canonical loaded written equal read

/-- What is read back of the plain form of a contract is read back of the contract. -/
theorem contract_of_form {load : List Entry → Except HarnessError Value} (canonical : Canonical load)
    {error : String → HarnessError} {name : String} {n : Value}
    (made : contractSnapshot load error v name = .ok n) (read : ReadAs n.listed w) : ReadAs v w := by
  cases v with
  | dict raw =>
    simp only [contractSnapshot, bind_ok_iff, mapError_ok_iff, refuseIf_ok_iff, pure_ok_iff,
      Bool.not_eq_false] at made
    obtain ⟨n, loaded, _, equal, rfl⟩ := made
    exact canonical raw n w loaded equal read.of_listed
  | _ => cases made

theorem optional_of_form {load : List Entry → Except HarnessError Value} (canonical : Canonical load)
    {name : String} {n : Option Value}
    (made : PendingApproval.optionalContractSnapshot load v name = .ok n)
    (read : ReadAs (n.getD .null).listed w) : ReadAs v w := by
  rw [PendingApproval.optionalContractSnapshot, optionally] at made
  split at made
  next null =>
    obtain rfl := pure_ok_iff.1 made
    cases v with
    | null => exact read
    | _ => cases null
  next some =>
    obtain ⟨n, snapshot, rfl⟩ := map_ok_iff.1 made
    exact contract_of_form canonical snapshot read

end Forms

namespace PendingApproval

variable {sha : TextHash} {chunking : Chunking} {literals : Literals} {supply : Supply literals}

/-- The amount that a durable form holds is read as itself. -/
theorem moneyOf_text {d : Decimal} {p : PlainDecimal} (literals : Literals) (name : String)
    (made : moneyText d = .ok p) :
    ∃ again, moneyOf literals (text p.text) name = .ok again ∧ moneyText again = .ok p := by
  simp only [moneyText, money, bind_ok_iff, refuseIf_ok_iff, pure_ok_iff] at made
  obtain ⟨d, ⟨-, positive, rfl⟩, rfl⟩ := made
  -- writing an amount out changes its exponent and not its value
  have positive' : ¬ d.plain.decimal.lt .zero = true := by
    rw [Decimal.lt_iff, Decimal.plain_value, ← Decimal.lt_iff]
    exact positive
  have parsed (name : String) : money d.plain.decimal name = .ok d.plain.decimal := by
    rw [money, refuseIf_of_not positive', ok_bind]
    rfl
  refine ⟨d.plain.decimal, ?_, ?_⟩
  · rw [text, moneyOf, readDecimal, literals.positional]
    exact parsed name
  · rw [moneyText, parsed, ok_bind, Decimal.plain_decimal]
    rfl

/-- What is read back of a durable form is a reading of what it was made from. -/
theorem reading_of_document {approval : PendingApproval}
    (made : fromSnapshot sha chunking literals supply es = .ok approval)
    (entries : EntriesReadAs approval.document fs) : Reading literals es fs approval.reservedUsd := by
  simp only [fromSnapshot, bind_ok_iff, refuseIf_ok_iff, pure_ok_iff, not_or, Bool.not_eq_false] at made
  obtain ⟨_, ⟨accepted, -⟩, _, -, _, -, _, -, _, -, action, h₁, request, h₂, decision, h₃, _, -, amount, h₄,
    reserved, h₅, rfl⟩ := made
  -- the durable form has exactly the names of the schema
  have accepted' := accepts_read entries (accepts_made _ _)
  have value {name : String} {u : Value} (at_ : lookup name fs = some u) : values fs name = u := by
    rw [values, field, at_, Option.getD_some]
  refine ⟨accepted', ?_, fun name apart => ?_, ?_⟩
  · rw [List.all_eq_true]
    intro name member
    have inside : requiredFields ⊆ fields := by decide
    obtain ⟨u, at_, -⟩ := member_read entries (inside member)
    rw [at_, Option.isSome_some]
  · by_cases member : name ∈ fields
    · obtain ⟨u, at_, read⟩ := member_read entries member
      rw [value at_]
      rw [stored, if_neg apart] at read
      split at read
      -- the three contracts stand there in their plain form, every other member as it was
      next same => exact same ▸ optional_of_form actionLoader_canonical h₁ read
      · split at read
        next same => exact same ▸ optional_of_form requestLoader_canonical h₂ read
        · split at read
          next same => exact same ▸ optional_of_form decisionLoader_canonical h₃ read
          · exact read.of_listed
    · show ReadAs ((lookup name es).getD _) ((lookup name fs).getD _)
      rw [lookup_of_unnamed accepted member, lookup_of_unnamed accepted' member]
      exact readAs_default name
  · have listed : "reserved_usd" ∈ fields := by decide
    obtain ⟨u, at_, read⟩ := member_read entries listed
    rw [value at_]
    rw [stored, if_pos rfl] at read
    obtain ⟨again, parsed, written⟩ := moneyOf_text literals "reserved_usd" h₅
    exact ⟨again, (moneyOf_read read literals _).trans parsed, written⟩

end PendingApproval

/-! ### Executions of hooks -/

namespace HookExecution

variable {sha : TextHash} {chunking : Chunking} {literals : Literals} {supply : Supply literals}

theorem timestamp_read (read : ReadAs v w) (literals : Literals) (name : String) :
    timestamp literals w name = timestamp literals v name := by
  rw [timestamp, timestamp, filled_read read, exactText?_read read]

theorem checkFields_read {value value' : String → Value}
    (each : ∀ name, ReadAs (value name) (value' name)) (literals : Literals) :
    checkFields literals value' = checkFields literals value := by
  simp only [checkFields, filled_read (each _), isText_read (each _), oneOf_read (each _),
    isNull_read (each _), timestamp_read (each _)]

/-- What is read back of a durable form is rebuilt as it was. -/
theorem fromSnapshot_read (supply' : Supply literals) {execution : HookExecution}
    (made : fromSnapshot sha chunking literals supply es = .ok execution)
    (entries : EntriesReadAs execution.document fs) :
    ∃ again, fromSnapshot sha chunking literals supply' fs = .ok again ∧
      again.toolUseId = execution.toolUseId ∧
        ReadAs (.dict execution.document) (.dict again.document) := by
  simp only [fromSnapshot, bind_ok_iff, refuseIf_ok_iff, pure_ok_iff, Bool.not_eq_false,
    Bool.and_eq_true] at made ⊢
  obtain ⟨_, ⟨accepted, present⟩, _, checked, action, h₁, request, h₂, decision, h₃, _, bound, rfl⟩ := made
  have accepted' := accepts_read entries (accepts_made _ _)
  have each (name : String) : ReadAs (field es name .null) (field fs name .null) := by
    by_cases member : name ∈ executionFields
    · obtain ⟨u, at_, read⟩ := member_read entries member
      rw [field, field, at_, Option.getD_some]
      rw [stored] at read
      split at read
      next same => exact same ▸ contract_of_form actionLoader_canonical h₁ read
      · split at read
        next same => exact same ▸ contract_of_form requestLoader_canonical h₂ read
        · split at read
          next same => exact same ▸ contract_of_form decisionLoader_canonical h₃ read
          · exact read
    · rw [field, field, lookup_of_unnamed accepted member, lookup_of_unnamed accepted' member]
      exact readAs_null
  obtain ⟨action', g₁, actions⟩ := contractSnapshot_read actionLoader_rereads (each _) h₁
  obtain ⟨request', g₂, requests⟩ := contractSnapshot_read requestLoader_rereads (each _) h₂
  obtain ⟨decision', g₃, decisions⟩ := contractSnapshot_read decisionLoader_rereads (each _) h₃
  refine ⟨_, ⟨(), ⟨accepted', ?_⟩, (), ?_, action', g₁, request', g₂, decision', g₃, (),
    (get_read actions _).equals (get_read requests _) bound, rfl⟩, ?_, ?_⟩
  · rw [List.all_eq_true]
    intro name member
    obtain ⟨u, at_, -⟩ := member_read entries member
    rw [at_, Option.isSome_some]
  · rw [checkFields_read each]
    exact checked
  · rw [exactText?_read (each _)]
  · apply readAs_record
    · rw [List.forall₂_map_left_iff, List.forall₂_map_right_iff, List.forall₂_same]
      refine fun name _ => ⟨rfl, ?_⟩
      unfold stored
      split
      · exact actions.listed_listed
      · split
        · exact requests.listed_listed
        · split
          · exact decisions.listed_listed
          · exact each name
    · rw [List.map_map]
      exact (by decide : executionFields.Nodup)

end HookExecution

/-! ### The budget ledger -/

private theorem lookup_append (name : String) (data own : List Entry) :
    lookup name (data ++ own) = (lookup name data).or (lookup name own) := by
  induction data with
  | nil => rfl
  | cons e es ih =>
    obtain ⟨k, v⟩ := e
    cases k with
    | str s =>
      rw [List.cons_append, lookup, lookup, ih]
      split <;> rfl
    | _ => exact ih

namespace BudgetLedger

variable {literals : Literals} {data : List Entry}

private theorem lookup_single (name other : String) (default : Value) :
    lookup other (record [(name, default)]) = if name = other then some default else none := by
  have same : Points.ofString name = Points.ofString other ↔ name = other :=
    ⟨fun equal => ofString_injective equal, congrArg _⟩
  simp only [record, List.map_cons, List.map_nil, lookup, same]

theorem setDefault_of_isSome {name : String} {default : Value} (present : (lookup name data).isSome = true) :
    setDefault name default data = data := if_pos present

theorem isSome_setDefault (name : String) (default : Value) (data : List Entry) :
    (lookup name (setDefault name default data)).isSome = true := by
  unfold setDefault
  split
  next present => exact present
  next absent =>
    rw [lookup_append, lookup_single, if_pos rfl, Option.isSome_or, Option.isSome_some, Bool.or_true]

theorem lookup_setDefault {name other : String} (apart : name ≠ other) (default : Value)
    (data : List Entry) : lookup other (setDefault name default data) = lookup other data := by
  unfold setDefault
  split
  · rfl
  · rw [lookup_append, lookup_single, if_neg apart, Option.or_none]

/-- The document with the members that it may leave out. -/
def complete (raw : List Entry) : List Entry :=
  setDefault "reconciliations" (.dict []) (setDefault "reservations" (.dict []) raw)

/-- What the validation checks of the completed document. -/
structure Sound (literals : Literals) (data : List Entry) : Prop where
  version : oneOf ["0.1.0", "0.2.0"] (field data "schema_version" .null) = true
  amounts : ∀ name ∈ ["balance_usd", "total_spent_usd", "total_estimated_usd"],
    ∃ d, finiteDecimal literals (field data name (text "0")) name = .ok d
  reserved : ∃ reservations, entries? (field data "reservations" .null) = some reservations ∧
    checkLegacy literals data reservations = .ok () ∧
      ∀ e ∈ reservations, checkReservation literals e = .ok ()
  reconciled : ∃ reconciliations,
    entries? (field data "reconciliations" .null) = some reconciliations ∧
      ∀ e ∈ reconciliations, checkReconciliation literals e = .ok ()
  entries : ∃ entries, items? (field data "entries" (.list [])) = some entries ∧
    ∀ (i : Nat) (v : Value), entries[i]? = some v → checkLedgerEntry literals i v = .ok ()

private theorem field_setDefault {name other : String} (apart : name ≠ other) (default value : Value)
    (data : List Entry) : field (setDefault name default data) other value = field data other value := by
  rw [field, lookup_setDefault apart, field]

theorem validate_ok_iff {raw document : List Entry} :
    validate literals raw = .ok document ↔ document = complete raw ∧ Sound literals document := by
  -- filling in the two members that may be missing changes no other member
  have kept {name : String} (apart : "reservations" ≠ name) (apart' : "reconciliations" ≠ name)
      (value : Value) : field (complete raw) name value = field raw name value := by
    rw [complete, field_setDefault apart', field_setDefault apart]
  have reservations : field (complete raw) "reservations" .null =
      field (setDefault "reservations" (.dict []) raw) "reservations" .null :=
    field_setDefault (by decide) _ _ _
  have amount {name : String} (member : name ∈ ["balance_usd", "total_spent_usd", "total_estimated_usd"]) :
      field (complete raw) name (text "0") = field raw name (text "0") := by
    apply kept <;> rintro rfl <;> simp at member
  have legacy (own : List Entry) : checkLegacy literals (complete raw) own =
      checkLegacy literals (setDefault "reservations" (.dict []) raw) own := by
    rw [checkLegacy, kept (by decide) (by decide), checkLegacy, field_setDefault (by decide)]
  simp only [validate, bind_ok_iff, refuseIf_ok_iff, checkAll_ok_iff, orRefuse_ok_iff, map_ok_iff,
    pure_ok_iff, Bool.not_eq_false]
  constructor
  · rintro ⟨_, version, _, amounts, own, shape, _, old, _, each, reconciled, shape', _, each', entries,
      shape'', _, each'', rfl⟩
    refine ⟨rfl, ?_, ?_, ⟨own, ?_, ?_, each⟩, ⟨reconciled, shape', each'⟩, entries, shape'', ?_⟩
    · rw [← complete, kept (by decide) (by decide)]
      exact version
    · intro name member
      obtain ⟨d, made, -⟩ := amounts name member
      exact ⟨d, amount member ▸ made⟩
    · exact reservations ▸ shape
    · exact (legacy own).trans old
    · intro i v found
      exact each'' (v, i) (List.mem_zipIdx_iff_getElem?.2 found)
  · rintro ⟨rfl, sound⟩
    obtain ⟨own, shape, old, each⟩ := sound.reserved
    obtain ⟨reconciled, shape', each'⟩ := sound.reconciled
    obtain ⟨entries, shape'', each''⟩ := sound.entries
    refine ⟨(), ?_, (), fun name member => ?_, own, ?_, (), ?_, (), each, reconciled, shape', (), each',
      entries, shape'', (), ?_, rfl⟩
    · rw [← kept (by decide) (by decide)]
      exact sound.version
    · obtain ⟨d, made⟩ := sound.amounts name member
      exact ⟨d, amount member ▸ made, trivial⟩
    · exact reservations ▸ shape
    · exact (legacy own).symm.trans old
    · rintro ⟨v, i⟩ member
      exact each'' i v (List.mem_zipIdx_iff_getElem?.1 member)

theorem checkReservation_read {k : Value} (read : ReadAs v w) :
    checkReservation literals (k, w) = checkReservation literals (k, v) := by
  simp only [checkReservation, isMapping_read read, truthy_read (get_read read _),
    moneyOf_read (getOr_read read _ (readAs_text _))]

theorem finiteDecimal_read (read : ReadAs v w) (literals : Literals) (name : String) :
    finiteDecimal literals w name = finiteDecimal literals v name :=
  read.view (finiteDecimal literals · name) _ (fun _ => rfl) (fun _ => rfl) (fun _ => rfl)

theorem checkAuthority_read (read : ReadAs v w) : checkAuthority w = checkAuthority v := by
  simp only [checkAuthority, isNull_read (get_read read _), oneOf_read (get_read read _),
    visible_read (get_read read _), isMapping_read (get_read read _)]

theorem checkReconciliation_read {k : Value} (read : ReadAs v w) :
    checkReconciliation literals (k, w) = checkReconciliation literals (k, v) := by
  simp only [checkReconciliation, isMapping_read read, oneOf_read (get_read read _),
    visible_read (get_read read _), moneyOf_read (getOr_read read _ (readAs_text _)),
    finiteDecimal_read (getOr_read read _ (readAs_text _)), checkAuthority_read read]

theorem completionNamed_read (read : ReadAs v w) : completionNamed w = completionNamed v := by
  rw [completionNamed, completionNamed, isNull_read read, text?_read read]

theorem checkLedgerEntry_read (read : ReadAs v w) (i : Nat) :
    checkLedgerEntry literals i w = checkLedgerEntry literals i v := by
  simp only [checkLedgerEntry, isMapping_read read, filled_read (get_read read _),
    moneyOf_read (getOr_read read _ (readAs_text _)), finiteDecimal_read (get_read read _),
    completionNamed_read (get_read read _)]

/-- A sound document is sound when it is read back. -/
theorem Sound.read (sound : Sound literals es) (entries : EntriesReadAs es fs) : Sound literals fs := by
  have null (name : String) := field_read entries name readAs_null
  constructor
  · rw [oneOf_read (null _)]
    exact sound.version
  · intro name member
    rw [finiteDecimal_read (field_read entries name (readAs_text "0"))]
    exact sound.amounts name member
  · obtain ⟨own, shape, legacy, each⟩ := sound.reserved
    obtain ⟨others, shape', reads⟩ := entries?_read (null _) shape
    refine ⟨others, shape', ?_, fun f member => ?_⟩
    · have empty : others.isEmpty = own.isEmpty := by
        have length := reads.length
        cases own <;> cases others <;> first | rfl | cases length
      rw [checkLegacy, empty, finiteDecimal_read (field_read entries "reserved_usd" (readAs_text "0"))]
      exact legacy
    · obtain ⟨e, held, key, read⟩ := reads.origin f member
      rw [show f = (e.1, f.2) by rw [key], checkReservation_read read]
      exact each e held
  · obtain ⟨own, shape, each⟩ := sound.reconciled
    obtain ⟨others, shape', reads⟩ := entries?_read (null _) shape
    refine ⟨others, shape', fun f member => ?_⟩
    obtain ⟨e, held, key, read⟩ := reads.origin f member
    rw [show f = (e.1, f.2) by rw [key], checkReconciliation_read read]
    exact each e held
  · obtain ⟨own, shape, each⟩ := sound.entries
    obtain ⟨others, shape', reads⟩ := items?_read (field_read entries _ readAs_nil) shape
    refine ⟨others, shape', fun i w found => ?_⟩
    obtain ⟨inside, rfl⟩ := List.getElem?_eq_some_iff.1 found
    have inside' : i < own.length := by rw [reads.length_eq]; exact inside
    exact (checkLedgerEntry_read (reads.get inside' inside) i).trans
      (each i own[i] (List.getElem?_eq_getElem inside'))

/-- The completed document is accepted as it is when it is read back. -/
theorem validate_read {document : List Entry} (valid : validate literals es = .ok document)
    (entries : EntriesReadAs document fs) : validate literals fs = .ok fs := by
  obtain ⟨rfl, sound⟩ := validate_ok_iff.1 valid
  -- both members are there already, so nothing is filled in a second time
  have reservations : (lookup "reservations" fs).isSome = true := by
    rw [isSome_read entries, complete, lookup_setDefault (by decide), isSome_setDefault]
  have reconciliations : (lookup "reconciliations" fs).isSome = true := by
    rw [isSome_read entries, complete, isSome_setDefault]
  refine validate_ok_iff.2 ⟨?_, sound.read entries⟩
  rw [complete, setDefault_of_isSome reservations, setDefault_of_isSome reconciliations]

end BudgetLedger

end Durable
end DefiantHarness
