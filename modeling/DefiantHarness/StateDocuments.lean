import DefiantHarness.ContractDocuments
import DefiantHarness.ListedValues
import DefiantHarness.OperatorTrustState

/-! The records of the state files: the checks that every store makes of what it has read, and those of
the journal of its payloads. -/
namespace DefiantHarness

open Foundation

namespace Durable

/-! ### Views of values -/

/-- A text that is not empty. -/
def filled (v : Value) : Bool := v.exactText?.any (· ≠ [])

/-- A text that is not blank. -/
def visible (v : Value) : Bool := v.text?.any fun s => !s.all blankPoint

/-- Python's truth value. -/
def truthy : Value → Bool
  | .null => false
  | .bool b => b
  | .int i => i != 0
  | .float x => x.magnitude != 0
  | .str s => !s.isEmpty
  | .list items => !items.isEmpty
  | .tuple items => !items.isEmpty
  | .dict entries => !entries.isEmpty
  -- an object without a length or a truth value of its own
  | _ => true

def isText (v : Value) : Bool := v.exactText?.isSome

/-- A text in the message of an error. -/
def shown (v : Value) : String := (v.exactText?.getD []).toString

/-- The same with its quotes. -/
def quoted (v : Value) : String := (v.exactText?.getD []).repr

/-- One of these texts. -/
def oneOf (texts : List String) (v : Value) : Bool :=
  v.text?.any fun s => texts.any fun t => Points.ofString t == s

def entries? : Value → Option (List Entry)
  | .dict entries => some entries
  | _ => none

def items? : Value → Option (List Value)
  | .list items => some items
  | _ => none

/-- `value.get(name, default)` -/
def getOr (v : Value) (name : String) (default : Value) : Value :=
  field ((entries? v).getD []) name default

/-- `value.get(name)` -/
def get (v : Value) (name : String) : Value := getOr v name .null

/-- Rebuild a contract and write it again: the result must be equal to what was read. -/
def contractSnapshot (loader : List Entry → Except HarnessError Value) (error : String → HarnessError)
    (value : Value) (fieldName : String) : Except HarnessError Value :=
  match value with
  | .dict raw => do
    let normalized ← (loader raw).mapError fun _ => error (fieldName ++ " is invalid")
    refuseIf (normalized.equals value = false) (error (fieldName ++ " is not canonical"))
    pure normalized
  | _ => throw (error (fieldName ++ " must be an object"))

section Loaders

variable (sha : TextHash) (chunking : Chunking) (literals : Literals) (supply : Supply literals)

/-- `ProposedAction.from_dict(raw).to_dict()` -/
def actionLoader (raw : List Entry) : Except HarnessError Value := do
  let action ← ProposedAction.fromDict literals.timestamps supply.fresh supply.now raw
  (action.toDict sha chunking).mapError fun fault => invalid fault.message

/-- `HarnessRequest.from_dict(raw).to_dict()` -/
def requestLoader (raw : List Entry) : Except HarnessError Value := do
  let request ← HarnessRequest.fromDict literals supply raw
  request.toDict.mapError fun fault => invalid fault.message

/-- `SealedDecision.from_dict(raw).to_dict()` -/
def decisionLoader (raw : List Entry) : Except HarnessError Value := do
  let decision ← SealedDecision.fromDict literals supply raw
  decision.toDict literals

end Loaders

/-! ### Approvals -/

/-- An approval: what the store and the journal read of it, and its durable form. -/
structure PendingApproval where
  approvalId : Points
  actionId : Points
  requestId : Points
  status : Points
  reservedUsd : PlainDecimal
  document : List Entry

namespace PendingApproval

def error (message : String) : HarnessError := ⟨.approval, message⟩

def fields : List String := ["action_id", "request_id", "tool_name", "target", "payload_hash",
  "authorization_hash", "payload_preview", "approval_scope", "reason", "policy_ids", "expires_at",
  "created_at", "approval_id", "status", "decided_by", "decided_at", "note", "decision_attestation",
  "reserved_usd", "action_snapshot", "request_snapshot", "decision_snapshot", "execution_record_id",
  "consumed_at", "execution_owner", "execution_key", "reconciliation_outcome", "reconciled_by",
  "reconciliation_note", "reconciliation_started_at", "reconciliation_completed_at",
  "reconciliation_attestation"]

def requiredFields : List String := ["action_id", "request_id", "tool_name", "target", "payload_hash",
  "authorization_hash", "payload_preview", "approval_scope", "reason", "created_at", "approval_id"]

def defaults : List (String × Value) := [("policy_ids", .list []), ("expires_at", text ""),
  ("status", text "pending"), ("decided_by", .null), ("decided_at", .null), ("note", text ""),
  ("decision_attestation", .null), ("reserved_usd", text "0"), ("action_snapshot", .null),
  ("request_snapshot", .null), ("decision_snapshot", .null), ("execution_record_id", text ""),
  ("consumed_at", .null), ("execution_owner", text ""), ("execution_key", text ""),
  ("reconciliation_outcome", text ""), ("reconciled_by", text ""), ("reconciliation_note", text ""),
  ("reconciliation_started_at", .null), ("reconciliation_completed_at", .null),
  ("reconciliation_attestation", .null)]

def statuses : List String :=
  ["pending", "approved", "rejected", "expired", "executing", "consumed"]

def reconciliationOutcomes : List String := ["succeeded", "failed", "not_executed"]

/-- `{**defaults, **snapshot}` -/
def values (snapshot : List Entry) (name : String) : Value :=
  field snapshot name (field (record defaults) name .null)

/-- `_parse`. -/
def parse (literals : Literals) (value : Value) : Except HarnessError Unit := do
  let time ← orRefuse value.exactText? (error "invalid approval timestamp")
  let zoned ← orRefuse (literals.zoned time) (error ("invalid approval timestamp: " ++ time.repr))
  refuseIf (zoned = false) (error "approval timestamps must be timezone-aware")

/-- The texts, and what may be null instead. -/
def checkTexts (value : String → Value) : Except HarnessError Unit := do
  checkAll (fun name => refuseIf (filled (value name) = false) (error (name ++ " must be non-empty")))
    ["action_id", "request_id", "tool_name", "approval_id"]
  checkAll (fun name => refuseIf (isText (value name) = false) (error (name ++ " must be text")))
    ["target", "payload_hash", "authorization_hash", "payload_preview", "approval_scope", "reason",
      "expires_at", "note", "execution_record_id", "execution_owner", "execution_key",
      "reconciliation_outcome", "reconciled_by", "reconciliation_note"]
  refuseIf ((isNull (value "decided_by") || isText (value "decided_by")) = false)
    (error "decided_by must be text or null")
  refuseIf (oneOf statuses (value "status") = false)
    (error ("invalid approval status: " ++ shown (value "status")))

def policyIdsValid : Value → Bool
  | .list items => items.all filled
  | _ => false

/-- The timestamps, and the fields that a status needs. -/
def checkTimes (literals : Literals) (value : String → Value) : Except HarnessError Unit := do
  -- either both or neither
  refuseIf (filled (value "execution_owner") ≠ filled (value "execution_key"))
    (error "execution_owner and execution_key must be supplied together")
  refuseIf (isText (value "created_at") = false) (error "created_at must be a timestamp")
  parse literals (value "created_at")
  if filled (value "expires_at") then parse literals (value "expires_at") else pure ()
  checkAll (fun name =>
      if isNull (value name) then pure () else do
        refuseIf (isText (value name) = false) (error (name ++ " must be a timestamp or null"))
        parse literals (value name))
    ["decided_at", "consumed_at", "reconciliation_started_at", "reconciliation_completed_at"]
  refuseIf (oneOf ["approved", "executing", "consumed", "rejected"] (value "status") = true ∧
      (filled (value "decided_by") && filled (value "decided_at")) = false)
    (error (shown (value "status") ++ " approval requires operator identity and decision time"))
  checkAll (fun name => refuseIf ((isNull (value name) || isMapping (value name)) = false)
    (error (name ++ " must be an object"))) ["decision_attestation", "reconciliation_attestation"]
  refuseIf (oneOf ["consumed", "rejected", "expired"] (value "status") = true ∧
      filled (value "consumed_at") = false)
    (error (shown (value "status") ++ " approval requires consumed_at"))
  refuseIf (oneOf ["consumed"] (value "status") = true ∧ filled (value "execution_record_id") = false)
    (error "consumed approval requires execution evidence")

/-- The intent of a reconciliation is complete or absent, and agrees with the status. -/
def checkReconciliation (value : String → Value) : Except HarnessError Unit := do
  let intent := ["reconciliation_outcome", "reconciled_by", "reconciliation_note",
    "reconciliation_started_at"].map fun name => filled (value name)
  -- one field of the intent makes the others required
  if intent.any id then do
    refuseIf (oneOf reconciliationOutcomes (value "reconciliation_outcome") = false)
      (error ("invalid reconciliation outcome: " ++ quoted (value "reconciliation_outcome")))
    refuseIf (visible (value "reconciled_by") = false) (error "reconciled_by must be non-empty")
    refuseIf (visible (value "reconciliation_note") = false)
      (error "reconciliation_note must be non-empty")
    refuseIf (filled (value "reconciliation_started_at") = false)
      (error "reconciliation_started_at must be present")
    refuseIf (oneOf ["executing", "consumed"] (value "status") = false)
      (error "reconciliation intent requires executing or consumed status")
  else pure ()
  if filled (value "reconciliation_completed_at") then do
    refuseIf (intent.all id = false) (error "completed reconciliation is missing its durable intent")
    refuseIf ((oneOf ["consumed"] (value "status") && filled (value "execution_record_id")) = false)
      (error "completed reconciliation requires consumed status and evidence")
  else
    refuseIf (oneOf ["consumed"] (value "status") = true ∧
        filled (value "reconciliation_outcome") = true)
      (error "consumed reconciliation is missing completion time")

section Snapshots

variable (sha : TextHash) (chunking : Chunking) (literals : Literals) (supply : Supply literals)

/-- `_optional_contract_snapshot`. -/
def optionalContractSnapshot (loader : List Entry → Except HarnessError Value) (value : Value)
    (fieldName : String) : Except HarnessError (Option Value) :=
  optionally (contractSnapshot loader error · fieldName) value

/-- The contracts inside an approval are those that it names. -/
def checkBindings (value : String → Value) (action request decision : Option Value) :
    Except HarnessError Unit := do
  -- a snapshot that is absent binds nothing
  checkAll (fun name => refuseIf (action.any (fun a => !(get a name).equals (value name)) = true)
      (error "approval action snapshot binding is invalid"))
    ["action_id", "request_id", "tool_name", "target", "payload_hash", "authorization_hash"]
  refuseIf (request.any (fun r => !(get r "request_id").equals (value "request_id")) = true)
    (error "approval request snapshot binding is invalid")
  refuseIf (action.any (fun a => request.any fun r =>
      !(get a "request_id").equals (get r "request_id")) = true)
    (error "approval action/request binding is invalid")
  checkAll (fun name => refuseIf (decision.any (fun d => !(get d name).equals (value name)) = true)
    (error "approval decision snapshot binding is invalid")) ["reason", "approval_scope", "policy_ids"]

/-- The member of `to_dict` under a name; what is no text has been frozen and thawed. -/
def stored (value : String → Value) (action request decision : Option Value)
    (reservedUsd : PlainDecimal) (name : String) : Value :=
  if name = "reserved_usd" then text reservedUsd.text
  else if name = "action_snapshot" then (action.getD .null).listed
  else if name = "request_snapshot" then (request.getD .null).listed
  else if name = "decision_snapshot" then (decision.getD .null).listed
  else (value name).listed

/-- `_from_snapshot`. -/
def fromSnapshot (snapshot : List Entry) : Except HarnessError PendingApproval := do
  refuseIf (accepts fields snapshot = false ∨
      requiredFields.all (fun name => (lookup name snapshot).isSome) = false)
    (error "approval fields do not match schema")
  let value := values snapshot
  checkTexts value
  refuseIf (policyIdsValid (value "policy_ids") = false)
    (error "policy_ids must be a list of non-empty strings")
  checkTimes literals value
  checkReconciliation value
  let action ← optionalContractSnapshot (actionLoader sha chunking literals supply)
    (value "action_snapshot") "action_snapshot"
  let request ← optionalContractSnapshot (requestLoader literals supply) (value "request_snapshot")
    "request_snapshot"
  let decision ← optionalContractSnapshot (decisionLoader literals supply)
    (value "decision_snapshot") "decision_snapshot"
  checkBindings value action request decision
  -- the amount is the one value that is stored in another form than it came in
  let amount ← moneyOf literals (value "reserved_usd") "reserved_usd"
  let reservedUsd ← moneyText amount
  pure ⟨((value "approval_id").exactText?.getD []), ((value "action_id").exactText?.getD []),
    ((value "request_id").exactText?.getD []), ((value "status").exactText?.getD []), reservedUsd,
    record (fields.map fun name => (name, stored value action request decision reservedUsd name))⟩

/-- `from_dict`: a bounded snapshot first. -/
def fromDict (raw : Value) : Except HarnessError PendingApproval := do
  let (snapshot, _) ← (authoritySnapshotAndSha256Of sha chunking raw
    (some maxApprovalStateBytes)).mapError fun _ =>
      error "approval exceeds bounded canonical contract"
  match snapshot with
  | .dict entries => fromSnapshot sha chunking literals supply entries
  | _ => throw (error "approval must be an object")

end Snapshots
end PendingApproval

/-! ### Executions of hooks -/

/-- An execution that a hook authorized: its identifier, and its durable form. -/
structure HookExecution where
  toolUseId : Points
  document : List Entry

namespace HookExecution

def error (message : String) : HarnessError := ⟨.storage, message⟩

def executionFields : List String := ["tool_use_id", "execution_key", "native_tool_name",
  "action_snapshot", "request_snapshot", "decision_snapshot", "authorization_record_id", "approval_id",
  "status", "completion_record_id", "created_at", "completed_at"]

def timestamp (literals : Literals) (value : Value) (fieldName : String) : Except HarnessError Unit := do
  refuseIf (filled value = false) (error (fieldName ++ " must be a timestamp"))
  let zoned ← orRefuse (value.exactText? >>= literals.zoned)
    (error (fieldName ++ " must be a timestamp"))
  refuseIf (zoned = false) (error (fieldName ++ " must include a timezone"))

/-- The identifiers, the status and the times of a record. -/
def checkFields (literals : Literals) (value : String → Value) : Except HarnessError Unit := do
  checkAll (fun name => refuseIf (filled (value name) = false) (error (name ++ " must be non-empty")))
    ["tool_use_id", "execution_key", "native_tool_name", "authorization_record_id"]
  refuseIf ((isText (value "approval_id") && isText (value "completion_record_id")) = false)
    (error "hook execution identifiers must be text")
  refuseIf (oneOf ["authorized", "completed"] (value "status") = false)
    (error "invalid hook execution status")
  refuseIf (oneOf ["completed"] (value "status") = true ∧
      filled (value "completion_record_id") = false)
    (error "completed hook execution needs a record id")
  refuseIf (oneOf ["authorized"] (value "status") = true ∧
      filled (value "completion_record_id") = true)
    (error "authorized hook execution cannot have completion")
  timestamp literals (value "created_at") "created_at"
  if isNull (value "completed_at") then pure ()
  else timestamp literals (value "completed_at") "completed_at"
  refuseIf (oneOf ["authorized"] (value "status") = true ∧ isNull (value "completed_at") = false)
    (error "authorized hook execution cannot be completed")
  refuseIf (oneOf ["completed"] (value "status") = true ∧ isNull (value "completed_at") = true)
    (error "completed hook execution needs a completion time")

section Snapshots

variable (sha : TextHash) (chunking : Chunking) (literals : Literals) (supply : Supply literals)

/-- The member of `to_dict` under a name. -/
def stored (value : String → Value) (action request decision : Value) (name : String) : Value :=
  if name = "action_snapshot" then action.listed
  else if name = "request_snapshot" then request.listed
  else if name = "decision_snapshot" then decision.listed
  else value name

/-- `_from_snapshot`. -/
def fromSnapshot (snapshot : List Entry) : Except HarnessError HookExecution := do
  refuseIf ((accepts executionFields snapshot &&
      executionFields.all fun name => (lookup name snapshot).isSome) = false)
    (error "hook execution fields do not match schema")
  let value := fun name => field snapshot name .null
  checkFields literals value
  let action ← contractSnapshot (actionLoader sha chunking literals supply) error
    (value "action_snapshot") "action_snapshot"
  let request ← contractSnapshot (requestLoader literals supply) error (value "request_snapshot")
    "request_snapshot"
  let decision ← contractSnapshot (decisionLoader literals supply) error (value "decision_snapshot")
    "decision_snapshot"
  refuseIf ((get action "request_id").equals (get request "request_id") = false)
    (error "hook execution action/request binding is invalid")
  pure ⟨(value "tool_use_id").exactText?.getD [],
    record (executionFields.map fun name => (name, stored value action request decision name))⟩

end Snapshots
end HookExecution

/-! ### The budget ledger -/

namespace BudgetLedger

def error (message : String) : HarnessError := ⟨.budget, message⟩

def finiteDecimal (literals : Literals) (value : Value) (fieldName : String) :
    Except HarnessError Decimal :=
  match readDecimal literals value with
  | .invalid => throw (error (fieldName ++ " must be a decimal number"))
  | .notFinite => throw (error (fieldName ++ " must be finite"))
  | .finite d => pure d

/-- `data.setdefault(name, default)` -/
def setDefault (name : String) (default : Value) (data : List Entry) : List Entry :=
  if (lookup name data).isSome then data else data ++ record [(name, default)]

def checkReservation (literals : Literals) (e : Entry) : Except HarnessError Unit := do
  refuseIf ((truthy e.1 && isMapping e.2) = false) (error "invalid reservation entry")
  let amount ← moneyOf literals (getOr e.2 "amount_usd" (text "0")) "reservation amount"
  refuseIf (amount.isZero = true) (error "reservation amount must be positive")
  refuseIf (truthy (get e.2 "request_id") = false) (error "reservation is missing request_id")
  refuseIf (truthy (get e.2 "created_at") = false) (error "reservation is missing created_at")

/-- The authority that a reconciliation names, where it names one. -/
def checkAuthority (reconciliation : Value) : Except HarnessError Unit :=
  if isNull (get reconciliation "authority_type") then pure () else do
    refuseIf (oneOf ["authorization"] (get reconciliation "authority_type") = false)
      (error "invalid reconciliation authority_type")
    checkAll (fun name => refuseIf (visible (get reconciliation name) = false)
        (error ("reconciliation is missing non-empty " ++ name)))
      ["authority_record_id", "authority_record_hash"]
    let attestation := get reconciliation "attestation"
    refuseIf ((isNull attestation || isMapping attestation) = false)
      (error "reconciliation attestation must be an object")

def checkReconciliation (literals : Literals) (e : Entry) : Except HarnessError Unit := do
  refuseIf ((truthy e.1 && isMapping e.2) = false) (error "invalid reconciliation entry")
  refuseIf (oneOf ["succeeded", "failed", "not_executed"] (get e.2 "outcome") = false)
    (error "invalid reconciliation outcome")
  checkAll (fun name => refuseIf (visible (get e.2 name) = false)
      (error ("reconciliation is missing non-empty " ++ name)))
    ["request_id", "reconciled_by", "note", "disposition", "at"]
  checkAll (fun name => (moneyOf literals (getOr e.2 name (text "0"))
      ("reconciliation " ++ name)).map fun _ => ())
    ["expected_usd", "charged_usd", "released_usd"]
  let _ ← finiteDecimal literals (getOr e.2 "remaining_usd" (text "0")) "reconciliation remaining_usd"
  checkAuthority e.2

/-- A record of a completion is named by its own prefix. -/
def completionNamed (v : Value) : Bool :=
  isNull v || v.text?.any fun s => (Points.ofString "evd_").isPrefixOf s

def checkLedgerEntry (literals : Literals) (index : Nat) (entry : Value) : Except HarnessError Unit := do
  let label := "entry " ++ toString index
  refuseIf (isMapping entry = false) (error (label ++ " must be an object"))
  refuseIf (filled (get entry "kind") = false) (error (label ++ " is missing kind"))
  let _ ← moneyOf literals (getOr entry "amount_usd" (text "0")) (label ++ " amount")
  let _ ← finiteDecimal literals (get entry "balance_after_usd") (label ++ " balance_after_usd")
  refuseIf (filled (get entry "at") = false) (error (label ++ " is missing timestamp"))
  refuseIf (completionNamed (get entry "completion_record_id") = false)
    (error (label ++ " has invalid completion_record_id"))

/-- A ledger without reservations of its own has none of the first version either. -/
def checkLegacy (literals : Literals) (data : List Entry) (reservations : List Entry) :
    Except HarnessError Unit :=
  if reservations.isEmpty then do
    let legacy ← finiteDecimal literals (field data "reserved_usd" (text "0")) "reserved_usd"
    refuseIf (legacy.isZero = false)
      (error "legacy ledger has unbound reservations; refusing unsafe migration")
  else pure ()

/-- `_validate`: the document, with the members that it may leave out. -/
def validate (literals : Literals) (raw : List Entry) : Except HarnessError (List Entry) := do
  refuseIf (oneOf ["0.1.0", "0.2.0"] (field raw "schema_version" .null) = false)
    (error "unsupported budget ledger schema")
  checkAll (fun name => (finiteDecimal literals (field raw name (text "0")) name).map fun _ => ())
    ["balance_usd", "total_spent_usd", "total_estimated_usd"]
  -- documents of the first schema have no such tables
  let data := setDefault "reservations" (.dict []) raw
  let reservations ← orRefuse (entries? (field data "reservations" .null))
    (error "reservations must be an object")
  checkLegacy literals data reservations
  checkAll (checkReservation literals) reservations
  let data := setDefault "reconciliations" (.dict []) data
  let reconciliations ← orRefuse (entries? (field data "reconciliations" .null))
    (error "reconciliations must be an object")
  checkAll (checkReconciliation literals) reconciliations
  let entries ← orRefuse (items? (field data "entries" (.list []))) (error "entries must be a list")
  checkAll (fun e => checkLedgerEntry literals e.2 e.1) entries.zipIdx
  pure data

end BudgetLedger
end Durable
end DefiantHarness
