import DefiantHarness.Foundation.JsonEquality
import DefiantHarness.PolicyEngine

/-! The contracts that state files hold as documents: how each one is loaded, and what it is written
as again. -/
namespace DefiantHarness

open Foundation

namespace Value

/-- A value that holds no others, as data. -/
def scalar? : Value → Option Data
  | .null => some .null
  | .bool b => some (.bool b)
  | .int i => some (.int i)
  | .float x => some (.float x)
  | .str s => some (.str s)
  | _ => none

def scalarEquals (v w : Value) : Bool :=
  v.scalar?.any fun x => w.scalar?.any fun y => x.equals y

/-- The value under a key, as dictionaries compare keys. -/
def entryAt (k : Value) : List Entry → Option Value
  | [] => none
  | (own, v) :: es => if own.scalarEquals k then some v else entryAt k es

mutual

/-- `==` on snapshots: a list is no tuple, and the order of entries does not count. -/
def equals : Value → Value → Bool
  | .list items, .list others => equalsItems items others
  | .tuple items, .tuple others => equalsItems items others
  | .dict entries, .dict others => entries.length == others.length && equalsEntries entries others
  | v, w => v.scalarEquals w

def equalsItems : List Value → List Value → Bool
  | [], [] => true
  | v :: vs, w :: ws => equals v w && equalsItems vs ws
  | _, _ => false

def equalsEntries : List Entry → List Entry → Bool
  | [], _ => true
  | (k, v) :: es, others => (entryAt k others).any (equals v) && equalsEntries es others

end

/-- `type(value) is str`. -/
def exactText? : Value → Option Points
  | .str s => some s
  | _ => none

end Value

def Sensitivity.text : Sensitivity → String
  | .publicLevel => "public"
  | .internal => "internal"
  | .client => "client"
  | .legal => "legal"
  | .financial => "financial"
  | .regulated => "regulated"
  | .unknown => "unknown"

def ResultStatus.text : ResultStatus → String
  | .succeeded => "succeeded"
  | .failed => "failed"
  | .blocked => "blocked"
  | .skipped => "skipped"
  | .pendingApproval => "pending_approval"
  | .expired => "expired"
  | .rejected => "rejected"
  | .notExecuted => "not_executed"

def Sensitivity.ofText? : Points → Option Sensitivity :=
  memberOf? [.publicLevel, .internal, .client, .legal, .financial, .regulated, .unknown]
    Sensitivity.text

def Decision.ofText? : Points → Option Decision :=
  memberOf? [.allow, .block, .approvalRequired] Decision.text

def ResultStatus.ofText? : Points → Option ResultStatus :=
  memberOf? [.succeeded, .failed, .blocked, .skipped, .pendingApproval, .expired, .rejected,
    .notExecuted] ResultStatus.text

namespace Durable

/-- What `Decimal` makes of a text. -/
inductive DecimalReading where
  | invalid
  | notFinite
  | finite (value : Decimal)

/-- What the standard library reads in texts: decimals, among them every one that `money_text` writes,
whether a timestamp (`Z` for UTC) has a zone, and those that have one in UTC. -/
structure Literals where
  decimal : Points → DecimalReading
  positional : ∀ p : PlainDecimal, decimal (Points.ofString p.text) = .finite p.decimal
  zoned : Points → Option Bool
  timestamps : Timestamps

/-- The identifier and the time that fill in what a document may leave out. -/
structure Supply (literals : Literals) where
  fresh : Points
  now : Points
  named : fresh.all blankPoint = false
  timed : now ≠ [] ∧ ∃ t, literals.timestamps.read now = some t

/-- `Decimal(str(value))`. -/
def readDecimal (literals : Literals) : Value → DecimalReading
  | .str s => literals.decimal s
  | .int i => .finite ⟨decide (i < 0), i.natAbs, 0⟩
  | .float x => .finite ⟨x.numeral.negative, x.numeral.coefficient, x.numeral.scale⟩
  | _ => .invalid

/-- `money`, of a value in a document. -/
def moneyOf (literals : Literals) (value : Value) (fieldName : String) : Except HarnessError Decimal :=
  match readDecimal literals value with
  | .invalid => throw (invalid (fieldName ++ " must be a valid monetary number"))
  | .notFinite => throw (invalid (fieldName ++ " must be finite"))
  | .finite d => money d fieldName

/-- A finite decimal of any sign. -/
def signedDecimal (literals : Literals) (value : Value) (fieldName : String) :
    Except HarnessError Decimal :=
  match readDecimal literals value with
  | .invalid => throw (invalid (fieldName ++ " must be a valid decimal number"))
  | .notFinite => throw (invalid (fieldName ++ " must be finite"))
  | .finite d => pure d

def isNull : Value → Bool
  | .null => true
  | _ => false

/-- A field that may be null. -/
def optionally (load : Value → Except HarnessError α) (v : Value) : Except HarnessError (Option α) :=
  if isNull v then pure none else (load v).map some

/-- The keyword arguments of a constructor are among these names. -/
def accepts (names : List String) (raw : List Entry) : Bool :=
  raw.all fun e => e.1.exactText?.any fun k => names.any fun name => Points.ofString name == k

def exactText (value : Value) (fieldName : String) : Except HarnessError Points :=
  orRefuse value.text? (invalid (fieldName ++ " must be a string"))

def field (raw : List Entry) (name : String) (default : Value) : Value :=
  (lookup name raw).getD default

def text (s : String) : Value := .str (Points.ofString s)

/-- A field without a default. -/
def required (raw : List Entry) (name : String) : Except HarnessError Value :=
  orRefuse (lookup name raw) (invalid name)

/-! ### Snapshots inside contracts -/

def authorityListSnapshot (value : Value) (fieldName : String) : Except HarnessError (List Value) :=
  match value with
  | .list items => do
    refuseIf (maxActionHashNodes < items.length)
      (invalid (fieldName ++ " exceeds canonical contract limits"))
    match ← authorityContractSnapshot (.list items) fieldName with
    | .list snapshot => pure snapshot
    | _ => throw (invalid (fieldName ++ " must be a list"))
  | _ => throw (invalid (fieldName ++ " must be a list"))

/-- `authority_string_list_snapshot`, of a value in a document. -/
def documentStringListSnapshot (value : Value) (fieldName : String) :
    Except HarnessError (List Points) := do
  let snapshot ← authorityListSnapshot value fieldName
  orRefuse (snapshot.mapM Value.exactText?) (invalid (fieldName ++ " must contain strings"))

def authorityMappingSnapshot (value : Value) (fieldName : String) :
    Except HarnessError (List Entry) :=
  match value with
  | .dict entries => do
    match ← authorityContractSnapshot (.dict entries) fieldName with
    | .dict snapshot => pure snapshot
    | _ => throw (invalid (fieldName ++ " must be a mapping"))
  | _ => throw (invalid (fieldName ++ " must be a mapping"))

def isMapping : Value → Bool
  | .dict _ => true
  | _ => false

def authorityMappingListSnapshot (value : Value) (fieldName : String) :
    Except HarnessError (List Value) := do
  let snapshot ← authorityListSnapshot value fieldName
  refuseIf (snapshot.all isMapping = false) (invalid (fieldName ++ " must contain mappings"))
  pure snapshot

/-! ### Requests -/

def maxRequestTextItemCharacters : Nat := 1024 * 1024
def maxRequestIdentifierCharacters : Nat := 4096
def maxRequestAllowedTools : Nat := 4096
def maxRequestAllowedToolCharacters : Nat := 4096
def maxRequestTextCharacters : Nat := 8 * 1024 * 1024

def requireRequestText (text : Points) (fieldName : String) (maximum : Nat) :
    Except HarnessError Unit :=
  refuseIf (maximum < text.length)
    (invalid ("request " ++ fieldName ++ " exceeds maximum of " ++ toString maximum ++ " characters"))

/-- The governed request. -/
structure HarnessRequest where
  task : Points
  userId : Points
  workspaceId : Points
  requestId : Points
  taskType : Points
  sensitivity : Sensitivity
  allowedTools : List Points
  budgetLimitUsd : Option Decimal
  inputs : List ContentRef
  createdAt : Points

namespace HarnessRequest

def contractFields : List String := ["task", "user_id", "workspace_id", "request_id", "task_type",
  "sensitivity", "allowed_tools", "budget_limit_usd", "inputs", "created_at"]

def inputsOf : Value → Except HarnessError (List ContentRef)
  | .list items => items.mapM ContentRef.fromDict
  | .tuple items => items.mapM ContentRef.fromDict
  | _ => throw (invalid "inputs must be a list")

def allowedTool (value : Value) : Except HarnessError Points := do
  let name ← orRefuse value.text? (invalid "allowed_tools must contain non-empty strings")
  refuseIf (name.all blankPoint = true) (invalid "allowed_tools must contain non-empty strings")
  requireRequestText name "allowed tool" maxRequestAllowedToolCharacters
  pure name

def allowedToolsOf : Value → Except HarnessError (List Points)
  | .list items => do
    refuseIf (maxRequestAllowedTools < items.length)
      (invalid ("request allowed tool count exceeds maximum of " ++ toString maxRequestAllowedTools))
    items.mapM allowedTool
  | _ => throw (invalid "allowed_tools must be a list")

/-- The texts that count towards the volume of a request. -/
def texts (r : HarnessRequest) : List Points :=
  [r.task, r.userId, r.workspaceId, r.requestId, r.taskType] ++ r.allowedTools ++
    r.inputs.flatMap ContentRef.texts

/-- Rebuild a request from its durable form. -/
def fromDict (literals : Literals) (supply : Supply literals) (raw : List Entry) :
    Except HarnessError HarnessRequest := do
  -- `from_dict` reads these two before the constructor sees any field
  let sensitivity ← orRefuse ((field raw "sensitivity" (text "internal")).text? >>= Sensitivity.ofText?)
    (invalid "not a valid Sensitivity")
  let inputs ← inputsOf (field raw "inputs" (.list []))
  refuseIf (accepts ("_contract_sealed" :: contractFields) raw = false)
    (invalid "unexpected keyword argument")
  -- the constructor's arguments without a default
  let task ← required raw "task"
  let userId ← required raw "user_id"
  let workspaceId ← required raw "workspace_id"
  let budgetLimitUsd ← optionally (moneyOf literals · "budget_limit_usd")
    (field raw "budget_limit_usd" .null)
  let createdAt ← utcTimestamp literals.timestamps (field raw "created_at" (.str supply.now))
    "created_at"
  let task ← requireText task "task"
  let userId ← requireText userId "user_id"
  let workspaceId ← requireText workspaceId "workspace_id"
  let requestId ← requireText (field raw "request_id" (.str supply.fresh)) "request_id"
  let taskType ← requireText (field raw "task_type" (text "general")) "task_type"
  requireRequestText task "task" maxRequestTextItemCharacters
  requireRequestText userId "user_id" maxRequestIdentifierCharacters
  requireRequestText workspaceId "workspace_id" maxRequestIdentifierCharacters
  requireRequestText requestId "request_id" maxRequestIdentifierCharacters
  requireRequestText taskType "task_type" maxRequestIdentifierCharacters
  let allowedTools ← allowedToolsOf (field raw "allowed_tools" (.list []))
  refuseIf (maxProvenanceRefs < inputs.length)
    (invalid ("request input provenance count exceeds maximum of " ++ toString maxProvenanceRefs))
  let request : HarnessRequest := ⟨task, userId, workspaceId, requestId, taskType, sensitivity,
    allowedTools, budgetLimitUsd, inputs, createdAt⟩
  (requireAggregateText maxRequestTextCharacters 0 (texts request)).mapError fun _ =>
    invalid ("request text exceeds maximum of " ++ toString maxRequestTextCharacters ++ " characters")
  pure request

/-- `asdict` of the request. -/
def asDict (r : HarnessRequest) : Value := .dict (record [
  ("task", .str r.task), ("user_id", .str r.userId), ("workspace_id", .str r.workspaceId),
  ("request_id", .str r.requestId), ("task_type", .str r.taskType),
  ("sensitivity", .member true (text r.sensitivity.text)),
  ("allowed_tools", .list (r.allowedTools.map .str)),
  ("budget_limit_usd", (r.budgetLimitUsd.map .decimal).getD .null),
  ("inputs", .list (r.inputs.map ContentRef.asDict)), ("created_at", .str r.createdAt)])

def toDict (r : HarnessRequest) : Except HashFault Value := r.asDict.enumSafe

end HarnessRequest

/-! ### Actions -/

namespace ProposedAction

/-- The durable form of an action that is not sealed: its hashes are taken again. -/
def toDict (sha : TextHash) (chunking : Chunking) (a : ProposedAction) : Except HashFault Value := do
  let payloadHash ← actionSha256Of sha chunking (.dict a.payload)
  let authorizationHash ← actionSha256Of sha chunking (a.authorizationSurface (.dict a.payload))
  SealedAction.toDict ⟨a, payloadHash, authorizationHash⟩

end ProposedAction

/-! ### Decisions -/

/-- A `GuardrailDecision` with its times, as documents keep it. -/
structure SealedDecision where
  decision : Decision
  reason : Points
  policyIds : List Points
  policyVersion : Points
  rulesetHash : Points
  approvalScope : Points
  expiresAt : Option Points
  redactions : List Points
  decisionInputs : List Entry
  decidedAt : Points

namespace SealedDecision

def fieldNames : List String := ["decision", "reason", "policy_ids", "policy_version", "ruleset_hash",
  "approval_scope", "expires_at", "redactions", "decision_inputs", "decided_at"]

/-- The checks of the constructor; `policy_ids` and `redactions` are checked as the values they are
given as. -/
def make (literals : Literals) (decision : Decision)
    (reason policyIds policyVersion rulesetHash approvalScope expiresAt redactions decisionInputs
      decidedAt : Value) : Except HarnessError SealedDecision := do
  let reason ← requireText reason "decision reason"
  let policyIds ← documentStringListSnapshot policyIds "policy_ids"
  refuseIf (policyIds = [] ∨ [] ∈ policyIds)
    (invalid "policy_ids must contain at least one non-empty id")
  let policyVersion ← exactText policyVersion "policy_version"
  let rulesetHash ← exactText rulesetHash "ruleset_hash"
  let approvalScope ← exactText approvalScope "approval_scope"
  let redactions ← documentStringListSnapshot redactions "redactions"
  let decisionInputs ← authorityMappingSnapshot decisionInputs "decision_inputs"
  let decidedAt ← utcTimestamp literals.timestamps decidedAt "decided_at"
  let expiresAt ← optionally (utcTimestamp literals.timestamps · "expires_at") expiresAt
  pure ⟨decision, reason, policyIds, policyVersion, rulesetHash, approvalScope, expiresAt, redactions,
    decisionInputs, decidedAt⟩

/-- Rebuild a decision from its durable form. -/
def fromDict (literals : Literals) (supply : Supply literals) (raw : List Entry) :
    Except HarnessError SealedDecision := do
  -- the level is parsed before the constructor rejects unknown names
  let level ← required raw "decision"
  let decision ← orRefuse (level.text? >>= Decision.ofText?) (invalid "not a valid Decision")
  refuseIf (accepts fieldNames raw = false) (invalid "unexpected keyword argument")
  let reason ← required raw "reason"
  make literals decision reason (field raw "policy_ids" (.list []))
    (field raw "policy_version" (text "")) (field raw "ruleset_hash" (text ""))
    (field raw "approval_scope" (text "")) (field raw "expires_at" .null)
    (field raw "redactions" (.list [])) (field raw "decision_inputs" (.dict []))
    (field raw "decided_at" (.str supply.now))

/-- `asdict` of the decision. -/
def asDict (d : SealedDecision) : Value := .dict (record [
  ("decision", .member true (text d.decision.text)), ("reason", .str d.reason),
  ("policy_ids", .list (d.policyIds.map .str)), ("policy_version", .str d.policyVersion),
  ("ruleset_hash", .str d.rulesetHash), ("approval_scope", .str d.approvalScope),
  ("expires_at", (d.expiresAt.map .str).getD .null), ("redactions", .list (d.redactions.map .str)),
  ("decision_inputs", .dict d.decisionInputs), ("decided_at", .str d.decidedAt)])

/-- The durable form; the decision is checked once more. -/
def toDict (literals : Literals) (d : SealedDecision) : Except HarnessError Value := do
  let checked ← make literals d.decision (.str d.reason) (.list (d.policyIds.map .str))
    (.str d.policyVersion) (.str d.rulesetHash) (.str d.approvalScope)
    ((d.expiresAt.map .str).getD .null) (.list (d.redactions.map .str)) (.dict d.decisionInputs)
    (.str d.decidedAt)
  checked.asDict.enumSafe.mapError fun fault => invalid fault.message

end SealedDecision

/-! ### Evidence -/

/-- What the journal reads of the evidence in a payload. -/
structure EvidenceRecord where
  requestId : Points
  actionId : Points
  decision : Decision
  resultStatus : ResultStatus
  authorizationHash : Points
  costUsd : Decimal
  reconciliationOutcome : Points
  reconciledBy : Points
  reconciledAt : Option Points
  reconciliationNote : Points
  previousRecordHash : Points
  recordHash : Points

namespace EvidenceRecord

def fieldNames : List String := ["request_id", "action_id", "decision", "result_status", "schema_name",
  "schema_version", "record_id", "timestamp", "agent_runner", "model_id", "user_id", "workspace_id",
  "tool_name", "target", "side_effect_level", "policy_ids", "policy_version", "ruleset_hash",
  "decision_reason", "decision_inputs", "approved_by", "approved_at", "payload_hash",
  "authorization_hash", "payload_trust", "input_refs", "output_hash", "result_summary", "cost_usd",
  "budget_remaining_usd", "dry_run", "reconciliation_outcome", "reconciled_by", "reconciled_at",
  "reconciliation_note", "previous_record_hash", "record_hash", "enforcement_basis"]

/-- The texts of a record, with their defaults. -/
def textDefaults : List (String × String) := [("agent_runner", "mock"), ("model_id", ""),
  ("user_id", ""), ("workspace_id", ""), ("tool_name", ""), ("target", ""),
  ("side_effect_level", "none"), ("policy_version", ""), ("ruleset_hash", ""),
  ("decision_reason", ""), ("payload_hash", ""), ("authorization_hash", ""),
  ("payload_trust", "trusted"), ("output_hash", ""), ("result_summary", ""),
  ("reconciliation_outcome", ""), ("reconciled_by", ""), ("reconciliation_note", ""),
  ("previous_record_hash", ""), ("record_hash", "")]

def enforcementBases : List String :=
  ["", "native_hook_preview", "mcp_proxy", "harness_control_loop"]

def textOf (raw : List Entry) (name default : String) : Except HarnessError Points :=
  exactText (field raw name (text default)) name

def flag : Value → Option Bool
  | .bool b => some b
  | _ => none

/-- The constructor, from keyword arguments. -/
def make (literals : Literals) (supply : Supply literals) (raw : List Entry) :
    Except HarnessError EvidenceRecord := do
  refuseIf (accepts fieldNames raw = false) (invalid "unexpected keyword argument")
  let requestId ← required raw "request_id"
  let actionId ← required raw "action_id"
  let decision ← required raw "decision"
  let resultStatus ← required raw "result_status"
  let requestId ← requireText requestId "request_id"
  let actionId ← requireText actionId "action_id"
  let basis ← textOf raw "enforcement_basis" ""
  refuseIf (enforcementBases.all (fun b => Points.ofString b != basis) = true)
    (invalid "invalid enforcement_basis")
  let decision ← orRefuse (decision.text? >>= Decision.ofText?) (invalid "not a valid Decision")
  let resultStatus ← orRefuse (resultStatus.text? >>= ResultStatus.ofText?)
    (invalid "not a valid ResultStatus")
  -- the fields below are checked and dropped: nothing modelled reads them
  let _ ← requireText (field raw "schema_name" (text "defiant.agent_harness.evidence_record"))
    "schema_name"
  let _ ← requireText (field raw "schema_version" (text "0.1.0")) "schema_version"
  let _ ← requireText (field raw "record_id" (.str supply.fresh)) "record_id"
  checkAll (fun named => (textOf raw named.1 named.2).map fun _ => ()) textDefaults
  let _ ← optionally (exactText · "approved_by") (field raw "approved_by" .null)
  let _ ← documentStringListSnapshot (field raw "policy_ids" (.list [])) "policy_ids"
  let _ ← authorityMappingSnapshot (field raw "decision_inputs" (.dict [])) "decision_inputs"
  let _ ← authorityMappingListSnapshot (field raw "input_refs" (.list [])) "input_refs"
  let costUsd ← moneyOf literals (field raw "cost_usd" (text "0")) "cost_usd"
  let _ ← optionally (signedDecimal literals · "budget_remaining_usd")
    (field raw "budget_remaining_usd" .null)
  let _ ← orRefuse (flag (field raw "dry_run" (.bool false))) (invalid "dry_run must be boolean")
  let _ ← utcTimestamp literals.timestamps (field raw "timestamp" (.str supply.now)) "timestamp"
  let _ ← optionally (utcTimestamp literals.timestamps · "approved_at") (field raw "approved_at" .null)
  let reconciledAt ← optionally (utcTimestamp literals.timestamps · "reconciled_at")
    (field raw "reconciled_at" .null)
  let authorizationHash ← textOf raw "authorization_hash" ""
  let reconciliationOutcome ← textOf raw "reconciliation_outcome" ""
  let reconciledBy ← textOf raw "reconciled_by" ""
  let reconciliationNote ← textOf raw "reconciliation_note" ""
  let previousRecordHash ← textOf raw "previous_record_hash" ""
  let recordHash ← textOf raw "record_hash" ""
  pure ⟨requestId, actionId, decision, resultStatus, authorizationHash, costUsd,
    reconciliationOutcome, reconciledBy, reconciledAt, reconciliationNote, previousRecordHash,
    recordHash⟩

end EvidenceRecord
end Durable
end DefiantHarness
