import DefiantHarness.Money
import DefiantHarness.Foundation.Json
import DefiantHarness.Foundation.Dict
import DefiantHarness.Foundation.Text

/-! The records that cross the control path. -/
namespace DefiantHarness

open Foundation

/-- An instant, in microseconds. -/
abbrev Timestamp := Nat

/-- The successive answers of `utc_now` within one operation. -/
abbrev Clock := Nat → Timestamp

inductive Sensitivity where
  | publicLevel | internal | client | legal | financial | regulated | unknown
deriving DecidableEq, Repr

inductive SideEffect where
  | none | localWrite | externalSend | externalPublish | spend | destructive
deriving DecidableEq, Repr

inductive Trust where
  | trusted | untrusted | derived
deriving DecidableEq, Repr

inductive Decision where
  | allow | block | approvalRequired
deriving DecidableEq, Repr

inductive ResultStatus where
  | succeeded | failed | blocked | skipped | pendingApproval | expired | rejected | notExecuted
deriving DecidableEq, Repr

/-- What an operator says became of an uncertain execution. -/
inductive Outcome where
  | succeeded | failed | notExecuted
deriving DecidableEq, Repr

def Outcome.text : Outcome → String
  | .succeeded => "succeeded"
  | .failed => "failed"
  | .notExecuted => "not_executed"

def Outcome.status : Outcome → ResultStatus
  | .succeeded => .succeeded
  | .failed => .failed
  | .notExecuted => .notExecuted

inductive EnforcementBasis where
  | unspecified | nativeHookPreview | mcpProxy | harnessControlLoop
deriving DecidableEq, Repr

structure ContentRef where
  refId : String
  origin : String
  trust : Trust
  contentHash : String
  label : String
deriving DecidableEq

def worstTrust (refs : List ContentRef) : Trust :=
  if refs = [] then .derived
  else if refs.any (·.trust == .untrusted) then .untrusted
  else if refs.any (·.trust == .derived) then .derived
  else .trusted

structure HarnessRequest where
  task : String
  userId : String
  workspaceId : String
  requestId : String
  taskType : String
  sensitivity : Sensitivity
  allowedTools : List String
  budgetLimitUsd : Option Decimal
  inputs : List ContentRef
  createdAt : Timestamp
deriving DecidableEq

/-- One tool invocation as seen at the transport boundary. -/
structure ToolCall where
  name : String
  arguments : Json
  callId : String
  server : String
  transportParams : Json
deriving DecidableEq

structure ProposedAction where
  toolName : String
  target : String
  payload : Json
  sideEffectLevel : SideEffect
  agentReason : String
  actionId : String
  requestId : String
  payloadSources : List ContentRef
  estimatedCostUsd : Decimal
  createdAt : Timestamp
deriving DecidableEq

/-- The fields of an action that its authorization hash binds, as they are hashed. -/
structure AuthorizationSurface where
  actionId : String
  requestId : String
  toolName : String
  target : String
  payload : Json
  sideEffectLevel : SideEffect
  payloadSources : List ContentRef
  estimatedCostUsd : PlainDecimal
deriving DecidableEq

structure GuardrailDecision where
  decision : Decision
  reason : String
  policyIds : List String
  policyVersion : String
  rulesetHash : String
  approvalScope : String
  expiresAt : Option Timestamp
  redactions : List String
  decisionInputs : Json
  decidedAt : Timestamp
deriving DecidableEq

structure EvidenceRecord where
  requestId : String
  actionId : String
  decision : Decision
  resultStatus : ResultStatus
  recordId : String
  timestamp : Timestamp
  agentRunner : String
  modelId : String
  userId : String
  workspaceId : String
  toolName : String
  target : String
  sideEffectLevel : SideEffect
  policyIds : List String
  policyVersion : String
  rulesetHash : String
  decisionReason : String
  decisionInputs : Json
  approvedBy : Option String
  approvedAt : Option Timestamp
  payloadHash : String
  authorizationHash : String
  payloadTrust : Trust
  inputRefs : List ContentRef
  outputHash : String
  resultSummary : String
  costUsd : PlainDecimal
  budgetRemainingUsd : Option PlainDecimal
  dryRun : Bool
  reconciliationOutcome : Option Outcome
  reconciledBy : String
  reconciledAt : Option Timestamp
  reconciliationNote : String
  previousRecordHash : String
  recordHash : String
  enforcementBasis : EnforcementBasis
deriving DecidableEq

def isHexDigit (c : Char) : Bool := (charsOf "0123456789abcdef").contains c

def isSha256 (value : String) : Bool :=
  startsWith "sha256:" value && ((charsOf value).drop 7).length == 64 &&
    ((charsOf value).drop 7).all isHexDigit

/-- The digests of the canonical texts of payloads, outputs, actions and evidence records. -/
structure Digests where
  payload : Json → String
  output : Json → String
  authorization : AuthorizationSurface → String
  record : EvidenceRecord → String
  authorization_sha256 : ∀ surface, isSha256 (authorization surface) = true
  record_sha256 : ∀ r, isSha256 (record r) = true

/-- The ceilings on what a request and an action may hold. They do not look at the way an amount
is written. -/
structure ContractLimits where
  request : HarnessRequest → Bool
  action : AuthorizationSurface → Bool
  request_amount : ∀ (r : HarnessRequest) limit, request { r with budgetLimitUsd := limit } = request r

def valueError (message : String) : HarnessError := ⟨.value, message⟩

def requireText (value fieldName : String) : Except HarnessError Unit :=
  refuseIf (strip value = "") (valueError (fieldName ++ " must be a non-empty string"))

def HarnessRequest.checkBudgetLimit (request : HarnessRequest) : Except HarnessError Unit :=
  match request.budgetLimitUsd with
  | none => pure ()
  | some limit => do
    let _ ← money limit "budget_limit_usd"

/-- Validate the request used by the control path. -/
def HarnessRequest.sealContract (limits : ContractLimits) (request : HarnessRequest) :
    Except HarnessError Unit := do
  request.checkBudgetLimit
  requireText request.task "task"
  requireText request.userId "user_id"
  requireText request.workspaceId "workspace_id"
  requireText request.requestId "request_id"
  requireText request.taskType "task_type"
  refuseIf (∃ name ∈ request.allowedTools, strip name = "")
    (valueError "allowed_tools must contain non-empty strings")
  refuseIf (limits.request request = false) (valueError "request exceeds its text limits")

/-- A decision names its reason and at least one policy. -/
def GuardrailDecision.validate (decision : GuardrailDecision) : Except HarnessError Unit := do
  requireText decision.reason "decision reason"
  refuseIf (decision.policyIds = [] ∨ "" ∈ decision.policyIds)
    (valueError "policy_ids must contain at least one non-empty id")

namespace ProposedAction

def payloadTrust (action : ProposedAction) : Trust := worstTrust action.payloadSources

def authorizationSurface (action : ProposedAction) : AuthorizationSurface :=
  { actionId := action.actionId
    requestId := action.requestId
    toolName := action.toolName
    target := action.target
    payload := action.payload
    sideEffectLevel := action.sideEffectLevel
    payloadSources := action.payloadSources
    estimatedCostUsd := canonicalText action.estimatedCostUsd }

def payloadHash (digests : Digests) (action : ProposedAction) : String :=
  digests.payload action.payload

def authorizationHash (digests : Digests) (action : ProposedAction) : String :=
  digests.authorization action.authorizationSurface

/-- Validate the action used by the control path. -/
def sealFingerprints (limits : ContractLimits) (action : ProposedAction) :
    Except HarnessError Unit := do
  requireText action.toolName "tool_name"
  requireText action.target "target"
  requireText action.actionId "action_id"
  let _ ← money action.estimatedCostUsd "estimated_cost_usd"
  refuseIf (limits.action action.authorizationSurface = false)
    (valueError "action hash input exceeds its canonical limits")

end ProposedAction

namespace EvidenceRecord

/-- The checks made whenever a record is built. -/
def validate (record : EvidenceRecord) : Except HarnessError Unit := do
  requireText record.requestId "request_id"
  requireText record.actionId "action_id"
  requireText record.recordId "record_id"
  let _ ← money record.costUsd.decimal "cost_usd"

/-- Everything except the record's own hash. -/
def body (record : EvidenceRecord) : EvidenceRecord := { record with recordHash := "" }

def sealed (digests : Digests) (previousRecordHash : String) (record : EvidenceRecord) :
    EvidenceRecord :=
  let chained := { record with previousRecordHash := previousRecordHash }
  { chained with recordHash := digests.record chained.body }

/-- Equal apart from the position in the chain. -/
def comparable (record : EvidenceRecord) : EvidenceRecord :=
  { record with previousRecordHash := "", recordHash := "" }

end EvidenceRecord

/-- The statuses that end an authorization. -/
def ResultStatus.terminal : ResultStatus → Bool
  | .succeeded | .failed | .blocked | .rejected | .expired | .notExecuted => true
  | .skipped | .pendingApproval => false

end DefiantHarness
