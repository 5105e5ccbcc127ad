import DefiantHarness.Runs

/-! The native hook gate: what it remembers between the authorization of an external tool call and the
event that reports its result. -/
namespace DefiantHarness

open Foundation

/-- What a hook call raises: an error of its own state, of its input, or of the harness. -/
inductive HookError where
  | state (message : String)
  | value (message : String)
  | harness (error : HarnessError)
deriving DecidableEq

inductive HookStatus where
  | authorized
  | completed (completionRecordId : String) (completedAt : Timestamp)
deriving DecidableEq

/-- The durable correlation of one external tool call. Only a completed one names its completion record
and the time of it. -/
structure HookExecution where
  toolUseId : String
  executionKey : String
  nativeToolName : String
  action : ProposedAction
  request : HarnessRequest
  decision : GuardrailDecision
  authorizationRecordId : String
  approvalId : String
  status : HookStatus
  createdAt : Timestamp
deriving DecidableEq

/-- The executions file: every execution under its tool use id. -/
abbrev HookExecutions := Dict String HookExecution

namespace HookExecution

def requireText (value name : String) : Except HookError Unit :=
  refuseIf (value = "") (.state (name ++ " must be non-empty"))

def checkStatus : HookStatus → Except HookError Unit
  | .authorized => pure ()
  | .completed completionRecordId _ =>
    refuseIf (completionRecordId = "") (.state "completed hook execution needs a record id")

/-- The checks of a record that is built or read back. -/
def validate (execution : HookExecution) : Except HookError Unit := do
  requireText execution.toolUseId "tool_use_id"
  requireText execution.executionKey "execution_key"
  requireText execution.nativeToolName "native_tool_name"
  requireText execution.authorizationRecordId "authorization_record_id"
  checkStatus execution.status
  refuseIf (execution.action.requestId ≠ execution.request.requestId)
    (.state "hook execution action/request binding is invalid")

end HookExecution

/-- What hooks add to a deployment: the digest of canonical data, the reader of argument texts, and the
ceilings on an event, on one execution and on the executions file. -/
structure HookSite extends Deployment where
  hash : Json → String
  readArguments : String → Option Json
  event : Json → Bool
  execution : HookExecution → Bool
  document : HookExecutions → Bool
  output_sha256 : ∀ output, isSha256 (digests.output output) = true

/-- A control process with the executions file beside its stores. -/
structure HookWorld where
  world : World
  executions : HookExecutions

/-- A step of the hook gate. -/
abbrev HookControl (α : Type) := Proc HookWorld HookError α

namespace HookControl

/-- Run a part of the control path. -/
def control {α : Type} (p : Control α) : HookControl α := fun h =>
  match p h.world with
  | (.ok a, t) => (.ok a, { h with world := t })
  | (.error e, t) => (.error (.harness e), { h with world := t })

/-- The same, with the answer to errors of the approval store. -/
def attempt {α : Type} (p : Control α) : HookControl (Except String α) := fun h =>
  match p h.world with
  | (.ok a, t) => (.ok (.ok a), { h with world := t })
  | (.error e, t) =>
    if e.kind = .approval then (.ok (.error e.message), { h with world := t })
    else (.error (.harness e), { h with world := t })

def executions : HookControl HookExecutions := fun h => (.ok h.executions, h)

/-- Replace the executions file, unless the process stops first. -/
def save (executions : HookExecutions) : HookControl Unit := fun h =>
  if h.world.writesLeft = some 0 then (.error (.harness stopped), h)
  else (.ok (), ⟨{ h.world with writesLeft := h.world.writesLeft.map (· - 1) }, executions⟩)

end HookControl

namespace HookExecutionStore

open HookControl

variable (site : HookSite)

def writeAll (data : HookExecutions) : HookControl Unit := do
  Proc.lift (refuseIf (site.document data = false)
    (.state "hook execution state exceeds bounded canonical contract"))
  save data.sorted

def create (execution : HookExecution) : HookControl HookExecution := do
  let data ← executions
  match data.lookup execution.toolUseId with
  | some prior =>
    if prior.executionKey = execution.executionKey ∧
        prior.authorizationRecordId = execution.authorizationRecordId then pure prior
    -- the runtime may use an identifier again for the same call, once that has completed
    else if prior.status ≠ .authorized ∧ prior.executionKey = execution.executionKey then do
      writeAll site (data.set execution.toolUseId execution)
      pure execution
    else Proc.raise (.state ("tool_use_id " ++ execution.toolUseId ++ " was already authorized"))
  | none => do
    writeAll site (data.set execution.toolUseId execution)
    pure execution

/-- A validated record within its ceiling. -/
def built (execution : HookExecution) : Except HookError HookExecution := do
  refuseIf (site.execution execution = false)
    (.state "hook execution exceeds bounded canonical contract")
  execution.validate
  pure execution

def markCompleted (toolUseId completionRecordId : String) : HookControl HookExecution := do
  Proc.lift (refuseIf (completionRecordId = "") (.state "completion_record_id must be non-empty"))
  let data ← executions
  match data.lookup toolUseId with
  | none => Proc.raise (.state ("unknown tool_use_id " ++ toolUseId))
  | some execution =>
    match execution.status with
    | .completed prior _ => do
      Proc.lift (refuseIf (prior ≠ completionRecordId)
        (.state ("tool_use_id " ++ toolUseId ++ " has a different completion")))
      pure execution
    | .authorized => do
      let clock ← control (Control.now site.toDeployment)
      let execution ← Proc.lift (built site
        { execution with status := .completed completionRecordId (clock 0) })
      writeAll site (data.set toolUseId execution)
      pure execution

end HookExecutionStore

/-! ### Events -/

namespace HookEvent

def firstField (event : List (String × Json)) (names : List String) : Option Json :=
  names.findSome? fun name => event.lookup name

/-- The first of the fields that holds a text, or the empty text. -/
def stringField (event : List (String × Json)) (names : List String) : String :=
  (names.findSome? fun name => match event.lookup name with
    | some (.str text) => some text
    | _ => none).getD ""

def sessionId (event : List (String × Json)) : String := stringField event ["session_id", "sessionId"]

def model (event : List (String × Json)) : String := stringField event ["model"]

def toolResponse (event : List (String × Json)) : Json :=
  (firstField event ["tool_response", "toolResponse", "tool_result", "toolResult"]).getD .null

end HookEvent

/-- The fields by which an event is correlated. -/
structure ToolFields where
  nativeName : String
  toolInput : Json
  toolUseId : String

namespace HookEvent

variable (site : HookSite)

def syntheticToolUseId (event : List (String × Json)) (nativeName : String) (toolInput : Json) :
    String :=
  let digest := site.hash (.obj [("session_id", .str (sessionId event)),
    ("cwd", .str (stringField event ["cwd"])), ("tool_name", .str nativeName),
    ("tool_input", toolInput)])
  "hook_" ++ String.ofList (digest.toList.drop 7)

/-- The tool input, read from its text where it comes as one. -/
def toolInput (event : List (String × Json)) : Except HookError Json :=
  match firstField event ["tool_input", "toolInput", "tool_args", "toolArgs"] with
  | some (.str text) =>
    orRefuse (site.readArguments text) (.value "hook input tool arguments must be valid JSON")
  | some value => pure value
  | none => pure .null

def requireObject (value : Json) : Except HookError Unit :=
  match value with
  | .obj _ => pure ()
  | _ => throw (.value "hook input tool_input must be an object")

def toolFields (event : List (String × Json)) : Except HookError ToolFields := do
  let name := stringField event ["tool_name", "toolName"]
  let useId := stringField event ["tool_use_id", "toolUseId"]
  refuseIf (name = "") (.value "hook input tool_name must be non-empty")
  let input ← toolInput site event
  requireObject input
  pure ⟨name, input, if useId = "" then syntheticToolUseId site event name input else useId⟩

/-- One bounded observation of what a hook receives. -/
def snapshot (event : Json) : Except HookError (List (String × Json)) := do
  refuseIf (site.event event = false) (.value "hook input must contain bounded canonical data")
  match event with
  | .obj fields => pure fields
  | _ => throw (.value "hook input must be a JSON object")

end HookEvent

/-! ### The gate -/

/-- One opened gate. `classify` and `targetFor` are the name mapping and the target selection, on the
texts of typed JSON. -/
structure CopilotHookGate where
  harness : Harness
  workspaceRoot : String
  userId : String
  workspaceId : String
  mappingVersion : String
  executionOwner : String
  serverName : String
  registeredNames : List String
  classify : String → String
  targetFor : String → Json → String

structure PreOutput where
  permissionDecision : String
  permissionDecisionReason : String
  additionalContext : String := ""
deriving DecidableEq

inductive PostOutput where
  | sealed_ (evidenceRecordId : String)
  | delegated
deriving DecidableEq

namespace CopilotHookGate

open HookControl HookEvent

variable (site : HookSite) (gate : CopilotHookGate)

/-- The harness of the gate while it handles an event of this model. -/
def harnessFor (event : List (String × Json)) : Harness :=
  { gate.harness with adapter := { gate.harness.adapter with modelId := model event } }

def executionKey (event : List (String × Json)) (fields : ToolFields) : String :=
  site.hash (.obj [("mapping_version", .str gate.mappingVersion),
    ("execution_owner", .str gate.executionOwner), ("session_id", .str (sessionId event)),
    ("model", .str (model event)), ("cwd", .str gate.workspaceRoot),
    ("tool_name", .str fields.nativeName), ("tool_input", fields.toolInput)])

def callFromSnapshot (fields : ToolFields) : ToolCall :=
  { name := gate.classify fields.nativeName
    arguments := .obj [("_native_tool_name", .str fields.nativeName),
      ("_defiant_target", .str (gate.targetFor fields.nativeName fields.toolInput)),
      ("tool_input", fields.toolInput)]
    callId := fields.toolUseId
    server := gate.serverName
    transportParams := .null }

def denyOutput (reason : String) : PreOutput := ⟨"deny", reason, ""⟩

def preOutput (outcome : ActionOutcome) : PreOutput :=
  if outcome.status = .skipped then
    ⟨"allow", "Allowed by Defiant policy; external result will be sealed after execution (" ++
      outcome.evidenceRecordId ++ ").", ""⟩
  else if outcome.status = .pendingApproval then
    ⟨"deny", "Defiant held this exact call for approval (" ++ outcome.approvalId ++
      "). Approve it, then retry the exact same tool input.", outcome.decision.reason⟩
  else denyOutput outcome.decision.reason

def pendingOutput (approval : PendingApproval) : PreOutput :=
  denyOutput ("Defiant approval " ++ approval.approvalId ++
    " is still pending. Retry only after the operator approves it.")

def rejectedOutput (approval : PendingApproval) : PreOutput :=
  denyOutput ("Defiant approval " ++ approval.approvalId ++
    " was rejected. This exact call remains denied.")

def rememberAuthorization (fields : ToolFields) (executionKey : String) (outcome : ActionOutcome)
    (request : HarnessRequest) : HookControl Unit := do
  let clock ← control (Control.now site.toDeployment)
  let execution ← Proc.lift (HookExecutionStore.built site
    { toolUseId := fields.toolUseId
      executionKey := executionKey
      nativeToolName := fields.nativeName
      action := outcome.action
      request := request
      decision := outcome.decision
      authorizationRecordId := outcome.evidenceRecordId
      approvalId := outcome.approvalId
      status := .authorized
      createdAt := clock 0 })
  let _ ← HookExecutionStore.create site execution

/-- An event whose exact call already has an approval. -/
def preExisting (event : List (String × Json)) (approval : PendingApproval) (fields : ToolFields)
    (executionKey : String) : HookControl PreOutput := do
  if approval.status = .pending then pure (pendingOutput approval)
  else if approval.status = .rejected then pure (rejectedOutput approval)
  else if approval.status = .executing then
    pure (denyOutput "Prior external execution outcome is uncertain; retry refused.")
  else do
    let answer ← attempt ((gate.harnessFor event).resumeExternal site.toDeployment approval.approvalId)
    match answer with
    | .error message => pure (denyOutput message)
    | .ok outcome => do
      -- authorized: the runtime runs the tool and reports back
      if outcome.status = .skipped then do
        let request ← control (Proc.lift approval.heldRequest)
        rememberAuthorization site fields executionKey outcome request
      pure (preOutput outcome)

/-- The request of a new external call. -/
@[irreducible] def newRequest (fields : ToolFields) : HookControl HarnessRequest := do
  let requestId ← control (Control.newId site.toDeployment "req")
  let clock ← control (Control.now site.toDeployment)
  let request : HarnessRequest :=
    { task := "PreToolUse " ++ fields.nativeName
      userId := gate.userId
      workspaceId := gate.workspaceId
      requestId := requestId
      taskType := "agent_hook"
      sensitivity := .internal
      allowedTools := gate.registeredNames
      budgetLimitUsd := none
      inputs := []
      createdAt := clock 0 }
  control (Proc.lift (request.sealContract site.limits.contract))
  pure request

def preNew (event : List (String × Json)) (fields : ToolFields) (executionKey : String) :
    HookControl PreOutput := do
  let request ← gate.newRequest site fields
  let outcome ← control ((gate.harnessFor event).preflightExternalCall site.toDeployment
    (gate.callFromSnapshot fields) request gate.executionOwner executionKey)
  if outcome.status = .skipped ∧ outcome.action.toolName ≠ "proxied_mcp" then
    rememberAuthorization site fields executionKey outcome request
  pure (preOutput outcome)

/-- What the approval store remembers of this exact call. -/
def findExisting (executionKey : String) : HookControl (Option PendingApproval) := do
  let disk ← control Control.disk
  let clock ← control (Control.now site.toDeployment)
  pure (ApprovalStore.findExecution disk.approvals gate.executionOwner executionKey (clock 0))

def preToolUse (event : Json) : HookControl PreOutput := do
  let event ← Proc.lift (snapshot site event)
  let fields ← Proc.lift (toolFields site event)
  let executionKey := gate.executionKey site event fields
  let existing ← gate.findExisting site executionKey
  match existing with
  | some approval => gate.preExisting site event approval fields executionKey
  | none => gate.preNew site event fields executionKey

/-- The remembered execution that the event reports on. -/
def correlated (data : HookExecutions) (event : List (String × Json)) (fields : ToolFields) :
    Except HookError HookExecution := do
  let execution ← orRefuse (data.lookup fields.toolUseId)
    (.state ("PostToolUse " ++ fields.toolUseId ++ " has no Defiant authorization"))
  refuseIf (execution.executionKey ≠ gate.executionKey site event fields)
    (.state "PostToolUse input differs from the authorized PreToolUse input")
  refuseIf (execution.nativeToolName ≠ fields.nativeName)
    (.state "PostToolUse tool name differs from authorization")
  pure execution

/-- Seal the reported result, and then remember that it is sealed. -/
def postAuthorized (event : List (String × Json)) (execution : HookExecution) :
    HookControl PostOutput := do
  let outcome ← control ((gate.harnessFor event).completeExternalCall site.toDeployment
    execution.action execution.request execution.decision (toolResponse event) execution.approvalId)
  let _ ← HookExecutionStore.markCompleted site execution.toolUseId outcome.evidenceRecordId
  pure (.sealed_ outcome.evidenceRecordId)

def postToolUse (event : Json) : HookControl PostOutput := do
  let event ← Proc.lift (snapshot site event)
  let fields ← Proc.lift (toolFields site event)
  -- the proxy records its own calls
  if gate.classify fields.nativeName = "proxied_mcp" then pure .delegated
  else do
    let data ← executions
    let execution ← Proc.lift (gate.correlated site data event fields)
    match execution.status with
    | .completed completionRecordId _ => pure (.sealed_ completionRecordId)
    | .authorized => gate.postAuthorized site event execution

end CopilotHookGate

/-! ### Runs -/

/-- A call of the control path that neither proposes nor executes: an operator's decision, the recovery
of an operation, or the expiry of approvals. -/
inductive Tending : Call → Prop where
  | decide (approvalId : String) (approved : Bool) (decidedBy note : String)
      (attestation : Option OperatorAttestation) :
      Tending (.decide approvalId approved decidedBy note attestation)
  | reject (approvalId decidedBy note : String) (attestation : Option OperatorAttestation) :
      Tending (.resume approvalId false decidedBy note attestation)
  | recoverOperation : Tending .recoverOperation
  | reconcileExpiredApprovals : Tending .reconcileExpiredApprovals

inductive HookCall where
  | preToolUse (gate : CopilotHookGate) (event : Json)
  | postToolUse (gate : CopilotHookGate) (event : Json)
  | tend (harness : Harness) (call : Call) (tending : Tending call)

/-- Run a call for its effect. -/
def HookCall.run (site : HookSite) : HookCall → HookControl Unit
  | .preToolUse gate event => do
    let _ ← gate.preToolUse site event
  | .postToolUse gate event => do
    let _ ← gate.postToolUse site event
  | .tend harness call _ => HookControl.control (call.run site.toDeployment harness)

/-- How far a process gets: the enforcement bases in its cache, and the durable writes it makes before
it stops, if it does. -/
structure HookProcess where
  bases : List (String × EnforcementBasis)
  writesLeft : Option Nat

namespace HookWorld

/-- A new process takes over the state directory. -/
def entered (h : HookWorld) (process : HookProcess) : HookWorld :=
  { h with world := { h.world with writesLeft := process.writesLeft, bases := process.bases } }

/-- The state after a process handled one call, however that ended. -/
def after (site : HookSite) (h : HookWorld) (process : HookProcess) (call : HookCall) : HookWorld :=
  (call.run site (h.entered process)).2

/-- The answer to an event after the tool, and the state it leaves. -/
def posted (site : HookSite) (h : HookWorld) (process : HookProcess) (gate : CopilotHookGate)
    (event : Json) : Except HookError PostOutput × HookWorld :=
  gate.postToolUse site event (h.entered process)

end HookWorld

/-- The states that sequences of events and operator calls reach. -/
inductive HookReachable (site : HookSite) : HookWorld → Prop where
  | fresh {w : World} (start : w.Fresh site.toDeployment) : HookReachable site ⟨w, ∅⟩
  | call {h : HookWorld} (reached : HookReachable site h) (process : HookProcess) (call : HookCall) :
      HookReachable site (h.after site process call)

end DefiantHarness
