import DefiantHarness.EvidenceLog

/-! The registry of tools: contracts, capability grants and the only execution path. -/
namespace DefiantHarness

open Foundation

def grantError (message : String) : HarnessError := ⟨.grant, message⟩

def toolError (message : String) : HarnessError := ⟨.tool, message⟩

inductive TargetScope where
  | any | workspace | workspacePath
deriving DecidableEq, Repr

structure ToolSpec where
  name : String
  sideEffectLevel : SideEffect
  costEstimateUsd : Decimal
  supportsDryRun : Bool
  targetScope : TargetScope
deriving DecidableEq

inductive ToolStatus where
  | succeeded | failed
deriving DecidableEq, Repr

def ToolStatus.result : ToolStatus → ResultStatus
  | .succeeded => .succeeded
  | .failed => .failed

structure ToolResult where
  status : ToolStatus
  summary : String
  output : Json
  costUsd : Decimal
  dryRun : Bool
deriving DecidableEq

/-- What a registered handler does with an action. A result object that an earlier completion has
sealed can be returned again. -/
inductive HandlerOutcome where
  | returned (result : ToolResult)
  | returnedSealed (result : ToolResult)
  | raised (summary : String)
  | invalidContract (message : String)
deriving DecidableEq

/-- Single-use authority to execute exactly one action with exactly one payload. -/
structure CapabilityGrant where
  actionId : String
  toolName : String
  authorizationHash : String
  evidenceRecordId : String
  evidenceRecordHash : String
  issuedAt : Timestamp
  grantId : String
  signature : String
  spent : Bool
deriving DecidableEq

/-- The signed part of a grant. -/
def CapabilityGrant.claims (grant : CapabilityGrant) : CapabilityGrant :=
  { grant with signature := "", spent := false }

/-- Registered tools, the checks of file targets against the workspace and the protected roots,
the handlers, and the registry's signing function. -/
structure ToolRegistry where
  specs : List ToolSpec
  checkTarget : TargetScope → String → Except HarnessError Unit
  handler : ProposedAction → HandlerOutcome
  sign : CapabilityGrant → String
  signs : ∀ grant, sign grant ≠ ""

namespace ToolRegistry

def spec (registry : ToolRegistry) (name : String) : Option ToolSpec :=
  registry.specs.find? (·.name == name)

/-- The authoritative contract of an action's tool. -/
def validateAction (registry : ToolRegistry) (action : ProposedAction) :
    Except HarnessError Unit := do
  let spec ← orRefuse (registry.spec action.toolName)
    (toolError ("tool '" ++ action.toolName ++ "' is not registered"))
  refuseIf (action.sideEffectLevel ≠ spec.sideEffectLevel)
    (toolError ("adapter classified '" ++ action.toolName ++
      "' with a side effect that the registry does not declare"))
  if spec.targetScope = .any then pure ()
  else registry.checkTarget spec.targetScope action.target

/-- Sign one grant after a sealed authorization record exists. -/
def authorize (registry : ToolRegistry) (digests : Digests) (action : ProposedAction)
    (record : EvidenceRecord) (grantId : String) (now : Timestamp) :
    Except HarnessError CapabilityGrant := do
  registry.validateAction action
  refuseIf (record.recordHash = "")
    (grantError "authorization evidence must be sealed before grant issue")
  -- the record is hashed again: its seal alone proves nothing
  refuseIf (digests.record record.body ≠ record.recordHash)
    (grantError "authorization evidence content does not match its seal")
  refuseIf (record.actionId ≠ action.actionId)
    (grantError "authorization evidence/action id mismatch")
  refuseIf (record.toolName ≠ action.toolName) (grantError "authorization evidence/tool mismatch")
  refuseIf (record.authorizationHash ≠ action.authorizationHash digests)
    (grantError "authorization evidence/action hash mismatch")
  refuseIf (record.resultStatus ≠ .skipped)
    (grantError "authorization evidence is not execution-pending")
  refuseIf (record.decision ≠ .allow ∧ record.decision ≠ .approvalRequired)
    (grantError "blocked evidence cannot authorize execution")
  let grant : CapabilityGrant :=
    { actionId := action.actionId
      toolName := action.toolName
      authorizationHash := action.authorizationHash digests
      evidenceRecordId := record.recordId
      evidenceRecordHash := record.recordHash
      issuedAt := now
      grantId := grantId
      signature := ""
      spent := false }
  -- the signature covers every claim of the grant
  pure { grant with signature := registry.sign grant.claims }

/-- Consume a grant. Raises if it does not match, or is already used. -/
def spend (digests : Digests) (grant : CapabilityGrant) (action : ProposedAction) :
    Except HarnessError CapabilityGrant := do
  refuseIf (grant.spent = true)
    (grantError ("capability grant " ++ grant.grantId ++ " already spent"))
  refuseIf (action.actionId ≠ grant.actionId) (grantError "grant/action id mismatch")
  refuseIf (action.toolName ≠ grant.toolName) (grantError "grant/tool mismatch")
  refuseIf (action.authorizationHash digests ≠ grant.authorizationHash)
    (grantError "action changed after authorization -- grant is void")
  pure { grant with spent := true }

/-- The checks before a dispatch: the grant is genuine, the contract still holds, and the grant
is spent on this action. -/
def redeem (registry : ToolRegistry) (digests : Digests) (action : ProposedAction)
    (grant : CapabilityGrant) : Except HarnessError ToolSpec := do
  refuseIf (grant.signature = "" ∨ grant.signature ≠ registry.sign grant.claims)
    (grantError ("capability grant signature is invalid; forged or cross-registry grants " ++
      "cannot execute tools"))
  registry.validateAction action
  let _ ← spend digests grant action
  orRefuse (registry.spec action.toolName)
    (toolError ("tool '" ++ action.toolName ++ "' is not registered"))

/-- The result of a dry run, which calls no handler. -/
def dryRunResult (spec : ToolSpec) (action : ProposedAction) : ToolResult :=
  -- neither branch calls the handler
  if spec.supportsDryRun then
    { status := .succeeded
      summary := "DRY RUN: would execute " ++ spec.name ++ " on " ++ action.target
      output := .obj [("dry_run", .bool true), ("target", .str action.target),
        ("payload", action.payload)]
      costUsd := .zero
      dryRun := true }
  else
    { status := .failed
      summary := "tool '" ++ spec.name ++ "' does not support dry run"
      output := .null
      costUsd := .zero
      dryRun := true }

/-- What a handler's outcome means: a failure is data, an invalid result leaves the outcome
unknown. -/
def handlerResult (spec : ToolSpec) : HandlerOutcome → Except HarnessError ToolResult
  | .returned result => pure { result with dryRun := false }
  | .returnedSealed _ => throw (valueError "sealed tool result contract fields cannot be changed")
  -- a handler that raises is charged at the estimate
  | .raised summary =>
    pure
      { status := .failed
        summary := summary
        output := .null
        costUsd := spec.costEstimateUsd
        dryRun := false }
  | .invalidContract message => throw (toolError message)

end ToolRegistry
end DefiantHarness
