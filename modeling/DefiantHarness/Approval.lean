import DefiantHarness.Attestation

/-! Approvals: what is bound at creation, and the lifecycle that later steps change. -/
namespace DefiantHarness

open Foundation

def approvalError (message : String) : HarnessError := ⟨.approval, message⟩

inductive ApprovalStatus where
  | pending | approved | rejected | expired | executing | consumed
deriving DecidableEq, Repr

def ApprovalStatus.text : ApprovalStatus → String
  | .pending => "pending"
  | .approved => "approved"
  | .rejected => "rejected"
  | .expired => "expired"
  | .executing => "executing"
  | .consumed => "consumed"

/-- Still waiting for a decision or an execution to finish. -/
def ApprovalStatus.active : ApprovalStatus → Bool
  | .pending | .approved | .executing => true
  | _ => false

/-- Everything an approval binds when it is created. The snapshots are in the normal form that
serialising gives them. -/
structure ApprovalTerms where
  actionId : String
  requestId : String
  toolName : String
  target : String
  payloadHash : String
  authorizationHash : String
  payloadPreview : String
  approvalScope : String
  reason : String
  policyIds : List String
  expiresAt : Option Timestamp
  createdAt : Timestamp
  approvalId : String
  reservedUsd : PlainDecimal
  actionSnapshot : Option ProposedAction
  requestSnapshot : Option HarnessRequest
  decisionSnapshot : Option GuardrailDecision
  executionOwner : String
  executionKey : String
deriving DecidableEq

/-- An operator's durable answer about an uncertain execution. -/
structure ReconciliationIntent where
  outcome : Outcome
  reconciledBy : String
  note : String
  startedAt : Timestamp
  attestation : Option OperatorAttestation
deriving DecidableEq

structure PendingApproval where
  terms : ApprovalTerms
  status : ApprovalStatus
  decidedBy : Option String
  decidedAt : Option Timestamp
  note : String
  decisionAttestation : Option OperatorAttestation
  executionRecordId : String
  consumedAt : Option Timestamp
  reconciliation : Option ReconciliationIntent
  reconciliationCompletedAt : Option Timestamp
deriving DecidableEq

/-- The action as a persisted snapshot gives it back. -/
def ProposedAction.snapshot (action : ProposedAction) : ProposedAction :=
  { action with estimatedCostUsd := action.estimatedCostUsd.plain.decimal }

def HarnessRequest.snapshot (request : HarnessRequest) : HarnessRequest :=
  { request with budgetLimitUsd := request.budgetLimitUsd.map (·.plain.decimal) }

@[simp] theorem ProposedAction.snapshot_surface (action : ProposedAction) :
    action.snapshot.authorizationSurface = action.authorizationSurface := by
  simp [snapshot, authorizationSurface]

/-- A persisted action keeps its authorization hash. -/
@[simp] theorem ProposedAction.snapshot_authorizationHash (digests : Digests)
    (action : ProposedAction) :
    action.snapshot.authorizationHash digests = action.authorizationHash digests := by
  simp [authorizationHash]

namespace ApprovalTerms

def requireNonEmpty (value name : String) : Except HarnessError Unit :=
  refuseIf (value = "") (approvalError (name ++ " must be non-empty"))

def checkAction (digests : Digests) (terms : ApprovalTerms) : Except HarnessError Unit :=
  refuseIf (∃ action ∈ terms.actionSnapshot,
      ¬ (action.actionId = terms.actionId ∧ action.requestId = terms.requestId ∧
        action.toolName = terms.toolName ∧ action.target = terms.target ∧
        action.payloadHash digests = terms.payloadHash ∧
        action.authorizationHash digests = terms.authorizationHash))
    (approvalError "approval action snapshot binding is invalid")

def checkDecision (terms : ApprovalTerms) : Except HarnessError Unit :=
  refuseIf (∃ decision ∈ terms.decisionSnapshot,
      ¬ (decision.reason = terms.reason ∧ decision.approvalScope = terms.approvalScope ∧
        decision.policyIds = terms.policyIds))
    (approvalError "approval decision snapshot binding is invalid")

/-- The checks on what an approval binds. -/
def validate (digests : Digests) (terms : ApprovalTerms) : Except HarnessError Unit := do
  requireNonEmpty terms.actionId "action_id"
  requireNonEmpty terms.requestId "request_id"
  requireNonEmpty terms.toolName "tool_name"
  requireNonEmpty terms.approvalId "approval_id"
  refuseIf ("" ∈ terms.policyIds) (approvalError "policy_ids must be a list of non-empty strings")
  -- an owner without a key could never be found again
  refuseIf (decide (terms.executionOwner = "") ≠ decide (terms.executionKey = ""))
    (approvalError "execution_owner and execution_key must be supplied together")
  terms.checkAction digests
  refuseIf (∃ request ∈ terms.requestSnapshot, request.requestId ≠ terms.requestId)
    (approvalError "approval request snapshot binding is invalid")
  terms.checkDecision
  let _ ← money terms.reservedUsd.decimal "reserved_usd"

end ApprovalTerms

namespace PendingApproval

def approvalId (approval : PendingApproval) : String := approval.terms.approvalId

def actionId (approval : PendingApproval) : String := approval.terms.actionId

/-- A new approval waits for its decision. -/
def pending (terms : ApprovalTerms) : PendingApproval :=
  { terms := terms
    status := .pending
    decidedBy := none
    decidedAt := none
    note := ""
    decisionAttestation := none
    executionRecordId := ""
    consumedAt := none
    reconciliation := none
    reconciliationCompletedAt := none }

def isExpired (approval : PendingApproval) (now : Timestamp) : Bool :=
  match approval.terms.expiresAt with
  | none => false
  | some expiresAt => expiresAt ≤ now

def checkDecided (approval : PendingApproval) : Except HarnessError Unit :=
  refuseIf (approval.status ∈ [.approved, .executing, .consumed, .rejected] ∧
      (approval.decidedBy.getD "" = "" ∨ approval.decidedAt = none))
    (approvalError (approval.status.text ++
      " approval requires operator identity and decision time"))

def checkConsumed (approval : PendingApproval) : Except HarnessError Unit := do
  refuseIf (approval.status ∈ [.consumed, .rejected, .expired] ∧ approval.consumedAt = none)
    (approvalError (approval.status.text ++ " approval requires consumed_at"))
  refuseIf (approval.status = .consumed ∧ approval.executionRecordId = "")
    (approvalError "consumed approval requires execution evidence")

def checkIntent (approval : PendingApproval) : Except HarnessError Unit :=
  match approval.reconciliation with
  | none => pure ()
  | some intent => do
    refuseIf (strip intent.reconciledBy = "") (approvalError "reconciled_by must be non-empty")
    refuseIf (strip intent.note = "") (approvalError "reconciliation_note must be non-empty")
    refuseIf (approval.status ≠ .executing ∧ approval.status ≠ .consumed)
      (approvalError "reconciliation intent requires executing or consumed status")

def checkCompletion (approval : PendingApproval) : Except HarnessError Unit :=
  if approval.reconciliationCompletedAt.isSome then do
    refuseIf (approval.reconciliation = none)
      (approvalError "completed reconciliation is missing its durable intent")
    refuseIf (approval.status ≠ .consumed ∨ approval.executionRecordId = "")
      (approvalError "completed reconciliation requires consumed status and evidence")
  else
    refuseIf (approval.status = .consumed ∧ approval.reconciliation.isSome = true)
      (approvalError "consumed reconciliation is missing completion time")

/-- The checks on the lifecycle fields, repeated at every update. -/
def validate (approval : PendingApproval) : Except HarnessError Unit := do
  approval.checkDecided
  approval.checkConsumed
  approval.checkIntent
  approval.checkCompletion

/-- An updated approval is rebuilt through validation. The terms are not updated, and were
validated when the approval was created. -/
def checked (approval : PendingApproval) : Except HarnessError PendingApproval := do
  approval.validate
  pure approval

def heldAction (approval : PendingApproval) : Except HarnessError ProposedAction :=
  orRefuse approval.terms.actionSnapshot
    (approvalError ("approval " ++ approval.approvalId ++ " has no durable action snapshot"))

def heldRequest (approval : PendingApproval) : Except HarnessError HarnessRequest :=
  orRefuse approval.terms.requestSnapshot
    (approvalError ("approval " ++ approval.approvalId ++ " has no durable request snapshot"))

def heldDecision (approval : PendingApproval) : Except HarnessError GuardrailDecision :=
  orRefuse approval.terms.decisionSnapshot
    (approvalError ("approval " ++ approval.approvalId ++ " has no durable decision snapshot"))

end PendingApproval
end DefiantHarness
