import DefiantHarness.Recovery
import DefiantHarness.StateIntegrity

/-! The control loop: proposals, approvals, executions and reconciliations over the stores. -/
namespace DefiantHarness

open Foundation

/-- What the policy sees of a request. -/
structure PolicyContext where
  sensitivity : Sensitivity
  taskType : String
  workspaceId : String
deriving DecidableEq

/-- A loaded ruleset. -/
structure PolicyEngine where
  version : String
  rulesetHash : String
  authorityInputs : Json
  evaluate : ProposedAction → PolicyContext → Timestamp → Except HarnessError GuardrailDecision

/-- What feeds tool calls into the harness. -/
structure AgentAdapter where
  runnerName : String
  modelId : String
  toAction : ToolCall → String → Except HarnessError ProposedAction

/-- One control process. -/
structure Harness where
  policy : PolicyEngine
  tools : ToolRegistry
  adapter : AgentAdapter
  dryRun : Bool
  executionDisabled : Bool
  evidenceBasis : EnforcementBasis

structure ActionOutcome where
  action : ProposedAction
  decision : GuardrailDecision
  status : ResultStatus
  evidenceRecordId : String
  approvalId : String := ""
  result : Option ToolResult := none
  detail : String := ""

structure AuthorizationReconciliationOutcome where
  authorityRecordId : String
  actionId : String
  requestId : String
  status : ResultStatus
  evidenceRecordId : String
  detail : String

/-- The optional parts of a new evidence record. -/
structure RecordDetails where
  approvedBy : Option String := none
  result : Option ToolResult := none
  detail : String := ""
  reconciliation : Option ReconciliationIntent := none
  budgetRemainingUsd : Option Decimal := none

def harnessError (message : String) : HarnessError := ⟨.harness, message⟩

namespace Harness

variable (site : Deployment) (harness : Harness)

def requireExecutionEnabled : Except HarnessError Unit :=
  refuseIf (harness.executionDisabled = true)
    (harnessError "operator-control harness cannot execute or authorize tool actions")

def context (request : HarnessRequest) : PolicyContext :=
  ⟨request.sensitivity, request.taskType, request.workspaceId⟩

/-! ### Decisions -/

/-- A decision that the control loop itself takes. -/
def controlDecision (action : ProposedAction) (reason policyId : String)
    (extraInputs : List (String × Json)) : Control GuardrailDecision := do
  let clock ← Control.now site
  let decision : GuardrailDecision :=
    { decision := .block
      reason := reason
      policyIds := [policyId]
      policyVersion := harness.policy.version
      rulesetHash := harness.policy.rulesetHash
      approvalScope := ""
      expiresAt := none
      redactions := []
      decisionInputs := .obj ([("tool_name", .str action.toolName), ("target", .str action.target),
        ("authorization_hash", .str (action.authorizationHash site.digests)),
        ("authority_inputs", harness.policy.authorityInputs)] ++ extraInputs)
      decidedAt := clock 0 }
  Proc.lift decision.validate
  pure decision

def evaluate (action : ProposedAction) (request : HarnessRequest) : Control GuardrailDecision := do
  let clock ← Control.now site
  let decision ← Proc.lift (harness.policy.evaluate action (context request) (clock 0))
  Proc.lift decision.validate
  Control.note (.evaluated action decision)
  pure decision

def toolContractError (action : ProposedAction) : Option String :=
  match harness.tools.validateAction action with
  | .ok () => none
  | .error e => some e.message

def specCost (action : ProposedAction) : Decimal :=
  ((harness.tools.spec action.toolName).map (·.costEstimateUsd)).getD .zero

/-- The larger of two amounts, the first one when they are equal. -/
def larger (a b : Decimal) : Decimal := if a.lt b then b else a

/-! ### Evidence records -/

/-- Remember the enforcement basis of an action; at most 1024 are kept. -/
def rememberBasis (actionId : String) (basis : EnforcementBasis) : Control EnforcementBasis :=
  fun w =>
    let kept := w.bases.filter (·.1 ≠ actionId) ++ [(actionId, basis)]
    (.ok basis, { w with bases := if 1024 < kept.length then kept.drop 1 else kept })

def originBasis (records : List EvidenceRecord) (actionId : String) : EnforcementBasis :=
  match EvidenceLog.firstByAction records actionId with
  | some record => record.enforcementBasis
  | none => harness.evidenceBasis

def basisForAction (actionId : String) : Control EnforcementBasis := do
  let w ← Proc.get
  match w.bases.find? (·.1 == actionId) with
  | some known => rememberBasis actionId known.2
  | none => rememberBasis actionId (harness.originBasis w.disk.records actionId)

/-- The available balance, unless the caller supplies what will remain. -/
def remainingBudget (ledger : Ledger) (supplied : Option Decimal) : Except HarnessError Decimal :=
  match supplied with
  | some remaining => pure remaining
  | none => ledger.balanceUsd

def makeRecord (action : ProposedAction) (request : HarnessRequest) (decision : GuardrailDecision)
    (status : ResultStatus) (details : RecordDetails) : Control EvidenceRecord := do
  let basis ← harness.basisForAction action.actionId
  let clock ← Control.now site
  let disk ← Control.disk
  let remaining ← Proc.lift (remainingBudget disk.ledger details.budgetRemainingUsd)
  let recordId ← Control.newId site "evd"
  let record : EvidenceRecord :=
    { requestId := request.requestId
      actionId := action.actionId
      decision := decision.decision
      resultStatus := status
      recordId := recordId
      timestamp := clock 1
      agentRunner := harness.adapter.runnerName
      modelId := harness.adapter.modelId
      userId := request.userId
      workspaceId := request.workspaceId
      toolName := action.toolName
      target := action.target
      sideEffectLevel := action.sideEffectLevel
      policyIds := decision.policyIds
      policyVersion := decision.policyVersion
      rulesetHash := decision.rulesetHash
      decisionReason := decision.reason
      decisionInputs := decision.decisionInputs
      approvedBy := details.approvedBy
      approvedAt := if details.approvedBy.getD "" = "" then none else some (clock 0)
      payloadHash := action.payloadHash site.digests
      authorizationHash := action.authorizationHash site.digests
      payloadTrust := action.payloadTrust
      inputRefs := action.payloadSources
      outputHash := (details.result.map (site.digests.output ·.output)).getD ""
      resultSummary := if details.detail = "" then (details.result.map (·.summary)).getD ""
        else details.detail
      costUsd := ((details.result.map (·.costUsd)).getD Decimal.zero).plain
      budgetRemainingUsd := some remaining.plain
      dryRun := (details.result.map (·.dryRun)).getD harness.dryRun
      reconciliationOutcome := details.reconciliation.map (·.outcome)
      reconciledBy := (details.reconciliation.map (·.reconciledBy)).getD ""
      reconciledAt := details.reconciliation.map (·.startedAt)
      reconciliationNote := (details.reconciliation.map (·.note)).getD ""
      previousRecordHash := ""
      recordHash := ""
      enforcementBasis := basis }
  Proc.lift record.validate
  pure record

def record (action : ProposedAction) (request : HarnessRequest) (decision : GuardrailDecision)
    (status : ResultStatus) (details : RecordDetails) : Control EvidenceRecord := do
  let prepared ← harness.makeRecord site action request decision status details
  EvidenceStore.append site prepared

/-- Record a refusal. -/
def refuse (action : ProposedAction) (request : HarnessRequest) (decision : GuardrailDecision) :
    Control ActionOutcome := do
  let record ← harness.record site action request decision .blocked { detail := decision.reason }
  pure
    { action := action, decision := decision, status := .blocked
      evidenceRecordId := record.recordId, detail := decision.reason }

/-- Journal one operation and carry it out. -/
def commit (payload : OperationPayload) (evidence : EvidenceRecord) : Control Unit := do
  let operation ← OperationJournal.prepare site payload evidence
  recoverPrepared site operation

/-! ### Execution -/

def authorizeExternal (action : ProposedAction) (request : HarnessRequest)
    (decision : GuardrailDecision) (approvedBy : Option String) (approvalId : String) :
    Control ActionOutcome := do
  let record ← harness.record site action request decision .skipped
    { approvedBy := approvedBy, detail := "authorized; external execution pending" }
  pure
    { action := action, decision := decision, status := .skipped
      evidenceRecordId := record.recordId, approvalId := approvalId
      detail := "authorized; external execution pending" }

/-- The checks on a returned result, before its cost is chosen and its output is hashed. -/
def validateResult (result : ToolResult) : Except HarnessError Unit := do
  let _ ← money result.costUsd "tool result cost_usd"
  refuseIf (site.limits.result result = false) (toolError "tool result exceeds its limits")

/-- The cost that completes an execution: a reported positive cost, or the estimate. -/
def actualCost (result : ToolResult) (estimate : Decimal) : Decimal :=
  if result.dryRun then .zero
  else if Decimal.zero.lt result.costUsd then result.costUsd
  else estimate

def completionDisposition (estimate actual : Decimal) : BudgetDisposition :=
  if Decimal.zero.lt estimate = true ∨ Decimal.zero.lt actual = true then .settle else .none

def completionRemaining (ledger : Ledger) (disposition : BudgetDisposition)
    (estimate actual : Decimal) (requestId actionId : String) : Except HarnessError Decimal :=
  match disposition with
  | .settle => ledger.previewSettlement estimate actual requestId actionId
  | .none => ledger.balanceUsd

/-- Journal a known tool result before completing local state. -/
def completeKnownResult (authorization : EvidenceRecord) (action : ProposedAction)
    (request : HarnessRequest) (decision : GuardrailDecision) (result : ToolResult)
    (estimate : Decimal) (approvedBy : Option String) (approvalId : String) :
    Control EvidenceRecord := do
  Proc.lift (validateResult site result)
  let actual := actualCost result estimate
  let result := { result with costUsd := actual }
  let disposition := completionDisposition estimate actual
  let disk ← Control.disk
  -- the note is for the history of the model only
  Control.note (.completing request.requestId action.actionId estimate actual disk)
  let remaining ← Proc.lift (completionRemaining disk.ledger disposition estimate actual
    request.requestId action.actionId)
  let record ← harness.makeRecord site action request decision result.status.result
    { approvedBy := approvedBy, result := some result, detail := result.summary
      budgetRemainingUsd := some remaining }
  let subject ← Proc.lift (ExecutionCompletionSubject.fromRecord authorization)
  -- one journaled operation settles the money, closes the approval and seals the record
  commit site (.executionComplete subject approvalId estimate actual disposition) record
  pure record

/-- The only execution path: a genuine grant, spent on exactly this action. -/
def dispatch (action : ProposedAction) (grant : CapabilityGrant) : Control ToolResult := do
  let spec ← Proc.lift (harness.tools.redeem site.digests action grant)
  if harness.dryRun then pure (ToolRegistry.dryRunResult spec action)
  else do
    let disk ← Control.disk
    Control.note (.dispatched action disk)
    Proc.lift (ToolRegistry.handlerResult spec (harness.tools.handler action))

def execute (action : ProposedAction) (request : HarnessRequest) (decision : GuardrailDecision)
    (estimate : Decimal) (approvedBy : Option String) (approvalId : String) :
    Control ActionOutcome := do
  -- the authorization is sealed and durable before any grant exists
  let authorization ← harness.record site action request decision .skipped
    { approvedBy := approvedBy, detail := "authorized; execution pending" }
  let clock ← Control.now site
  let grantId ← Control.newId site "grant"
  let grant ← Proc.lift (harness.tools.authorize site.digests action authorization grantId (clock 0))
  let result ← harness.dispatch site action grant
  let final ← harness.completeKnownResult site authorization action request decision result estimate
    approvedBy approvalId
  pure
    { action := action, decision := decision, status := final.resultStatus
      evidenceRecordId := final.recordId, approvalId := approvalId, result := some result
      detail := result.summary }

/-! ### Entry points -/

def requireSafe : Control Unit := do
  let w ← Proc.get
  let _ ← Control.now site
  Proc.lift (StateIntegrity.requireSafe site w.readings w.disk)

/-- What an approval holds, sealed again. -/
def held (approval : PendingApproval) :
    Except HarnessError (ProposedAction × HarnessRequest × GuardrailDecision) := do
  let action ← approval.heldAction
  action.sealFingerprints site.limits.contract
  let request ← approval.heldRequest
  request.sealContract site.limits.contract
  let decision ← approval.heldDecision
  pure (action, request, decision)

def availableAfter (ledger : Ledger) (returned : Decimal) : Except HarnessError Decimal := do
  let balance ← ledger.balanceUsd
  plus balance returned

/-- Expire one due approval. An approval without snapshots is left unchanged. -/
def expireApproval (approval : PendingApproval) : Control (Option ActionOutcome) :=
  match held site approval with
  -- an approval that holds no snapshots is left for an operator
  | .error e => if e.kind = .approval then pure none else Proc.raise e
  | .ok (action, request, decision) => do
    let disk ← Control.disk
    let remaining ← Proc.lift (availableAfter disk.ledger approval.terms.reservedUsd.decimal)
    let detail := "approval expired at " ++ ApprovalStore.expiryText approval
    let record ← harness.makeRecord site action request decision .expired
      { detail := detail, budgetRemainingUsd := some remaining }
    commit site (.approvalExpire approval.approvalId approval.actionId approval.terms.requestId
      approval.terms.reservedUsd) record
    pure (some
      { action := action, decision := decision, status := .expired
        evidenceRecordId := record.recordId, approvalId := approval.approvalId, detail := detail })

def reconcileExpiredApprovals : Control (List ActionOutcome) := do
  let _ ← recoverOperation site
  requireSafe site
  let disk ← Control.disk
  let clock ← Control.now site
  let outcomes ← Proc.each (harness.expireApproval site) (ApprovalStore.due disk.approvals (clock 0))
  pure (outcomes.filterMap id)

/-- The checks that open every entry point that acts on live approvals. -/
def settleAndCheck : Control Unit := do
  let _ ← recoverOperation site
  let _ ← harness.reconcileExpiredApprovals site
  requireSafe site

def optionalAmount : Option Decimal → Json
  | some amount => .str amount.plain.text
  | none => .null

/-- A refusal when the estimate exceeds the budget. -/
def budgetRefusal (action : ProposedAction) (request : HarnessRequest) (estimate : Decimal) :
    Control (Option GuardrailDecision) :=
  -- a free action is never refused for its budget
  if Decimal.zero.lt estimate then do
    let disk ← Control.disk
    let check ← Proc.lift (disk.ledger.preflight estimate request.budgetLimitUsd)
    if check.ok then pure none
    else do
      let decision ← harness.controlDecision site action ("budget: " ++ check.reason) "budget_limit"
        [("estimate_usd", .str check.estimateUsd.plain.text),
          ("remaining_usd", .str check.remainingUsd.plain.text),
          ("request_limit_usd", optionalAmount request.budgetLimitUsd)]
      pure (some decision)
  else pure none

/-- Hold an action for approval. -/
def hold (action : ProposedAction) (request : HarnessRequest) (decision : GuardrailDecision)
    (estimate : Decimal) (executionOwner executionKey : String) : Control ActionOutcome := do
  let approvalId ← Control.newId site "apr"
  let clock ← Control.now site
  -- the approval is prepared in memory; the journal's operation stores it
  let pending ← Proc.lift (site.approvals.prepare site.digests site.preview action decision.reason
    decision.approvalScope decision.policyIds none (some request) (some decision) estimate
    executionOwner executionKey approvalId clock)
  let disk ← Control.disk
  let balance ← Proc.lift disk.ledger.balanceUsd
  let remaining ← Proc.lift (minus balance estimate)
  let record ← harness.makeRecord site action request decision .pendingApproval
    { detail := "held for approval " ++ approvalId, budgetRemainingUsd := some remaining }
  commit site (.approvalCreate pending pending.terms.reservedUsd) record
  pure
    { action := action, decision := decision, status := .pendingApproval
      evidenceRecordId := record.recordId, approvalId := approvalId, detail := decision.reason }

/-- Reserve the estimate, then authorize or execute. -/
def proceed (action : ProposedAction) (request : HarnessRequest) (decision : GuardrailDecision)
    (estimate : Decimal) (externalExecution : Bool) : Control ActionOutcome := do
  ifFunded site estimate fun ledger clock =>
    ledger.reserve site.limits.budget estimate request.requestId action.actionId clock
  if externalExecution then harness.authorizeExternal site action request decision none ""
  else harness.execute site action request decision estimate none ""

/-- Decide a new action that the policy does not block. -/
def fund (action : ProposedAction) (request : HarnessRequest) (decision : GuardrailDecision)
    (executionOwner executionKey : String) (externalExecution : Bool) : Control ActionOutcome := do
  -- an action may not understate what its tool costs
  let estimate := larger action.estimatedCostUsd (harness.specCost action)
  let refusal ← harness.budgetRefusal site action request estimate
  match refusal with
  | some blocked => harness.refuse site action request blocked
  | none =>
    if decision.decision = .approvalRequired then
      harness.hold site action request decision estimate executionOwner executionKey
    else harness.proceed site action request decision estimate externalExecution

def scopeReason (action : ProposedAction) : String :=
  "tool '" ++ action.toolName ++ "' is not in this request's allowed_tools"

/-- Decide an action that no evidence mentions yet. -/
def decideNew (action : ProposedAction) (request : HarnessRequest)
    (executionOwner executionKey : String) (externalExecution : Bool) : Control ActionOutcome :=
  match harness.toolContractError action with
  | some reason => do
    let decision ← harness.controlDecision site action reason "tool_contract" []
    harness.refuse site action request decision
  | none =>
    -- an empty scope allows every tool
    if request.allowedTools ≠ [] ∧ action.toolName ∉ request.allowedTools then do
      let decision ← harness.controlDecision site action (scopeReason action) "request_scope"
        [("allowed_tools", .arr (request.allowedTools.map .str))]
      harness.refuse site action request decision
    else do
      let decision ← harness.evaluate site action request
      if decision.decision = .block then harness.refuse site action request decision
      else harness.fund site action request decision executionOwner executionKey externalExecution

/-- The initial control loop. -/
def handle (action : ProposedAction) (request : HarnessRequest)
    (executionOwner executionKey : String) (externalExecution : Bool) : Control ActionOutcome := do
  Proc.lift (request.sealContract site.limits.contract)
  Proc.lift (action.sealFingerprints site.limits.contract)
  harness.settleAndCheck site
  let disk ← Control.disk
  let _ ← rememberBasis action.actionId (harness.originBasis disk.records action.actionId)
  if (EvidenceLog.firstByAction disk.records action.actionId).isSome then do
    let decision ← harness.controlDecision site action "duplicate action_id; replay refused"
      "duplicate_action" []
    harness.refuse site action request decision
  else harness.decideNew site action request executionOwner executionKey externalExecution

/-- The part that a handled call and a preflight share. -/
def propose (call : ToolCall) (request : HarnessRequest) (executionOwner executionKey : String)
    (externalExecution : Bool) : Control ActionOutcome := do
  Proc.lift harness.requireExecutionEnabled
  Proc.lift (request.sealContract site.limits.contract)
  Proc.lift (refuseIf (site.limits.call call = false) (valueError "tool call exceeds its limits"))
  let action ← Proc.lift (harness.adapter.toAction call request.requestId)
  harness.handle site action request executionOwner executionKey externalExecution

def handleCall (call : ToolCall) (request : HarnessRequest) (executionOwner executionKey : String) :
    Control ActionOutcome :=
  harness.propose site call request executionOwner executionKey false

/-- Authorize an externally executed tool without claiming that it already ran. -/
def preflightExternalCall (call : ToolCall) (request : HarnessRequest)
    (executionOwner executionKey : String) : Control ActionOutcome :=
  harness.propose site call request executionOwner executionKey true

/-- The mechanical and policy boundaries, checked again when an approval is resumed. -/
def resumeDecision (action : ProposedAction) (request : HarnessRequest) :
    Control GuardrailDecision :=
  match harness.toolContractError action with
  | some reason => harness.controlDecision site action reason "tool_contract" []
  | none =>
    if request.allowedTools ≠ [] ∧ action.toolName ∉ request.allowedTools then
      harness.controlDecision site action (scopeReason action) "request_scope" []
    else harness.evaluate site action request

/-- The decision that counts now: a changed ruleset blocks. -/
def currentDecision (action : ProposedAction) (request : HarnessRequest)
    (original : GuardrailDecision) : Control GuardrailDecision :=
  if original.rulesetHash ≠ harness.policy.rulesetHash then
    harness.controlDecision site action
      ("loaded policy ruleset differs from the ruleset that created this approval; explicit " ++
        "re-proposal is required") "policy_changed"
      [("approved_ruleset_hash", .str original.rulesetHash),
        ("current_ruleset_hash", .str harness.policy.rulesetHash)]
  else harness.resumeDecision site action request

/-- Claim the approval. An approval that has expired meanwhile is written as expired first. -/
def claim (approvalId : String) (action : ProposedAction) : Control PendingApproval := do
  let w ← Proc.get
  Control.note (.claiming approvalId (site.clock w.readings 0) w.disk)
  let answer ← Control.onApprovals site fun approvals clock =>
    site.approvals.beginExecution site.digests approvals approvalId action clock
  Proc.lift answer

def releaseReservation (approval : PendingApproval) : Control Unit := do
  let disk ← Control.disk
  let live ← Proc.lift (disk.ledger.reservationFor approval.actionId)
  ifFunded site live fun ledger clock =>
    ledger.release site.limits.budget approval.terms.requestId approval.actionId clock

/-- Close an approval whose action is now blocked. -/
def closeBlocked (approval : PendingApproval) (action : ProposedAction) (request : HarnessRequest)
    (decision : GuardrailDecision) (approvedBy : Option String) : Control ActionOutcome := do
  -- money first, then the record, then the approval: a crash leaves it executing
  releaseReservation site approval
  let record ← harness.record site action request decision .blocked
    { approvedBy := approvedBy, detail := decision.reason }
  let _ ← Control.onApprovals site fun approvals clock =>
    site.approvals.markConsumed approvals approval.approvalId record.recordId clock
  pure
    { action := action, decision := decision, status := .blocked
      evidenceRecordId := record.recordId, approvalId := approval.approvalId
      detail := decision.reason }

def lookupApproval (approvalId : String) : Control PendingApproval := do
  let disk ← Control.disk
  Proc.lift (orRefuse (disk.approvals.lookup approvalId) (ApprovalStore.unknown approvalId))

/-- Authorize an approved exact retry for execution by another runtime. -/
def resumeExternal (approvalId : String) : Control ActionOutcome := do
  Proc.lift harness.requireExecutionEnabled
  harness.settleAndCheck site
  let pending ← lookupApproval approvalId
  Proc.lift (refuseIf (pending.status = .executing) (approvalError ("approval " ++ approvalId ++
    " is already executing; prior external outcome is uncertain")))
  Proc.lift (refuseIf (pending.status ≠ .approved) (approvalError ("approval " ++ approvalId ++
    " is " ++ pending.status.text ++ ", not approved")))
  let (action, request, original) ← Proc.lift (held site pending)
  -- the rules may have changed since the approval
  let decision ← harness.currentDecision site action request original
  let _ ← claim site approvalId action
  if decision.decision = .block then
    harness.closeBlocked site pending action request decision pending.decidedBy
  else harness.authorizeExternal site action request decision pending.decidedBy approvalId

/-- The latest sealed authorization of exactly this action. -/
def matchingAuthorization (records : List EvidenceRecord) (actionId authorizationHash : String) :
    Option EvidenceRecord :=
  (EvidenceLog.byAction records actionId).reverse.find? fun record =>
    record.resultStatus == .skipped && record.authorizationHash == authorizationHash

/-- The statuses that a completion by an external runtime takes for a terminal outcome. -/
def externallyTerminal : ResultStatus → Bool
  | .succeeded | .failed | .blocked | .rejected | .expired => true
  | _ => false

/-- The identity that approved an external execution. -/
def externalApprover (approvals : Approvals) (approvalId : String) (action : ProposedAction) :
    Except HarnessError (Option String) :=
  -- an allowed call needed no approval
  if approvalId = "" then pure none
  else do
    let approval ← orRefuse (approvals.lookup approvalId) (ApprovalStore.unknown approvalId)
    refuseIf (approval.status ≠ .executing) (ApprovalStore.notExecuting approvalId approval.status)
    refuseIf (approval.reconciliation.isSome = true)
      (approvalError ("approval " ++ approvalId ++ " has operator reconciliation in progress"))
    refuseIf (approval.actionId ≠ action.actionId)
      (approvalError "approval does not belong to external action")
    refuseIf (approval.terms.authorizationHash ≠ action.authorizationHash site.digests)
      (approvalError "external action changed after approval")
    pure approval.decidedBy

/-- The checks of a reported result against its sealed authorization. -/
def checkExternalCompletion (records : List EvidenceRecord) (authorization : EvidenceRecord)
    (request : HarnessRequest) (decision : GuardrailDecision) : Except HarnessError Unit := do
  refuseIf (authorization.requestId ≠ request.requestId)
    (toolError "external completion request does not match")
  refuseIf (authorization.decision ≠ decision.decision)
    (toolError "external completion decision does not match")
  refuseIf (authorization.rulesetHash ≠ decision.rulesetHash)
    (toolError "external completion ruleset does not match")
  -- each external action completes once
  refuseIf (∃ record ∈ EvidenceLog.byAction records authorization.actionId,
      externallyTerminal record.resultStatus = true)
    (toolError "external action already has a terminal outcome")

/-- Seal a successful result reported by a matching post-tool hook. -/
def completeExternalCall (action : ProposedAction) (request : HarnessRequest)
    (decision : GuardrailDecision) (toolResponse : Json) (approvalId : String) :
    Control ActionOutcome := do
  Proc.lift harness.requireExecutionEnabled
  let _ ← recoverOperation site
  requireSafe site
  Proc.lift (request.sealContract site.limits.contract)
  Proc.lift (action.sealFingerprints site.limits.contract)
  let disk ← Control.disk
  let authorization ← Proc.lift (orRefuse
    (matchingAuthorization disk.records action.actionId (action.authorizationHash site.digests))
    (toolError "external completion has no matching sealed authorization"))
  let _ ← rememberBasis action.actionId (harness.originBasis disk.records action.actionId)
  Proc.lift (checkExternalCompletion disk.records authorization request decision)
  let result : ToolResult :=
    { status := .succeeded, summary := "external tool " ++ action.toolName ++ " completed"
      output := toolResponse, costUsd := .zero, dryRun := false }
  let approvedBy ← Proc.lift (externalApprover site disk.approvals approvalId action)
  -- the reservation is read before the result is recorded, which releases it
  let estimate ← Proc.lift (disk.ledger.reservationFor action.actionId)
  let record ← harness.completeKnownResult site authorization action request decision result estimate
    approvedBy approvalId
  pure
    { action := action, decision := decision, status := .succeeded
      evidenceRecordId := record.recordId, approvalId := approvalId, result := some result
      detail := result.summary }

/-- Reject a pending approval. -/
def reject (pending : PendingApproval) (action : ProposedAction) (request : HarnessRequest)
    (original : GuardrailDecision) (decidedBy note : String)
    (attestation : Option OperatorAttestation) : Control ActionOutcome := do
  let disk ← Control.disk
  let clock ← Control.now site
  -- the operator is checked before anything is written
  let (decidedBy, note) ← Proc.lift (site.approvals.validateDecision disk.approvals
    pending.approvalId false decidedBy note attestation clock)
  let remaining ← Proc.lift (availableAfter disk.ledger pending.terms.reservedUsd.decimal)
  let record ← harness.makeRecord site action request original .rejected
    { approvedBy := some decidedBy
      detail := if note = "" then "rejected by human reviewer" else note
      budgetRemainingUsd := some remaining }
  commit site (.approvalReject pending.approvalId pending.actionId pending.terms.requestId
    pending.terms.reservedUsd decidedBy note attestation) record
  pure
    { action := action, decision := original, status := .rejected
      evidenceRecordId := record.recordId, approvalId := pending.approvalId, detail := "rejected" }

/-- Carry out an approved action, or close its approval when it is now blocked. -/
def carryOut (approvalId : String) (pending : PendingApproval) (action : ProposedAction)
    (request : HarnessRequest) (original : GuardrailDecision) (decidedBy : String) :
    Control ActionOutcome := do
  let decision ← harness.currentDecision site action request original
  -- the claim is the point of no return: no second execution can start
  let _ ← claim site approvalId action
  if decision.decision = .block then
    harness.closeBlocked site pending action request decision (some decidedBy)
  else do
    let disk ← Control.disk
    let estimate ← Proc.lift (disk.ledger.reservationFor action.actionId)
    harness.execute site action request decision estimate (some decidedBy) approvalId

def uncertain (approvalId : String) : HarnessError :=
  approvalError ("approval " ++ approvalId ++ " was already marked executing; refusing automatic " ++
    "replay because the prior outcome is uncertain")

/-- Take a decision in the approval store. -/
def decideApproval (approvalId : String) (approved : Bool) (decidedBy note : String)
    (attestation : Option OperatorAttestation) : Control PendingApproval := do
  let disk ← Control.disk
  Control.note (.deciding approvalId approved disk)
  Control.onApprovals site fun approvals clock =>
    site.approvals.decide approvals approvalId approved decidedBy note attestation clock

/-- Record an operator's approval of a pending action. -/
def approvePending (pending : PendingApproval) (decidedBy note : String)
    (attestation : Option OperatorAttestation) : Control PendingApproval :=
  if pending.status = .pending then
    decideApproval site pending.approvalId true decidedBy note attestation
  else pure pending

/-- Decide a held action, and carry it out when it is approved. -/
def resume (approvalId : String) (approved : Bool) (decidedBy note : String)
    (attestation : Option OperatorAttestation) : Control ActionOutcome := do
  Proc.lift (if approved then harness.requireExecutionEnabled else pure ())
  harness.settleAndCheck site
  let pending ← lookupApproval approvalId
  -- the outcome of a started execution is for an operator to settle
  Proc.lift (refuseIf (pending.status = .executing) (uncertain approvalId))
  Proc.lift (refuseIf (pending.status.active = false) (approvalError ("approval " ++ approvalId ++
    " is already " ++ pending.status.text ++ "; cannot resume")))
  let (action, request, original) ← Proc.lift (held site pending)
  if approved then do
    let pending ← approvePending site pending decidedBy note attestation
    harness.carryOut site approvalId pending action request original decidedBy
  else do
    Proc.lift (refuseIf (pending.status ≠ .pending)
      (approvalError "an approved action cannot later be rejected"))
    harness.reject site pending action request original decidedBy note attestation

/-! ### Reconciliation -/

/-- What an existing terminal record says about the outcome. -/
def observedOutcome : ResultStatus → Option Outcome
  | .succeeded => some .succeeded
  | .failed => some .failed
  | .notExecuted | .blocked | .rejected | .expired => some .notExecuted
  | .skipped | .pendingApproval => none

/-- The result that a reconciliation records for an execution that happened. -/
def reconciledResult (outcome : Outcome) (charged : Decimal) : Option ToolResult :=
  match outcome with
  | .notExecuted => none
  | .succeeded => some
    { status := .succeeded, summary := "operator reconciled an uncertain execution as succeeded"
      output := .obj [("operator_reconciled", .bool true)], costUsd := charged, dryRun := false }
  | .failed => some
    { status := .failed, summary := "operator reconciled an uncertain execution as failed"
      output := .obj [("operator_reconciled", .bool true)], costUsd := charged, dryRun := false }

/-- The terminal record of the authorization, appended when there is none. -/
def reconciledRecord (terminal : Option EvidenceRecord) (approval : PendingApproval)
    (action : ProposedAction) (request : HarnessRequest) (decision : GuardrailDecision)
    (outcome : Outcome) (budget : Reconciliation) : Control EvidenceRecord :=
  match terminal with
  | some record => pure record
  | none => harness.record site action request decision outcome.status
    { approvedBy := approval.decidedBy
      result := reconciledResult outcome budget.chargedUsd.decimal
      detail := "operator reconciliation: " ++ outcome.text ++ "; budget " ++ budget.disposition.text
      reconciliation := approval.reconciliation }

/-- Terminally reconcile an approval stranded in `executing`. -/
def reconcileExecution (approvalId : String) (outcome : Outcome) (reconciledBy note : String)
    (attestation : Option OperatorAttestation) : Control ActionOutcome := do
  let _ ← recoverOperation site
  requireSafe site
  let disk ← Control.disk
  let existing ← lookupApproval approvalId
  let action ← Proc.lift existing.heldAction
  Proc.lift (action.sealFingerprints site.limits.contract)
  -- an earlier attempt may have sealed the record and stopped
  let terminal := EvidenceLog.latestTerminal disk.records action.actionId
    (action.authorizationHash site.digests)
  Proc.lift (refuseIf (∃ record ∈ terminal, observedOutcome record.resultStatus ≠ some outcome)
    (approvalError "operator outcome conflicts with the existing terminal evidence"))
  let approval ← Control.onApprovals site fun approvals clock =>
    site.approvals.beginReconciliation approvals approvalId outcome reconciledBy note attestation
      clock
  let request ← Proc.lift approval.heldRequest
  Proc.lift (request.sealContract site.limits.contract)
  let decision ← Proc.lift approval.heldDecision
  -- the reconciler and the note are those of the stored intent, not of this call
  let budget ← Control.onLedger site fun ledger clock =>
    ledger.reconcileReservation site.limits.budget approval.terms.reservedUsd.decimal
      approval.terms.requestId approval.actionId outcome
      ((approval.reconciliation.map (·.reconciledBy)).getD "")
      ((approval.reconciliation.map (·.note)).getD "") none clock
  let record ← harness.reconciledRecord site terminal approval action request decision outcome budget
  let _ ← Control.onApprovals site fun approvals clock =>
    site.approvals.markReconciled approvals approvalId record.recordId clock
  pure
    { action := action, decision := decision, status := record.resultStatus
      evidenceRecordId := record.recordId, approvalId := approvalId
      detail := "operator reconciled execution as " ++ outcome.text }

/-- The terminal record of an authorization that its operator reconciles. -/
def authorizationReconciliationRecord (authority : EvidenceRecord) (evidenceCost : Decimal)
    (outcome : Outcome) (reconciledBy : String) (reconciledAt : Timestamp) (note recordId : String)
    (timestamp : Timestamp) : EvidenceRecord :=
  { authority with
    resultStatus := outcome.status
    recordId := recordId
    timestamp := timestamp
    approvedBy := none
    approvedAt := none
    -- what was not executed has no output
    outputHash := if outcome = .notExecuted then "" else site.digests.output
      (.obj [("operator_reconciled", .bool true), ("outcome", .str outcome.text)])
    resultSummary := "operator reconciliation: " ++ outcome.text
    costUsd := evidenceCost.plain
    budgetRemainingUsd := none
    reconciliationOutcome := some outcome
    reconciledBy := reconciledBy
    reconciledAt := some reconciledAt
    reconciliationNote := note
    previousRecordHash := ""
    recordHash := "" }

def reconciliationCost (priorDebit : Option Decimal) (outcome : Outcome) (expected : Decimal) :
    Decimal :=
  match priorDebit with
  | some debit => debit
  | none => if outcome = .notExecuted then .zero else expected

/-- An existing terminal record repeats exactly this operator input. -/
def validateExistingReconciliation (terminal : EvidenceRecord) (outcome : Outcome)
    (reconciledBy note : String) : Except HarnessError Unit := do
  refuseIf (terminal.resultStatus ≠ outcome.status)
    (valueError "operator outcome conflicts with existing terminal evidence")
  refuseIf (terminal.reconciliationOutcome ≠ some outcome ∨ terminal.reconciledBy ≠ reconciledBy ∨
      terminal.reconciliationNote ≠ note)
    (valueError "authorization reconciliation already exists with different input")

def reconciliationOutcome (subject : AuthorizationReconciliationSubject) (status : ResultStatus)
    (recordId : String) (outcome : Outcome) : AuthorizationReconciliationOutcome :=
  { authorityRecordId := subject.authorityRecordId
    actionId := subject.actionId
    requestId := subject.requestId
    status := status
    evidenceRecordId := recordId
    detail := "operator reconciled authorization as " ++ outcome.text }

/-- Journal the outcome of an authorization that has no terminal record yet. -/
def commitReconciliation (authority : EvidenceRecord) (subject : AuthorizationReconciliationSubject)
    (outcome : Outcome) (reconciledBy note : String)
    (attestation : Option AuthorizationAttestation) :
    Control AuthorizationReconciliationOutcome := do
  let disk ← Control.disk
  -- what the ledger still holds for the action, or has already posted
  let expected ← Proc.lift (disk.ledger.exposureFor subject.requestId subject.actionId)
  let priorDebit ← Proc.lift (disk.ledger.priorDebitFor subject.requestId subject.actionId)
  let clock ← Control.now site
  let recordId ← Control.newId site "evd"
  let record := authorizationReconciliationRecord site authority
    (reconciliationCost priorDebit outcome expected) outcome reconciledBy
    ((attestation.map (·.signedAt)).getD (clock 0)) note recordId (clock 1)
  Proc.lift record.validate
  commit site (.authorizationReconcile subject expected outcome reconciledBy note attestation) record
  pure (reconciliationOutcome subject outcome.status recordId outcome)

/-- Resolve an uncertain execution that no approval backs. -/
def reconcileAuthorization (authorityRecordId : String) (outcome : Outcome)
    (reconciledBy note : String) (attestation : Option AuthorizationAttestation) :
    Control AuthorizationReconciliationOutcome := do
  let _ ← recoverOperation site
  requireSafe site
  Proc.lift (refuseIf (strip reconciledBy = "") (valueError "reconciled_by must be non-empty"))
  Proc.lift (refuseIf (strip note = "") (valueError "reconciliation note must be non-empty"))
  let disk ← Control.disk
  let authority ← Proc.lift (orRefuse (EvidenceLog.get disk.records authorityRecordId)
    (valueError ("unknown evidence record " ++ authorityRecordId)))
  let subject ← Proc.lift (AuthorizationReconciliationSubject.fromRecord authority)
  Proc.lift (refuseIf (ApprovalStore.forAction disk.approvals subject.actionId ≠ [])
    (approvalError "authorization belongs to an approval; reconcile by approval id"))
  let clock ← Control.now site
  Proc.lift (requireAuthorizationReconciliationIdentity site subject outcome (strip reconciledBy)
    (strip note) attestation (clock 0))
  match EvidenceLog.latestTerminal disk.records subject.actionId subject.authorizationHash with
  -- reconciled before: the operator's input must be the same
  | some terminal => do
    Proc.lift (validateExistingReconciliation terminal outcome (strip reconciledBy) (strip note))
    pure (reconciliationOutcome subject terminal.resultStatus terminal.recordId outcome)
  | none =>
    commitReconciliation site authority subject outcome (strip reconciledBy) (strip note) attestation

end Harness
end DefiantHarness
