import DefiantHarness.Stores

/-! Recovery of the prepared operation: every kind replays its own store mutations. -/
namespace DefiantHarness

open Foundation

namespace Harness

variable (site : Deployment)

def requireAuthorizationReconciliationIdentity (subject : AuthorizationReconciliationSubject)
    (outcome : Outcome) (reconciledBy note : String)
    (attestation : Option AuthorizationAttestation) (now : Timestamp) : Except HarnessError Unit :=
  match site.approvals.operatorTrust with
  | none => refuseIf (attestation.isSome = true)
      (identityError "trusted operator keys are required to store an attestation")
  | some trust => do
    let _ ← trust.requireAuthorizationReconciliation attestation subject outcome.text reconciledBy
      note now

/-- The approval a journaled rejection or expiry names, if its bindings still hold. -/
def validateJournaledApproval (approvals : Approvals) (approvalId actionId requestId : String)
    (reserved : Decimal) : Except HarnessError Unit := do
  let approval ← orRefuse (approvals.lookup approvalId) (ApprovalStore.unknown approvalId)
  refuseIf (approval.actionId ≠ actionId ∨ approval.terms.requestId ≠ requestId ∨
      approval.terms.reservedUsd.decimal.eqv reserved = false)
    (approvalError ("approval " ++ approval.approvalId ++ " conflicts with journal bindings"))

/-- The approval of a journaled completion can still be consumed by this record. -/
def validateCompletedApproval (approvals : Approvals) (subject : ExecutionCompletionSubject)
    (approvalId recordId : String) (now : Timestamp) : Except HarnessError Unit := do
  let approval ← orRefuse (approvals.lookup approvalId) (ApprovalStore.unknown approvalId)
  refuseIf (approval.actionId ≠ subject.actionId ∨ approval.terms.requestId ≠ subject.requestId ∨
      approval.terms.authorizationHash ≠ subject.authorizationHash)
    (approvalError "journaled completion does not match approval authority")
  refuseIf (approval.status ≠ .executing ∧ approval.status ≠ .consumed)
    (approvalError ("approval " ++ approvalId ++ " is " ++ approval.status.text ++
      ", not recoverable"))
  -- a consumed approval may only be consumed by this very record
  refuseIf (approval.status = .consumed ∧ approval.executionRecordId ≠ recordId)
    (approvalError "consumed approval references different completion evidence")
  refuseIf (approval.reconciliation.isSome = true)
    (approvalError "approval has operator reconciliation in progress")
  site.approvals.requireDecisionIdentity approval now

/-- The approval side of a journaled completion. -/
def validateCompletionOwner (approvals : Approvals) (subject : ExecutionCompletionSubject)
    (approvalId recordId : String) (now : Timestamp) : Except HarnessError Unit :=
  if approvalId ≠ "" then
    validateCompletedApproval site approvals subject approvalId recordId now
  else
    refuseIf (ApprovalStore.forAction approvals subject.actionId ≠ [])
      (approvalError "approval-free completion belongs to an approval action")

/-- No other record ended the authorization. -/
def requireOnlyTerminal (records : List EvidenceRecord) (actionId authorizationHash recordId : String)
    (message : String) : Except HarnessError Unit :=
  refuseIf (∃ terminal ∈ EvidenceLog.latestTerminal records actionId authorizationHash,
      terminal.recordId ≠ recordId)
    (valueError message)

/-- Run a ledger operation only for a positive amount. -/
def ifFunded {α : Type} (reserved : Decimal)
    (op : Ledger → Clock → Except HarnessError (Update Ledger α)) : Control Unit :=
  if Decimal.zero.lt reserved then do
    let _ ← Control.onLedger site op
  else pure ()

def recoverApprovalCreate (approval : PendingApproval) (reserved : Decimal) : Control Unit := do
  ifFunded site reserved fun ledger clock =>
    ledger.ensureReservation site.limits.budget reserved approval.terms.requestId approval.actionId
      clock
  let _ ← Control.onApprovals site fun approvals _ =>
    site.approvals.createPrepared approvals approval

def recoverApprovalReject (approvalId actionId requestId : String) (reserved : Decimal)
    (decidedBy note : String) (attestation : Option OperatorAttestation) : Control Unit := do
  let disk ← Control.disk
  Proc.lift (validateJournaledApproval disk.approvals approvalId actionId requestId reserved)
  let _ ← Control.onApprovals site fun approvals clock =>
    site.approvals.ensureRejected approvals approvalId decidedBy note attestation clock
  ifFunded site reserved fun ledger clock =>
    ledger.ensureRelease site.limits.budget reserved requestId actionId clock

def recoverApprovalExpire (approvalId actionId requestId : String) (reserved : Decimal) :
    Control Unit := do
  let disk ← Control.disk
  Proc.lift (validateJournaledApproval disk.approvals approvalId actionId requestId reserved)
  let _ ← Control.onApprovals site fun approvals clock =>
    site.approvals.expireOne approvals approvalId clock
  ifFunded site reserved fun ledger clock =>
    ledger.ensureRelease site.limits.budget reserved requestId actionId clock

/-- The checks before a journaled reconciliation of an authorization reaches the ledger. -/
def validateAuthorizationReconcile (disk : Disk) (subject : AuthorizationReconciliationSubject)
    (outcome : Outcome) (reconciledBy note : String)
    (attestation : Option AuthorizationAttestation) (recordId : String) (now : Timestamp) :
    Except HarnessError Unit := do
  let authority ← orRefuse (EvidenceLog.get disk.records subject.authorityRecordId)
    (valueError ("unknown authorization evidence " ++ subject.authorityRecordId))
  -- the subject is derived again from the sealed record
  let current ← AuthorizationReconciliationSubject.fromRecord authority
  refuseIf (current ≠ subject) (valueError "authorization evidence conflicts with journal")
  refuseIf (ApprovalStore.forAction disk.approvals subject.actionId ≠ [])
    (approvalError "journaled authorization belongs to an approval")
  requireAuthorizationReconciliationIdentity site subject outcome reconciledBy note attestation now
  requireOnlyTerminal disk.records subject.actionId subject.authorizationHash recordId
    "authorization has conflicting terminal evidence"

def recoverAuthorizationReconcile (subject : AuthorizationReconciliationSubject)
    (reserved : Decimal) (outcome : Outcome) (reconciledBy note : String)
    (attestation : Option AuthorizationAttestation) (recordId : String) : Control Unit := do
  let disk ← Control.disk
  let clock ← Control.now site
  Proc.lift (validateAuthorizationReconcile site disk subject outcome reconciledBy note attestation
    recordId (clock 0))
  let _ ← Control.onLedger site fun ledger clock =>
    ledger.reconcileReservation site.limits.budget reserved subject.requestId subject.actionId
      outcome reconciledBy note
      (some ⟨subject.authorityRecordId, subject.authorityRecordHash, attestation⟩) clock

/-- The checks before a journaled completion reaches the ledger. -/
def validateExecutionComplete (disk : Disk) (subject : ExecutionCompletionSubject)
    (approvalId recordId : String) (now : Timestamp) : Except HarnessError Unit := do
  let authority ← orRefuse (EvidenceLog.get disk.records subject.authorityRecordId)
    (valueError ("unknown completion authority " ++ subject.authorityRecordId))
  let current ← ExecutionCompletionSubject.fromRecord authority
  refuseIf (current ≠ subject) (valueError "completion authority conflicts with journal")
  validateCompletionOwner site disk.approvals subject approvalId recordId now
  requireOnlyTerminal disk.records subject.actionId subject.authorizationHash recordId
    "completion authority has conflicting terminal evidence"

/-- Settle a known cost, or check that there is nothing to settle. -/
def settleCompletion (subject : ExecutionCompletionSubject) (reserved actual : Decimal)
    (disposition : BudgetDisposition) (recordId : String) : Control Unit :=
  match disposition with
  | .settle => do
    let _ ← Control.onLedger site fun ledger clock =>
      ledger.ensureSettlement site.limits.budget reserved actual subject.requestId subject.actionId
        recordId clock
  | .none => do
    let disk ← Control.disk
    let live ← Proc.lift (disk.ledger.reservationFor subject.actionId)
    -- nothing to settle, so nothing may be left reserved
    Proc.lift (refuseIf (Decimal.zero.lt live = true)
      (valueError "no-budget completion has a live reservation"))

/-- Consume the approval of a completion, if it has one. -/
def consumeCompleted (approvalId recordId : String) : Control Unit :=
  if approvalId ≠ "" then do
    let _ ← Control.onApprovals site fun approvals clock =>
      site.approvals.ensureConsumed approvals approvalId recordId clock
  else pure ()

def recoverExecutionComplete (subject : ExecutionCompletionSubject) (approvalId : String)
    (reserved actual : Decimal) (disposition : BudgetDisposition) (record : EvidenceRecord) :
    Control Unit := do
  let disk ← Control.disk
  let clock ← Control.now site
  Proc.lift (validateExecutionComplete site disk subject approvalId record.recordId (clock 0))
  settleCompletion site subject reserved actual disposition record.recordId
  let _ ← EvidenceStore.appendIdempotent site record
  consumeCompleted site approvalId record.recordId

/-- Replay the mutations of one kind of operation, up to and including its evidence. -/
def replay (operation : JournalOperation) : Control Unit :=
  match operation.payload with
  -- every branch writes the stores first and the evidence last
  | .approvalCreate approval reservedUsd => do
    recoverApprovalCreate site approval reservedUsd.decimal
    let _ ← EvidenceStore.appendIdempotent site operation.evidence
  | .approvalReject approvalId actionId requestId reservedUsd decidedBy note attestation => do
    recoverApprovalReject site approvalId actionId requestId reservedUsd.decimal decidedBy note
      attestation
    let _ ← EvidenceStore.appendIdempotent site operation.evidence
  | .approvalExpire approvalId actionId requestId reservedUsd => do
    recoverApprovalExpire site approvalId actionId requestId reservedUsd.decimal
    let _ ← EvidenceStore.appendIdempotent site operation.evidence
  | .authorizationReconcile authority expectedUsd outcome reconciledBy note attestation => do
    recoverAuthorizationReconcile site authority expectedUsd outcome reconciledBy note attestation
      operation.evidence.recordId
    let _ ← EvidenceStore.appendIdempotent site operation.evidence
  | .executionComplete authority approvalId reservedUsd actualUsd disposition =>
    recoverExecutionComplete site authority approvalId reservedUsd actualUsd disposition
      operation.evidence

/-- The prepared record is unsealed and its reservation is an amount. -/
def checkPrepared (operation : JournalOperation) : Except HarnessError Unit := do
  operation.evidence.validate
  refuseIf (operation.evidence.recordHash ≠ "" ∨ operation.evidence.previousRecordHash ≠ "")
    (valueError "journal evidence must be an unsealed prepared record")
  let _ ← money operation.payload.reserved "amount"

/-- Bring the stores to the state that a prepared operation describes, and clear the journal. -/
def recoverPrepared (operation : JournalOperation) : Control Unit := do
  let disk ← Control.disk
  Proc.lift (EvidenceStore.requireChain site "journal recovery with" disk.records)
  Proc.lift (checkPrepared operation)
  replay site operation
  OperationJournal.complete site operation.operationId

/-- Recover the active operation, if there is one. -/
def recoverOperation : Control (Option JournalOperation) := do
  let waiting ← OperationJournal.active site
  match waiting with
  | none => pure none
  | some operation => do
    recoverPrepared site operation
    pure (some operation)

end Harness
end DefiantHarness
