import DefiantHarness.Approval

/-! The journal of at most one prepared cross-store operation. -/
namespace DefiantHarness

open Foundation

def journalError (message : String) : HarnessError := ⟨.journal, message⟩

/-- Exact sealed authorization whose tool result is already known. -/
structure ExecutionCompletionSubject where
  authorityRecordId : String
  authorityRecordHash : String
  actionId : String
  requestId : String
  authorizationHash : String
  decision : Decision
deriving DecidableEq

namespace ExecutionCompletionSubject

def requireField (value field : String) : Except HarnessError Unit :=
  refuseIf (strip value = "") (journalError ("completion authority " ++ field ++ " is invalid"))

def validate (subject : ExecutionCompletionSubject) : Except HarnessError Unit := do
  requireField subject.authorityRecordId "authority_record_id"
  requireField subject.authorityRecordHash "authority_record_hash"
  requireField subject.actionId "action_id"
  requireField subject.requestId "request_id"
  requireField subject.authorizationHash "authorization_hash"
  refuseIf (isSha256 subject.authorityRecordHash = false)
    (journalError "completion authority authority_record_hash is invalid")
  refuseIf (isSha256 subject.authorizationHash = false)
    (journalError "completion authority authorization_hash is invalid")
  refuseIf (subject.decision = .block)
    (journalError "completion authority decision is invalid")

def ofRecord (record : EvidenceRecord) : ExecutionCompletionSubject :=
  { authorityRecordId := record.recordId
    authorityRecordHash := record.recordHash
    actionId := record.actionId
    requestId := record.requestId
    authorizationHash := record.authorizationHash
    decision := record.decision }

def fromRecord (record : EvidenceRecord) : Except HarnessError ExecutionCompletionSubject := do
  refuseIf (record.resultStatus ≠ .skipped)
    (journalError "completion evidence is not an execution authorization")
  (ofRecord record).validate
  pure (ofRecord record)

end ExecutionCompletionSubject

inductive BudgetDisposition where
  | settle | none
deriving DecidableEq, Repr

/-- The five kinds of prepared operations, with their payloads. -/
inductive OperationPayload where
  | approvalCreate (approval : PendingApproval) (reservedUsd : PlainDecimal)
  | approvalReject (approvalId actionId requestId : String) (reservedUsd : PlainDecimal)
      (decidedBy note : String) (attestation : Option OperatorAttestation)
  | approvalExpire (approvalId actionId requestId : String) (reservedUsd : PlainDecimal)
  | authorizationReconcile (authority : AuthorizationReconciliationSubject)
      (expectedUsd : Decimal) (outcome : Outcome) (reconciledBy note : String)
      (attestation : Option AuthorizationAttestation)
  | executionComplete (authority : ExecutionCompletionSubject) (approvalId : String)
      (reservedUsd actualUsd : Decimal) (disposition : BudgetDisposition)
deriving DecidableEq

/-- One prepared operation; every kind carries the evidence record it will append. -/
structure JournalOperation where
  operationId : String
  preparedAt : Timestamp
  payload : OperationPayload
  evidence : EvidenceRecord
deriving DecidableEq

namespace OperationPayload

def kind : OperationPayload → String
  | .approvalCreate .. => "approval_create"
  | .approvalReject .. => "approval_reject"
  | .approvalExpire .. => "approval_expire"
  | .authorizationReconcile .. => "authorization_reconcile"
  | .executionComplete .. => "execution_complete"

/-- The reservation that the operation creates, gives back or settles. -/
def reserved : OperationPayload → Decimal
  | .approvalCreate _ reservedUsd => reservedUsd.decimal
  | .approvalReject _ _ _ reservedUsd _ _ _ => reservedUsd.decimal
  | .approvalExpire _ _ _ reservedUsd => reservedUsd.decimal
  | .authorizationReconcile _ expectedUsd _ _ _ _ => expectedUsd
  | .executionComplete _ _ reservedUsd _ _ => reservedUsd

def checkStatus (evidence : EvidenceRecord) (expected : ResultStatus) : Except HarnessError Unit :=
  refuseIf (evidence.resultStatus ≠ expected)
    (journalError "journal evidence status does not match operation")

def requireField (value field : String) : Except HarnessError Unit :=
  refuseIf (strip value = "") (journalError ("journal " ++ field ++ " must be non-empty"))

/-- The identifiers that a rejection or an expiry names. -/
def checkIdentifiers (approvalId actionId requestId : String) (evidence : EvidenceRecord) :
    Except HarnessError Unit := do
  requireField approvalId "approval_id"
  requireField actionId "action_id"
  requireField requestId "request_id"
  refuseIf (actionId ≠ evidence.actionId ∨ requestId ≠ evidence.requestId)
    (journalError "journal identifiers do not match evidence")

def checkReconciliation (authority : AuthorizationReconciliationSubject) (outcome : Outcome)
    (reconciledBy note : String) (evidence : EvidenceRecord) : Except HarnessError Unit := do
  authority.validate
  refuseIf (authority.actionId ≠ evidence.actionId ∨ authority.requestId ≠ evidence.requestId ∨
      authority.authorizationHash ≠ evidence.authorizationHash)
    (journalError "journal authorization does not match terminal evidence")
  requireField reconciledBy "reconciled_by"
  requireField note "note"
  refuseIf (evidence.reconciliationOutcome ≠ some outcome)
    (journalError "journal evidence reconciliation outcome does not match")
  -- the evidence holds the stripped texts, the payload the operator's own
  refuseIf (evidence.reconciledBy ≠ strip reconciledBy ∨ evidence.reconciliationNote ≠ strip note)
    (journalError "journal evidence operator input does not match")

/-- The approval id names an approval exactly when the authority required one. -/
def checkAuthorityKind (authority : ExecutionCompletionSubject) (approvalId : String) :
    Except HarnessError Unit := do
  refuseIf (approvalId ≠ "" ∧ startsWith "apr_" approvalId = false)
    (journalError "journal completion approval_id is invalid")
  refuseIf (approvalId ≠ "" ∧ authority.decision ≠ .approvalRequired)
    (journalError "approval completion is not bound to approval-required authority")
  refuseIf (approvalId = "" ∧ authority.decision ≠ .allow)
    (journalError "approval-free completion is not bound to allowed authority")

def checkCompletion (authority : ExecutionCompletionSubject) (approvalId : String)
    (reserved actual : Decimal) (disposition : BudgetDisposition) (evidence : EvidenceRecord) :
    Except HarnessError Unit := do
  authority.validate
  let _ ← money actual "journal actual cost"
  checkAuthorityKind authority approvalId
  refuseIf (evidence.resultStatus ≠ .succeeded ∧ evidence.resultStatus ≠ .failed)
    (journalError "journal completion evidence is not a tool result")
  refuseIf (authority.actionId ≠ evidence.actionId ∨ authority.requestId ≠ evidence.requestId ∨
      authority.authorizationHash ≠ evidence.authorizationHash ∨
      authority.decision ≠ evidence.decision)
    (journalError "journal completion authority does not match terminal evidence")
  -- the disposition and the two amounts must tell one story
  refuseIf (disposition = .settle ∧ reserved.isZero = true ∧ actual.isZero = true)
    (journalError "zero-value completion must use no-budget disposition")
  refuseIf (disposition = .none ∧ (reserved.isZero = false ∨ actual.isZero = false))
    (journalError "no-budget completion cannot reserve or charge funds")
  refuseIf (evidence.costUsd.decimal.eqv actual = false)
    (journalError "journal completion cost does not match terminal evidence")
  -- a known completion carries no trace of an operator's decision
  refuseIf (evidence.reconciliationOutcome.isSome = true ∨ evidence.reconciledBy ≠ "" ∨
      evidence.reconciledAt.isSome = true ∨ evidence.reconciliationNote ≠ "")
    (journalError "known tool completion cannot contain operator reconciliation")

def checkApproval (digests : Digests) (approval : PendingApproval) : Except HarnessError Unit :=
  match (do approval.terms.validate digests; approval.validate) with
  | .ok () => pure ()
  | .error e => throw (journalError ("journal approval is invalid: " ++ e.message))

/-- The binding between a payload and the evidence it will append. -/
def validate (digests : Digests) (evidence : EvidenceRecord) :
    OperationPayload → Except HarnessError Unit
  | .approvalCreate approval reservedUsd => do
    checkStatus evidence .pendingApproval
    checkApproval digests approval
    refuseIf (approval.status ≠ .pending ∨ approval.terms.actionId ≠ evidence.actionId ∨
        approval.terms.requestId ≠ evidence.requestId ∨
        approval.terms.reservedUsd ≠ reservedUsd)
      (journalError "journal approval does not match its reservation or evidence")
  | .approvalReject approvalId actionId requestId _ decidedBy _ _ => do
    checkStatus evidence .rejected
    checkIdentifiers approvalId actionId requestId evidence
    refuseIf (strip decidedBy = "") (journalError "journal rejection identity is invalid")
  | .approvalExpire approvalId actionId requestId _ => do
    checkStatus evidence .expired
    checkIdentifiers approvalId actionId requestId evidence
  | .authorizationReconcile authority _ outcome reconciledBy note _ => do
    checkStatus evidence outcome.status
    checkReconciliation authority outcome reconciledBy note evidence
  | .executionComplete authority approvalId reserved actual disposition =>
    checkCompletion authority approvalId reserved actual disposition evidence

end OperationPayload

namespace JournalOperation

def checkAmounts (operation : JournalOperation) : Except HarnessError Unit :=
  match (do let _ ← money operation.payload.reserved "journal reservation"; operation.evidence.validate) with
  | .ok () => pure ()
  | .error e => throw (journalError ("journal payload is invalid: " ++ e.message))

/-- The validation that preparing an operation and reading it back share. -/
def validate (digests : Digests) (operation : JournalOperation) : Except HarnessError Unit := do
  checkAmounts operation
  refuseIf (operation.evidence.recordHash ≠ "" ∨ operation.evidence.previousRecordHash ≠ "")
    (journalError "journal evidence must be unsealed")
  operation.payload.validate digests operation.evidence

end JournalOperation

end DefiantHarness
