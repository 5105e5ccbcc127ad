import DefiantHarness.OperationJournal
import DefiantHarness.StateDocuments

/-! The validation of the payloads of the operation journal, as documents. -/
namespace DefiantHarness

open Foundation

namespace JournalFile

open Durable

def operationKinds : List String := ["approval_create", "approval_reject", "approval_expire",
  "authorization_reconcile", "execution_complete"]

/-- The fields of the payload of each kind. -/
def expectedFields : List (String × List String) := [
  ("approval_create", ["approval", "reserved_usd", "evidence"]),
  ("approval_reject", ["approval_id", "action_id", "request_id", "reserved_usd", "decided_by", "note",
    "attestation", "evidence"]),
  ("approval_expire", ["approval_id", "action_id", "request_id", "reserved_usd", "evidence"]),
  ("authorization_reconcile", ["authority", "expected_usd", "outcome", "reconciled_by", "note",
    "attestation", "evidence"]),
  ("execution_complete", ["authority", "approval_id", "reserved_usd", "actual_usd",
    "budget_disposition", "evidence"])]

def fieldsOf (kind : Points) : List String :=
  ((expectedFields.find? fun e => Points.ofString e.1 == kind).map (·.2)).getD []

/-- The status of the evidence of a kind with one status. -/
def kindStatuses : List (String × ResultStatus) := [("approval_create", .pendingApproval),
  ("approval_reject", .rejected), ("approval_expire", .expired)]

def outcomeStatuses : List (String × ResultStatus) := [("succeeded", .succeeded), ("failed", .failed),
  ("not_executed", .notExecuted)]

def statusOf (statuses : List (String × ResultStatus)) (name : Points) : Option ResultStatus :=
  (statuses.find? fun e => Points.ofString e.1 == name).map (·.2)

def isKind (kind : Points) (name : String) : Bool := Points.ofString name == kind

/-! ### Authorities -/

/-- The authorization that an operator reconciles or that a completion rests on. -/
structure AuthoritySubject where
  actionId : Points
  requestId : Points
  authorizationHash : Points

def maxNoteChars : Nat := 4096

def identityError (message : String) : HarnessError := ⟨.operatorIdentity, message⟩

def boundedText (value : Value) (fieldName : String) (maximum : Nat) : Except HarnessError Points := do
  let text ← orRefuse value.text? (identityError (fieldName ++ " must be non-empty text"))
  refuseIf (text.all blankPoint = true) (identityError (fieldName ++ " must be non-empty text"))
  refuseIf (maximum < text.length)
    (identityError (fieldName ++ " exceeds " ++ toString maximum ++ " characters"))
  pure text

/-- Exactly these keyword arguments. -/
def argumentsOf (names : List String) (value : Value) : Except HarnessError (List Entry) := do
  let raw ← orRefuse (entries? value) (invalid "argument after ** must be a mapping")
  refuseIf ((accepts names raw && names.all fun name => (lookup name raw).isSome) = false)
    (invalid "unexpected or missing argument")
  pure raw

def hashed (error : String → HarnessError) (subject : String) (raw : List Entry) (name : String) :
    Except HarnessError Unit :=
  refuseIf ((field raw name .null).text?.any TrustState.isHash = false)
    (error (subject ++ name ++ " is invalid"))

def plainText (raw : List Entry) (name : String) : Points := (field raw name .null).text?.getD []

def AuthoritySubject.of (raw : List Entry) : AuthoritySubject :=
  ⟨plainText raw "action_id", plainText raw "request_id", plainText raw "authorization_hash"⟩

def reconciliationFields : List String := ["authority_record_id", "authority_record_hash", "action_id",
  "request_id", "authorization_hash", "authorized_at"]

/-- `AuthorizationReconciliationSubject(**value)`. -/
def reconciliationSubject (literals : Literals) (value : Value) :
    Except HarnessError AuthoritySubject := do
  let raw ← argumentsOf reconciliationFields value
  checkAll (fun name => (boundedText (field raw name .null) name maxNoteChars).map fun _ => ())
    reconciliationFields
  checkAll (hashed identityError "" raw) ["authority_record_hash", "authorization_hash"]
  -- the time is parsed here, where the other subject only looks for text
  let time ← boundedText (field raw "authorized_at" .null) "authorized_at" 128
  let zoned ← orRefuse (literals.zoned time) (identityError "authorized_at must be an RFC3339 timestamp")
  refuseIf (zoned = false) (identityError "authorized_at must include a timezone")
  pure (.of raw)

def completionFields : List String := ["authority_record_id", "authority_record_hash", "action_id",
  "request_id", "authorization_hash", "decision"]

/-- `ExecutionCompletionSubject(**value)`, with its decision. -/
def completionSubject (value : Value) : Except HarnessError (AuthoritySubject × Decision) := do
  let raw ← argumentsOf completionFields value
  checkAll (fun name => refuseIf (visible (field raw name .null) = false)
      (journalError ("completion authority " ++ name ++ " is invalid"))) completionFields
  checkAll (hashed journalError "completion authority " raw)
    ["authority_record_hash", "authorization_hash"]
  let decision ← orRefuse ((field raw "decision" .null).text? >>= Decision.ofText?)
    (journalError "completion authority decision is invalid")
  refuseIf (decision = .block) (journalError "completion authority decision is invalid")
  pure (.of raw, decision)

def AuthoritySubject.names (subject : AuthoritySubject) (evidence : Durable.EvidenceRecord) : Bool :=
  subject.actionId == evidence.actionId && subject.requestId == evidence.requestId &&
    subject.authorizationHash == evidence.authorizationHash

/-! ### Payloads -/

section Payloads

variable (sha : TextHash) (chunking : Chunking) (literals : Literals) (supply : Supply literals)

def invalidPayload (subject : String) (e : HarnessError) : HarnessError :=
  journalError (subject ++ " is invalid: " ++ e.message)

/-- The reserved amount and the evidence of a payload. -/
def amountAndEvidence (kind : Points) (payload : List Entry) :
    Except HarnessError (Decimal × Durable.EvidenceRecord) := do
  let amountField := if isKind kind "authorization_reconcile" then "expected_usd" else "reserved_usd"
  let reserved ← moneyOf literals (field payload amountField .null) "journal reservation"
  let raw ← orRefuse (entries? (field payload "evidence" .null))
    (invalid "argument after ** must be a mapping")
  let evidence ← Durable.EvidenceRecord.make literals supply raw
  pure (reserved, evidence)

/-- `_validate_execution_completion`. -/
def validateExecutionCompletion (payload : List Entry) (evidence : Durable.EvidenceRecord) (reserved : Decimal) :
    Except HarnessError Unit := do
  let (authority, decision) ← (completionSubject (field payload "authority" .null)).mapError
    (invalidPayload "journal execution completion")
  let actual ← (moneyOf literals (field payload "actual_usd" .null) "journal actual cost").mapError
    (invalidPayload "journal execution completion")
  let approvalId ← orRefuse (field payload "approval_id" .null).text?
    (journalError "journal completion approval_id is invalid")
  refuseIf (approvalId ≠ [] ∧ (Points.ofString "apr_").isPrefixOf approvalId = false)
    (journalError "journal completion approval_id is invalid")
  -- the approval and the authority's decision must ask for each other
  refuseIf (approvalId ≠ [] ∧ decision ≠ .approvalRequired)
    (journalError "approval completion is not bound to approval-required authority")
  refuseIf (approvalId = [] ∧ decision ≠ .allow)
    (journalError "approval-free completion is not bound to allowed authority")
  refuseIf (evidence.resultStatus ≠ .succeeded ∧ evidence.resultStatus ≠ .failed)
    (journalError "journal completion evidence is not a tool result")
  refuseIf (authority.names evidence = false ∨ decision ≠ evidence.decision)
    (journalError "journal completion authority does not match terminal evidence")
  let disposition := field payload "budget_disposition" .null
  refuseIf (oneOf ["settle", "none"] disposition = false)
    (journalError "journal completion budget disposition is invalid")
  refuseIf (oneOf ["settle"] disposition = true ∧ reserved.isZero = true ∧ actual.isZero = true)
    (journalError "zero-value completion must use no-budget disposition")
  refuseIf (oneOf ["none"] disposition = true ∧ (reserved.isZero && actual.isZero) = false)
    (journalError "no-budget completion cannot reserve or charge funds")
  refuseIf (evidence.costUsd.eqv actual = false)
    (journalError "journal completion cost does not match terminal evidence")
  refuseIf (evidence.reconciliationOutcome ≠ [] ∨ evidence.reconciledBy ≠ [] ∨
      evidence.reconciledAt.isSome = true ∨ evidence.reconciliationNote ≠ [])
    (journalError "known tool completion cannot contain operator reconciliation")

/-- The payload of a reconciliation, beyond its evidence. -/
def validateReconciliation (payload : List Entry) (evidence : Durable.EvidenceRecord) :
    Except HarnessError Unit := do
  let authority ← (reconciliationSubject literals (field payload "authority" .null)).mapError
    (invalidPayload "journal authorization authority")
  refuseIf (authority.names evidence = false)
    (journalError "journal authorization does not match terminal evidence")
  checkAll (fun name => refuseIf (visible (field payload name .null) = false)
    (journalError ("journal " ++ name ++ " must be non-empty"))) ["reconciled_by", "note"]
  refuseIf ((Value.str evidence.reconciliationOutcome).equals (field payload "outcome" .null) = false)
    (journalError "journal evidence reconciliation outcome does not match")
  refuseIf (evidence.reconciledBy ≠ TrustState.strip (plainText payload "reconciled_by") ∨
      evidence.reconciliationNote ≠ TrustState.strip (plainText payload "note"))
    (journalError "journal evidence operator input does not match")
  let attestation := field payload "attestation" .null
  refuseIf ((isNull attestation || isMapping attestation) = false)
    (journalError "journal authorization attestation is invalid")

/-- The payload of a created approval, beyond its evidence. -/
def validateCreation (payload : List Entry) (evidence : Durable.EvidenceRecord) (reserved : Decimal) :
    Except HarnessError Unit := do
  let approval ← (Durable.PendingApproval.fromDict sha chunking literals supply
    (field payload "approval" .null)).mapError (invalidPayload "journal approval")
  let text ← moneyText reserved
  refuseIf (approval.status ≠ Points.ofString "pending" ∨ approval.actionId ≠ evidence.actionId ∨
      approval.requestId ≠ evidence.requestId ∨ approval.reservedUsd.text ≠ text.text)
    (journalError "journal approval does not match its reservation or evidence")

/-- The payload of a rejection or an expiry, beyond its evidence. -/
def validateClosing (kind : Points) (payload : List Entry) (evidence : Durable.EvidenceRecord) :
    Except HarnessError Unit := do
  checkAll (fun name => refuseIf (visible (field payload name .null) = false)
      (journalError ("journal " ++ name ++ " must be non-empty")))
    ["approval_id", "action_id", "request_id"]
  refuseIf (plainText payload "action_id" ≠ evidence.actionId ∨
      plainText payload "request_id" ≠ evidence.requestId)
    (journalError "journal identifiers do not match evidence")
  -- an expiry has no operator
  if isKind kind "approval_reject" then do
    refuseIf (visible (field payload "decided_by" .null) = false)
      (journalError "journal rejection identity is invalid")
    refuseIf ((field payload "note" .null).text?.isSome = false)
      (journalError "journal rejection note is invalid")
    let attestation := field payload "attestation" .null
    refuseIf ((isNull attestation || isMapping attestation) = false)
      (journalError "journal rejection attestation is invalid")
  else pure ()

/-- The status that the evidence of a payload must have. -/
def expectedStatus (kind : Points) (payload : List Entry) : Option ResultStatus :=
  if isKind kind "authorization_reconcile" then
    (field payload "outcome" .null).text? >>= statusOf outcomeStatuses
  else statusOf kindStatuses kind

/-- `_validate_payload`. -/
def validatePayload (kind : Points) (payload : List Entry) : Except HarnessError Unit := do
  refuseIf ((accepts (fieldsOf kind) payload &&
      (fieldsOf kind).all fun name => (lookup name payload).isSome) = false)
    (journalError "journal payload fields do not match operation")
  let (reserved, evidence) ← (amountAndEvidence literals supply kind payload).mapError
    (invalidPayload "journal payload")
  refuseIf (evidence.recordHash ≠ [] ∨ evidence.previousRecordHash ≠ [])
    (journalError "journal evidence must be unsealed")
  -- a completion's status is the tool's, so it is checked apart
  if isKind kind "execution_complete" then
    validateExecutionCompletion literals payload evidence reserved
  else do
    refuseIf (expectedStatus kind payload ≠ some evidence.resultStatus)
      (journalError "journal evidence status does not match operation")
    if isKind kind "authorization_reconcile" then validateReconciliation literals payload evidence
    else if isKind kind "approval_create" then
      validateCreation sha chunking literals supply payload evidence reserved
    else validateClosing kind payload evidence

end Payloads
end JournalFile
end DefiantHarness
