import DefiantHarness.Contracts

/-! What operators sign: decisions and outcomes of approvals, and outcomes of authorizations. -/
namespace DefiantHarness

open Foundation

inductive Purpose where
  | approvalDecision | executionReconciliation
deriving DecidableEq, Repr

def Purpose.text : Purpose → String
  | .approvalDecision => "approval_decision"
  | .executionReconciliation => "execution_reconciliation"

/-- A signed statement about one approval. -/
structure OperatorAttestation where
  purpose : Purpose
  keyId : String
  signedAt : Timestamp
  operator : String
  note : String
  outcome : String
  approvalId : String
  actionId : String
  requestId : String
  authorizationHash : String
  signature : String
deriving DecidableEq

/-- A signed statement about one approval-free authorization record. -/
structure AuthorizationAttestation where
  keyId : String
  signedAt : Timestamp
  operator : String
  note : String
  outcome : String
  authorityRecordId : String
  authorityRecordHash : String
  actionId : String
  requestId : String
  authorizationHash : String
  signature : String
deriving DecidableEq

def maxNoteChars : Nat := 4096

def identityError (message : String) : HarnessError := ⟨.operatorIdentity, message⟩

/-- Text that is not blank and not longer than the maximum. -/
def boundedText (value field : String) (maximum : Nat) : Except HarnessError Unit := do
  refuseIf (strip value = "") (identityError (field ++ " must be non-empty text"))
  refuseIf (maximum < value.length)
    (identityError (field ++ " exceeds " ++ toString maximum ++ " characters"))

/-- Exact sealed authorization requiring an operator-supplied outcome. -/
structure AuthorizationReconciliationSubject where
  authorityRecordId : String
  authorityRecordHash : String
  actionId : String
  requestId : String
  authorizationHash : String
  authorizedAt : Timestamp
deriving DecidableEq

namespace AuthorizationReconciliationSubject

def validate (subject : AuthorizationReconciliationSubject) : Except HarnessError Unit := do
  boundedText subject.authorityRecordId "authority_record_id" maxNoteChars
  boundedText subject.authorityRecordHash "authority_record_hash" maxNoteChars
  boundedText subject.actionId "action_id" maxNoteChars
  boundedText subject.requestId "request_id" maxNoteChars
  boundedText subject.authorizationHash "authorization_hash" maxNoteChars
  refuseIf (isSha256 subject.authorityRecordHash = false)
    (identityError "authority_record_hash is invalid")
  refuseIf (isSha256 subject.authorizationHash = false)
    (identityError "authorization_hash is invalid")

/-- The subject of a sealed approval-free authorization record. -/
def fromRecord (record : EvidenceRecord) :
    Except HarnessError AuthorizationReconciliationSubject := do
  refuseIf (record.resultStatus ≠ .skipped)
    (identityError "evidence is not an execution authorization")
  -- an authority that asked for approval is reconciled through the approval
  refuseIf (record.decision ≠ .allow)
    (identityError "evidence is not an approval-free execution authorization")
  let subject : AuthorizationReconciliationSubject :=
    { authorityRecordId := record.recordId
      authorityRecordHash := record.recordHash
      actionId := record.actionId
      requestId := record.requestId
      authorizationHash := record.authorizationHash
      authorizedAt := record.timestamp }
  subject.validate
  pure subject

end AuthorizationReconciliationSubject

end DefiantHarness
