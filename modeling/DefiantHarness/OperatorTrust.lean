import DefiantHarness.Approval
import DefiantHarness.Foundation.CodePoint

/-! Verification of operator attestations against externally pinned keys. -/
namespace DefiantHarness

open Foundation

structure OperatorIdentityStatus where
  ok : Bool
  assurance : String
  detail : String
  operator : String := ""
  keyId : String := ""
  signedAt : Option Timestamp := none
deriving DecidableEq

/-- What a verification that catches its own errors answers. -/
def OperatorIdentityStatus.caught (x : Except HarnessError OperatorIdentityStatus) :
    OperatorIdentityStatus :=
  match x with
  | .ok status => status
  | .error e => { ok := false, assurance := "invalid", detail := e.message }

/-- `hmac.compare_digest` on texts, which raises outside ASCII. -/
def compareTexts (s t : String) : Except HarnessError Bool := do
  refuseIf (((charsOf s ++ charsOf t).all fun c => c.toNat < 0x80) = false)
    (valueError "comparing strings with non-ASCII characters is not supported")
  pure (s == t)

/-- Refuse a text that is not the expected one. -/
def requireSame (supplied expected : String) (refusal : HarnessError) : Except HarnessError Unit := do
  let same ← compareTexts supplied expected
  refuseIf (same = false) refusal

/-- Out-of-band mapping from operators to trusted keys. The two verifiers stand for decoding a
signature and checking it with the public key of that id. -/
structure OperatorTrustPolicy where
  trusts : String → String → Bool
  verifies : OperatorAttestation → Bool
  verifiesAuthorization : AuthorizationAttestation → Bool

def fiveMinutes : Nat := 5 * 60 * 1000000

namespace OperatorAttestation

/-- The schema checks of an attestation. -/
def validate (attestation : OperatorAttestation) : Except HarnessError Unit := do
  boundedText attestation.keyId "key_id" maxNoteChars
  boundedText attestation.operator "operator" maxNoteChars
  boundedText attestation.note "note" maxNoteChars
  boundedText attestation.outcome "outcome" maxNoteChars
  boundedText attestation.approvalId "approval_id" maxNoteChars
  boundedText attestation.actionId "action_id" maxNoteChars
  boundedText attestation.requestId "request_id" maxNoteChars
  boundedText attestation.authorizationHash "authorization_hash" maxNoteChars
  boundedText attestation.signature "signature" maxNoteChars
  refuseIf (isSha256 attestation.keyId = false)
    (identityError "operator attestation key id is invalid")
  refuseIf (isSha256 attestation.authorizationHash = false)
    (identityError "operator authorization hash is invalid")

def bindingError (field : String) : HarnessError :=
  identityError ("operator attestation " ++ field ++ " does not match approval authority")

/-- The attestation names this approval, and was signed inside its window. -/
def validateBinding (attestation : OperatorAttestation) (approval : PendingApproval)
    (now : Timestamp) : Except HarnessError Unit := do
  requireSame attestation.approvalId approval.terms.approvalId (bindingError "approval_id")
  requireSame attestation.actionId approval.terms.actionId (bindingError "action_id")
  requireSame attestation.requestId approval.terms.requestId (bindingError "request_id")
  requireSame attestation.authorizationHash approval.terms.authorizationHash
    (bindingError "authorization_hash")
  refuseIf (attestation.signedAt < approval.terms.createdAt)
    (identityError "operator signature predates approval creation")
  refuseIf (now + fiveMinutes < attestation.signedAt)
    (identityError "operator signature time is too far in the future")
  refuseIf (attestation.purpose = .approvalDecision ∧
      ∃ expiresAt ∈ approval.terms.expiresAt, expiresAt ≤ attestation.signedAt)
    (identityError "operator decision was signed after approval expiry")
  refuseIf (attestation.purpose = .executionReconciliation ∧
      ∃ decidedAt ∈ approval.decidedAt, attestation.signedAt < decidedAt)
    (identityError "reconciliation signature predates the approval decision")

end OperatorAttestation

namespace OperatorTrustPolicy

def untrusted (keyId operator : String) : HarnessError :=
  identityError ("key " ++ keyId ++ " is not trusted for operator " ++ (Points.ofString operator).repr)

def verify (trust : OperatorTrustPolicy) (attestation : OperatorAttestation)
    (approval : PendingApproval) (now : Timestamp) : OperatorIdentityStatus := .caught (do
  attestation.validate
  refuseIf (trust.trusts attestation.operator attestation.keyId = false)
    (untrusted attestation.keyId attestation.operator)
  attestation.validateBinding approval now
  refuseIf (trust.verifies attestation = false)
    (identityError "operator attestation signature is invalid")
  pure
    { ok := true
      assurance := "signed_trusted"
      detail := "signature valid and operator key trusted"
      operator := attestation.operator
      keyId := attestation.keyId
      signedAt := some attestation.signedAt })

def mismatch (field : String) : HarnessError :=
  identityError ("operator attestation " ++ field ++ " does not match the requested action")

/-- A trusted attestation of exactly this purpose, outcome, operator and note. A text outside ASCII
raises, so that a policy never accepts an operator or a note with one. `OperatorSigning.require` is
the same method over the attestation as it is stored. -/
def require (trust : OperatorTrustPolicy) (attestation : Option OperatorAttestation)
    (approval : PendingApproval) (purpose : Purpose) (outcome operator note : String)
    (now : Timestamp) : Except HarnessError OperatorIdentityStatus := do
  let attestation ← orRefuse attestation
    (identityError "a signed operator attestation is required")
  let status := trust.verify attestation approval now
  refuseIf (status.ok = false) (identityError status.detail)
  refuseIf (attestation.purpose ≠ purpose) (mismatch "purpose")
  requireSame attestation.outcome outcome (mismatch "outcome")
  requireSame attestation.operator (strip operator) (mismatch "operator")
  requireSame attestation.note (strip note) (mismatch "note")
  pure status

def assess (trust : OperatorTrustPolicy) (attestation : Option OperatorAttestation)
    (approval : PendingApproval) (purpose : Purpose) (outcome operator note : String)
    (now : Timestamp) : OperatorIdentityStatus :=
  .caught (trust.require attestation approval purpose outcome operator note now)

def authorizationMismatch (field : String) : HarnessError :=
  identityError ("authorization reconciliation " ++ field ++ " does not match authority")

def checkSubject (attestation : AuthorizationAttestation)
    (subject : AuthorizationReconciliationSubject) : Except HarnessError Unit := do
  requireSame attestation.authorityRecordId subject.authorityRecordId
    (authorizationMismatch "authority_record_id")
  requireSame attestation.authorityRecordHash subject.authorityRecordHash
    (authorizationMismatch "authority_record_hash")
  requireSame attestation.actionId subject.actionId (authorizationMismatch "action_id")
  requireSame attestation.requestId subject.requestId (authorizationMismatch "request_id")
  requireSame attestation.authorizationHash subject.authorizationHash
    (authorizationMismatch "authorization_hash")

def checkAuthorizationSchema (attestation : AuthorizationAttestation) :
    Except HarnessError Unit := do
  boundedText attestation.keyId "key_id" maxNoteChars
  boundedText attestation.operator "operator" maxNoteChars
  boundedText attestation.note "note" maxNoteChars
  boundedText attestation.outcome "outcome" maxNoteChars
  boundedText attestation.authorityRecordId "authority_record_id" maxNoteChars
  boundedText attestation.authorityRecordHash "authority_record_hash" maxNoteChars
  boundedText attestation.actionId "action_id" maxNoteChars
  boundedText attestation.requestId "request_id" maxNoteChars
  boundedText attestation.authorizationHash "authorization_hash" maxNoteChars
  boundedText attestation.signature "signature" maxNoteChars
  refuseIf (attestation.outcome ∉ ["succeeded", "failed", "not_executed"])
    (identityError "invalid authorization reconciliation outcome")
  refuseIf (isSha256 attestation.keyId = false)
    (identityError "authorization reconciliation key_id is invalid")
  refuseIf (isSha256 attestation.authorityRecordHash = false)
    (identityError "authorization reconciliation authority_record_hash is invalid")
  refuseIf (isSha256 attestation.authorizationHash = false)
    (identityError "authorization reconciliation authorization_hash is invalid")

def verifyAuthorizationReconciliation (trust : OperatorTrustPolicy)
    (attestation : AuthorizationAttestation) (subject : AuthorizationReconciliationSubject)
    (now : Timestamp) : OperatorIdentityStatus := .caught (do
  checkAuthorizationSchema attestation
  refuseIf (trust.trusts attestation.operator attestation.keyId = false)
    (untrusted attestation.keyId attestation.operator)
  checkSubject attestation subject
  refuseIf (attestation.signedAt < subject.authorizedAt)
    (identityError "reconciliation signature predates authorization")
  refuseIf (now + fiveMinutes < attestation.signedAt)
    (identityError "operator signature time is too far in the future")
  refuseIf (trust.verifiesAuthorization attestation = false)
    (identityError "authorization reconciliation signature is invalid")
  pure
    { ok := true
      assurance := "signed_trusted"
      detail := "signature valid and operator key trusted"
      operator := attestation.operator
      keyId := attestation.keyId
      signedAt := some attestation.signedAt })

def requireAuthorizationReconciliation (trust : OperatorTrustPolicy)
    (attestation : Option AuthorizationAttestation)
    (subject : AuthorizationReconciliationSubject) (outcome operator note : String)
    (now : Timestamp) : Except HarnessError OperatorIdentityStatus := do
  let attestation ← orRefuse attestation
    (identityError "a signed authorization reconciliation is required")
  let status := trust.verifyAuthorizationReconciliation attestation subject now
  refuseIf (status.ok = false) (identityError status.detail)
  requireSame attestation.outcome outcome
    (identityError "authorization reconciliation outcome does not match")
  requireSame attestation.operator (strip operator)
    (identityError "authorization reconciliation operator does not match")
  requireSame attestation.note (strip note)
    (identityError "authorization reconciliation note does not match")
  pure status

end OperatorTrustPolicy

def unsignedStatus (operator : String) : OperatorIdentityStatus :=
  { ok := false
    assurance := "unsigned"
    detail := "operator identity is asserted but not cryptographically bound"
    operator := operator }

end DefiantHarness
