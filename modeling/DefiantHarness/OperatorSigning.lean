import DefiantHarness.TrustRuns

/-! Signing and verifying what operators attest: decisions and outcomes of approvals, outcomes of
authorizations, and transitions of operator trust and of the authority profile. -/
namespace DefiantHarness

open Foundation

namespace OperatorSigning

open TrustState

def attestationSchema : String := "defiant.operator.attestation"
def decisionPurpose : String := "approval_decision"
def reconciliationPurpose : String := "execution_reconciliation"
def actionDomain : String := "Defiant Agent Harness operator authority v0.1.0\x00"
def authorizationSchema : String := "defiant.operator.authorization_reconciliation"
def authorizationPurpose : String := "authorization_reconciliation"
def authorizationDomain : String := "Defiant Agent Harness authorization reconciliation v0.1.0\x00"
def schemaVersion : String := "0.1.0"
def algorithm : String := "Ed25519"

def purposes : List Points := [decisionPurpose, reconciliationPurpose].map Points.ofString

def actionFields : List String := ["schema_name", "schema_version", "algorithm", "purpose", "key_id",
  "signed_at", "operator", "note", "outcome", "approval_id", "action_id", "request_id",
  "authorization_hash", "signature"]

def authorizationFields : List String := ["schema_name", "schema_version", "algorithm", "purpose",
  "key_id", "signed_at", "operator", "note", "outcome", "authority_record_id",
  "authority_record_hash", "action_id", "request_id", "authorization_hash", "signature"]

def outcomes : List Points := ["succeeded", "failed", "not_executed"].map Points.ofString

/-- One of the two statements about a generation that follows another. -/
structure TransitionKind where
  label : String
  schemaName : String
  purpose : String
  domain : String
  fromHash : String
  toHash : String
  invalid : String → String
  mismatch : String → String
  malformed : String
  unchanged : String
  /-- The statement itself has to name two different hashes. -/
  distinct : Bool

def trustTransition : TransitionKind where
  label := "trust transition"
  schemaName := "defiant.operator.trust_transition"
  purpose := "operator_trust_rotation"
  domain := trustDomain
  fromHash := "from_bindings_hash"
  toHash := "to_bindings_hash"
  invalid field := if field = "key_id" then "trust transition key id is invalid"
    else "trust transition binding hash is invalid"
  mismatch field := "trust transition " ++ field ++ " does not match the requested rotation"
  malformed := "trust transition binding hashes are invalid"
  unchanged := "trust transition must change the bindings"
  distinct := false

def authorityProfileTransition : TransitionKind where
  label := "authority profile transition"
  schemaName := "defiant.operator.authority_profile_transition"
  purpose := "authority_profile_rotation"
  domain := "Defiant Agent Harness authority profile transition v0.1.0\x00"
  fromHash := "from_profile_hash"
  toHash := "to_profile_hash"
  invalid field := "authority profile transition " ++ field ++ " is invalid"
  mismatch field := "authority profile transition " ++ field ++ " does not match"
  malformed := "authority profile hashes are invalid"
  unchanged := "authority profile rotation must change the hash"
  distinct := true

def TransitionKind.fields (kind : TransitionKind) : List String := ["schema_name", "schema_version",
  "algorithm", "purpose", "key_id", "signed_at", "operator", "note", "from_generation",
  "to_generation", kind.fromHash, kind.toHash, "signature"]

/-! ### Subjects -/

/-- What an operator decides or reports on: the fields of a pending approval that a statement binds,
and the times of its window. -/
structure ApprovalSubject where
  approvalId : Points
  actionId : Points
  requestId : Points
  authorizationHash : Points
  createdAt : Points
  expiresAt : Points
  decidedAt : Option Points
  present : approvalId ≠ [] ∧ actionId ≠ [] ∧ requestId ≠ []

/-- `AuthorizationReconciliationSubject`, with what its constructor checks of every field. -/
structure AuthorizationSubject where
  authorityRecordId : Points
  authorityRecordHash : Points
  actionId : Points
  requestId : Points
  authorizationHash : Points
  authorizedAt : Points
  bounded : ∀ s ∈ [authorityRecordId, actionId, requestId],
    s.all blankPoint = false ∧ s.length ≤ maxNoteChars
  hashes : isHash authorityRecordHash = true ∧ isHash authorizationHash = true

/-! ### Signatures -/

def sextetPoint (n : Nat) : CodePoint := sextets.getD n (CodePoint.ofChar '=')

/-- `base64.b64encode` -/
def base64Text : List Nat → Points
  | [] => []
  | [a] => [sextetPoint (a / 4), sextetPoint (a % 4 * 16)] ++ Points.ofString "=="
  | [a, b] => [sextetPoint (a / 4), sextetPoint (a % 4 * 16 + b / 16), sextetPoint (b % 16 * 4)] ++
      Points.ofString "="
  | a :: b :: c :: rest => [sextetPoint (a / 4), sextetPoint (a % 4 * 16 + b / 16),
      sextetPoint (b % 16 * 4 + c / 64), sextetPoint (c % 64)] ++ base64Text rest

/-- A private key: what it signs is accepted under its public key. -/
structure SigningKey {Key : Type} (scheme : SignatureScheme Key) where
  publicKey : Key
  sign : List Char → List Nat
  octets : ∀ message, (sign message).length = 64 ∧ ∀ b ∈ sign message, b < 256
  accepted : ∀ message, scheme.verifies publicKey (sign message) message = true

/-- `OperatorIdentityStatus` -/
structure IdentityStatus where
  ok : Bool
  assurance : String
  detail : String
  operator : Points
  keyId : Points
  signedAt : Points
deriving DecidableEq

/-- What a verification that catches its own errors answers. -/
def caught (x : Except HarnessError IdentityStatus) : IdentityStatus :=
  match x with
  | .ok status => status
  | .error e => ⟨false, "invalid", e.message, [], [], []⟩

/-- What is signed under a domain: everything except the signature. -/
def signedBytes (domain : String) (attestation : List Field) : List Char :=
  domain.toList ++ (Data.obj (attestation.filter (·.1 != Points.ofString "signature"))).canonical

def textOf (name : String) (attestation : List Field) : Points := (textAt name attestation).getD []

/-- A value that a verifier expects under a name. -/
inductive Bound where
  | text (s : Points)
  | number (i : Int)
deriving DecidableEq

/-- One comparison of a loop over expected values; only texts are compared in constant time. -/
def compareField (attestation : List Field) (message : String → String) (e : String × Bound) :
    Except HarnessError Unit :=
  match e.2 with
  | .text s => do
    let same ← compareDigest (textOf e.1 attestation) s
    refuseIf (same = false) (trustError (message e.1))
  | .number i => refuseIf (intAt e.1 attestation ≠ some i) (trustError (message e.1))

def compareFields (attestation : List Field) (message : String → String)
    (expected : List (String × Bound)) : Except HarnessError Unit :=
  checkAll (compareField attestation message) expected

section Statements

variable {Instant Key : Type} [LinearOrder Instant] (clock : WallClock Instant) (now : Instant)
  (sha : TextHash) (scheme : SignatureScheme Key)

/-- `_timestamp` -/
def timestampText (value : Option Data) (field : String) : Except HarnessError Points := do
  let text ← TrustState.boundedText value field 128
  let _ ← parsedTimestamp clock text field
  pure text

/-- `_timestamp(signed_at or utc_now(), "signed_at")` -/
def signingTime (signedAt : Option Points) : Except HarnessError Points :=
  timestampText clock (some (.str (match signedAt with
    -- an empty text counts as none: Python's `or`
    | some (c :: s) => c :: s
    | _ => Points.ofString (clock.utcNow now)))) "signed_at"

/-- The private key that its file gives with the passphrase, if it gives one. -/
def loadPrivateKey (path : String) (loaded : Option (SigningKey scheme)) :
    Except HarnessError (SigningKey scheme) :=
  orRefuse loaded (trustError ("cannot load encrypted Ed25519 private key " ++ path))

/-- The statement with its signature. -/
def attest (key : SigningKey scheme) (domain : String) (statement : List (String × Data)) : List Field :=
  record (statement ++ [("signature", .str (Points.ofString "base64:" ++
    base64Text (key.sign (domain.toList ++ (Data.obj (record statement)).canonical))))])

def headings (schemaName : String) (purpose : Points) (key : SigningKey scheme)
    (signedAt operator note : Points) : List (String × Data) :=
  [("schema_name", textData schemaName), ("schema_version", textData schemaVersion),
    ("algorithm", textData algorithm), ("purpose", .str purpose),
    ("key_id", .str (publicKeyId sha scheme key.publicKey)), ("signed_at", .str signedAt),
    ("operator", .str operator), ("note", .str note)]

/-! ### Signers -/

variable (path : String) (loaded : Option (SigningKey scheme)) (signedAt : Option Points)

/-- `sign_operator_action` -/
def signOperatorAction (approval : ApprovalSubject) (purpose outcome operator note : Points) :
    Except HarnessError (List Field) := do
  -- every text is bounded before the private key is read
  refuseIf (purpose ∉ purposes) (trustError ("unsupported operator purpose: " ++ purpose.toString))
  let operator ← TrustState.boundedText (some (.str (TrustState.strip operator))) "operator"
    maxOperatorChars
  let note ← TrustState.boundedText (some (.str (TrustState.strip note))) "note" TrustState.maxNoteChars
  let outcome ← TrustState.boundedText (some (.str (TrustState.strip outcome))) "outcome" 64
  let key ← loadPrivateKey scheme path loaded
  let time ← signingTime clock now signedAt
  pure (attest scheme key actionDomain (headings sha scheme attestationSchema purpose key time operator
    note ++ [("outcome", .str outcome), ("approval_id", .str approval.approvalId),
      ("action_id", .str approval.actionId), ("request_id", .str approval.requestId),
      ("authorization_hash", .str approval.authorizationHash)]))

/-- `sign_authorization_reconciliation` -/
def signAuthorizationReconciliation (subject : AuthorizationSubject) (outcome operator note : Points) :
    Except HarnessError (List Field) := do
  let operator ← TrustState.boundedText (some (.str (TrustState.strip operator))) "operator"
    maxOperatorChars
  let note ← TrustState.boundedText (some (.str (TrustState.strip note))) "note" TrustState.maxNoteChars
  let outcome ← TrustState.boundedText (some (.str (TrustState.strip outcome))) "outcome" 64
  refuseIf (outcome ∉ outcomes) (trustError "invalid authorization reconciliation outcome")
  let key ← loadPrivateKey scheme path loaded
  let time ← signingTime clock now signedAt
  pure (attest scheme key authorizationDomain (headings sha scheme authorizationSchema
    (Points.ofString authorizationPurpose) key time operator note ++ [("outcome", .str outcome),
      ("authority_record_id", .str subject.authorityRecordId),
      ("authority_record_hash", .str subject.authorityRecordHash), ("action_id", .str subject.actionId),
      ("request_id", .str subject.requestId), ("authorization_hash", .str subject.authorizationHash)]))

def signTransition (kind : TransitionKind) (fromGeneration : Int)
    (fromHash toHash operator note : Points) : Except HarnessError (List Field) := do
  refuseIf (fromGeneration < 1) (trustError "from_generation must be a positive integer")
  refuseIf (isHash fromHash = false ∨ isHash toHash = false) (trustError kind.malformed)
  -- a transition to the same hash would only spend a generation
  let same ← compareDigest fromHash toHash
  refuseIf (same = true) (trustError kind.unchanged)
  let operator ← TrustState.boundedText (some (.str (TrustState.strip operator))) "operator"
    maxOperatorChars
  let note ← TrustState.boundedText (some (.str (TrustState.strip note))) "note" TrustState.maxNoteChars
  let key ← loadPrivateKey scheme path loaded
  let time ← signingTime clock now signedAt
  pure (attest scheme key kind.domain (headings sha scheme kind.schemaName (Points.ofString kind.purpose)
    key time operator note ++ [("from_generation", .int fromGeneration),
      ("to_generation", .int (fromGeneration + 1)), (kind.fromHash, .str fromHash),
      (kind.toHash, .str toHash)]))

/-- `sign_trust_transition` -/
def signTrustTransition := signTransition clock now sha scheme path loaded signedAt trustTransition

/-- `sign_authority_profile_transition` -/
def signAuthorityProfileTransition :=
  signTransition clock now sha scheme path loaded signedAt authorityProfileTransition

/-! ### Verifiers -/

def requireHeadings (label schemaName : String) (attestation : List Field) : Except HarnessError Unit := do
  refuseIf (textAt "schema_name" attestation ≠ some (Points.ofString schemaName))
    (trustError ("unsupported " ++ label ++ " schema"))
  refuseIf (textAt "schema_version" attestation ≠ some (Points.ofString schemaVersion))
    (trustError ("unsupported " ++ label ++ " version"))
  refuseIf (textAt "algorithm" attestation ≠ some (Points.ofString algorithm))
    (trustError ("unsupported " ++ label ++ " algorithm"))

/-- Every text of a list of fields is there, not blank and not too long. -/
def requireTexts (attestation : List Field) (names : List String) : Except HarnessError Unit :=
  checkAll (fun name => do
    let _ ← TrustState.boundedText (fieldAt (Points.ofString name) attestation) name
      TrustState.maxNoteChars
    pure ()) names

/-- `_validate_attestation` -/
def validateAttestation (attestation : List Field) : Except HarnessError Unit := do
  refuseIf (namesExactly actionFields attestation = false)
    (trustError "operator attestation fields do not match the schema")
  requireHeadings "operator attestation" attestationSchema attestation
  refuseIf (textAt "purpose" attestation ∉ purposes.map some)
    (trustError "unsupported operator attestation purpose")
  requireTexts attestation ["key_id", "operator", "note", "outcome", "approval_id", "action_id",
    "request_id", "authorization_hash", "signature"]
  let _ ← timestampText clock (fieldAt (Points.ofString "signed_at") attestation) "signed_at"
  refuseIf (isHash (textOf "key_id" attestation) = false)
    (trustError "operator attestation key id is invalid")
  refuseIf (isHash (textOf "authorization_hash" attestation) = false)
    (trustError "operator authorization hash is invalid")

/-- `_validate_authorization_reconciliation` -/
def validateAuthorizationReconciliation (attestation : List Field) : Except HarnessError Unit := do
  refuseIf (namesExactly authorizationFields attestation = false)
    (trustError "authorization reconciliation fields do not match the schema")
  requireHeadings "authorization reconciliation" authorizationSchema attestation
  refuseIf (textAt "purpose" attestation ≠ some (Points.ofString authorizationPurpose))
    (trustError "unsupported authorization reconciliation purpose")
  requireTexts attestation ["key_id", "operator", "note", "outcome", "authority_record_id",
    "authority_record_hash", "action_id", "request_id", "authorization_hash", "signature"]
  refuseIf (textOf "outcome" attestation ∉ outcomes)
    (trustError "invalid authorization reconciliation outcome")
  let _ ← timestampText clock (fieldAt (Points.ofString "signed_at") attestation) "signed_at"
  checkAll (fun name => refuseIf (isHash (textOf name attestation) = false)
      (trustError ("authorization reconciliation " ++ name ++ " is invalid")))
    ["key_id", "authority_record_hash", "authorization_hash"]
  let _ ← decodeSignature (textOf "signature" attestation)

/-- `_validate_trust_transition` and `_validate_authority_profile_transition` -/
def validateTransition (kind : TransitionKind) (attestation : List Field) : Except HarnessError Unit := do
  refuseIf (namesExactly kind.fields attestation = false)
    (trustError (kind.label ++ " fields do not match the schema"))
  requireHeadings kind.label kind.schemaName attestation
  refuseIf (textAt "purpose" attestation ≠ some (Points.ofString kind.purpose))
    (trustError ("unsupported " ++ kind.label ++ " purpose"))
  requireTexts attestation ["key_id", "operator", "note", kind.fromHash, kind.toHash, "signature"]
  let fromGeneration ← positiveAt "from_generation" attestation
  let toGeneration ← positiveAt "to_generation" attestation
  refuseIf (toGeneration ≠ fromGeneration + 1)
    (trustError (kind.label ++ " generation is not contiguous"))
  checkAll (fun name => refuseIf (isHash (textOf name attestation) = false)
    (trustError (kind.invalid name))) ["key_id", kind.fromHash, kind.toHash]
  -- only a profile's statement is asked for two different hashes; trust compares its bindings
  if kind.distinct = true then do
    let same ← compareDigest (textOf kind.fromHash attestation) (textOf kind.toHash attestation)
    refuseIf (same = true) (trustError (kind.label ++ " must change the hash"))
  let signedAt ← timestampText clock (fieldAt (Points.ofString "signed_at") attestation) "signed_at"
  let parsed ← parsedTimestamp clock signedAt "signed_at"
  refuseIf (clock.horizon now < parsed) (trustError (kind.label ++ " time is too far in the future"))
  let _ ← decodeSignature (textOf "signature" attestation)

/-- `_validate_binding` -/
def validateBinding (attestation : List Field) (approval : ApprovalSubject) : Except HarnessError Unit := do
  compareFields attestation
    (fun field => "operator attestation " ++ field ++ " does not match approval authority")
    [("approval_id", .text approval.approvalId), ("action_id", .text approval.actionId),
      ("request_id", .text approval.requestId), ("authorization_hash", .text approval.authorizationHash)]
  let signedAt ← parsedTimestamp clock (textOf "signed_at" attestation) "signed_at"
  let createdAt ← parsedTimestamp clock approval.createdAt "approval created_at"
  -- both texts parse before the times are compared
  refuseIf (signedAt < createdAt) (trustError "operator signature predates approval creation")
  refuseIf (clock.horizon now < signedAt)
    (trustError "operator signature time is too far in the future")
  if textOf "purpose" attestation = Points.ofString decisionPurpose ∧ approval.expiresAt ≠ [] then do
    let expiresAt ← parsedTimestamp clock approval.expiresAt "approval expires_at"
    refuseIf (expiresAt ≤ signedAt) (trustError "operator decision was signed after approval expiry")
  if textOf "purpose" attestation = Points.ofString reconciliationPurpose ∧
      approval.decidedAt.getD [] ≠ [] then do
    let decidedAt ← parsedTimestamp clock (approval.decidedAt.getD []) "approval decided_at"
    refuseIf (signedAt < decidedAt)
      (trustError "reconciliation signature predates the approval decision")

section Policies

variable {scheme} (policy : TrustState.OperatorTrustPolicy Key)

def trustedKey (operator : Points) (attestation : List Field) : Except HarnessError Key :=
  orRefuse (policy.key? operator (textOf "key_id" attestation))
    (untrusted (textOf "key_id" attestation) operator)

variable (scheme) in
def checkSignature (key : Key) (domain label : String) (attestation : List Field) :
    Except HarnessError Unit := do
  let signature ← decodeSignature (textOf "signature" attestation)
  refuseIf (scheme.verifies key signature (signedBytes domain attestation) = false)
    (trustError (label ++ " signature is invalid"))

def trusted (detail : String) (operator : Points) (attestation : List Field) : IdentityStatus :=
  ⟨true, "signed_trusted", detail, operator, textOf "key_id" attestation, textOf "signed_at" attestation⟩

variable (scheme)

/-- `OperatorTrustPolicy.verify` -/
def verify (attestation : List Field) (approval : ApprovalSubject) : IdentityStatus := caught (do
  validateAttestation clock attestation
  let operator := textOf "operator" attestation
  let key ← trustedKey policy operator attestation
  validateBinding clock now attestation approval
  checkSignature scheme key actionDomain "operator attestation" attestation
  pure (trusted "signature valid and operator key trusted" operator attestation))

/-- `OperatorTrustPolicy.require` -/
def require (attestation : Option (List Field)) (approval : ApprovalSubject)
    (purpose outcome operator note : Points) : Except HarnessError IdentityStatus := do
  let attestation ← orRefuse attestation (trustError "a signed operator attestation is required")
  -- a refusal inside the verification comes back as its detail
  let status := verify clock now scheme policy attestation approval
  refuseIf (status.ok = false) (trustError status.detail)
  compareFields attestation
    (fun field => "operator attestation " ++ field ++ " does not match the requested action")
    [("purpose", .text purpose), ("outcome", .text outcome),
      ("operator", .text (TrustState.strip operator)), ("note", .text (TrustState.strip note))]
  pure status

/-- `OperatorTrustPolicy.verify_authorization_reconciliation` -/
def verifyAuthorizationReconciliation (attestation : List Field) (subject : AuthorizationSubject) :
    IdentityStatus := caught (do
  validateAuthorizationReconciliation clock attestation
  let operator := textOf "operator" attestation
  let key ← trustedKey policy operator attestation
  compareFields attestation
    (fun field => "authorization reconciliation " ++ field ++ " does not match authority")
    [("authority_record_id", .text subject.authorityRecordId),
      ("authority_record_hash", .text subject.authorityRecordHash), ("action_id", .text subject.actionId),
      ("request_id", .text subject.requestId), ("authorization_hash", .text subject.authorizationHash)]
  let signedAt ← parsedTimestamp clock (textOf "signed_at" attestation) "signed_at"
  let authorizedAt ← parsedTimestamp clock subject.authorizedAt "authorized_at"
  refuseIf (signedAt < authorizedAt) (trustError "reconciliation signature predates authorization")
  refuseIf (clock.horizon now < signedAt)
    (trustError "operator signature time is too far in the future")
  -- last, so that an unusable statement is never checked against a key
  checkSignature scheme key authorizationDomain "authorization reconciliation" attestation
  pure (trusted "signature valid and operator key trusted" operator attestation))

/-- `OperatorTrustPolicy.require_authorization_reconciliation` -/
def requireAuthorizationReconciliation (attestation : Option (List Field)) (subject : AuthorizationSubject)
    (outcome operator note : Points) : Except HarnessError IdentityStatus := do
  let attestation ← orRefuse attestation
    (trustError "a signed authorization reconciliation is required")
  let status := verifyAuthorizationReconciliation clock now scheme policy attestation subject
  refuseIf (status.ok = false) (trustError status.detail)
  compareFields attestation (fun field => "authorization reconciliation " ++ field ++ " does not match")
    [("outcome", .text outcome), ("operator", .text (TrustState.strip operator)),
      ("note", .text (TrustState.strip note))]
  pure status

def requireTransition (kind : TransitionKind) (attestation : Option (List Field)) (fromGeneration : Int)
    (fromHash toHash operator note : Points) : Except HarnessError IdentityStatus := do
  let attestation ← orRefuse attestation (trustError ("a signed " ++ kind.label ++ " is required"))
  validateTransition clock now kind attestation
  compareFields attestation kind.mismatch
    [("from_generation", .number fromGeneration), ("to_generation", .number (fromGeneration + 1)),
      (kind.fromHash, .text fromHash), (kind.toHash, .text toHash),
      ("operator", .text (TrustState.strip operator)), ("note", .text (TrustState.strip note))]
  let operator := TrustState.strip operator
  let key ← trustedKey policy operator attestation
  checkSignature scheme key kind.domain kind.label attestation
  pure (trusted (kind.label ++ " signature valid and operator key trusted") operator attestation)

/-- `OperatorTrustPolicy.require_trust_transition` -/
def requireTrustTransition := requireTransition clock now scheme policy trustTransition

/-- `OperatorTrustPolicy.require_authority_profile_transition` -/
def requireAuthorityProfileTransition := requireTransition clock now scheme policy authorityProfileTransition

end Policies
end Statements
end OperatorSigning
end DefiantHarness
