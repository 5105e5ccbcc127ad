import DefiantHarness.OperatorTrust
import DefiantHarness.Foundation.Civil
import DefiantHarness.Foundation.Update

/-! Durable, expiring, action-bound approval queue. -/
namespace DefiantHarness

open Foundation

/-- The approvals file: every approval under its own id. -/
abbrev Approvals := Dict String PendingApproval

/-- What is fixed for one opened approval store. -/
structure ApprovalStore where
  defaultTtlMinutes : Nat
  operatorTrust : Option OperatorTrustPolicy
  fits : Approvals → Bool

/-- The order of RFC 3339 texts: a whole second is written without a fraction, and sorts after
the fractions of the same second. -/
def textOrder (t : Timestamp) : Nat := if t % 1000000 = 0 then t + 1000000 else t

/-- Approvals by the text of their creation time. -/
def byCreation (approvals : List PendingApproval) : List PendingApproval :=
  approvals.insertionSort fun a b => textOrder a.terms.createdAt ≤ textOrder b.terms.createdAt

def minuteMicroseconds : Nat := 60 * 1000000

def decisionOutcome (approved : Bool) : String := if approved then "approved" else "rejected"

namespace ApprovalStore

variable (store : ApprovalStore)

/-- Publish the approvals; the writer sorts keys. -/
def writeAll (approvals : Approvals) : Except HarnessError Approvals :=
  if store.fits approvals.sorted then .ok approvals.sorted
  else .error (approvalError "approval state exceeds bounded canonical contract")

def unknown (approvalId : String) : HarnessError :=
  approvalError ("unknown approval " ++ approvalId)

def alreadyDecided (approvalId : String) (status : ApprovalStatus) : HarnessError :=
  approvalError ("approval " ++ approvalId ++ " is already " ++ status.text ++
    "; approvals are single-use")

/-- The expiry of an approval as `prepare` writes it, counted from the beginning of 1970. -/
def expiryText (approval : PendingApproval) : String :=
  (approval.terms.expiresAt.map fun t => String.ofList (CivilTime.ofEpoch t).utcText).getD ""

def expiredAt (approval : PendingApproval) : HarnessError :=
  approvalError ("approval " ++ approval.approvalId ++ " expired at " ++ expiryText approval)

/-- Re-raise an identity failure as an approval error with the same text. -/
def asApprovalError {α : Type} : Except HarnessError α → Except HarnessError α
  | .ok a => .ok a
  | .error e => .error (if e.kind = .operatorIdentity then approvalError e.message else e)

/-- Replace one approval and publish. -/
def replace (approvals : Approvals) (approval : PendingApproval) :
    Except HarnessError (Update Approvals PendingApproval) := do
  let stored ← store.writeAll (approvals.set approval.approvalId approval)
  pure (.write stored approval)

/-- Build an immutable approval without touching the store. -/
def prepare (digests : Digests) (preview : Json → String) (action : ProposedAction)
    (decisionReason approvalScope : String) (policyIds : List String) (ttlMinutes : Option Int)
    (request : Option HarnessRequest) (decision : Option GuardrailDecision) (reservedUsd : Decimal)
    (executionOwner executionKey approvalId : String) (clock : Clock) :
    Except HarnessError PendingApproval := do
  let ttl := ttlMinutes.getD store.defaultTtlMinutes
  refuseIf (ttl ≤ 0) (approvalError "approval TTL must be positive")
  let reserved ← moneyText reservedUsd
  let terms : ApprovalTerms :=
    { actionId := action.actionId
      requestId := action.requestId
      toolName := action.toolName
      target := action.target
      payloadHash := action.payloadHash digests
      authorizationHash := action.authorizationHash digests
      payloadPreview := preview action.payload
      approvalScope := approvalScope
      reason := decisionReason
      policyIds := policyIds
      -- the clock is read twice, for the expiry and for the creation
      expiresAt := some (clock 0 + ttl.toNat * minuteMicroseconds)
      createdAt := clock 1
      approvalId := approvalId
      reservedUsd := reserved
      actionSnapshot := some action.snapshot
      requestSnapshot := request.map (·.snapshot)
      decisionSnapshot := decision
      executionOwner := executionOwner
      executionKey := executionKey }
  terms.validate digests
  pure (.pending terms)

/-- Store one prepared approval idempotently or reject a conflict. -/
def createPrepared (approvals : Approvals) (pending : PendingApproval) :
    Except HarnessError (Update Approvals PendingApproval) :=
  match approvals.lookup pending.approvalId with
  -- a crash came between this write and the journal's completion
  | some existing => do
    -- a decision taken since makes the stored approval differ
    refuseIf (existing ≠ pending)
      (approvalError ("approval " ++ pending.approvalId ++ " conflicts with prepared state"))
    pure (.unchanged existing)
  | none => do
    refuseIf (approvals.values.any (fun approval =>
        approval.actionId == pending.actionId && approval.status.active) = true)
      (approvalError ("action " ++ pending.actionId ++ " already has an active approval"))
    store.replace approvals pending

def forAction (approvals : Approvals) (actionId : String) : List PendingApproval :=
  approvals.values.filter (·.actionId == actionId)

/-- Keep the first approval with the latest creation text. -/
def later (best : Option PendingApproval) (approval : PendingApproval) : Option PendingApproval :=
  match best with
  | none => some approval
  | some other =>
    if textOrder other.terms.createdAt < textOrder approval.terms.createdAt then some approval
    else some other

/-- An unconsumed exact-call approval of an external executor. -/
def findExecution (approvals : Approvals) (executionOwner executionKey : String)
    (now : Timestamp) : Option PendingApproval :=
  if executionOwner = "" ∨ executionKey = "" then none
  else
    let active := approvals.values.filter fun approval =>
      approval.terms.executionOwner == executionOwner &&
        approval.terms.executionKey == executionKey &&
        -- an execution under way does not run out
        (approval.status == .executing ||
          ((approval.status == .pending || approval.status == .approved ||
            approval.status == .rejected) && !approval.isExpired now))
    active.foldl later none

def isDue (approval : PendingApproval) (now : Timestamp) : Bool :=
  (approval.status == .pending || approval.status == .approved) && approval.isExpired now

/-- The approvals that are due, without changing their state. -/
def due (approvals : Approvals) (now : Timestamp) : List PendingApproval :=
  byCreation (approvals.values.filter (isDue · now))

def expire (approval : PendingApproval) (at_ : Timestamp) : Except HarnessError PendingApproval :=
  { approval with status := .expired, consumedAt := some at_ }.checked

/-- Expire the due approvals among some entries. -/
def expireEntries (now : Option Timestamp) (clock : Clock) :
    List PendingApproval → Except HarnessError (List PendingApproval)
  | [] => pure []
  | approval :: rest => do
    if isDue approval (now.getD (clock 0)) then do
      let expired ← expire approval (clock 1)
      let others ← expireEntries now (fun i => clock (i + 2)) rest
      pure (expired :: others)
    else expireEntries now (fun i => clock (i + 2)) rest

def expireDue (approvals : Approvals) (now : Option Timestamp) (clock : Clock) :
    Except HarnessError (Update Approvals (List PendingApproval)) := do
  let expired ← expireEntries now clock approvals.values
  if expired = [] then pure (.unchanged [])
  else do
    let stored ← store.writeAll
      (expired.foldl (fun data approval => data.set approval.approvalId approval) approvals)
    pure (.write stored expired)

/-- Expire exactly one due approval idempotently. -/
def expireOne (approvals : Approvals) (approvalId : String) (clock : Clock) :
    Except HarnessError (Update Approvals PendingApproval) := do
  let approval ← orRefuse (approvals.lookup approvalId) (unknown approvalId)
  -- expired by an earlier attempt of the same operation
  if approval.status = .expired then pure (.unchanged approval)
  else do
    refuseIf (approval.status ≠ .pending ∧ approval.status ≠ .approved)
      (approvalError ("approval " ++ approvalId ++ " is already " ++ approval.status.text ++
        "; cannot expire"))
    refuseIf (approval.isExpired (clock 0) = false)
      (approvalError ("approval " ++ approvalId ++ " is not due"))
    let expired ← expire approval (clock 1)
    store.replace approvals expired

/-- The operator and note of a decision, checked against the trust policy. -/
def checkDecision (approval : PendingApproval) (approved : Bool) (decidedBy note : String)
    (attestation : Option OperatorAttestation) (now : Timestamp) :
    Except HarnessError (String × String) := do
  refuseIf (strip decidedBy = "") (approvalError "decided_by must be non-empty")
  let decidedBy := strip decidedBy
  let note := strip note
  match store.operatorTrust with
  | none => do
    -- without pinned keys a signature would be stored unverified
    refuseIf (attestation.isSome = true)
      (approvalError "trusted operator keys are required to store an attestation")
    pure (decidedBy, note)
  | some trust => do
    let _ ← asApprovalError <| trust.require attestation approval .approvalDecision
      (decisionOutcome approved) decidedBy note now
    pure (decidedBy, note)

/-- One pending, unexpired approval. -/
def undecided (approvals : Approvals) (approvalId : String) (now : Timestamp) :
    Except HarnessError PendingApproval := do
  let approval ← orRefuse (approvals.lookup approvalId) (unknown approvalId)
  refuseIf (approval.status ≠ .pending) (alreadyDecided approvalId approval.status)
  refuseIf (approval.isExpired now = true) (expiredAt approval)
  pure approval

/-- Validate one decision without mutating approval state. -/
def validateDecision (approvals : Approvals) (approvalId : String) (approved : Bool)
    (decidedBy note : String) (attestation : Option OperatorAttestation) (clock : Clock) :
    Except HarnessError (String × String) := do
  let approval ← undecided approvals approvalId (clock 0)
  store.checkDecision approval approved decidedBy note attestation (clock 1)

def decided (approval : PendingApproval) (approved : Bool) (decidedBy note : String)
    (attestation : Option OperatorAttestation) (decidedAt : Timestamp) : PendingApproval :=
  { approval with
    status := if approved then .approved else .rejected
    decidedBy := some decidedBy
    decidedAt := some decidedAt
    note := note
    decisionAttestation := attestation
    consumedAt := if approved then none else some decidedAt }

def decide (approvals : Approvals) (approvalId : String) (approved : Bool)
    (decidedBy note : String) (attestation : Option OperatorAttestation) (clock : Clock) :
    Except HarnessError (Update Approvals PendingApproval) := do
  let approval ← undecided approvals approvalId (clock 0)
  let (decidedBy, note) ← store.checkDecision approval approved decidedBy note attestation (clock 1)
  let decidedAt := (attestation.map (·.signedAt)).getD (clock 2)
  let approval ← (decided approval approved decidedBy note attestation decidedAt).checked
  store.replace approvals approval

/-- The identity behind the decision that an approval stores. -/
def decisionIdentity (approval : PendingApproval) (now : Timestamp) : OperatorIdentityStatus :=
  match approval.decisionAttestation, store.operatorTrust with
  | none, _ => unsignedStatus (approval.decidedBy.getD "")
  | some attestation, none =>
    { ok := false
      assurance := "unverified"
      detail := "operator attestation is present but no trust pins were configured"
      operator := approval.decidedBy.getD ""
      keyId := attestation.keyId
      signedAt := some attestation.signedAt }
  | some attestation, some trust =>
    trust.assess (some attestation) approval .approvalDecision
      -- every status but `rejected` comes after an approval
      (decisionOutcome (approval.status ≠ .rejected)) (approval.decidedBy.getD "") approval.note now

def reconciliationIdentity (approval : PendingApproval) (intent : ReconciliationIntent)
    (now : Timestamp) : OperatorIdentityStatus :=
  match intent.attestation, store.operatorTrust with
  | none, _ => unsignedStatus intent.reconciledBy
  | some attestation, none =>
    { ok := false
      assurance := "unverified"
      detail := "reconciliation attestation is present but no trust pins were configured"
      operator := intent.reconciledBy
      keyId := attestation.keyId
      signedAt := some attestation.signedAt }
  | some attestation, some trust =>
    trust.assess (some attestation) approval .executionReconciliation intent.outcome.text
      intent.reconciledBy intent.note now

def requireDecisionIdentity (approval : PendingApproval) (now : Timestamp) :
    Except HarnessError Unit :=
  match store.operatorTrust with
  | none => pure ()
  | some _ =>
    refuseIf ((store.decisionIdentity approval now).ok = false)
      (approvalError ("operator identity verification failed: " ++
        (store.decisionIdentity approval now).detail))

/-- Apply or recognize one exact rejection for journal recovery. -/
def ensureRejected (approvals : Approvals) (approvalId decidedBy note : String)
    (attestation : Option OperatorAttestation) (clock : Clock) :
    Except HarnessError (Update Approvals PendingApproval) := do
  let current ← orRefuse (approvals.lookup approvalId) (unknown approvalId)
  if current.status = .pending then
    store.decide approvals approvalId false decidedBy note attestation clock
  else do
    -- rejected already: it must be this very rejection
    refuseIf (¬ (current.status = .rejected ∧ current.decidedBy = some (strip decidedBy) ∧
        current.note = strip note ∧ current.decisionAttestation = attestation))
      (approvalError ("approval " ++ approvalId ++ " does not match the journaled rejection"))
    store.requireDecisionIdentity current (clock 0)
    pure (.unchanged current)

def validateFor (digests : Digests) (approvals : Approvals) (approvalId : String)
    (action : ProposedAction) (clock : Clock) : Except HarnessError PendingApproval := do
  let approval ← orRefuse (approvals.lookup approvalId) (unknown approvalId)
  refuseIf (approval.status ≠ .approved ∧ approval.status ≠ .executing)
    (approvalError ("approval " ++ approvalId ++ " is " ++ approval.status.text ++
      ", not approved"))
  -- what is executing may finish after the deadline
  refuseIf (approval.isExpired (clock 0) = true ∧ approval.status ≠ .executing)
    (expiredAt approval)
  refuseIf (approval.actionId ≠ action.actionId)
    (approvalError "approval does not belong to this action")
  refuseIf (approval.terms.authorizationHash ≠ action.authorizationHash digests)
    (approvalError "action changed after approval -- the approval is void")
  store.requireDecisionIdentity approval (clock 1)
  pure approval

/-- Claim an approved action for execution. An approval found expired is written as expired, and
the call raises. -/
def beginExecution (digests : Digests) (approvals : Approvals) (approvalId : String)
    (action : ProposedAction) (clock : Clock) :
    Except HarnessError (Update Approvals (Except HarnessError PendingApproval)) := do
  let approval ← orRefuse (approvals.lookup approvalId) (unknown approvalId)
  refuseIf (approval.status ≠ .approved)
    (approvalError ("approval " ++ approvalId ++ " is " ++ approval.status.text ++
      ", not executable"))
  -- the expiry is stored although the call fails
  if approval.isExpired (clock 0) then do
    let expired ← expire approval (clock 1)
    let update ← store.replace approvals expired
    pure ⟨update.written, .error (expiredAt approval)⟩
  else do
    refuseIf (approval.actionId ≠ action.actionId)
      (approvalError "approval does not belong to this action")
    refuseIf (approval.terms.authorizationHash ≠ action.authorizationHash digests)
      (approvalError "action changed after approval")
    store.requireDecisionIdentity approval (clock 1)
    let executing ← { approval with status := .executing }.checked
    let update ← store.replace approvals executing
    pure ⟨update.written, .ok update.result⟩

def notExecuting (approvalId : String) (status : ApprovalStatus) : HarnessError :=
  approvalError ("approval " ++ approvalId ++ " is " ++ status.text ++ ", not executing")

def consume (approvals : Approvals) (approval : PendingApproval) (executionRecordId : String)
    (now : Timestamp) : Except HarnessError (Update Approvals PendingApproval) := do
  refuseIf (approval.status ≠ .executing) (notExecuting approval.approvalId approval.status)
  -- an operator has said how the execution ended
  refuseIf (approval.reconciliation.isSome = true)
    (approvalError ("approval " ++ approval.approvalId ++
      " has operator reconciliation in progress"))
  let consumed ← { approval with
    status := .consumed
    executionRecordId := executionRecordId
    consumedAt := some now }.checked
  store.replace approvals consumed

def markConsumed (approvals : Approvals) (approvalId executionRecordId : String) (clock : Clock) :
    Except HarnessError (Update Approvals PendingApproval) := do
  let approval ← orRefuse (approvals.lookup approvalId) (unknown approvalId)
  store.consume approvals approval executionRecordId (clock 0)

/-- Consume or recognize one exact journaled execution completion. -/
def ensureConsumed (approvals : Approvals) (approvalId executionRecordId : String)
    (clock : Clock) : Except HarnessError (Update Approvals PendingApproval) := do
  refuseIf (executionRecordId = "") (approvalError "execution_record_id must be non-empty")
  let approval ← orRefuse (approvals.lookup approvalId) (unknown approvalId)
  if approval.status = .consumed then do
    refuseIf (approval.executionRecordId ≠ executionRecordId)
      (approvalError ("approval " ++ approvalId ++ " was consumed by different evidence"))
    pure (.unchanged approval)
  else store.consume approvals approval executionRecordId (clock 0)

/-- Check the operator of a new reconciliation. -/
def checkReconciler (approval : PendingApproval) (outcome : Outcome) (reconciledBy note : String)
    (attestation : Option OperatorAttestation) (now : Timestamp) : Except HarnessError Unit :=
  match store.operatorTrust with
  | none =>
    refuseIf (attestation.isSome = true)
      (approvalError "trusted operator keys are required to store an attestation")
  | some trust => do
    let _ ← asApprovalError <| trust.require attestation approval .executionReconciliation
      outcome.text reconciledBy note now

/-- A repeated reconciliation must give the operator input that is already durable. -/
def recognizeReconciliation (approval : PendingApproval) (intent : ReconciliationIntent)
    (outcome : Outcome) (reconciledBy note : String) (now : Timestamp) : Except HarnessError Unit := do
  refuseIf (¬ (intent.outcome = outcome ∧ intent.reconciledBy = reconciledBy ∧ intent.note = note))
    (approvalError "reconciliation already started with different operator input")
  refuseIf (approval.status ≠ .executing ∧ approval.status ≠ .consumed)
    (approvalError ("approval " ++ approval.approvalId ++ " is " ++ approval.status.text ++
      ", not reconcilable"))
  refuseIf (store.operatorTrust.isSome = true ∧
      (store.reconciliationIdentity approval intent now).ok = false)
    (approvalError ("operator identity verification failed: " ++
      (store.reconciliationIdentity approval intent now).detail))

/-- The operator's answer as it is stored. -/
def intended (approval : PendingApproval) (outcome : Outcome) (reconciledBy note : String)
    (attestation : Option OperatorAttestation) (now : Timestamp) : PendingApproval :=
  { approval with
    reconciliation := some
      { outcome := outcome
        reconciledBy := reconciledBy
        note := note
        startedAt := (attestation.map (·.signedAt)).getD now
        attestation := attestation } }

def startReconciliation (approvals : Approvals) (approval : PendingApproval) (outcome : Outcome)
    (reconciledBy note : String) (attestation : Option OperatorAttestation) (clock : Clock) :
    Except HarnessError (Update Approvals PendingApproval) := do
  refuseIf (approval.status ≠ .executing) (notExecuting approval.approvalId approval.status)
  store.checkReconciler approval outcome reconciledBy note attestation (clock 0)
  let started ← (intended approval outcome reconciledBy note attestation (clock 1)).checked
  store.replace approvals started

/-- Persist an idempotent operator answer before touching other stores. -/
def beginReconciliation (approvals : Approvals) (approvalId : String) (outcome : Outcome)
    (reconciledBy note : String) (attestation : Option OperatorAttestation) (clock : Clock) :
    Except HarnessError (Update Approvals PendingApproval) := do
  refuseIf (strip reconciledBy = "") (approvalError "reconciled_by must be non-empty")
  refuseIf (strip note = "") (approvalError "reconciliation note must be non-empty")
  let approval ← orRefuse (approvals.lookup approvalId) (unknown approvalId)
  match approval.reconciliation with
  -- the intent is the first to be stored; a retry must repeat it word for word
  | some intent => do
    store.recognizeReconciliation approval intent outcome (strip reconciledBy) (strip note) (clock 0)
    pure (.unchanged approval)
  | none =>
    store.startReconciliation approvals approval outcome (strip reconciledBy) (strip note)
      attestation clock

def markReconciled (approvals : Approvals) (approvalId executionRecordId : String)
    (clock : Clock) : Except HarnessError (Update Approvals PendingApproval) := do
  refuseIf (executionRecordId = "") (approvalError "execution_record_id must be non-empty")
  let approval ← orRefuse (approvals.lookup approvalId) (unknown approvalId)
  refuseIf (approval.reconciliation.isSome = false)
    (approvalError ("approval " ++ approvalId ++ " has no operator reconciliation intent"))
  if approval.status = .consumed then do
    refuseIf (approval.executionRecordId ≠ executionRecordId)
      (approvalError "reconciled approval is bound to a different evidence record")
    pure (.unchanged approval)
  else do
    refuseIf (approval.status ≠ .executing) (notExecuting approvalId approval.status)
    let consumed ← { approval with
      status := .consumed
      executionRecordId := executionRecordId
      consumedAt := some (clock 0)
      reconciliationCompletedAt := some (clock 0) }.checked
    store.replace approvals consumed

end ApprovalStore
end DefiantHarness
