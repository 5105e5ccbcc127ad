import DefiantHarness.World

/-! The read-only audit of evidence, approvals, budget and journal that precedes every
authority-bearing operation. -/
namespace DefiantHarness

open Foundation

namespace StateIntegrity

def integrityError (message : String) : HarnessError := ⟨.integrity, message⟩

def critical (code store detail : String) (actionId approvalId recordId : String) : IntegrityIssue :=
  ⟨code, .critical, store, detail, actionId, approvalId, recordId⟩

def warning (code store detail : String) (actionId approvalId recordId : String) : IntegrityIssue :=
  ⟨code, .warning, store, detail, actionId, approvalId, recordId⟩

/-- One finding when the condition holds. -/
def issueIf (condition : Prop) [Decidable condition] (issue : IntegrityIssue) : List IntegrityIssue :=
  if condition then [issue] else []

/-! ### Evidence -/

/-- Chain, contract and identity of every record, from the head of the log on. -/
def checkRecordsFrom (digests : Digests) :
    Nat → String → List String → List EvidenceRecord → Except HarnessError Unit
  | _, _, _, [] => pure ()
  | index, previous, seen, record :: records => do
    refuseIf (record.previousRecordHash ≠ previous)
      (valueError ("record " ++ toString index ++ " does not extend the preceding hash"))
    -- the link is checked before the content, as the file is read
    refuseIf (record.recordHash ≠ digests.record record.body)
      (valueError ("record " ++ toString index ++ " content does not match its hash"))
    record.validate
    refuseIf (record.recordId ∈ seen)
      (valueError ("record " ++ toString index ++ " duplicates record_id " ++ record.recordId))
    checkRecordsFrom digests (index + 1) record.recordHash (record.recordId :: seen) records

def checkRecords (digests : Digests) (records : List EvidenceRecord) : Except HarnessError Unit :=
  checkRecordsFrom digests 0 genesis [] records

def trusted (digests : Digests) (records : List EvidenceRecord) : Bool :=
  (checkRecords digests records).toBool

def auditEvidence (digests : Digests) (records : List EvidenceRecord) : List IntegrityIssue :=
  match checkRecords digests records with
  | .ok () => []
  | .error e => [critical "evidence_invalid" "evidence" e.message "" "" ""]

def auditEvidenceHead (head : Option EvidenceHead) (records : List EvidenceRecord) :
    List IntegrityIssue :=
  match head with
  | none => []
  | some head =>
    match EvidenceLog.assessHead head records with
    | .verified => []
    -- a crash between the record and its checkpoint
    | .forwardRecovery => [warning "evidence_head_checkpoint_behind" "evidence_head.json"
        "the valid evidence chain extends its durable checkpoint" "" "" ""]
    | .rollback => [critical "evidence_tail_rollback" "evidence_head.json"
        "the evidence chain is behind its durable checkpoint" "" "" ""]
    | .diverged => [critical "evidence_head_divergence" "evidence_head.json"
        "the evidence chain diverges from its durable checkpoint" "" "" ""]

/-! ### Journal -/

def auditJournal (journal : Option JournalOperation) : List IntegrityIssue :=
  match journal with
  | none => []
  | some operation => [warning "operation_recovery_required" "operation_journal"
      ("prepared " ++ operation.payload.kind ++ " operation requires authority recovery") "" "" ""]

/-- The prepared operation if it passes the validation of a read. -/
def readJournal (digests : Digests) (journal : Option JournalOperation) :
    List IntegrityIssue × Option JournalOperation :=
  match journal with
  | none => ([], none)
  | some operation =>
    match operation.validate digests with
    | .ok () => (auditJournal journal, some operation)
    | .error e =>
      ([critical "operation_journal_invalid" "operation_journal" e.message "" "" ""], none)

/-- The journal is creating the approval that this reservation is for. -/
def expectsUnboundReservation (journal : Option JournalOperation) (actionId : String)
    (reservation : Reservation) : Bool :=
  match journal with
  | some ⟨_, _, .approvalCreate approval _, _⟩ =>
    approval.terms.actionId == actionId && approval.terms.requestId == reservation.requestId &&
      approval.terms.reservedUsd.decimal.eqv reservation.amountUsd.decimal
  | _ => false

/-- The approval, action, request and amount of a journaled rejection or expiry. -/
def closing : Option JournalOperation → Option (String × String × String × PlainDecimal)
  | some ⟨_, _, .approvalReject approvalId actionId requestId reservedUsd _ _ _, _⟩ =>
    some (approvalId, actionId, requestId, reservedUsd)
  | some ⟨_, _, .approvalExpire approvalId actionId requestId reservedUsd, _⟩ =>
    some (approvalId, actionId, requestId, reservedUsd)
  | _ => none

/-- The journal is giving back the reservation of this approval. -/
def expectsTerminalReservation (journal : Option JournalOperation) (approval : PendingApproval)
    (reservation : Reservation) : Bool :=
  match closing journal with
  -- a closing operation that is journaled but not yet carried out
  | some (approvalId, actionId, requestId, reservedUsd) =>
    approvalId == approval.approvalId && actionId == approval.actionId &&
      requestId == approval.terms.requestId &&
      reservation.requestId == approval.terms.requestId &&
      reservedUsd.decimal.eqv approval.terms.reservedUsd.decimal &&
      approval.terms.reservedUsd.decimal.eqv reservation.amountUsd.decimal
  | none => false

def completesApproval (journal : Option JournalOperation) (approval : PendingApproval) : Bool :=
  match journal with
  | some ⟨_, _, .executionComplete authority approvalId _ _ _, _⟩ =>
    approvalId == approval.approvalId && authority.actionId == approval.actionId &&
      authority.requestId == approval.terms.requestId &&
      authority.authorizationHash == approval.terms.authorizationHash
  | _ => false

def completesAuthorization (journal : Option JournalOperation) (record : EvidenceRecord) : Bool :=
  match journal with
  | some ⟨_, _, .executionComplete authority _ _ _ _, _⟩ =>
    authority.authorityRecordId == record.recordId &&
      authority.authorityRecordHash == record.recordHash &&
      authority.actionId == record.actionId && authority.requestId == record.requestId &&
      authority.authorizationHash == record.authorizationHash
  | _ => false

/-! ### Approvals -/

def checkApproval (digests : Digests) (item : Sigma fun _ : String => PendingApproval) :
    Except HarnessError Unit := do
  item.2.terms.validate digests
  item.2.validate
  refuseIf (item.2.approvalId ≠ item.1)
    (valueError ("approval key " ++ item.1 ++ " does not match " ++ item.2.approvalId))

def checkApprovals (digests : Digests) (approvals : Approvals) : Except HarnessError Unit :=
  checkAll (checkApproval digests) approvals.entries

def approvalCritical (code store detail : String) (approval : PendingApproval) : IntegrityIssue :=
  critical code store detail approval.actionId approval.approvalId ""

def approvalWarning (code store detail : String) (approval : PendingApproval) : IntegrityIssue :=
  warning code store detail approval.actionId approval.approvalId ""

/-- The stored decision verifies against the pinned keys. -/
def auditDecisionIdentity (trust : OperatorTrustPolicy) (approval : PendingApproval)
    (now : Timestamp) : List IntegrityIssue :=
  let status := trust.assess approval.decisionAttestation approval .approvalDecision
    (decisionOutcome (approval.status ≠ .rejected)) (approval.decidedBy.getD "") approval.note now
  issueIf (approval.status ∈ [.approved, .executing, .consumed, .rejected] ∧ status.ok = false)
    (approvalCritical "operator_decision_identity_invalid" "approvals" status.detail approval)

def auditReconciliationIdentity (trust : OperatorTrustPolicy) (approval : PendingApproval)
    (now : Timestamp) : List IntegrityIssue :=
  match approval.reconciliation with
  | none => []
  | some intent =>
    let status := trust.assess intent.attestation approval .executionReconciliation
      intent.outcome.text intent.reconciledBy intent.note now
    issueIf (status.ok = false)
      (approvalCritical "operator_reconciliation_identity_invalid" "approvals" status.detail approval)

def auditIdentities (trust : Option OperatorTrustPolicy) (approval : PendingApproval)
    (decisionNow reconciliationNow : Timestamp) : List IntegrityIssue :=
  match trust with
  | none => []
  | some trust => auditDecisionIdentity trust approval decisionNow ++
      auditReconciliationIdentity trust approval reconciliationNow

def auditExecuting (journal : Option JournalOperation) (approval : PendingApproval) :
    List IntegrityIssue :=
  if approval.status = .executing then
    -- a result is known, or nobody knows what happened
    if completesApproval journal approval then
      [approvalWarning "execution_completion_recovery_required" "approvals"
        "known tool result requires deterministic local recovery" approval]
    else
      [approvalWarning "execution_recovery_required" "approvals"
        (if approval.reconciliation.isSome then "operator reconciliation is in progress"
        else "execution outcome is uncertain") approval]
  else []

def auditSnapshots (digests : Digests) (approval : PendingApproval) : List IntegrityIssue :=
  issueIf (approval.status.active = true ∧ (approval.terms.actionSnapshot = none ∨
      approval.terms.requestSnapshot = none ∨ approval.terms.decisionSnapshot = none))
    (approvalWarning "approval_snapshot_missing" "approvals"
      "active approval cannot be resumed without every durable snapshot" approval) ++
  issueIf (∃ action ∈ approval.terms.actionSnapshot, ¬ (action.actionId = approval.actionId ∧
      action.requestId = approval.terms.requestId ∧
      action.payloadHash digests = approval.terms.payloadHash ∧
      action.authorizationHash digests = approval.terms.authorizationHash))
    (approvalCritical "approval_action_mismatch" "approvals"
      "held action does not match approval binding" approval) ++
  issueIf (∃ request ∈ approval.terms.requestSnapshot, request.requestId ≠ approval.terms.requestId)
    (approvalCritical "approval_request_mismatch" "approvals"
      "held request does not match approval binding" approval)

/-- The findings about one approval by itself. -/
def auditApprovalShape (digests : Digests) (trust : Option OperatorTrustPolicy)
    (journal : Option JournalOperation) (approval : PendingApproval)
    (decisionNow reconciliationNow : Timestamp) : List IntegrityIssue :=
  issueIf ((approval.status = .approved ∨ approval.status = .executing) ∧
      approval.decidedBy.getD "" = "")
    (approvalCritical "approved_identity_missing" "approvals"
      "approved or executing approval has no operator identity" approval) ++
  auditIdentities trust approval decisionNow reconciliationNow ++
  issueIf (approval.status = .consumed ∧ approval.executionRecordId = "")
    (approvalCritical "consumed_evidence_missing" "approvals"
      "consumed approval has no execution evidence reference" approval) ++
  auditExecuting journal approval ++
  auditSnapshots digests approval

/-- The actions of the active approvals. -/
def activeActions (approvals : Approvals) : List String :=
  (approvals.values.filter (·.status.active)).map (·.actionId)

def auditDuplicates (approvals : Approvals) : List IntegrityIssue :=
  (activeActions approvals).dedup.flatMap fun actionId =>
    issueIf (1 < (activeActions approvals).count actionId)
      (critical "duplicate_active_approval" "approvals"
        ("action " ++ actionId ++ " has " ++ toString ((activeActions approvals).count actionId) ++
          " active approvals") actionId "" "")

/-- The approvals to check further, none when the file does not load. -/
def auditApprovals (site : Deployment) (approvals : Approvals)
    (journal : Option JournalOperation) (clock : Clock) : List IntegrityIssue × Approvals :=
  match checkApprovals site.digests approvals with
  | .error e => ([critical "approvals_invalid" "approvals" e.message "" "" ""], ∅)
  | .ok () =>
    (auditDuplicates approvals ++
      approvals.values.zipIdx.flatMap (fun item => auditApprovalShape site.digests
        site.approvals.operatorTrust journal item.1 (clock (2 * item.2)) (clock (2 * item.2 + 1))),
      approvals)

/-! ### Known results -/

def resultCritical (code store detail : String) (entry : LedgerEntry) (recordId : String) :
    IntegrityIssue :=
  critical code store detail entry.actionId "" recordId

/-- `money` of two amounts is the same. The first operand is validated first. -/
def sameMoney (a b : Decimal) : Except HarnessError Bool := do
  let a ← money a "amount"
  let b ← money b "amount"
  pure (a.eqv b)

/-- An absent remaining balance is read as zero. -/
def recordedRemaining (record : EvidenceRecord) : Decimal :=
  (record.budgetRemainingUsd.map (·.decimal)).getD .zero

/-- Cost and remaining balance of a record are those of the settlement. A later comparison is
made only when the earlier ones succeed. -/
def amountsMatch (record : EvidenceRecord) (entry : LedgerEntry) : Except HarnessError Bool := do
  let cost ← sameMoney record.costUsd.decimal entry.amountUsd.decimal
  if cost then sameMoney (recordedRemaining record) entry.balanceAfterUsd.decimal
  else pure false

/-- The record that a journaled completion is about to append is this settlement's. -/
def preparedMatches (journal : Option JournalOperation) (entry : LedgerEntry) (recordId : String) :
    Except HarnessError Bool :=
  match journal with
  | some ⟨_, _, .executionComplete .., prepared⟩ =>
    if prepared.recordId = recordId ∧ prepared.requestId = entry.requestId ∧
        prepared.actionId = entry.actionId then amountsMatch prepared entry
    else pure false
  | _ => pure false

def settlementMatches (record : EvidenceRecord) (entry : LedgerEntry) : Except HarnessError Bool :=
  if entry.kind = .debit ∧ record.requestId = entry.requestId ∧
      record.actionId = entry.actionId ∧
      (record.resultStatus = .succeeded ∨ record.resultStatus = .failed) then
    amountsMatch record entry
  else pure false

/-- The findings about one settlement that names its completion record for the first time. -/
def auditSettlement (journal : Option JournalOperation) (records : List EvidenceRecord)
    (entry : LedgerEntry) (recordId : String) : Except HarnessError (List IntegrityIssue) :=
  match records.find? (·.recordId == recordId) with
  -- the record may still be only in the journal
  | none => do
    let found ← preparedMatches journal entry recordId
    pure (issueIf (found = false) (resultCritical "known_result_evidence_missing" "cross_store"
      "known-result settlement references absent terminal evidence" entry recordId))
  | some record => do
    let found ← settlementMatches record entry
    pure (issueIf (found = false) (resultCritical "known_result_settlement_mismatch" "cross_store"
      "known-result settlement differs from terminal evidence" entry recordId))

/-- The settlements of known results, with the completion records already seen. -/
def auditKnownResultSettlements (journal : Option JournalOperation)
    (records : List EvidenceRecord) :
    List String → List LedgerEntry → Except HarnessError (List IntegrityIssue)
  | _, [] => pure []
  | seen, entry :: entries =>
    match entry.completionRecordId with
    | none => auditKnownResultSettlements journal records seen entries
    | some recordId =>
      -- two debits may not stand for one result
      if recordId ∈ seen then do
        let rest ← auditKnownResultSettlements journal records seen entries
        pure (resultCritical "known_result_settlement_duplicate" "budget"
          "terminal evidence is referenced by multiple settlements" entry recordId :: rest)
      else do
        let found ← auditSettlement journal records entry recordId
        let rest ← auditKnownResultSettlements journal records (recordId :: seen) entries
        pure (found ++ rest)

/-! ### Across stores -/

def approvalsOf (approvals : Approvals) (actionId : String) : List PendingApproval :=
  approvals.values.filter (·.actionId == actionId)

/-- An authorization of the request that has no terminal record yet. -/
def hasOpenAuthorization (records : List EvidenceRecord) (requestId : String) : Bool :=
  records.any fun record => record.requestId == requestId && record.resultStatus == .skipped &&
    !EvidenceLog.isTerminated records record.authorizationHash

def reservationBound (approval : PendingApproval) (reservation : Reservation) : Bool :=
  reservation.requestId == approval.terms.requestId &&
    reservation.amountUsd.text == approval.terms.reservedUsd.text

/-- What the checks across stores look at. Evidence that is not trusted is not looked at. -/
structure View where
  records : List EvidenceRecord
  trusted : Bool
  approvals : Approvals
  budget : BudgetDocument
  journal : Option JournalOperation

namespace View

variable (view : View)

def actionRecords (actionId : String) : List EvidenceRecord :=
  EvidenceLog.byAction view.records actionId

def auditReservation (item : Sigma fun _ : String => Reservation) : List IntegrityIssue :=
  let owners := approvalsOf view.approvals item.1
  let active := owners.filter (·.status.active)
  if active ≠ [] then
    active.flatMap fun approval => issueIf (reservationBound approval item.2 = false)
      (approvalCritical "reservation_binding_mismatch" "cross_store"
        "reservation request or amount differs from its approval" approval)
  else
    -- without an active approval, something else must expect the reservation
    issueIf (¬ (view.trusted = true ∧
          hasOpenAuthorization (view.actionRecords item.1) item.2.requestId = true) ∧
        expectsUnboundReservation view.journal item.1 item.2 = false ∧
        owners.any (expectsTerminalReservation view.journal · item.2) = false)
      (critical "orphan_reservation" "budget"
        "live reservation has no active approval or sealed authorization" item.1 "" "")

def auditOpenAuthorization (record : EvidenceRecord) : List IntegrityIssue :=
  if completesAuthorization view.journal record ∨ approvalsOf view.approvals record.actionId ≠ [] then
    []
  -- an authority that asked for approval must have one
  else if record.decision ≠ .allow then
    [critical "approval_authorization_missing" "cross_store"
      "sealed approval-required authorization has no approval record" record.actionId ""
      record.recordId]
  else
    [warning "authorization_reconciliation_required" "evidence"
      "sealed approval-free authorization has no terminal outcome" record.actionId ""
      record.recordId]

def executingBudgetAccounted (approval : PendingApproval) : Bool :=
  decide (approval.actionId ∈ view.budget.reservations) ||
    decide (approval.actionId ∈ view.budget.reconciliations) ||
    decide (Ledger.dispositions view.budget approval.terms.requestId approval.actionId ≠ []) ||
    EvidenceLog.isTerminated (view.actionRecords approval.actionId) approval.terms.authorizationHash

def auditConsumed (approval : PendingApproval) : List IntegrityIssue :=
  if approval.executionRecordId = "" then []
  else
    match view.records.find? (·.recordId == approval.executionRecordId) with
    | none => [critical "consumed_evidence_not_found" "cross_store"
        "consumed approval references an absent evidence record" approval.actionId
        approval.approvalId approval.executionRecordId]
    | some record => issueIf (¬ (record.actionId = approval.actionId ∧
          record.requestId = approval.terms.requestId ∧
          record.authorizationHash = approval.terms.authorizationHash ∧
          record.resultStatus.terminal = true))
        (critical "consumed_evidence_mismatch" "cross_store"
          "consumed evidence does not match the approval authority binding" approval.actionId
          approval.approvalId approval.executionRecordId)

/-- A terminal approval whose reservation is still live. The remaining checks of such an approval
are skipped while the journal is giving the reservation back. -/
def retained (approval : PendingApproval) : Option Reservation :=
  if approval.status.active then none else view.budget.reservations.lookup approval.actionId

def terminalReservationIssues (approval : PendingApproval) : List IntegrityIssue :=
  issueIf (view.retained approval ≠ none)
    (approvalCritical "terminal_approval_has_reservation" "cross_store"
      "terminal approval still owns a live reservation" approval)

def auditIntent (approval : PendingApproval) : List IntegrityIssue :=
  if approval.reconciliation.isSome = true ∧ approval.actionId ∉ view.budget.reconciliations then
    [⟨"reconciliation_budget_missing",
      if approval.status = .consumed then .critical else .warning, "cross_store",
      "operator intent has no durable budget reconciliation marker", approval.actionId,
      approval.approvalId, ""⟩]
  else []

def auditApprovalBudget (approval : PendingApproval) : List IntegrityIssue :=
  let funded := Decimal.zero.lt approval.terms.reservedUsd.decimal
  issueIf ((approval.status = .pending ∨ approval.status = .approved) ∧ funded = true ∧
      approval.actionId ∉ view.budget.reservations)
    (approvalCritical "active_reservation_missing" "cross_store"
      "funded pending or approved action has no live reservation" approval) ++
  issueIf (approval.status = .executing ∧ funded = true ∧
      view.executingBudgetAccounted approval = false)
    (approvalCritical "executing_budget_unaccounted" "cross_store"
      "executing approval has no reservation or terminal budget state" approval) ++
  -- a terminal approval keeps its reservation only while the journal closes it
  if (view.retained approval).any (expectsTerminalReservation view.journal approval ·) then []
  else
    view.terminalReservationIssues approval ++
    (if approval.status = .consumed ∧ view.trusted = true then view.auditConsumed approval else []) ++
    view.auditIntent approval

def auditReconciledRecord (record : EvidenceRecord) : List IntegrityIssue :=
  issueIf (record.reconciliationOutcome.isSome = true ∧
      record.actionId ∉ view.budget.reconciliations ∧ approvalsOf view.approvals record.actionId = [])
    (critical "authorization_reconciliation_budget_missing" "cross_store"
      "terminal authorization reconciliation has no budget marker" record.actionId ""
      record.recordId)

/-- The last entry of a kind for an action. -/
def lastEntry (kind : EntryKind) (requestId actionId : String) : Option LedgerEntry :=
  view.budget.entries.reverse.find? fun entry =>
    entry.kind == kind && entry.requestId == requestId && entry.actionId == actionId

def durableExpected (subject : AuthorizationReconciliationSubject) : Decimal :=
  ((view.lastEntry .reserve subject.requestId subject.actionId).map (·.amountUsd.decimal)).getD .zero

/-- The terminal evidence agrees with the marker. -/
def markerEvidenceMatches (subject : AuthorizationReconciliationSubject)
    (marker : Reconciliation) (terminal : EvidenceRecord) : Bool :=
  -- what was charged, or what would have been
  let cost := match view.lastEntry .debit subject.requestId subject.actionId with
    | some entry => entry.amountUsd.decimal
    | none => if terminal.resultStatus = .notExecuted then .zero else view.durableExpected subject
  decide (terminal.resultStatus = marker.supplied.outcome.status) &&
    decide (terminal.reconciliationOutcome = some marker.supplied.outcome) &&
    decide (terminal.reconciledBy = marker.supplied.reconciledBy) &&
    decide (terminal.reconciliationNote = marker.supplied.note) &&
    terminal.costUsd.decimal.eqv cost

def journalReconciles (authorityId : String) : Bool :=
  match view.journal with
  | some ⟨_, _, .authorizationReconcile authority .., _⟩ =>
    authority.authorityRecordId == authorityId &&
      (EvidenceLog.openAuthorizations view.records).any (·.recordId == authorityId)
  | _ => false

def auditMarkerEvidence (actionId : String) (subject : AuthorizationReconciliationSubject)
    (marker : Reconciliation) : List IntegrityIssue :=
  match EvidenceLog.latestTerminal view.records actionId subject.authorizationHash with
  -- the terminal record may still be journaled
  | none => issueIf (view.journalReconciles subject.authorityRecordId = false)
      (critical "authorization_reconciliation_evidence_missing" "cross_store"
        "budget reconciliation has no matching terminal evidence" actionId ""
        subject.authorityRecordId)
  | some terminal => issueIf (view.markerEvidenceMatches subject marker terminal = false)
      (critical "authorization_reconciliation_evidence_mismatch" "cross_store"
        "terminal evidence differs from operator reconciliation" actionId "" terminal.recordId)

def assessMarker (trust : Option OperatorTrustPolicy) (authority : LedgerAuthority)
    (subject : AuthorizationReconciliationSubject) (marker : Reconciliation) (now : Timestamp) :
    Except HarnessError Unit :=
  match trust with
  | none => pure ()
  | some trust => do
    let _ ← trust.requireAuthorizationReconciliation authority.attestation subject
      marker.supplied.outcome.text marker.supplied.reconciledBy marker.supplied.note now

/-- The findings about a marker of an approval-free authorization; each one ends the audit of
the marker. -/
def auditAuthorizationMarker (trust : Option OperatorTrustPolicy) (actionId : String)
    (marker : Reconciliation) (authority : LedgerAuthority) (now : Timestamp) :
    List IntegrityIssue :=
  match view.records.find? (·.recordId == authority.recordId) with
  | none => [critical "authorization_reconciliation_authority_missing" "budget"
      "authorization reconciliation has no sealed authority record" actionId "" authority.recordId]
  | some record =>
    match AuthorizationReconciliationSubject.fromRecord record with
    | .error e => [critical "authorization_reconciliation_authority_invalid" "evidence" e.message
        actionId "" authority.recordId]
    | .ok subject =>
      if ¬ (actionId = subject.actionId ∧ marker.supplied.requestId = subject.requestId ∧
          authority.recordHash = subject.authorityRecordHash) then
        [critical "authorization_reconciliation_binding_mismatch" "cross_store"
          "budget reconciliation differs from its sealed authorization" actionId ""
          authority.recordId]
      else if marker.supplied.expectedUsd.decimal.eqv (view.durableExpected subject) = false then
        [critical "authorization_reconciliation_estimate_mismatch" "budget"
          "reconciliation estimate differs from durable authorization exposure" actionId ""
          authority.recordId]
      else
        match assessMarker trust authority subject marker now with
        | .error e => [critical "authorization_reconciliation_identity_invalid" "budget" e.message
            actionId "" authority.recordId]
        -- the marker's operator is known; its record in the log is compared last
        | .ok () => view.auditMarkerEvidence actionId subject marker

/-- The approval intent that a marker of the approval path repeats. -/
def intentMatches (approval : PendingApproval) (intent : ReconciliationIntent)
    (marker : Reconciliation) : Bool :=
  decide (marker.supplied.requestId = approval.terms.requestId) &&
    decide (marker.supplied.outcome = intent.outcome) &&
    decide (marker.supplied.reconciledBy = intent.reconciledBy) &&
    decide (marker.supplied.note = intent.note) &&
    decide (marker.supplied.expectedUsd.text = approval.terms.reservedUsd.text)

def auditMarkerOwner (trust : Option OperatorTrustPolicy) (actionId : String)
    (marker : Reconciliation) (now : Timestamp) : List IntegrityIssue :=
  match (approvalsOf view.approvals actionId).find? (·.reconciliation.isSome) with
  | none =>
    match marker.supplied.authority with
    | some authority => view.auditAuthorizationMarker trust actionId marker authority now
    | none => [critical "orphan_budget_reconciliation" "budget"
        "budget reconciliation has no matching operator intent" actionId "" ""]
  | some approval => issueIf
      ((approval.reconciliation.map (intentMatches approval · marker)).getD true = false)
      (approvalCritical "reconciliation_binding_mismatch" "cross_store"
        "budget reconciliation differs from immutable operator intent" approval)

def auditMarker (trust : Option OperatorTrustPolicy) (item : Sigma fun _ : String => Reconciliation)
    (now : Timestamp) : List IntegrityIssue :=
  issueIf (item.1 ∈ view.budget.reservations)
    (critical "reconciliation_reservation_conflict" "budget"
      "reconciled action still has a live reservation" item.1 "" "") ++
  view.auditMarkerOwner trust item.1 item.2 now

def auditTrustedEvidence : List IntegrityIssue :=
  if view.trusted then
    (EvidenceLog.openAuthorizations view.records).flatMap view.auditOpenAuthorization ++
      view.records.flatMap view.auditReconciledRecord
  else []

/-- The checks that compare the stores with each other. -/
def auditCrossStore (trust : Option OperatorTrustPolicy) (clock : Clock) :
    Except HarnessError (List IntegrityIssue) := do
  -- nothing is compared with a log that does not verify
  let settlements ← if view.trusted then
      auditKnownResultSettlements view.journal view.records [] view.budget.entries
    else pure []
  pure (settlements ++
    view.budget.reservations.entries.flatMap view.auditReservation ++
    view.auditTrustedEvidence ++
    view.approvals.values.flatMap view.auditApprovalBudget ++
    view.budget.reconciliations.entries.zipIdx.flatMap
      fun item => view.auditMarker trust item.1 (clock item.2))

end View

/-- Critical findings first, then by code, approval, action and record. -/
def issueKey (issue : IntegrityIssue) : List String :=
  [if issue.severity = .critical then "0" else "1", issue.code, issue.approvalId, issue.actionId,
    issue.recordId]

def sortIssues (issues : List IntegrityIssue) : List IntegrityIssue :=
  issues.insertionSort fun a b => issueKey a ≤ issueKey b

/-- All findings about the state, without changing it. -/
def audit (site : Deployment) (reading : Nat) (disk : Disk) :
    Except HarnessError (List IntegrityIssue) := do
  let clock := site.clock reading
  let (journalIssues, journal) := readJournal site.digests disk.journal
  let trusted := trusted site.digests disk.records
  let (approvalIssues, approvals) := auditApprovals site disk.approvals journal clock
  let view : View :=
    -- an untrusted log shows no records to the other audits
    { records := if trusted then disk.records else []
      trusted := trusted
      approvals := approvals
      budget := disk.ledger.document
      journal := journal }
  let crossIssues ← view.auditCrossStore site.approvals.operatorTrust
    fun i => clock (2 * approvals.values.length + i)
  pure (sortIssues (site.surroundings reading disk ++ journalIssues ++
    auditEvidence site.digests disk.records ++
    (if trusted then auditEvidenceHead disk.head disk.records else []) ++
    approvalIssues ++ crossIssues))

/-- Raise the first critical finding. -/
def requireSafe (site : Deployment) (reading : Nat) (disk : Disk) : Except HarnessError Unit := do
  let issues ← audit site reading disk
  match issues.find? (·.severity == .critical) with
  | none => pure ()
  | some first => throw (integrityError ("unsafe local state (" ++ first.code ++ "): " ++
      first.detail ++ "; run 'dah --workdir <path> doctor' for the full read-only report"))

end StateIntegrity
end DefiantHarness
