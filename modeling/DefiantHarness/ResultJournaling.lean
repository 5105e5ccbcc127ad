import DefiantHarness.Attribution
import DefiantHarness.EntryDrafting
import DefiantHarness.SettlementPreview
import Mathlib.Data.List.TakeWhile

/-! The completion of a known result: what it takes to journal it before anything else is written. -/
namespace DefiantHarness

open Foundation Proc Control

/-! ### Text -/

theorem strip_ne_empty {text : String} (visible : ∃ c ∈ text.toList, isSpace c = false) :
    strip text ≠ "" := by
  obtain ⟨c, member, dark⟩ := visible
  intro blank
  rw [strip_eq_empty_iff.1 blank c member] at dark
  cases dark

private theorem mem_of_startsWith {pre text : String} (starts : startsWith pre text = true) {c : Char}
    (member : c ∈ pre.toList) : c ∈ text.toList := by
  rw [startsWith, charsOf_eq, charsOf_eq, List.isPrefixOf_iff_prefix] at starts
  exact starts.subset member

theorem isSha256_visible {value : String} (digest : isSha256 value = true) : strip value ≠ "" := by
  simp only [isSha256, Bool.and_eq_true] at digest
  exact strip_ne_empty ⟨'s', mem_of_startsWith digest.1.1 (by decide), by decide⟩

theorem evidenceId_visible (suffix : String) : strip ("evd" ++ "_" ++ suffix) ≠ "" := by
  apply strip_ne_empty
  exact ⟨'e', by simp, by decide⟩

namespace Harness

variable {site : Deployment} {harness : Harness} {w : World} {action : ProposedAction}
  {request : HarnessRequest} {decision : GuardrailDecision} {status : ResultStatus}
  {details : RecordDetails}

/-! ### The record of a completion -/

/-- The record that `make_record` builds from what it looks up. -/
def drafted (site : Deployment) (harness : Harness) (action : ProposedAction)
    (request : HarnessRequest) (decision : GuardrailDecision) (status : ResultStatus)
    (details : RecordDetails) (basis : EnforcementBasis) (clock : Clock) (remaining : Decimal)
    (recordId : String) : EvidenceRecord :=
  { requestId := request.requestId
    actionId := action.actionId
    decision := decision.decision
    resultStatus := status
    recordId := recordId
    timestamp := clock 1
    agentRunner := harness.adapter.runnerName
    modelId := harness.adapter.modelId
    userId := request.userId
    workspaceId := request.workspaceId
    toolName := action.toolName
    target := action.target
    sideEffectLevel := action.sideEffectLevel
    policyIds := decision.policyIds
    policyVersion := decision.policyVersion
    rulesetHash := decision.rulesetHash
    decisionReason := decision.reason
    decisionInputs := decision.decisionInputs
    approvedBy := details.approvedBy
    approvedAt := if details.approvedBy.getD "" = "" then none else some (clock 0)
    payloadHash := action.payloadHash site.digests
    authorizationHash := action.authorizationHash site.digests
    payloadTrust := action.payloadTrust
    inputRefs := action.payloadSources
    -- a record without a result hashes nothing and costs nothing
    outputHash := (details.result.map (site.digests.output ·.output)).getD ""
    resultSummary := if details.detail = "" then (details.result.map (·.summary)).getD ""
      else details.detail
    costUsd := ((details.result.map (·.costUsd)).getD Decimal.zero).plain
    budgetRemainingUsd := some remaining.plain
    dryRun := (details.result.map (·.dryRun)).getD harness.dryRun
    reconciliationOutcome := details.reconciliation.map (·.outcome)
    reconciledBy := (details.reconciliation.map (·.reconciledBy)).getD ""
    reconciledAt := details.reconciliation.map (·.startedAt)
    reconciliationNote := (details.reconciliation.map (·.note)).getD ""
    -- sealed when it is appended
    previousRecordHash := ""
    recordHash := ""
    enforcementBasis := basis }

theorem makeRecord_eq : harness.makeRecord site action request decision status details = (do
    let basis ← harness.basisForAction action.actionId
    let clock ← Control.now site
    let disk ← Control.disk
    let remaining ← Proc.lift (remainingBudget disk.ledger details.budgetRemainingUsd)
    let recordId ← Control.newId site "evd"
    let record := drafted site harness action request decision status details basis clock remaining
      recordId
    Proc.lift record.validate
    pure record) := rfl

/-- Some record that `make_record` builds with this remaining budget. -/
def Draft (site : Deployment) (harness : Harness) (action : ProposedAction)
    (request : HarnessRequest) (decision : GuardrailDecision) (status : ResultStatus)
    (details : RecordDetails) (remaining : Decimal) (record : EvidenceRecord) : Prop :=
  ∃ basis clock suffix, record = drafted site harness action request decision status details basis
    clock remaining ("evd" ++ "_" ++ suffix)

/-- The cached basis is looked up without touching anything else. -/
private theorem basisForAction_ends {Q : EnforcementBasis → World → Prop}
    {E : HarnessError → World → Prop} {actionId : String}
    (rest : ∀ basis bases, Q basis { w with bases := bases }) :
    (harness.basisForAction actionId).Ends Q E w := by
  unfold basisForAction
  rw [ends_bind, ends_get]
  split
  next => exact (ends_of_ok (p := rememberBasis _ _) rfl).2 (rest _ _)
  next => exact (ends_of_ok (p := rememberBasis _ _) rfl).2 (rest _ _)

/-- A new record, with whatever kept `J`. -/
theorem makeRecord_keeps {J : World → Prop} (bases : ∀ t cache, J t → J { t with bases := cache })
    (tick : ∀ t, J t → J t.ticked) (draw : ∀ t, J t → J t.drawn) (holds : J w) :
    Keeps J (harness.makeRecord site action request decision status details)
      (fun record t => t.disk = w.disk ∧ record.validate = .ok () ∧ ∃ remaining,
        remainingBudget w.disk.ledger details.budgetRemainingUsd = .ok remaining ∧
          Draft site harness action request decision status details remaining record) w := by
  rw [makeRecord_eq]
  apply Keeps.bind (Q := fun _ t => t.disk = w.disk) (basisForAction_ends fun _ _ => ⟨bases _ _ holds, rfl⟩)
  intro basis t later disk
  apply keeps_now_bind
  apply keeps_disk_bind
  have ticked := tick t later
  apply keeps_lift_bind ticked
  intro remaining read
  apply keeps_newId_bind
  have drawn := draw _ ticked
  apply keeps_lift_bind drawn
  intro _ valid
  rw [World.ticked_disk, disk] at read
  exact keeps_pure drawn ⟨disk, valid, remaining, read, basis, _, _, rfl⟩

/-- A record of nonblank ids and of a cost that is not negative is built whatever happens. -/
theorem makeRecord_succeeds {remaining : Decimal}
    (supplied : details.budgetRemainingUsd = some remaining)
    (named : strip request.requestId ≠ "" ∧ strip action.actionId ≠ "")
    (cost : 0 ≤ ((details.result.map (·.costUsd)).getD Decimal.zero).value)
    {Q : EvidenceRecord → World → Prop} {E : HarnessError → World → Prop}
    (rest : ∀ basis bases, Q (drafted site harness action request decision status details basis
      (site.clock w.readings) remaining ("evd" ++ "_" ++ site.ids w.issued)) { w with
        bases := bases, readings := w.readings + 1, issued := w.issued + 1 }) :
    (harness.makeRecord site action request decision status details).Ends Q E w := by
  rw [makeRecord_eq, ends_bind]
  apply basisForAction_ends
  intro basis bases
  simp only [ends_bind, ends_now, ends_disk, remainingBudget, supplied, pure_eq_ok, ends_lift_ok,
    ends_newId]
  -- nothing else than the two identifiers and the cost can be refused
  have valid : ∀ clock recordId, strip recordId ≠ "" →
      (drafted site harness action request decision status details basis clock remaining
        recordId).validate = .ok () := by
    intro clock recordId visible
    have amount : 0 ≤ (drafted site harness action request decision status details basis clock
        remaining recordId).costUsd.decimal.value := by
      rw [drafted, Decimal.plain_value]
      exact cost
    simp only [EvidenceRecord.validate, requireText, refuseIf_ok_iff, bind_ok_iff, money_ok_iff]
    exact ⟨(), named.1, (), named.2, (), visible, _, ⟨rfl, amount⟩, rfl⟩
  rw [valid _ _ (evidenceId_visible _), ends_lift_ok, ends_pure]
  exact rest basis bases

end Harness

/-! ### The operation of a completion -/

/-- The terminal evidence of an authorization whose tool has answered. -/
def completionRecord (site : Deployment) (authority : EvidenceRecord) (result : ToolResult)
    (actual : Decimal) (recordId : String) (clock : Clock) (remaining : Decimal)
    (basis : EnforcementBasis) : EvidenceRecord :=
  { authority with
    recordId := recordId
    timestamp := clock 1
    resultStatus := result.status.result
    -- everything the result does not decide is copied from the authority
    approvedAt := if authority.approvedBy.getD "" = "" then none else some (clock 0)
    outputHash := site.digests.output result.output
    resultSummary := result.summary
    costUsd := actual.plain
    budgetRemainingUsd := some remaining.plain
    dryRun := result.dryRun
    previousRecordHash := ""
    recordHash := ""
    enforcementBasis := basis }

/-- No more identifiers and times have been handed out than at `last`. -/
def Until (last w : World) : Prop := w.issued ≤ last.issued ∧ w.readings ≤ last.readings

theorem Until.refl (w : World) : Until w w := ⟨le_rfl, le_rfl⟩

theorem Until.trans {last t w : World} (first : Until last t) (second : Until t w) : Until last w :=
  ⟨second.1.trans first.1, second.2.trans first.2⟩

/-- A time that the deployment has handed out before `last`. -/
def Stamp (site : Deployment) (last : World) (now : Timestamp) : Prop :=
  ∃ k < last.readings, now = site.clock k 0

/-- The operation completes the authorization with this result, under identifiers and times that the
deployment has handed out before `last`. -/
structure Completes (site : Deployment) (last : World) (ledger : Ledger) (authority : EvidenceRecord)
    (approvalId : String) (estimate : Decimal) (result : ToolResult) (operation : JournalOperation) :
    Prop where
  payload : operation.payload = .executionComplete (.ofRecord authority) approvalId estimate
    (Harness.actualCost result estimate)
    (Harness.completionDisposition estimate (Harness.actualCost result estimate))
  evidence : ∃ recordId, Drawn site last.issued "evd" recordId ∧ ∃ k < last.readings, ∃ remaining,
    Harness.completionRemaining ledger
        (Harness.completionDisposition estimate (Harness.actualCost result estimate)) estimate
        (Harness.actualCost result estimate) authority.requestId authority.actionId = .ok remaining ∧
      ∃ basis, operation.evidence = completionRecord site authority result
        (Harness.actualCost result estimate) recordId (site.clock k) remaining basis
  operationId : Drawn site last.issued "op" operation.operationId
  preparedAt : Stamp site last operation.preparedAt

/-- The journal takes the payload of the operation, and the operation under its own name. -/
def FitsJournal (site : Deployment) (operation : JournalOperation) : Prop :=
  site.limits.operation ⟨"", 0, operation.payload, operation.evidence⟩ = true ∧
    site.limits.operation operation = true

/-- The reservation and the approval under which an action is dispatched: a new action is estimated by
its adapter and its tool, an approved one by what is reserved for it. -/
structure Funding (harness : Harness) (disk : Disk) (action : ProposedAction) (estimate : Decimal)
    (approvalId : String) : Prop where
  unreserved : disk.ledger.document.reservations.lookup action.actionId = none → estimate.value = 0
  reserved : ∀ reservation,
    disk.ledger.document.reservations.lookup action.actionId = some reservation →
      reservation.amountUsd.decimal.value = estimate.value
  unowned : approvalId = "" → ApprovalStore.forAction disk.approvals action.actionId = []
  owned : approvalId ≠ "" → ∃ approval, disk.approvals.lookup approvalId = some approval ∧
    approval.actionId = action.actionId
  proposed : approvalId = "" →
    estimate = Harness.larger action.estimatedCostUsd (harness.specCost action)
  held : approvalId ≠ "" → disk.ledger.reservationFor action.actionId = .ok estimate

/-- The balance that a settlement leaves stays within the decimal range. -/
def SettlesInRange (ledger : Ledger) (estimate actual : Decimal) : Prop :=
  ∀ available, ledger.balanceUsd = .ok available →
    defaultContext.InRange (available.value + estimate.value) ∧
      ∀ restored, plus available estimate = .ok restored →
        defaultContext.InRange (restored.value - actual.value)

/-- There is room for the completion of a dispatched action with this result, by the time of `last`:
the handler returned an object of its own, the amounts stay in range, an approval was asked for again,
and the journal takes the operation. -/
structure Room (site : Deployment) (harness : Harness) (last : World) (disk : Disk)
    (action : ProposedAction) (result : ToolResult) : Prop where
  unsealed : ∀ shared, harness.tools.handler action ≠ .returnedSealed shared
  settles : ∀ estimate approvalId, Funding harness disk action estimate approvalId →
    Harness.completionDisposition estimate (Harness.actualCost result estimate) = .settle →
    SettlesInRange disk.ledger estimate (Harness.actualCost result estimate)
  reconfirmed : ∀ authority ∈ disk.records, Authorizes site.digests authority action →
    ApprovalStore.forAction disk.approvals action.actionId ≠ [] →
    authority.decision = .approvalRequired
  fits : ∀ authority ∈ disk.records, Authorizes site.digests authority action →
    ∀ estimate approvalId operation, Funding harness disk action estimate approvalId →
      Completes site last disk.ledger authority approvalId estimate result operation →
      FitsJournal site operation

/-- What holds of the budget and the approval of an action when it is dispatched. -/
structure Payable (harness : Harness) (disk : Disk) (action : ProposedAction)
    (request : HarnessRequest) (decision : GuardrailDecision) (estimate : Decimal)
    (approvalId : String) : Prop where
  idle : disk.journal = none
  funding : Funding harness disk action estimate approvalId
  requested : ∀ reservation,
    disk.ledger.document.reservations.lookup action.actionId = some reservation →
    reservation.requestId = request.requestId
  first : Ledger.dispositions disk.ledger.document request.requestId action.actionId = []
  nonneg : 0 ≤ estimate.value
  direct : approvalId = "" → decision.decision = .allow
  named : approvalId ≠ "" → startsWith "apr_" approvalId = true

theorem Payable.settleable {harness : Harness} {disk : Disk} {action : ProposedAction}
    {request : HarnessRequest} {decision : GuardrailDecision} {estimate actual : Decimal}
    {approvalId : String} (payable : Payable harness disk action request decision estimate approvalId)
    (named : request.requestId ≠ "" ∧ action.actionId ≠ "") (nonneg : 0 ≤ actual.value) :
    Ledger.Settleable disk.ledger.document estimate actual request.requestId action.actionId where
  expected := payable.nonneg
  actual := nonneg
  request := named.1
  action := named.2
  first := payable.first
  unreserved := payable.funding.unreserved
  reserved reservation found :=
    ⟨payable.requested reservation found, payable.funding.reserved reservation found⟩

/-- Some write after `base` journals the completion. -/
def Journaled (site : Deployment) (last : World) (base : List Event) (ledger : Ledger)
    (authority : EvidenceRecord) (approvalId : String) (estimate : Decimal) (result : ToolResult)
    (w : World) : Prop :=
  ∃ past before operation late,
    Completes site last ledger authority approvalId estimate result operation ∧
      w.trace = base ++ past ++ .wrote before { before with journal := some operation } :: late

namespace Harness

variable {site : Deployment} {harness : Harness} {w : World} {action : ProposedAction}
  {request : HarnessRequest} {decision : GuardrailDecision} {estimate : Decimal}
  {approvalId : String} {approvedBy : Option String} {authority record : EvidenceRecord}
  {result : ToolResult} {base : List Event} {last : World}

/-- The sealed authorization under which the action is executed. -/
structure Authority (site : Deployment) (harness : Harness) (action : ProposedAction)
    (request : HarnessRequest) (decision : GuardrailDecision) (approvedBy : Option String)
    (ledger : Ledger) (stored : EvidenceRecord) : Prop where
  drafted : ∃ remaining record previous, record.validate = .ok () ∧
    ledger.balanceUsd = .ok remaining ∧
    Draft site harness action request decision .skipped
      { approvedBy := approvedBy, detail := "authorized; execution pending" } remaining record ∧
    stored = record.sealed site.digests previous

/-! ### The amounts -/

theorem completionDisposition_settle_iff {actual : Decimal} :
    completionDisposition estimate actual = .settle ↔ 0 < estimate.value ∨ 0 < actual.value := by
  unfold completionDisposition
  simp only [Decimal.lt_iff, Decimal.zero_value]
  split <;> simp [*]

theorem actualCost_nonneg (accepted : validateResult site result = .ok ())
    (nonneg : 0 ≤ estimate.value) : 0 ≤ (actualCost result estimate).value := by
  simp only [validateResult, bind_ok_iff, money_ok_iff] at accepted
  obtain ⟨_, ⟨rfl, cost⟩, -⟩ := accepted
  unfold actualCost
  split
  next => simp
  next =>
    split
    next => exact cost
    next => exact nonneg

/-- The remaining budget of a completion is computed when the balance was. -/
theorem completionRemaining_ok {disk : Disk} {actual available : Decimal}
    (payable : Payable harness disk action request decision estimate approvalId)
    (named : request.requestId ≠ "" ∧ action.actionId ≠ "") (nonneg : 0 ≤ actual.value)
    (read : disk.ledger.balanceUsd = .ok available)
    (range : completionDisposition estimate actual = .settle →
      SettlesInRange disk.ledger estimate actual) :
    ∃ remaining, completionRemaining disk.ledger (completionDisposition estimate actual) estimate
      actual request.requestId action.actionId = .ok remaining := by
  unfold completionRemaining
  split
  next settles =>
    obtain ⟨inner, outer⟩ := range settles available read
    obtain ⟨restored, added⟩ := Ledger.plus_ok_iff.2 inner
    obtain ⟨remaining, subtracted⟩ := Ledger.minus_ok_iff.2 (outer restored added)
    refine ⟨remaining, ?_⟩
    rw [Ledger.previewSettlement_eq (payable.settleable named nonneg)]
    have same : disk.ledger.document.available = .ok available := read
    rw [same, ok_bind, added, ok_bind, subtracted]
  next => exact ⟨available, read⟩

/-! ### The operation is valid -/

/-- What the authorization names. -/
structure Names (site : Deployment) (action : ProposedAction) (request : HarnessRequest)
    (decision : GuardrailDecision) (authority : EvidenceRecord) : Prop where
  requestId : authority.requestId = request.requestId
  actionId : authority.actionId = action.actionId
  decision : authority.decision = decision.decision
  skipped : authority.resultStatus = .skipped
  authorizationHash : isSha256 authority.authorizationHash = true
  recordHash : isSha256 authority.recordHash = true
  visible : strip authority.requestId ≠ "" ∧ strip authority.actionId ≠ "" ∧
    strip authority.recordId ≠ ""
  unreconciled : authority.reconciliationOutcome = none ∧ authority.reconciledBy = "" ∧
    authority.reconciledAt = none ∧ authority.reconciliationNote = ""

theorem Authority.names {ledger : Ledger}
    (authorized : Authority site harness action request decision approvedBy ledger authority) :
    Names site action request decision authority := by
  obtain ⟨_, _, _, valid, -, ⟨_, _, _, rfl⟩, rfl⟩ := authorized.drafted
  simp only [EvidenceRecord.validate, requireText, refuseIf_ok_iff, bind_ok_iff] at valid
  obtain ⟨_, requestVisible, _, actionVisible, _, recordVisible, -⟩ := valid
  exact ⟨rfl, rfl, rfl, rfl, site.digests.authorization_sha256 _, site.digests.record_sha256 _,
    ⟨requestVisible, actionVisible, recordVisible⟩, rfl, rfl, rfl, rfl⟩

/-- The completion record continues the authorization. -/
theorem Authority.completion {ledger : Ledger} {actual remaining : Decimal} {basis : EnforcementBasis}
    {clock : Clock} {recordId : String}
    (authorized : Authority site harness action request decision approvedBy ledger authority) :
    Harness.drafted site harness action request decision result.status.result
      { approvedBy := approvedBy, result := some { result with costUsd := actual }
        detail := result.summary, budgetRemainingUsd := some remaining } basis clock remaining recordId =
      completionRecord site authority result actual recordId clock remaining basis := by
  obtain ⟨_, _, _, -, -, ⟨_, _, _, rfl⟩, rfl⟩ := authorized.drafted
  simp [Harness.drafted, completionRecord, EvidenceRecord.sealed]

private theorem requireField_ok {value field : String} (visible : strip value ≠ "") :
    ExecutionCompletionSubject.requireField value field = .ok () := refuseIf_of_not visible

theorem Names.subject_valid (names : Names site action request decision authority)
    (kept : decision.decision ≠ .block) :
    (ExecutionCompletionSubject.ofRecord authority).validate = .ok () := by
  obtain ⟨requestVisible, actionVisible, recordVisible⟩ := names.visible
  have unblocked : authority.decision ≠ .block := by rwa [names.decision]
  simp [ExecutionCompletionSubject.validate, ExecutionCompletionSubject.ofRecord,
    requireField_ok recordVisible, requireField_ok (isSha256_visible names.recordHash),
    requireField_ok actionVisible, requireField_ok requestVisible,
    requireField_ok (isSha256_visible names.authorizationHash), names.recordHash,
    names.authorizationHash, unblocked, refuseIf_of_not]

/-- The operation of a completion passes the checks of the journal. -/
theorem Names.operation_valid {disk : Disk} {actual remaining : Decimal} {operationId suffix : String}
    {preparedAt : Timestamp} {clock : Clock} {basis : EnforcementBasis}
    (names : Names site action request decision authority)
    (payable : Payable harness disk action request decision estimate approvalId)
    (kept : decision.decision ≠ .block) (nonneg : 0 ≤ actual.value)
    (reconfirmed : approvalId ≠ "" → decision.decision = .approvalRequired) :
    JournalOperation.validate site.digests ⟨operationId, preparedAt,
      .executionComplete (.ofRecord authority) approvalId estimate actual
        (completionDisposition estimate actual),
      completionRecord site authority result actual ("evd" ++ "_" ++ suffix) clock remaining basis⟩ =
        .ok () := by
  set evidence := completionRecord site authority result actual ("evd" ++ "_" ++ suffix) clock
    remaining basis with evidenceEq
  obtain ⟨requestVisible, actionVisible, -⟩ := names.visible
  have cost : evidence.costUsd.decimal.value = actual.value := Decimal.plain_value actual
  have recordValid : evidence.validate = .ok () := by
    simp only [EvidenceRecord.validate, requireText, refuseIf_ok_iff, bind_ok_iff, money_ok_iff]
    exact ⟨(), requestVisible, (), actionVisible, (), evidenceId_visible suffix, _,
      ⟨rfl, cost ▸ nonneg⟩, rfl⟩
  have amounts : JournalOperation.checkAmounts ⟨operationId, preparedAt,
      .executionComplete (.ofRecord authority) approvalId estimate actual
        (completionDisposition estimate actual), evidence⟩ = .ok () := by
    simp [JournalOperation.checkAmounts, OperationPayload.reserved, recordValid,
      money_ok_iff.2 ⟨rfl, payable.nonneg⟩]
  have kind : OperationPayload.checkAuthorityKind (.ofRecord authority) approvalId = .ok () := by
    by_cases direct : approvalId = ""
    · have allowed := payable.direct direct
      simp [OperationPayload.checkAuthorityKind, ExecutionCompletionSubject.ofRecord, direct,
        names.decision, allowed, refuseIf_of_not]
    · simp [OperationPayload.checkAuthorityKind, ExecutionCompletionSubject.ofRecord, direct,
        names.decision, reconfirmed direct, payable.named direct, refuseIf_of_not]
  have status : evidence.resultStatus = .succeeded ∨ evidence.resultStatus = .failed := by
    have same : evidence.resultStatus = result.status.result := rfl
    rw [same]
    cases result.status <;> simp [ToolStatus.result]
  -- money moves exactly when the disposition settles
  have settles : completionDisposition estimate actual = .settle →
      ¬ (estimate.isZero = true ∧ actual.isZero = true) := by
    intro settle
    rw [completionDisposition_settle_iff] at settle
    rw [Decimal.isZero_iff, Decimal.isZero_iff]
    rintro ⟨noEstimate, noActual⟩
    rcases settle with positive | positive
    · exact positive.ne' noEstimate
    · exact positive.ne' noActual
  have free : completionDisposition estimate actual = .none →
      estimate.isZero = true ∧ actual.isZero = true := by
    intro none
    have unsettled : ¬ (0 < estimate.value ∨ 0 < actual.value) := by
      rw [← completionDisposition_settle_iff, none]
      simp
    rw [Decimal.isZero_iff, Decimal.isZero_iff]
    push Not at unsettled
    exact ⟨le_antisymm unsettled.1 payable.nonneg, le_antisymm unsettled.2 nonneg⟩
  have completion : OperationPayload.checkCompletion (.ofRecord authority) approvalId estimate actual
      (completionDisposition estimate actual) evidence = .ok () := by
    simp only [OperationPayload.checkCompletion, names.subject_valid kept, kind, ok_bind,
      money_ok_iff.2 ⟨rfl, nonneg⟩, refuseIf_bind_ok_iff, refuseIf_ok_iff]
    refine ⟨?_, ?_, ?_, ?_, ?_, ?_⟩
    · rcases status with same | same <;> simp [same]
    · simp [ExecutionCompletionSubject.ofRecord, evidenceEq, completionRecord]
    · exact fun both => settles both.1 both.2
    · rintro ⟨none, some⟩
      obtain ⟨noEstimate, noActual⟩ := free none
      simp [noEstimate, noActual] at some
    · simp [(Decimal.eqv_iff _ _).2 cost]
    · obtain ⟨outcome, by_, at_, note⟩ := names.unreconciled
      simp [evidenceEq, completionRecord, outcome, by_, at_, note]
  rw [JournalOperation.validate, amounts, ok_bind, refuseIf_of_not (by simp [evidenceEq, completionRecord]),
    ok_bind]
  exact completion

/-! ### The journal is written -/

private theorem grown_trace {t : World} (grown : Unmarked (fun _ => False) base t) :
    ∃ late, t.trace = base ++ late := by
  obtain ⟨late, trace, -⟩ := grown
  exact ⟨late, trace⟩

/-- Nothing is handed back. -/
private theorem until_discipline (v : World) : Discipline site (Until · v) fun _ _ _ => True where
  tick _ later := ⟨later.1, later.2.trans (Nat.le_succ _)⟩
  draw _ later := ⟨later.1.trans (Nat.le_succ _), later.2⟩
  quiet _ _ later _ _ := later
  appended _ _ _ later _ := later
  prepared _ _ later _ _ := later
  completed _ _ later _ _ := later
  active _ _ _ _ := trivial

/-- Recovery only adds to the trace, and hands nothing back. -/
private theorem recoverPrepared_grows {operation : JournalOperation}
    (active : w.disk.journal = some operation) :
    (Harness.recoverPrepared site operation).Ends
      (fun _ t => Until t w ∧ ∃ late, t.trace = w.trace ++ late)
      (fun _ t => Until t w ∧ ∃ late, t.trace = w.trace ++ late) w := by
  have rules : Discipline site (Unmarked (fun _ => False) w.trace) fun _ _ _ => True :=
    unmarked_discipline fun _ _ => id
  have start : Unmarked (fun _ => False) w.trace w := ⟨[], by simp, by simp⟩
  apply Ends.mono (Ends.and ((until_discipline w).recoverPrepared (Until.refl w) ⟨rfl, active⟩)
    (rules.recoverPrepared start ⟨rfl, active⟩))
  · rintro _ t ⟨⟨later, -⟩, grown, -⟩
    exact ⟨later, grown_trace grown⟩
  · rintro _ t ⟨later, grown⟩
    exact ⟨later, grown_trace grown⟩

/-- The operation is journaled after `w`, before anything else is written. -/
private def Commits (site : Deployment) (last : World) (payload : OperationPayload)
    (evidence : EvidenceRecord) (w t : World) : Prop :=
  ∃ operationId now late, Drawn site last.issued "op" operationId ∧ Stamp site last now ∧
    t.trace = w.trace ++ .wrote w.disk { w.disk with
      journal := some ⟨operationId, now, payload, evidence⟩ } :: late

/-- An operation that fits and is valid is journaled before anything else is written. -/
private theorem commit_journals {payload : OperationPayload} {evidence : EvidenceRecord}
    (unlimited : w.writesLeft = none) (idle : w.disk.journal = none)
    (draft : site.limits.operation ⟨"", 0, payload, evidence⟩ = true)
    (fits : ∀ operationId now, Drawn site last.issued "op" operationId → Stamp site last now →
      site.limits.operation ⟨operationId, now, payload, evidence⟩ = true)
    (valid : ∀ operationId now,
      JournalOperation.validate site.digests ⟨operationId, now, payload, evidence⟩ = .ok ()) :
    (commit site payload evidence).Ends
      (fun _ t => Until last t → Commits site last payload evidence w t)
      (fun _ t => Until last t → Commits site last payload evidence w t) w := by
  have passes : refuseIf (site.limits.operation ⟨"", 0, payload, evidence⟩ = false)
      (journalError "journal payload exceeds bounded canonical contract") = .ok () :=
    refuseIf_of_not (by simp [draft])
  -- what the operation is named and dated with, when it is drawn in time
  have named : Until last w.drawn.ticked →
      Drawn site last.issued "op" ("op" ++ "_" ++ site.ids w.issued) ∧
        Stamp site last (site.clock w.drawn.readings 0) :=
    fun bound => ⟨⟨w.issued, bound.1, rfl⟩, w.readings, bound.2, rfl⟩
  unfold commit OperationJournal.prepare OperationJournal.active
  simp only [passes, valid, ends_bind, ends_lift_ok, ends_newId, ends_now, ends_disk,
    World.ticked_disk, World.drawn_disk, idle, ends_pure]
  apply ends_lift.2
  constructor
  · intro _ _
    rw [ends_save, World.ticked_writesLeft, World.drawn_writesLeft, unlimited]
    refine ⟨fun none => (Option.some_ne_none _ none.symm).elim, fun _ => ?_⟩
    set operation : JournalOperation :=
      ⟨"op" ++ "_" ++ site.ids w.issued, site.clock w.drawn.readings 0, payload, evidence⟩ with operationEq
    set prepared := w.drawn.ticked.saved { w.disk with journal := some operation } with preparedEq
    have journaled : ∀ t, (Until t prepared ∧ ∃ late, t.trace = prepared.trace ++ late) →
        Until last t → Commits site last payload evidence w t := by
      intro t grown bound
      obtain ⟨later, late, trace⟩ := grown
      obtain ⟨drawn, stamp⟩ := named (Until.trans bound later)
      exact ⟨_, _, late, drawn, stamp, by rw [trace]; simp [preparedEq, operationEq]⟩
    have grows : (Harness.recoverPrepared site operation).Ends _ _ prepared := recoverPrepared_grows rfl
    exact grows.mono (fun _ t => journaled t) fun _ t => journaled t
  · intro e refused bound
    obtain ⟨drawn, stamp⟩ := named bound
    have passed := (Bool.not_eq_false _).mpr (fits _ _ drawn stamp)
    rw [refuseIf_of_not passed] at refused
    cases refused

/-- A completion that fits is journaled from any world that holds the same disk. -/
private theorem completion_commits {ledger : Ledger} {payload : OperationPayload}
    {evidence : EvidenceRecord} (unlimited : w.writesLeft = none) (idle : w.disk.journal = none)
    (extends_ : ∃ since, w.trace = base ++ since) (some : 0 < last.issued ∧ 0 < last.readings)
    (completes : ∀ operationId now, Drawn site last.issued "op" operationId → Stamp site last now →
      Completes site last ledger authority approvalId estimate result
        ⟨operationId, now, payload, evidence⟩)
    (fits : ∀ operation, Completes site last ledger authority approvalId estimate result operation →
      FitsJournal site operation)
    (valid : ∀ operationId now,
      JournalOperation.validate site.digests ⟨operationId, now, payload, evidence⟩ = .ok ()) :
    (commit site payload evidence).Ends
      (fun _ t => Until last t →
        Journaled site last base ledger authority approvalId estimate result t)
      (fun _ t => Until last t →
        Journaled site last base ledger authority approvalId estimate result t) w := by
  have journaled : ∀ t, (Until last t → Commits site last payload evidence w t) → Until last t →
      Journaled site last base ledger authority approvalId estimate result t := by
    intro t commits bound
    obtain ⟨operationId, now, late, drawn, stamp, trace⟩ := commits bound
    obtain ⟨since, start⟩ := extends_
    exact ⟨since, w.disk, _, late, completes operationId now drawn stamp, by rw [trace, start]⟩
  -- the payload is judged before the operation has a name
  have draft := (fits _ (completes _ _ ⟨0, some.1, rfl⟩ ⟨0, some.2, rfl⟩)).1
  exact (commit_journals unlimited idle draft
    (fun operationId now drawn stamp => (fits _ (completes operationId now drawn stamp)).2)
    valid).mono (fun _ t => journaled t) fun _ t => journaled t

/-- What the accepted result of a dispatched action needs, its completion provides. -/
theorem completeKnownResult_journals (unlimited : w.writesLeft = none)
    (extends_ : ∃ since, w.trace = base ++ since)
    (authorized : Authority site harness action request decision approvedBy w.disk.ledger authority)
    (payable : Payable harness w.disk action request decision estimate approvalId)
    (kept : decision.decision ≠ .block) (accepted : validateResult site result = .ok ())
    (reconfirmed : approvalId ≠ "" → decision.decision = .approvalRequired)
    (range : completionDisposition estimate (actualCost result estimate) = .settle →
      SettlesInRange w.disk.ledger estimate (actualCost result estimate))
    (fits : ∀ operation,
      Completes site last w.disk.ledger authority approvalId estimate result operation →
        FitsJournal site operation) :
    (harness.completeKnownResult site authority action request decision result estimate approvedBy
      approvalId).Ends
      (fun _ t => Until last t →
        Journaled site last base w.disk.ledger authority approvalId estimate result t)
      (fun _ t => Until last t →
        Journaled site last base w.disk.ledger authority approvalId estimate result t) w := by
  have names := authorized.names
  have nonneg := actualCost_nonneg accepted payable.nonneg
  have visible : strip request.requestId ≠ "" ∧ strip action.actionId ≠ "" := by
    rw [← names.requestId, ← names.actionId]
    exact ⟨names.visible.1, names.visible.2.1⟩
  have named : request.requestId ≠ "" ∧ action.actionId ≠ "" := by
    constructor
    · intro blank
      exact visible.1 (by rw [blank]; decide)
    · intro blank
      exact visible.2 (by rw [blank]; decide)
  obtain ⟨available, _, _, -, read, -⟩ := authorized.drafted
  obtain ⟨remaining, computed⟩ := completionRemaining_ok payable named nonneg read range
  have subject : ExecutionCompletionSubject.fromRecord authority = .ok (.ofRecord authority) :=
    ExecutionCompletionSubject.fromRecord_ok_iff.2 ⟨names.skipped, names.subject_valid kept, rfl⟩
  unfold completeKnownResult
  simp only [accepted, ends_bind, ends_lift_ok, ends_disk, ends_note, computed, subject, ends_pure]
  refine makeRecord_succeeds rfl visible (by simpa using nonneg) ?_
  intro basis bases
  rw [authorized.completion]
  set noted := w.noted (.completing request.requestId action.actionId estimate
    (actualCost result estimate) w.disk) with notedEq
  set v : World := { noted with
    bases := bases, readings := noted.readings + 1, issued := noted.issued + 1 } with vEq
  by_cases bound : Until last v
  · have issued : noted.issued < last.issued := bound.1
    have readings : noted.readings < last.readings := bound.2
    refine completion_commits unlimited payable.idle ?_ ⟨by omega, by omega⟩ ?_ fits ?_
    · obtain ⟨since, start⟩ := extends_
      exact ⟨since ++ [_], by rw [vEq, notedEq, World.noted_trace, start, List.append_assoc]⟩
    · intro operationId now drawn stamp
      rw [← names.requestId, ← names.actionId] at computed
      exact ⟨rfl, ⟨_, ⟨noted.issued, issued, rfl⟩, noted.readings, readings, remaining, computed,
        basis, rfl⟩, drawn, stamp⟩
    · exact fun _ _ => names.operation_valid payable kept nonneg reconfirmed
  · -- more has been handed out than by `last`, and nothing is handed back
    apply Ends.mono ((until_discipline v).commit (Until.refl v) payable.idle trivial)
    · rintro _ t ⟨later, -⟩ within
      exact absurd (Until.trans within later) bound
    · intro _ t later within
      exact absurd (Until.trans within later) bound

end Harness

end DefiantHarness
