import DefiantHarness.LedgerTransitions
import DefiantHarness.Runs
import DefiantHarness.Steps

/-! How one step changes the approvals, and the identifiers in the stores: every one was drawn. -/
namespace DefiantHarness

open Foundation

/-- The status changes that an approval goes through. -/
inductive Turns : ApprovalStatus → ApprovalStatus → Prop where
  | approve : Turns .pending .approved
  | reject : Turns .pending .rejected
  | expire {status : ApprovalStatus} (live : status = .pending ∨ status = .approved) :
      Turns status .expired
  | claim : Turns .approved .executing
  | intend : Turns .executing .executing
  | consume : Turns .executing .consumed

/-- One approval is replaced by its next version. -/
structure Revises (before after : Approvals) (old new : PendingApproval) : Prop where
  found : before.lookup old.approvalId = some old
  terms : new.terms = old.terms
  valid : new.validate = .ok ()
  stored : after = stored before new
  turns : Turns old.status new.status

/-- The journaled approval is written for the first time. -/
structure Creates (site : Deployment) (disk : Disk) (after : Approvals) (operation : JournalOperation)
    (approval : PendingApproval) (reservedUsd : PlainDecimal) : Prop where
  active : disk.journal = some operation
  kind : operation.payload = .approvalCreate approval reservedUsd
  valid : operation.validate site.digests = .ok ()
  funded : Decimal.zero.lt reservedUsd.decimal = true →
    approval.actionId ∈ disk.ledger.document.reservations
  absent : disk.approvals.lookup approval.approvalId = none
  stored : after = stored disk.approvals approval

theorem JournalOperation.validate_create {digests : Digests} {operation : JournalOperation}
    {approval : PendingApproval} {reservedUsd : PlainDecimal}
    (valid : operation.validate digests = .ok ())
    (kind : operation.payload = .approvalCreate approval reservedUsd) :
    approval.terms.validate digests = .ok () ∧ approval.validate = .ok () ∧
      operation.evidence.resultStatus = .pendingApproval ∧ approval.status = .pending ∧
      approval.actionId = operation.evidence.actionId ∧
      approval.terms.requestId = operation.evidence.requestId ∧
      approval.terms.reservedUsd = reservedUsd := by
  simp only [validate, kind, OperationPayload.validate, bind_ok_iff, OperationPayload.checkStatus,
    OperationPayload.checkApproval, refuseIf_ok_iff, not_or, not_not] at valid
  obtain ⟨_, -, _, -, _, status, _, checked, pending, action, request, reserved⟩ := valid
  split at checked
  next both =>
    obtain ⟨terms, shape⟩ := unit_bind_ok_iff.1 both
    exact ⟨terms, shape, status, pending, action, request, reserved⟩
  next => cases checked

section Approvals

variable {site : Deployment} {approvals after : Approvals} {approvalId : String} {clock : Clock}

private theorem revised {id : String} {old new : PendingApproval}
    (wellFormed : WellFormed approvals) (found : approvals.lookup id = some old)
    (valid : new.validate = .ok ()) (terms : new.terms = old.terms)
    (turns : Turns old.status new.status) :
    old.approvalId = id ∧ Revises approvals (stored approvals new) old new := by
  obtain ⟨key, -⟩ := wellFormed _ _ found
  exact ⟨key, ⟨key ▸ found, terms, valid, rfl, turns⟩⟩

theorem decide_revises (wellFormed : WellFormed approvals) {approved : Bool}
    {decidedBy note : String} {attestation : Option OperatorAttestation}
    (moved : Writes (site.approvals.decide approvals approvalId approved decidedBy note attestation
      clock) after) :
    ∃ old new, old.approvalId = approvalId ∧ Revises approvals after old new ∧
      old.status = .pending ∧ new.status = if approved then .approved else .rejected := by
  obtain ⟨update, ok, written⟩ := moved
  obtain ⟨old, who, what, found, pending, -, -, valid, -, rfl⟩ :=
    ApprovalStore.decide_ok_iff.1 ok
  cases written
  have turns : Turns old.status (if approved then .approved else .rejected) := by
    rw [pending]
    cases approved
    · exact .reject
    · exact .approve
  obtain ⟨key, revises⟩ := revised wellFormed found valid rfl turns
  exact ⟨old, _, key, revises, pending, rfl⟩

theorem expireOne_revises (wellFormed : WellFormed approvals)
    (moved : Writes (site.approvals.expireOne approvals approvalId clock) after) :
    ∃ old new, old.approvalId = approvalId ∧ Revises approvals after old new ∧
      new.status = .expired := by
  obtain ⟨update, ok, written⟩ := moved
  obtain ⟨old, found, ⟨-, rfl⟩ | ⟨live, -, valid, -, rfl⟩⟩ := ApprovalStore.expireOne_ok_iff.1 ok
  · cases written
  cases written
  obtain ⟨key, revises⟩ := revised wellFormed found valid rfl (.expire live)
  exact ⟨old, _, key, revises, rfl⟩

theorem ensureRejected_revises (wellFormed : WellFormed approvals) {decidedBy note : String}
    {attestation : Option OperatorAttestation}
    (moved : Writes (site.approvals.ensureRejected approvals approvalId decidedBy note attestation
      clock) after) :
    ∃ old new, old.approvalId = approvalId ∧ Revises approvals after old new ∧
      new.status = .rejected := by
  obtain ⟨update, ok, written⟩ := moved
  obtain ⟨old, -, ⟨-, decided⟩ | ⟨-, -, -, -, -, rfl⟩⟩ := ApprovalStore.ensureRejected_ok_iff.1 ok
  · obtain ⟨old, new, key, revises, -, status⟩ := decide_revises wellFormed ⟨update, decided, written⟩
    exact ⟨old, new, key, revises, status⟩
  · cases written

/-- A claim starts the execution, unless the approval has expired meanwhile. -/
theorem beginExecution_revises (wellFormed : WellFormed approvals) {action : ProposedAction}
    (moved : Writes (site.approvals.beginExecution site.digests approvals approvalId action clock)
      after) :
    ∃ old new, old.approvalId = approvalId ∧ Revises approvals after old new ∧
      old.status = .approved ∧
      ((new.status = .expired ∧ old.isExpired (clock 0) = true) ∨
        (new = { old with status := .executing } ∧ old.actionId = action.actionId ∧
          old.terms.authorizationHash = action.authorizationHash site.digests)) := by
  obtain ⟨update, ok, written⟩ := moved
  obtain ⟨old, found, approved, ⟨expired, valid, -, rfl⟩ |
    ⟨-, action, hash, -, valid, -, rfl⟩⟩ := ApprovalStore.beginExecution_ok_iff.1 ok
  · cases written
    obtain ⟨key, revises⟩ := revised wellFormed found valid rfl (.expire (.inr approved))
    exact ⟨old, _, key, revises, approved, .inl ⟨rfl, expired⟩⟩
  · cases written
    have turns : Turns old.status .executing := by
      rw [approved]
      exact .claim
    obtain ⟨key, revises⟩ := revised wellFormed found valid rfl turns
    exact ⟨old, _, key, revises, approved, .inr ⟨rfl, action, hash⟩⟩

theorem consume_revises (wellFormed : WellFormed approvals) {old : PendingApproval}
    {recordId : String} {now : Timestamp} (found : approvals.lookup approvalId = some old)
    (moved : Writes (site.approvals.consume approvals old recordId now) after) :
    ∃ new, old.approvalId = approvalId ∧ Revises approvals after old new ∧
      new.status = .consumed := by
  obtain ⟨update, ok, written⟩ := moved
  obtain ⟨executing, -, valid, -, rfl⟩ := ApprovalStore.consume_ok_iff.1 ok
  cases written
  have turns : Turns old.status .consumed := by
    rw [executing]
    exact .consume
  obtain ⟨key, revises⟩ := revised wellFormed found valid rfl turns
  exact ⟨_, key, revises, rfl⟩

theorem markConsumed_revises (wellFormed : WellFormed approvals) {recordId : String}
    (moved : Writes (site.approvals.markConsumed approvals approvalId recordId clock) after) :
    ∃ old new, old.approvalId = approvalId ∧ Revises approvals after old new ∧
      new.status = .consumed := by
  obtain ⟨update, ok, written⟩ := moved
  obtain ⟨old, found, consumed⟩ := ApprovalStore.markConsumed_ok_iff.1 ok
  obtain ⟨new, revised⟩ := @consume_revises site _ _ _ wellFormed _ _ _ found
    ⟨update, consumed, written⟩
  exact ⟨old, new, revised⟩

theorem ensureConsumed_revises (wellFormed : WellFormed approvals) {recordId : String}
    (moved : Writes (site.approvals.ensureConsumed approvals approvalId recordId clock) after) :
    ∃ old new, old.approvalId = approvalId ∧ Revises approvals after old new ∧
      new.status = .consumed := by
  obtain ⟨update, ok, written⟩ := moved
  obtain ⟨-, old, found, ⟨-, -, rfl⟩ | consumed⟩ := ApprovalStore.ensureConsumed_ok_iff.1 ok
  · cases written
  · obtain ⟨new, revised⟩ := @consume_revises site _ _ _ wellFormed _ _ _ found
      ⟨update, consumed, written⟩
    exact ⟨old, new, revised⟩

theorem beginReconciliation_revises (wellFormed : WellFormed approvals) {outcome : Outcome}
    {reconciledBy note : String} {attestation : Option OperatorAttestation}
    (moved : Writes (site.approvals.beginReconciliation approvals approvalId outcome reconciledBy
      note attestation clock) after) :
    ∃ old new, old.approvalId = approvalId ∧ Revises approvals after old new ∧
      old.status = .executing ∧ new.status = .executing := by
  obtain ⟨update, ok, written⟩ := moved
  obtain ⟨-, -, old, found, ⟨_, -, -, rfl⟩ | ⟨-, started⟩⟩ :=
    ApprovalStore.beginReconciliation_ok_iff.1 ok
  · cases written
  obtain ⟨executing, -, valid, -, rfl⟩ := ApprovalStore.startReconciliation_ok_iff.1 started
  cases written
  have turns : Turns old.status old.status := by
    rw [executing]
    exact .intend
  obtain ⟨key, revises⟩ := revised wellFormed found valid rfl turns
  exact ⟨old, _, key, revises, executing, executing⟩

theorem markReconciled_revises (wellFormed : WellFormed approvals) {recordId : String}
    (moved : Writes (site.approvals.markReconciled approvals approvalId recordId clock) after) :
    ∃ old new, old.approvalId = approvalId ∧ Revises approvals after old new ∧
      new.status = .consumed := by
  obtain ⟨update, ok, written⟩ := moved
  obtain ⟨-, old, found, -, ⟨-, -, rfl⟩ | ⟨executing, valid, -, rfl⟩⟩ :=
    ApprovalStore.markReconciled_ok_iff.1 ok
  · cases written
  cases written
  have turns : Turns old.status .consumed := by
    rw [executing]
    exact .consume
  obtain ⟨key, revises⟩ := revised wellFormed found valid rfl turns
  exact ⟨old, _, key, revises, rfl⟩

/-- Every write of the approvals creates the journaled approval or revises one. -/
theorem ApprovalMoves.cases {w : World} (wellFormed : WellFormed w.disk.approvals)
    (moves : ApprovalMoves site w after) :
    (∃ operation approval reservedUsd,
        Creates site w.disk after operation approval reservedUsd) ∨
      ∃ old new, Revises w.disk.approvals after old new := by
  -- every move but the creation replaces one stored approval with the same terms
  cases moves with
  | decide _ _ _ _ _ _ _ moved =>
    obtain ⟨old, new, -, revises, -⟩ := decide_revises wellFormed moved
    exact .inr ⟨old, new, revises⟩
  | create operation active approval reservedUsd kind valid funded moved =>
    obtain ⟨update, ok, written⟩ := moved
    obtain ⟨-, rfl⟩ | ⟨absent, -, -, rfl⟩ := ApprovalStore.createPrepared_ok_iff.1 ok
    · cases written
    · cases written
      exact .inl ⟨operation, approval, reservedUsd, active, kind, valid, funded, absent, rfl⟩
  | reject _ _ _ _ _ _ _ _ _ _ _ _ moved =>
    obtain ⟨old, new, -, revises, -⟩ := ensureRejected_revises wellFormed moved
    exact .inr ⟨old, new, revises⟩
  | expire _ _ _ _ _ _ _ _ _ moved =>
    obtain ⟨old, new, -, revises, -⟩ := expireOne_revises wellFormed moved
    exact .inr ⟨old, new, revises⟩
  | claim _ _ _ _ _ moved =>
    obtain ⟨old, new, -, revises, -⟩ := beginExecution_revises wellFormed moved
    exact .inr ⟨old, new, revises⟩
  | block _ _ _ _ _ moved =>
    obtain ⟨old, new, -, revises, -⟩ := markConsumed_revises wellFormed moved
    exact .inr ⟨old, new, revises⟩
  | complete _ _ _ _ _ _ _ _ _ _ _ moved =>
    obtain ⟨old, new, -, revises, -⟩ := ensureConsumed_revises wellFormed moved
    exact .inr ⟨old, new, revises⟩
  | intend _ _ _ _ _ _ _ moved =>
    obtain ⟨old, new, -, revises, -⟩ := beginReconciliation_revises wellFormed moved
    exact .inr ⟨old, new, revises⟩
  | reconcile _ _ _ _ _ moved =>
    obtain ⟨old, new, -, revises, -⟩ := markReconciled_revises wellFormed moved
    exact .inr ⟨old, new, revises⟩

theorem Revises.approvalId_eq {before : Approvals} {old new : PendingApproval}
    (revises : Revises before after old new) : new.approvalId = old.approvalId :=
  congrArg ApprovalTerms.approvalId revises.terms

theorem Revises.actionId_eq {before : Approvals} {old new : PendingApproval}
    (revises : Revises before after old new) : new.actionId = old.actionId :=
  congrArg ApprovalTerms.actionId revises.terms

/-- The approvals after a revision. -/
theorem Revises.lookup {before : Approvals} {old new : PendingApproval}
    (revises : Revises before after old new) (id : String) :
    after.lookup id = if id = old.approvalId then some new else before.lookup id := by
  rw [revises.stored, lookup_stored_eq, revises.approvalId_eq]

end Approvals

/-! ### Identifiers -/

/-- Every approval stands under its own id, and every id was drawn. -/
structure Named (site : Deployment) (w : World) : Prop where
  wellFormed : WellFormed w.disk.approvals
  records : ∀ record ∈ w.disk.records, Drawn site w.issued "evd" record.recordId
  approvals : ∀ id approval, w.disk.approvals.lookup id = some approval →
    Drawn site w.issued "apr" id
  evidence : ∀ operation, w.disk.journal = some operation →
    Drawn site w.issued "evd" operation.evidence.recordId
  approval : ∀ operation approval reservedUsd, w.disk.journal = some operation →
    operation.payload = .approvalCreate approval reservedUsd →
    Drawn site w.issued "apr" approval.approvalId

namespace Named

variable {site : Deployment} {w t : World}

/-- The invariant does not look at the head, the ledger, the clock or the trace. -/
theorem of_same (named : Named site w) (le : w.issued ≤ t.issued)
    (records : t.disk.records = w.disk.records) (approvals : t.disk.approvals = w.disk.approvals)
    (journal : t.disk.journal = w.disk.journal) : Named site t where
  wellFormed := by rw [approvals]; exact named.wellFormed
  records := by rw [records]; exact fun record member => (named.records record member).mono le
  approvals := by rw [approvals]; exact fun id approval found => (named.approvals id approval found).mono le
  evidence := by rw [journal]; exact fun operation active => (named.evidence operation active).mono le
  approval := by
    rw [journal]
    exact fun operation approval reserved active kind =>
      (named.approval operation approval reserved active kind).mono le

private theorem approvals_written (named : Named site w) {after : Approvals}
    (moves : ApprovalMoves site w after) :
    Named site (w.saved { w.disk with approvals := after }) := by
  have changed : WellFormed after ∧ ∀ id approval, after.lookup id = some approval →
      Drawn site w.issued "apr" id := by
    obtain ⟨operation, approval, reserved, creates⟩ | ⟨old, new, revises⟩ :=
      moves.cases named.wellFormed
    · obtain ⟨-, valid, -⟩ := JournalOperation.validate_create creates.valid creates.kind
      rw [creates.stored]
      refine ⟨named.wellFormed.stored valid, fun id found lookup => ?_⟩
      rw [lookup_stored_eq] at lookup
      split at lookup
      next same =>
        rw [same]
        exact named.approval operation approval reserved creates.active creates.kind
      next => exact named.approvals id found lookup
    · refine ⟨revises.stored ▸ named.wellFormed.stored revises.valid, fun id found lookup => ?_⟩
      rw [revises.lookup] at lookup
      split at lookup
      next same =>
        rw [same]
        exact named.approvals _ _ revises.found
      next => exact named.approvals id found lookup
  exact ⟨changed.1, named.records, changed.2, named.evidence, named.approval⟩

theorem written (named : Named site w) {after : Disk} (mutation : Mutation site w after) :
    Named site (w.saved after) := by
  cases mutation with
  | checkpoint => exact named.of_same le_rfl rfl rfl rfl
  | append record why fresh drawn =>
    refine ⟨named.wellFormed, fun found member => ?_, named.approvals, named.evidence, named.approval⟩
    rcases List.mem_append.1 member with old | new
    · exact named.records found old
    · rw [List.mem_singleton.1 new]
      exact drawn
  | ledger => exact named.of_same le_rfl rfl rfl rfl
  | approvals after why => exact named.approvals_written why
  | prepare operation idle valid fresh drawn why =>
    refine ⟨named.wellFormed, named.records, named.approvals, fun found active => ?_,
      fun found approval reserved active kind => ?_⟩
    · cases active
      exact drawn
    · cases active
      rw [kind] at why
      cases why with
      | approvalCreate _ _ _ _ drawn => exact drawn
  | complete => exact ⟨named.wellFormed, named.records, named.approvals, by simp, by simp⟩

theorem step (named : Named site w) (step : Step site w t) : Named site t := by
  cases step with
  | write after mutation => exact named.written mutation
  | draw => exact named.of_same (Nat.le_succ _) rfl rfl rfl
  | tick | enter | evaluate | decide | claim | compute | dispatch =>
    exact named.of_same le_rfl rfl rfl rfl

theorem moves (named : Named site w) (moves : Moves site w t) : Named site t := by
  induction moves with
  | refl => exact named
  | tail _ step ih => exact ih.step step

/-- The next evidence id is not in the log. -/
theorem fresh_record (named : Named site w) {k : Nat} (le : w.issued ≤ k) :
    EvidenceLog.get w.disk.records ("evd_" ++ site.ids k) = none := by
  rw [EvidenceLog.get, List.find?_eq_none]
  intro record member
  simpa using drawn_ne (named.records record member) le

/-- The next approval id is not in the store. -/
theorem fresh_approval (named : Named site w) {k : Nat} (le : w.issued ≤ k) :
    w.disk.approvals.lookup ("apr_" ++ site.ids k) = none := by
  cases found : w.disk.approvals.lookup ("apr_" ++ site.ids k) with
  | none => rfl
  | some approval => exact absurd rfl (drawn_ne (named.approvals _ _ found) le)

theorem fresh {w : World} (start : w.Fresh site) : Named site w where
  wellFormed := by rw [start.approvals]; exact .empty
  records := by simp [start.records]
  approvals := by simp [start.approvals]
  evidence := by simp [start.journal]
  approval := by simp [start.journal]

end Named
end DefiantHarness
