import DefiantHarness.BudgetDisposals
import DefiantHarness.EvidenceHistory
import DefiantHarness.Foundation.Traces

/-! The journal over runs: while an operation waits, every write serves it. -/
namespace DefiantHarness

open Foundation

namespace OperationPayload

/-- The action that an operation is about. -/
def actionId : OperationPayload → String
  | .approvalCreate approval _ => approval.actionId
  | .approvalReject _ actionId _ _ _ _ _ => actionId
  | .approvalExpire _ actionId _ _ => actionId
  | .authorizationReconcile authority _ _ _ _ _ => authority.actionId
  | .executionComplete authority _ _ _ _ => authority.actionId

theorem actionId_of_closes {payload : OperationPayload} {approvalId actionId requestId : String}
    {reservedUsd : PlainDecimal} {status : ApprovalStatus}
    (closes : Closes payload approvalId actionId requestId reservedUsd status) :
    payload.actionId = actionId := by
  rcases closes with ⟨_, _, _, -, rfl⟩ | ⟨-, rfl⟩ <;> rfl

end OperationPayload

section Moves

variable {site : Deployment} {w : World} {operation : JournalOperation}

/-! ### What each store lets a waiting operation do -/

private theorem untouched_of_call {fits : BudgetDocument → Bool} {ledger after : Ledger}
    {clock : Clock} {owner actionId : String} (call : LedgerCall)
    (wrote : call.written fits ledger clock = .ok (some after)) (own : call.action = some owner)
    (other : actionId ≠ owner) : Untouched actionId ledger.document after.document := by
  rcases LedgerCall.written_postsFor wrote with nothing | ⟨stored, same, data, entry, appended, named,
    confined⟩
  · cases nothing
  · cases same
    rw [own, Option.getD_some] at named confined
    rw [← named] at confined other
    exact Ledger.append_untouched confined appended other

/-- The ledger changes at the action of the operation only. -/
theorem LedgerMoves.untouched {disk : Disk} {after : Ledger} (moves : LedgerMoves site disk after)
    (active : disk.journal = some operation) {actionId : String}
    (other : actionId ≠ operation.payload.actionId) :
    Untouched actionId disk.ledger.document after.document := by
  -- the unjournaled moves need an empty journal
  have idle_absurd {P : Prop} (idle : disk.journal = none) : P := by
    rw [idle] at active
    cases active
  cases moves with
  | reserve idle => exact idle_absurd idle
  | release idle => exact idle_absurd idle
  | reconcile idle => exact idle_absurd idle
  | journaledReservation found clock journal approval reservedUsd kind funded moved =>
    rw [active, Option.some.injEq] at journal
    subst journal
    rw [kind] at other
    exact untouched_of_call (.ensureReservation _ approval.terms.requestId approval.actionId)
      (written_of_writes moved) rfl other
  | journaledRelease found clock journal approvalId owner requestId reservedUsd status kind _ moved =>
    rw [active, Option.some.injEq] at journal
    subst journal
    rw [OperationPayload.actionId_of_closes kind] at other
    exact untouched_of_call (.ensureRelease _ requestId owner) (written_of_writes moved) rfl other
  | journaledReconcile found clock journal subject _ _ _ _ _ kind _ _ moved =>
    rw [active, Option.some.injEq] at journal
    subst journal
    rw [kind] at other
    exact untouched_of_call
      (.reconcileReservation _ subject.requestId subject.actionId _ _ _ _)
      (written_of_writes moved) rfl other
  | journaledSettlement found clock journal subject _ _ _ kind _ _ moved =>
    rw [active, Option.some.injEq] at journal
    subst journal
    rw [kind] at other
    exact untouched_of_call (.ensureSettlement _ _ subject.requestId subject.actionId _)
      (written_of_writes moved) rfl other

/-- The approvals of other actions are as they were. -/
def OthersKept (actionId : String) (before after : Approvals) : Prop :=
  ∀ id approval, approval.actionId ≠ actionId →
    (after.lookup id = some approval ↔ before.lookup id = some approval)

private theorem Revises.others_kept {before after : Approvals} {old new : PendingApproval}
    (revises : Revises before after old new) : OthersKept old.actionId before after := by
  intro id approval other
  rw [revises.lookup]
  split
  next same =>
    rw [same, revises.found]
    constructor
    · rintro ⟨⟩
      exact absurd revises.actionId_eq other
    · rintro ⟨⟩
      exact absurd rfl other
  next => exact Iff.rfl

private theorem Creates.others_kept {disk : Disk} {after : Approvals} {approval : PendingApproval}
    {reservedUsd : PlainDecimal} (creates : Creates site disk after operation approval reservedUsd) :
    OthersKept approval.actionId disk.approvals after := by
  intro id found other
  rw [creates.stored, lookup_stored_eq]
  split
  next same =>
    rw [same, creates.absent]
    simp only [Option.some.injEq, reduceCtorEq, iff_false]
    rintro rfl
    exact other rfl
  next => exact Iff.rfl

/-- An operator decides, or the approvals change at the action of the operation only. -/
theorem ApprovalMoves.others_kept {after : Approvals} (wellFormed : WellFormed w.disk.approvals)
    (moves : ApprovalMoves site w after) (active : w.disk.journal = some operation) :
    (∃ past approvalId approved, w.trace = past ++ [.deciding approvalId approved w.disk]) ∨
      OthersKept operation.payload.actionId w.disk.approvals after := by
  have idle_absurd {P : Prop} (idle : w.disk.journal = none) : P := by
    rw [idle] at active
    cases active
  cases moves with
  -- a decision may be taken while an operation waits: it is the one exception
  | decide approvalId approved _ _ _ _ taken _ =>
    obtain ⟨past, trace⟩ := taken
    exact .inl ⟨past, approvalId, approved, trace⟩
  | create found journal approval reservedUsd kind valid funded moved =>
    rw [active, Option.some.injEq] at journal
    subst journal
    obtain ⟨update, ok, written⟩ := moved
    obtain ⟨-, rfl⟩ | ⟨absent, -, -, rfl⟩ := ApprovalStore.createPrepared_ok_iff.1 ok
    · cases written
    · cases written
      rw [kind]
      exact .inr (Creates.others_kept ⟨active, kind, valid, funded, absent, rfl⟩)
  | reject found clock journal approvalId owner requestId reservedUsd _ _ _ kind bound moved =>
    rw [active, Option.some.injEq] at journal
    subst journal
    obtain ⟨old, new, rfl, revises, -⟩ := ensureRejected_revises wellFormed moved
    obtain ⟨approval, stored, own, -⟩ := validateJournaledApproval_ok_iff.1 bound
    rw [revises.found, Option.some.injEq] at stored
    subst stored
    rw [kind, show (OperationPayload.approvalReject _ owner _ _ _ _ _).actionId = owner from rfl, ← own]
    exact .inr revises.others_kept
  | expire found clock journal approvalId owner requestId reservedUsd kind bound moved =>
    rw [active, Option.some.injEq] at journal
    subst journal
    obtain ⟨old, new, rfl, revises, -⟩ := expireOne_revises wellFormed moved
    obtain ⟨approval, stored, own, -⟩ := validateJournaledApproval_ok_iff.1 bound
    rw [revises.found, Option.some.injEq] at stored
    subst stored
    rw [kind, show (OperationPayload.approvalExpire _ owner _ _).actionId = owner from rfl, ← own]
    exact .inr revises.others_kept
  | claim idle => exact idle_absurd idle
  | block idle => exact idle_absurd idle
  | complete found clock journal subject approvalId _ _ _ kind _ owner moved =>
    rw [active, Option.some.injEq] at journal
    subst journal
    obtain ⟨old, new, rfl, revises, -⟩ := ensureConsumed_revises wellFormed moved
    rw [kind, show (OperationPayload.executionComplete subject _ _ _ _).actionId = subject.actionId
      from rfl, ← owner old revises.found]
    exact .inr revises.others_kept
  | intend idle => exact idle_absurd idle
  | reconcile idle => exact idle_absurd idle

end Moves

/-! ### Every write of a run -/

theorem JournalOperation.validate_actionId {digests : Digests} {operation : JournalOperation}
    (valid : operation.validate digests = .ok ()) :
    operation.payload.actionId = operation.evidence.actionId := by
  obtain ⟨id, at_, payload, evidence⟩ := operation
  simp only [validate, bind_ok_iff] at valid
  obtain ⟨_, -, _, -, bound⟩ := valid
  -- each kind compares the evidence's action with its own
  cases payload with
  | approvalCreate approval reservedUsd =>
    simp only [OperationPayload.validate, bind_ok_iff, refuseIf_ok_iff, not_or, not_not] at bound
    obtain ⟨_, -, _, -, -, action, -⟩ := bound
    exact action
  | approvalReject approvalId owner requestId reservedUsd decidedBy note attestation =>
    simp only [OperationPayload.validate, OperationPayload.checkIdentifiers, bind_ok_iff,
      refuseIf_ok_iff, not_or, not_not] at bound
    obtain ⟨_, -, _, ⟨_, -, _, -, _, -, action, -⟩, -⟩ := bound
    exact action
  | approvalExpire approvalId owner requestId reservedUsd =>
    simp only [OperationPayload.validate, OperationPayload.checkIdentifiers, bind_ok_iff,
      refuseIf_ok_iff, not_or, not_not] at bound
    obtain ⟨_, -, _, -, _, -, _, -, action, -⟩ := bound
    exact action
  | authorizationReconcile authority expectedUsd outcome reconciledBy note attestation =>
    simp only [OperationPayload.validate, OperationPayload.checkReconciliation, bind_ok_iff,
      refuseIf_ok_iff, not_or, not_not] at bound
    obtain ⟨_, -, _, -, _, ⟨action, -⟩, -⟩ := bound
    exact action
  | executionComplete authority approvalId reservedUsd actualUsd disposition =>
    simp only [OperationPayload.validate, OperationPayload.checkCompletion, bind_ok_iff,
      refuseIf_ok_iff, not_or, not_not] at bound
    obtain ⟨_, -, _, -, _, -, _, -, _, ⟨action, -⟩, -⟩ := bound
    exact action

/-- What a write does while an operation waits. -/
structure Serves (site : Deployment) (operation : JournalOperation) (past : List Event)
    (before after : Disk) : Prop where
  evidence : after.records = before.records ∨ ∃ previous,
    after.records = before.records ++ [operation.evidence.sealed site.digests previous]
  budget : ∀ actionId, actionId ≠ operation.evidence.actionId →
    Untouched actionId before.ledger.document after.ledger.document
  approvals : (∃ earlier approvalId approved,
      past = earlier ++ [.deciding approvalId approved before]) ∨
    OthersKept operation.evidence.actionId before.approvals after.approvals
  journal : after.journal = some operation ∨
    after.journal = none ∧ CarriedOut before operation ∧
      ∃ record ∈ before.records, record.comparable = operation.evidence.comparable

/-- A write serves the operation that waits; an operation is prepared when none waits, and before
anything else is written. -/
def Ordered (site : Deployment) (past : List Event) : Event → Prop
  | .wrote before after =>
    (∀ operation, before.journal = some operation → Serves site operation past before after) ∧
      ∀ operation, before.journal = none → after.journal = some operation →
        after = { before with journal := some operation }
  | _ => True

section Runs

variable {site : Deployment} {w t : World}

private theorem OthersKept.refl {actionId : String} {approvals : Approvals} :
    OthersKept actionId approvals approvals := fun _ _ _ => Iff.rfl

private theorem Mutation.ordered (tracked : Tracked site w)
    (bound : ∀ operation, w.disk.journal = some operation → operation.validate site.digests = .ok ())
    {after : Disk} (mutation : Mutation site w after) :
    Ordered site w.trace (.wrote w.disk after) := by
  have untouched {actionId : String} {document : BudgetDocument} :
      Untouched actionId document document := .refl document
  cases mutation with
  | checkpoint =>
    refine ⟨fun operation active => ?_, fun operation idle prepared => ?_⟩
    · exact ⟨.inl rfl, fun _ _ => untouched, .inr .refl, .inl active⟩
    · exact absurd (idle.symm.trans prepared) nofun
  | append record why =>
    refine ⟨fun operation active => ?_, fun operation idle prepared => ?_⟩
    · obtain ⟨rfl, -⟩ := why.of_active active
      exact ⟨.inr ⟨_, rfl⟩, fun _ _ => untouched, .inr .refl, .inl active⟩
    · exact absurd (idle.symm.trans prepared) nofun
  | ledger after moves =>
    refine ⟨fun operation active => ?_, fun operation idle prepared => ?_⟩
    · refine ⟨.inl rfl, fun actionId other => ?_, .inr .refl, .inl active⟩
      rw [← JournalOperation.validate_actionId (bound operation active)] at other
      exact moves.untouched active other
    · exact absurd (idle.symm.trans prepared) nofun
  | approvals after moves =>
    refine ⟨fun operation active => ?_, fun operation idle prepared => ?_⟩
    · refine ⟨.inl rfl, fun _ _ => untouched, ?_, .inl active⟩
      rw [← JournalOperation.validate_actionId (bound operation active)]
      exact moves.others_kept tracked.named.wellFormed active
    · exact absurd (idle.symm.trans prepared) nofun
  | prepare operation idle =>
    refine ⟨fun found active => absurd (idle.symm.trans active) nofun, ?_⟩
    rintro found - prepared
    rw [← prepared]
  -- the journal is cleared only behind the operation's record
  | complete operation active valid carried recorded =>
    refine ⟨fun found waiting => ?_, fun found _ prepared => by cases prepared⟩
    obtain rfl := Option.some.inj (active.symm.trans waiting)
    exact ⟨.inl rfl, fun _ _ => untouched, .inr .refl, .inr ⟨rfl, carried, recorded⟩⟩

/-- The operation that waits is a valid one, and every write so far was in order. -/
private structure InJournalOrder (site : Deployment) (w : World) : Prop where
  bound : ∀ operation, w.disk.journal = some operation → operation.validate site.digests = .ok ()
  ordered : Each (Ordered site) w.trace

private theorem InJournalOrder.step (tracked : Tracked site w) (order : InJournalOrder site w)
    (step : Step site w t) : InJournalOrder site t := by
  cases step with
  | write after mutation =>
    refine ⟨?_, order.ordered.concat (mutation.ordered tracked order.bound)⟩
    cases mutation with
    | prepare operation _ valid =>
      rintro found ⟨⟩
      exact valid
    | complete => rintro found ⟨⟩
    | checkpoint | append | ledger | approvals => exact order.bound
  | tick | draw | enter => exact ⟨order.bound, order.ordered⟩
  | evaluate | decide | claim | compute | dispatch =>
    exact ⟨order.bound, order.ordered.concat trivial⟩

/-- In every run, with stops anywhere between whole durable writes, each write that is made while an
operation waits serves that operation: it appends nothing but its evidence, touches the budget of no
other action, leaves the approvals of other actions alone unless an operator is deciding one, and
clears the journal only when the operation is carried out, its budget effect and its approval
included, and its evidence is in the log. An operation is only prepared when none waits. -/
theorem journal_orders_writes (reached : Reachable site w) {past later : List Event}
    {before after : Disk} (shape : w.trace = past ++ .wrote before after :: later) :
    (∀ operation, before.journal = some operation → Serves site operation past before after) ∧
      ∀ operation, before.journal = none → after.journal = some operation →
        after = { before with journal := some operation } := by
  have order : InJournalOrder site w := by
    apply reached.invariant (I := InJournalOrder site)
    · intro start fresh
      refine ⟨by simp [fresh.journal], ?_⟩
      rw [fresh.trace]
      exact .nil
    · exact fun _ _ tracked order step => order.step tracked step
  exact order.ordered past _ later shape

/-- A mail that has to wait for an approval, with a reservation. -/
private def heldRun : World :=
  Demo.start.afterAll (Demo.site Demo.clock)
    [(Demo.process .approvalRequired (Demo.dollars 3) (Demo.dollars 2) none,
      .handleCall (Demo.call "act_1") Demo.request "" "")]

/-- The general theorem at a write that the creation of this approval makes. -/
theorem journal_orders_writes_held :
    ∃ operation past before after later, heldRun.trace = past ++ .wrote before after :: later ∧
      before.journal = some operation ∧
      Serves (Demo.site Demo.clock) operation past before after := by
  have wrote : (heldRun.trace.any fun event => match event with
      | .wrote before _ => before.journal.isSome
      | _ => false) = true := by decide +kernel
  obtain ⟨event, member, waiting⟩ := List.any_eq_true.1 wrote
  cases event with
  | wrote before after =>
    obtain ⟨past, later, shape⟩ := List.append_of_mem member
    obtain ⟨operation, active⟩ := Option.isSome_iff_exists.1 waiting
    have reached : Reachable (Demo.site Demo.clock) heldRun :=
      (Reachable.fresh (Demo.start_fresh _)).afterAll _
    exact ⟨operation, past, before, after, later, shape, active,
      (journal_orders_writes reached shape).1 operation active⟩
  | _ => cases waiting

end Runs

end DefiantHarness
