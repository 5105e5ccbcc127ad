import DefiantHarness.EntrySteps
import DefiantHarness.LedgerReplay

/-! The budget of an action is disposed of only after evidence of the action exists, and never while
an approval of the action still waits. -/
namespace DefiantHarness

open Foundation

/-- Some request has disposed of the budget of the action. -/
def Disposed (document : BudgetDocument) (actionId : String) : Prop :=
  ∃ requestId, Ledger.dispositions document requestId actionId ≠ []

/-- The approval still waits for a decision or for its execution. -/
def ApprovalStatus.waits (status : ApprovalStatus) : Prop := status = .pending ∨ status = .approved

/-- No approval of the action waits. -/
def Unawaited (approvals : Approvals) (actionId : String) : Prop :=
  ∀ id approval, approvals.lookup id = some approval → approval.actionId = actionId →
    ¬ approval.status.waits

/-- What a run keeps true of the dispositions in the ledger. -/
structure Accountable (disk : Disk) : Prop where
  known : ∀ actionId, Disposed disk.ledger.document actionId → Known disk.records actionId
  settled : ∀ actionId, Disposed disk.ledger.document actionId → Unawaited disk.approvals actionId

/-! ### The entries that the ledger operations post -/

section

variable {fits : BudgetDocument → Bool} {before : BudgetDocument} {after : Ledger}
  {actionId owner : String}

private theorem Disposed.of_posted (disposed : Disposed after.document actionId)
    (posts : Ledger.PostsFor fits before owner after) : Disposed before actionId ∨ actionId = owner := by
  by_cases own : actionId = owner
  · exact .inr own
  · obtain ⟨data, entry, appended, named, confined⟩ := posts
    obtain ⟨requestId, some⟩ := disposed
    rw [← named] at confined own
    have untouched := Ledger.append_untouched confined appended own
    rw [Ledger.dispositions_untouched untouched] at some
    exact .inl ⟨requestId, some⟩

theorem Disposed.of_reserves (disposed : Disposed after.document actionId)
    (reserves : Ledger.Reserves before after.document owner) : Disposed before actionId := by
  obtain ⟨entry, kind, -, posted⟩ := reserves
  obtain ⟨requestId, some⟩ := disposed
  refine ⟨requestId, ?_⟩
  have skipped : [entry].filter (fun entry => entry.requestId == requestId &&
      entry.actionId == actionId &&
      (entry.kind == .debit || entry.kind == .release || entry.kind == .reconcile)) = [] := by
    simp [kind]
  rwa [Ledger.dispositions, posted.entries, List.filter_append, skipped, List.append_nil] at some

end

section

variable {site : Deployment} {w t : World}

/-- The action of a call that writes is the only one whose budget it can dispose of. -/
private theorem disposed_of_call {fits : BudgetDocument → Bool} {ledger after : Ledger}
    {clock : Clock} {actionId owner : String} (call : LedgerCall)
    (wrote : call.written fits ledger clock = .ok (some after)) (own : call.action = some owner)
    (disposed : Disposed after.document actionId) :
    Disposed ledger.document actionId ∨ actionId = owner := by
  rcases LedgerCall.written_postsFor wrote with nothing | ⟨stored, same, posts⟩
  · cases nothing
  · cases same
    rw [own] at posts
    exact disposed.of_posted posts

theorem written_of_writes {α : Type} {result : Except HarnessError (Update Ledger α)}
    {after : Ledger} (moved : Writes result after) :
    (do let update ← result; pure update.written : Except HarnessError (Option Ledger)) =
      .ok (some after) := by
  obtain ⟨update, ok, written⟩ := moved
  rw [ok, ← written]
  rfl

/-- The only approval of an action is the one with this id. -/
private theorem Tracked.unawaited_of (tracked : Tracked site w) {id : String}
    {approval : PendingApproval} (found : w.disk.approvals.lookup id = some approval)
    (ended : ¬ approval.status.waits) : Unawaited w.disk.approvals approval.actionId := by
  intro id' other found' same
  have ids := tracked.single id' id other approval found' found same
  rw [ids, found, Option.some.injEq] at found'
  rwa [← found']

private theorem Tracked.known_of_idle (tracked : Tracked site w) (idle : w.disk.journal = none)
    {id : String} {approval : PendingApproval}
    (found : w.disk.approvals.lookup id = some approval) : Known w.disk.records approval.actionId := by
  rcases tracked.known id approval found with known | ⟨_, _, _, active, -⟩
  · exact known
  · rw [idle] at active
    cases active

private theorem not_waits_of_intent {approval : PendingApproval} {intent : ReconciliationIntent}
    (valid : approval.validate = .ok ()) (intended : approval.reconciliation = some intent) :
    ¬ approval.status.waits := by
  simp only [PendingApproval.validate, PendingApproval.checkIntent, intended, bind_ok_iff,
    refuseIf_ok_iff] at valid
  rintro (pending | approved) <;> simp_all

/-- Which action a write of the ledger can dispose of. -/
theorem LedgerMoves.disposed (tracked : Tracked site w) {after : Ledger}
    (moves : LedgerMoves site w.disk after) {actionId : String}
    (disposed : Disposed after.document actionId) :
    Disposed w.disk.ledger.document actionId ∨
      Known w.disk.records actionId ∧ Unawaited w.disk.approvals actionId := by
  cases moves with
  | reserve idle amount requestId owner clock unknown moved =>
    obtain ⟨update, ok, written⟩ := moved
    obtain ⟨stored, rfl, reserves⟩ := Ledger.reserve_ok ok
    cases written
    exact .inl (disposed.of_reserves reserves)
  | journaledReservation operation clock active approval reservedUsd kind funded moved =>
    obtain ⟨update, ok, written⟩ := moved
    rcases Ledger.ensureReservation_ok ok with ⟨-, rfl⟩ | ⟨stored, rfl, -, reserves⟩
    · cases written
    · cases written
      exact .inl (disposed.of_reserves reserves)
  | release idle approvalId approval clock found executing moved =>
    apply (disposed_of_call (.release approval.terms.requestId approval.actionId)
      (written_of_writes moved) rfl disposed).imp_right
    rintro rfl
    refine ⟨tracked.known_of_idle idle found, tracked.unawaited_of found ?_⟩
    rintro (pending | approved) <;> simp_all
  | reconcile idle approvalId approval intent clock found intended moved =>
    apply (disposed_of_call (.reconcileReservation _ approval.terms.requestId approval.actionId _ _ _ _)
      (written_of_writes moved) rfl disposed).imp_right
    rintro rfl
    refine ⟨tracked.known_of_idle idle found, tracked.unawaited_of found ?_⟩
    exact not_waits_of_intent (tracked.named.wellFormed _ _ found).2 intended
  | journaledRelease operation clock active approvalId owner requestId reservedUsd status kind closed
      moved =>
    apply (disposed_of_call (.ensureRelease _ requestId owner) (written_of_writes moved) rfl
      disposed).imp_right
    rintro rfl
    obtain ⟨approval, found, ended, rfl⟩ := closed
    refine ⟨?_, tracked.unawaited_of found ?_⟩
    · -- the operation that closes an approval is not the one that creates it
      rcases tracked.known _ approval found with known | ⟨other, _, _, journal, create, -⟩
      · exact known
      · rw [active, Option.some.injEq] at journal
        subst journal
        rcases kind with ⟨_, _, _, -, kind⟩ | ⟨-, kind⟩ <;> rw [create] at kind <;> cases kind
    · rcases kind with ⟨_, _, _, rfl, -⟩ | ⟨rfl, -⟩ <;> rintro (pending | approved) <;> simp_all
  | journaledReconcile operation clock active subject expectedUsd outcome reconciledBy note
      attestation kind known unowned moved =>
    apply (disposed_of_call (.reconcileReservation _ subject.requestId subject.actionId _ _ _ _)
      (written_of_writes moved) rfl disposed).imp_right
    rintro rfl
    exact ⟨known, fun id approval found same => absurd same (unowned id approval found)⟩
  | journaledSettlement operation clock active subject approvalId reservedUsd actualUsd kind known
      started moved =>
    apply (disposed_of_call (.ensureSettlement _ _ subject.requestId subject.actionId _)
      (written_of_writes moved) rfl disposed).imp_right
    rintro rfl
    refine ⟨known, ?_⟩
    rcases started with unowned | ⟨approval, found, own, started⟩
    · exact fun id approval found same => absurd same (unowned id approval found)
    · rw [← own]
      apply tracked.unawaited_of found
      rintro (pending | approved) <;> simp_all

namespace Accountable

private theorem revised (accountable : Accountable w.disk) {after : Approvals}
    {old new : PendingApproval} (revises : Revises w.disk.approvals after old new) :
    Accountable { w.disk with approvals := after } where
  known := accountable.known
  settled actionId disposed id approval found own := by
    rw [revises.lookup] at found
    split at found
    next =>
      cases found
      rw [revises.actionId_eq] at own
      have ended := accountable.settled actionId disposed _ old revises.found own
      have turns := revises.turns
      generalize new.status = status at turns ⊢
      generalize old.status = earlier at turns ended
      cases turns <;> simp_all [ApprovalStatus.waits]
    next => exact accountable.settled actionId disposed id approval found own

private theorem created (tracked : Tracked site w) (accountable : Accountable w.disk)
    {after : Approvals} {operation : JournalOperation} {approval : PendingApproval}
    {reservedUsd : PlainDecimal} (creates : Creates site w.disk after operation approval reservedUsd) :
    Accountable { w.disk with approvals := after } where
  known := accountable.known
  settled actionId disposed id found stored own := by
    rw [creates.stored, lookup_stored_eq] at stored
    split at stored
    next =>
      cases stored
      have known := accountable.known actionId disposed
      rw [← own] at known
      exact absurd creates.absent
        ((tracked.creating operation approval reservedUsd creates.active creates.kind).2 known)
    next => exact accountable.settled actionId disposed id found stored own

theorem written (tracked : Tracked site w) (accountable : Accountable w.disk) {after : Disk}
    (mutation : Mutation site w after) : Accountable after := by
  cases mutation with
  | checkpoint => exact ⟨accountable.known, accountable.settled⟩
  | append =>
    refine ⟨?_, accountable.settled⟩
    intro actionId disposed
    exact (accountable.known actionId disposed).append _
  | ledger after moves =>
    constructor
    · intro actionId disposed
      -- only an action that has evidence and awaits nothing is settled or released
      rcases moves.disposed tracked disposed with earlier | ⟨known, -⟩
      · exact accountable.known actionId earlier
      · exact known
    · intro actionId disposed
      rcases moves.disposed tracked disposed with earlier | ⟨-, unawaited⟩
      · exact accountable.settled actionId earlier
      · exact unawaited
  | approvals after why =>
    obtain ⟨operation, approval, reserved, creates⟩ | ⟨old, new, revises⟩ :=
      why.cases tracked.named.wellFormed
    · exact accountable.created tracked creates
    · exact accountable.revised revises
  | prepare => exact ⟨accountable.known, accountable.settled⟩
  | complete => exact ⟨accountable.known, accountable.settled⟩

theorem step (tracked : Tracked site w) (accountable : Accountable w.disk) (step : Step site w t) :
    Accountable t.disk := by
  cases step with
  | write after mutation => exact accountable.written tracked mutation
  | tick | draw | enter | evaluate | decide | claim | compute | dispatch => exact accountable

theorem moves (tracked : Tracked site w) (accountable : Accountable w.disk) (moves : Moves site w t) :
    Accountable t.disk := by
  induction moves with
  | refl => exact accountable
  | tail earlier step ih => exact ih.step (tracked.moves earlier) step

theorem of_reachable (reachable : Reachable site w) : Accountable w.disk := by
  apply reachable.invariant (I := fun w => Accountable w.disk)
  · intro w start
    have unused : ∀ actionId, ¬ Disposed w.disk.ledger.document actionId := by
      obtain ⟨starting, created⟩ := start.ledger
      simp only [Ledger.create, bind_ok_iff] at created
      obtain ⟨_, -, stored⟩ := created
      rintro actionId ⟨requestId, some⟩
      rw [Ledger.write_document stored] at some
      exact some rfl
    constructor
    · exact fun actionId disposed => absurd disposed (unused actionId)
    · exact fun actionId disposed => absurd disposed (unused actionId)
  · exact fun _ _ tracked accountable step => accountable.step tracked step

end Accountable

end

end DefiantHarness
