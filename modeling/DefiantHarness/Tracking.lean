import DefiantHarness.RecoverySteps

/-! Every approval is tracked by evidence of its action, or by the journaled operation that is
creating it, and no action has two approvals. -/
namespace DefiantHarness

open Foundation

/-- The journal is creating the approval with these terms. -/
def Creating (disk : Disk) (terms : ApprovalTerms) : Prop :=
  ∃ operation approval reservedUsd, disk.journal = some operation ∧
    operation.payload = .approvalCreate approval reservedUsd ∧ approval.terms = terms

structure Tracked (site : Deployment) (w : World) : Prop where
  named : Named site w
  known : ∀ id approval, w.disk.approvals.lookup id = some approval →
    Known w.disk.records approval.actionId ∨ Creating w.disk approval.terms
  single : ∀ id id' approval approval', w.disk.approvals.lookup id = some approval →
    w.disk.approvals.lookup id' = some approval' → approval.actionId = approval'.actionId → id = id'
  creating : ∀ operation approval reservedUsd, w.disk.journal = some operation →
    operation.payload = .approvalCreate approval reservedUsd →
    (∀ id other, w.disk.approvals.lookup id = some other → other.actionId = approval.actionId →
      id = approval.approvalId) ∧
    (Known w.disk.records approval.actionId →
      w.disk.approvals.lookup approval.approvalId ≠ none)

theorem Known.of_append {records : List EvidenceRecord} {record : EvidenceRecord} {actionId : String}
    (known : Known (records ++ [record]) actionId) :
    Known records actionId ∨ record.actionId = actionId := by
  obtain ⟨found, member, action⟩ := known
  rcases List.mem_append.1 member with old | new
  · exact .inl ⟨found, old, action⟩
  · rw [List.mem_singleton.1 new] at action
    exact .inr action

theorem Known.append {records : List EvidenceRecord} {actionId : String}
    (known : Known records actionId) (record : EvidenceRecord) :
    Known (records ++ [record]) actionId := by
  obtain ⟨found, member, action⟩ := known
  exact ⟨found, List.mem_append_left _ member, action⟩

/-- Nothing but a journaled operation writes evidence while the journal is active. -/
theorem Appends.of_active {disk : Disk} {record : EvidenceRecord} {operation : JournalOperation}
    (appends : Appends disk record) (active : disk.journal = some operation) :
    record = operation.evidence ∧ Replayed disk operation.payload := by
  cases appends with
  | journaled found journal same replayed =>
    rw [active, Option.some.injEq] at journal
    exact journal ▸ ⟨same, replayed⟩
  | refused idle => simp [idle] at active
  | authorized idle => simp [idle] at active
  | resumed idle => simp [idle] at active
  | reconciled idle => simp [idle] at active

namespace Tracked

variable {site : Deployment} {w t : World}

theorem of_same (tracked : Tracked site w) (named : Named site t)
    (records : t.disk.records = w.disk.records) (approvals : t.disk.approvals = w.disk.approvals)
    (journal : t.disk.journal = w.disk.journal) : Tracked site t where
  named := named
  known id approval found := by
    rw [approvals] at found
    simpa only [Creating, records, journal] using tracked.known id approval found
  single := by rw [approvals]; exact tracked.single
  creating := by rw [records, approvals, journal]; exact tracked.creating

private theorem appended (tracked : Tracked site w) {record sealed_ : EvidenceRecord}
    (why : Appends w.disk record)
    (named : Named site (w.saved { w.disk with records := w.disk.records ++ [sealed_] })) :
    Tracked site (w.saved { w.disk with records := w.disk.records ++ [sealed_] }) where
  named := named
  known id approval found := (tracked.known id approval found).imp_left fun known => known.append _
  single := tracked.single
  creating operation approval reserved active kind := by
    obtain ⟨owners, present⟩ := tracked.creating operation approval reserved active kind
    refine ⟨owners, fun known => ?_⟩
    rcases known.of_append with old | new
    · exact present old
    · obtain ⟨-, replayed⟩ := why.of_active active
      rw [kind] at replayed
      exact fun none => by simp [replayed.1] at none

private theorem created (tracked : Tracked site w) {after : Approvals}
    {operation : JournalOperation} {approval : PendingApproval} {reservedUsd : PlainDecimal}
    (creates : Creates site w.disk after operation approval reservedUsd)
    (named : Named site (w.saved { w.disk with approvals := after })) :
    Tracked site (w.saved { w.disk with approvals := after }) := by
  have lookup : ∀ id, after.lookup id =
      if id = approval.approvalId then some approval else w.disk.approvals.lookup id := by
    intro id
    rw [creates.stored, lookup_stored_eq]
  obtain ⟨owners, -⟩ := tracked.creating operation approval reservedUsd creates.active creates.kind
  have owner : ∀ id other, after.lookup id = some other → other.actionId = approval.actionId →
      id = approval.approvalId := by
    intro id other found action
    rw [lookup] at found
    split at found
    next same => exact same
    next => exact owners id other found action
  refine ⟨named, ?_, ?_, ?_⟩
  · intro id found stored
    rw [World.saved_disk, lookup] at stored
    split at stored
    next =>
      cases stored
      exact .inr ⟨operation, approval, reservedUsd, creates.active, creates.kind, rfl⟩
    next => exact tracked.known id found stored
  · intro id id' one other first second action
    by_cases own : one.actionId = approval.actionId
    · exact (owner id one first own).trans (owner id' other second (action ▸ own)).symm
    · rw [World.saved_disk, lookup] at first second
      split at first
      next =>
        cases first
        exact absurd rfl own
      next =>
        split at second
        next =>
          cases second
          exact absurd action own
        next => exact tracked.single id id' one other first second action
  · intro found other reserved active kind
    rw [World.saved_disk, creates.active, Option.some.injEq] at active
    rw [← active, creates.kind] at kind
    cases kind
    exact ⟨owner, fun _ => by simp [lookup]⟩

private theorem revised (tracked : Tracked site w) {after : Approvals} {old new : PendingApproval}
    (revises : Revises w.disk.approvals after old new)
    (named : Named site (w.saved { w.disk with approvals := after })) :
    Tracked site (w.saved { w.disk with approvals := after }) := by
  -- a revision keeps the terms of every approval
  have before : ∀ id approval, after.lookup id = some approval →
      ∃ earlier, w.disk.approvals.lookup id = some earlier ∧ approval.terms = earlier.terms := by
    intro id approval found
    rw [revises.lookup] at found
    split at found
    next same =>
      cases found
      exact ⟨old, same ▸ revises.found, revises.terms⟩
    next => exact ⟨approval, found, rfl⟩
  have action : ∀ {a b : PendingApproval}, a.terms = b.terms → a.actionId = b.actionId :=
    fun terms => congrArg ApprovalTerms.actionId terms
  refine ⟨named, ?_, ?_, ?_⟩
  · intro id approval found
    obtain ⟨earlier, stored, terms⟩ := before id approval found
    have known := tracked.known id earlier stored
    rw [← action terms, ← terms] at known
    exact known
  · intro id id' one other first second same
    obtain ⟨one', first', terms⟩ := before id one first
    obtain ⟨other', second', terms'⟩ := before id' other second
    exact tracked.single id id' one' other' first' second'
      ((action terms).symm.trans (same.trans (action terms')))
  · intro operation approval reserved active kind
    obtain ⟨owners, present⟩ := tracked.creating operation approval reserved active kind
    refine ⟨fun id other found same => ?_, fun known => ?_⟩
    · obtain ⟨earlier, stored, terms⟩ := before id other found
      exact owners id earlier stored ((action terms).symm.trans same)
    · rw [World.saved_disk, revises.lookup]
      split
      next => simp
      next => exact present known

private theorem prepared (tracked : Tracked site w) {operation : JournalOperation}
    (idle : w.disk.journal = none) (why : Prepares site w operation.evidence operation.payload)
    (named : Named site (w.saved { w.disk with journal := some operation })) :
    Tracked site (w.saved { w.disk with journal := some operation }) := by
  have known : ∀ id approval, w.disk.approvals.lookup id = some approval →
      Known w.disk.records approval.actionId := by
    intro id approval found
    obtain known | ⟨_, _, _, active, -⟩ := tracked.known id approval found
    · exact known
    · simp [idle] at active
  refine ⟨named, fun id approval found => .inl (known id approval found), tracked.single, ?_⟩
  intro found approval reserved active kind
  cases active
  rw [kind] at why
  cases why with
  | approvalCreate _ _ unknown =>
    refine ⟨fun id other stored same => ?_, fun seen => absurd seen unknown⟩
    exact absurd (same ▸ known id other stored) unknown

private theorem completed (tracked : Tracked site w) {operation : JournalOperation}
    (active : w.disk.journal = some operation) (valid : operation.validate site.digests = .ok ())
    (recorded : ∃ record ∈ w.disk.records, record.comparable = operation.evidence.comparable)
    (named : Named site (w.saved { w.disk with journal := none })) :
    Tracked site (w.saved { w.disk with journal := none }) := by
  refine ⟨named, fun id approval found => .inl ?_, tracked.single, by simp⟩
  obtain known | ⟨found', created, reserved, journal, kind, terms⟩ := tracked.known id approval found
  · exact known
  · rw [active, Option.some.injEq] at journal
    subst journal
    obtain ⟨-, -, -, -, action, -⟩ := JournalOperation.validate_create valid kind
    obtain ⟨record, member, same⟩ := recorded
    refine ⟨record, member, ?_⟩
    have own : created.actionId = approval.actionId := congrArg ApprovalTerms.actionId terms
    have recordAction := congrArg EvidenceRecord.actionId same
    rw [← own, action]
    exact recordAction

theorem written (tracked : Tracked site w) {after : Disk} (mutation : Mutation site w after) :
    Tracked site (w.saved after) := by
  have named := tracked.named.written mutation
  cases mutation with
  | checkpoint => exact tracked.of_same named rfl rfl rfl
  | append record why => exact tracked.appended why named
  | ledger => exact tracked.of_same named rfl rfl rfl
  | approvals after why =>
    obtain ⟨operation, approval, reserved, creates⟩ | ⟨old, new, revises⟩ :=
      why.cases tracked.named.wellFormed
    · exact tracked.created creates named
    · exact tracked.revised revises named
  | prepare operation idle _ _ _ why => exact tracked.prepared idle why named
  | complete operation active valid _ recorded => exact tracked.completed active valid recorded named

theorem step (tracked : Tracked site w) (step : Step site w t) : Tracked site t := by
  have named := tracked.named.step step
  cases step with
  | write after mutation => exact tracked.written mutation
  | tick | draw | enter | evaluate | decide | claim | compute | dispatch =>
    exact tracked.of_same named rfl rfl rfl

theorem moves (tracked : Tracked site w) (moves : Moves site w t) : Tracked site t := by
  induction moves with
  | refl => exact tracked
  | tail _ step ih => exact ih.step step

theorem fresh (start : w.Fresh site) : Tracked site w where
  named := .fresh start
  known := by simp [start.approvals]
  single := by simp [start.approvals]
  creating := by simp [start.journal]

/-- An action that no evidence mentions has no approval while the journal is idle. -/
theorem unknown_unowned (tracked : Tracked site w) (idle : w.disk.journal = none) {actionId : String}
    (unknown : ¬ Known w.disk.records actionId) :
    ApprovalStore.forAction w.disk.approvals actionId = [] := by
  rw [forAction_eq_nil_iff]
  intro id approval found action
  obtain known | ⟨_, _, _, active, -⟩ := tracked.known id approval found
  · exact unknown (action ▸ known)
  · simp [idle] at active

end Tracked
end DefiantHarness
