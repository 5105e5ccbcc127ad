import DefiantHarness.StateIntegrity

/-! What it takes for the audit to accept a state, store by store. -/
namespace DefiantHarness

open Foundation

namespace StateIntegrity

/-- No finding is critical. -/
def Harmless (issues : List IntegrityIssue) : Prop :=
  ∀ issue ∈ issues, issue.severity ≠ .critical

@[simp] theorem harmless_nil : Harmless [] := by simp [Harmless]

@[simp] theorem harmless_append {first second : List IntegrityIssue} :
    Harmless (first ++ second) ↔ Harmless first ∧ Harmless second := by
  simp only [Harmless, List.mem_append]
  constructor
  · exact fun all => ⟨fun issue member => all issue (.inl member),
      fun issue member => all issue (.inr member)⟩
  · rintro ⟨early, late⟩ issue (member | member)
    · exact early issue member
    · exact late issue member

@[simp] theorem harmless_cons {issue : IntegrityIssue} {issues : List IntegrityIssue} :
    Harmless (issue :: issues) ↔ issue.severity ≠ .critical ∧ Harmless issues := by
  simp [Harmless]

@[simp] theorem harmless_flatMap {α : Type} {items : List α} {f : α → List IntegrityIssue} :
    Harmless (items.flatMap f) ↔ ∀ item ∈ items, Harmless (f item) := by
  simp only [Harmless, List.mem_flatMap]
  constructor
  · exact fun all item member issue found => all issue ⟨item, member, found⟩
  · rintro all issue ⟨item, member, found⟩
    exact all item member issue found

theorem harmless_perm {issues others : List IntegrityIssue} (perm : issues.Perm others) :
    Harmless issues ↔ Harmless others :=
  forall_congr' fun _ => by rw [perm.mem_iff]

@[simp] theorem critical_severity (code store detail actionId approvalId recordId : String) :
    (critical code store detail actionId approvalId recordId).severity = .critical := rfl

@[simp] theorem warning_severity (code store detail actionId approvalId recordId : String) :
    (warning code store detail actionId approvalId recordId).severity = .warning := rfl

@[simp] theorem approvalCritical_severity (code store detail : String) (approval : PendingApproval) :
    (approvalCritical code store detail approval).severity = .critical := rfl

@[simp] theorem approvalWarning_severity (code store detail : String) (approval : PendingApproval) :
    (approvalWarning code store detail approval).severity = .warning := rfl

@[simp] theorem resultCritical_severity (code store detail recordId : String) (entry : LedgerEntry) :
    (resultCritical code store detail entry recordId).severity = .critical := rfl

@[simp] theorem harmless_issueIf {condition : Prop} [Decidable condition] {issue : IntegrityIssue} :
    Harmless (issueIf condition issue) ↔ (condition → issue.severity ≠ .critical) := by
  unfold issueIf
  split <;> simp [*]

/-- What the checks across stores look at in a state whose stores load. -/
def fullView (disk : Disk) : View :=
  { records := disk.records
    trusted := true
    approvals := disk.approvals
    budget := disk.ledger.document
    journal := disk.journal }

/-- The head of the log stands on its checkpoint or ahead of it. -/
def HeadSafe (disk : Disk) : Prop :=
  ∀ head, disk.head = some head →
    EvidenceLog.assessHead head disk.records = .verified ∨
      EvidenceLog.assessHead head disk.records = .forwardRecovery

/-- The findings about the approvals by themselves. -/
def ApprovalsSafe (site : Deployment) (disk : Disk) (clock : Clock) : Prop :=
  Harmless (auditDuplicates disk.approvals) ∧
    ∀ item ∈ disk.approvals.values.zipIdx, Harmless (auditApprovalShape site.digests
      site.approvals.operatorTrust disk.journal item.1 (clock (2 * item.2)) (clock (2 * item.2 + 1)))

/-- The findings across stores. -/
def CrossSafe (site : Deployment) (disk : Disk) (clock : Clock) : Prop :=
  ∃ issues, (fullView disk).auditCrossStore site.approvals.operatorTrust
    (fun i => clock (2 * disk.approvals.values.length + i)) = .ok issues ∧ Harmless issues

/-- The audit accepts exactly the states whose stores load and agree. -/
structure Safe (site : Deployment) (reading : Nat) (disk : Disk) : Prop where
  surroundings : Harmless (site.surroundings reading disk)
  journal : ∀ operation, disk.journal = some operation → operation.validate site.digests = .ok ()
  records : checkRecords site.digests disk.records = .ok ()
  head : HeadSafe disk
  loads : checkApprovals site.digests disk.approvals = .ok ()
  approvals : ApprovalsSafe site disk (site.clock reading)
  cross : CrossSafe site disk (site.clock reading)

theorem requireSafe_iff_harmless {site : Deployment} {reading : Nat} {disk : Disk} :
    requireSafe site reading disk = .ok () ↔
      ∃ issues, audit site reading disk = .ok issues ∧ Harmless issues := by
  simp only [requireSafe, bind_ok_iff]
  refine exists_congr fun issues => and_congr_right fun _ => ?_
  split
  next none =>
    simp only [List.find?_eq_none, beq_iff_eq] at none
    simp only [pure_eq_ok, true_iff]
    exact none
  next first found =>
    have isCritical : first.severity = .critical := by simpa using List.find?_some found
    simp only [throw_eq_error, reduceCtorEq, false_iff]
    exact fun harmless => harmless first (List.mem_of_find?_eq_some found) isCritical

private theorem readJournal_harmless {digests : Digests} {journal : Option JournalOperation} :
    Harmless (readJournal digests journal).1 ↔
      ∀ operation, journal = some operation → operation.validate digests = .ok () := by
  unfold readJournal
  split
  next => simp
  next operation =>
    simp only [Option.some.injEq, forall_eq']
    split
    next valid => simp [auditJournal, valid]
    next e invalid => simp [invalid]

private theorem readJournal_of_valid {digests : Digests} {journal : Option JournalOperation}
    (valid : ∀ operation, journal = some operation → operation.validate digests = .ok ()) :
    (readJournal digests journal).2 = journal := by
  unfold readJournal
  split
  next => rfl
  next operation => simp [valid operation rfl]

private theorem auditEvidence_harmless {digests : Digests} {records : List EvidenceRecord} :
    Harmless (auditEvidence digests records) ↔ checkRecords digests records = .ok () := by
  unfold auditEvidence
  split
  next checked => simp [checked]
  next e failed => simp [failed]

private theorem auditEvidenceHead_harmless {disk : Disk} :
    Harmless (auditEvidenceHead disk.head disk.records) ↔ HeadSafe disk := by
  unfold auditEvidenceHead HeadSafe
  split
  next none => simp [none]
  next head found =>
    simp only [found, Option.some.injEq, forall_eq']
    split <;> simp [*]

private theorem auditApprovals_harmless {site : Deployment} {approvals : Approvals}
    {journal : Option JournalOperation} {clock : Clock} :
    Harmless (auditApprovals site approvals journal clock).1 ↔
      checkApprovals site.digests approvals = .ok () ∧ Harmless (auditDuplicates approvals) ∧
        ∀ item ∈ approvals.values.zipIdx, Harmless (auditApprovalShape site.digests
          site.approvals.operatorTrust journal item.1 (clock (2 * item.2))
          (clock (2 * item.2 + 1))) := by
  unfold auditApprovals
  split
  next e failed => simp [failed]
  next loads => simp [loads]

private theorem auditApprovals_of_loads {site : Deployment} {approvals : Approvals}
    {journal : Option JournalOperation} {clock : Clock}
    (loads : checkApprovals site.digests approvals = .ok ()) :
    (auditApprovals site approvals journal clock).2 = approvals := by
  simp [auditApprovals, loads]

/-- The audit accepts a state exactly when every part of it is safe. -/
theorem requireSafe_ok_iff {site : Deployment} {reading : Nat} {disk : Disk} :
    requireSafe site reading disk = .ok () ↔ Safe site reading disk := by
  rw [requireSafe_iff_harmless]
  simp only [audit, bind_ok_iff, pure_ok_iff]
  constructor
  · rintro ⟨_, ⟨cross, computed, rfl⟩, harmless⟩
    rw [sortIssues, harmless_perm (List.perm_insertionSort _ _)] at harmless
    simp only [harmless_append, readJournal_harmless, auditEvidence_harmless,
      auditApprovals_harmless] at harmless
    -- the issues are sorted for the report; that none is critical does not depend on their order
    obtain ⟨⟨⟨⟨⟨surroundings, journal⟩, records⟩, head⟩, loads, duplicates, shapes⟩, crossStore⟩ :=
      harmless
    have trust : trusted site.digests disk.records = true := by
      simp [trusted, records, Except.toBool]
    rw [readJournal_of_valid journal, auditApprovals_of_loads loads, trust] at computed
    rw [readJournal_of_valid journal] at shapes
    rw [trust, if_pos rfl, auditEvidenceHead_harmless] at head
    exact ⟨surroundings, journal, records, head, loads, ⟨duplicates, shapes⟩, cross, computed,
      crossStore⟩
  · rintro ⟨surroundings, journal, records, head, loads, ⟨duplicates, shapes⟩, cross, computed,
      crossStore⟩
    have trust : trusted site.digests disk.records = true := by
      simp [trusted, records, Except.toBool]
    -- the cross checks are computed from the stores that the earlier checks have found sound
    refine ⟨_, ⟨cross, ?_, rfl⟩, ?_⟩
    · rw [readJournal_of_valid journal, auditApprovals_of_loads loads, trust]
      exact computed
    · rw [sortIssues, harmless_perm (List.perm_insertionSort _ _)]
      simp only [harmless_append, readJournal_harmless, auditEvidence_harmless,
        auditApprovals_harmless, readJournal_of_valid journal]
      rw [trust, if_pos rfl, auditEvidenceHead_harmless]
      exact ⟨⟨⟨⟨⟨surroundings, journal⟩, records⟩, head⟩, loads, duplicates, shapes⟩, crossStore⟩

namespace View

variable {view : View} {trust : Option OperatorTrustPolicy} {clock : Clock}

/-- The parts of the checks across stores. -/
theorem auditCrossStore_ok {issues : List IntegrityIssue} (trusted : view.trusted = true)
    (ok : view.auditCrossStore trust clock = .ok issues) :
    ∃ settlements, auditKnownResultSettlements view.journal view.records [] view.budget.entries =
        .ok settlements ∧
      issues = settlements ++
        view.budget.reservations.entries.flatMap view.auditReservation ++
        view.auditTrustedEvidence ++
        view.approvals.values.flatMap view.auditApprovalBudget ++
        view.budget.reconciliations.entries.zipIdx.flatMap
          fun item => view.auditMarker trust item.1 (clock item.2) := by
  simp only [auditCrossStore, trusted, if_true, bind_ok_iff, pure_ok_iff] at ok
  exact ok

end View

theorem CrossSafe.reservation {site : Deployment} {disk : Disk} {clock : Clock}
    (safe : CrossSafe site disk clock) {actionId : String} {reservation : Reservation}
    (found : disk.ledger.document.reservations.lookup actionId = some reservation) :
    Harmless ((fullView disk).auditReservation ⟨actionId, reservation⟩) := by
  obtain ⟨issues, ok, harmless⟩ := safe
  obtain ⟨settlements, -, rfl⟩ := View.auditCrossStore_ok rfl ok
  simp only [harmless_append, harmless_flatMap] at harmless
  exact harmless.1.1.1.2 _ (AList.mem_lookup_iff.1 found)

end StateIntegrity

/-- A state that the audit accepts holds no reservation of an action without evidence and without
approval, unless the journal is making it. -/
theorem StateIntegrity.Safe.unreserved {site : Deployment} {reading : Nat} {disk : Disk}
    (safe : StateIntegrity.Safe site reading disk) (idle : disk.journal = none) {actionId : String}
    (unknown : EvidenceLog.byAction disk.records actionId = [])
    (unowned : ApprovalStore.forAction disk.approvals actionId = []) :
    actionId ∉ disk.ledger.document.reservations := by
  intro member
  obtain ⟨reservation, found⟩ := Option.isSome_iff_exists.1 (AList.lookup_isSome.2 member)
  have harmless := safe.cross.reservation found
  have owners : StateIntegrity.approvalsOf disk.approvals actionId = [] := unowned
  simp [StateIntegrity.View.auditReservation, StateIntegrity.fullView, owners,
    StateIntegrity.View.actionRecords, unknown, StateIntegrity.hasOpenAuthorization,
    StateIntegrity.expectsUnboundReservation, idle] at harmless

end DefiantHarness
