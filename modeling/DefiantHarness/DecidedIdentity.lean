import DefiantHarness.EntrySteps

/-! The identity that decided an approval: every later state of a run has the same. -/
namespace DefiantHarness

open Foundation

/-- The approval is decided, by this identity. -/
def DecidedBy (approvalId : String) (who : Option String) (approvals : Approvals) : Prop :=
  ∃ approval, approvals.lookup approvalId = some approval ∧ approval.status ≠ .pending ∧
    approval.decidedBy = who

/-- The disk that an event finds. -/
def Event.seen : Event → Option Disk
  | .wrote before _ => some before
  | .evaluated _ _ => none
  | .deciding _ _ disk | .claiming _ _ disk | .dispatched _ disk | .completing _ _ _ _ disk =>
    some disk

section

variable {site : Deployment} {approvals after : Approvals} {approvalId id : String}
  {who : Option String} {clock : Clock} {w t : World}

/-- A new version of an approval that is still open, or with the same identity. -/
private theorem DecidedBy.stored {old new : PendingApproval} (decided : DecidedBy id who approvals)
    (wellFormed : WellFormed approvals) (found : approvals.lookup approvalId = some old)
    (key : new.approvalId = old.approvalId) (status : new.status ≠ .pending)
    (same : old.status = .pending ∨ new.decidedBy = old.decidedBy) :
    DecidedBy id who (stored approvals new) := by
  obtain ⟨approval, held, settled, identity⟩ := decided
  obtain ⟨own, -⟩ := wellFormed _ _ found
  by_cases here : id = approvalId
  · subst here
    rw [held, Option.some.injEq] at found
    subst found
    refine ⟨new, ?_, status, (same.resolve_left settled).trans identity⟩
    rw [lookup_stored_eq, key, own, if_pos rfl]
  · refine ⟨approval, ?_, settled, identity⟩
    rw [lookup_stored_eq, key, own, if_neg here]
    exact held

private theorem DecidedBy.decide (decided : DecidedBy id who approvals)
    (wellFormed : WellFormed approvals) {approved : Bool} {decidedBy note : String}
    {attestation : Option OperatorAttestation}
    (moved : Writes (site.approvals.decide approvals approvalId approved decidedBy note attestation
      clock) after) : DecidedBy id who after := by
  obtain ⟨update, ok, written⟩ := moved
  obtain ⟨old, _, _, found, pending, -, -, -, -, rfl⟩ := ApprovalStore.decide_ok_iff.1 ok
  cases written
  refine decided.stored wellFormed found rfl ?_ (.inl pending)
  cases approved <;> simp [ApprovalStore.decided]

private theorem DecidedBy.consume (site : Deployment) (decided : DecidedBy id who approvals)
    (wellFormed : WellFormed approvals) {old : PendingApproval} {recordId : String}
    {now : Timestamp} (found : approvals.lookup approvalId = some old)
    (moved : Writes (site.approvals.consume approvals old recordId now) after) :
    DecidedBy id who after := by
  obtain ⟨update, ok, written⟩ := moved
  obtain ⟨-, -, -, -, rfl⟩ := ApprovalStore.consume_ok_iff.1 ok
  cases written
  exact decided.stored wellFormed found rfl (by simp) (.inr rfl)

/-- No write of the approvals changes the identity of a decided one. -/
theorem DecidedBy.moved (decided : DecidedBy id who w.disk.approvals)
    (wellFormed : WellFormed w.disk.approvals) (moves : ApprovalMoves site w after) :
    DecidedBy id who after := by
  cases moves with
  | decide _ _ _ _ _ _ _ moved => exact decided.decide wellFormed moved
  -- a created approval has a fresh id, and the decided one is stored already
  | create _ _ approval _ _ _ _ moved =>
    obtain ⟨update, ok, written⟩ := moved
    obtain ⟨-, rfl⟩ | ⟨absent, -, -, rfl⟩ := ApprovalStore.createPrepared_ok_iff.1 ok
    · cases written
    · cases written
      obtain ⟨found, held, rest⟩ := decided
      refine ⟨found, ?_, rest⟩
      rw [lookup_stored_eq]
      split
      next same =>
        rw [same, absent] at held
        cases held
      next => exact held
  | reject _ _ _ _ _ _ _ _ _ _ _ _ moved =>
    obtain ⟨update, ok, written⟩ := moved
    obtain ⟨old, -, ⟨-, rejected⟩ | ⟨-, -, -, -, -, rfl⟩⟩ :=
      ApprovalStore.ensureRejected_ok_iff.1 ok
    · exact decided.decide wellFormed ⟨update, rejected, written⟩
    · cases written
  -- an approval that expires keeps the name of who decided it
  | expire _ _ _ _ _ _ _ _ _ moved =>
    obtain ⟨update, ok, written⟩ := moved
    obtain ⟨old, found, ⟨-, rfl⟩ | ⟨-, -, -, -, rfl⟩⟩ := ApprovalStore.expireOne_ok_iff.1 ok
    · cases written
    · cases written
      exact decided.stored wellFormed found rfl (by simp) (.inr rfl)
  | claim _ _ _ _ _ moved =>
    obtain ⟨update, ok, written⟩ := moved
    obtain ⟨old, found, -, ⟨-, -, -, rfl⟩ | ⟨-, -, -, -, -, -, rfl⟩⟩ :=
      ApprovalStore.beginExecution_ok_iff.1 ok
    · cases written
      exact decided.stored wellFormed found rfl (by simp) (.inr rfl)
    · cases written
      exact decided.stored wellFormed found rfl (by simp) (.inr rfl)
  | block _ _ _ _ _ moved =>
    obtain ⟨update, ok, written⟩ := moved
    obtain ⟨old, found, consumed⟩ := ApprovalStore.markConsumed_ok_iff.1 ok
    exact decided.consume site wellFormed found ⟨update, consumed, written⟩
  | complete _ _ _ _ _ _ _ _ _ _ _ moved =>
    obtain ⟨update, ok, written⟩ := moved
    obtain ⟨-, old, found, ⟨-, -, rfl⟩ | consumed⟩ := ApprovalStore.ensureConsumed_ok_iff.1 ok
    · cases written
    · exact decided.consume site wellFormed found ⟨update, consumed, written⟩
  | intend _ _ _ _ _ _ _ moved =>
    obtain ⟨update, ok, written⟩ := moved
    obtain ⟨-, -, old, found, ⟨_, -, -, rfl⟩ | ⟨-, started⟩⟩ :=
      ApprovalStore.beginReconciliation_ok_iff.1 ok
    · cases written
    · obtain ⟨executing, -, -, -, rfl⟩ := ApprovalStore.startReconciliation_ok_iff.1 started
      cases written
      have status : old.status ≠ .pending := by simp [executing]
      exact decided.stored wellFormed found rfl status (.inr rfl)
  | reconcile _ _ _ _ _ moved =>
    obtain ⟨update, ok, written⟩ := moved
    obtain ⟨-, old, found, -, ⟨-, -, rfl⟩ | ⟨-, -, -, rfl⟩⟩ :=
      ApprovalStore.markReconciled_ok_iff.1 ok
    · cases written
    · cases written
      exact decided.stored wellFormed found rfl (by simp) (.inr rfl)

theorem DecidedBy.written (decided : DecidedBy id who w.disk.approvals)
    (wellFormed : WellFormed w.disk.approvals) {disk : Disk} (mutation : Mutation site w disk) :
    DecidedBy id who disk.approvals := by
  cases mutation with
  | approvals after why => exact decided.moved wellFormed why
  | checkpoint | append | ledger | prepare | complete => exact decided

/-- What a write leaves decided stays decided by the same identity: in what every later event finds,
and now. -/
def Attributable (w : World) : Prop :=
  ∀ past before after future, w.trace = past ++ .wrote before after :: future →
    ∀ id who, DecidedBy id who after.approvals → DecidedBy id who w.disk.approvals ∧
      ∀ event ∈ future, ∀ disk, event.seen = some disk → DecidedBy id who disk.approvals

private theorem split_end {events past future : List Event} {event last : Event}
    (shape : events ++ [last] = past ++ event :: future) :
    (∃ rest, future = rest ++ [last] ∧ events = past ++ event :: rest) ∨
      (future = [] ∧ last = event) := by
  rcases List.eq_nil_or_concat future with rfl | ⟨rest, final, rfl⟩
  · obtain ⟨-, ends⟩ := List.append_inj' shape rfl
    exact .inr ⟨rfl, by simpa using ends⟩
  · rw [List.concat_eq_append, ← List.cons_append, ← List.append_assoc] at shape
    obtain ⟨same, ends⟩ := List.append_inj' shape rfl
    rw [List.concat_eq_append, ends]
    exact .inl ⟨rest, rfl, same⟩

/-- A step that leaves the disk alone, and finds it if it finds one. -/
private theorem Attributable.noted (attributable : Attributable w) {event : Event}
    (silent : ∀ before after, event ≠ .wrote before after)
    (finds : ∀ disk, event.seen = some disk → disk = w.disk) : Attributable (w.noted event) := by
  intro past before after future shape id who decided
  rcases split_end shape with ⟨rest, rfl, old⟩ | ⟨-, new⟩
  · obtain ⟨now, later⟩ := attributable past before after rest old id who decided
    refine ⟨now, ?_⟩
    intro found member disk seen
    rcases List.mem_append.1 member with sooner | last
    · exact later found sooner disk seen
    · rw [List.mem_singleton.1 last] at seen
      rw [finds disk seen]
      exact now
  · exact absurd new (silent before after)

private theorem Attributable.written (attributable : Attributable w)
    (wellFormed : WellFormed w.disk.approvals) {disk : Disk} (mutation : Mutation site w disk) :
    Attributable (w.saved disk) := by
  intro past before after future shape id who decided
  rcases split_end shape with ⟨rest, rfl, old⟩ | ⟨rfl, new⟩
  · obtain ⟨now, later⟩ := attributable past before after rest old id who decided
    refine ⟨now.written wellFormed mutation, ?_⟩
    intro found member seen sees
    rcases List.mem_append.1 member with sooner | last
    · exact later found sooner seen sees
    · rw [List.mem_singleton.1 last] at sees
      cases sees
      exact now
  · cases new
    exact ⟨decided, by simp⟩

theorem Attributable.step (attributable : Attributable w) (wellFormed : WellFormed w.disk.approvals)
    (step : Step site w t) : Attributable t := by
  cases step with
  | tick | draw | enter => exact attributable
  | write disk mutation => exact attributable.written wellFormed mutation
  | evaluate => exact attributable.noted (by simp) (by simp [Event.seen])
  | decide | claim | compute | dispatch =>
    apply attributable.noted (by simp)
    intro disk seen
    cases seen
    rfl

theorem Attributable.of_reachable (reachable : Reachable site w) : Attributable w := by
  apply reachable.invariant
  · intro v start past before after future shape
    rw [start.trace] at shape
    cases past <;> cases shape
  · intro v t tracked attributable step
    exact attributable.step tracked.named.wellFormed step

end
end DefiantHarness
