import DefiantHarness.EntryDrafting
import DefiantHarness.EntrySteps

/-! Completion records: an action gets at most one, and a call of the control path that completes no
tool result adds none. -/
namespace DefiantHarness

open Foundation Proc Control

/-- The record of a completed execution names the digest of its output. -/
def HasOutput (record : EvidenceRecord) : Prop := record.outputHash ≠ ""

instance (record : EvidenceRecord) : Decidable (HasOutput record) :=
  inferInstanceAs (Decidable (record.outputHash ≠ ""))

/-- The completion records of an action. -/
def completions (records : List EvidenceRecord) (actionId : String) : List EvidenceRecord :=
  records.filter fun record => HasOutput record ∧ record.actionId = actionId

theorem mem_completions {records : List EvidenceRecord} {record : EvidenceRecord} {actionId : String} :
    record ∈ completions records actionId ↔
      record ∈ records ∧ HasOutput record ∧ record.actionId = actionId := by
  simp [completions]

/-- The sealed evidence, and the evidence of an operation that waits for recovery. -/
def Disk.evidence (disk : Disk) : List EvidenceRecord :=
  disk.records ++ (disk.journal.map (·.evidence)).toList

theorem mem_evidence {disk : Disk} {record : EvidenceRecord} :
    record ∈ disk.evidence ↔ record ∈ disk.records ∨
      ∃ operation, disk.journal = some operation ∧ operation.evidence = record := by
  simp [Disk.evidence]

/-- No record of the action completes it before this one does. -/
def FirstOf (records : List EvidenceRecord) (record : EvidenceRecord) : Prop :=
  HasOutput record → ∀ other ∈ records, HasOutput other → other.actionId ≠ record.actionId

/-- With no operation waiting, the write appends and journals only first completions. -/
def AddsFirst : Event → Prop
  | .wrote before after => before.journal = none →
    (∀ record, after.records = before.records ++ [record] → FirstOf before.records record) ∧
      ∀ operation, after.journal = some operation → FirstOf before.records operation.evidence
  | _ => True

/-- Every write so far added first completions only, and every completion at hand is accounted for. -/
structure Booked (S : EvidenceRecord → Prop) (w : World) : Prop where
  firsts : ∀ event ∈ w.trace, AddsFirst event
  within : ∀ record ∈ w.disk.evidence, HasOutput record → S record.comparable

/-- A completion that may be appended or journaled. -/
structure Bookable (S : EvidenceRecord → Prop) (records : List EvidenceRecord)
    (journal : Option JournalOperation) (record : EvidenceRecord) : Prop where
  within : HasOutput record → S record.comparable
  first : journal = none → FirstOf records record

namespace Booked

variable {site : Deployment} {S : EvidenceRecord → Prop} {w t : World}

private theorem add (accounted : Booked S w) {event : Event} (trace : t.trace = w.trace ++ [event])
    (first : AddsFirst event)
    (within : ∀ record ∈ t.disk.evidence, HasOutput record → S record.comparable) :
    Booked S t where
  firsts := by
    intro found member
    rw [trace] at member
    rcases List.mem_append.1 member with old | new
    · exact accounted.firsts found old
    · rw [List.mem_singleton.1 new]
      exact first
  within := within

theorem discipline : Discipline site (Booked S) (Bookable S) where
  tick _ accounted := ⟨accounted.firsts, accounted.within⟩
  draw _ accounted := ⟨accounted.firsts, accounted.within⟩
  quiet w disk accounted records journal := by
    apply accounted.add rfl
    · intro idle
      constructor
      · intro record appended
        rw [records] at appended
        exact absurd (congrArg List.length appended) (by simp)
      · intro operation journaled
        rw [journal, idle] at journaled
        cases journaled
    · intro record member
      rw [World.saved_disk, mem_evidence, records, journal] at member
      exact accounted.within record (mem_evidence.2 member)
  -- a record written while an operation waits is that operation's, and counted already
  appended w record previous accounted accountable := by
    apply accounted.add rfl
    · intro idle
      constructor
      · intro found appended
        have last := List.append_cancel_left appended
        rw [List.singleton_inj] at last
        rw [← last]
        exact accountable.first idle
      · intro operation journaled
        rw [show w.disk.journal = some operation from journaled] at idle
        cases idle
    · intro found member
      rcases mem_evidence.1 member with logged | waiting
      · rcases List.mem_append.1 logged with old | new
        · exact accounted.within found (mem_evidence.2 (.inl old))
        · rw [List.mem_singleton.1 new]
          exact accountable.within
      · exact accounted.within found (mem_evidence.2 (.inr waiting))
  -- a waiting operation's evidence counts from now on
  prepared w operation accounted idle accountable := by
    apply accounted.add rfl
    · intro _
      constructor
      · intro found appended
        exact absurd (congrArg List.length appended) (by simp)
      · rintro found journaled
        cases journaled
        exact accountable.first rfl
    · intro found member
      rcases mem_evidence.1 member with logged | ⟨_, journaled, rfl⟩
      · exact accounted.within found (mem_evidence.2 (.inl logged))
      · cases journaled
        exact accountable.within
  completed w operation accounted active _ := by
    apply accounted.add rfl
    · intro idle
      rw [active] at idle
      cases idle
    · intro found member
      rcases mem_evidence.1 member with logged | ⟨_, journaled, -⟩
      · exact accounted.within found (mem_evidence.2 (.inl logged))
      · cases journaled
  active w operation accounted active :=
    ⟨accounted.within _ (mem_evidence.2 (.inr ⟨operation, active, rfl⟩)), nofun⟩

theorem note (accounted : Booked S w) {event : Event} (unwritten : AddsFirst event) :
    Booked S (w.noted event) :=
  accounted.add rfl unwritten accounted.within

theorem rebase (accounted : Booked S w) (cache : List (String × EnforcementBasis)) :
    Booked S { w with bases := cache } := ⟨accounted.firsts, accounted.within⟩

/-- A call that completes no tool result adds no completion. -/
theorem plain {harness : Harness} : PlainDrafts site harness (Booked S) (Bookable S) where
  rules := discipline
  made := {
    note := by
      intro w event accounted ordinary
      apply accounted.note
      cases event
      case wrote => exact ordinary.elim
      all_goals trivial
    make := by
      intro w action request decision status details accounted _ unexecuted
      apply (discipline.makeRecord (fun _ cache held => held.rebase cache) accounted).mono
      rintro record t _ ⟨disk, made⟩
      have open_ : ¬ HasOutput record := by simp [HasOutput, made.output, unexecuted]
      exact ⟨disk, fun completes => absurd completes open_, fun _ completes => absurd completes open_⟩ }
  claim w approvalId now accounted := accounted.note trivial
  remember w actionId accounted _ := keeps_of_ok rfl (accounted.rebase _) rfl

end Booked

/-! ### One completion for each action -/

/-- The records do not both complete one action. -/
def Apart (record other : EvidenceRecord) : Prop :=
  HasOutput record → HasOutput other → record.actionId ≠ other.actionId

instance : Std.Symm Apart :=
  ⟨fun _ _ apart completes done same => apart done completes same.symm⟩

/-- No two sealed records complete one action, and what waits in the journal completes no action that
another record completed. -/
structure CompletedOnce (disk : Disk) : Prop where
  logged : disk.records.Pairwise Apart
  waiting : ∀ operation, disk.journal = some operation → HasOutput operation.evidence →
    ∀ record ∈ disk.records, HasOutput record → record.actionId = operation.evidence.actionId →
      record.recordId = operation.evidence.recordId

theorem Step.trace_grows {site : Deployment} {w t : World} (step : Step site w t) :
    w.trace <+: t.trace := by
  cases step <;> simp

theorem Step.records_grow {site : Deployment} {w t : World} (step : Step site w t) :
    w.disk.records <+: t.disk.records := by
  cases step with
  | write after mutation => cases mutation <;> simp
  | _ => exact List.prefix_rfl

theorem Moves.records_grow {site : Deployment} {w t : World} (moves : Moves site w t) :
    w.disk.records <+: t.disk.records := by
  induction moves with
  | refl => exact List.prefix_rfl
  | tail _ step ih => exact ih.trans step.records_grow

namespace CompletedOnce

variable {site : Deployment} {w t : World}

theorem fresh (start : w.Fresh site) : CompletedOnce w.disk where
  logged := by rw [start.records]; exact .nil
  waiting := by simp [start.journal]

private theorem write (once : CompletedOnce w.disk) {after : Disk} (mutation : Mutation site w after)
    (first : AddsFirst (.wrote w.disk after)) : CompletedOnce after := by
  cases mutation with
  | checkpoint | ledger | approvals => exact ⟨once.logged, once.waiting⟩
  | append record why fresh _ =>
    have alone : FirstOf w.disk.records record := by
      cases active : w.disk.journal with
      | none => exact (first active).1 (record.sealed _ _) rfl
      | some operation =>
        -- a waiting completion that is not in the log yet
        obtain ⟨rfl, -⟩ := why.of_active active
        intro completes other member done same
        have named := once.waiting operation active completes other member done same
        exact absurd named (by simpa using List.find?_eq_none.1 fresh other member)
    constructor
    · refine List.pairwise_append.2 ⟨once.logged, List.pairwise_singleton _ _, ?_⟩
      intro other member found new completes done same
      rw [List.mem_singleton.1 new] at done same
      exact alone done other member completes same
    · intro operation active completes found member done same
      rcases List.mem_append.1 member with old | new
      · exact once.waiting operation active completes found old done same
      · obtain ⟨rfl, -⟩ := why.of_active active
        rw [List.mem_singleton.1 new]
        rfl
  | prepare operation idle =>
    refine ⟨once.logged, ?_⟩
    intro found journaled completes record member done same
    cases journaled
    exact absurd same ((first idle).2 operation rfl completes record member done)
  | complete =>
    refine ⟨once.logged, ?_⟩
    intro found journaled
    cases journaled

private theorem step (once : CompletedOnce w.disk) (step : Step site w t)
    (firsts : ∀ event ∈ t.trace, AddsFirst event) : CompletedOnce t.disk := by
  cases step with
  | write after mutation => exact once.write mutation (firsts _ (by simp))
  | tick | draw | enter | evaluate | decide | claim | compute | dispatch => exact once

theorem moves (once : CompletedOnce w.disk) (moves : Moves site w t)
    (firsts : ∀ event ∈ t.trace, AddsFirst event) : CompletedOnce t.disk := by
  induction moves with
  | refl => exact once
  | tail _ step ih =>
    exact (ih fun event member => firsts event (step.trace_grows.subset member)).step step firsts

/-- An action has at most one completion in the log. -/
theorem completions_le_one {disk : Disk} (once : CompletedOnce disk) (actionId : String) :
    (completions disk.records actionId).length ≤ 1 := by
  have apart : (completions disk.records actionId).Pairwise Apart :=
    once.logged.sublist List.filter_sublist
  have own : ∀ record ∈ completions disk.records actionId,
      HasOutput record ∧ record.actionId = actionId := by
    intro record member
    simpa using (List.mem_filter.1 member).2
  generalize completions disk.records actionId = found at apart own
  match found, apart, own with
  | [], _, _ => exact Nat.zero_le 1
  | [_], _, _ => exact le_rfl
  | first :: second :: _, apart, own =>
    obtain ⟨done, same⟩ := own first (by simp)
    obtain ⟨also, same'⟩ := own second (by simp)
    have different := List.rel_of_pairwise_cons apart (List.mem_cons_self (a := second))
    exact absurd (same.trans same'.symm) (different done also)

end CompletedOnce

/-! ### Completing an external call -/

section

variable {site : Deployment} {J : World → Prop}
  {admits : List EvidenceRecord → Option JournalOperation → EvidenceRecord → Prop} {w : World}

/-- The evidence waits in the journal or is sealed. -/
def Committed (evidence : EvidenceRecord) (w : World) : Prop :=
  (∃ operation, w.disk.journal = some operation ∧ operation.evidence = evidence) ∨
    ∃ record ∈ w.disk.records, record.comparable = evidence.comparable

private theorem committed_discipline {evidence : EvidenceRecord} :
    Discipline site (Committed evidence) fun _ _ _ => True where
  tick _ committed := committed
  draw _ committed := committed
  quiet w disk committed records journal := by
    unfold Committed
    rw [World.saved_disk, records, journal]
    exact committed
  appended w record previous committed _ := by
    rcases committed with waiting | ⟨found, member, same⟩
    · exact .inl waiting
    · exact .inr ⟨found, List.mem_append_left _ member, same⟩
  prepared w operation committed idle _ := by
    rcases committed with ⟨found, journaled, -⟩ | sealed_
    · rw [idle] at journaled
      cases journaled
    · exact .inr sealed_
  completed w operation committed active logged := by
    rcases committed with ⟨found, journaled, rfl⟩ | sealed_
    · rw [active, Option.some.injEq] at journaled
      exact .inr (journaled ▸ logged)
    · exact .inr sealed_
  active _ _ _ _ := trivial

/-- The record is in the log. -/
def Kept (record : EvidenceRecord) (w : World) : Prop := record ∈ w.disk.records

private theorem kept_discipline {record : EvidenceRecord} :
    Discipline site (Kept record) fun _ _ _ => True where
  tick _ member := member
  draw _ member := member
  quiet w disk member records _ := by
    rw [Kept, World.saved_disk, records]
    exact member
  appended _ _ _ member _ := List.mem_append_left _ member
  prepared _ _ member _ _ := member
  completed _ _ member _ _ := member
  active _ _ _ _ := trivial

/-- An operation that was committed has its evidence in the log. -/
theorem Discipline.commit_seals (rules : Discipline site J admits) (holds : J w) (idle : Idle w)
    {payload : OperationPayload} {evidence : EvidenceRecord}
    (admitted : admits w.disk.records none evidence) :
    Keeps J (Harness.commit site payload evidence)
      (fun _ t => ∃ record ∈ t.disk.records, record.comparable = evidence.comparable) w := by
  apply (rules.prepares holds ⟨rfl, idle⟩ admitted).bind
  rintro operation t later ⟨same, rfl⟩
  have committed : Committed operation.evidence t := .inl ⟨operation, same.2, rfl⟩
  apply ((rules.recoverPrepared later same).along
    (committed_discipline.recoverPrepared committed same)).mono
  rintro _ u _ ⟨idle, waiting | sealed_, -⟩
  · obtain ⟨found, journaled, -⟩ := waiting
    rw [show u.disk.journal = none from idle] at journaled
    cases journaled
  · exact sealed_

end

namespace Harness

variable {site : Deployment} {harness : Harness} {S : EvidenceRecord → Prop} {w : World}
  {action : ProposedAction} {request : HarnessRequest} {decision : GuardrailDecision}
  {approvalId : String} {toolResponse : Json}

/-- A sealed completion of the action. -/
def Completed (actionId recordId : String) (w : World) : Prop :=
  ∃ record ∈ w.disk.records, record.recordId = recordId ∧ record.actionId = actionId ∧
    HasOutput record

/-- What the completion of an external call says. -/
structure Reports (site : Deployment) (action : ProposedAction) (record : EvidenceRecord) : Prop where
  own : record.actionId = action.actionId
  hash : record.authorizationHash = action.authorizationHash site.digests
  status : record.resultStatus = .succeeded

theorem checkExternalCompletion_open {records : List EvidenceRecord} {authorization : EvidenceRecord}
    (checked : checkExternalCompletion records authorization request decision = .ok ()) :
    ∀ record ∈ records, record.actionId = authorization.actionId →
      externallyTerminal record.resultStatus = false := by
  simp only [checkExternalCompletion, refuseIf_bind_ok_iff, refuseIf_ok_iff] at checked
  intro record member own
  by_contra ended
  refine checked.2.2.2 ⟨record, ?_, by simpa using ended⟩
  simp [EvidenceLog.byAction, member, own]

theorem completeKnownResult_accounted (accounted : Booked S w) (idle : Idle w)
    {authorization : EvidenceRecord} {result : ToolResult} {estimate : Decimal}
    {approvedBy : Option String} (digest : site.digests.output result.output ≠ "")
    (succeeded : result.status = .succeeded)
    (within : ∀ record, Reports site action record → S record.comparable)
    (first : ∀ other ∈ w.disk.records, HasOutput other → other.actionId ≠ action.actionId) :
    Keeps (Booked S) (harness.completeKnownResult site authorization action request decision result
      estimate approvedBy approvalId)
      (fun record t => Completed action.actionId record.recordId t) w := by
  have rules : Discipline site (Booked S) (Bookable S) := Booked.discipline
  apply keeps_lift_bind accounted
  intro _ _
  apply keeps_disk_bind
  apply keeps_note_bind
  have noted : Booked S (w.noted (.completing request.requestId action.actionId estimate
    (actualCost result estimate) w.disk)) := accounted.note trivial
  apply keeps_lift_bind noted
  intro remaining _
  apply (rules.makeRecord (fun _ cache held => held.rebase cache) noted).bind
  rintro record t later ⟨disk, made⟩
  apply keeps_lift_bind later
  intro subject _
  have still : Idle t := by
    unfold Idle
    rw [disk]
    exact idle
  have completes : HasOutput record := by
    rw [HasOutput, made.output]
    exact digest
  -- what it records is the first output of its action
  have accountable : Bookable S t.disk.records none record := by
    constructor
    · intro _
      exact within record ⟨made.own, made.hash, by rw [made.status, succeeded]; rfl⟩
    · rw [disk]
      intro _ _ other member done
      rw [made.own]
      exact first other member done
  apply (rules.commit_seals later still accountable).bind
  rintro _ u last ⟨stored, member, same⟩
  have named := congrArg EvidenceRecord.recordId same
  have acted := congrArg EvidenceRecord.actionId same
  have output := congrArg EvidenceRecord.outputHash same
  exact keeps_pure last ⟨stored, member, named, acted.trans made.own, fun empty =>
    completes (output.symm.trans empty)⟩

/-- A completed external call leaves its completion in the log, the first of its action. -/
theorem completeExternalCall_accounted (accounted : Booked S w)
    (ended : ∀ record, S record → externallyTerminal record.resultStatus = true)
    (digest : ∀ output, site.digests.output output ≠ "")
    (within : ∀ record, Reports site action record → S record.comparable) :
    Keeps (Booked S) (harness.completeExternalCall site action request decision toolResponse
      approvalId) (fun outcome t => Completed action.actionId outcome.evidenceRecordId t) w := by
  have rules : Discipline site (Booked S) (Bookable S) := Booked.discipline
  apply keeps_lift_bind accounted
  intro _ _
  apply (rules.recoverOperation accounted).bind
  intro _ t later idle
  apply (rules.requireSafe later ⟨rfl, idle⟩).bind
  intro _ u after same
  apply keeps_lift_bind after
  intro _ _
  apply keeps_lift_bind after
  intro _ _
  apply keeps_disk_bind
  apply keeps_lift_bind after
  intro authorization found
  obtain ⟨-, own, -⟩ := matchingAuthorization_some (orRefuse_ok_iff.1 found)
  have drafts : PlainDrafts site harness (Booked S) (Bookable S) := Booked.plain
  apply (drafts.remember u action.actionId after same.2).bind
  intro _ v last disk
  apply keeps_lift_bind last
  intro _ checked
  -- every completion is terminal, so the check has found none of this action
  have first : ∀ other ∈ v.disk.records, HasOutput other → other.actionId ≠ action.actionId := by
    intro other member completes same
    rw [disk] at member
    have terminal := ended _ (after.within other (mem_evidence.2 (.inl member)) completes)
    have still := checkExternalCompletion_open checked other member (same.trans own.symm)
    rw [show other.comparable.resultStatus = other.resultStatus from rfl, still] at terminal
    cases terminal
  apply keeps_lift_bind last
  intro approvedBy _
  apply keeps_lift_bind last
  intro estimate _
  have still : Idle v := by
    unfold Idle
    rw [disk]
    exact same.2
  apply (completeKnownResult_accounted last still (digest toolResponse) rfl within first).bind
  intro record x done completed
  exact keeps_pure done completed

/-- An action with a terminal record is completed no more. -/
theorem completeExternalCall_refuses {record : EvidenceRecord} (member : Kept record w)
    (own : record.actionId = action.actionId)
    (ended : externallyTerminal record.resultStatus = true) :
    Keeps (Kept record) (harness.completeExternalCall site action request
      decision toolResponse approvalId) (fun _ _ => False) w := by
  have rules : Discipline site (Kept record) fun _ _ _ => True := kept_discipline
  apply keeps_lift_bind member
  intro _ _
  apply (rules.recoverOperation member).bind
  intro _ t later idle
  apply (rules.requireSafe later ⟨rfl, idle⟩).bind
  intro _ u after same
  apply keeps_lift_bind after
  intro _ _
  apply keeps_lift_bind after
  intro _ _
  apply keeps_disk_bind
  apply keeps_lift_bind after
  intro authorization found
  obtain ⟨-, known, -⟩ := matchingAuthorization_some (orRefuse_ok_iff.1 found)
  have remembered : Keeps (Kept record)
      (rememberBasis action.actionId (harness.originBasis u.disk.records action.actionId))
      (fun _ v => v.disk = u.disk) u := keeps_of_ok rfl after rfl
  apply remembered.bind
  intro _ v last _
  apply keeps_lift_bind last
  intro _ checked
  -- a terminal record of the action is what the check looks for
  have still := checkExternalCompletion_open checked record after (own.trans known.symm)
  rw [ended] at still
  cases still

end Harness
end DefiantHarness
