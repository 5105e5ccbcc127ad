import DefiantHarness.EntryDrafting

/-! The enforcement basis of an action: its first record fixes it, and every process remembers some
of them. -/
namespace DefiantHarness

open Foundation Proc Control

/-- A record in the log, or the one that waits in the journal, gives the action this basis. -/
def Labelled (disk : Disk) (actionId : String) (basis : EnforcementBasis) : Prop :=
  (∃ record ∈ disk.records, record.actionId = actionId ∧ record.enforcementBasis = basis) ∨
    ∃ operation, disk.journal = some operation ∧ operation.evidence.actionId = actionId ∧
      operation.evidence.enforcementBasis = basis

/-- What an uncached lookup finds, or the basis of the process when there is no evidence yet. -/
structure IsOrigin (harness : Harness) (disk : Disk) (actionId : String) (basis : EnforcementBasis) :
    Prop where
  recorded : ∀ other, Labelled disk actionId other → other = basis
  fresh : (∀ other, ¬ Labelled disk actionId other) → basis = harness.evidenceBasis

/-- Every action has one basis, the cache is right, and no evidence that `base` has is gone. -/
structure Based (harness : Harness) (base : Disk) (w : World) : Prop where
  one : ∀ actionId basis other, Labelled w.disk actionId basis → Labelled w.disk actionId other →
    other = basis
  cached : ∀ entry ∈ w.bases, IsOrigin harness w.disk entry.1 entry.2
  kept : ∀ actionId basis, Labelled base actionId basis → Labelled w.disk actionId basis

/-- A record that an uncached lookup would make. -/
def FromOrigin (harness : Harness) (records : List EvidenceRecord)
    (journal : Option JournalOperation) (record : EvidenceRecord) : Prop :=
  ∀ disk : Disk, disk.records = records → disk.journal = journal →
    IsOrigin harness disk record.actionId record.enforcementBasis

section

variable {site : Deployment} {harness : Harness} {base disk : Disk} {w : World}
  {actionId : String} {basis : EnforcementBasis}

theorem Labelled.congr {other : Disk} (records : other.records = disk.records)
    (journal : other.journal = disk.journal) :
    Labelled other actionId basis ↔ Labelled disk actionId basis := by
  unfold Labelled
  rw [records, journal]

theorem IsOrigin.congr {other : Disk} (same : ∀ basis, Labelled other actionId basis ↔
    Labelled disk actionId basis) (origin : IsOrigin harness disk actionId basis) :
    IsOrigin harness other actionId basis where
  recorded found labelled := origin.recorded found ((same found).1 labelled)
  fresh none := origin.fresh fun found labelled => none found ((same found).2 labelled)

/-- The evidence may change as long as the labels do not. -/
private theorem Based.same (based : Based harness base w) (same : ∀ actionId basis,
    Labelled disk actionId basis ↔ Labelled w.disk actionId basis) :
    Based harness base (w.saved disk) where
  one id first second labelled labelled' :=
    based.one id first second ((same id first).1 labelled) ((same id second).1 labelled')
  cached entry member := (based.cached entry member).congr (same entry.1)
  kept id found labelled := (same id found).2 (based.kept id found labelled)

/-- One more record with the basis of its action. -/
private theorem Based.grow (based : Based harness base w) {record : EvidenceRecord}
    (origin : IsOrigin harness w.disk record.actionId record.enforcementBasis)
    (grown : ∀ actionId basis, Labelled disk actionId basis ↔ Labelled w.disk actionId basis ∨
      (record.actionId = actionId ∧ record.enforcementBasis = basis)) :
    Based harness base (w.saved disk) where
  one id first second labelled labelled' := by
    rcases (grown id first).1 labelled with old | ⟨rfl, rfl⟩
    · rcases (grown id second).1 labelled' with old' | ⟨rfl, rfl⟩
      · exact based.one id first second old old'
      · exact (origin.recorded first old).symm
    · rcases (grown _ second).1 labelled' with old' | ⟨-, rfl⟩
      · exact origin.recorded second old'
      · rfl
  cached entry member := by
    have right := based.cached entry member
    constructor
    · intro other labelled
      rcases (grown entry.1 other).1 labelled with old | ⟨own, rfl⟩
      · exact right.recorded other old
      · -- the new record and the cache agree on the first record, or on the basis of the process
        rw [own] at origin
        by_cases known : ∃ found, Labelled w.disk entry.1 found
        · obtain ⟨found, labelled⟩ := known
          exact (origin.recorded found labelled).symm.trans (right.recorded found labelled)
        · have none : ∀ found, ¬ Labelled w.disk entry.1 found := fun found labelled =>
            known ⟨found, labelled⟩
          exact (origin.fresh none).trans (right.fresh none).symm
    · intro none
      apply right.fresh
      intro found labelled
      exact none found ((grown entry.1 found).2 (.inl labelled))
  kept id found labelled := (grown id found).2 (.inl (based.kept id found labelled))

theorem based_discipline : Discipline site (Based harness base) (FromOrigin harness) where
  tick _ based := ⟨based.one, based.cached, based.kept⟩
  draw _ based := ⟨based.one, based.cached, based.kept⟩
  quiet w disk based records journal := by
    apply based.same
    intro id found
    exact Labelled.congr records journal
  -- one more record labels one more action, with the basis its origin has
  appended w record previous based admitted := by
    apply based.grow (admitted w.disk rfl rfl)
    intro id found
    simp only [Labelled, List.mem_append, List.mem_singleton, or_and_right, exists_or,
      exists_eq_left]
    constructor
    · rintro ((old | new) | waiting)
      · exact .inl (.inl old)
      · exact .inr new
      · exact .inl (.inr waiting)
    · rintro ((old | waiting) | new)
      · exact .inl (.inl old)
      · exact .inr waiting
      · exact .inl (.inr new)
  prepared w operation based idle admitted := by
    apply based.grow (admitted w.disk rfl idle)
    intro id found
    simp [Labelled, idle]
  -- the operation's record was written before, so the label outlives the journal entry
  completed w operation based active logged := by
    apply based.same
    intro id found
    obtain ⟨record, member, same⟩ := logged
    have own : record.comparable.actionId = operation.evidence.comparable.actionId := by rw [same]
    have label : record.comparable.enforcementBasis =
      operation.evidence.comparable.enforcementBasis := by rw [same]
    simp only [Labelled, active, Option.some.injEq, reduceCtorEq, false_and, exists_false, or_false,
      exists_eq_left']
    constructor
    · exact .inl
    · rintro (old | ⟨rfl, rfl⟩)
      · exact old
      · exact ⟨record, member, own, label⟩
  active w operation based active disk records journal := by
    have labelled : Labelled disk operation.evidence.actionId operation.evidence.enforcementBasis :=
      .inr ⟨operation, journal, rfl, rfl⟩
    have same : ∀ id found, Labelled disk id found ↔ Labelled w.disk id found := fun id found =>
      Labelled.congr records (journal.trans active.symm)
    constructor
    · intro other found
      exact based.one _ _ _ ((same _ _).1 labelled) ((same _ _).1 found)
    · intro none
      exact absurd labelled (none _)

/-- The lookup of an idle process finds the origin. -/
theorem Based.originBasis (based : Based harness base w) (idle : Idle w) (actionId : String) :
    IsOrigin harness w.disk actionId (harness.originBasis w.disk.records actionId) := by
  have logged : ∀ found, Labelled w.disk actionId found →
      ∃ record ∈ w.disk.records, record.actionId = actionId := by
    rintro found (⟨record, member, own, -⟩ | ⟨operation, active, -⟩)
    · exact ⟨record, member, own⟩
    · rw [show w.disk.journal = none from idle] at active
      cases active
  unfold Harness.originBasis
  split
  -- every label of the action is the first record's, since `Based` has one a label
  next first found =>
    have labelled : Labelled w.disk actionId first.enforcementBasis :=
      .inl ⟨first, List.mem_of_find?_eq_some found, by simpa using List.find?_some found, rfl⟩
    constructor
    · intro other labelled'
      exact based.one actionId _ other labelled labelled'
    · intro none
      exact absurd labelled (none _)
  -- no record labels the action, and the journal that could is empty
  next unseen =>
    constructor
    · intro other labelled
      obtain ⟨record, member, own⟩ := logged other labelled
      have missing := List.find?_eq_none.1 unseen record member
      simp [own] at missing
    · intro _
      rfl

/-- Remembering an origin keeps the cache right. -/
theorem Based.remember (based : Based harness base w)
    (origin : IsOrigin harness w.disk actionId basis) :
    Keeps (Based harness base) (Harness.rememberBasis actionId basis)
      (fun answer t => answer = basis ∧ t.disk = w.disk) w := by
  have right : ∀ entry ∈ w.bases.filter (·.1 ≠ actionId) ++ [(actionId, basis)],
      IsOrigin harness w.disk entry.1 entry.2 := by
    intro entry member
    rcases List.mem_append.1 member with old | new
    · exact based.cached entry (List.mem_filter.1 old).1
    · rw [List.mem_singleton.1 new]
      exact origin
  refine keeps_of_ok rfl ⟨based.one, ?_, based.kept⟩ ⟨rfl, rfl⟩
  intro entry member
  -- beyond 1024 entries the oldest is dropped
  dsimp only at member
  split at member
  · exact right entry (List.mem_of_mem_drop member)
  · exact right entry member

/-- A new record carries the basis that an uncached lookup finds. -/
theorem makeRecord_based {action : ProposedAction} {request : HarnessRequest}
    {decision : GuardrailDecision} {status : ResultStatus} {details : RecordDetails}
    (based : Based harness base w) (idle : Idle w) :
    Keeps (Based harness base) (harness.makeRecord site action request decision status details)
      (fun record t => t.disk = w.disk ∧ FromOrigin harness w.disk.records none record) w := by
  have looked : Keeps (Based harness base) (harness.basisForAction action.actionId)
      (fun basis t => IsOrigin harness w.disk action.actionId basis ∧ t.disk = w.disk) w := by
    apply keeps_get_bind
    -- the basis comes from the cache or, on a miss, from the log
    split
    next known found =>
      have member := List.mem_of_find?_eq_some found
      have key : known.1 = action.actionId := by simpa using List.find?_some found
      have origin := based.cached known member
      rw [key] at origin
      apply (based.remember origin).mono
      rintro _ t _ ⟨rfl, disk⟩
      exact ⟨origin, disk⟩
    next =>
      have origin := based.originBasis idle action.actionId
      apply (based.remember origin).mono
      rintro _ t _ ⟨rfl, disk⟩
      exact ⟨origin, disk⟩
  have rules : Discipline site (Based harness base) (FromOrigin harness) := based_discipline
  apply looked.bind
  rintro basis t later ⟨origin, disk⟩
  apply keeps_now_bind
  apply keeps_disk_bind
  have ticked := rules.tick t later
  apply keeps_lift_bind ticked
  intro remaining _
  apply keeps_newId_bind
  have drawn := rules.draw _ ticked
  apply keeps_lift_bind drawn
  intro _ _
  refine keeps_pure drawn ⟨disk, ?_⟩
  intro other records journal
  apply origin.congr
  intro found
  exact Labelled.congr records (journal.trans (show none = w.disk.journal from idle.symm))

theorem based_dispatches : Dispatches (Based harness base) :=
  fun _ _ based => ⟨based.one, based.cached, based.kept⟩

theorem based_drafts : EntryDrafts site harness (Based harness base) (FromOrigin harness) where
  rules := based_discipline
  made :=
    { note := fun _ _ based _ => ⟨based.one, based.cached, based.kept⟩
      make := fun _ _ _ _ _ _ based idle _ => makeRecord_based based idle }
  claim _ _ _ based := ⟨based.one, based.cached, based.kept⟩
  remember w actionId based idle := by
    apply (based.remember (based.originBasis idle actionId)).mono
    rintro _ t _ ⟨-, disk⟩
    exact disk
  reconciled w authority _ _ _ _ _ _ _ based _ member disk records journal := by
    have labelled : Labelled disk authority.actionId authority.enforcementBasis :=
      .inl ⟨authority, records ▸ member, rfl, rfl⟩
    constructor
    · intro other found
      have same : ∀ basis, Labelled disk authority.actionId basis →
          Labelled w.disk authority.actionId basis := by
        rintro basis (⟨record, member, own⟩ | ⟨operation, active, -⟩)
        · exact .inl ⟨record, records ▸ member, own⟩
        · rw [journal] at active
          cases active
      exact based.one _ _ _ (same _ labelled) (same _ found)
    · intro none
      exact absurd labelled (none _)

end

/-! ### Processes side by side -/

/-- Several processes on one working directory. Each has its cache, and `seen` is the disk as it
left it. -/
structure Fleet where
  world : World
  caches : Nat → List (String × EnforcementBasis)
  seen : Nat → Disk

namespace Fleet

variable (site : Deployment) (instances : Nat → Harness)

/-- Process `i` makes a call, and may fail at any write. -/
def called (fleet : Fleet) (i : Nat) (call : Call) (writesLeft : Option Nat) : Fleet :=
  let world := fleet.world.after site ⟨instances i, fleet.caches i, writesLeft⟩ call
  { world := world
    caches := Function.update fleet.caches i world.bases
    seen := Function.update fleet.seen i world.disk }

/-- Process `i` starts again, with an empty cache. -/
def restarted (fleet : Fleet) (i : Nat) : Fleet :=
  { fleet with caches := Function.update fleet.caches i [] }

end Fleet

/-- The runs of a fleet whose calls all meet a condition on the state before them. -/
inductive FleetRun (site : Deployment) (instances : Nat → Harness) (allowed : Fleet → Nat → Prop) :
    Fleet → Prop where
  | fresh {w : World} (start : w.Fresh site) :
      FleetRun site instances allowed ⟨w, fun _ => [], fun _ => w.disk⟩
  | call {fleet : Fleet} (run : FleetRun site instances allowed fleet) (i : Nat)
      (meets : allowed fleet i) (call : Call) (writesLeft : Option Nat) :
      FleetRun site instances allowed (fleet.called site instances i call writesLeft)
  | restart {fleet : Fleet} (run : FleetRun site instances allowed fleet) (i : Nat) :
      FleetRun site instances allowed (fleet.restarted i)

/-- An action that the process remembers, and that others have recorded since its last call, got
the basis of this process. -/
def Uncontended (instances : Nat → Harness) (fleet : Fleet) (i : Nat) : Prop :=
  ∀ entry ∈ fleet.caches i, ∀ basis, Labelled fleet.world.disk entry.1 basis →
    (∃ earlier, Labelled (fleet.seen i) entry.1 earlier) ∨ basis = (instances i).evidenceBasis

/-- Between the calls: every action has one basis, and every cache was right when its process was
last at work. -/
structure Settled (instances : Nat → Harness) (fleet : Fleet) : Prop where
  one : ∀ actionId basis other, Labelled fleet.world.disk actionId basis →
    Labelled fleet.world.disk actionId other → other = basis
  cached : ∀ i, ∀ entry ∈ fleet.caches i, IsOrigin (instances i) (fleet.seen i) entry.1 entry.2
  kept : ∀ i actionId basis, Labelled (fleet.seen i) actionId basis →
    Labelled fleet.world.disk actionId basis

namespace Settled

variable {site : Deployment} {instances : Nat → Harness} {fleet : Fleet} {i : Nat}

/-- In a call that meets the condition, the cache is right from the start. -/
theorem based (settled : Settled instances fleet) (uncontended : Uncontended instances fleet i)
    (writesLeft : Option Nat) :
    Based (instances i) fleet.world.disk
      (fleet.world.entered ⟨instances i, fleet.caches i, writesLeft⟩) where
  one := settled.one
  kept _ _ labelled := labelled
  cached entry member := by
    have right := settled.cached i entry member
    constructor
    · intro other labelled
      by_cases known : ∃ earlier, Labelled (fleet.seen i) entry.1 earlier
      · obtain ⟨earlier, found⟩ := known
        rw [← right.recorded earlier found]
        exact settled.one _ _ _ (settled.kept i _ _ found) labelled
      · -- the first record is somebody else's, with the basis of this process
        have none : ∀ earlier, ¬ Labelled (fleet.seen i) entry.1 earlier := fun earlier found =>
          known ⟨earlier, found⟩
        rw [right.fresh none]
        exact (uncontended entry member other labelled).resolve_left known
    · intro none
      apply right.fresh
      intro earlier found
      exact none earlier (settled.kept i _ _ found)

theorem called (settled : Settled instances fleet) (uncontended : Uncontended instances fleet i)
    (call : Call) (writesLeft : Option Nat) :
    Settled instances (fleet.called site instances i call writesLeft) := by
  let process : Process := ⟨instances i, fleet.caches i, writesLeft⟩
  have drafts : EntryDrafts site process.harness (Based (instances i) fleet.world.disk) _ :=
    based_drafts
  have after : Based (instances i) fleet.world.disk
      (fleet.called site instances i call writesLeft).world :=
    drafts.after based_dispatches (settled.based uncontended writesLeft) call
  constructor
  · exact after.one
  · intro j entry member
    by_cases own : j = i
    · subst own
      simp only [Fleet.called, Function.update_self] at member ⊢
      exact after.cached entry member
    · simp only [Fleet.called, Function.update_of_ne own] at member ⊢
      exact settled.cached j entry member
  · intro j id basis labelled
    by_cases own : j = i
    · subst own
      simpa only [Fleet.called, Function.update_self] using labelled
    · simp only [Fleet.called, Function.update_of_ne own] at labelled
      exact after.kept id basis (settled.kept j id basis labelled)

theorem restarted (settled : Settled instances fleet) : Settled instances (fleet.restarted i) := by
  refine ⟨settled.one, ?_, settled.kept⟩
  intro j entry member
  by_cases own : j = i
  · subst own
    simp [Fleet.restarted] at member
  · simp only [Fleet.restarted, Function.update_of_ne own] at member
    exact settled.cached j entry member

theorem of_run (run : FleetRun site instances (Uncontended instances) fleet) :
    Settled instances fleet := by
  induction run with
  | @fresh w start =>
    have none : ∀ id basis, ¬ Labelled w.disk id basis := by
      rintro id basis (⟨record, member, -⟩ | ⟨operation, active, -⟩)
      · rw [start.records] at member
        cases member
      · rw [start.journal] at active
        cases active
    exact ⟨fun id basis _ labelled => absurd labelled (none id basis), by simp, by simp⟩
  | call _ i meets call writesLeft ih => exact ih.called meets call writesLeft
  | restart _ i ih => exact ih.restarted

end Settled

/-- In a run in which no process calls with a remembered action whose first record another process
has meanwhile written with another basis, every record carries the basis of the first record of its
action, and so does every remembered basis when its process was last at work. -/
theorem origin_basis_kept {site : Deployment} {instances : Nat → Harness} {fleet : Fleet}
    (run : FleetRun site instances (Uncontended instances) fleet) :
    (∀ record ∈ fleet.world.disk.records, ∃ first,
      EvidenceLog.firstByAction fleet.world.disk.records record.actionId = some first ∧
        record.enforcementBasis = first.enforcementBasis) ∧
    ∀ i, ∀ entry ∈ fleet.caches i, (fleet.seen i).journal = none →
      entry.2 = (instances i).originBasis (fleet.seen i).records entry.1 := by
  have settled := Settled.of_run run
  constructor
  · intro record member
    have present : (EvidenceLog.firstByAction fleet.world.disk.records record.actionId).isSome := by
      rw [EvidenceLog.firstByAction, List.find?_isSome]
      exact ⟨record, member, by simp⟩
    obtain ⟨first, found⟩ := Option.isSome_iff_exists.1 present
    have own : first.actionId = record.actionId := by simpa using List.find?_some found
    refine ⟨first, found, ?_⟩
    exact settled.one record.actionId _ _ (.inl ⟨first, List.mem_of_find?_eq_some found, own, rfl⟩)
      (.inl ⟨record, member, rfl, rfl⟩)
  -- a cache may lag behind the log, but an action's first label never changes
  · intro i entry member idle
    have right := settled.cached i entry member
    unfold Harness.originBasis
    split
    next first found =>
      exact (right.recorded _ (.inl ⟨first, List.mem_of_find?_eq_some found,
        by simpa using List.find?_some found, rfl⟩)).symm
    next unseen =>
      apply right.fresh
      rintro other (⟨record, logged, own, -⟩ | ⟨operation, active, -⟩)
      · have missing := List.find?_eq_none.1 unseen record logged
        simp [own] at missing
      · rw [idle] at active
        cases active

/-! ### A stale cache -/

/-- Process 0 has a rule without a reason, so that its evaluations fail; process 1 is a proxy whose
policy asks for an approval. -/
private def mixed : Nat → Harness
  | 0 =>
    { Demo.harness .approvalRequired (Demo.dollars 3) (Demo.dollars 2) with
      policy :=
        { version := "1", rulesetHash := Demo.digest 3, authorityInputs := .null
          evaluate := fun _ _ now => .ok { Demo.decision .approvalRequired now with reason := " " } } }
  | _ =>
    { Demo.harness .approvalRequired (Demo.dollars 3) (Demo.dollars 2) with
      evidenceBasis := .mcpProxy }

private def mailed (fleet : Fleet) (i : Nat) : Fleet :=
  fleet.called (Demo.site Demo.clock) mixed i
    (.handleCall (Demo.call "act_1") Demo.request "" "") none

private def rejected (fleet : Fleet) (i : Nat) : Fleet :=
  fleet.called (Demo.site Demo.clock) mixed i (.resume "apr_" false "operator" "no" none) none

private def startFleet : Fleet := ⟨Demo.start, fun _ => [], fun _ => Demo.start.disk⟩

/-- Process 0 fails before the first record of the action, process 1 writes it, and process 0 then
rejects the approval under the basis that it remembers. -/
theorem stale_basis_recorded :
    FleetRun (Demo.site Demo.clock) mixed (fun _ _ => True)
      (rejected (mailed (mailed startFleet 0) 1) 0) ∧
    ((rejected (mailed (mailed startFleet 0) 1) 0).world.disk.records.map fun record =>
      (record.actionId, record.resultStatus, record.enforcementBasis)) =
      [("act_1", .pendingApproval, .mcpProxy), ("act_1", .rejected, .harnessControlLoop)] := by
  constructor
  · apply FleetRun.call _ _ trivial
    apply FleetRun.call _ _ trivial
    apply FleetRun.call _ _ trivial
    exact .fresh (Demo.start_fresh _)
  · decide +kernel

/-- The general theorem when process 0 has not seen the action before. -/
theorem origin_basis_kept_mail :
    ∃ record first, record ∈ (rejected (mailed startFleet 1) 0).world.disk.records ∧
      record.resultStatus = .rejected ∧
      EvidenceLog.firstByAction (rejected (mailed startFleet 1) 0).world.disk.records
        record.actionId = some first ∧ record.enforcementBasis = first.enforcementBasis := by
  have shown : ((rejected (mailed startFleet 1) 0).world.disk.records.any fun record =>
      record.resultStatus == .rejected) = true := by decide +kernel
  obtain ⟨record, member, status⟩ := List.any_eq_true.1 shown
  have run : FleetRun (Demo.site Demo.clock) mixed (Uncontended mixed)
      (rejected (mailed startFleet 1) 0) := by
    apply FleetRun.call
    · apply FleetRun.call
      · exact .fresh (Demo.start_fresh _)
      · intro entry cached
        cases cached
    · intro entry cached
      cases cached
  obtain ⟨first, found, same⟩ := (origin_basis_kept run).1 record member
  exact ⟨record, first, member, by simpa using status, found, same⟩

end DefiantHarness
