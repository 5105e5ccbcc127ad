import DefiantHarness.EntrySteps

/-! Authorization before effect: what precedes every dispatch in every run. -/
namespace DefiantHarness

open Foundation

/-- An approval of the action moves from approved to executing. -/
def StartsExecution (before after : Disk) (actionId : String) : Prop :=
  ∃ id old new, before.approvals.lookup id = some old ∧ old.status = .approved ∧
    old.actionId = actionId ∧ after.approvals.lookup id = some new ∧ new.status = .executing

/-- The events that use up an action: the claim of its approval, and its dispatch. -/
def Uses (actionId : String) : Event → Prop
  | .wrote before after => StartsExecution before after actionId
  | .dispatched action _ => action.actionId = actionId
  | _ => False

/-- Evidence mentions the action, and nothing can authorize it again. -/
structure Spent (disk : Disk) (actionId : String) : Prop where
  known : Known disk.records actionId
  unclaimable : Unclaimable disk actionId

theorem Spent.not_starts {before after : Disk} {actionId : String} (spent : Spent before actionId) :
    ¬ StartsExecution before after actionId := by
  rintro ⟨id, old, new, found, approved, own, -⟩
  exact (spent.unclaimable.approvals id old found own).2 approved

section Steps

variable {site : Deployment} {w t : World} {actionId : String}

private theorem Unclaimable.revised {after : Approvals} {old new : PendingApproval}
    (unclaimable : Unclaimable w.disk actionId)
    (revises : Revises w.disk.approvals after old new) :
    Unclaimable { w.disk with approvals := after } actionId where
  approvals id approval found own := by
    rw [revises.lookup] at found
    split at found
    next =>
      cases found
      rw [revises.actionId_eq] at own
      obtain ⟨notPending, notApproved⟩ := unclaimable.approvals _ old revises.found own
      have turns := revises.turns
      generalize new.status = status at turns ⊢
      generalize old.status = earlier at turns notPending notApproved
      cases turns <;> simp_all
    next => exact unclaimable.approvals id approval found own
  journal := unclaimable.journal

private theorem Spent.written (tracked : Tracked site w) {after : Disk} (spent : Spent w.disk actionId)
    (mutation : Mutation site w after) : Spent after actionId := by
  obtain ⟨known, unclaimable⟩ := spent
  cases mutation with
  | checkpoint => exact ⟨known, unclaimable.approvals, unclaimable.journal⟩
  | append => exact ⟨known.append _, unclaimable.approvals, unclaimable.journal⟩
  | ledger => exact ⟨known, unclaimable.approvals, unclaimable.journal⟩
  | approvals after why =>
    refine ⟨known, ?_⟩
    -- a write to the store creates one approval or revises one
    obtain ⟨operation, approval, reserved, creates⟩ | ⟨old, new, revises⟩ :=
      why.cases tracked.named.wellFormed
    · refine ⟨fun id other found own => ?_, unclaimable.journal⟩
      rw [creates.stored, lookup_stored_eq] at found
      split at found
      next =>
        cases found
        exact absurd own (unclaimable.journal _ _ _ creates.active creates.kind)
      next => exact unclaimable.approvals id other found own
    · exact unclaimable.revised revises
  -- an approval is only created for an action that no approval or record knows
  | prepare operation idle _ _ _ why =>
    refine ⟨known, unclaimable.approvals, fun found approval reserved active kind => ?_⟩
    cases active
    rw [kind] at why
    cases why with
    | approvalCreate _ _ unknown =>
      rintro rfl
      exact unknown known
  | complete => exact ⟨known, unclaimable.approvals, by simp⟩

/-- A revision that starts an execution revises an approved approval of the action. -/
private theorem Revises.starts {before after : Disk} {old new : PendingApproval}
    (revises : Revises before.approvals after.approvals old new)
    (starts : StartsExecution before after actionId) :
    old.status = .approved ∧ old.actionId = actionId ∧ new.status = .executing := by
  obtain ⟨id, earlier, later, found, approved, own, stored, executing⟩ := starts
  rw [revises.lookup] at stored
  split at stored
  next same =>
    cases stored
    rw [same, revises.found, Option.some.injEq] at found
    subst found
    exact ⟨approved, own, executing⟩
  next =>
    rw [found, Option.some.injEq] at stored
    rw [← stored, approved] at executing
    cases executing

/-- Only a claim starts an execution, and it is made while no operation is active. -/
private theorem ApprovalMoves.starts (tracked : Tracked site w) {after : Approvals}
    (moves : ApprovalMoves site w after)
    (starts : StartsExecution w.disk { w.disk with approvals := after } actionId) :
    w.disk.journal = none ∧ ∃ old new, Revises w.disk.approvals after old new ∧
      old.actionId = actionId ∧ new.status = .executing := by
  have wellFormed := tracked.named.wellFormed
  -- every other move leaves the approval with another status, or finds it with another one
  have other : ∀ {old new : PendingApproval}, Revises w.disk.approvals after old new →
      old.status ≠ .approved ∨ new.status ≠ .executing → False := by
    intro old new revises wrong
    have held : Revises w.disk.approvals { w.disk with approvals := after }.approvals old new :=
      revises
    obtain ⟨approved, -, executing⟩ := held.starts starts
    exact wrong.elim (· approved) (· executing)
  cases moves with
  | decide _ _ _ _ _ _ _ moved =>
    obtain ⟨old, new, -, revises, pending, -⟩ := decide_revises wellFormed moved
    exact (other revises (.inl (by simp [pending]))).elim
  | create operation active approval reservedUsd kind valid funded moved =>
    obtain ⟨update, ok, written⟩ := moved
    obtain ⟨-, rfl⟩ | ⟨absent, -, -, rfl⟩ := ApprovalStore.createPrepared_ok_iff.1 ok
    · cases written
    · cases written
      obtain ⟨id, earlier, later, found, approved, own, stored, executing⟩ := starts
      rw [lookup_stored_eq] at stored
      split at stored
      next same =>
        rw [same, absent] at found
        cases found
      next =>
        rw [found, Option.some.injEq] at stored
        rw [← stored, approved] at executing
        cases executing
  | reject _ _ _ _ _ _ _ _ _ _ _ _ moved =>
    obtain ⟨old, new, -, revises, status⟩ := ensureRejected_revises wellFormed moved
    exact (other revises (.inr (by simp [status]))).elim
  | expire _ _ _ _ _ _ _ _ _ moved =>
    obtain ⟨old, new, -, revises, status⟩ := expireOne_revises wellFormed moved
    exact (other revises (.inr (by simp [status]))).elim
  | claim idle _ _ _ _ moved =>
    obtain ⟨old, new, -, revises, -⟩ := beginExecution_revises wellFormed moved
    have held : Revises w.disk.approvals { w.disk with approvals := after }.approvals old new :=
      revises
    obtain ⟨-, own, executing⟩ := held.starts starts
    exact ⟨idle, old, new, revises, own, executing⟩
  | block _ _ _ _ _ moved =>
    obtain ⟨old, new, -, revises, status⟩ := markConsumed_revises wellFormed moved
    exact (other revises (.inr (by simp [status]))).elim
  | complete _ _ _ _ _ _ _ _ _ _ _ moved =>
    obtain ⟨old, new, -, revises, status⟩ := ensureConsumed_revises wellFormed moved
    exact (other revises (.inr (by simp [status]))).elim
  | intend _ _ _ _ _ _ _ moved =>
    obtain ⟨old, new, -, revises, executing, -⟩ := beginReconciliation_revises wellFormed moved
    exact (other revises (.inl (by simp [executing]))).elim
  | reconcile _ _ _ _ _ moved =>
    obtain ⟨old, new, -, revises, status⟩ := markReconciled_revises wellFormed moved
    exact (other revises (.inr (by simp [status]))).elim

private theorem not_starts_same {before after : Disk} (same : after.approvals = before.approvals) :
    ¬ StartsExecution before after actionId := by
  rintro ⟨id, old, new, found, approved, -, stored, executing⟩
  rw [same, found, Option.some.injEq] at stored
  rw [← stored, approved] at executing
  cases executing

/-- Claiming the approval of an action uses the action up. -/
private theorem spent_of_starts (tracked : Tracked site w) {after : Disk}
    (mutation : Mutation site w after) (starts : StartsExecution w.disk after actionId) :
    Spent after actionId := by
  have later := tracked.written mutation
  cases mutation with
  | approvals after why =>
    obtain ⟨idle, old, new, revises, own, executing⟩ := why.starts tracked starts
    have stored : after.lookup old.approvalId = some new := by
      rw [revises.lookup, if_pos rfl]
    refine ⟨?_, fun id approval found same => ?_, by simp [idle]⟩
    · obtain known | ⟨_, _, _, active, -⟩ := tracked.known _ old revises.found
      · exact own ▸ known
      · simp [idle] at active
    · have owner : id = old.approvalId := later.single id _ approval new found stored
        (same.trans (own.symm.trans revises.actionId_eq.symm))
      rw [owner] at found
      have found' := stored.symm.trans found
      rw [Option.some.injEq] at found'
      rw [← found', executing]
      simp
  | checkpoint | append | ledger | prepare | complete =>
    exact absurd starts (not_starts_same rfl)

end Steps

/-! ### The trace -/

private theorem Quiet.not_dispatched {events : List Event} (quiet : Quiet events)
    {action : ProposedAction} {disk : Disk} : .dispatched action disk ∉ events := by
  intro member
  obtain ⟨_, _, same, -⟩ := quiet _ member
  cases same

private theorem split_last {events past future : List Event} {event last : Event}
    (shape : events ++ [last] = past ++ event :: future) :
    (∃ rest, events = past ++ event :: rest) ∨ (events = past ∧ last = event) := by
  rcases List.eq_nil_or_concat future with rfl | ⟨rest, final, rfl⟩
  · obtain ⟨same, ends⟩ := List.append_inj' shape rfl
    exact .inr ⟨same, by simpa using ends⟩
  · rw [List.concat_eq_append, ← List.cons_append, ← List.append_assoc] at shape
    exact .inl ⟨rest, (List.append_inj' shape rfl).1⟩

/-- What a run keeps true of its trace. -/
structure Accounted (site : Deployment) (w : World) : Prop where
  spent : ∀ event ∈ w.trace, ∀ actionId, Uses actionId event → Spent w.disk actionId
  earlier : ∀ past before after future, w.trace = past ++ .wrote before after :: future →
    ∀ event ∈ past, ∀ actionId, Uses actionId event → Spent before actionId
  ready : ∀ past action disk future, w.trace = past ++ .dispatched action disk :: future →
    Dispatchable site.digests past action disk

namespace Accounted

variable {site : Deployment} {w t : World}

private theorem noted (accounted : Accounted site w) {event : Event}
    (spent : ∀ actionId, Uses actionId event → Spent w.disk actionId)
    (silent : ∀ before after, event ≠ .wrote before after)
    (ready : ∀ action disk, event = .dispatched action disk →
      Dispatchable site.digests w.trace action disk) : Accounted site (w.noted event) where
  spent found member actionId uses := by
    rcases List.mem_append.1 member with old | new
    · exact accounted.spent found old actionId uses
    · rw [List.mem_singleton.1 new] at uses
      exact spent actionId uses
  earlier past before after future shape := by
    rcases split_last shape with ⟨rest, old⟩ | ⟨-, new⟩
    · exact accounted.earlier past before after rest old
    · exact absurd new (silent before after)
  ready past action disk future shape := by
    rcases split_last shape with ⟨rest, old⟩ | ⟨same, new⟩
    · exact accounted.ready past action disk rest old
    · exact same ▸ ready action disk new

private theorem written (tracked : Tracked site w) (accounted : Accounted site w) {after : Disk}
    (mutation : Mutation site w after) : Accounted site (w.saved after) where
  spent found member actionId uses := by
    rcases List.mem_append.1 member with old | new
    · exact (accounted.spent found old actionId uses).written tracked mutation
    · rw [List.mem_singleton.1 new] at uses
      exact spent_of_starts tracked mutation uses
  earlier past before now future shape := by
    rcases split_last shape with ⟨rest, old⟩ | ⟨same, new⟩
    · exact accounted.earlier past before now rest old
    · cases new
      exact same ▸ accounted.spent
  ready past action disk future shape := by
    rcases split_last shape with ⟨rest, old⟩ | ⟨-, new⟩
    · exact accounted.ready past action disk rest old
    · cases new

theorem step (tracked : Tracked site w) (accounted : Accounted site w) (step : Step site w t) :
    Accounted site t := by
  cases step with
  | tick | draw | enter => exact ⟨accounted.spent, accounted.earlier, accounted.ready⟩
  | write after mutation => exact accounted.written tracked mutation
  | evaluate | decide | claim | compute =>
    exact accounted.noted (fun _ uses => uses.elim) (by simp) (by simp)
  | dispatch action ready =>
    refine accounted.noted (fun actionId own => ?_) (by simp) fun found disk same => ?_
    · obtain ⟨record, member, authorizes⟩ := ready.authorized
      have known : action.actionId = actionId := own
      exact known ▸ ⟨⟨record, member, authorizes.2.2.1⟩, ready.unclaimable⟩
    · cases same
      exact ready

theorem fresh (start : w.Fresh site) : Accounted site w := by
  constructor <;> simp [start.trace]

theorem of_reachable (reachable : Reachable site w) : Accounted site w :=
  reachable.invariant (fun _ start => fresh start) fun _ _ tracked accounted step =>
    accounted.step tracked step

/-- The claim of an approval is the only event before it that uses its action. -/
theorem first_claim (accounted : Accounted site w) {past future : List Event} {before after : Disk}
    {actionId : String} (shape : w.trace = past ++ .wrote before after :: future)
    (starts : StartsExecution before after actionId) : ∀ event ∈ past, ¬ Uses actionId event :=
  fun event member uses => (accounted.earlier past before after future shape event member actionId
    uses).not_starts starts

/-- No action is dispatched after an earlier dispatch of it. -/
theorem first_dispatch (accounted : Accounted site w) {past future : List Event}
    {action : ProposedAction} {disk : Disk}
    (shape : w.trace = past ++ .dispatched action disk :: future) {other : ProposedAction}
    {seen : Disk} (member : .dispatched other seen ∈ past) : other.actionId ≠ action.actionId := by
  intro same
  obtain ⟨start, decision, since, split, -, route⟩ := (accounted.ready _ _ _ _ shape).route
  -- the earlier dispatch lies before the evaluation, so the action was spent since then
  have spentAt : .dispatched other seen ∉ since → ∀ early before after late,
      since = early ++ .wrote before after :: late → Spent before action.actionId := by
    intro absent early before after late parts
    refine accounted.earlier (start ++ .evaluated action decision :: early) before after
      (late ++ .dispatched action disk :: future) ?_ (.dispatched other seen) ?_ _ same
    · rw [shape, split, parts]
      simp
    · rw [split] at member
      simp only [List.mem_append, List.mem_cons, reduceCtorEq, false_or] at member ⊢
      exact .inl (member.resolve_right absent)
  cases route with
  | direct quiet _ unknown =>
    obtain ⟨before, after, found, unseen⟩ := unknown
    obtain ⟨early, late, parts⟩ := List.append_of_mem found
    exact unseen (spentAt quiet.not_dispatched early before after late parts).known
  | @resumed approvalId now place before after late claims quiet =>
    have absent : .dispatched other seen ∉
        .claiming approvalId now place :: .wrote before after :: late := by
      simpa using quiet.not_dispatched
    obtain ⟨old, found, approved, own, -⟩ := claims
    have spent := spentAt absent [.claiming approvalId now place] before after late rfl
    exact (spent.unclaimable.approvals _ old found own).2 approved

end Accounted

/-- Every dispatch of a run finds a sealed authorization of exactly this action in the evidence log,
and the last policy evaluation before it is of this action and does not block: between the two stand
only writes that leave the approvals alone, when the evaluation allows the action, or the claim of an
approval of the action and then such writes. An approval of the action is claimed at most once in the
run, and the action is dispatched at most once. -/
theorem dispatch_authorized {site : Deployment} {w : World} (reachable : Reachable site w)
    {past future : List Event} {action : ProposedAction} {disk : Disk}
    (shape : w.trace = past ++ .dispatched action disk :: future) :
    (∃ record ∈ disk.records, record.resultStatus = .skipped ∧
      (record.decision = .allow ∨ record.decision = .approvalRequired) ∧
      record.actionId = action.actionId ∧ record.toolName = action.toolName ∧
      record.authorizationHash = action.authorizationHash site.digests ∧
      record.recordHash = site.digests.record record.body) ∧
    (∃ early decision since, past = early ++ .evaluated action decision :: since ∧
      decision.decision ≠ .block ∧
      ((decision.decision = .allow ∧ Quiet since) ∨ ∃ approvalId now found before after late,
        since = .claiming approvalId now found :: .wrote before after :: late ∧
        Claims site.digests before after action ∧ Quiet late)) ∧
    (∀ early before after late, w.trace = early ++ .wrote before after :: late →
      StartsExecution before after action.actionId →
      ∀ before' after', .wrote before' after' ∈ early ++ late →
        ¬ StartsExecution before' after' action.actionId) ∧
    ∀ other seen, .dispatched other seen ∈ past ++ future → other.actionId ≠ action.actionId := by
  have accounted := Accounted.of_reachable reachable
  have ready := accounted.ready _ _ _ _ shape
  refine ⟨ready.authorized, ?_, ?_, ?_⟩
  · obtain ⟨early, decision, since, split, kept, route⟩ := ready.route
    refine ⟨early, decision, since, split, kept, ?_⟩
    cases route with
    | direct quiet allowed => exact .inl ⟨allowed, quiet⟩
    | resumed claims quiet => exact .inr ⟨_, _, _, _, _, _, rfl, claims, quiet⟩
  · intro early before after late parts starts before' after' member again
    rcases List.mem_append.1 member with sooner | later
    · exact accounted.first_claim parts starts _ sooner again
    · obtain ⟨between, rest, cut⟩ := List.append_of_mem later
      have whole : w.trace = (early ++ .wrote before after :: between) ++
          .wrote before' after' :: rest := by
        rw [parts, cut]
        simp
      exact accounted.first_claim whole again (.wrote before after) (by simp) starts
  · intro other seen member
    rcases List.mem_append.1 member with sooner | later
    · exact accounted.first_dispatch shape sooner
    · obtain ⟨between, rest, cut⟩ := List.append_of_mem later
      have whole : w.trace = (past ++ .dispatched action disk :: between) ++
          .dispatched other seen :: rest := by
        rw [shape, cut]
        simp
      -- the later dispatch is the second of the two here
      have present : .dispatched action disk ∈ past ++ .dispatched action disk :: between := by simp
      exact (accounted.first_dispatch whole present).symm

/-- A mail that needs approval, approved and sent. -/
private def approvedRun : World :=
  Demo.start.afterAll (Demo.site Demo.clock)
    [(Demo.process .approvalRequired (Demo.dollars 3) (Demo.dollars 2) none,
        .handleCall (Demo.call "act_1") Demo.request "" ""),
      (Demo.process .approvalRequired (Demo.dollars 3) (Demo.dollars 2) none,
        .resume "apr_" true "operator" "fine" none)]

/-- The dispatch of this run follows the claim of its approval. -/
theorem dispatch_authorized_mail :
    ∃ past future action disk, approvedRun.trace = past ++ .dispatched action disk :: future ∧
      (∃ record ∈ disk.records, record.resultStatus = .skipped ∧
        record.actionId = action.actionId) ∧
      (∃ early decision approvalId now found before after late,
        past = early ++ .evaluated action decision :: .claiming approvalId now found ::
          .wrote before after :: late ∧
        decision.decision ≠ .block ∧ Claims Demo.digests before after action ∧ Quiet late) ∧
      ∀ other seen, .dispatched other seen ∈ past ++ future → other.actionId ≠ action.actionId := by
  have sent : (approvedRun.trace.any fun event => match event with
      | .dispatched _ _ => true
      | _ => false) = true := by decide +kernel
  -- every evaluation of this run asks for approval, which rules the direct route out
  have held : (approvedRun.trace.all fun event => match event with
      | .evaluated _ decision => decision.decision == .approvalRequired
      | _ => true) = true := by decide +kernel
  obtain ⟨event, member, dispatched⟩ := List.any_eq_true.1 sent
  cases event with
  | dispatched action disk =>
    obtain ⟨past, future, shape⟩ := List.append_of_mem member
    have reachable : Reachable (Demo.site Demo.clock) approvedRun :=
      (Reachable.fresh (Demo.start_fresh _)).afterAll _
    obtain ⟨⟨record, recorded, skipped, -, own, -⟩, ⟨early, decision, since, split, kept, route⟩, -, once⟩ :=
      dispatch_authorized reachable shape
    refine ⟨past, future, action, disk, shape, ⟨record, recorded, skipped, own⟩, ?_, once⟩
    have required : decision.decision = .approvalRequired := by
      have evaluated : .evaluated action decision ∈ approvedRun.trace := by
        rw [shape, split]
        simp
      simpa using List.all_eq_true.1 held _ evaluated
    rcases route with ⟨allowed, -⟩ | ⟨approvalId, now, found, before, after, late, rfl, claims, quiet⟩
    · rw [required] at allowed
      cases allowed
    · exact ⟨early, decision, approvalId, now, found, before, after, late, split, kept, claims, quiet⟩
  | _ => cases dispatched

end DefiantHarness
