import DefiantHarness.AuditRules
import DefiantHarness.Tracking

/-! The control loop takes only the steps of the transition system: decisions, records and
executions. -/
namespace DefiantHarness

open Foundation Control

theorem Still.checkpointed {w t : World} (still : Still w t) : Checkpointed w t where
  disk := by rw [still.disk]
  trace := ⟨[], by rw [still.trace, List.append_nil], .nil⟩

theorem byAction_eq_nil_iff {records : List EvidenceRecord} {actionId : String} :
    EvidenceLog.byAction records actionId = [] ↔ ¬ Known records actionId := by
  simp [EvidenceLog.byAction, List.filter_eq_nil_iff, Known]

namespace Harness

variable {site : Deployment} {harness : Harness} {w : World} {action : ProposedAction}
  {request : HarnessRequest} {decision : GuardrailDecision}

/-! ### Decisions -/

theorem controlDecision_does {reason policyId : String} {extraInputs : List (String × Json)} :
    Does site (harness.controlDecision site action reason policyId extraInputs)
      (fun decision t => decision.decision = .block ∧ Still w t) w :=
  does_now_bind (does_lift_bind fun _ _ => does_pure ⟨rfl, rfl, rfl⟩)

/-- The policy has just been evaluated. -/
structure Evaluated (action : ProposedAction) (decision : GuardrailDecision) (w t : World) : Prop where
  disk : t.disk = w.disk
  trace : t.trace = w.trace ++ [.evaluated action decision]

theorem evaluate_does :
    Does site (harness.evaluate site action request)
      (fun decision t => Evaluated action decision w t) w :=
  does_now_bind (does_lift_bind fun _ _ => does_lift_bind fun _ _ =>
    does_note_bind (.evaluate _ _ _) (does_pure ⟨rfl, rfl⟩))

theorem requireSafe_does :
    Does site (requireSafe site)
      (fun _ t => Still w t ∧ ∃ reading, StateIntegrity.Safe site reading w.disk) w :=
  does_get_bind (does_now_bind (does_lift fun _ safe =>
    ⟨⟨rfl, rfl⟩, w.readings, StateIntegrity.requireSafe_ok_iff.1 safe⟩))

/-! ### Evidence records -/

theorem rememberBasis_does {actionId : String} {basis : EnforcementBasis} :
    Does site (rememberBasis actionId basis) (fun _ t => Still w t) w :=
  ⟨(Proc.ends_of_ok (p := rememberBasis actionId basis) rfl).2
    ⟨.single (.enter w w.writesLeft _), rfl, rfl⟩⟩

theorem basisForAction_does {actionId : String} :
    Does site (harness.basisForAction actionId) (fun _ t => Still w t) w := by
  refine does_get_bind ?_
  split <;> exact rememberBasis_does

/-- What a new record says about its action. -/
structure Describes (site : Deployment) (action : ProposedAction) (request : HarnessRequest)
    (decision : GuardrailDecision) (status : ResultStatus) (record : EvidenceRecord) : Prop where
  actionId : record.actionId = action.actionId
  requestId : record.requestId = request.requestId
  decision : record.decision = decision.decision
  status : record.resultStatus = status
  toolName : record.toolName = action.toolName
  hash : record.authorizationHash = action.authorizationHash site.digests

/-- A new record with a fresh id. -/
structure Drafted (site : Deployment) (action : ProposedAction) (request : HarnessRequest)
    (decision : GuardrailDecision) (status : ResultStatus) (details : RecordDetails)
    (record : EvidenceRecord) (w t : World) : Prop where
  describes : Describes site action request decision status record
  still : Still w t
  fresh : EvidenceLog.get w.disk.records record.recordId = none
  drawn : Drawn site t.issued "evd" record.recordId
  remaining : ∃ remaining, remainingBudget w.disk.ledger details.budgetRemainingUsd = .ok remaining ∧
    record.budgetRemainingUsd = some remaining.plain
  cost : record.costUsd = ((details.result.map (·.costUsd)).getD Decimal.zero).plain

theorem makeRecord_does (named : Named site w) {status : ResultStatus} {details : RecordDetails} :
    Does site (harness.makeRecord site action request decision status details)
      (fun record t => Drafted site action request decision status details record w t) w := by
  refine basisForAction_does.bind fun basis v moves still => ?_
  refine does_now_bind (does_disk_bind (does_lift_bind fun remaining read => ?_))
  refine does_newId_bind (does_lift_bind fun _ _ => does_pure ?_)
  refine ⟨⟨rfl, rfl, rfl, rfl, rfl, rfl⟩, ⟨still.disk, still.trace⟩, named.fresh_record moves.issued_le,
    ⟨v.issued, Nat.lt_succ_self _, rfl⟩, ⟨remaining, ?_, rfl⟩, rfl⟩
  rw [World.ticked_disk, still.disk] at read
  exact read

theorem record_does (named : Named site w) {status : ResultStatus} {details : RecordDetails}
    (why : ∀ record, Describes site action request decision status record →
      Appends w.disk record) :
    Does site (harness.record site action request decision status details)
      (fun stored t => ∃ record, Describes site action request decision status record ∧
        Recorded site record stored w t) w := by
  refine (makeRecord_does named).bind fun record v _ drafted => ?_
  have disk := drafted.still.disk
  refine (EvidenceStore.append_does (by rw [disk]; exact why record drafted.describes)
    (by rw [disk]; exact drafted.fresh) drafted.drawn).mono fun stored t _ recorded => ?_
  exact ⟨record, drafted.describes, recorded.after_checkpoint drafted.still.checkpointed⟩

theorem refuse_does (named : Named site w) (idle : w.disk.journal = none) :
    Does site (harness.refuse site action request decision) (fun _ _ => True) w := by
  refine (record_does named fun record describes => .refused idle describes.status).bind
    fun _ _ _ _ => does_pure trivial

/-! ### Execution -/

theorem authorizeExternal_does (named : Named site w) {approvedBy : Option String}
    {approvalId : String} (why : ∀ record, Describes site action request decision .skipped record →
      Appends w.disk record) :
    Does site (harness.authorizeExternal site action request decision approvedBy approvalId)
      (fun _ _ => True) w :=
  (record_does named why).bind fun _ _ _ _ => does_pure trivial

theorem completeKnownResult_does (named : Named site w) {authorization : EvidenceRecord}
    {result : ToolResult} {estimate : Decimal} {approvedBy : Option String} {approvalId : String}
    (own : authorization.actionId = action.actionId) :
    Does site (harness.completeKnownResult site authorization action request decision result estimate
      approvedBy approvalId) (fun _ _ => True) w := by
  refine does_lift_bind fun _ _ => does_disk_bind ?_
  refine does_note_bind (.compute _ _ _ _ _) (does_lift_bind fun remaining left => ?_)
  refine (makeRecord_does (named.step (.compute _ _ _ _ _))).bind fun record v moves drafted => ?_
  refine does_lift_bind fun subject read => ?_
  obtain ⟨-, -, rfl⟩ := ExecutionCompletionSubject.fromRecord_ok_iff.1 read
  refine (commit_does ((named.step (.compute _ _ _ _ _)).moves moves) ?_ drafted.drawn ?_).bind
    fun _ _ _ _ => does_pure trivial
  · rw [drafted.still.disk]
    exact drafted.fresh
  · intro u disk trace _
    obtain ⟨amount, supplied, recorded⟩ := drafted.remaining
    cases supplied
    have same : u.disk = w.disk := disk.trans drafted.still.disk
    refine .executionComplete _ _ _ _ remaining _ request.requestId ⟨w.trace, ?_⟩ ?_ drafted.cost
      recorded drafted.describes.requestId
    · rw [trace, drafted.still.trace, same]
      simp [ExecutionCompletionSubject.ofRecord, own]
    · rw [same]
      simpa [ExecutionCompletionSubject.ofRecord, own] using left

/-- The policy was evaluated, and what happened since leads to a dispatch. -/
def Routed (digests : Digests) (action : ProposedAction) (decision : GuardrailDecision) (w : World) :
    Prop :=
  decision.decision ≠ .block ∧ ∃ past since, w.trace = past ++ .evaluated action decision :: since ∧
    ∀ late before after, Quiet late → .wrote before after ∈ late →
      before.records = w.disk.records → Route digests action decision (since ++ late)

theorem authorize_ok {registry : ToolRegistry} {digests : Digests} {record : EvidenceRecord}
    {grantId : String} {now : Timestamp} {grant : CapabilityGrant}
    (granted : registry.authorize digests action record grantId now = .ok grant) :
    Authorizes digests record action := by
  simp only [ToolRegistry.authorize] at granted
  obtain ⟨-, granted⟩ := unit_bind_ok_iff.1 granted
  simp only [refuseIf_bind_ok_iff, not_not, not_and_or] at granted
  obtain ⟨-, genuine, action, tool, hash, skipped, decided, -⟩ := granted
  exact ⟨skipped, decided, action, tool, hash, genuine.symm⟩

theorem execute_does (named : Named site w) {estimate : Decimal} {approvedBy : Option String}
    {approvalId : String} (routed : Routed site.digests action decision w)
    (unclaimable : Unclaimable w.disk action.actionId)
    (why : ∀ record, Describes site action request decision .skipped record →
      Appends w.disk record) :
    Does site (harness.execute site action request decision estimate approvedBy approvalId)
      (fun _ _ => True) w := by
  refine (record_does named why).bind ?_
  rintro stored v moves ⟨record, describes, recorded⟩
  refine does_now_bind (does_newId_bind (does_lift_bind fun grant granted => ?_))
  have authorizes := authorize_ok granted
  have own : stored.actionId = action.actionId := authorizes.2.2.1
  have later : Named site v.ticked.drawn := (named.moves moves).step (.tick v) |>.step (.draw _)
  have finish : ∀ {u : World} (result : ToolResult), Named site u →
      Does site (do
        let final ← harness.completeKnownResult site stored action request decision result estimate
          approvedBy approvalId
        pure
          ({ action := action, decision := decision, status := final.resultStatus
             evidenceRecordId := final.recordId, approvalId := approvalId, result := some result
             detail := result.summary } : ActionOutcome)) (fun _ _ => True) u :=
    fun result named => (completeKnownResult_does named own).bind fun _ _ _ _ => does_pure trivial
  refine Does.bind (R := fun _ _ => True) ?_ fun result u moved _ => finish result (later.moves moved)
  refine does_lift_bind fun spec _ => does_ite (fun _ => does_pure trivial) fun _ => ?_
  refine does_disk_bind (does_note_bind ?_ (does_lift fun _ _ => trivial))
  -- the record is on disk, nothing else can claim the action, and the route is the one found before
  refine .dispatch _ action ⟨⟨stored, ?_, authorizes⟩, ?_, ?_⟩
  · rw [World.drawn_disk, World.ticked_disk, recorded.disk]
    exact List.mem_append_right _ (List.mem_singleton_self _)
  · rw [World.drawn_disk, World.ticked_disk, recorded.disk]
    exact ⟨unclaimable.approvals, unclaimable.journal⟩
  · obtain ⟨allowed, past, since, trace, route⟩ := routed
    obtain ⟨late, lateTrace, quiet, before, after, member, records⟩ := recorded.trace
    refine ⟨past, decision, since ++ late, ?_, allowed, route late before after quiet member records⟩
    rw [World.drawn_trace, World.ticked_trace, lateTrace, trace]
    simp

/-! ### New actions -/

/-- Nothing in the stores mentions the action, and no operation is active. -/
structure Unseen (w : World) (actionId : String) : Prop where
  idle : w.disk.journal = none
  unknown : ¬ Known w.disk.records actionId
  unreserved : actionId ∉ w.disk.ledger.document.reservations

theorem Unseen.of_disk {w v : World} {actionId : String} (unseen : Unseen w actionId)
    (disk : v.disk = w.disk) : Unseen v actionId := by
  constructor
  · rw [disk]; exact unseen.idle
  · rw [disk]; exact unseen.unknown
  · rw [disk]; exact unseen.unreserved

theorem budgetRefusal_does {estimate : Decimal} :
    Does site (harness.budgetRefusal site action request estimate) (fun _ t => Still w t) w := by
  unfold budgetRefusal
  split
  next =>
    refine does_disk_bind (does_lift_bind fun check _ => ?_)
    split
    next =>
      refine does_pure ?_
      exact Still.refl w
    next =>
      refine Does.bind controlDecision_does fun _ v _ decided => ?_
      exact does_pure decided.2
  next =>
    refine does_pure ?_
    exact Still.refl w

theorem prepare_ok {store : ApprovalStore} {digests : Digests} {preview : Json → String}
    {reason scope owner key approvalId : String} {policyIds : List String}
    {ttlMinutes : Option Int} {request : Option HarnessRequest} {decision : Option GuardrailDecision}
    {reserved : Decimal} {clock : Clock} {approval : PendingApproval}
    (ok : store.prepare digests preview action reason scope policyIds ttlMinutes request decision
      reserved owner key approvalId clock = .ok approval) :
    approval.approvalId = approvalId ∧ approval.actionId = action.actionId ∧
      approval.terms.reservedUsd = reserved.plain ∧ approval.status = .pending := by
  simp only [ApprovalStore.prepare, moneyText, bind_ok_iff, money_ok_iff, pure_ok_iff] at ok
  obtain ⟨-, -, _, ⟨_, ⟨rfl, -⟩, rfl⟩, -, -, rfl⟩ := ok
  exact ⟨rfl, rfl, rfl, rfl⟩

theorem hold_does (named : Named site w) (unseen : Unseen w action.actionId) {estimate : Decimal}
    {executionOwner executionKey : String} :
    Does site (harness.hold site action request decision estimate executionOwner executionKey)
      (fun _ _ => True) w := by
  refine does_newId_bind (does_now_bind (does_lift_bind fun pending prepared => ?_))
  obtain ⟨approvalId, actionId, -, -⟩ := prepare_ok prepared
  refine does_disk_bind (does_lift_bind fun _ _ => does_lift_bind fun _ _ => ?_)
  have later : Named site w.drawn.ticked := (named.step (.draw w)).step (.tick _)
  refine (makeRecord_does later).bind fun record v moves drafted => ?_
  have disk : v.disk = w.disk := drafted.still.disk
  refine (commit_does (later.moves moves) (by rw [disk]; exact drafted.fresh) drafted.drawn
    fun u same _ le => ?_).bind fun _ _ _ _ => does_pure trivial
  have shape : u.disk = w.disk := same.trans disk
  have issued : w.issued + 1 ≤ u.issued := moves.issued_le.trans le
  refine .approvalCreate _ _ ?_ ?_ ⟨w.issued, issued, approvalId⟩ ?_
  · rw [shape, actionId]
    exact unseen.unknown
  · rw [shape, approvalId]
    exact named.fresh_approval le_rfl
  · rw [shape, actionId]
    exact unseen.unreserved

theorem proceed_does (tracked : Tracked site w) (unseen : Unseen w action.actionId)
    {estimate : Decimal} {external : Bool} (allowed : decision.decision = .allow)
    (evaluated : ∃ past, w.trace = past ++ [.evaluated action decision]) :
    Does site (harness.proceed site action request decision estimate external)
      (fun _ _ => True) w := by
  have reserving : Does site (ifFunded site estimate fun ledger clock =>
      ledger.reserve site.limits.budget estimate request.requestId action.actionId clock)
      (fun _ t => t.disk = { w.disk with ledger := t.disk.ledger } ∧
        ∃ events, t.trace = w.trace ++ events ∧ Quiet events) w := by
    refine ifFunded_does (fun _ => ⟨rfl, [], by simp, .nil⟩) ?_ ?_
    · intro update after _ ok written
      exact .reserve unseen.idle estimate request.requestId action.actionId _ unseen.unknown
        ⟨update, ok, written⟩
    · intro update t _ _ leaves
      refine ⟨by rw [leaves_ledger leaves], ?_⟩
      obtain ⟨-, rfl⟩ | ⟨stored, -, rfl⟩ := leaves
      · exact ⟨[], by simp, .nil⟩
      · exact ⟨[.wrote w.disk _], rfl, .single rfl⟩
  refine reserving.bind ?_
  rintro _ v moves ⟨shape, events, trace, quiet⟩
  have later := tracked.named.moves moves
  have unknown : ¬ Known v.disk.records action.actionId := by
    rw [shape]
    exact unseen.unknown
  have why : ∀ record, Describes site action request decision .skipped record →
      Appends v.disk record := by
    intro record describes
    refine .authorized ?_ ?_ describes.status (describes.decision.trans allowed)
    · rw [shape]
      exact unseen.idle
    · rw [describes.actionId]
      exact unknown
  refine does_ite (fun _ => authorizeExternal_does later why) fun _ => ?_
  obtain ⟨past, pastTrace⟩ := evaluated
  -- no approval owns an action that no record knows, so none can be claimed for it
  have unowned := tracked.unknown_unowned unseen.idle unseen.unknown
  rw [forAction_eq_nil_iff] at unowned
  have unclaimable : Unclaimable v.disk action.actionId := by
    rw [shape]
    exact ⟨fun id approval found own => absurd own (unowned id approval found),
      by simp [unseen.idle]⟩
  refine execute_does later ⟨by simp [allowed], past, events, ?_, ?_⟩ unclaimable why
  · rw [trace, pastTrace]
    simp
  · intro late before after lateQuiet member records
    refine .direct (quiet.append lateQuiet) allowed ⟨before, after, List.mem_append_right _ member, ?_⟩
    rw [records]
    exact unknown

theorem fund_does (tracked : Tracked site w) (unseen : Unseen w action.actionId)
    {executionOwner executionKey : String} {external : Bool} (kept : decision.decision ≠ .block)
    (evaluated : ∃ past, w.trace = past ++ [.evaluated action decision]) :
    Does site (harness.fund site action request decision executionOwner executionKey external)
      (fun _ _ => True) w := by
  refine budgetRefusal_does.bind fun refusal v moves still => ?_
  have later := tracked.moves moves
  have seen := unseen.of_disk still.disk
  cases refusal with
  | some blocked => exact refuse_does later.named seen.idle
  | none =>
    refine does_ite (fun _ => hold_does later.named seen) fun other => ?_
    have allowed : decision.decision = .allow := by
      cases kind : decision.decision <;> simp_all
    exact proceed_does later seen allowed (by rw [still.trace]; exact evaluated)

theorem decideNew_does (tracked : Tracked site w) (unseen : Unseen w action.actionId)
    {executionOwner executionKey : String} {external : Bool} :
    Does site (harness.decideNew site action request executionOwner executionKey external)
      (fun _ _ => True) w := by
  unfold decideNew
  split
  next =>
    refine Does.bind controlDecision_does fun _ v moves decided => ?_
    exact refuse_does (tracked.named.moves moves) (unseen.of_disk decided.2.disk).idle
  next =>
    split
    next =>
      refine Does.bind controlDecision_does fun _ v moves decided => ?_
      exact refuse_does (tracked.named.moves moves) (unseen.of_disk decided.2.disk).idle
    next =>
      refine Does.bind evaluate_does fun decision v moves evaluated => ?_
      have seen := unseen.of_disk evaluated.disk
      split
      next => exact refuse_does (tracked.named.moves moves) seen.idle
      next kept => exact fund_does (tracked.moves moves) seen kept ⟨w.trace, evaluated.trace⟩

/-! ### Expiry -/

theorem expireApproval_does (named : Named site w) (idle : w.disk.journal = none)
    {approval : PendingApproval} :
    Does site (harness.expireApproval site approval) (fun _ t => t.disk.journal = none) w := by
  unfold expireApproval
  split
  next =>
    split
    next => exact does_pure idle
    next => exact does_raise
  next =>
    refine does_disk_bind (does_lift_bind fun _ _ => ?_)
    refine (makeRecord_does named).bind fun record v moves drafted => ?_
    have disk : v.disk = w.disk := drafted.still.disk
    refine (commit_does (named.moves moves) (by rw [disk]; exact drafted.fresh) drafted.drawn
      fun _ _ _ _ => .approvalExpire _ _ _ _).bind fun _ _ _ done => ?_
    exact does_pure done

private theorem expireAll_does {approvals : List PendingApproval} (named : Named site w)
    (idle : w.disk.journal = none) :
    Does site (Proc.each (harness.expireApproval site) approvals)
      (fun _ t => t.disk.journal = none) w := by
  induction approvals generalizing w with
  | nil => exact does_pure idle
  | cons approval rest ih =>
    refine (expireApproval_does named idle).bind fun _ v moves done => ?_
    exact (ih (named.moves moves) done).bind fun _ _ _ last => does_pure last

theorem reconcileExpiredApprovals_does (named : Named site w) :
    Does site (harness.reconcileExpiredApprovals site) (fun _ t => t.disk.journal = none) w := by
  refine (recoverOperation_does named).bind fun _ v moves idle => ?_
  refine requireSafe_does.bind fun _ u moved safe => does_disk_bind (does_now_bind ?_)
  have later : Named site u.ticked := ((named.moves moves).moves moved).step (.tick u)
  have still : u.ticked.disk.journal = none := by
    rw [World.ticked_disk, safe.1.disk]
    exact idle
  exact (expireAll_does later still).bind fun _ _ _ last => does_pure last

end Harness
end DefiantHarness
