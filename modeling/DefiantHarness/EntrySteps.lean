import DefiantHarness.HarnessSteps

/-! Every entry point takes only the steps of the transition system, and so does every run. -/
namespace DefiantHarness

open Foundation Control

namespace Harness

variable {site : Deployment} {harness : Harness} {w : World} {action : ProposedAction}
  {request : HarnessRequest} {decision : GuardrailDecision}

/-! ### Proposals -/

theorem settleAndCheck_does (named : Named site w) :
    Does site (harness.settleAndCheck site)
      (fun _ t => t.disk.journal = none ∧ ∃ reading, StateIntegrity.Safe site reading t.disk) w := by
  refine (recoverOperation_does named).bind fun _ v moves _ => ?_
  refine (reconcileExpiredApprovals_does (named.moves moves)).bind fun _ u _ idle => ?_
  refine requireSafe_does.mono fun _ t _ safe => ?_
  rw [safe.1.disk]
  exact ⟨idle, safe.2⟩

theorem handle_does (tracked : Tracked site w) {executionOwner executionKey : String}
    {external : Bool} :
    Does site (harness.handle site action request executionOwner executionKey external)
      (fun _ _ => True) w := by
  refine does_lift_bind fun _ _ => does_lift_bind fun _ _ => ?_
  refine (settleAndCheck_does tracked.named).bind ?_
  rintro _ v moves ⟨idle, reading, safe⟩
  refine does_disk_bind (rememberBasis_does.bind fun _ u moved still => ?_)
  have later := (tracked.moves moves).moves moved
  have stillIdle : u.disk.journal = none := by rw [still.disk]; exact idle
  split
  next =>
    refine Does.bind controlDecision_does fun _ t passed decided => ?_
    exact refuse_does (later.named.moves passed) (by rw [decided.2.disk]; exact stillIdle)
  next unseen =>
    have unknown : ¬ Known v.disk.records action.actionId := by
      rw [← byAction_eq_nil_iff, EvidenceLog.byAction, List.filter_eq_nil_iff]
      simpa [EvidenceLog.firstByAction] using unseen
    refine decideNew_does later ?_
    refine Unseen.of_disk (w := v) ⟨idle, unknown, ?_⟩ still.disk
    exact safe.unreserved idle (byAction_eq_nil_iff.2 unknown)
      ((tracked.moves moves).unknown_unowned idle unknown)

theorem propose_does (tracked : Tracked site w) {call : ToolCall}
    {executionOwner executionKey : String} {external : Bool} :
    Does site (harness.propose site call request executionOwner executionKey external)
      (fun _ _ => True) w :=
  does_lift_bind fun _ _ => does_lift_bind fun _ _ => does_lift_bind fun _ _ =>
    does_lift_bind fun _ _ => handle_does tracked

/-! ### Approvals -/

/-- The current decision: a block, or the answer of the policy just evaluated. -/
def Decided (action : ProposedAction) (decision : GuardrailDecision) (w t : World) : Prop :=
  t.disk = w.disk ∧ (decision.decision = .block ∨ t.trace = w.trace ++ [.evaluated action decision])

theorem currentDecision_does {original : GuardrailDecision} :
    Does site (harness.currentDecision site action request original)
      (fun decision t => Decided action decision w t) w := by
  have blocked : ∀ {reason policyId : String} {extraInputs : List (String × Json)},
      Does site (harness.controlDecision site action reason policyId extraInputs)
        (fun decision t => Decided action decision w t) w :=
    controlDecision_does.mono fun _ _ _ decided => ⟨decided.2.disk, .inl decided.1⟩
  unfold currentDecision
  split
  next => exact blocked
  next =>
    unfold resumeDecision
    split
    next => exact blocked
    next =>
      split
      next => exact blocked
      next => exact evaluate_does.mono fun _ _ _ done => ⟨done.disk, .inr done.trace⟩

/-- The approval has just been claimed for this action. -/
structure Claimed (site : Deployment) (action : ProposedAction) (approvalId : String)
    (pending : PendingApproval) (w t : World) : Prop where
  disk : t.disk = { w.disk with approvals := t.disk.approvals }
  found : t.disk.approvals.lookup approvalId = some { pending with status := .executing }
  actionId : pending.actionId = action.actionId
  hash : pending.terms.authorizationHash = action.authorizationHash site.digests
  trace : ∃ now, t.trace = w.trace ++ [.claiming approvalId now w.disk, .wrote w.disk t.disk]
  claims : Claims site.digests w.disk t.disk action

theorem claim_does (named : Named site w) (idle : w.disk.journal = none) {approvalId : String}
    {pending : PendingApproval} (stored : w.disk.approvals.lookup approvalId = some pending) :
    Does site (claim site approvalId action)
      (fun _ t => Claimed site action approvalId pending w t) w := by
  refine does_get_bind (does_note_bind (.claim _ _ _) ?_)
  refine Does.bind (R := fun answer t => ∀ approval, answer = .ok approval →
    Claimed site action approvalId pending w t) (does_onApprovals ?_ ?_)
    fun answer t _ claimed => does_lift fun approval ok => claimed approval ok
  · intro update after ok written
    exact .claim idle approvalId action _ ⟨w.trace, rfl⟩ ⟨update, ok, written⟩
  · intro update t ok leaves approval answered
    -- the claim either finds the approval expired, and answers with a failure, or starts its execution
    obtain ⟨old, found, approved, ⟨-, -, -, rfl⟩ | ⟨-, own, hash, -, valid, -, rfl⟩⟩ :=
      ApprovalStore.beginExecution_ok_iff.1 ok
    · cases answered
    obtain rfl : pending = old := by
      rw [World.noted_disk, stored, Option.some.injEq] at found
      exact found
    obtain ⟨key, -⟩ := named.wellFormed _ _ stored
    obtain ⟨written, -⟩ | ⟨after, written, rfl⟩ := leaves
    · cases written
    cases written
    refine ⟨rfl, ?_, own, hash, ⟨site.clock w.readings 0, by simp⟩, pending, ?_, approved, own, hash,
      ?_⟩
    · rw [← key]
      exact lookup_stored _ { pending with status := .executing }
    · rw [key]
      exact stored
    · exact lookup_stored _ { pending with status := .executing }

/-- The claimed approval owns this action. -/
structure Owns (site : Deployment) (action : ProposedAction) (approval : PendingApproval)
    (w : World) : Prop where
  idle : w.disk.journal = none
  found : ∃ current, w.disk.approvals.lookup approval.approvalId = some current ∧
    current.status = .executing ∧ current.terms = approval.terms
  actionId : approval.actionId = action.actionId
  hash : approval.terms.authorizationHash = action.authorizationHash site.digests

theorem Claimed.owns {approvalId : String} {pending : PendingApproval} {t : World}
    (claimed : Claimed site action approvalId pending w t) (idle : w.disk.journal = none)
    (key : pending.approvalId = approvalId) : Owns site action pending t where
  idle := by rw [claimed.disk]; exact idle
  found := ⟨{ pending with status := .executing }, key ▸ claimed.found, rfl, rfl⟩
  actionId := claimed.actionId
  hash := claimed.hash

theorem Owns.appends {approval : PendingApproval} {status : ResultStatus} {record : EvidenceRecord}
    (owns : Owns site action approval w)
    (describes : Describes site action request decision status record)
    (kind : status = .blocked ∨ status = .skipped ∧ decision.decision ≠ .block) :
    Appends w.disk record := by
  obtain ⟨current, found, executing, terms⟩ := owns.found
  refine .resumed owns.idle approval.approvalId current found executing ?_ ?_ ?_
  · rw [describes.actionId, ← owns.actionId]
    exact congrArg ApprovalTerms.actionId terms.symm
  · rw [describes.hash, terms, owns.hash]
  · rw [describes.status, describes.decision]
    exact kind

private theorem releaseReservation_does {approval : PendingApproval}
    (owns : Owns site action approval w) :
    Does site (releaseReservation site approval)
      (fun _ t => t.disk = { w.disk with ledger := t.disk.ledger } ∧
        approval.actionId ∉ t.disk.ledger.document.reservations) w := by
  obtain ⟨current, found, executing, terms⟩ := owns.found
  have own : current.actionId = approval.actionId := congrArg ApprovalTerms.actionId terms
  refine does_disk_bind (does_lift_bind fun live read => ?_)
  refine ifFunded_does ?_ ?_ ?_
  · intro free
    exact ⟨rfl, reservationFor_none read (by simp [free])⟩
  · intro update after _ ok written
    have moved : Writes (w.disk.ledger.release site.limits.budget current.terms.requestId
        current.actionId (site.clock w.readings)) after := by
      rw [own, terms]
      exact ⟨update, ok, written⟩
    exact .release owns.idle approval.approvalId current _ found executing moved
  · intro update t _ ok leaves
    rw [leaves_ledger leaves]
    obtain ⟨after, remaining, entry, rfl, -, -, frees⟩ := Ledger.release_ok ok
    exact ⟨rfl, by simpa using (frees.reservations approval.actionId).not.2 (by simp)⟩

theorem closeBlocked_does {approval : PendingApproval} {approvedBy : Option String}
    (named : Named site w) (owns : Owns site action approval w) :
    Does site (harness.closeBlocked site approval action request decision approvedBy)
      (fun _ _ => True) w := by
  refine (releaseReservation_does owns).bind ?_
  rintro _ v moves ⟨shape, free⟩
  have later := named.moves moves
  -- releasing the reservation leaves the journal and the approval alone
  have still : Owns site action approval v := by
    refine ⟨?_, ?_, owns.actionId, owns.hash⟩
    · rw [shape]
      exact owns.idle
    · rw [shape]
      exact owns.found
  refine (record_does later fun record describes => still.appends describes (.inl rfl)).bind ?_
  rintro stored u moved ⟨record, -, recorded⟩
  have disk := recorded.disk
  refine Does.bind (R := fun _ _ => True) (does_onApprovals ?_ fun _ _ _ _ => trivial)
    fun _ _ _ _ => does_pure trivial
  intro update after ok written
  refine .block (by rw [World.ticked_disk, disk]; exact still.idle) approval.approvalId _ _ ?_
    ⟨update, ok, written⟩
  intro owner found
  rw [World.ticked_disk, disk] at found ⊢
  obtain ⟨current, held, -, terms⟩ := still.found
  rw [held, Option.some.injEq] at found
  have own : owner.actionId = approval.actionId := by
    rw [← found]
    exact congrArg ApprovalTerms.actionId terms
  rw [own]
  exact free

theorem lookupApproval_does {approvalId : String} :
    Does site (lookupApproval approvalId)
      (fun approval t => w = t ∧ w.disk.approvals.lookup approvalId = some approval) w :=
  does_disk_bind (does_lift fun _ found => ⟨rfl, orRefuse_ok_iff.1 found⟩)

/-- The claimed approval is the only one of its action. -/
private theorem Claimed.unclaimable {approvalId : String} {pending : PendingApproval} {t : World}
    (idle : w.disk.journal = none) (later : Tracked site t)
    (claimed : Claimed site action approvalId pending w t) : Unclaimable t.disk action.actionId where
  approvals id approval found own := by
    have same : id = approvalId := later.single id approvalId approval _ found claimed.found
      (own.trans claimed.actionId.symm)
    rw [same, claimed.found, Option.some.injEq] at found
    rw [← found]
    simp
  journal := by
    rw [claimed.disk]
    simp [idle]

/-- What follows from the claim of an approval that the policy does not block. -/
private theorem Claimed.routed {approvalId : String} {pending : PendingApproval} {v t : World}
    (decided : Decided action decision w v) (claimed : Claimed site action approvalId pending v t)
    (kept : decision.decision ≠ .block) : Routed site.digests action decision t := by
  obtain blocked | evaluated := decided.2
  · exact absurd blocked kept
  obtain ⟨now, trace⟩ := claimed.trace
  refine ⟨kept, w.trace, _, by rw [trace, evaluated, List.append_assoc]; rfl, ?_⟩
  intro late _ _ quiet _ _
  exact .resumed claimed.claims quiet

theorem carryOut_does (tracked : Tracked site w) (idle : w.disk.journal = none)
    {approvalId decidedBy : String} {pending : PendingApproval} {original : GuardrailDecision}
    (stored : w.disk.approvals.lookup approvalId = some pending) :
    Does site (harness.carryOut site approvalId pending action request original decidedBy)
      (fun _ _ => True) w := by
  refine currentDecision_does.bind fun decision v moves decided => ?_
  have later := tracked.moves moves
  have disk := decided.1
  refine (claim_does later.named (by rw [disk]; exact idle) (by rw [disk]; exact stored)).bind
    fun _ u moved claimed => ?_
  obtain ⟨key, -⟩ := tracked.named.wellFormed _ _ stored
  have owns := claimed.owns (by rw [disk]; exact idle) key
  have last := later.named.moves moved
  split
  next => exact closeBlocked_does last owns
  next kept =>
    refine does_disk_bind (does_lift_bind fun _ _ => ?_)
    have unclaimable := claimed.unclaimable (by rw [disk]; exact idle) (later.moves moved)
    exact execute_does last (claimed.routed decided kept) unclaimable fun record describes =>
      owns.appends describes (.inr ⟨rfl, kept⟩)

theorem decideApproval_does (named : Named site w) {approvalId decidedBy note : String}
    {approved : Bool} {attestation : Option OperatorAttestation} :
    Does site (decideApproval site approvalId approved decidedBy note attestation)
      (fun approval t => t.disk = { w.disk with approvals := t.disk.approvals } ∧
        t.disk.approvals.lookup approvalId = some approval) w := by
  refine does_disk_bind (does_note_bind (.decide _ _ _) (does_onApprovals ?_ ?_))
  · intro update after ok written
    exact .decide approvalId approved decidedBy note attestation _ ⟨w.trace, rfl⟩
      ⟨update, ok, written⟩
  · intro update t ok leaves
    obtain ⟨old, who, what, found, -, -, -, -, -, rfl⟩ := ApprovalStore.decide_ok_iff.1 ok
    obtain ⟨key, -⟩ := named.wellFormed _ _ found
    rw [leaves_approvals leaves]
    refine ⟨rfl, ?_⟩
    rw [← key]
    exact lookup_stored _ (ApprovalStore.decided old approved who what attestation _)

theorem approvePending_does (named : Named site w) {pending : PendingApproval}
    {decidedBy note : String} {attestation : Option OperatorAttestation}
    (stored : w.disk.approvals.lookup pending.approvalId = some pending) :
    Does site (approvePending site pending decidedBy note attestation)
      (fun approval t => t.disk = { w.disk with approvals := t.disk.approvals } ∧
        t.disk.approvals.lookup pending.approvalId = some approval) w := by
  unfold approvePending
  split
  next => exact decideApproval_does named
  next => exact does_pure ⟨rfl, stored⟩

theorem reject_does (named : Named site w) {pending : PendingApproval}
    {original : GuardrailDecision} {decidedBy note : String}
    {attestation : Option OperatorAttestation} :
    Does site (harness.reject site pending action request original decidedBy note attestation)
      (fun _ _ => True) w := by
  refine does_disk_bind (does_now_bind (does_lift_bind fun checked _ => ?_))
  refine does_lift_bind fun _ _ => ?_
  refine (makeRecord_does (named.step (.tick w))).bind fun record v moves drafted => ?_
  have disk : v.disk = w.disk := drafted.still.disk
  exact (commit_does ((named.step (.tick w)).moves moves) (by rw [disk]; exact drafted.fresh)
    drafted.drawn fun _ _ _ _ => .approvalReject _ _ _ _ _ _ _).bind fun _ _ _ _ => does_pure trivial

theorem resume_does (tracked : Tracked site w) {approvalId decidedBy note : String} {approved : Bool}
    {attestation : Option OperatorAttestation} :
    Does site (harness.resume site approvalId approved decidedBy note attestation)
      (fun _ _ => True) w := by
  refine does_lift_bind fun _ _ => ?_
  refine (settleAndCheck_does tracked.named).bind ?_
  rintro _ v moves ⟨idle, -⟩
  have later := tracked.moves moves
  refine lookupApproval_does.bind ?_
  rintro pending _ - ⟨rfl, stored⟩
  obtain ⟨key, -⟩ := later.named.wellFormed _ _ stored
  refine does_lift_bind fun _ _ => does_lift_bind fun _ _ => does_lift_bind fun held _ => ?_
  obtain ⟨action, request, original⟩ := held
  dsimp only
  split
  next =>
    rw [← key] at stored
    refine (approvePending_does later.named stored).bind ?_
    rintro approval u moved ⟨shape, found⟩
    rw [key] at found
    exact carryOut_does (later.moves moved) (by rw [shape]; exact idle) found
  next =>
    refine does_lift_bind fun _ _ => ?_
    exact reject_does later.named

theorem resumeExternal_does (tracked : Tracked site w) {approvalId : String} :
    Does site (harness.resumeExternal site approvalId) (fun _ _ => True) w := by
  refine does_lift_bind fun _ _ => ?_
  refine (settleAndCheck_does tracked.named).bind ?_
  rintro _ v moves ⟨idle, -⟩
  have later := tracked.moves moves
  refine lookupApproval_does.bind ?_
  rintro pending _ - ⟨rfl, stored⟩
  obtain ⟨key, -⟩ := later.named.wellFormed _ _ stored
  refine does_lift_bind fun _ _ => does_lift_bind fun _ _ => does_lift_bind fun held _ => ?_
  refine currentDecision_does.bind fun decision u moved decided => ?_
  have disk := decided.1
  refine (claim_does (later.named.moves moved) (by rw [disk]; exact idle)
    (by rw [disk]; exact stored)).bind fun _ t passed claimed => ?_
  have owns := claimed.owns (by rw [disk]; exact idle) key
  have last := (later.named.moves moved).moves passed
  split
  next => exact closeBlocked_does last owns
  next kept =>
    exact authorizeExternal_does last fun record describes =>
      owns.appends describes (.inr ⟨rfl, kept⟩)

theorem matchingAuthorization_some {records : List EvidenceRecord} {actionId hash : String}
    {record : EvidenceRecord}
    (found : matchingAuthorization records actionId hash = some record) :
    record ∈ records ∧ record.actionId = actionId ∧ record.resultStatus = .skipped ∧
      record.authorizationHash = hash := by
  have member := List.mem_of_find?_eq_some found
  rw [List.mem_reverse, EvidenceLog.byAction, List.mem_filter, beq_iff_eq] at member
  have matches_ := List.find?_some found
  simp only [Bool.and_eq_true, beq_iff_eq] at matches_
  exact ⟨member.1, member.2, matches_.1, matches_.2⟩

theorem completeExternalCall_does (named : Named site w) {toolResponse : Json}
    {approvalId : String} :
    Does site (harness.completeExternalCall site action request decision toolResponse approvalId)
      (fun _ _ => True) w := by
  refine does_lift_bind fun _ _ => ?_
  refine (recoverOperation_does named).bind fun _ v moves _ => ?_
  refine requireSafe_does.bind fun _ u moved _ => ?_
  refine does_lift_bind fun _ _ => does_lift_bind fun _ _ => does_disk_bind ?_
  refine does_lift_bind fun authorization found => ?_
  obtain ⟨-, own, -⟩ := matchingAuthorization_some (orRefuse_ok_iff.1 found)
  refine rememberBasis_does.bind fun _ t passed _ => ?_
  refine does_lift_bind fun _ _ => does_lift_bind fun _ _ => does_lift_bind fun _ _ => ?_
  have last := ((named.moves moves).moves moved).moves passed
  exact (completeKnownResult_does last own).bind fun _ _ _ _ => does_pure trivial

/-! ### Reconciliation -/

theorem beginReconciliation_leaves {store : ApprovalStore} {approvals : Approvals}
    (wellFormed : WellFormed approvals) {approvalId reconciledBy note : String} {outcome : Outcome}
    {attestation : Option OperatorAttestation} {clock : Clock}
    {update : Update Approvals PendingApproval}
    (ok : store.beginReconciliation approvals approvalId outcome reconciledBy note attestation clock =
      .ok update) :
    ∃ old intent, approvals.lookup approvalId = some old ∧ update.result.terms = old.terms ∧
      (update.state approvals).lookup approvalId = some update.result ∧
      update.result.reconciliation = some intent ∧ intent.outcome = outcome := by
  obtain ⟨-, -, old, found, ⟨intent, durable, recognized, rfl⟩ | ⟨-, started⟩⟩ :=
    ApprovalStore.beginReconciliation_ok_iff.1 ok
  · obtain ⟨⟨same, -⟩, -⟩ := ApprovalStore.recognizeReconciliation_ok_iff.1 recognized
    exact ⟨old, intent, found, rfl, found, durable, same⟩
  · obtain ⟨-, -, -, -, rfl⟩ := ApprovalStore.startReconciliation_ok_iff.1 started
    obtain ⟨key, -⟩ := wellFormed _ _ found
    refine ⟨old, _, found, rfl, ?_, rfl, rfl⟩
    rw [← key]
    exact lookup_stored _ (ApprovalStore.intended old outcome _ _ attestation _)

/-- The operator's answer is durable, and no operation is active. -/
structure Intended (approvalId : String) (approval : PendingApproval)
    (intent : ReconciliationIntent) (w : World) : Prop where
  idle : w.disk.journal = none
  found : w.disk.approvals.lookup approvalId = some approval
  intent : approval.reconciliation = some intent

private theorem reconcileBudget_does {approvalId : String} {approval : PendingApproval}
    {intent : ReconciliationIntent} (intended : Intended approvalId approval intent w) :
    Does site (Control.onLedger site fun ledger clock =>
        ledger.reconcileReservation site.limits.budget approval.terms.reservedUsd.decimal
          approval.terms.requestId approval.actionId intent.outcome
          ((approval.reconciliation.map (·.reconciledBy)).getD "")
          ((approval.reconciliation.map (·.note)).getD "") none clock)
      (fun _ t => Intended approvalId approval intent t ∧
        approval.actionId ∈ t.disk.ledger.document.reconciliations) w := by
  rw [intended.intent]
  refine does_onLedger ?_ ?_
  · intro update after ok written
    exact .reconcile intended.idle approvalId approval intent _ intended.found intended.intent
      ⟨update, ok, written⟩
  · intro update t ok leaves
    have disk := leaves_ledger leaves
    refine ⟨⟨by rw [disk]; exact intended.idle, by rw [disk]; exact intended.found,
      intended.intent⟩, ?_⟩
    rw [disk]
    obtain ⟨none, present⟩ | ⟨after, marker, rfl, -, entry, -, -, posted⟩ :=
      Ledger.reconcileReservation_ok ok
    · simpa [Update.state, none] using present
    · exact (posted.reconciliations _).2 (.inl rfl)

private theorem reconciledRecord_does {approvalId : String} {approval : PendingApproval}
    {intent : ReconciliationIntent} {terminal : Option EvidenceRecord} {budget : Reconciliation}
    (named : Named site w) (intended : Intended approvalId approval intent w)
    (held : approval.terms.actionSnapshot = some action)
    (marked : approval.actionId ∈ w.disk.ledger.document.reconciliations) :
    Does site (harness.reconciledRecord site terminal approval action request decision intent.outcome
        budget)
      (fun _ t => Intended approvalId approval intent t ∧
        approval.actionId ∈ t.disk.ledger.document.reconciliations) w := by
  unfold reconciledRecord
  split
  -- an earlier attempt has written the record already
  next => exact does_pure ⟨intended, marked⟩
  next =>
    refine (record_does named fun record describes => .reconciled intended.idle approvalId approval
      intent intended.found intended.intent ⟨action, held, describes.actionId⟩
      describes.status).mono ?_
    rintro stored t - ⟨record, -, recorded⟩
    have disk := recorded.disk
    refine ⟨⟨?_, ?_, intended.intent⟩, ?_⟩
    · rw [disk]
      exact intended.idle
    · rw [disk]
      exact intended.found
    · rw [disk]
      exact marked

theorem reconcileExecution_does (named : Named site w) {approvalId reconciledBy note : String}
    {outcome : Outcome} {attestation : Option OperatorAttestation} :
    Does site (harness.reconcileExecution site approvalId outcome reconciledBy note attestation)
      (fun _ _ => True) w := by
  refine (recoverOperation_does named).bind fun _ v moves idle => ?_
  refine requireSafe_does.bind fun _ u moved safe => does_disk_bind ?_
  have later := (named.moves moves).moves moved
  have stillIdle : u.disk.journal = none := by rw [safe.1.disk]; exact idle
  refine lookupApproval_does.bind ?_
  rintro existing _ - ⟨rfl, stored⟩
  refine does_lift_bind fun action heldAction => does_lift_bind fun _ _ => ?_
  refine does_lift_bind fun _ _ => ?_
  refine Does.bind (R := fun approval t => ∃ intent, Intended approvalId approval intent t ∧
    approval.terms = existing.terms ∧ intent.outcome = outcome) (does_onApprovals ?_ ?_) ?_
  · intro update after ok written
    exact .intend stillIdle approvalId outcome reconciledBy note attestation _ ⟨update, ok, written⟩
  · intro update t ok leaves
    obtain ⟨old, intent, found, terms, after, durable, same⟩ :=
      beginReconciliation_leaves later.wellFormed ok
    have disk := leaves_approvals leaves
    rw [stored, Option.some.injEq] at found
    refine ⟨intent, ⟨by rw [disk]; exact stillIdle, by rw [disk]; exact after, durable⟩, ?_, same⟩
    rw [terms, found]
  · rintro approval t passed ⟨intent, intended, terms, rfl⟩
    refine does_lift_bind fun _ _ => does_lift_bind fun _ _ => does_lift_bind fun _ _ => ?_
    -- the intent is durable from here on, so every later step is replayed under it
    refine (reconcileBudget_does intended).bind ?_
    rintro budget x reached ⟨intended, marked⟩
    have snapshot : approval.terms.actionSnapshot = some action := by
      rw [terms]
      exact orRefuse_ok_iff.1 heldAction
    refine (reconciledRecord_does ((later.moves passed).moves reached) intended snapshot
      marked).bind ?_
    rintro record y - ⟨intended, marked⟩
    refine Does.bind (R := fun _ _ => True) (does_onApprovals ?_ fun _ _ _ _ => trivial)
      fun _ _ _ _ => does_pure trivial
    intro update after ok written
    refine .reconcile intended.idle approvalId _ _ (fun owner found => ?_) ⟨update, ok, written⟩
    rw [World.ticked_disk, intended.found, Option.some.injEq] at found
    exact found ▸ marked

private theorem commitReconciliation_does (named : Named site w) {authority : EvidenceRecord}
    {subject : AuthorizationReconciliationSubject} {outcome : Outcome} {reconciledBy note : String}
    {attestation : Option AuthorizationAttestation} :
    Does site (commitReconciliation site authority subject outcome reconciledBy note attestation)
      (fun _ _ => True) w := by
  refine does_disk_bind (does_lift_bind fun _ _ => does_lift_bind fun _ _ => ?_)
  refine does_now_bind (does_newId_bind (does_lift_bind fun _ _ => ?_))
  have later : Named site w.ticked.drawn := (named.step (.tick w)).step (.draw _)
  have drawn : Drawn site w.ticked.drawn.issued "evd" ("evd" ++ "_" ++ site.ids w.issued) :=
    ⟨w.issued, Nat.lt_succ_self _, rfl⟩
  have fresh : EvidenceLog.get w.ticked.drawn.disk.records ("evd" ++ "_" ++ site.ids w.issued) =
      none := named.fresh_record (k := w.issued) le_rfl
  refine (commit_does later fresh drawn
    fun _ _ _ _ => .authorizationReconcile _ _ _ _ _ _).bind fun _ _ _ _ => does_pure trivial

theorem reconcileAuthorization_does (named : Named site w)
    {authorityRecordId reconciledBy note : String} {outcome : Outcome}
    {attestation : Option AuthorizationAttestation} :
    Does site (reconcileAuthorization site authorityRecordId outcome reconciledBy note attestation)
      (fun _ _ => True) w := by
  refine (recoverOperation_does named).bind fun _ v moves _ => ?_
  refine requireSafe_does.bind fun _ u moved _ => ?_
  refine does_lift_bind fun _ _ => does_lift_bind fun _ _ => does_disk_bind ?_
  refine does_lift_bind fun _ _ => does_lift_bind fun _ _ => does_lift_bind fun _ _ => ?_
  refine does_now_bind (does_lift_bind fun _ _ => ?_)
  split
  next => exact does_lift_bind fun _ _ => does_pure trivial
  next =>
    exact commitReconciliation_does (((named.moves moves).moves moved).step (.tick u))

end Harness

/-! ### Runs -/

variable {site : Deployment} {w : World}

private theorem effect_does {α : Type} {p : Control α} {R : α → World → Prop}
    (does : Does site p R w) : Does site (do let _ ← p) (fun _ _ => True) w :=
  does.bind fun _ _ _ _ => does_pure trivial

theorem Call.run_does {harness : Harness} (tracked : Tracked site w) (call : Call) :
    Does site (call.run site harness) (fun _ _ => True) w := by
  cases call with
  | handleCall => exact effect_does (Harness.propose_does tracked)
  | preflightExternalCall => exact effect_does (Harness.propose_does tracked)
  | resume => exact effect_does (Harness.resume_does tracked)
  | resumeExternal => exact effect_does (Harness.resumeExternal_does tracked)
  | completeExternalCall => exact effect_does (Harness.completeExternalCall_does tracked.named)
  | reconcileExpiredApprovals =>
    exact effect_does (Harness.reconcileExpiredApprovals_does tracked.named)
  | reconcileExecution => exact effect_does (Harness.reconcileExecution_does tracked.named)
  | reconcileAuthorization => exact effect_does (Harness.reconcileAuthorization_does tracked.named)
  | recoverOperation => exact effect_does (Harness.recoverOperation_does tracked.named)
  | decide => exact effect_does (Harness.decideApproval_does tracked.named)

/-- A call of one process is a sequence of steps, however it ends. -/
theorem World.after_moves (tracked : Tracked site w) (process : Process) (call : Call) :
    Moves site w (w.after site process call) := by
  have entered : Step site w (w.entered process) := .enter w _ _
  have does : Does site (call.run site process.harness) (fun _ _ => True) _ :=
    call.run_does (tracked.step entered)
  have ends := does.ends
  refine .head entered ?_
  unfold World.after
  unfold Proc.Ends at ends
  split at ends
  next run => rw [run]; exact ends.1
  next run => rw [run]; exact ends

/-- Every reachable world is reached from a fresh one by steps. -/
theorem Reachable.moves (reachable : Reachable site w) :
    ∃ start : World, start.Fresh site ∧ Tracked site w ∧ Moves site start w := by
  induction reachable with
  | fresh start => exact ⟨_, start, .fresh start, .refl⟩
  | call _ process call ih =>
    obtain ⟨start, fresh, tracked, moves⟩ := ih
    have more := World.after_moves tracked process call
    exact ⟨start, fresh, tracked.moves more, moves.trans more⟩

/-- What holds at the start and is kept by every step holds in every reachable world. -/
theorem Reachable.invariant {I : World → Prop} (start : ∀ w, w.Fresh site → I w)
    (kept : ∀ v t, Tracked site v → I v → Step site v t → I t) (reachable : Reachable site w) :
    I w := by
  obtain ⟨first, fresh, -, moves⟩ := reachable.moves
  clear reachable
  have both : Tracked site w ∧ I w := by
    induction moves with
    | refl => exact ⟨.fresh fresh, start _ fresh⟩
    | tail _ step ih => exact ⟨ih.1.step step, kept _ _ ih.1 ih.2 step⟩
  exact both.2

end DefiantHarness
