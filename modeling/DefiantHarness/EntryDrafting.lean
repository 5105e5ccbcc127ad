import DefiantHarness.RecordDrafting

/-! The entry points keep an invariant of the world that the making of records keeps. -/
namespace DefiantHarness

open Foundation Proc Control

/-- What an invariant of the world must allow for a call that completes no tool result. -/
structure PlainDrafts (site : Deployment) (harness : Harness) (J : World → Prop)
    (admits : List EvidenceRecord → Option JournalOperation → EvidenceRecord → Prop) : Prop where
  rules : Discipline site J admits
  made : Drafts site harness J admits fun details => details.result = none
  claim : ∀ w approvalId now, J w → J (w.noted (.claiming approvalId now w.disk))
  remember : ∀ w actionId, J w → Idle w →
    Keeps J (Harness.rememberBasis actionId (harness.originBasis w.disk.records actionId))
      (fun _ t => t.disk = w.disk) w

/-- The invariant survives an authorized action, wherever it is executed. -/
def Proceeds (site : Deployment) (harness : Harness) (J : World → Prop) (external : Bool) : Prop :=
  ∀ action request decision estimate w, J w → Idle w →
    Keeps J (harness.proceed site action request decision estimate external) (fun _ t => Idle t) w

/-- The invariant survives the execution of an approved action. -/
def CarriesOut (site : Deployment) (harness : Harness) (J : World → Prop) : Prop :=
  ∀ approvalId pending action request original decidedBy w, J w → Idle w →
    Keeps J (harness.carryOut site approvalId pending action request original decidedBy)
      (fun _ t => Idle t) w

namespace PlainDrafts

variable {site : Deployment} {harness : Harness} {J : World → Prop}
  {admits : List EvidenceRecord → Option JournalOperation → EvidenceRecord → Prop} {w : World}
  {action : ProposedAction} {request : HarnessRequest} {decision original : GuardrailDecision}
  {estimate : Decimal} {executionOwner executionKey approvalId decidedBy note : String}
  {external : Bool} {attestation : Option OperatorAttestation}

/-! ### Proposals -/

theorem budgetRefusal (drafts : PlainDrafts site harness J admits) (holds : J w) (idle : Idle w) :
    Keeps J (harness.budgetRefusal site action request estimate) (fun _ t => Idle t) w := by
  apply keeps_ite
  · intro _
    apply keeps_disk_bind
    apply keeps_lift_bind holds
    intro check _
    apply keeps_ite
    · intro _
      exact keeps_pure holds idle
    · intro _
      apply (drafts.rules.controlDecision holds ⟨rfl, idle⟩).bind
      intro _ t later same
      exact keeps_pure later same.2
  · intro _
    exact keeps_pure holds idle

theorem hold (drafts : PlainDrafts site harness J admits) (holds : J w) (idle : Idle w) :
    Keeps J (harness.hold site action request decision estimate executionOwner executionKey)
      (fun _ t => Idle t) w := by
  apply keeps_newId_bind
  apply keeps_now_bind
  have drawn : J w.drawn.ticked := drafts.rules.tick _ (drafts.rules.draw w holds)
  apply keeps_lift_bind drawn
  intro pending _
  apply keeps_disk_bind
  apply keeps_lift_bind drawn
  intro balance _
  apply keeps_lift_bind drawn
  intro remaining _
  apply (drafts.made.make w.drawn.ticked _ _ _ _ _ drawn idle rfl).bind
  rintro record t later ⟨disk, admitted⟩
  have still : Idle t := by
    unfold Idle
    rw [disk]
    exact idle
  have same : t.disk.records = w.drawn.ticked.disk.records := congrArg Disk.records disk
  apply (drafts.rules.commit later still (by rw [same]; exact admitted)).bind
  intro _ u last kept
  exact keeps_pure last kept

/-- An external execution is only authorized. -/
theorem authorizes (drafts : PlainDrafts site harness J admits) : Proceeds site harness J true := by
  intro action request decision estimate w holds idle
  apply (drafts.rules.ifFunded holds ⟨rfl, idle⟩).bind
  intro _ t later same
  exact drafts.made.authorizeExternal drafts.rules later same.2 fun _ _ unexecuted => unexecuted

theorem fund (drafts : PlainDrafts site harness J admits) (proceeds : Proceeds site harness J external)
    (holds : J w) (idle : Idle w) :
    Keeps J (harness.fund site action request decision executionOwner executionKey external)
      (fun _ t => Idle t) w := by
  apply (drafts.budgetRefusal holds idle).bind
  intro refusal t later still
  cases refusal with
  | some blocked => exact drafts.made.refuse drafts.rules later still rfl
  | none =>
    apply keeps_ite
    · intro _
      exact drafts.hold later still
    · intro _
      exact proceeds _ _ _ _ _ later still

theorem decideNew (drafts : PlainDrafts site harness J admits) (proceeds : Proceeds site harness J external)
    (holds : J w) (idle : Idle w) :
    Keeps J (harness.decideNew site action request executionOwner executionKey external)
      (fun _ t => Idle t) w := by
  -- both refusals and the evaluation that blocks end in the same record
  have refused : ∀ {decision : GuardrailDecision} {t : World}, J t → Idle t →
      Keeps J (harness.refuse site action request decision) (fun _ u => Idle u) t :=
    fun later still => drafts.made.refuse drafts.rules later still rfl
  have blocked : ∀ {reason policyId : String} {extraInputs : List (String × Json)},
      Keeps J (do
        let decision ← harness.controlDecision site action reason policyId extraInputs
        harness.refuse site action request decision) (fun _ u => Idle u) w := by
    intro reason policyId extraInputs
    apply (drafts.rules.controlDecision holds ⟨rfl, idle⟩).bind
    intro _ t later same
    exact refused later same.2
  unfold Harness.decideNew
  split
  next => exact blocked
  next =>
    split
    next => exact blocked
    next =>
      apply (drafts.made.evaluate drafts.rules holds ⟨rfl, idle⟩).bind
      intro decision t later same
      apply keeps_ite
      · intro _
        exact refused later same.2
      · intro _
        exact drafts.fund proceeds later same.2

theorem handle (drafts : PlainDrafts site harness J admits) (proceeds : Proceeds site harness J external)
    (holds : J w) :
    Keeps J (harness.handle site action request executionOwner executionKey external)
      (fun _ _ => True) w := by
  apply keeps_lift_bind holds
  intro _ _
  apply keeps_lift_bind holds
  intro _ _
  apply (drafts.made.settleAndCheck drafts.rules holds fun _ _ unexecuted =>
    unexecuted).bind
  intro _ t later idle
  apply keeps_disk_bind
  apply (drafts.remember t action.actionId later idle).bind
  intro _ u after disk
  have still : Idle u := by
    unfold Idle
    rw [disk]
    exact idle
  apply keeps_ite
  · intro _
    apply (drafts.rules.controlDecision after ⟨rfl, still⟩).bind
    intro _ v last same
    exact (drafts.made.refuse drafts.rules last same.2 rfl).mono fun _ _ _ _ => trivial
  · intro _
    exact (drafts.decideNew proceeds after still).mono fun _ _ _ _ => trivial

theorem propose (drafts : PlainDrafts site harness J admits) (proceeds : Proceeds site harness J external)
    (holds : J w) {call : ToolCall} :
    Keeps J (harness.propose site call request executionOwner executionKey external)
      (fun _ _ => True) w := by
  apply keeps_lift_bind holds
  intro _ _
  apply keeps_lift_bind holds
  intro _ _
  apply keeps_lift_bind holds
  intro _ _
  apply keeps_lift_bind holds
  intro action _
  exact drafts.handle proceeds holds

/-! ### Approvals -/

theorem decideApproval (drafts : PlainDrafts site harness J admits) (holds : J w)
    {approved : Bool} {records : List EvidenceRecord} {journal : Option JournalOperation}
    (at_ : Holding records journal w) :
    Keeps J (Harness.decideApproval site approvalId approved decidedBy note attestation)
      (fun _ t => Holding records journal t) w := by
  apply keeps_disk_bind
  apply keeps_note_bind
  have noted := drafts.made.note w (.deciding approvalId approved w.disk) holds trivial
  exact drafts.rules.onApprovals noted at_

theorem approvePending (drafts : PlainDrafts site harness J admits) (holds : J w) (idle : Idle w)
    {pending : PendingApproval} :
    Keeps J (Harness.approvePending site pending decidedBy note attestation)
      (fun _ t => Idle t) w := by
  apply keeps_ite
  · intro _
    apply (drafts.decideApproval holds ⟨rfl, idle⟩).mono
    intro _ t _ same
    exact same.2
  · intro _
    exact keeps_pure holds idle

theorem claims (drafts : PlainDrafts site harness J admits) (holds : J w) (idle : Idle w) :
    Keeps J (Harness.claim site approvalId action) (fun _ t => Idle t) w := by
  apply keeps_get_bind
  apply keeps_note_bind
  apply (drafts.rules.onApprovals (drafts.claim w approvalId _ holds) ⟨rfl, idle⟩).bind
  intro answer t later same
  exact keeps_lift later fun _ _ => same.2

theorem reject (drafts : PlainDrafts site harness J admits) (holds : J w) (idle : Idle w)
    {pending : PendingApproval} :
    Keeps J (harness.reject site pending action request original decidedBy note attestation)
      (fun _ t => Idle t) w := by
  apply keeps_disk_bind
  apply keeps_now_bind
  have ticked := drafts.rules.tick w holds
  apply keeps_lift_bind ticked
  rintro ⟨who, why⟩ _
  apply keeps_lift_bind ticked
  intro remaining _
  apply (drafts.made.make w.ticked _ _ _ _ _ ticked idle rfl).bind
  rintro record t later ⟨disk, admitted⟩
  have still : Idle t := by
    unfold Idle
    rw [disk]
    exact idle
  have same : t.disk.records = w.ticked.disk.records := congrArg Disk.records disk
  apply (drafts.rules.commit later still (by rw [same]; exact admitted)).bind
  intro _ u last kept
  exact keeps_pure last kept

theorem lookupApproval_bind {β : Type} {f : PendingApproval → Control β} {R : β → World → Prop}
    (holds : J w) (rest : ∀ pending, Keeps J (f pending) R w) :
    Keeps J (Harness.lookupApproval approvalId >>= f) R w := by
  have looked : Keeps J (Harness.lookupApproval approvalId) (fun _ t => t = w) w := by
    apply keeps_disk_bind
    exact keeps_lift holds fun _ _ => rfl
  apply looked.bind
  rintro pending _ - rfl
  exact rest pending

theorem resume (drafts : PlainDrafts site harness J admits) {approved : Bool}
    (carries : approved = true → CarriesOut site harness J) (holds : J w) :
    Keeps J (harness.resume site approvalId approved decidedBy note attestation)
      (fun _ _ => True) w := by
  apply keeps_lift_bind holds
  intro _ _
  apply (drafts.made.settleAndCheck drafts.rules holds fun _ _ unexecuted =>
    unexecuted).bind
  intro _ t later idle
  apply lookupApproval_bind later
  intro pending
  apply keeps_lift_bind later
  intro _ _
  apply keeps_lift_bind later
  intro _ _
  apply keeps_lift_bind later
  rintro ⟨action, request, original⟩ _
  -- approval goes on to carry the action out; rejection only closes the approval
  apply keeps_ite
  · intro agreed
    apply (drafts.approvePending later idle).bind
    intro pending u after still
    exact (carries agreed _ _ _ _ _ _ _ after still).mono fun _ _ _ _ => trivial
  · intro _
    apply keeps_lift_bind later
    intro _ _
    exact (drafts.reject later idle).mono fun _ _ _ _ => trivial

theorem resumeExternal (drafts : PlainDrafts site harness J admits) (holds : J w) :
    Keeps J (harness.resumeExternal site approvalId) (fun _ _ => True) w := by
  apply keeps_lift_bind holds
  intro _ _
  apply (drafts.made.settleAndCheck drafts.rules holds fun _ _ unexecuted =>
    unexecuted).bind
  intro _ t later idle
  apply lookupApproval_bind later
  intro pending
  apply keeps_lift_bind later
  intro _ _
  apply keeps_lift_bind later
  intro _ _
  apply keeps_lift_bind later
  rintro ⟨action, request, original⟩ _
  apply (drafts.made.currentDecision drafts.rules later ⟨rfl, idle⟩).bind
  intro decision u after same
  -- the claim comes after the decision, as in the source, and before either of its outcomes
  apply (drafts.claims after same.2).bind
  intro _ v last still
  apply keeps_ite
  · intro _
    exact (drafts.made.closeBlocked drafts.rules last still
      fun _ _ unexecuted => unexecuted).mono
      fun _ _ _ _ => trivial
  · intro _
    exact (drafts.made.authorizeExternal drafts.rules last still
      fun _ _ unexecuted => unexecuted).mono
      fun _ _ _ _ => trivial

end PlainDrafts

/-- What an invariant of the world must allow for whole calls. -/
structure EntryDrafts (site : Deployment) (harness : Harness) (J : World → Prop)
    (admits : List EvidenceRecord → Option JournalOperation → EvidenceRecord → Prop) : Prop where
  rules : Discipline site J admits
  made : Drafts site harness J admits fun _ => True
  claim : ∀ w approvalId now, J w → J (w.noted (.claiming approvalId now w.disk))
  remember : ∀ w actionId, J w → Idle w →
    Keeps J (Harness.rememberBasis actionId (harness.originBasis w.disk.records actionId))
      (fun _ t => t.disk = w.disk) w
  reconciled : ∀ w authority cost outcome reconciledBy reconciledAt note recordId timestamp,
    J w → Idle w → authority ∈ w.disk.records →
    admits w.disk.records none (Harness.authorizationReconciliationRecord site authority cost outcome
      reconciledBy reconciledAt note recordId timestamp)

namespace EntryDrafts

variable {site : Deployment} {harness : Harness} {J : World → Prop}
  {admits : List EvidenceRecord → Option JournalOperation → EvidenceRecord → Prop} {w : World}
  {action : ProposedAction} {request : HarnessRequest} {decision : GuardrailDecision}
  {approvalId note : String} {attestation : Option OperatorAttestation}

theorem plain (drafts : EntryDrafts site harness J admits) : PlainDrafts site harness J admits where
  rules := drafts.rules
  made := drafts.made.narrow fun _ _ => trivial
  claim := drafts.claim
  remember := drafts.remember

/-! ### Executions -/

theorem proceeds (drafts : EntryDrafts site harness J admits) (dispatches : Dispatches J)
    (external : Bool) : Proceeds site harness J external := by
  intro action request decision estimate w holds idle
  apply (drafts.rules.ifFunded holds ⟨rfl, idle⟩).bind
  intro _ t later same
  apply keeps_ite
  · intro _
    exact drafts.made.authorizeExternal drafts.rules later same.2 fun _ _ _ => trivial
  · intro _
    exact drafts.made.execute drafts.rules dispatches later same.2 fun _ _ => trivial

theorem carriesOut (drafts : EntryDrafts site harness J admits) (dispatches : Dispatches J) :
    CarriesOut site harness J := by
  intro approvalId pending action request original decidedBy w holds idle
  apply (drafts.made.currentDecision drafts.rules holds ⟨rfl, idle⟩).bind
  intro decision t later same
  apply (drafts.plain.claims later same.2).bind
  intro _ u after still
  apply keeps_ite
  · intro _
    exact drafts.made.closeBlocked drafts.rules after still fun _ _ _ => trivial
  · intro _
    apply keeps_disk_bind
    apply keeps_lift_bind after
    intro estimate _
    exact drafts.made.execute drafts.rules dispatches after still fun _ _ => trivial

theorem completeExternalCall (drafts : EntryDrafts site harness J admits) (holds : J w)
    {toolResponse : Json} :
    Keeps J (harness.completeExternalCall site action request decision toolResponse approvalId)
      (fun _ _ => True) w := by
  apply keeps_lift_bind holds
  intro _ _
  apply (drafts.rules.recoverOperation holds).bind
  intro _ t later idle
  apply (drafts.rules.requireSafe later ⟨rfl, idle⟩).bind
  intro _ u after same
  apply keeps_lift_bind after
  intro _ _
  apply keeps_lift_bind after
  intro _ _
  apply keeps_disk_bind
  apply keeps_lift_bind after
  intro authorization _
  apply (drafts.remember u action.actionId after same.2).bind
  intro _ v last disk
  -- remembering the basis writes nothing
  have still : Idle v := by
    unfold Idle
    rw [disk]
    exact same.2
  apply keeps_lift_bind last
  intro _ _
  apply keeps_lift_bind last
  intro approvedBy _
  apply keeps_lift_bind last
  intro estimate _
  apply (drafts.made.completeKnownResult drafts.rules last still fun _ _ => trivial).bind
  intro record x done _
  exact keeps_pure done trivial

/-! ### Reconciliation -/

theorem reconciledRecord (drafts : EntryDrafts site harness J admits) (holds : J w) (idle : Idle w)
    {terminal : Option EvidenceRecord} {approval : PendingApproval} {outcome : Outcome}
    {budget : Reconciliation} :
    Keeps J (harness.reconciledRecord site terminal approval action request decision outcome budget)
      (fun _ t => Idle t) w := by
  cases terminal with
  | some record => exact keeps_pure holds idle
  | none => exact drafts.made.record drafts.rules holds idle trivial

theorem reconcileExecution (drafts : EntryDrafts site harness J admits) (holds : J w)
    {outcome : Outcome} {reconciledBy : String} :
    Keeps J (harness.reconcileExecution site approvalId outcome reconciledBy note attestation)
      (fun _ _ => True) w := by
  apply (drafts.rules.recoverOperation holds).bind
  intro _ t later idle
  apply (drafts.rules.requireSafe later ⟨rfl, idle⟩).bind
  intro _ u after same
  apply keeps_disk_bind
  apply PlainDrafts.lookupApproval_bind after
  intro existing
  apply keeps_lift_bind after
  intro action _
  apply keeps_lift_bind after
  intro _ _
  apply keeps_lift_bind after
  intro _ _
  -- the intent, the ledger's marker, the record and the approval are written in this order
  apply (drafts.rules.onApprovals after ⟨rfl, same.2⟩).bind
  intro approval v last still
  apply keeps_lift_bind last
  intro request _
  apply keeps_lift_bind last
  intro _ _
  apply keeps_lift_bind last
  intro decision _
  apply (drafts.rules.onLedger last still).bind
  intro budget x settled kept
  apply (drafts.reconciledRecord settled kept.2).bind
  intro record y recorded quiet
  apply (drafts.rules.onApprovals recorded ⟨rfl, quiet⟩).bind
  intro _ z done _
  exact keeps_pure done trivial

theorem commitReconciliation (drafts : EntryDrafts site harness J admits) (holds : J w)
    (idle : Idle w) {authority : EvidenceRecord} (member : authority ∈ w.disk.records)
    {subject : AuthorizationReconciliationSubject} {outcome : Outcome} {reconciledBy : String}
    {attestation : Option AuthorizationAttestation} :
    Keeps J (Harness.commitReconciliation site authority subject outcome reconciledBy note
      attestation) (fun _ _ => True) w := by
  apply keeps_disk_bind
  apply keeps_lift_bind holds
  intro expected _
  apply keeps_lift_bind holds
  intro priorDebit _
  apply keeps_now_bind
  apply keeps_newId_bind
  have drawn : J w.ticked.drawn := drafts.rules.draw _ (drafts.rules.tick w holds)
  apply keeps_lift_bind drawn
  intro _ _
  have admitted := fun cost at_ recordId timestamp =>
    drafts.reconciled w.ticked.drawn authority cost outcome reconciledBy at_ note recordId timestamp
      drawn idle member
  apply (drafts.rules.commit drawn idle (admitted _ _ _ _)).bind
  intro _ t later _
  exact keeps_pure later trivial

theorem reconcileAuthorization (drafts : EntryDrafts site harness J admits) (holds : J w)
    {authorityRecordId : String} {outcome : Outcome} {reconciledBy : String}
    {attestation : Option AuthorizationAttestation} :
    Keeps J (Harness.reconcileAuthorization site authorityRecordId outcome reconciledBy note
      attestation) (fun _ _ => True) w := by
  apply (drafts.rules.recoverOperation holds).bind
  intro _ t later idle
  apply (drafts.rules.requireSafe later ⟨rfl, idle⟩).bind
  intro _ u after same
  apply keeps_lift_bind after
  intro _ _
  apply keeps_lift_bind after
  intro _ _
  apply keeps_disk_bind
  apply keeps_lift_bind after
  intro authority found
  rw [orRefuse_ok_iff] at found
  have member : authority ∈ u.disk.records := List.mem_of_find?_eq_some found
  apply keeps_lift_bind after
  intro subject _
  apply keeps_lift_bind after
  intro _ _
  apply keeps_now_bind
  have ticked := drafts.rules.tick u after
  apply keeps_lift_bind ticked
  intro _ _
  split
  next =>
    apply keeps_lift_bind ticked
    intro _ _
    exact keeps_pure ticked trivial
  -- a repeated reconciliation answers with the record it finds; only a first one commits
  next => exact drafts.commitReconciliation ticked same.2 member

/-! ### Calls -/

private theorem effect_keeps {α : Type} {p : Control α} {R : α → World → Prop}
    (keeps : Keeps J p R w) : Keeps J (do let _ ← p : Control Unit) (fun _ _ => True) w := by
  apply keeps.bind
  intro _ t later _
  exact keeps_pure later trivial

/-- Every call of the process keeps the invariant, however it ends. -/
theorem run (drafts : EntryDrafts site harness J admits) (dispatches : Dispatches J)
    (holds : J w) (call : Call) :
    Keeps J (call.run site harness) (fun _ _ => True) w := by
  cases call with
  | handleCall =>
    exact effect_keeps (drafts.plain.propose (drafts.proceeds dispatches _) holds)
  | preflightExternalCall =>
    exact effect_keeps (drafts.plain.propose (drafts.proceeds dispatches _) holds)
  | resume =>
    exact effect_keeps (drafts.plain.resume (fun _ => drafts.carriesOut dispatches) holds)
  | resumeExternal => exact effect_keeps (drafts.plain.resumeExternal holds)
  | completeExternalCall => exact effect_keeps (drafts.completeExternalCall holds)
  | reconcileExpiredApprovals =>
    exact effect_keeps (drafts.made.reconcileExpiredApprovals drafts.rules holds
      fun _ _ _ => trivial)
  | reconcileExecution => exact effect_keeps (drafts.reconcileExecution holds)
  | reconcileAuthorization => exact effect_keeps (drafts.reconcileAuthorization holds)
  | recoverOperation => exact effect_keeps (drafts.rules.recoverOperation holds)
  | decide => exact effect_keeps (drafts.plain.decideApproval holds ⟨rfl, rfl⟩)

/-- A call keeps what holds once its process has taken over the disk. -/
theorem after {process : Process} (drafts : EntryDrafts site process.harness J admits)
    (dispatches : Dispatches J) (holds : J (w.entered process)) (call : Call) : J (w.after site process call) := by
  have ends := drafts.run dispatches holds call
  unfold World.after
  unfold Keeps Ends at ends
  split at ends
  next shape =>
    rw [shape]
    exact ends.1
  next shape =>
    rw [shape]
    exact ends

end EntryDrafts
end DefiantHarness
