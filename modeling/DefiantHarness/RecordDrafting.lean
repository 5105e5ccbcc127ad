import DefiantHarness.Foundation.Keeps
import DefiantHarness.Runs

/-! How every evidence record comes about: an invariant of the world that each kind of write keeps
is kept by the stores, by recovery and by the control loop. -/
namespace DefiantHarness

open Foundation Proc

/-- A note that is neither the claim of an approval nor a dispatch. -/
def Ordinary : Event → Prop
  | .wrote _ _ | .claiming _ _ _ | .dispatched _ _ => False
  | _ => True

/-- The invariant survives the dispatch of any action. -/
def Dispatches (J : World → Prop) : Prop :=
  ∀ w action, J w → J (w.noted (.dispatched action w.disk))

/-- What an invariant of the world must allow. `admits` are the records that may be appended or
journaled, given the log and the journal. -/
structure Discipline (site : Deployment) (J : World → Prop)
    (admits : List EvidenceRecord → Option JournalOperation → EvidenceRecord → Prop) : Prop where
  tick : ∀ w, J w → J w.ticked
  draw : ∀ w, J w → J w.drawn
  quiet : ∀ w disk, J w → disk.records = w.disk.records → disk.journal = w.disk.journal →
    J (w.saved disk)
  appended : ∀ w record previous, J w → admits w.disk.records w.disk.journal record →
    J (w.saved { w.disk with
      records := w.disk.records ++ [record.sealed site.digests previous] })
  prepared : ∀ w operation, J w → w.disk.journal = none →
    admits w.disk.records none operation.evidence →
    J (w.saved { w.disk with journal := some operation })
  completed : ∀ w operation, J w → w.disk.journal = some operation →
    (∃ record ∈ w.disk.records, record.comparable = operation.evidence.comparable) →
    J (w.saved { w.disk with journal := none })
  active : ∀ w operation, J w → w.disk.journal = some operation →
    admits w.disk.records (some operation) operation.evidence

/-- The evidence and the journal are as given. -/
def Holding (records : List EvidenceRecord) (journal : Option JournalOperation) (w : World) : Prop :=
  w.disk.records = records ∧ w.disk.journal = journal

/-- No operation waits for recovery. -/
def Idle (w : World) : Prop := w.disk.journal = none

namespace Control

variable {site : Deployment} {J : World → Prop} {w : World} {α β : Type} {R : β → World → Prop}

theorem keeps_now_bind {f : Clock → Control β}
    (rest : Keeps J (f (site.clock w.readings)) R w.ticked) :
    Keeps J (now site >>= f) R w := by
  unfold Keeps
  rw [ends_bind, ends_now]
  exact rest

theorem keeps_newId_bind {kind : String} {f : String → Control β}
    (rest : Keeps J (f (kind ++ "_" ++ site.ids w.issued)) R w.drawn) :
    Keeps J (newId site kind >>= f) R w := by
  unfold Keeps
  rw [ends_bind, ends_newId]
  exact rest

theorem keeps_note_bind {event : Event} {f : Unit → Control β}
    (rest : Keeps J (f ()) R (w.noted event)) : Keeps J (note event >>= f) R w := by
  unfold Keeps
  rw [ends_bind, ends_note]
  exact rest

theorem keeps_disk_bind {f : Disk → Control β} (rest : Keeps J (f w.disk) R w) :
    Keeps J (disk >>= f) R w := by
  unfold Keeps
  rw [ends_bind, ends_disk]
  exact rest

theorem keeps_save {disk : Disk} {Q : Unit → World → Prop} (holds : J w)
    (written : J (w.saved disk)) (ended : Q () (w.saved disk)) : Keeps J (save disk) Q w := by
  unfold Keeps
  rw [ends_save]
  exact ⟨fun _ => holds, fun _ => ⟨written, ended⟩⟩

end Control

namespace Discipline

open Control

variable {site : Deployment} {J : World → Prop}
  {admits : List EvidenceRecord → Option JournalOperation → EvidenceRecord → Prop}
  {w : World} {α : Type} {records : List EvidenceRecord} {journal : Option JournalOperation}

/-! ### The stores -/

theorem onLedger (rules : Discipline site J admits) (holds : J w)
    (at_ : Holding records journal w)
    {op : Ledger → Clock → Except HarnessError (Update Ledger α)} :
    Keeps J (Control.onLedger site op) (fun _ t => Holding records journal t) w := by
  unfold Keeps
  rw [ends_onLedger]
  constructor
  · intro _ _
    exact rules.tick w holds
  · intro update _
    constructor
    · intro _
      exact ⟨rules.tick w holds, at_⟩
    · intro stored _
      constructor
      · intro _
        exact rules.tick w holds
      · intro _
        exact ⟨rules.quiet _ _ (rules.tick w holds) rfl rfl, at_⟩

theorem onApprovals (rules : Discipline site J admits) (holds : J w)
    (at_ : Holding records journal w)
    {op : Approvals → Clock → Except HarnessError (Update Approvals α)} :
    Keeps J (Control.onApprovals site op) (fun _ t => Holding records journal t) w := by
  unfold Keeps
  rw [ends_onApprovals]
  constructor
  · intro _ _
    exact rules.tick w holds
  · intro update _
    constructor
    · intro _
      exact ⟨rules.tick w holds, at_⟩
    · intro stored _
      constructor
      · intro _
        exact rules.tick w holds
      · intro _
        exact ⟨rules.quiet _ _ (rules.tick w holds) rfl rfl, at_⟩

theorem ifFunded (rules : Discipline site J admits) (holds : J w)
    (at_ : Holding records journal w) {reserved : Decimal}
    {op : Ledger → Clock → Except HarnessError (Update Ledger α)} :
    Keeps J (Harness.ifFunded site reserved op) (fun _ t => Holding records journal t) w := by
  unfold Harness.ifFunded
  apply keeps_ite
  · intro _
    apply (rules.onLedger holds at_).bind
    intro _ t later same
    exact keeps_pure later same
  · intro _
    exact keeps_pure holds at_

theorem placeHead (rules : Discipline site J admits) (holds : J w)
    (at_ : Holding records journal w) (head : Option EvidenceHead) :
    Keeps J (EvidenceStore.placeHead head) (fun _ t => Holding records journal t) w := by
  cases head with
  | none => exact keeps_pure holds at_
  | some head =>
    apply keeps_disk_bind
    exact keeps_save holds (rules.quiet _ _ holds rfl rfl) at_

theorem reconcileHead (rules : Discipline site J admits) (holds : J w)
    (at_ : Holding records journal w) :
    Keeps J (EvidenceStore.reconcileHead site) (fun _ t => Holding records journal t) w := by
  apply keeps_disk_bind
  apply keeps_now_bind
  apply keeps_lift_bind (rules.tick w holds)
  intro head _
  exact rules.placeHead (rules.tick w holds) at_ head

theorem advanceHead (rules : Discipline site J admits) (holds : J w)
    (at_ : Holding records journal w) (before : List EvidenceRecord) :
    Keeps J (EvidenceStore.advanceHead site before) (fun _ t => Holding records journal t) w := by
  apply keeps_disk_bind
  apply keeps_now_bind
  apply keeps_lift_bind (rules.tick w holds)
  intro head _
  exact rules.placeHead (rules.tick w holds) at_ head

/-- The record is in the log, sealed. -/
def Logged (journal : Option JournalOperation) (record : EvidenceRecord) (stored : EvidenceRecord)
    (w : World) : Prop :=
  ∃ records, Holding records journal w ∧ stored ∈ records ∧ stored.comparable = record.comparable

theorem writeRecord (rules : Discipline site J admits) (holds : J w)
    (at_ : Holding records journal w) {record : EvidenceRecord}
    (admitted : admits records journal record) :
    Keeps J (EvidenceStore.writeRecord site record) (Logged journal record) w := by
  obtain ⟨rfl, rfl⟩ := at_
  apply keeps_disk_bind
  apply keeps_lift_bind holds
  intro _ _
  apply (keeps_save (Q := fun _ t => Holding (w.disk.records ++
    [record.sealed site.digests (EvidenceLog.headHash w.disk.records)]) w.disk.journal t) holds
    (rules.appended w record _ holds admitted) ⟨rfl, rfl⟩).bind
  intro _ t later same
  apply (rules.advanceHead later same _).bind
  intro _ u last still
  exact keeps_pure last ⟨_, still, by simp, rfl⟩

theorem append (rules : Discipline site J admits) (holds : J w)
    (at_ : Holding records journal w) {record : EvidenceRecord}
    (admitted : admits records journal record) :
    Keeps J (EvidenceStore.append site record) (Logged journal record) w := by
  apply keeps_lift_bind holds
  intro _ _
  apply keeps_disk_bind
  apply keeps_lift_bind holds
  intro _ _
  apply (rules.reconcileHead holds at_).bind
  intro _ t later same
  exact rules.writeRecord later same admitted

theorem appendIdempotent (rules : Discipline site J admits) (holds : J w)
    (at_ : Holding records journal w) {record : EvidenceRecord}
    (admitted : admits records journal record) :
    Keeps J (EvidenceStore.appendIdempotent site record) (Logged journal record) w := by
  apply keeps_lift_bind holds
  intro _ _
  apply keeps_disk_bind
  apply keeps_lift_bind holds
  intro _ _
  apply (rules.reconcileHead holds at_).bind
  intro _ t later same
  split
  next present found =>
    apply keeps_lift_bind later
    intro _ matching
    rw [at_.1] at found
    refine keeps_pure later ⟨records, same, List.mem_of_find?_eq_some found, ?_⟩
    simpa using matching
  next => exact rules.writeRecord later same admitted

/-! ### The journal -/

theorem active_bind {β : Type} {f : Option JournalOperation → Control β} {R : β → World → Prop}
    (holds : J w) (rest : Keeps J (f w.disk.journal) R w) :
    Keeps J (OperationJournal.active site >>= f) R w := by
  apply Keeps.bind (Q := fun waiting t => waiting = w.disk.journal ∧ t = w)
  · apply keeps_disk_bind
    split
    next idle => exact keeps_pure holds ⟨idle.symm, rfl⟩
    next operation active =>
      apply keeps_lift_bind holds
      intro _ _
      exact keeps_pure holds ⟨active.symm, rfl⟩
  · rintro _ _ - ⟨rfl, rfl⟩
    exact rest

theorem prepares (rules : Discipline site J admits) (holds : J w)
    (at_ : Holding records none w) {payload : OperationPayload} {evidence : EvidenceRecord}
    (admitted : admits records none evidence) :
    Keeps J (OperationJournal.prepare site payload evidence) (fun operation t =>
      Holding records (some operation) t ∧ operation.evidence = evidence) w := by
  obtain ⟨rfl, idle⟩ := at_
  apply keeps_lift_bind holds
  intro _ _
  apply keeps_lift_bind holds
  intro _ _
  apply keeps_newId_bind
  apply keeps_now_bind
  have drawn : J w.drawn.ticked := rules.tick _ (rules.draw w holds)
  apply active_bind drawn
  rw [show w.drawn.ticked.disk.journal = none from idle]
  apply keeps_lift_bind drawn
  intro _ _
  apply keeps_disk_bind
  apply (keeps_save (Q := fun _ t => Holding w.disk.records (some _) t) drawn
    (rules.prepared _ ⟨_, _, payload, evidence⟩ drawn idle admitted) ⟨rfl, rfl⟩).bind
  intro _ t later same
  exact keeps_pure later ⟨same, rfl⟩

theorem completes (rules : Discipline site J admits) (holds : J w)
    {operation : JournalOperation} (at_ : Holding records (some operation) w)
    (logged : ∃ record ∈ records, record.comparable = operation.evidence.comparable)
    {operationId : String} :
    Keeps J (OperationJournal.complete site operationId) (fun _ t => Idle t) w := by
  obtain ⟨rfl, active⟩ := at_
  apply active_bind holds
  rw [active]
  apply keeps_lift_bind holds
  intro _ _
  apply keeps_disk_bind
  exact keeps_save holds (rules.completed w operation holds active logged) rfl

/-! ### Recovery -/

theorem recoverApprovalCreate (rules : Discipline site J admits) (holds : J w)
    (at_ : Holding records journal w) {approval : PendingApproval} {reserved : Decimal} :
    Keeps J (Harness.recoverApprovalCreate site approval reserved)
      (fun _ t => Holding records journal t) w := by
  apply (rules.ifFunded holds at_).bind
  intro _ t later same
  apply (rules.onApprovals later same).bind
  intro _ u last still
  exact keeps_pure last still

theorem recoverApprovalReject (rules : Discipline site J admits) (holds : J w)
    (at_ : Holding records journal w) {approvalId actionId requestId : String} {reserved : Decimal}
    {decidedBy note : String} {attestation : Option OperatorAttestation} :
    Keeps J (Harness.recoverApprovalReject site approvalId actionId requestId reserved decidedBy note
      attestation) (fun _ t => Holding records journal t) w := by
  apply keeps_disk_bind
  apply keeps_lift_bind holds
  intro _ _
  apply (rules.onApprovals holds at_).bind
  intro _ t later same
  exact rules.ifFunded later same

theorem recoverApprovalExpire (rules : Discipline site J admits) (holds : J w)
    (at_ : Holding records journal w) {approvalId actionId requestId : String}
    {reserved : Decimal} :
    Keeps J (Harness.recoverApprovalExpire site approvalId actionId requestId reserved)
      (fun _ t => Holding records journal t) w := by
  apply keeps_disk_bind
  apply keeps_lift_bind holds
  intro _ _
  apply (rules.onApprovals holds at_).bind
  intro _ t later same
  exact rules.ifFunded later same

theorem recoverAuthorizationReconcile (rules : Discipline site J admits) (holds : J w)
    (at_ : Holding records journal w) {subject : AuthorizationReconciliationSubject}
    {reserved : Decimal} {outcome : Outcome} {reconciledBy note recordId : String}
    {attestation : Option AuthorizationAttestation} :
    Keeps J (Harness.recoverAuthorizationReconcile site subject reserved outcome reconciledBy note
      attestation recordId) (fun _ t => Holding records journal t) w := by
  apply keeps_disk_bind
  apply keeps_now_bind
  apply keeps_lift_bind (rules.tick w holds)
  intro _ _
  apply (rules.onLedger (rules.tick w holds) at_).bind
  intro _ t later same
  exact keeps_pure later same

theorem settleCompletion (rules : Discipline site J admits) (holds : J w)
    (at_ : Holding records journal w) {subject : ExecutionCompletionSubject}
    {reserved actual : Decimal} {disposition : BudgetDisposition} {recordId : String} :
    Keeps J (Harness.settleCompletion site subject reserved actual disposition recordId)
      (fun _ t => Holding records journal t) w := by
  cases disposition with
  | settle =>
    apply (rules.onLedger holds at_).bind
    intro _ t later same
    exact keeps_pure later same
  | none =>
    apply keeps_disk_bind
    apply keeps_lift_bind holds
    intro _ _
    exact keeps_lift holds fun _ _ => at_

theorem consumeCompleted (rules : Discipline site J admits) (holds : J w)
    (at_ : Holding records journal w) {approvalId recordId : String} :
    Keeps J (Harness.consumeCompleted site approvalId recordId)
      (fun _ t => Holding records journal t) w := by
  apply keeps_ite
  · intro _
    apply (rules.onApprovals holds at_).bind
    intro _ t later same
    exact keeps_pure later same
  · intro _
    exact keeps_pure holds at_

/-- A replay leaves the prepared record in the log. -/
def Replays (operation : JournalOperation) (w : World) : Prop :=
  ∃ records, Holding records (some operation) w ∧
    ∃ record ∈ records, record.comparable = operation.evidence.comparable

private theorem Logged.replays {operation : JournalOperation} {stored : EvidenceRecord} {t : World}
    (logged : Logged (some operation) operation.evidence stored t) : Replays operation t := by
  obtain ⟨records, same, member, matching⟩ := logged
  exact ⟨records, same, stored, member, matching⟩

/-- The rest of a replay that has reached its evidence. -/
private theorem appendPrepared (rules : Discipline site J admits) (holds : J w)
    {operation : JournalOperation} (at_ : Holding records (some operation) w) :
    Keeps J (do
      let _ ← EvidenceStore.appendIdempotent site operation.evidence
      pure () : Control Unit) (fun _ t => Replays operation t) w := by
  obtain ⟨rfl, active⟩ := at_
  apply (rules.appendIdempotent holds ⟨rfl, active⟩ (rules.active w operation holds active)).bind
  intro stored t later logged
  exact keeps_pure later logged.replays

theorem replay (rules : Discipline site J admits) (holds : J w)
    {operation : JournalOperation} (at_ : Holding records (some operation) w) :
    Keeps J (Harness.replay site operation) (fun _ t => Replays operation t) w := by
  unfold Harness.replay
  split
  next =>
    apply (rules.recoverApprovalCreate holds at_).bind
    intro _ t later same
    exact rules.appendPrepared later same
  next =>
    apply (rules.recoverApprovalReject holds at_).bind
    intro _ t later same
    exact rules.appendPrepared later same
  next =>
    apply (rules.recoverApprovalExpire holds at_).bind
    intro _ t later same
    exact rules.appendPrepared later same
  next =>
    apply (rules.recoverAuthorizationReconcile holds at_).bind
    intro _ t later same
    exact rules.appendPrepared later same
  next =>
    -- a completion consumes its approval after the evidence
    apply keeps_disk_bind
    apply keeps_now_bind
    have ticked := rules.tick w holds
    apply keeps_lift_bind ticked
    intro _ _
    apply (rules.settleCompletion ticked at_).bind
    intro _ t later same
    obtain ⟨rfl, active⟩ := same
    apply (rules.appendIdempotent later ⟨rfl, active⟩ (rules.active t operation later active)).bind
    intro stored u last logged
    obtain ⟨found, still, member, matching⟩ := logged
    apply (rules.consumeCompleted last still).mono
    intro _ v _ kept
    exact ⟨found, kept, stored, member, matching⟩

theorem recoverPrepared (rules : Discipline site J admits) (holds : J w)
    {operation : JournalOperation} (at_ : Holding records (some operation) w) :
    Keeps J (Harness.recoverPrepared site operation) (fun _ t => Idle t) w := by
  apply keeps_disk_bind
  apply keeps_lift_bind holds
  intro _ _
  apply keeps_lift_bind holds
  intro _ _
  apply (rules.replay holds at_).bind
  rintro _ t later ⟨found, same, logged⟩
  exact rules.completes later same logged

theorem recoverOperation (rules : Discipline site J admits) (holds : J w) :
    Keeps J (Harness.recoverOperation site) (fun _ t => Idle t) w := by
  apply active_bind holds
  split
  next idle => exact keeps_pure holds idle
  next operation active =>
    apply (rules.recoverPrepared holds ⟨rfl, active⟩).bind
    intro _ t later idle
    exact keeps_pure later idle

theorem commit (rules : Discipline site J admits) (holds : J w) (idle : Idle w)
    {payload : OperationPayload} {evidence : EvidenceRecord}
    (admitted : admits w.disk.records none evidence) :
    Keeps J (Harness.commit site payload evidence) (fun _ t => Idle t) w := by
  apply (rules.prepares holds ⟨rfl, idle⟩ admitted).bind
  rintro operation t later ⟨same, -⟩
  exact rules.recoverPrepared later same

theorem requireSafe (rules : Discipline site J admits) (holds : J w)
    (at_ : Holding records journal w) :
    Keeps J (Harness.requireSafe site) (fun _ t => Holding records journal t) w := by
  apply keeps_get_bind
  apply keeps_now_bind
  exact keeps_lift (rules.tick w holds) fun _ _ => at_

/-! ### Decisions -/

variable {harness : Harness} {action : ProposedAction} {request : HarnessRequest}

theorem controlDecision (rules : Discipline site J admits) (holds : J w)
    (at_ : Holding records journal w) {reason policyId : String}
    {extraInputs : List (String × Json)} :
    Keeps J (harness.controlDecision site action reason policyId extraInputs)
      (fun _ t => Holding records journal t) w := by
  apply keeps_now_bind
  apply keeps_lift_bind (rules.tick w holds)
  intro _ _
  exact keeps_pure (rules.tick w holds) at_

/-- What a new record takes from the call that makes it. -/
structure Made (site : Deployment) (action : ProposedAction) (status : ResultStatus)
    (details : RecordDetails) (record : EvidenceRecord) : Prop where
  own : record.actionId = action.actionId
  hash : record.authorizationHash = action.authorizationHash site.digests
  status : record.resultStatus = status
  approver : record.approvedBy = details.approvedBy
  output : record.outputHash = (details.result.map (site.digests.output ·.output)).getD ""

/-- A new record is made without a write, by an invariant that ignores the cache. -/
theorem makeRecord (rules : Discipline site J admits) (bases : ∀ w cache, J w → J { w with bases := cache })
    {decision : GuardrailDecision} {status : ResultStatus} {details : RecordDetails} (holds : J w) :
    Keeps J (harness.makeRecord site action request decision status details)
      (fun record t => t.disk = w.disk ∧ Made site action status details record) w := by
  have remember : ∀ basis, Keeps J (Harness.rememberBasis action.actionId basis)
      (fun _ t => t.disk = w.disk) w := fun basis =>
    keeps_of_ok rfl (bases w _ holds) rfl
  -- the basis is remembered whether it was cached or read from the log
  have lookup : Keeps J (harness.basisForAction action.actionId)
      (fun _ t => t.disk = w.disk) w := by
    apply keeps_get_bind
    split
    next known _ => exact remember known.2
    next => exact remember _
  apply lookup.bind
  intro basis t later disk
  apply keeps_now_bind
  apply keeps_disk_bind
  have ticked := rules.tick t later
  apply keeps_lift_bind ticked
  intro remaining _
  apply keeps_newId_bind
  have drawn := rules.draw _ ticked
  apply keeps_lift_bind drawn
  intro _ _
  exact keeps_pure drawn ⟨disk, rfl, rfl, rfl, rfl, rfl⟩

end Discipline

/-- The notes of a process are allowed, and the records that it makes with these details are
admitted. -/
structure Drafts (site : Deployment) (harness : Harness) (J : World → Prop)
    (admits : List EvidenceRecord → Option JournalOperation → EvidenceRecord → Prop)
    (drafts : RecordDetails → Prop) : Prop where
  note : ∀ w event, J w → Ordinary event → J (w.noted event)
  make : ∀ w action request decision status details, J w → Idle w → drafts details →
    Keeps J (harness.makeRecord site action request decision status details)
      (fun record t => t.disk = w.disk ∧ admits w.disk.records none record) w

namespace Drafts

open Control

variable {site : Deployment} {harness : Harness} {J : World → Prop}
  {admits : List EvidenceRecord → Option JournalOperation → EvidenceRecord → Prop}
  {drafts : RecordDetails → Prop} {w : World} {action : ProposedAction} {request : HarnessRequest}
  {decision : GuardrailDecision} {details : RecordDetails} {records : List EvidenceRecord}
  {journal : Option JournalOperation}

/-- Fewer details are admitted no less. -/
theorem narrow (made : Drafts site harness J admits drafts) {fewer : RecordDetails → Prop}
    (within : ∀ details, fewer details → drafts details) : Drafts site harness J admits fewer where
  note := made.note
  make w action request decision status details holds idle drafted :=
    made.make w action request decision status details holds idle (within details drafted)

theorem evaluate (made : Drafts site harness J admits drafts)
    (rules : Discipline site J admits) (holds : J w) (at_ : Holding records journal w) :
    Keeps J (harness.evaluate site action request) (fun _ t => Holding records journal t) w := by
  apply keeps_now_bind
  have ticked := rules.tick w holds
  apply keeps_lift_bind ticked
  intro decision _
  apply keeps_lift_bind ticked
  intro _ _
  apply keeps_note_bind
  exact keeps_pure (made.note _ _ ticked trivial) at_

theorem resumeDecision (made : Drafts site harness J admits drafts)
    (rules : Discipline site J admits) (holds : J w) (at_ : Holding records journal w) :
    Keeps J (harness.resumeDecision site action request)
      (fun _ t => Holding records journal t) w := by
  unfold Harness.resumeDecision
  split
  next => exact rules.controlDecision holds at_
  next =>
    apply keeps_ite
    · intro _
      exact rules.controlDecision holds at_
    · intro _
      exact made.evaluate rules holds at_

theorem currentDecision (made : Drafts site harness J admits drafts)
    (rules : Discipline site J admits) (holds : J w) (at_ : Holding records journal w)
    {original : GuardrailDecision} :
    Keeps J (harness.currentDecision site action request original)
      (fun _ t => Holding records journal t) w := by
  have blocked : ∀ {reason policyId : String} {extraInputs : List (String × Json)},
      Keeps J (harness.controlDecision site action reason policyId extraInputs)
        (fun _ t => Holding records journal t) w := rules.controlDecision holds at_
  unfold Harness.currentDecision
  split
  next => exact blocked
  next => exact made.resumeDecision rules holds at_

theorem record (made : Drafts site harness J admits drafts) (rules : Discipline site J admits)
    (holds : J w) (idle : Idle w) (drafted : drafts details) {status : ResultStatus} :
    Keeps J (harness.record site action request decision status details) (fun _ t => Idle t) w := by
  apply (made.make w action request decision status details holds idle drafted).bind
  rintro record t later ⟨disk, admitted⟩
  have at_ : Holding w.disk.records none t := ⟨by rw [disk], by rw [disk]; exact idle⟩
  apply (rules.append later at_ admitted).mono
  rintro _ u _ ⟨_, same, -⟩
  exact same.2

theorem refuse (made : Drafts site harness J admits drafts) (rules : Discipline site J admits)
    (holds : J w) (idle : Idle w) (drafted : drafts { detail := decision.reason }) :
    Keeps J (harness.refuse site action request decision) (fun _ t => Idle t) w := by
  apply (made.record rules holds idle drafted).bind
  intro _ t later still
  exact keeps_pure later still

theorem authorizeExternal (made : Drafts site harness J admits drafts)
    (rules : Discipline site J admits) (holds : J w) (idle : Idle w) {approvedBy : Option String}
    {approvalId : String}
    (drafted : ∀ details, details.approvedBy = approvedBy → details.result = none → drafts details) :
    Keeps J (harness.authorizeExternal site action request decision approvedBy approvalId)
      (fun _ t => Idle t) w := by
  apply (made.record rules holds idle (drafted _ rfl rfl)).bind
  intro _ t later still
  exact keeps_pure later still

theorem completeKnownResult (made : Drafts site harness J admits drafts)
    (rules : Discipline site J admits) (holds : J w) (idle : Idle w) {approvedBy : Option String}
    {approvalId : String} {authorization : EvidenceRecord} {result : ToolResult}
    {estimate : Decimal} (drafted : ∀ details, details.approvedBy = approvedBy → drafts details) :
    Keeps J (harness.completeKnownResult site authorization action request decision result estimate
      approvedBy approvalId) (fun _ t => Idle t) w := by
  apply keeps_lift_bind holds
  intro _ _
  apply keeps_disk_bind
  apply keeps_note_bind
  have noted := made.note w (.completing request.requestId action.actionId estimate
    (Harness.actualCost result estimate) w.disk) holds trivial
  apply keeps_lift_bind noted
  intro remaining _
  apply (made.make _ action request decision _ _ noted idle (drafted _ rfl)).bind
  rintro record t later ⟨disk, admitted⟩
  apply keeps_lift_bind later
  intro subject _
  have still : Idle t := by
    unfold Idle
    rw [disk]
    exact idle
  -- the record was drafted against the log that the commit finds
  have same : t.disk.records = w.disk.records := congrArg Disk.records disk
  apply (rules.commit later still (by rw [same]; exact admitted)).bind
  intro _ u last kept
  exact keeps_pure last kept

theorem dispatch (dispatches : Dispatches J) (holds : J w) (idle : Idle w)
    {grant : CapabilityGrant} :
    Keeps J (harness.dispatch site action grant) (fun _ t => Idle t) w := by
  apply keeps_lift_bind holds
  intro spec _
  apply keeps_ite
  · intro _
    exact keeps_pure holds idle
  · intro _
    apply keeps_disk_bind
    apply keeps_note_bind
    exact keeps_lift (dispatches w action holds) fun _ _ => idle

theorem execute (made : Drafts site harness J admits drafts) (rules : Discipline site J admits)
    (dispatches : Dispatches J) (holds : J w) (idle : Idle w) {approvedBy : Option String} {approvalId : String}
    {estimate : Decimal} (drafted : ∀ details, details.approvedBy = approvedBy → drafts details) :
    Keeps J (harness.execute site action request decision estimate approvedBy approvalId)
      (fun _ t => Idle t) w := by
  apply (made.record rules holds idle (drafted _ rfl)).bind
  intro authorization t later still
  apply keeps_now_bind
  apply keeps_newId_bind
  have drawn : J t.ticked.drawn := rules.draw _ (rules.tick _ later)
  apply keeps_lift_bind drawn
  intro grant _
  apply (dispatch dispatches drawn still).bind
  intro result u after kept
  apply (made.completeKnownResult rules after kept drafted).bind
  intro final v last done
  exact keeps_pure last done

theorem releaseReservation (rules : Discipline site J admits) (holds : J w) (idle : Idle w)
    {approval : PendingApproval} :
    Keeps J (Harness.releaseReservation site approval) (fun _ t => Idle t) w := by
  apply keeps_disk_bind
  apply keeps_lift_bind holds
  intro live _
  apply (rules.ifFunded holds ⟨rfl, idle⟩).mono
  intro _ t _ same
  exact same.2

theorem closeBlocked (made : Drafts site harness J admits drafts) (rules : Discipline site J admits)
    (holds : J w) (idle : Idle w) {approval : PendingApproval} {approvedBy : Option String}
    (drafted : ∀ details, details.approvedBy = approvedBy → details.result = none → drafts details) :
    Keeps J (harness.closeBlocked site approval action request decision approvedBy)
      (fun _ t => Idle t) w := by
  apply (releaseReservation rules holds idle).bind
  intro _ t later still
  apply (made.record rules later still (drafted _ rfl rfl)).bind
  intro _ u after kept
  apply (rules.onApprovals after ⟨rfl, kept⟩).bind
  intro _ v last same
  exact keeps_pure last same.2

/-! ### Expiry and the checks of every entry point -/

theorem expireApproval (made : Drafts site harness J admits drafts)
    (rules : Discipline site J admits) (holds : J w) (idle : Idle w) {approval : PendingApproval}
    (drafted : ∀ details, details.approvedBy = none → details.result = none → drafts details) :
    Keeps J (harness.expireApproval site approval) (fun _ t => Idle t) w := by
  unfold Harness.expireApproval
  split
  next =>
    apply keeps_ite
    · intro _
      exact keeps_pure holds idle
    · intro _
      exact keeps_raise holds
  next =>
    apply keeps_disk_bind
    apply keeps_lift_bind holds
    intro remaining _
    apply (made.make w _ _ _ _ _ holds idle (drafted _ rfl rfl)).bind
    rintro record t later ⟨disk, admitted⟩
    have still : Idle t := by
      unfold Idle
      rw [disk]
      exact idle
    have same : t.disk.records = w.disk.records := congrArg Disk.records disk
    apply (rules.commit later still (by rw [same]; exact admitted)).bind
    intro _ u last kept
    exact keeps_pure last kept

theorem reconcileExpiredApprovals (made : Drafts site harness J admits drafts)
    (rules : Discipline site J admits) (holds : J w)
    (drafted : ∀ details, details.approvedBy = none → details.result = none → drafts details) :
    Keeps J (harness.reconcileExpiredApprovals site) (fun _ t => Idle t) w := by
  apply (rules.recoverOperation holds).bind
  intro _ t later idle
  apply (rules.requireSafe later ⟨rfl, idle⟩).bind
  intro _ u after same
  apply keeps_disk_bind
  apply keeps_now_bind
  have still : Idle u.ticked := same.2
  apply (keeps_each _ (P := Idle) ?_ (rules.tick u after) still).bind
  · intro _ v last kept
    exact keeps_pure last kept
  · intro approval v last kept
    exact made.expireApproval rules last kept drafted

theorem settleAndCheck (made : Drafts site harness J admits drafts)
    (rules : Discipline site J admits) (holds : J w)
    (drafted : ∀ details, details.approvedBy = none → details.result = none → drafts details) :
    Keeps J (harness.settleAndCheck site) (fun _ t => Idle t) w := by
  apply (rules.recoverOperation holds).bind
  intro _ t later _
  apply (made.reconcileExpiredApprovals rules later drafted).bind
  intro _ u after idle
  apply (rules.requireSafe after ⟨rfl, idle⟩).mono
  intro _ v _ same
  exact same.2

end Drafts
end DefiantHarness
