import DefiantHarness.JournalOrder

/-! What an entry point leaves when it returns: no waiting operation, and evidence of its outcome
under the id that the outcome names. -/
namespace Foundation.Proc

variable {σ ε α : Type} {J K : σ → Prop} {p : Proc σ ε α} {Q : α → σ → Prop} {s : σ}

/-- A stronger invariant also holds at a normal end. -/
theorem Keeps.weaken (keeps : Keeps K p Q s) (weaker : ∀ t, K t → J t) :
    Keeps J p (fun a t => K t ∧ Q a t) s := by
  apply Ends.mono keeps
  · rintro a t ⟨holds, ended⟩
    exact ⟨weaker t holds, holds, ended⟩
  · exact fun _ t holds => weaker t holds

end Foundation.Proc

namespace DefiantHarness

open Foundation Proc

/-- The log has a record of the action with this id and this status. -/
def Backed (actionId authorizationHash : String) (status : ResultStatus) (recordId : String)
    (w : World) : Prop :=
  ∃ record ∈ w.disk.records, record.recordId = recordId ∧ record.actionId = actionId ∧
    record.authorizationHash = authorizationHash ∧ record.resultStatus = status

/-- The outcome is backed by the record that it names. -/
def ActionOutcome.Backed (site : Deployment) (outcome : ActionOutcome) (w : World) : Prop :=
  DefiantHarness.Backed outcome.action.actionId (outcome.action.authorizationHash site.digests)
    outcome.status outcome.evidenceRecordId w

def AuthorizationReconciliationOutcome.Backed (outcome : AuthorizationReconciliationOutcome)
    (w : World) : Prop :=
  ∃ hash, DefiantHarness.Backed outcome.actionId hash outcome.status outcome.evidenceRecordId w

/-- The log still has these records. -/
def Keeping (kept : List EvidenceRecord) (w : World) : Prop := kept ⊆ w.disk.records

namespace Settling

open Control Discipline

variable {site : Deployment} {harness : Harness} {w : World} {action : ProposedAction}
  {request : HarnessRequest} {decision original : GuardrailDecision} {kept : List EvidenceRecord}
  {status : ResultStatus} {approvalId executionOwner executionKey : String}

/-- The discipline asks nothing of new records. -/
def Admitted (_ : List EvidenceRecord) (_ : Option JournalOperation) (_ : EvidenceRecord) :
    Prop := True

theorem rules (site : Deployment) (kept : List EvidenceRecord) :
    Discipline site (Keeping kept) Admitted where
  tick _ holds := holds
  draw _ holds := holds
  quiet w disk holds same _ := by
    unfold Keeping at holds ⊢
    rw [World.saved_disk, same]
    exact holds
  appended _ _ _ holds _ := List.subset_append_of_subset_left _ holds
  prepared _ _ holds _ _ := holds
  completed _ _ holds _ _ := holds
  active _ _ _ _ := trivial

theorem drafts (site : Deployment) (harness : Harness) (kept : List EvidenceRecord) :
    EntryDrafts site harness (Keeping kept) Admitted where
  rules := rules site kept
  made := {
    note := fun _ _ holds _ => holds
    make := by
      intro w action request decision status details holds _ _
      apply ((rules site kept).makeRecord (fun _ _ holds => holds) holds).mono
      rintro record t _ ⟨disk, -⟩
      exact ⟨disk, trivial⟩ }
  claim _ _ _ holds := holds
  remember _ _ holds _ := keeps_of_ok rfl holds rfl
  reconciled _ _ _ _ _ _ _ _ _ _ _ _ := trivial

theorem dispatches (kept : List EvidenceRecord) : Dispatches (Keeping kept) :=
  fun _ _ holds => holds

/-- Nothing is asked of the world; what counts is how a normal end leaves it. -/
abbrev Anything : World → Prop := Keeping []

theorem anything (w : World) : Anything w := List.nil_subset _

theorem keeping_one {record : EvidenceRecord} : Keeping [record] w ↔ record ∈ w.disk.records := by
  simp [Keeping]

/-- What keeps every record keeps the backing of an outcome. -/
private theorem still_backed {α : Type} {p : Control α} {Q : α → World → Prop}
    {actionId hash recordId : String} (backed : Backed actionId hash status recordId w)
    (keeps : ∀ record, Keeping [record] w → Keeps (Keeping [record]) p Q w) :
    Keeps Anything p (fun a t => Backed actionId hash status recordId t ∧ Q a t) w := by
  obtain ⟨record, member, rest⟩ := backed
  have holds : Keeping [record] w := keeping_one.2 member
  apply ((keeps record holds).weaken fun t _ => anything t).mono
  rintro a t - ⟨stays, ended⟩
  exact ⟨⟨record, keeping_one.1 stays, rest⟩, ended⟩

/-- A record of the log that differs from a made one in its seal only. -/
private theorem backed_of_comparable {actionId hash : String} {record stored : EvidenceRecord}
    (own : record.actionId = actionId) (same : record.authorizationHash = hash)
    (result : record.resultStatus = status) (member : stored ∈ w.disk.records)
    (matching : stored.comparable = record.comparable) :
    stored.recordId = record.recordId ∧ Backed actionId hash status record.recordId w := by
  have id : stored.comparable.recordId = record.recordId := by rw [matching]; rfl
  have action : stored.comparable.actionId = record.actionId := by rw [matching]; rfl
  have authorized : stored.comparable.authorizationHash = record.authorizationHash := by
    rw [matching]; rfl
  have ended : stored.comparable.resultStatus = record.resultStatus := by rw [matching]; rfl
  exact ⟨id, stored, member, id, action.trans own, authorized.trans same, ended.trans result⟩

/-! ### Appending and committing -/

private theorem makes {details : RecordDetails} :
    Keeps Anything (harness.makeRecord site action request decision status details)
      (fun record t => t.disk = w.disk ∧ Made site action status details record) w :=
  (rules site []).makeRecord (fun t _ _ => anything t) (anything w)

private theorem idle_of_same {t : World} (idle : Idle w) (disk : t.disk = w.disk) : Idle t := by
  unfold Idle
  rw [disk]
  exact idle

private theorem appends {details : RecordDetails} (idle : Idle w) :
    Keeps Anything (harness.record site action request decision status details)
      (fun stored t => Idle t ∧ Backed action.actionId (action.authorizationHash site.digests) status
        stored.recordId t ∧ stored.resultStatus = status) w := by
  apply makes.bind
  rintro record t - ⟨disk, made⟩
  have at_ : Holding t.disk.records none t := ⟨rfl, idle_of_same idle disk⟩
  apply ((rules site []).append (anything t) at_ trivial).mono
  rintro stored u - ⟨log, same, member, matching⟩
  rw [← same.1] at member
  obtain ⟨id, backed⟩ := backed_of_comparable made.own made.hash made.status member matching
  have ended : stored.comparable.resultStatus = record.resultStatus := by rw [matching]; rfl
  exact ⟨same.2, id ▸ backed, ended.trans made.status⟩

/-- A committed operation leaves its evidence in the log. -/
private theorem commits {payload : OperationPayload} {evidence : EvidenceRecord} (idle : Idle w) :
    Keeps Anything (Harness.commit site payload evidence) (fun _ t => Idle t ∧
      ∃ stored ∈ t.disk.records, stored.comparable = evidence.comparable) w := by
  apply ((rules site []).prepares (anything w) ⟨rfl, idle⟩ trivial).bind
  rintro operation t - ⟨same, rfl⟩
  apply keeps_disk_bind
  apply keeps_lift_bind (anything t)
  intro _ _
  apply keeps_lift_bind (anything t)
  intro _ _
  apply ((rules site []).replay (anything t) same).bind
  rintro _ u - ⟨found, held, stored, member, matching⟩
  have standing : Keeping [stored] u := by
    rw [keeping_one, held.1]
    exact member
  apply (((rules site [stored]).completes standing held ⟨stored, member, matching⟩).weaken
    fun v _ => anything v).mono
  rintro _ v - ⟨stays, done⟩
  exact ⟨done, stored, keeping_one.1 stays, matching⟩

private theorem refuses (idle : Idle w) :
    Keeps Anything (harness.refuse site action request decision)
      (fun outcome t => Idle t ∧ outcome.Backed site t) w := by
  apply (appends idle).bind
  rintro record t - ⟨still, backed, -⟩
  exact keeps_pure (anything t) ⟨still, backed⟩

private theorem authorizes {approvedBy : Option String} (idle : Idle w) :
    Keeps Anything (harness.authorizeExternal site action request decision approvedBy approvalId)
      (fun outcome t => Idle t ∧ outcome.Backed site t) w := by
  apply (appends idle).bind
  rintro record t - ⟨still, backed, -⟩
  exact keeps_pure (anything t) ⟨still, backed⟩

private theorem completesResult {authorization : EvidenceRecord} {result : ToolResult}
    {estimate : Decimal} {approvedBy : Option String} (idle : Idle w) :
    Keeps Anything (harness.completeKnownResult site authorization action request decision result
      estimate approvedBy approvalId) (fun record t => Idle t ∧
        record.resultStatus = result.status.result ∧ Backed action.actionId
          (action.authorizationHash site.digests) record.resultStatus record.recordId t) w := by
  apply keeps_lift_bind (anything w)
  intro _ _
  apply keeps_disk_bind
  apply keeps_note_bind
  apply keeps_lift_bind (anything _)
  intro remaining _
  apply makes.bind
  rintro record t - ⟨disk, made⟩
  apply keeps_lift_bind (anything t)
  intro subject _
  apply (commits (idle_of_same idle disk)).bind
  rintro _ u - ⟨done, stored, member, matching⟩
  obtain ⟨-, backed⟩ := backed_of_comparable made.own made.hash rfl member matching
  exact keeps_pure (anything u) ⟨done, made.status, backed⟩

private theorem executes {estimate : Decimal} {approvedBy : Option String} (idle : Idle w) :
    Keeps Anything (harness.execute site action request decision estimate approvedBy approvalId)
      (fun outcome t => Idle t ∧ outcome.Backed site t) w := by
  apply (appends idle).bind
  rintro authorization t - ⟨still, -⟩
  apply keeps_now_bind
  apply keeps_newId_bind
  apply keeps_lift_bind (anything _)
  intro grant _
  have quiet : Idle t.ticked.drawn := still
  apply (Drafts.dispatch (dispatches []) (anything _) quiet).bind
  intro result u _ waiting
  apply (completesResult waiting).bind
  rintro final v - ⟨done, -, backed⟩
  exact keeps_pure (anything v) ⟨done, backed⟩

/-! ### Proposals -/

private theorem holds_ {estimate : Decimal} (idle : Idle w) :
    Keeps Anything (harness.hold site action request decision estimate executionOwner executionKey)
      (fun outcome t => Idle t ∧ outcome.Backed site t) w := by
  apply keeps_newId_bind
  apply keeps_now_bind
  apply keeps_lift_bind (anything _)
  intro pending _
  apply keeps_disk_bind
  apply keeps_lift_bind (anything _)
  intro balance _
  apply keeps_lift_bind (anything _)
  intro remaining _
  apply makes.bind
  rintro record t - ⟨disk, made⟩
  have quiet : Idle w.drawn.ticked := idle
  apply (commits (idle_of_same quiet disk)).bind
  rintro _ u - ⟨done, stored, member, matching⟩
  obtain ⟨-, backed⟩ := backed_of_comparable made.own made.hash made.status member matching
  exact keeps_pure (anything u) ⟨done, backed⟩

private theorem proceeds {estimate : Decimal} {external : Bool} (idle : Idle w) :
    Keeps Anything (harness.proceed site action request decision estimate external)
      (fun outcome t => Idle t ∧ outcome.Backed site t) w := by
  apply ((rules site []).ifFunded (anything w) ⟨rfl, idle⟩).bind
  rintro _ t - ⟨-, still⟩
  apply keeps_ite
  · exact fun _ => authorizes still
  · exact fun _ => executes still

private theorem funds {external : Bool} (idle : Idle w) :
    Keeps Anything
      (harness.fund site action request decision executionOwner executionKey external)
      (fun outcome t => Idle t ∧ outcome.Backed site t) w := by
  apply ((drafts site harness []).plain.budgetRefusal (anything w) idle).bind
  intro refusal t _ still
  cases refusal with
  | some blocked => exact refuses still
  | none =>
    apply keeps_ite
    · exact fun _ => holds_ still
    · exact fun _ => proceeds still

private theorem blocks {reason policyId : String} {extraInputs : List (String × Json)}
    (idle : Idle w) :
    Keeps Anything (do
      let decision ← harness.controlDecision site action reason policyId extraInputs
      harness.refuse site action request decision)
      (fun outcome t => Idle t ∧ outcome.Backed site t) w := by
  apply ((rules site []).controlDecision (anything w) ⟨rfl, idle⟩).bind
  rintro _ t - ⟨-, still⟩
  exact refuses still

private theorem decides {external : Bool} (idle : Idle w) :
    Keeps Anything (harness.decideNew site action request executionOwner executionKey external)
      (fun outcome t => Idle t ∧ outcome.Backed site t) w := by
  have blocked : ∀ {reason policyId : String} {extraInputs : List (String × Json)},
      Keeps Anything (do
        let decision ← harness.controlDecision site action reason policyId extraInputs
        harness.refuse site action request decision)
        (fun outcome t => Idle t ∧ outcome.Backed site t) w := blocks idle
  unfold Harness.decideNew
  split
  next => exact blocked
  next =>
    split
    next => exact blocked
    next =>
      apply ((drafts site harness []).made.evaluate (rules site []) (anything w) ⟨rfl, idle⟩).bind
      rintro decision t - ⟨-, still⟩
      apply keeps_ite
      · exact fun _ => refuses still
      · exact fun _ => funds still

private theorem settles :
    Keeps Anything (harness.settleAndCheck site) (fun _ t => Idle t) w := by
  apply (drafts site harness []).made.settleAndCheck (rules site []) (anything w)
  exact fun _ _ _ => trivial

private theorem handles {external : Bool} :
    Keeps Anything (harness.handle site action request executionOwner executionKey external)
      (fun outcome t => Idle t ∧ outcome.Backed site t) w := by
  apply keeps_lift_bind (anything w)
  intro _ _
  apply keeps_lift_bind (anything w)
  intro _ _
  apply settles.bind
  intro _ t _ idle
  apply keeps_disk_bind
  apply ((drafts site harness []).remember t action.actionId (anything t) idle).bind
  intro _ u _ disk
  apply keeps_ite
  · exact fun _ => blocks (idle_of_same idle disk)
  · exact fun _ => decides (idle_of_same idle disk)

theorem proposes {call : ToolCall} {external : Bool} :
    Keeps Anything (harness.propose site call request executionOwner executionKey external)
      (fun outcome t => Idle t ∧ outcome.Backed site t) w := by
  apply keeps_lift_bind (anything w)
  intro _ _
  apply keeps_lift_bind (anything w)
  intro _ _
  apply keeps_lift_bind (anything w)
  intro _ _
  apply keeps_lift_bind (anything w)
  intro action _
  exact handles

/-! ### Approvals -/

private theorem closes_ {approval : PendingApproval} {approvedBy : Option String}
    (idle : Idle w) :
    Keeps Anything (harness.closeBlocked site approval action request decision approvedBy)
      (fun outcome t => Idle t ∧ outcome.Backed site t) w := by
  apply (Drafts.releaseReservation (rules site []) (anything w) idle).bind
  intro _ t _ still
  apply (appends still).bind
  rintro record u - ⟨waiting, backed, -⟩
  apply (still_backed backed fun kept holds =>
    (rules site [kept]).onApprovals holds ⟨rfl, waiting⟩).bind
  rintro _ v - ⟨after, same⟩
  exact keeps_pure (anything v) ⟨same.2, after⟩

private theorem rejects {pending : PendingApproval} {decidedBy note : String}
    {attestation : Option OperatorAttestation} (idle : Idle w) :
    Keeps Anything (harness.reject site pending action request original decidedBy note attestation)
      (fun outcome t => Idle t ∧ outcome.Backed site t) w := by
  apply keeps_disk_bind
  apply keeps_now_bind
  apply keeps_lift_bind (anything _)
  rintro ⟨who, why⟩ _
  apply keeps_lift_bind (anything _)
  intro remaining _
  apply makes.bind
  rintro record t - ⟨disk, made⟩
  have quiet : Idle w.ticked := idle
  apply (commits (idle_of_same quiet disk)).bind
  rintro _ u - ⟨done, stored, member, matching⟩
  obtain ⟨-, backed⟩ := backed_of_comparable made.own made.hash made.status member matching
  exact keeps_pure (anything u) ⟨done, backed⟩

private theorem carriesOut {pending : PendingApproval} {decidedBy : String} (idle : Idle w) :
    Keeps Anything (harness.carryOut site approvalId pending action request original decidedBy)
      (fun outcome t => Idle t ∧ outcome.Backed site t) w := by
  apply ((drafts site harness []).made.currentDecision (rules site []) (anything w)
    ⟨rfl, idle⟩).bind
  rintro decision t - ⟨-, still⟩
  apply ((drafts site harness []).plain.claims (anything t) still).bind
  intro _ u _ waiting
  apply keeps_ite
  · exact fun _ => closes_ waiting
  · intro _
    apply keeps_disk_bind
    apply keeps_lift_bind (anything u)
    intro estimate _
    exact executes waiting

theorem resumes {approved : Bool} {decidedBy note : String}
    {attestation : Option OperatorAttestation} :
    Keeps Anything (harness.resume site approvalId approved decidedBy note attestation)
      (fun outcome t => Idle t ∧ outcome.Backed site t) w := by
  apply keeps_lift_bind (anything w)
  intro _ _
  apply settles.bind
  intro _ t _ idle
  apply PlainDrafts.lookupApproval_bind (anything t)
  intro pending
  apply keeps_lift_bind (anything t)
  intro _ _
  apply keeps_lift_bind (anything t)
  intro _ _
  apply keeps_lift_bind (anything t)
  rintro ⟨action, request, original⟩ _
  apply keeps_ite
  · intro _
    apply ((drafts site harness []).plain.approvePending (anything t) idle).bind
    intro pending u _ still
    exact carriesOut still
  · intro _
    apply keeps_lift_bind (anything t)
    intro _ _
    exact rejects idle

private theorem resumesExternal :
    Keeps Anything (harness.resumeExternal site approvalId)
      (fun outcome t => Idle t ∧ outcome.Backed site t) w := by
  apply keeps_lift_bind (anything w)
  intro _ _
  apply settles.bind
  intro _ t _ idle
  apply PlainDrafts.lookupApproval_bind (anything t)
  intro pending
  apply keeps_lift_bind (anything t)
  intro _ _
  apply keeps_lift_bind (anything t)
  intro _ _
  apply keeps_lift_bind (anything t)
  rintro ⟨action, request, original⟩ _
  apply ((drafts site harness []).made.currentDecision (rules site []) (anything t)
    ⟨rfl, idle⟩).bind
  rintro decision u - ⟨-, still⟩
  apply ((drafts site harness []).plain.claims (anything u) still).bind
  intro _ v _ waiting
  apply keeps_ite
  · exact fun _ => closes_ waiting
  · exact fun _ => authorizes waiting

private theorem completesExternal {toolResponse : Json} :
    Keeps Anything
      (harness.completeExternalCall site action request decision toolResponse approvalId)
      (fun outcome t => Idle t ∧ outcome.Backed site t) w := by
  apply keeps_lift_bind (anything w)
  intro _ _
  apply ((rules site []).recoverOperation (anything w)).bind
  intro _ t _ idle
  apply ((rules site []).requireSafe (anything t) ⟨rfl, idle⟩).bind
  rintro _ u - ⟨-, still⟩
  apply keeps_lift_bind (anything u)
  intro _ _
  apply keeps_lift_bind (anything u)
  intro _ _
  apply keeps_disk_bind
  apply keeps_lift_bind (anything u)
  intro authorization _
  apply ((drafts site harness []).remember u action.actionId (anything u) still).bind
  intro _ v _ disk
  apply keeps_lift_bind (anything v)
  intro _ _
  apply keeps_lift_bind (anything v)
  intro approvedBy _
  apply keeps_lift_bind (anything v)
  intro estimate _
  -- the record behind the outcome is the one sealed here
  apply (completesResult (idle_of_same still disk)).bind
  rintro record x - ⟨done, status, backed⟩
  rw [status] at backed
  exact keeps_pure (anything x) ⟨done, backed⟩

/-! ### Expiry -/

private theorem expires {approval : PendingApproval} (idle : Idle w) :
    Keeps Anything (harness.expireApproval site approval)
      (fun ended t => Idle t ∧ ∀ outcome ∈ ended, outcome.Backed site t) w := by
  unfold Harness.expireApproval
  split
  next =>
    apply keeps_ite
    · exact fun _ => keeps_pure (anything w) ⟨idle, fun outcome none => nomatch none⟩
    · exact fun _ => keeps_raise (anything w)
  next =>
    apply keeps_disk_bind
    apply keeps_lift_bind (anything w)
    intro remaining _
    apply makes.bind
    rintro record t - ⟨disk, made⟩
    apply (commits (idle_of_same idle disk)).bind
    rintro _ u - ⟨done, stored, member, matching⟩
    obtain ⟨-, backed⟩ := backed_of_comparable made.own made.hash made.status member matching
    refine keeps_pure (anything u) ⟨done, ?_⟩
    rintro outcome ⟨⟩
    exact backed

/-- Every round of the loop leaves the outcomes of the rounds before it in the log. -/
private theorem expiresAll (approvals : List PendingApproval) (idle : Idle w) :
    Keeps Anything (Proc.each (harness.expireApproval site) approvals)
      (fun ended t => Idle t ∧ ∀ outcome, some outcome ∈ ended → outcome.Backed site t) w := by
  induction approvals generalizing w with
  | nil => exact keeps_pure (anything w) ⟨idle, fun outcome member => nomatch member⟩
  | cons approval rest ih =>
    apply (expires idle).bind
    rintro first t - ⟨still, backed⟩
    -- a record written for one approval is still there after the others have ended
    have stays (kept : EvidenceRecord) (holds : Keeping [kept] t) :
        Keeps (Keeping [kept]) (Proc.each (harness.expireApproval site) rest) (fun _ u => Idle u) t :=
      keeps_each rest (fun approval v later quiet => (drafts site harness [kept]).made.expireApproval
        (rules site [kept]) later quiet fun _ _ _ => trivial) holds still
    cases first with
    | none =>
      apply (ih still).bind
      rintro later u - ⟨done, each⟩
      refine keeps_pure (anything u) ⟨done, fun outcome member => ?_⟩
      exact each outcome (by simpa using member)
    | some ended =>
      apply ((ih still).along (still_backed (backed ended rfl) stays)).bind
      rintro later u - ⟨⟨done, each⟩, -, after, -⟩
      refine keeps_pure (anything u) ⟨done, fun outcome member => ?_⟩
      rcases List.mem_cons.1 member with same | member
      · cases same
        exact after
      · exact each outcome member

theorem expiresDue :
    Keeps Anything (harness.reconcileExpiredApprovals site)
      (fun outcomes t => Idle t ∧ ∀ outcome ∈ outcomes, outcome.Backed site t) w := by
  apply ((rules site []).recoverOperation (anything w)).bind
  intro _ t _ idle
  apply ((rules site []).requireSafe (anything t) ⟨rfl, idle⟩).bind
  rintro _ u - ⟨-, still⟩
  apply keeps_disk_bind
  apply keeps_now_bind
  have quiet : Idle u.ticked := still
  apply (expiresAll _ quiet).bind
  rintro ended v - ⟨done, backed⟩
  refine keeps_pure (anything v) ⟨done, fun outcome member => backed outcome ?_⟩
  simpa using member

/-! ### Reconciliation -/

private theorem backed_of_terminal {records : List EvidenceRecord} {actionId hash : String}
    {terminal : EvidenceRecord} (log : w.disk.records = records)
    (found : EvidenceLog.latestTerminal records actionId hash = some terminal) :
    Backed actionId hash terminal.resultStatus terminal.recordId w := by
  unfold EvidenceLog.latestTerminal at found
  have member := List.mem_of_find?_eq_some found
  have matches_ := List.find?_some found
  simp only [EvidenceLog.byAction, List.mem_reverse, List.mem_filter, beq_iff_eq] at member
  simp only [Bool.and_eq_true, beq_iff_eq] at matches_
  exact ⟨terminal, log ▸ member.1, rfl, member.2, matches_.1, rfl⟩

private theorem recordsOutcome {terminal : Option EvidenceRecord} {approval : PendingApproval}
    {outcome : Outcome} {budget : Reconciliation} (idle : Idle w)
    (known : ∀ record ∈ terminal, Backed action.actionId (action.authorizationHash site.digests)
      record.resultStatus record.recordId w) :
    Keeps Anything
      (harness.reconciledRecord site terminal approval action request decision outcome budget)
      (fun record t => Idle t ∧ Backed action.actionId (action.authorizationHash site.digests)
        record.resultStatus record.recordId t) w := by
  cases terminal with
  | some record => exact keeps_pure (anything w) ⟨idle, known record rfl⟩
  | none =>
    apply (appends idle).mono
    rintro stored t - ⟨still, backed, ended⟩
    exact ⟨still, ended ▸ backed⟩

private theorem reconcilesExecution {reconciledBy note : String} {outcome : Outcome}
    {attestation : Option OperatorAttestation} :
    Keeps Anything
      (harness.reconcileExecution site approvalId outcome reconciledBy note attestation)
      (fun ended t => Idle t ∧ ended.Backed site t) w := by
  apply ((rules site []).recoverOperation (anything w)).bind
  intro _ t _ idle
  apply ((rules site []).requireSafe (anything t) ⟨rfl, idle⟩).bind
  rintro _ u - ⟨-, still⟩
  apply keeps_disk_bind
  apply PlainDrafts.lookupApproval_bind (anything u)
  intro existing
  apply keeps_lift_bind (anything u)
  intro action _
  apply keeps_lift_bind (anything u)
  intro _ _
  apply keeps_lift_bind (anything u)
  intro _ _
  -- The log is still the one in which the terminal record was looked up.
  apply ((rules site []).onApprovals (anything u) ⟨rfl, still⟩).bind
  rintro approval v - ⟨log, quiet⟩
  apply keeps_lift_bind (anything v)
  intro request _
  apply keeps_lift_bind (anything v)
  intro _ _
  apply keeps_lift_bind (anything v)
  intro decision _
  apply ((rules site []).onLedger (anything v) ⟨log, quiet⟩).bind
  rintro budget x - ⟨same, waiting⟩
  apply (recordsOutcome waiting fun record found => backed_of_terminal same found).bind
  rintro record y - ⟨later, backed⟩
  apply (still_backed backed fun kept holds =>
    (rules site [kept]).onApprovals holds ⟨rfl, later⟩).bind
  rintro _ z - ⟨after, done⟩
  exact keeps_pure (anything z) ⟨done.2, after⟩

private theorem commitsReconciliation {authority : EvidenceRecord}
    {subject : AuthorizationReconciliationSubject} {outcome : Outcome} {reconciledBy note : String}
    {attestation : Option AuthorizationAttestation} (idle : Idle w)
    (own : subject.actionId = authority.actionId) :
    Keeps Anything (Harness.commitReconciliation site authority subject outcome reconciledBy note
      attestation) (fun ended t => Idle t ∧ ended.Backed t) w := by
  apply keeps_disk_bind
  apply keeps_lift_bind (anything w)
  intro expected _
  apply keeps_lift_bind (anything w)
  intro priorDebit _
  apply keeps_now_bind
  apply keeps_newId_bind
  apply keeps_lift_bind (anything _)
  intro _ _
  have quiet : Idle w.ticked.drawn := idle
  apply (commits quiet).bind
  rintro _ t - ⟨done, stored, member, matching⟩
  have backed (record : EvidenceRecord) (drafted : stored.comparable = record.comparable)
      (about : record.actionId = authority.actionId) (ended : record.resultStatus = outcome.status) :
      Backed subject.actionId record.authorizationHash outcome.status record.recordId t :=
    (backed_of_comparable (about.trans own.symm) rfl ended member drafted).2
  exact keeps_pure (anything t) ⟨done, _, backed _ matching rfl rfl⟩

private theorem reconcilesAuthorization {authorityRecordId reconciledBy note : String}
    {outcome : Outcome} {attestation : Option AuthorizationAttestation} :
    Keeps Anything (Harness.reconcileAuthorization site authorityRecordId outcome reconciledBy note
      attestation) (fun ended t => Idle t ∧ ended.Backed t) w := by
  apply ((rules site []).recoverOperation (anything w)).bind
  intro _ t _ idle
  apply ((rules site []).requireSafe (anything t) ⟨rfl, idle⟩).bind
  rintro _ u - ⟨-, still⟩
  apply keeps_lift_bind (anything u)
  intro _ _
  apply keeps_lift_bind (anything u)
  intro _ _
  apply keeps_disk_bind
  apply keeps_lift_bind (anything u)
  intro authority _
  apply keeps_lift_bind (anything u)
  intro subject read
  obtain ⟨-, -, -, -, own, -⟩ :=
    Harness.AuthorizationReconciliationSubject.fromRecord_ok read
  apply keeps_lift_bind (anything u)
  intro _ _
  apply keeps_now_bind
  apply keeps_lift_bind (anything _)
  intro _ _
  have quiet : Idle u.ticked := still
  -- an earlier reconciliation has its record already
  split
  next terminal found =>
    apply keeps_lift_bind (anything _)
    intro _ _
    exact keeps_pure (anything _) ⟨quiet, _, backed_of_terminal rfl found⟩
  next => exact commitsReconciliation quiet own

/-! ### Entry points -/

/-- The journal after a call that returned. -/
def Settled (before : Option JournalOperation) : Call → World → Prop
  | .decide _ _ _ _ _, t => t.disk.journal = before
  | _, t => Idle t

private theorem effect {α : Type} {p : Control α} {Q : α → World → Prop}
    (keeps : Keeps Anything p (fun a t => Idle t ∧ Q a t) w) :
    Keeps Anything (do let _ ← p : Control Unit) (fun _ t => Idle t) w := by
  apply keeps.bind
  rintro _ t - ⟨ended, -⟩
  exact keeps_pure (anything t) ended

private theorem run (call : Call) :
    Keeps Anything (call.run site harness) (fun _ t => Settled w.disk.journal call t) w := by
  cases call with
  | handleCall => exact effect proposes
  | preflightExternalCall => exact effect proposes
  | resume => exact effect resumes
  | resumeExternal => exact effect resumesExternal
  | completeExternalCall => exact effect completesExternal
  | reconcileExpiredApprovals => exact effect expiresDue
  | reconcileExecution => exact effect reconcilesExecution
  | reconcileAuthorization => exact effect reconcilesAuthorization
  | recoverOperation =>
    apply ((rules site []).recoverOperation (anything w)).bind
    intro _ t _ ended
    exact keeps_pure (anything t) ended
  | decide =>
    apply ((drafts site harness []).plain.decideApproval (anything w) ⟨rfl, rfl⟩).bind
    rintro _ t - ⟨-, same⟩
    exact keeps_pure (anything t) same

/-- A normal end, without the invariant that asks nothing. -/
theorem backs {α : Type} {p : Control α} {Q : α → World → Prop}
    (keeps : Keeps Anything p (fun a t => Idle t ∧ Q a t) w) :
    Ends p Q (fun _ _ => True) w := by
  apply Ends.mono keeps
  · rintro _ t ⟨-, -, ended⟩
    exact ended
  · exact fun _ _ _ => trivial

end Settling

/-- A call that returns leaves no operation in the journal, in whatever state it found the stores;
only an operator's decision, which does not look at the journal, leaves it as it was. -/
theorem returned_call_settles (site : Deployment) (w : World) (process : Process) (call : Call)
    (returned : (call.run site process.harness (w.entered process)).1 = .ok ()) :
    Settling.Settled w.disk.journal call (w.after site process call) := by
  have keeps := @Settling.run site process.harness (w.entered process) call
  have shape : call.run site process.harness (w.entered process) =
      (.ok (), w.after site process call) := Prod.ext returned rfl
  exact (Proc.Ends.ok keeps shape).2

/-- A process that stops while it creates an approval. -/
private def stoppedRun : World :=
  Demo.start.afterAll (Demo.site Demo.clock)
    [(Demo.process .approvalRequired (Demo.dollars 3) (Demo.dollars 2) (some 2),
      .handleCall (Demo.call "act_1") Demo.request "" "")]

/-- The general theorem at the call that finds this operation. -/
theorem returned_call_settles_stopped :
    stoppedRun.disk.journal.isSome = true ∧
      (stoppedRun.after (Demo.site Demo.clock) (Demo.process .allow .zero .zero none)
        .recoverOperation).disk.journal = none :=
  ⟨by decide +kernel, returned_call_settles (Demo.site Demo.clock) stoppedRun
    (Demo.process .allow .zero .zero none) .recoverOperation (by rfl)⟩

/-- Whatever an entry point returns, the log then has a record with the id and the status that the
outcome names, of the action that it names. -/
theorem outcome_recorded (site : Deployment) (harness : Harness) (w : World) :
    (∀ call request executionOwner executionKey,
      (harness.handleCall site call request executionOwner executionKey).Ends
        (fun outcome t => outcome.Backed site t) (fun _ _ => True) w) ∧
    (∀ call request executionOwner executionKey,
      (harness.preflightExternalCall site call request executionOwner executionKey).Ends
        (fun outcome t => outcome.Backed site t) (fun _ _ => True) w) ∧
    (∀ approvalId approved decidedBy note attestation,
      (harness.resume site approvalId approved decidedBy note attestation).Ends
        (fun outcome t => outcome.Backed site t) (fun _ _ => True) w) ∧
    (∀ approvalId, (harness.resumeExternal site approvalId).Ends
      (fun outcome t => outcome.Backed site t) (fun _ _ => True) w) ∧
    (∀ action request decision toolResponse approvalId,
      (harness.completeExternalCall site action request decision toolResponse approvalId).Ends
        (fun outcome t => outcome.Backed site t) (fun _ _ => True) w) ∧
    (harness.reconcileExpiredApprovals site).Ends
      (fun outcomes t => ∀ outcome ∈ outcomes, outcome.Backed site t) (fun _ _ => True) w ∧
    (∀ approvalId outcome reconciledBy note attestation,
      (harness.reconcileExecution site approvalId outcome reconciledBy note attestation).Ends
        (fun outcome t => outcome.Backed site t) (fun _ _ => True) w) ∧
    (∀ authorityRecordId outcome reconciledBy note attestation,
      (Harness.reconcileAuthorization site authorityRecordId outcome reconciledBy note
        attestation).Ends (fun outcome t => outcome.Backed t) (fun _ _ => True) w) :=
  open Settling in
  ⟨fun _ _ _ _ => backs proposes, fun _ _ _ _ => backs proposes, fun _ _ _ _ _ => backs resumes,
    fun _ => backs resumesExternal, fun _ _ _ _ _ => backs completesExternal, backs expiresDue,
    fun _ _ _ _ _ => backs reconcilesExecution, fun _ _ _ _ _ => backs reconcilesAuthorization⟩

end DefiantHarness
