import DefiantHarness.StoreSteps

/-! Recovery of a prepared operation takes only the steps of the transition system. -/
namespace DefiantHarness

open Foundation Control

variable {site : Deployment} {w : World}

theorem leaves_approvals {t : World} {α : Type} {update : Update Approvals α}
    (leaves : Leaves w.ticked (fun approvals => { w.disk with approvals := approvals })
      update.written t) : t.disk = { w.disk with approvals := update.state w.disk.approvals } := by
  obtain ⟨none, rfl⟩ | ⟨stored, some, rfl⟩ := leaves
  · simp [Update.state, none]
  · simp [Update.state, some]

theorem leaves_ledger {t : World} {α : Type} {update : Update Ledger α}
    (leaves : Leaves w.ticked (fun ledger => { w.disk with ledger := ledger })
      update.written t) : t.disk = { w.disk with ledger := update.state w.disk.ledger } := by
  obtain ⟨none, rfl⟩ | ⟨stored, some, rfl⟩ := leaves
  · simp [Update.state, none]
  · simp [Update.state, some]

/-! ### What the operations of an unfinished approval leave -/

theorem ensureRejected_leaves {approvals : Approvals} (wellFormed : WellFormed approvals)
    {approvalId decidedBy note : String} {attestation : Option OperatorAttestation} {clock : Clock}
    {update : Update Approvals PendingApproval}
    (ok : site.approvals.ensureRejected approvals approvalId decidedBy note attestation clock =
      .ok update) :
    ∃ old new, approvals.lookup approvalId = some old ∧
      (update.state approvals).lookup approvalId = some new ∧ new.status = .rejected ∧
      new.terms = old.terms := by
  cases written : update.written with
  | some after =>
    obtain ⟨old, new, rfl, revises, status⟩ := ensureRejected_revises wellFormed ⟨update, ok, written⟩
    refine ⟨old, new, revises.found, ?_, status, revises.terms⟩
    simp [Update.state, written, revises.lookup]
  | none =>
    obtain ⟨old, found, ⟨-, decided⟩ | ⟨rejected, -, -, -, -, rfl⟩⟩ :=
      ApprovalStore.ensureRejected_ok_iff.1 ok
    · obtain ⟨_, _, _, _, _, _, _, _, _, rfl⟩ := ApprovalStore.decide_ok_iff.1 decided
      cases written
    · exact ⟨old, old, found, found, rejected, rfl⟩

theorem expireOne_leaves {approvals : Approvals} (wellFormed : WellFormed approvals)
    {approvalId : String} {clock : Clock} {update : Update Approvals PendingApproval}
    (ok : site.approvals.expireOne approvals approvalId clock = .ok update) :
    ∃ old new, approvals.lookup approvalId = some old ∧
      (update.state approvals).lookup approvalId = some new ∧ new.status = .expired ∧
      new.terms = old.terms := by
  cases written : update.written with
  | some after =>
    obtain ⟨old, new, rfl, revises, status⟩ := expireOne_revises wellFormed ⟨update, ok, written⟩
    refine ⟨old, new, revises.found, ?_, status, revises.terms⟩
    simp [Update.state, written, revises.lookup]
  | none =>
    obtain ⟨old, found, ⟨expired, rfl⟩ | ⟨-, -, -, -, rfl⟩⟩ := ApprovalStore.expireOne_ok_iff.1 ok
    · exact ⟨old, old, found, found, expired, rfl⟩
    · cases written

theorem validateJournaledApproval_ok_iff {approvals : Approvals}
    {approvalId actionId requestId : String} {reserved : Decimal} {u : Unit} :
    Harness.validateJournaledApproval approvals approvalId actionId requestId reserved = .ok u ↔
      ∃ approval, approvals.lookup approvalId = some approval ∧ approval.actionId = actionId ∧
        approval.terms.requestId = requestId ∧
        approval.terms.reservedUsd.decimal.eqv reserved = true := by
  simp [Harness.validateJournaledApproval, not_or]

theorem ensureRelease_leaves {fits : BudgetDocument → Bool} {ledger : Ledger} {expected : Decimal}
    {requestId actionId : String} {clock : Clock} {update : Update Ledger Decimal}
    (positive : Decimal.zero.lt expected = true)
    (ok : ledger.ensureRelease fits expected requestId actionId clock = .ok update) :
    actionId ∉ (update.state ledger).document.reservations := by
  obtain ⟨none, zero | absent⟩ | ⟨after, remaining, entry, rfl, -, -, frees⟩ :=
    Ledger.ensureRelease_ok ok
  · rw [Decimal.lt_iff, Decimal.zero_value, (Decimal.isZero_iff expected).1 zero] at positive
    exact absurd positive (lt_irrefl 0)
  · simpa [Update.state, none] using absent
  · simpa using (frees.reservations actionId).not.2 (by simp)

theorem ensureConsumed_leaves {approvals : Approvals} (wellFormed : WellFormed approvals)
    {approvalId recordId : String} {clock : Clock} {update : Update Approvals PendingApproval}
    (ok : site.approvals.ensureConsumed approvals approvalId recordId clock = .ok update) :
    ∃ old new, approvals.lookup approvalId = some old ∧
      (update.state approvals).lookup approvalId = some new ∧ new.terms = old.terms ∧
      new.status = .consumed ∧ new.executionRecordId = recordId := by
  obtain ⟨-, old, found, ⟨consumed, same, rfl⟩ | consumes⟩ := ApprovalStore.ensureConsumed_ok_iff.1 ok
  · exact ⟨old, old, found, found, rfl, consumed, same⟩
  · obtain ⟨-, -, -, -, rfl⟩ := ApprovalStore.consume_ok_iff.1 consumes
    refine ⟨old, { old with
      status := .consumed, executionRecordId := recordId, consumedAt := some (clock 0) }, found, ?_,
      rfl, rfl, rfl⟩
    rw [Update.state_write, lookup_stored_eq]
    exact if_pos (wellFormed _ _ found).1.symm

/-- The budget and the approvals are as the operation wants them; nothing else changed. -/
structure Replays (operation : JournalOperation) (w t : World) : Prop where
  carried : CarriedOut t.disk operation
  disk : t.disk = { w.disk with approvals := t.disk.approvals, ledger := t.disk.ledger }

namespace Harness

theorem ifFunded_does {α : Type} {reserved : Decimal} {R : World → Prop}
    {op : Ledger → Clock → Except HarnessError (Update Ledger α)}
    (unfunded : Decimal.zero.lt reserved = false → R w)
    (moves : ∀ update after, Decimal.zero.lt reserved = true →
      op w.disk.ledger (site.clock w.readings) = .ok update →
      update.written = some after → LedgerMoves site w.disk after)
    (holds : ∀ update t, Decimal.zero.lt reserved = true →
      op w.disk.ledger (site.clock w.readings) = .ok update →
      Leaves w.ticked (fun ledger => { w.disk with ledger := ledger }) update.written t → R t) :
    Does site (ifFunded site reserved op) (fun _ t => R t) w := by
  refine does_ite (fun funded => ?_) fun unpaid => does_pure (unfunded (by simpa using unpaid))
  refine (does_onLedger (R := fun _ t => R t) (fun update after => moves update after funded)
    fun update t => holds update t funded).bind fun _ _ _ done => does_pure done

variable {operation : JournalOperation}

private theorem recoverApprovalCreate_does {approval : PendingApproval} {reservedUsd : PlainDecimal}
    (active : w.disk.journal = some operation)
    (valid : operation.validate site.digests = .ok ())
    (kind : operation.payload = .approvalCreate approval reservedUsd) :
    Does site (recoverApprovalCreate site approval reservedUsd.decimal)
      (fun _ t => Replays operation w t) w := by
  have funding : Does site (ifFunded site reservedUsd.decimal fun ledger clock =>
      ledger.ensureReservation site.limits.budget reservedUsd.decimal approval.terms.requestId
        approval.actionId clock)
      (fun _ t => t.disk = { w.disk with ledger := t.disk.ledger } ∧
        (Decimal.zero.lt reservedUsd.decimal = true → Ledger.Reserved t.disk.ledger.document
          reservedUsd.decimal approval.terms.requestId approval.actionId)) w := by
    refine ifFunded_does (fun unfunded => ⟨rfl, by simp [unfunded]⟩) ?_ ?_
    · intro update after funded ok written
      exact .journaledReservation operation _ active approval reservedUsd kind funded
        ⟨update, ok, written⟩
    · intro update t funded ok leaves
      rw [leaves_ledger leaves]
      exact ⟨rfl, fun _ => (Ledger.ensureReservation_leaves ok).2⟩
  refine funding.bind ?_
  rintro _ v - ⟨shape, live⟩
  -- the store takes a funded approval only behind its reservation
  have reserved (funded : Decimal.zero.lt reservedUsd.decimal = true) :
      approval.actionId ∈ v.disk.ledger.document.reservations := by
    obtain ⟨reservation, found, -⟩ := live funded
    exact AList.lookup_isSome.1 (by rw [found]; rfl)
  have journal : v.disk.journal = some operation := by rw [shape]; exact active
  refine (does_onApprovals (R := fun _ t => Replays operation w t) ?_ ?_).bind
    fun _ _ _ done => does_pure done
  · intro update after ok written
    exact .create operation journal approval reservedUsd kind valid reserved ⟨update, ok, written⟩
  · intro update t ok leaves
    have disk := leaves_approvals leaves
    refine ⟨⟨?_, ?_, ?_⟩, by rw [disk, shape]⟩
    · rw [kind, disk]
      refine ⟨?_, reserved⟩
      obtain ⟨present, rfl⟩ | ⟨-, -, -, rfl⟩ := ApprovalStore.createPrepared_ok_iff.1 ok
      · exact present
      · simp
    · intro call posts
      rw [kind, OperationPayload.ledgerCall] at posts
      split at posts
      next funded =>
        obtain rfl := Option.some.inj posts
        rw [disk]
        exact live funded
      · cases posts
    · intro _ _ _ _ _ completion
      cases kind.symm.trans completion

/-- An operation that ends an approval is carried out once the approval and its reservation are closed. -/
private theorem replays_of_closed {t : World} {approvalId actionId requestId : String}
    {reservedUsd : PlainDecimal} {status : ApprovalStatus}
    (closes : Closes operation.payload approvalId actionId requestId reservedUsd status)
    (done : Closed t.disk approvalId actionId reservedUsd status ∧
      (Decimal.zero.lt reservedUsd.decimal = true → (LedgerCall.ensureRelease reservedUsd.decimal
        requestId actionId).Recognized t.disk.ledger.document) ∧
      t.disk = { w.disk with approvals := t.disk.approvals, ledger := t.disk.ledger }) :
    Replays operation w t := by
  obtain ⟨closed, given, disk⟩ := done
  -- both kinds that close an approval post the release of its reservation
  have call : operation.payload.ledgerCall operation.evidence.recordId =
      if Decimal.zero.lt reservedUsd.decimal then
        some (.ensureRelease reservedUsd.decimal requestId actionId) else none := by
    rcases closes with ⟨_, _, _, -, kind⟩ | ⟨-, kind⟩
    · rw [kind, OperationPayload.ledgerCall]
    · rw [kind, OperationPayload.ledgerCall]
  refine ⟨⟨?_, ?_, ?_⟩, disk⟩
  · rcases closes with ⟨_, _, _, rfl, kind⟩ | ⟨rfl, kind⟩
    · rw [kind]
      exact closed
    · rw [kind]
      exact closed
  · intro found posts
    rw [call] at posts
    split at posts
    next funded =>
      obtain rfl := Option.some.inj posts
      exact given funded
    · cases posts
  · intro _ _ _ _ _ completion
    rcases closes with ⟨_, _, _, -, kind⟩ | ⟨-, kind⟩
    · cases kind.symm.trans completion
    · cases kind.symm.trans completion

/-- Ending an approval and giving back its reservation. -/
private theorem close_does {approvalId actionId requestId : String} {reservedUsd : PlainDecimal}
    {status : ApprovalStatus}
    {op : Approvals → Clock → Except HarnessError (Update Approvals PendingApproval)}
    (active : w.disk.journal = some operation)
    (kind : Closes operation.payload approvalId actionId requestId reservedUsd status)
    (bound : validateJournaledApproval w.disk.approvals approvalId actionId requestId
      reservedUsd.decimal = .ok ())
    (moves : ∀ update after, op w.disk.approvals (site.clock w.readings) = .ok update →
      update.written = some after → ApprovalMoves site w.ticked after)
    (closes : ∀ clock update, op w.disk.approvals clock = .ok update →
      ∃ old new, w.disk.approvals.lookup approvalId = some old ∧
        (update.state w.disk.approvals).lookup approvalId = some new ∧ new.status = status ∧
        new.terms = old.terms) :
    Does site (do
        let _ ← Control.onApprovals site op
        ifFunded site reservedUsd.decimal fun ledger clock =>
          ledger.ensureRelease site.limits.budget reservedUsd.decimal requestId actionId clock)
      (fun _ t => Closed t.disk approvalId actionId reservedUsd status ∧
        (Decimal.zero.lt reservedUsd.decimal = true → (LedgerCall.ensureRelease reservedUsd.decimal
          requestId actionId).Recognized t.disk.ledger.document) ∧
        t.disk = { w.disk with approvals := t.disk.approvals, ledger := t.disk.ledger }) w := by
  obtain ⟨approval, found, action, -, amount⟩ := validateJournaledApproval_ok_iff.1 bound
  refine (does_onApprovals (R := fun _ t =>
    t.disk = { w.disk with approvals := t.disk.approvals } ∧
      ∃ new, t.disk.approvals.lookup approvalId = some new ∧ new.status = status ∧
        new.terms = approval.terms) moves ?_).bind ?_
  · intro update t ok leaves
    obtain ⟨old, new, before, after, ended, terms⟩ := closes _ _ ok
    rw [found, Option.some.injEq] at before
    rw [leaves_approvals leaves]
    exact ⟨rfl, new, after, ended, before ▸ terms⟩
  · rintro _ v - ⟨shape, new, stored, ended, terms⟩
    have journal : v.disk.journal = some operation := by rw [shape]; exact active
    have owner : new.actionId = actionId := by
      rw [← action]
      exact congrArg ApprovalTerms.actionId terms
    have value : new.terms.reservedUsd.decimal.eqv reservedUsd.decimal = true := by
      rw [terms]
      exact amount
    refine ifFunded_does ?_ ?_ ?_
    · intro unfunded
      exact ⟨⟨⟨new, stored, ended, owner, value⟩, by simp [unfunded]⟩, by simp [unfunded], by rw [shape]⟩
    · intro update after _ ok written
      exact .journaledRelease operation _ journal approvalId actionId requestId reservedUsd status
        kind ⟨new, stored, ended, owner⟩ ⟨update, ok, written⟩
    · intro update t funded ok leaves
      rw [leaves_ledger leaves]
      exact ⟨⟨⟨new, stored, ended, owner, value⟩, fun _ => ensureRelease_leaves funded ok⟩,
        fun _ => (Ledger.ensureRelease_leaves ok).2, by rw [shape]⟩

private theorem recoverApprovalReject_does {approvalId actionId requestId : String}
    {reservedUsd : PlainDecimal} {decidedBy note : String} {attestation : Option OperatorAttestation}
    (named : Named site w) (active : w.disk.journal = some operation)
    (kind : operation.payload = .approvalReject approvalId actionId requestId reservedUsd decidedBy
      note attestation) :
    Does site (recoverApprovalReject site approvalId actionId requestId reservedUsd.decimal decidedBy
      note attestation) (fun _ t => Replays operation w t) w := by
  refine does_disk_bind (does_lift_bind fun _ bound => ?_)
  have closes : Closes operation.payload approvalId actionId requestId reservedUsd .rejected :=
    .inl ⟨decidedBy, note, attestation, rfl, kind⟩
  refine (close_does active closes bound ?_ ?_).mono
    fun _ _ _ done => replays_of_closed closes done
  · intro update after ok written
    exact .reject operation _ active approvalId actionId requestId reservedUsd decidedBy note
      attestation kind bound ⟨update, ok, written⟩
  · exact fun _ _ => ensureRejected_leaves named.wellFormed

private theorem recoverApprovalExpire_does {approvalId actionId requestId : String}
    {reservedUsd : PlainDecimal} (named : Named site w) (active : w.disk.journal = some operation)
    (kind : operation.payload = .approvalExpire approvalId actionId requestId reservedUsd) :
    Does site (recoverApprovalExpire site approvalId actionId requestId reservedUsd.decimal)
      (fun _ t => Replays operation w t) w := by
  refine does_disk_bind (does_lift_bind fun _ bound => ?_)
  have closes : Closes operation.payload approvalId actionId requestId reservedUsd .expired :=
    .inr ⟨rfl, kind⟩
  refine (close_does active closes bound ?_ ?_).mono
    fun _ _ _ done => replays_of_closed closes done
  · intro update after ok written
    exact .expire operation _ active approvalId actionId requestId reservedUsd kind bound
      ⟨update, ok, written⟩
  · exact fun _ _ => expireOne_leaves named.wellFormed

theorem AuthorizationReconciliationSubject.fromRecord_ok {record : EvidenceRecord}
    {subject : AuthorizationReconciliationSubject}
    (ok : AuthorizationReconciliationSubject.fromRecord record = .ok subject) :
    record.resultStatus = .skipped ∧ record.decision = .allow ∧
      subject.authorityRecordId = record.recordId ∧
      subject.authorityRecordHash = record.recordHash ∧ subject.actionId = record.actionId ∧
      subject.requestId = record.requestId ∧
      subject.authorizationHash = record.authorizationHash := by
  simp only [AuthorizationReconciliationSubject.fromRecord, refuseIf_bind_ok_iff, not_not] at ok
  obtain ⟨skipped, allow, ok⟩ := ok
  rw [unit_bind_ok_iff, pure_ok_iff] at ok
  obtain ⟨-, rfl⟩ := ok
  exact ⟨skipped, allow, rfl, rfl, rfl, rfl, rfl⟩

theorem ExecutionCompletionSubject.fromRecord_ok_iff {record : EvidenceRecord}
    {subject : ExecutionCompletionSubject} :
    ExecutionCompletionSubject.fromRecord record = .ok subject ↔
      record.resultStatus = .skipped ∧
        (ExecutionCompletionSubject.ofRecord record).validate = .ok () ∧
        subject = ExecutionCompletionSubject.ofRecord record := by
  simp only [ExecutionCompletionSubject.fromRecord, refuseIf_bind_ok_iff, not_not]
  rw [unit_bind_ok_iff, pure_ok_iff]

private theorem recoverAuthorizationReconcile_does {subject : AuthorizationReconciliationSubject}
    {expectedUsd : Decimal} {outcome : Outcome} {reconciledBy note : String}
    {attestation : Option AuthorizationAttestation} (active : w.disk.journal = some operation)
    (kind : operation.payload = .authorizationReconcile subject expectedUsd outcome reconciledBy note
      attestation) :
    Does site (recoverAuthorizationReconcile site subject expectedUsd outcome reconciledBy note
      attestation operation.evidence.recordId) (fun _ t => Replays operation w t) w := by
  refine does_disk_bind (does_now_bind (does_lift_bind fun _ checked => ?_))
  -- the checks leave an authority on record whose action no approval owns
  obtain ⟨known, unowned⟩ : Known w.disk.records subject.actionId ∧
      ApprovalStore.forAction w.disk.approvals subject.actionId = [] := by
    simp only [validateAuthorizationReconcile, orRefuse_bind_ok_iff] at checked
    obtain ⟨authority, found, checked⟩ := checked
    obtain ⟨current, read, checked⟩ := bind_ok_iff.1 checked
    rw [refuseIf_bind_ok_iff, not_not, refuseIf_bind_ok_iff, not_not] at checked
    obtain ⟨rfl, unowned, -⟩ := checked
    obtain ⟨-, -, -, -, action, -⟩ := AuthorizationReconciliationSubject.fromRecord_ok read
    exact ⟨⟨authority, List.mem_of_find?_eq_some found, action.symm⟩, unowned⟩
  refine (does_onLedger (R := fun _ t => Replays operation w t) ?_ ?_).bind
    fun _ _ _ done => does_pure done
  · intro update after ok written
    exact .journaledReconcile operation _ active subject expectedUsd outcome reconciledBy note
      attestation kind known (forAction_eq_nil_iff.1 unowned) ⟨update, ok, written⟩
  · intro update t ok leaves
    have disk := leaves_ledger leaves
    have marked := (Ledger.reconcileReservation_leaves ok).2
    refine ⟨⟨?_, ?_, ?_⟩, by rw [disk]; rfl⟩
    · rw [kind, disk]
      obtain ⟨marker, found, -⟩ := marked
      exact ⟨known, AList.lookup_isSome.1 (by rw [Update.state, found]; rfl)⟩
    · intro call posts
      rw [kind, OperationPayload.ledgerCall] at posts
      obtain rfl := Option.some.inj posts
      rw [disk]
      exact marked
    · intro _ _ _ _ _ completion
      cases kind.symm.trans completion

theorem reservationFor_none {ledger : Ledger} {actionId : String} {amount : Decimal}
    (read : ledger.reservationFor actionId = .ok amount)
    (free : Decimal.zero.lt amount ≠ true) : actionId ∉ ledger.document.reservations := by
  simp only [Ledger.reservationFor] at read
  obtain ⟨-, read⟩ := unit_bind_ok_iff.1 read
  split at read
  next reservation found =>
    cases read
    have positive := Ledger.reservation_positive found
    refine absurd ?_ free
    rw [Decimal.lt_iff, Decimal.zero_value]
    exact positive
  next absent => exact AList.lookup_eq_none.1 absent

/-- The action of a completion has no approval, or one whose execution has started. -/
theorem validateCompletionOwner_started {approvals : Approvals}
    {subject : ExecutionCompletionSubject} {approvalId recordId : String} {now : Timestamp}
    (checked : validateCompletionOwner site approvals subject approvalId recordId now = .ok ()) :
    (∀ id approval, approvals.lookup id = some approval → approval.actionId ≠ subject.actionId) ∨
      ∃ approval, approvals.lookup approvalId = some approval ∧
        approval.actionId = subject.actionId ∧
        (approval.status = .executing ∨ approval.status = .consumed) := by
  unfold validateCompletionOwner at checked
  split at checked
  next =>
    simp only [validateCompletedApproval, orRefuse_bind_ok_iff, refuseIf_bind_ok_iff, not_or,
      not_not] at checked
    obtain ⟨approval, found, ⟨action, -⟩, started, -⟩ := checked
    refine .inr ⟨approval, found, action, ?_⟩
    rwa [ne_eq, ne_eq, not_and_or, not_not, not_not] at started
  next =>
    rw [refuseIf_ok_iff, not_not] at checked
    exact .inl (forAction_eq_nil_iff.1 checked)

private theorem settleCompletion_does {subject : ExecutionCompletionSubject}
    {reservedUsd actualUsd : Decimal} {approvalId : String} {disposition : BudgetDisposition}
    (active : w.disk.journal = some operation) (known : Known w.disk.records subject.actionId)
    (started : (∀ id approval, w.disk.approvals.lookup id = some approval →
        approval.actionId ≠ subject.actionId) ∨
      ∃ approval, w.disk.approvals.lookup approvalId = some approval ∧
        approval.actionId = subject.actionId ∧
        (approval.status = .executing ∨ approval.status = .consumed))
    (kind : operation.payload = .executionComplete subject approvalId reservedUsd actualUsd
      disposition) :
    Does site (settleCompletion site subject reservedUsd actualUsd disposition
      operation.evidence.recordId)
      (fun _ t => t.disk = { w.disk with ledger := t.disk.ledger } ∧
        subject.actionId ∉ t.disk.ledger.document.reservations ∧
        ∀ call ∈ operation.payload.ledgerCall operation.evidence.recordId,
          call.Recognized t.disk.ledger.document) w := by
  cases disposition with
  -- nothing was reserved for the action, and nothing is posted
  | none =>
    refine does_disk_bind (does_lift_bind fun live read => does_lift fun _ free => ?_)
    rw [refuseIf_ok_iff] at free
    refine ⟨rfl, reservationFor_none read free, fun call posts => ?_⟩
    rw [kind, OperationPayload.ledgerCall] at posts
    cases posts
  | settle =>
    refine (does_onLedger (R := fun _ t => t.disk = { w.disk with ledger := t.disk.ledger } ∧
      subject.actionId ∉ t.disk.ledger.document.reservations ∧
      ∀ call ∈ operation.payload.ledgerCall operation.evidence.recordId,
        call.Recognized t.disk.ledger.document) ?_ ?_).bind
      fun _ _ _ done => does_pure done
    · intro update after ok written
      exact .journaledSettlement operation _ active subject approvalId reservedUsd actualUsd kind
        known started ⟨update, ok, written⟩
    · intro update t ok leaves
      rw [leaves_ledger leaves]
      have debited := (Ledger.ensureSettlement_leaves ok).2
      refine ⟨rfl, AList.lookup_eq_none.1 debited.1, fun call posts => ?_⟩
      rw [kind, OperationPayload.ledgerCall] at posts
      obtain rfl := Option.some.inj posts
      exact debited

theorem validateCompletionOwner_owner {approvals : Approvals} {subject : ExecutionCompletionSubject}
    {approvalId recordId : String} {now : Timestamp}
    (checked : validateCompletionOwner site approvals subject approvalId recordId now = .ok ())
    (named : approvalId ≠ "") {approval : PendingApproval}
    (found : approvals.lookup approvalId = some approval) : approval.actionId = subject.actionId := by
  rw [validateCompletionOwner, if_pos named, validateCompletedApproval, found] at checked
  simp only [orRefuse, ok_bind, refuseIf_bind_ok_iff, not_or, not_not] at checked
  exact checked.1.1

theorem validateExecutionComplete_ok {disk : Disk} {subject : ExecutionCompletionSubject}
    {approvalId recordId : String} {now : Timestamp}
    (checked : validateExecutionComplete site disk subject approvalId recordId now = .ok ()) :
    Known disk.records subject.actionId ∧
      validateCompletionOwner site disk.approvals subject approvalId recordId now = .ok () := by
  simp only [validateExecutionComplete, orRefuse_bind_ok_iff] at checked
  obtain ⟨authority, found, checked⟩ := checked
  obtain ⟨current, read, checked⟩ := bind_ok_iff.1 checked
  rw [refuseIf_bind_ok_iff, not_not, unit_bind_ok_iff] at checked
  obtain ⟨rfl, owner, -⟩ := checked
  obtain ⟨-, -, rfl⟩ := ExecutionCompletionSubject.fromRecord_ok_iff.1 read
  exact ⟨⟨authority, List.mem_of_find?_eq_some found, rfl⟩, owner⟩

theorem Known.mono {records more : List EvidenceRecord} {actionId : String}
    (known : Known records actionId) (kept : ∀ record ∈ records, record ∈ more) :
    Known more actionId := by
  obtain ⟨record, member, action⟩ := known
  exact ⟨record, kept record member, action⟩

theorem Replayed.of_sealed {v t : World} {record : EvidenceRecord} {payload : OperationPayload}
    (replayed : Replayed v.disk payload) (done : EvidenceStore.Sealed record v t) :
    Replayed t.disk payload := by
  rw [done.disk]
  cases payload with
  | authorizationReconcile => exact ⟨Known.mono replayed.1 done.kept, replayed.2⟩
  | executionComplete => exact ⟨Known.mono replayed.1 done.kept, replayed.2⟩
  | _ => exact replayed

/-- The evidence of an operation that is carried out changes nothing that it did. -/
theorem carriedOut_of_sealed {v t : World} {record : EvidenceRecord} {operation : JournalOperation}
    (carried : CarriedOut v.disk operation) (done : EvidenceStore.Sealed record v t) :
    CarriedOut t.disk operation := by
  refine ⟨Replayed.of_sealed carried.replayed done, ?_, ?_⟩
  · rw [done.disk]
    exact carried.posted
  · rw [done.disk]
    exact carried.consumed

/-- Everything but the cleared journal. -/
structure Ready (operation : JournalOperation) (t : World) : Prop where
  active : t.disk.journal = some operation
  carried : CarriedOut t.disk operation
  recorded : ∃ record ∈ t.disk.records, record.comparable = operation.evidence.comparable

private theorem recoverExecutionComplete_does {subject : ExecutionCompletionSubject}
    {reservedUsd actualUsd : Decimal} {approvalId : String} {disposition : BudgetDisposition}
    (named : Named site w) (active : w.disk.journal = some operation)
    (kind : operation.payload = .executionComplete subject approvalId reservedUsd actualUsd
      disposition) :
    Does site (recoverExecutionComplete site subject approvalId reservedUsd actualUsd disposition
      operation.evidence) (fun _ t => Ready operation t) w := by
  refine does_disk_bind (does_now_bind (does_lift_bind fun _ checked => ?_))
  obtain ⟨known, owner⟩ := validateExecutionComplete_ok checked
  refine (settleCompletion_does (w := w.ticked) active known
    (validateCompletionOwner_started owner) kind).bind ?_
  rintro _ v moved ⟨settled, free, posted⟩
  have journal : v.disk.journal = some operation := by rw [settled]; exact active
  have replayed : Replayed v.disk operation.payload := by
    rw [kind]
    refine ⟨?_, free⟩
    rw [settled]
    exact known
  have drawn : Drawn site v.issued "evd" operation.evidence.recordId :=
    ((named.step (.tick w)).evidence operation active).mono moved.issued_le
  refine (EvidenceStore.appendIdempotent_does (.journaled operation journal rfl replayed)
    drawn).bind fun _ u _ done => ?_
  have still : u.disk.journal = some operation := by rw [done.disk]; exact journal
  have ready := Replayed.of_sealed replayed done
  have debited : ∀ call ∈ operation.payload.ledgerCall operation.evidence.recordId,
      call.Recognized u.disk.ledger.document := by
    rw [done.disk]
    exact posted
  have same : u.disk.approvals = w.disk.approvals := by
    rw [done.disk, settled]
    rfl
  -- only a completion under an approval has one to consume
  refine does_ite (fun owned => ?_) fun bare => does_pure ⟨still, ⟨ready, debited, ?_⟩, done.present⟩
  rotate_left
  · intro _ _ _ _ _ completion named
    cases kind.symm.trans completion
    exact absurd named bare
  refine (does_onApprovals (R := fun _ t => Ready operation t) ?_ ?_).bind
    fun _ _ _ consumed => does_pure consumed
  · intro update after ok written
    refine .complete operation _ still subject approvalId reservedUsd actualUsd disposition kind ready
      (fun approval found => ?_) ⟨update, ok, written⟩
    exact validateCompletionOwner_owner owner owned (same ▸ found)
  · intro update t ok leaves
    have disk := leaves_approvals leaves
    refine ⟨by rw [disk]; exact still, ⟨?_, by rw [disk]; exact debited, ?_⟩, by rw [disk]; exact done.present⟩
    · rw [kind] at ready
      rw [kind, disk]
      exact ready
    · intro _ _ _ _ _ completion _
      cases kind.symm.trans completion
      obtain ⟨old, new, found, stored, terms, status, record⟩ :=
        ensureConsumed_leaves (same ▸ named.wellFormed) ok
      have action := validateCompletionOwner_owner owner owned (same ▸ found)
      rw [disk]
      exact ⟨new, stored, (congrArg ApprovalTerms.actionId terms).trans action, status, record⟩

/-- Appending the evidence of a replayed operation. -/
private theorem seal_does {v : World} (named : Named site w) (moves : Moves site w v)
    (active : w.disk.journal = some operation) (done : Replays operation w v) :
    Does site (do let _ ← EvidenceStore.appendIdempotent site operation.evidence)
      (fun _ t => Ready operation t) v := by
  have journal : v.disk.journal = some operation := by rw [done.disk]; exact active
  have drawn := (named.evidence operation active).mono moves.issued_le
  refine (EvidenceStore.appendIdempotent_does (.journaled operation journal rfl done.carried.replayed)
    drawn).bind fun _ t _ sealed_ => does_pure ?_
  refine ⟨?_, carriedOut_of_sealed done.carried sealed_, sealed_.present⟩
  rw [sealed_.disk]
  exact journal

private theorem replay_does (named : Named site w) (active : w.disk.journal = some operation)
    (valid : operation.validate site.digests = .ok ()) :
    Does site (replay site operation) (fun _ t => Ready operation t) w := by
  unfold replay
  split
  next kind =>
    refine (recoverApprovalCreate_does active valid kind).bind ?_
    exact fun _ v moves done => seal_does named moves active done
  next kind =>
    refine (recoverApprovalReject_does named active kind).bind ?_
    exact fun _ v moves done => seal_does named moves active done
  next kind =>
    refine (recoverApprovalExpire_does named active kind).bind ?_
    exact fun _ v moves done => seal_does named moves active done
  next kind =>
    refine (recoverAuthorizationReconcile_does active kind).bind ?_
    exact fun _ v moves done => seal_does named moves active done
  next kind => exact recoverExecutionComplete_does named active kind

theorem recoverPrepared_does (named : Named site w) (active : w.disk.journal = some operation)
    (valid : operation.validate site.digests = .ok ()) :
    Does site (recoverPrepared site operation) (fun _ t => t.disk.journal = none) w := by
  refine does_disk_bind (does_lift_bind fun _ _ => does_lift_bind fun _ _ => ?_)
  refine (replay_does named active valid).bind fun _ v _ ready => ?_
  refine (OperationJournal.complete_does ready.active ready.carried ready.recorded).mono
    fun _ t _ done => ?_
  rw [done]

theorem recoverOperation_does (named : Named site w) :
    Does site (recoverOperation site) (fun _ t => t.disk.journal = none) w := by
  refine OperationJournal.active_does.bind ?_
  rintro waiting _ - ⟨rfl, active, valid⟩
  cases waiting with
  | none => exact does_pure active
  | some operation =>
    refine (recoverPrepared_does named active (valid _ rfl)).bind fun _ _ _ done => does_pure done

/-- Committing an operation leaves no operation behind. -/
theorem commit_does {payload : OperationPayload} {evidence : EvidenceRecord} (named : Named site w)
    (fresh : EvidenceLog.get w.disk.records evidence.recordId = none)
    (drawn : Drawn site w.issued "evd" evidence.recordId)
    (why : ∀ v, v.disk = w.disk → v.trace = w.trace → w.issued ≤ v.issued →
      Prepares site v evidence payload) :
    Does site (commit site payload evidence) (fun _ t => t.disk.journal = none) w := by
  refine (OperationJournal.prepare_does fresh drawn why).bind fun operation v moves opened => ?_
  exact recoverPrepared_does (named.moves moves) (by rw [opened.disk]) opened.valid

end Harness
end DefiantHarness
