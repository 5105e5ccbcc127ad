import DefiantHarness.ApprovalStore

/-! What each approval operation can do: the transition it makes and what it checks first. -/
namespace DefiantHarness

open Foundation

/-- What every read of the approvals file checks. -/
def WellFormed (approvals : Approvals) : Prop :=
  ∀ id approval, approvals.lookup id = some approval →
    approval.approvalId = id ∧ approval.validate = .ok ()

/-- The file after one approval is replaced. -/
def stored (approvals : Approvals) (approval : PendingApproval) : Approvals :=
  (approvals.set approval.approvalId approval).sorted

@[simp] theorem lookup_stored (approvals : Approvals) (approval : PendingApproval) :
    (stored approvals approval).lookup approval.approvalId = some approval := by
  simp [stored]

theorem lookup_stored_ne {approvals : Approvals} {approval : PendingApproval} {id : String}
    (other : id ≠ approval.approvalId) :
    (stored approvals approval).lookup id = approvals.lookup id := by
  rw [stored, Dict.lookup_sorted, Dict.lookup_set_ne other]

theorem lookup_stored_eq (approvals : Approvals) (approval : PendingApproval) (id : String) :
    (stored approvals approval).lookup id =
      if id = approval.approvalId then some approval else approvals.lookup id := by
  split
  next same => rw [same, lookup_stored]
  next other => exact lookup_stored_ne other

theorem WellFormed.stored {approvals : Approvals} {approval : PendingApproval}
    (wellFormed : WellFormed approvals) (valid : approval.validate = .ok ()) :
    WellFormed (stored approvals approval) := by
  intro id found lookup
  rw [lookup_stored_eq] at lookup
  split at lookup
  next same =>
    cases lookup
    exact ⟨same.symm, valid⟩
  next => exact wellFormed id found lookup

theorem WellFormed.empty : WellFormed ∅ := by
  intro id approval found
  simp at found

theorem mem_values_iff {approvals : Approvals} {approval : PendingApproval} :
    approval ∈ approvals.values ↔ ∃ id, approvals.lookup id = some approval := by
  constructor
  · intro member
    obtain ⟨⟨id, value⟩, entry, rfl⟩ := List.mem_map.1 member
    exact ⟨id, AList.mem_lookup_iff.2 entry⟩
  · rintro ⟨id, found⟩
    exact Dict.lookup_some_mem found

theorem forAction_eq_nil_iff {approvals : Approvals} {actionId : String} :
    ApprovalStore.forAction approvals actionId = [] ↔
      ∀ id approval, approvals.lookup id = some approval → approval.actionId ≠ actionId := by
  simp only [ApprovalStore.forAction, List.filter_eq_nil_iff, mem_values_iff, beq_iff_eq]
  constructor
  · intro none id approval found
    exact none approval ⟨id, found⟩
  · rintro none approval ⟨id, found⟩
    exact none id approval found

namespace PendingApproval

@[simp] theorem checked_ok_iff {approval result : PendingApproval} :
    approval.checked = .ok result ↔ approval.validate = .ok () ∧ result = approval := by
  simp only [checked, bind_ok_iff, pure_eq_ok, Except.ok.injEq]
  constructor
  · rintro ⟨_, valid, rfl⟩
    exact ⟨valid, rfl⟩
  · rintro ⟨valid, rfl⟩
    exact ⟨(), valid, rfl⟩

@[simp] theorem checked_bind_ok_iff {β : Type} {approval : PendingApproval}
    {f : PendingApproval → Except HarnessError β} {b : β} :
    approval.checked >>= f = .ok b ↔ approval.validate = .ok () ∧ f approval = .ok b := by
  simp only [bind_ok_iff, checked_ok_iff]
  constructor
  · rintro ⟨_, ⟨valid, rfl⟩, rest⟩
    exact ⟨valid, rest⟩
  · rintro ⟨valid, rest⟩
    exact ⟨_, ⟨valid, rfl⟩, rest⟩

theorem pending_validate (terms : ApprovalTerms) : (pending terms).validate = .ok () := by
  simp [validate, pending, checkDecided, checkConsumed, checkIntent, checkCompletion, refuseIf]

end PendingApproval

namespace ApprovalStore

variable {store : ApprovalStore} {approvals : Approvals} {approvalId : String} {clock : Clock}

@[simp] theorem replace_ok_iff {approval : PendingApproval}
    {update : Update Approvals PendingApproval} :
    store.replace approvals approval = .ok update ↔
      store.fits (stored approvals approval) = true ∧
        update = .write (stored approvals approval) approval := by
  unfold replace writeAll
  change (if store.fits (stored approvals approval) = true then _ else _) >>= _ = _ ↔ _
  split
  next fits =>
    simp only [ok_bind, pure_eq_ok, Except.ok.injEq, fits, true_and]
    exact eq_comm
  next fits => simp [fits]

@[simp] theorem replace_bind_ok_iff {β : Type} {approval : PendingApproval}
    {f : Update Approvals PendingApproval → Except HarnessError β} {b : β} :
    store.replace approvals approval >>= f = .ok b ↔
      store.fits (stored approvals approval) = true ∧
        f (.write (stored approvals approval) approval) = .ok b := by
  simp only [bind_ok_iff, replace_ok_iff]
  constructor
  · rintro ⟨_, ⟨fits, rfl⟩, rest⟩
    exact ⟨fits, rest⟩
  · rintro ⟨fits, rest⟩
    exact ⟨_, ⟨fits, rfl⟩, rest⟩

theorem createPrepared_ok_iff {pending : PendingApproval}
    {update : Update Approvals PendingApproval} :
    store.createPrepared approvals pending = .ok update ↔
      (approvals.lookup pending.approvalId = some pending ∧ update = .unchanged pending) ∨
      (approvals.lookup pending.approvalId = none ∧
        (∀ id approval, approvals.lookup id = some approval → approval.actionId = pending.actionId →
          approval.status.active = false) ∧
        store.fits (stored approvals pending) = true ∧
        update = .write (stored approvals pending) pending) := by
  unfold createPrepared
  split
  next existing found =>
    simp only [refuseIf_bind_ok_iff, not_not, pure_eq_ok, Except.ok.injEq, found, Option.some.injEq,
      reduceCtorEq, false_and, or_false]
    constructor
    · rintro ⟨rfl, rfl⟩
      exact ⟨rfl, rfl⟩
    · rintro ⟨rfl, rfl⟩
      exact ⟨rfl, rfl⟩
  next absent =>
    -- no approval of the action is still active
    have inactive : ¬ (approvals.values.any (fun approval =>
        approval.actionId == pending.actionId && approval.status.active) = true) ↔
        ∀ id approval, approvals.lookup id = some approval →
          approval.actionId = pending.actionId → approval.status.active = false := by
      simp only [List.any_eq_true, mem_values_iff, Bool.and_eq_true, beq_iff_eq, not_exists,
        not_and, Bool.not_eq_true]
      constructor
      · intro none id approval found
        exact none approval ⟨id, found⟩
      · rintro none approval ⟨id, found⟩
        exact none id approval found
    rw [refuseIf_bind_ok_iff, inactive, replace_ok_iff]
    simp [absent]

theorem undecided_ok_iff {now : Timestamp} {approval : PendingApproval} :
    undecided approvals approvalId now = .ok approval ↔
      approvals.lookup approvalId = some approval ∧ approval.status = .pending ∧
        approval.isExpired now = false := by
  simp [undecided]

theorem decide_ok_iff {approved : Bool} {decidedBy note : String}
    {attestation : Option OperatorAttestation} {update : Update Approvals PendingApproval} :
    store.decide approvals approvalId approved decidedBy note attestation clock = .ok update ↔
      ∃ old who what, approvals.lookup approvalId = some old ∧ old.status = .pending ∧
        old.isExpired (clock 0) = false ∧
        store.checkDecision old approved decidedBy note attestation (clock 1) = .ok (who, what) ∧
        let new := decided old approved who what attestation
          ((attestation.map (·.signedAt)).getD (clock 2))
        new.validate = .ok () ∧ store.fits (stored approvals new) = true ∧
        update = .write (stored approvals new) new := by
  rw [decide, bind_ok_iff]
  simp only [undecided_ok_iff]
  constructor
  · rintro ⟨old, ⟨found, status, unexpired⟩, rest⟩
    obtain ⟨⟨who, what⟩, checked, rest⟩ := bind_ok_iff.1 rest
    simp only [PendingApproval.checked_bind_ok_iff, replace_ok_iff] at rest
    exact ⟨old, who, what, found, status, unexpired, checked, rest⟩
  · rintro ⟨old, who, what, found, status, unexpired, checked, rest⟩
    refine ⟨old, ⟨found, status, unexpired⟩, bind_ok_iff.2 ⟨(who, what), checked, ?_⟩⟩
    simpa only [PendingApproval.checked_bind_ok_iff, replace_ok_iff] using rest

@[simp] theorem expire_ok_iff {approval result : PendingApproval} {now : Timestamp} :
    expire approval now = .ok result ↔
      ({ approval with status := .expired, consumedAt := some now } : PendingApproval).validate =
        .ok () ∧ result = { approval with status := .expired, consumedAt := some now } :=
  PendingApproval.checked_ok_iff

@[simp] theorem expire_bind_ok_iff {β : Type} {approval : PendingApproval} {now : Timestamp}
    {f : PendingApproval → Except HarnessError β} {b : β} :
    expire approval now >>= f = .ok b ↔
      ({ approval with status := .expired, consumedAt := some now } : PendingApproval).validate =
        .ok () ∧ f { approval with status := .expired, consumedAt := some now } = .ok b :=
  PendingApproval.checked_bind_ok_iff

theorem expireOne_ok_iff {update : Update Approvals PendingApproval} :
    store.expireOne approvals approvalId clock = .ok update ↔
      ∃ old, approvals.lookup approvalId = some old ∧
        ((old.status = .expired ∧ update = .unchanged old) ∨
          ((old.status = .pending ∨ old.status = .approved) ∧ old.isExpired (clock 0) = true ∧
            let new : PendingApproval := { old with status := .expired, consumedAt := some (clock 1) }
            new.validate = .ok () ∧ store.fits (stored approvals new) = true ∧
            update = .write (stored approvals new) new)) := by
  simp only [expireOne, orRefuse_bind_ok_iff]
  refine exists_congr fun old => and_congr_right fun found => ?_
  split
  next expired => simp [expired, pure_ok_iff, -pure_eq_ok]
  next live =>
    simp only [refuseIf_bind_ok_iff, not_and_or, not_not, Bool.not_eq_false, expire_bind_ok_iff,
      replace_ok_iff, live, false_and, false_or]

theorem ensureRejected_ok_iff {decidedBy note : String} {attestation : Option OperatorAttestation}
    {update : Update Approvals PendingApproval} :
    store.ensureRejected approvals approvalId decidedBy note attestation clock = .ok update ↔
      ∃ old, approvals.lookup approvalId = some old ∧
        ((old.status = .pending ∧
            store.decide approvals approvalId false decidedBy note attestation clock = .ok update) ∨
          (old.status = .rejected ∧ old.decidedBy = some (strip decidedBy) ∧
            old.note = strip note ∧ old.decisionAttestation = attestation ∧
            store.requireDecisionIdentity old (clock 0) = .ok () ∧ update = .unchanged old)) := by
  simp only [ensureRejected, orRefuse_bind_ok_iff]
  refine exists_congr fun old => and_congr_right fun found => ?_
  split
  next pending => simp [pending]
  next other =>
    simp only [refuseIf_bind_ok_iff, not_not, other, false_and, false_or, and_assoc]
    rw [unit_bind_ok_iff, pure_ok_iff]

/-- A claim either starts the execution, or writes the approval as expired and raises. -/
theorem beginExecution_ok_iff {digests : Digests} {action : ProposedAction}
    {update : Update Approvals (Except HarnessError PendingApproval)} :
    store.beginExecution digests approvals approvalId action clock = .ok update ↔
      ∃ old, approvals.lookup approvalId = some old ∧ old.status = .approved ∧
        ((old.isExpired (clock 0) = true ∧
            let new : PendingApproval := { old with status := .expired, consumedAt := some (clock 1) }
            new.validate = .ok () ∧ store.fits (stored approvals new) = true ∧
            update = .write (stored approvals new) (.error (expiredAt old))) ∨
          (old.isExpired (clock 0) = false ∧ old.actionId = action.actionId ∧
            old.terms.authorizationHash = action.authorizationHash digests ∧
            store.requireDecisionIdentity old (clock 1) = .ok () ∧
            let new : PendingApproval := { old with status := .executing }
            new.validate = .ok () ∧ store.fits (stored approvals new) = true ∧
            update = .write (stored approvals new) (.ok new))) := by
  simp only [beginExecution, orRefuse_bind_ok_iff, refuseIf_bind_ok_iff, not_not]
  refine exists_congr fun old => and_congr_right fun found => and_congr_right fun approved => ?_
  split
  -- an approval that has run out is closed, and the caller is told after the write
  next expired =>
    simp only [expire_bind_ok_iff, replace_bind_ok_iff, pure_ok_iff, expired, true_and,
      Bool.true_eq_false, false_and, or_false, Update.written_write]
    rfl
  next live =>
    simp only [Bool.not_eq_true] at live
    simp only [refuseIf_bind_ok_iff, not_not, live, Bool.false_eq_true, false_and, true_and,
      false_or]
    refine and_congr_right fun _ => and_congr_right fun _ => ?_
    rw [unit_bind_ok_iff, PendingApproval.checked_bind_ok_iff, replace_bind_ok_iff, pure_ok_iff]
    rfl

theorem consume_ok_iff {approval : PendingApproval} {executionRecordId : String} {now : Timestamp}
    {update : Update Approvals PendingApproval} :
    store.consume approvals approval executionRecordId now = .ok update ↔
      approval.status = .executing ∧ approval.reconciliation = none ∧
        let new : PendingApproval := { approval with
          status := .consumed, executionRecordId := executionRecordId, consumedAt := some now }
        new.validate = .ok () ∧ store.fits (stored approvals new) = true ∧
        update = .write (stored approvals new) new := by
  simp only [consume, refuseIf_bind_ok_iff, not_not, PendingApproval.checked_bind_ok_iff,
    replace_ok_iff, Option.isSome_iff_ne_none, ne_eq]

theorem markConsumed_ok_iff {executionRecordId : String}
    {update : Update Approvals PendingApproval} :
    store.markConsumed approvals approvalId executionRecordId clock = .ok update ↔
      ∃ old, approvals.lookup approvalId = some old ∧
        store.consume approvals old executionRecordId (clock 0) = .ok update := by
  simp [markConsumed]

theorem ensureConsumed_ok_iff {executionRecordId : String}
    {update : Update Approvals PendingApproval} :
    store.ensureConsumed approvals approvalId executionRecordId clock = .ok update ↔
      executionRecordId ≠ "" ∧ ∃ old, approvals.lookup approvalId = some old ∧
        ((old.status = .consumed ∧ old.executionRecordId = executionRecordId ∧
            update = .unchanged old) ∨
          store.consume approvals old executionRecordId (clock 0) = .ok update) := by
  simp only [ensureConsumed, refuseIf_bind_ok_iff, orRefuse_bind_ok_iff]
  refine and_congr_right fun _ => exists_congr fun old => and_congr_right fun _ => ?_
  split
  next consumed =>
    simp only [refuseIf_bind_ok_iff, not_not, pure_eq_ok, Except.ok.injEq, consumed, true_and,
      consume_ok_iff, reduceCtorEq, false_and, or_false]
    exact and_congr_right fun _ => eq_comm
  next other => simp [other]

theorem recognizeReconciliation_ok_iff {approval : PendingApproval} {intent : ReconciliationIntent}
    {outcome : Outcome} {reconciledBy note : String} {now : Timestamp} {u : Unit} :
    store.recognizeReconciliation approval intent outcome reconciledBy note now = .ok u ↔
      (intent.outcome = outcome ∧ intent.reconciledBy = reconciledBy ∧ intent.note = note) ∧
      (approval.status = .executing ∨ approval.status = .consumed) ∧
      (store.operatorTrust.isSome = true →
        (store.reconciliationIdentity approval intent now).ok = true) := by
  simp only [recognizeReconciliation, refuseIf_bind_ok_iff, refuseIf_ok_iff, not_not]
  refine and_congr_right fun _ => and_congr ?_ ?_
  · tauto
  · simp

theorem startReconciliation_ok_iff {approval : PendingApproval} {outcome : Outcome}
    {reconciledBy note : String} {attestation : Option OperatorAttestation}
    {update : Update Approvals PendingApproval} :
    store.startReconciliation approvals approval outcome reconciledBy note attestation clock =
        .ok update ↔
      approval.status = .executing ∧
        store.checkReconciler approval outcome reconciledBy note attestation (clock 0) = .ok () ∧
        let new := intended approval outcome reconciledBy note attestation (clock 1)
        new.validate = .ok () ∧ store.fits (stored approvals new) = true ∧
        update = .write (stored approvals new) new := by
  rw [startReconciliation, refuseIf_bind_ok_iff, not_not, unit_bind_ok_iff,
    PendingApproval.checked_bind_ok_iff, replace_ok_iff]

theorem beginReconciliation_ok_iff {outcome : Outcome} {reconciledBy note : String}
    {attestation : Option OperatorAttestation} {update : Update Approvals PendingApproval} :
    store.beginReconciliation approvals approvalId outcome reconciledBy note attestation clock =
        .ok update ↔
      strip reconciledBy ≠ "" ∧ strip note ≠ "" ∧
      ∃ old, approvals.lookup approvalId = some old ∧
        ((∃ intent, old.reconciliation = some intent ∧
            store.recognizeReconciliation old intent outcome (strip reconciledBy) (strip note)
              (clock 0) = .ok () ∧ update = .unchanged old) ∨
          (old.reconciliation = none ∧
            store.startReconciliation approvals old outcome (strip reconciledBy) (strip note)
              attestation clock = .ok update)) := by
  simp only [beginReconciliation, refuseIf_bind_ok_iff, orRefuse_bind_ok_iff]
  refine and_congr_right fun _ => and_congr_right fun _ => exists_congr fun old =>
    and_congr_right fun _ => ?_
  split
  next intent started =>
    rw [unit_bind_ok_iff, pure_ok_iff]
    simp [started]
  next unstarted => simp [unstarted]

theorem markReconciled_ok_iff {executionRecordId : String}
    {update : Update Approvals PendingApproval} :
    store.markReconciled approvals approvalId executionRecordId clock = .ok update ↔
      executionRecordId ≠ "" ∧ ∃ old, approvals.lookup approvalId = some old ∧
        old.reconciliation.isSome = true ∧
        ((old.status = .consumed ∧ old.executionRecordId = executionRecordId ∧
            update = .unchanged old) ∨
          (old.status = .executing ∧
            let new : PendingApproval := { old with
              status := .consumed, executionRecordId := executionRecordId
              consumedAt := some (clock 0), reconciliationCompletedAt := some (clock 0) }
            new.validate = .ok () ∧ store.fits (stored approvals new) = true ∧
            update = .write (stored approvals new) new)) := by
  simp only [markReconciled, refuseIf_bind_ok_iff, orRefuse_bind_ok_iff, Bool.not_eq_false]
  refine and_congr_right fun _ => exists_congr fun old => and_congr_right fun _ =>
    and_congr_right fun _ => ?_
  split
  next consumed =>
    simp only [refuseIf_bind_ok_iff, not_not, pure_eq_ok, Except.ok.injEq, consumed, true_and,
      reduceCtorEq, false_and, or_false]
    exact and_congr_right fun _ => eq_comm
  next live =>
    simp only [refuseIf_bind_ok_iff, not_not, PendingApproval.checked_bind_ok_iff, replace_ok_iff,
      live, false_and, false_or]

end ApprovalStore
end DefiantHarness
