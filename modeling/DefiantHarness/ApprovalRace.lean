import DefiantHarness.ApprovalTransitions
import DefiantHarness.Runs

/-! Recovery of a prepared approval against decisions taken before it. -/
namespace DefiantHarness

open Foundation

/-- What other processes may do to the approvals file without looking at the journal. -/
inductive OperatorAct where
  | decide (approvalId : String) (approved : Bool) (decidedBy note : String)
      (attestation : Option OperatorAttestation) (clock : Clock)
  | expireDue (now : Option Timestamp) (clock : Clock)

/-- The approvals file after a store operation; one that raises leaves it as it was. -/
def outcome {α : Type} (before : Approvals) : Except HarnessError (Update Approvals α) → Approvals
  | .ok update => update.state before
  | .error _ => before

namespace OperatorAct

variable (store : ApprovalStore)

def apply (approvals : Approvals) : OperatorAct → Approvals
  | .decide approvalId approved decidedBy note attestation clock => outcome approvals
      (store.decide approvals approvalId approved decidedBy note attestation clock)
  | .expireDue now clock => outcome approvals (store.expireDue approvals now clock)

def applyAll (approvals : Approvals) (acts : List OperatorAct) : Approvals :=
  acts.foldl (apply store) approvals

end OperatorAct

/-- A later approvals file: nothing is lost, and what is decided is not open again. -/
structure Later (before after : Approvals) : Prop where
  wellFormed : WellFormed after
  kept : ∀ id old, before.lookup id = some old →
    ∃ new, after.lookup id = some new ∧ (new = old ∨ new.status ≠ .pending)

theorem Later.refl {approvals : Approvals} (wellFormed : WellFormed approvals) :
    Later approvals approvals :=
  ⟨wellFormed, fun _ old found => ⟨old, found, .inl rfl⟩⟩

theorem Later.trans {a b c : Approvals} (first : Later a b) (second : Later b c) : Later a c := by
  refine ⟨second.wellFormed, fun id old found => ?_⟩
  obtain ⟨middle, foundMiddle, change⟩ := first.kept id old found
  obtain ⟨new, foundNew, change'⟩ := second.kept id middle foundMiddle
  refine ⟨new, foundNew, ?_⟩
  rcases change' with rfl | settled
  · exact change
  · exact .inr settled

/-- Storing a decided version of an approval. -/
theorem Later.store {approvals : Approvals} {new : PendingApproval}
    (wellFormed : WellFormed approvals) (valid : new.validate = .ok ())
    (settled : new.status ≠ .pending) : Later approvals (stored approvals new) := by
  refine ⟨wellFormed.stored valid, fun id old found => ?_⟩
  rw [lookup_stored_eq]
  split
  next => exact ⟨new, rfl, .inr settled⟩
  next => exact ⟨old, found, .inl rfl⟩

namespace ApprovalStore

variable {store : ApprovalStore} {approvals : Approvals} {clock : Clock}

theorem decide_later {approvalId : String} {approved : Bool} {decidedBy note : String}
    {attestation : Option OperatorAttestation} {update : Update Approvals PendingApproval}
    (wellFormed : WellFormed approvals)
    (decides : store.decide approvals approvalId approved decidedBy note attestation clock =
      .ok update) : Later approvals (update.state approvals) := by
  obtain ⟨old, who, what, _, _, _, _, valid, _, rfl⟩ := decide_ok_iff.1 decides
  refine Later.store wellFormed valid ?_
  cases approved <;> simp [decided]

/-- Every approval that a sweep expires is stored as expired. -/
theorem expireEntries_expired {now : Option Timestamp} {open' : List PendingApproval}
    {expired : List PendingApproval} (sweep : expireEntries now clock open' = .ok expired) :
    ∀ approval ∈ expired, approval.validate = .ok () ∧ approval.status = .expired := by
  induction open' generalizing clock expired with
  | nil =>
    cases sweep
    simp
  | cons approval rest ih =>
    unfold expireEntries at sweep
    split at sweep
    next =>
      obtain ⟨valid, rest⟩ := expire_bind_ok_iff.1 sweep
      obtain ⟨others, tail, rest⟩ := bind_ok_iff.1 rest
      cases rest
      intro item member
      rcases List.mem_cons.1 member with rfl | later
      · exact ⟨valid, rfl⟩
      · exact ih tail item later
    next => exact ih sweep

/-- Setting expired approvals one after the other, before the keys are sorted. -/
private theorem foldl_set_later {expired : List PendingApproval}
    (all : ∀ approval ∈ expired, approval.validate = .ok () ∧ approval.status = .expired)
    (wellFormed : WellFormed approvals) : Later approvals
      (expired.foldl (fun data approval => data.set approval.approvalId approval) approvals) := by
  induction expired generalizing approvals with
  | nil => exact Later.refl wellFormed
  | cons approval rest ih =>
    obtain ⟨valid, isExpired⟩ := all approval List.mem_cons_self
    have unsorted : ∀ id, (approvals.set approval.approvalId approval).lookup id =
        (stored approvals approval).lookup id := by simp [stored]
    have first : Later approvals (approvals.set approval.approvalId approval) := by
      have sorted := Later.store wellFormed valid (by simp [isExpired])
      refine ⟨fun id item found => sorted.wellFormed id item ?_, fun id old found => ?_⟩
      · rw [← unsorted]
        exact found
      · rw [unsorted]
        exact sorted.kept id old found
    exact first.trans (ih (fun item member => all item (List.mem_cons_of_mem _ member))
      first.wellFormed)

theorem Later.sorted {before after : Approvals} (later : Later before after) :
    Later before after.sorted :=
  ⟨fun id item found => later.wellFormed id item (by simpa using found),
    fun id old found => by simpa using later.kept id old found⟩

theorem expireDue_later {now : Option Timestamp}
    {update : Update Approvals (List PendingApproval)} (wellFormed : WellFormed approvals)
    (sweeps : store.expireDue approvals now clock = .ok update) :
    Later approvals (update.state approvals) := by
  obtain ⟨expired, sweep, rest⟩ := bind_ok_iff.1 sweeps
  split at rest
  next =>
    cases rest
    exact Later.refl wellFormed
  next =>
    obtain ⟨after, written, rest⟩ := bind_ok_iff.1 rest
    cases rest
    unfold writeAll at written
    split at written
    next =>
      cases written
      exact Later.sorted (foldl_set_later (expireEntries_expired sweep) wellFormed)
    next => cases written

end ApprovalStore

namespace OperatorAct

variable {store : ApprovalStore} {approvals : Approvals}

private theorem outcome_later {α : Type} {result : Except HarnessError (Update Approvals α)}
    (wellFormed : WellFormed approvals)
    (later : ∀ update, result = .ok update → Later approvals (update.state approvals)) :
    Later approvals (outcome approvals result) := by
  cases result with
  | ok update => exact later update rfl
  | error e => exact Later.refl wellFormed

theorem apply_later (wellFormed : WellFormed approvals) (act : OperatorAct) :
    Later approvals (act.apply store approvals) := by
  cases act with
  | decide approvalId approved decidedBy note attestation clock =>
    exact outcome_later wellFormed fun _ => ApprovalStore.decide_later wellFormed
  | expireDue now clock =>
    exact outcome_later wellFormed fun _ => ApprovalStore.expireDue_later wellFormed

theorem applyAll_later (wellFormed : WellFormed approvals) (acts : List OperatorAct) :
    Later approvals (applyAll store approvals acts) := by
  induction acts generalizing approvals with
  | nil => exact Later.refl wellFormed
  | cons act acts ih =>
    have first : Later approvals (act.apply store approvals) := apply_later wellFormed act
    exact first.trans (ih first.wellFormed)

/-- Once a pending approval has changed, it never looks as it was prepared again. -/
theorem applyAll_changed {prepared : PendingApproval} (wellFormed : WellFormed approvals)
    (found : approvals.lookup prepared.approvalId = some prepared)
    (isPending : prepared.status = .pending) {first second : List OperatorAct}
    (changed : (applyAll store approvals first).lookup prepared.approvalId ≠ some prepared) :
    ∃ new, (applyAll store approvals (first ++ second)).lookup prepared.approvalId = some new ∧
      new ≠ prepared := by
  have early : Later approvals (applyAll store approvals first) := applyAll_later wellFormed first
  obtain ⟨middle, foundMiddle, change⟩ := early.kept _ _ found
  have settled : middle.status ≠ .pending := by
    rcases change with rfl | settled
    · exact absurd foundMiddle changed
    · exact settled
  have late : Later _ (applyAll store _ second) := applyAll_later early.wellFormed second
  obtain ⟨new, foundNew, change'⟩ := late.kept _ _ foundMiddle
  refine ⟨new, by simpa [applyAll, List.foldl_append] using foundNew, ?_⟩
  rintro rfl
  rcases change' with rfl | still
  · exact settled isPending
  · exact still isPending

end OperatorAct

/-- A new process, after operators acted on the approvals file. -/
def World.acted (w : World) (approvals : Approvals) : World :=
  { w with disk := { w.disk with approvals := approvals }, writesLeft := none }

/-- Recovery succeeds, writes the prepared record exactly once, keeps the stored approval and
clears the journal. -/
def RecoveryKeepsDecision (site : Deployment) (operation : JournalOperation) (approvalId : String)
    (w : World) : Prop :=
  (Harness.recoverOperation site).Ends
    (fun _ t => (t.disk.records.filter (·.recordId == operation.evidence.recordId)).length = 1 ∧
      t.disk.approvals.lookup approvalId = w.disk.approvals.lookup approvalId ∧
      t.disk.journal = none)
    (fun _ _ => False) w

instance (site : Deployment) (operation : JournalOperation) (approvalId : String) (w : World) :
    Decidable (RecoveryKeepsDecision site operation approvalId w) := by
  unfold RecoveryKeepsDecision
  infer_instance

namespace Harness

variable {site : Deployment}

/-- The funding step leaves the approvals alone. -/
theorem ifFunded_approvals {α : Type} {reserved : Decimal}
    {op : Ledger → Clock → Except HarnessError (Update Ledger α)} {w : World} :
    (ifFunded site reserved op).Ends (fun _ t => t.disk.approvals = w.disk.approvals)
      (fun _ _ => True) w := by
  unfold ifFunded
  rw [Proc.ends_ite]
  refine ⟨fun _ => ?_, fun _ => by simp⟩
  rw [Proc.ends_bind, Control.ends_onLedger]
  simp only [Proc.ends_pure]
  refine ⟨fun _ _ => trivial, fun update _ => ⟨fun _ => rfl, fun stored _ => ?_⟩⟩
  exact ⟨fun _ => trivial, fun _ => rfl⟩

/-- Creating the approval again succeeds only while it is stored as prepared, or not stored. -/
theorem recoverApprovalCreate_refuses {approval new : PendingApproval} {reserved : Decimal}
    {w : World} (found : w.disk.approvals.lookup approval.approvalId = some new)
    (other : new ≠ approval) :
    (recoverApprovalCreate site approval reserved).Ends (fun _ _ => False) (fun _ _ => True) w := by
  unfold recoverApprovalCreate
  rw [Proc.ends_bind]
  refine ifFunded_approvals.mono (fun _ t same => ?_) (fun _ _ _ => trivial)
  rw [Proc.ends_bind, Control.ends_onApprovals]
  refine ⟨fun _ _ => trivial, fun update created => ?_⟩
  rw [same, ApprovalStore.createPrepared_ok_iff, found] at created
  rcases created with ⟨same, _⟩ | ⟨absent, _⟩
  · exact absurd (Option.some.inj same) other
  · cases absent

/-- Recovery of a prepared approval raises when the stored approval is another one. -/
theorem recoverOperation_refuses {approval new : PendingApproval} {reservedUsd : PlainDecimal}
    {operation : JournalOperation} {w : World} (journal : w.disk.journal = some operation)
    (kind : operation.payload = .approvalCreate approval reservedUsd)
    (found : w.disk.approvals.lookup approval.approvalId = some new) (other : new ≠ approval) :
    (recoverOperation site).Ends (fun _ _ => False) (fun _ _ => True) w := by
  have lifted {α : Type} {x : Except HarnessError α} {Q : α → World → Prop} {v : World}
      (normal : ∀ a, x = .ok a → Q a v) : (Proc.lift x).Ends Q (fun _ _ => True) v :=
    Proc.ends_lift.2 ⟨normal, fun _ _ => trivial⟩
  simp only [recoverOperation, OperationJournal.active, Proc.ends_bind, Control.ends_disk, journal]
  refine lifted fun _ _ => ?_
  simp only [Proc.ends_pure, Proc.ends_bind, recoverPrepared, Control.ends_disk]
  refine lifted fun _ _ => lifted fun _ _ => ?_
  simp only [replay, kind, Proc.ends_bind]
  exact (recoverApprovalCreate_refuses found other).mono (fun _ _ impossible => impossible.elim)
    (fun _ _ _ => trivial)

/-- After a crash that left the journaled approval stored, any decision or expiry of it makes
recovery fail for ever. -/
theorem decision_defeats_recovery (site : Deployment) (w : World) (operation : JournalOperation)
    (approval : PendingApproval) (reservedUsd : PlainDecimal) (first second : List OperatorAct)
    (wellFormed : WellFormed w.disk.approvals) (journal : w.disk.journal = some operation)
    (kind : operation.payload = .approvalCreate approval reservedUsd)
    (prepared : operation.validate site.digests = .ok ())
    (created : w.disk.approvals.lookup approval.approvalId = some approval)
    (changed : (OperatorAct.applyAll site.approvals w.disk.approvals first).lookup
      approval.approvalId ≠ some approval) :
    ¬ RecoveryKeepsDecision site operation approval.approvalId
      (w.acted (OperatorAct.applyAll site.approvals w.disk.approvals (first ++ second))) := by
  -- a journalled creation is one of a pending approval
  have isPending : approval.status = .pending := by
    obtain ⟨_, _, rest⟩ := bind_ok_iff.1 prepared
    rw [refuseIf_bind_ok_iff, kind] at rest
    obtain ⟨_, _, bound⟩ := bind_ok_iff.1 rest.2
    obtain ⟨_, _, bound⟩ := bind_ok_iff.1 bound
    rw [refuseIf_ok_iff, not_or, not_not] at bound
    exact bound.1
  obtain ⟨new, found, other⟩ : ∃ new, (OperatorAct.applyAll site.approvals w.disk.approvals
      (first ++ second)).lookup approval.approvalId = some new ∧ new ≠ approval :=
    OperatorAct.applyAll_changed wellFormed created isPending changed
  intro keeps
  have refused : (recoverOperation site).Ends (fun _ _ => False) (fun _ _ => True)
      (w.acted (OperatorAct.applyAll site.approvals w.disk.approvals (first ++ second))) :=
    recoverOperation_refuses journal kind found other
  -- recovery would have to end both ways
  have both := refused.and keeps
  unfold Proc.Ends at both
  split at both
  · exact both.1
  · exact both.2

/-- A proposal whose process stopped right after its approval was stored. -/
private def interrupted : World :=
  Demo.start.after (Demo.site Demo.clock)
    ⟨Demo.harness .approvalRequired (Demo.dollars 3) (Demo.dollars 2), [], some 3⟩
    (.handleCall (Demo.call "act_1") Demo.request "" "")

private def interruptedOperation : JournalOperation :=
  interrupted.disk.journal.get (by decide +kernel)

private def interruptedApproval : PendingApproval :=
  (interrupted.disk.approvals.lookup "apr_").get (by decide +kernel)

private def approve : OperatorAct := .decide "apr_" true "operator" "fine" none fun i => 5000 + i

/-- Without a decision this recovery succeeds; the operator's approval makes it fail. -/
theorem approval_defeats_recovery :
    Reachable (Demo.site Demo.clock) interrupted ∧
      interrupted.disk.journal = some interruptedOperation ∧
      interrupted.disk.approvals.lookup "apr_" = some interruptedApproval ∧
      RecoveryKeepsDecision (Demo.site Demo.clock) interruptedOperation "apr_"
        (interrupted.acted interrupted.disk.approvals) ∧
      ¬ RecoveryKeepsDecision (Demo.site Demo.clock) interruptedOperation "apr_"
        (interrupted.acted (OperatorAct.applyAll Demo.approvalStore interrupted.disk.approvals
          [approve])) := by
  refine ⟨.call (.fresh (Demo.start_fresh _)) _ _, ?_, ?_, ?_, ?_⟩ <;> decide +kernel

/-- The general theorem at this run. -/
theorem decision_defeats_recovery_approve :
    ¬ RecoveryKeepsDecision (Demo.site Demo.clock) interruptedOperation
      interruptedApproval.approvalId
      (interrupted.acted (OperatorAct.applyAll (Demo.site Demo.clock).approvals
        interrupted.disk.approvals ([approve] ++ []))) := by
  have wellFormed : WellFormed interrupted.disk.approvals := by
    have only : interrupted.disk.approvals.entries = [⟨"apr_", interruptedApproval⟩] := by
      decide +kernel
    intro id approval found
    have entry := AList.mem_lookup_iff.1 found
    rw [only, List.mem_singleton] at entry
    cases entry
    exact ⟨by decide +kernel, by decide +kernel⟩
  exact decision_defeats_recovery (Demo.site Demo.clock) interrupted interruptedOperation
    interruptedApproval interruptedApproval.terms.reservedUsd [approve] [] wellFormed
    (by decide +kernel) (by decide +kernel) (by decide +kernel) (by decide +kernel)
    (by decide +kernel)

end Harness
end DefiantHarness
