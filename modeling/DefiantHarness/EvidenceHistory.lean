import DefiantHarness.SingleCompletion

/-! The evidence over runs: the log only grows, stays chained, and its checkpoint stays on it. -/
namespace DefiantHarness

open Foundation

/-- The checkpoint stands at the end of a part of the log. -/
def EvidenceHead.StandsOn (head : EvidenceHead) (records : List EvidenceRecord) : Prop :=
  head.recordCount ≤ records.length ∧
    EvidenceLog.headHash (records.take head.recordCount) = head.headHash

namespace EvidenceHead

variable {head : EvidenceHead} {records more : List EvidenceRecord}

theorem StandsOn.append (stands : head.StandsOn records) : head.StandsOn (records ++ more) := by
  obtain ⟨within, hash⟩ := stands
  refine ⟨?_, ?_⟩
  · rw [List.length_append]
    omega
  · rwa [List.take_append_of_le_length within]

theorem standsOn_current (now : Timestamp) :
    (EvidenceLog.currentHead records now).StandsOn records := by
  refine ⟨le_rfl, ?_⟩
  simp [EvidenceLog.currentHead]

/-- Exactly the checkpoints on the log are recognized. -/
theorem standsOn_iff_assessed :
    head.StandsOn records ↔ EvidenceLog.assessHead head records = .verified ∨
      EvidenceLog.assessHead head records = .forwardRecovery := by
  unfold EvidenceLog.assessHead StandsOn
  split
  next same =>
    rw [← same, List.take_length]
    split
    next hash => simp [hash]
    next other => simp [other]
  next apart =>
    split
    next behind =>
      simp only [reduceCtorEq, or_self, iff_false]
      omega
    next =>
      have within : head.recordCount ≤ records.length := by omega
      split
      next hash => simp [within, hash]
      next other => simp [other]

end EvidenceHead

/-- What every run keeps of the evidence. -/
structure Intact (site : Deployment) (disk : Disk) : Prop where
  chained : EvidenceLog.verify site.digests disk.records = .ok ()
  distinct : (disk.records.map (·.recordId)).Nodup
  checkpointed : ∀ head, disk.head = some head → head.StandsOn disk.records

namespace Intact

variable {site : Deployment} {w t : World}

theorem fresh (start : w.Fresh site) : Intact site w.disk where
  chained := by rw [start.records]; rfl
  distinct := by simp [start.records]
  checkpointed := by simp [start.head]

private theorem written (intact : Intact site w.disk) {after : Disk}
    (mutation : Mutation site w after) : Intact site after := by
  cases mutation with
  | checkpoint head count hash =>
    refine ⟨intact.chained, intact.distinct, ?_⟩
    intro found stored
    obtain rfl : head = found := Option.some.inj stored
    refine ⟨count.le, ?_⟩
    rw [count, List.take_length, hash]
  | append record why fresh drawn =>
    refine ⟨EvidenceLog.verify_append intact.chained record, ?_, ?_⟩
    · have absent : record.recordId ∉ w.disk.records.map (·.recordId) := by
        intro member
        obtain ⟨other, old, same⟩ := List.mem_map.1 member
        exact absurd same (by simpa using List.find?_eq_none.1 fresh other old)
      rw [List.map_append, List.nodup_append]
      refine ⟨intact.distinct, List.nodup_singleton _, ?_⟩
      rintro id member other new rfl
      rw [List.mem_singleton.1 new] at member
      exact absent member
    · intro head stored
      exact (intact.checkpointed head stored).append
  | ledger | approvals | prepare | complete =>
    exact ⟨intact.chained, intact.distinct, intact.checkpointed⟩

theorem step (intact : Intact site w.disk) (step : Step site w t) : Intact site t.disk := by
  cases step with
  | write after mutation => exact intact.written mutation
  | tick | draw | enter | evaluate | decide | claim | compute | dispatch => exact intact

theorem reachable (reached : Reachable site w) : Intact site w.disk :=
  reached.invariant (I := fun w => Intact site w.disk) (fun _ start => .fresh start)
    fun _ _ _ intact step => intact.step step

/-- The next append is refused neither for the chain nor for the checkpoint. -/
theorem appendable (intact : Intact site w.disk) (purpose : String) (now : Timestamp) :
    EvidenceStore.requireChain site purpose w.disk.records = .ok () ∧
      ∃ head, EvidenceLog.reconcileHead w.disk.head w.disk.records now = .ok head := by
  refine ⟨by rw [EvidenceStore.requireChain, intact.chained]; rfl, ?_⟩
  unfold EvidenceLog.reconcileHead
  split
  next => exact ⟨_, rfl⟩
  next head stored =>
    rcases EvidenceHead.standsOn_iff_assessed.1 (intact.checkpointed head stored) with
      verified | recovers
    · exact ⟨none, by rw [verified]; rfl⟩
    · exact ⟨_, by rw [recovers]; rfl⟩

end Intact

/-! ### Checkpoints only move forward -/

/-- A checkpoint is never withdrawn or moved back. -/
def Advances (before after : Disk) : Prop :=
  ∀ head, before.head = some head →
    ∃ later, after.head = some later ∧ head.recordCount ≤ later.recordCount

theorem Advances.refl (disk : Disk) : Advances disk disk := fun head stored => ⟨head, stored, le_rfl⟩

theorem Advances.trans {a b c : Disk} (first : Advances a b) (second : Advances b c) :
    Advances a c := by
  intro head stored
  obtain ⟨middle, placed, le⟩ := first head stored
  obtain ⟨last, final, le'⟩ := second middle placed
  exact ⟨last, final, le.trans le'⟩

theorem Step.advances {site : Deployment} {w t : World} (intact : Intact site w.disk)
    (step : Step site w t) : Advances w.disk t.disk := by
  cases step with
  | write after mutation =>
    cases mutation with
    | checkpoint head count hash =>
      intro old stored
      refine ⟨head, rfl, ?_⟩
      rw [count]
      exact (intact.checkpointed old stored).1
    | append | ledger | approvals | prepare | complete => exact .refl _
  | _ => exact .refl _

theorem Moves.advances {site : Deployment} {w t : World} (intact : Intact site w.disk)
    (moves : Moves site w t) : Advances w.disk t.disk ∧ Intact site t.disk := by
  induction moves with
  | refl => exact ⟨.refl _, intact⟩
  | tail _ step ih => exact ⟨ih.1.trans (step.advances ih.2), ih.2.step step⟩

/-- Later calls only take further steps. -/
theorem Reachable.moves_afterAll {site : Deployment} {w : World} (reached : Reachable site w)
    (calls : List (Process × Call)) : Moves site w (w.afterAll site calls) := by
  induction calls generalizing w with
  | nil => exact .refl
  | cons call rest ih =>
    obtain ⟨-, -, tracked, -⟩ := reached.moves
    exact (World.after_moves tracked call.1 call.2).trans (ih (.call reached call.1 call.2))

/-- Whatever calls are made, by whichever processes and with stops anywhere between their whole
durable writes: the log is the earlier log and what was appended since, it verifies and its records
have distinct ids, and its checkpoint stands on it, was never moved back, and is accepted by the next
append. -/
theorem evidence_only_grows {site : Deployment} {w : World} (reached : Reachable site w)
    (calls : List (Process × Call)) :
    let later := (w.afterAll site calls).disk
    (∃ appended, later.records = w.disk.records ++ appended) ∧
      EvidenceLog.verify site.digests later.records = .ok () ∧
      (later.records.map (·.recordId)).Nodup ∧
      (∀ head, later.head = some head →
        EvidenceLog.assessHead head later.records = .verified ∨
          EvidenceLog.assessHead head later.records = .forwardRecovery) ∧
      (∀ head, w.disk.head = some head →
        ∃ moved, later.head = some moved ∧ head.recordCount ≤ moved.recordCount) ∧
      ∀ now, ∃ head, EvidenceLog.reconcileHead later.head later.records now = .ok head := by
  have moves := reached.moves_afterAll calls
  obtain ⟨advances, intact⟩ := Moves.advances (.reachable reached) moves
  obtain ⟨appended, grown⟩ := moves.records_grow
  refine ⟨⟨appended, grown.symm⟩, intact.chained, intact.distinct, ?_, advances, ?_⟩
  · intro head stored
    exact EvidenceHead.standsOn_iff_assessed.1 (intact.checkpointed head stored)
  · intro now
    exact (intact.appendable "" now).2

/-- The second process stops between the append of its record and the checkpoint. -/
private def tornRun : World :=
  Demo.start.afterAll (Demo.site Demo.clock)
    [(Demo.process .allow .zero .zero none, .handleCall (Demo.call "act_1") Demo.request "" ""),
      (Demo.process .allow .zero .zero (some 1), .handleCall (Demo.call "act_22") Demo.request "" "")]

/-- The general theorem at a log that is one record ahead of its checkpoint. -/
theorem evidence_only_grows_torn :
    tornRun.disk.head.map (EvidenceLog.assessHead · tornRun.disk.records) =
        some .forwardRecovery ∧
      ∃ appended, (tornRun.afterAll (Demo.site Demo.clock)
        [(Demo.process .allow .zero .zero none, .recoverOperation)]).disk.records =
          tornRun.disk.records ++ appended := by
  have reached : Reachable (Demo.site Demo.clock) tornRun :=
    (Reachable.fresh (Demo.start_fresh _)).afterAll _
  exact ⟨by decide +kernel, (evidence_only_grows reached _).1⟩

end DefiantHarness
