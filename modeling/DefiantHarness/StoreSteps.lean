import DefiantHarness.Naming

/-! The evidence store, the journal and the recovery of an operation take only the steps of the
transition system. -/
namespace DefiantHarness

open Foundation Control

/-- Nothing is written and nothing is noted. -/
structure Still (w t : World) : Prop where
  disk : t.disk = w.disk
  trace : t.trace = w.trace

theorem Still.refl (w : World) : Still w w := ⟨rfl, rfl⟩

theorem Quiet.append {events more : List Event} (first : Quiet events) (second : Quiet more) :
    Quiet (events ++ more) := by
  intro event member
  rcases List.mem_append.1 member with early | late
  · exact first event early
  · exact second event late

theorem Quiet.single {before after : Disk} (same : after.approvals = before.approvals) :
    Quiet [.wrote before after] := by
  intro event member
  rw [List.mem_singleton.1 member]
  exact ⟨before, after, rfl, same⟩

theorem Quiet.nil : Quiet [] := by
  intro event member
  cases member

/-! ### Evidence -/

/-- Only the checkpoint may have moved. -/
structure Checkpointed (w t : World) : Prop where
  disk : t.disk = { w.disk with head := t.disk.head }
  trace : ∃ events, t.trace = w.trace ++ events ∧ Quiet events

/-- The record is sealed at the end of the log. -/
structure Recorded (site : Deployment) (record stored : EvidenceRecord) (w t : World) : Prop where
  sealed : stored = record.sealed site.digests (EvidenceLog.headHash w.disk.records)
  disk : t.disk = { w.disk with records := w.disk.records ++ [stored], head := t.disk.head }
  trace : ∃ events, t.trace = w.trace ++ events ∧ Quiet events ∧
    ∃ before after, .wrote before after ∈ events ∧ before.records = w.disk.records

/-- A record written after the checkpoint moved is written at the same place. -/
theorem Recorded.after_checkpoint {site : Deployment} {record stored : EvidenceRecord} {w v t : World}
    (moved : Checkpointed w v) (recorded : Recorded site record stored v t) :
    Recorded site record stored w t := by
  obtain ⟨early, earlyTrace, earlyQuiet⟩ := moved.trace
  obtain ⟨late, lateTrace, lateQuiet, before, after, member, records⟩ := recorded.trace
  have same : v.disk.records = w.disk.records := by rw [moved.disk]
  refine ⟨same ▸ recorded.sealed, ?_, early ++ late, ?_, earlyQuiet.append lateQuiet, before, after,
    List.mem_append_right _ member, records.trans same⟩
  · rw [recorded.disk, moved.disk]
  · rw [lateTrace, earlyTrace, List.append_assoc]

theorem Replayed.of_head {disk : Disk} {payload : OperationPayload} (replayed : Replayed disk payload)
    (head : Option EvidenceHead) : Replayed { disk with head := head } payload := by
  cases payload <;> exact replayed

theorem Appends.of_head {disk : Disk} {record : EvidenceRecord} (appends : Appends disk record)
    (head : Option EvidenceHead) : Appends { disk with head := head } record := by
  cases appends with
  | refused idle blocked => exact .refused idle blocked
  | authorized idle unknown skipped allowed => exact .authorized idle unknown skipped allowed
  | resumed idle approvalId approval found executing action hash status =>
    exact .resumed idle approvalId approval found executing action hash status
  | reconciled idle approvalId approval intent found intended held status =>
    exact .reconciled idle approvalId approval intent found intended held status
  | journaled operation active same replayed =>
    exact .journaled operation active same (replayed.of_head head)

namespace EvidenceStore

variable {site : Deployment} {w : World}

private theorem placeHead_does {next : Option EvidenceHead}
    (current : ∀ head, next = some head → ∃ now, head = EvidenceLog.currentHead w.disk.records now) :
    Does site (placeHead next) (fun _ t => Checkpointed w t) w := by
  cases next with
  | none => exact does_pure ⟨rfl, [], by simp, .nil⟩
  | some head =>
    obtain ⟨now, rfl⟩ := current head rfl
    exact does_disk_bind (does_save (.checkpoint _ rfl rfl)
      ⟨rfl, [.wrote w.disk _], rfl, .single rfl⟩)

theorem reconcileHead_does : Does site (reconcileHead site) (fun _ t => Checkpointed w t) w := by
  refine does_disk_bind (does_now_bind (does_lift_bind fun next reconciled => ?_))
  refine (placeHead_does fun head found => ?_).mono fun _ _ _ done => ⟨done.disk, done.trace⟩
  subst found
  unfold EvidenceLog.reconcileHead at reconciled
  split at reconciled
  next =>
    cases reconciled
    exact ⟨_, rfl⟩
  next =>
    split at reconciled
    next => cases reconciled
    next =>
      cases reconciled
      exact ⟨_, rfl⟩
    next => cases reconciled
    next => cases reconciled

private theorem advanceHead_does {before : List EvidenceRecord} :
    Does site (advanceHead site before) (fun _ t => Checkpointed w t) w := by
  refine does_disk_bind (does_now_bind (does_lift_bind fun next advanced => ?_))
  refine (placeHead_does fun head found => ?_).mono fun _ _ _ done => ⟨done.disk, done.trace⟩
  subst found
  simp only [EvidenceLog.advanceHead, orRefuse_bind_ok_iff] at advanced
  obtain ⟨state, -, advanced⟩ := advanced
  split at advanced
  next => cases advanced
  next =>
    simp only [refuseIf_bind_ok_iff, pure_ok_iff, Option.some.injEq] at advanced
    exact ⟨_, advanced.2⟩

private theorem writeRecord_does {record : EvidenceRecord} (why : Appends w.disk record)
    (fresh : EvidenceLog.get w.disk.records record.recordId = none)
    (drawn : Drawn site w.issued "evd" record.recordId) :
    Does site (writeRecord site record) (fun stored t => Recorded site record stored w t) w := by
  refine does_disk_bind (does_lift_bind fun _ _ => ?_)
  let after : Disk := { w.disk with records := w.disk.records ++
    [record.sealed site.digests (EvidenceLog.headHash w.disk.records)] }
  refine (does_save (R := fun _ t => t = w.saved after) (.append record why fresh drawn) rfl).bind ?_
  rintro _ _ - rfl
  refine advanceHead_does.bind fun _ t _ moved => does_pure ?_
  obtain ⟨events, trace, quiet⟩ := moved.trace
  have quietly : Quiet [.wrote w.disk after] := .single rfl
  refine ⟨rfl, moved.disk, [.wrote w.disk after] ++ events, ?_, quietly.append quiet,
    w.disk, after, by simp, rfl⟩
  rw [trace, World.saved_trace, List.append_assoc]

theorem append_does {record : EvidenceRecord} (why : Appends w.disk record)
    (fresh : EvidenceLog.get w.disk.records record.recordId = none)
    (drawn : Drawn site w.issued "evd" record.recordId) :
    Does site (append site record) (fun stored t => Recorded site record stored w t) w := by
  refine does_lift_bind fun _ _ => does_disk_bind (does_lift_bind fun _ _ => ?_)
  refine reconcileHead_does.bind fun _ v moves moved => ?_
  have shape := moved.disk
  have appends : Appends v.disk record := by
    rw [shape]
    exact why.of_head _
  have unknown : EvidenceLog.get v.disk.records record.recordId = none := by
    rw [shape]
    exact fresh
  exact (writeRecord_does appends unknown (drawn.mono moves.issued_le)).mono
    fun _ _ _ recorded => recorded.after_checkpoint moved

/-- The prepared record is in the log, and only the log and its checkpoint may have changed. -/
structure Sealed (record : EvidenceRecord) (w t : World) : Prop where
  present : ∃ stored ∈ t.disk.records, stored.comparable = record.comparable
  kept : ∀ stored ∈ w.disk.records, stored ∈ t.disk.records
  disk : t.disk = { w.disk with records := t.disk.records, head := t.disk.head }

theorem appendIdempotent_does {record : EvidenceRecord} (why : Appends w.disk record)
    (drawn : Drawn site w.issued "evd" record.recordId) :
    Does site (appendIdempotent site record) (fun _ t => Sealed record w t) w := by
  refine does_lift_bind fun _ _ => does_disk_bind (does_lift_bind fun _ _ => ?_)
  refine reconcileHead_does.bind fun _ v moves moved => ?_
  have shape := moved.disk
  split
  next present found =>
    refine does_lift_bind fun _ same => does_pure ?_
    rw [refuseIf_ok_iff, not_not] at same
    refine ⟨⟨present, ?_, same⟩, fun stored member => ?_, ?_⟩
    · rw [shape]
      exact List.mem_of_find?_eq_some found
    · rw [shape]
      exact member
    · rw [shape]
  next absent =>
    have appends : Appends v.disk record := by
      rw [shape]
      exact why.of_head _
    have unknown : EvidenceLog.get v.disk.records record.recordId = none := by
      rw [shape]
      exact absent
    refine (writeRecord_does appends unknown (drawn.mono moves.issued_le)).mono
      fun stored t _ recorded => ?_
    have records : t.disk.records = w.disk.records ++ [stored] := by
      rw [recorded.disk, shape]
    refine ⟨⟨stored, ?_, ?_⟩, fun old member => ?_, ?_⟩
    · rw [records]
      exact List.mem_append_right _ (List.mem_singleton_self _)
    · rw [recorded.sealed]
      rfl
    · rw [records]
      exact List.mem_append_left _ member
    · rw [recorded.disk, shape]

end EvidenceStore

/-! ### Journal -/

namespace OperationJournal

variable {site : Deployment} {w : World}

theorem active_does :
    Does site (active site)
      (fun waiting t => t = w ∧ w.disk.journal = waiting ∧
        ∀ operation, waiting = some operation → operation.validate site.digests = .ok ()) w := by
  refine does_disk_bind ?_
  split
  next idle => exact does_pure ⟨rfl, idle, by simp⟩
  next operation active =>
    refine does_lift_bind fun _ valid => does_pure ⟨rfl, active, fun found same => ?_⟩
    cases same
    exact valid

/-- The journal holds a new operation; nothing else changed. -/
structure Opened (site : Deployment) (payload : OperationPayload) (evidence : EvidenceRecord)
    (operation : JournalOperation) (w t : World) : Prop where
  payload : operation.payload = payload
  evidence : operation.evidence = evidence
  valid : operation.validate site.digests = .ok ()
  disk : t.disk = { w.disk with journal := some operation }

theorem prepare_does {payload : OperationPayload} {evidence : EvidenceRecord}
    (fresh : EvidenceLog.get w.disk.records evidence.recordId = none)
    (drawn : Drawn site w.issued "evd" evidence.recordId)
    (why : ∀ v, v.disk = w.disk → v.trace = w.trace → w.issued ≤ v.issued →
      Prepares site v evidence payload) :
    Does site (prepare site payload evidence)
      (fun operation t => Opened site payload evidence operation w t) w := by
  refine does_lift_bind fun _ _ => does_lift_bind fun _ valid => ?_
  refine does_newId_bind (does_now_bind ?_)
  refine active_does.bind ?_
  rintro waiting _ - ⟨rfl, journal, -⟩
  cases waiting with
  | some other => exact does_raise
  | none =>
    refine does_lift_bind fun _ _ => does_disk_bind ?_
    have le : w.issued ≤ (w.drawn.ticked).issued := Nat.le_succ _
    let operation : JournalOperation :=
      ⟨"op" ++ "_" ++ site.ids w.issued, site.clock w.drawn.readings 0, payload, evidence⟩
    have mutation : Mutation site w.drawn.ticked { w.disk with journal := some operation } :=
      .prepare operation journal valid fresh (drawn.mono le) (why _ rfl rfl le)
    refine (does_save (R := fun _ t => t.disk = { w.disk with journal := some operation }) mutation
      rfl).bind fun _ t _ disk => does_pure ?_
    exact ⟨rfl, rfl, valid, disk⟩

theorem complete_does {operation : JournalOperation} (journal : w.disk.journal = some operation)
    (carried : CarriedOut w.disk operation)
    (recorded : ∃ record ∈ w.disk.records, record.comparable = operation.evidence.comparable) :
    Does site (complete site operation.operationId)
      (fun _ t => t.disk = { w.disk with journal := none }) w := by
  refine active_does.bind ?_
  rintro waiting _ - ⟨rfl, active, valid⟩
  rw [journal] at active
  subst active
  refine does_lift_bind fun _ _ => does_disk_bind ?_
  exact does_save (.complete operation journal (valid _ rfl) carried recorded) rfl

end OperationJournal
end DefiantHarness
