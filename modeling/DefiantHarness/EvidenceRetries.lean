import DefiantHarness.EvidenceHistory
import DefiantHarness.Foundation.HashChain

/-! Repeating the append of a prepared record, whichever of the attempts stop; and what a checkpoint
says about a log that is found beside it. -/
namespace DefiantHarness

open Foundation Proc

namespace EvidenceStore

variable {site : Deployment} {log : List EvidenceRecord} {record : EvidenceRecord} {endless : Prop}
  {w : World}

/-- The record as it is written behind a log. -/
def storedBehind (site : Deployment) (log : List EvidenceRecord) (record : EvidenceRecord) :
    EvidenceRecord :=
  record.sealed site.digests (EvidenceLog.headHash log)

/-- What holds at all times of the attempts: the log is the first one, or the record stands behind it;
a process that was not going to stop has not been stopped. -/
structure Retrying (site : Deployment) (log : List EvidenceRecord) (record : EvidenceRecord)
    (endless : Prop) (w : World) : Prop where
  records : w.disk.records = log ∨ w.disk.records = log ++ [storedBehind site log record]
  intact : Intact site w.disk
  running : endless → w.writesLeft = none

/-- The only way in which an attempt fails: the process stops. -/
def Stopped (site : Deployment) (log : List EvidenceRecord) (record : EvidenceRecord)
    (endless : Prop) (e : HarnessError) (w : World) : Prop :=
  e = stopped ∧ Retrying site log record endless w ∧ w.writesLeft = some 0

/-- The checkpoint stands at the end of the log. -/
def AtEnd (disk : Disk) : Prop :=
  ∃ head, disk.head = some head ∧ head.recordCount = disk.records.length ∧
    head.headHash = EvidenceLog.headHash disk.records

theorem Retrying.same {t : World} (retrying : Retrying site log record endless w)
    (records : t.disk.records = w.disk.records) (head : t.disk.head = w.disk.head)
    (writes : t.writesLeft = w.writesLeft) : Retrying site log record endless t where
  records := by rw [records]; exact retrying.records
  intact := by
    refine ⟨?_, ?_, ?_⟩
    · rw [records]
      exact retrying.intact.chained
    · rw [records]
      exact retrying.intact.distinct
    · rw [records, head]
      exact retrying.intact.checkpointed
  running go := writes.trans (retrying.running go)

/-- A checkpoint at the end of the log may be placed at any time. -/
theorem Retrying.placed (retrying : Retrying site log record endless w) (now : Timestamp) :
    Retrying site log record endless
      (w.saved { w.disk with head := some (EvidenceLog.currentHead w.disk.records now) }) where
  records := retrying.records
  intact := by
    refine ⟨retrying.intact.chained, retrying.intact.distinct, ?_⟩
    rintro head ⟨⟩
    exact EvidenceHead.standsOn_current now
  running go := by rw [World.saved_writesLeft, retrying.running go]; rfl

theorem atEnd_current (disk : Disk) (now : Timestamp) :
    AtEnd { disk with head := some (EvidenceLog.currentHead disk.records now) } :=
  ⟨_, rfl, rfl, rfl⟩

private theorem save_ends {disk : Disk} (retrying : Retrying site log record endless w)
    {Q : Unit → World → Prop} (ended : Q () (w.saved disk)) :
    (Control.save disk).Ends Q (Stopped site log record endless) w := by
  rw [Control.ends_save]
  exact ⟨fun none => ⟨rfl, retrying, none⟩, fun _ => ended⟩

theorem reconcileHead_ends (retrying : Retrying site log record endless w) :
    (reconcileHead site).Ends (fun _ t => Retrying site log record endless t ∧
      t.disk.records = w.disk.records ∧ AtEnd t.disk) (Stopped site log record endless) w := by
  have ticked : Retrying site log record endless w.ticked := retrying.same rfl rfl rfl
  have placed (now : Timestamp) :
      (placeHead (some (EvidenceLog.currentHead w.disk.records now))).Ends (fun _ t =>
        Retrying site log record endless t ∧ t.disk.records = w.disk.records ∧ AtEnd t.disk)
        (Stopped site log record endless) w.ticked := by
    unfold placeHead
    rw [ends_bind, Control.ends_disk]
    exact save_ends ticked ⟨ticked.placed now, rfl, atEnd_current _ now⟩
  unfold reconcileHead
  rw [ends_bind, Control.ends_disk, ends_bind, Control.ends_now, ends_bind, ends_lift]
  unfold EvidenceLog.reconcileHead
  split
  next => exact ⟨fun _ ok => by cases ok; exact placed _, fun _ raised => by cases raised⟩
  next head stored =>
    -- a checkpoint of the log or of a part of it: in neither case is it a rollback
    rcases EvidenceHead.standsOn_iff_assessed.1 (retrying.intact.checkpointed head stored) with
      verified | recovers
    · rw [verified]
      refine ⟨fun _ ok => ?_, fun _ raised => by cases raised⟩
      cases ok
      refine ends_pure.2 ⟨ticked, rfl, head, stored, ?_⟩
      unfold EvidenceLog.assessHead at verified
      split at verified
      next count =>
        split at verified
        next hash => exact ⟨count.symm, hash.symm⟩
        next => cases verified
      next =>
        split at verified
        next => cases verified
        next => split at verified <;> cases verified
    · rw [recovers]
      exact ⟨fun _ ok => by cases ok; exact placed _, fun _ raised => by cases raised⟩

private theorem advanceHead_ends {before : List EvidenceRecord} {head : EvidenceHead}
    (retrying : Retrying site log record endless w) (stored : w.disk.head = some head)
    (count : head.recordCount = before.length) (hash : head.headHash = EvidenceLog.headHash before) :
    (advanceHead site before).Ends (fun _ t => Retrying site log record endless t ∧
      t.disk.records = w.disk.records) (Stopped site log record endless) w := by
  have ticked : Retrying site log record endless w.ticked := retrying.same rfl rfl rfl
  unfold advanceHead
  rw [ends_bind, Control.ends_disk, ends_bind, Control.ends_now, ends_bind, ends_lift, stored]
  -- another writer may have advanced it, and then nothing is saved
  by_cases already : head.recordCount = w.disk.records.length ∧
      head.headHash = EvidenceLog.headHash w.disk.records
  · have kept (now : Timestamp) :
        EvidenceLog.advanceHead (some head) before w.disk.records now = .ok none := by
      simp [EvidenceLog.advanceHead, orRefuse, already]
    rw [kept]
    refine ⟨fun _ ok => ?_, fun _ raised => by cases raised⟩
    cases ok
    exact ends_pure.2 ⟨ticked, rfl⟩
  · have moved (now : Timestamp) :
        EvidenceLog.advanceHead (some head) before w.disk.records now =
          .ok (some (EvidenceLog.currentHead w.disk.records now)) := by
      have at_ : ¬ (head.recordCount ≠ before.length ∨
          head.headHash ≠ EvidenceLog.headHash before) := by
        rw [not_or, not_not, not_not]
        exact ⟨count, hash⟩
      simp [EvidenceLog.advanceHead, orRefuse, already, refuseIf_of_not at_]
    rw [moved]
    refine ⟨fun _ ok => ?_, fun _ raised => by cases raised⟩
    cases ok
    unfold placeHead
    rw [ends_bind, Control.ends_disk]
    exact save_ends ticked ⟨ticked.placed _, rfl⟩

private theorem intact_appended (intact : Intact site w.disk)
    (absent : EvidenceLog.get w.disk.records record.recordId = none) :
    Intact site { w.disk with
      records := w.disk.records ++ [storedBehind site w.disk.records record] } where
  chained := EvidenceLog.verify_append intact.chained record
  distinct := by
    rw [List.map_append, List.nodup_append]
    refine ⟨intact.distinct, List.nodup_singleton _, ?_⟩
    rintro id member other new rfl
    rw [List.mem_singleton.1 new] at member
    obtain ⟨found, old, same⟩ := List.mem_map.1 member
    have apart : found.recordId ≠ record.recordId := by
      simpa using List.find?_eq_none.1 absent found old
    exact absurd same apart
  checkpointed head stored := (intact.checkpointed head stored).append

private theorem writeRecord_ends (retrying : Retrying site log record endless w)
    (absent : EvidenceLog.get log record.recordId = none)
    (first : w.disk.records = log) (at_ : AtEnd w.disk)
    (fits : site.limits.record (storedBehind site log record) = true) :
    (writeRecord site record).Ends (fun stored t => stored = storedBehind site log record ∧
      Retrying site log record endless t ∧ t.disk.records = log ++ [stored])
      (Stopped site log record endless) w := by
  obtain ⟨head, stored, count, hash⟩ := at_
  subst first
  -- the world between the append and the checkpoint
  have appended : Retrying site w.disk.records record endless (w.saved { w.disk with
      records := w.disk.records ++ [storedBehind site w.disk.records record] }) := by
    refine ⟨.inr rfl, intact_appended retrying.intact absent, fun go => ?_⟩
    rw [World.saved_writesLeft, retrying.running go]
    rfl
  have passes : ¬ site.limits.record (storedBehind site w.disk.records record) = false := by
    rw [fits]
    simp
  unfold writeRecord
  rw [ends_bind, Control.ends_disk, ends_bind]
  rw [show record.sealed site.digests (EvidenceLog.headHash w.disk.records) =
    storedBehind site w.disk.records record from rfl, refuseIf_of_not passes, ends_lift_ok, ends_bind]
  apply save_ends retrying
  rw [ends_bind]
  apply (advanceHead_ends appended stored count hash).mono
  · rintro _ t ⟨later, same⟩
    exact ends_pure.2 ⟨rfl, later, same⟩
  · exact fun _ _ stops => stops

private theorem get_append_self (absent : EvidenceLog.get log record.recordId = none) :
    EvidenceLog.get (log ++ [storedBehind site log record]) record.recordId =
      some (storedBehind site log record) := by
  unfold EvidenceLog.get at absent ⊢
  rw [List.find?_append, absent, Option.none_or]
  simp [storedBehind, EvidenceRecord.sealed]

theorem appendIdempotent_ends (retrying : Retrying site log record endless w)
    (unsealed : record.recordHash = "") (absent : EvidenceLog.get log record.recordId = none)
    (fits : site.limits.record (storedBehind site log record) = true) :
    (appendIdempotent site record).Ends (fun stored t => stored = storedBehind site log record ∧
      Retrying site log record endless t ∧ t.disk.records = log ++ [stored])
      (Stopped site log record endless) w := by
  have chain : requireChain site "to append to" w.disk.records = .ok () := by
    rw [requireChain, retrying.intact.chained]
    rfl
  unfold appendIdempotent
  rw [ends_bind, refuseIf_of_not (not_not.2 unsealed), ends_lift_ok, ends_bind, Control.ends_disk,
    ends_bind, chain, ends_lift_ok, ends_bind]
  apply (reconcileHead_ends retrying).mono
  · rintro _ t ⟨later, same, at_⟩
    rcases retrying.records with first | behind
    · rw [first, absent]
      exact writeRecord_ends later absent (same.trans first) at_ fits
    · rw [behind, get_append_self absent]
      have recognized : ¬ (storedBehind site log record).comparable ≠ record.comparable :=
        not_not.2 rfl
      rw [ends_bind, refuseIf_of_not recognized, ends_lift_ok, ends_pure]
      exact ⟨rfl, later, same.trans behind⟩
  · exact fun _ _ stops => stops

/-- Placing a checkpoint leaves the log alone. -/
private theorem reconcileHead_records :
    (reconcileHead site).Ends (fun _ t => t.disk.records = w.disk.records)
      (fun _ t => t.disk.records = w.disk.records) w := by
  unfold reconcileHead
  rw [ends_bind, Control.ends_disk, ends_bind, Control.ends_now, ends_bind, ends_lift]
  refine ⟨fun next _ => ?_, fun _ _ => rfl⟩
  cases next with
  | none => exact ends_pure.2 rfl
  | some head =>
    unfold placeHead
    rw [ends_bind, Control.ends_disk, Control.ends_save]
    exact ⟨fun _ => rfl, fun _ => rfl⟩

/-- A record that differs from the stored one under its id is refused, and nothing is appended. -/
theorem appendIdempotent_conflict {present : EvidenceRecord}
    (found : EvidenceLog.get w.disk.records record.recordId = some present)
    (other : present.comparable ≠ record.comparable) :
    (appendIdempotent site record).Ends (fun _ _ => False)
      (fun _ t => t.disk.records = w.disk.records) w := by
  unfold appendIdempotent
  rw [ends_bind, ends_lift]
  refine ⟨fun _ _ => ?_, fun _ _ => rfl⟩
  rw [ends_bind, Control.ends_disk, ends_bind, ends_lift]
  refine ⟨fun _ _ => ?_, fun _ _ => rfl⟩
  rw [ends_bind]
  apply reconcileHead_records.mono
  · intro _ t same
    rw [found]
    dsimp only
    rw [ends_bind, refuseIf, if_pos other]
    exact ends_lift_error.2 same
  · exact fun _ _ same => same

end EvidenceStore

/-! ### Attempts -/

/-- One attempt to append a prepared record, by a process that stops after so many writes. -/
def World.attempt (site : Deployment) (record : EvidenceRecord) (w : World)
    (writesLeft : Option Nat) : Except HarnessError EvidenceRecord × World :=
  EvidenceStore.appendIdempotent site record { w with writesLeft := writesLeft }

/-- The world after several attempts. -/
def World.attempted (site : Deployment) (record : EvidenceRecord) (w : World)
    (budgets : List (Option Nat)) : World :=
  budgets.foldl (fun world budget => (world.attempt site record budget).2) w

open EvidenceStore in
private theorem attempt_ends {site : Deployment} {record : EvidenceRecord} {w t : World}
    (retrying : Retrying site w.disk.records record False t) (unsealed : record.recordHash = "")
    (absent : EvidenceLog.get w.disk.records record.recordId = none)
    (fits : site.limits.record (storedBehind site w.disk.records record) = true)
    (budget : Option Nat) :
    (appendIdempotent site record).Ends (fun stored u =>
        stored = storedBehind site w.disk.records record ∧
        Retrying site w.disk.records record (budget = none) u ∧
        u.disk.records = w.disk.records ++ [stored])
      (Stopped site w.disk.records record (budget = none)) { t with writesLeft := budget } :=
  appendIdempotent_ends
    ⟨retrying.records, retrying.intact, fun none => none⟩ unsealed absent fits

open EvidenceStore in
private theorem attempted_retrying {site : Deployment} {record : EvidenceRecord} {w t : World}
    (start : Retrying site w.disk.records record False t) (unsealed : record.recordHash = "")
    (absent : EvidenceLog.get w.disk.records record.recordId = none)
    (fits : site.limits.record (storedBehind site w.disk.records record) = true)
    (budgets : List (Option Nat)) :
    Retrying site w.disk.records record False (t.attempted site record budgets) := by
  induction budgets generalizing t with
  | nil => exact start
  | cons budget rest ih =>
    apply ih
    dsimp only
    have ends := attempt_ends start unsealed absent fits budget
    unfold World.attempt
    rcases run : appendIdempotent site record { t with writesLeft := budget } with ⟨answer, u⟩
    dsimp only
    have forget (retrying : Retrying site w.disk.records record (budget = none) u) :
        Retrying site w.disk.records record False u :=
      ⟨retrying.records, retrying.intact, False.elim⟩
    cases answer with
    | ok stored => exact forget (ends.ok run).2.1
    | error e => exact forget (ends.error run).2.1

/-- A log with the records of one mail. -/
private def mailLog : World :=
  Demo.start.afterAll (Demo.site Demo.clock)
    [(Demo.process .allow .zero .zero none, .handleCall (Demo.call "act_1") Demo.request "" "")]

/-- The last record of that log once more, prepared under an id of its own. -/
private def preparedRecord : EvidenceRecord :=
  { (mailLog.disk.records.getLast (by decide +kernel)).comparable with recordId := "evd_prepared" }

/-- The hash tells the bodies of these records apart, and is none of the hash before the first one. -/
structure Distinguishes (digests : Digests) (records : List EvidenceRecord) : Prop where
  injective : ∀ a ∈ records, ∀ b ∈ records,
    digests.record a.body = digests.record b.body → a.body = b.body
  fresh : ∀ a ∈ records, digests.record a.body ≠ genesis

/-- The hashes of these records. -/
def recordChain (digests : Digests) (records : List EvidenceRecord) :
    HashChain EvidenceRecord String where
  back record := some record.previousRecordHash
  own record := some record.recordHash
  content record := if record ∈ records then some (digests.record record.body) else none

section Checkpoints

variable {digests : Digests} {all log found : List EvidenceRecord}

private theorem linked_of_verifyFrom {previous : String} (within : log ⊆ all)
    (chained : EvidenceLog.verifyFrom digests previous log = .ok ()) :
    (recordChain digests all).Linked previous log := by
  induction log generalizing previous with
  | nil => trivial
  | cons record rest ih =>
    simp only [EvidenceLog.verifyFrom, refuseIf_bind_ok_iff, not_not] at chained
    obtain ⟨links, own, tail⟩ := chained
    refine ⟨congrArg some links, record.recordHash, ?_, rfl, ?_⟩
    · dsimp only [recordChain]
      rw [if_pos (within List.mem_cons_self), own]
    · exact ih (fun _ member => within (List.mem_cons_of_mem _ member)) tail

private theorem head_recordChain :
    (recordChain digests all).head genesis log = some (EvidenceLog.headHash log) := by
  unfold HashChain.head EvidenceLog.headHash
  cases log.getLast? <;> rfl

private theorem verifyFrom_take {previous : String}
    (chained : EvidenceLog.verifyFrom digests previous log = .ok ()) (n : Nat) :
    EvidenceLog.verifyFrom digests previous (log.take n) = .ok () := by
  induction log generalizing previous n with
  | nil => simpa using chained
  | cons record rest ih =>
    cases n with
    | zero => rfl
    | succ n =>
      simp only [EvidenceLog.verifyFrom, refuseIf_bind_ok_iff, List.take_succ_cons] at chained ⊢
      exact ⟨chained.1, chained.2.1, ih chained.2.2 n⟩

private theorem content_recordChain {record : EvidenceRecord} {hash : String}
    (content : (recordChain digests all).content record = some hash) :
    record ∈ all ∧ digests.record record.body = hash := by
  simp only [recordChain] at content
  split at content
  next member => exact ⟨member, Option.some.inj content⟩
  next => cases content

/-- Verified logs with one head are the same. -/
theorem eq_of_headHash (distinguishes : Distinguishes digests (log ++ found))
    (chained : EvidenceLog.verify digests log = .ok ())
    (chained' : EvidenceLog.verify digests found = .ok ())
    (same : EvidenceLog.headHash log = EvidenceLog.headHash found) : log = found := by
  have left := linked_of_verifyFrom (List.subset_append_left log found) chained
  have right := linked_of_verifyFrom (List.subset_append_right log found) chained'
  rw [← List.forall₂_eq_eq_eq]
  apply HashChain.Linked.unique _ _ left right
  · rw [head_recordChain, head_recordChain, same]
  · rintro r s hash p q hashed own hashed' own' ⟨⟩ ⟨⟩ - -
    obtain ⟨member, digest⟩ := content_recordChain hashed
    obtain ⟨member', digest'⟩ := content_recordChain hashed'
    have bodies := distinguishes.injective r member s member' (digest.trans digest'.symm)
    have carried : r.recordHash = s.recordHash := Option.some.inj (own.trans own'.symm)
    have backs : r.body.previousRecordHash = s.body.previousRecordHash := by rw [bodies]
    refine ⟨backs, ?_⟩
    calc r = { r.body with recordHash := r.recordHash } := rfl
      _ = { s.body with recordHash := s.recordHash } := by rw [bodies, carried]
      _ = s := rfl
  · intro r content
    obtain ⟨member, digest⟩ := content_recordChain content
    exact distinguishes.fresh r member digest

theorem assessHead_verified {head : EvidenceHead} :
    EvidenceLog.assessHead head found = .verified ↔
      found.length = head.recordCount ∧ EvidenceLog.headHash found = head.headHash := by
  unfold EvidenceLog.assessHead
  split
  next count => split <;> simp [*]
  next count =>
    split
    next => simp [count]
    next => split <;> simp [count]

theorem assessHead_rollback {head : EvidenceHead} :
    EvidenceLog.assessHead head found = .rollback ↔ found.length < head.recordCount := by
  unfold EvidenceLog.assessHead
  split
  next count => split <;> simp [count]
  next count =>
    split
    next behind => simp [behind]
    next other => split <;> simp [other]

end Checkpoints

/-- A checkpoint of a run, put beside any log that verifies: it is verified exactly at the log that it
acknowledged, verified or behind exactly at the logs that extend that one, and ahead exactly of the
shorter ones, as long as the hash tells the records of the two logs apart. -/
theorem checkpoint_detects_rollback {site : Deployment} {w : World} (reached : Reachable site w)
    {head : EvidenceHead} (stored : w.disk.head = some head) {found : List EvidenceRecord}
    (chained : EvidenceLog.verify site.digests found = .ok ())
    (distinguishes : Distinguishes site.digests (w.disk.records ++ found)) :
    let acknowledged := w.disk.records.take head.recordCount
    (EvidenceLog.assessHead head found = .verified ↔ found = acknowledged) ∧
      (EvidenceLog.assessHead head found = .verified ∨
        EvidenceLog.assessHead head found = .forwardRecovery ↔ acknowledged <+: found) ∧
      (EvidenceLog.assessHead head found = .rollback ↔ found.length < acknowledged.length) := by
  have intact := Intact.reachable reached
  obtain ⟨within, hash⟩ := intact.checkpointed head stored
  have length : (w.disk.records.take head.recordCount).length = head.recordCount := by
    rw [List.length_take]
    omega
  -- two verified logs whose head hashes agree are the same log
  have extends_ (n : Nat) (same : EvidenceLog.headHash (found.take n) = head.headHash) :
      found.take n = w.disk.records.take head.recordCount := by
    apply Eq.symm
    apply eq_of_headHash _ (verifyFrom_take intact.chained _) (verifyFrom_take chained n)
      (hash.trans same.symm)
    have subset : w.disk.records.take head.recordCount ++ found.take n ⊆ w.disk.records ++ found := by
      intro record member
      rcases List.mem_append.1 member with own | other
      · exact List.mem_append_left _ (List.mem_of_mem_take own)
      · exact List.mem_append_right _ (List.mem_of_mem_take other)
    exact ⟨fun a member b member' => distinguishes.injective a (subset member) b (subset member'),
      fun a member => distinguishes.fresh a (subset member)⟩
  have prefixed : head.StandsOn found ↔ w.disk.records.take head.recordCount <+: found := by
    constructor
    · rintro ⟨-, same⟩
      exact ⟨_, extends_ _ same ▸ List.take_append_drop head.recordCount found⟩
    · rintro ⟨more, rfl⟩
      refine ⟨by rw [List.length_append, length]; omega, ?_⟩
      rw [List.take_left' length, hash]
  refine ⟨?_, ?_, ?_⟩
  · rw [assessHead_verified]
    constructor
    · rintro ⟨count, same⟩
      rw [← extends_ found.length (by rwa [List.take_length]), List.take_length]
    · rintro rfl
      exact ⟨length, hash⟩
  · rw [← EvidenceHead.standsOn_iff_assessed, prefixed]
  · rw [assessHead_rollback, length]

/-- The general theorem at a log that was cut back to its first record. -/
theorem checkpoint_detects_rollback_cut : ∃ head, mailLog.disk.head = some head ∧
    EvidenceLog.assessHead head (mailLog.disk.records.take 1) = .rollback := by
  have reached : Reachable (Demo.site Demo.clock) mailLog :=
    (Reachable.fresh (Demo.start_fresh _)).afterAll _
  have present : mailLog.disk.head.map (·.recordCount) = some 2 := by decide +kernel
  obtain ⟨head, stored, count⟩ := Option.map_eq_some_iff.1 present
  have cut := @checkpoint_detects_rollback _ _ reached _ stored (mailLog.disk.records.take 1)
    (by decide +kernel) ⟨by decide +kernel, by decide +kernel⟩
  refine ⟨head, stored, cut.2.2.2 ?_⟩
  rw [count]
  decide +kernel

end DefiantHarness
