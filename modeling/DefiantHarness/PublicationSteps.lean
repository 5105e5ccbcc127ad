import DefiantHarness.PublicationFiles

/-! Calls of the publication store: what each one leaves in the two files, whichever write fails. -/
namespace DefiantHarness

open Foundation

namespace AuthorityPublication

open TrustState (record isHash)

section Steps

variable {Instant : Type} [LinearOrder Instant] {clock : WallClock Instant} {sha : TextHash}
  {chunking : Chunking}

/-- What the files hold. -/
structure Holds (clock : WallClock Instant) (sha : TextHash) (chunking : Chunking) (w : Files Instant)
    (s : Option State) (a : Option ContinuityState) (versions : List State) : Prop where
  publication : readPublication clock sha chunking w.publication = .ok s
  continuity : readContinuity clock sha chunking w.continuity = .ok a
  published : w.published = versions

/-- No write fails. -/
def Files.Steady (w : Files Instant) : Prop := ∀ n, w.outcomes n = .done

/-- A checkpoint may be the next one of the anchor. -/
def IsNext (a : Option ContinuityState) (sequence : Int) (priorCheckpointHash : Points) : Prop :=
  (a = none ∧ sequence = 1) ∨
    ∃ c, a = some c ∧ sequence = c.sequence + 1 ∧ priorCheckpointHash = c.checkpointHash

namespace Store

open Proc

variable {w : Files Instant} {s : Option State} {a : Option ContinuityState} {versions : List State}

omit [LinearOrder Instant] in
theorem replace_ends {file : Files Instant → Files Instant} {Q : Unit → Files Instant → Prop}
    {E : HarnessError → Files Instant → Prop}
    (done : Q () (file { w with outcomes := fun n => w.outcomes (n + 1) }))
    (lost : w.outcomes 0 ≠ .done → E writeFailed { w with outcomes := fun n => w.outcomes (n + 1) })
    (unsynced : w.outcomes 0 ≠ .done →
      E writeFailed (file { w with outcomes := fun n => w.outcomes (n + 1) })) :
    (replace file).Ends Q E w := by
  unfold replace Proc.Ends
  dsimp only
  cases outcome : w.outcomes 0 with
  | done => exact done
  | lost => exact lost (by rw [outcome]; decide)
  | unsynced => exact unsynced (by rw [outcome]; decide)

theorem utcNow_ends {Q : Points → Files Instant → Prop} {E : HarnessError → Files Instant → Prop} :
    (utcNow clock).Ends Q E w ↔ Q (Points.ofString (clock.utcNow (w.readings 0)))
      { w with readings := fun n => w.readings (n + 1) } :=
  ends_of_ok rfl

theorem state_ends (holds : Holds clock sha chunking w s a versions)
    {Q : Option State → Files Instant → Prop} {E : HarnessError → Files Instant → Prop} :
    (state clock sha chunking).Ends Q E w ↔ Q s w := by
  unfold state Proc.Ends
  dsimp only
  rw [holds.publication]

theorem anchor_ends (holds : Holds clock sha chunking w s a versions)
    {Q : Option ContinuityState → Files Instant → Prop} {E : HarnessError → Files Instant → Prop} :
    (anchor clock sha chunking).Ends Q E w ↔ Q a w := by
  unfold anchor Proc.Ends
  dsimp only
  rw [holds.continuity]

omit [LinearOrder Instant] in
theorem not_steady (failed : w.outcomes 0 ≠ .done) : ¬ w.Steady := fun steady => failed (steady 0)

omit [LinearOrder Instant] in
theorem steady_rest (steady : w.Steady) :
    Files.Steady { w with outcomes := fun n => w.outcomes (n + 1) } := fun n => steady (n + 1)

private theorem publish_ends {c : ContinuityState} (holds : Holds clock sha chunking w s a versions)
    (formed : c.Formed sha clock)
    (short : (Numeral.ofInt c.sequence).chars.length ≤ maxActionHashNumberCharacters)
    (stamp : c.anchoredAt.length ≤ 128) :
    (publish c).Ends
      (fun _ t => Holds clock sha chunking t s (some c) versions ∧ (w.Steady → t.Steady))
      (fun _ t => (Holds clock sha chunking t s a versions ∨
        Holds clock sha chunking t s (some c) versions) ∧ ¬ w.Steady) w := by
  have whole : ∃ text,
      atomicWriteJson continuityFile maxContinuityStateBytes (.ofData c.toDict) = .ok text ∧
        readContinuity clock sha chunking (some text) = .ok (some c) := formed.written short stamp
  obtain ⟨text, written, read⟩ := whole
  obtain ⟨publication, continuity, published⟩ := holds
  rw [publish, written]
  simp only [asPublication, Except.mapError, ends_bind, ends_lift_ok, ends_pure]
  exact replace_ends ⟨⟨publication, read, published⟩, steady_rest⟩
    (fun failed => ⟨.inl ⟨publication, continuity, published⟩, not_steady failed⟩)
    fun failed => ⟨.inr ⟨publication, read, published⟩, not_steady failed⟩

/-- The anchor moves to the checkpoint that follows, unless a write fails. -/
theorem advance_ends (hexadecimal : Hexadecimal sha) (holds : Holds clock sha chunking w s a versions)
    {n : Int} {checkpointHash prior : Points} (follows : IsNext a n prior) (positive : 1 ≤ n)
    (hash : isHash checkpointHash = true) (link : IsLink prior)
    (short : (Numeral.ofInt n).chars.length ≤ maxActionHashNumberCharacters) :
    (advance clock sha chunking n checkpointHash prior).Ends
      (fun _ t => (∃ c, c.Names n checkpointHash prior ∧
        Holds clock sha chunking t s (some c) versions) ∧ (w.Steady → t.Steady))
      (fun _ t => (Holds clock sha chunking t s a versions ∨ ∃ c, c.Names n checkpointHash prior ∧
        Holds clock sha chunking t s (some c) versions) ∧ ¬ w.Steady) w := by
  obtain ⟨c, created, formed, names, stamp⟩ := ContinuityState.create_ok hexadecimal positive hash link
    (isTimestamp_utcNow (w.readings 0) : IsTimestamp clock _)
  have later : Holds clock sha chunking { w with readings := fun n => w.readings (n + 1) } s a versions :=
    ⟨holds.publication, holds.continuity, holds.published⟩
  have published := publish_ends later formed (by rw [names.1]; exact short)
    (by rw [stamp]; exact utcNow_length _)
  have moved : (publish c).Ends
      (fun _ t => (∃ c, c.Names n checkpointHash prior ∧
        Holds clock sha chunking t s (some c) versions) ∧ (w.Steady → t.Steady))
      (fun _ t => (Holds clock sha chunking t s a versions ∨ ∃ c, c.Names n checkpointHash prior ∧
        Holds clock sha chunking t s (some c) versions) ∧ ¬ w.Steady)
      { w with readings := fun n => w.readings (n + 1) } :=
    published.mono (fun _ _ held => ⟨⟨c, names, held.1⟩, held.2⟩)
      fun _ _ held => ⟨held.1.imp id fun there => ⟨c, names, there⟩, held.2⟩
  unfold advance
  simp only [ends_bind, utcNow_ends, created, ends_lift_ok, anchor_ends later]
  -- without an anchor only the first place in the sequence is taken, with one only the next
  rcases follows with ⟨rfl, first⟩ | ⟨current, rfl, next, linked⟩
  · have initial : ¬ c.sequence ≠ 1 := by rw [names.1, first]; exact fun other => other rfl
    simp only [refuseIf, if_neg initial, ends_bind, ends_lift_ok]
    exact moved
  · have other : ¬ (current.sequence = c.sequence ∧ current.checkpointHash = c.checkpointHash ∧
        current.priorCheckpointHash = c.priorCheckpointHash) := by
      rintro ⟨same, -⟩
      rw [names.1] at same
      omega
    have advanced : ¬ c.sequence ≠ current.sequence + 1 := by rw [names.1, next]; exact fun other => other rfl
    have predecessor : ¬ c.priorCheckpointHash ≠ current.checkpointHash := by
      rw [names.2.2, linked]
      exact fun other => other rfl
    simp only [if_neg other, refuseIf, if_neg advanced, if_neg predecessor, ends_bind, ends_lift_ok]
    exact moved
end Store
end Steps

/-! ### What an assessment says -/

section Assessment

variable {s : State} {a : Option ContinuityState} {n : Int} {h p : Points}

/-- A state whose linked checkpoint has its place in the sequence. -/
structure State.Linked (s : State) (n : Int) (h p : Points) : Prop where
  sequence : s.continuitySequence = some n
  counted : n ≠ 0
  checkpoint : ∃ c, s.completed = some c ∧ c.recordHash = some h ∧ c.priorCheckpointHash = some p

/-- Nothing has been linked, so that there is no anchor. -/
def State.Unlinked (s : State) : Prop := s.continuitySequence = none ∨ s.continuitySequence = some 0

theorem assess_linked (linked : s.Linked n h p) : assess (some s) a = assessCheckpoint n h p a := by
  obtain ⟨c, completed, recordHash, prior⟩ := linked.checkpoint
  simp [assess, linked.sequence, linked.counted, completed, recordHash, prior]

theorem assess_follows (linked : s.Linked n h p) (follows : IsNext a n p) :
    assess (some s) a = .forwardRecovery := by
  rw [assess_linked linked]
  rcases follows with ⟨rfl, rfl⟩ | ⟨c, rfl, rfl, rfl⟩
  · rfl
  · have other : ¬ c.sequence + 1 = c.sequence := by omega
    simp [assessCheckpoint, other]

theorem assess_names (linked : s.Linked n h p) {x : ContinuityState} (names : x.Names n h p) :
    assess (some s) (some x) = .verified := by
  obtain ⟨rfl, rfl, rfl⟩ := names
  rw [assess_linked linked]
  simp [assessCheckpoint]

theorem assess_unlinked (unlinked : s.Unlinked) :
    assess (some s) none = .verified ∨ assess (some s) none = .legacyUnavailable := by
  rcases unlinked with none | zero
  · exact .inr (by simp [assess, none])
  · by_cases completed : s.completed = Option.none
    · exact .inl (by simp [assess, zero, completed])
    · exact .inr (by simp [assess, zero, completed])

/-- An assessment that passes, read backwards. -/
theorem assess_passes (passes : (assess (some s) a).passes = true) :
    (a = none ∧ s.Unlinked) ∨
      ∃ n h p, s.Linked n h p ∧ (IsNext a n p ∨ ∃ x, a = some x ∧ x.Names n h p) := by
  unfold assess at passes
  dsimp only at passes
  split at passes
  next none =>
    split at passes
    next absent => exact .inl ⟨absent, .inl none⟩
    · cases passes
  next n found =>
    split at passes
    -- sequence zero stands for a state that no anchor knows yet
    next zero =>
      subst zero
      split at passes
      · cases passes
      next absent => exact .inl ⟨not_not.1 absent, .inr found⟩
    next counted =>
      split at passes
      next h p hash prior =>
        obtain ⟨c, completed, recordHash⟩ := Option.bind_eq_some_iff.1 hash
        obtain ⟨d, completed', priorHash⟩ := Option.bind_eq_some_iff.1 prior
        obtain rfl := Option.some.inj (completed.symm.trans completed')
        refine .inr ⟨n, h, p, ⟨found, counted, c, completed, recordHash, priorHash⟩, ?_⟩
        cases a with
        | none =>
          rw [assessCheckpoint] at passes
          split at passes
          next first => exact .inl (.inl ⟨rfl, first⟩)
          · cases passes
        | some x =>
          rw [assessCheckpoint] at passes
          split at passes
          next same =>
            split at passes
            next both => exact .inr ⟨x, rfl, same.symm, both.1.symm, both.2.symm⟩
            · cases passes
          next =>
            split at passes
            next next => exact .inl (.inr ⟨x, rfl, next.1, next.2⟩)
            · split at passes <;> cases passes
      · cases passes

theorem State.Linked.not_unlinked (linked : s.Linked n h p) : ¬ s.Unlinked := by
  rintro (none | zero)
  · rw [linked.sequence] at none
    cases none
  · rw [linked.sequence] at zero
    exact linked.counted (Option.some.inj zero)

/-- Without a file the assessment is that of the empty state. -/
theorem passes_getD (stored : Option State) :
    (assess (some (stored.getD .empty)) a).passes = (assess stored a).passes := by
  cases stored with
  | some s => rfl
  | none => cases a <;> rfl

end Assessment

section Calls

variable {Instant : Type} [LinearOrder Instant] {clock : WallClock Instant} {sha : TextHash}
  {chunking : Chunking} {w : Files Instant} {stored : Option State} {a : Option ContinuityState}
  {versions : List State}

theorem read_formed {file : Option (List Char)} {s : State}
    (read : readPublication clock sha chunking file = .ok (some s)) :
    s.Formed sha clock ∧ Hashable maxStateBytes (.ofData s.toDict) := by
  cases file with
  | none => cases read
  | some text =>
    simp only [readPublication, asPublication, mapError_ok_iff, bind_ok_iff, pure_ok_iff] at read
    obtain ⟨raw, -, state, accepted, same⟩ := read
    obtain rfl := Option.some.inj same
    obtain ⟨hashable, own, formed⟩ := State.fromDict_ok_iff.1 accepted
    exact ⟨formed, hashable.of_same own⟩

theorem State.Formed.current {s : State} {n : Int} (formed : s.Formed sha clock)
    (sequence : s.continuitySequence = some n) : s.schemaVersion = .current := by
  have sequenced := formed.sequenced
  rw [sequence] at sequenced
  exact beq_iff_eq.1 sequenced.symm

/-- A sequence in a state file has few digits. -/
theorem short_sequence {s : State} {n : Int} (formed : s.Formed sha clock)
    (hashable : Hashable maxStateBytes (.ofData s.toDict)) (sequence : s.continuitySequence = some n) :
    (Numeral.ofInt n).chars.length ≤ maxActionHashNumberCharacters := by
  have member : (Points.ofString "continuity_sequence", Data.int n) ∈ record s.entries := by
    refine List.mem_map.2 ⟨("continuity_sequence", .int n), ?_, rfl⟩
    simp [State.entries, formed.current sequence, sequence, members, orNull]
  exact (hashable.field member).admissible.bounded

theorem State.Formed.sealedCheckpoint {s : State} (formed : s.Formed sha clock) {n : Int}
    (sequence : s.continuitySequence = some n) : s.sealedCheckpoint sha = s.completed := by
  rw [State.sealedCheckpoint]
  cases completed : s.completed with
  | none => rfl
  | some c =>
    have own := formed.completed c completed
    rw [formed.current sequence] at own
    obtain ⟨h, sealed⟩ := Option.isSome_iff_exists.1 own.sealed
    rw [Option.map_some, Checkpoint.sealed, ← (own.recordHash h sealed).2, ← sealed]

namespace Store

open Proc

/-- The anchor is moved to the checkpoint of a linked state that follows it. -/
theorem advanceContinuity_ends (hexadecimal : Hexadecimal sha) {s : State} {n : Int} {h p : Points}
    {c : Checkpoint} (holds : Holds clock sha chunking w (some s) a versions) (linked : s.Linked n h p)
    (completed : s.completed = some c) (follows : IsNext a n p) :
    (advanceContinuity clock sha chunking c n).Ends
      (fun _ t => (∃ x : ContinuityState, x.Names n h p ∧
        Holds clock sha chunking t (some s) (some x) versions) ∧ (w.Steady → t.Steady))
      (fun _ t => (Holds clock sha chunking t (some s) a versions ∨ ∃ x : ContinuityState, x.Names n h p ∧
        Holds clock sha chunking t (some s) (some x) versions) ∧ ¬ w.Steady) w := by
  obtain ⟨formed, hashable⟩ := read_formed holds.publication
  obtain ⟨d, completed', hash, prior⟩ := linked.checkpoint
  obtain rfl := Option.some.inj (completed.symm.trans completed')
  have own := formed.completed c completed
  have positive : 1 ≤ n := by
    have natural := formed.continuitySequence n linked.sequence
    have counted := linked.counted
    omega
  rw [advanceContinuity, hash, prior]
  simp only [ends_bind, ends_pure]
  exact advance_ends hexadecimal holds follows positive (own.recordHash h hash).1
    (own.priorCheckpointHash p prior) (short_sequence formed hashable linked.sequence)

/-- Files whose assessment passes. -/
structure Standing (clock : WallClock Instant) (sha : TextHash) (chunking : Chunking) (w : Files Instant)
    (stored : Option State) (a : Option ContinuityState) (versions : List State) : Prop where
  holds : Holds clock sha chunking w stored a versions
  passes : (assess stored a).passes = true

/-- The anchor is at the checkpoint, or there is none of either. -/
def Level (stored : Option State) (a : Option ContinuityState) : Prop :=
  assess (some (stored.getD .empty)) a = .verified ∨
    assess (some (stored.getD .empty)) a = .legacyUnavailable

/-- Recovery brings the anchor to the checkpoint, unless a write fails. -/
theorem recover_ends (hexadecimal : Hexadecimal sha)
    (standing : Standing clock sha chunking w stored a versions) :
    (recoverContinuityIfRequired clock sha chunking (stored.getD .empty)).Ends
      (fun _ t => (∃ b, Standing clock sha chunking t stored b versions ∧ Level stored b) ∧
        (w.Steady → t.Steady))
      (fun _ t => (∃ b, Standing clock sha chunking t stored b versions) ∧ ¬ w.Steady) w := by
  obtain ⟨holds, passes⟩ := standing
  have passes' := (passes_getD stored).trans passes
  unfold recoverContinuityIfRequired
  rw [ends_bind, anchor_ends holds]
  by_cases level : Level stored a
  · rcases id level with same | same
    · rw [same]
      exact ends_pure.2 ⟨⟨a, ⟨holds, passes⟩, level⟩, id⟩
    · rw [same]
      exact ends_pure.2 ⟨⟨a, ⟨holds, passes⟩, level⟩, id⟩
  rcases assess_passes passes' with ⟨rfl, unlinked⟩ | ⟨n, h, p, linked, follows | ⟨x, rfl, names⟩⟩
  · exact absurd (assess_unlinked unlinked) level
  · obtain ⟨c, completed, -, -⟩ := id linked.checkpoint
    -- the empty state has no checkpoint
    cases stored with
    | none => cases completed
    | some s =>
      have moved {x : ContinuityState} (names : x.Names n h p) :
          assess (some s) (some x) = .verified := assess_names linked names
      rw [assess_follows linked follows]
      change (recoverCheckpoint clock sha chunking s).Ends _ _ w
      have own : s.Linked n h p := linked
      rw [recoverCheckpoint, show s.completed = some c from completed, own.sequence]
      refine (advanceContinuity_ends hexadecimal holds linked completed follows).mono ?_ ?_
      · rintro _ t ⟨⟨x, names, there⟩, steady⟩
        exact ⟨⟨some x, ⟨there, by rw [moved names]; rfl⟩, .inl (moved names)⟩, steady⟩
      · rintro _ t ⟨here | ⟨x, names, there⟩, failed⟩
        · exact ⟨⟨a, here, passes⟩, failed⟩
        · exact ⟨⟨some x, there, by rw [moved names]; rfl⟩, failed⟩
  · exact absurd (.inl (assess_names linked names)) level

/-- A state can be written to its file. -/
def Writable (clock : WallClock Instant) (sha : TextHash) (chunking : Chunking) (u : State) : Prop :=
  ∃ c text, State.fromDict sha chunking clock u.toDict = .ok c ∧
    atomicWriteJson publicationFile maxStateBytes (.ofData c.toDict) = .ok text

theorem write_ends (holds : Holds clock sha chunking w stored a versions) {u : State} (plain : u.Plain) :
    (write clock sha chunking u).Ends
      (fun _ t => Holds clock sha chunking t (some u) a (versions ++ [u]) ∧ (w.Steady → t.Steady))
      (fun _ t => (Holds clock sha chunking t stored a versions ∨
        Holds clock sha chunking t (some u) a (versions ++ [u])) ∧
          ¬ (w.Steady ∧ Writable clock sha chunking u)) w := by
  obtain ⟨publication, continuity, published⟩ := holds
  unfold write
  rw [ends_bind]
  -- the state is read back before it is written, so what is refused leaves the file alone
  rcases accepted : State.fromDict sha chunking clock u.toDict with e | c
  · refine ends_lift_error.2 ⟨.inl ⟨publication, continuity, published⟩, ?_⟩
    rintro ⟨-, c, text, read, -⟩
    rw [accepted] at read
    cases read
  obtain rfl := plain.read_back accepted
  rw [ends_lift_ok, ends_bind]
  rcases written : atomicWriteJson publicationFile maxStateBytes (.ofData c.toDict) with e | text
  · refine ends_lift_error.2 ⟨.inl ⟨publication, continuity, published⟩, ?_⟩
    rintro ⟨-, d, text, read, text_written⟩
    obtain rfl := Except.ok.inj (accepted.symm.trans read)
    rw [written] at text_written
    cases text_written
  have read := read_published accepted written
  have extended : w.published ++ [c] = versions ++ [c] := by rw [published]
  rw [asPublication, Except.mapError, ends_lift_ok]
  exact replace_ends ⟨⟨read, continuity, extended⟩, steady_rest⟩
    (fun failed => ⟨.inl ⟨publication, continuity, published⟩, fun both => not_steady failed both.1⟩)
    fun failed => ⟨.inr ⟨read, continuity, extended⟩, fun both => not_steady failed both.1⟩
end Store

/-! ### Versions of the publication -/

/-- What the next intent names as its predecessor. -/
def State.link (s : State) : Option Points := s.completed.elim (some genesis) (·.recordHash)

/-- How a version of the publication follows another of the current schema: the same checkpoint is
kept, or a checkpoint that names it comes next in the sequence. -/
structure Publishes (s u : State) : Prop where
  sequenced : u.continuitySequence.isSome = true
  kept : u.active ≠ none →
    ∀ n ∈ s.continuitySequence, u.continuitySequence = some n ∧ u.completed = s.completed
  advanced : u.active = none → ∃ c, u.completed = some c ∧ ∀ n ∈ s.continuitySequence,
    u.continuitySequence = some (n + 1) ∧ c.priorCheckpointHash = s.link

theorem require_link {s : State} {i : Intent} (required : s.require = .ok ())
    (current : s.schemaVersion = .current) (active : s.active = some i) :
    i.priorCheckpointHash = s.link := by
  simp only [State.require, bind_ok_iff, refuseIf_ok_iff] at required
  obtain ⟨_, _, _, _, _, _, _, _, _, link, _⟩ := required
  rw [current] at link
  by_contra other
  exact link ⟨rfl, i, active, other⟩

/-- What `complete` writes for an intent. -/
theorem State.Formed.complete_shape {s u : State} {intent : Intent} {at_ : Points}
    (formed : s.Formed sha clock) (done : s.complete sha chunking clock intent at_ = .ok u) :
    u.Plain ∧ u.active = none ∧ ∃ c h, u.completed = some c ∧ c.recordHash = some h ∧
      ((c.priorCheckpointHash = none ∧ u.continuitySequence = some 0 ∧ s.continuitySequence = none) ∨
        ∃ p, c.priorCheckpointHash = some p ∧
          u.continuitySequence = some (s.continuitySequence.getD 0 + 1) ∧
            (s.continuitySequence ≠ none → s.link = some p)) := by
  simp only [State.complete, bind_ok_iff, refuseIf_ok_iff, orRefuse_ok_iff, pure_ok_iff, not_or,
    not_and_or, not_not] at done
  obtain ⟨expected, read, active, found, _, ⟨-, -, -, -, -, -, links⟩, _, -, _, -, rfl⟩ := done
  have own := (Intent.fromDict_ok_iff.1 read).2.2
  have plain (n : Int) : State.Plain ⟨none, some (expected.checkpoint sha at_), .current, some n⟩ := by
    refine ⟨rfl, rfl, fun i none => (by cases none), ?_⟩
    rintro c ⟨⟩ stores given
    exact own.storeHashes stores given
  refine ⟨plain _, rfl, _, _, rfl, rfl, ?_⟩
  -- a state with a sequence has a linked intent
  have sequenced {n : Int} (sequence : s.continuitySequence = some n) :
      ∃ p, expected.priorCheckpointHash = some p ∧ s.link = some p := by
    have current := formed.current sequence
    have activeFormed := formed.active active found
    rw [current] at activeFormed
    obtain ⟨p, prior⟩ := Option.isSome_iff_exists.1 activeFormed.linked
    have link := require_link formed.require current found
    rcases links with none | same
    · rw [prior] at none
      cases none
    · exact ⟨p, by rw [← same, prior], by rw [← link, prior]⟩
  cases prior : expected.priorCheckpointHash with
  | none =>
    left
    refine ⟨by simp [Intent.checkpoint, Checkpoint.sealed, prior], ?_, ?_⟩
    · simp [Intent.checkpoint, Checkpoint.sealed, prior]
    · cases sequence : s.continuitySequence with
      | none => rfl
      | some n =>
        obtain ⟨p, given, -⟩ := sequenced sequence
        rw [prior] at given
        cases given
  | some p =>
    right
    refine ⟨p, by simp [Intent.checkpoint, Checkpoint.sealed, prior],
      by simp [Intent.checkpoint, Checkpoint.sealed, prior], fun present => ?_⟩
    obtain ⟨n, sequence⟩ := Option.ne_none_iff_exists'.1 present
    obtain ⟨p', given, link⟩ := sequenced sequence
    rw [prior] at given
    rw [link, given]

/-- A completed publication follows its anchor, or is not linked and has none. -/
theorem completed_follows {s u : State} {intent : Intent} {at_ : Points} {b : Option ContinuityState}
    (formed : s.Formed sha clock) (done : s.complete sha chunking clock intent at_ = .ok u)
    (level : Store.Level (some s) b) :
    Publishes s u ∧ ((b = none ∧ u.continuitySequence = some 0) ∨
      ∃ n h p, u.Linked n h p ∧ 0 < n ∧ IsNext b n p) := by
  obtain ⟨plain, active, c, h, completed, hash, shape⟩ := formed.complete_shape done
  have passes : (assess (some s) b).passes = true := by
    rcases level with same | same <;> rw [show assess (some s) b = _ from same] <;> rfl
  rcases shape with ⟨prior, sequence, none⟩ | ⟨p, prior, sequence, link⟩
  · refine ⟨⟨plain.sequenced, fun present => absurd active present, fun _ => ⟨c, completed, ?_⟩⟩,
      .inl ⟨?_, sequence⟩⟩
    · rw [none]
      rintro n ⟨⟩
    · rcases assess_passes passes with ⟨absent, -⟩ | ⟨n, h, p, linked, -⟩
      · exact absent
      · exact absurd (.inl none) linked.not_unlinked
  · have publishes : Publishes s u := by
      refine ⟨plain.sequenced, fun present => absurd active present, fun _ => ⟨c, completed, ?_⟩⟩
      intro n given
      rw [Option.mem_def] at given
      rw [sequence, given, prior, link (by rw [given]; exact Option.some_ne_none n)]
      exact ⟨rfl, rfl⟩
    have natural : 0 ≤ s.continuitySequence.getD 0 := by
      cases given : s.continuitySequence with
      | none => exact le_rfl
      | some n => exact formed.continuitySequence n given
    have linked : u.Linked (s.continuitySequence.getD 0 + 1) h p :=
      ⟨sequence, by omega, c, completed, hash, prior⟩
    refine ⟨publishes, .inr ⟨_, h, p, linked, by omega, ?_⟩⟩
    -- the first link has no anchor before it; a later one finds the anchor that recovery has left
    rcases assess_passes passes with ⟨rfl, none | zero⟩ | ⟨n, h', p', before, follows | ⟨x, rfl, names⟩⟩
    · exact .inl ⟨rfl, by rw [none]; rfl⟩
    · exact .inl ⟨rfl, by rw [zero]; rfl⟩
    · rw [Store.Level, Option.getD_some, assess_follows before follows] at level
      rcases level with absurd | absurd <;> cases absurd
    · obtain ⟨d, completed', hash', -⟩ := before.checkpoint
      refine .inr ⟨x, rfl, by rw [before.sequence, names.1]; rfl, ?_⟩
      have present : s.continuitySequence ≠ none := by
        rw [before.sequence]
        exact Option.some_ne_none n
      have same := link present
      rw [State.link, completed', Option.elim_some, hash', ← names.2.1] at same
      exact (Option.some.inj same).symm

theorem State.empty_plain : State.empty.Plain :=
  ⟨rfl, rfl, fun _ none => (by cases none), fun _ none => (by cases none)⟩

/-- Well formed store hashes, and a checkpoint that is sealed already where there is a sequence. -/
structure State.Sound (sha : TextHash) (s : State) : Prop where
  stores : ∀ c ∈ s.completed, ∀ stores ∈ c.storeHashes, stores.Formed
  sealed : ∀ n, s.continuitySequence = some n → s.sealedCheckpoint sha = s.completed

theorem stored_sound {stored : Option State}
    (read : readPublication clock sha chunking w.publication = .ok stored) :
    (stored.getD .empty).Sound sha := by
  cases stored with
  | none => exact ⟨State.empty_plain.completed, fun _ _ => rfl⟩
  | some s =>
    obtain ⟨formed, -⟩ := read_formed read
    exact ⟨fun c completed => (formed.completed c completed).storeHashes,
      fun _ => formed.sealedCheckpoint⟩

section Prepared

variable {s : State} {i : Intent} {b : Option ContinuityState}

theorem State.Sound.prepared_plain (sound : s.Sound sha)
    (stores : ∀ hashes ∈ i.storeHashes, hashes.Formed) : (s.prepared sha i).Plain := by
  refine ⟨rfl, rfl, ?_, ?_⟩
  · rintro j ⟨⟩
    exact stores
  · intro c given
    rw [Option.mem_def, State.prepared, State.sealedCheckpoint, Option.map_eq_some_iff] at given
    obtain ⟨d, completed, rfl⟩ := given
    exact sound.stores d completed

theorem State.Sound.publishes_prepared (sound : s.Sound sha) : Publishes s (s.prepared sha i) := by
  refine ⟨rfl, fun _ n given => ?_, fun none => by cases none⟩
  rw [Option.mem_def] at given
  refine ⟨?_, sound.sealed n given⟩
  rw [State.prepared, State.preparedSequence, given]

/-- A prepared publication has the anchor of the state before, or its checkpoint is the first one to be
anchored. -/
theorem State.Sound.prepared_follows (sound : s.Sound sha)
    (passes : (assess (some s) b).passes = true) :
    (s.anchors sha = false ∧ assess (some (s.prepared sha i)) b = assess (some s) b ∨
      s.anchors sha = false ∧ b = none ∧ (s.prepared sha i).Unlinked) ∨
      s.anchors sha = true ∧ ∃ h p, (s.prepared sha i).Linked 1 h p ∧ IsNext b 1 p := by
  cases sequence : s.continuitySequence with
  | some n =>
    have kept : s.anchors sha = false := by simp [State.anchors, sequence]
    refine .inl (.inl ⟨kept, ?_⟩)
    have own : (s.prepared sha i).continuitySequence = s.continuitySequence := by
      rw [State.prepared, State.preparedSequence, sequence]
    have same : (s.prepared sha i).completed = s.completed := sound.sealed n sequence
    rw [assess, assess, own, same]
  | none =>
    -- continuity begins here: no anchor can stand beside a state without a sequence
    have absent : b = none := by
      rcases assess_passes passes with ⟨absent, -⟩ | ⟨n, h, p, linked, -⟩
      · exact absent
      · exact absurd (.inl sequence) linked.not_unlinked
    cases anchors : s.anchors sha with
    | false =>
      refine .inl (.inr ⟨rfl, absent, .inr ?_⟩)
      rw [State.prepared, State.preparedSequence, sequence]
      simp [anchors]
    | true =>
      have linked := anchors
      simp only [State.anchors, decide_eq_true_eq] at linked
      obtain ⟨-, c, given, hash, prior⟩ := linked
      obtain ⟨h, hash⟩ := Option.ne_none_iff_exists'.1 hash
      obtain ⟨p, prior⟩ := Option.ne_none_iff_exists'.1 prior
      refine .inr ⟨rfl, h, p, ⟨?_, by decide, c, given, hash, prior⟩, .inl ⟨absent, rfl⟩⟩
      rw [State.prepared, State.preparedSequence, sequence]
      simp [anchors]

end Prepared

namespace Store

open Proc

/-- What a call leaves of the versions: all of them, and perhaps one more. -/
def Moves (stored : Option State) (versions : List State) (stored' : Option State)
    (versions' : List State) : Prop :=
  (stored' = stored ∧ versions' = versions) ∨
    ∃ u, stored' = some u ∧ versions' = versions ++ [u] ∧ Publishes (stored.getD .empty) u

/-- The files stand after a call, with the versions that it found and perhaps one more. -/
def Moved (clock : WallClock Instant) (sha : TextHash) (chunking : Chunking) (stored : Option State)
    (versions : List State) (t : Files Instant) : Prop :=
  ∃ stored' b versions', Standing clock sha chunking t stored' b versions' ∧
    Moves stored versions stored' versions'

/-- The request names the active publication. -/
def Resumes (sha : TextHash) (chunking : Chunking) (stored : Option State)
    (profileHash generation manifestHash storeHashes : Data) (active : Intent) : Prop :=
  ∃ s p n m stores, stored = some s ∧ s.active = some active ∧
    hash (some profileHash) "profile_hash" = .ok p ∧
    AuthorityPublication.generation (some generation) = .ok n ∧
    hash (some manifestHash) "manifest_hash" = .ok m ∧
    AuthorityPublication.storeHashes sha chunking (some storeHashes) = .ok stores ∧
    active.matches p n m (some stores) = true

private theorem unmoved {t : Files Instant} {b : Option ContinuityState}
    (standing : Standing clock sha chunking t stored b versions) :
    Moved clock sha chunking stored versions t :=
  ⟨stored, b, versions, standing, .inl ⟨rfl, rfl⟩⟩

private theorem wrote {t : Files Instant} {u : State} {b : Option ContinuityState}
    (holds : Holds clock sha chunking t (some u) b (versions ++ [u]))
    (passes : (assess (some u) b).passes = true) (publishes : Publishes (stored.getD .empty) u) :
    Moved clock sha chunking stored versions t :=
  ⟨some u, b, versions ++ [u], ⟨holds, passes⟩, .inr ⟨u, rfl, rfl, publishes⟩⟩

/-- `complete` moves both files, unless a write fails or the intent is not the active one. -/
theorem complete_ends (hexadecimal : Hexadecimal sha) {intent : Intent}
    (standing : Standing clock sha chunking w stored a versions) :
    (complete clock sha chunking intent).Ends
      (fun u t => ∃ b, Standing clock sha chunking t (some u) b (versions ++ [u]) ∧
        Publishes (stored.getD .empty) u ∧ Level (some u) b)
      (fun _ t => Moved clock sha chunking stored versions t ∧
        ¬ (w.Steady ∧ ∃ s, stored = some s ∧ ∀ now, ∃ u,
          s.complete sha chunking clock intent (Points.ofString (clock.utcNow now)) = .ok u ∧
            Writable clock sha chunking u)) w := by
  unfold complete
  rw [ends_bind]
  rcases read : intent.expected sha chunking clock with e | expected
  · refine ends_lift_error.2 ⟨unmoved standing, ?_⟩
    rintro ⟨-, s, -, ready⟩
    obtain ⟨u, done, -⟩ := ready (w.readings 0)
    rw [State.complete, read] at done
    cases done
  rw [ends_lift_ok, ends_bind, state_ends standing.holds]
  cases stored with
  | none =>
    refine ends_raise.2 ⟨unmoved standing, ?_⟩
    rintro ⟨-, s, absurd, -⟩
    cases absurd
  | some s =>
    dsimp only
    rw [ends_bind]
    rcases refused : refuseIf (s.active = none)
      (publicationError "no active authority publication to complete") with e | _
    · refine ends_lift_error.2 ⟨unmoved standing, ?_⟩
      rintro ⟨-, s', same, ready⟩
      obtain rfl := Option.some.inj same
      obtain ⟨u, done, -⟩ := ready (w.readings 0)
      have absent : s.active = none := by
        by_contra present
        rw [refuseIf, if_neg present] at refused
        cases refused
      simp [State.complete, read, absent, orRefuse, bind, Except.bind] at done
    rw [ends_lift_ok, ends_bind]
    refine (recover_ends hexadecimal standing).mono ?_ ?_
    · rintro _ v ⟨⟨b, level_standing, level⟩, steady⟩
      rw [ends_bind, utcNow_ends, ends_bind]
      have later : Holds clock sha chunking { v with readings := fun n => v.readings (n + 1) } (some s) b
          versions := ⟨level_standing.holds.publication, level_standing.holds.continuity,
        level_standing.holds.published⟩
      have standing' : Standing clock sha chunking { v with readings := fun n => v.readings (n + 1) }
        (some s) b versions := ⟨later, level_standing.passes⟩
      rcases done : s.complete sha chunking clock intent
        (Points.ofString (clock.utcNow (v.readings 0))) with e | u
      · refine ends_lift_error.2 ⟨unmoved standing', ?_⟩
        rintro ⟨-, s', same, ready⟩
        obtain rfl := Option.some.inj same
        obtain ⟨u, done', -⟩ := ready (v.readings 0)
        rw [done] at done'
        cases done'
      rw [ends_lift_ok, ends_bind]
      obtain ⟨formed, -⟩ := read_formed later.publication
      obtain ⟨plain, -, c, -, completed, -⟩ := formed.complete_shape done
      obtain ⟨publishes, shape⟩ := completed_follows formed done level
      have passes : (assess (some u) b).passes = true := by
        rcases shape with ⟨rfl, zero⟩ | ⟨n, h, p, linked, -, follows⟩
        · rcases assess_unlinked (.inr zero) with same | same <;> rw [same] <;> rfl
        · rw [assess_follows linked follows]
          rfl
      refine (write_ends later plain).mono ?_ ?_
      · rintro _ x ⟨holds, steady'⟩
        -- a publication without links has no anchor to move
        rcases shape with ⟨rfl, zero⟩ | ⟨n, h, p, linked, positive, follows⟩
        · rw [ends_bind, followCheckpoint, completed, zero]
          exact ends_pure.2 (ends_pure.2 ⟨none, ⟨holds, passes⟩, publishes, assess_unlinked (.inr zero)⟩)
        · rw [ends_bind, followCheckpoint, completed, linked.sequence]
          dsimp only
          rw [if_pos positive]
          have moved {y : ContinuityState} (names : y.Names n h p) :
              assess (some u) (some y) = .verified := assess_names linked names
          refine (advanceContinuity_ends hexadecimal holds linked completed follows).mono ?_ ?_
          · rintro _ z ⟨⟨y, names, there⟩, -⟩
            exact ends_pure.2
              ⟨some y, ⟨there, by rw [moved names]; rfl⟩, publishes, .inl (moved names)⟩
          · rintro _ z ⟨here | ⟨y, names, there⟩, failed⟩
            · exact ⟨wrote here passes publishes, fun both => failed (steady' (steady both.1))⟩
            · exact ⟨wrote there (by rw [moved names]; rfl) publishes,
                fun both => failed (steady' (steady both.1))⟩
      · rintro _ x ⟨left_files, failed⟩
        have unready : ¬ (w.Steady ∧ ∃ s', some s = some s' ∧ ∀ now, ∃ u,
            s'.complete sha chunking clock intent (Points.ofString (clock.utcNow now)) = .ok u ∧
              Writable clock sha chunking u) := by
          rintro ⟨calm, s', same, ready⟩
          obtain rfl := Option.some.inj same
          obtain ⟨u', done', writable⟩ := ready (v.readings 0)
          obtain rfl := Except.ok.inj (done.symm.trans done')
          exact failed ⟨steady calm, writable⟩
        -- the write has raised, but its file may stand in its place
        rcases left_files with here | there
        · exact ⟨unmoved ⟨here, level_standing.passes⟩, unready⟩
        · exact ⟨wrote there passes publishes, unready⟩
    · rintro _ v ⟨⟨b, there⟩, failed⟩
      exact ⟨unmoved there, fun both => failed both.1⟩

theorem startContinuity_kept {s : State} (kept : s.anchors sha = false) :
    startContinuity clock sha chunking s = pure () := by
  rw [startContinuity, kept]
  split <;> rfl

theorem formed_storeHashes {x : Data} {stores : StoreHashes}
    (read : AuthorityPublication.storeHashes sha chunking (some x) = .ok stores) : stores.Formed := by
  have hashable : Hashable maxStateBytes (.ofData x) := by
    simp only [storeHashes, bind_ok_iff, snapshot_ok_iff] at read
    obtain ⟨_, ⟨-, hashable⟩, -⟩ := read
    exact hashable
  exact ((storeHashes_ok_iff hashable).1 read).2

/-- `prepare` returns the active intent, or a new one that it has written, with the anchor at the
checkpoint; it raises only where a write fails or the request is not for the active intent. -/
theorem prepare_ends (hexadecimal : Hexadecimal sha) {profileHash generation manifestHash storeHashes : Data}
    (standing : Standing clock sha chunking w stored a versions) :
    (prepare clock sha chunking profileHash generation manifestHash storeHashes).Ends
      (fun i t => ∃ u b versions', Standing clock sha chunking t (some u) b versions' ∧
        Moves stored versions (some u) versions' ∧ u.active = some i ∧ Level (some u) b ∧
          ∀ j, (stored.getD .empty).active = some j → i = j)
      (fun _ t => Moved clock sha chunking stored versions t ∧ ¬ (w.Steady ∧
        ∃ i, Resumes sha chunking stored profileHash generation manifestHash storeHashes i)) w := by
  unfold prepare
  rw [ends_bind]
  rcases first : hash (some profileHash) "profile_hash" with e | p
  · refine ends_lift_error.2 ⟨unmoved standing, ?_⟩
    rintro ⟨-, i, _, _, _, _, _, -, -, absurd, -⟩
    rw [first] at absurd
    cases absurd
  rw [ends_lift_ok, ends_bind]
  rcases second : AuthorityPublication.generation (some generation) with e | n
  · refine ends_lift_error.2 ⟨unmoved standing, ?_⟩
    rintro ⟨-, i, _, _, _, _, _, -, -, -, absurd, -⟩
    rw [second] at absurd
    cases absurd
  rw [ends_lift_ok, ends_bind]
  rcases third : hash (some manifestHash) "manifest_hash" with e | m
  · refine ends_lift_error.2 ⟨unmoved standing, ?_⟩
    rintro ⟨-, i, _, _, _, _, _, -, -, -, -, absurd, -⟩
    rw [third] at absurd
    cases absurd
  rw [ends_lift_ok, ends_bind]
  rcases fourth : AuthorityPublication.storeHashes sha chunking (some storeHashes) with e | stores
  · refine ends_lift_error.2 ⟨unmoved standing, ?_⟩
    rintro ⟨-, i, _, _, _, _, _, -, -, -, -, -, absurd, -⟩
    rw [fourth] at absurd
    cases absurd
  rw [ends_lift_ok, ends_bind, state_ends standing.holds, ends_bind]
  refine (recover_ends hexadecimal standing).mono ?_ ?_
  · rintro _ v ⟨⟨b, level_standing, level⟩, steady⟩
    -- an active intent is returned or refused as it stands; nothing is written for it
    cases active : (stored.getD .empty).active with
    | some i =>
      dsimp only
      rw [ends_ite]
      constructor
      · intro _
        cases stored with
        | none => cases active
        | some s =>
          exact ends_pure.2 ⟨s, b, versions, level_standing, .inl ⟨rfl, rfl⟩, active, level,
            fun j other => Option.some.inj other⟩
      · intro other
        refine ends_raise.2 ⟨unmoved level_standing, ?_⟩
        rintro ⟨-, j, s, p', n', m', stores', rfl, active', first', second', third', fourth', same⟩
        obtain rfl := Option.some.inj (active.symm.trans active')
        obtain rfl := Except.ok.inj (first.symm.trans first')
        obtain rfl := Except.ok.inj (second.symm.trans second')
        obtain rfl := Except.ok.inj (third.symm.trans third')
        obtain rfl := Except.ok.inj (fourth.symm.trans fourth')
        exact other same
    | none =>
      have unique {i : Intent} (j : Intent) (other : (none : Option Intent) = some j) : i = j := by
        cases other
      have fresh : ¬ (w.Steady ∧
          ∃ i, Resumes sha chunking stored profileHash generation manifestHash storeHashes i) := by
        rintro ⟨-, j, s, p', n', m', stores', rfl, active', -⟩
        rw [Option.getD_some, active'] at active
        cases active
      dsimp only
      rw [ends_bind, utcNow_ends, ends_bind]
      have later : Holds clock sha chunking { v with readings := fun n => v.readings (n + 1) } stored b
          versions := ⟨level_standing.holds.publication, level_standing.holds.continuity,
        level_standing.holds.published⟩
      rcases built : (stored.getD .empty).intent sha p n m stores
        (Points.ofString (clock.utcNow (v.readings 0))) with e | i
      · exact ends_lift_error.2 ⟨unmoved ⟨later, level_standing.passes⟩, fresh⟩
      rw [ends_lift_ok, ends_bind]
      have sound := stored_sound later.publication
      have formed : ∀ hashes ∈ i.storeHashes, hashes.Formed := by
        simp only [State.intent, Intent.sealed, bind_ok_iff, pure_ok_iff] at built
        obtain ⟨_, -, rfl⟩ := built
        rintro hashes ⟨⟩
        exact formed_storeHashes fourth
      have passes := (passes_getD stored).trans level_standing.passes
      have publishes : Publishes (stored.getD .empty) ((stored.getD .empty).prepared sha i) :=
        sound.publishes_prepared
      have shape := sound.prepared_follows (i := i) passes
      have before : (assess (some ((stored.getD .empty).prepared sha i)) b).passes = true := by
        rcases shape with (⟨-, same⟩ | ⟨-, rfl, unlinked⟩) | ⟨-, h, p, linked, follows⟩
        · rw [same]
          exact passes
        · rcases assess_unlinked unlinked with same | same <;> rw [same] <;> rfl
        · rw [assess_follows linked follows]
          rfl
      refine (write_ends later (sound.prepared_plain formed)).mono ?_ ?_
      · rintro _ x ⟨holds, -⟩
        rw [ends_bind]
        rcases shape with (⟨kept, same⟩ | ⟨kept, rfl, unlinked⟩) | ⟨anchors, h, p, linked, follows⟩
        · rw [startContinuity_kept kept]
          refine ends_pure.2 (ends_pure.2
            ⟨_, b, _, ⟨holds, before⟩, .inr ⟨_, rfl, rfl, publishes⟩, rfl, ?_, unique⟩)
          rw [Level, Option.getD_some, same]
          exact level
        · rw [startContinuity_kept kept]
          exact ends_pure.2 (ends_pure.2 ⟨_, none, _, ⟨holds, before⟩, .inr ⟨_, rfl, rfl, publishes⟩,
            rfl, assess_unlinked unlinked, unique⟩)
        · -- the first linked checkpoint: its anchor is written after the publication
          obtain ⟨c, completed, -, -⟩ := id linked.checkpoint
          have own : (stored.getD .empty).sealedCheckpoint sha = some c := completed
          have first : (stored.getD .empty).preparedSequence sha = 1 := Option.some.inj linked.sequence
          have moved {y : ContinuityState} (names : y.Names 1 h p) :
              assess (some ((stored.getD .empty).prepared sha i)) (some y) = .verified :=
            assess_names linked names
          rw [startContinuity, own]
          dsimp only
          rw [if_pos anchors, first]
          refine (advanceContinuity_ends hexadecimal holds linked completed follows).mono ?_ ?_
          · rintro _ z ⟨⟨y, names, there⟩, -⟩
            exact ends_pure.2 ⟨_, some y, _, ⟨there, by rw [moved names]; rfl⟩,
              .inr ⟨_, rfl, rfl, publishes⟩, rfl, .inl (moved names), unique⟩
          · rintro _ z ⟨here | ⟨y, names, there⟩, -⟩
            · exact ⟨wrote here before publishes, fresh⟩
            · exact ⟨wrote there (by rw [moved names]; rfl) publishes, fresh⟩
      · rintro _ x ⟨here | there, -⟩
        · exact ⟨unmoved ⟨here, level_standing.passes⟩, fresh⟩
        · exact ⟨wrote there before publishes, fresh⟩
  · rintro _ v ⟨⟨b, there⟩, failed⟩
    exact ⟨unmoved there, fun both => failed both.1⟩

/-- However a call ends, the files stand. -/
theorem call_ends (hexadecimal : Hexadecimal sha) (call : Call)
    (standing : Standing clock sha chunking w stored a versions) :
    Moved clock sha chunking stored versions (call.run clock sha chunking w).2 := by
  have ends : (call.run clock sha chunking).Ends
      (fun _ t => Moved clock sha chunking stored versions t)
      (fun _ t => Moved clock sha chunking stored versions t) w := by
    cases call with
    | prepare profileHash generation manifestHash storeHashes =>
      rw [Call.run, ends_bind]
      refine (prepare_ends hexadecimal standing).mono ?_ fun _ _ held => held.1
      rintro _ t ⟨u, b, versions', there, moves, -⟩
      exact ends_pure.2 ⟨some u, b, versions', there, moves⟩
    | complete intent =>
      rw [Call.run, ends_bind]
      refine (complete_ends hexadecimal standing).mono ?_ fun _ _ held => held.1
      rintro u t ⟨b, there, publishes, -⟩
      exact ends_pure.2 ⟨some u, b, _, there, .inr ⟨u, rfl, rfl, publishes⟩⟩
  unfold Proc.Ends at ends
  rcases run : call.run clock sha chunking w with ⟨_ | _, t⟩ <;> rw [run] at ends <;> exact ends

end Store

end Calls
end AuthorityPublication
end DefiantHarness
