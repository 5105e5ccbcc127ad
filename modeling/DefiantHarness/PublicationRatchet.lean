import DefiantHarness.Foundation.HashChain
import DefiantHarness.PublicationSteps

/-! Over every run of the publication store, with a failure at any of its writes, the two files stay
recoverable; the anchor tells the present publication from an earlier one, and commits to all of them. -/
namespace DefiantHarness

open Foundation

namespace AuthorityPublication

open TrustState (record isHash)

variable {Instant : Type} [LinearOrder Instant] {clock : WallClock Instant} {sha : TextHash}
  {chunking : Chunking} {w : Files Instant} {stored : Option State} {a : Option ContinuityState}
  {versions : List State}

/-! ### Runs -/

/-- The present publication beside a version before it: the same checkpoint, one that names it as its
predecessor, or one further on in the sequence. -/
def Ratchets (e s : State) : Prop :=
  ∀ n ∈ e.continuitySequence, ∃ m ∈ s.continuitySequence,
    (m = n ∧ s.completed = e.completed) ∨
      (m = n + 1 ∧ ∃ c ∈ s.completed, c.priorCheckpointHash = e.link) ∨ n + 1 < m

theorem Ratchets.refl (s : State) : Ratchets s s := fun n given => ⟨n, given, .inl ⟨rfl, rfl⟩⟩

theorem Ratchets.publishes {e s u : State} (ratchets : Ratchets e s) (publishes : Publishes s u) :
    Ratchets e u := by
  intro n given
  obtain ⟨m, sequence, order⟩ := ratchets n given
  -- a completion goes one place on in the sequence, a preparation stays where it is
  by_cases active : u.active = none
  · obtain ⟨c, completed, each⟩ := publishes.advanced active
    obtain ⟨next, prior⟩ := each m sequence
    refine ⟨m + 1, next, ?_⟩
    rcases order with ⟨rfl, same⟩ | ⟨rfl, -⟩ | beyond
    · have link : s.link = e.link := by rw [State.link, State.link, same]
      exact .inr (.inl ⟨rfl, c, completed, prior.trans link⟩)
    · exact .inr (.inr (by omega))
    · exact .inr (.inr (by omega))
  · obtain ⟨same, completed⟩ := publishes.kept active m sequence
    exact ⟨m, same, by rwa [completed]⟩

/-- Files that a run has left, with every version that the publication has had. -/
structure Reached (clock : WallClock Instant) (sha : TextHash) (chunking : Chunking) (w : Files Instant)
    (stored : Option State) (a : Option ContinuityState) (versions : List State) : Prop where
  standing : Store.Standing clock sha chunking w stored a versions
  ratchets : ∀ e ∈ versions, ∃ s, stored = some s ∧ Ratchets e s

theorem Reached.moves {stored' : Option State} {versions' : List State} {b : Option ContinuityState}
    {t : Files Instant} (reached : Reached clock sha chunking w stored a versions)
    (standing : Store.Standing clock sha chunking t stored' b versions')
    (moves : Store.Moves stored versions stored' versions') :
    Reached clock sha chunking t stored' b versions' := by
  refine ⟨standing, ?_⟩
  rcases moves with ⟨rfl, rfl⟩ | ⟨u, rfl, rfl, publishes⟩
  · exact reached.ratchets
  · intro e member
    refine ⟨u, rfl, ?_⟩
    rcases List.mem_append.1 member with earlier | last
    · obtain ⟨s, rfl, ratchets⟩ := reached.ratchets e earlier
      exact ratchets.publishes publishes
    · rw [List.mem_singleton.1 last]
      exact .refl u

/-- Whatever is called, and whichever writes fail, the files stay as a run leaves them. -/
theorem Reached.after (hexadecimal : Hexadecimal sha) (calls : List Store.Call)
    (reached : Reached clock sha chunking w stored a versions) :
    ∃ stored' b versions', Reached clock sha chunking (Store.after clock sha chunking w calls) stored' b
      versions' := by
  induction calls generalizing w stored a versions with
  | nil => exact ⟨stored, a, versions, reached⟩
  | cons call calls ih =>
    obtain ⟨stored', b, versions', standing, moves⟩ := Store.call_ends hexadecimal call reached.standing
    exact ih (reached.moves standing moves)

/-- Files that have passed their assessment before the first call. -/
structure Opened (clock : WallClock Instant) (sha : TextHash) (chunking : Chunking) (w : Files Instant)
    (stored : Option State) (a : Option ContinuityState) : Prop where
  publication : readPublication clock sha chunking w.publication = .ok stored
  continuity : readContinuity clock sha chunking w.continuity = .ok a
  passes : (assess stored a).passes = true
  published : w.published = stored.toList

theorem Opened.reached (opened : Opened clock sha chunking w stored a) :
    Reached clock sha chunking w stored a stored.toList := by
  refine ⟨⟨⟨opened.publication, opened.continuity, opened.published⟩, opened.passes⟩, ?_⟩
  intro e member
  rw [Option.mem_toList] at member
  exact ⟨e, member, .refl e⟩

section PutBack

variable {e s : State} {b : Option ContinuityState}

/-- What passes as current is at the place of the anchor, or one after it. -/
private theorem accepted_place (accepted : assess (some e) b = .verified ∨
    assess (some e) b = .forwardRecovery) :
    ∃ n, e.continuitySequence = some n ∧ ((b = none ∧ (n = 0 ∨ n = 1)) ∨
      ∃ x, b = some x ∧ (n = x.sequence ∨ n = x.sequence + 1)) := by
  have passes : (assess (some e) b).passes = true := by
    rcases accepted with same | same <;> rw [same] <;> rfl
  rcases assess_passes passes with ⟨rfl, none | zero⟩ | ⟨n, h, p, linked, follows | ⟨x, rfl, names⟩⟩
  · have legacy : assess (some e) Option.none = .legacyUnavailable := by simp [assess, none]
    rw [legacy] at accepted
    rcases accepted with absurd | absurd <;> cases absurd
  · exact ⟨0, zero, .inl ⟨rfl, .inl rfl⟩⟩
  · rcases follows with ⟨rfl, rfl⟩ | ⟨x, rfl, next, -⟩
    · exact ⟨1, linked.sequence, .inl ⟨rfl, .inr rfl⟩⟩
    · exact ⟨n, linked.sequence, .inr ⟨x, rfl, .inr next⟩⟩
  · exact ⟨n, linked.sequence, .inr ⟨x, rfl, .inl names.1.symm⟩⟩

/-- Of the earlier versions with another checkpoint only the last one passes, and only before the anchor
has moved. -/
theorem Ratchets.put_back (ratchets : Ratchets e s) (passes : (assess (some s) b).passes = true)
    (accepted : assess (some e) b = .verified ∨ assess (some e) b = .forwardRecovery) :
    s.completed = e.completed ∨ (assess (some s) b = .forwardRecovery ∧
      ∃ c, s.completed = some c ∧ c.priorCheckpointHash = e.link) := by
  obtain ⟨n, earlier, place⟩ := accepted_place accepted
  obtain ⟨m, present, order⟩ := ratchets n earlier
  rcases order with ⟨-, same⟩ | order
  · exact .inl same
  right
  rw [Option.mem_def] at present
  rcases assess_passes passes with ⟨rfl, none | zero⟩ | ⟨k, h, p, linked, here⟩
  · rw [none] at present
    cases present
  · obtain rfl := Option.some.inj (zero.symm.trans present)
    rcases place with ⟨-, n_small⟩ | ⟨x, absurd, -⟩
    · omega
    · cases absurd
  · obtain rfl := Option.some.inj (linked.sequence.symm.trans present)
    -- the earlier version is within one place of the anchor, so the present one has overtaken it by one
    have one_after : IsNext b k p ∧ k = n + 1 := by
      rcases here with follows | ⟨x, rfl, names⟩
      · refine ⟨follows, ?_⟩
        rcases follows with ⟨rfl, first⟩ | ⟨x, rfl, next, -⟩
        · rcases place with ⟨-, n_small⟩ | ⟨x, absurd, -⟩
          · omega
          · cases absurd
        · rcases place with ⟨absurd, -⟩ | ⟨y, same, near⟩
          · cases absurd
          · obtain rfl := Option.some.inj same
            omega
      · -- an anchor at the present checkpoint leaves no room for an earlier version
        have sequence := names.1
        rcases place with ⟨absurd, -⟩ | ⟨y, same, near⟩
        · cases absurd
        · obtain rfl := Option.some.inj same
          omega
    obtain ⟨follows, rfl⟩ := one_after
    rcases order with ⟨-, c, completed, prior⟩ | beyond
    · exact ⟨assess_follows linked follows, c, completed, prior⟩
    · omega

end PutBack

/-- In every run, whichever of its writes fail, the two files can be read, and their assessment passes.
Of the versions that the publication had before, put back beside the anchor, none passes as current
unless it holds the present checkpoint, or the anchor has still to follow a checkpoint that names the
one in it as its predecessor. -/
theorem publication_ratchets (hexadecimal : Hexadecimal sha)
    (opened : Opened clock sha chunking w stored a) (calls : List Store.Call) :
    ∃ s b, readPublication clock sha chunking (Store.after clock sha chunking w calls).publication =
        .ok s ∧
      readContinuity clock sha chunking (Store.after clock sha chunking w calls).continuity = .ok b ∧
      (assess s b).passes = true ∧
      ∀ e ∈ (Store.after clock sha chunking w calls).published,
        assess (some e) b = .verified ∨ assess (some e) b = .forwardRecovery →
          ∃ present, s = some present ∧ (present.completed = e.completed ∨
            (assess s b = .forwardRecovery ∧
              ∃ c, present.completed = some c ∧ c.priorCheckpointHash = e.link)) := by
  obtain ⟨s, b, versions, reached⟩ := opened.reached.after hexadecimal calls
  obtain ⟨⟨⟨publication, continuity, published⟩, passes⟩, ratchets⟩ := reached
  refine ⟨s, b, publication, continuity, passes, fun e member accepted => ?_⟩
  rw [published] at member
  obtain ⟨present, rfl, earlier⟩ := ratchets e member
  exact ⟨present, rfl, earlier.put_back passes accepted⟩

namespace Interrupted

/-- One digest for every text. -/
def zeros : TextHash := fun _ => String.ofList (List.replicate 64 '0')

theorem zeros_hexadecimal : Hexadecimal zeros := fun _ =>
  (by decide : isHash (Points.ofString ("sha256:" ++ String.ofList (List.replicate 64 '0'))) = true)

/-- No file yet, and a first write that raises although the file stands in its place. -/
def fresh : Files Bool where
  publication := none
  continuity := none
  published := []
  readings := fun n => 0 < n
  outcomes := fun n => if n = 0 then .unsynced else .done

theorem opened_fresh : Opened Earlier.clock zeros .single fresh none none := ⟨rfl, rfl, rfl, rfl⟩

/-- What is prepared at the first reading of the clock. -/
def intent : Intent :=
  ⟨Earlier.digestOf 'e', 1, Earlier.digestOf 'f', Points.ofString "2026-01-05T08:00:00Z",
    some Earlier.stores, some (Points.ofString "GENESIS"), some (Earlier.digestOf '0')⟩

/-- One request, made again after it has raised, and its completion. -/
def calls : List Store.Call :=
  List.replicate 2 (.prepare (.str (Earlier.digestOf 'e')) (.int 1) (.str (Earlier.digestOf 'f'))
    (StoreHashes.toDict Earlier.stores)) ++ [.complete intent]

def left : Files Bool := Store.after Earlier.clock zeros .single fresh calls

/-- The anchor has followed the completed checkpoint. -/
theorem anchored : ((readContinuity Earlier.clock zeros .single left.continuity).toOption.join.map
    (·.sequence)) = some 1 := by
  decide +kernel

end Interrupted

theorem publication_ratchets_interrupted :
    ∃ s b, readPublication Earlier.clock Interrupted.zeros .single Interrupted.left.publication = .ok s ∧
      readContinuity Earlier.clock Interrupted.zeros .single Interrupted.left.continuity = .ok (some b) ∧
      b.sequence = 1 ∧ (assess s (some b)).passes = true ∧
      ∀ e ∈ Interrupted.left.published,
        assess (some e) (some b) = .verified ∨ assess (some e) (some b) = .forwardRecovery →
          ∃ present, s = some present ∧ (present.completed = e.completed ∨
            (assess s (some b) = .forwardRecovery ∧
              ∃ c, present.completed = some c ∧ c.priorCheckpointHash = e.link)) := by
  obtain ⟨s, b, publication, continuity, passes, putBack⟩ :=
    publication_ratchets Interrupted.zeros_hexadecimal Interrupted.opened_fresh Interrupted.calls
  have anchored := Interrupted.anchored
  rw [Interrupted.left, continuity] at anchored
  obtain ⟨b, rfl, first⟩ := Option.map_eq_some_iff.1 anchored
  exact ⟨s, b, publication, continuity, first, passes, putBack⟩

/-- After every run an interrupted publication can be resumed: when the writes succeed again, a request
for the active publication returns its intent, and a completion that can be written returns, with the
anchor at the completed checkpoint. -/
theorem publication_resumes (hexadecimal : Hexadecimal sha)
    (opened : Opened clock sha chunking w stored a) (calls : List Store.Call)
    (steady : (Store.after clock sha chunking w calls).Steady) :
    (∀ profileHash generation manifestHash storeHashes i s,
      readPublication clock sha chunking (Store.after clock sha chunking w calls).publication = .ok s →
      Store.Resumes sha chunking s profileHash generation manifestHash storeHashes i →
        ∃ t, Store.prepare clock sha chunking profileHash generation manifestHash storeHashes
            (Store.after clock sha chunking w calls) = (.ok i, t)) ∧
    ∀ intent s,
      readPublication clock sha chunking (Store.after clock sha chunking w calls).publication =
        .ok (some s) →
      (∀ now, ∃ u, s.complete sha chunking clock intent (Points.ofString (clock.utcNow now)) = .ok u ∧
        Store.Writable clock sha chunking u) →
        ∃ u t b, Store.complete clock sha chunking intent (Store.after clock sha chunking w calls) =
            (.ok u, t) ∧
          readPublication clock sha chunking t.publication = .ok (some u) ∧
          readContinuity clock sha chunking t.continuity = .ok b ∧ Store.Level (some u) b := by
  obtain ⟨s, b, versions, reached⟩ := opened.reached.after hexadecimal calls
  have standing := reached.standing
  generalize Store.after clock sha chunking w calls = v at *
  constructor
  · intro profileHash generation manifestHash storeHashes i s' read resumes
    obtain rfl := Except.ok.inj (standing.holds.publication.symm.trans read)
    have ends := @Store.prepare_ends _ _ _ _ _ _ _ _ _ hexadecimal profileHash generation manifestHash
      storeHashes standing
    rcases run : Store.prepare clock sha chunking profileHash generation manifestHash storeHashes v with
      ⟨e | j, t⟩
    -- a steady store that could resume does not fail
    · exact absurd ⟨steady, i, resumes⟩ (ends.error run).2
    · obtain ⟨_, _, _, -, -, -, -, unique⟩ := ends.ok run
      obtain ⟨present, _, _, _, _, rfl, active, -⟩ := resumes
      exact ⟨t, by rw [unique i active]⟩
  · intro intent present read ready
    obtain rfl := Except.ok.inj (standing.holds.publication.symm.trans read)
    have ends := @Store.complete_ends _ _ _ _ _ _ _ _ _ hexadecimal intent standing
    rcases run : Store.complete clock sha chunking intent v with ⟨e | u, t⟩
    · exact absurd ⟨steady, present, rfl, ready⟩ (ends.error run).2
    · obtain ⟨b, there, -, level⟩ := ends.ok run
      exact ⟨u, t, b, rfl, there.holds.publication, there.holds.continuity, level⟩

end AuthorityPublication
end DefiantHarness
