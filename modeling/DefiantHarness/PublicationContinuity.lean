import DefiantHarness.DocumentFiles

/-! The continuity anchor of the publication: a small state file that names the last linked checkpoint,
and what the two files say about each other. -/
namespace DefiantHarness

open Foundation

namespace AuthorityPublication

open TrustState (record textData textAt namesExactly isHash fieldAt_record)
open DocumentFile (Short Flat)

def continuitySchema : String := "defiant.authority_publication_continuity"
def continuityVersion : String := "0.1.0"
def maxContinuityStateBytes : Nat := 64 * 1024

def continuityFields : List String := ["schema_name", "schema_version", "sequence",
  "checkpoint_hash", "prior_checkpoint_hash", "anchored_at", "record_hash"]

/-- `_sequence` -/
def sequence : Option Data → Except HarnessError Int :=
  atLeast 1 "authority publication continuity sequence is invalid"

/-- `AuthorityPublicationContinuityState` -/
structure ContinuityState where
  sequence : Int
  checkpointHash : Points
  priorCheckpointHash : Points
  anchoredAt : Points
  recordHash : Points
deriving DecidableEq

section

variable (sha : TextHash) (chunking : Chunking)

/-- `_snapshot` of the continuity state. -/
def continuitySnapshot (raw : Data) : Except HarnessError (List Field) := do
  let _ ← (authoritySnapshotAndSha256Of sha chunking (.ofData raw) (some maxContinuityStateBytes)).mapError
    fun _ => publicationError "authority publication continuity exceeds bounded canonical state"
  match raw with
  | .obj fields => pure fields
  | _ => throw (publicationError "authority publication continuity state must be an object")

namespace ContinuityState

def entries (a : ContinuityState) : List (String × Data) :=
  [("schema_name", textData continuitySchema), ("schema_version", textData continuityVersion),
    ("sequence", .int a.sequence), ("checkpoint_hash", .str a.checkpointHash),
    ("prior_checkpoint_hash", .str a.priorCheckpointHash), ("anchored_at", .str a.anchoredAt),
    ("record_hash", .str a.recordHash)]

def toDict (a : ContinuityState) : Data := .obj (record a.entries)

def expectedRecordHash (a : ContinuityState) : Points :=
  TrustState.sha256Of sha (.obj (record [
    ("record_type", textData "authority_publication_continuity"), ("sequence", .int a.sequence),
    ("checkpoint_hash", .str a.checkpointHash), ("prior_checkpoint_hash", .str a.priorCheckpointHash),
    ("anchored_at", .str a.anchoredAt)]))

/-- `AuthorityPublicationContinuityState.from_dict` -/
def fromDict {Instant : Type} [LinearOrder Instant] (clock : WallClock Instant) (raw : Data) :
    Except HarnessError ContinuityState := do
  let fields ← continuitySnapshot sha chunking raw
  let get (name : String) := fieldAt (Points.ofString name) fields
  refuseIf (namesExactly continuityFields fields = false)
    (publicationError "authority publication continuity fields do not match schema")
  refuseIf (textAt "schema_name" fields ≠ some (Points.ofString continuitySchema))
    (publicationError "unsupported authority publication continuity schema")
  refuseIf (textAt "schema_version" fields ≠ some (Points.ofString continuityVersion))
    (publicationError "unsupported authority publication continuity version")
  let sequence ← AuthorityPublication.sequence (get "sequence")
  let checkpointHash ← hash (get "checkpoint_hash") "checkpoint_hash"
  let priorCheckpointHash ← checkpointLink (get "prior_checkpoint_hash")
  let anchoredAt ← timestamp clock (get "anchored_at") "anchored_at"
  let recordHash ← hash (get "record_hash") "record_hash"
  -- the hash is computed from what was read, not from the raw document
  let state : ContinuityState := ⟨sequence, checkpointHash, priorCheckpointHash, anchoredAt, recordHash⟩
  refuseIf (recordHash ≠ state.expectedRecordHash sha)
    (publicationError "authority publication continuity record hash does not match")
  pure state

/-- `AuthorityPublicationContinuityState.create`; the zeros of the draft are not hashed. -/
def create (sequence : Int) (checkpointHash priorCheckpointHash anchoredAt : Points) :
    Except HarnessError ContinuityState := do
  let sequence ← AuthorityPublication.sequence (some (.int sequence))
  let checkpointHash ← hash (some (.str checkpointHash)) "checkpoint_hash"
  let priorCheckpointHash ← checkpointLink (some (.str priorCheckpointHash))
  let state : ContinuityState := ⟨sequence, checkpointHash, priorCheckpointHash, anchoredAt, []⟩
  pure { state with recordHash := state.expectedRecordHash sha }

end ContinuityState
end

/-! ### Assessment -/

/-- What `assess_authority_publication_continuity` answers. -/
inductive Verification where
  | notRecorded | diverged | legacyUnavailable | verified | forwardRecovery | missing | rollback
deriving DecidableEq, Repr

def Verification.text : Verification → String
  | notRecorded => "not_recorded"
  | diverged => "diverged"
  | legacyUnavailable => "legacy_unavailable"
  | verified => "verified"
  | forwardRecovery => "forward_recovery"
  | missing => "missing"
  | rollback => "rollback"

/-- A sequence from one on, beside the anchor. -/
def assessCheckpoint (sequence : Int) (recordHash priorCheckpointHash : Points) :
    Option ContinuityState → Verification
  -- a crash between the first checkpoint and its anchor
  | none => if sequence = 1 then .forwardRecovery else .missing
  | some anchor =>
    if sequence = anchor.sequence then
      if recordHash = anchor.checkpointHash ∧ priorCheckpointHash = anchor.priorCheckpointHash
      then .verified else .diverged
    -- the anchor may lag by one completed publication
    else if sequence = anchor.sequence + 1 ∧ priorCheckpointHash = anchor.checkpointHash then
      .forwardRecovery
    else if sequence < anchor.sequence then .rollback
    else .diverged

/-- `assess_authority_publication_continuity` -/
def assess (state : Option State) (anchor : Option ContinuityState) : Verification :=
  match state with
  | none => if anchor = none then .notRecorded else .diverged
  | some s =>
    match s.continuitySequence with
    -- a store written before continuity was kept
    | none => if anchor = none then .legacyUnavailable else .diverged
    | some n =>
      if n = 0 then
        if anchor ≠ none then .diverged
        else if s.completed = none then .verified else .legacyUnavailable
      else
        match s.completed >>= (·.recordHash), s.completed >>= (·.priorCheckpointHash) with
        | some h, some prior => assessCheckpoint n h prior anchor
        | _, _ => .diverged

/-- Nothing is wrong, or the next call repairs it. -/
def Verification.passes : Verification → Bool
  | notRecorded | legacyUnavailable | verified | forwardRecovery => true
  | diverged | missing | rollback => false

/-! ### Reading -/

section Reading

variable {sha : TextHash} {chunking : Chunking} {Instant : Type} [LinearOrder Instant]
  {clock : WallClock Instant} {a : ContinuityState}

variable (sha clock) in
structure ContinuityState.Formed (a : ContinuityState) : Prop where
  sequence : 1 ≤ a.sequence
  checkpointHash : isHash a.checkpointHash = true
  priorCheckpointHash : IsLink a.priorCheckpointHash
  anchoredAt : IsTimestamp clock a.anchoredAt
  recordHash : isHash a.recordHash = true ∧ a.recordHash = a.expectedRecordHash sha

theorem continuitySnapshot_ok_iff {raw : Data} {fields : List Field} :
    continuitySnapshot sha chunking raw = .ok fields ↔
      raw = .obj fields ∧ Hashable maxContinuityStateBytes (.ofData raw) := by
  simp only [continuitySnapshot, bind_ok_iff, mapError_ok_iff, Prod.exists,
    authoritySnapshot_ok_iff (n := maxContinuityStateBytes) (by decide) (by decide)]
  constructor
  · rintro ⟨_, _, ⟨hashable, _, _⟩, object⟩
    split at object
    · exact ⟨by rw [pure_ok_iff.1 object], hashable⟩
    · cases object
  · rintro ⟨rfl, hashable⟩
    exact ⟨_, _, ⟨hashable, rfl, rfl⟩, rfl⟩

theorem ContinuityState.entries_nodup (a : ContinuityState) : (a.entries.map (·.1)).Nodup := by
  simp [entries]

/-- The anchor is read from what it is written as. -/
theorem ContinuityState.fromDict_ok_iff {raw : Data} :
    ContinuityState.fromDict sha chunking clock raw = .ok a ↔
      Hashable maxContinuityStateBytes (.ofData raw) ∧ raw.Same a.toDict ∧ a.Formed sha clock := by
  simp only [fromDict, bind_ok_iff, continuitySnapshot_ok_iff, refuseIf_ok_iff, Bool.not_eq_false,
    not_not, textAt_eq_some_iff, hash_ok_iff, checkpointLink_ok_iff, AuthorityPublication.sequence,
    atLeast_ok_iff, timestamp_ok_iff, pure_ok_iff]
  constructor
  · rintro ⟨fields, ⟨rfl, hashable⟩, _, names, _, schemaAt, _, versionAt, sequence,
      ⟨sequenceAt, positive⟩, checkpointHash, ⟨checkpointAt, checkpointFormed⟩, prior,
      ⟨priorAt, link⟩, anchoredAt, ⟨anchoredAtAt, stamp⟩, recordHash, ⟨recordAt, recordFormed⟩, _, own,
      rfl⟩
    -- the names and the fields read make the document the same as the one that would be written
    refine ⟨hashable, (same_record_iff (names_nodup hashable) (entries_nodup _)).2 ⟨names, ?_⟩,
      positive, checkpointFormed, link, stamp, recordFormed, own⟩
    simp only [entries, List.forall_mem_cons, List.not_mem_nil, false_implies, implies_true, and_true]
    exact ⟨schemaAt, versionAt, sequenceAt, checkpointAt, priorAt, anchoredAtAt, recordAt⟩
  · rintro ⟨hashable, same, formed⟩
    obtain ⟨fields, rfl⟩ := object_of_same same
    obtain ⟨names, each⟩ := (same_record_iff (names_nodup hashable) (entries_nodup a)).1 same
    simp only [entries, List.forall_mem_cons, List.not_mem_nil, false_implies, implies_true,
      and_true] at each
    obtain ⟨schemaAt, versionAt, sequenceAt, checkpointAt, priorAt, anchoredAtAt, recordAt⟩ := each
    exact ⟨fields, ⟨rfl, hashable⟩, (), names, (), schemaAt, (), versionAt, _,
      ⟨sequenceAt, formed.sequence⟩, _, ⟨checkpointAt, formed.checkpointHash⟩, _,
      ⟨priorAt, formed.priorCheckpointHash⟩, _, ⟨anchoredAtAt, formed.anchoredAt⟩, _,
      ⟨recordAt, formed.recordHash.1⟩, (), formed.recordHash.2, rfl⟩

end Reading
end AuthorityPublication
end DefiantHarness
