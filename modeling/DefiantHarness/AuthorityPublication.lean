import DefiantHarness.OperatorTrustState

/-! The publication of authority records: the prepared intent, the completed checkpoint, and the state
file that holds them, in every version of its schema. -/
namespace DefiantHarness

open Foundation

namespace AuthorityPublication

open TrustState (record textData textAt namesExactly isHash)

def maxStateBytes : Nat := 64 * 1024

def publicationError (message : String) : HarnessError := ⟨.integrity, message⟩

inductive Version where
  | legacy | targetCommitment | checkpointCommitment | recordSeal | transitionLink | current
deriving DecidableEq, Repr

namespace Version

def text : Version → String
  | legacy => "0.1.0"
  | targetCommitment => "0.2.0"
  | checkpointCommitment => "0.3.0"
  | recordSeal => "0.4.0"
  | transitionLink => "0.5.0"
  | current => "0.6.0"

def supported : List Version :=
  [legacy, targetCommitment, checkpointCommitment, recordSeal, transitionLink, current]

/-- Intents commit to the stores. -/
def commitsIntent : Version → Bool
  | legacy => false
  | _ => true

/-- Checkpoints commit to the stores. -/
def commitsCheckpoint : Version → Bool
  | legacy | targetCommitment => false
  | _ => true

/-- Records carry the hash of their content. -/
def seals : Version → Bool
  | recordSeal | transitionLink | current => true
  | _ => false

/-- Intents and checkpoints name each other. -/
def links : Version → Bool
  | transitionLink | current => true
  | _ => false

end Version

/-! ### Fields -/

/-- The members that stand in a document when a condition holds. -/
def members (condition : Bool) (fields : List α) : List α := if condition then fields else []

def orNull (value : Option Data) : Data := value.getD .null

def stateFields (v : Version) : List String :=
  ["schema_name", "schema_version", "active", "completed"] ++
    members (v == .current) ["continuity_sequence"]

def intentFields (v : Version) : List String :=
  ["profile_hash", "generation", "manifest_hash", "prepared_at"] ++
    members v.commitsIntent ["store_hashes"] ++ members v.links ["prior_checkpoint_hash"] ++
    members v.seals ["record_hash"]

def checkpointFields (v : Version) : List String :=
  ["profile_hash", "generation", "manifest_hash", "completed_at"] ++
    members v.commitsCheckpoint ["store_hashes"] ++
    members v.links ["prepared_at", "prior_checkpoint_hash", "intent_record_hash"] ++
    members v.seals ["record_hash"]

def storeNames : List String := ["state_storage", "control_plane_isolation", "workspace_integrity",
  "evidence_witness_policy", "runtime_artifacts", "launch_envelope", "evidence_head"]

def optionalStores : List String := ["runtime_artifacts", "launch_envelope"]

def schemaName : String := "defiant.authority_publication"

def genesis : Points := Points.ofString "GENESIS"

/-- `_hash` -/
def hash (value : Option Data) (field : String) : Except HarnessError Points :=
  match value with
  | some (.str s) => do
    refuseIf (isHash s = false) (publicationError (field ++ " is not a sha256 identifier"))
    pure s
  | _ => throw (publicationError (field ++ " is not a sha256 identifier"))

/-- `_checkpoint_link` -/
def checkpointLink (value : Option Data) : Except HarnessError Points :=
  match value with
  | some (.str s) => if s = genesis then pure s else hash value "prior_checkpoint_hash"
  | _ => hash value "prior_checkpoint_hash"

/-- An integer from a bound on; a truth value is none. -/
def atLeast (low : Int) (message : String) (value : Option Data) : Except HarnessError Int :=
  match value with
  | some (.int i) => do
    refuseIf (i < low) (publicationError message)
    pure i
  | _ => throw (publicationError message)

/-- `_generation` -/
def generation : Option Data → Except HarnessError Int :=
  atLeast 1 "authority publication generation is invalid"

/-- `_continuity_sequence` -/
def continuitySequence : Option Data → Except HarnessError Int :=
  atLeast 0 "authority publication continuity sequence is invalid"

/-- A member that may be null. -/
def optional (read : Option Data → Except HarnessError α) (value : Option Data) :
    Except HarnessError (Option α) :=
  match value with
  | none | some .null => pure none
  | some x => (read (some x)).map some

/-- A member that only some versions have. -/
def whenMember (condition : Bool) (read : Except HarnessError α) : Except HarnessError (Option α) :=
  if condition then read.map some else pure none

/-- A member that only some versions have, and that may be null. -/
def optionalMember (condition : Bool) (read : Option Data → Except HarnessError α)
    (value : Option Data) : Except HarnessError (Option α) :=
  if condition then optional read value else pure none

section Clock

variable {Instant : Type} [LinearOrder Instant] (clock : WallClock Instant)

/-- `_timestamp` -/
def timestamp (value : Option Data) (field : String) : Except HarnessError Points :=
  match value with
  | some (.str s) => do
    let parsed ← orRefuse (clock.parse s) (publicationError (field ++ " must be a timestamp"))
    refuseIf (s = [] ∨ parsed = none) (publicationError (field ++ " must include a timezone"))
    pure s
  | _ => throw (publicationError (field ++ " must be a timestamp"))

end Clock

section Snapshots

variable (sha : TextHash) (chunking : Chunking)

/-- `_snapshot`; the snapshot of decoded JSON is the document itself. -/
def snapshot (raw : Data) (field : String) : Except HarnessError (List Field) := do
  let _ ← (authoritySnapshotAndSha256Of sha chunking (.ofData raw) (some maxStateBytes)).mapError
    fun _ => publicationError (field ++ " exceeds bounded canonical state")
  match raw with
  | .obj fields => pure fields
  | _ => throw (publicationError (field ++ " must be an object"))

/-- The hash that every target store had, in the order of their names. -/
abbrev StoreHashes := List (String × Option Points)

namespace StoreHashes

def entries (s : StoreHashes) : List (String × Data) := s.map fun e => (e.1, orNull (e.2.map .str))

/-- `dict(store_hashes)` -/
def toDict (s : StoreHashes) : Data := .obj (record s.entries)

end StoreHashes

def storeHash (fields : List Field) (name : String) : Except HarnessError (String × Option Points) :=
  match fieldAt (Points.ofString name) fields with
  | none | some .null => do
    refuseIf (name ∉ optionalStores)
      (publicationError ("authority publication store hash '" ++ name ++ "' is required"))
    pure (name, none)
  | some x => do
    let h ← hash (some x) ("store_hashes." ++ name)
    pure (name, some h)

/-- `_store_hashes` -/
def storeHashes (value : Option Data) : Except HarnessError StoreHashes := do
  let fields ← snapshot sha chunking (orNull value) "authority publication store hashes"
  refuseIf (namesExactly storeNames fields = false)
    (publicationError "authority publication store hash fields do not match schema")
  storeNames.mapM (storeHash fields)

/-- `_publication_record_hash` -/
def publicationRecordHash (recordType : String) (payload : List (String × Data)) : Points :=
  TrustState.sha256Of sha (.obj (record [
    ("record_type", textData recordType), ("record", .obj (record payload))]))

variable {Instant : Type} [LinearOrder Instant] (clock : WallClock Instant)

/-! ### Intents -/

structure Intent where
  profileHash : Points
  generation : Int
  manifestHash : Points
  preparedAt : Points
  storeHashes : Option StoreHashes
  priorCheckpointHash : Option Points
  recordHash : Option Points
deriving DecidableEq

namespace Intent

def entries (i : Intent) (v : Version) : List (String × Data) :=
  [("profile_hash", .str i.profileHash), ("generation", .int i.generation),
    ("manifest_hash", .str i.manifestHash), ("prepared_at", .str i.preparedAt)] ++
  (i.storeHashes.map fun s => ("store_hashes", s.toDict)).toList ++
  members v.links [("prior_checkpoint_hash", orNull (i.priorCheckpointHash.map .str))] ++
  (i.recordHash.map fun h => ("record_hash", Data.str h)).toList

def toDict (i : Intent) (v : Version) : Data := .obj (record (i.entries v))

def payload (i : Intent) (v : Version) : List (String × Data) :=
  [("profile_hash", .str i.profileHash), ("generation", .int i.generation),
    ("manifest_hash", .str i.manifestHash), ("prepared_at", .str i.preparedAt),
    ("store_hashes", orNull (i.storeHashes.map StoreHashes.toDict))] ++
  members v.links [("prior_checkpoint_hash", orNull (i.priorCheckpointHash.map .str))]

def expectedRecordHash (i : Intent) (v : Version) : Points :=
  publicationRecordHash sha "intent" (i.payload v)

/-- `AuthorityPublicationIntent.sealed` -/
def sealed (i : Intent) (v : Version) : Except HarnessError Intent := do
  refuseIf (v.links = true ∧ i.priorCheckpointHash = none)
    (publicationError "authority publication intent requires a prior checkpoint link")
  pure { i with recordHash := some (i.expectedRecordHash sha v) }

/-- `AuthorityPublicationIntent.matches`; store hashes that have been read are read again as
themselves. -/
def «matches» (i : Intent) (profileHash : Points) (generation : Int) (manifestHash : Points)
    (storeHashes : Option StoreHashes) : Bool :=
  i.profileHash == profileHash && i.generation == generation && i.manifestHash == manifestHash &&
    (storeHashes == none || i.storeHashes == none || i.storeHashes == storeHashes)

/-- `AuthorityPublicationIntent.from_dict` -/
def fromDict (v : Version) (raw : Data) : Except HarnessError Intent := do
  let fields ← snapshot sha chunking raw "authority publication intent"
  let get (name : String) := fieldAt (Points.ofString name) fields
  refuseIf (namesExactly (intentFields v) fields = false)
    (publicationError "authority publication intent fields do not match schema")
  let profileHash ← hash (get "profile_hash") "profile_hash"
  let generation ← AuthorityPublication.generation (get "generation")
  let manifestHash ← hash (get "manifest_hash") "manifest_hash"
  let preparedAt ← timestamp clock (get "prepared_at") "prepared_at"
  let storeHashes ← whenMember v.commitsIntent
    (AuthorityPublication.storeHashes sha chunking (get "store_hashes"))
  let priorCheckpointHash ← whenMember v.links (checkpointLink (get "prior_checkpoint_hash"))
  let recordHash ← whenMember v.seals (hash (get "record_hash") "record_hash")
  let intent : Intent :=
    ⟨profileHash, generation, manifestHash, preparedAt, storeHashes, priorCheckpointHash, recordHash⟩
  -- the seal covers every other field of the version
  refuseIf (recordHash ≠ none ∧ recordHash ≠ some (intent.expectedRecordHash sha v))
    (publicationError "authority publication intent record hash does not match")
  pure intent

end Intent

/-! ### Checkpoints -/

structure Checkpoint where
  profileHash : Points
  generation : Int
  manifestHash : Points
  completedAt : Points
  storeHashes : Option StoreHashes
  preparedAt : Option Points
  priorCheckpointHash : Option Points
  intentRecordHash : Option Points
  recordHash : Option Points
deriving DecidableEq

namespace Checkpoint

def linkEntries (c : Checkpoint) : List (String × Data) :=
  [("prepared_at", orNull (c.preparedAt.map .str)),
    ("prior_checkpoint_hash", orNull (c.priorCheckpointHash.map .str)),
    ("intent_record_hash", orNull (c.intentRecordHash.map .str))]

def storeEntry (c : Checkpoint) : String × Data :=
  ("store_hashes", orNull (c.storeHashes.map StoreHashes.toDict))

def entries (c : Checkpoint) (v : Version) : List (String × Data) :=
  [("profile_hash", .str c.profileHash), ("generation", .int c.generation),
    ("manifest_hash", .str c.manifestHash), ("completed_at", .str c.completedAt)] ++
  members v.commitsCheckpoint [c.storeEntry] ++ members v.links c.linkEntries ++
  members v.seals [("record_hash", orNull (c.recordHash.map .str))]

def toDict (c : Checkpoint) (v : Version) : Data := .obj (record (c.entries v))

def payload (c : Checkpoint) (v : Version) : List (String × Data) :=
  [("profile_hash", .str c.profileHash), ("generation", .int c.generation),
    ("manifest_hash", .str c.manifestHash), ("completed_at", .str c.completedAt), c.storeEntry] ++
  members v.links c.linkEntries

def expectedRecordHash (c : Checkpoint) (v : Version) : Points :=
  publicationRecordHash sha "checkpoint" (c.payload v)

/-- `AuthorityPublicationCheckpoint.expected_intent_record_hash` -/
def expectedIntentRecordHash (c : Checkpoint) : Except HarnessError Points :=
  match c.preparedAt, c.priorCheckpointHash, c.storeHashes with
  | some preparedAt, some prior, some stores =>
    let intent : Intent :=
      ⟨c.profileHash, c.generation, c.manifestHash, preparedAt, some stores, some prior, none⟩
    pure (intent.expectedRecordHash sha .current)
  | _, _, _ => throw (publicationError "authority publication checkpoint has no originating intent link")

def sealed (c : Checkpoint) : Checkpoint :=
  { c with recordHash := some (c.expectedRecordHash sha .current) }

def requireIntentLink (c : Checkpoint) : Except HarnessError Unit :=
  match c.intentRecordHash with
  | none => pure ()
  | some h => do
    let expected ← c.expectedIntentRecordHash sha
    refuseIf (h ≠ expected)
      (publicationError "authority publication checkpoint originating intent hash does not match")

/-- `AuthorityPublicationCheckpoint.from_dict` -/
def fromDict (v : Version) (raw : Data) : Except HarnessError Checkpoint := do
  let fields ← snapshot sha chunking raw "authority publication checkpoint"
  let get (name : String) := fieldAt (Points.ofString name) fields
  refuseIf (namesExactly (checkpointFields v) fields = false)
    (publicationError "authority publication checkpoint fields do not match schema")
  let profileHash ← hash (get "profile_hash") "profile_hash"
  let generation ← AuthorityPublication.generation (get "generation")
  let manifestHash ← hash (get "manifest_hash") "manifest_hash"
  let completedAt ← timestamp clock (get "completed_at") "completed_at"
  let storeHashes ← optionalMember v.commitsCheckpoint
    (AuthorityPublication.storeHashes sha chunking) (get "store_hashes")
  let preparedAt ← optionalMember v.links (timestamp clock · "prepared_at") (get "prepared_at")
  let priorCheckpointHash ← optionalMember v.links checkpointLink (get "prior_checkpoint_hash")
  let intentRecordHash ← optionalMember v.links (hash · "intent_record_hash")
    (get "intent_record_hash")
  let recordHash ← whenMember v.seals (hash (get "record_hash") "record_hash")
  let checkpoint : Checkpoint := ⟨profileHash, generation, manifestHash, completedAt, storeHashes,
    preparedAt, priorCheckpointHash, intentRecordHash, recordHash⟩
  let linked := [checkpoint.preparedAt, checkpoint.priorCheckpointHash, checkpoint.intentRecordHash]
  -- all three point to the intent, or none does
  refuseIf (linked.any (·.isNone) = true ∧ linked.any (·.isSome) = true)
    (publicationError "authority publication checkpoint intent link is incomplete")
  refuseIf (recordHash ≠ none ∧ recordHash ≠ some (checkpoint.expectedRecordHash sha v))
    (publicationError "authority publication checkpoint record hash does not match")
  checkpoint.requireIntentLink sha
  pure checkpoint

end Checkpoint

/-! ### States -/

structure State where
  active : Option Intent
  completed : Option Checkpoint
  schemaVersion : Version
  continuitySequence : Option Int
deriving DecidableEq

namespace State

def entries (s : State) : List (String × Data) :=
  [("schema_name", textData schemaName), ("schema_version", textData s.schemaVersion.text),
    ("active", orNull (s.active.map (·.toDict s.schemaVersion))),
    ("completed", orNull (s.completed.map (·.toDict s.schemaVersion)))] ++
  members (s.schemaVersion == .current)
    [("continuity_sequence", orNull (s.continuitySequence.map .int))]

def toDict (s : State) : Data := .obj (record s.entries)

/-- What the version of a state asks of its records together. -/
def require (s : State) : Except HarnessError Unit := do
  let v := s.schemaVersion
  refuseIf (s.active = none ∧ s.completed = none)
    (publicationError "authority publication state requires an active or completed record")
  refuseIf (v.commitsCheckpoint = true ∧ s.active = none ∧ ∃ c ∈ s.completed, c.storeHashes = none)
    (publicationError "completed authority publication requires store commitments")
  refuseIf (v.seals = true ∧ ∃ i ∈ s.active, i.recordHash = none)
    (publicationError "active authority publication requires a record hash")
  refuseIf (v.seals = true ∧ ∃ c ∈ s.completed, c.recordHash = none)
    (publicationError "completed authority publication requires a record hash")
  -- the first publication links to the genesis mark
  refuseIf (v.links = true ∧ ∃ i ∈ s.active,
      i.priorCheckpointHash ≠ s.completed.elim (some genesis) (·.recordHash))
    (publicationError "active authority publication prior checkpoint link does not match")
  refuseIf (∃ i ∈ s.active, ∃ c ∈ s.completed,
      i.generation ≠ c.generation ∧ i.generation ≠ c.generation + 1)
    (publicationError "authority publication generations are not contiguous")
  refuseIf (∃ i ∈ s.active, ∃ c ∈ s.completed, i.generation = c.generation ∧
      i.matches c.profileHash c.generation c.manifestHash c.storeHashes = false)
    (publicationError "same-generation authority publication records disagree")
  -- a sequence above zero counts completed checkpoints
  refuseIf (v = .current ∧ (∃ n ∈ s.continuitySequence, 0 < n) ∧ s.completed = none)
    (publicationError "authority publication continuity requires a completed checkpoint")
  refuseIf (v = .current ∧ s.continuitySequence = some 0 ∧
      ∃ c ∈ s.completed, c.intentRecordHash ≠ none)
    (publicationError "linked authority publication checkpoint requires continuity")

/-- `AuthorityPublicationState.from_dict` -/
def fromDict (raw : Data) : Except HarnessError State := do
  let fields ← snapshot sha chunking raw "authority publication state"
  let get (name : String) := fieldAt (Points.ofString name) fields
  refuseIf (textAt "schema_name" fields ≠ some (Points.ofString schemaName))
    (publicationError "unsupported authority publication schema")
  -- the version decides which fields the rest must have
  let v ← orRefuse (Version.supported.find? fun v =>
      textAt "schema_version" fields == some (Points.ofString v.text))
    (publicationError "unsupported authority publication version")
  refuseIf (namesExactly (stateFields v) fields = false)
    (publicationError "authority publication state fields do not match schema")
  let sequence ← whenMember (v == .current)
    (AuthorityPublication.continuitySequence (get "continuity_sequence"))
  let active ← optional (fun x => Intent.fromDict sha chunking clock v (orNull x)) (get "active")
  let completed ← optional (fun x => Checkpoint.fromDict sha chunking clock v (orNull x))
    (get "completed")
  let state : State := ⟨active, completed, v, sequence⟩
  state.require
  pure state

/-- What `_write` leaves in the file. -/
def written (s : State) : Except HarnessError Data := do
  let candidate ← fromDict sha chunking clock s.toDict
  pure candidate.toDict

end State

/-! ### Completion -/

namespace Intent

/-- The version that the members of an intent belong to. -/
def version (i : Intent) : Version :=
  if i.priorCheckpointHash ≠ none then .current
  else if i.recordHash ≠ none then .recordSeal
  else if i.storeHashes ≠ none then .checkpointCommitment
  else .legacy

/-- The intent that `complete` expects, read from the document of the one it is given. -/
def expected (i : Intent) : Except HarnessError Intent :=
  fromDict sha chunking clock i.version (i.toDict i.version)

/-- The checkpoint of a completed intent. -/
def checkpoint (i : Intent) (completedAt : Points) : Checkpoint :=
  -- an intent of an older version has no link to pass on
  let linked := i.priorCheckpointHash ≠ none
  Checkpoint.sealed sha {
    profileHash := i.profileHash
    generation := i.generation
    manifestHash := i.manifestHash
    completedAt
    storeHashes := i.storeHashes
    preparedAt := if linked then some i.preparedAt else none
    priorCheckpointHash := i.priorCheckpointHash
    intentRecordHash := if linked then i.recordHash else none
    recordHash := none }

end Intent

namespace State

/-- The state that `complete` writes; the continuity anchor is checked before and moved after. -/
def complete (s : State) (intent : Intent) (completedAt : Points) : Except HarnessError State := do
  let expected ← intent.expected sha chunking clock
  let active ← orRefuse s.active (publicationError "no active authority publication to complete")
  refuseIf (active.profileHash ≠ expected.profileHash ∨ active.generation ≠ expected.generation ∨
      active.manifestHash ≠ expected.manifestHash ∨ active.preparedAt ≠ expected.preparedAt ∨
      -- an older stored intent may lack the last three, and then they are not compared
      (active.storeHashes ≠ none ∧ active.storeHashes ≠ expected.storeHashes) ∨
      (active.recordHash ≠ none ∧ active.recordHash ≠ expected.recordHash) ∨
      (active.priorCheckpointHash ≠ none ∧
        active.priorCheckpointHash ≠ expected.priorCheckpointHash))
    (publicationError "authority publication completion does not match intent")
  refuseIf (expected.storeHashes = none)
    (publicationError "authority publication completion requires store commitments")
  let checkpoint := expected.checkpoint sha completedAt
  let completed : State := {
    active := none
    completed := some checkpoint
    schemaVersion := .current
    continuitySequence := some (if checkpoint.priorCheckpointHash ≠ none
      then s.continuitySequence.getD 0 + 1 else 0) }
  let _ ← completed.written sha chunking clock
  pure completed

end State
end Snapshots
end AuthorityPublication
end DefiantHarness
