import DefiantHarness.PublicationContinuity

/-! The store of the publication: prepare, complete, and the continuity anchor that follows the
completed checkpoint in a file of its own. Either write may be the last thing the process does. -/
namespace DefiantHarness

open Foundation

namespace AuthorityPublication

def publicationFile : String := "authority_publication.json"
def continuityFile : String := "authority_publication_continuity.json"

/-- How the replacement of a state file ends: it returns, it raises or the process stops before the
new file stands in its place, or after. -/
inductive WriteOutcome where
  | done | lost | unsynced
deriving DecidableEq, Repr

/-- The two files, the states that the first one has held, and what the clock and the writes to come
will say. -/
structure Files (Instant : Type) where
  publication : Option (List Char)
  continuity : Option (List Char)
  published : List State
  readings : Nat → Instant
  outcomes : Nat → WriteOutcome

abbrev Store (Instant α : Type) := Proc (Files Instant) HarnessError α

def writeFailed : HarnessError := publicationError "the file was not replaced"

/-- `AuthorityPublicationError(str(exc))` -/
def asPublication (result : Except HarnessError α) : Except HarnessError α :=
  result.mapError fun e => publicationError e.message

/-- The version in which the next publication starts. -/
def State.empty : State := ⟨none, none, .current, some 0⟩

section Reading

variable {Instant : Type} [LinearOrder Instant] (clock : WallClock Instant) (sha : TextHash)
  (chunking : Chunking)

/-- `AuthorityPublicationStore.get` -/
def readPublication : Option (List Char) → Except HarnessError (Option State)
  | none => pure none
  | some text => asPublication do
    let raw ← DocumentFile.read publicationFile maxStateBytes text
    let state ← State.fromDict sha chunking clock raw
    pure (some state)

/-- `AuthorityPublicationContinuityStore.get` -/
def readContinuity : Option (List Char) → Except HarnessError (Option ContinuityState)
  | none => pure none
  | some text => asPublication do
    let raw ← DocumentFile.read continuityFile maxContinuityStateBytes text
    let anchor ← ContinuityState.fromDict sha chunking clock raw
    pure (some anchor)

end Reading

/-! ### What a preparation writes -/

section Preparing

variable (sha : TextHash)

/-- The completed checkpoint, sealed in the current version. -/
def State.sealedCheckpoint (s : State) : Option Checkpoint := s.completed.map (Checkpoint.sealed sha)

/-- Continuity begins with a linked checkpoint of a version that had none. -/
def State.anchors (s : State) : Bool :=
  s.continuitySequence = none ∧
    ∃ c ∈ s.sealedCheckpoint sha, c.recordHash ≠ none ∧ c.priorCheckpointHash ≠ none

def State.preparedSequence (s : State) : Int :=
  match s.continuitySequence with
  | some n => n
  | none => if s.anchors sha then 1 else 0

/-- The intent of a publication that follows a state. -/
def State.intent (s : State) (profileHash : Points) (generation : Int) (manifestHash : Points)
    (storeHashes : StoreHashes) (preparedAt : Points) : Except HarnessError Intent :=
  Intent.sealed sha {
    profileHash
    generation
    manifestHash
    preparedAt
    storeHashes := some storeHashes
    priorCheckpointHash := (s.sealedCheckpoint sha).elim (some genesis) (·.recordHash)
    recordHash := none } .current

def State.prepared (s : State) (intent : Intent) : State :=
  ⟨some intent, s.sealedCheckpoint sha, .current, some (s.preparedSequence sha)⟩

end Preparing

namespace Store

variable {Instant : Type}

section Steps

/-- Replace a file, with the next outcome. -/
def replace (file : Files Instant → Files Instant) : Store Instant Unit := fun w =>
  let rest : Files Instant := { w with outcomes := fun n => w.outcomes (n + 1) }
  match w.outcomes 0 with
  | .done => (.ok (), file rest)
  | .lost => (.error writeFailed, rest)
  | .unsynced => (.error writeFailed, file rest)

end Steps

variable [LinearOrder Instant] (clock : WallClock Instant) (sha : TextHash) (chunking : Chunking)

/-- `utc_now` -/
def utcNow : Store Instant Points := fun w =>
  (.ok (Points.ofString (clock.utcNow (w.readings 0))), { w with readings := fun n => w.readings (n + 1) })

/-- `get` -/
def state : Store Instant (Option State) := fun w =>
  (readPublication clock sha chunking w.publication, w)

/-- `get_continuity` -/
def anchor : Store Instant (Option ContinuityState) := fun w =>
  (readContinuity clock sha chunking w.continuity, w)

/-- `_write` -/
def write (s : State) : Store Instant Unit := do
  let candidate ← Proc.lift (State.fromDict sha chunking clock s.toDict)
  let text ← Proc.lift (asPublication
    (atomicWriteJson publicationFile maxStateBytes (.ofData candidate.toDict)))
  replace fun w => { w with publication := some text, published := w.published ++ [candidate] }

/-- The write of `advance`. -/
def publish (candidate : ContinuityState) : Store Instant ContinuityState := do
  let text ← Proc.lift (asPublication
    (atomicWriteJson continuityFile maxContinuityStateBytes (.ofData candidate.toDict)))
  replace fun w => { w with continuity := some text }
  pure candidate

/-- `AuthorityPublicationContinuityStore.advance` -/
def advance (sequence : Int) (checkpointHash priorCheckpointHash : Points) :
    Store Instant ContinuityState := do
  let anchoredAt ← utcNow clock
  let candidate ← Proc.lift
    (ContinuityState.create sha sequence checkpointHash priorCheckpointHash anchoredAt)
  let current ← anchor clock sha chunking
  match current with
  | some current => do
    -- repeated after a crash
    if current.sequence = candidate.sequence ∧ current.checkpointHash = candidate.checkpointHash ∧
        current.priorCheckpointHash = candidate.priorCheckpointHash then
      pure current
    else do
      Proc.lift (refuseIf (candidate.sequence ≠ current.sequence + 1)
        (publicationError "authority publication continuity sequence did not advance"))
      Proc.lift (refuseIf (candidate.priorCheckpointHash ≠ current.checkpointHash)
        (publicationError "authority publication continuity predecessor does not match"))
      publish candidate
  | none => do
    Proc.lift (refuseIf (candidate.sequence ≠ 1)
      (publicationError "authority publication continuity cannot initialize after sequence one"))
    publish candidate

/-- `_advance_continuity` -/
def advanceContinuity (checkpoint : Checkpoint) (sequence : Int) : Store Instant Unit :=
  match checkpoint.recordHash, checkpoint.priorCheckpointHash with
  | some recordHash, some prior => do
    let _ ← advance clock sha chunking sequence recordHash prior
    pure ()
  | _, _ => Proc.raise (publicationError
      "authority publication continuity checkpoint is not linked")

/-- The anchor catches up with the checkpoint of a state. -/
def recoverCheckpoint (s : State) : Store Instant Unit :=
  match s.completed, s.continuitySequence with
  | some checkpoint, some sequence => advanceContinuity clock sha chunking checkpoint sequence
  | _, _ => Proc.raise (publicationError
      "authority publication continuity recovery has no checkpoint")

/-- `_recover_continuity_if_required` -/
def recoverContinuityIfRequired (s : State) : Store Instant Unit := do
  let current ← anchor clock sha chunking
  match assess (some s) current with
  | .forwardRecovery => recoverCheckpoint clock sha chunking s
  | .verified => pure ()
  | .legacyUnavailable => pure ()
  | verification =>
    Proc.raise (publicationError ("authority publication continuity is " ++ verification.text))

/-- Continuity begins with a checkpoint that an earlier version has linked. -/
def startContinuity (s : State) : Store Instant Unit :=
  match s.sealedCheckpoint sha with
  | some checkpoint =>
    if s.anchors sha then advanceContinuity clock sha chunking checkpoint (s.preparedSequence sha)
    else pure ()
  | none => pure ()

/-- `AuthorityPublicationStore.prepare` -/
def prepare (profileHash generation manifestHash storeHashes : Data) : Store Instant Intent := do
  let profileHash ← Proc.lift (hash (some profileHash) "profile_hash")
  let generation ← Proc.lift (AuthorityPublication.generation (some generation))
  let manifestHash ← Proc.lift (hash (some manifestHash) "manifest_hash")
  let storeHashes ← Proc.lift (AuthorityPublication.storeHashes sha chunking (some storeHashes))
  let stored ← state clock sha chunking
  let s := stored.getD .empty
  -- the anchor catches up before anything new is written
  recoverContinuityIfRequired clock sha chunking s
  match s.active with
  | some active =>
    -- the same publication is resumed under its first intent
    if active.matches profileHash generation manifestHash (some storeHashes) then pure active
    else Proc.raise (publicationError "a different authority publication requires recovery")
  | none => do
    let preparedAt ← utcNow clock
    let intent ← Proc.lift (s.intent sha profileHash generation manifestHash storeHashes preparedAt)
    write clock sha chunking (s.prepared sha intent)
    startContinuity clock sha chunking s
    pure intent

/-- The anchor follows a linked checkpoint that has been completed. -/
def followCheckpoint (completed : State) : Store Instant Unit :=
  match completed.completed, completed.continuitySequence with
  | some checkpoint, some sequence =>
    if 0 < sequence then advanceContinuity clock sha chunking checkpoint sequence else pure ()
  | _, _ => pure ()

/-- `AuthorityPublicationStore.complete`; the checks of the intent do not depend on the time. -/
def complete (intent : Intent) : Store Instant State := do
  let _ ← Proc.lift (intent.expected sha chunking clock)
  let stored ← state clock sha chunking
  match stored with
  | none => Proc.raise (publicationError "no active authority publication to complete")
  | some s => do
    Proc.lift (refuseIf (s.active = none)
      (publicationError "no active authority publication to complete"))
    recoverContinuityIfRequired clock sha chunking s
    let completedAt ← utcNow clock
    let completed ← Proc.lift (s.complete sha chunking clock intent completedAt)
    -- the checkpoint is durable before the anchor follows it
    write clock sha chunking completed
    followCheckpoint clock sha chunking completed
    pure completed

/-- A call of the store. -/
inductive Call where
  | prepare (profileHash generation manifestHash storeHashes : Data)
  | complete (intent : Intent)

def Call.run : Call → Store Instant Unit
  | .prepare profileHash generation manifestHash storeHashes => do
    let _ ← Store.prepare clock sha chunking profileHash generation manifestHash storeHashes
    pure ()
  | .complete intent => do
    let _ ← Store.complete clock sha chunking intent
    pure ()

/-- The files after some calls, whether they return or raise. -/
def after (w : Files Instant) (calls : List Call) : Files Instant :=
  calls.foldl (fun w call => (call.run clock sha chunking w).2) w

end Store
end AuthorityPublication
end DefiantHarness
