import DefiantHarness.JournalPayload
import DefiantHarness.ListedValues

/-! The file of the operation journal: what preparing an operation writes and what a recovery reads. -/
namespace DefiantHarness

open Foundation

namespace JournalFile

def journalSchema : String := "defiant.operation_journal"
def journalVersion : String := "0.4.0"
def supportedJournalVersions : List String := ["0.1.0", "0.2.0", "0.3.0", journalVersion]
def stateFields : List String := ["schema_name", "schema_version", "active"]
def operationFields : List String := ["operation_id", "kind", "prepared_at", "payload", "payload_hash"]

/-- A prepared operation; its payload is frozen. -/
structure JournalOperation where
  operationId : Points
  kind : Points
  preparedAt : Points
  frozenPayload : Value
  payloadHash : Points

namespace JournalOperation

def payload (operation : JournalOperation) : Value := operation.frozenPayload.thawPayload

/-- The same operation, up to the order of dictionary entries in its payload. -/
def Same (a b : JournalOperation) : Prop :=
  a.operationId = b.operationId ∧ a.kind = b.kind ∧ a.preparedAt = b.preparedAt ∧
    a.payloadHash = b.payloadHash ∧ a.payload.Same b.payload

def toDict (operation : JournalOperation) : Value := .dict (Durable.record [
  ("operation_id", .str operation.operationId), ("kind", .str operation.kind),
  ("prepared_at", .str operation.preparedAt), ("payload", operation.payload),
  ("payload_hash", .str operation.payloadHash)])

end JournalOperation

/-- The keys of a dictionary are exactly these names. -/
def namesExactly (names : List String) (entries : List Entry) : Bool :=
  entries.all (fun e => match e.1 with
    | .str k => names.any fun name => Points.ofString name == k
    | _ => false) &&
  names.all fun name => (Durable.lookup name entries).isSome

/-- The text under a name, of an entry that is exactly a string. -/
def exactText (name : String) (entries : List Entry) : Option Points :=
  match Durable.lookup name entries with
  | some (.str s) => some s
  | _ => none

section Operations

variable (sha : TextHash) (chunking : Chunking) (literals : Durable.Literals)
  (supply : Durable.Supply literals)

def snapshotOperation (raw : List Entry) : Except HarnessError (List Entry) := do
  let (snapshot, _) ← (authoritySnapshotAndSha256Of sha chunking (.dict raw)
    (some maxOperationJournalBytes)).mapError fun _ =>
      journalError "journal operation exceeds bounded canonical contract"
  match snapshot with
  | .dict entries => pure entries
  | _ => throw (journalError "journal operation must be an object")

def snapshotPayload (payload : List Entry) : Except HarnessError (List Entry × String) := do
  let (snapshot, digest) ← (authoritySnapshotAndSha256Of sha chunking (.dict payload)
    (some maxOperationJournalBytes)).mapError fun _ =>
      journalError "journal payload exceeds bounded canonical contract"
  match snapshot with
  | .dict (e :: es) => pure (e :: es, digest)
  | _ => throw (journalError "journal payload must be a non-empty object")

def adopt (operationId kind preparedAt : Points) (payload : List Entry) (payloadHash : Points) :
    JournalOperation :=
  ⟨operationId, kind, preparedAt, (Value.dict payload).freezePayload, payloadHash⟩

/-- `JournalOperation.prepare`, with a fresh identifier and the time. -/
def prepareOperation (fresh now : String) (kind : Points) (payload : List Entry) :
    Except HarnessError JournalOperation := do
  refuseIf (kind.all blankPoint = true) (journalError "journal operation kind is invalid")
  refuseIf (operationKinds.all (fun k => Points.ofString k != kind) = true)
    (journalError "unsupported journal operation")
  refuseIf (payload.isEmpty = true) (journalError "journal payload must be a non-empty object")
  -- the caller's objects are copied here; later changes to them are not journaled
  let (prepared, payloadHash) ← snapshotPayload sha chunking payload
  validatePayload sha chunking literals supply kind prepared
  pure (adopt (Points.ofString ("op_" ++ fresh)) kind (Points.ofString now) prepared
    (Points.ofString payloadHash))

/-- `JournalOperation.from_dict`. -/
def fromDict (raw : List Entry) : Except HarnessError JournalOperation := do
  let operation ← snapshotOperation sha chunking raw
  refuseIf (namesExactly operationFields operation = false)
    (journalError "journal operation fields do not match schema")
  let operationId ← orRefuse (exactText "operation_id" operation)
    (journalError "journal operation id is invalid")
  refuseIf ((Points.ofString "op_").isPrefixOf operationId = false)
    (journalError "journal operation id is invalid")
  let kind ← orRefuse (exactText "kind" operation)
    (journalError "journal operation kind is invalid")
  refuseIf (operationKinds.all (fun k => Points.ofString k != kind) = true)
    (journalError "journal operation kind is invalid")
  let preparedAt ← orRefuse (exactText "prepared_at" operation)
    (journalError "journal prepared_at is invalid")
  refuseIf (preparedAt = []) (journalError "journal prepared_at is invalid")
  match Durable.lookup "payload" operation with
  -- an empty payload is refused like one that is no object
  | some (.dict (e :: es)) => do
    let (prepared, computedHash) ← snapshotPayload sha chunking (e :: es)
    refuseIf (exactText "payload_hash" operation ≠ some (Points.ofString computedHash))
      (journalError "journal payload hash is invalid")
    validatePayload sha chunking literals supply kind prepared
    pure (adopt operationId kind preparedAt prepared (Points.ofString computedHash))
  | _ => throw (journalError "journal payload is invalid")

/-- The document of the journal. -/
def stateDocument (active : Option JournalOperation) : Value := .dict (Durable.record [
  ("schema_name", .str (Points.ofString journalSchema)),
  ("schema_version", .str (Points.ofString journalVersion)),
  ("active", (active.map JournalOperation.toDict).getD .null)])

def fileName : String := "operation_journal.json"

def write (active : Option JournalOperation) : Except HarnessError (List Char) :=
  atomicWriteJson fileName maxOperationJournalBytes (stateDocument active)

/-- The operation that awaits recovery; a missing file has none. -/
def active : Option (List Char) → Except HarnessError (Option JournalOperation)
  | none => pure none
  | some text => do
    let raw ← readJson fileName maxOperationJournalBytes text
    match raw with
    | .dict entries => do
      refuseIf (namesExactly stateFields entries = false)
        (journalError "operation journal fields do not match schema")
      refuseIf (exactText "schema_name" entries ≠ some (Points.ofString journalSchema))
        (journalError "unsupported operation journal schema")
      refuseIf (supportedJournalVersions.all
          (fun version => some (Points.ofString version) != exactText "schema_version" entries) = true)
        (journalError "unsupported operation journal version")
      match Durable.lookup "active" entries with
      | none => pure none
      -- no operation is active
      | some .null => pure none
      | some (.dict operation) => (fromDict sha chunking literals supply operation).map some
      | some _ => throw (journalError "active journal operation must be an object")
    | _ => throw (persistenceError ("state file must contain a JSON object: " ++ fileName))

/-- At most one operation is prepared. -/
def refusePending : Option JournalOperation → Except HarnessError Unit
  | none => pure ()
  | some active => throw (journalError ("operation " ++ active.operationId.toString ++ " (" ++
      active.kind.toString ++ ") requires recovery"))

/-- Prepare an operation: the operation, and the file that it leaves. -/
def prepare (file : Option (List Char)) (fresh now : String) (kind : Points) (payload : List Entry) :
    Except HarnessError (JournalOperation × List Char) := do
  let operation ← prepareOperation sha chunking literals supply fresh now kind payload
  let pending ← active sha chunking literals supply file
  refusePending pending
  let text ← write (some operation)
  pure (operation, text)

/-- Clear the prepared operation. -/
def complete (file : Option (List Char)) (operationId : Points) : Except HarnessError (List Char) := do
  let pending ← active sha chunking literals supply file
  let operation ← orRefuse pending (journalError "no active journal operation to complete")
  refuseIf (operation.operationId ≠ operationId) (journalError "journal completion id does not match")
  write none

end Operations
end JournalFile
end DefiantHarness
