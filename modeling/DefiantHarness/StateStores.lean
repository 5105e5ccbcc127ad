import DefiantHarness.StateDocuments

/-! The stores that keep their state in one bounded JSON file: what they write, and what their own read
paths make of it. -/
namespace DefiantHarness

open Foundation

/-- A file with one ceiling for the snapshot, the publication and the reading of its document. -/
structure StateStore where
  name : String
  maximumBytes : Nat
  inRange : 1 ≤ maximumBytes ∧ maximumBytes ≤ maxActionHashCanonicalBytes
  error : String → HarnessError
  storageError : HarnessError → HarnessError
  subject : String

namespace StateStore

variable (sha : TextHash) (chunking : Chunking) (store : StateStore)

/-- `_store_snapshot`: one bounded canonical observation of the whole document. -/
def storeSnapshot (value : Value) : Except HarnessError (List Entry) := do
  let (snapshot, _) ← (authoritySnapshotAndSha256Of sha chunking value
    (some store.maximumBytes)).mapError fun _ =>
      store.error (store.subject ++ " exceeds bounded canonical contract")
  match snapshot with
  | .dict entries => pure entries
  | _ => throw (store.error (store.subject ++ " must be an object"))

/-- Replace the file by a document. -/
def replace (document : List Entry) : Except HarnessError (List Char) :=
  (atomicWriteJson store.name store.maximumBytes (.dict document)).mapError store.storageError

/-- The snapshot of the document in the file. -/
def readSnapshot (text : List Char) : Except HarnessError (List Entry) := do
  let data ← (readJson store.name store.maximumBytes text).mapError store.storageError
  store.storeSnapshot sha chunking data

end StateStore

namespace Durable

/-- A store of records under their identifiers, each one sealed when it was made. -/
structure RecordStore (literals : Literals) (α : Type) where
  file : StateStore
  load : Supply literals → List Entry → Except HarnessError α
  key : α → Points
  document : α → List Entry
  keyError : HarnessError
  recordError : Points → HarnessError
  mismatchError : Points → HarnessError

namespace RecordStore

variable {α : Type} {literals : Literals} (sha : TextHash) (chunking : Chunking)
  (store : RecordStore literals α)

/-- A record that the constructor has made, from any snapshot at any time. -/
structure Sealed where
  record : α
  made : ∃ supply snapshot, store.load supply snapshot = .ok record

/-- The document of records under their keys. -/
def documentOf (data : List (Points × α)) : List Entry :=
  data.map fun e => (.str e.1, .dict (store.document e.2))

/-- The document that publishing records is given. -/
def published (data : List (Points × store.Sealed)) : Value :=
  .dict (store.documentOf (data.map fun e => (e.1, e.2.record)))

/-- Publish records under their keys. -/
def write (data : List (Points × store.Sealed)) : Except HarnessError (List Char) := do
  let document ← store.file.storeSnapshot sha chunking (store.published data)
  store.file.replace document

/-- One record of the file. -/
def readEntry (supply : Supply literals) (e : Entry) : Except HarnessError (Points × α) := do
  let key ← orRefuse e.1.exactText? store.keyError
  refuseIf (key = []) store.keyError
  match e.2 with
  | .dict raw => do
    let record ← store.load supply raw
    refuseIf (store.key record ≠ key) (store.mismatchError key)
    pure (key, record)
  | _ => throw (store.recordError key)

/-- The store's own read path. -/
def readAll (supply : Supply literals) (text : List Char) : Except HarnessError (List (Points × α)) := do
  let data ← store.file.readSnapshot sha chunking text
  data.mapM (store.readEntry supply)

end RecordStore

/-! ### Approvals -/

namespace ApprovalStore

def file : StateStore :=
  ⟨"approvals.json", maxApprovalStateBytes, by decide, PendingApproval.error,
    fun e => PendingApproval.error e.message, "approval state"⟩

variable (sha : TextHash) (chunking : Chunking) (literals : Literals)

def records : RecordStore literals PendingApproval where
  file := file
  load := PendingApproval.fromSnapshot sha chunking literals
  key := PendingApproval.approvalId
  document := PendingApproval.document
  keyError := PendingApproval.error "approval key must be non-empty text"
  recordError key := PendingApproval.error ("approval " ++ key.toString ++ " is not an object")
  mismatchError key := PendingApproval.error ("approval " ++ key.toString ++ " key mismatch")

/-- `_write_all` -/
def writeAll (data : List (Points × (records sha chunking literals).Sealed)) :
    Except HarnessError (List Char) := do
  checkAll (fun e => do
    refuseIf (e.1 = []) (records sha chunking literals).keyError
    refuseIf (e.2.record.approvalId ≠ e.1) ((records sha chunking literals).mismatchError e.1)) data
  (records sha chunking literals).write sha chunking data

end ApprovalStore

/-! ### Executions of hooks -/

namespace HookExecutionStore

def file : StateStore :=
  ⟨"hook_executions.json", maxHookExecutionStateBytes, by decide, HookExecution.error,
    fun e => HookExecution.error e.message, "hook execution state"⟩

variable (sha : TextHash) (chunking : Chunking) (literals : Literals)

def records : RecordStore literals HookExecution where
  file := file
  load := HookExecution.fromSnapshot sha chunking literals
  key := HookExecution.toolUseId
  document := HookExecution.document
  keyError := HookExecution.error "hook execution key must be non-empty text"
  recordError _ := HookExecution.error "hook execution record must be an object"
  mismatchError _ := HookExecution.error "hook execution key mismatch"

/-- Executions under their own identifiers. -/
def keyed (executions : List (records sha chunking literals).Sealed) :
    List (Points × (records sha chunking literals).Sealed) :=
  executions.map fun e => (e.record.toolUseId, e)

/-- `_write_all` -/
def writeAll (executions : List (records sha chunking literals).Sealed) :
    Except HarnessError (List Char) :=
  (records sha chunking literals).write sha chunking (keyed sha chunking literals executions)

end HookExecutionStore

/-! ### The budget ledger -/

namespace BudgetLedger

def file : StateStore :=
  ⟨"budget.json", maxBudgetStateBytes, by decide, error, id, "budget state"⟩

variable (sha : TextHash) (chunking : Chunking) (literals : Literals)

/-- The document that `_write` publishes. -/
def accept (data : Value) : Except HarnessError (List Entry) := do
  let snapshot ← file.storeSnapshot sha chunking data
  validate literals snapshot

/-- `_write` -/
def write (data : Value) : Except HarnessError (List Char) := do
  let document ← accept sha chunking literals data
  file.replace document

/-- `_validated_read` -/
def validatedRead (text : List Char) : Except HarnessError (List Entry) := do
  let snapshot ← file.readSnapshot sha chunking text
  validate literals snapshot

end BudgetLedger
end Durable
end DefiantHarness
