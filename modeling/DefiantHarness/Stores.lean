import DefiantHarness.World

/-! The evidence store and the operation journal at work. -/
namespace DefiantHarness

open Foundation

namespace EvidenceStore

variable (site : Deployment)

/-- Refuse to work on a broken chain. -/
def requireChain (purpose : String) (records : List EvidenceRecord) : Except HarnessError Unit :=
  match EvidenceLog.verify site.digests records with
  | .ok () => pure ()
  | .error e => throw (evidenceError ("refusing " ++ purpose ++ " broken evidence chain: " ++ e.message))

def placeHead : Option EvidenceHead → Control Unit
  | none => pure ()
  | some head => do
    let disk ← Control.disk
    Control.save { disk with head := some head }

/-- Bring a checkpoint that is behind up to the end of the log. -/
def reconcileHead : Control Unit := do
  let disk ← Control.disk
  let clock ← Control.now site
  let head ← Proc.lift (EvidenceLog.reconcileHead disk.head disk.records (clock 0))
  placeHead head

/-- Move the checkpoint over the record just written. -/
def advanceHead (before : List EvidenceRecord) : Control Unit := do
  let disk ← Control.disk
  let clock ← Control.now site
  let head ← Proc.lift (EvidenceLog.advanceHead disk.head before disk.records (clock 0))
  placeHead head

/-- Seal a record on the head of the log and write it. -/
def writeRecord (record : EvidenceRecord) : Control EvidenceRecord := do
  let disk ← Control.disk
  let stored := record.sealed site.digests (EvidenceLog.headHash disk.records)
  Proc.lift (refuseIf (site.limits.record stored = false)
    (evidenceError "evidence record exceeds its byte limit"))
  Control.save { disk with records := disk.records ++ [stored] }
  advanceHead site disk.records
  pure stored

def append (record : EvidenceRecord) : Control EvidenceRecord := do
  Proc.lift (refuseIf (record.recordHash ≠ "")
    (evidenceError "refusing to append an already sealed record"))
  let disk ← Control.disk
  Proc.lift (requireChain site "to append to" disk.records)
  reconcileHead site
  writeRecord site record

/-- Append or recognize an exact prepared record during recovery. -/
def appendIdempotent (record : EvidenceRecord) : Control EvidenceRecord := do
  Proc.lift (refuseIf (record.recordHash ≠ "")
    (evidenceError "prepared evidence record must not be sealed"))
  let disk ← Control.disk
  Proc.lift (requireChain site "to append to" disk.records)
  reconcileHead site
  match EvidenceLog.get disk.records record.recordId with
  | some present => do
    -- the seal is left out of the comparison: it was not known when the record was prepared
    Proc.lift (refuseIf (present.comparable ≠ record.comparable)
      (evidenceError ("record " ++ record.recordId ++ " conflicts with journal")))
    pure present
  | none => writeRecord site record

end EvidenceStore

namespace OperationJournal

variable (site : Deployment)

/-- The prepared operation, validated as it is read back. -/
def active : Control (Option JournalOperation) := do
  let disk ← Control.disk
  match disk.journal with
  | none => pure none
  | some operation => do
    Proc.lift (operation.validate site.digests)
    pure (some operation)

/-- Persist one operation, unless another one is waiting for recovery. -/
def prepare (payload : OperationPayload) (evidence : EvidenceRecord) : Control JournalOperation := do
  -- judged without its identity, which is drawn after
  let draft : JournalOperation := ⟨"", 0, payload, evidence⟩
  Proc.lift (refuseIf (site.limits.operation draft = false)
    (journalError "journal payload exceeds bounded canonical contract"))
  Proc.lift (draft.validate site.digests)
  let operationId ← Control.newId site "op"
  let clock ← Control.now site
  let operation : JournalOperation := ⟨operationId, clock 0, payload, evidence⟩
  -- one operation at a time
  let waiting ← active site
  match waiting with
  | some other => Proc.raise (journalError
      ("operation " ++ other.operationId ++ " (" ++ other.payload.kind ++ ") requires recovery"))
  | none => do
    Proc.lift (refuseIf (site.limits.operation operation = false)
      (journalError "journal operation exceeds bounded canonical contract"))
    let disk ← Control.disk
    Control.save { disk with journal := some operation }
    pure operation

def complete (operationId : String) : Control Unit := do
  let waiting ← active site
  match waiting with
  | none => Proc.raise (journalError "no active journal operation to complete")
  | some operation => do
    Proc.lift (refuseIf (operation.operationId ≠ operationId)
      (journalError "journal completion id does not match"))
    let disk ← Control.disk
    Control.save { disk with journal := none }

end OperationJournal
end DefiantHarness
