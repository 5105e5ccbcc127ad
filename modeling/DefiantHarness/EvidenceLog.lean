import DefiantHarness.Contracts

/-! The append-only evidence log and its durable head checkpoint. -/
namespace DefiantHarness

open Foundation

def evidenceError (message : String) : HarnessError := ⟨.evidence, message⟩

/-- The hash before the first record. -/
def genesis : String := "sha256:" ++ String.ofList (List.replicate 64 '0')

structure EvidenceHead where
  recordCount : Nat
  headHash : String
  checkpointedAt : Timestamp
deriving DecidableEq

namespace EvidenceLog

def headHash (records : List EvidenceRecord) : String :=
  match records.getLast? with
  | some record => record.recordHash
  | none => genesis

/-- Each record extends the previous hash and carries the hash of its own body. -/
def verifyFrom (digests : Digests) : String → List EvidenceRecord → Except HarnessError Unit
  | _, [] => pure ()
  | previous, record :: records => do
    refuseIf (record.previousRecordHash ≠ previous)
      (evidenceError "a preceding record was altered or removed")
    refuseIf (digests.record record.body ≠ record.recordHash)
      (evidenceError "this record was altered in place")
    verifyFrom digests record.recordHash records

def verify (digests : Digests) (records : List EvidenceRecord) : Except HarnessError Unit :=
  verifyFrom digests genesis records

inductive HeadVerification where
  | verified | forwardRecovery | rollback | diverged
deriving DecidableEq, Repr

def assessHead (head : EvidenceHead) (records : List EvidenceRecord) : HeadVerification :=
  if records.length = head.recordCount then
    if headHash records = head.headHash then .verified else .diverged
  else if records.length < head.recordCount then .rollback
  else if headHash (records.take head.recordCount) = head.headHash then .forwardRecovery
  else .diverged

def currentHead (records : List EvidenceRecord) (now : Timestamp) : EvidenceHead :=
  ⟨records.length, headHash records, now⟩

/-- The checkpoint to write before an append, if the stored one is behind or missing. -/
def reconcileHead (head : Option EvidenceHead) (records : List EvidenceRecord) (now : Timestamp) :
    Except HarnessError (Option EvidenceHead) :=
  match head with
  | none => pure (some (currentHead records now))
  | some head =>
    match assessHead head records with
    | .verified => pure none
    -- the log grew and the process stopped before the checkpoint did
    | .forwardRecovery => pure (some (currentHead records now))
    | .rollback => throw (evidenceError "evidence chain is behind its durable checkpoint")
    | .diverged => throw (evidenceError "evidence chain diverges from its durable checkpoint")

/-- The checkpoint after appending one record at the checkpointed position. -/
def advanceHead (head : Option EvidenceHead) (before after : List EvidenceRecord)
    (now : Timestamp) : Except HarnessError (Option EvidenceHead) := do
  let state ← orRefuse head (evidenceError "evidence head is not initialized")
  if state.recordCount = after.length ∧ state.headHash = headHash after then pure none
  else do
    refuseIf (state.recordCount ≠ before.length ∨ state.headHash ≠ headHash before)
      (evidenceError "evidence head changed before checkpoint advance")
    pure (some (currentHead after now))

def byAction (records : List EvidenceRecord) (actionId : String) : List EvidenceRecord :=
  records.filter (·.actionId == actionId)

def firstByAction (records : List EvidenceRecord) (actionId : String) : Option EvidenceRecord :=
  records.find? (·.actionId == actionId)

def get (records : List EvidenceRecord) (recordId : String) : Option EvidenceRecord :=
  records.find? (·.recordId == recordId)

/-- A terminal record of the authorization hash exists. -/
def isTerminated (records : List EvidenceRecord) (authorizationHash : String) : Bool :=
  records.any fun record =>
    record.authorizationHash == authorizationHash && record.resultStatus.terminal

/-- Sealed authorizations with no matching terminal evidence. -/
def openAuthorizations (records : List EvidenceRecord) : List EvidenceRecord :=
  records.filter fun record =>
    record.resultStatus == .skipped && !isTerminated records record.authorizationHash

/-- The latest terminal record of an action's authorization. -/
def latestTerminal (records : List EvidenceRecord) (actionId authorizationHash : String) :
    Option EvidenceRecord :=
  (byAction records actionId).reverse.find? fun record =>
    record.authorizationHash == authorizationHash && record.resultStatus.terminal

theorem verifyFrom_append {digests : Digests} {previous : String} {records : List EvidenceRecord}
    (chained : verifyFrom digests previous records = .ok ()) (record : EvidenceRecord) :
    verifyFrom digests previous
      (records ++ [record.sealed digests ((records.getLast?.map (·.recordHash)).getD previous)]) =
      .ok () := by
  induction records generalizing previous with
  | nil => simp [verifyFrom, refuseIf, EvidenceRecord.sealed, EvidenceRecord.body]
  | cons first rest ih =>
    simp only [verifyFrom, refuseIf_bind_ok_iff] at chained
    obtain ⟨links, own, tail⟩ := chained
    have step := ih tail
    have last : ((first :: rest).getLast?.map (·.recordHash)).getD previous =
        (rest.getLast?.map (·.recordHash)).getD first.recordHash := by
      cases rest with
      | nil => rfl
      | cons second rest =>
        rw [List.getLast?_cons_cons]
        cases found : (second :: rest).getLast? with
        | none => simp at found
        | some record => rfl
    rw [last, List.cons_append]
    simp only [verifyFrom, refuseIf_bind_ok_iff]
    exact ⟨links, own, step⟩

/-- Appending a record sealed on the head keeps the chain verified. -/
theorem verify_append {digests : Digests} {records : List EvidenceRecord}
    (chained : verify digests records = .ok ()) (record : EvidenceRecord) :
    verify digests (records ++ [record.sealed digests (headHash records)]) = .ok () := by
  have head : headHash records = (records.getLast?.map (·.recordHash)).getD genesis := by
    unfold headHash
    split <;> simp [*]
  rw [head]
  exact verifyFrom_append chained record

end EvidenceLog
end DefiantHarness
