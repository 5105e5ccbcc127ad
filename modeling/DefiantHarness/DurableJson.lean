import DefiantHarness.Reread

/-! JSON state files: a bounded snapshot is published by an atomic write and read back strictly. -/
namespace DefiantHarness

open Foundation

def maxDurableJsonBytes : Nat := 64 * 1024 * 1024
def maxOperationJournalBytes : Nat := 4 * 1024 * 1024
def maxApprovalStateBytes : Nat := maxDurableJsonBytes
def maxHookExecutionStateBytes : Nat := maxDurableJsonBytes
def maxBudgetStateBytes : Nat := maxDurableJsonBytes

def persistenceError (message : String) : HarnessError := ⟨.storage, message⟩

/-- The text that replaces a state file: two blanks a level, sorted names, at most `maximum` bytes. -/
def atomicWriteJson (name : String) (maximum : Nat) (data : Value) : Except HarnessError (List Char) := do
  let document ← (data.dumps .refuse).mapError fun fault =>
    persistenceError ("cannot atomically write state to " ++ name ++ ": " ++ fault.message)
  let text := document.render (Layout.indented 2) 0
  refuseIf (maximum < utf8Length text)
    (persistenceError ("cannot atomically write state to " ++ name ++ ": JSON state exceeds " ++
      toString maximum ++ " bytes"))
  pure text

/-- Read a state file; its text is the decoded UTF-8. -/
def readJson (name : String) (maximum : Nat) (text : List Char) : Except HarnessError Value := do
  refuseIf (maximum < utf8Length text)
    (persistenceError ("state file exceeds " ++ toString maximum ++ " bytes: " ++ name))
  let data ← (loadsStrictJson "state JSON" text).mapError fun message =>
    persistenceError ("cannot read valid JSON state from " ++ name ++ ": " ++ message)
  match data with
  | .obj fields => pure (.ofData (.obj fields))
  | _ => throw (persistenceError ("state file must contain a JSON object: " ++ name))

/-- What a file that was written is read back as. -/
theorem readJson_render {name : String} {maximum : Nat} {l : Layout} {fields : List Field}
    {read : Value} :
    readJson name maximum ((Data.obj fields).render l 0) = .ok read ↔
      utf8Length ((Data.obj fields).render l 0) ≤ maximum ∧ Lexical (.obj fields) ∧
        (Data.obj fields).joined.Distinct ∧ read = .ofData (Data.obj fields).joined := by
  simp only [readJson, bind_ok_iff, refuseIf_ok_iff, not_lt, mapError_ok_iff,
    loadsStrictJson_render]
  constructor
  · rintro ⟨-, fits, _, ⟨lexical, distinct, rfl⟩, decoded⟩
    exact ⟨fits, lexical, distinct, pure_ok_iff.1 decoded⟩
  · rintro ⟨fits, lexical, distinct, rfl⟩
    exact ⟨(), fits, _, ⟨lexical, distinct, rfl⟩, rfl⟩

end DefiantHarness
