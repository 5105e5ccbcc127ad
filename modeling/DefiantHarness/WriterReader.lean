import DefiantHarness.StoreReading

/-! What the owners of the recoverable state write, their own read paths accept. -/
namespace DefiantHarness

open Foundation

namespace JournalFile

variable (sha : TextHash) (chunking : Chunking) (literals : Durable.Literals)

/-- Lists in the place of tuples, text keys, no code point spelled as two surrogates, and at most
62 nested containers: room for the operation and the document around it. -/
def Recoverable (payload : List Entry) : Prop :=
  ∃ y, (Value.dict payload).snapshot.listed = .ofData y ∧
    (∀ s ∈ y.strings, s.unpaired = true) ∧ y.depth ≤ 62

/-- The journal's file, and the operation that its last accepted write left in it. -/
structure Written where
  file : Option (List Char)
  operation : Option JournalOperation

/-- The files that accepted calls leave when every prepared payload is recoverable; each call has its own
time and identifiers. -/
inductive Reachable : Written → Prop where
  | missing : Reachable ⟨none, none⟩
  | prepare {s : Written} {supply : Durable.Supply literals} {fresh now : String} {kind : Points}
      {payload : List Entry} {operation : JournalOperation} {text : List Char} (before : Reachable s)
      (timed : now ≠ "") (recoverable : Recoverable payload)
      (accepted : prepare sha chunking literals supply s.file fresh now kind payload =
        .ok (operation, text)) : Reachable ⟨some text, some operation⟩
  | complete {s : Written} {supply : Durable.Supply literals} {operationId : Points} {text : List Char}
      (before : Reachable s)
      (accepted : complete sha chunking literals supply s.file operationId = .ok text) :
      Reachable ⟨some text, none⟩

variable {sha chunking literals} {supply supply' : Durable.Supply literals}

/-- The payload of a prepared operation is the snapshot of the one it was prepared with. -/
theorem prepare_payload {file : Option (List Char)} {fresh now : String} {kind : Points}
    {payload : List Entry} {operation : JournalOperation} {text : List Char}
    (prepared : prepare sha chunking literals supply file fresh now kind payload = .ok (operation, text)) :
    operation.payload = (Value.dict payload).snapshot.listed := by
  obtain ⟨copy, k, -, -, -, -, shape, -, adopted, -⟩ := prepare_ok prepared
  rw [adopted, shape]
  rfl

theorem active_prepare {file : Option (List Char)} {fresh now : String} {kind : Points}
    {payload : List Entry} {operation : JournalOperation} {text : List Char} (timed : now ≠ "")
    (prepared : prepare sha chunking literals supply file fresh now kind payload = .ok (operation, text)) :
    (∃ read, active sha chunking literals supply' (some text) = .ok (some read) ∧ operation.Same read) ↔
      Recoverable payload := by
  rw [active_prepare_iff timed prepared, prepare_payload prepared, Recoverable]

/-- Every check that reading makes of a document without an operation. -/
private def clearedChecks : Value → Bool
  | .dict entries =>
    namesExactly stateFields entries &&
      exactText "schema_name" entries == some (Points.ofString journalSchema) &&
      exactText "schema_version" entries == some (Points.ofString journalVersion) &&
      match Durable.lookup "active" entries with
      | some .null => true
      | _ => false
  | _ => false

private theorem clearedChecks_read :
    ((write none).toOption.bind fun text =>
      (readJson fileName maxOperationJournalBytes text).toOption.map clearedChecks) = some true := by
  decide +kernel

/-- A cleared journal is read as one without an operation. -/
theorem active_cleared {file : Option (List Char)} {operationId : Points} {text : List Char}
    (cleared : complete sha chunking literals supply file operationId = .ok text) :
    active sha chunking literals supply' (some text) = .ok none := by
  simp only [complete, bind_ok_iff] at cleared
  obtain ⟨-, -, -, -, -, -, written⟩ := cleared
  have checks : (readJson fileName maxOperationJournalBytes text).toOption.map clearedChecks =
      some true := by
    have closed := clearedChecks_read
    rw [written] at closed
    exact closed
  cases raw : readJson fileName maxOperationJournalBytes text with
  | error e =>
    rw [raw] at checks
    cases checks
  | ok value =>
    rw [raw] at checks
    have passed : clearedChecks value = true := by simpa [Except.toOption] using checks
    cases value with
    | dict entries =>
      simp only [clearedChecks, Bool.and_eq_true, beq_iff_eq] at passed
      obtain ⟨⟨⟨names, schemaName⟩, schemaVersion⟩, empty⟩ := passed
      have supported : supportedJournalVersions.all (fun version =>
          some (Points.ofString version) != some (Points.ofString journalVersion)) = false := by
        decide
      simp only [active, raw, ok_bind, names, schemaName, schemaVersion, supported]
      split at empty
      next found =>
        rw [found]
        rfl
      · cases empty
    | _ => cases passed

/-- In every run whose prepared payloads are recoverable, the journal reads as it was written. -/
theorem active_reachable {s : Written} (reachable : Reachable sha chunking literals s) :
    ∃ read, active sha chunking literals supply s.file = .ok read ∧
      Option.Rel JournalOperation.Same s.operation read := by
  induction reachable with
  | missing => exact ⟨none, rfl, .none⟩
  | prepare before timed recoverable accepted ih =>
    obtain ⟨read, found, same⟩ := (active_prepare timed accepted).2 recoverable
    exact ⟨some read, found, .some same⟩
  | complete before accepted ih => exact ⟨none, active_cleared accepted, .none⟩

end JournalFile

/-- What is written is read back exactly when the reader's own limits and names admit it: payloads
of the journal, its runs, and the documents of the approval store, the execution store and the ledger. -/
theorem writer_reader_symmetry (sha : TextHash) (chunking : Chunking) (literals : Durable.Literals) :
    (∀ (supply supply' : Durable.Supply literals) (file : Option (List Char)) (fresh now : String)
      (kind : Points) (payload : List Entry) (operation : JournalFile.JournalOperation)
      (text : List Char), now ≠ "" →
      JournalFile.prepare sha chunking literals supply file fresh now kind payload =
          .ok (operation, text) →
        ((∃ read, JournalFile.active sha chunking literals supply' (some text) = .ok (some read) ∧
          operation.Same read) ↔ JournalFile.Recoverable payload)) ∧
      (∀ (supply : Durable.Supply literals) (s : JournalFile.Written),
        JournalFile.Reachable sha chunking literals s →
          ∃ read, JournalFile.active sha chunking literals supply s.file = .ok read ∧
            Option.Rel JournalFile.JournalOperation.Same s.operation read) ∧
      (∀ (data : List (Points × (Durable.ApprovalStore.records sha chunking literals).Sealed))
        (text : List Char) (supply : Durable.Supply literals),
        Durable.ApprovalStore.writeAll sha chunking literals data = .ok text →
          ((Durable.ApprovalStore.records sha chunking literals).ReadsBack sha chunking supply text
              data ↔
            Readable ((Durable.ApprovalStore.records sha chunking literals).published data))) ∧
      (∀ (executions : List (Durable.HookExecutionStore.records sha chunking literals).Sealed)
        (text : List Char) (supply : Durable.Supply literals),
        Durable.HookExecutionStore.writeAll sha chunking literals executions = .ok text →
          ((Durable.HookExecutionStore.records sha chunking literals).ReadsBack sha chunking supply text
              (Durable.HookExecutionStore.keyed sha chunking literals executions) ↔
            Readable ((Durable.HookExecutionStore.records sha chunking literals).published
              (Durable.HookExecutionStore.keyed sha chunking literals executions)))) ∧
      ∀ (data : Value) (document : List Entry) (text : List Char),
        Durable.BudgetLedger.accept sha chunking literals data = .ok document →
        Durable.BudgetLedger.write sha chunking literals data = .ok text →
          ((∃ read, Durable.BudgetLedger.validatedRead sha chunking literals text = .ok read ∧
              (Value.dict document).Same (.dict read)) ↔
            Readable (.dict document) ∧ Hashable maxBudgetStateBytes (.dict document)) := by
  refine ⟨?_, ?_, ?_, ?_, ?_⟩
  · intro supply supply' file fresh now kind payload operation text timed prepared
    exact JournalFile.active_prepare timed prepared
  · intro supply s reachable
    exact JournalFile.active_reachable reachable
  · intro data text supply written
    exact Durable.ApprovalStore.readsBack_writeAll_iff written supply
  · intro executions text supply written
    exact Durable.HookExecutionStore.readsBack_writeAll_iff written supply
  · intro data document text accepted written
    exact Durable.BudgetLedger.validatedRead_write_iff accepted written

namespace JournalFile

/-- A short digest that tells the texts of the runs below apart. -/
def shortDigest (text : List Char) : String :=
  String.ofList (Nat.toDigits 16 (text.foldl (fun h c => (131 * h + c.toNat) % 2 ^ 32) 7))

/-- The time of the runs below. -/
def noon : Points := Points.ofString "2026-01-01T12:00:00+00:00"

/-- Decimals without exponents, and one time with a zone. -/
def plainLiterals : Durable.Literals where
  decimal s := match PlainDecimal.read s.toString with
    | some d => .finite d
    | none => .invalid
  positional p := by
    rw [toString_ofString, PlainDecimal.read_text]
  zoned s := if s = noon then some true else none
  timestamps := {
    Instant := Unit
    read s := if s = noon then some () else none
    write _ := noon
    read_write _ := if_pos rfl
    plain_write _ := by decide }

def noonSupply : Durable.Supply plainLiterals where
  fresh := Points.ofString "evd_1"
  now := noon
  named := by decide
  timed := ⟨by decide, (), rfl⟩

/-- The payload of an expiry, with these inputs of the decision in its evidence. -/
def expiryPayload (inputs : List Entry) : List Entry := Durable.record [
  ("approval_id", .str (Points.ofString "apr_1")),
  ("action_id", .str (Points.ofString "act_1")),
  ("request_id", .str (Points.ofString "req_1")),
  ("reserved_usd", .str (Points.ofString "0")),
  ("evidence", .dict (Durable.record [
    ("request_id", .str (Points.ofString "req_1")),
    ("action_id", .str (Points.ofString "act_1")),
    ("decision", .str (Points.ofString "approval_required")),
    ("result_status", .str (Points.ofString "expired")),
    ("decision_inputs", .dict inputs)]))]

def prepareExpiry (inputs : List Entry) : Except HarnessError (JournalOperation × List Char) :=
  prepare shortDigest Chunking.single plainLiterals noonSupply none "1" "2026-01-01T00:00:00Z"
    (Points.ofString "approval_expire") (expiryPayload inputs)

/-- The file that a prepared expiry leaves is read as `result` says. -/
private theorem prepareExpiry_read {inputs : List Entry} {result : Except HarnessError Unit → Bool}
    (checked : (prepareExpiry inputs).toOption.map (fun prepared => result
      ((active shortDigest Chunking.single plainLiterals noonSupply (some prepared.2)).map
        fun _ => ())) = some true) :
    ∃ operation text, prepareExpiry inputs = .ok (operation, text) ∧
      result ((active shortDigest Chunking.single plainLiterals noonSupply (some text)).map
        fun _ => ()) = true := by
  cases prepared : prepareExpiry inputs with
  | error e =>
    rw [prepared] at checked
    cases checked
  | ok pair =>
    rw [prepared] at checked
    exact ⟨pair.1, pair.2, rfl, by simpa [Except.toOption] using checked⟩

/-- Numbers as the names of decision inputs: the numbers 9 and 10 change places when they become
texts, so the hash of the payload is another one. -/
def numberedInputs : List Entry :=
  [(.int 10, .str (Points.ofString "a")), (.int 9, .str (Points.ofString "b"))]

/-- An approval that waits for its decision. -/
def waitingSnapshot : List Entry := Durable.record [
  ("action_id", .str (Points.ofString "act_1")), ("request_id", .str (Points.ofString "req_1")),
  ("tool_name", .str (Points.ofString "mail")), ("target", .str (Points.ofString "inbox")),
  ("payload_hash", .str (Points.ofString "a1")), ("authorization_hash", .str (Points.ofString "b2")),
  ("payload_preview", .str (Points.ofString "{}")), ("approval_scope", .str (Points.ofString "once")),
  ("reason", .str (Points.ofString "external")), ("policy_ids", .list [.str (Points.ofString "p1")]),
  ("created_at", .str noon), ("approval_id", .str (Points.ofString "apr_1")),
  ("reserved_usd", .str (Points.ofString "1.50"))]

/-- The members of its durable form, defaults included. -/
def waitingFields : List Field := ([
  ("action_id", .str (Points.ofString "act_1")), ("request_id", .str (Points.ofString "req_1")),
  ("tool_name", .str (Points.ofString "mail")), ("target", .str (Points.ofString "inbox")),
  ("payload_hash", .str (Points.ofString "a1")), ("authorization_hash", .str (Points.ofString "b2")),
  ("payload_preview", .str (Points.ofString "{}")), ("approval_scope", .str (Points.ofString "once")),
  ("reason", .str (Points.ofString "external")), ("policy_ids", .arr [.str (Points.ofString "p1")]),
  ("expires_at", .str []), ("created_at", .str noon), ("approval_id", .str (Points.ofString "apr_1")),
  ("status", .str (Points.ofString "pending")), ("decided_by", .null), ("decided_at", .null),
  ("note", .str []), ("decision_attestation", .null), ("reserved_usd", .str (Points.ofString "1.5")),
  ("action_snapshot", .null), ("request_snapshot", .null), ("decision_snapshot", .null),
  ("execution_record_id", .str []), ("consumed_at", .null), ("execution_owner", .str []),
  ("execution_key", .str []), ("reconciliation_outcome", .str []), ("reconciled_by", .str []),
  ("reconciliation_note", .str []), ("reconciliation_started_at", .null),
  ("reconciliation_completed_at", .null), ("reconciliation_attestation", .null)] :
    List (String × Data)).map fun f => (Points.ofString f.1, f.2)

def waitingApproval : Durable.PendingApproval where
  approvalId := Points.ofString "apr_1"
  actionId := Points.ofString "act_1"
  requestId := Points.ofString "req_1"
  status := Points.ofString "pending"
  reservedUsd := Decimal.plain ⟨false, 150, -2⟩
  document := Value.ofFields waitingFields

/-- The approval, sealed when it was made. -/
def waiting : (Durable.ApprovalStore.records shortDigest Chunking.single plainLiterals).Sealed :=
  ⟨waitingApproval, noonSupply, waitingSnapshot, rfl⟩

/-- A ledger before its first entry. -/
def openingFields : List Field := ([("schema_version", .str (Points.ofString "0.2.0")),
  ("balance_usd", .str (Points.ofString "10")), ("total_spent_usd", .str (Points.ofString "0")),
  ("total_estimated_usd", .str (Points.ofString "0")), ("reservations", .obj []),
  ("reconciliations", .obj []), ("entries", .arr [])] : List (String × Data)).map
    fun f => (Points.ofString f.1, f.2)

end JournalFile

open JournalFile in
theorem writer_reader_symmetry_expiry :
    (∃ operation text read, prepareExpiry [] = .ok (operation, text) ∧
      active shortDigest Chunking.single plainLiterals noonSupply (some text) = .ok (some read) ∧
        operation.Same read) ∧
      (∃ text, Durable.ApprovalStore.writeAll shortDigest Chunking.single plainLiterals
          [(Points.ofString "apr_1", waiting)] = .ok text ∧
        (Durable.ApprovalStore.records shortDigest Chunking.single plainLiterals).ReadsBack shortDigest
          Chunking.single noonSupply text [(Points.ofString "apr_1", waiting)]) ∧
      ∃ text read, Durable.BudgetLedger.write shortDigest Chunking.single plainLiterals
          (.dict (Value.ofFields openingFields)) = .ok text ∧
        Durable.BudgetLedger.validatedRead shortDigest Chunking.single plainLiterals text = .ok read ∧
          (Value.dict (Value.ofFields openingFields)).Same (.dict read) := by
  obtain ⟨journal, -, approvals, -, ledger⟩ :=
    writer_reader_symmetry shortDigest Chunking.single plainLiterals
  refine ⟨?_, ?_, ?_⟩
  · obtain ⟨operation, text, prepared, -⟩ := @prepareExpiry_read [] (fun _ => true) (by decide +kernel)
    have recoverable : Recoverable (expiryPayload []) :=
      ⟨.obj [(Points.ofString "approval_id", .str (Points.ofString "apr_1")),
        (Points.ofString "action_id", .str (Points.ofString "act_1")),
        (Points.ofString "request_id", .str (Points.ofString "req_1")),
        (Points.ofString "reserved_usd", .str (Points.ofString "0")),
        (Points.ofString "evidence", .obj [
          (Points.ofString "request_id", .str (Points.ofString "req_1")),
          (Points.ofString "action_id", .str (Points.ofString "act_1")),
          (Points.ofString "decision", .str (Points.ofString "approval_required")),
          (Points.ofString "result_status", .str (Points.ofString "expired")),
          (Points.ofString "decision_inputs", .obj [])])], rfl, by decide +kernel, by decide +kernel⟩
    obtain ⟨read, found, same⟩ := (journal noonSupply noonSupply none "1" "2026-01-01T00:00:00Z"
      (Points.ofString "approval_expire") (expiryPayload []) operation text (by decide) prepared).2
        recoverable
    exact ⟨operation, text, read, prepared, found, same⟩
  · have written : (Durable.ApprovalStore.writeAll shortDigest Chunking.single plainLiterals
        [(Points.ofString "apr_1", waiting)]).toOption.isSome = true := by decide +kernel
    cases published : Durable.ApprovalStore.writeAll shortDigest Chunking.single plainLiterals
        [(Points.ofString "apr_1", waiting)] with
    | error e =>
      rw [published] at written
      cases written
    | ok text =>
      have lexical : Lexical (((Durable.ApprovalStore.records shortDigest Chunking.single
          plainLiterals).published [(Points.ofString "apr_1", waiting)]).written canonicalText) :=
        ⟨by decide +kernel, by decide +kernel, by decide +kernel, by decide +kernel⟩
      exact ⟨text, rfl, (approvals _ text noonSupply published).2
        ⟨lexical, .obj [(Points.ofString "apr_1", .obj waitingFields)], rfl, by decide +kernel⟩⟩
  · have passed : (Durable.BudgetLedger.accept shortDigest Chunking.single plainLiterals
        (.dict (Value.ofFields openingFields))).toOption.isSome = true := by decide +kernel
    have written : (Durable.BudgetLedger.write shortDigest Chunking.single plainLiterals
        (.dict (Value.ofFields openingFields))).toOption.isSome = true := by decide +kernel
    cases accepted : Durable.BudgetLedger.accept shortDigest Chunking.single plainLiterals
        (.dict (Value.ofFields openingFields)) with
    | error e =>
      rw [accepted] at passed
      cases passed
    | ok document =>
      cases published : Durable.BudgetLedger.write shortDigest Chunking.single plainLiterals
          (.dict (Value.ofFields openingFields)) with
      | error e =>
        rw [published] at written
        cases written
      | ok text =>
        obtain ⟨snapshot, taken, valid⟩ := bind_ok_iff.1 accepted
        obtain ⟨hashable, shape⟩ := StateStore.storeSnapshot_ok_iff.1 taken
        obtain rfl := Value.dict.inj ((Value.snapshot_ofData (.obj openingFields)).symm.trans shape)
        obtain ⟨complete, -⟩ := Durable.BudgetLedger.validate_ok_iff.1 valid
        have self : document = Value.ofFields openingFields := complete
        subst self
        have lexical : Lexical ((Value.dict (Value.ofFields openingFields)).written canonicalText) :=
          ⟨by decide +kernel, by decide +kernel, by decide +kernel, by decide +kernel⟩
        obtain ⟨read, found, same⟩ := (ledger _ _ text accepted published).2
          ⟨⟨lexical, .obj openingFields, rfl, by decide +kernel⟩, hashable⟩
        exact ⟨text, read, rfl, found, same⟩

/-- An accepted expiry whose journal the recovery refuses from then on. -/
theorem numbered_inputs_defeat_recovery : ∃ operation text,
    JournalFile.prepareExpiry JournalFile.numberedInputs = .ok (operation, text) ∧
      ∃ e, JournalFile.active JournalFile.shortDigest Chunking.single JournalFile.plainLiterals
        JournalFile.noonSupply (some text) = .error e := by
  obtain ⟨operation, text, prepared, refused⟩ :=
    @JournalFile.prepareExpiry_read JournalFile.numberedInputs
      (fun read => match read with | .ok _ => false | .error _ => true) (by decide +kernel)
  refine ⟨operation, text, prepared, ?_⟩
  cases found : JournalFile.active JournalFile.shortDigest Chunking.single JournalFile.plainLiterals
      JournalFile.noonSupply (some text) with
  | ok read =>
    rw [found] at refused
    cases refused
  | error e => exact ⟨e, rfl⟩

end DefiantHarness
