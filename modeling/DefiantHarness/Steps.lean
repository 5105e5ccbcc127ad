import DefiantHarness.ApprovalTransitions
import DefiantHarness.Harness
import DefiantHarness.LedgerReplay

/-! The transition system of the durable state: every write that an entry point makes, with what
holds when it is made. -/
namespace DefiantHarness

open Foundation

/-- Evidence mentions the action. -/
def Known (records : List EvidenceRecord) (actionId : String) : Prop :=
  ∃ record ∈ records, record.actionId = actionId

/-- A store operation that succeeds and writes. -/
def Writes {σ α : Type} (result : Except HarnessError (Update σ α)) (after : σ) : Prop :=
  ∃ update, result = .ok update ∧ update.written = some after

/-- The approval, action, request and reservation of an operation that ends an approval. -/
def Closes (payload : OperationPayload) (approvalId actionId requestId : String)
    (reservedUsd : PlainDecimal) (status : ApprovalStatus) : Prop :=
  (∃ decidedBy note attestation, status = .rejected ∧ payload =
    .approvalReject approvalId actionId requestId reservedUsd decidedBy note attestation) ∨
  (status = .expired ∧ payload = .approvalExpire approvalId actionId requestId reservedUsd)

/-- An approval and its reservation are closed. -/
def Closed (disk : Disk) (approvalId actionId : String) (reservedUsd : PlainDecimal)
    (status : ApprovalStatus) : Prop :=
  (∃ approval, disk.approvals.lookup approvalId = some approval ∧ approval.status = status ∧
    approval.actionId = actionId ∧
    approval.terms.reservedUsd.decimal.eqv reservedUsd.decimal = true) ∧
  (Decimal.zero.lt reservedUsd.decimal = true → actionId ∉ disk.ledger.document.reservations)

/-- The store mutations of an operation that come before its evidence are done. -/
def Replayed (disk : Disk) : OperationPayload → Prop
  | .approvalCreate approval reservedUsd =>
    disk.approvals.lookup approval.approvalId = some approval ∧
      (Decimal.zero.lt reservedUsd.decimal = true →
        approval.actionId ∈ disk.ledger.document.reservations)
  | .approvalReject approvalId actionId _ reservedUsd _ _ _ =>
    Closed disk approvalId actionId reservedUsd .rejected
  | .approvalExpire approvalId actionId _ reservedUsd =>
    Closed disk approvalId actionId reservedUsd .expired
  -- the reservation is gone, and the marker keeps who answered
  | .authorizationReconcile authority _ _ _ _ _ =>
    Known disk.records authority.actionId ∧
      authority.actionId ∈ disk.ledger.document.reconciliations
  | .executionComplete authority _ _ _ _ =>
    Known disk.records authority.actionId ∧
      authority.actionId ∉ disk.ledger.document.reservations

/-- The ledger operation of an operation. An amount of zero is neither reserved nor given back, and a
completion without a budget settles nothing. -/
def OperationPayload.ledgerCall (recordId : String) : OperationPayload → Option LedgerCall
  | .approvalCreate approval reservedUsd =>
    if Decimal.zero.lt reservedUsd.decimal then
      some (.ensureReservation reservedUsd.decimal approval.terms.requestId approval.actionId)
    else none
  | .approvalReject _ actionId requestId reservedUsd _ _ _
  | .approvalExpire _ actionId requestId reservedUsd =>
    if Decimal.zero.lt reservedUsd.decimal then
      some (.ensureRelease reservedUsd.decimal requestId actionId)
    else none
  | .authorizationReconcile authority expectedUsd outcome reconciledBy note attestation =>
    some (.reconcileReservation expectedUsd authority.requestId authority.actionId outcome reconciledBy
      note (some ⟨authority.authorityRecordId, authority.authorityRecordHash, attestation⟩))
  | .executionComplete authority _ reservedUsd actualUsd disposition =>
    match disposition with
    | .settle => some (.ensureSettlement reservedUsd actualUsd authority.requestId authority.actionId
        recordId)
    | .none => none

/-- An operation is carried out: its store mutations are done, the ledger holds the effect of its
ledger operation, and the approval of a completion is consumed by its evidence. -/
structure CarriedOut (disk : Disk) (operation : JournalOperation) : Prop where
  replayed : Replayed disk operation.payload
  posted : ∀ call ∈ operation.payload.ledgerCall operation.evidence.recordId,
    call.Recognized disk.ledger.document
  consumed : ∀ authority approvalId reservedUsd actualUsd disposition, operation.payload =
    .executionComplete authority approvalId reservedUsd actualUsd disposition → approvalId ≠ "" →
      ∃ approval, disk.approvals.lookup approvalId = some approval ∧
        approval.actionId = authority.actionId ∧ approval.status = .consumed ∧
        approval.executionRecordId = operation.evidence.recordId

/-- Why a record is appended. -/
inductive Appends (before : Disk) (record : EvidenceRecord) : Prop where
  | refused (idle : before.journal = none) (blocked : record.resultStatus = .blocked)
  | authorized (idle : before.journal = none)
      (unknown : ¬ Known before.records record.actionId)
      (skipped : record.resultStatus = .skipped) (allowed : record.decision = .allow)
  | resumed (idle : before.journal = none) (approvalId : String) (approval : PendingApproval)
      (found : before.approvals.lookup approvalId = some approval)
      (executing : approval.status = .executing)
      (action : record.actionId = approval.actionId)
      (hash : record.authorizationHash = approval.terms.authorizationHash)
      (status : record.resultStatus = .blocked ∨
        record.resultStatus = .skipped ∧ record.decision ≠ .block)
  | reconciled (idle : before.journal = none) (approvalId : String) (approval : PendingApproval)
      (intent : ReconciliationIntent)
      (found : before.approvals.lookup approvalId = some approval)
      (intended : approval.reconciliation = some intent)
      (held : ∃ action ∈ approval.terms.actionSnapshot, record.actionId = action.actionId)
      (status : record.resultStatus = intent.outcome.status)
  | journaled (operation : JournalOperation) (active : before.journal = some operation)
      (same : record = operation.evidence) (replayed : Replayed before operation.payload)

/-- Why the ledger changes. -/
inductive LedgerMoves (site : Deployment) (before : Disk) : Ledger → Prop where
  | reserve {after : Ledger} (idle : before.journal = none) (amount : Decimal)
      (requestId actionId : String) (clock : Clock) (unknown : ¬ Known before.records actionId)
      (moved : Writes (before.ledger.reserve site.limits.budget amount requestId actionId clock)
        after) : LedgerMoves site before after
  | release {after : Ledger} (idle : before.journal = none) (approvalId : String)
      (approval : PendingApproval) (clock : Clock)
      (found : before.approvals.lookup approvalId = some approval)
      (executing : approval.status = .executing)
      (moved : Writes (before.ledger.release site.limits.budget approval.terms.requestId
        approval.actionId clock) after) : LedgerMoves site before after
  | reconcile {after : Ledger} (idle : before.journal = none) (approvalId : String)
      (approval : PendingApproval) (intent : ReconciliationIntent) (clock : Clock)
      (found : before.approvals.lookup approvalId = some approval)
      (intended : approval.reconciliation = some intent)
      (moved : Writes (before.ledger.reconcileReservation site.limits.budget
        approval.terms.reservedUsd.decimal approval.terms.requestId approval.actionId
        intent.outcome intent.reconciledBy intent.note none clock) after) :
      LedgerMoves site before after
  | journaledReservation {after : Ledger} (operation : JournalOperation) (clock : Clock)
      (active : before.journal = some operation) (approval : PendingApproval)
      (reservedUsd : PlainDecimal) (kind : operation.payload = .approvalCreate approval reservedUsd)
      (funded : Decimal.zero.lt reservedUsd.decimal = true)
      (moved : Writes (before.ledger.ensureReservation site.limits.budget reservedUsd.decimal
        approval.terms.requestId approval.actionId clock) after) : LedgerMoves site before after
  | journaledRelease {after : Ledger} (operation : JournalOperation) (clock : Clock)
      (active : before.journal = some operation) (approvalId actionId requestId : String)
      (reservedUsd : PlainDecimal) (status : ApprovalStatus)
      (kind : Closes operation.payload approvalId actionId requestId reservedUsd status)
      (closed : ∃ approval, before.approvals.lookup approvalId = some approval ∧
        approval.status = status ∧ approval.actionId = actionId)
      (moved : Writes (before.ledger.ensureRelease site.limits.budget reservedUsd.decimal requestId
        actionId clock) after) : LedgerMoves site before after
  | journaledReconcile {after : Ledger} (operation : JournalOperation) (clock : Clock)
      (active : before.journal = some operation) (subject : AuthorizationReconciliationSubject)
      (expectedUsd : Decimal) (outcome : Outcome) (reconciledBy note : String)
      (attestation : Option AuthorizationAttestation)
      (kind : operation.payload = .authorizationReconcile subject expectedUsd outcome reconciledBy
        note attestation)
      (known : Known before.records subject.actionId)
      (unowned : ∀ id approval, before.approvals.lookup id = some approval →
        approval.actionId ≠ subject.actionId)
      (moved : Writes (before.ledger.reconcileReservation site.limits.budget expectedUsd
        subject.requestId subject.actionId outcome reconciledBy note
        (some ⟨subject.authorityRecordId, subject.authorityRecordHash, attestation⟩) clock) after) :
      LedgerMoves site before after
  | journaledSettlement {after : Ledger} (operation : JournalOperation) (clock : Clock)
      (active : before.journal = some operation) (subject : ExecutionCompletionSubject)
      (approvalId : String) (reservedUsd actualUsd : Decimal)
      (kind : operation.payload = .executionComplete subject approvalId reservedUsd actualUsd .settle)
      (known : Known before.records subject.actionId)
      (started : (∀ id approval, before.approvals.lookup id = some approval →
          approval.actionId ≠ subject.actionId) ∨
        ∃ approval, before.approvals.lookup approvalId = some approval ∧
          approval.actionId = subject.actionId ∧
          (approval.status = .executing ∨ approval.status = .consumed))
      (moved : Writes (before.ledger.ensureSettlement site.limits.budget reservedUsd actualUsd
        subject.requestId subject.actionId operation.evidence.recordId clock) after) :
      LedgerMoves site before after

/-- Why the approvals change. -/
inductive ApprovalMoves (site : Deployment) (w : World) : Approvals → Prop where
  | decide {after : Approvals} (approvalId : String) (approved : Bool) (decidedBy note : String)
      (attestation : Option OperatorAttestation) (clock : Clock)
      (taken : ∃ past, w.trace = past ++ [.deciding approvalId approved w.disk])
      (moved : Writes (site.approvals.decide w.disk.approvals approvalId approved decidedBy note
        attestation clock) after) : ApprovalMoves site w after
  | create {after : Approvals} (operation : JournalOperation)
      (active : w.disk.journal = some operation) (approval : PendingApproval)
      (reservedUsd : PlainDecimal) (kind : operation.payload = .approvalCreate approval reservedUsd)
      (valid : operation.validate site.digests = .ok ())
      (funded : Decimal.zero.lt reservedUsd.decimal = true →
        approval.actionId ∈ w.disk.ledger.document.reservations)
      (moved : Writes (site.approvals.createPrepared w.disk.approvals approval) after) :
      ApprovalMoves site w after
  | reject {after : Approvals} (operation : JournalOperation) (clock : Clock)
      (active : w.disk.journal = some operation) (approvalId actionId requestId : String)
      (reservedUsd : PlainDecimal) (decidedBy note : String)
      (attestation : Option OperatorAttestation)
      (kind : operation.payload = .approvalReject approvalId actionId requestId reservedUsd decidedBy
        note attestation)
      (bound : Harness.validateJournaledApproval w.disk.approvals approvalId actionId requestId
        reservedUsd.decimal = .ok ())
      (moved : Writes (site.approvals.ensureRejected w.disk.approvals approvalId decidedBy note
        attestation clock) after) : ApprovalMoves site w after
  | expire {after : Approvals} (operation : JournalOperation) (clock : Clock)
      (active : w.disk.journal = some operation) (approvalId actionId requestId : String)
      (reservedUsd : PlainDecimal)
      (kind : operation.payload = .approvalExpire approvalId actionId requestId reservedUsd)
      (bound : Harness.validateJournaledApproval w.disk.approvals approvalId actionId requestId
        reservedUsd.decimal = .ok ())
      (moved : Writes (site.approvals.expireOne w.disk.approvals approvalId clock) after) :
      ApprovalMoves site w after
  | claim {after : Approvals} (idle : w.disk.journal = none) (approvalId : String)
      (action : ProposedAction) (clock : Clock)
      (taken : ∃ past, w.trace = past ++ [.claiming approvalId (clock 0) w.disk])
      (moved : Writes (site.approvals.beginExecution site.digests w.disk.approvals approvalId action
        clock) after) : ApprovalMoves site w after
  | block {after : Approvals} (idle : w.disk.journal = none) (approvalId recordId : String)
      (clock : Clock)
      (released : ∀ approval, w.disk.approvals.lookup approvalId = some approval →
        approval.actionId ∉ w.disk.ledger.document.reservations)
      (moved : Writes (site.approvals.markConsumed w.disk.approvals approvalId recordId clock)
        after) : ApprovalMoves site w after
  | complete {after : Approvals} (operation : JournalOperation) (clock : Clock)
      (active : w.disk.journal = some operation) (subject : ExecutionCompletionSubject)
      (approvalId : String) (reservedUsd actualUsd : Decimal) (disposition : BudgetDisposition)
      (kind : operation.payload = .executionComplete subject approvalId reservedUsd actualUsd
        disposition)
      (replayed : Replayed w.disk operation.payload)
      (owner : ∀ approval, w.disk.approvals.lookup approvalId = some approval →
        approval.actionId = subject.actionId)
      (moved : Writes (site.approvals.ensureConsumed w.disk.approvals approvalId
        operation.evidence.recordId clock) after) : ApprovalMoves site w after
  | intend {after : Approvals} (idle : w.disk.journal = none) (approvalId : String)
      (outcome : Outcome) (reconciledBy note : String) (attestation : Option OperatorAttestation)
      (clock : Clock)
      (moved : Writes (site.approvals.beginReconciliation w.disk.approvals approvalId outcome
        reconciledBy note attestation clock) after) : ApprovalMoves site w after
  | reconcile {after : Approvals} (idle : w.disk.journal = none) (approvalId recordId : String)
      (clock : Clock)
      (marked : ∀ approval, w.disk.approvals.lookup approvalId = some approval →
        approval.actionId ∈ w.disk.ledger.document.reconciliations)
      (moved : Writes (site.approvals.markReconciled w.disk.approvals approvalId recordId clock)
        after) : ApprovalMoves site w after

/-- An id that was drawn. -/
def Drawn (site : Deployment) (issued : Nat) (kind id : String) : Prop :=
  ∃ k < issued, id = kind ++ "_" ++ site.ids k

/-- What holds when an operation is prepared. -/
inductive Prepares (site : Deployment) (w : World) (evidence : EvidenceRecord) :
    OperationPayload → Prop where
  | approvalCreate (approval : PendingApproval) (reservedUsd : PlainDecimal)
      (unknown : ¬ Known w.disk.records approval.actionId)
      (fresh : w.disk.approvals.lookup approval.approvalId = none)
      (drawn : Drawn site w.issued "apr" approval.approvalId)
      (unreserved : approval.actionId ∉ w.disk.ledger.document.reservations) :
      Prepares site w evidence (.approvalCreate approval reservedUsd)
  | approvalReject (approvalId actionId requestId : String) (reservedUsd : PlainDecimal)
      (decidedBy note : String) (attestation : Option OperatorAttestation) :
      Prepares site w evidence (.approvalReject approvalId actionId requestId reservedUsd decidedBy
        note attestation)
  | approvalExpire (approvalId actionId requestId : String) (reservedUsd : PlainDecimal) :
      Prepares site w evidence (.approvalExpire approvalId actionId requestId reservedUsd)
  | authorizationReconcile (subject : AuthorizationReconciliationSubject) (expectedUsd : Decimal)
      (outcome : Outcome) (reconciledBy note : String)
      (attestation : Option AuthorizationAttestation) :
      Prepares site w evidence (.authorizationReconcile subject expectedUsd outcome reconciledBy note
        attestation)
  | executionComplete (subject : ExecutionCompletionSubject) (approvalId : String)
      (reservedUsd actualUsd remaining : Decimal) (disposition : BudgetDisposition)
      (requestId : String)
      (taken : ∃ past, w.trace = past ++
        [.completing requestId subject.actionId reservedUsd actualUsd w.disk])
      (left : Harness.completionRemaining w.disk.ledger disposition reservedUsd actualUsd requestId
        subject.actionId = .ok remaining)
      (cost : evidence.costUsd = actualUsd.plain)
      (recorded : evidence.budgetRemainingUsd = some remaining.plain)
      (request : evidence.requestId = requestId) :
      Prepares site w evidence (.executionComplete subject approvalId reservedUsd actualUsd
        disposition)

/-- One durable write. -/
inductive Mutation (site : Deployment) (w : World) : Disk → Prop where
  | checkpoint (head : EvidenceHead) (count : head.recordCount = w.disk.records.length)
      (hash : head.headHash = EvidenceLog.headHash w.disk.records) :
      Mutation site w { w.disk with head := some head }
  | append (record : EvidenceRecord) (why : Appends w.disk record)
      (fresh : EvidenceLog.get w.disk.records record.recordId = none)
      (drawn : Drawn site w.issued "evd" record.recordId) :
      Mutation site w { w.disk with
        records := w.disk.records ++
          [record.sealed site.digests (EvidenceLog.headHash w.disk.records)] }
  | ledger (after : Ledger) (why : LedgerMoves site w.disk after) :
      Mutation site w { w.disk with ledger := after }
  | approvals (after : Approvals) (why : ApprovalMoves site w after) :
      Mutation site w { w.disk with approvals := after }
  | prepare (operation : JournalOperation) (idle : w.disk.journal = none)
      (valid : operation.validate site.digests = .ok ())
      (fresh : EvidenceLog.get w.disk.records operation.evidence.recordId = none)
      (drawn : Drawn site w.issued "evd" operation.evidence.recordId)
      (why : Prepares site w operation.evidence operation.payload) :
      Mutation site w { w.disk with journal := some operation }
  | complete (operation : JournalOperation) (active : w.disk.journal = some operation)
      (valid : operation.validate site.digests = .ok ())
      (carried : CarriedOut w.disk operation)
      (recorded : ∃ record ∈ w.disk.records, record.comparable = operation.evidence.comparable) :
      Mutation site w { w.disk with journal := none }

/-! ### Dispatches -/

/-- An approval of the action moves from approved to executing. -/
def Claims (digests : Digests) (before after : Disk) (action : ProposedAction) : Prop :=
  ∃ old, before.approvals.lookup old.approvalId = some old ∧ old.status = .approved ∧
    old.actionId = action.actionId ∧
    old.terms.authorizationHash = action.authorizationHash digests ∧
    after.approvals.lookup old.approvalId = some { old with status := .executing }

/-- Only writes that leave the approvals alone. -/
def Quiet (events : List Event) : Prop :=
  ∀ event ∈ events, ∃ before after, event = .wrote before after ∧ after.approvals = before.approvals

/-- What happens between the evaluation of a policy and the dispatch of the action. -/
inductive Route (digests : Digests) (action : ProposedAction) (decision : GuardrailDecision) :
    List Event → Prop where
  | direct {events : List Event} (quiet : Quiet events) (allowed : decision.decision = .allow)
      (unknown : ∃ before after, .wrote before after ∈ events ∧
        ¬ Known before.records action.actionId) : Route digests action decision events
  | resumed {approvalId : String} {now : Timestamp} {found before after : Disk} {late : List Event}
      (claims : Claims digests before after action) (quiet : Quiet late) :
      Route digests action decision (.claiming approvalId now found :: .wrote before after :: late)

/-- A sealed authorization of exactly this action. -/
def Authorizes (digests : Digests) (record : EvidenceRecord) (action : ProposedAction) : Prop :=
  record.resultStatus = .skipped ∧
    (record.decision = .allow ∨ record.decision = .approvalRequired) ∧
    record.actionId = action.actionId ∧ record.toolName = action.toolName ∧
    record.authorizationHash = action.authorizationHash digests ∧
    record.recordHash = digests.record record.body

/-- No approval of the action can be claimed any more, and none is being created. -/
structure Unclaimable (disk : Disk) (actionId : String) : Prop where
  approvals : ∀ id approval, disk.approvals.lookup id = some approval →
    approval.actionId = actionId → approval.status ≠ .pending ∧ approval.status ≠ .approved
  journal : ∀ operation approval reservedUsd, disk.journal = some operation →
    operation.payload = .approvalCreate approval reservedUsd → approval.actionId ≠ actionId

/-- What holds at a dispatch. -/
structure Dispatchable (digests : Digests) (past : List Event) (action : ProposedAction)
    (disk : Disk) : Prop where
  authorized : ∃ record ∈ disk.records, Authorizes digests record action
  unclaimable : Unclaimable disk action.actionId
  route : ∃ before decision after, past = before ++ .evaluated action decision :: after ∧
    decision.decision ≠ .block ∧ Route digests action decision after

/-- One step of a run. A new process starts with its own cache, and stops after its own number of
writes. -/
inductive Step (site : Deployment) : World → World → Prop where
  | tick (w : World) : Step site w w.ticked
  | draw (w : World) : Step site w w.drawn
  | enter (w : World) (writesLeft : Option Nat) (bases : List (String × EnforcementBasis)) :
      Step site w { w with writesLeft := writesLeft, bases := bases }
  | write (w : World) (after : Disk) (mutation : Mutation site w after) :
      Step site w (w.saved after)
  | evaluate (w : World) (action : ProposedAction) (decision : GuardrailDecision) :
      Step site w (w.noted (.evaluated action decision))
  | decide (w : World) (approvalId : String) (approved : Bool) :
      Step site w (w.noted (.deciding approvalId approved w.disk))
  | claim (w : World) (approvalId : String) (now : Timestamp) :
      Step site w (w.noted (.claiming approvalId now w.disk))
  | compute (w : World) (requestId actionId : String) (estimate actual : Decimal) :
      Step site w (w.noted (.completing requestId actionId estimate actual w.disk))
  | dispatch (w : World) (action : ProposedAction)
      (ready : Dispatchable site.digests w.trace action w.disk) :
      Step site w (w.noted (.dispatched action w.disk))

abbrev Moves (site : Deployment) : World → World → Prop := Relation.ReflTransGen (Step site)

theorem Step.issued_le {site : Deployment} {w t : World} (step : Step site w t) :
    w.issued ≤ t.issued := by
  cases step <;> simp

theorem Moves.issued_le {site : Deployment} {w t : World} (moves : Moves site w t) :
    w.issued ≤ t.issued := by
  induction moves with
  | refl => exact le_rfl
  | tail _ step ih => exact ih.trans step.issued_le

theorem Drawn.mono {site : Deployment} {issued later : Nat} {kind id : String}
    (drawn : Drawn site issued kind id) (le : issued ≤ later) : Drawn site later kind id := by
  obtain ⟨k, bound, rfl⟩ := drawn
  exact ⟨k, bound.trans_le le, rfl⟩

/-- Distinct draws are distinct ids. -/
theorem drawn_ne {site : Deployment} {issued k : Nat} {kind id : String}
    (drawn : Drawn site issued kind id) (le : issued ≤ k) : id ≠ kind ++ "_" ++ site.ids k := by
  obtain ⟨j, bound, rfl⟩ := drawn
  intro same
  have ids : site.ids j = site.ids k := by
    simpa [String.ext_iff] using same
  have equal := site.ids_distinct ids
  omega

/-! ### Rules for the control path -/

namespace Control

variable {site : Deployment} {α β : Type}

/-- However `p` ends, it took steps; `R` holds of a normal end. -/
structure Does (site : Deployment) (p : Control α) (R : α → World → Prop) (w : World) : Prop where
  ends : p.Ends (fun a t => Moves site w t ∧ R a t) (fun _ t => Moves site w t) w

variable {p : Control α} {f : α → Control β} {R : α → World → Prop} {R' : β → World → Prop}
  {w : World}

theorem Does.bind (first : Does site p R w)
    (rest : ∀ a t, Moves site w t → R a t → Does site (f a) R' t) : Does site (p >>= f) R' w := by
  constructor
  rw [Proc.ends_bind]
  refine first.ends.mono ?_ fun _ _ moved => moved
  rintro a t ⟨moved, holds⟩
  exact (rest a t moved holds).ends.mono (fun _ _ ends => ⟨moved.trans ends.1, ends.2⟩)
    fun _ _ later => moved.trans later

theorem Does.mono (does : Does site p R w) {R₂ : α → World → Prop}
    (weaker : ∀ a t, Moves site w t → R a t → R₂ a t) : Does site p R₂ w :=
  ⟨does.ends.mono (fun a t ends => ⟨ends.1, weaker a t ends.1 ends.2⟩) fun _ _ moved => moved⟩

theorem does_pure {a : α} (holds : R a w) : Does site (pure a) R w :=
  ⟨Proc.ends_pure.2 ⟨.refl, holds⟩⟩

theorem does_raise {e : HarnessError} : Does site (Proc.raise e : Control α) R w :=
  ⟨Proc.ends_raise.2 .refl⟩

theorem does_lift {x : Except HarnessError α} (holds : ∀ a, x = .ok a → R a w) :
    Does site (Proc.lift x) R w :=
  ⟨Proc.ends_lift.2 ⟨fun a ok => ⟨.refl, holds a ok⟩, fun _ _ => .refl⟩⟩

theorem does_lift_bind {x : Except HarnessError α} (rest : ∀ a, x = .ok a → Does site (f a) R' w) :
    Does site (Proc.lift x >>= f) R' w :=
  (does_lift (R := fun a t => x = .ok a ∧ t = w) fun _ ok => ⟨ok, rfl⟩).bind fun a _ _ holds =>
    holds.2 ▸ rest a holds.1

/-- A procedure that only looks. -/
theorem does_get_bind {f : World → Control β} (rest : Does site (f w) R' w) :
    Does site (Proc.get >>= f) R' w :=
  ⟨by rw [Proc.ends_bind, Proc.ends_get]; exact rest.ends⟩

theorem does_disk_bind {f : Disk → Control β} (rest : Does site (f w.disk) R' w) :
    Does site (disk >>= f) R' w :=
  ⟨by rw [Proc.ends_bind, ends_disk]; exact rest.ends⟩

/-- A step, and then the rest. -/
private theorem does_step {q : Control β} {v : World} (step : Step site w v)
    (rest : Does site q R' v) :
    q.Ends (fun a t => Moves site w t ∧ R' a t) (fun _ t => Moves site w t) v :=
  rest.ends.mono (fun _ _ ends => ⟨.head step ends.1, ends.2⟩) fun _ _ moved => .head step moved

theorem does_now_bind {f : Clock → Control β}
    (rest : Does site (f (site.clock w.readings)) R' w.ticked) : Does site (now site >>= f) R' w :=
  ⟨by rw [Proc.ends_bind, ends_now]; exact does_step (.tick w) rest⟩

theorem does_newId_bind {kind : String} {f : String → Control β}
    (rest : Does site (f (kind ++ "_" ++ site.ids w.issued)) R' w.drawn) :
    Does site (newId site kind >>= f) R' w :=
  ⟨by rw [Proc.ends_bind, ends_newId]; exact does_step (.draw w) rest⟩

theorem does_note_bind {event : Event} {f : Unit → Control β}
    (step : Step site w (w.noted event)) (rest : Does site (f ()) R' (w.noted event)) :
    Does site (note event >>= f) R' w :=
  ⟨by rw [Proc.ends_bind, ends_note]; exact does_step step rest⟩

theorem does_save {d : Disk} {R : Unit → World → Prop} (mutation : Mutation site w d)
    (holds : R () (w.saved d)) : Does site (save d) R w :=
  ⟨ends_save.2 ⟨fun _ => .refl, fun _ => ⟨.single (.write w d mutation), holds⟩⟩⟩

/-- What an operation of a store leaves: the store as it was, or what it wrote. -/
def Leaves {σ : Type} (w : World) (place : σ → Disk) (written : Option σ) (t : World) : Prop :=
  (written = none ∧ t = w) ∨ ∃ stored, written = some stored ∧ t = w.saved (place stored)

theorem does_onLedger {op : Ledger → Clock → Except HarnessError (Update Ledger α)}
    (moves : ∀ update after, op w.disk.ledger (site.clock w.readings) = .ok update →
      update.written = some after → LedgerMoves site w.disk after)
    (holds : ∀ update t, op w.disk.ledger (site.clock w.readings) = .ok update →
      Leaves w.ticked (fun ledger => { w.disk with ledger := ledger }) update.written t →
      R update.result t) : Does site (onLedger site op) R w := by
  refine ⟨ends_onLedger.2 ⟨fun _ _ => .single (.tick w), fun update ok => ⟨fun written => ?_, ?_⟩⟩⟩
  · exact ⟨.single (.tick w), holds update _ ok (.inl ⟨written, rfl⟩)⟩
  · intro after written
    refine ⟨fun _ => .single (.tick w), fun _ => ⟨?_, holds update _ ok (.inr ⟨after, written, rfl⟩)⟩⟩
    exact .tail (.single (.tick w)) (.write _ _ (.ledger after (moves update after ok written)))

theorem does_onApprovals {op : Approvals → Clock → Except HarnessError (Update Approvals α)}
    (moves : ∀ update after, op w.disk.approvals (site.clock w.readings) = .ok update →
      update.written = some after → ApprovalMoves site w.ticked after)
    (holds : ∀ update t, op w.disk.approvals (site.clock w.readings) = .ok update →
      Leaves w.ticked (fun approvals => { w.disk with approvals := approvals }) update.written t →
      R update.result t) : Does site (onApprovals site op) R w := by
  refine ⟨ends_onApprovals.2
    ⟨fun _ _ => .single (.tick w), fun update ok => ⟨fun written => ?_, ?_⟩⟩⟩
  · exact ⟨.single (.tick w), holds update _ ok (.inl ⟨written, rfl⟩)⟩
  · intro after written
    refine ⟨fun _ => .single (.tick w), fun _ => ⟨?_, holds update _ ok (.inr ⟨after, written, rfl⟩)⟩⟩
    exact .tail (.single (.tick w)) (.write _ _ (.approvals after (moves update after ok written)))

theorem does_ite {condition : Prop} [Decidable condition] {q : Control α}
    (yes : condition → Does site p R w) (no : ¬ condition → Does site q R w) :
    Does site (if condition then p else q) R w := by
  split
  next holds => exact yes holds
  next fails => exact no fails

end Control

end DefiantHarness
