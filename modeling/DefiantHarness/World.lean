import DefiantHarness.ApprovalStore
import DefiantHarness.EvidenceLog
import DefiantHarness.Ledger
import DefiantHarness.OperationJournal
import DefiantHarness.ToolRegistry
import DefiantHarness.Foundation.Proc

/-! What a control process acts on: the stores on disk, the clock, fresh ids, and the point at
which the process stops. -/
namespace DefiantHarness

open Foundation

/-- The state files of one working directory. -/
structure Disk where
  records : List EvidenceRecord
  head : Option EvidenceHead
  approvals : Approvals
  ledger : Ledger
  journal : Option JournalOperation
deriving DecidableEq

inductive Severity where
  | critical | warning
deriving DecidableEq, Repr

structure IntegrityIssue where
  code : String
  severity : Severity
  store : String
  detail : String
  actionId : String := ""
  approvalId : String := ""
  recordId : String := ""
deriving DecidableEq

/-- The fixed ceilings. An operation that fits the journal leaves room for its evidence. -/
structure Limits where
  call : ToolCall → Bool
  contract : ContractLimits
  budget : BudgetDocument → Bool
  record : EvidenceRecord → Bool
  operation : JournalOperation → Bool
  result : ToolResult → Bool
  record_of_operation : ∀ (op : JournalOperation) (digests : Digests) (previous : String),
    operation op = true → record (op.evidence.sealed digests previous) = true

/-- What is the same for every process of a working directory. `clock n` are the answers of
`utc_now` to the `n`-th operation that asks, `ids` are the answers of the id generator, and
`surroundings` are the findings of the audits that read other files. -/
structure Deployment where
  digests : Digests
  limits : Limits
  approvals : ApprovalStore
  preview : Json → String
  clock : Nat → Clock
  ids : Nat → String
  ids_distinct : Function.Injective ids
  surroundings : Nat → Disk → List IntegrityIssue

/-- What happens, in order. A decision, a claim, a dispatch and a completion are noted with the disk
they find. -/
inductive Event where
  | wrote (before after : Disk)
  | evaluated (action : ProposedAction) (decision : GuardrailDecision)
  | deciding (approvalId : String) (approved : Bool) (disk : Disk)
  | claiming (approvalId : String) (now : Timestamp) (disk : Disk)
  | dispatched (action : ProposedAction) (disk : Disk)
  | completing (requestId actionId : String) (estimate actual : Decimal) (disk : Disk)

/-- A process at work. `writesLeft` is the number of durable writes before it stops, if it does;
`bases` is its cache of enforcement bases. -/
structure World where
  disk : Disk
  writesLeft : Option Nat
  readings : Nat
  issued : Nat
  bases : List (String × EnforcementBasis)
  trace : List Event

/-- A step of the control path. -/
abbrev Control (α : Type) := Proc World HarnessError α

def stopped : HarnessError := ⟨.crash, "the process stopped"⟩

namespace World

/-- One more reading of the clock. -/
def ticked (w : World) : World := { w with readings := w.readings + 1 }

def drawn (w : World) : World := { w with issued := w.issued + 1 }

/-- One durable write. -/
def saved (w : World) (disk : Disk) : World :=
  { w with
    disk := disk
    writesLeft := w.writesLeft.map (· - 1)
    trace := w.trace ++ [.wrote w.disk disk] }

def noted (w : World) (event : Event) : World := { w with trace := w.trace ++ [event] }

@[simp] theorem ticked_disk (w : World) : w.ticked.disk = w.disk := rfl
@[simp] theorem ticked_writesLeft (w : World) : w.ticked.writesLeft = w.writesLeft := rfl
@[simp] theorem ticked_issued (w : World) : w.ticked.issued = w.issued := rfl
@[simp] theorem ticked_trace (w : World) : w.ticked.trace = w.trace := rfl
@[simp] theorem ticked_readings (w : World) : w.ticked.readings = w.readings + 1 := rfl
@[simp] theorem drawn_disk (w : World) : w.drawn.disk = w.disk := rfl
@[simp] theorem drawn_writesLeft (w : World) : w.drawn.writesLeft = w.writesLeft := rfl
@[simp] theorem drawn_readings (w : World) : w.drawn.readings = w.readings := rfl
@[simp] theorem drawn_trace (w : World) : w.drawn.trace = w.trace := rfl
@[simp] theorem drawn_issued (w : World) : w.drawn.issued = w.issued + 1 := rfl
@[simp] theorem saved_disk (w : World) (d : Disk) : (w.saved d).disk = d := rfl
@[simp] theorem saved_issued (w : World) (d : Disk) : (w.saved d).issued = w.issued := rfl
@[simp] theorem saved_readings (w : World) (d : Disk) : (w.saved d).readings = w.readings := rfl
@[simp] theorem saved_writesLeft (w : World) (d : Disk) :
    (w.saved d).writesLeft = w.writesLeft.map (· - 1) := rfl
@[simp] theorem saved_trace (w : World) (d : Disk) :
    (w.saved d).trace = w.trace ++ [.wrote w.disk d] := rfl
@[simp] theorem noted_disk (w : World) (e : Event) : (w.noted e).disk = w.disk := rfl
@[simp] theorem noted_issued (w : World) (e : Event) : (w.noted e).issued = w.issued := rfl
@[simp] theorem noted_readings (w : World) (e : Event) : (w.noted e).readings = w.readings := rfl
@[simp] theorem noted_writesLeft (w : World) (e : Event) :
    (w.noted e).writesLeft = w.writesLeft := rfl
@[simp] theorem noted_trace (w : World) (e : Event) : (w.noted e).trace = w.trace ++ [e] := rfl

end World

namespace Control

variable (site : Deployment)

/-- The clock of the next operation. -/
def now : Control Clock := fun w => (.ok (site.clock w.readings), w.ticked)

/-- A fresh identifier with a prefix. -/
def newId (kind : String) : Control String := fun w => (.ok (kind ++ "_" ++ site.ids w.issued), w.drawn)

/-- Replace the durable state, unless the process stops first. -/
def save (disk : Disk) : Control Unit := fun w =>
  if w.writesLeft = some 0 then (.error stopped, w) else (.ok (), w.saved disk)

def note (event : Event) : Control Unit := fun w => (.ok (), w.noted event)

/-- Publish what a store operation wrote, and answer its result. -/
def publish {σ α : Type} (place : σ → Disk) (update : Update σ α) : Control α :=
  match update.written with
  | none => pure update.result
  | some stored => do
    save (place stored)
    pure update.result

/-- Run one operation of the budget ledger. -/
def onLedger {α : Type} (op : Ledger → Clock → Except HarnessError (Update Ledger α)) :
    Control α := do
  let w ← Proc.get
  let clock ← now site
  let update ← Proc.lift (op w.disk.ledger clock)
  publish (fun ledger => { w.disk with ledger := ledger }) update

/-- Run one operation of the approval store. -/
def onApprovals {α : Type} (op : Approvals → Clock → Except HarnessError (Update Approvals α)) :
    Control α := do
  let w ← Proc.get
  let clock ← now site
  let update ← Proc.lift (op w.disk.approvals clock)
  publish (fun approvals => { w.disk with approvals := approvals }) update

/-- Read the disk. -/
def disk : Control Disk := do
  let w ← Proc.get
  pure w.disk

variable {site} {Q : Unit → World → Prop} {E : HarnessError → World → Prop} {w : World}

@[simp] theorem ends_now {Q : Clock → World → Prop} :
    (now site).Ends Q E w ↔ Q (site.clock w.readings) w.ticked :=
  Proc.ends_of_ok rfl

@[simp] theorem ends_newId {kind : String} {Q : String → World → Prop} :
    (newId site kind).Ends Q E w ↔ Q (kind ++ "_" ++ site.ids w.issued) w.drawn :=
  Proc.ends_of_ok rfl

@[simp] theorem ends_note {event : Event} : (note event).Ends Q E w ↔ Q () (w.noted event) :=
  Proc.ends_of_ok rfl

@[simp] theorem ends_disk {Q : Disk → World → Prop} : disk.Ends Q E w ↔ Q w.disk w :=
  Proc.ends_of_ok rfl

theorem ends_save {d : Disk} :
    (save d).Ends Q E w ↔
      (w.writesLeft = some 0 → E stopped w) ∧ (w.writesLeft ≠ some 0 → Q () (w.saved d)) := by
  by_cases stops : w.writesLeft = some 0 <;> simp [save, Proc.Ends, stops]

theorem ends_publish {σ α : Type} {place : σ → Disk} {update : Update σ α}
    {Q : α → World → Prop} :
    (publish place update).Ends Q E w ↔
      (update.written = none → Q update.result w) ∧
      ∀ stored, update.written = some stored →
        (w.writesLeft = some 0 → E stopped w) ∧
        (w.writesLeft ≠ some 0 → Q update.result (w.saved (place stored))) := by
  unfold publish
  cases written : update.written with
  | none => simp
  | some stored => simp [ends_save]

theorem ends_onLedger {α : Type} {op : Ledger → Clock → Except HarnessError (Update Ledger α)}
    {Q : α → World → Prop} :
    (onLedger site op).Ends Q E w ↔
      (∀ e, op w.disk.ledger (site.clock w.readings) = .error e → E e w.ticked) ∧
      ∀ update, op w.disk.ledger (site.clock w.readings) = .ok update →
        (update.written = none → Q update.result w.ticked) ∧
        ∀ stored, update.written = some stored →
          (w.writesLeft = some 0 → E stopped w.ticked) ∧
          (w.writesLeft ≠ some 0 →
            Q update.result (w.ticked.saved { w.disk with ledger := stored })) := by
  simp only [onLedger, Proc.ends_bind, Proc.ends_get, ends_now, Proc.ends_lift, ends_publish,
    World.ticked_writesLeft]
  exact and_comm

theorem ends_onApprovals {α : Type}
    {op : Approvals → Clock → Except HarnessError (Update Approvals α)} {Q : α → World → Prop} :
    (onApprovals site op).Ends Q E w ↔
      (∀ e, op w.disk.approvals (site.clock w.readings) = .error e → E e w.ticked) ∧
      ∀ update, op w.disk.approvals (site.clock w.readings) = .ok update →
        (update.written = none → Q update.result w.ticked) ∧
        ∀ stored, update.written = some stored →
          (w.writesLeft = some 0 → E stopped w.ticked) ∧
          (w.writesLeft ≠ some 0 →
            Q update.result (w.ticked.saved { w.disk with approvals := stored })) := by
  simp only [onApprovals, Proc.ends_bind, Proc.ends_get, ends_now, Proc.ends_lift, ends_publish,
    World.ticked_writesLeft]
  exact and_comm

end Control
end DefiantHarness
