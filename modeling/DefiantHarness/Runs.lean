import DefiantHarness.Harness

/-! Runs: any sequence of entry points by any processes, each of which may stop at any write. -/
namespace DefiantHarness

open Foundation

/-- One process: its configuration, its cache, and the durable writes it makes before it stops. -/
structure Process where
  harness : Harness
  bases : List (String × EnforcementBasis)
  writesLeft : Option Nat

/-- An entry point with its arguments. `decide` is the decision that the approve command and the
proxy take directly in the approval store. -/
inductive Call where
  | handleCall (call : ToolCall) (request : HarnessRequest) (executionOwner executionKey : String)
  | preflightExternalCall (call : ToolCall) (request : HarnessRequest)
      (executionOwner executionKey : String)
  | resume (approvalId : String) (approved : Bool) (decidedBy note : String)
      (attestation : Option OperatorAttestation)
  | resumeExternal (approvalId : String)
  | completeExternalCall (action : ProposedAction) (request : HarnessRequest)
      (decision : GuardrailDecision) (toolResponse : Json) (approvalId : String)
  | reconcileExpiredApprovals
  | reconcileExecution (approvalId : String) (outcome : Outcome) (reconciledBy note : String)
      (attestation : Option OperatorAttestation)
  | reconcileAuthorization (authorityRecordId : String) (outcome : Outcome)
      (reconciledBy note : String) (attestation : Option AuthorizationAttestation)
  | recoverOperation
  | decide (approvalId : String) (approved : Bool) (decidedBy note : String)
      (attestation : Option OperatorAttestation)

namespace Call

variable (site : Deployment) (harness : Harness)

/-- Run an entry point for its effect. -/
def run : Call → Control Unit
  | .handleCall call request executionOwner executionKey => do
    let _ ← harness.handleCall site call request executionOwner executionKey
  | .preflightExternalCall call request executionOwner executionKey => do
    let _ ← harness.preflightExternalCall site call request executionOwner executionKey
  | .resume approvalId approved decidedBy note attestation => do
    let _ ← harness.resume site approvalId approved decidedBy note attestation
  | .resumeExternal approvalId => do
    let _ ← harness.resumeExternal site approvalId
  | .completeExternalCall action request decision toolResponse approvalId => do
    let _ ← harness.completeExternalCall site action request decision toolResponse approvalId
  | .reconcileExpiredApprovals => do
    let _ ← harness.reconcileExpiredApprovals site
  | .reconcileExecution approvalId outcome reconciledBy note attestation => do
    let _ ← harness.reconcileExecution site approvalId outcome reconciledBy note attestation
  | .reconcileAuthorization authorityRecordId outcome reconciledBy note attestation => do
    let _ ← Harness.reconcileAuthorization site authorityRecordId outcome reconciledBy note
      attestation
  | .recoverOperation => do
    let _ ← Harness.recoverOperation site
  | .decide approvalId approved decidedBy note attestation => do
    let _ ← Harness.decideApproval site approvalId approved decidedBy note attestation

end Call

namespace World

/-- A new process takes over the disk. -/
def entered (w : World) (process : Process) : World :=
  { w with writesLeft := process.writesLeft, bases := process.bases }

/-- The world after a process made one call, however the call ended. -/
def after (site : Deployment) (w : World) (process : Process) (call : Call) : World :=
  (call.run site process.harness (w.entered process)).2

@[simp] theorem entered_disk (w : World) (p : Process) : (w.entered p).disk = w.disk := rfl
@[simp] theorem entered_trace (w : World) (p : Process) : (w.entered p).trace = w.trace := rfl
@[simp] theorem entered_issued (w : World) (p : Process) : (w.entered p).issued = w.issued := rfl
@[simp] theorem entered_readings (w : World) (p : Process) :
    (w.entered p).readings = w.readings := rfl

end World

/-- A working directory before its first call. -/
structure World.Fresh (site : Deployment) (w : World) : Prop where
  records : w.disk.records = []
  head : w.disk.head = none
  approvals : w.disk.approvals = ∅
  ledger : ∃ starting, Ledger.create site.limits.budget starting = .ok w.disk.ledger
  journal : w.disk.journal = none
  trace : w.trace = []

/-- The worlds that runs reach. -/
inductive Reachable (site : Deployment) : World → Prop where
  | fresh {w : World} (start : w.Fresh site) : Reachable site w
  | call {w : World} (reached : Reachable site w) (process : Process) (call : Call) :
      Reachable site (w.after site process call)

/-- The world after several calls, each by its own process. -/
def World.afterAll (site : Deployment) (w : World) (calls : List (Process × Call)) : World :=
  calls.foldl (fun world call => world.after site call.1 call.2) w

theorem Reachable.afterAll {site : Deployment} {w : World} (reached : Reachable site w)
    (calls : List (Process × Call)) : Reachable site (w.afterAll site calls) := by
  induction calls generalizing w with
  | nil => exact reached
  | cons call rest ih => exact ih (.call reached call.1 call.2)

/-! ### A small deployment for concrete runs -/

namespace Demo

def hexDigit (n : Nat) : Char := (charsOf "0123456789abcdef").getD (n % 16) '0'

/-- A digest that keeps the last four hexadecimal digits of a number. -/
def digest (n : Nat) : String :=
  String.ofList (charsOf "sha256:" ++ hexDigit n :: hexDigit (n / 16) :: hexDigit (n / 256) ::
    hexDigit (n / 4096) :: List.replicate 60 '0')

theorem isHexDigit_hexDigit (n : Nat) : isHexDigit (hexDigit n) = true := by
  have digits : ∀ k < 16, isHexDigit ((charsOf "0123456789abcdef").getD k '0') = true := by
    decide +kernel
  exact digits (n % 16) (Nat.mod_lt _ (by decide))

theorem digest_sha256 (n : Nat) : isSha256 (digest n) = true := by
  have zero : isHexDigit '0' = true := by decide +kernel
  simp [isSha256, digest, startsWith, isHexDigit_hexDigit, zero]

/-- Digests that tell apart what the runs below hash. -/
def digests : Digests where
  payload _ := digest 1
  output _ := digest 2
  authorization surface := digest surface.actionId.length
  record r := digest (1000 + r.recordId.length)
  authorization_sha256 _ := digest_sha256 _
  record_sha256 _ := digest_sha256 _

def limits : Limits where
  call _ := true
  contract := ⟨fun _ => true, fun _ => true, fun _ _ => rfl⟩
  budget _ := true
  record _ := true
  operation _ := true
  result _ := true
  record_of_operation _ _ _ _ := rfl

/-- Approvals last one minute, and no operator keys are pinned. -/
def approvalStore : ApprovalStore := ⟨1, none, fun _ => true⟩

def id (n : Nat) : String := String.ofList (List.replicate n 'a')

theorem id_injective : Function.Injective id := by
  intro m n same
  have lengths := congrArg (fun text => text.toList.length) same
  simpa [id] using lengths

def site (clock : Nat → Clock) : Deployment where
  digests := digests
  limits := limits
  approvals := approvalStore
  preview _ := ""
  clock := clock
  ids := id
  ids_distinct := id_injective
  surroundings _ _ := []

def clock (n i : Nat) : Timestamp := 100 * n + i

def decision (kind : Decision) (now : Timestamp) : GuardrailDecision :=
  { decision := kind, reason := "mail leaves the workspace", policyIds := ["mail"]
    policyVersion := "1", rulesetHash := digest 3, approvalScope := "once", expiresAt := none
    redactions := [], decisionInputs := .null, decidedAt := now }

def action (call : ToolCall) (requestId : String) : ProposedAction :=
  { toolName := call.name, target := "inbox", payload := call.arguments
    sideEffectLevel := .externalSend, agentReason := "", actionId := call.callId
    requestId := requestId, payloadSources := [], estimatedCostUsd := .zero, createdAt := 0 }

def result (cost : Decimal) : ToolResult :=
  { status := .succeeded, summary := "sent", output := .null, costUsd := cost, dryRun := false }

/-- One mail tool with an estimate and an actual cost, under a policy with one answer. -/
def harness (kind : Decision) (estimate cost : Decimal) : Harness where
  policy :=
    { version := "1", rulesetHash := digest 3, authorityInputs := .null
      evaluate := fun _ _ now => .ok (decision kind now) }
  tools :=
    { specs := [⟨"mail", .externalSend, estimate, true, .any⟩]
      checkTarget := fun _ _ => .ok ()
      handler := fun _ => .returned (result cost)
      sign := fun _ => "signed"
      signs := fun _ => by decide }
  adapter := ⟨"demo", "", fun call requestId => .ok (action call requestId)⟩
  dryRun := false
  executionDisabled := false
  evidenceBasis := .harnessControlLoop

def request : HarnessRequest :=
  { task := "send mail", userId := "user", workspaceId := "work", requestId := "req_1"
    taskType := "general", sensitivity := .internal, allowedTools := [], budgetLimitUsd := none
    inputs := [], createdAt := 0 }

def call (callId : String) : ToolCall := ⟨"mail", .obj [], callId, "", .null⟩

def dollars (n : Nat) : Decimal := ⟨false, n, 0⟩

def ledger : Ledger where
  document :=
    { balanceUsd := (dollars 25).plain, totalSpentUsd := Decimal.zero.plain
      totalEstimatedUsd := Decimal.zero.plain, reservations := ∅, reconciliations := ∅
      entries := [] }
  valid := by decide

/-- An empty working directory with 25 dollars. -/
def start : World :=
  { disk := { records := [], head := none, approvals := ∅, ledger := ledger, journal := none }
    writesLeft := none, readings := 0, issued := 0, bases := [], trace := [] }

/-- A process with an empty cache. -/
def process (kind : Decision) (estimate cost : Decimal) (writesLeft : Option Nat) : Process :=
  ⟨harness kind estimate cost, [], writesLeft⟩

theorem start_fresh (clock : Nat → Clock) : start.Fresh (site clock) where
  records := rfl
  head := rfl
  approvals := rfl
  ledger := ⟨dollars 25, show Ledger.create (fun _ => true) (dollars 25) = .ok ledger by decide +kernel⟩
  journal := rfl
  trace := rfl

end Demo

end DefiantHarness
