import DefiantHarness.Attestation
import DefiantHarness.Foundation.Update

/-! Exact, persisted, action-bound budget ledger. -/
namespace DefiantHarness

open Foundation

def budgetError (message : String) : HarnessError := ⟨.budget, message⟩

inductive EntryKind where
  | grant | reserve | debit | release | reconcile | reconcileDebit | reconcileRelease
deriving DecidableEq, Repr

structure LedgerEntry where
  kind : EntryKind
  amountUsd : PlainDecimal
  balanceAfterUsd : PlainDecimal
  requestId : String := ""
  actionId : String := ""
  note : String := ""
  atTime : Timestamp
  completionRecordId : Option String := none
deriving DecidableEq

structure Reservation where
  requestId : String
  amountUsd : PlainDecimal
  createdAt : Timestamp
deriving DecidableEq

inductive Disposition where
  | reservationReleased | reservationCharged | priorDebitPreserved | missingReservationCharged
  | noLiveReservation | noBudgetExposure
deriving DecidableEq, Repr

def Disposition.text : Disposition → String
  | .reservationReleased => "reservation_released"
  | .reservationCharged => "reservation_charged"
  | .priorDebitPreserved => "prior_debit_preserved"
  | .missingReservationCharged => "missing_reservation_charged"
  | .noLiveReservation => "no_live_reservation"
  | .noBudgetExposure => "no_budget_exposure"

/-- The sealed authorization that a reconciliation without approval settles. -/
structure LedgerAuthority where
  recordId : String
  recordHash : String
  attestation : Option AuthorizationAttestation
deriving DecidableEq

/-- The caller's part of a reconciliation marker. -/
structure ReconciliationInput where
  requestId : String
  outcome : Outcome
  reconciledBy : String
  note : String
  expectedUsd : PlainDecimal
  authority : Option LedgerAuthority
deriving DecidableEq

structure Reconciliation where
  supplied : ReconciliationInput
  chargedUsd : PlainDecimal
  releasedUsd : PlainDecimal
  disposition : Disposition
  remainingUsd : PlainDecimal
  atTime : Timestamp
deriving DecidableEq

structure BudgetDocument where
  balanceUsd : PlainDecimal
  totalSpentUsd : PlainDecimal
  totalEstimatedUsd : PlainDecimal
  reservations : Dict String Reservation
  reconciliations : Dict String Reconciliation
  entries : List LedgerEntry
deriving DecidableEq

namespace BudgetDocument

def checkReservation (item : Sigma fun _ : String => Reservation) : Except HarnessError Unit := do
  refuseIf (item.1 = "") (budgetError "invalid reservation entry")
  let amount ← money item.2.amountUsd.decimal "reservation amount"
  refuseIf (amount.isZero = true) (budgetError "reservation amount must be positive")
  refuseIf (item.2.requestId = "") (budgetError "reservation is missing request_id")

def requireField (value fieldName : String) : Except HarnessError Unit :=
  refuseIf (strip value = "") (budgetError ("reconciliation is missing non-empty " ++ fieldName))

def checkAuthority : Option LedgerAuthority → Except HarnessError Unit
  | none => pure ()
  | some authority => do
    requireField authority.recordId "authority_record_id"
    requireField authority.recordHash "authority_record_hash"

def checkReconciliation (item : Sigma fun _ : String => Reconciliation) :
    Except HarnessError Unit := do
  refuseIf (item.1 = "") (budgetError "invalid reconciliation entry")
  requireField item.2.supplied.requestId "request_id"
  requireField item.2.supplied.reconciledBy "reconciled_by"
  requireField item.2.supplied.note "note"
  let _ ← money item.2.supplied.expectedUsd.decimal "reconciliation expected_usd"
  let _ ← money item.2.chargedUsd.decimal "reconciliation charged_usd"
  let _ ← money item.2.releasedUsd.decimal "reconciliation released_usd"
  checkAuthority item.2.supplied.authority

def hasEvidencePrefix (recordId : String) : Bool := startsWith "evd_" recordId

def checkEntry (item : LedgerEntry × Nat) : Except HarnessError Unit := do
  let _ ← money item.1.amountUsd.decimal ("entry " ++ toString item.2 ++ " amount")
  refuseIf (∃ recordId ∈ item.1.completionRecordId, hasEvidencePrefix recordId = false)
    (budgetError ("entry " ++ toString item.2 ++ " has invalid completion_record_id"))

def validate (document : BudgetDocument) : Except HarnessError Unit := do
  checkAll checkReservation document.reservations.entries
  checkAll checkReconciliation document.reconciliations.entries
  checkAll checkEntry document.entries.zipIdx

/-- What re-reading the written file gives: the writer sorts keys. -/
def snapshot (document : BudgetDocument) : BudgetDocument :=
  { document with
    reservations := document.reservations.sorted
    reconciliations := document.reconciliations.sorted }

/-- Balance less the sum of the live reservations. -/
def available (document : BudgetDocument) : Except HarnessError Decimal := do
  let reserved ← total (document.reservations.values.map (·.amountUsd.decimal))
  minus document.balanceUsd.decimal reserved

end BudgetDocument

/-- A stored ledger has passed its own validation. -/
structure Ledger where
  document : BudgetDocument
  valid : document.validate = .ok ()
deriving DecidableEq

namespace Ledger

def requireText (value fieldName : String) : Except HarnessError Unit :=
  refuseIf (value = "") (budgetError (fieldName ++ " must be non-empty"))

variable (fits : BudgetDocument → Bool)

/-- Publish a validated snapshot that is within the state ceilings. -/
def write (data : BudgetDocument) : Except HarnessError Ledger :=
  match checked : data.snapshot.validate with
  | .error e => .error e
  | .ok () =>
    if fits data.snapshot then .ok ⟨data.snapshot, checked⟩
    else .error (budgetError "budget state exceeds bounded canonical contract")

/-- A new ledger file. -/
def create (startingBalanceUsd : Decimal) : Except HarnessError Ledger := do
  let starting ← money startingBalanceUsd "starting_balance_usd"
  write fits
    { balanceUsd := starting.plain
      totalSpentUsd := Decimal.zero.plain
      totalEstimatedUsd := Decimal.zero.plain
      reservations := ∅
      reconciliations := ∅
      entries := [] }

def append (data : BudgetDocument) (entry : LedgerEntry) : Except HarnessError Ledger :=
  write fits { data with entries := data.entries ++ [entry] }

def balanceUsd (ledger : Ledger) : Except HarnessError Decimal := ledger.document.available

def reservationFor (ledger : Ledger) (actionId : String) : Except HarnessError Decimal := do
  requireText actionId "action_id"
  match ledger.document.reservations.lookup actionId with
  | some reservation => pure reservation.amountUsd.decimal
  | none => pure .zero

/-- The durable worst-case estimate for one authorized action. -/
def exposureFor (ledger : Ledger) (requestId actionId : String) : Except HarnessError Decimal := do
  requireText requestId "request_id"
  requireText actionId "action_id"
  match ledger.document.reservations.lookup actionId with
  | some reservation => do
    refuseIf (reservation.requestId ≠ requestId) (budgetError "reservation/request mismatch")
    pure reservation.amountUsd.decimal
  | none =>
    -- a reservation already closed is known by its entry, the latest first
    match ledger.document.entries.reverse.find? fun entry =>
        entry.kind == .reserve && entry.requestId == requestId && entry.actionId == actionId with
    | some entry => pure entry.amountUsd.decimal
    | none => pure .zero

/-- A durable prior debit amount, if execution already settled. -/
def priorDebitFor (ledger : Ledger) (requestId actionId : String) :
    Except HarnessError (Option Decimal) := do
  requireText requestId "request_id"
  requireText actionId "action_id"
  pure <| (ledger.document.entries.reverse.find? fun entry =>
    entry.kind == .debit && entry.requestId == requestId && entry.actionId == actionId).map
      (·.amountUsd.decimal)

def grant (ledger : Ledger) (amountUsd : Decimal) (note : String) (clock : Clock) :
    Except HarnessError (Update Ledger Decimal) := do
  let amount ← money amountUsd "grant amount"
  let data := ledger.document
  let balance ← plus data.balanceUsd.decimal amount
  let data := { data with balanceUsd := balance.plain }
  let available ← data.available
  let stored ← append fits data
    { kind := .grant, amountUsd := amount.plain, balanceAfterUsd := available.plain
      note := note, atTime := clock 0 }
  pure (.write stored available)

structure BudgetCheck where
  ok : Bool
  remainingUsd : Decimal
  estimateUsd : Decimal
  reason : String

def balanceCheck (estimate remaining : Decimal) : BudgetCheck :=
  if remaining.lt estimate then
    ⟨false, remaining, estimate, "worst-case estimate $" ++ fixedText 4 estimate ++
      " exceeds remaining budget $" ++ fixedText 4 remaining⟩
  else ⟨true, remaining, estimate, ""⟩

def preflight (ledger : Ledger) (worstCaseEstimateUsd : Decimal)
    (requestLimitUsd : Option Decimal) : Except HarnessError BudgetCheck := do
  let estimate ← money worstCaseEstimateUsd "worst_case_estimate_usd"
  let remaining ← ledger.balanceUsd
  match requestLimitUsd with
  | some limit => do
    let limit ← money limit "request_limit_usd"
    -- the request's own limit is told before the balance is looked at
    if limit.lt estimate then
      pure ⟨false, remaining, estimate, "worst-case estimate $" ++ fixedText 4 estimate ++
        " exceeds this request's limit $" ++ fixedText 4 limit⟩
    else pure (balanceCheck estimate remaining)
  | none => pure (balanceCheck estimate remaining)

/-- The part that `reserve` and `ensureReservation` share once the key is known to be free. -/
def addReservation (data : BudgetDocument) (amount : Decimal) (requestId actionId : String)
    (clock : Clock) : Except HarnessError Ledger := do
  let available ← data.available
  -- funds held for other actions are not available
  refuseIf (available.lt amount = true)
    (budgetError "cannot reserve more than the remaining balance")
  let data := { data with
    reservations := data.reservations.set actionId
      { requestId := requestId, amountUsd := amount.plain, createdAt := clock 0 } }
  let estimated ← plus data.totalEstimatedUsd.decimal amount
  let data := { data with totalEstimatedUsd := estimated.plain }
  let available ← data.available
  append fits data
    { kind := .reserve, amountUsd := amount.plain, balanceAfterUsd := available.plain
      requestId := requestId, actionId := actionId, atTime := clock 1 }

def reserve (ledger : Ledger) (amountUsd : Decimal) (requestId actionId : String)
    (clock : Clock) : Except HarnessError (Update Ledger Unit) := do
  let amount ← money amountUsd "reservation amount"
  requireText requestId "request_id"
  requireText actionId "action_id"
  refuseIf (amount.isZero = true) (budgetError "zero-value reservations are not recorded")
  let data := ledger.document
  refuseIf (actionId ∈ data.reservations)
    (budgetError ("action " ++ actionId ++ " already has a reservation"))
  let stored ← addReservation fits data amount requestId actionId clock
  pure (.write stored ())

/-- Create or recognize one exact reservation during journal recovery. -/
def ensureReservation (ledger : Ledger) (amountUsd : Decimal) (requestId actionId : String)
    (clock : Clock) : Except HarnessError (Update Ledger Unit) := do
  let amount ← money amountUsd "reservation amount"
  requireText requestId "request_id"
  requireText actionId "action_id"
  refuseIf (amount.isZero = true)
    (budgetError "journal reservation requires positive bound values")
  let data := ledger.document
  match data.reservations.lookup actionId with
  -- posted before the crash: it must be this reservation
  | some existing => do
    refuseIf (¬ (existing.requestId = requestId ∧ existing.amountUsd.decimal.eqv amount = true))
      (budgetError ("action " ++ actionId ++ " reservation conflicts with journal"))
    pure (.unchanged ())
  | none => do
    let stored ← addReservation fits data amount requestId actionId clock
    pure (.write stored ())

def popReservation (data : BudgetDocument) (requestId actionId : String) :
    Except HarnessError (BudgetDocument × Decimal) := do
  let reservation ← orRefuse (data.reservations.lookup actionId)
    (budgetError ("action " ++ actionId ++ " has no reservation"))
  refuseIf (reservation.requestId ≠ requestId) (budgetError "reservation/request mismatch")
  pure ({ data with reservations := data.reservations.erase actionId },
    reservation.amountUsd.decimal)

/-- Debit an actual cost, with the reservation already removed from `data`. -/
def debit (data : BudgetDocument) (actual reserved : Decimal) (requestId actionId : String)
    (completionRecordId : Option String) (clock : Clock) :
    Except HarnessError (Ledger × Decimal) := do
  let balance ← minus data.balanceUsd.decimal actual
  let spent ← plus data.totalSpentUsd.decimal actual
  let data := { data with balanceUsd := balance.plain, totalSpentUsd := spent.plain }
  let remaining ← data.available
  -- one JSONL-style entry and the document are saved together
  let stored ← append fits data
    { kind := .debit, amountUsd := actual.plain, balanceAfterUsd := remaining.plain
      requestId := requestId, actionId := actionId
      note := "reserved $" ++ reserved.plain.text
      atTime := clock 0, completionRecordId := completionRecordId }
  pure (stored, remaining)

def settle (ledger : Ledger) (actualUsd : Decimal) (requestId actionId : String)
    (clock : Clock) : Except HarnessError (Update Ledger Decimal) := do
  let actual ← money actualUsd "actual_usd"
  requireText requestId "request_id"
  requireText actionId "action_id"
  let (data, reserved) ← popReservation ledger.document requestId actionId
  let (stored, remaining) ← debit fits data actual reserved requestId actionId none clock
  pure (.write stored remaining)

/-- The entries that already disposed of an action's budget. -/
def dispositions (data : BudgetDocument) (requestId actionId : String) : List LedgerEntry :=
  data.entries.filter fun entry =>
    entry.requestId == requestId && entry.actionId == actionId &&
      (entry.kind == .debit || entry.kind == .release || entry.kind == .reconcile)

/-- Validate and return the available balance after an exact settlement. -/
def previewSettlement (ledger : Ledger) (expectedUsd actualUsd : Decimal)
    (requestId actionId : String) : Except HarnessError Decimal := do
  let expected ← money expectedUsd "expected reservation"
  let actual ← money actualUsd "actual settlement"
  requireText requestId "request_id"
  requireText actionId "action_id"
  let data := ledger.document
  refuseIf (dispositions data requestId actionId ≠ [])
    (budgetError "settlement conflicts with a prior budget disposition")
  -- only an action estimated at zero may settle without a reservation
  match data.reservations.lookup actionId with
  | none =>
    refuseIf (expected.isZero = false)
      (budgetError ("action " ++ actionId ++ " has no reservation"))
  | some reservation => do
    refuseIf (expected.isZero = true)
      (budgetError "zero-estimate settlement has an unexpected reservation")
    refuseIf (¬ (reservation.requestId = requestId ∧
        reservation.amountUsd.decimal.eqv expected = true))
      (budgetError "settlement reservation does not match authority")
  let available ← data.available
  -- the two steps round apart, which one subtraction from the balance would not
  let restored ← plus available expected
  minus restored actual

/-- Apply or recognize one exact journaled result settlement. -/
def ensureSettlement (ledger : Ledger) (expectedUsd actualUsd : Decimal)
    (requestId actionId completionRecordId : String) (clock : Clock) :
    Except HarnessError (Update Ledger Decimal) := do
  let expected ← money expectedUsd "expected reservation"
  let actual ← money actualUsd "actual settlement"
  requireText requestId "request_id"
  requireText actionId "action_id"
  requireText completionRecordId "completion_record_id"
  refuseIf (BudgetDocument.hasEvidencePrefix completionRecordId = false)
    (budgetError "settlement requires a terminal evidence record id")
  let data := ledger.document
  let prior := dispositions data requestId actionId
  match data.reservations.lookup actionId with
  | none =>
    let matching := prior.filter fun entry =>
      entry.kind == .debit && entry.amountUsd.decimal.eqv actual &&
        entry.note == "reserved $" ++ expected.plain.text &&
        entry.completionRecordId == some completionRecordId
    -- the completion has been settled before, so nothing is written
    if prior.length = 1 ∧ matching.length = 1 then do
      let available ← data.available
      pure (.unchanged available)
    else do
      refuseIf (prior ≠ []) (budgetError "settlement conflicts with a prior budget disposition")
      refuseIf (expected.isZero = false)
        (budgetError ("action " ++ actionId ++ " has no reservation or matching debit"))
      let (stored, remaining) ← debit fits data actual expected requestId actionId
        (some completionRecordId) clock
      pure (.write stored remaining)
  -- the reservation is dropped and its action's debit posted in one write
  | some reservation => do
    refuseIf (prior ≠ [])
      (budgetError "live reservation conflicts with a prior budget disposition")
    refuseIf (¬ (reservation.requestId = requestId ∧
        reservation.amountUsd.decimal.eqv expected = true))
      (budgetError "settlement reservation does not match authority")
    let data := { data with reservations := data.reservations.erase actionId }
    let (stored, remaining) ← debit fits data actual expected requestId actionId
      (some completionRecordId) clock
    pure (.write stored remaining)

/-- Give back a reservation that has been removed from `data`. -/
def giveBack (data : BudgetDocument) (reserved : Decimal) (requestId actionId : String)
    (clock : Clock) : Except HarnessError (Ledger × Decimal) := do
  -- the balance itself was never reduced by the reservation
  let estimated ← minus data.totalEstimatedUsd.decimal reserved
  let data := { data with totalEstimatedUsd := estimated.plain }
  let remaining ← data.available
  let stored ← append fits data
    { kind := .release, amountUsd := reserved.plain, balanceAfterUsd := remaining.plain
      requestId := requestId, actionId := actionId, note := "action did not execute"
      atTime := clock 0 }
  pure (stored, remaining)

def release (ledger : Ledger) (requestId actionId : String) (clock : Clock) :
    Except HarnessError (Update Ledger Decimal) := do
  requireText requestId "request_id"
  requireText actionId "action_id"
  let (data, reserved) ← popReservation ledger.document requestId actionId
  let (stored, remaining) ← giveBack fits data reserved requestId actionId clock
  pure (.write stored remaining)

/-- Release or recognize one exact journaled reservation disposition. -/
def ensureRelease (ledger : Ledger) (expectedUsd : Decimal) (requestId actionId : String)
    (clock : Clock) : Except HarnessError (Update Ledger Decimal) := do
  let expected ← money expectedUsd "expected reservation"
  requireText requestId "request_id"
  requireText actionId "action_id"
  if expected.isZero then do
    -- nothing was reserved, and the call only reads
    let available ← ledger.balanceUsd
    pure (.unchanged available)
  else
    let data := ledger.document
    match data.reservations.lookup actionId with
    | none => do
      refuseIf (data.entries.filter (fun entry =>
          entry.kind == .release && entry.requestId == requestId && entry.actionId == actionId &&
            entry.amountUsd.decimal.eqv expected) = [])
        (budgetError ("action " ++ actionId ++ " has no reservation or matching release"))
      let available ← data.available
      pure (.unchanged available)
    | some reservation => do
      refuseIf (¬ (reservation.requestId = requestId ∧
          reservation.amountUsd.decimal.eqv expected = true))
        (budgetError ("action " ++ actionId ++ " reservation conflicts with journal"))
      let (data, reserved) ← popReservation data requestId actionId
      let (stored, remaining) ← giveBack fits data reserved requestId actionId clock
      pure (.write stored remaining)

inductive PriorDisposition where
  | debit | release | none
deriving DecidableEq, Repr

/-- The latest debit or release of an action. -/
def latestBudgetDisposition (entries : List LedgerEntry) (requestId actionId : String) :
    PriorDisposition :=
  match entries.reverse.find? fun entry =>
      entry.requestId == requestId && entry.actionId == actionId &&
        (entry.kind == .debit || entry.kind == .reconcileDebit || entry.kind == .release ||
          entry.kind == .reconcileRelease) with
  | some entry =>
    if entry.kind = .debit ∨ entry.kind = .reconcileDebit then .debit else .release
  | none => .none

/-- What an outcome charges and releases, from the reservation and the prior disposition. -/
def reconcileCharge (outcome : Outcome) (reserved : Option Decimal) (prior : PriorDisposition)
    (expected : Decimal) : Decimal × Decimal × Disposition :=
  match outcome, reserved with
  | .notExecuted, some amount => (.zero, amount, .reservationReleased)
  -- nothing is held: a debit already posted stands, whatever the operator found
  | .notExecuted, none =>
    if prior = .debit then (.zero, .zero, .priorDebitPreserved)
    else (.zero, .zero, .noLiveReservation)
  | _, some amount => (amount, .zero, .reservationCharged)
  | _, none =>
    if prior = .debit then (.zero, .zero, .priorDebitPreserved)
    -- an unknown or executed outcome without its reservation is charged at the estimate
    else if Decimal.zero.lt expected then (expected, .zero, .missingReservationCharged)
    else (.zero, .zero, .noBudgetExposure)

/-- Remove a live reservation that matches the authority's expectation. -/
def takeReservation (data : BudgetDocument) (expected : Decimal) (requestId actionId : String) :
    Except HarnessError (BudgetDocument × Option Decimal) :=
  match data.reservations.lookup actionId with
  -- a missing reservation is no fault here: the caller decides by the prior disposition
  | none => pure (data, none)
  | some reservation => do
    refuseIf (reservation.requestId ≠ requestId) (budgetError "reservation/request mismatch")
    refuseIf (reservation.amountUsd.decimal.eqv expected = false)
      (budgetError "authority and ledger reservation amounts do not match")
    pure ({ data with reservations := data.reservations.erase actionId },
      some reservation.amountUsd.decimal)

def lowerEstimate (data : BudgetDocument) (disposition : Disposition) (released : Decimal) :
    Except HarnessError BudgetDocument :=
  if disposition = .reservationReleased then do
    let estimated ← minus data.totalEstimatedUsd.decimal released
    pure { data with totalEstimatedUsd := estimated.plain }
  else pure data

def chargeTotals (data : BudgetDocument) (charged : Decimal) :
    Except HarnessError BudgetDocument :=
  if Decimal.zero.lt charged then do
    let balance ← minus data.balanceUsd.decimal charged
    let spent ← plus data.totalSpentUsd.decimal charged
    pure { data with balanceUsd := balance.plain, totalSpentUsd := spent.plain }
  else pure data

/-- Resolve an uncertain execution budget exactly once. -/
def reconcileReservation (ledger : Ledger) (expectedUsd : Decimal) (requestId actionId : String)
    (outcome : Outcome) (reconciledBy note : String) (authority : Option LedgerAuthority)
    (clock : Clock) : Except HarnessError (Update Ledger Reconciliation) := do
  let expected ← money expectedUsd "reconciliation expected_usd"
  requireText requestId "request_id"
  requireText actionId "action_id"
  let reconciledBy := strip reconciledBy
  requireText reconciledBy "reconciled_by"
  let note := strip note
  requireText note "reconciliation note"
  let data := ledger.document
  refuseIf (∃ sealedAuthority ∈ authority,
      sealedAuthority.recordId = "" ∨ sealedAuthority.recordHash = "")
    (budgetError "authorization reconciliation requires sealed authority ids")
  let supplied : ReconciliationInput :=
    { requestId := requestId, outcome := outcome, reconciledBy := reconciledBy, note := note
      expectedUsd := expected.plain, authority := authority }
  match data.reconciliations.lookup actionId with
  | some existing => do
    -- a marker with authority keys also matches a caller that supplies none
    refuseIf (¬ ({ existing.supplied with authority := none } =
        { supplied with authority := none } ∧
        (authority.isSome → existing.supplied.authority = authority)))
      (budgetError "budget reconciliation already exists with different input")
    pure (.unchanged existing)
  | none => do
    let (data, reserved) ← takeReservation data expected requestId actionId
    let prior := latestBudgetDisposition data.entries requestId actionId
    refuseIf (reserved.isSome = true ∧ prior ≠ .none)
      (budgetError "live reservation conflicts with a prior terminal budget entry")
    let (charged, released, disposition) := reconcileCharge outcome reserved prior expected
    let data ← lowerEstimate data disposition released
    let data ← chargeTotals data charged
    let remaining ← data.available
    let reconciliation : Reconciliation :=
      { supplied := supplied
        chargedUsd := charged.plain
        releasedUsd := released.plain
        disposition := disposition
        remainingUsd := remaining.plain
        atTime := clock 0 }
    let stored ← append fits
      { data with reconciliations := data.reconciliations.set actionId reconciliation }
      { kind := .reconcile
        amountUsd := if Decimal.zero.lt charged then charged.plain else released.plain
        balanceAfterUsd := remaining.plain
        requestId := requestId, actionId := actionId
        note := outcome.text ++ " by " ++ reconciledBy ++ "; " ++ disposition.text ++
          "; operator note: " ++ note
        atTime := clock 1 }
    pure (.write stored reconciliation)

end Ledger
end DefiantHarness
