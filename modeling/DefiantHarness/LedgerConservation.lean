import DefiantHarness.Ledger

/-! Conservation of money over runs of ledger calls, under exact arithmetic. -/
namespace DefiantHarness

open Foundation

namespace BudgetDocument

/-- The sum of the live reservations. -/
def live (reservations : Dict String Reservation) : ℚ :=
  (reservations.values.map (·.amountUsd.decimal.value)).sum

def postedAmounts (kind : EntryKind) (entries : List LedgerEntry) : ℚ :=
  ((entries.filter (·.kind == kind)).map (·.amountUsd.decimal.value)).sum

def charged (reconciliations : Dict String Reconciliation) : ℚ :=
  (reconciliations.values.map (·.chargedUsd.decimal.value)).sum

/-- Balance less live reservations, as rational numbers. -/
def exactAvailable (document : BudgetDocument) : ℚ :=
  document.balanceUsd.decimal.value - live document.reservations

/-- The sums that computing the available balance goes through are representable, in the order
of the dictionary and in the order of its keys. -/
structure ExactView (balance : ℚ) (reservations : Dict String Reservation) : Prop where
  inMemory : Decimal.PartialSums defaultContext 0
    (reservations.values.map (·.amountUsd.decimal.value))
  reread : Decimal.PartialSums defaultContext 0
    (reservations.sorted.values.map (·.amountUsd.decimal.value))
  difference : defaultContext.Representable (balance - live reservations)

theorem live_set {reservations : Dict String Reservation} {actionId : String}
    (fresh : actionId ∉ reservations) (reservation : Reservation) :
    live (reservations.set actionId reservation) =
      live reservations + reservation.amountUsd.decimal.value := by
  simp [live, Dict.set_values_of_absent fresh]

@[simp] theorem live_sorted (reservations : Dict String Reservation) :
    live reservations.sorted = live reservations :=
  ((Dict.sorted_values_perm reservations).map _).sum_eq

@[simp] theorem charged_sorted (reconciliations : Dict String Reconciliation) :
    charged reconciliations.sorted = charged reconciliations :=
  ((Dict.sorted_values_perm reconciliations).map _).sum_eq

@[simp] theorem charged_empty : charged ∅ = 0 := rfl

theorem charged_set {reconciliations : Dict String Reconciliation} {actionId : String}
    (fresh : actionId ∉ reconciliations) (reconciliation : Reconciliation) :
    charged (reconciliations.set actionId reconciliation) =
      charged reconciliations + reconciliation.chargedUsd.decimal.value := by
  simp [charged, Dict.set_values_of_absent fresh]

theorem postedAmounts_append (kind : EntryKind) (entries : List LedgerEntry) (entry : LedgerEntry) :
    postedAmounts kind (entries ++ [entry]) = postedAmounts kind entries +
      if entry.kind = kind then entry.amountUsd.decimal.value else 0 := by
  by_cases same : entry.kind = kind <;> simp [postedAmounts, List.filter_append, same]

private theorem available_of_sums {document : BudgetDocument}
    (sums : Decimal.PartialSums defaultContext 0
      (document.reservations.values.map (·.amountUsd.decimal.value)))
    (difference : defaultContext.Representable document.exactAvailable) :
    ∃ a, document.available = .ok a ∧ a.value = document.exactAvailable := by
  obtain ⟨reserved, sum, value⟩ := total_exact
    (document.reservations.values.map (·.amountUsd.decimal))
    (by simpa [List.map_map, Function.comp_def] using sums)
  have live : reserved.value = live document.reservations := by
    simpa [BudgetDocument.live, List.map_map, Function.comp_def] using value
  obtain ⟨a, subtracted, equal⟩ := minus_exact (a := document.balanceUsd.decimal) (b := reserved)
    (by simpa [live, exactAvailable] using difference)
  refine ⟨a, ?_, by rw [equal, live, exactAvailable]⟩
  simp [available, sum, subtracted]

/-- An exact view computes the exact available balance, before the file is written. -/
theorem available_exact {document : BudgetDocument}
    (view : ExactView document.balanceUsd.decimal.value document.reservations) :
    ∃ a, document.available = .ok a ∧ a.value = document.exactAvailable :=
  available_of_sums view.inMemory view.difference

/-- And again when the file is read back. -/
theorem available_reread (document : BudgetDocument)
    (view : ExactView document.balanceUsd.decimal.value document.reservations) :
    ∃ a, document.snapshot.available = .ok a ∧ a.value = document.exactAvailable := by
  have same : document.snapshot.exactAvailable = document.exactAvailable := by
    simp [exactAvailable, snapshot]
  rw [← same]
  exact available_of_sums view.reread (by rw [same]; exact view.difference)

theorem available_value {document : BudgetDocument} {a : Decimal}
    (view : ExactView document.balanceUsd.decimal.value document.reservations)
    (computed : document.available = .ok a) : a.value = document.exactAvailable := by
  obtain ⟨b, again, value⟩ := available_exact view
  rw [computed] at again
  cases again
  exact value

/-- The books balance: balances and totals are the exact sums over the postings, and every entry
recorded the exact available balance of its time. -/
structure Conserved (starting : ℚ) (document : BudgetDocument) (history : List ℚ) : Prop where
  balance : document.balanceUsd.decimal.value = starting + postedAmounts .grant document.entries -
    postedAmounts .debit document.entries - charged document.reconciliations
  spent : document.totalSpentUsd.decimal.value = postedAmounts .debit document.entries +
    charged document.reconciliations
  available : ∃ a, document.available = .ok a ∧
    a.value = document.balanceUsd.decimal.value - live document.reservations
  entries : document.entries.map (·.balanceAfterUsd.decimal.value) = history

/-- One posting: `data` is the document before the entry is appended to it. -/
structure Posting (before data : BudgetDocument) (entry : LedgerEntry) (charge : ℚ) : Prop where
  entries : data.entries = before.entries
  balance : data.balanceUsd.decimal.value = before.balanceUsd.decimal.value +
    (if entry.kind = .grant then entry.amountUsd.decimal.value else 0) -
    (if entry.kind = .debit then entry.amountUsd.decimal.value else 0) - charge
  spent : data.totalSpentUsd.decimal.value = before.totalSpentUsd.decimal.value +
    (if entry.kind = .debit then entry.amountUsd.decimal.value else 0) + charge
  charges : charged data.reconciliations = charged before.reconciliations + charge
  view : ExactView data.balanceUsd.decimal.value data.reservations
  after : entry.balanceAfterUsd.decimal.value = data.exactAvailable

end BudgetDocument

namespace Ledger

open BudgetDocument

variable {fits : BudgetDocument → Bool}

theorem write_document {data : BudgetDocument} {ledger : Ledger}
    (written : write fits data = .ok ledger) : ledger.document = data.snapshot := by
  unfold write at written
  split at written
  next => cases written
  next =>
    split at written
    next =>
      cases written
      rfl
    next => cases written

theorem append_document {data : BudgetDocument} {entry : LedgerEntry} {ledger : Ledger}
    (written : append fits data entry = .ok ledger) :
    ledger.document = { data with entries := data.entries ++ [entry] }.snapshot :=
  write_document written

/-- A posting on balanced books leaves balanced books. -/
theorem conserved_append {starting charge : ℚ} {history : List ℚ} {before data : BudgetDocument}
    {entry : LedgerEntry} {ledger : Ledger} (conserved : Conserved starting before history)
    (posting : Posting before data entry charge) (stored : append fits data entry = .ok ledger) :
    Conserved starting ledger.document (history ++ [ledger.document.exactAvailable]) := by
  have document := append_document stored
  rw [document]
  obtain ⟨a, computed, value⟩ := available_reread
    { data with entries := data.entries ++ [entry] } posting.view
  have exact : ({ data with entries := data.entries ++ [entry] } : BudgetDocument).snapshot.exactAvailable =
      data.exactAvailable := by simp [snapshot, exactAvailable]
  constructor
  · simp only [snapshot, postedAmounts_append, charged_sorted, posting.entries, posting.charges]
    rw [posting.balance, conserved.balance]
    ring
  · simp only [snapshot, postedAmounts_append, charged_sorted, posting.entries, posting.charges]
    rw [posting.spent, conserved.spent]
    ring
  · refine ⟨a, computed, value.trans ?_⟩
    simp [snapshot, exactAvailable]
  · rw [exact, ← posting.after, ← conserved.entries]
    simp [snapshot, posting.entries]

/-! ### What each operation posts -/

/-- The outcome of a call: the books stay, or one posting is appended to them. -/
def Posts (fits : BudgetDocument → Bool) (before : BudgetDocument) (written : Option Ledger) : Prop :=
  written = none ∨ ∃ data entry charge ledger, Posting before data entry charge ∧
    append fits data entry = .ok ledger ∧ written = some ledger

theorem grant_posts {ledger : Ledger} {amountUsd : Decimal} {note : String} {clock : Clock}
    {update : Update Ledger Decimal}
    (sum : defaultContext.Representable
      (ledger.document.balanceUsd.decimal.value + amountUsd.value))
    (view : ExactView (ledger.document.balanceUsd.decimal.value + amountUsd.value)
      ledger.document.reservations)
    (granted : ledger.grant fits amountUsd note clock = .ok update) :
    Posts fits ledger.document update.written := by
  simp only [grant, bind_ok_iff, money_ok_iff, pure_eq_ok, Except.ok.injEq] at granted
  obtain ⟨_, ⟨rfl, -⟩, balance, added, available, computed, stored, appended, rfl⟩ := granted
  obtain ⟨exact, again, value⟩ := plus_exact sum
  rw [added] at again
  cases again
  refine .inr ⟨_, _, 0, stored, ?_, appended, rfl⟩
  have exactView : ExactView balance.plain.decimal.value ledger.document.reservations := by
    rwa [Decimal.plain_value, value]
  constructor
  · rfl
  · simp [Decimal.plain_value, value]
  · simp
  · simp
  · exact exactView
  · rw [Decimal.plain_value]
    exact available_value exactView computed

private theorem addReservation_posting {before : BudgetDocument} {amount : Decimal}
    {requestId actionId : String} {clock : Clock} {ledger : Ledger}
    (view : ExactView before.balanceUsd.decimal.value
      (before.reservations.set actionId ⟨requestId, amount.plain, clock 0⟩))
    (added : addReservation fits before amount requestId actionId clock = .ok ledger) :
    ∃ data entry, Posting before data entry 0 ∧ append fits data entry = .ok ledger := by
  simp only [addReservation, bind_ok_iff, refuseIf_ok_iff] at added
  obtain ⟨_, -, -, -, estimated, -, available, computed, appended⟩ := added
  refine ⟨_, _, ?_, appended⟩
  constructor
  · rfl
  · simp
  · simp
  · simp
  · exact view
  · rw [Decimal.plain_value]
    exact available_value view computed

theorem reserve_posts {ledger : Ledger} {amountUsd : Decimal} {requestId actionId : String}
    {clock : Clock} {update : Update Ledger Unit}
    (view : ExactView ledger.document.balanceUsd.decimal.value
      (ledger.document.reservations.set actionId ⟨requestId, amountUsd.plain, clock 0⟩))
    (reserved : ledger.reserve fits amountUsd requestId actionId clock = .ok update) :
    Posts fits ledger.document update.written := by
  simp only [reserve, bind_ok_iff, money_ok_iff, refuseIf_ok_iff, pure_eq_ok,
    Except.ok.injEq] at reserved
  obtain ⟨_, ⟨rfl, -⟩, -, -, -, -, -, -, -, -, stored, added, rfl⟩ := reserved
  obtain ⟨data, entry, posting, appended⟩ := addReservation_posting view added
  exact .inr ⟨data, entry, 0, stored, posting, appended, rfl⟩

theorem ensureReservation_posts {ledger : Ledger} {amountUsd : Decimal}
    {requestId actionId : String} {clock : Clock} {update : Update Ledger Unit}
    (view : actionId ∉ ledger.document.reservations →
      ExactView ledger.document.balanceUsd.decimal.value
        (ledger.document.reservations.set actionId ⟨requestId, amountUsd.plain, clock 0⟩))
    (reserved : ledger.ensureReservation fits amountUsd requestId actionId clock = .ok update) :
    Posts fits ledger.document update.written := by
  simp only [ensureReservation, bind_ok_iff, money_ok_iff, refuseIf_ok_iff] at reserved
  obtain ⟨_, ⟨rfl, -⟩, -, -, -, -, -, -, reserved⟩ := reserved
  split at reserved
  next =>
    simp only [bind_ok_iff, pure_eq_ok, Except.ok.injEq] at reserved
    obtain ⟨-, -, rfl⟩ := reserved
    exact .inl rfl
  next absent =>
    simp only [bind_ok_iff, pure_eq_ok, Except.ok.injEq] at reserved
    obtain ⟨stored, added, rfl⟩ := reserved
    obtain ⟨data, entry, posting, appended⟩ :=
      addReservation_posting (view (AList.lookup_eq_none.1 absent)) added
    exact .inr ⟨data, entry, 0, stored, posting, appended, rfl⟩

/-- A debit of `actual` leaves exact totals and an exact view of the remaining reservations. -/
structure ExactDebit (before : BudgetDocument) (actual : ℚ)
    (reservations : Dict String Reservation) : Prop where
  balance : defaultContext.Representable (before.balanceUsd.decimal.value - actual)
  spent : defaultContext.Representable (before.totalSpentUsd.decimal.value + actual)
  view : ExactView (before.balanceUsd.decimal.value - actual) reservations

private theorem debit_posting {before : BudgetDocument} {reservations : Dict String Reservation}
    {actual reserved : Decimal} {requestId actionId : String} {completion : Option String}
    {clock : Clock} {outcome : Ledger × Decimal}
    (exact : ExactDebit before actual.value reservations)
    (debited : debit fits { before with reservations := reservations } actual reserved requestId
      actionId completion clock = .ok outcome) :
    ∃ data entry, Posting before data entry 0 ∧ append fits data entry = .ok outcome.1 := by
  simp only [debit, bind_ok_iff, pure_eq_ok, Except.ok.injEq] at debited
  obtain ⟨balance, subtracted, spent, added, remaining, computed, stored, appended, rfl⟩ := debited
  obtain ⟨_, again, value⟩ := minus_exact exact.balance
  rw [subtracted] at again
  cases again
  obtain ⟨_, again, total⟩ := plus_exact exact.spent
  rw [added] at again
  cases again
  have view : ExactView balance.plain.decimal.value reservations := by
    rw [Decimal.plain_value, value]
    exact exact.view
  refine ⟨_, _, ?_, appended⟩
  constructor
  · rfl
  · simp [Decimal.plain_value, value]
  · simp [Decimal.plain_value, total]
  · simp
  · exact view
  · rw [Decimal.plain_value]
    exact available_value view computed

private theorem popReservation_ok {data : BudgetDocument} {requestId actionId : String}
    {popped : BudgetDocument × Decimal}
    (taken : popReservation data requestId actionId = .ok popped) :
    popped.1 = { data with reservations := data.reservations.erase actionId } := by
  simp only [popReservation, bind_ok_iff, pure_eq_ok, Except.ok.injEq] at taken
  obtain ⟨_, -, -, -, rfl⟩ := taken
  rfl

theorem settle_posts {ledger : Ledger} {actualUsd : Decimal} {requestId actionId : String}
    {clock : Clock} {update : Update Ledger Decimal}
    (exact : ExactDebit ledger.document actualUsd.value
      (ledger.document.reservations.erase actionId))
    (settled : ledger.settle fits actualUsd requestId actionId clock = .ok update) :
    Posts fits ledger.document update.written := by
  simp only [settle, bind_ok_iff, money_ok_iff, pure_eq_ok, Except.ok.injEq] at settled
  obtain ⟨_, ⟨rfl, -⟩, -, -, -, -, popped, taken, outcome, debited, rfl⟩ := settled
  rw [popReservation_ok taken] at debited
  obtain ⟨data, entry, posting, appended⟩ := debit_posting exact debited
  exact .inr ⟨data, entry, 0, outcome.1, posting, appended, rfl⟩

private theorem erase_absent {reservations : Dict String Reservation} {actionId : String}
    (absent : reservations.lookup actionId = none) : reservations.erase actionId = reservations :=
  AList.ext (List.kerase_of_notMem_keys (AList.lookup_eq_none.1 absent))

theorem ensureSettlement_posts {ledger : Ledger} {expectedUsd actualUsd : Decimal}
    {requestId actionId completionRecordId : String} {clock : Clock}
    {update : Update Ledger Decimal}
    (exact : dispositions ledger.document requestId actionId = [] →
      ExactDebit ledger.document actualUsd.value (ledger.document.reservations.erase actionId))
    (settled : ledger.ensureSettlement fits expectedUsd actualUsd requestId actionId
      completionRecordId clock = .ok update) :
    Posts fits ledger.document update.written := by
  simp only [ensureSettlement, bind_ok_iff, money_ok_iff, refuseIf_ok_iff] at settled
  obtain ⟨_, ⟨rfl, -⟩, _, ⟨rfl, -⟩, -, -, -, -, -, -, -, -, settled⟩ := settled
  split at settled
  next absent =>
    split at settled
    next =>
      simp only [bind_ok_iff, pure_eq_ok, Except.ok.injEq] at settled
      obtain ⟨_, -, rfl⟩ := settled
      exact .inl rfl
    next =>
      simp only [bind_ok_iff, refuseIf_ok_iff, not_not, pure_eq_ok, Except.ok.injEq] at settled
      obtain ⟨-, first, -, -, outcome, debited, rfl⟩ := settled
      have exact := exact first
      -- `ExactDebit` is about the reservations without this action's, which has none
      rw [erase_absent absent] at exact
      obtain ⟨data, entry, posting, appended⟩ := debit_posting exact debited
      exact .inr ⟨data, entry, 0, outcome.1, posting, appended, rfl⟩
  next =>
    simp only [bind_ok_iff, refuseIf_ok_iff, not_not, pure_eq_ok, Except.ok.injEq] at settled
    obtain ⟨-, first, -, -, outcome, debited, rfl⟩ := settled
    obtain ⟨data, entry, posting, appended⟩ := debit_posting (exact first) debited
    exact .inr ⟨data, entry, 0, outcome.1, posting, appended, rfl⟩

private theorem giveBack_posting {before : BudgetDocument} {reservations : Dict String Reservation}
    {reserved : Decimal} {requestId actionId : String} {clock : Clock}
    {outcome : Ledger × Decimal}
    (view : ExactView before.balanceUsd.decimal.value reservations)
    (given : giveBack fits { before with reservations := reservations } reserved requestId actionId
      clock = .ok outcome) :
    ∃ data entry, Posting before data entry 0 ∧ append fits data entry = .ok outcome.1 := by
  simp only [giveBack, bind_ok_iff, pure_eq_ok, Except.ok.injEq] at given
  obtain ⟨estimated, -, remaining, computed, stored, appended, rfl⟩ := given
  refine ⟨_, _, ?_, appended⟩
  constructor
  · rfl
  · simp
  · simp
  · simp
  · exact view
  · rw [Decimal.plain_value]
    exact available_value view computed

theorem release_posts {ledger : Ledger} {requestId actionId : String} {clock : Clock}
    {update : Update Ledger Decimal}
    (view : ExactView ledger.document.balanceUsd.decimal.value
      (ledger.document.reservations.erase actionId))
    (released : ledger.release fits requestId actionId clock = .ok update) :
    Posts fits ledger.document update.written := by
  simp only [release, bind_ok_iff, pure_eq_ok, Except.ok.injEq] at released
  obtain ⟨-, -, -, -, popped, taken, outcome, given, rfl⟩ := released
  rw [popReservation_ok taken] at given
  obtain ⟨data, entry, posting, appended⟩ := giveBack_posting view given
  exact .inr ⟨data, entry, 0, outcome.1, posting, appended, rfl⟩

theorem ensureRelease_posts {ledger : Ledger} {expectedUsd : Decimal}
    {requestId actionId : String} {clock : Clock} {update : Update Ledger Decimal}
    (view : expectedUsd.isZero = false → actionId ∈ ledger.document.reservations →
      ExactView ledger.document.balanceUsd.decimal.value
        (ledger.document.reservations.erase actionId))
    (released : ledger.ensureRelease fits expectedUsd requestId actionId clock = .ok update) :
    Posts fits ledger.document update.written := by
  simp only [ensureRelease, bind_ok_iff, money_ok_iff] at released
  obtain ⟨_, ⟨rfl, -⟩, -, -, -, -, released⟩ := released
  split at released
  next =>
    simp only [bind_ok_iff, pure_eq_ok, Except.ok.injEq] at released
    obtain ⟨_, -, rfl⟩ := released
    exact .inl rfl
  -- only a positive amount looks at the reservations
  next positive =>
    split at released
    next =>
      simp only [bind_ok_iff, pure_eq_ok, Except.ok.injEq] at released
      obtain ⟨-, -, _, -, rfl⟩ := released
      exact .inl rfl
    next present =>
      simp only [bind_ok_iff, pure_eq_ok, Except.ok.injEq] at released
      obtain ⟨-, -, popped, taken, outcome, given, rfl⟩ := released
      rw [popReservation_ok taken] at given
      have member : actionId ∈ ledger.document.reservations :=
        AList.lookup_isSome.1 (by rw [present]; rfl)
      obtain ⟨data, entry, posting, appended⟩ :=
        giveBack_posting (view (by simpa using positive) member) given
      exact .inr ⟨data, entry, 0, outcome.1, posting, appended, rfl⟩

/-- Validation keeps every live reservation positive. -/
theorem reservation_positive {ledger : Ledger} {actionId : String} {reservation : Reservation}
    (found : ledger.document.reservations.lookup actionId = some reservation) :
    0 < reservation.amountUsd.decimal.value := by
  have valid := ledger.valid
  simp only [validate, bind_ok_iff, checkAll_ok_iff] at valid
  obtain ⟨-, checked, -⟩ := valid
  have item := checked ⟨actionId, reservation⟩ (AList.mem_lookup_iff.1 found)
  simp only [checkReservation, bind_ok_iff, refuseIf_ok_iff, money_ok_iff] at item
  obtain ⟨-, -, _, ⟨rfl, nonneg⟩, -, positive, -⟩ := item
  refine lt_of_le_of_ne nonneg fun zero => positive ?_
  rw [Decimal.isZero_iff]
  exact zero.symm

/-- What a first reconciliation of an action would charge. -/
def plannedCharge (document : BudgetDocument) (expectedUsd : Decimal) (requestId actionId : String)
    (outcome : Outcome) : Decimal :=
  (reconcileCharge outcome ((document.reservations.lookup actionId).map (·.amountUsd.decimal))
    (latestBudgetDisposition document.entries requestId actionId) expectedUsd).1

theorem plannedCharge_nonneg (ledger : Ledger) (expectedUsd : Decimal) (requestId actionId : String)
    (outcome : Outcome) :
    0 ≤ (plannedCharge ledger.document expectedUsd requestId actionId outcome).value := by
  unfold plannedCharge
  cases found : ledger.document.reservations.lookup actionId with
  | some reservation =>
    have positive := reservation_positive found
    cases outcome <;> simp [reconcileCharge, positive.le]
  | none =>
    cases outcome
    case notExecuted => simp only [reconcileCharge, Option.map_none]; split <;> simp
    all_goals
      simp only [reconcileCharge, Option.map_none, Decimal.lt_iff, Decimal.zero_value]
      split
      next => simp
      next => split <;> simp [le_of_lt, *]

/-- A charge leaves exact totals; no charge only needs an exact view. -/
structure ExactCharge (before : BudgetDocument) (charge : ℚ)
    (reservations : Dict String Reservation) : Prop where
  totals : 0 < charge → defaultContext.Representable (before.balanceUsd.decimal.value - charge) ∧
    defaultContext.Representable (before.totalSpentUsd.decimal.value + charge)
  view : ExactView (before.balanceUsd.decimal.value - charge) reservations

private theorem takeReservation_ok {data : BudgetDocument} {expected : Decimal}
    {requestId actionId : String} {taken : BudgetDocument × Option Decimal}
    (ok : takeReservation data expected requestId actionId = .ok taken) :
    taken.1 = { data with reservations := data.reservations.erase actionId } ∧
      taken.2 = (data.reservations.lookup actionId).map (·.amountUsd.decimal) := by
  unfold takeReservation at ok
  split at ok
  next absent =>
    cases ok
    rw [erase_absent absent, absent]
    exact ⟨rfl, rfl⟩
  next present =>
    simp only [bind_ok_iff, pure_eq_ok, Except.ok.injEq] at ok
    obtain ⟨-, -, -, -, rfl⟩ := ok
    rw [present]
    exact ⟨rfl, rfl⟩

private theorem lowerEstimate_ok {before data : BudgetDocument} {disposition : Disposition}
    {released : Decimal} (lowered : lowerEstimate before disposition released = .ok data) :
    data = { before with totalEstimatedUsd := data.totalEstimatedUsd } := by
  unfold lowerEstimate at lowered
  split at lowered
  next =>
    simp only [bind_ok_iff, pure_eq_ok, Except.ok.injEq] at lowered
    obtain ⟨_, -, rfl⟩ := lowered
    rfl
  next =>
    cases lowered
    rfl

/-- Taking the charge from the totals, when there is one. -/
private theorem chargeTotals_ok {before data : BudgetDocument} {charge : Decimal}
    (nonneg : 0 ≤ charge.value)
    (totals : 0 < charge.value →
      defaultContext.Representable (before.balanceUsd.decimal.value - charge.value) ∧
        defaultContext.Representable (before.totalSpentUsd.decimal.value + charge.value))
    (taken : chargeTotals before charge = .ok data) :
    data.balanceUsd.decimal.value = before.balanceUsd.decimal.value - charge.value ∧
      data.totalSpentUsd.decimal.value = before.totalSpentUsd.decimal.value + charge.value ∧
      data = { before with balanceUsd := data.balanceUsd, totalSpentUsd := data.totalSpentUsd } := by
  unfold chargeTotals at taken
  split at taken
  next positive =>
    rw [Decimal.lt_iff, Decimal.zero_value] at positive
    obtain ⟨difference, sum⟩ := totals positive
    obtain ⟨balance, subtracted, value⟩ := minus_exact difference
    obtain ⟨spent, added, spentValue⟩ := plus_exact sum
    simp only [subtracted, added, ok_bind, pure_eq_ok, Except.ok.injEq] at taken
    subst taken
    exact ⟨by rw [Decimal.plain_value, value], by rw [Decimal.plain_value, spentValue], rfl⟩
  next none =>
    rw [Decimal.lt_iff, Decimal.zero_value] at none
    have zero : charge.value = 0 := le_antisymm (not_lt.1 none) nonneg
    cases taken
    exact ⟨by rw [zero, sub_zero], by rw [zero, add_zero], rfl⟩

theorem reconcileReservation_posts {ledger : Ledger} {expectedUsd : Decimal}
    {requestId actionId : String} {outcome : Outcome} {reconciledBy note : String}
    {authority : Option LedgerAuthority} {clock : Clock} {update : Update Ledger Reconciliation}
    (exact : actionId ∉ ledger.document.reconciliations →
      ExactCharge ledger.document
        (plannedCharge ledger.document expectedUsd requestId actionId outcome).value
        (ledger.document.reservations.erase actionId))
    (reconciled : ledger.reconcileReservation fits expectedUsd requestId actionId outcome
      reconciledBy note authority clock = .ok update) :
    Posts fits ledger.document update.written := by
  simp only [reconcileReservation, bind_ok_iff, money_ok_iff, refuseIf_ok_iff] at reconciled
  obtain ⟨_, ⟨rfl, -⟩, -, -, -, -, -, -, -, -, -, -, reconciled⟩ := reconciled
  split at reconciled
  next =>
    simp only [bind_ok_iff, pure_eq_ok, Except.ok.injEq] at reconciled
    obtain ⟨-, -, rfl⟩ := reconciled
    exact .inl rfl
  next absent =>
    simp only [bind_ok_iff, refuseIf_ok_iff, pure_eq_ok, Except.ok.injEq] at reconciled
    obtain ⟨⟨base, reserved⟩, taken, -, -, lowered, estimate, data, totals, remaining, computed,
      stored, appended, rfl⟩ := reconciled
    obtain ⟨baseShape, reservedShape⟩ := takeReservation_ok taken
    have loweredShape := lowerEstimate_ok estimate
    simp only at baseShape reservedShape
    subst baseShape reservedShape
    have fresh := AList.lookup_eq_none.1 absent
    have exact := exact fresh
    have nonneg := plannedCharge_nonneg ledger expectedUsd requestId actionId outcome
    -- the totals move by the planned charge exactly, or not at all when it is zero
    obtain ⟨balance, spent, shape⟩ := chargeTotals_ok nonneg
      (by rw [loweredShape]; exact exact.totals) totals
    rw [loweredShape] at balance spent shape
    have view : ExactView data.balanceUsd.decimal.value data.reservations := by
      rw [balance, shape]
      exact exact.view
    refine .inr ⟨_, _, (plannedCharge ledger.document expectedUsd requestId actionId outcome).value,
      stored, ?_, appended, rfl⟩
    constructor
    · rw [shape]
    · simpa using balance
    · simpa using spent
    · rw [shape]
      simp only [charged_set fresh, Decimal.plain_value]
      rfl
    · exact view
    · rw [Decimal.plain_value]
      exact available_value view computed

end Ledger

/-! ### Runs -/

inductive LedgerCall where
  | grant (amountUsd : Decimal) (note : String)
  | reserve (amountUsd : Decimal) (requestId actionId : String)
  | ensureReservation (amountUsd : Decimal) (requestId actionId : String)
  | settle (actualUsd : Decimal) (requestId actionId : String)
  | ensureSettlement (expectedUsd actualUsd : Decimal)
      (requestId actionId completionRecordId : String)
  | release (requestId actionId : String)
  | ensureRelease (expectedUsd : Decimal) (requestId actionId : String)
  | reconcileReservation (expectedUsd : Decimal) (requestId actionId : String) (outcome : Outcome)
      (reconciledBy note : String) (authority : Option LedgerAuthority)

namespace LedgerCall

open BudgetDocument

variable (fits : BudgetDocument → Bool)

/-- What the call writes, when it returns. -/
def written (ledger : Ledger) (clock : Clock) : LedgerCall → Except HarnessError (Option Ledger)
  | .grant amountUsd note => do
    pure (← ledger.grant fits amountUsd note clock).written
  | .reserve amountUsd requestId actionId => do
    pure (← ledger.reserve fits amountUsd requestId actionId clock).written
  | .ensureReservation amountUsd requestId actionId => do
    pure (← ledger.ensureReservation fits amountUsd requestId actionId clock).written
  | .settle actualUsd requestId actionId => do
    pure (← ledger.settle fits actualUsd requestId actionId clock).written
  | .ensureSettlement expectedUsd actualUsd requestId actionId completionRecordId => do
    pure (← ledger.ensureSettlement fits expectedUsd actualUsd requestId actionId
      completionRecordId clock).written
  | .release requestId actionId => do
    pure (← ledger.release fits requestId actionId clock).written
  | .ensureRelease expectedUsd requestId actionId => do
    pure (← ledger.ensureRelease fits expectedUsd requestId actionId clock).written
  | .reconcileReservation expectedUsd requestId actionId outcome reconciledBy note authority => do
    pure (← ledger.reconcileReservation fits expectedUsd requestId actionId outcome reconciledBy
      note authority clock).written

/-- Every sum and difference that the call computes on the stored amounts is representable. -/
def Exact (document : BudgetDocument) (clock : Clock) : LedgerCall → Prop
  | .grant amountUsd _ =>
    defaultContext.Representable (document.balanceUsd.decimal.value + amountUsd.value) ∧
      ExactView (document.balanceUsd.decimal.value + amountUsd.value) document.reservations
  | .reserve amountUsd requestId actionId =>
    ExactView document.balanceUsd.decimal.value
      (document.reservations.set actionId ⟨requestId, amountUsd.plain, clock 0⟩)
  | .ensureReservation amountUsd requestId actionId =>
    -- a repeated reservation writes nothing, so nothing has to be representable
    actionId ∉ document.reservations → ExactView document.balanceUsd.decimal.value
      (document.reservations.set actionId ⟨requestId, amountUsd.plain, clock 0⟩)
  | .settle actualUsd _ actionId =>
    Ledger.ExactDebit document actualUsd.value (document.reservations.erase actionId)
  | .ensureSettlement _ actualUsd requestId actionId _ =>
    -- likewise a settlement that finds its own debit
    Ledger.dispositions document requestId actionId = [] →
      Ledger.ExactDebit document actualUsd.value (document.reservations.erase actionId)
  | .release _ actionId =>
    ExactView document.balanceUsd.decimal.value (document.reservations.erase actionId)
  | .ensureRelease expectedUsd _ actionId =>
    expectedUsd.isZero = false → actionId ∈ document.reservations →
      ExactView document.balanceUsd.decimal.value (document.reservations.erase actionId)
  | .reconcileReservation expectedUsd requestId actionId outcome _ _ _ =>
    actionId ∉ document.reconciliations → Ledger.ExactCharge document
      (Ledger.plannedCharge document expectedUsd requestId actionId outcome).value
      (document.reservations.erase actionId)

variable {fits}

theorem posts {ledger : Ledger} {clock : Clock} {call : LedgerCall} {stored : Option Ledger}
    (exact : call.Exact ledger.document clock)
    (returned : call.written fits ledger clock = .ok stored) :
    Ledger.Posts fits ledger.document stored := by
  cases call
  all_goals
    obtain ⟨update, ok, equal⟩ := bind_ok_iff.1 returned
    cases equal
  case grant => exact Ledger.grant_posts exact.1 exact.2 ok
  case reserve => exact Ledger.reserve_posts exact ok
  case ensureReservation => exact Ledger.ensureReservation_posts exact ok
  case settle => exact Ledger.settle_posts exact ok
  case ensureSettlement => exact Ledger.ensureSettlement_posts exact ok
  case release => exact Ledger.release_posts exact ok
  case ensureRelease => exact Ledger.ensureRelease_posts exact ok
  case reconcileReservation => exact Ledger.reconcileReservation_posts exact ok

end LedgerCall

/-- A stored ledger with the exact available balance after each of its entries. -/
structure Books where
  ledger : Ledger
  history : List ℚ

namespace Books

variable (fits : BudgetDocument → Bool)

/-- One call: it raises and changes nothing, or writes the ledger and posts at most one entry. -/
def step (books : Books) (call : LedgerCall × Clock) : Books :=
  match call.1.written fits books.ledger call.2 with
  | .ok (some ledger) => ⟨ledger, books.history ++ [ledger.document.exactAvailable]⟩
  | _ => books

def run (books : Books) (calls : List (LedgerCall × Clock)) : Books := calls.foldl (step fits) books

/-- Every call of the run that returns computes representable sums only. -/
def ExactRun : Books → List (LedgerCall × Clock) → Prop
  | _, [] => True
  | books, call :: calls =>
    ((∃ stored, call.1.written fits books.ledger call.2 = .ok stored) →
      call.1.Exact books.ledger.document call.2) ∧ ExactRun (books.step fits call) calls

variable {fits}

theorem step_conserved {starting : ℚ} {books : Books} {call : LedgerCall × Clock}
    (conserved : BudgetDocument.Conserved starting books.ledger.document books.history)
    (exact : (∃ stored, call.1.written fits books.ledger call.2 = .ok stored) →
      call.1.Exact books.ledger.document call.2) :
    BudgetDocument.Conserved starting (books.step fits call).ledger.document
      (books.step fits call).history := by
  unfold step
  split
  next ledger returned =>
    rcases LedgerCall.posts (exact ⟨_, returned⟩) returned with nothing | posted
    · cases nothing
    · obtain ⟨data, entry, charge, _, posting, appended, equal⟩ := posted
      cases equal
      exact Ledger.conserved_append conserved posting appended
  next => exact conserved

theorem run_conserved {starting : ℚ} {books : Books} {calls : List (LedgerCall × Clock)}
    (conserved : BudgetDocument.Conserved starting books.ledger.document books.history)
    (exact : ExactRun fits books calls) :
    BudgetDocument.Conserved starting (books.run fits calls).ledger.document
      (books.run fits calls).history := by
  induction calls generalizing books with
  | nil => exact conserved
  | cons call calls ih => exact ih (step_conserved conserved exact.1) exact.2

end Books

namespace Ledger

open BudgetDocument

theorem create_conserved {fits : BudgetDocument → Bool} {startingBalanceUsd : Decimal}
    {ledger : Ledger} (representable : defaultContext.Representable startingBalanceUsd.value)
    (created : create fits startingBalanceUsd = .ok ledger) :
    BudgetDocument.Conserved startingBalanceUsd.value ledger.document [] := by
  simp only [create, bind_ok_iff, money_ok_iff] at created
  obtain ⟨_, ⟨rfl, -⟩, written⟩ := created
  rw [write_document written]
  have view : ExactView startingBalanceUsd.plain.decimal.value
      (∅ : Dict String Reservation) := by
    constructor
    · trivial
    · trivial
    · simpa [Decimal.plain_value, live, Dict.values] using representable
  constructor
  · simp [BudgetDocument.snapshot, postedAmounts, Decimal.plain_value]
  · simp [BudgetDocument.snapshot, postedAmounts, Decimal.plain_value]
  · exact available_reread _ view
  · rfl

/-- Every run whose sums stay representable conserves money exactly. -/
theorem exact_conservation (fits : BudgetDocument → Bool) (startingBalanceUsd : Decimal)
    (ledger : Ledger) (created : create fits startingBalanceUsd = .ok ledger)
    (representable : defaultContext.Representable startingBalanceUsd.value)
    (calls : List (LedgerCall × Clock)) (exact : Books.ExactRun fits ⟨ledger, []⟩ calls) :
    let books := Books.run fits ⟨ledger, []⟩ calls
    Conserved startingBalanceUsd.value books.ledger.document books.history :=
  Books.run_conserved (create_conserved representable created) exact

/-- The empty ledger that `create` writes for a zero balance. -/
def emptyLedger : Ledger where
  document :=
    { balanceUsd := Decimal.zero.plain, totalSpentUsd := Decimal.zero.plain
      totalEstimatedUsd := Decimal.zero.plain, reservations := ∅, reconciliations := ∅
      entries := [] }
  valid := rfl

theorem representable_digit {n : Nat} (bound : n < 10) : defaultContext.Representable (n : ℚ) :=
  ⟨n, 0, by simp, by norm_num [defaultContext]; omega, by decide, by decide⟩

theorem exactView_idle {n : Nat} (bound : n < 10) : ExactView n (∅ : Dict String Reservation) :=
  ⟨trivial, trivial, by simpa [live, Dict.values] using representable_digit bound⟩

/-- One reservation under a balance that covers it. -/
theorem exactView_held {n k : Nat} (bound : n < 10) (covered : k ≤ n) {requestId actionId : String}
    {now : Timestamp} : ExactView n (Dict.set ∅ actionId ⟨requestId, (Decimal.ofNat k).plain, now⟩) := by
  have alone : (Dict.set (∅ : Dict String Reservation) actionId
      ⟨requestId, (Decimal.ofNat k).plain, now⟩).values = [⟨requestId, (Decimal.ofNat k).plain, now⟩] := by
    rw [Dict.set_values_of_absent (by simp)]
    simp [Dict.values]
  have sums : Decimal.PartialSums defaultContext 0
      ([(⟨requestId, (Decimal.ofNat k).plain, now⟩ : Reservation)].map (·.amountUsd.decimal.value)) := by
    simpa [Decimal.PartialSums, Decimal.plain_value] using representable_digit (covered.trans_lt bound)
  refine ⟨by rw [alone]; exact sums, ?_, ?_⟩
  · have order := Dict.sorted_values_perm (Dict.set (∅ : Dict String Reservation) actionId
      ⟨requestId, (Decimal.ofNat k).plain, now⟩)
    rw [alone] at order
    rw [List.perm_singleton.1 order]
    exact sums
  · have rest := representable_digit (n := n - k) (by omega)
    rw [Nat.cast_sub covered] at rest
    rw [live, alone]
    simpa [Decimal.plain_value] using rest

/-- Five are granted, three reserved, and two of them spent. -/
def spendingCalls : List (LedgerCall × Clock) :=
  [(.grant (.ofNat 5) "", fun _ => 0), (.reserve (.ofNat 3) "req_" "act_", fun _ => 0),
    (.settle (.ofNat 2) "req_" "act_", fun _ => 0)]

theorem exact_conservation_grant :
    let books := Books.run (fun _ => true) ⟨emptyLedger, []⟩ spendingCalls
    books.ledger.document.balanceUsd = (Decimal.ofNat 3).plain ∧
      books.ledger.document.totalSpentUsd = (Decimal.ofNat 2).plain ∧
        Conserved Decimal.zero.value books.ledger.document books.history := by
  let granted := (Books.run (fun _ => true) ⟨emptyLedger, []⟩ (spendingCalls.take 1)).ledger.document
  let held := (Books.run (fun _ => true) ⟨emptyLedger, []⟩ (spendingCalls.take 2)).ledger.document
  have grantedHas : granted.balanceUsd = (Decimal.ofNat 5).plain ∧ granted.reservations = ∅ := by
    decide +kernel
  have heldHas : held.balanceUsd = (Decimal.ofNat 5).plain ∧ held.totalSpentUsd = Decimal.zero.plain ∧
      held.reservations.erase "act_" = ∅ := by
    decide +kernel
  -- every sum of the run has one digit
  have exact_ : Books.ExactRun (fun _ => true) ⟨emptyLedger, []⟩ spendingCalls := by
    refine ⟨fun _ => ?_, fun _ => ?_, fun _ => ?_, trivial⟩
    · have sum : emptyLedger.document.balanceUsd.decimal.value + (Decimal.ofNat 5).value = (5 : Nat) := by
        simp [emptyLedger, Decimal.plain_value]
      simp only [LedgerCall.Exact, sum]
      exact ⟨representable_digit (by norm_num), exactView_idle (by norm_num)⟩
    · show ExactView granted.balanceUsd.decimal.value
        (granted.reservations.set "act_" ⟨"req_", (Decimal.ofNat 3).plain, 0⟩)
      rw [grantedHas.1, grantedHas.2, Decimal.plain_value, Decimal.ofNat_value]
      exact exactView_held (by norm_num) (by norm_num)
    · show ExactDebit held (Decimal.ofNat 2).value (held.reservations.erase "act_")
      have rest : held.balanceUsd.decimal.value - (Decimal.ofNat 2).value = (3 : Nat) := by
        rw [heldHas.1]
        norm_num [Decimal.plain_value]
      have spent : held.totalSpentUsd.decimal.value + (Decimal.ofNat 2).value = (2 : Nat) := by
        rw [heldHas.2.1]
        norm_num [Decimal.plain_value]
      refine ⟨?_, ?_, ?_⟩
      · rw [rest]
        exact representable_digit (by norm_num)
      · rw [spent]
        exact representable_digit (by norm_num)
      · rw [rest, heldHas.2.2]
        exact exactView_idle (by norm_num)
  exact ⟨by decide +kernel, by decide +kernel, exact_conservation (fun _ => true) .zero emptyLedger
    (by decide +kernel) (by simpa using representable_digit (n := 0) (by norm_num)) _ exact_⟩

/-- `10^28` granted on a fresh ledger, then a tenth: the sum needs thirty digits. -/
def roundingCalls : List (LedgerCall × Clock) :=
  [(.grant ⟨false, 10 ^ 28, 0⟩ "", fun _ => 0), (.grant ⟨false, 1, -1⟩ "", fun _ => 0)]

/-- What the two grants leave: the tenth is posted, and lost from the balance. -/
def roundedDocument : BudgetDocument :=
  { emptyLedger.document with
    balanceUsd := Decimal.plain ⟨false, 10 ^ 28, 0⟩
    entries :=
      [{ kind := .grant, amountUsd := Decimal.plain ⟨false, 10 ^ 28, 0⟩
         balanceAfterUsd := Decimal.plain ⟨false, 10 ^ 28, 0⟩, atTime := 0 },
       { kind := .grant, amountUsd := Decimal.plain ⟨false, 1, -1⟩
         balanceAfterUsd := Decimal.plain ⟨false, 10 ^ 28, 0⟩, atTime := 0 }] }

theorem rounding_breaks_conservation :
    ¬ ∀ (startingBalanceUsd : Decimal) (ledger : Ledger) (calls : List (LedgerCall × Clock)),
      create (fun _ => true) startingBalanceUsd = .ok ledger →
      let books := Books.run (fun _ => true) ⟨ledger, []⟩ calls
      Conserved startingBalanceUsd.value books.ledger.document books.history := by
  intro always
  have created : create (fun _ => true) .zero = .ok emptyLedger := by decide +kernel
  have document : (Books.run (fun _ => true) ⟨emptyLedger, []⟩ roundingCalls).ledger.document =
      roundedDocument := by decide +kernel
  have balance := (always .zero emptyLedger roundingCalls created).balance
  rw [document] at balance
  simp [roundedDocument, emptyLedger, postedAmounts, Decimal.plain_value] at balance
  norm_num [Decimal.value, Decimal.signed] at balance

end Ledger
end DefiantHarness
