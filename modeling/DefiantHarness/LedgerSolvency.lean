import DefiantHarness.LedgerConservation

/-! No overcommit: what each ledger call does to the reservations, and the available balance over
runs of calls. -/
namespace DefiantHarness

open Foundation

namespace BudgetDocument

/-- Nothing is overcommitted: the available balance is not negative, and every live reservation is
positive and the only one of its action. -/
structure Solvent (document : BudgetDocument) : Prop where
  available : ∃ a, document.available = .ok a ∧ 0 ≤ a.value
  positive : ∀ actionId reservation,
    document.reservations.lookup actionId = some reservation →
      0 < reservation.amountUsd.decimal.value
  unique : document.reservations.keys.Nodup

theorem live_erase {reservations : Dict String Reservation} {actionId : String}
    {reservation : Reservation} (found : reservations.lookup actionId = some reservation) :
    live (reservations.erase actionId) =
      live reservations - reservation.amountUsd.decimal.value := by
  have moved := ((Dict.values_erase_perm found).map (·.amountUsd.decimal.value)).sum_eq
  simp only [List.map_cons, List.sum_cons] at moved
  unfold live
  rw [moved]
  ring

theorem erase_absent {reservations : Dict String Reservation} {actionId : String}
    (absent : reservations.lookup actionId = none) :
    reservations.erase actionId = reservations :=
  AList.ext (List.kerase_of_notMem_keys (AList.lookup_eq_none.1 absent))

/-- One entry disposes of whatever the action had reserved. -/
structure Drops (before data : BudgetDocument) (entry : LedgerEntry) (kind : EntryKind)
    (requestId actionId : String) : Prop where
  entries : data.entries = before.entries
  reservations : data.reservations = before.reservations.erase actionId
  owned : ∀ reservation, before.reservations.lookup actionId = some reservation →
    reservation.requestId = requestId
  kind : entry.kind = kind
  requestId : entry.requestId = requestId
  actionId : entry.actionId = actionId

/-- One entry reserves an amount that the available balance covers. -/
structure Holds (before data : BudgetDocument) (amount : Decimal) (requestId actionId : String)
    (clock : Clock) : Prop where
  entries : data.entries = before.entries
  fresh : actionId ∉ before.reservations
  reservations : data.reservations =
    before.reservations.set actionId ⟨requestId, amount.plain, clock 0⟩
  balance : data.balanceUsd = before.balanceUsd
  covered : ∃ a, before.available = .ok a ∧ amount.value ≤ a.value

end BudgetDocument

namespace Ledger

open BudgetDocument

variable {fits : BudgetDocument → Bool} {ledger : Ledger} {requestId actionId : String}
  {clock : Clock}

/-! ### What a returning call writes -/

private theorem grant_writes {amountUsd : Decimal} {note : String} {update : Update Ledger Decimal}
    (granted : ledger.grant fits amountUsd note clock = .ok update) :
    ∃ data entry balance after, update.written = some after ∧ append fits data entry = .ok after ∧
      data = { ledger.document with balanceUsd := balance.plain } ∧
      plus ledger.document.balanceUsd.decimal amountUsd = .ok balance ∧ 0 ≤ amountUsd.value := by
  simp only [grant, bind_ok_iff, money_ok_iff, pure_ok_iff] at granted
  obtain ⟨_, ⟨rfl, nonneg⟩, balance, added, _, -, after, appended, rfl⟩ := granted
  exact ⟨_, _, balance, after, rfl, appended, rfl, added, nonneg⟩

private theorem addReservation_writes {before : BudgetDocument} {amount : Decimal} {after : Ledger}
    (fresh : actionId ∉ before.reservations)
    (added : addReservation fits before amount requestId actionId clock = .ok after) :
    ∃ data entry, append fits data entry = .ok after ∧
      Holds before data amount requestId actionId clock := by
  simp only [addReservation, bind_ok_iff, refuseIf_ok_iff, Decimal.lt_iff, not_lt] at added
  obtain ⟨available, computed, -, covered, _, -, _, -, appended⟩ := added
  exact ⟨_, _, appended, rfl, fresh, rfl, rfl, available, computed, covered⟩

private theorem reserve_writes {amountUsd : Decimal} {update : Update Ledger Unit}
    (reserved : ledger.reserve fits amountUsd requestId actionId clock = .ok update) :
    ∃ data entry after, update.written = some after ∧ append fits data entry = .ok after ∧
      Holds ledger.document data amountUsd requestId actionId clock := by
  simp only [reserve, bind_ok_iff, money_ok_iff, refuseIf_ok_iff, pure_ok_iff] at reserved
  obtain ⟨_, ⟨rfl, -⟩, -, -, -, -, -, -, -, fresh, after, added, rfl⟩ := reserved
  obtain ⟨data, entry, appended, holds⟩ := addReservation_writes fresh added
  exact ⟨data, entry, after, rfl, appended, holds⟩

private theorem ensureReservation_writes {amountUsd : Decimal} {update : Update Ledger Unit}
    (reserved : ledger.ensureReservation fits amountUsd requestId actionId clock = .ok update) :
    update.written = none ∨
      ∃ data entry after, update.written = some after ∧ append fits data entry = .ok after ∧
        Holds ledger.document data amountUsd requestId actionId clock := by
  simp only [ensureReservation, bind_ok_iff, money_ok_iff] at reserved
  obtain ⟨_, ⟨rfl, -⟩, -, -, -, -, -, -, reserved⟩ := reserved
  split at reserved
  next =>
    simp only [bind_ok_iff, pure_ok_iff] at reserved
    obtain ⟨-, -, rfl⟩ := reserved
    exact .inl rfl
  next absent =>
    simp only [bind_ok_iff, pure_ok_iff] at reserved
    obtain ⟨after, added, rfl⟩ := reserved
    obtain ⟨data, entry, appended, holds⟩ :=
      addReservation_writes (AList.lookup_eq_none.1 absent) added
    exact .inr ⟨data, entry, after, rfl, appended, holds⟩

private theorem popReservation_found {data : BudgetDocument} {popped : BudgetDocument × Decimal}
    (taken : popReservation data requestId actionId = .ok popped) :
    ∃ reservation, data.reservations.lookup actionId = some reservation ∧
      reservation.requestId = requestId ∧
      popped = ({ data with reservations := data.reservations.erase actionId },
        reservation.amountUsd.decimal) := by
  simp only [popReservation, bind_ok_iff, orRefuse_ok_iff, refuseIf_ok_iff, not_not,
    pure_ok_iff] at taken
  obtain ⟨reservation, found, -, owned, rfl⟩ := taken
  exact ⟨reservation, found, owned, rfl⟩

private theorem debit_writes {before : BudgetDocument} {actual reserved : Decimal}
    {completion : Option String} {debited : Ledger × Decimal}
    (owned : ∀ reservation, before.reservations.lookup actionId = some reservation →
      reservation.requestId = requestId)
    (ok : debit fits { before with reservations := before.reservations.erase actionId } actual
      reserved requestId actionId completion clock = .ok debited) :
    ∃ data entry balance, append fits data entry = .ok debited.1 ∧
      Drops before data entry .debit requestId actionId ∧
      minus before.balanceUsd.decimal actual = .ok balance ∧ data.balanceUsd = balance.plain := by
  simp only [debit, bind_ok_iff, pure_ok_iff] at ok
  obtain ⟨balance, subtracted, _, -, _, -, stored, appended, rfl⟩ := ok
  exact ⟨_, _, balance, appended, ⟨rfl, rfl, owned, rfl, rfl, rfl⟩, subtracted, rfl⟩

/-- The settlement of `amount` against a reservation of `reserved`, if there is one. -/
private def Settled (fits : BudgetDocument → Bool) (before : BudgetDocument) (actual : Decimal)
    (requestId actionId : String) (after : Ledger) : Prop :=
  ∃ data entry balance, append fits data entry = .ok after ∧
    Drops before data entry .debit requestId actionId ∧
    minus before.balanceUsd.decimal actual = .ok balance ∧ data.balanceUsd = balance.plain

private theorem settle_writes {actualUsd : Decimal} {update : Update Ledger Decimal}
    (settled : ledger.settle fits actualUsd requestId actionId clock = .ok update) :
    ∃ after reservation, update.written = some after ∧
      ledger.document.reservations.lookup actionId = some reservation ∧
      Settled fits ledger.document actualUsd requestId actionId after := by
  simp only [settle, bind_ok_iff, money_ok_iff, pure_ok_iff] at settled
  obtain ⟨_, ⟨rfl, -⟩, -, -, -, -, popped, taken, debited, ok, rfl⟩ := settled
  obtain ⟨reservation, found, owner, rfl⟩ := popReservation_found taken
  refine ⟨debited.1, reservation, rfl, found, debit_writes ?_ ok⟩
  intro other same
  rw [found, Option.some.injEq] at same
  rw [← same, owner]

private theorem ensureSettlement_writes {expectedUsd actualUsd : Decimal}
    {completionRecordId : String} {update : Update Ledger Decimal}
    (settled : ledger.ensureSettlement fits expectedUsd actualUsd requestId actionId
      completionRecordId clock = .ok update) :
    update.written = none ∨ ∃ after, update.written = some after ∧
      dispositions ledger.document requestId actionId = [] ∧
      (∀ reservation, ledger.document.reservations.lookup actionId = some reservation →
        reservation.amountUsd.decimal.value = expectedUsd.value) ∧
      (ledger.document.reservations.lookup actionId = none → expectedUsd.value = 0) ∧
      Settled fits ledger.document actualUsd requestId actionId after := by
  simp only [ensureSettlement, bind_ok_iff, money_ok_iff] at settled
  obtain ⟨_, ⟨rfl, -⟩, _, ⟨rfl, -⟩, -, -, -, -, -, -, -, -, settled⟩ := settled
  split at settled
  next absent =>
    split at settled
    next =>
      simp only [bind_ok_iff, pure_ok_iff] at settled
      obtain ⟨_, -, rfl⟩ := settled
      exact .inl rfl
    next =>
      simp only [bind_ok_iff, pure_ok_iff, refuseIf_ok_iff, not_not, Bool.not_eq_false] at settled
      obtain ⟨-, first, -, zero, debited, ok, rfl⟩ := settled
      refine .inr ⟨debited.1, rfl, first, ?_, fun _ => (Decimal.isZero_iff _).1 zero, ?_⟩
      · intro reservation found
        rw [absent] at found
        cases found
      · refine debit_writes ?_ (by rw [erase_absent absent]; exact ok)
        intro reservation found
        rw [absent] at found
        cases found
  -- the reservation's amount and request have been compared with the call's
  next reservation found =>
    simp only [bind_ok_iff, pure_ok_iff, refuseIf_ok_iff, not_not, Decimal.eqv_iff] at settled
    obtain ⟨-, first, -, ⟨owner, amount⟩, debited, ok, rfl⟩ := settled
    have same : ∀ other, ledger.document.reservations.lookup actionId = some other →
        other = reservation := by
      intro other looked
      rw [found, Option.some.injEq] at looked
      exact looked.symm
    refine .inr ⟨debited.1, rfl, first, ?_, ?_, debit_writes ?_ ok⟩
    · intro other looked
      rw [same other looked, amount]
    · intro absent
      rw [found] at absent
      cases absent
    · intro other looked
      rw [same other looked, owner]

/-- The reservation of the action is given back. -/
private def Released (fits : BudgetDocument → Bool) (before : BudgetDocument)
    (requestId actionId : String) (after : Ledger) : Prop :=
  ∃ data entry, append fits data entry = .ok after ∧
    Drops before data entry .release requestId actionId ∧ data.balanceUsd = before.balanceUsd

private theorem giveBack_writes {before : BudgetDocument} {popped : BudgetDocument × Decimal}
    {given : Ledger × Decimal} (taken : popReservation before requestId actionId = .ok popped)
    (ok : giveBack fits popped.1 popped.2 requestId actionId clock = .ok given) :
    Released fits before requestId actionId given.1 := by
  obtain ⟨reservation, found, owner, rfl⟩ := popReservation_found taken
  simp only [giveBack, bind_ok_iff, pure_ok_iff] at ok
  obtain ⟨_, -, _, -, stored, appended, rfl⟩ := ok
  refine ⟨_, _, appended, ⟨rfl, rfl, ?_, rfl, rfl, rfl⟩, rfl⟩
  intro other same
  rw [found, Option.some.injEq] at same
  rw [← same, owner]

private theorem release_writes {update : Update Ledger Decimal}
    (released : ledger.release fits requestId actionId clock = .ok update) :
    ∃ after, update.written = some after ∧
      Released fits ledger.document requestId actionId after := by
  simp only [release, bind_ok_iff, pure_ok_iff] at released
  obtain ⟨-, -, -, -, popped, taken, given, gave, rfl⟩ := released
  exact ⟨given.1, rfl, giveBack_writes taken gave⟩

private theorem ensureRelease_writes {expectedUsd : Decimal} {update : Update Ledger Decimal}
    (released : ledger.ensureRelease fits expectedUsd requestId actionId clock = .ok update) :
    update.written = none ∨ ∃ after, update.written = some after ∧ expectedUsd.isZero = false ∧
      actionId ∈ ledger.document.reservations ∧
      Released fits ledger.document requestId actionId after := by
  simp only [ensureRelease, bind_ok_iff, money_ok_iff] at released
  obtain ⟨_, ⟨rfl, -⟩, -, -, -, -, released⟩ := released
  split at released
  next =>
    simp only [bind_ok_iff, pure_ok_iff] at released
    obtain ⟨_, -, rfl⟩ := released
    exact .inl rfl
  next positive =>
    split at released
    next =>
      simp only [bind_ok_iff, pure_ok_iff] at released
      obtain ⟨-, -, _, -, rfl⟩ := released
      exact .inl rfl
    next present =>
      simp only [bind_ok_iff, pure_ok_iff] at released
      obtain ⟨-, -, popped, taken, given, gave, rfl⟩ := released
      exact .inr ⟨given.1, rfl, by simpa using positive,
        AList.lookup_isSome.1 (by rw [present]; rfl), giveBack_writes taken gave⟩

/-- The reservation of the action is released or charged by an operator. -/
private def Reconciled (fits : BudgetDocument → Bool) (before : BudgetDocument) (charge : Decimal)
    (requestId actionId : String) (after : Ledger) : Prop :=
  ∃ data entry, append fits data entry = .ok after ∧
    Drops before data entry .reconcile requestId actionId ∧
    ∃ base : BudgetDocument, base.balanceUsd = before.balanceUsd ∧
      ∃ totals, chargeTotals base charge = .ok totals ∧ data.balanceUsd = totals.balanceUsd

private theorem takeReservation_found {data : BudgetDocument} {expected : Decimal}
    {taken : BudgetDocument × Option Decimal}
    (ok : takeReservation data expected requestId actionId = .ok taken) :
    taken = ({ data with reservations := data.reservations.erase actionId },
      (data.reservations.lookup actionId).map (·.amountUsd.decimal)) ∧
      ∀ reservation, data.reservations.lookup actionId = some reservation →
        reservation.requestId = requestId := by
  unfold takeReservation at ok
  split at ok
  next absent =>
    cases ok
    rw [erase_absent absent, absent]
    refine ⟨rfl, ?_⟩
    intro reservation found
    cases found
  next reservation present =>
    simp only [bind_ok_iff, refuseIf_ok_iff, not_not, pure_ok_iff] at ok
    obtain ⟨-, owner, -, -, rfl⟩ := ok
    rw [present]
    refine ⟨rfl, ?_⟩
    intro other same
    rw [Option.some.injEq] at same
    rw [← same, owner]

private theorem lowerEstimate_keeps {before data : BudgetDocument} {disposition : Disposition}
    {released : Decimal} (lowered : lowerEstimate before disposition released = .ok data) :
    data = { before with totalEstimatedUsd := data.totalEstimatedUsd } := by
  unfold lowerEstimate at lowered
  split at lowered
  next =>
    simp only [bind_ok_iff, pure_ok_iff] at lowered
    obtain ⟨_, -, rfl⟩ := lowered
    rfl
  next =>
    cases lowered
    rfl

private theorem chargeTotals_keeps {before data : BudgetDocument} {charge : Decimal}
    (taken : chargeTotals before charge = .ok data) :
    data.entries = before.entries ∧ data.reservations = before.reservations := by
  unfold chargeTotals at taken
  split at taken
  next =>
    simp only [bind_ok_iff, pure_ok_iff] at taken
    obtain ⟨_, -, _, -, rfl⟩ := taken
    exact ⟨rfl, rfl⟩
  next =>
    cases taken
    exact ⟨rfl, rfl⟩

private theorem reconcileReservation_writes {expectedUsd : Decimal} {outcome : Outcome}
    {reconciledBy note : String} {authority : Option LedgerAuthority}
    {update : Update Ledger Reconciliation}
    (reconciled : ledger.reconcileReservation fits expectedUsd requestId actionId outcome
      reconciledBy note authority clock = .ok update) :
    update.written = none ∨ ∃ after, update.written = some after ∧
      actionId ∉ ledger.document.reconciliations ∧
      Reconciled fits ledger.document
        (plannedCharge ledger.document expectedUsd requestId actionId outcome) requestId actionId
        after := by
  simp only [reconcileReservation, bind_ok_iff, money_ok_iff] at reconciled
  obtain ⟨_, ⟨rfl, -⟩, -, -, -, -, -, -, -, -, -, -, reconciled⟩ := reconciled
  split at reconciled
  next =>
    simp only [bind_ok_iff, pure_ok_iff] at reconciled
    obtain ⟨-, -, rfl⟩ := reconciled
    exact .inl rfl
  next absent =>
    simp only [bind_ok_iff, pure_ok_iff] at reconciled
    obtain ⟨taken, popped, -, -, lowered, estimate, data, totals, _, -, after, appended, rfl⟩ :=
      reconciled
    obtain ⟨rfl, owned⟩ := takeReservation_found popped
    have shape := lowerEstimate_keeps estimate
    obtain ⟨entries, reservations⟩ := chargeTotals_keeps totals
    rw [shape] at entries reservations
    exact .inr ⟨after, rfl, AList.lookup_eq_none.1 absent, _, _, appended,
      ⟨entries, reservations, owned, rfl, rfl, rfl⟩, lowered, by rw [shape], data, totals, rfl⟩

end Ledger

namespace LedgerCall

open BudgetDocument

/-- The call makes this reservation of the action. -/
def Makes (actionId : String) (reservation : Reservation) : LedgerCall → Prop
  | .reserve amountUsd requestId id | .ensureReservation amountUsd requestId id =>
    actionId = id ∧ reservation.requestId = requestId ∧ reservation.amountUsd = amountUsd.plain
  | _ => False

/-- The entry kind, the request and the action of a call that disposes of a reservation. -/
def disposal : LedgerCall → Option (EntryKind × String × String)
  | .settle _ requestId actionId | .ensureSettlement _ _ requestId actionId _ =>
    some (.debit, requestId, actionId)
  | .release requestId actionId | .ensureRelease _ requestId actionId =>
    some (.release, requestId, actionId)
  | .reconcileReservation _ requestId actionId _ _ _ _ => some (.reconcile, requestId, actionId)
  | _ => none

/-- Settlements stay within the reservation, and reconciliations are of live reservations or repeat
a recorded one. -/
def Within (document : BudgetDocument) : LedgerCall → Prop
  | .settle actualUsd _ actionId => ∀ reservation,
    document.reservations.lookup actionId = some reservation →
      actualUsd.value ≤ reservation.amountUsd.decimal.value
  | .ensureSettlement expectedUsd actualUsd _ _ _ => actualUsd.value ≤ expectedUsd.value
  | .reconcileReservation _ _ actionId _ _ _ _ =>
    actionId ∈ document.reconciliations ∨ actionId ∈ document.reservations
  | _ => True

/-- Every reservation stays bound to the call that made it: a new one is the one that the call
makes, and one that is gone was disposed of by a call that names its action and its request, with
one entry for it. -/
structure Accounts (call : LedgerCall) (before after : BudgetDocument) : Prop where
  made : ∀ actionId reservation, after.reservations.lookup actionId = some reservation →
    before.reservations.lookup actionId = some reservation ∨
      (actionId ∉ before.reservations ∧ call.Makes actionId reservation)
  gone : ∀ actionId reservation, before.reservations.lookup actionId = some reservation →
    after.reservations.lookup actionId = some reservation ∨
      (actionId ∉ after.reservations ∧ ∃ entry, after.entries = before.entries ++ [entry] ∧
        entry.actionId = actionId ∧ entry.requestId = reservation.requestId ∧
        call.disposal = some (entry.kind, reservation.requestId, actionId))

theorem Accounts.refl (call : LedgerCall) (document : BudgetDocument) :
    call.Accounts document document :=
  ⟨fun _ _ found => .inl found, fun _ _ found => .inl found⟩

/-- What a returning call posts, when it posts. -/
inductive Handles (before : BudgetDocument) (clock : Clock) :
    LedgerCall → BudgetDocument → LedgerEntry → Prop
  | grants {amountUsd : Decimal} {note : String} {balance : Decimal} {entry : LedgerEntry}
      (added : plus before.balanceUsd.decimal amountUsd = .ok balance)
      (nonneg : 0 ≤ amountUsd.value) :
      Handles before clock (.grant amountUsd note)
        { before with balanceUsd := balance.plain } entry
  | holds {call : LedgerCall} {amountUsd : Decimal} {requestId actionId : String}
      {data : BudgetDocument} {entry : LedgerEntry}
      (which : call = .reserve amountUsd requestId actionId ∨
        call = .ensureReservation amountUsd requestId actionId)
      (held : Holds before data amountUsd requestId actionId clock) :
      Handles before clock call data entry
  | drops {call : LedgerCall} {requestId actionId : String} {data : BudgetDocument}
      {entry : LedgerEntry} (dropped : Drops before data entry entry.kind requestId actionId)
      (names : call.disposal = some (entry.kind, requestId, actionId))
      (covered : call.Exact before clock → call.Within before → ∃ charge : ℚ,
        data.balanceUsd.decimal.value = before.balanceUsd.decimal.value - charge ∧
        charge ≤ live before.reservations - live (before.reservations.erase actionId) ∧
        ExactView (before.balanceUsd.decimal.value - charge)
          (before.reservations.erase actionId)) :
      Handles before clock call data entry

variable {fits : BudgetDocument → Bool} {ledger : Ledger} {clock : Clock}

/-- Disposing of a reservation never raises the sum of the live ones. -/
theorem live_erase_le (ledger : Ledger) (actionId : String) :
    live (ledger.document.reservations.erase actionId) ≤ live ledger.document.reservations := by
  cases found : ledger.document.reservations.lookup actionId with
  | none => rw [erase_absent found]
  | some reservation =>
    rw [live_erase found]
    linarith [Ledger.reservation_positive found]

private theorem minus_plain {a b c : Decimal} {p : PlainDecimal}
    (exact : defaultContext.Representable (a.value - b.value)) (subtracted : minus a b = .ok c)
    (stored : p = c.plain) : p.decimal.value = a.value - b.value := by
  obtain ⟨_, again, value⟩ := minus_exact exact
  rw [subtracted] at again
  cases again
  rw [stored, Decimal.plain_value, value]

private theorem Drops.own {before data : BudgetDocument} {entry : LedgerEntry} {kind : EntryKind}
    {requestId actionId : String} (dropped : Drops before data entry kind requestId actionId) :
    Drops before data entry entry.kind requestId actionId := by
  obtain ⟨entries, reservations, owned, rfl, request, action⟩ := dropped
  exact ⟨entries, reservations, owned, rfl, request, action⟩

private theorem settle_handles {actualUsd : Decimal} {requestId actionId : String}
    {update : Update Ledger Decimal}
    (settled : ledger.settle fits actualUsd requestId actionId clock = .ok update) :
    ∃ data entry after, update.written = some after ∧ Ledger.append fits data entry = .ok after ∧
      Handles ledger.document clock (.settle actualUsd requestId actionId) data entry := by
  obtain ⟨after, reservation, written, found, data, entry, balance, appended, dropped, subtracted,
    stored⟩ := Ledger.settle_writes settled
  refine ⟨data, entry, after, written, appended, .drops (Drops.own dropped) ?_ ?_⟩
  · simp [disposal, dropped.kind]
  · intro exact within
    refine ⟨actualUsd.value, minus_plain exact.balance subtracted stored, ?_, exact.view⟩
    rw [live_erase found]
    linarith [within reservation found]

private theorem ensureSettlement_handles {expectedUsd actualUsd : Decimal}
    {requestId actionId completionRecordId : String} {update : Update Ledger Decimal}
    (settled : ledger.ensureSettlement fits expectedUsd actualUsd requestId actionId
      completionRecordId clock = .ok update) :
    update.written = none ∨ ∃ data entry after, update.written = some after ∧
      Ledger.append fits data entry = .ok after ∧
      Handles ledger.document clock
        (.ensureSettlement expectedUsd actualUsd requestId actionId completionRecordId)
        data entry := by
  rcases Ledger.ensureSettlement_writes settled with nothing | posted
  · exact .inl nothing
  obtain ⟨after, written, first, amount, zero, data, entry, balance, appended, dropped, subtracted,
    stored⟩ := posted
  refine .inr ⟨data, entry, after, written, appended, .drops (Drops.own dropped) ?_ ?_⟩
  · simp [disposal, dropped.kind]
  · intro exact within
    have exact := exact first
    refine ⟨actualUsd.value, minus_plain exact.balance subtracted stored, ?_, exact.view⟩
    simp only [Within] at within
    -- without a reservation nothing was expected; with one, what it held comes free
    cases found : ledger.document.reservations.lookup actionId with
    | none =>
      rw [erase_absent found]
      linarith [zero found]
    | some reservation =>
      rw [live_erase found]
      linarith [amount reservation found]

private theorem released_handles (call : LedgerCall) {requestId actionId : String} {after : Ledger}
    (released : Ledger.Released fits ledger.document requestId actionId after)
    (names : call.disposal = some (.release, requestId, actionId))
    (view : call.Exact ledger.document clock → ExactView ledger.document.balanceUsd.decimal.value
      (ledger.document.reservations.erase actionId)) :
    ∃ data entry, Ledger.append fits data entry = .ok after ∧
      Handles ledger.document clock call data entry := by
  obtain ⟨data, entry, appended, dropped, balance⟩ := released
  refine ⟨data, entry, appended, .drops (Drops.own dropped) ?_ ?_⟩
  · rw [names, dropped.kind]
  · intro exact _
    refine ⟨0, by rw [balance, sub_zero], ?_, by rw [sub_zero]; exact view exact⟩
    linarith [live_erase_le ledger actionId]

private theorem chargeTotals_balance {before totals : BudgetDocument} {charge : Decimal}
    (nonneg : 0 ≤ charge.value)
    (exact : 0 < charge.value →
      defaultContext.Representable (before.balanceUsd.decimal.value - charge.value))
    (taken : Ledger.chargeTotals before charge = .ok totals) :
    totals.balanceUsd.decimal.value = before.balanceUsd.decimal.value - charge.value := by
  unfold Ledger.chargeTotals at taken
  split at taken
  next positive =>
    rw [Decimal.lt_iff, Decimal.zero_value] at positive
    simp only [bind_ok_iff, pure_ok_iff] at taken
    obtain ⟨balance, subtracted, _, -, rfl⟩ := taken
    exact minus_plain (exact positive) subtracted rfl
  next none =>
    rw [Decimal.lt_iff, Decimal.zero_value] at none
    cases taken
    linarith [le_antisymm (not_lt.1 none) nonneg]

/-- A live reservation bounds the charge of its reconciliation. -/
private theorem plannedCharge_le {document : BudgetDocument} {expectedUsd : Decimal}
    {requestId actionId : String} {outcome : Outcome} {reservation : Reservation}
    (found : document.reservations.lookup actionId = some reservation)
    (positive : 0 < reservation.amountUsd.decimal.value) :
    (Ledger.plannedCharge document expectedUsd requestId actionId outcome).value ≤
      reservation.amountUsd.decimal.value := by
  unfold Ledger.plannedCharge
  rw [found]
  cases outcome <;> simp [Ledger.reconcileCharge, positive.le]

private theorem reconcileReservation_handles {expectedUsd : Decimal} {requestId actionId : String}
    {outcome : Outcome} {reconciledBy note : String} {authority : Option LedgerAuthority}
    {update : Update Ledger Reconciliation}
    (reconciled : ledger.reconcileReservation fits expectedUsd requestId actionId outcome
      reconciledBy note authority clock = .ok update) :
    update.written = none ∨ ∃ data entry after, update.written = some after ∧
      Ledger.append fits data entry = .ok after ∧
      Handles ledger.document clock
        (.reconcileReservation expectedUsd requestId actionId outcome reconciledBy note authority)
        data entry := by
  rcases Ledger.reconcileReservation_writes reconciled with nothing | posted
  · exact .inl nothing
  obtain ⟨after, written, fresh, data, entry, appended, dropped, base, same, totals, taken, stored⟩ :=
    posted
  refine .inr ⟨data, entry, after, written, appended, .drops (Drops.own dropped) ?_ ?_⟩
  · simp [disposal, dropped.kind]
  · intro exact within
    have exact := exact fresh
    have nonneg := Ledger.plannedCharge_nonneg ledger expectedUsd requestId actionId outcome
    refine ⟨_, ?_, ?_, exact.view⟩
    · rw [stored, chargeTotals_balance nonneg ?_ taken, same]
      rw [same]
      exact fun positive => (exact.totals positive).1
    · obtain ⟨reservation, found⟩ :=
        Option.isSome_iff_exists.1 (AList.lookup_isSome.2 (within.resolve_left fresh))
      -- the planned charge is no more than the reservation holds
      rw [live_erase found, sub_sub_cancel]
      exact plannedCharge_le found (Ledger.reservation_positive found)

/-- The spec of every call that returns. -/
theorem handles {call : LedgerCall} {stored : Option Ledger}
    (returned : call.written fits ledger clock = .ok stored) :
    stored = none ∨ ∃ data entry after, stored = some after ∧
      Ledger.append fits data entry = .ok after ∧
      Handles ledger.document clock call data entry := by
  -- each kind of call either writes nothing or posts one entry
  cases call
  all_goals
    obtain ⟨update, ok, equal⟩ := bind_ok_iff.1 returned
    cases equal
  case grant =>
    obtain ⟨data, entry, balance, after, written, appended, rfl, added, nonneg⟩ :=
      Ledger.grant_writes ok
    exact .inr ⟨_, entry, after, written, appended, .grants added nonneg⟩
  case reserve =>
    obtain ⟨data, entry, after, written, appended, held⟩ := Ledger.reserve_writes ok
    exact .inr ⟨data, entry, after, written, appended, .holds (.inl rfl) held⟩
  case ensureReservation =>
    rcases Ledger.ensureReservation_writes ok with nothing | ⟨data, entry, after, written, appended, held⟩
    · exact .inl nothing
    · exact .inr ⟨data, entry, after, written, appended, .holds (.inr rfl) held⟩
  case settle => exact .inr (settle_handles ok)
  case ensureSettlement => exact ensureSettlement_handles ok
  case release =>
    obtain ⟨after, written, released⟩ := Ledger.release_writes ok
    obtain ⟨data, entry, appended, handled⟩ :=
      released_handles (.release _ _) released rfl fun exact => exact
    exact .inr ⟨data, entry, after, written, appended, handled⟩
  case ensureRelease =>
    rcases Ledger.ensureRelease_writes ok with nothing | ⟨after, written, funded, live, released⟩
    · exact .inl nothing
    obtain ⟨data, entry, appended, handled⟩ :=
      released_handles (.ensureRelease _ _ _) released rfl fun exact => exact funded live
    exact .inr ⟨data, entry, after, written, appended, handled⟩
  case reconcileReservation => exact reconcileReservation_handles ok

/-! ### What a posting preserves -/

private theorem stored_reservations {data : BudgetDocument} {entry : LedgerEntry} {after : Ledger}
    (appended : Ledger.append fits data entry = .ok after) (actionId : String) :
    after.document.reservations.lookup actionId = data.reservations.lookup actionId := by
  rw [Ledger.append_document appended]
  exact Dict.lookup_sorted data.reservations actionId

private theorem stored_entries {data : BudgetDocument} {entry : LedgerEntry} {after : Ledger}
    (appended : Ledger.append fits data entry = .ok after) :
    after.document.entries = data.entries ++ [entry] := by
  rw [Ledger.append_document appended]
  rfl

theorem Handles.accounts {before data : BudgetDocument} {call : LedgerCall} {entry : LedgerEntry}
    {after : Ledger} (handled : Handles before clock call data entry)
    (appended : Ledger.append fits data entry = .ok after) :
    call.Accounts before after.document := by
  have stored := stored_reservations appended
  cases handled with
  | grants =>
    constructor
    · intro id reservation found
      rw [stored] at found
      exact .inl found
    · intro id reservation found
      rw [stored]
      exact .inl found
  | @holds _ amountUsd requestId actionId _ _ which held =>
    -- only a call that holds money makes a reservation
    have makes : ∀ reservation, reservation = ⟨requestId, amountUsd.plain, clock 0⟩ →
        call.Makes actionId reservation := by
      rintro _ rfl
      rcases which with rfl | rfl <;> exact ⟨rfl, rfl, rfl⟩
    constructor
    · intro id reservation found
      rw [stored, held.reservations] at found
      by_cases same : id = actionId
      · rw [same, Dict.lookup_set, Option.some.injEq] at found
        exact .inr ⟨same ▸ held.fresh, same ▸ makes _ found.symm⟩
      · rw [Dict.lookup_set_ne same] at found
        exact .inl found
    · intro id reservation found
      have other : id ≠ actionId := by
        rintro rfl
        exact held.fresh (AList.lookup_isSome.1 (by rw [found]; rfl))
      rw [stored, held.reservations, Dict.lookup_set_ne other]
      exact .inl found
  | @drops _ requestId actionId _ _ dropped names =>
    constructor
    · intro id reservation found
      rw [stored, dropped.reservations] at found
      by_cases same : id = actionId
      · rw [same, AList.lookup_erase] at found
        cases found
      · rw [AList.lookup_erase_ne same] at found
        exact .inl found
    · intro id reservation found
      by_cases same : id = actionId
      · subst same
        -- a reservation that goes leaves an entry under its own request and action
        have owner := dropped.owned reservation found
        refine .inr ⟨?_, entry, ?_, dropped.actionId, ?_, ?_⟩
        · rw [← AList.lookup_isSome, stored, dropped.reservations, AList.lookup_erase]
          simp
        · rw [stored_entries appended, dropped.entries]
        · rw [dropped.requestId, owner]
        · rw [names, owner]
      · rw [stored, dropped.reservations, AList.lookup_erase_ne same]
        exact .inl found

/-- A posting on covered books with representable sums leaves covered books. -/
theorem Handles.covered {before data : BudgetDocument} {call : LedgerCall} {entry : LedgerEntry}
    (handled : Handles before clock call data entry) (exact : call.Exact before clock)
    (within : call.Within before)
    (view : ExactView before.balanceUsd.decimal.value before.reservations)
    (covered : 0 ≤ before.exactAvailable) :
    ExactView data.balanceUsd.decimal.value data.reservations ∧ 0 ≤ data.exactAvailable := by
  unfold exactAvailable at covered ⊢
  cases handled with
  | grants added nonneg =>
    obtain ⟨_, again, value⟩ := plus_exact exact.1
    rw [added] at again
    cases again
    rw [Decimal.plain_value, value]
    exact ⟨exact.2, by linarith⟩
  | holds which held =>
    -- what is reserved was available before
    obtain ⟨available, computed, enough⟩ := held.covered
    have value := available_value view computed
    unfold exactAvailable at value
    rw [held.reservations, held.balance, live_set held.fresh, Decimal.plain_value]
    refine ⟨?_, by linarith⟩
    rcases which with rfl | rfl
    · exact exact
    · exact exact held.fresh
  | drops dropped _ charged =>
    obtain ⟨charge, balance, bound, exactView⟩ := charged exact within
    rw [dropped.reservations, balance]
    exact ⟨exactView, by linarith⟩

end LedgerCall

namespace Books

open BudgetDocument

variable (fits : BudgetDocument → Bool)

/-- Every call of the run that returns settles and reconciles within live reservations. -/
def WithinRun : Books → List (LedgerCall × Clock) → Prop
  | _, [] => True
  | books, call :: calls =>
    ((∃ stored, call.1.written fits books.ledger call.2 = .ok stored) →
      call.1.Within books.ledger.document) ∧ WithinRun (books.step fits call) calls

/-- No state of the run overcommits, and every step accounts for the reservations. -/
def NoOvercommit : Books → List (LedgerCall × Clock) → Prop
  | books, [] => Solvent books.ledger.document
  | books, call :: calls => Solvent books.ledger.document ∧
    call.1.Accounts books.ledger.document (books.step fits call).ledger.document ∧
    NoOvercommit (books.step fits call) calls

variable {fits}

/-- Books whose available balance is exact, and not negative. -/
structure Covered (books : Books) : Prop where
  view : ExactView books.ledger.document.balanceUsd.decimal.value
    books.ledger.document.reservations
  available : 0 ≤ books.ledger.document.exactAvailable

theorem Covered.solvent {books : Books} (covered : books.Covered) :
    Solvent books.ledger.document := by
  obtain ⟨a, computed, value⟩ := available_exact covered.view
  refine ⟨⟨a, computed, by rw [value]; exact covered.available⟩, ?_,
    books.ledger.document.reservations.nodupKeys⟩
  intro actionId reservation found
  exact Ledger.reservation_positive found

private theorem exactView_sorted {balance : ℚ} {reservations : Dict String Reservation}
    (view : ExactView balance reservations) : ExactView balance reservations.sorted := by
  constructor
  · exact view.reread
  · rw [Dict.sorted_sorted]
    exact view.reread
  · rw [live_sorted]
    exact view.difference

theorem step_covered {books : Books} {call : LedgerCall × Clock} (covered : books.Covered)
    (exact : (∃ stored, call.1.written fits books.ledger call.2 = .ok stored) →
      call.1.Exact books.ledger.document call.2)
    (within : (∃ stored, call.1.written fits books.ledger call.2 = .ok stored) →
      call.1.Within books.ledger.document) :
    (books.step fits call).Covered ∧
      call.1.Accounts books.ledger.document (books.step fits call).ledger.document := by
  unfold step
  split
  next ledger returned =>
    rcases LedgerCall.handles returned with nothing | ⟨data, entry, after, same, appended, handled⟩
    · cases nothing
    cases same
    refine ⟨?_, handled.accounts appended⟩
    obtain ⟨view, available⟩ := handled.covered (exact ⟨_, returned⟩) (within ⟨_, returned⟩)
      covered.view covered.available
    have document := Ledger.append_document appended
    constructor
    · rw [document]
      exact exactView_sorted view
    · rw [document]
      simpa [exactAvailable, snapshot] using available
  next => exact ⟨covered, .refl _ _⟩

theorem run_noOvercommit {books : Books} {calls : List (LedgerCall × Clock)}
    (covered : books.Covered) (exact : ExactRun fits books calls)
    (within : WithinRun fits books calls) : NoOvercommit fits books calls := by
  induction calls generalizing books with
  | nil => exact covered.solvent
  | cons call calls ih =>
    obtain ⟨next, accounts⟩ := step_covered covered exact.1 within.1
    exact ⟨covered.solvent, accounts, ih next exact.2 within.2⟩

end Books

namespace Ledger

open BudgetDocument

/-- Runs of ledger calls whose sums stay representable never overcommit. -/
theorem no_overcommit (fits : BudgetDocument → Bool) (ledger : Ledger)
    (view : ExactView ledger.document.balanceUsd.decimal.value ledger.document.reservations)
    (start : ∃ a, ledger.document.available = .ok a ∧ 0 ≤ a.value)
    (calls : List (LedgerCall × Clock)) (exact : Books.ExactRun fits ⟨ledger, []⟩ calls)
    (within : Books.WithinRun fits ⟨ledger, []⟩ calls) :
    Books.NoOvercommit fits ⟨ledger, []⟩ calls := by
  obtain ⟨a, computed, nonneg⟩ := start
  have covered : Books.Covered ⟨ledger, []⟩ :=
    ⟨view, by rw [← available_value view computed]; exact nonneg⟩
  exact Books.run_noOvercommit covered exact within

theorem no_overcommit_reserve :
    Books.NoOvercommit (fun _ => true) ⟨emptyLedger, []⟩
      [(.grant (.ofNat 5) "", fun _ => 0), (.reserve (.ofNat 2) "req_" "act_", fun _ => 0)] := by
  have granted : (Books.step (fun _ => true) ⟨emptyLedger, []⟩
      (.grant (.ofNat 5) "", fun _ => 0)).ledger.document.balanceUsd = (Decimal.ofNat 5).plain ∧
      (Books.step (fun _ => true) ⟨emptyLedger, []⟩
        (.grant (.ofNat 5) "", fun _ => 0)).ledger.document.reservations = ∅ := by decide +kernel
  refine no_overcommit (fun _ => true) emptyLedger ?_ ⟨.zero, by decide +kernel, by simp⟩ _ ?_ ?_
  · simpa [emptyLedger, Decimal.plain_value] using exactView_idle (n := 0) (by norm_num)
  · refine ⟨fun _ => ?_, fun _ => ?_, trivial⟩
    · simp only [LedgerCall.Exact, emptyLedger, Decimal.plain_value, Decimal.zero_value, zero_add,
        Decimal.ofNat_value]
      exact ⟨representable_digit (by norm_num), exactView_idle (by norm_num)⟩
    · simp only [LedgerCall.Exact, granted, Decimal.plain_value, Decimal.ofNat_value]
      exact exactView_held (by norm_num) (by norm_num)
  · exact ⟨fun _ => trivial, fun _ => trivial, trivial⟩

/-- A balance of `10^28 - 1`, and nothing reserved. -/
private def fullLedger : Ledger where
  document := { emptyLedger.document with balanceUsd := Decimal.plain ⟨false, 10 ^ 28 - 1, 0⟩ }
  valid := rfl

/-- All but one unit is reserved, then a half, then the last unit under a key between the two. -/
private def crowdingCalls : List (LedgerCall × Clock) :=
  [(.reserve ⟨false, 10 ^ 28 - 2, 0⟩ "req_" "act_a", fun _ => 0),
   (.reserve ⟨false, 5, -1⟩ "req_" "act_c", fun _ => 0),
   (.reserve ⟨false, 1, 0⟩ "req_" "act_b", fun _ => 0)]

theorem rounding_overcommits :
    ¬ ∀ (ledger : Ledger) (calls : List (LedgerCall × Clock)),
      (∃ a, ledger.document.available = .ok a ∧ 0 ≤ a.value) →
      Books.WithinRun (fun _ => true) ⟨ledger, []⟩ calls →
      Books.NoOvercommit (fun _ => true) ⟨ledger, []⟩ calls := by
  intro always
  have start : fullLedger.document.available = .ok ⟨false, 10 ^ 28 - 1, 0⟩ := by decide +kernel
  have last : ((crowdingCalls.foldl (Books.step fun _ => true)
      ⟨fullLedger, []⟩).ledger.document.available) = .ok ⟨true, 1, 0⟩ := by decide +kernel
  have nonneg : (0 : ℚ) ≤ Decimal.value ⟨false, 10 ^ 28 - 1, 0⟩ := by
    simp [Decimal.value, Decimal.signed]
  obtain ⟨-, -, -, -, -, -, solvent⟩ := always fullLedger crowdingCalls ⟨_, start, nonneg⟩
    ⟨fun _ => trivial, fun _ => trivial, fun _ => trivial, trivial⟩
  obtain ⟨a, computed, positive⟩ := solvent.available
  have same := computed.symm.trans last
  rw [Except.ok.injEq] at same
  rw [same] at positive
  norm_num [Decimal.value, Decimal.signed] at positive

end Ledger
end DefiantHarness
