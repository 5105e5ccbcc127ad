import DefiantHarness.LedgerConservation

/-! What each ledger operation of the control path can do: the entry it posts, and the actions that
hold a reservation or a reconciliation marker afterwards. -/
namespace DefiantHarness

open Foundation

/-- One entry is posted. The actions with a reservation are then `held`, the reconciled ones
`closed`. -/
structure Posted (before after : BudgetDocument) (entry : LedgerEntry)
    (held closed : String → Prop) : Prop where
  entries : after.entries = before.entries ++ [entry]
  reservations : ∀ id, id ∈ after.reservations ↔ held id
  reconciliations : ∀ id, id ∈ after.reconciliations ↔ closed id

namespace Ledger

open BudgetDocument

variable {fits : BudgetDocument → Bool} {ledger : Ledger} {requestId actionId : String}
  {clock : Clock}

/-- A new reservation of the action. -/
def Reserves (before after : BudgetDocument) (actionId : String) : Prop :=
  ∃ entry, entry.kind = .reserve ∧ entry.completionRecordId = none ∧
    Posted before after entry (fun id => id = actionId ∨ id ∈ before.reservations)
      (· ∈ before.reconciliations)

/-- The reservation of the action, if there is one, is gone. -/
def Frees (before after : BudgetDocument) (actionId : String) (entry : LedgerEntry) : Prop :=
  Posted before after entry (fun id => id ≠ actionId ∧ id ∈ before.reservations)
    (· ∈ before.reconciliations)

/-- The reservation of the action is gone, and the action is marked as reconciled. -/
def Reconciles (before after : BudgetDocument) (actionId : String) : Prop :=
  ∃ entry, entry.kind = .reconcile ∧ entry.completionRecordId = none ∧
    Posted before after entry (fun id => id ≠ actionId ∧ id ∈ before.reservations)
      (fun id => id = actionId ∨ id ∈ before.reconciliations)

private theorem append_posted {before data : BudgetDocument} {entry : LedgerEntry} {after : Ledger}
    {held closed : String → Prop} (appended : append fits data entry = .ok after)
    (entries : data.entries = before.entries) (reservations : ∀ id, id ∈ data.reservations ↔ held id)
    (reconciliations : ∀ id, id ∈ data.reconciliations ↔ closed id) :
    Posted before after.document entry held closed := by
  rw [append_document appended]
  constructor
  · simp [snapshot, entries]
  · intro id
    simp only [snapshot, Dict.mem_sorted, reservations]
  · intro id
    simp only [snapshot, Dict.mem_sorted, reconciliations]

private theorem addReservation_reserves {data : BudgetDocument} {amount : Decimal}
    {after : Ledger} (added : addReservation fits data amount requestId actionId clock = .ok after) :
    Reserves data after.document actionId := by
  simp only [addReservation, bind_ok_iff] at added
  obtain ⟨_, -, -, -, _, -, available, -, stored⟩ := added
  refine ⟨_, ?_, ?_, append_posted stored rfl (fun id => Dict.mem_set_iff _ _ _ _)
    fun _ => Iff.rfl⟩ <;> rfl

theorem reserve_ok {amount : Decimal} {update : Update Ledger Unit}
    (reserved : ledger.reserve fits amount requestId actionId clock = .ok update) :
    ∃ after, update = .write after () ∧ Reserves ledger.document after.document actionId := by
  simp only [reserve, bind_ok_iff, pure_ok_iff] at reserved
  obtain ⟨_, -, -, -, -, -, -, -, -, -, after, added, rfl⟩ := reserved
  exact ⟨after, rfl, addReservation_reserves added⟩

theorem ensureReservation_ok {amount : Decimal} {update : Update Ledger Unit}
    (reserved : ledger.ensureReservation fits amount requestId actionId clock = .ok update) :
    (actionId ∈ ledger.document.reservations ∧ update = .unchanged ()) ∨
      ∃ after, update = .write after () ∧ actionId ∉ ledger.document.reservations ∧
        Reserves ledger.document after.document actionId := by
  simp only [ensureReservation, bind_ok_iff] at reserved
  obtain ⟨_, -, -, -, -, -, -, -, reserved⟩ := reserved
  split at reserved
  next present =>
    simp only [bind_ok_iff, pure_ok_iff] at reserved
    obtain ⟨-, -, rfl⟩ := reserved
    exact .inl ⟨AList.lookup_isSome.1 (by rw [present]; rfl), rfl⟩
  next absent =>
    simp only [bind_ok_iff, pure_ok_iff] at reserved
    obtain ⟨after, added, rfl⟩ := reserved
    exact .inr ⟨after, rfl, AList.lookup_eq_none.1 absent, addReservation_reserves added⟩

private theorem mem_erase_iff {reservations : Dict String Reservation} (id : String) :
    id ∈ reservations.erase actionId ↔ id ≠ actionId ∧ id ∈ reservations := by
  rw [AList.mem_erase, and_comm, and_comm, ne_eq]

private theorem popReservation_shape {data : BudgetDocument} {popped : BudgetDocument × Decimal}
    (taken : popReservation data requestId actionId = .ok popped) :
    popped.1 = { data with reservations := data.reservations.erase actionId } := by
  simp only [popReservation, bind_ok_iff, pure_ok_iff] at taken
  obtain ⟨_, -, -, -, rfl⟩ := taken
  rfl

private theorem giveBack_frees {before data : BudgetDocument} {reserved : Decimal}
    {given : Ledger × Decimal}
    (popped : data = { before with reservations := before.reservations.erase actionId })
    (ok : giveBack fits data reserved requestId actionId clock = .ok given) :
    ∃ entry, entry.kind = .release ∧ entry.completionRecordId = none ∧
      Frees before given.1.document actionId entry := by
  subst popped
  simp only [giveBack, bind_ok_iff, pure_ok_iff] at ok
  obtain ⟨_, -, _, -, stored, appended, rfl⟩ := ok
  refine ⟨_, ?_, ?_, append_posted appended rfl mem_erase_iff fun _ => Iff.rfl⟩ <;> rfl

theorem release_ok {update : Update Ledger Decimal}
    (released : ledger.release fits requestId actionId clock = .ok update) :
    ∃ after remaining entry, update = .write after remaining ∧ entry.kind = .release ∧
      entry.completionRecordId = none ∧ Frees ledger.document after.document actionId entry := by
  simp only [release, bind_ok_iff, pure_ok_iff] at released
  obtain ⟨-, -, -, -, popped, taken, given, gave, rfl⟩ := released
  obtain ⟨entry, kind, completion, frees⟩ := giveBack_frees (popReservation_shape taken) gave
  exact ⟨given.1, given.2, entry, rfl, kind, completion, frees⟩

theorem ensureRelease_ok {expected : Decimal} {update : Update Ledger Decimal}
    (released : ledger.ensureRelease fits expected requestId actionId clock = .ok update) :
    (update.written = none ∧ (expected.isZero = true ∨ actionId ∉ ledger.document.reservations)) ∨
      ∃ after remaining entry, update = .write after remaining ∧ entry.kind = .release ∧
        entry.completionRecordId = none ∧
        Frees ledger.document after.document actionId entry := by
  simp only [ensureRelease, bind_ok_iff, money_ok_iff] at released
  obtain ⟨_, ⟨rfl, -⟩, -, -, -, -, released⟩ := released
  split at released
  next zero =>
    simp only [bind_ok_iff, pure_ok_iff] at released
    obtain ⟨_, -, rfl⟩ := released
    exact .inl ⟨rfl, .inl zero⟩
  next =>
    split at released
    next absent =>
      simp only [bind_ok_iff, pure_ok_iff] at released
      obtain ⟨-, -, _, -, rfl⟩ := released
      exact .inl ⟨rfl, .inr (AList.lookup_eq_none.1 absent)⟩
    next =>
      simp only [bind_ok_iff, pure_ok_iff] at released
      obtain ⟨-, -, popped, taken, given, gave, rfl⟩ := released
      obtain ⟨entry, kind, completion, frees⟩ := giveBack_frees (popReservation_shape taken) gave
      exact .inr ⟨given.1, given.2, entry, rfl, kind, completion, frees⟩

/-- The entry of a settlement. -/
def Settles (entry : LedgerEntry) (actual remaining : Decimal) (requestId actionId : String)
    (completion : Option String) : Prop :=
  entry.kind = .debit ∧ entry.amountUsd = actual.plain ∧ entry.balanceAfterUsd = remaining.plain ∧
    entry.requestId = requestId ∧ entry.actionId = actionId ∧ entry.completionRecordId = completion

private theorem debit_frees {before data : BudgetDocument} {actual reserved : Decimal}
    {completion : Option String} {debited : Ledger × Decimal}
    (popped : data = { before with reservations := before.reservations.erase actionId })
    (ok : debit fits data actual reserved requestId actionId completion clock = .ok debited) :
    ∃ entry, Settles entry actual debited.2 requestId actionId completion ∧
      Frees before debited.1.document actionId entry := by
  subst popped
  simp only [debit, bind_ok_iff, pure_ok_iff] at ok
  obtain ⟨_, -, _, -, remaining, -, stored, appended, rfl⟩ := ok
  refine ⟨_, ?_, append_posted appended rfl mem_erase_iff fun _ => Iff.rfl⟩
  exact ⟨rfl, rfl, rfl, rfl, rfl, rfl⟩

private theorem erase_of_absent {data : BudgetDocument}
    (absent : data.reservations.lookup actionId = none) :
    data = { data with reservations := data.reservations.erase actionId } := by
  have same : data.reservations.erase actionId = data.reservations :=
    AList.ext (List.kerase_of_notMem_keys (AList.lookup_eq_none.1 absent))
  rw [same]

theorem ensureSettlement_ok {expected actual : Decimal} {completionRecordId : String}
    {update : Update Ledger Decimal}
    (settled : ledger.ensureSettlement fits expected actual requestId actionId completionRecordId
      clock = .ok update) :
    (update.written = none ∧ actionId ∉ ledger.document.reservations) ∨
      ∃ after remaining entry, update = .write after remaining ∧
        dispositions ledger.document requestId actionId = [] ∧
        Settles entry actual remaining requestId actionId (some completionRecordId) ∧
        Frees ledger.document after.document actionId entry := by
  simp only [ensureSettlement, bind_ok_iff, money_ok_iff] at settled
  obtain ⟨_, ⟨rfl, -⟩, _, ⟨rfl, -⟩, -, -, -, -, -, -, -, -, settled⟩ := settled
  split at settled
  next absent =>
    split at settled
    next =>
      simp only [bind_ok_iff, pure_ok_iff] at settled
      obtain ⟨_, -, rfl⟩ := settled
      exact .inl ⟨rfl, AList.lookup_eq_none.1 absent⟩
    next =>
      simp only [bind_ok_iff, pure_ok_iff, refuseIf_ok_iff, not_not] at settled
      obtain ⟨-, first, -, -, debited, ok, rfl⟩ := settled
      obtain ⟨entry, settles, frees⟩ := debit_frees (erase_of_absent absent) ok
      exact .inr ⟨debited.1, debited.2, entry, rfl, first, settles, frees⟩
  next =>
    simp only [bind_ok_iff, pure_ok_iff, refuseIf_ok_iff, not_not] at settled
    obtain ⟨-, first, -, -, debited, ok, rfl⟩ := settled
    obtain ⟨entry, settles, frees⟩ := debit_frees rfl ok
    exact .inr ⟨debited.1, debited.2, entry, rfl, first, settles, frees⟩

private theorem takeReservation_shape {data : BudgetDocument} {expected : Decimal}
    {taken : BudgetDocument × Option Decimal}
    (ok : takeReservation data expected requestId actionId = .ok taken) :
    taken.1 = { data with reservations := data.reservations.erase actionId } := by
  unfold takeReservation at ok
  split at ok
  next absent =>
    cases ok
    exact erase_of_absent absent
  next present =>
    simp only [bind_ok_iff, pure_ok_iff] at ok
    obtain ⟨-, -, -, -, rfl⟩ := ok
    rfl

private theorem lowerEstimate_shape {before data : BudgetDocument} {disposition : Disposition}
    {released : Decimal} (lowered : lowerEstimate before disposition released = .ok data) :
    data.entries = before.entries ∧ data.reservations = before.reservations ∧
      data.reconciliations = before.reconciliations := by
  unfold lowerEstimate at lowered
  split at lowered
  next =>
    simp only [bind_ok_iff, pure_ok_iff] at lowered
    obtain ⟨_, -, rfl⟩ := lowered
    exact ⟨rfl, rfl, rfl⟩
  next =>
    cases lowered
    exact ⟨rfl, rfl, rfl⟩

private theorem chargeTotals_shape {before data : BudgetDocument} {charge : Decimal}
    (taken : chargeTotals before charge = .ok data) :
    data.entries = before.entries ∧ data.reservations = before.reservations ∧
      data.reconciliations = before.reconciliations := by
  unfold chargeTotals at taken
  split at taken
  next =>
    simp only [bind_ok_iff, pure_ok_iff] at taken
    obtain ⟨_, -, _, -, rfl⟩ := taken
    exact ⟨rfl, rfl, rfl⟩
  next =>
    cases taken
    exact ⟨rfl, rfl, rfl⟩

theorem reconcileReservation_ok {expected : Decimal} {outcome : Outcome}
    {reconciledBy note : String} {authority : Option LedgerAuthority}
    {update : Update Ledger Reconciliation}
    (reconciled : ledger.reconcileReservation fits expected requestId actionId outcome reconciledBy
      note authority clock = .ok update) :
    (update.written = none ∧ actionId ∈ ledger.document.reconciliations) ∨
      ∃ after marker, update = .write after marker ∧
        actionId ∉ ledger.document.reconciliations ∧
        Reconciles ledger.document after.document actionId := by
  simp only [reconcileReservation, bind_ok_iff] at reconciled
  obtain ⟨_, -, -, -, -, -, -, -, -, -, -, -, reconciled⟩ := reconciled
  split at reconciled
  -- the marker is there already, and nothing is posted again
  next present =>
    simp only [bind_ok_iff, pure_ok_iff] at reconciled
    obtain ⟨-, -, rfl⟩ := reconciled
    exact .inl ⟨rfl, AList.lookup_isSome.1 (by rw [present]; rfl)⟩
  next absent =>
    simp only [bind_ok_iff, pure_ok_iff] at reconciled
    obtain ⟨⟨base, reserved⟩, taken, -, -, lowered, estimate, data, totals, remaining, -, after,
      appended, rfl⟩ := reconciled
    have shape := takeReservation_shape taken
    obtain ⟨lowEntries, lowReservations, lowMarkers⟩ := lowerEstimate_shape estimate
    obtain ⟨entries, reservations, markers⟩ := chargeTotals_shape totals
    simp only at shape
    subst shape
    refine .inr ⟨after, _, rfl, AList.lookup_eq_none.1 absent, _, ?_, ?_,
      append_posted appended (entries.trans lowEntries) ?_ ?_⟩
    · rfl
    · rfl
    · intro id
      simp only [reservations, lowReservations, mem_erase_iff]
    · intro id
      simp only [Dict.mem_set_iff, markers, lowMarkers]

end Ledger
end DefiantHarness
