import DefiantHarness.LedgerReplay
import DefiantHarness.LedgerSolvency
import DefiantHarness.Foundation.DecimalRange

/-! The preview of a settlement and the settlement itself: one acceptance condition, and two ways of
computing the balance. -/
namespace DefiantHarness

open Foundation

namespace Ledger

open BudgetDocument

variable {fits : BudgetDocument → Bool} {ledger : Ledger} {expectedUsd actualUsd : Decimal}
  {requestId actionId completionRecordId : String} {clock : Clock}

/-- What both methods ask of a first settlement. -/
structure Settleable (document : BudgetDocument) (expectedUsd actualUsd : Decimal)
    (requestId actionId : String) : Prop where
  expected : 0 ≤ expectedUsd.value
  actual : 0 ≤ actualUsd.value
  request : requestId ≠ ""
  action : actionId ≠ ""
  first : dispositions document requestId actionId = []
  unreserved : document.reservations.lookup actionId = none → expectedUsd.value = 0
  reserved : ∀ reservation, document.reservations.lookup actionId = some reservation →
    reservation.requestId = requestId ∧ reservation.amountUsd.decimal.value = expectedUsd.value

/-- The document without the reservation of the action. -/
def withoutReservation (document : BudgetDocument) (actionId : String) : BudgetDocument :=
  { document with reservations := document.reservations.erase actionId }

/-- Every sum that leads to a balance, in the preview and in the settlement, is held without
rounding. -/
structure ExactSettlement (document : BudgetDocument) (actual : ℚ) (actionId : String) :
    Prop where
  view : ExactView document.balanceUsd.decimal.value document.reservations
  restored : defaultContext.Representable
    (document.balanceUsd.decimal.value - live (document.reservations.erase actionId))
  debited : defaultContext.Representable (document.balanceUsd.decimal.value - actual)
  remaining : ExactView (document.balanceUsd.decimal.value - actual)
    (document.reservations.erase actionId)

/-- The sum does not overflow exactly while it is in the range of the default context. -/
theorem plus_ok_iff {a b : Decimal} :
    (∃ r, plus a b = .ok r) ↔ defaultContext.InRange (a.value + b.value) := by
  simp only [plus, orRefuse_ok_iff, ← Option.isSome_iff_exists]
  exact Decimal.add_isSome_iff (by decide)

theorem minus_ok_iff {a b : Decimal} :
    (∃ r, minus a b = .ok r) ↔ defaultContext.InRange (a.value - b.value) := by
  simp only [minus, orRefuse_ok_iff, ← Option.isSome_iff_exists]
  exact Decimal.sub_isSome_iff (by decide)

/-- The document that a debit publishes, before the state ceilings are checked. -/
def debited (data : BudgetDocument) (actual reserved : Decimal) (requestId actionId : String)
    (completionRecordId : Option String) (clock : Clock) :
    Except HarnessError (BudgetDocument × Decimal) := do
  let balance ← minus data.balanceUsd.decimal actual
  let spent ← plus data.totalSpentUsd.decimal actual
  let data := { data with balanceUsd := balance.plain, totalSpentUsd := spent.plain }
  let remaining ← data.available
  pure ({ data with entries := data.entries ++
    [{ kind := .debit, amountUsd := actual.plain, balanceAfterUsd := remaining.plain
       requestId := requestId, actionId := actionId
       note := "reserved $" ++ reserved.plain.text
       atTime := clock 0, completionRecordId := completionRecordId }] }, remaining)

theorem debit_eq (data : BudgetDocument) (actual reserved : Decimal)
    (completionRecordId : Option String) :
    debit fits data actual reserved requestId actionId completionRecordId clock = (do
      let settled ← debited data actual reserved requestId actionId completionRecordId clock
      let stored ← write fits settled.1
      pure (stored, settled.2)) := by
  unfold debit debited append
  simp only [bind_assoc, pure_bind]

/-! ### The acceptance condition -/

theorem previewSettlement_eq (settleable : Settleable ledger.document expectedUsd actualUsd
    requestId actionId) :
    ledger.previewSettlement expectedUsd actualUsd requestId actionId = (do
      let available ← ledger.document.available
      let restored ← plus available expectedUsd
      minus restored actualUsd) := by
  obtain ⟨expected, actual, request, action, first, unreserved, reserved⟩ := settleable
  simp only [previewSettlement, money_ok_iff.2 ⟨rfl, expected⟩, money_ok_iff.2 ⟨rfl, actual⟩,
    requireText, refuseIf_of_not request, refuseIf_of_not action, ok_bind, first, ne_eq,
    not_true_eq_false, refuseIf_of_not (not_false)]
  cases found : ledger.document.reservations.lookup actionId with
  | none =>
    have zero : expectedUsd.isZero = true := (Decimal.isZero_iff _).2 (unreserved found)
    simp [zero, refuseIf_of_not]
  | some reservation =>
    obtain ⟨owner, amount⟩ := reserved reservation found
    -- a stored reservation is positive, so the expected amount is
    have positive : expectedUsd.isZero = false := by
      rw [← Bool.not_eq_true, Decimal.isZero_iff, ← amount]
      exact (reservation_positive found).ne'
    simp [positive, owner, (Decimal.eqv_iff _ _).2 amount, refuseIf_of_not]

theorem previewSettlement_settleable {remaining : Decimal}
    (previewed : ledger.previewSettlement expectedUsd actualUsd requestId actionId =
      .ok remaining) :
    Settleable ledger.document expectedUsd actualUsd requestId actionId := by
  simp only [previewSettlement, requireText, bind_ok_iff, money_ok_iff, refuseIf_ok_iff,
    not_not] at previewed
  obtain ⟨_, ⟨rfl, expected⟩, _, ⟨rfl, actual⟩, -, request, -, action, -, first, previewed⟩ :=
    previewed
  -- each branch has checked what `Settleable` asks of it
  split at previewed
  next absent =>
    simp only [bind_ok_iff, refuseIf_ok_iff, Bool.not_eq_false, Decimal.isZero_iff] at previewed
    obtain ⟨-, zero, -⟩ := previewed
    refine ⟨expected, actual, request, action, first, fun _ => zero, ?_⟩
    intro other found
    rw [absent] at found
    cases found
  next present =>
    simp only [bind_ok_iff, refuseIf_ok_iff, not_not, Decimal.eqv_iff] at previewed
    obtain ⟨-, -, -, matching, -⟩ := previewed
    refine ⟨expected, actual, request, action, first, ?_, ?_⟩
    · intro absent
      rw [present] at absent
      cases absent
    · intro other found
      rw [present, Option.some.injEq] at found
      exact found ▸ matching

theorem ensureSettlement_eq (evidence : startsWith "evd_" completionRecordId = true)
    (settleable : Settleable ledger.document expectedUsd actualUsd requestId actionId) :
    ledger.ensureSettlement fits expectedUsd actualUsd requestId actionId completionRecordId clock =
      (do
        let settled ← debit fits (withoutReservation ledger.document actionId) actualUsd expectedUsd
          requestId actionId (some completionRecordId) clock
        pure (.write settled.1 settled.2)) := by
  obtain ⟨expected, actual, request, action, first, unreserved, reserved⟩ := settleable
  have named : completionRecordId ≠ "" := by
    rintro rfl
    cases evidence
  have sealedId : hasEvidencePrefix completionRecordId = true := evidence
  simp only [ensureSettlement, money_ok_iff.2 ⟨rfl, expected⟩, money_ok_iff.2 ⟨rfl, actual⟩,
    requireText, refuseIf_of_not request, refuseIf_of_not action, refuseIf_of_not named, sealedId,
    ok_bind, first]
  cases found : ledger.document.reservations.lookup actionId with
  | none =>
    have zero : expectedUsd.isZero = true := (Decimal.isZero_iff _).2 (unreserved found)
    -- erasing a reservation that is not there changes nothing
    have same : withoutReservation ledger.document actionId = ledger.document := by
      unfold withoutReservation
      rw [show ledger.document.reservations.erase actionId = ledger.document.reservations from
        AList.ext (List.kerase_of_notMem_keys (AList.lookup_eq_none.1 found))]
    simp [zero, refuseIf_of_not, same]
  | some reservation =>
    obtain ⟨owner, amount⟩ := reserved reservation found
    simp [owner, (Decimal.eqv_iff _ _).2 amount, refuseIf_of_not, withoutReservation]

theorem ensureSettlement_settleable {after : Ledger} {remaining : Decimal}
    (settled : ledger.ensureSettlement fits expectedUsd actualUsd requestId actionId
      completionRecordId clock = .ok (.write after remaining)) :
    Settleable ledger.document expectedUsd actualUsd requestId actionId := by
  simp only [ensureSettlement, requireText, bind_ok_iff, money_ok_iff, refuseIf_ok_iff] at settled
  obtain ⟨_, ⟨rfl, expected⟩, _, ⟨rfl, actual⟩, -, request, -, action, -, -, -, -, settled⟩ :=
    settled
  split at settled
  next absent =>
    split at settled
    next =>
      simp only [bind_ok_iff, pure_ok_iff] at settled
      obtain ⟨_, -, same⟩ := settled
      cases same
    next =>
      simp only [bind_ok_iff, refuseIf_ok_iff, not_not, Bool.not_eq_false,
        Decimal.isZero_iff] at settled
      obtain ⟨-, first, -, zero, -⟩ := settled
      refine ⟨expected, actual, request, action, first, fun _ => zero, ?_⟩
      intro other found
      rw [absent] at found
      cases found
  next present =>
    simp only [bind_ok_iff, refuseIf_ok_iff, not_not, Decimal.eqv_iff] at settled
    obtain ⟨-, first, -, matching, -⟩ := settled
    refine ⟨expected, actual, request, action, first, ?_, ?_⟩
    · intro absent
      rw [present] at absent
      cases absent
    · intro other found
      rw [present, Option.some.injEq] at found
      exact found ▸ matching

/-! ### The settled document -/

theorem write_ok_iff {data : BudgetDocument} {after : Ledger} :
    write fits data = .ok after ↔
      data.snapshot.validate = .ok () ∧ fits data.snapshot = true ∧
        after.document = data.snapshot := by
  unfold write
  split
  next e checked => simp [checked]
  next checked =>
    split
    next within =>
      simp only [Except.ok.injEq, checked, within, true_and]
      constructor
      · rintro rfl
        trivial
      · intro same
        cases after
        subst same
        rfl
    next outside => simp [outside]

theorem validate_ok_iff {document : BudgetDocument} :
    document.validate = .ok () ↔
      (∀ item ∈ document.reservations.entries, checkReservation item = .ok ()) ∧
        (∀ item ∈ document.reconciliations.entries, checkReconciliation item = .ok ()) ∧
        ∀ item ∈ document.entries.zipIdx, checkEntry item = .ok () := by
  simp only [validate, unit_bind_ok_iff, checkAll_ok_iff]

/-- A document stays valid without a reservation and with a valid entry. -/
theorem posted_valid {data : BudgetDocument} {entry : LedgerEntry}
    (reservations : data.reservations = ledger.document.reservations.erase actionId)
    (reconciliations : data.reconciliations = ledger.document.reconciliations)
    (entries : data.entries = ledger.document.entries ++ [entry])
    (checked : ∀ n, checkEntry (entry, n) = .ok ()) : data.snapshot.validate = .ok () := by
  obtain ⟨held, marked, posted⟩ := validate_ok_iff.1 ledger.valid
  refine validate_ok_iff.2 ⟨?_, ?_, ?_⟩
  · intro item member
    have remaining := (Dict.sorted_perm _).mem_iff.1 member
    rw [reservations] at remaining
    exact held item ((List.kerase_sublist _ _).subset remaining)
  · intro item member
    have kept := (Dict.sorted_perm _).mem_iff.1 member
    rw [reconciliations] at kept
    exact marked item kept
  · intro item member
    simp only [snapshot, entries, List.zipIdx_append, List.mem_append] at member
    rcases member with earlier | last
    · exact posted item earlier
    · simp only [List.zipIdx_singleton, List.mem_singleton] at last
      subst last
      exact checked _

/-- A debit of a valid amount under an evidence record keeps the document valid. -/
theorem debited_valid {actual reserved : Decimal} {settled : BudgetDocument × Decimal}
    (nonneg : 0 ≤ actual.value) (evidence : startsWith "evd_" completionRecordId = true)
    (computed : debited (withoutReservation ledger.document actionId) actual reserved requestId
      actionId (some completionRecordId) clock = .ok settled) :
    settled.1.snapshot.validate = .ok () := by
  simp only [debited, bind_ok_iff, pure_ok_iff] at computed
  obtain ⟨_, -, _, -, _, -, rfl⟩ := computed
  refine posted_valid rfl rfl rfl fun n => ?_
  have sealedId : hasEvidencePrefix completionRecordId = true := evidence
  simp [checkEntry, money_ok_iff.2 ⟨rfl, (Decimal.plain_value actual).symm ▸ nonneg⟩, sealedId]

private theorem debited_exact {actual reserved : Decimal} {document : BudgetDocument}
    (exact : ExactSettlement document actual.value actionId)
    (spending : defaultContext.InRange (document.totalSpentUsd.decimal.value + actual.value)) :
    ∃ settled, debited (withoutReservation document actionId) actual reserved requestId actionId
        (some completionRecordId) clock = .ok settled ∧
      settled.2.value = document.balanceUsd.decimal.value - actual.value -
        live (document.reservations.erase actionId) := by
  obtain ⟨balance, subtracted, difference⟩ := minus_exact
    (a := document.balanceUsd.decimal) (b := actual) exact.debited
  obtain ⟨spent, added⟩ := plus_ok_iff.2 spending
  have view : ExactView balance.plain.decimal.value (document.reservations.erase actionId) := by
    rw [Decimal.plain_value, difference]
    exact exact.remaining
  obtain ⟨remaining, computed, value⟩ : ∃ remaining, BudgetDocument.available { document with
      reservations := document.reservations.erase actionId
      balanceUsd := balance.plain, totalSpentUsd := spent.plain } = .ok remaining ∧ _ :=
    available_exact view
  have amount : remaining.value = document.balanceUsd.decimal.value - actual.value -
      live (document.reservations.erase actionId) := by
    rw [value, exactAvailable, Decimal.plain_value, difference]
  simp only [debited, withoutReservation, subtracted, added, ok_bind, computed, pure_eq_ok,
    Except.ok.injEq, exists_eq_left', amount]

private theorem previewed_exact {document : BudgetDocument}
    (settleable : Settleable document expectedUsd actualUsd requestId actionId)
    (exact : ExactSettlement document actualUsd.value actionId) :
    ∃ remaining, (do
        let available ← document.available
        let restored ← plus available expectedUsd
        minus restored actualUsd) = .ok remaining ∧
      remaining.value = document.balanceUsd.decimal.value - actualUsd.value -
        live (document.reservations.erase actionId) := by
  -- the expected amount is what the reservations lose
  have expected : expectedUsd.value =
      live document.reservations - live (document.reservations.erase actionId) := by
    cases found : document.reservations.lookup actionId with
    | none =>
      rw [settleable.unreserved found, erase_absent found, sub_self]
    | some reservation =>
      rw [live_erase found, ← (settleable.reserved reservation found).2]
      ring
  obtain ⟨available, computed, value⟩ := available_exact exact.view
  have sum : available.value + expectedUsd.value = document.balanceUsd.decimal.value -
      live (document.reservations.erase actionId) := by
    rw [value, exactAvailable, expected]
    ring
  obtain ⟨restored, added, total⟩ := plus_exact (a := available) (b := expectedUsd)
    (by rw [sum]; exact exact.restored)
  have rest : restored.value - actualUsd.value = document.balanceUsd.decimal.value -
      actualUsd.value - live (document.reservations.erase actionId) := by
    rw [total, sum]
    ring
  obtain ⟨remaining, subtracted, difference⟩ := minus_exact (a := restored) (b := actualUsd)
    (by rw [rest]; exact exact.remaining.difference)
  refine ⟨remaining, ?_, difference.trans rest⟩
  simp only [computed, added, subtracted, ok_bind]

/-! ### Agreement -/

/-- The preview answers an amount exactly when the first settlement succeeds with it, and posts it
as the balance of its entry. -/
def PreviewAgrees (fits : BudgetDocument → Bool) (ledger : Ledger) (expectedUsd actualUsd : Decimal)
    (requestId actionId completionRecordId : String) (clock : Clock) : Prop :=
  ∀ amount : ℚ,
    (∃ previewed, ledger.previewSettlement expectedUsd actualUsd requestId actionId =
        .ok previewed ∧ previewed.value = amount) ↔
      -- what the settlement answers, and the balance its entry records
      ∃ after remaining entry, ledger.ensureSettlement fits expectedUsd actualUsd requestId actionId
          completionRecordId clock = .ok (.write after remaining) ∧
        remaining.value = amount ∧
        after.document.entries = ledger.document.entries ++ [entry] ∧
        entry.balanceAfterUsd.decimal.value = amount

/-- The document that the settlement publishes is within the state ceilings. -/
def FitsSettled (fits : BudgetDocument → Bool) (document : BudgetDocument)
    (expectedUsd actualUsd : Decimal) (requestId actionId completionRecordId : String)
    (clock : Clock) : Prop :=
  ∀ settled, debited (withoutReservation document actionId) actualUsd expectedUsd requestId actionId
    (some completionRecordId) clock = .ok settled → fits settled.1.snapshot = true

private theorem debited_entry {data : BudgetDocument} {actual reserved : Decimal}
    {settled : BudgetDocument × Decimal}
    (computed : debited data actual reserved requestId actionId (some completionRecordId) clock =
      .ok settled) :
    ∃ entry, settled.1.entries = data.entries ++ [entry] ∧
      entry.balanceAfterUsd = settled.2.plain := by
  simp only [debited, bind_ok_iff, pure_ok_iff] at computed
  obtain ⟨_, -, _, -, _, -, rfl⟩ := computed
  exact ⟨_, rfl, rfl⟩

/-- A settlement that writes has computed its document. -/
private theorem ensureSettlement_debited {after : Ledger} {remaining : Decimal}
    (evidence : startsWith "evd_" completionRecordId = true)
    (settleable : Settleable ledger.document expectedUsd actualUsd requestId actionId)
    (ok : ledger.ensureSettlement fits expectedUsd actualUsd requestId actionId completionRecordId
      clock = .ok (.write after remaining)) :
    ∃ settled, debited (withoutReservation ledger.document actionId) actualUsd expectedUsd requestId
      actionId (some completionRecordId) clock = .ok settled := by
  rw [ensureSettlement_eq evidence settleable, debit_eq] at ok
  simp only [bind_ok_iff] at ok
  obtain ⟨_, ⟨settled, computed, -⟩, -⟩ := ok
  exact ⟨settled, computed⟩

/-- A settlement that its conditions accept succeeds exactly when its document fits. -/
private theorem ensureSettlement_iff {settled : BudgetDocument × Decimal} {after : Ledger}
    {remaining : Decimal} (evidence : startsWith "evd_" completionRecordId = true)
    (settleable : Settleable ledger.document expectedUsd actualUsd requestId actionId)
    (computed : debited (withoutReservation ledger.document actionId) actualUsd expectedUsd
      requestId actionId (some completionRecordId) clock = .ok settled) :
    ledger.ensureSettlement fits expectedUsd actualUsd requestId actionId completionRecordId clock =
        .ok (.write after remaining) ↔
      fits settled.1.snapshot = true ∧ after.document = settled.1.snapshot ∧
        remaining = settled.2 := by
  have valid := debited_valid settleable.actual evidence computed
  rw [ensureSettlement_eq evidence settleable, debit_eq, computed]
  simp only [ok_bind, bind_ok_iff, pure_ok_iff, write_ok_iff, valid, true_and]
  constructor
  · rintro ⟨_, ⟨stored, ⟨within, document⟩, rfl⟩, same⟩
    simp only [Update.write, Update.mk.injEq, Option.some.injEq] at same
    obtain ⟨rfl, rfl⟩ := same
    exact ⟨within, document, rfl⟩
  · rintro ⟨within, document, rfl⟩
    exact ⟨_, ⟨after, ⟨within, document⟩, rfl⟩, rfl⟩

/-- A debit needs the total spent to stay in the decimal range. -/
private theorem debited_inRange {data : BudgetDocument} {actual reserved : Decimal}
    {settled : BudgetDocument × Decimal}
    (computed : debited data actual reserved requestId actionId (some completionRecordId) clock =
      .ok settled) :
    defaultContext.InRange (data.totalSpentUsd.decimal.value + actual.value) := by
  simp only [debited, bind_ok_iff] at computed
  obtain ⟨_, -, spent, added, -⟩ := computed
  exact plus_ok_iff.1 ⟨spent, added⟩

/-- A balance of `10^28 - 1` units, half a unit of it reserved. -/
def crowdedLedger : Ledger :=
  (Books.run (fun _ => true) ⟨emptyLedger, []⟩
    [(.grant ⟨false, 10 ^ 28 - 1, 0⟩ "", fun _ => 0),
      (.ensureReservation ⟨false, 5, -1⟩ "req_" "act_", fun _ => 0)]).ledger

end Ledger
end DefiantHarness
