import DefiantHarness.SettlementPreview

/-! Calls that meet a journaled operation on the same action: the same call again, and the calls that
conflict with it. -/
namespace DefiantHarness

open Foundation

namespace Ledger

open BudgetDocument

variable {fits : BudgetDocument → Bool} {ledger : Ledger} {expectedUsd actualUsd : Decimal}
  {requestId actionId completionRecordId : String} {clock : Clock}

/-! ### What a release posts -/

/-- The document that a release publishes, before the state ceilings are checked. -/
def givenBack (data : BudgetDocument) (reserved : Decimal) (requestId actionId : String)
    (clock : Clock) : Except HarnessError (BudgetDocument × Decimal) := do
  let estimated ← minus data.totalEstimatedUsd.decimal reserved
  let data := { data with totalEstimatedUsd := estimated.plain }
  let remaining ← data.available
  pure ({ data with entries := data.entries ++
    [{ kind := .release, amountUsd := reserved.plain, balanceAfterUsd := remaining.plain
       requestId := requestId, actionId := actionId, note := "action did not execute"
       atTime := clock 0 }] }, remaining)

private theorem giveBack_eq (data : BudgetDocument) (reserved : Decimal) :
    giveBack fits data reserved requestId actionId clock = (do
      let released ← givenBack data reserved requestId actionId clock
      let stored ← write fits released.1
      pure (stored, released.2)) := by
  unfold giveBack givenBack append
  simp only [bind_assoc, pure_bind]

private theorem givenBack_valid {reserved : Decimal} {released : BudgetDocument × Decimal}
    (nonneg : 0 ≤ reserved.value)
    (computed : givenBack (withoutReservation ledger.document actionId) reserved requestId actionId
      clock = .ok released) : released.1.snapshot.validate = .ok () := by
  simp only [givenBack, bind_ok_iff, pure_ok_iff] at computed
  obtain ⟨_, -, _, -, rfl⟩ := computed
  refine posted_valid rfl rfl rfl fun n => ?_
  simp [checkEntry, money_ok_iff.2 ⟨rfl, (Decimal.plain_value reserved).symm ▸ nonneg⟩]

private theorem write_posts {data : BudgetDocument} (valid : data.snapshot.validate = .ok ()) :
    (∃ after, write fits data = .ok after) ↔ fits data.snapshot = true := by
  constructor
  · rintro ⟨after, stored⟩
    exact (write_ok_iff.1 stored).2.1
  · intro within
    exact ⟨⟨data.snapshot, valid⟩, write_ok_iff.2 ⟨valid, within, rfl⟩⟩

/-! ### When the operations succeed -/

/-- The debit of a settlement without a reservation can be posted: its sums stay in the decimal range,
and the document within the state ceilings. -/
def DebitPosts (fits : BudgetDocument → Bool) (document : BudgetDocument)
    (expectedUsd actualUsd : Decimal) (requestId actionId completionRecordId : String)
    (clock : Clock) : Prop :=
  ∃ settled, debited document actualUsd expectedUsd requestId actionId (some completionRecordId)
    clock = .ok settled ∧ fits settled.1.snapshot = true

/-- The reservation of this request and amount is live, and giving it back can be posted. -/
def ReleasePosts (fits : BudgetDocument → Bool) (document : BudgetDocument) (expectedUsd : Decimal)
    (requestId actionId : String) (clock : Clock) : Prop :=
  ∃ reservation, document.reservations.lookup actionId = some reservation ∧
    reservation.requestId = requestId ∧ reservation.amountUsd.decimal.value = expectedUsd.value ∧
    ∃ released, givenBack (withoutReservation document actionId) reservation.amountUsd.decimal
      requestId actionId clock = .ok released ∧ fits released.1.snapshot = true

/-- Without a live reservation a settlement recognizes its own debit, or posts one for an estimate of
zero that the request has not disposed of. -/
theorem ensureSettlement_ok_iff (free : ledger.document.reservations.lookup actionId = none) :
    (∃ update, ledger.ensureSettlement fits expectedUsd actualUsd requestId actionId
      completionRecordId clock = .ok update) ↔
      SettlementArguments expectedUsd actualUsd requestId actionId completionRecordId ∧
        ((DebitRecorded ledger.document expectedUsd actualUsd requestId actionId completionRecordId ∧
            ∃ available, ledger.document.available = .ok available) ∨
          (expectedUsd.isZero = true ∧ dispositions ledger.document requestId actionId = [] ∧
            DebitPosts fits ledger.document expectedUsd actualUsd requestId actionId
              completionRecordId clock)) := by
  -- there is no reservation to take away
  have whole : withoutReservation ledger.document actionId = ledger.document := by
    unfold withoutReservation
    rw [show ledger.document.reservations.erase actionId = ledger.document.reservations from
      AList.ext (List.kerase_of_notMem_keys (AList.lookup_eq_none.1 free))]
  have settles (arguments : SettlementArguments expectedUsd actualUsd requestId actionId
      completionRecordId) (zero : expectedUsd.isZero = true)
      (first : dispositions ledger.document requestId actionId = []) :
      Settleable ledger.document expectedUsd actualUsd requestId actionId := by
    refine ⟨arguments.expected, arguments.actual, arguments.request, arguments.action, first,
      fun _ => (Decimal.isZero_iff _).1 zero, fun reservation found => ?_⟩
    rw [free] at found
    cases found
  constructor
  · rintro ⟨update, ok⟩
    have arguments := ensureSettlement_arguments ok
    refine ⟨arguments, ?_⟩
    -- the call wrote nothing, and then its debit is in the book, or it posted it
    obtain ⟨outcome, effect⟩ := ensureSettlement_leaves ok
    rcases outcome with nothing | ⟨after, -, first, zero, -⟩
    · rw [nothing, Option.getD_none] at effect
      rw [ensureSettlement_replays arguments effect] at ok
      refine .inl ⟨effect, ?_⟩
      cases read : ledger.document.available with
      | error e =>
        rw [read] at ok
        cases ok
      | ok available => exact ⟨available, rfl⟩
    · refine .inr ⟨zero free, first, ?_⟩
      rw [ensureSettlement_eq arguments.completion (settles arguments (zero free) first), debit_eq,
        whole] at ok
      simp only [bind_ok_iff] at ok
      obtain ⟨_, ⟨settled, computed, stored, wrote, -⟩, -⟩ := ok
      exact ⟨settled, computed, (write_ok_iff.1 wrote).2.1⟩
  · rintro ⟨arguments, ⟨recorded, available, read⟩ | ⟨zero, first, settled, computed, within⟩⟩
    · exact ⟨.unchanged available, by rw [ensureSettlement_replays arguments recorded, read]; rfl⟩
    · have valid := debited_valid arguments.actual arguments.completion (whole.symm ▸ computed)
      obtain ⟨after, stored⟩ := (write_posts valid).2 within
      refine ⟨.write after settled.2, ?_⟩
      rw [ensureSettlement_eq arguments.completion (settles arguments zero first), debit_eq, whole,
        computed, ok_bind, stored]
      rfl

/-- A release answers the balance for nothing, recognizes its own entry, or gives the live reservation
back. -/
theorem ensureRelease_ok_iff :
    (∃ update, ledger.ensureRelease fits expectedUsd requestId actionId clock = .ok update) ↔
      ReleaseArguments expectedUsd requestId actionId ∧
        (((expectedUsd.isZero = true ∨ ReleaseRecorded ledger.document expectedUsd requestId actionId) ∧
            ∃ available, ledger.document.available = .ok available) ∨
          (expectedUsd.isZero = false ∧
            ReleasePosts fits ledger.document expectedUsd requestId actionId clock)) := by
  have answers (arguments : ReleaseArguments expectedUsd requestId actionId)
      (recorded : expectedUsd.isZero = true ∨
        ReleaseRecorded ledger.document expectedUsd requestId actionId) :
      (∃ update, ledger.ensureRelease fits expectedUsd requestId actionId clock = .ok update) ↔
        ∃ available, ledger.document.available = .ok available := by
    rw [ensureRelease_replays arguments recorded]
    cases ledger.document.available <;> simp [Except.map]
  -- with a live reservation the release is the posting of the amount that it holds
  have gives (arguments : ReleaseArguments expectedUsd requestId actionId)
      (positive : expectedUsd.isZero = false) {reservation : Reservation}
      (found : ledger.document.reservations.lookup actionId = some reservation)
      (owner : reservation.requestId = requestId)
      (amount : reservation.amountUsd.decimal.value = expectedUsd.value) :
      ledger.ensureRelease fits expectedUsd requestId actionId clock = (do
        let released ← givenBack (withoutReservation ledger.document actionId)
          reservation.amountUsd.decimal requestId actionId clock
        let stored ← write fits released.1
        pure (.write stored released.2)) := by
    simp only [ensureRelease, requireText, money_ok_iff.2 ⟨rfl, arguments.expected⟩,
      refuseIf_of_not arguments.request, refuseIf_of_not arguments.action, ok_bind, positive, found,
      Bool.false_eq_true, if_false, popReservation, orRefuse, owner, (Decimal.eqv_iff _ _).2 amount,
      giveBack_eq, bind_assoc, pure_bind]
    simp [refuseIf_of_not, withoutReservation]
  constructor
  · rintro ⟨update, ok⟩
    have arguments := ensureRelease_arguments ok
    refine ⟨arguments, ?_⟩
    obtain ⟨outcome, effect⟩ := ensureRelease_leaves ok
    rcases outcome with nothing | ⟨after, -, positive, ⟨reservation, found, owner, amount⟩, -⟩
    · rw [nothing, Option.getD_none] at effect
      exact .inl ⟨effect, (answers arguments effect).1 ⟨update, ok⟩⟩
    · refine .inr ⟨positive, reservation, found, owner, amount, ?_⟩
      rw [gives arguments positive found owner amount] at ok
      simp only [bind_ok_iff] at ok
      obtain ⟨released, computed, stored, wrote, -⟩ := ok
      exact ⟨released, computed, (write_ok_iff.1 wrote).2.1⟩
  · rintro ⟨arguments, ⟨recorded, readable⟩ |
      ⟨positive, reservation, found, owner, amount, released, computed, within⟩⟩
    · exact (answers arguments recorded).2 readable
    · have valid := givenBack_valid (reservation_positive found).le computed
      obtain ⟨after, stored⟩ := (write_posts valid).2 within
      refine ⟨.write after released.2, ?_⟩
      rw [gives arguments positive found owner amount, computed, ok_bind, stored]
      rfl

end Ledger

namespace LedgerCall

open Ledger BudgetDocument

variable {fits : BudgetDocument → Bool} {ledger : Ledger} {clock : Clock}

/-- The same operation on the same action with a different amount, request or completion record. -/
def Conflicts : LedgerCall → LedgerCall → Prop
  | .ensureReservation amountUsd requestId actionId,
      .ensureReservation amountUsd' requestId' actionId' =>
    actionId' = actionId ∧ (amountUsd'.value ≠ amountUsd.value ∨ requestId' ≠ requestId)
  | .ensureSettlement expectedUsd actualUsd requestId actionId completionRecordId,
      .ensureSettlement expectedUsd' actualUsd' requestId' actionId' completionRecordId' =>
    actionId' = actionId ∧ (expectedUsd'.value ≠ expectedUsd.value ∨
      actualUsd'.value ≠ actualUsd.value ∨ requestId' ≠ requestId ∨
      completionRecordId' ≠ completionRecordId)
  | .ensureRelease expectedUsd requestId actionId,
      .ensureRelease expectedUsd' requestId' actionId' =>
    actionId' = actionId ∧ (expectedUsd'.value ≠ expectedUsd.value ∨ requestId' ≠ requestId)
  -- outcome, operator and note may differ: the first authority's answer is kept
  | .reconcileReservation expectedUsd requestId actionId _ _ _ _,
      .reconcileReservation expectedUsd' requestId' actionId' _ _ _ _ =>
    actionId' = actionId ∧ (expectedUsd'.value ≠ expectedUsd.value ∨ requestId' ≠ requestId)
  | _, _ => False

/-- A repeated settlement or release answers the available balance, so that balance must be in the
decimal range. -/
def Answers (document : BudgetDocument) : LedgerCall → Prop
  | .ensureSettlement .. | .ensureRelease .. => ∃ available, document.available = .ok available
  | _ => True

/-- What the keys of the ledger let through after `call`. Dispositions are looked up by request and
action, and a settlement without a reservation is only asked for an estimate of zero; a release of
nothing answers the balance. -/
def Admits (fits : BudgetDocument → Bool) (document : BudgetDocument) (clock : Clock) :
    LedgerCall → LedgerCall → Prop
  | .ensureSettlement _ _ requestId _ _,
      .ensureSettlement expectedUsd actualUsd requestId' actionId completionRecordId =>
    -- another request: either its own recorded debit, or a zero estimate that posts a fresh one
    requestId' ≠ requestId ∧
      SettlementArguments expectedUsd actualUsd requestId' actionId completionRecordId ∧
      ((DebitRecorded document expectedUsd actualUsd requestId' actionId completionRecordId ∧
          ∃ available, document.available = .ok available) ∨
        (expectedUsd.isZero = true ∧ dispositions document requestId' actionId = [] ∧
          DebitPosts fits document expectedUsd actualUsd requestId' actionId completionRecordId clock))
  | .ensureRelease .., .ensureRelease expectedUsd requestId actionId =>
    ReleaseArguments expectedUsd requestId actionId ∧
      (((expectedUsd.isZero = true ∨ ReleaseRecorded document expectedUsd requestId actionId) ∧
          ∃ available, document.available = .ok available) ∨
        (expectedUsd.isZero = false ∧ ReleasePosts fits document expectedUsd requestId actionId clock))
  | _, _ => False

private theorem refused_iff {call : LedgerCall} :
    (∃ e, call.written fits ledger clock = .error e) ↔
      ¬ ∃ stored, call.written fits ledger clock = .ok stored := by
  cases call.written fits ledger clock <;> simp

private theorem returned_iff {α β : Type} {x : Except HarnessError α} {f : α → β} :
    (∃ b, (do let a ← x; pure (f a)) = .ok b) ↔ ∃ a, x = .ok a := by
  simp only [bind_ok_iff, pure_ok_iff]
  constructor
  · rintro ⟨_, a, ok, -⟩
    exact ⟨a, ok⟩
  · rintro ⟨a, ok⟩
    exact ⟨_, a, ok, rfl⟩

/-- The same call succeeds and writes nothing exactly when it can answer. -/
theorem repeats_iff {call : LedgerCall} {stored : Option Ledger} {later : Ledger} {clock' : Clock}
    (replayable : call.Replayable) (succeeded : call.written fits ledger clock = .ok stored)
    (recognized : call.Recognized later.document) :
    call.written fits later clock' = .ok none ↔ call.Answers later.document := by
  rw [replays replayable succeeded recognized]
  cases call
  case grant | reserve | settle | release => exact replayable.elim
  case ensureReservation | reconcileReservation => exact iff_of_true rfl trivial
  all_goals
    unfold recognize Answers
    cases later.document.available <;> simp

/-- Behind a settlement the same request has its one disposition. -/
private theorem settlement_admitted_iff {expectedUsd actualUsd expectedUsd' actualUsd' : Decimal}
    {requestId requestId' actionId completionRecordId completionRecordId' : String}
    (settled : DebitRecorded ledger.document expectedUsd actualUsd requestId actionId completionRecordId)
    (differs : expectedUsd'.value ≠ expectedUsd.value ∨ actualUsd'.value ≠ actualUsd.value ∨
      requestId' ≠ requestId ∨ completionRecordId' ≠ completionRecordId) :
    (∃ update, ledger.ensureSettlement fits expectedUsd' actualUsd' requestId' actionId
        completionRecordId' clock = .ok update) ↔
      Admits fits ledger.document clock
        (.ensureSettlement expectedUsd actualUsd requestId actionId completionRecordId)
        (.ensureSettlement expectedUsd' actualUsd' requestId' actionId completionRecordId') := by
  rw [ensureSettlement_ok_iff settled.1, Admits]
  refine (and_iff_right_of_imp ?_).symm
  rintro ⟨-, ⟨again, -⟩ | ⟨-, first, -⟩⟩ rfl
  · -- under the same request the one debit would have both sets of values
    obtain ⟨expected, actual, completion⟩ := settled.same again
    rcases differs with other | other | other | other
    · exact other expected
    · exact other actual
    · exact other rfl
    · exact other completion
  · obtain ⟨-, entry, only, -⟩ := settled
    rw [first] at only
    cases only

/-- After a success, the same operation with other values is refused exactly where the keys of the
ledger do not admit it. -/
theorem conflict_refused_iff {call other : LedgerCall} (recognized : call.Recognized ledger.document)
    (conflicts : call.Conflicts other) :
    (∃ e, other.written fits ledger clock = .error e) ↔
      ¬ call.Admits fits ledger.document clock other := by
  rw [refused_iff, not_iff_not]
  cases call <;> cases other
  -- calls of two kinds never conflict
  all_goals first
    | exact conflicts.elim
    | obtain ⟨rfl, differs⟩ := conflicts
  -- a conflicting reservation is always refused, as a conflicting reconciliation is
  case ensureReservation.ensureReservation =>
    refine iff_of_false ?_ id
    rintro ⟨_, returned⟩
    obtain ⟨update, ok, -⟩ := bind_ok_iff.1 returned
    obtain ⟨nothing | ⟨after, -, absent, -⟩, effect⟩ := ensureReservation_leaves ok
    · rw [nothing] at effect
      obtain ⟨amount, request⟩ := Reserved.same recognized effect
      rcases differs with other | other
      · exact other amount
      · exact other request
    · obtain ⟨reservation, found, -⟩ := recognized
      rw [absent] at found
      cases found
  case ensureSettlement.ensureSettlement =>
    rw [← settlement_admitted_iff recognized differs]
    exact returned_iff
  case ensureRelease.ensureRelease =>
    rw [Admits, ← ensureRelease_ok_iff]
    exact returned_iff
  case reconcileReservation.reconcileReservation =>
    refine iff_of_false ?_ id
    rintro ⟨_, returned⟩
    obtain ⟨update, ok, -⟩ := bind_ok_iff.1 returned
    obtain ⟨nothing | ⟨after, -, absent, -⟩, effect⟩ := reconcileReservation_leaves ok
    · rw [nothing] at effect
      obtain ⟨amount, request⟩ := Marked.same recognized effect
      rcases differs with other | other
      · apply other
        have same := congrArg (fun text : PlainDecimal => text.decimal.value) amount
        simpa [suppliedInput, Decimal.plain_value] using same
      · exact other request
    · obtain ⟨marker, found, -⟩ := recognized
      rw [absent] at found
      cases found

end LedgerCall

namespace Ledger

/-- Once a journaled operation has succeeded for an action, whatever happens to other actions: the
same call succeeds and writes nothing exactly when it can answer the balance, and a call with other
values is refused exactly where the keys of the ledger do not admit it. -/
theorem journaled_operations_replay (fits : BudgetDocument → Bool) (ledger : Ledger)
    (call : LedgerCall) (actionId : String) (clock : Clock) (stored : Option Ledger)
    (replayable : call.Replayable) (own : call.action = some actionId)
    (succeeded : call.written fits ledger clock = .ok stored)
    (others : List (LedgerCall × Clock))
    (elsewhere : ∀ other ∈ others, other.1.action ≠ some actionId) :
    let later := (Books.run fits ⟨stored.getD ledger, []⟩ others).ledger
    (∀ clock', call.written fits later clock' = .ok none ↔ call.Answers later.document) ∧
      ∀ other clock', call.Conflicts other →
        ((∃ e, other.written fits later clock' = .error e) ↔
          ¬ call.Admits fits later.document clock' other) := by
  intro later
  have named := action_named replayable own succeeded
  have recognized : call.Recognized later.document :=
    (LedgerCall.written_recognized replayable succeeded).untouched own
      (Books.run_untouched named elsewhere)
  constructor
  · exact fun clock' => LedgerCall.repeats_iff replayable succeeded recognized
  · exact fun other clock' conflicts => LedgerCall.conflict_refused_iff recognized conflicts

/-- Five units are granted, and three of them reserved for an action. -/
def reservedLedger : Ledger :=
  (Books.run (fun _ => true) ⟨emptyLedger, []⟩
    [(.grant (.ofNat 5) "", fun _ => 0),
      (.ensureReservation (.ofNat 3) "req_1" "act_1", fun _ => 0)]).ledger

def settleTwo : LedgerCall := .ensureSettlement (.ofNat 3) (.ofNat 2) "req_1" "act_1" "evd_1"

/-- Two units are settled. -/
def settledLedger : Ledger :=
  (Books.run (fun _ => true) ⟨reservedLedger, []⟩ [(settleTwo, fun _ => 0)]).ledger

private theorem settleTwo_succeeds :
    settleTwo.written (fun _ => true) reservedLedger (fun _ => 0) = .ok (some settledLedger) := by
  decide +kernel

/-- After a grant the settlement is recognized, and one of three units under its request refused. -/
theorem journaled_operations_replay_settlement :
    let later := (Books.run (fun _ => true) ⟨settledLedger, []⟩
      [(.grant (.ofNat 1) "", fun _ => 0)]).ledger
    settleTwo.written (fun _ => true) later (fun _ => 0) = .ok none ∧
      ∃ e, (LedgerCall.ensureSettlement (.ofNat 3) (.ofNat 3) "req_1" "act_1" "evd_1").written
        (fun _ => true) later (fun _ => 0) = .error e := by
  intro later
  have elsewhere : ∀ other ∈ [((.grant (.ofNat 1) "", fun _ => 0) : LedgerCall × Clock)],
      other.1.action ≠ some "act_1" := by
    intro other member
    rw [List.mem_singleton.1 member]
    simp [LedgerCall.action]
  obtain ⟨again, conflicting⟩ := journaled_operations_replay (fun _ => true) reservedLedger settleTwo
    "act_1" (fun _ => 0) (some settledLedger) trivial rfl settleTwo_succeeds _ elsewhere
  constructor
  · exact (again fun _ => 0).2 ⟨.ofNat 4, by decide +kernel⟩
  · have differs : settleTwo.Conflicts
        (.ensureSettlement (.ofNat 3) (.ofNat 3) "req_1" "act_1" "evd_1") :=
      ⟨rfl, .inr (.inl (by simp [Decimal.ofNat_value]))⟩
    refine (conflicting _ (fun _ => 0) differs).2 ?_
    rintro ⟨other, -⟩
    exact other rfl

/-- A settlement under another request, with an estimate of zero, debits the settled action again. -/
theorem settled_action_debited_again :
    ¬ ∀ (calls : List (LedgerCall × Clock)) (call : LedgerCall) (actionId : String) (clock : Clock)
        (stored : Option Ledger),
      let ledger := (Books.run (fun _ => true) ⟨emptyLedger, []⟩ calls).ledger
      call.Replayable → call.action = some actionId →
      call.written (fun _ => true) ledger clock = .ok stored →
      ∀ others : List (LedgerCall × Clock), (∀ other ∈ others, other.1.action ≠ some actionId) →
      let later := (Books.run (fun _ => true) ⟨stored.getD ledger, []⟩ others).ledger
      (∀ clock', call.written (fun _ => true) later clock' = .ok none) ∧
        ∀ other clock', call.Conflicts other →
          ∃ e, other.written (fun _ => true) later clock' = .error e := by
  intro always
  have differs : settleTwo.Conflicts
      (.ensureSettlement .zero (.ofNat 2) "req_2" "act_1" "evd_2") := ⟨rfl, .inr (.inr (.inl (by decide)))⟩
  obtain ⟨e, refused⟩ := (always _ settleTwo "act_1" (fun _ => 0) (some settledLedger) trivial rfl
    settleTwo_succeeds [] (by simp)).2 _ (fun _ => 0) differs
  have debited : (((LedgerCall.ensureSettlement .zero (.ofNat 2) "req_2" "act_1" "evd_2").written
      (fun _ => true) settledLedger (fun _ => 0)).toOption.bind id).map
        (·.document.balanceUsd.decimal) = some (.ofNat 1) := by decide +kernel
  rw [show (Books.run (fun _ => true) ⟨(some settledLedger).getD _, []⟩ []).ledger = settledLedger
    from rfl] at refused
  rw [refused] at debited
  cases debited

end Ledger
end DefiantHarness
