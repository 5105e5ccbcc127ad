import DefiantHarness.SingleCharge

/-! Which ended approvals can still hold a reservation: only one that was rejected in the approval
store itself, and one that a claim found expired. -/
namespace DefiantHarness

open Foundation

/-- Somebody rejected the approval in the store, without the journal. -/
def RejectedAlone (trace : List Event) (approvalId : String) : Prop :=
  ∃ disk, .deciding approvalId false disk ∈ trace

/-- A claim of the approval was tried. -/
def TriedClaim (trace : List Event) (approvalId : String) : Prop :=
  ∃ now disk, .claiming approvalId now disk ∈ trace

/-- The waiting operation rejects the approval. -/
def Rejecting (disk : Disk) (approvalId : String) : Prop :=
  ∃ operation actionId requestId reservedUsd decidedBy note attestation,
    disk.journal = some operation ∧ operation.payload =
      .approvalReject approvalId actionId requestId reservedUsd decidedBy note attestation

/-- The waiting operation expires the approval. -/
def Expiring (disk : Disk) (approvalId : String) : Prop :=
  ∃ operation actionId requestId reservedUsd, disk.journal = some operation ∧
    operation.payload = .approvalExpire approvalId actionId requestId reservedUsd

/-- Why an approval in this status may still hold its reservation. -/
def Excused (w : World) (approvalId : String) : ApprovalStatus → Prop
  | .rejected => RejectedAlone w.trace approvalId ∨ Rejecting w.disk approvalId
  | .expired => TriedClaim w.trace approvalId ∨ Expiring w.disk approvalId
  | .consumed => False
  | _ => True

/-- What every step keeps about the reservations of approvals. -/
structure Freed (w : World) : Prop where
  free : ∀ id approval, w.disk.approvals.lookup id = some approval →
    Decimal.zero.lt approval.terms.reservedUsd.decimal = false →
    approval.actionId ∉ w.disk.ledger.document.reservations
  creating : ∀ operation approval reservedUsd, w.disk.journal = some operation →
    operation.payload = .approvalCreate approval reservedUsd →
    (Decimal.zero.lt reservedUsd.decimal = false →
      approval.actionId ∉ w.disk.ledger.document.reservations) ∧
    (Decimal.zero.lt reservedUsd.decimal = true →
      w.disk.approvals.lookup approval.approvalId ≠ none →
      approval.actionId ∈ w.disk.ledger.document.reservations)
  excused : ∀ id approval, w.disk.approvals.lookup id = some approval →
    approval.actionId ∈ w.disk.ledger.document.reservations → Excused w id approval.status

section

variable {site : Deployment} {w t : World}

theorem Excused.mono {id : String} {status : ApprovalStatus} (excused : Excused w id status)
    (trace : ∀ event ∈ w.trace, event ∈ t.trace) (journal : t.disk.journal = w.disk.journal) :
    Excused t id status := by
  cases status with
  | rejected =>
    refine excused.imp ?_ ?_
    · rintro ⟨disk, member⟩
      exact ⟨disk, trace _ member⟩
    · unfold Rejecting
      rw [journal]
      exact fun active => active
  | expired =>
    refine excused.imp ?_ ?_
    · rintro ⟨now, disk, member⟩
      exact ⟨now, disk, trace _ member⟩
    · unfold Expiring
      rw [journal]
      exact fun active => active
  | consumed => exact excused
  | pending | approved | executing => trivial

/-- The approval of an idle journal is known. -/
private theorem unreservable (tracked : Tracked site w) (idle : w.disk.journal = none)
    {actionId : String} (unknown : ¬ Known w.disk.records actionId) {id : String}
    {approval : PendingApproval} (found : w.disk.approvals.lookup id = some approval) :
    approval.actionId ≠ actionId := by
  rintro rfl
  rcases tracked.known id approval found with known | ⟨_, _, _, active, -⟩
  · exact unknown known
  · rw [idle] at active
    cases active

/-- A write of the ledger gives no stored approval a reservation. -/
private theorem LedgerMoves.held (tracked : Tracked site w) (freed : Freed w) {after : Ledger}
    (moves : LedgerMoves site w.disk after) {id : String} {approval : PendingApproval}
    (found : w.disk.approvals.lookup id = some approval)
    (held : approval.actionId ∈ after.document.reservations) :
    approval.actionId ∈ w.disk.ledger.document.reservations := by
  cases moves with
  | reserve idle amount requestId actionId clock unknown moved =>
    obtain ⟨update, ok, written⟩ := moved
    obtain ⟨stored, rfl, entry, -, -, posted⟩ := Ledger.reserve_ok ok
    cases written
    exact ((posted.reservations _).1 held).resolve_left (unreservable tracked idle unknown found)
  | journaledReservation operation clock active created reservedUsd kind funded moved =>
    obtain ⟨update, ok, written⟩ := moved
    rcases Ledger.ensureReservation_ok ok with ⟨-, rfl⟩ | ⟨stored, rfl, absent, entry, -, -, posted⟩
    · cases written
    · cases written
      refine ((posted.reservations _).1 held).resolve_left fun same => ?_
      -- the approval of the action would be the created one, which already holds its reservation
      have key := (tracked.creating operation created reservedUsd active kind).1 id approval found same
      refine absent ((freed.creating operation created reservedUsd active kind).2 funded ?_)
      rw [← key, found]
      exact Option.some_ne_none approval
  | release idle approvalId other clock place executing moved =>
    obtain ⟨update, ok, written⟩ := moved
    obtain ⟨stored, remaining, entry, rfl, -, -, frees⟩ := Ledger.release_ok ok
    cases written
    exact ((frees.reservations _).1 held).2
  | journaledRelease operation clock active approvalId actionId requestId reservedUsd status kind
      closed moved =>
    obtain ⟨update, ok, written⟩ := moved
    rcases Ledger.ensureRelease_ok ok with ⟨nothing, -⟩ | ⟨stored, remaining, entry, rfl, -, -, frees⟩
    · rw [written] at nothing
      cases nothing
    · cases written
      exact ((frees.reservations _).1 held).2
  | journaledSettlement operation clock active subject approvalId reservedUsd actualUsd kind known
      started moved =>
    obtain ⟨update, ok, written⟩ := moved
    rcases Ledger.ensureSettlement_ok ok with ⟨nothing, -⟩ | ⟨stored, remaining, entry, rfl, -, -, frees⟩
    · rw [written] at nothing
      cases nothing
    · cases written
      exact ((frees.reservations _).1 held).2
  | reconcile idle approvalId other intent clock place intended moved =>
    obtain ⟨update, ok, written⟩ := moved
    exact (Ledger.reconcileReservation_frees ok written _ held).2
  | journaledReconcile operation clock active subject expectedUsd outcome reconciledBy note
      attestation kind known unowned moved =>
    obtain ⟨update, ok, written⟩ := moved
    exact (Ledger.reconcileReservation_frees ok written _ held).2

/-- While an approval is created, a write of the ledger only adds its reservation. -/
private theorem LedgerMoves.reserving {after : Ledger} (moves : LedgerMoves site w.disk after)
    {operation : JournalOperation} {approval : PendingApproval} {reservedUsd : PlainDecimal}
    (active : w.disk.journal = some operation)
    (create : operation.payload = .approvalCreate approval reservedUsd) :
    Decimal.zero.lt reservedUsd.decimal = true ∧
      approval.actionId ∈ after.document.reservations := by
  cases moves with
  -- a direct call writes only when no operation is active
  | reserve idle => simp [idle] at active
  | release idle => simp [idle] at active
  | reconcile idle => simp [idle] at active
  | journaledReservation other clock journal found reserved kind funded moved =>
    rw [active, Option.some.injEq] at journal
    subst journal
    rw [create] at kind
    cases kind
    obtain ⟨update, ok, written⟩ := moved
    -- the one journaled move of an approval's creation is its reservation
    rcases Ledger.ensureReservation_ok ok with ⟨-, rfl⟩ | ⟨stored, rfl, -, entry, -, -, posted⟩
    · cases written
    · cases written
      exact ⟨funded, (posted.reservations _).2 (.inl rfl)⟩
  | journaledRelease other clock journal approvalId actionId requestId reserved status kind =>
    rw [active, Option.some.injEq] at journal
    subst journal
    rcases kind with ⟨_, _, _, -, kind⟩ | ⟨-, kind⟩ <;> rw [create] at kind <;> cases kind
  | journaledReconcile other clock journal subject expectedUsd outcome reconciledBy note attestation
      kind =>
    rw [active, Option.some.injEq] at journal
    subst journal
    rw [create] at kind
    cases kind
  | journaledSettlement other clock journal subject approvalId reserved actualUsd kind =>
    rw [active, Option.some.injEq] at journal
    subst journal
    rw [create] at kind
    cases kind

/-- An approval with a reconciliation marker holds no reservation. -/
private theorem not_held_of_marker (charged : ChargedOnce w.disk) {actionId : String}
    (marked : actionId ∈ w.disk.ledger.document.reconciliations) :
    actionId ∉ w.disk.ledger.document.reservations := by
  intro held
  obtain ⟨marker, found⟩ := Option.isSome_iff_exists.1 (AList.lookup_isSome.2 marked)
  obtain ⟨entry, posted, kind, -, own⟩ := charged.charges.marked actionId marker found
  exact (not_disposed_iff.1 (charged.charges.live actionId held) entry posted own).2.2 kind

/-- What a write of the approvals does, and why a new version may still hold its reservation. -/
private theorem ApprovalMoves.excused (tracked : Tracked site w) (charged : ChargedOnce w.disk)
    {after : Approvals} (moves : ApprovalMoves site w after) :
    (∃ operation approval reservedUsd,
        Creates site w.disk after operation approval reservedUsd) ∨
      ∃ old new, Revises w.disk.approvals after old new ∧
        (old.actionId ∈ w.disk.ledger.document.reservations →
          Excused w old.approvalId new.status) := by
  have wellFormed := tracked.named.wellFormed
  cases moves with
  | decide approvalId approved _ _ _ _ taken moved =>
    obtain ⟨old, new, key, revises, -, status⟩ := decide_revises wellFormed moved
    refine .inr ⟨old, new, revises, fun _ => ?_⟩
    obtain ⟨past, trace⟩ := taken
    rw [status]
    cases approved with
    | false => exact .inl ⟨w.disk, by rw [trace, key]; simp⟩
    | true => exact trivial
  | create operation active approval reservedUsd kind valid funded moved =>
    obtain ⟨update, ok, written⟩ := moved
    obtain ⟨-, rfl⟩ | ⟨absent, -, -, rfl⟩ := ApprovalStore.createPrepared_ok_iff.1 ok
    · cases written
    · cases written
      exact .inl ⟨operation, approval, reservedUsd, active, kind, valid, funded, absent, rfl⟩
  | reject operation clock active approvalId actionId requestId reservedUsd decidedBy note attestation
      kind bound moved =>
    obtain ⟨old, new, rfl, revises, status⟩ := ensureRejected_revises wellFormed moved
    refine .inr ⟨old, new, revises, fun _ => ?_⟩
    rw [status]
    exact .inr ⟨operation, _, _, _, _, _, _, active, kind⟩
  | expire operation clock active approvalId actionId requestId reservedUsd kind bound moved =>
    obtain ⟨old, new, rfl, revises, status⟩ := expireOne_revises wellFormed moved
    refine .inr ⟨old, new, revises, fun _ => ?_⟩
    rw [status]
    exact .inr ⟨operation, _, _, _, active, kind⟩
  | claim idle approvalId action clock taken moved =>
    obtain ⟨old, new, key, revises, -, turned⟩ := beginExecution_revises wellFormed moved
    refine .inr ⟨old, new, revises, fun _ => ?_⟩
    obtain ⟨past, trace⟩ := taken
    rcases turned with ⟨expired, -⟩ | ⟨rfl, -⟩
    · rw [expired]
      exact .inl ⟨clock 0, w.disk, by rw [trace, key]; simp⟩
    · exact trivial
  -- a blocked or completed approval has given its reservation back before it is consumed
  | block idle approvalId recordId clock released moved =>
    obtain ⟨old, new, rfl, revises, status⟩ := markConsumed_revises wellFormed moved
    exact .inr ⟨old, new, revises, fun held => absurd held (released old revises.found)⟩
  | complete operation clock active subject approvalId reservedUsd actualUsd disposition kind replayed
      owner moved =>
    obtain ⟨old, new, rfl, revises, status⟩ := ensureConsumed_revises wellFormed moved
    refine .inr ⟨old, new, revises, fun held => ?_⟩
    rw [kind] at replayed
    rw [owner old revises.found] at held
    exact absurd held replayed.2
  | intend _ _ _ _ _ _ _ moved =>
    obtain ⟨old, new, -, revises, -, status⟩ := beginReconciliation_revises wellFormed moved
    refine .inr ⟨old, new, revises, fun _ => ?_⟩
    rw [status]
    exact trivial
  -- the marker that `markReconciled` asks for is posted in place of the reservation
  | reconcile idle approvalId recordId clock marked moved =>
    obtain ⟨old, new, rfl, revises, status⟩ := markReconciled_revises wellFormed moved
    refine .inr ⟨old, new, revises, fun held => ?_⟩
    exact absurd held (not_held_of_marker charged (marked old revises.found))

namespace Freed

theorem fresh (start : w.Fresh site) : Freed w := by
  constructor <;> simp [start.approvals, start.journal]

private theorem of_same (freed : Freed w) (trace : ∀ event ∈ w.trace, event ∈ t.trace)
    (approvals : t.disk.approvals = w.disk.approvals) (ledger : t.disk.ledger = w.disk.ledger)
    (journal : t.disk.journal = w.disk.journal) : Freed t where
  free := by rw [approvals, ledger]; exact freed.free
  creating := by rw [journal, approvals, ledger]; exact freed.creating
  excused := by
    rw [approvals, ledger]
    exact fun id approval found held => (freed.excused id approval found held).mono trace journal

private theorem ledgered (tracked : Tracked site w) (freed : Freed w) {after : Ledger}
    (moves : LedgerMoves site w.disk after) : Freed (w.saved { w.disk with ledger := after }) where
  free id approval found nothing held :=
    freed.free id approval found nothing (moves.held tracked freed found held)
  creating operation approval reservedUsd active kind := by
    obtain ⟨funded, held⟩ := moves.reserving active kind
    refine ⟨fun nothing => ?_, fun _ _ => held⟩
    rw [funded] at nothing
    cases nothing
  excused id approval found held :=
    (freed.excused id approval found (moves.held tracked freed found held)).mono
      (fun _ member => List.mem_append_left _ member) rfl

private theorem created (freed : Freed w) {after : Approvals} {operation : JournalOperation}
    {approval : PendingApproval} {reservedUsd : PlainDecimal}
    (creates : Creates site w.disk after operation approval reservedUsd) :
    Freed (w.saved { w.disk with approvals := after }) := by
  obtain ⟨-, -, -, pending, -, -, reserved⟩ :=
    JournalOperation.validate_create creates.valid creates.kind
  obtain ⟨free, -⟩ := freed.creating operation approval reservedUsd creates.active creates.kind
  -- the store changes under the new approval's id only, and that approval is pending
  have lookup (id : String) : after.lookup id =
      if id = approval.approvalId then some approval else w.disk.approvals.lookup id := by
    rw [creates.stored, lookup_stored_eq]
  constructor
  · intro id other found nothing
    rw [World.saved_disk, lookup] at found
    split at found
    next =>
      cases found
      rw [reserved] at nothing
      exact free nothing
    next => exact freed.free id other found nothing
  · intro found other amount active kind
    rw [World.saved_disk, creates.active, Option.some.injEq] at active
    rw [← active, creates.kind] at kind
    cases kind
    exact ⟨free, fun positive _ => creates.funded positive⟩
  · intro id other found held
    rw [World.saved_disk, lookup] at found
    split at found
    next =>
      cases found
      rw [pending]
      exact trivial
    next =>
      exact (freed.excused id other found held).mono
        (fun _ member => List.mem_append_left _ member) rfl

private theorem revised (freed : Freed w) {after : Approvals} {old new : PendingApproval}
    (revises : Revises w.disk.approvals after old new)
    (excuse : old.actionId ∈ w.disk.ledger.document.reservations →
      Excused w old.approvalId new.status) : Freed (w.saved { w.disk with approvals := after }) where
  free id approval found nothing := by
    rw [World.saved_disk, revises.lookup] at found
    split at found
    next =>
      cases found
      rw [revises.terms] at nothing
      rw [revises.actionId_eq]
      exact freed.free _ old revises.found nothing
    next => exact freed.free id approval found nothing
  creating operation approval reservedUsd active kind := by
    obtain ⟨free, held⟩ := freed.creating operation approval reservedUsd active kind
    refine ⟨free, fun positive present => held positive fun absent => present ?_⟩
    rw [World.saved_disk, revises.lookup]
    split
    next same =>
      rw [same, revises.found] at absent
      cases absent
    next => exact absent
  -- only the revised approval needs an excuse of its own
  excused id approval found held := by
    rw [World.saved_disk, revises.lookup] at found
    split at found
    next same =>
      cases found
      rw [revises.actionId_eq] at held
      rw [same]
      exact (excuse held).mono (fun _ member => List.mem_append_left _ member) rfl
    next =>
      exact (freed.excused id approval found held).mono
        (fun _ member => List.mem_append_left _ member) rfl

private theorem prepared (freed : Freed w) {operation : JournalOperation}
    (idle : w.disk.journal = none)
    (why : Prepares site w operation.evidence operation.payload) :
    Freed (w.saved { w.disk with journal := some operation }) where
  free := freed.free
  creating found approval reservedUsd active kind := by
    obtain rfl : operation = found := Option.some.inj active
    rw [kind] at why
    -- the creation is prepared only for an action that holds no reservation yet
    cases why with
    | approvalCreate _ _ _ fresh _ unreserved =>
      exact ⟨fun _ => unreserved, fun _ present => absurd fresh present⟩
  excused id approval found held := by
    have excused := freed.excused id approval found held
    generalize approval.status = status at excused ⊢
    cases status with
    -- an approval rejected alone stays so; no operation was there to excuse another
    | rejected =>
      rcases excused with ⟨disk, member⟩ | ⟨_, _, _, _, _, _, _, active, -⟩
      · exact .inl ⟨disk, List.mem_append_left _ member⟩
      · rw [idle] at active
        cases active
    | expired =>
      rcases excused with ⟨now, disk, member⟩ | ⟨_, _, _, _, active, -⟩
      · exact .inl ⟨now, disk, List.mem_append_left _ member⟩
      · rw [idle] at active
        cases active
    | consumed => exact excused
    | pending | approved | executing => trivial

/-- An operation that ended an approval is only completed when its reservation is gone. -/
private theorem not_held_of_closed (freed : Freed w) {id actionId : String}
    {reservedUsd : PlainDecimal} {status : ApprovalStatus}
    (closed : Closed w.disk id actionId reservedUsd status) {approval : PendingApproval}
    (found : w.disk.approvals.lookup id = some approval) :
    approval.actionId ∉ w.disk.ledger.document.reservations := by
  obtain ⟨⟨other, place, -, own, amount⟩, released⟩ := closed
  rw [found, Option.some.injEq] at place
  subst place
  cases funded : Decimal.zero.lt reservedUsd.decimal with
  | true => exact own ▸ released funded
  | false =>
    apply freed.free id approval found
    rw [Decimal.eqv_iff] at amount
    rw [← Bool.not_eq_true, Decimal.lt_iff] at funded ⊢
    rwa [amount]

private theorem completed (freed : Freed w) {operation : JournalOperation}
    (active : w.disk.journal = some operation) (replayed : Replayed w.disk operation.payload) :
    Freed (w.saved { w.disk with journal := none }) where
  free := freed.free
  creating _ _ _ active := by cases active
  excused id approval found held := by
    have excused := freed.excused id approval found held
    generalize approval.status = status at excused ⊢
    cases status with
    -- the finished operation released the reservation, so none of its own is held any more
    | rejected =>
      rcases excused with ⟨disk, member⟩ | ⟨other, _, _, _, _, _, _, waiting, kind⟩
      · exact .inl ⟨disk, List.mem_append_left _ member⟩
      · rw [active, Option.some.injEq] at waiting
        subst waiting
        rw [kind] at replayed
        exact absurd held (freed.not_held_of_closed replayed found)
    | expired =>
      rcases excused with ⟨now, disk, member⟩ | ⟨other, _, _, _, waiting, kind⟩
      · exact .inl ⟨now, disk, List.mem_append_left _ member⟩
      · rw [active, Option.some.injEq] at waiting
        subst waiting
        rw [kind] at replayed
        exact absurd held (freed.not_held_of_closed replayed found)
    | consumed => exact excused
    | pending | approved | executing => trivial

theorem step (tracked : Tracked site w) (charged : ChargedOnce w.disk) (freed : Freed w)
    (step : Step site w t) : Freed t := by
  cases step with
  | write after mutation =>
    cases mutation with
    | checkpoint => exact freed.of_same (fun _ member => List.mem_append_left _ member) rfl rfl rfl
    | append => exact freed.of_same (fun _ member => List.mem_append_left _ member) rfl rfl rfl
    | ledger after why => exact freed.ledgered tracked why
    | approvals after why =>
      obtain ⟨operation, approval, reserved, creates⟩ | ⟨old, new, revises, excuse⟩ :=
        why.excused tracked charged
      · exact freed.created creates
      · exact freed.revised revises excuse
    | prepare operation idle valid fresh drawn why => exact freed.prepared idle why
    | complete operation active valid carried recorded => exact freed.completed active carried.replayed
  | tick | draw | enter => exact freed.of_same (fun _ member => member) rfl rfl rfl
  | evaluate | decide | claim | compute | dispatch =>
    exact freed.of_same (fun _ member => List.mem_append_left _ member) rfl rfl rfl

end Freed

/-- Whenever no operation waits, a consumed approval holds no reservation, a rejected one only when
somebody rejected it in the store itself, and an expired one only after a claim of it was tried. -/
theorem ended_reservation_excused (reached : Reachable site w) (idle : w.disk.journal = none)
    {id : String} {approval : PendingApproval} (found : w.disk.approvals.lookup id = some approval)
    (held : approval.actionId ∈ w.disk.ledger.document.reservations) :
    approval.status.active = true ∨
      (approval.status = .rejected ∧ RejectedAlone w.trace id) ∨
      (approval.status = .expired ∧ TriedClaim w.trace id) := by
  have freed : Freed w := by
    -- the three invariants are carried together: each step of one uses the others before it
    have all : Accountable w.disk ∧ ChargedOnce w.disk ∧ Freed w := by
      apply reached.invariant (I := fun w => Accountable w.disk ∧ ChargedOnce w.disk ∧ Freed w)
      · exact fun w start => ⟨.of_reachable (.fresh start), .fresh start, .fresh start⟩
      · rintro v t tracked ⟨accountable, charged, freed⟩ step
        exact ⟨accountable.step tracked step, charged.step accountable step,
          freed.step tracked charged step⟩
    exact all.2.2
  have excused := freed.excused id approval found held
  generalize approval.status = status at excused ⊢
  cases status with
  | rejected =>
    rcases excused with alone | ⟨_, _, _, _, _, _, _, active, -⟩
    · exact .inr (.inl ⟨rfl, alone⟩)
    · rw [idle] at active
      cases active
  | expired =>
    rcases excused with tried | ⟨_, _, _, _, active, -⟩
    · exact .inr (.inr ⟨rfl, tried⟩)
    · rw [idle] at active
      cases active
  | consumed => exact excused.elim
  | pending | approved | executing => exact .inl rfl

end

/-- A mail that is rejected in the approval store, as the proxy and the approve command do. -/
private def refusedRun : World :=
  Demo.start.afterAll (Demo.site Demo.clock)
    [(Demo.process .approvalRequired (Demo.dollars 3) (Demo.dollars 2) none,
        .handleCall (Demo.call "act_1") Demo.request "" ""),
      (Demo.process .approvalRequired (Demo.dollars 3) (Demo.dollars 2) none,
        .decide "apr_" false "operator" "no" none)]

/-- The general theorem at this run, whose rejected approval still holds three dollars. -/
theorem ended_reservation_excused_refused :
    "act_1" ∈ refusedRun.disk.ledger.document.reservations ∧
      RejectedAlone refusedRun.trace "apr_" := by
  have rejected : (refusedRun.disk.approvals.lookup "apr_").map (fun approval =>
      (approval.status, approval.actionId)) = some (.rejected, "act_1") := by decide +kernel
  have held : "act_1" ∈ refusedRun.disk.ledger.document.reservations := by decide +kernel
  have idle : refusedRun.disk.journal = none := by decide +kernel
  obtain ⟨approval, found, same⟩ := Option.map_eq_some_iff.1 rejected
  obtain ⟨status, own⟩ := Prod.mk.inj same
  have reached : Reachable (Demo.site Demo.clock) refusedRun :=
    (Reachable.fresh (Demo.start_fresh _)).afterAll _
  refine ⟨held, ?_⟩
  rcases ended_reservation_excused reached idle found (own ▸ held) with active | ⟨-, alone⟩ |
    ⟨expired, -⟩
  · rw [status] at active
    cases active
  · exact alone
  · rw [status] at expired
    cases expired

end DefiantHarness
