import DefiantHarness.BudgetDisposals

/-! No action of a request is charged twice: a settlement, a release and a charging reconciliation
exclude each other in every run. -/
namespace DefiantHarness

open Foundation

/-- The entries that ended the reservation of an action, or settled it without one. -/
def closings (document : BudgetDocument) (requestId actionId : String) : List LedgerEntry :=
  document.entries.filter fun entry =>
    entry.requestId == requestId && entry.actionId == actionId &&
      (entry.kind == .debit || entry.kind == .release)

/-- What the action of the request was charged: its debits, and the charge of its reconciliation. -/
def charges (document : BudgetDocument) (requestId actionId : String) : List PlainDecimal :=
  ((document.entries.filter fun entry =>
    entry.requestId == requestId && entry.actionId == actionId && entry.kind == .debit).map
      (·.amountUsd)) ++
    ((document.reconciliations.lookup actionId).filter fun marker =>
      marker.supplied.requestId == requestId && Decimal.zero.lt marker.chargedUsd.decimal).toList.map
        (·.chargedUsd)

namespace Ledger

open BudgetDocument

variable {fits : BudgetDocument → Bool} {ledger : Ledger} {requestId actionId : String}
  {clock : Clock}

/-! ### The markers that an operation leaves -/

/-- The operation writes no marker. -/
def KeepsMarkers (before : BudgetDocument) (after : Ledger) : Prop :=
  ∀ id, after.document.reconciliations.lookup id = before.reconciliations.lookup id

private theorem addReservation_keepsMarkers {before : BudgetDocument} {amount : Decimal}
    {after : Ledger}
    (added : addReservation fits before amount requestId actionId clock = .ok after) :
    KeepsMarkers before after := by
  simp only [addReservation, bind_ok_iff] at added
  obtain ⟨_, -, -, -, _, -, _, -, appended⟩ := added
  exact fun id => (append_lookup appended id).2

private theorem debit_keepsMarkers {data : BudgetDocument} {actual reserved : Decimal}
    {completion : Option String} {debited : Ledger × Decimal}
    (ok : debit fits data actual reserved requestId actionId completion clock = .ok debited) :
    KeepsMarkers data debited.1 := by
  simp only [debit, bind_ok_iff, pure_ok_iff] at ok
  obtain ⟨_, -, _, -, _, -, stored, appended, rfl⟩ := ok
  exact fun id => (append_lookup appended id).2

private theorem giveBack_keepsMarkers {data : BudgetDocument} {reserved : Decimal}
    {given : Ledger × Decimal}
    (ok : giveBack fits data reserved requestId actionId clock = .ok given) :
    KeepsMarkers data given.1 := by
  simp only [giveBack, bind_ok_iff, pure_ok_iff] at ok
  obtain ⟨_, -, _, -, stored, appended, rfl⟩ := ok
  exact fun id => (append_lookup appended id).2

private theorem popReservation_markers {data : BudgetDocument} {popped : BudgetDocument × Decimal}
    (taken : popReservation data requestId actionId = .ok popped) :
    popped.1.reconciliations = data.reconciliations := by
  simp only [popReservation, bind_ok_iff, pure_ok_iff] at taken
  obtain ⟨_, -, _, -, rfl⟩ := taken
  rfl

theorem reserve_keepsMarkers {amount : Decimal} {update : Update Ledger Unit} {after : Ledger}
    (ok : ledger.reserve fits amount requestId actionId clock = .ok update)
    (written : update.written = some after) : KeepsMarkers ledger.document after := by
  simp only [reserve, bind_ok_iff, pure_ok_iff] at ok
  obtain ⟨_, -, -, -, -, -, -, -, -, -, stored, added, rfl⟩ := ok
  cases written
  exact addReservation_keepsMarkers added

theorem ensureReservation_keepsMarkers {amount : Decimal} {update : Update Ledger Unit}
    {after : Ledger}
    (ok : ledger.ensureReservation fits amount requestId actionId clock = .ok update)
    (written : update.written = some after) : KeepsMarkers ledger.document after := by
  simp only [ensureReservation, bind_ok_iff] at ok
  obtain ⟨_, -, -, -, -, -, -, -, ok⟩ := ok
  split at ok
  next =>
    simp only [bind_ok_iff, pure_ok_iff] at ok
    obtain ⟨-, -, rfl⟩ := ok
    cases written
  next =>
    simp only [bind_ok_iff, pure_ok_iff] at ok
    obtain ⟨stored, added, rfl⟩ := ok
    cases written
    exact addReservation_keepsMarkers added

theorem release_keepsMarkers {update : Update Ledger Decimal} {after : Ledger}
    (ok : ledger.release fits requestId actionId clock = .ok update)
    (written : update.written = some after) : KeepsMarkers ledger.document after := by
  simp only [release, bind_ok_iff, pure_ok_iff] at ok
  obtain ⟨-, -, -, -, popped, taken, given, gave, rfl⟩ := ok
  cases written
  intro id
  rw [giveBack_keepsMarkers gave id, popReservation_markers taken]

theorem ensureRelease_keepsMarkers {expected : Decimal} {update : Update Ledger Decimal}
    {after : Ledger}
    (ok : ledger.ensureRelease fits expected requestId actionId clock = .ok update)
    (written : update.written = some after) : KeepsMarkers ledger.document after := by
  simp only [ensureRelease, bind_ok_iff] at ok
  obtain ⟨_, -, -, -, -, -, ok⟩ := ok
  split at ok
  next =>
    simp only [bind_ok_iff, pure_ok_iff] at ok
    obtain ⟨_, -, rfl⟩ := ok
    cases written
  next =>
    split at ok
    next =>
      simp only [bind_ok_iff, pure_ok_iff] at ok
      obtain ⟨-, -, _, -, rfl⟩ := ok
      cases written
    next =>
      simp only [bind_ok_iff, pure_ok_iff] at ok
      obtain ⟨-, -, popped, taken, given, gave, rfl⟩ := ok
      cases written
      intro id
      rw [giveBack_keepsMarkers gave id, popReservation_markers taken]

theorem ensureSettlement_keepsMarkers {expected actual : Decimal} {completionRecordId : String}
    {update : Update Ledger Decimal} {after : Ledger}
    (ok : ledger.ensureSettlement fits expected actual requestId actionId completionRecordId clock =
      .ok update)
    (written : update.written = some after) : KeepsMarkers ledger.document after := by
  simp only [ensureSettlement, bind_ok_iff] at ok
  obtain ⟨_, -, _, -, -, -, -, -, -, -, -, -, ok⟩ := ok
  split at ok
  next =>
    split at ok
    next =>
      simp only [bind_ok_iff, pure_ok_iff] at ok
      obtain ⟨_, -, rfl⟩ := ok
      cases written
    next =>
      simp only [bind_ok_iff, pure_ok_iff] at ok
      obtain ⟨-, -, -, -, debited, took, rfl⟩ := ok
      cases written
      exact fun id => debit_keepsMarkers took id
  next =>
    simp only [bind_ok_iff, pure_ok_iff] at ok
    obtain ⟨-, -, -, -, debited, took, rfl⟩ := ok
    cases written
    exact fun id => debit_keepsMarkers took id

theorem release_reserved {update : Update Ledger Decimal}
    (ok : ledger.release fits requestId actionId clock = .ok update) :
    actionId ∈ ledger.document.reservations := by
  simp only [release, popReservation, bind_ok_iff, orRefuse_ok_iff] at ok
  obtain ⟨_, -, _, -, _, ⟨reservation, found, -⟩, -⟩ := ok
  exact AList.lookup_isSome.1 (by rw [found]; rfl)

/-- What a reconciliation that is written leaves, and when it charges. -/
structure Discharged (before : BudgetDocument) (after : Ledger) (requestId actionId : String)
    (entry : LedgerEntry) (marker : Reconciliation) : Prop where
  entries : after.document.entries = before.entries ++ [entry]
  kind : entry.kind = .reconcile
  names : entry.requestId = requestId ∧ entry.actionId = actionId
  stored : after.document.reconciliations.lookup actionId = some marker
  request : marker.supplied.requestId = requestId
  others : ∀ id, id ≠ actionId →
    after.document.reconciliations.lookup id = before.reconciliations.lookup id
  charges : Decimal.zero.lt marker.chargedUsd.decimal = true →
    actionId ∈ before.reservations ∨
      latestBudgetDisposition before.entries requestId actionId ≠ .debit

private theorem takeReservation_ends {data : BudgetDocument} {expected : Decimal}
    {taken : BudgetDocument × Option Decimal}
    (ok : takeReservation data expected requestId actionId = .ok taken) :
    taken.1.entries = data.entries ∧ taken.1.reconciliations = data.reconciliations ∧
      (taken.2.isSome = true → actionId ∈ data.reservations) := by
  unfold takeReservation at ok
  split at ok
  next =>
    cases ok
    exact ⟨rfl, rfl, nofun⟩
  next reservation found =>
    simp only [bind_ok_iff, pure_ok_iff] at ok
    obtain ⟨_, -, _, -, rfl⟩ := ok
    exact ⟨rfl, rfl, fun _ => AList.lookup_isSome.1 (by rw [found]; rfl)⟩

/-- A reconciliation charges a live reservation, or an action without a debit. -/
private theorem reconcileCharge_charges {outcome : Outcome} {reserved : Option Decimal}
    {prior : PriorDisposition} {expected : Decimal}
    (positive : Decimal.zero.lt (reconcileCharge outcome reserved prior expected).1.plain.decimal =
      true) : reserved.isSome = true ∨ prior ≠ .debit := by
  cases reserved with
  | some amount => exact .inl rfl
  | none =>
    right
    rintro rfl
    have nothing : Decimal.zero.lt Decimal.zero.plain.decimal = false := by decide
    cases outcome <;> simp [reconcileCharge, nothing] at positive

theorem reconcileReservation_reconciled {expected : Decimal} {outcome : Outcome}
    {reconciledBy note : String} {authority : Option LedgerAuthority}
    {update : Update Ledger Reconciliation} {after : Ledger}
    (ok : ledger.reconcileReservation fits expected requestId actionId outcome reconciledBy note
      authority clock = .ok update)
    (written : update.written = some after) :
    ∃ entry marker, Discharged ledger.document after requestId actionId entry marker := by
  simp only [reconcileReservation, bind_ok_iff] at ok
  obtain ⟨amount, -, -, -, -, -, -, -, -, -, -, -, ok⟩ := ok
  split at ok
  next =>
    simp only [bind_ok_iff, pure_ok_iff] at ok
    obtain ⟨-, -, rfl⟩ := ok
    cases written
  next =>
    simp only [bind_ok_iff, pure_ok_iff] at ok
    obtain ⟨⟨base, reserved⟩, taken, -, -, lowered, estimate, data, totals, remaining, -, stored,
      appended, rfl⟩ := ok
    cases written
    obtain ⟨entries, markers, live⟩ := takeReservation_ends taken
    have lower := lowerEstimate_leaves estimate
    have total := chargeTotals_leaves totals
    rw [lower] at total
    have unposted : data.entries = ledger.document.entries := by
      rw [total]
      exact entries
    have posted := append_entries appended
    dsimp only at posted
    rw [unposted] at posted
    refine ⟨_, _, posted, rfl, ⟨rfl, rfl⟩,
      (append_lookup appended actionId).2.trans (Dict.lookup_set _ _ _), rfl, ?_, ?_⟩
    · intro id other
      rw [(append_lookup appended id).2, Dict.lookup_set_ne other, total]
      exact congrArg (AList.lookup id) markers
    · intro positive
      -- a charge is paid from the reservation, or in full when nothing has been paid yet
      rcases reconcileCharge_charges positive with reserved | unpaid
      · exact .inl (live reserved)
      · simp only at entries
        rw [entries] at unpaid
        exact .inr unpaid

theorem reconcileReservation_frees {expected : Decimal} {outcome : Outcome}
    {reconciledBy note : String} {authority : Option LedgerAuthority}
    {update : Update Ledger Reconciliation} {after : Ledger}
    (ok : ledger.reconcileReservation fits expected requestId actionId outcome reconciledBy note
      authority clock = .ok update)
    (written : update.written = some after) (id : String)
    (held : id ∈ after.document.reservations) :
    id ≠ actionId ∧ id ∈ ledger.document.reservations := by
  rcases reconcileReservation_ok ok with ⟨nothing, -⟩ | ⟨stored, marker, rfl, -, entry, -, -, posted⟩
  · rw [written] at nothing
    cases nothing
  · cases written
    exact (posted.reservations id).1 held

/-- The posting of a written ledger names the action that it is for. -/
theorem PostsFor.last {before : BudgetDocument} {owner : String} {after : Ledger}
    (posts : PostsFor fits before owner after) {entry : LedgerEntry}
    (entries : after.document.entries = before.entries ++ [entry]) : entry.actionId = owner := by
  obtain ⟨data, posted, appended, named, confined⟩ := posts
  rw [append_entries appended, confined.entries] at entries
  obtain ⟨-, same⟩ := List.append_inj' entries rfl
  rw [← named, List.singleton_inj.1 same]

end Ledger

/-! ### What holds of every ledger -/

/-- What every ledger of a run keeps about its charges. -/
structure SingleCharges (document : BudgetDocument) : Prop where
  modern : ∀ entry ∈ document.entries,
    entry.kind ≠ .reconcileDebit ∧ entry.kind ≠ .reconcileRelease
  once : ∀ requestId actionId, (closings document requestId actionId).length ≤ 1
  live : ∀ actionId ∈ document.reservations, ¬ Disposed document actionId
  marked : ∀ actionId marker, document.reconciliations.lookup actionId = some marker →
    ∃ entry ∈ document.entries, entry.kind = .reconcile ∧
      entry.requestId = marker.supplied.requestId ∧ entry.actionId = actionId
  apart : ∀ actionId marker, document.reconciliations.lookup actionId = some marker →
    Decimal.zero.lt marker.chargedUsd.decimal = true →
    ∀ entry ∈ document.entries, entry.requestId = marker.supplied.requestId →
      entry.actionId = actionId → entry.kind ≠ .debit

theorem mem_dispositions {document : BudgetDocument} {requestId actionId : String}
    {entry : LedgerEntry} :
    entry ∈ Ledger.dispositions document requestId actionId ↔ entry ∈ document.entries ∧
      entry.requestId = requestId ∧ entry.actionId = actionId ∧
      (entry.kind = .debit ∨ entry.kind = .release ∨ entry.kind = .reconcile) := by
  simp [Ledger.dispositions, and_assoc, or_assoc]

theorem mem_closings {document : BudgetDocument} {requestId actionId : String}
    {entry : LedgerEntry} :
    entry ∈ closings document requestId actionId ↔ entry ∈ document.entries ∧
      entry.requestId = requestId ∧ entry.actionId = actionId ∧
      (entry.kind = .debit ∨ entry.kind = .release) := by
  simp [closings, and_assoc]

/-- An action that nothing has disposed of has no entry that could end its reservation. -/
theorem not_disposed_iff {document : BudgetDocument} {actionId : String} :
    ¬ Disposed document actionId ↔ ∀ entry ∈ document.entries, entry.actionId = actionId →
      entry.kind ≠ .debit ∧ entry.kind ≠ .release ∧ entry.kind ≠ .reconcile := by
  constructor
  · intro undisposed entry posted own
    have none : ¬ (entry.kind = .debit ∨ entry.kind = .release ∨ entry.kind = .reconcile) :=
      fun kind => undisposed ⟨entry.requestId,
        List.ne_nil_of_mem (mem_dispositions.2 ⟨posted, rfl, own, kind⟩)⟩
    simpa only [not_or] using none
  · rintro untouched ⟨requestId, some⟩
    obtain ⟨entry, member⟩ := List.exists_mem_of_ne_nil _ some
    obtain ⟨posted, -, own, kind⟩ := mem_dispositions.1 member
    obtain ⟨debit, release, reconcile⟩ := untouched entry posted own
    rcases kind with kind | kind | kind
    · exact debit kind
    · exact release kind
    · exact reconcile kind

namespace SingleCharges

variable {before after : BudgetDocument} {entry : LedgerEntry} {requestId actionId : String}

private theorem closings_posted (entries : after.entries = before.entries ++ [entry]) :
    closings after requestId actionId = closings before requestId actionId ++
      if entry.requestId = requestId ∧ entry.actionId = actionId ∧
        (entry.kind = .debit ∨ entry.kind = .release) then [entry] else [] := by
  simp only [closings, entries, List.filter_append, List.filter_cons, List.filter_nil,
    Bool.and_eq_true, Bool.or_eq_true, beq_iff_eq, and_assoc]

/-- A new reservation of an action that nothing has disposed of. -/
theorem reserved (charged : SingleCharges before) (kind : entry.kind = .reserve)
    (undisposed : ¬ Disposed before actionId)
    (posted : Posted before after entry (fun id => id = actionId ∨ id ∈ before.reservations)
      (· ∈ before.reconciliations))
    (markers : ∀ id, after.reconciliations.lookup id = before.reconciliations.lookup id) :
    SingleCharges after where
  modern other member := by
    rw [posted.entries, List.mem_append, List.mem_singleton] at member
    rcases member with old | rfl
    · exact charged.modern other old
    · simp [kind]
  once r a := by
    rw [closings_posted posted.entries]
    simpa [kind] using charged.once r a
  -- the new reservation is of an action that nothing has disposed of
  live id held := by
    have earlier : ¬ Disposed before id := by
      rcases (posted.reservations id).1 held with rfl | held
      · exact undisposed
      · exact charged.live id held
    rw [not_disposed_iff] at earlier ⊢
    intro other member own
    rw [posted.entries, List.mem_append, List.mem_singleton] at member
    rcases member with old | rfl
    · exact earlier other old own
    · simp [kind]
  marked id marker found := by
    rw [markers] at found
    obtain ⟨other, member, rest⟩ := charged.marked id marker found
    exact ⟨other, posted.entries ▸ List.mem_append_left _ member, rest⟩
  apart id marker found positive other member request own := by
    rw [markers] at found
    rw [posted.entries, List.mem_append, List.mem_singleton] at member
    rcases member with old | rfl
    · exact charged.apart id marker found positive other old request own
    · simp [kind]

/-- A debit or a release of an action that its request has not disposed of. -/
theorem closed (charged : SingleCharges before) (kind : entry.kind = .debit ∨ entry.kind = .release)
    (own : entry.actionId = actionId)
    (first : Ledger.dispositions before entry.requestId actionId = [])
    (posted : Posted before after entry (fun id => id ≠ actionId ∧ id ∈ before.reservations)
      (· ∈ before.reconciliations))
    (markers : ∀ id, after.reconciliations.lookup id = before.reconciliations.lookup id) :
    SingleCharges after where
  modern other member := by
    rw [posted.entries, List.mem_append, List.mem_singleton] at member
    rcases member with old | rfl
    · exact charged.modern other old
    · rcases kind with kind | kind <;> simp [kind]
  once r a := by
    rw [closings_posted posted.entries]
    split
    next named =>
      obtain ⟨rfl, rfl, -⟩ := named
      have none : closings before entry.requestId entry.actionId = [] := by
        rw [List.eq_nil_iff_forall_not_mem]
        intro other member
        obtain ⟨old, request, action, closing⟩ := mem_closings.1 member
        have disposed := mem_dispositions.2 ⟨old, request, action, closing.imp_right .inl⟩
        rw [own, first] at disposed
        cases disposed
      simp [none]
    next => simpa using charged.once r a
  live id held := by
    obtain ⟨other, held⟩ := (posted.reservations id).1 held
    have earlier := not_disposed_iff.1 (charged.live id held)
    rw [not_disposed_iff]
    intro found member named
    rw [posted.entries, List.mem_append, List.mem_singleton] at member
    rcases member with old | rfl
    · exact earlier found old named
    · exact absurd (named.symm.trans own) other
  marked id marker found := by
    rw [markers] at found
    obtain ⟨other, member, rest⟩ := charged.marked id marker found
    exact ⟨other, posted.entries ▸ List.mem_append_left _ member, rest⟩
  apart id marker found positive other member request named := by
    rw [markers] at found
    rw [posted.entries, List.mem_append, List.mem_singleton] at member
    rcases member with old | rfl
    · exact charged.apart id marker found positive other old request named
    · -- the reconciliation of the action is a disposition, so this entry would not be the first
      obtain ⟨reconciled, old, closing, earlier, action⟩ := charged.marked id marker found
      have disposed : reconciled ∈ Ledger.dispositions before other.requestId actionId :=
        mem_dispositions.2 ⟨old, earlier.trans request.symm, action.trans (named.symm.trans own),
          .inr (.inr closing)⟩
      rw [first] at disposed
      cases disposed

/-- The only entry that ends the reservation of an action is also its latest. -/
private theorem latest_debit (charged : SingleCharges before)
    (paid : entry ∈ before.entries) (kind : entry.kind = .debit) :
    Ledger.latestBudgetDisposition before.entries entry.requestId entry.actionId = .debit := by
  unfold Ledger.latestBudgetDisposition
  split
  next latest found =>
    have member := List.mem_of_find?_eq_some found
    have named := List.find?_some found
    rw [List.mem_reverse] at member
    obtain ⟨debit, release⟩ := charged.modern latest member
    have closing : latest ∈ closings before entry.requestId entry.actionId := by
      rw [mem_closings]
      simp_all
    have own : entry ∈ closings before entry.requestId entry.actionId :=
      mem_closings.2 ⟨paid, rfl, rfl, .inl kind⟩
    have single := charged.once entry.requestId entry.actionId
    -- there is one closing entry, so the latest is it
    obtain ⟨only, same⟩ := List.length_eq_one_iff.1
      (Nat.le_antisymm single (List.length_pos_of_mem own))
    rw [same, List.mem_singleton] at closing own
    rw [closing, ← own, kind]
    simp
  next missing =>
    rw [List.find?_eq_none] at missing
    have := missing entry (List.mem_reverse.2 paid)
    simp [kind] at this

/-- A reconciliation that charges finds no debit. -/
private theorem unpaid_of_charge (charged : SingleCharges before)
    (charges : actionId ∈ before.reservations ∨
      Ledger.latestBudgetDisposition before.entries requestId actionId ≠ .debit)
    (paid : entry ∈ before.entries) (request : entry.requestId = requestId)
    (action : entry.actionId = actionId) : entry.kind ≠ .debit := by
  intro kind
  rcases charges with held | latest
  · exact (not_disposed_iff.1 (charged.live actionId held) entry paid action).1 kind
  · rw [← request, ← action] at latest
    exact latest (charged.latest_debit paid kind)

theorem reconciled (charged : SingleCharges before) {ledger : Ledger} {marker : Reconciliation}
    (reconciled : Ledger.Discharged before ledger requestId actionId entry marker)
    (freed : ∀ id, id ∈ ledger.document.reservations → id ≠ actionId ∧ id ∈ before.reservations) :
    SingleCharges ledger.document where
  modern other member := by
    rw [reconciled.entries, List.mem_append, List.mem_singleton] at member
    rcases member with old | rfl
    · exact charged.modern other old
    · simp [reconciled.kind]
  once r a := by
    rw [closings_posted reconciled.entries]
    simpa [reconciled.kind] using charged.once r a
  live id held := by
    obtain ⟨other, held⟩ := freed id held
    have earlier := not_disposed_iff.1 (charged.live id held)
    rw [not_disposed_iff]
    intro found member named
    rw [reconciled.entries, List.mem_append, List.mem_singleton] at member
    rcases member with old | rfl
    · exact earlier found old named
    · exact absurd (named.symm.trans reconciled.names.2) other
  marked id stored found := by
    by_cases same : id = actionId
    · subst same
      rw [reconciled.stored, Option.some.injEq] at found
      subst found
      refine ⟨entry, ?_, reconciled.kind, ?_, reconciled.names.2⟩
      · rw [reconciled.entries]
        exact List.mem_append_right _ (List.mem_singleton_self entry)
      · rw [reconciled.names.1, reconciled.request]
    · rw [reconciled.others id same] at found
      obtain ⟨other, member, rest⟩ := charged.marked id stored found
      exact ⟨other, reconciled.entries ▸ List.mem_append_left _ member, rest⟩
  -- a marker with a charge and a debit for the same action would charge twice
  apart id stored found positive other member request named := by
    rw [reconciled.entries, List.mem_append, List.mem_singleton] at member
    rcases member with old | rfl
    · by_cases same : id = actionId
      · subst same
        rw [reconciled.stored, Option.some.injEq] at found
        subst found
        rw [reconciled.request] at request
        exact charged.unpaid_of_charge (reconciled.charges positive) old request named
      · rw [reconciled.others id same] at found
        exact charged.apart id stored found positive other old request named
    · simp [reconciled.kind]

end SingleCharges

/-! ### What holds along a run -/

/-- What every step of a run keeps about the charges. -/
structure ChargedOnce (disk : Disk) : Prop where
  charges : SingleCharges disk.ledger.document
  creating : ∀ operation approval reservedUsd, disk.journal = some operation →
    operation.payload = .approvalCreate approval reservedUsd →
    ¬ Disposed disk.ledger.document approval.actionId

section

variable {site : Deployment} {w t : World}

/-- A released reservation was live, so the release is its first disposition. -/
private theorem closed_of_release {before : Ledger} {after : Ledger} {entry : LedgerEntry}
    {actionId : String} {fits : BudgetDocument → Bool} (charged : SingleCharges before.document)
    (live : actionId ∈ before.document.reservations) (kind : entry.kind = .release)
    (posts : Ledger.PostsFor fits before.document actionId after)
    (frees : Ledger.Frees before.document after.document actionId entry)
    (markers : Ledger.KeepsMarkers before.document after) : SingleCharges after.document := by
  have own := posts.last frees.entries
  have undisposed := charged.live actionId live
  have first : Ledger.dispositions before.document entry.requestId actionId = [] := by
    by_contra some
    exact undisposed ⟨entry.requestId, some⟩
  exact charged.closed (.inr kind) own first frees markers

theorem LedgerMoves.singleCharges {after : Ledger} (accountable : Accountable w.disk) (charged : ChargedOnce w.disk)
    (moves : LedgerMoves site w.disk after) : SingleCharges after.document := by
  cases moves with
  | reserve idle amount requestId actionId clock unknown moved =>
    obtain ⟨update, ok, written⟩ := moved
    have markers := Ledger.reserve_keepsMarkers ok written
    obtain ⟨stored, rfl, entry, kind, -, posted⟩ := Ledger.reserve_ok ok
    cases written
    exact charged.charges.reserved kind (fun disposed => unknown (accountable.known _ disposed))
      posted markers
  | journaledReservation operation clock active approval reservedUsd kind funded moved =>
    obtain ⟨update, ok, written⟩ := moved
    have markers := Ledger.ensureReservation_keepsMarkers ok written
    rcases Ledger.ensureReservation_ok ok with ⟨-, rfl⟩ | ⟨stored, rfl, -, entry, reserve, -, posted⟩
    · cases written
    · cases written
      exact charged.charges.reserved reserve (charged.creating operation approval _ active kind)
        posted markers
  -- a release or a settlement closes a live reservation, so the action was not disposed of
  | release idle approvalId approval clock found executing moved =>
    have call : (LedgerCall.release approval.terms.requestId approval.actionId).written
        site.limits.budget w.disk.ledger clock = .ok (some after) := written_of_writes moved
    obtain ⟨update, ok, written⟩ := moved
    have markers := Ledger.release_keepsMarkers ok written
    have live := Ledger.release_reserved ok
    obtain ⟨stored, remaining, entry, rfl, kind, -, frees⟩ := Ledger.release_ok ok
    cases written
    rcases LedgerCall.written_postsFor call with nothing | ⟨_, same, posts⟩
    · cases nothing
    · cases same
      exact closed_of_release charged.charges live kind posts frees markers
  | journaledRelease operation clock active approvalId actionId requestId reservedUsd status kind
      closed moved =>
    have call : (LedgerCall.ensureRelease reservedUsd.decimal requestId actionId).written
        site.limits.budget w.disk.ledger clock = .ok (some after) := written_of_writes moved
    obtain ⟨update, ok, written⟩ := moved
    have markers := Ledger.ensureRelease_keepsMarkers ok written
    have live : actionId ∈ w.disk.ledger.document.reservations := by
      rcases (Ledger.ensureRelease_leaves ok).1 with nothing | ⟨_, -, -, ⟨_, held, -⟩, -⟩
      · rw [written] at nothing
        cases nothing
      · exact AList.lookup_isSome.1 (by rw [held]; rfl)
    rcases Ledger.ensureRelease_ok ok with ⟨nothing, -⟩ | ⟨stored, remaining, entry, rfl, release, -,
      frees⟩
    · rw [written] at nothing
      cases nothing
    · cases written
      rcases LedgerCall.written_postsFor call with nothing | ⟨_, same, posts⟩
      · cases nothing
      · cases same
        exact closed_of_release charged.charges live release posts frees markers
  | journaledSettlement operation clock active subject approvalId reservedUsd actualUsd kind known
      started moved =>
    obtain ⟨update, ok, written⟩ := moved
    have markers := Ledger.ensureSettlement_keepsMarkers ok written
    rcases Ledger.ensureSettlement_ok ok with ⟨nothing, -⟩ | ⟨stored, remaining, entry, rfl, first,
      ⟨debit, -, -, request, own, -⟩, frees⟩
    · rw [written] at nothing
      cases nothing
    · cases written
      rw [← request] at first
      exact charged.charges.closed (.inl debit) own first frees markers
  -- a reconciliation leaves a marker beside its entry and closes nothing
  | reconcile idle approvalId approval intent clock found intended moved =>
    obtain ⟨update, ok, written⟩ := moved
    obtain ⟨entry, marker, reconciled⟩ := Ledger.reconcileReservation_reconciled ok written
    exact charged.charges.reconciled reconciled (Ledger.reconcileReservation_frees ok written)
  | journaledReconcile operation clock active subject expectedUsd outcome reconciledBy note
      attestation kind known unowned moved =>
    obtain ⟨update, ok, written⟩ := moved
    obtain ⟨entry, marker, reconciled⟩ := Ledger.reconcileReservation_reconciled ok written
    exact charged.charges.reconciled reconciled (Ledger.reconcileReservation_frees ok written)

/-- While an approval is being created, only its own reservation moves the ledger. -/
private theorem LedgerMoves.creating {after : Ledger} (charged : ChargedOnce w.disk)
    (moves : LedgerMoves site w.disk after) {operation : JournalOperation}
    {approval : PendingApproval} {reservedUsd : PlainDecimal}
    (active : w.disk.journal = some operation)
    (create : operation.payload = .approvalCreate approval reservedUsd) :
    ¬ Disposed after.document approval.actionId := by
  have undisposed := charged.creating operation approval reservedUsd active create
  cases moves with
  | reserve idle => simp [idle] at active
  | release idle => simp [idle] at active
  | reconcile idle => simp [idle] at active
  -- the only move that an approval's creation makes, and it disposes of nothing
  | journaledReservation other clock journal found reserved kind funded moved =>
    obtain ⟨update, ok, written⟩ := moved
    rcases Ledger.ensureReservation_ok ok with ⟨-, rfl⟩ | ⟨stored, rfl, -, reserves⟩
    · cases written
    · cases written
      exact fun disposed => undisposed (disposed.of_reserves reserves)
  | journaledRelease other clock journal approvalId actionId requestId reserved status kind =>
    rw [active, Option.some.injEq] at journal
    subst journal
    rcases kind with ⟨_, _, _, -, kind⟩ | ⟨-, kind⟩ <;> rw [create] at kind <;> cases kind
  | journaledReconcile other clock journal subject expectedUsd outcome reconciledBy note attestation
      kind =>
    rw [active, Option.some.injEq] at journal
    subst journal
    rw [create] at kind
    cases kind
  | journaledSettlement other clock journal subject approvalId reserved actualUsd kind =>
    rw [active, Option.some.injEq] at journal
    subst journal
    rw [create] at kind
    cases kind

namespace ChargedOnce

theorem written (accountable : Accountable w.disk) (charged : ChargedOnce w.disk) {after : Disk}
    (mutation : Mutation site w after) : ChargedOnce after := by
  cases mutation with
  | checkpoint => exact ⟨charged.charges, charged.creating⟩
  | append => exact ⟨charged.charges, charged.creating⟩
  | approvals => exact ⟨charged.charges, charged.creating⟩
  | ledger after moves =>
    exact ⟨moves.singleCharges accountable charged,
      fun _ _ _ active create => moves.creating charged active create⟩
  | prepare operation idle valid fresh drawn why =>
    refine ⟨charged.charges, ?_⟩
    rintro _ approval reservedUsd active create
    obtain rfl : operation = _ := Option.some.inj active
    rw [create] at why
    cases why with
    | approvalCreate _ _ unknown => exact fun disposed => unknown (accountable.known _ disposed)
  | complete =>
    refine ⟨charged.charges, ?_⟩
    rintro _ _ _ active
    cases active

theorem step (accountable : Accountable w.disk) (charged : ChargedOnce w.disk) (step : Step site w t) :
    ChargedOnce t.disk := by
  cases step with
  | write after mutation => exact charged.written accountable mutation
  | tick | draw | enter | evaluate | decide | claim | compute | dispatch => exact charged

theorem fresh (start : w.Fresh site) : ChargedOnce w.disk := by
  obtain ⟨starting, created⟩ := start.ledger
  simp only [Ledger.create, bind_ok_iff] at created
  obtain ⟨_, -, stored⟩ := created
  have document := Ledger.write_document stored
  constructor
  · constructor <;> simp [document, BudgetDocument.snapshot, closings]
  · simp [start.journal]

theorem of_reachable (reachable : Reachable site w) : ChargedOnce w.disk := by
  have both : Accountable w.disk ∧ ChargedOnce w.disk := by
    apply reachable.invariant (I := fun w => Accountable w.disk ∧ ChargedOnce w.disk)
    · exact fun w start => ⟨.of_reachable (.fresh start), fresh start⟩
    · rintro v t tracked ⟨accountable, charged⟩ step
      exact ⟨accountable.step tracked step, charged.step accountable step⟩
  exact both.2

end ChargedOnce

private theorem debits_sublist (document : BudgetDocument) (requestId actionId : String) :
    (document.entries.filter fun entry => entry.requestId == requestId &&
      entry.actionId == actionId && entry.kind == .debit).length ≤
      (closings document requestId actionId).length := by
  rw [closings, ← List.countP_eq_length_filter, ← List.countP_eq_length_filter]
  apply List.countP_mono_left
  intro entry _ debit
  simp only [Bool.and_eq_true] at debit
  simp [debit]

/-- In no reachable state has one request been charged twice for an action, by its settlement and by
its reconciliation together, and an action that still holds a reservation has not been charged. -/
theorem charged_once (reachable : Reachable site w) (requestId actionId : String) :
    (charges w.disk.ledger.document requestId actionId).length ≤ 1 ∧
      (actionId ∈ w.disk.ledger.document.reservations →
        charges w.disk.ledger.document requestId actionId = []) := by
  have charged := (ChargedOnce.of_reachable reachable).charges
  generalize w.disk.ledger.document = document at charged
  have single := (debits_sublist document requestId actionId).trans (charged.once requestId actionId)
  constructor
  · unfold charges
    cases found : document.reconciliations.lookup actionId with
    | none => simpa using single
    | some marker =>
      simp only [Option.filter]
      split
      next paid =>
        -- the reconciliation charged, so there is no debit beside it
        simp only [Bool.and_eq_true, beq_iff_eq] at paid
        have unpaid := charged.apart actionId marker found paid.2
        have none : (document.entries.filter fun entry => entry.requestId == requestId &&
            entry.actionId == actionId && entry.kind == .debit) = [] := by
          simp only [List.filter_eq_nil_iff, Bool.and_eq_true, beq_iff_eq, not_and]
          rintro entry posted ⟨request, action⟩
          exact unpaid entry posted (request.trans paid.1.symm) action
        simp [none]
      next => simpa using single
  · intro held
    have undisposed := not_disposed_iff.1 (charged.live actionId held)
    have unmarked : document.reconciliations.lookup actionId = none := by
      by_contra some
      obtain ⟨marker, found⟩ := Option.ne_none_iff_exists'.1 some
      obtain ⟨entry, posted, kind, -, own⟩ := charged.marked actionId marker found
      exact (undisposed entry posted own).2.2 kind
    simp only [charges, unmarked, Option.filter_none, Option.toList_none, List.map_nil,
      List.append_nil, List.map_eq_nil_iff, List.filter_eq_nil_iff, Bool.and_eq_true, beq_iff_eq,
      not_and]
    rintro entry posted ⟨-, own⟩
    exact (undisposed entry posted own).1

end

/-- A mail that is approved and sent for two dollars. -/
private def paidRun : World :=
  Demo.start.afterAll (Demo.site Demo.clock)
    [(Demo.process .approvalRequired (Demo.dollars 3) (Demo.dollars 2) none,
        .handleCall (Demo.call "act_1") Demo.request "" ""),
      (Demo.process .approvalRequired (Demo.dollars 3) (Demo.dollars 2) none,
        .resume "apr_" true "operator" "fine" none)]

/-- The general theorem at the action of this run, which has been charged. -/
theorem charged_once_mail :
    charges paidRun.disk.ledger.document "req_1" "act_1" ≠ [] ∧
      (charges paidRun.disk.ledger.document "req_1" "act_1").length ≤ 1 := by
  have reached : Reachable (Demo.site Demo.clock) paidRun :=
    (Reachable.fresh (Demo.start_fresh _)).afterAll _
  exact ⟨by decide +kernel, (charged_once reached "req_1" "act_1").1⟩

end DefiantHarness
