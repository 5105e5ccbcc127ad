import DefiantHarness.LedgerConservation

/-! Replaying the journaled ledger operations: what a success leaves behind for its action, and what
the operation does when it meets it again. -/
namespace DefiantHarness

open Foundation

/-- The action kept its reservation, its reconciliation marker and its entries. -/
structure Untouched (actionId : String) (before after : BudgetDocument) : Prop where
  reservation : after.reservations.lookup actionId = before.reservations.lookup actionId
  marker : after.reconciliations.lookup actionId = before.reconciliations.lookup actionId
  entries : after.entries.filter (·.actionId == actionId) =
    before.entries.filter (·.actionId == actionId)

namespace Untouched

variable {actionId : String} {first second third : BudgetDocument}

theorem refl (document : BudgetDocument) : Untouched actionId document document :=
  ⟨rfl, rfl, rfl⟩

theorem trans (earlier : Untouched actionId first second)
    (later : Untouched actionId second third) : Untouched actionId first third :=
  ⟨later.reservation.trans earlier.reservation, later.marker.trans earlier.marker,
    later.entries.trans earlier.entries⟩

end Untouched

/-- Apart from the totals, `data` differs from `before` at one action only. -/
structure Confined (actionId : String) (before data : BudgetDocument) : Prop where
  entries : data.entries = before.entries
  reservations : ∀ id, id ≠ actionId → data.reservations.lookup id = before.reservations.lookup id
  reconciliations : ∀ id, id ≠ actionId →
    data.reconciliations.lookup id = before.reconciliations.lookup id

namespace Ledger

open BudgetDocument

variable {fits : BudgetDocument → Bool} {ledger : Ledger} {requestId actionId : String}
  {clock : Clock}

theorem append_lookup {data : BudgetDocument} {entry : LedgerEntry} {after : Ledger}
    (appended : append fits data entry = .ok after) (id : String) :
    after.document.reservations.lookup id = data.reservations.lookup id ∧
      after.document.reconciliations.lookup id = data.reconciliations.lookup id := by
  rw [append_document appended]
  constructor
  · exact Dict.lookup_sorted data.reservations id
  · exact Dict.lookup_sorted data.reconciliations id

theorem append_entries {data : BudgetDocument} {entry : LedgerEntry} {after : Ledger}
    (appended : append fits data entry = .ok after) :
    after.document.entries = data.entries ++ [entry] := by
  rw [append_document appended, snapshot]

/-- A confined posting leaves every other action untouched. -/
theorem append_untouched {before data : BudgetDocument} {entry : LedgerEntry} {after : Ledger}
    (confined : Confined entry.actionId before data) (appended : append fits data entry = .ok after)
    {id : String} (other : id ≠ entry.actionId) : Untouched id before after.document := by
  obtain ⟨reservation, marker⟩ := append_lookup appended id
  constructor
  · rw [reservation, confined.reservations id other]
  · rw [marker, confined.reconciliations id other]
  · have skipped : (entry.actionId == id) = false := beq_eq_false_iff_ne.2 other.symm
    rw [append_entries appended, confined.entries, List.filter_append]
    simp [skipped]

/-! ### Every posting is confined to the action it names -/

/-- One posting that names this action. -/
def PostsFor (fits : BudgetDocument → Bool) (before : BudgetDocument) (actionId : String)
    (after : Ledger) : Prop :=
  ∃ data entry, append fits data entry = .ok after ∧ entry.actionId = actionId ∧
    Confined actionId before data

private theorem grant_postsFor {amountUsd : Decimal} {note : String}
    {update : Update Ledger Decimal}
    (granted : ledger.grant fits amountUsd note clock = .ok update) :
    ∃ after, update.written = some after ∧ PostsFor fits ledger.document "" after := by
  simp only [grant, bind_ok_iff, pure_ok_iff] at granted
  obtain ⟨_, -, balance, -, _, -, after, appended, rfl⟩ := granted
  refine ⟨after, by simp, _, _, appended, by simp, ?_⟩
  constructor <;> simp

private theorem addReservation_postsFor {before : BudgetDocument} {amount : Decimal}
    {after : Ledger}
    (added : addReservation fits before amount requestId actionId clock = .ok after) :
    PostsFor fits before actionId after := by
  simp only [addReservation, bind_ok_iff] at added
  obtain ⟨_, -, -, -, _, -, _, -, appended⟩ := added
  refine ⟨_, _, appended, by simp, ?_⟩
  constructor
  · simp
  · intro id other
    exact Dict.lookup_set_ne other
  · simp

private theorem erased_confined {before data : BudgetDocument}
    (entries : data.entries = before.entries)
    (reservations : data.reservations = before.reservations.erase actionId)
    (reconciliations : data.reconciliations = before.reconciliations) :
    Confined actionId before data := by
  constructor
  · exact entries
  · intro id other
    rw [reservations, AList.lookup_erase_ne other]
  · intro id _
    rw [reconciliations]

/-- One posting that leaves the action without a reservation. -/
structure Disposes (before data : BudgetDocument) (entry : LedgerEntry) (kind : EntryKind)
    (amount : Decimal) (requestId actionId : String) : Prop where
  confined : Confined actionId before data
  free : data.reservations.lookup actionId = none
  kind : entry.kind = kind
  amount : entry.amountUsd = amount.plain
  requestId : entry.requestId = requestId
  actionId : entry.actionId = actionId

theorem Disposes.postsFor {before data : BudgetDocument} {entry : LedgerEntry} {kind : EntryKind}
    {amount : Decimal} {after : Ledger} (appended : append fits data entry = .ok after)
    (disposes : Disposes before data entry kind amount requestId actionId) :
    PostsFor fits before actionId after :=
  ⟨data, entry, appended, disposes.actionId, disposes.confined⟩

private theorem debit_disposes {before : BudgetDocument} {actual reserved : Decimal}
    {completion : Option String} {debited : Ledger × Decimal}
    (ok : debit fits { before with reservations := before.reservations.erase actionId } actual
      reserved requestId actionId completion clock = .ok debited) :
    ∃ data entry, append fits data entry = .ok debited.1 ∧
      Disposes before data entry .debit actual requestId actionId ∧
      entry.note = "reserved $" ++ reserved.plain.text ∧ entry.completionRecordId = completion := by
  simp only [debit, bind_ok_iff, pure_ok_iff] at ok
  obtain ⟨_, -, _, -, _, -, stored, appended, rfl⟩ := ok
  refine ⟨_, _, appended, ?_, by simp, by simp⟩
  constructor
  · apply erased_confined <;> simp
  · exact AList.lookup_erase _ _
  all_goals simp

private theorem giveBack_disposes {before : BudgetDocument} {reserved : Decimal}
    {given : Ledger × Decimal}
    (ok : giveBack fits { before with reservations := before.reservations.erase actionId } reserved
      requestId actionId clock = .ok given) :
    ∃ data entry, append fits data entry = .ok given.1 ∧
      Disposes before data entry .release reserved requestId actionId := by
  simp only [giveBack, bind_ok_iff, pure_ok_iff] at ok
  obtain ⟨_, -, _, -, stored, appended, rfl⟩ := ok
  refine ⟨_, _, appended, ?_⟩
  constructor
  · apply erased_confined <;> simp
  · exact AList.lookup_erase _ _
  all_goals simp

/-- What removing a reservation finds and leaves. -/
theorem popReservation_takes {data : BudgetDocument} {popped : BudgetDocument × Decimal}
    (taken : popReservation data requestId actionId = .ok popped) :
    ∃ reservation, data.reservations.lookup actionId = some reservation ∧
      reservation.requestId = requestId ∧
      popped = ({ data with reservations := data.reservations.erase actionId },
        reservation.amountUsd.decimal) := by
  simp only [popReservation, bind_ok_iff, orRefuse_ok_iff, refuseIf_ok_iff, not_not,
    pure_ok_iff] at taken
  obtain ⟨reservation, found, -, owned, rfl⟩ := taken
  exact ⟨reservation, found, owned, rfl⟩

private theorem erase_missing {data : BudgetDocument}
    (absent : data.reservations.lookup actionId = none) :
    data = { data with reservations := data.reservations.erase actionId } := by
  have same : data.reservations.erase actionId = data.reservations :=
    AList.ext (List.kerase_of_notMem_keys (AList.lookup_eq_none.1 absent))
  rw [same]

/-! ### What the operations without replay post -/

private theorem reserve_postsFor {amountUsd : Decimal} {update : Update Ledger Unit}
    (reserved : ledger.reserve fits amountUsd requestId actionId clock = .ok update) :
    ∃ after, update.written = some after ∧ PostsFor fits ledger.document actionId after := by
  simp only [reserve, bind_ok_iff, pure_ok_iff] at reserved
  obtain ⟨_, -, -, -, -, -, -, -, -, -, after, added, rfl⟩ := reserved
  exact ⟨after, by simp, addReservation_postsFor added⟩

private theorem settle_postsFor {actualUsd : Decimal} {update : Update Ledger Decimal}
    (settled : ledger.settle fits actualUsd requestId actionId clock = .ok update) :
    ∃ after, update.written = some after ∧ PostsFor fits ledger.document actionId after := by
  simp only [settle, bind_ok_iff, pure_ok_iff] at settled
  obtain ⟨_, -, -, -, -, -, popped, taken, debited, ok, rfl⟩ := settled
  obtain ⟨reservation, -, -, rfl⟩ := popReservation_takes taken
  obtain ⟨data, entry, appended, disposes, -⟩ := debit_disposes ok
  exact ⟨debited.1, by simp, disposes.postsFor appended⟩

private theorem release_postsFor {update : Update Ledger Decimal}
    (released : ledger.release fits requestId actionId clock = .ok update) :
    ∃ after, update.written = some after ∧ PostsFor fits ledger.document actionId after := by
  simp only [release, bind_ok_iff, pure_ok_iff] at released
  obtain ⟨-, -, -, -, popped, taken, given, gave, rfl⟩ := released
  obtain ⟨reservation, -, -, rfl⟩ := popReservation_takes taken
  obtain ⟨data, entry, appended, disposes⟩ := giveBack_disposes gave
  exact ⟨given.1, by simp, disposes.postsFor appended⟩

/-! ### What a journaled operation recognizes, and what its success leaves -/

/-- The reservation of this request and amount is live. -/
def Reserved (document : BudgetDocument) (amount : Decimal) (requestId actionId : String) : Prop :=
  ∃ reservation, document.reservations.lookup actionId = some reservation ∧
    reservation.requestId = requestId ∧ reservation.amountUsd.decimal.value = amount.value

/-- The only disposition of the action under the request is this debit. -/
def DebitRecorded (document : BudgetDocument) (expected actual : Decimal)
    (requestId actionId completionRecordId : String) : Prop :=
  document.reservations.lookup actionId = none ∧
    ∃ entry, dispositions document requestId actionId = [entry] ∧ entry.kind = .debit ∧
      entry.amountUsd.decimal.value = actual.value ∧
      entry.note = "reserved $" ++ expected.plain.text ∧
      entry.completionRecordId = some completionRecordId

/-- The request released this amount of the action, and nothing is reserved again. -/
def ReleaseRecorded (document : BudgetDocument) (amount : Decimal) (requestId actionId : String) : Prop :=
  document.reservations.lookup actionId = none ∧
    ∃ entry ∈ document.entries, entry.kind = .release ∧ entry.requestId = requestId ∧
      entry.actionId = actionId ∧ entry.amountUsd.decimal.value = amount.value

/-- The marker of the action has this input; a caller without authority matches any authority. -/
def Marked (document : BudgetDocument) (supplied : ReconciliationInput) (actionId : String) :
    Prop :=
  ∃ marker, document.reconciliations.lookup actionId = some marker ∧
    { marker.supplied with authority := none } = { supplied with authority := none } ∧
    (supplied.authority.isSome → marker.supplied.authority = supplied.authority)

private theorem addReservation_reserved {before : BudgetDocument} {amount : Decimal}
    {after : Ledger}
    (added : addReservation fits before amount requestId actionId clock = .ok after) :
    Reserved after.document amount requestId actionId := by
  simp only [addReservation, bind_ok_iff] at added
  obtain ⟨_, -, -, -, _, -, _, -, appended⟩ := added
  refine ⟨_, ((append_lookup appended actionId).1.trans (Dict.lookup_set _ _ _)), by simp, ?_⟩
  simp [Decimal.plain_value]

theorem ensureReservation_leaves {amountUsd : Decimal} {update : Update Ledger Unit}
    (reserved : ledger.ensureReservation fits amountUsd requestId actionId clock = .ok update) :
    (update.written = none ∨ ∃ after, update.written = some after ∧
      ledger.document.reservations.lookup actionId = none ∧
      PostsFor fits ledger.document actionId after) ∧
    Reserved (update.written.getD ledger).document amountUsd requestId actionId := by
  simp only [ensureReservation, bind_ok_iff, money_ok_iff] at reserved
  obtain ⟨_, ⟨rfl, -⟩, -, -, -, -, -, -, reserved⟩ := reserved
  split at reserved
  next reservation present =>
    simp only [bind_ok_iff, refuseIf_ok_iff, not_not, Decimal.eqv_iff, pure_ok_iff] at reserved
    obtain ⟨-, ⟨owner, amount⟩, rfl⟩ := reserved
    constructor
    · left
      simp
    · exact ⟨reservation, present, owner, amount⟩
  next absent =>
    simp only [bind_ok_iff, pure_ok_iff] at reserved
    obtain ⟨after, added, rfl⟩ := reserved
    constructor
    · right
      exact ⟨after, by simp, absent, addReservation_postsFor added⟩
    · exact addReservation_reserved added

/-- A first debit is the only disposition of its action and request. -/
private theorem debit_settled {before : BudgetDocument} {expected actual : Decimal}
    {completionRecordId : String} {debited : Ledger × Decimal}
    (first : dispositions before requestId actionId = [])
    (ok : debit fits { before with reservations := before.reservations.erase actionId } actual
      expected requestId actionId (some completionRecordId) clock = .ok debited) :
    PostsFor fits before actionId debited.1 ∧
      DebitRecorded debited.1.document expected actual requestId actionId completionRecordId := by
  obtain ⟨data, entry, appended, disposes, note, completion⟩ := debit_disposes ok
  refine ⟨disposes.postsFor appended, ?_, entry, ?_, disposes.kind, ?_, note, completion⟩
  · rw [(append_lookup appended actionId).1, disposes.free]
  · unfold dispositions at first ⊢
    rw [append_entries appended, disposes.confined.entries, List.filter_append, first]
    simp [disposes.requestId, disposes.actionId, disposes.kind]
  · rw [disposes.amount, Decimal.plain_value]

theorem ensureSettlement_leaves {expectedUsd actualUsd : Decimal} {completionRecordId : String}
    {update : Update Ledger Decimal}
    (settled : ledger.ensureSettlement fits expectedUsd actualUsd requestId actionId
      completionRecordId clock = .ok update) :
    (update.written = none ∨ ∃ after, update.written = some after ∧
      dispositions ledger.document requestId actionId = [] ∧
      (ledger.document.reservations.lookup actionId = none → expectedUsd.isZero = true) ∧
      PostsFor fits ledger.document actionId after) ∧
    DebitRecorded (update.written.getD ledger).document expectedUsd actualUsd requestId actionId
      completionRecordId := by
  simp only [ensureSettlement, bind_ok_iff, money_ok_iff] at settled
  obtain ⟨_, ⟨rfl, -⟩, _, ⟨rfl, -⟩, -, -, -, -, -, -, -, -, settled⟩ := settled
  split at settled
  next absent =>
    split at settled
    next recognized =>
      simp only [bind_ok_iff, pure_ok_iff] at settled
      obtain ⟨_, -, rfl⟩ := settled
      obtain ⟨single, matching⟩ := recognized
      -- the single disposition is the one that matches
      obtain ⟨entry, only⟩ := List.length_eq_one_iff.1 single
      rw [only] at matching
      have same : _ = true := List.length_filter_eq_length_iff.1 matching entry (by simp)
      simp only [Bool.and_eq_true, beq_iff_eq, Decimal.eqv_iff] at same
      obtain ⟨⟨⟨kind, amount⟩, note⟩, completion⟩ := same
      constructor
      · left
        simp
      · exact ⟨absent, entry, only, kind, amount, note, completion⟩
    next =>
      simp only [bind_ok_iff, pure_ok_iff, refuseIf_ok_iff, not_not, Bool.not_eq_false] at settled
      obtain ⟨-, first, -, zero, debited, ok, rfl⟩ := settled
      rw [erase_missing absent] at ok
      obtain ⟨posts, debit⟩ := debit_settled first ok
      exact ⟨.inr ⟨debited.1, by simp, first, fun _ => zero, posts⟩, debit⟩
  next reservation present =>
    simp only [bind_ok_iff, pure_ok_iff, refuseIf_ok_iff, not_not] at settled
    obtain ⟨-, first, -, -, debited, ok, rfl⟩ := settled
    obtain ⟨posts, debit⟩ := debit_settled first ok
    refine ⟨.inr ⟨debited.1, by simp, first, ?_, posts⟩, debit⟩
    intro absent
    rw [present] at absent
    cases absent

theorem ensureRelease_leaves {expectedUsd : Decimal} {update : Update Ledger Decimal}
    (released : ledger.ensureRelease fits expectedUsd requestId actionId clock = .ok update) :
    (update.written = none ∨ ∃ after, update.written = some after ∧
      expectedUsd.isZero = false ∧ Reserved ledger.document expectedUsd requestId actionId ∧
      PostsFor fits ledger.document actionId after) ∧
    (expectedUsd.isZero = true ∨
      ReleaseRecorded (update.written.getD ledger).document expectedUsd requestId actionId) := by
  simp only [ensureRelease, bind_ok_iff, money_ok_iff] at released
  obtain ⟨_, ⟨rfl, -⟩, -, -, -, -, released⟩ := released
  split at released
  next zero =>
    simp only [bind_ok_iff, pure_ok_iff] at released
    obtain ⟨_, -, rfl⟩ := released
    exact ⟨.inl (by simp), .inl zero⟩
  next positive =>
    split at released
    -- released before: the matching entry is the record of it
    next absent =>
      simp only [bind_ok_iff, refuseIf_ok_iff, pure_ok_iff] at released
      obtain ⟨-, matching, _, -, rfl⟩ := released
      obtain ⟨entry, member⟩ := List.exists_mem_of_ne_nil _ matching
      simp only [List.mem_filter, Bool.and_eq_true, beq_iff_eq, Decimal.eqv_iff] at member
      obtain ⟨posted, ⟨⟨kind, request⟩, action⟩, amount⟩ := member
      refine ⟨.inl (by simp), .inr ⟨absent, entry, posted, kind, request, action, amount⟩⟩
    next reservation present =>
      simp only [bind_ok_iff, refuseIf_ok_iff, not_not, Decimal.eqv_iff, pure_ok_iff] at released
      obtain ⟨-, ⟨owner, amount⟩, popped, taken, given, gave, rfl⟩ := released
      obtain ⟨same, found, -, rfl⟩ := popReservation_takes taken
      rw [present, Option.some.injEq] at found
      subst found
      obtain ⟨data, entry, appended, disposes⟩ := giveBack_disposes gave
      refine ⟨.inr ⟨given.1, by simp, by simpa using positive,
        ⟨reservation, present, owner, amount⟩, disposes.postsFor appended⟩, .inr ⟨?_, entry, ?_,
          disposes.kind, disposes.requestId, disposes.actionId, ?_⟩⟩
      · exact (append_lookup appended actionId).1.trans disposes.free
      · show entry ∈ given.1.document.entries
        rw [append_entries appended]
        simp
      · rw [disposes.amount, Decimal.plain_value, amount]

private theorem takeReservation_leaves {data : BudgetDocument} {expected : Decimal}
    {taken : BudgetDocument × Option Decimal}
    (ok : takeReservation data expected requestId actionId = .ok taken) :
    taken.1 = { data with reservations := data.reservations.erase actionId } := by
  unfold takeReservation at ok
  split at ok
  next absent =>
    cases ok
    exact erase_missing absent
  next =>
    simp only [bind_ok_iff, pure_ok_iff] at ok
    obtain ⟨-, -, -, -, rfl⟩ := ok
    rfl

theorem lowerEstimate_leaves {before data : BudgetDocument} {disposition : Disposition}
    {released : Decimal} (lowered : lowerEstimate before disposition released = .ok data) :
    data = { before with totalEstimatedUsd := data.totalEstimatedUsd } := by
  unfold lowerEstimate at lowered
  split at lowered
  next =>
    simp only [bind_ok_iff, pure_ok_iff] at lowered
    obtain ⟨_, -, rfl⟩ := lowered
    rfl
  next =>
    cases lowered
    rfl

theorem chargeTotals_leaves {before data : BudgetDocument} {charge : Decimal}
    (taken : chargeTotals before charge = .ok data) :
    data = { before with balanceUsd := data.balanceUsd, totalSpentUsd := data.totalSpentUsd } := by
  unfold chargeTotals at taken
  split at taken
  next =>
    simp only [bind_ok_iff, pure_ok_iff] at taken
    obtain ⟨_, -, _, -, rfl⟩ := taken
    rfl
  next =>
    cases taken
    rfl

/-- The input that a reconciliation stores and compares. -/
def suppliedInput (expectedUsd : Decimal) (requestId : String) (outcome : Outcome)
    (reconciledBy note : String) (authority : Option LedgerAuthority) : ReconciliationInput :=
  { requestId := requestId, outcome := outcome, reconciledBy := strip reconciledBy
    note := strip note, expectedUsd := expectedUsd.plain, authority := authority }

theorem reconcileReservation_leaves {expectedUsd : Decimal} {outcome : Outcome}
    {reconciledBy note : String} {authority : Option LedgerAuthority}
    {update : Update Ledger Reconciliation}
    (reconciled : ledger.reconcileReservation fits expectedUsd requestId actionId outcome
      reconciledBy note authority clock = .ok update) :
    (update.written = none ∨ ∃ after, update.written = some after ∧
      ledger.document.reconciliations.lookup actionId = none ∧
      PostsFor fits ledger.document actionId after) ∧
    Marked (update.written.getD ledger).document
      (suppliedInput expectedUsd requestId outcome reconciledBy note authority) actionId := by
  simp only [reconcileReservation, bind_ok_iff, money_ok_iff] at reconciled
  obtain ⟨_, ⟨rfl, -⟩, -, -, -, -, -, -, -, -, -, -, reconciled⟩ := reconciled
  split at reconciled
  next marker present =>
    simp only [bind_ok_iff, refuseIf_ok_iff, not_not, pure_ok_iff] at reconciled
    obtain ⟨-, ⟨input, sealedAuthority⟩, rfl⟩ := reconciled
    exact ⟨.inl (by simp), marker, present, input, sealedAuthority⟩
  next absent =>
    simp only [bind_ok_iff, pure_ok_iff] at reconciled
    obtain ⟨⟨base, reserved⟩, taken, -, -, lowered, estimate, data, totals, remaining, -, after,
      appended, rfl⟩ := reconciled
    have base := takeReservation_leaves taken
    have lower := lowerEstimate_leaves estimate
    have charged := chargeTotals_leaves totals
    simp only at base
    subst base
    refine ⟨.inr ⟨after, by simp, absent, _, _, appended, by simp, ?_⟩, _,
      (append_lookup appended actionId).2.trans (Dict.lookup_set _ _ _), ?_, ?_⟩
    · -- the totals are the only fields that change besides the action's own values
      rw [charged, lower]
      constructor
      · simp
      · intro id other
        exact AList.lookup_erase_ne other
      · intro id other
        exact Dict.lookup_set_ne other
    · simp [suppliedInput]
    · simp [suppliedInput]

/-! ### Recognition depends on the action alone -/

variable {before after : BudgetDocument}

theorem dispositions_untouched (untouched : Untouched actionId before after) :
    dispositions after requestId actionId = dispositions before requestId actionId := by
  -- both keys are compared, so the scan can start from the entries of the action
  have scan : ∀ document : BudgetDocument, dispositions document requestId actionId =
      (document.entries.filter (·.actionId == actionId)).filter fun entry =>
        entry.requestId == requestId &&
          (entry.kind == .debit || entry.kind == .release || entry.kind == .reconcile) := by
    intro document
    unfold dispositions
    rw [List.filter_filter]
    apply List.filter_congr
    intro entry _
    cases entry.actionId == actionId <;> simp
  rw [scan, scan, untouched.entries]

theorem Reserved.untouched {amount : Decimal} (untouched : Untouched actionId before after)
    (reserved : Reserved before amount requestId actionId) :
    Reserved after amount requestId actionId := by
  unfold Reserved at reserved ⊢
  rwa [untouched.reservation]

theorem DebitRecorded.untouched {expected actual : Decimal} {completionRecordId : String}
    (untouched : Untouched actionId before after)
    (settled : DebitRecorded before expected actual requestId actionId completionRecordId) :
    DebitRecorded after expected actual requestId actionId completionRecordId := by
  unfold DebitRecorded at settled ⊢
  rwa [untouched.reservation, dispositions_untouched untouched]

theorem ReleaseRecorded.untouched {amount : Decimal} (untouched : Untouched actionId before after)
    (released : ReleaseRecorded before amount requestId actionId) :
    ReleaseRecorded after amount requestId actionId := by
  obtain ⟨free, entry, posted, kind, request, action, same⟩ := released
  have own : entry ∈ before.entries.filter (·.actionId == actionId) := by
    simp [posted, action]
  rw [← untouched.entries] at own
  exact ⟨untouched.reservation.trans free, entry, (List.mem_filter.1 own).1, kind, request, action,
    same⟩

theorem Marked.untouched {supplied : ReconciliationInput} (untouched : Untouched actionId before after)
    (marked : Marked before supplied actionId) : Marked after supplied actionId := by
  unfold Marked at marked ⊢
  rwa [untouched.marker]

/-! ### One recognized effect excludes another -/

theorem Reserved.same {document : BudgetDocument} {amount amount' : Decimal} {requestId' : String}
    (reserved : Reserved document amount requestId actionId)
    (again : Reserved document amount' requestId' actionId) :
    amount'.value = amount.value ∧ requestId' = requestId := by
  obtain ⟨reservation, found, owner, same⟩ := reserved
  obtain ⟨_, found', owner', same'⟩ := again
  rw [found, Option.some.injEq] at found'
  subst found'
  exact ⟨same'.symm.trans same, owner'.symm.trans owner⟩

private theorem reserved_note {expected expected' : Decimal}
    (same : "reserved $" ++ expected.plain.text = "reserved $" ++ expected'.plain.text) :
    expected.value = expected'.value := by
  have texts : expected.plain.text = expected'.plain.text :=
    String.ext (by simpa using congrArg String.toList same)
  have plain := PlainDecimal.text_injective texts
  rw [← Decimal.plain_value expected, plain, Decimal.plain_value]

theorem DebitRecorded.same {document : BudgetDocument} {expected expected' actual actual' : Decimal}
    {completion completion' : String}
    (settled : DebitRecorded document expected actual requestId actionId completion)
    (again : DebitRecorded document expected' actual' requestId actionId completion') :
    expected'.value = expected.value ∧ actual'.value = actual.value ∧ completion' = completion := by
  obtain ⟨-, entry, only, -, amount, note, record⟩ := settled
  obtain ⟨-, other, only', -, amount', note', record'⟩ := again
  rw [only, List.singleton_inj] at only'
  subst only'
  rw [record, Option.some.injEq] at record'
  exact ⟨reserved_note (note'.symm.trans note), amount'.symm.trans amount, record'.symm⟩

theorem Marked.same {document : BudgetDocument} {supplied supplied' : ReconciliationInput}
    (marked : Marked document supplied actionId) (again : Marked document supplied' actionId) :
    supplied'.expectedUsd = supplied.expectedUsd ∧ supplied'.requestId = supplied.requestId := by
  obtain ⟨marker, found, input, -⟩ := marked
  obtain ⟨_, found', input', -⟩ := again
  rw [found, Option.some.injEq] at found'
  subst found'
  have equal := input'.symm.trans input
  simp only [ReconciliationInput.mk.injEq] at equal
  exact ⟨equal.2.2.2.2.1, equal.1⟩

/-! ### Arguments -/

/-- What a settlement asks of its arguments. -/
structure SettlementArguments (expectedUsd actualUsd : Decimal)
    (requestId actionId completionRecordId : String) : Prop where
  expected : 0 ≤ expectedUsd.value
  actual : 0 ≤ actualUsd.value
  request : requestId ≠ ""
  action : actionId ≠ ""
  completion : startsWith "evd_" completionRecordId = true

/-- What a release asks of its arguments. -/
structure ReleaseArguments (expectedUsd : Decimal) (requestId actionId : String) : Prop where
  expected : 0 ≤ expectedUsd.value
  request : requestId ≠ ""
  action : actionId ≠ ""

theorem ensureSettlement_arguments {expectedUsd actualUsd : Decimal} {completionRecordId : String}
    {update : Update Ledger Decimal}
    (settled : ledger.ensureSettlement fits expectedUsd actualUsd requestId actionId
      completionRecordId clock = .ok update) :
    SettlementArguments expectedUsd actualUsd requestId actionId completionRecordId := by
  simp only [ensureSettlement, requireText, bind_ok_iff, money_ok_iff, refuseIf_ok_iff,
    Bool.not_eq_false] at settled
  obtain ⟨_, ⟨rfl, expected⟩, _, ⟨rfl, actual⟩, -, request, -, action, -, -, -, evidence, -⟩ := settled
  exact ⟨expected, actual, request, action, evidence⟩

theorem ensureRelease_arguments {expectedUsd : Decimal} {update : Update Ledger Decimal}
    (released : ledger.ensureRelease fits expectedUsd requestId actionId clock = .ok update) :
    ReleaseArguments expectedUsd requestId actionId := by
  simp only [ensureRelease, requireText, bind_ok_iff, money_ok_iff, refuseIf_ok_iff] at released
  obtain ⟨_, ⟨rfl, expected⟩, -, request, -, action, -⟩ := released
  exact ⟨expected, request, action⟩

theorem SettlementArguments.completion_ne {expectedUsd actualUsd : Decimal} {completionRecordId : String}
    (arguments : SettlementArguments expectedUsd actualUsd requestId actionId completionRecordId) :
    completionRecordId ≠ "" := by
  rintro rfl
  exact absurd arguments.completion (by decide)

/-! ### Replays -/

section

variable {later : Ledger} {clock' : Clock}

theorem ensureReservation_replays {amountUsd : Decimal} {update : Update Ledger Unit}
    (succeeded : ledger.ensureReservation fits amountUsd requestId actionId clock = .ok update)
    (reserved : Reserved later.document amountUsd requestId actionId) :
    later.ensureReservation fits amountUsd requestId actionId clock' = .ok (.unchanged ()) := by
  simp only [ensureReservation, bind_ok_iff, money_ok_iff] at succeeded ⊢
  obtain ⟨_, ⟨rfl, nonneg⟩, _, request, _, own, _, positive, -⟩ := succeeded
  obtain ⟨reservation, found, owner, amount⟩ := reserved
  refine ⟨_, ⟨rfl, nonneg⟩, (), request, (), own, (), positive, ?_⟩
  simp [found, owner, (Decimal.eqv_iff _ _).2 amount, refuseIf_of_not]

theorem ensureSettlement_replays {expectedUsd actualUsd : Decimal} {completionRecordId : String}
    (arguments : SettlementArguments expectedUsd actualUsd requestId actionId completionRecordId)
    (settled : DebitRecorded later.document expectedUsd actualUsd requestId actionId completionRecordId) :
    later.ensureSettlement fits expectedUsd actualUsd requestId actionId completionRecordId clock' =
      later.document.available.map .unchanged := by
  have sealedId : hasEvidencePrefix completionRecordId = true := arguments.completion
  obtain ⟨free, entry, only, kind, amount, note, completion⟩ := settled
  have matching : [entry].filter (fun entry =>
      entry.kind == .debit && entry.amountUsd.decimal.eqv actualUsd &&
        entry.note == "reserved $" ++ expectedUsd.plain.text &&
        entry.completionRecordId == some completionRecordId) = [entry] := by
    simp [kind, note, completion, (Decimal.eqv_iff _ _).2 amount]
  simp only [ensureSettlement, requireText, money_ok_iff.2 ⟨rfl, arguments.expected⟩,
    money_ok_iff.2 ⟨rfl, arguments.actual⟩, refuseIf_of_not arguments.request,
    refuseIf_of_not arguments.action, refuseIf_of_not arguments.completion_ne, sealedId, ok_bind, free,
    only, matching, List.length_singleton, and_self, if_true]
  cases later.document.available <;> simp [Except.map, refuseIf_of_not]

theorem ensureRelease_replays {expectedUsd : Decimal}
    (arguments : ReleaseArguments expectedUsd requestId actionId)
    (released : expectedUsd.isZero = true ∨
      ReleaseRecorded later.document expectedUsd requestId actionId) :
    later.ensureRelease fits expectedUsd requestId actionId clock' =
      later.document.available.map .unchanged := by
  simp only [ensureRelease, requireText, money_ok_iff.2 ⟨rfl, arguments.expected⟩,
    refuseIf_of_not arguments.request, refuseIf_of_not arguments.action, ok_bind]
  split
  next =>
    unfold balanceUsd
    cases later.document.available <;> simp [Except.map]
  next positive =>
    obtain ⟨free, entry, posted, kind, owner, action, amount⟩ := released.resolve_left positive
    -- the release entry is among those that match
    have matching : later.document.entries.filter (fun entry =>
        entry.kind == .release && entry.requestId == requestId && entry.actionId == actionId &&
          entry.amountUsd.decimal.eqv expectedUsd) ≠ [] := by
      apply List.ne_nil_of_mem (a := entry)
      simp [posted, kind, owner, action, (Decimal.eqv_iff _ _).2 amount]
    simp only [free, refuseIf_of_not matching, ok_bind]
    cases later.document.available <;> simp [Except.map]

theorem reconcileReservation_replays {expectedUsd : Decimal} {outcome : Outcome}
    {reconciledBy note : String} {authority : Option LedgerAuthority}
    {update : Update Ledger Reconciliation}
    (succeeded : ledger.reconcileReservation fits expectedUsd requestId actionId outcome
      reconciledBy note authority clock = .ok update)
    (marked : Marked later.document
      (suppliedInput expectedUsd requestId outcome reconciledBy note authority) actionId) :
    ∃ marker, later.reconcileReservation fits expectedUsd requestId actionId outcome reconciledBy
      note authority clock' = .ok (.unchanged marker) := by
  simp only [reconcileReservation, bind_ok_iff, money_ok_iff] at succeeded ⊢
  obtain ⟨_, ⟨rfl, expected⟩, _, request, _, own, _, operator, _, reason, _, sealedIds, -⟩ :=
    succeeded
  obtain ⟨marker, found, input, sealedAuthority⟩ := marked
  refine ⟨marker, _, ⟨rfl, expected⟩, (), request, (), own, (), operator, (), reason, (), sealedIds,
    ?_⟩
  simp only [found, bind_ok_iff, refuseIf_ok_iff, not_not]
  exact ⟨(), ⟨input, sealedAuthority⟩, rfl⟩

end

end Ledger

namespace LedgerCall

open Ledger

variable {fits : BudgetDocument → Bool} {ledger : Ledger} {clock : Clock} {stored : Option Ledger}

/-- The action that a call is about. -/
def action : LedgerCall → Option String
  | .grant _ _ => none
  | .reserve _ _ actionId | .ensureReservation _ _ actionId | .settle _ _ actionId
  | .ensureSettlement _ _ _ actionId _ | .release _ actionId | .ensureRelease _ _ actionId
  | .reconcileReservation _ _ actionId _ _ _ _ => some actionId

/-- The operations that the journal replays. -/
def Replayable : LedgerCall → Prop
  | .ensureReservation .. | .ensureSettlement .. | .ensureRelease .. | .reconcileReservation .. => True
  | _ => False

/-- The ledger holds the effect of the operation. -/
def Recognized (document : BudgetDocument) : LedgerCall → Prop
  | .ensureReservation amountUsd requestId actionId =>
    Reserved document amountUsd requestId actionId
  | .ensureSettlement expectedUsd actualUsd requestId actionId completionRecordId =>
    DebitRecorded document expectedUsd actualUsd requestId actionId completionRecordId
  | .ensureRelease expectedUsd requestId actionId =>
    expectedUsd.isZero = true ∨ ReleaseRecorded document expectedUsd requestId actionId
  | .reconcileReservation expectedUsd requestId actionId outcome reconciledBy note authority =>
    Marked document (suppliedInput expectedUsd requestId outcome reconciledBy note authority)
      actionId
  | _ => False

/-- Recognizing the effect writes nothing; settlements and releases answer the available balance. -/
def recognize (document : BudgetDocument) : LedgerCall → Except HarnessError (Option Ledger)
  | .ensureSettlement .. | .ensureRelease .. => do
    let _ ← document.available
    pure none
  | _ => pure none

theorem written_postsFor {call : LedgerCall}
    (returned : call.written fits ledger clock = .ok stored) :
    stored = none ∨
      ∃ after, stored = some after ∧ PostsFor fits ledger.document (call.action.getD "") after := by
  cases call
  all_goals
    obtain ⟨update, ok, equal⟩ := bind_ok_iff.1 returned
    cases equal
  -- the direct calls always write
  case grant => exact .inr (grant_postsFor ok)
  case reserve => exact .inr (reserve_postsFor ok)
  case settle => exact .inr (settle_postsFor ok)
  case release => exact .inr (release_postsFor ok)
  case ensureReservation =>
    rcases (ensureReservation_leaves ok).1 with nothing | ⟨after, written, -, posts⟩
    · exact .inl nothing
    · exact .inr ⟨after, written, posts⟩
  case ensureSettlement =>
    rcases (ensureSettlement_leaves ok).1 with nothing | ⟨after, written, -, -, posts⟩
    · exact .inl nothing
    · exact .inr ⟨after, written, posts⟩
  case ensureRelease =>
    rcases (ensureRelease_leaves ok).1 with nothing | ⟨after, written, -, -, posts⟩
    · exact .inl nothing
    · exact .inr ⟨after, written, posts⟩
  case reconcileReservation =>
    rcases (reconcileReservation_leaves ok).1 with nothing | ⟨after, written, -, posts⟩
    · exact .inl nothing
    · exact .inr ⟨after, written, posts⟩

/-- A success leaves an effect that the operation recognizes. -/
theorem written_recognized {call : LedgerCall} (replayable : call.Replayable)
    (returned : call.written fits ledger clock = .ok stored) :
    call.Recognized (stored.getD ledger).document := by
  cases call
  case grant | reserve | settle | release => exact replayable.elim
  all_goals
    obtain ⟨update, ok, equal⟩ := bind_ok_iff.1 returned
    cases equal
  case ensureReservation => exact (ensureReservation_leaves ok).2
  case ensureSettlement => exact (ensureSettlement_leaves ok).2
  case ensureRelease => exact (ensureRelease_leaves ok).2
  case reconcileReservation => exact (reconcileReservation_leaves ok).2

theorem Recognized.untouched {call : LedgerCall} {actionId : String} {before after : BudgetDocument}
    (own : call.action = some actionId) (untouched : Untouched actionId before after)
    (recognized : call.Recognized before) : call.Recognized after := by
  cases call
  case grant | reserve | settle | release => exact recognized.elim
  all_goals
    simp only [action, Option.some.injEq] at own
    subst own
  case ensureReservation => exact Reserved.untouched untouched recognized
  case ensureSettlement => exact DebitRecorded.untouched untouched recognized
  case ensureRelease => exact Or.imp_right (ReleaseRecorded.untouched untouched) recognized
  case reconcileReservation => exact Marked.untouched untouched recognized

theorem replays {call : LedgerCall} {later : Ledger} {clock' : Clock}
    (replayable : call.Replayable) (succeeded : call.written fits ledger clock = .ok stored)
    (recognized : call.Recognized later.document) :
    call.written fits later clock' = call.recognize later.document := by
  cases call
  case grant | reserve | settle | release => exact replayable.elim
  all_goals obtain ⟨update, ok, -⟩ := bind_ok_iff.1 succeeded
  case ensureReservation =>
    simp only [written, ensureReservation_replays ok recognized, ok_bind, Update.written_unchanged,
      recognize]
  case ensureSettlement =>
    simp only [written, ensureSettlement_replays (ensureSettlement_arguments ok) recognized, recognize]
    cases later.document.available <;> simp [Except.map]
  case ensureRelease =>
    simp only [written, ensureRelease_replays (ensureRelease_arguments ok) recognized, recognize]
    cases later.document.available <;> simp [Except.map]
  case reconcileReservation =>
    obtain ⟨marker, unchanged⟩ : ∃ marker, later.reconcileReservation fits _ _ _ _ _ _ _ clock' =
        .ok (.unchanged marker) := reconcileReservation_replays ok recognized
    simp only [written, unchanged, ok_bind, Update.written_unchanged, recognize]

end LedgerCall

namespace Books

variable {fits : BudgetDocument → Bool} {actionId : String}

/-- A call about another action leaves the action as it is. -/
theorem step_untouched {books : Books} {call : LedgerCall × Clock} (named : actionId ≠ "")
    (elsewhere : call.1.action ≠ some actionId) :
    Untouched actionId books.ledger.document (books.step fits call).ledger.document := by
  unfold step
  split
  next ledger returned =>
    rcases LedgerCall.written_postsFor returned with nothing | ⟨after, same, data, entry, appended,
      owner, confined⟩
    · cases nothing
    cases same
    rw [← owner] at confined
    apply Ledger.append_untouched confined appended
    rw [owner]
    cases about : call.1.action with
    | none => exact named
    | some other =>
      rintro rfl
      exact elsewhere about
  next => exact Untouched.refl _

theorem run_untouched {books : Books} {calls : List (LedgerCall × Clock)} (named : actionId ≠ "")
    (elsewhere : ∀ call ∈ calls, call.1.action ≠ some actionId) :
    Untouched actionId books.ledger.document (books.run fits calls).ledger.document := by
  induction calls generalizing books with
  | nil => exact Untouched.refl _
  | cons call calls ih =>
    obtain ⟨head, tail⟩ := List.forall_mem_cons.1 elsewhere
    exact (step_untouched named head).trans (ih tail)

end Books

namespace Ledger

theorem action_named {fits : BudgetDocument → Bool} {ledger : Ledger} {call : LedgerCall}
    {actionId : String} {clock : Clock} {stored : Option Ledger} (replayable : call.Replayable)
    (own : call.action = some actionId) (succeeded : call.written fits ledger clock = .ok stored) :
    actionId ≠ "" := by
  cases call
  -- a direct call is not replayable
  case grant | reserve | settle | release => exact replayable.elim
  all_goals
    obtain ⟨update, ok, -⟩ := bind_ok_iff.1 succeeded
    simp only [LedgerCall.action, Option.some.injEq] at own
    subst own
  case ensureReservation =>
    simp only [ensureReservation, requireText, bind_ok_iff, refuseIf_ok_iff] at ok
    obtain ⟨_, -, -, -, -, named, -⟩ := ok
    exact named
  case ensureSettlement =>
    simp only [ensureSettlement, requireText, bind_ok_iff, refuseIf_ok_iff] at ok
    obtain ⟨_, -, _, -, -, -, -, named, -⟩ := ok
    exact named
  case ensureRelease =>
    simp only [ensureRelease, requireText, bind_ok_iff, refuseIf_ok_iff] at ok
    obtain ⟨_, -, -, -, -, named, -⟩ := ok
    exact named
  case reconcileReservation =>
    simp only [reconcileReservation, requireText, bind_ok_iff, refuseIf_ok_iff] at ok
    obtain ⟨_, -, -, -, -, named, -⟩ := ok
    exact named

end Ledger
end DefiantHarness
