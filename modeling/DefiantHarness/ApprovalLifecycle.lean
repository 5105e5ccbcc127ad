import DefiantHarness.ApprovalRace
import DefiantHarness.Naming

/-! The approvals file over any sequence of store operations, with any arguments and at any times. -/
namespace DefiantHarness

open Foundation

namespace ApprovalStore

/-- Prepare an approval and store it. -/
def create (store : ApprovalStore) (digests : Digests) (preview : Json → String)
    (approvals : Approvals) (action : ProposedAction) (decisionReason approvalScope : String)
    (policyIds : List String) (ttlMinutes : Option Int) (request : Option HarnessRequest)
    (decision : Option GuardrailDecision) (reservedUsd : Decimal)
    (executionOwner executionKey approvalId : String) (clock : Clock) :
    Except HarnessError (Update Approvals PendingApproval) := do
  let pending ← store.prepare digests preview action decisionReason approvalScope policyIds ttlMinutes
    request decision reservedUsd executionOwner executionKey approvalId clock
  store.createPrepared approvals pending

end ApprovalStore

/-- One operation on the approvals file. A sealed approval has passed its own checks. -/
inductive StoreCall where
  | create (action : ProposedAction) (decisionReason approvalScope : String)
      (policyIds : List String) (ttlMinutes : Option Int) (request : Option HarnessRequest)
      (decision : Option GuardrailDecision) (reservedUsd : Decimal)
      (executionOwner executionKey approvalId : String)
  | createPrepared (pending : PendingApproval) (valid : pending.validate = .ok ())
  | decide (approvalId : String) (approved : Bool) (decidedBy note : String)
      (attestation : Option OperatorAttestation)
  | ensureRejected (approvalId decidedBy note : String) (attestation : Option OperatorAttestation)
  | expireDue (now : Option Timestamp)
  | expireOne (approvalId : String)
  | beginExecution (approvalId : String) (action : ProposedAction)
  | markConsumed (approvalId executionRecordId : String)
  | ensureConsumed (approvalId executionRecordId : String)
  | beginReconciliation (approvalId : String) (outcome : Outcome) (reconciledBy note : String)
      (attestation : Option OperatorAttestation)
  | markReconciled (approvalId executionRecordId : String)

namespace StoreCall

variable (site : Deployment)

/-- The approvals file after the operation, however it ends. -/
def run (approvals : Approvals) (clock : Clock) : StoreCall → Approvals
  | .create action decisionReason approvalScope policyIds ttlMinutes request decision reservedUsd
      executionOwner executionKey approvalId => outcome approvals
      (site.approvals.create site.digests site.preview approvals action decisionReason approvalScope
        policyIds ttlMinutes request decision reservedUsd executionOwner executionKey approvalId clock)
  | .createPrepared pending _ => outcome approvals (site.approvals.createPrepared approvals pending)
  | .decide approvalId approved decidedBy note attestation => outcome approvals
      (site.approvals.decide approvals approvalId approved decidedBy note attestation clock)
  | .ensureRejected approvalId decidedBy note attestation => outcome approvals
      (site.approvals.ensureRejected approvals approvalId decidedBy note attestation clock)
  | .expireDue now => outcome approvals (site.approvals.expireDue approvals now clock)
  | .expireOne approvalId => outcome approvals (site.approvals.expireOne approvals approvalId clock)
  | .beginExecution approvalId action => outcome approvals
      (site.approvals.beginExecution site.digests approvals approvalId action clock)
  | .markConsumed approvalId executionRecordId => outcome approvals
      (site.approvals.markConsumed approvals approvalId executionRecordId clock)
  | .ensureConsumed approvalId executionRecordId => outcome approvals
      (site.approvals.ensureConsumed approvals approvalId executionRecordId clock)
  | .beginReconciliation approvalId outcome' reconciledBy note attestation => outcome approvals
      (site.approvals.beginReconciliation approvals approvalId outcome' reconciledBy note attestation
        clock)
  | .markReconciled approvalId executionRecordId => outcome approvals
      (site.approvals.markReconciled approvals approvalId executionRecordId clock)

/-- The operation claims exactly this approved approval, before it expires, for the action that was
approved. -/
def ClaimOf (clock : Clock) (approval : PendingApproval) (call : StoreCall) : Prop :=
  ∃ action, call = .beginExecution approval.approvalId action ∧
    approval.status = .approved ∧ approval.isExpired (clock 0) = false ∧
    approval.actionId = action.actionId ∧
    approval.terms.authorizationHash = action.authorizationHash site.digests ∧
    site.approvals.requireDecisionIdentity approval (clock 1) = .ok ()

end StoreCall

/-- One approval is replaced by its next version. -/
structure Amends (site : Deployment) (clock : Clock) (call : StoreCall)
    (old new : PendingApproval) : Prop where
  terms : new.terms = old.terms
  valid : new.validate = .ok ()
  turns : Turns old.status new.status
  claimed : old.status ≠ .executing → new.status = .executing → call.ClaimOf site clock old

/-- How one operation changes the approvals file. -/
structure Evolves (site : Deployment) (clock : Clock) (call : StoreCall)
    (before after : Approvals) : Prop where
  kept : ∀ id old, before.lookup id = some old → after.lookup id = some old ∨
    ∃ new, after.lookup id = some new ∧ Amends site clock call old new
  created : ∀ id new, before.lookup id = none → after.lookup id = some new →
    new.approvalId = id ∧ new.validate = .ok () ∧
      (∀ other, other ≠ id → after.lookup other = before.lookup other) ∧
      ∀ other approval, before.lookup other = some approval → approval.actionId = new.actionId →
        approval.status.active = false

section

variable {site : Deployment} {clock : Clock} {call : StoreCall} {before after : Approvals}

theorem outcome_cases {α : Type} (before : Approvals)
    (result : Except HarnessError (Update Approvals α)) :
    outcome before result = before ∨ Writes result (outcome before result) := by
  rcases result with e | ⟨written, answer⟩
  · exact .inl rfl
  · cases written with
    | none => exact .inl rfl
    | some after => exact .inr ⟨_, rfl, rfl⟩

namespace Evolves

theorem unchanged (site : Deployment) (clock : Clock) (call : StoreCall) (approvals : Approvals) :
    Evolves site clock call approvals approvals where
  kept _ _ found := .inl found
  created _ _ absent found := by
    rw [absent] at found
    cases found

/-- A call that changes one approval, and does not claim it. -/
theorem of_revises {old new : PendingApproval} (revises : Revises before after old new)
    (claimed : old.status ≠ .executing → new.status = .executing → call.ClaimOf site clock old) :
    Evolves site clock call before after where
  kept id found lookup := by
    rw [revises.lookup]
    split
    next same =>
      rw [same, revises.found, Option.some.injEq] at lookup
      subst lookup
      exact .inr ⟨new, rfl, revises.terms, revises.valid, revises.turns, claimed⟩
    next => exact .inl lookup
  created id found absent lookup := by
    rw [revises.lookup] at lookup
    split at lookup
    next same =>
      rw [same, revises.found] at absent
      cases absent
    next =>
      rw [absent] at lookup
      cases lookup

/-- The same for a call that leaves the approval in another status than executing. -/
theorem of_ended {old new : PendingApproval} (revises : Revises before after old new)
    (status : new.status ≠ .executing) : Evolves site clock call before after :=
  of_revises revises fun _ executing => absurd executing status

theorem of_created {pending : PendingApproval} (valid : pending.validate = .ok ())
    (moved : Writes (site.approvals.createPrepared before pending) after) :
    Evolves site clock call before after := by
  obtain ⟨update, ok, written⟩ := moved
  obtain ⟨-, rfl⟩ | ⟨absent, inactive, -, rfl⟩ := ApprovalStore.createPrepared_ok_iff.1 ok
  · cases written
  · cases written
    constructor
    · intro id old found
      have other : id ≠ pending.approvalId := by
        rintro rfl
        rw [absent] at found
        cases found
      exact .inl (by rw [lookup_stored_ne other, found])
    · intro id new missing found
      rw [lookup_stored_eq] at found
      split at found
      next same =>
        cases found
        refine ⟨same.symm, valid, fun other apart => ?_, inactive⟩
        exact lookup_stored_ne (same ▸ apart)
      next =>
        rw [missing] at found
        cases found

end Evolves

/-! ### The sweep -/

/-- A due approval of these is written as expired. -/
private def Expires (entries : List PendingApproval) (new : PendingApproval) : Prop :=
  ∃ old ∈ entries, (old.status = .pending ∨ old.status = .approved) ∧ new.validate = .ok () ∧
    ∃ at_, new = { old with status := .expired, consumedAt := some at_ }

private theorem Expires.cons {entries : List PendingApproval} {new : PendingApproval}
    (expires : Expires entries new) (first : PendingApproval) : Expires (first :: entries) new := by
  obtain ⟨old, among, rest⟩ := expires
  exact ⟨old, List.mem_cons_of_mem _ among, rest⟩

private theorem expireEntries_expires {now : Option Timestamp}
    {entries expired : List PendingApproval}
    (sweep : ApprovalStore.expireEntries now clock entries = .ok expired) :
    ∀ new ∈ expired, Expires entries new := by
  induction entries generalizing clock expired with
  | nil =>
    cases sweep
    exact fun new member => absurd member List.not_mem_nil
  | cons approval rest ih =>
    unfold ApprovalStore.expireEntries at sweep
    split at sweep
    next due =>
      obtain ⟨valid, sweep⟩ := ApprovalStore.expire_bind_ok_iff.1 sweep
      obtain ⟨others, tail, same⟩ := bind_ok_iff.1 sweep
      cases same
      intro new member
      rcases List.mem_cons.1 member with rfl | later
      · refine ⟨approval, List.mem_cons_self, ?_, valid, _, rfl⟩
        simp only [ApprovalStore.isDue, Bool.and_eq_true, Bool.or_eq_true, beq_iff_eq] at due
        exact due.1
      · exact (ih tail new later).cons approval
    next => exact fun new member => (ih sweep new member).cons approval

private theorem mem_foldl_set {expired : List PendingApproval} {approvals : Approvals}
    {id : String} (held : id ∈ approvals) :
    id ∈ expired.foldl (fun data approval => data.set approval.approvalId approval) approvals := by
  induction expired generalizing approvals with
  | nil => exact held
  | cons first rest ih => exact ih ((Dict.mem_set_iff _ _ _ _).2 (.inr held))

theorem expireDue_evolves {now : Option Timestamp} (wellFormed : WellFormed before)
    (moved : Writes (site.approvals.expireDue before now clock) after) :
    Evolves site clock call before after := by
  obtain ⟨update, ok, written⟩ := moved
  obtain ⟨expired, sweep, rest⟩ := bind_ok_iff.1 ok
  split at rest
  next =>
    cases rest
    cases written
  next =>
    obtain ⟨file, saved, rest⟩ := bind_ok_iff.1 rest
    cases rest
    cases written
    simp only [ApprovalStore.writeAll] at saved
    split at saved
    next =>
      cases saved
      -- every stored approval is an old one, or an old one that the sweep expired
      have changed (id : String) (found : PendingApproval)
          (stored : (expired.foldl (fun data approval => data.set approval.approvalId approval)
            before).lookup id = some found) :
          before.lookup id = some found ∨
            ∃ old, before.lookup id = some old ∧ Amends site clock call old found := by
        rcases Dict.lookup_foldl_set.1 stored with ⟨early, new, late, split, key, rfl, -⟩ | ⟨-, held⟩
        · obtain ⟨old, member, live, valid, at_, rfl⟩ :=
            expireEntries_expires sweep new (by rw [split]; simp)
          obtain ⟨id', place⟩ := mem_values_iff.1 member
          obtain ⟨own, -⟩ := wellFormed _ _ place
          have key : old.approvalId = id := key
          rw [← own, key] at place
          refine .inr ⟨old, place, rfl, valid, .expire live, ?_⟩
          rintro - executing
          cases executing
        · exact .inl held
      constructor
      · intro id old found
        rw [Dict.lookup_sorted]
        have present := AList.lookup_isSome.2
          (@mem_foldl_set expired _ _ (AList.lookup_isSome.1 (by rw [found]; rfl)))
        obtain ⟨new, stored⟩ := Option.isSome_iff_exists.1 present
        rcases changed id new stored with same | ⟨other, place, amends⟩
        · rw [found, Option.some.injEq] at same
          exact .inl (same ▸ stored)
        · rw [found, Option.some.injEq] at place
          exact .inr ⟨new, stored, place ▸ amends⟩
      · intro id new absent stored
        rw [Dict.lookup_sorted] at stored
        rcases changed id new stored with same | ⟨other, place, -⟩
        · simp [absent] at same
        · simp [absent] at place
    next => cases saved

/-! ### One call -/

/-- What one call does to the approvals file, whatever its arguments. -/
theorem StoreCall.run_evolves (wellFormed : WellFormed before) (call : StoreCall) :
    Evolves site clock call before (call.run site before clock) := by
  -- a call that does not write leaves the store as it was
  have cases_ {α : Type} {result : Except HarnessError (Update Approvals α)}
      (wrote : ∀ after, Writes result after → Evolves site clock call before after) :
      Evolves site clock call before (outcome before result) := by
    rcases outcome_cases before result with same | moved
    · rw [same]
      exact .unchanged site clock call before
    · exact wrote _ moved
  cases call with
  | create =>
    apply cases_
    rintro after ⟨update, ok, written⟩
    obtain ⟨pending, prepared, ok⟩ := bind_ok_iff.1 ok
    simp only [ApprovalStore.prepare, bind_ok_iff, pure_ok_iff] at prepared
    obtain ⟨_, -, _, -, _, -, rfl⟩ := prepared
    exact .of_created (PendingApproval.pending_validate _) ⟨update, ok, written⟩
  | createPrepared pending valid => exact cases_ fun _ moved => .of_created valid moved
  | decide =>
    apply cases_
    intro after moved
    obtain ⟨old, new, -, revises, -, status⟩ := decide_revises wellFormed moved
    refine .of_ended revises ?_
    rw [status]
    split <;> decide
  | ensureRejected =>
    apply cases_
    intro after moved
    obtain ⟨old, new, -, revises, status⟩ := ensureRejected_revises wellFormed moved
    exact .of_ended revises (by simp [status])
  | expireDue => exact cases_ fun _ moved => expireDue_evolves wellFormed moved
  | expireOne =>
    apply cases_
    intro after moved
    obtain ⟨old, new, -, revises, status⟩ := expireOne_revises wellFormed moved
    exact .of_ended revises (by simp [status])
  -- the only call that may start an execution; every other one ends the approval or keeps its status
  | beginExecution approvalId action =>
    apply cases_
    intro after moved
    obtain ⟨old, new, key, revises, approved, turned⟩ := beginExecution_revises wellFormed moved
    refine .of_revises revises fun _ executing => ?_
    rcases turned with ⟨expired, -⟩ | ⟨rfl, own, hash⟩
    · rw [expired] at executing
      cases executing
    · obtain ⟨update, ok, written⟩ := moved
      obtain ⟨found, stored, -, ⟨expired, -, -, rfl⟩ | ⟨live, -, -, identity, -, -, rfl⟩⟩ :=
        ApprovalStore.beginExecution_ok_iff.1 ok
      all_goals
        have same := revises.found
        rw [key, stored, Option.some.injEq] at same
        subst same
        cases written
      · have now := revises.lookup found.approvalId
        rw [lookup_stored_eq] at now
        simp [PendingApproval.approvalId] at now
      · exact ⟨action, by rw [key], approved, live, own, hash, identity⟩
  | markConsumed =>
    apply cases_
    intro after moved
    obtain ⟨old, new, -, revises, status⟩ := markConsumed_revises wellFormed moved
    exact .of_ended revises (by simp [status])
  | ensureConsumed =>
    apply cases_
    intro after moved
    obtain ⟨old, new, -, revises, status⟩ := ensureConsumed_revises wellFormed moved
    exact .of_ended revises (by simp [status])
  | beginReconciliation =>
    apply cases_
    intro after moved
    obtain ⟨old, new, -, revises, executing, -⟩ := beginReconciliation_revises wellFormed moved
    exact .of_revises revises fun other => absurd executing other
  | markReconciled =>
    apply cases_
    intro after moved
    obtain ⟨old, new, -, revises, status⟩ := markReconciled_revises wellFormed moved
    exact .of_ended revises (by simp [status])

/-! ### Invariants of one call -/

theorem Turns.active {old new : ApprovalStatus} (turns : Turns old new)
    (still : new.active = true) : old.active = true := by
  cases turns with
  | expire live => cases still
  | reject | consume => cases still
  | approve | claim | intend => rfl

theorem Turns.not_of_closed {old new : ApprovalStatus} (closed : old.active = false) :
    ¬ Turns old new := by
  intro turns
  cases turns with
  | expire live => rcases live with rfl | rfl <;> cases closed
  | approve | reject | claim | intend | consume => cases closed

/-- No action has two approvals that are still open. -/
def OneActive (approvals : Approvals) : Prop :=
  ∀ id id' approval approval', approvals.lookup id = some approval →
    approvals.lookup id' = some approval' → approval.status.active = true →
    approval'.status.active = true → approval.actionId = approval'.actionId → id = id'

namespace Evolves

theorem wellFormed (evolves : Evolves site clock call before after)
    (earlier : WellFormed before) : WellFormed after := by
  intro id new found
  cases place : before.lookup id with
  | none =>
    obtain ⟨key, valid, -⟩ := evolves.created id new place found
    exact ⟨key, valid⟩
  | some old =>
    obtain ⟨own, valid⟩ := earlier id old place
    rcases evolves.kept id old place with same | ⟨next, stored, amends⟩
    · rw [found, Option.some.injEq] at same
      exact same ▸ ⟨own, valid⟩
    · rw [found, Option.some.injEq] at stored
      subst stored
      exact ⟨(congrArg ApprovalTerms.approvalId amends.terms).trans own, amends.valid⟩

/-- An open approval of the new file was open before, unless the call has just created it. -/
private theorem opened (evolves : Evolves site clock call before after) {id : String}
    {new : PendingApproval} (found : after.lookup id = some new) (still : new.status.active = true) :
    before.lookup id = none ∨ ∃ old, before.lookup id = some old ∧ old.status.active = true ∧
      old.actionId = new.actionId := by
  cases place : before.lookup id with
  | none => exact .inl rfl
  | some old =>
    refine .inr ⟨old, rfl, ?_⟩
    rcases evolves.kept id old place with same | ⟨next, stored, amends⟩
    · rw [found, Option.some.injEq] at same
      exact same ▸ ⟨still, rfl⟩
    · rw [found, Option.some.injEq] at stored
      subst stored
      exact ⟨amends.turns.active still, (congrArg ApprovalTerms.actionId amends.terms).symm⟩

/-- A created approval is the only open one of its action. -/
private theorem created_alone (evolves : Evolves site clock call before after) {id other : String}
    {new approval : PendingApproval} (absent : before.lookup id = none)
    (found : after.lookup id = some new) (stored : after.lookup other = some approval)
    (still : approval.status.active = true) (same : approval.actionId = new.actionId) :
    other = id := by
  by_contra apart
  obtain ⟨-, -, others, inactive⟩ := evolves.created id new absent found
  rw [others other apart] at stored
  rw [inactive other approval stored same] at still
  cases still

theorem oneActive (evolves : Evolves site clock call before after) (one : OneActive before) :
    OneActive after := by
  intro id id' approval approval' found found' still still' same
  rcases evolves.opened found still with absent | ⟨old, place, live, action⟩
  · exact (evolves.created_alone absent found found' still' same.symm).symm
  · rcases evolves.opened found' still' with absent | ⟨old', place', live', action'⟩
    · exact evolves.created_alone absent found' found still same
    · exact one id id' old old' place place' live live' (by rw [action, same, action'])

end Evolves

/-! ### Sequences of calls -/

/-- The approvals file after several calls, each with its own readings of the clock. -/
def StoreCall.runAll (site : Deployment) (approvals : Approvals)
    (calls : List (StoreCall × Clock)) : Approvals :=
  calls.foldl (fun approvals call => call.1.run site approvals call.2) approvals

/-- A later version of an approval: a closed approval has only itself. -/
structure Continues (old new : PendingApproval) : Prop where
  terms : new.terms = old.terms
  statuses : Relation.ReflTransGen Turns old.status new.status
  closed : old.status.active = false → new = old

namespace Continues

variable {old new last : PendingApproval}

theorem refl (approval : PendingApproval) : Continues approval approval := ⟨rfl, .refl, fun _ => rfl⟩

theorem trans (first : Continues old new) (second : Continues new last) : Continues old last where
  terms := second.terms.trans first.terms
  statuses := first.statuses.trans second.statuses
  closed ended := by
    obtain rfl := first.closed ended
    exact second.closed ended

theorem of_amends (amends : Amends site clock call old new) : Continues old new where
  terms := amends.terms
  statuses := .single amends.turns
  closed ended := by
    exact absurd amends.turns (Turns.not_of_closed ended)

end Continues

/-- What every sequence of calls keeps. -/
theorem runAll_keeps {approvals : Approvals} (wellFormed : WellFormed approvals)
    (calls : List (StoreCall × Clock)) :
    WellFormed (StoreCall.runAll site approvals calls) ∧
      (OneActive approvals → OneActive (StoreCall.runAll site approvals calls)) ∧
      ∀ id old, approvals.lookup id = some old →
        ∃ new, (StoreCall.runAll site approvals calls).lookup id = some new ∧ Continues old new := by
  induction calls generalizing approvals with
  | nil => exact ⟨wellFormed, fun one => one, fun id old found => ⟨old, found, .refl old⟩⟩
  | cons first rest ih =>
    have evolves : Evolves site first.2 first.1 approvals (first.1.run site approvals first.2) :=
      StoreCall.run_evolves wellFormed first.1
    obtain ⟨later, one, kept⟩ := ih (evolves.wellFormed wellFormed)
    refine ⟨later, fun alone => one (evolves.oneActive alone), fun id old found => ?_⟩
    rcases evolves.kept id old found with same | ⟨new, stored, amends⟩
    · exact kept id old same
    · obtain ⟨last, final, continues⟩ := kept id new stored
      exact ⟨last, final, (Continues.of_amends amends).trans continues⟩

end

section

variable {site : Deployment} {approvals : Approvals}

/-- Whatever operations are called with whatever arguments and at whatever times: the file stays
well formed, no approval is lost, its terms never change, its status only takes the turns of the
lifecycle, a closed approval stays exactly as it is, and no action gets two open approvals. -/
theorem approval_lifecycle (wellFormed : WellFormed approvals) (one : OneActive approvals)
    (calls : List (StoreCall × Clock)) :
    let later := StoreCall.runAll site approvals calls
    WellFormed later ∧ OneActive later ∧
      ∀ id old, approvals.lookup id = some old → ∃ new, later.lookup id = some new ∧
        new.terms = old.terms ∧ Relation.ReflTransGen Turns old.status new.status ∧
        (old.status.active = false → new = old) := by
  obtain ⟨later, alone, kept⟩ := runAll_keeps wellFormed calls
  refine ⟨later, alone one, fun id old found => ?_⟩
  obtain ⟨new, stored, continues⟩ := kept id old found
  exact ⟨new, stored, continues.terms, continues.statuses, continues.closed⟩

/-- A stored approval becomes executing in this call. One that is created in that status does not. -/
def Enters (site : Deployment) (approvals : Approvals) (call : StoreCall × Clock) (id : String) :
    Prop :=
  ∃ old new, approvals.lookup id = some old ∧ old.status ≠ .executing ∧
    (call.1.run site approvals call.2).lookup id = some new ∧ new.status = .executing

private theorem turns_of_executing {status : ApprovalStatus}
    (turns : Relation.ReflTransGen Turns .executing status) :
    status = .executing ∨ status = .consumed := by
  induction turns with
  | refl => exact .inl rfl
  | tail _ last ih =>
    rcases ih with rfl | rfl
    · cases last with
      | expire live => rcases live with live | live <;> cases live
      | intend => exact .inl rfl
      | consume => exact .inr rfl
    · exact absurd last (Turns.not_of_closed rfl)

/-- In any sequence of calls an approval starts to execute at most once, in a claim that was made
before it expired and with the very action that was approved. -/
theorem approval_executes_once (wellFormed : WellFormed approvals)
    (early late : List (StoreCall × Clock)) (call : StoreCall × Clock) (id : String)
    (enters : Enters site (StoreCall.runAll site approvals early) call id) :
    (∃ old, (StoreCall.runAll site approvals early).lookup id = some old ∧
      call.1.ClaimOf site call.2 old) ∧
    ∀ before again after, late = before ++ again :: after →
      ¬ Enters site (StoreCall.runAll site approvals (early ++ call :: before)) again id := by
  obtain ⟨old, new, found, waiting, stored, executing⟩ := enters
  obtain ⟨sound, -, -⟩ := @runAll_keeps site _ wellFormed early
  have evolves : Evolves site call.2 call.1 _ (call.1.run site _ call.2) :=
    StoreCall.run_evolves sound call.1
  constructor
  · refine ⟨old, found, ?_⟩
    rcases evolves.kept id old found with same | ⟨next, placed, amends⟩
    · rw [stored, Option.some.injEq] at same
      exact absurd (same ▸ executing) waiting
    · rw [stored, Option.some.injEq] at placed
      exact amends.claimed waiting (placed ▸ executing)
  · rintro before again after - ⟨old', new', found', waiting', stored', executing'⟩
    have split : StoreCall.runAll site approvals (early ++ call :: before) =
        StoreCall.runAll site (call.1.run site (StoreCall.runAll site approvals early) call.2)
          before := by
      simp [StoreCall.runAll, List.foldl_append]
    have then_ := evolves.wellFormed sound
    obtain ⟨sound', -, kept⟩ := @runAll_keeps site _ then_ before
    rw [split] at found' stored'
    obtain ⟨last, place, continues⟩ := kept id new stored
    rw [found', Option.some.injEq] at place
    subst place
    have statuses := continues.statuses
    rw [executing] at statuses
    -- what was claimed is executing or consumed, and a consumed approval stays as it is
    have consumed := (turns_of_executing statuses).resolve_left waiting'
    have evolves' : Evolves site again.2 again.1 _ (again.1.run site _ again.2) :=
      StoreCall.run_evolves sound' again.1
    rcases evolves'.kept id old' found' with same | ⟨next, placed, amends⟩
    · rw [stored', Option.some.injEq] at same
      exact waiting' (same ▸ executing')
    · rw [stored', Option.some.injEq] at placed
      have closed := (Continues.of_amends amends).closed (by rw [consumed]; rfl)
      rw [← placed] at closed
      exact waiting' (closed ▸ executing')

end

/-! ### A mail that is approved, claimed and sent -/

private def mail : ProposedAction := Demo.action (Demo.call "act_1") "req_1"

private def approvedMail : List (StoreCall × Clock) :=
  [(.create mail "mail leaves the workspace" "once" ["mail"] none none none (Demo.dollars 3) "" ""
      "apr_1", fun i => 1000 + i),
    (.decide "apr_1" true "operator" "fine" none, fun i => 2000 + i)]

private def claimMail : StoreCall × Clock := (.beginExecution "apr_1" mail, fun i => 3000 + i)

private def sentMail : List (StoreCall × Clock) :=
  [claimMail, (.markConsumed "apr_1" "evd_1", fun i => 4000 + i), claimMail]

/-- The general theorem at this sequence, with a second claim that is refused. -/
theorem approval_lifecycle_mail :
    let later := StoreCall.runAll (Demo.site Demo.clock) ∅ (approvedMail ++ sentMail)
    (later.lookup "apr_1").map (·.status) = some .consumed ∧ WellFormed later ∧ OneActive later := by
  have one : OneActive ∅ := by
    intro id id' approval approval' found
    simp at found
  obtain ⟨wellFormed, alone, -⟩ :=
    @approval_lifecycle (Demo.site Demo.clock) ∅ WellFormed.empty one (approvedMail ++ sentMail)
  exact ⟨by decide +kernel, wellFormed, alone⟩

/-- The general theorem at the claim of this sequence. -/
theorem approval_executes_once_mail :
    ∃ old, (StoreCall.runAll (Demo.site Demo.clock) ∅ approvedMail).lookup "apr_1" = some old ∧
      claimMail.1.ClaimOf (Demo.site Demo.clock) claimMail.2 old := by
  have before : ((StoreCall.runAll (Demo.site Demo.clock) ∅ approvedMail).lookup "apr_1").map
      (·.status) = some .approved := by decide +kernel
  have after : ((claimMail.1.run (Demo.site Demo.clock) (StoreCall.runAll (Demo.site Demo.clock) ∅
      approvedMail) claimMail.2).lookup "apr_1").map (·.status) = some .executing := by
    decide +kernel
  obtain ⟨old, found, approved⟩ := Option.map_eq_some_iff.1 before
  obtain ⟨new, stored, executing⟩ := Option.map_eq_some_iff.1 after
  exact (approval_executes_once WellFormed.empty approvedMail [] claimMail "apr_1"
    ⟨old, new, found, by simp [approved], stored, executing⟩).1

end DefiantHarness
