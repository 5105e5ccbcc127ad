import DefiantHarness.BudgetDisposals
import DefiantHarness.ResultJournaling

/-! A known result reaches the journal: what every call that runs a handler does with its answer. -/
namespace DefiantHarness

open Foundation Proc Control

def IsDispatch : Event → Prop
  | .dispatched _ _ => True
  | _ => False

/-- The process does not stop, and has called no handler since `base`. -/
structure Undispatched (base : List Event) (w : World) : Prop where
  unlimited : w.writesLeft = none
  unmarked : Unmarked IsDispatch base w

/-- The result that a handler comes back with: its own, a shared one that is sealed already, or the one
that stands for its failure. -/
def answer (spec : ToolSpec) : HandlerOutcome → Option ToolResult
  | .returnedSealed shared => some shared
  | outcome => (ToolRegistry.handlerResult spec outcome).toOption

theorem handlerResult_of_answer {spec : ToolSpec} {outcome : HandlerOutcome} {result : ToolResult}
    (answered : answer spec outcome = some result)
    (unsealed : ∀ shared, outcome ≠ .returnedSealed shared) :
    ToolRegistry.handlerResult spec outcome = .ok result := by
  cases outcome with
  | returnedSealed shared => exact absurd rfl (unsealed shared)
  | returned own => exact congrArg Except.ok (Option.some.inj answered)
  | raised summary => exact congrArg Except.ok (Option.some.inj answered)
  | invalidContract message => cases answered

/-- The handler answered with a result that its seal accepts. -/
def Accepted (site : Deployment) (harness : Harness) (action : ProposedAction)
    (result : ToolResult) : Prop :=
  ∃ spec, harness.tools.spec action.toolName = some spec ∧
    answer spec (harness.tools.handler action) = some result ∧
    Harness.validateResult site result = .ok ()

/-- A completion of the dispatched action with this result is journaled after `base`. -/
def Recovered (site : Deployment) (harness : Harness) (last : World) (base : List Event)
    (action : ProposedAction) (found : Disk) (result : ToolResult) (w : World) : Prop :=
  ∃ authority ∈ found.records, Authorizes site.digests authority action ∧
    ∃ estimate approvalId, Funding harness found action estimate approvalId ∧
      Journaled site last base found.ledger authority approvalId estimate result w

/-- No handler was called since `base`, or one was, and its accepted result is journaled when there
is room by the time of `last`. -/
def Preserved (site : Deployment) (harness : Harness) (last : World) (base : List Event) (w : World) :
    Prop :=
  Undispatched base w ∨ ∃ past action found, (∀ event ∈ past, ¬ IsDispatch event) ∧
    Undispatched (base ++ past ++ [.dispatched action found]) w ∧
    ∀ result, Accepted site harness action result → Room site harness last found action result →
      Until last w →
        Recovered site harness last (base ++ past ++ [.dispatched action found]) action found result w

section

variable {site : Deployment} {harness : Harness} {base : List Event} {last w : World} {α β : Type}

/-! ### Before and after a dispatch -/

private theorem silent_dispatch : Silent IsDispatch := fun _ _ => id

private theorem Undispatched.add {event : Event} {t : World} (holds : Undispatched base w)
    (trace : t.trace = w.trace ++ [event]) (unlimited : t.writesLeft = none)
    (plain : ¬ IsDispatch event) : Undispatched base t :=
  ⟨unlimited, holds.unmarked.add trace plain⟩

private theorem Undispatched.noted {event : Event} (holds : Undispatched base w)
    (plain : ¬ IsDispatch event) : Undispatched base (w.noted event) :=
  holds.add rfl holds.unlimited plain

private theorem Undispatched.saved (holds : Undispatched base w) (disk : Disk) :
    Undispatched base (w.saved disk) := by
  apply holds.add rfl _ (silent_dispatch _ _)
  rw [World.saved_writesLeft, holds.unlimited]
  rfl

theorem undispatched_discipline :
    Discipline site (Undispatched base) fun _ _ _ => True where
  tick _ holds := ⟨holds.unlimited, holds.unmarked⟩
  draw _ holds := ⟨holds.unlimited, holds.unmarked⟩
  quiet _ _ holds _ _ := holds.saved _
  appended _ _ _ holds _ := holds.saved _
  prepared _ _ holds _ _ := holds.saved _
  completed _ _ holds _ _ := holds.saved _
  active _ _ _ _ := trivial

theorem undispatched_drafts : EntryDrafts site harness (Undispatched base) fun _ _ _ => True where
  rules := undispatched_discipline
  made :=
    { note := by
        intro w event holds ordinary
        apply holds.noted
        cases event
        case dispatched => exact ordinary.elim
        all_goals exact id
      make := by
        intro w action request decision status details holds _ _
        apply (Harness.makeRecord_keeps (fun _ _ holds => ⟨holds.unlimited, holds.unmarked⟩)
          (fun _ holds => ⟨holds.unlimited, holds.unmarked⟩)
          (fun _ holds => ⟨holds.unlimited, holds.unmarked⟩) holds).mono
        rintro _ t _ ⟨disk, -⟩
        exact ⟨disk, trivial⟩ }
  claim _ _ _ holds := holds.noted id
  remember _ _ holds _ := keeps_of_ok rfl ⟨holds.unlimited, holds.unmarked⟩ rfl
  reconciled _ _ _ _ _ _ _ _ _ _ _ _ := trivial

private theorem preserved_of_keeps {p : Control α} {Q : α → World → Prop}
    (keeps : Keeps (Undispatched base) p Q w) :
    p.Ends (fun _ t => Preserved site harness last base t) (fun _ t => Preserved site harness last base t) w := by
  apply Ends.mono keeps
  · rintro _ t ⟨holds, -⟩
    exact .inl holds
  · intro _ t holds
    exact .inl holds

private theorem preserved_bind {p : Control α} {f : α → Control β} {Q : α → World → Prop}
    (keeps : Keeps (Undispatched base) p Q w)
    (rest : ∀ a t, Undispatched base t → Q a t →
      (f a).Ends (fun _ t => Preserved site harness last base t)
        (fun _ t => Preserved site harness last base t) t) :
    (p >>= f).Ends (fun _ t => Preserved site harness last base t)
      (fun _ t => Preserved site harness last base t) w := by
  rw [ends_bind]
  apply Ends.mono keeps
  · rintro a t ⟨holds, ended⟩
    exact rest a t holds ended
  · intro _ t holds
    exact .inl holds

private theorem preserved_lift_bind {x : Except HarnessError α} {f : α → Control β}
    (holds : Undispatched base w)
    (rest : ∀ a, x = .ok a → (f a).Ends (fun _ t => Preserved site harness last base t)
      (fun _ t => Preserved site harness last base t) w) :
    (Proc.lift x >>= f).Ends (fun _ t => Preserved site harness last base t)
      (fun _ t => Preserved site harness last base t) w := by
  rw [ends_bind]
  apply ends_lift.2
  exact ⟨rest, fun _ _ => .inl holds⟩

/-- The steps that a procedure takes, beside what it keeps. -/
private theorem keeps_does {p : Control α} {Q R : α → World → Prop}
    (keeps : Keeps (Undispatched base) p Q w) (does : Does site p R w) :
    Keeps (Undispatched base) p (fun a t => Moves site w t ∧ Q a t ∧ R a t) w := by
  apply Ends.mono (keeps.and does.ends)
  · rintro a t ⟨⟨holds, kept⟩, moved, done⟩
    exact ⟨holds, moved, kept, done⟩
  · rintro _ t ⟨holds, -⟩
    exact holds

/-! ### The authorization -/

/-- A write to the log that leaves the other stores alone. -/
structure Appended (site : Deployment) (record stored : EvidenceRecord) (w t : World) : Prop where
  sealed : ∃ previous, stored = record.sealed site.digests previous
  member : stored ∈ t.disk.records
  same : t.disk.ledger = w.disk.ledger ∧ t.disk.approvals = w.disk.approvals ∧
    t.disk.journal = w.disk.journal

private theorem placeHead_ends {head : Option EvidenceHead} :
    (EvidenceStore.placeHead head).Ends (fun _ t => ∃ head, t.disk = { w.disk with head := head })
      (fun _ _ => True) w := by
  cases head with
  | none => exact ends_pure.2 ⟨w.disk.head, rfl⟩
  | some head =>
    unfold EvidenceStore.placeHead
    rw [ends_bind, ends_disk, ends_save]
    exact ⟨fun _ => trivial, fun _ => ⟨_, rfl⟩⟩

theorem append_ends {record : EvidenceRecord} :
    (EvidenceStore.append site record).Ends (fun stored t => Appended site record stored w t)
      (fun _ _ => True) w := by
  unfold EvidenceStore.append EvidenceStore.reconcileHead EvidenceStore.writeRecord
    EvidenceStore.advanceHead
  simp only [ends_bind, ends_lift, ends_disk, ends_now, ends_save, ends_pure]
  refine ⟨fun _ _ => ⟨fun _ _ => ⟨?_, fun _ _ => trivial⟩, fun _ _ => trivial⟩, fun _ _ => trivial⟩
  intro placed _
  apply placeHead_ends.mono
  · rintro _ t ⟨head, disk⟩
    refine ⟨fun _ _ => ⟨fun _ => trivial, fun _ => ⟨?_, fun _ _ => trivial⟩⟩, fun _ _ => trivial⟩
    intro advanced _
    apply placeHead_ends.mono
    · rintro _ u ⟨later, same⟩
      refine ⟨⟨_, rfl⟩, ?_, ?_⟩
      · rw [same]
        simp
      · rw [same]
        simp [disk]
    · exact fun _ _ _ => trivial
  · exact fun _ _ _ => trivial

/-! ### The dispatch and what follows it -/

variable {action : ProposedAction} {request : HarnessRequest} {decision : GuardrailDecision}
  {estimate : Decimal} {approvalId : String} {approvedBy : Option String}

theorem Payable.congr {disk other : Disk}
    (payable : Payable harness disk action request decision estimate approvalId)
    (ledger : other.ledger = disk.ledger) (approvals : other.approvals = disk.approvals)
    (journal : other.journal = disk.journal) :
    Payable harness other action request decision estimate approvalId := by
  obtain ⟨idle, ⟨unreserved, reserved, unowned, owned, proposed, held⟩, requested, first, nonneg, direct,
    named⟩ := payable
  rw [← ledger] at unreserved reserved requested first held
  rw [← approvals] at unowned owned
  exact ⟨journal.trans idle, ⟨unreserved, reserved, unowned, owned, proposed, held⟩, requested, first,
    nonneg, direct, named⟩

/-- An approval id names an approval of the action. -/
theorem Funding.owner {disk : Disk} (funding : Funding harness disk action estimate approvalId)
    (named : approvalId ≠ "") : ApprovalStore.forAction disk.approvals action.actionId ≠ [] := by
  obtain ⟨approval, found, own⟩ := funding.owned named
  intro none
  exact forAction_eq_nil_iff.1 none approvalId approval found own

/-- The result of a dispatch that has just happened. -/
private theorem completed_preserved {past : List Event} {found : Disk} {authority : EvidenceRecord}
    {result : ToolResult} (none : ∀ event ∈ past, ¬ IsDispatch event)
    (holds : Undispatched (base ++ past ++ [.dispatched action found]) w) (disk : w.disk = found)
    (authorized : Harness.Authority site harness action request decision approvedBy found.ledger
      authority)
    (member : authority ∈ found.records) (authorizes : Authorizes site.digests authority action)
    (payable : Payable harness found action request decision estimate approvalId)
    (kept : decision.decision ≠ .block)
    (answered : ∀ other, Accepted site harness action other → other = result) :
    (harness.completeKnownResult site authority action request decision result estimate approvedBy
      approvalId).Ends (fun _ t => Preserved site harness last base t)
      (fun _ t => Preserved site harness last base t) w := by
  subst disk
  set marked := base ++ past ++ [Event.dispatched action w.disk] with markedEq
  have made : Drafts site harness (Undispatched marked) (fun _ _ _ => True) fun _ => True :=
    undispatched_drafts.made
  have keeps : Keeps (Undispatched marked) (harness.completeKnownResult site authority action request
      decision result estimate approvedBy approvalId) (fun _ t => Idle t) w :=
    made.completeKnownResult undispatched_discipline holds payable.idle fun _ _ => trivial
  -- either the result that was reported is accepted and there is room for it, or nothing is owed
  by_cases lucky : Accepted site harness action result ∧ Room site harness last w.disk action result
  · obtain ⟨⟨spec, -, -, accepted⟩, room⟩ := lucky
    have reconfirmed : approvalId ≠ "" → decision.decision = .approvalRequired := by
      intro named
      rw [← authorized.names.decision]
      exact room.reconfirmed authority member authorizes (payable.funding.owner named)
    have extends_ : ∃ since, w.trace = marked ++ since := by
      obtain ⟨since, trace, -⟩ := holds.unmarked
      exact ⟨since, trace⟩
    have journals := Harness.completeKnownResult_journals holds.unlimited extends_ authorized payable
      kept accepted reconfirmed (room.settles estimate approvalId payable.funding)
      fun operation => room.fits authority member authorizes estimate approvalId operation
        payable.funding
    -- the journal holds the completion, or the evidence does; the result is known in both cases
    have recovered : ∀ t, Undispatched marked t →
        (Until last t →
          Journaled site last marked w.disk.ledger authority approvalId estimate result t) →
        Preserved site harness last base t := by
      intro t later journaled
      refine .inr ⟨past, action, w.disk, none, later, ?_⟩
      intro other accepted _ within
      rw [answered other accepted]
      exact ⟨authority, member, authorizes, estimate, approvalId, payable.funding, journaled within⟩
    apply Ends.mono (Ends.and keeps journals)
    · rintro _ t ⟨⟨later, -⟩, journaled⟩
      exact recovered t later journaled
    · rintro _ t ⟨later, journaled⟩
      exact recovered t later journaled
  · have excused : ∀ t, Undispatched marked t → Preserved site harness last base t := by
      intro t later
      refine .inr ⟨past, action, w.disk, none, later, ?_⟩
      intro other accepted room
      obtain rfl := answered other accepted
      exact absurd ⟨accepted, room⟩ lucky
    apply Ends.mono keeps
    · rintro _ t ⟨later, -⟩
      exact excused t later
    · exact fun _ t later => excused t later

/-- The authorization of an execution is recorded, and nothing else changes. -/
private theorem authorized_record (holds : Undispatched base w) (idle : w.disk.journal = none) :
    Keeps (Undispatched base) (harness.record site action request decision .skipped
        { approvedBy := approvedBy, detail := "authorized; execution pending" })
      (fun stored t => Harness.Authority site harness action request decision approvedBy w.disk.ledger
        stored ∧ stored ∈ t.disk.records ∧ t.disk.ledger = w.disk.ledger ∧
        t.disk.approvals = w.disk.approvals ∧ t.disk.journal = w.disk.journal) w := by
  apply (Harness.makeRecord_keeps (fun _ _ holds => ⟨holds.unlimited, holds.unmarked⟩)
    (fun _ holds => ⟨holds.unlimited, holds.unmarked⟩)
    (fun _ holds => ⟨holds.unlimited, holds.unmarked⟩) holds).bind
  rintro record t later ⟨disk, valid, remaining, read, draft⟩
  have at_ : Holding t.disk.records none t := ⟨rfl, by rw [disk]; exact idle⟩
  have keeps : Keeps (Undispatched base) (EvidenceStore.append site record)
      (Discipline.Logged none record) t := undispatched_discipline.append later at_ trivial
  apply Ends.mono (Ends.and keeps append_ends)
  · rintro stored u ⟨⟨last, -⟩, ⟨previous, rfl⟩, member, ledger, approvals, journal⟩
    rw [disk] at ledger approvals journal
    exact ⟨last, ⟨⟨remaining, record, previous, valid, read, draft, rfl⟩⟩, member, ledger, approvals,
      journal⟩
  · rintro _ u ⟨last, -⟩
    exact last

/-- A dispatch that answers has called no handler, or the handler whose answer it is. -/
private theorem dispatch_marks {grant : CapabilityGrant} (holds : Undispatched base w) :
    (harness.dispatch site action grant).Ends
      (fun result t => t.disk = w.disk ∧ (Undispatched base t ∨ ∃ past,
        (∀ event ∈ past, ¬ IsDispatch event) ∧
        Undispatched (base ++ past ++ [.dispatched action w.disk]) t ∧
        ∀ other, Accepted site harness action other → other = result))
      (fun _ t => Preserved site harness last base t) w := by
  unfold Harness.dispatch
  rw [ends_bind]
  apply ends_lift.2
  refine ⟨?_, fun _ _ => .inl holds⟩
  intro spec redeemed
  have own : harness.tools.spec action.toolName = some spec := by
    simp only [ToolRegistry.redeem, bind_ok_iff, orRefuse_ok_iff] at redeemed
    obtain ⟨_, -, _, -, _, -, found⟩ := redeemed
    exact found
  apply ends_ite.2
  refine ⟨fun _ => ends_pure.2 ⟨rfl, .inl holds⟩, fun _ => ?_⟩
  rw [ends_bind, ends_disk, ends_bind, ends_note]
  obtain ⟨past, trace, none⟩ := holds.unmarked
  -- the handler runs at the end of the trace
  have marked : Undispatched (base ++ past ++ [.dispatched action w.disk])
      (w.noted (.dispatched action w.disk)) :=
    ⟨holds.unlimited, [], by rw [World.noted_trace, trace, List.append_nil], by simp⟩
  have answers : ∀ other, Accepted site harness action other →
      (∀ shared, harness.tools.handler action ≠ .returnedSealed shared) →
        ToolRegistry.handlerResult spec (harness.tools.handler action) = .ok other := by
    rintro other ⟨spec', found, answered, -⟩ unsealed
    rw [own, Option.some.injEq] at found
    subst found
    exact handlerResult_of_answer answered unsealed
  apply ends_lift.2
  constructor
  · intro result answered
    refine ⟨rfl, .inr ⟨past, none, marked, ?_⟩⟩
    intro other accepted
    have unsealed : ∀ shared, harness.tools.handler action ≠ .returnedSealed shared := by
      intro shared same
      rw [same] at answered
      cases answered
    have same := answers other accepted unsealed
    rw [answered, Except.ok.injEq] at same
    exact same.symm
  · intro e failed
    refine .inr ⟨past, action, w.disk, none, marked, ?_⟩
    intro other accepted room
    have same := answers other accepted room.unsealed
    rw [failed] at same
    cases same

/-- An execution whose budget and approval are in order. -/
theorem execute_preserved (holds : Undispatched base w)
    (payable : Payable harness w.disk action request decision estimate approvalId)
    (kept : decision.decision ≠ .block) :
    (harness.execute site action request decision estimate approvedBy approvalId).Ends
      (fun _ t => Preserved site harness last base t) (fun _ t => Preserved site harness last base t) w := by
  have made : Drafts site harness (Undispatched base) (fun _ _ _ => True) fun _ => True :=
    undispatched_drafts.made
  apply preserved_bind (authorized_record holds payable.idle)
  rintro authority t later ⟨authorized, member, ledger, approvals, journal⟩
  -- the clock and the id of the grant change nothing that is durable
  rw [ends_bind, ends_now, ends_bind, ends_newId]
  have drawn : Undispatched base t.ticked.drawn := ⟨later.unlimited, later.unmarked⟩
  apply preserved_lift_bind drawn
  intro grant granted
  have authorizes := Harness.authorize_ok granted
  have ready : Payable harness t.disk action request decision estimate approvalId :=
    payable.congr ledger approvals journal
  rw [← ledger] at authorized
  rw [ends_bind]
  apply Ends.mono (dispatch_marks drawn)
  · rintro result u ⟨disk, rehearsed | ⟨past, none, marked, answered⟩⟩
    -- a rehearsal dispatches nothing, so there is nothing to preserve
    · have idle : Idle u := by
        unfold Idle
        rw [disk]
        exact ready.idle
      apply preserved_bind (made.completeKnownResult undispatched_discipline rehearsed idle
        fun _ _ => trivial)
      intro _ v last _
      exact ends_pure.2 (.inl last)
    · rw [ends_bind]
      apply Ends.mono
        (completed_preserved none marked disk authorized member authorizes ready kept answered)
      · exact fun _ _ preserved => ends_pure.2 preserved
      · exact fun _ _ preserved => preserved
  · exact fun _ _ preserved => preserved

/-! ### New actions -/

/-- Nothing on the disk is about the action, and no operation waits. -/
structure Novel (disk : Disk) (actionId : String) : Prop where
  idle : disk.journal = none
  unreserved : actionId ∉ disk.ledger.document.reservations
  unowned : ApprovalStore.forAction disk.approvals actionId = []
  undisposed : ¬ Disposed disk.ledger.document actionId

theorem Novel.of_unknown {reading : Nat} {actionId : String} (tracked : Tracked site w)
    (accountable : Accountable w.disk) (idle : w.disk.journal = none)
    (safe : StateIntegrity.Safe site reading w.disk) (unknown : ¬ Known w.disk.records actionId) :
    Novel w.disk actionId := by
  have unowned := tracked.unknown_unowned idle unknown
  exact ⟨idle, safe.unreserved idle (byAction_eq_nil_iff.2 unknown) unowned, unowned,
    fun disposed => unknown (accountable.known actionId disposed)⟩

private theorem undisposed_nil {document : BudgetDocument} {actionId requestId : String}
    (undisposed : ¬ Disposed document actionId) :
    Ledger.dispositions document requestId actionId = [] := by
  by_contra some
  exact undisposed ⟨requestId, some⟩

/-- An action that needs no budget is payable as it is. -/
theorem Novel.unfunded {disk : Disk} (novel : Novel disk action.actionId)
    (nonneg : 0 ≤ estimate.value) (free : ¬ Decimal.zero.lt estimate = true)
    (allowed : decision.decision = .allow)
    (proposed : estimate = Harness.larger action.estimatedCostUsd (harness.specCost action)) :
    Payable harness disk action request decision estimate "" := by
  rw [Decimal.lt_iff, Decimal.zero_value, not_lt] at free
  have absent : ∀ reservation,
      disk.ledger.document.reservations.lookup action.actionId ≠ some reservation := by
    intro reservation found
    exact novel.unreserved (AList.lookup_isSome.1 (by rw [found]; rfl))
  refine ⟨novel.idle, ⟨?_, ?_, fun _ => novel.unowned, fun named => absurd rfl named,
    fun _ => proposed, fun named => absurd rfl named⟩, ?_, undisposed_nil novel.undisposed, nonneg,
    fun _ => allowed, fun named => absurd rfl named⟩
  · exact fun _ => le_antisymm free nonneg
  · exact fun reservation found => absurd found (absent reservation)
  · exact fun reservation found => absurd found (absent reservation)

/-- The reservation that a new action makes. -/
private theorem reserve_lookup {fits : BudgetDocument → Bool} {ledger after : Ledger}
    {requestId actionId : String} {clock : Clock}
    (reserved : ledger.reserve fits estimate requestId actionId clock = .ok (.write after ())) :
    ∃ createdAt, after.document.reservations.lookup actionId =
      some ⟨requestId, estimate.plain, createdAt⟩ := by
  simp only [Ledger.reserve, bind_ok_iff, pure_ok_iff, money_ok_iff] at reserved
  obtain ⟨_, ⟨rfl, -⟩, _, -, _, -, _, -, _, -, stored, added, same⟩ := reserved
  simp only [Update.write, Update.mk.injEq, Option.some.injEq, and_true] at same
  subst same
  simp only [Ledger.addReservation, bind_ok_iff] at added
  obtain ⟨_, -, _, -, _, -, _, -, appended⟩ := added
  refine ⟨clock 0, ?_⟩
  rw [Ledger.append_document appended]
  simp [BudgetDocument.snapshot]

/-- The reserved estimate makes a new action payable. -/
theorem Novel.funded {disk : Disk} {after : Ledger} {fits : BudgetDocument → Bool} {clock : Clock}
    (novel : Novel disk action.actionId) (nonneg : 0 ≤ estimate.value)
    (allowed : decision.decision = .allow)
    (proposed : estimate = Harness.larger action.estimatedCostUsd (harness.specCost action))
    (reserved : disk.ledger.reserve fits estimate request.requestId action.actionId clock =
      .ok (.write after ())) :
    Payable harness { disk with ledger := after } action request decision estimate "" := by
  obtain ⟨createdAt, lookup⟩ := reserve_lookup reserved
  obtain ⟨stored, same, reserves⟩ := Ledger.reserve_ok reserved
  simp only [Update.write, Update.mk.injEq, Option.some.injEq, and_true] at same
  subst same
  refine ⟨novel.idle, ⟨?_, ?_, fun _ => novel.unowned, fun named => absurd rfl named,
    fun _ => proposed, fun named => absurd rfl named⟩, ?_, ?_, nonneg, fun _ => allowed,
    fun named => absurd rfl named⟩
  · intro absent
    rw [lookup] at absent
    cases absent
  · intro reservation found
    rw [lookup, Option.some.injEq] at found
    rw [← found, Decimal.plain_value]
  · intro reservation found
    rw [lookup, Option.some.injEq] at found
    rw [← found]
  · exact undisposed_nil fun disposed => novel.undisposed (disposed.of_reserves reserves)

theorem proceed_preserved {external : Bool} (holds : Undispatched base w)
    (novel : Novel w.disk action.actionId) (nonneg : 0 ≤ estimate.value)
    (allowed : decision.decision = .allow)
    (proposed : estimate = Harness.larger action.estimatedCostUsd (harness.specCost action)) :
    (harness.proceed site action request decision estimate external).Ends
      (fun _ t => Preserved site harness last base t) (fun _ t => Preserved site harness last base t) w := by
  have made : Drafts site harness (Undispatched base) (fun _ _ _ => True) fun _ => True :=
    undispatched_drafts.made
  -- with a cost the reservation is made first; without one the action is payable as it is
  have funding : Keeps (Undispatched base) (Harness.ifFunded site estimate fun ledger clock =>
      ledger.reserve site.limits.budget estimate request.requestId action.actionId clock)
      (fun _ t => Payable harness t.disk action request decision estimate "") w := by
    apply keeps_ite
    · intro funded
      unfold Keeps
      rw [ends_bind, ends_onLedger]
      have ticked : Undispatched base w.ticked := ⟨holds.unlimited, holds.unmarked⟩
      refine ⟨fun _ _ => ticked, ?_⟩
      intro update reserved
      obtain ⟨after, rfl, -⟩ := Ledger.reserve_ok reserved
      refine ⟨nofun, ?_⟩
      rintro _ ⟨⟩
      exact ⟨fun _ => ticked, fun _ => ends_pure.2 ⟨ticked.saved _, novel.funded nonneg allowed proposed reserved⟩⟩
    · intro free
      exact keeps_pure holds (novel.unfunded nonneg free allowed proposed)
  apply preserved_bind funding
  intro _ t later payable
  apply ends_ite.2
  constructor
  · intro _
    exact preserved_of_keeps (made.authorizeExternal undispatched_discipline later payable.idle
      fun _ _ _ => trivial)
  · intro _
    exact execute_preserved later payable (by rw [allowed]; exact nofun)

private theorem refuse_preserved {disk : Disk} (holds : Undispatched base w) (same : w.disk = disk)
    (idle : disk.journal = none) :
    (harness.refuse site action request decision).Ends (fun _ t => Preserved site harness last base t)
      (fun _ t => Preserved site harness last base t) w := by
  have made : Drafts site harness (Undispatched base) (fun _ _ _ => True) fun _ => True :=
    undispatched_drafts.made
  have still : Idle w := by
    unfold Idle
    rw [same]
    exact idle
  exact preserved_of_keeps (made.refuse undispatched_discipline holds still trivial)

theorem fund_preserved {executionOwner executionKey : String} {external : Bool}
    (holds : Undispatched base w) (novel : Novel w.disk action.actionId)
    (nonneg : 0 ≤ action.estimatedCostUsd.value) (kept : decision.decision ≠ .block) :
    (harness.fund site action request decision executionOwner executionKey external).Ends
      (fun _ t => Preserved site harness last base t) (fun _ t => Preserved site harness last base t) w := by
  -- the estimate is at least what the action asked for
  have larger : 0 ≤ (Harness.larger action.estimatedCostUsd (harness.specCost action)).value := by
    unfold Harness.larger
    split
    next less =>
      rw [Decimal.lt_iff] at less
      exact nonneg.trans less.le
    next => exact nonneg
  apply preserved_bind (keeps_does (undispatched_drafts.plain.budgetRefusal holds novel.idle)
    Harness.budgetRefusal_does)
  rintro refusal t later ⟨-, idle, still⟩
  -- refused for its budget, held for an operator, or carried on
  cases refusal with
  | some blocked => exact refuse_preserved later rfl idle
  | none =>
    apply ends_ite.2
    constructor
    · intro _
      exact preserved_of_keeps (undispatched_drafts.plain.hold later idle)
    · intro direct
      have allowed : decision.decision = .allow := by
        cases kind : decision.decision <;> simp_all
      exact proceed_preserved later (still.disk ▸ novel) larger allowed rfl

theorem decideNew_preserved {executionOwner executionKey : String} {external : Bool}
    (holds : Undispatched base w) (novel : Novel w.disk action.actionId)
    (nonneg : 0 ≤ action.estimatedCostUsd.value) :
    (harness.decideNew site action request executionOwner executionKey external).Ends
      (fun _ t => Preserved site harness last base t) (fun _ t => Preserved site harness last base t) w := by
  have made : Drafts site harness (Undispatched base) (fun _ _ _ => True) fun _ => True :=
    undispatched_drafts.made
  -- the refusals of the control plane all end in the same way
  have blocked : ∀ {reason policyId : String} {extraInputs : List (String × Json)},
      Ends (do
        let decision ← harness.controlDecision site action reason policyId extraInputs
        harness.refuse site action request decision) (fun _ t => Preserved site harness last base t)
        (fun _ t => Preserved site harness last base t) w := by
    intro reason policyId extraInputs
    apply preserved_bind (undispatched_discipline.controlDecision holds ⟨rfl, novel.idle⟩)
    intro _ t later same
    exact refuse_preserved later rfl same.2
  unfold Harness.decideNew
  split
  next => exact blocked
  next =>
    split
    next => exact blocked
    next =>
      apply preserved_bind (keeps_does (made.evaluate undispatched_discipline holds
        ⟨rfl, novel.idle⟩) Harness.evaluate_does)
      rintro decision t later ⟨-, same, evaluated⟩
      apply ends_ite.2
      constructor
      · intro _
        exact refuse_preserved later rfl same.2
      · intro kept
        exact fund_preserved later (evaluated.disk ▸ novel) nonneg kept

/-- The state that every entry point starts from, once recovery and expiry are done. -/
structure Opened (site : Deployment) (base : List Event) (w : World) : Prop where
  holds : Undispatched base w
  tracked : Tracked site w
  accountable : Accountable w.disk
  idle : w.disk.journal = none
  safe : ∃ reading, StateIntegrity.Safe site reading w.disk

private theorem opened_bind {f : Unit → Control β} (holds : Undispatched base w)
    (tracked : Tracked site w) (accountable : Accountable w.disk)
    (rest : ∀ t, Opened site base t → (f ()).Ends (fun _ t => Preserved site harness last base t)
      (fun _ t => Preserved site harness last base t) t) :
    (harness.settleAndCheck site >>= f).Ends (fun _ t => Preserved site harness last base t)
      (fun _ t => Preserved site harness last base t) w := by
  have made : Drafts site harness (Undispatched base) (fun _ _ _ => True) fun _ => True :=
    undispatched_drafts.made
  apply preserved_bind (keeps_does (made.settleAndCheck undispatched_discipline holds
    fun _ _ _ => trivial) (Harness.settleAndCheck_does tracked.named))
  rintro _ t later ⟨moves, idle, -, safe⟩
  exact rest t ⟨later, tracked.moves moves, accountable.moves tracked moves, idle, safe⟩

theorem handle_preserved {executionOwner executionKey : String} {external : Bool}
    (holds : Undispatched base w) (tracked : Tracked site w) (accountable : Accountable w.disk) :
    (harness.handle site action request executionOwner executionKey external).Ends
      (fun _ t => Preserved site harness last base t) (fun _ t => Preserved site harness last base t) w := by
  apply preserved_lift_bind holds
  intro _ _
  apply preserved_lift_bind holds
  intro _ sealed
  -- the sealed fingerprints checked that the amount is not negative
  have nonneg : 0 ≤ action.estimatedCostUsd.value := by
    simp only [ProposedAction.sealFingerprints, bind_ok_iff, money_ok_iff] at sealed
    obtain ⟨_, -, _, -, _, -, _, ⟨-, amount⟩, -⟩ := sealed
    exact amount
  apply opened_bind holds tracked accountable
  intro t opened
  rw [ends_bind, ends_disk]
  have drafts : EntryDrafts site harness (Undispatched base) fun _ _ _ => True :=
    undispatched_drafts
  apply preserved_bind (drafts.remember t action.actionId opened.holds opened.idle)
  intro _ u later disk
  have still : Idle u := by
    unfold Idle
    rw [disk]
    exact opened.idle
  apply ends_ite.2
  constructor
  · intro _
    apply preserved_bind (undispatched_discipline.controlDecision later ⟨rfl, still⟩)
    intro _ v last same
    exact refuse_preserved last rfl same.2
  -- an action without evidence owns no reservation and no approval in a store that was audited
  · intro unseen
    have unknown : ¬ Known t.disk.records action.actionId := by
      rw [← byAction_eq_nil_iff, EvidenceLog.byAction, List.filter_eq_nil_iff]
      simpa [EvidenceLog.firstByAction] using unseen
    obtain ⟨reading, safe⟩ := opened.safe
    have novel := Novel.of_unknown opened.tracked opened.accountable opened.idle safe unknown
    exact decideNew_preserved later (disk ▸ novel) nonneg

theorem propose_preserved {call : ToolCall} {executionOwner executionKey : String} {external : Bool}
    (holds : Undispatched base w) (tracked : Tracked site w) (accountable : Accountable w.disk) :
    (harness.propose site call request executionOwner executionKey external).Ends
      (fun _ t => Preserved site harness last base t) (fun _ t => Preserved site harness last base t) w := by
  apply preserved_lift_bind holds
  intro _ _
  apply preserved_lift_bind holds
  intro _ _
  apply preserved_lift_bind holds
  intro _ _
  apply preserved_lift_bind holds
  intro action _
  exact handle_preserved holds tracked accountable

/-! ### Approved actions -/

theorem drawn_startsWith {issued : Nat} {approvalId : String}
    (drawn : Drawn site issued "apr" approvalId) : startsWith "apr_" approvalId = true := by
  obtain ⟨k, -, rfl⟩ := drawn
  rw [startsWith, List.isPrefixOf_iff_prefix]
  exact ⟨(site.ids k).toList, by simp⟩

/-- The reservation of an action belongs to this request. -/
def Requested (disk : Disk) (actionId requestId : String) : Prop :=
  ∀ reservation, disk.ledger.document.reservations.lookup actionId = some reservation →
    reservation.requestId = requestId

/-- The claim of an approval makes its action payable. -/
theorem Harness.Claimed.payable {pending : PendingApproval} {t : World}
    (claimed : Harness.Claimed site action approvalId pending w t)
    (named : startsWith "apr_" approvalId = true) (accountable : Accountable w.disk)
    (idle : w.disk.journal = none) (requested : Requested w.disk action.actionId request.requestId)
    (read : t.disk.ledger.reservationFor action.actionId = .ok estimate) :
    Payable harness t.disk action request decision estimate approvalId := by
  have disk := claimed.disk
  have ledger : t.disk.ledger = w.disk.ledger := by rw [disk]
  have visible : approvalId ≠ "" := by
    rintro rfl
    cases named
  -- the approval was waiting until now, so nothing has been charged
  have undisposed : ¬ Disposed w.disk.ledger.document action.actionId := by
    intro disposed
    obtain ⟨old, found, approved, own, -⟩ := claimed.claims
    exact accountable.settled _ disposed _ old found own (.inr approved)
  have held := read
  simp only [Ledger.reservationFor, bind_ok_iff] at read
  obtain ⟨_, -, read⟩ := read
  refine ⟨by rw [disk]; exact idle, ⟨?_, ?_, fun blank => absurd blank visible, fun _ => ?_,
      fun blank => absurd blank visible, fun _ => held⟩,
    by rw [ledger]; exact requested, by rw [ledger]; exact undisposed_nil undisposed, ?_,
    fun blank => absurd blank visible, fun _ => named⟩
  · intro absent
    rw [absent, pure_ok_iff] at read
    rw [read, Decimal.zero_value]
  · intro reservation found
    rw [found, pure_ok_iff] at read
    rw [read]
  · exact ⟨_, claimed.found, claimed.actionId⟩
  · split at read
    next reservation found =>
      rw [pure_ok_iff] at read
      rw [read]
      exact (Ledger.reservation_positive found).le
    next =>
      rw [pure_ok_iff] at read
      rw [read, Decimal.zero_value]

theorem carryOut_preserved {pending : PendingApproval} {original : GuardrailDecision}
    {decidedBy : String} (holds : Undispatched base w) (tracked : Tracked site w)
    (accountable : Accountable w.disk) (idle : w.disk.journal = none)
    (stored : w.disk.approvals.lookup approvalId = some pending)
    (requested : Requested w.disk pending.actionId request.requestId) :
    (harness.carryOut site approvalId pending action request original decidedBy).Ends
      (fun _ t => Preserved site harness last base t) (fun _ t => Preserved site harness last base t) w := by
  have drafts : EntryDrafts site harness (Undispatched base) fun _ _ _ => True :=
    undispatched_drafts
  have named := drawn_startsWith (tracked.named.approvals _ _ stored)
  apply preserved_bind (keeps_does (drafts.made.currentDecision undispatched_discipline holds
    ⟨rfl, idle⟩) Harness.currentDecision_does)
  rintro decision t later ⟨moves, -, decided⟩
  have disk := decided.1
  have still : t.disk.journal = none := by rw [disk]; exact idle
  have after := tracked.moves moves
  -- the claim is the only step between the decision and the dispatch that writes
  apply preserved_bind (keeps_does (drafts.plain.claims later still)
    (Harness.claim_does after.named still (by rw [disk]; exact stored)))
  rintro _ u last ⟨-, done, claimed⟩
  apply ends_ite.2
  constructor
  · intro _
    exact preserved_of_keeps (drafts.made.closeBlocked undispatched_discipline last done
      fun _ _ _ => trivial)
  · intro kept
    rw [ends_bind, ends_disk]
    apply preserved_lift_bind last
    intro estimate read
    have bound : Requested t.disk action.actionId request.requestId := by
      rw [disk, ← claimed.actionId]
      exact requested
    exact execute_preserved last (claimed.payable named (accountable.moves tracked moves) still bound
      read) kept

/-- What the audit and the loading of the approvals say about a held request. -/
theorem Requested.of_safe {reading : Nat} {pending : PendingApproval} {original : GuardrailDecision}
    (safe : StateIntegrity.Safe site reading w.disk)
    (stored : w.disk.approvals.lookup approvalId = some pending)
    (active : pending.status.active = true)
    (held : Harness.held site pending = .ok (action, request, original)) :
    Requested w.disk pending.actionId request.requestId := by
  intro reservation found
  have member : (⟨approvalId, pending⟩ : Sigma fun _ : String => PendingApproval) ∈
      w.disk.approvals.entries := AList.mem_lookup_iff.1 stored
  -- the checks on loading bind the held request to the approval
  have same : request.requestId = pending.terms.requestId := by
    have loads := safe.loads
    rw [StateIntegrity.checkApprovals, checkAll_ok_iff] at loads
    have valid := loads _ member
    simp only [StateIntegrity.checkApproval, ApprovalTerms.validate, bind_ok_iff, refuseIf_ok_iff]
      at valid
    simp only [Harness.held, bind_ok_iff, PendingApproval.heldRequest, orRefuse_ok_iff, pure_ok_iff,
      Prod.mk.injEq] at held
    obtain ⟨_, -, _, -, _, snapshot, _, -, _, -, -, rfl, -⟩ := held
    obtain ⟨_, ⟨_, -, _, -, _, -, _, -, _, -, _, -, _, -, _, matching, -⟩, -⟩ := valid
    by_contra other
    exact matching ⟨_, snapshot, other⟩
  have harmless := safe.cross.reservation found
  have owner : pending ∈ (StateIntegrity.approvalsOf w.disk.approvals pending.actionId).filter
      (·.status.active) := by
    rw [List.mem_filter]
    exact ⟨List.mem_filter.2 ⟨Dict.lookup_some_mem stored, by simp⟩, active⟩
  have some : (StateIntegrity.approvalsOf w.disk.approvals pending.actionId).filter
      (·.status.active) ≠ [] := List.ne_nil_of_mem owner
  simp only [StateIntegrity.View.auditReservation, StateIntegrity.fullView] at harmless
  rw [if_pos some] at harmless
  have bound := StateIntegrity.harmless_flatMap.1 harmless pending owner
  rw [StateIntegrity.harmless_issueIf] at bound
  have matching : StateIntegrity.reservationBound pending reservation = true := by
    by_contra unbound
    exact bound (by simpa using unbound) rfl
  simp only [StateIntegrity.reservationBound, Bool.and_eq_true, beq_iff_eq] at matching
  rw [same]
  exact matching.1

/-- An approval decided now keeps its terms. -/
private theorem approvePending_terms {pending : PendingApproval} {decidedBy note : String}
    {attestation : Option OperatorAttestation} (holds : Undispatched base w)
    (stored : w.disk.approvals.lookup pending.approvalId = some pending) :
    Keeps (Undispatched base) (Harness.approvePending site pending decidedBy note attestation)
      (fun approval t => approval.terms = pending.terms ∧
        t.disk = { w.disk with approvals := t.disk.approvals }) w := by
  apply keeps_ite
  · intro _
    unfold Harness.decideApproval
    apply keeps_disk_bind
    apply keeps_note_bind
    have noted : Undispatched base (w.noted (.deciding pending.approvalId true w.disk)) :=
      holds.noted id
    have ticked : Undispatched base (w.noted (.deciding pending.approvalId true w.disk)).ticked :=
      ⟨noted.unlimited, noted.unmarked⟩
    unfold Keeps
    rw [ends_onApprovals]
    refine ⟨fun _ _ => ticked, ?_⟩
    intro update decided
    obtain ⟨old, who, what, found, -, -, -, -, -, rfl⟩ := ApprovalStore.decide_ok_iff.1 decided
    rw [World.noted_disk, stored, Option.some.injEq] at found
    subst found
    refine ⟨nofun, ?_⟩
    intro after _
    exact ⟨fun _ => ticked, fun _ => ⟨ticked.saved _, rfl, rfl⟩⟩
  · intro _
    exact keeps_pure holds ⟨rfl, rfl⟩

theorem resume_preserved {decidedBy note : String} {approved : Bool}
    {attestation : Option OperatorAttestation} (holds : Undispatched base w)
    (tracked : Tracked site w) (accountable : Accountable w.disk) :
    (harness.resume site approvalId approved decidedBy note attestation).Ends
      (fun _ t => Preserved site harness last base t) (fun _ t => Preserved site harness last base t) w := by
  have drafts : EntryDrafts site harness (Undispatched base) fun _ _ _ => True :=
    undispatched_drafts
  apply preserved_lift_bind holds
  intro _ _
  apply opened_bind holds tracked accountable
  intro t opened
  unfold Harness.lookupApproval
  rw [ends_bind, ends_bind, ends_disk]
  apply ends_lift.2
  refine ⟨?_, fun _ _ => .inl opened.holds⟩
  intro pending looked
  rw [orRefuse_ok_iff] at looked
  obtain ⟨key, -⟩ := opened.tracked.named.wellFormed _ _ looked
  apply preserved_lift_bind opened.holds
  intro _ _
  apply preserved_lift_bind opened.holds
  intro _ waiting
  rw [refuseIf_ok_iff, Bool.not_eq_false] at waiting
  apply preserved_lift_bind opened.holds
  rintro ⟨action, request, original⟩ held
  obtain ⟨reading, safe⟩ := opened.safe
  have requested := Requested.of_safe safe looked waiting held
  apply ends_ite.2
  constructor
  · intro _
    rw [← key] at looked
    apply preserved_bind (keeps_does (approvePending_terms opened.holds looked)
      (Harness.approvePending_does opened.tracked.named looked))
    rintro approval u later ⟨moves, ⟨terms, disk⟩, -, stored⟩
    rw [key] at stored
    have kept : Requested u.disk approval.actionId request.requestId := by
      rw [disk, PendingApproval.actionId, terms]
      exact requested
    exact carryOut_preserved later (opened.tracked.moves moves)
      (opened.accountable.moves opened.tracked moves) (by rw [disk]; exact opened.idle) stored kept
  · intro _
    apply preserved_lift_bind opened.holds
    intro _ _
    exact preserved_of_keeps (drafts.plain.reject opened.holds opened.idle)

/-! ### Calls -/

private theorem effect_preserved {p : Control α}
    (ends : p.Ends (fun _ t => Preserved site harness last base t)
      (fun _ t => Preserved site harness last base t) w) :
    (do let _ ← p : Control Unit).Ends (fun _ t => Preserved site harness last base t)
      (fun _ t => Preserved site harness last base t) w := by
  rw [ends_bind]
  exact ends.mono (fun _ _ preserved => ends_pure.2 preserved) fun _ _ preserved => preserved

/-- Every call keeps the results of the handlers that it runs. -/
theorem Call.run_preserved (holds : Undispatched base w) (tracked : Tracked site w)
    (accountable : Accountable w.disk) (call : Call) :
    (call.run site harness).Ends (fun _ t => Preserved site harness last base t)
      (fun _ t => Preserved site harness last base t) w := by
  have drafts : EntryDrafts site harness (Undispatched base) fun _ _ _ => True :=
    undispatched_drafts
  cases call with
  | handleCall => exact effect_preserved (propose_preserved holds tracked accountable)
  | preflightExternalCall => exact effect_preserved (propose_preserved holds tracked accountable)
  | resume => exact effect_preserved (resume_preserved holds tracked accountable)
  | resumeExternal => exact effect_preserved (preserved_of_keeps (drafts.plain.resumeExternal holds))
  | completeExternalCall =>
    exact effect_preserved (preserved_of_keeps (drafts.completeExternalCall holds))
  | reconcileExpiredApprovals =>
    exact effect_preserved (preserved_of_keeps (drafts.made.reconcileExpiredApprovals
      undispatched_discipline holds fun _ _ _ => trivial))
  | reconcileExecution => exact effect_preserved (preserved_of_keeps (drafts.reconcileExecution holds))
  | reconcileAuthorization =>
    exact effect_preserved (preserved_of_keeps (drafts.reconcileAuthorization holds))
  | recoverOperation =>
    exact effect_preserved (preserved_of_keeps (undispatched_discipline.recoverOperation holds))
  | decide => exact effect_preserved (preserved_of_keeps (drafts.plain.decideApproval holds ⟨rfl, rfl⟩))

end

/-- In every call of every run: when the process does not stop, and the completion of a dispatched
action has room in the decimal range, in the approval and in the journal, the accepted answer of the
handler is journaled later in the same call. -/
theorem known_result_journaled {site : Deployment} {w : World} (reached : Reachable site w)
    (process : Process) (unlimited : process.writesLeft = none) (call : Call) {past late : List Event}
    {action : ProposedAction} {found : Disk}
    (trace : (w.after site process call).trace = w.trace ++ past ++ .dispatched action found :: late)
    {result : ToolResult} (accepted : Accepted site process.harness action result)
    (room : Room site process.harness (w.after site process call) found action result) :
    ∃ authority ∈ found.records, Authorizes site.digests authority action ∧
      ∃ estimate approvalId, Funding process.harness found action estimate approvalId ∧
        ∃ before operation, Completes site (w.after site process call) found.ledger authority
            approvalId estimate result operation ∧
          .wrote before { before with journal := some operation } ∈ late := by
  obtain ⟨-, -, tracked, -⟩ := reached.moves
  have start : Undispatched w.trace (w.entered process) :=
    ⟨unlimited, [], by rw [World.entered_trace, List.append_nil], by simp⟩
  have entered : Tracked site (w.entered process) :=
    tracked.step (.enter w process.writesLeft process.bases)
  have accountable : Accountable w.disk := Accountable.of_reachable reached
  have preserved : ∀ last, Preserved site process.harness last w.trace (w.after site process call) := by
    intro last
    have ends : (call.run site process.harness).Ends
        (fun _ t => Preserved site process.harness last w.trace t)
        (fun _ t => Preserved site process.harness last w.trace t) (w.entered process) :=
      call.run_preserved start entered accountable
    unfold World.after
    unfold Ends at ends
    split at ends <;> simp_all
  rcases preserved (w.after site process call) with quiet | ⟨past', action', found', none, later, recovers⟩
  · obtain ⟨since, shape, none⟩ := quiet.unmarked
    rw [trace, List.append_assoc] at shape
    have member : Event.dispatched action found ∈ since := by
      rw [← List.append_cancel_left shape]
      simp
    exact absurd trivial (none _ member)
  · obtain ⟨since, shape, rest⟩ := later.unmarked
    have cut : past ++ .dispatched action found :: late =
        past' ++ .dispatched action' found' :: since := by
      rw [trace] at shape
      simpa [List.append_assoc] using shape
    -- the dispatch is the only one of the call
    have dispatch : IsDispatch (.dispatched action found) := trivial
    obtain ⟨same, rfl⟩ := cut_unique cut.symm none dispatch rest
    rw [Event.dispatched.injEq] at same
    obtain ⟨rfl, rfl⟩ := same
    obtain ⟨authority, member, authorizes, estimate, approvalId, funding, early, before, operation,
      rest', completes, written⟩ := recovers result accepted room ⟨le_rfl, le_rfl⟩
    rw [written, List.append_assoc] at shape
    refine ⟨authority, member, authorizes, estimate, approvalId, funding, before, operation, completes,
      ?_⟩
    rw [← List.append_cancel_left shape]
    simp

namespace Demo

/-- The action and the disk of a dispatch. -/
def dispatchOf : Event → Option (ProposedAction × Disk)
  | .dispatched action found => some (action, found)
  | _ => none

/-- The write prepares an operation. -/
def prepares : Event → Bool
  | .wrote _ after => after.journal.isSome
  | _ => false

/-- Beyond the largest exponent of the default context. -/
def huge : Decimal := ⟨false, 1, 1000000⟩

/-- How many characters the texts of a record have. -/
def length (record : EvidenceRecord) : Nat :=
  ([record.recordId, record.requestId, record.actionId, record.toolName, record.target,
    record.decisionReason, record.resultSummary, record.costUsd.text,
    (record.budgetRemainingUsd.map (·.text)).getD ""].map fun text => (charsOf text).length).sum

/-- The site under a ceiling of 4 MiB on the operations that it journals. -/
def bounded : Deployment :=
  { site clock with
    limits := { limits with
      operation := fun operation => decide ((charsOf operation.operationId).length +
        length operation.evidence ≤ 4 * 1024 * 1024)
      record_of_operation := fun _ _ _ _ => rfl } }

theorem bounded_takes {operation : JournalOperation} (few : (charsOf operation.operationId).length +
    length operation.evidence ≤ 4 * 1024 * 1024) : bounded.limits.operation operation = true := by
  simp only [bounded, decide_eq_true_eq]
  exact few

theorem bounded_fresh : start.Fresh bounded :=
  let fresh := start_fresh clock
  ⟨fresh.records, fresh.head, fresh.approvals, fresh.ledger, fresh.journal, fresh.trace⟩

/-- One mail that costs as much as reported. -/
def mailed (cost : Decimal) : World :=
  start.after bounded (process .allow (dollars 1) cost none)
    (.handleCall (call "act_1") request "" "")

theorem cut_at {events : List Event} {k : Nat} {action : ProposedAction} {found : Disk}
    (dispatch : (events[k]?.bind dispatchOf) = some (action, found)) :
    events = events.take k ++ .dispatched action found :: events.drop (k + 1) := by
  rw [Option.bind_eq_some_iff] at dispatch
  obtain ⟨event, at_, dispatch⟩ := dispatch
  cases event <;> simp only [dispatchOf, reduceCtorEq, Option.some.injEq, Prod.mk.injEq] at dispatch
  obtain ⟨rfl, rfl⟩ := dispatch
  obtain ⟨bound, same⟩ := List.getElem?_eq_some_iff.1 at_
  rw [← same, List.getElem_cons_drop, List.take_append_drop]

theorem mailed_dispatch {cost : Decimal} {dispatch : ProposedAction × Disk}
    (dispatched : ((mailed cost).trace[5]?.bind dispatchOf) = some dispatch) :
    (start.after bounded (process .allow (dollars 1) cost none)
      (.handleCall (call "act_1") request "" "")).trace = start.trace ++ (mailed cost).trace.take 5 ++
        .dispatched dispatch.1 dispatch.2 :: (mailed cost).trace.drop 6 := by
  have same : start.after bounded (process .allow (dollars 1) cost none)
      (.handleCall (call "act_1") request "" "") = mailed cost := rfl
  rw [same, show start.trace = [] from rfl, List.nil_append]
  exact cut_at dispatched

theorem unsigned_nonneg (n : Nat) (e : Int) : 0 ≤ (⟨false, n, e⟩ : Decimal).value := by
  simp only [Decimal.value, Decimal.signed, Bool.false_eq_true, if_false, Int.cast_natCast]
  positivity

theorem mail_accepted {estimate cost : Decimal} {action : ProposedAction}
    (named : action.toolName = "mail") (nonneg : 0 ≤ cost.value) :
    Accepted bounded (harness .allow estimate cost) action (result cost) := by
  refine ⟨⟨"mail", .externalSend, estimate, true, .any⟩, ?_, rfl, ?_⟩
  · rw [named]
    rfl
  · simp [Harness.validateResult, result, money_ok_iff.2 ⟨rfl, nonneg⟩, bounded, site, limits,
      refuseIf_of_not]

/-- The dispatch of the mail whose dollar is reserved from 25, and what will remain of them. -/
def funded (dispatch : ProposedAction × Disk) : Bool :=
  dispatch.1.toolName == "mail" && decide (dispatch.2.approvals = ∅) &&
    decide (dispatch.2.ledger.balanceUsd.toOption = some (dollars 24)) &&
    decide (Harness.larger dispatch.1.estimatedCostUsd
      ((harness .allow (dollars 1) (dollars 2)).specCost dispatch.1) = dollars 1) &&
    dispatch.2.records.all fun authority => decide (length authority ≤ 500) &&
      decide ((Harness.completionRemaining dispatch.2.ledger .settle (dollars 1) (dollars 2)
        authority.requestId authority.actionId).toOption = some (dollars 23))

private theorem small_inRange {n : Int} (bound : |n| < 100) : defaultContext.InRange n := by
  have low : (|n| : ℚ) < 100 := by exact_mod_cast bound
  have one : (1 : ℚ) ≤ (10 : ℚ) ^ defaultContext.etop :=
    one_le_zpow₀ (by norm_num) (by decide)
  have large : (100 : ℚ) ≤ 10 ^ defaultContext.prec - 1 / 2 := by norm_num [defaultContext]
  calc (|n| : ℚ) < 100 * 1 := by linarith
    _ ≤ (10 ^ defaultContext.prec - 1 / 2) * (10 : ℚ) ^ defaultContext.etop :=
      mul_le_mul large one (by norm_num) (by linarith)

private theorem small_representable {n : Int} (bound : |n| < 100) :
    defaultContext.Representable n :=
  ⟨n, 0, by simp, bound.trans_le (by norm_num [defaultContext]), by decide, by decide⟩

theorem dollars_value (n : Nat) : (dollars n).value = n := Decimal.ofNat_value n

private theorem drawn_length {last : World} {kind id : String} (few : last.issued ≤ 100)
    (drawn : Drawn bounded last.issued kind id) : (charsOf id).length ≤ (charsOf kind).length + 101 := by
  obtain ⟨k, bound, rfl⟩ := drawn
  have named : (bounded.ids k).toList.length = k := by simp [bounded, site, Demo.id]
  simp only [charsOf_eq, String.toList_append, List.length_append, named]
  have one : "_".toList.length = 1 := rfl
  omega

/-- The texts of a completion are those of its authorization, with few exceptions. -/
private theorem completion_length {authority : EvidenceRecord} {recordId : String} {clock : Clock}
    {basis : EnforcementBasis} : length (completionRecord bounded authority (result (dollars 2))
      (dollars 2) recordId clock (dollars 23) basis) ≤ length authority + (charsOf recordId).length + 10 := by
  have summary : (charsOf (result (dollars 2)).summary).length = 4 := by decide +kernel
  have cost : (charsOf (dollars 2).plain.text).length = 1 := by decide +kernel
  have remaining : (charsOf (dollars 23).plain.text).length = 2 := by decide +kernel
  simp only [length, completionRecord, List.map_cons, List.map_nil, List.sum_cons, List.sum_nil,
    Option.map_some, Option.getD_some, summary, cost, remaining]
  omega

theorem mailed_room {dispatch : ProposedAction × Disk} {last : World} (few : last.issued ≤ 100)
    (checked : funded dispatch = true) : Room bounded (harness .allow (dollars 1) (dollars 2)) last
      dispatch.2 dispatch.1 (result (dollars 2)) := by
  simp only [funded, Bool.and_eq_true, decide_eq_true_eq, List.all_eq_true] at checked
  obtain ⟨⟨⟨⟨-, approvals⟩, balance⟩, proposed⟩, authorities⟩ := checked
  have unowned : ApprovalStore.forAction dispatch.2.approvals dispatch.1.actionId = [] := by
    rw [approvals]
    rfl
  have estimated : ∀ estimate approvalId, Funding (harness .allow (dollars 1) (dollars 2)) dispatch.2
      dispatch.1 estimate approvalId → estimate = dollars 1 := by
    intro estimate approvalId funding
    by_cases direct : approvalId = ""
    · rw [funding.proposed direct, proposed]
    · obtain ⟨approval, found, -⟩ := funding.owned direct
      rw [approvals] at found
      cases found
  have paid : Harness.actualCost (result (dollars 2)) (dollars 1) = dollars 2 := by decide
  constructor
  · exact fun _ => nofun
  · intro estimate approvalId funding _ available read
    obtain rfl := estimated estimate approvalId funding
    obtain rfl : available = dollars 24 := by
      rw [read] at balance
      exact Option.some.inj balance
    have sum : (dollars 24).value + (dollars 1).value = (25 : Int) := by
      rw [dollars_value, dollars_value]
      norm_num
    obtain ⟨exactly, added, value⟩ := plus_exact (a := dollars 24) (b := dollars 1)
      (by rw [sum]; exact small_representable (by norm_num))
    refine ⟨by rw [sum]; exact small_inRange (by norm_num), ?_⟩
    intro restored computed
    rw [added, Except.ok.injEq] at computed
    have rest : restored.value - (Harness.actualCost (result (dollars 2)) (dollars 1)).value =
        (23 : Int) := by
      rw [← computed, value, sum, paid, dollars_value]
      norm_num
    rw [rest]
    exact small_inRange (by norm_num)
  · exact fun _ _ _ owned => absurd unowned owned
  · intro authority member _ estimate approvalId operation funding completes
    obtain rfl := estimated estimate approvalId funding
    obtain ⟨-, ⟨recordId, named, k, -, remaining, computed, basis, evidence⟩, operationId, -⟩ := completes
    obtain ⟨short, left⟩ := authorities authority member
    have settle : Harness.completionDisposition (dollars 1) (dollars 2) = .settle := by decide
    rw [paid, settle] at computed
    rw [computed] at left
    obtain rfl : remaining = dollars 23 := Option.some.inj left
    rw [paid] at evidence
    have record := drawn_length few named
    have name := drawn_length few operationId
    have texts : length operation.evidence ≤ length authority + (charsOf recordId).length + 10 := by
      rw [evidence]
      exact completion_length
    have start : (charsOf "evd").length = 3 ∧ (charsOf "op").length = 2 ∧ (charsOf "").length = 0 := by
      decide
    obtain ⟨three, two, zero⟩ := start
    constructor
    · apply bounded_takes
      dsimp only
      omega
    · apply bounded_takes
      omega

end Demo

/-- The mail of two dollars is journaled. -/
theorem mailed_result_journaled :
    ∃ dispatch, (Demo.mailed (Demo.dollars 2)).trace[5]?.bind Demo.dispatchOf = some dispatch ∧
      ∃ before operation, .wrote before { before with journal := some operation } ∈
        (Demo.mailed (Demo.dollars 2)).trace.drop 6 := by
  have checked : ((Demo.mailed (Demo.dollars 2)).trace[5]?.bind Demo.dispatchOf).any
    Demo.funded = true := by decide +kernel
  obtain ⟨dispatch, dispatched, funded⟩ := (Option.any_eq_true _ _).1 checked
  have named : dispatch.1.toolName = "mail" := by
    simp only [Demo.funded, Bool.and_eq_true, beq_iff_eq] at funded
    exact funded.1.1.1.1
  have accepted : Accepted Demo.bounded
      (Demo.harness .allow (Demo.dollars 1) (Demo.dollars 2)) dispatch.1
      (Demo.result (Demo.dollars 2)) := Demo.mail_accepted named (Demo.unsigned_nonneg 2 0)
  obtain ⟨_, -, -, _, _, -, before, operation, -, member⟩ := known_result_journaled
    (.fresh Demo.bounded_fresh) _ rfl _ (Demo.mailed_dispatch dispatched) accepted
    (Demo.mailed_room (by decide +kernel) funded)
  exact ⟨dispatch, dispatched, before, operation, member⟩

/-- A result that costs more than the decimal range holds is accepted, and its completion is not
journaled. -/
theorem unjournaled_result : ¬ ∀ (site : Deployment) (w : World), Reachable site w →
    ∀ (process : Process), process.writesLeft = none → ∀ (call : Call) (past late : List Event)
      (action : ProposedAction) (found : Disk),
    (w.after site process call).trace = w.trace ++ past ++ .dispatched action found :: late →
    ∀ result, Accepted site process.harness action result →
      ∃ before operation, .wrote before { before with journal := some operation } ∈ late := by
  intro always
  have checked : (((Demo.mailed Demo.huge).trace[5]?.bind Demo.dispatchOf).any
    fun dispatch => dispatch.1.toolName == "mail") = true := by decide +kernel
  have nothing : (Demo.mailed Demo.huge).trace.any Demo.prepares = false := by decide +kernel
  have nonneg : 0 ≤ Demo.huge.value := Demo.unsigned_nonneg 1 1000000
  generalize Demo.huge = cost at checked nothing nonneg
  obtain ⟨dispatch, dispatched, named⟩ := (Option.any_eq_true _ _).1 checked
  have accepted : Accepted Demo.bounded (Demo.harness .allow (Demo.dollars 1) cost) dispatch.1
      (Demo.result cost) := Demo.mail_accepted (by simpa using named) nonneg
  obtain ⟨before, operation, member⟩ := always _ _ (.fresh Demo.bounded_fresh) _ rfl _ _ _ _ _
    (Demo.mailed_dispatch dispatched) _ accepted
  generalize Demo.mailed cost = run at nothing member
  rw [List.any_eq_false] at nothing
  exact nothing _ (List.mem_of_mem_drop member) rfl

end DefiantHarness
