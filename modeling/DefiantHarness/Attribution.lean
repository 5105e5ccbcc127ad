import DefiantHarness.DecidedIdentity
import DefiantHarness.RecordDrafting

/-! Operator attribution: which identity the records of an approved execution name. -/
namespace DefiantHarness

open Foundation Proc Control

def IsClaim : Event → Prop
  | .claiming _ _ _ => True
  | _ => False

def IsCompletion : Event → Prop
  | .completing _ _ _ _ _ => True
  | _ => False

/-- Evidence that the write appends or journals names this approver. -/
def Attributes (who : Option String) : Event → Prop
  | .wrote before after =>
    (∀ record, after.records = before.records ++ [record] → record.approvedBy = who) ∧
      ∀ operation, after.journal = some operation → before.journal = none →
        operation.evidence.approvedBy = who
  | _ => True

/-- The write appends a record or journals one. -/
def Evidences : Event → Prop
  | .wrote before after =>
    (∃ record, after.records = before.records ++ [record]) ∨
      ∃ operation, after.journal = some operation ∧ before.journal = none
  | _ => False

/-- Two approvers of the same evidence are one. -/
theorem Attributes.unique {who other : Option String} {event : Event} (named : Attributes who event)
    (also : Attributes other event) (evidence : Evidences event) : who = other := by
  cases event with
  | wrote before after =>
    rcases evidence with ⟨record, appended⟩ | ⟨operation, journaled, idle⟩
    · exact (named.1 record appended).symm.trans (also.1 record appended)
    · exact (named.2 operation journaled idle).symm.trans (also.2 operation journaled idle)
  | _ => exact evidence.elim

private theorem quiet_attributes {who : Option String} {before after : Disk}
    (records : after.records = before.records) (journal : after.journal = before.journal) :
    Attributes who (.wrote before after) := by
  constructor
  · intro record appended
    rw [records] at appended
    exact absurd (congrArg List.length appended) (by simp)
  · intro operation journaled idle
    rw [journal, idle] at journaled
    cases journaled

/-! ### Before and after the claim -/

/-- No marked event since `base`. -/
def Unmarked (marked : Event → Prop) (base : List Event) (w : World) : Prop :=
  ∃ events, w.trace = base ++ events ∧ ∀ event ∈ events, ¬ marked event

/-- Since `base` all evidence names this approver, and no event was marked. -/
def Attributed (marked : Event → Prop) (base : List Event) (who : Option String) (w : World) :
    Prop :=
  (∃ events, w.trace = base ++ events ∧
    ∀ event ∈ events, ¬ marked event ∧ Attributes who event) ∧
  ∀ operation, w.disk.journal = some operation → operation.evidence.approvedBy = who

/-- Writes are never marked. -/
def Silent (marked : Event → Prop) : Prop := ∀ before after, ¬ marked (.wrote before after)

section

variable {site : Deployment} {marked : Event → Prop} {base : List Event} {who : Option String}
  {w : World}

theorem Unmarked.add (unmarked : Unmarked marked base w) {event : Event} {t : World}
    (trace : t.trace = w.trace ++ [event]) (plain : ¬ marked event) : Unmarked marked base t := by
  obtain ⟨events, shape, none⟩ := unmarked
  refine ⟨events ++ [event], by rw [trace, shape, List.append_assoc], ?_⟩
  intro found member
  rcases List.mem_append.1 member with old | new
  · exact none found old
  · rw [List.mem_singleton.1 new]
    exact plain

private theorem Attributed.add (attributed : Attributed marked base who w) {event : Event}
    {t : World} (trace : t.trace = w.trace ++ [event]) (plain : ¬ marked event)
    (named : Attributes who event)
    (journal : ∀ operation, t.disk.journal = some operation →
      operation.evidence.approvedBy = who) : Attributed marked base who t := by
  obtain ⟨⟨events, shape, all⟩, -⟩ := attributed
  refine ⟨⟨events ++ [event], by rw [trace, shape, List.append_assoc], ?_⟩, journal⟩
  intro found member
  rcases List.mem_append.1 member with old | new
  · exact all found old
  · rw [List.mem_singleton.1 new]
    exact ⟨plain, named⟩

/-- The admission of a record that names the approver. -/
def Names (who : Option String) (_ : List EvidenceRecord) (_ : Option JournalOperation)
    (record : EvidenceRecord) : Prop := record.approvedBy = who

theorem unmarked_discipline (silent : Silent marked) :
    Discipline site (Unmarked marked base) fun _ _ _ => True where
  tick _ holds := holds
  draw _ holds := holds
  quiet _ _ holds _ _ := holds.add rfl (silent _ _)
  appended _ _ _ holds _ := holds.add rfl (silent _ _)
  prepared _ _ holds _ _ := holds.add rfl (silent _ _)
  completed _ _ holds _ _ := holds.add rfl (silent _ _)
  active _ _ _ _ := trivial

theorem attributed_discipline (silent : Silent marked) :
    Discipline site (Attributed marked base who) (Names who) where
  tick _ holds := holds
  draw _ holds := holds
  quiet w disk holds records journal := by
    apply holds.add rfl (silent _ _) (quiet_attributes records journal)
    intro operation active
    exact holds.2 operation (journal ▸ active)
  appended w record previous holds named := by
    apply holds.add rfl (silent _ _)
    · constructor
      · intro found appended
        have last := List.append_cancel_left appended
        rw [List.singleton_inj] at last
        rw [← last]
        exact named
      · intro operation journaled idle
        -- a record that is appended names its approver, and without an operation nothing else does
        rw [idle] at journaled
        cases journaled
    · exact holds.2
  prepared w operation holds idle named := by
    apply holds.add rfl (silent _ _)
    · constructor
      · intro found appended
        exact absurd (congrArg List.length appended) (by simp)
      · rintro found journaled -
        cases journaled
        exact named
    · rintro found journaled
      cases journaled
      exact named
  completed w operation holds active logged := by
    apply holds.add rfl (silent _ _)
    · constructor
      · intro found appended
        exact absurd (congrArg List.length appended) (by simp)
      · intro found journaled
        cases journaled
    · intro found journaled
      cases journaled
  active w operation holds active := holds.2 operation active

private theorem silent_claim : Silent IsClaim := fun _ _ => id

private theorem silent_completion : Silent IsCompletion := fun _ _ => id

theorem unmarked_drafts {harness : Harness} :
    Drafts site harness (Unmarked IsClaim base) (fun _ _ _ => True) fun _ => True where
  note w event holds ordinary := by
    apply holds.add rfl
    cases event
    case claiming => exact ordinary.elim
    all_goals exact id
  make w action request decision status details holds _ _ := by
    apply ((unmarked_discipline silent_claim).makeRecord (fun _ _ holds => holds) holds).mono
    rintro record t _ ⟨disk, -⟩
    exact ⟨disk, trivial⟩

theorem attributed_drafts {harness : Harness} :
    Drafts site harness (Attributed IsClaim base who) (Names who) fun details =>
      details.approvedBy = who where
  note w event holds ordinary := by
    cases event
    case wrote | claiming | dispatched => exact ordinary.elim
    all_goals exact holds.add rfl id trivial holds.2
  make w action request decision status details holds _ drafted := by
    apply ((attributed_discipline silent_claim).makeRecord (fun _ _ holds => holds) holds).mono
    rintro record t _ ⟨disk, made⟩
    exact ⟨disk, made.approver.trans drafted⟩

theorem attributed_dispatches : Dispatches (Attributed IsClaim base who) :=
  fun _ _ holds => holds.add rfl id trivial holds.2

/-! ### From the marked event to the end -/

/-- The call marks nothing, or attributes all evidence after its one marked event to the identity
that `named` reads off the approval found there. -/
def Answers (marked : Event → Prop) (base : List Event) (approvalId : String)
    (named : PendingApproval → Option String) (w : World) : Prop :=
  Unmarked marked base w ∨ ∃ past event disk who, (∀ found ∈ past, ¬ marked found) ∧ marked event ∧
    event.seen = some disk ∧
    (∀ approval, disk.approvals.lookup approvalId = some approval → who = named approval) ∧
    Attributed marked (base ++ past ++ [event]) who w

/-- Two ways to cut a list at its only marked element are one. -/
theorem cut_unique {past past' late late' : List Event} {event event' : Event}
    (shape : past ++ event :: late = past' ++ event' :: late')
    (none : ∀ found ∈ past, ¬ marked found) (mark : marked event')
    (rest : ∀ found ∈ late, ¬ marked found) : event = event' ∧ late = late' := by
  rcases List.append_eq_append_iff.1 shape with ⟨more, rfl, tail⟩ | ⟨more, rfl, tail⟩
  · cases more with
    | nil => exact List.cons.inj tail
    | cons first more =>
      obtain ⟨-, rfl⟩ := List.cons.inj tail
      exact absurd mark (rest event' (by simp))
  · cases more with
    | nil =>
      obtain ⟨same, same'⟩ := List.cons.inj tail
      exact ⟨same.symm, same'.symm⟩
    | cons first more =>
      obtain ⟨rfl, -⟩ := List.cons.inj tail
      exact absurd mark (none event' (by simp))

theorem Answers.names {approvalId : String} {named : PendingApproval → Option String}
    (answers : Answers marked base approvalId named w) {past late : List Event} {event found : Event}
    {disk : Disk} {approval : PendingApproval} (trace : w.trace = base ++ past ++ event :: late)
    (mark : marked event) (seen : event.seen = some disk)
    (held : disk.approvals.lookup approvalId = some approval) (member : found ∈ late) :
    Attributes (named approval) found := by
  rcases answers with ⟨events, shape, none⟩ |
    ⟨first, start, at_, who, none, -, sees, names, ⟨⟨events, shape, all⟩, -⟩⟩
  · rw [trace, List.append_assoc] at shape
    exact absurd mark (none event (List.append_cancel_left shape ▸ by simp))
  · rw [trace, List.append_assoc, List.append_assoc, List.append_assoc] at shape
    have unmarked : ∀ other ∈ events, ¬ marked other := fun other later => (all other later).1
    obtain ⟨rfl, rfl⟩ := cut_unique (List.append_cancel_left shape).symm none mark unmarked
    rw [seen, Option.some.injEq] at sees
    rw [← names approval (sees ▸ held)]
    exact (all found member).2

theorem Answers.extends_ {approvalId : String} {named : PendingApproval → Option String}
    (answers : Answers marked base approvalId named w) : ∃ rest, w.trace = base ++ rest := by
  rcases answers with ⟨events, shape, -⟩ | ⟨past, event, _, _, -, -, -, -, ⟨events, shape, -⟩, -⟩
  · exact ⟨events, shape⟩
  · exact ⟨past ++ [event] ++ events, by rw [shape]; simp⟩

/-- The claim turns a world without claims into one with evidence by `who` only. -/
private theorem claim_answers {approvalId : String} {action : ProposedAction}
    {named : PendingApproval → Option String} {β : Type} {f : PendingApproval → Control β}
    (unclaimed : Unmarked IsClaim base w) (idle : Idle w)
    (names : ∀ approval, w.disk.approvals.lookup approvalId = some approval → who = named approval)
    (rest : ∀ (started : List Event) approval t, Attributed IsClaim started who t → Idle t →
      Keeps (Attributed IsClaim started who) (f approval) (fun _ _ => True) t) :
    (Harness.claim site approvalId action >>= f).Ends
      (fun _ t => Answers IsClaim base approvalId named t)
      (fun _ t => Answers IsClaim base approvalId named t) w := by
  -- the claim notes what it found, so whatever follows answers to that disk
  obtain ⟨past, trace, none⟩ := unclaimed
  have started : Attributed IsClaim (base ++ past ++
      [.claiming approvalId (site.clock w.readings 0) w.disk]) who
      (w.noted (.claiming approvalId (site.clock w.readings 0) w.disk)) := by
    refine ⟨⟨[], by simp [trace], by simp⟩, ?_⟩
    intro operation active
    rw [show (w.noted _).disk.journal = _ from idle] at active
    cases active
  generalize shape : base ++ past ++ [.claiming approvalId (site.clock w.readings 0) w.disk] =
    origin at started
  have claim : (Harness.claim site approvalId action).Ends
      (fun _ t => Attributed IsClaim origin who t ∧ Idle t)
      (fun _ t => Attributed IsClaim origin who t) w := by
    unfold Harness.claim
    rw [ends_bind, ends_get, ends_bind, ends_note]
    apply Keeps.bind ((attributed_discipline silent_claim).onApprovals started ⟨rfl, idle⟩)
    intro answer t later same
    exact keeps_lift later fun _ _ => same.2
  -- everything after the claim keeps the attribution, and so does every way to fail
  have answers : ∀ t, Attributed IsClaim origin who t → Answers IsClaim base approvalId named t := by
    intro t holds
    rw [← shape] at holds
    exact .inr ⟨past, .claiming approvalId _ w.disk, w.disk, who, none, trivial, rfl, names, holds⟩
  rw [ends_bind]
  apply claim.mono
  · rintro approval t ⟨holds, still⟩
    apply Ends.mono (rest origin approval t holds still)
    · rintro _ u ⟨last, -⟩
      exact answers u last
    · intro _ u last
      exact answers u last
  · intro _ t holds
    exact answers t holds

/-- Carrying out an approved action names the caller's argument. -/
theorem carryOut_answers {harness : Harness} {approvalId decidedBy : String}
    {pending : PendingApproval} {action : ProposedAction} {request : HarnessRequest}
    {original : GuardrailDecision} (unclaimed : Unmarked IsClaim base w) (idle : Idle w) :
    (harness.carryOut site approvalId pending action request original decidedBy).Ends
      (fun _ t => Answers IsClaim base approvalId (fun _ => some decidedBy) t)
      (fun _ t => Answers IsClaim base approvalId (fun _ => some decidedBy) t) w := by
  have rules : Discipline site (Unmarked IsClaim base) fun _ _ _ => True :=
    unmarked_discipline silent_claim
  unfold Harness.carryOut
  rw [ends_bind]
  apply Ends.mono (unmarked_drafts.currentDecision rules unclaimed ⟨rfl, idle⟩)
  -- before the claim nothing is marked; after it the operator who decided is named
  · rintro decision t ⟨later, same⟩
    apply claim_answers later same.2 fun _ _ => rfl
    intro started approval u holds still
    have rules : Discipline site (Attributed IsClaim started (some decidedBy)) _ :=
      attributed_discipline silent_claim
    apply keeps_ite
    · intro _
      exact (attributed_drafts.closeBlocked rules holds still fun _ named _ => named).mono
        fun _ _ _ _ => trivial
    · intro _
      apply keeps_disk_bind
      apply keeps_lift_bind holds
      intro estimate _
      apply (attributed_drafts.execute rules attributed_dispatches holds still fun _ => id).mono
      exact fun _ _ _ _ => trivial
  · intro _ t later
    exact .inl later

/-- Nothing is claimed before the approval is looked up. -/
private theorem opening_unclaimed {harness : Harness} {check : Except HarnessError Unit} {β : Type}
    {f : Control β} {E : World → Prop} (weaker : ∀ t, Unmarked IsClaim w.trace t → E t)
    (rest : ∀ t, Unmarked IsClaim w.trace t → Idle t →
      f.Ends (fun _ u => E u) (fun _ u => E u) t) :
    (do
      Proc.lift check
      harness.settleAndCheck site
      f : Control β).Ends (fun _ t => E t) (fun _ t => E t) w := by
  have start : Unmarked IsClaim w.trace w := ⟨[], by simp, by simp⟩
  rw [ends_bind]
  apply ends_lift.2
  constructor
  · intro _ _
    rw [ends_bind]
    apply Ends.mono (unmarked_drafts.settleAndCheck (unmarked_discipline silent_claim) start
      fun _ _ _ => trivial)
    · rintro _ t ⟨later, idle⟩
      exact rest t later idle
    · intro _ t later
      exact weaker t later
  · intro _ _
    exact weaker w start

private theorem lift_bind_ends {α β : Type} {x : Except HarnessError α} {f : α → Control β}
    {E : World → Prop} (here : E w)
    (rest : ∀ a, x = .ok a → (f a).Ends (fun _ t => E t) (fun _ t => E t) w) :
    (Proc.lift x >>= f).Ends (fun _ t => E t) (fun _ t => E t) w := by
  rw [ends_bind]
  exact ends_lift.2 ⟨rest, fun _ _ => here⟩

/-- `resume` names its argument. -/
theorem resume_answers {harness : Harness} {approvalId decidedBy note : String}
    {attestation : Option OperatorAttestation} :
    (harness.resume site approvalId true decidedBy note attestation).Ends
      (fun _ t => Answers IsClaim w.trace approvalId (fun _ => some decidedBy) t)
      (fun _ t => Answers IsClaim w.trace approvalId (fun _ => some decidedBy) t) w := by
  apply opening_unclaimed fun t unclaimed => .inl unclaimed
  intro t unclaimed idle
  have here : Answers IsClaim w.trace approvalId (fun _ => some decidedBy) t := .inl unclaimed
  unfold Harness.lookupApproval
  rw [ends_bind, ends_bind, ends_disk]
  apply ends_lift.2
  refine ⟨?_, fun _ _ => here⟩
  intro pending _
  apply lift_bind_ends here
  intro _ _
  apply lift_bind_ends here
  intro _ _
  apply lift_bind_ends here
  rintro ⟨action, request, original⟩ _
  -- the decision is recorded before anything is claimed
  have decided : Keeps (Unmarked IsClaim w.trace)
      (Harness.approvePending site pending decidedBy note attestation) (fun _ u => Idle u) t := by
    apply keeps_ite
    · intro _
      apply keeps_disk_bind
      apply keeps_note_bind
      have noted : Unmarked IsClaim w.trace
        (t.noted (.deciding pending.approvalId true t.disk)) := unclaimed.add rfl id
      apply ((unmarked_discipline silent_claim).onApprovals noted ⟨rfl, idle⟩).mono
      intro _ u _ same
      exact same.2
    · intro _
      exact keeps_pure unclaimed idle
  simp only [if_true]
  rw [ends_bind]
  apply Ends.mono decided
  · rintro pending u ⟨later, still⟩
    exact carryOut_answers later still
  · intro _ u later
    exact .inl later

/-- `resume_external` names the identity in the approval that it claims. -/
theorem resumeExternal_answers {harness : Harness} {approvalId : String} :
    (harness.resumeExternal site approvalId).Ends
      (fun _ t => Answers IsClaim w.trace approvalId (·.decidedBy) t)
      (fun _ t => Answers IsClaim w.trace approvalId (·.decidedBy) t) w := by
  apply opening_unclaimed fun t unclaimed => .inl unclaimed
  intro t unclaimed idle
  have here : Answers IsClaim w.trace approvalId (·.decidedBy) t := .inl unclaimed
  unfold Harness.lookupApproval
  rw [ends_bind, ends_bind, ends_disk]
  apply ends_lift.2
  refine ⟨?_, fun _ _ => here⟩
  intro pending looked
  rw [orRefuse_ok_iff] at looked
  apply lift_bind_ends here
  intro _ _
  apply lift_bind_ends here
  intro _ _
  apply lift_bind_ends here
  rintro ⟨action, request, original⟩ _
  rw [ends_bind]
  -- nothing is written between the lookup and the claim
  have kept : Keeps (Unmarked IsClaim w.trace)
      (harness.currentDecision site action request original)
      (fun _ u => Holding t.disk.records none u) t :=
    unmarked_drafts.currentDecision (unmarked_discipline silent_claim) unclaimed ⟨rfl, idle⟩
  have does : Does site (harness.currentDecision site action request original)
      (fun decision u => Harness.Decided action decision t u) t := Harness.currentDecision_does
  apply Ends.mono (kept.and does.ends)
  · rintro decision u ⟨⟨later, same⟩, -, decided⟩
    have names : ∀ approval, u.disk.approvals.lookup approvalId = some approval →
        pending.decidedBy = approval.decidedBy := by
      intro approval found
      rw [decided.1, looked, Option.some.injEq] at found
      rw [found]
    apply claim_answers later same.2 names
    intro started approval v holds still
    have rules : Discipline site (Attributed IsClaim started pending.decidedBy) _ :=
      attributed_discipline silent_claim
    apply keeps_ite
    · intro _
      exact (attributed_drafts.closeBlocked rules holds still fun _ named _ => named).mono
        fun _ _ _ _ => trivial
    · intro _
      exact (attributed_drafts.authorizeExternal rules holds still fun _ named _ => named).mono
        fun _ _ _ _ => trivial
  · rintro _ u ⟨later, -⟩
    exact .inl later

/-- Everything after the note of a known result names the given approver. -/
private theorem completeKnownResult_answers {harness : Harness} {approvalId : String}
    {named : PendingApproval → Option String} {authorization : EvidenceRecord}
    {action : ProposedAction} {request : HarnessRequest} {decision : GuardrailDecision}
    {result : ToolResult} {estimate : Decimal} {approvedBy : Option String}
    (unmarked : Unmarked IsCompletion base w) (idle : Idle w)
    (names : ∀ approval, w.disk.approvals.lookup approvalId = some approval →
      approvedBy = named approval) :
    (harness.completeKnownResult site authorization action request decision result estimate
      approvedBy approvalId).Ends (fun _ t => Answers IsCompletion base approvalId named t)
      (fun _ t => Answers IsCompletion base approvalId named t) w := by
  obtain ⟨past, trace, none⟩ := unmarked
  unfold Harness.completeKnownResult
  apply lift_bind_ends (.inl ⟨past, trace, none⟩)
  intro _ _
  rw [ends_bind, ends_disk, ends_bind, ends_note]
  generalize mark : (Event.completing request.requestId action.actionId estimate
    (Harness.actualCost result estimate) w.disk) = event
  have started : Attributed IsCompletion (base ++ past ++ [event]) approvedBy (w.noted event) := by
    refine ⟨⟨[], by simp [trace], by simp⟩, ?_⟩
    intro operation active
    rw [show (w.noted event).disk.journal = _ from idle] at active
    cases active
  -- the completion noted its disk, and the approver is the one stored there
  have answers : ∀ t, Attributed IsCompletion (base ++ past ++ [event]) approvedBy t →
      Answers IsCompletion base approvalId named t := by
    intro t holds
    subst mark
    exact .inr ⟨past, .completing _ _ _ _ w.disk, w.disk, approvedBy, none, trivial, rfl, names, holds⟩
  have rules : Discipline site (Attributed IsCompletion (base ++ past ++ [event]) approvedBy) _ :=
    attributed_discipline silent_completion
  have here := answers _ started
  apply lift_bind_ends here
  intro remaining _
  rw [ends_bind]
  apply Ends.mono (rules.makeRecord (fun _ _ holds => holds) started)
  · rintro record t ⟨later, disk, made⟩
    apply lift_bind_ends (answers t later)
    intro subject _
    have still : Idle t := by
      unfold Idle
      rw [disk]
      exact idle
    rw [ends_bind]
    apply Ends.mono (rules.commit later still made.approver)
    · rintro _ u ⟨last, -⟩
      exact ends_pure.2 (answers u last)
    · intro _ u last
      exact answers u last
  · intro _ t later
    exact answers t later

private theorem externalApprover_ok {approvals : Approvals} {approvalId : String}
    {action : ProposedAction} {who : Option String} (linked : approvalId ≠ "")
    (ok : Harness.externalApprover site approvals approvalId action = .ok who) :
    ∀ approval, approvals.lookup approvalId = some approval → who = approval.decidedBy := by
  simp only [Harness.externalApprover, linked, if_false, bind_ok_iff, orRefuse_ok_iff] at ok
  obtain ⟨found, looked, _, -, _, -, _, -, _, -, same⟩ := ok
  intro approval held
  rw [held, Option.some.injEq] at looked
  rw [looked]
  exact pure_ok_iff.1 same

/-- `complete_external_call` names the identity in the approval that it completes. -/
theorem completeExternalCall_answers {harness : Harness} {action : ProposedAction}
    {request : HarnessRequest} {decision : GuardrailDecision} {toolResponse : Json}
    {approvalId : String} (linked : approvalId ≠ "") :
    (harness.completeExternalCall site action request decision toolResponse approvalId).Ends
      (fun _ t => Answers IsCompletion w.trace approvalId (·.decidedBy) t)
      (fun _ t => Answers IsCompletion w.trace approvalId (·.decidedBy) t) w := by
  have rules : Discipline site (Unmarked IsCompletion w.trace) fun _ _ _ => True :=
    unmarked_discipline silent_completion
  have start : Unmarked IsCompletion w.trace w := ⟨[], by simp, by simp⟩
  apply lift_bind_ends (.inl start)
  intro _ _
  rw [ends_bind]
  apply Ends.mono (rules.recoverOperation start)
  -- up to the completion nothing is marked, whichever check refuses
  · rintro _ t ⟨later, idle⟩
    rw [ends_bind]
    apply Ends.mono (rules.requireSafe later ⟨rfl, idle⟩)
    · rintro _ u ⟨after, same⟩
      have here : Answers IsCompletion w.trace approvalId (·.decidedBy) u := .inl after
      apply lift_bind_ends here
      intro _ _
      apply lift_bind_ends here
      intro _ _
      rw [ends_bind, ends_disk]
      apply lift_bind_ends here
      intro authorization _
      have remembered : ∀ basis, Keeps (Unmarked IsCompletion w.trace)
          (Harness.rememberBasis action.actionId basis) (fun _ v => v.disk = u.disk) u :=
        fun basis => keeps_of_ok rfl after rfl
      rw [ends_bind]
      apply Ends.mono (remembered _)
      · rintro _ v ⟨last, disk⟩
        have here : Answers IsCompletion w.trace approvalId (·.decidedBy) v := .inl last
        apply lift_bind_ends here
        intro _ _
        apply lift_bind_ends here
        intro approvedBy approver
        apply lift_bind_ends here
        intro estimate _
        have still : Idle v := by
          unfold Idle
          rw [disk]
          exact same.2
        rw [ends_bind]
        have names := externalApprover_ok linked approver
        rw [← disk] at names
        apply Ends.mono (completeKnownResult_answers last still names)
        · intro _ x answers
          exact ends_pure.2 answers
        · intro _ x answers
          exact answers
      · intro _ v last
        exact .inl last
    · intro _ u after
      exact .inl after
  · intro _ t later
    exact .inl later

end

/-! ### Every execution of a run -/

/-- Whom the records of an execution name. -/
def Call.approver (approval : PendingApproval) : Call → Option String
  | .resume _ _ decidedBy _ _ => some decidedBy
  | _ => approval.decidedBy

/-- The call executes the approval from this event on: it has claimed the approval, or it completes
what another runtime did under it. -/
inductive Executes (approvalId : String) : Call → Event → Prop where
  | resume (decidedBy note : String) (attestation : Option OperatorAttestation) (now : Timestamp)
      (disk : Disk) : Executes approvalId (.resume approvalId true decidedBy note attestation)
        (.claiming approvalId now disk)
  | resumeExternal (now : Timestamp) (disk : Disk) :
      Executes approvalId (.resumeExternal approvalId) (.claiming approvalId now disk)
  | completeExternalCall (action : ProposedAction) (request : HarnessRequest)
      (decision : GuardrailDecision) (toolResponse : Json) (linked : approvalId ≠ "")
      (requestId actionId : String) (estimate actual : Decimal) (disk : Disk) :
      Executes approvalId (.completeExternalCall action request decision toolResponse approvalId)
        (.completing requestId actionId estimate actual disk)

private theorem after_ends {site : Deployment} {w : World} {process : Process} {call : Call}
    {E : World → Prop} (ends : (call.run site process.harness).Ends (fun _ t => E t) (fun _ t => E t)
      (w.entered process)) : E (w.after site process call) := by
  unfold World.after
  unfold Ends at ends
  split at ends
  next shape => rw [shape]; exact ends
  next shape => rw [shape]; exact ends

private theorem effect_ends {α : Type} {p : Control α} {E : World → Prop} {w : World}
    (ends : p.Ends (fun _ t => E t) (fun _ t => E t) w) :
    (do let _ ← p : Control Unit).Ends (fun _ t => E t) (fun _ t => E t) w := by
  rw [ends_bind]
  apply ends.mono
  · intro _ _ holds
    exact ends_pure.2 holds
  · intro _ _ holds
    exact holds

/-- An execution attributes all evidence after its start to the identity of `Call.approver`. -/
theorem Executes.answers {call : Call} {approvalId : String} {start : Event}
    (executes : Executes approvalId call start) (site : Deployment) (w : World)
    (process : Process) :
    ∃ marked : Event → Prop, marked start ∧ (∃ disk, start.seen = some disk) ∧
      Answers marked w.trace approvalId (fun approval => call.approver approval)
        (w.after site process call) := by
  cases executes with
  | resume =>
    refine ⟨IsClaim, trivial, ⟨_, rfl⟩, ?_⟩
    exact after_ends (effect_ends (resume_answers (w := w.entered process)))
  | resumeExternal =>
    refine ⟨IsClaim, trivial, ⟨_, rfl⟩, ?_⟩
    exact after_ends (effect_ends (resumeExternal_answers (w := w.entered process)))
  | completeExternalCall _ _ _ _ linked =>
    refine ⟨IsCompletion, trivial, ⟨_, rfl⟩, ?_⟩
    exact after_ends (effect_ends (completeExternalCall_answers (w := w.entered process) linked))

/-- Evidence that an execution of a run writes names the identity under which the approval was
approved exactly when the execution was called under that identity. `resume` is called under its
`decided_by` argument, the external runtimes under the stored identity. -/
theorem execution_attributed_iff {site : Deployment} {w : World} (reachable : Reachable site w)
    (process : Process) {call : Call} {approvalId : String} {past late : List Event}
    {start event : Event} {before after : Disk} {approval : PendingApproval}
    (executes : Executes approvalId call start)
    (trace : (w.after site process call).trace = w.trace ++ past ++ start :: late)
    (earlier : .wrote before after ∈ w.trace ++ past)
    (held : after.approvals.lookup approvalId = some approval)
    (approved : approval.status = .approved) (member : event ∈ late)
    (evidence : Evidences event) :
    Attributes approval.decidedBy event ↔ approval.decidedBy = call.approver approval := by
  obtain ⟨marked, mark, ⟨disk, seen⟩, answers⟩ := executes.answers site w process
  -- the approval that the execution finds was decided by the same identity
  obtain ⟨current, found, -, identity⟩ : DecidedBy approvalId approval.decidedBy disk.approvals := by
    obtain ⟨sooner, between, split⟩ := List.append_of_mem earlier
    have shape : (w.after site process call).trace =
        sooner ++ .wrote before after :: (between ++ start :: late) := by
      rw [trace, split]
      simp
    have decided : DecidedBy approvalId approval.decidedBy after.approvals :=
      ⟨approval, held, by simp [approved], rfl⟩
    obtain ⟨-, later⟩ := Attributable.of_reachable (.call reachable process call) _ _ _ _ shape _ _
      decided
    exact later start (by simp) disk seen
  have named : Attributes (call.approver current) event :=
    answers.names trace mark seen found member
  have same : call.approver current = call.approver approval := by
    cases executes with
    | resume => rfl
    | resumeExternal | completeExternalCall => exact identity
  rw [same] at named
  constructor
  · intro attributed
    exact attributed.unique named evidence
  · intro identical
    rw [identical]
    exact named

/-- A mail is held, and `decider` approves it. -/
private def approvedBy (decider : String) : World :=
  Demo.start.afterAll (Demo.site Demo.clock)
    [(Demo.process .approvalRequired (Demo.dollars 3) (Demo.dollars 2) none,
        .handleCall (Demo.call "act_1") Demo.request "" ""),
      (Demo.process .approvalRequired (Demo.dollars 3) (Demo.dollars 2) none,
        .decide "apr_" true decider "fine" none)]

/-- Then it is sent for `caller`. -/
private def sentFor (decider caller : String) : World :=
  (approvedBy decider).after (Demo.site Demo.clock)
    (Demo.process .approvalRequired (Demo.dollars 3) (Demo.dollars 2) none)
    (.resume "apr_" true caller "fine" none)

/-- Alice approves, Bob resumes, and the record of the execution names Bob. -/
theorem resumed_by_another :
    Reachable (Demo.site Demo.clock) (sentFor "alice" "bob") ∧
      ∃ approval, (sentFor "alice" "bob").disk.approvals.lookup "apr_" = some approval ∧
        approval.decidedBy = some "alice" ∧
        ∃ record ∈ (sentFor "alice" "bob").disk.records, record.actionId = approval.actionId ∧
          record.resultStatus = .succeeded ∧ record.approvedBy = some "bob" := by
  constructor
  · exact .call ((Reachable.fresh (Demo.start_fresh _)).afterAll _) _ _
  · have shown : ((sentFor "alice" "bob").disk.approvals.lookup "apr_").any (fun approval =>
        approval.decidedBy == some "alice" && (sentFor "alice" "bob").disk.records.any fun record =>
          record.actionId == approval.actionId && record.resultStatus == .succeeded &&
            record.approvedBy == some "bob") = true := by decide +kernel
    obtain ⟨approval, found, shown⟩ := (Option.any_eq_true _ _).1 shown
    obtain ⟨decider, recorded⟩ := Bool.and_eq_true_iff.1 shown
    obtain ⟨record, member, matching⟩ := List.any_eq_true.1 recorded
    simp only [Bool.and_eq_true, beq_iff_eq] at matching decider
    exact ⟨approval, found, decider, record, member, matching.1.1, matching.1.2, matching.2⟩

private def claims : Event → Bool
  | .claiming approvalId _ _ => approvalId == "apr_"
  | _ => false

private def appends : Event → Bool
  | .wrote before after => after.records.dropLast == before.records && !after.records.isEmpty
  | _ => false

private theorem evidences_of_appends {event : Event} (appended : appends event = true) :
    Evidences event := by
  cases event with
  | wrote before after =>
    simp only [appends, Bool.and_eq_true, beq_iff_eq, Bool.not_eq_true', List.isEmpty_eq_false_iff]
      at appended
    obtain ⟨same, nonempty⟩ := appended
    refine .inl ⟨after.records.getLast nonempty, ?_⟩
    rw [← same, List.dropLast_concat_getLast]
  | _ => cases appended

private def approves : Event → Bool
  | .wrote _ after => (after.approvals.lookup "apr_").any fun approval =>
      approval.status == .approved && approval.decidedBy == some "alice"
  | _ => false

/-- The general theorem at an approval that one operator approves and resumes. -/
theorem resumed_by_approver :
    ∃ event ∈ (sentFor "alice" "alice").trace, Evidences event ∧ Attributes (some "alice") event := by
  have reachable : Reachable (Demo.site Demo.clock) (approvedBy "alice") :=
    (Reachable.fresh (Demo.start_fresh _)).afterAll _
  -- where the execution claims the approval, and what it appends then
  have shown : (match ((sentFor "alice" "alice").trace.drop
      (approvedBy "alice").trace.length).dropWhile (fun event => !claims event) with
      | start :: late => claims start && late.any appends
      | [] => false) = true := by decide +kernel
  have approved : (approvedBy "alice").trace.any approves = true := by decide +kernel
  unfold sentFor at shown ⊢
  generalize approvedBy "alice" = w at reachable shown approved ⊢
  generalize Demo.process .approvalRequired (Demo.dollars 3) (Demo.dollars 2) none = process at shown ⊢
  generalize sent : w.after (Demo.site Demo.clock) process (.resume "apr_" true "alice" "fine" none) =
    t at shown ⊢
  obtain ⟨event, earlier, approved⟩ := List.any_eq_true.1 approved
  have executes : Executes "apr_" (.resume "apr_" true "alice" "fine" none)
    (.claiming "apr_" 0 w.disk) := .resume "alice" "fine" none 0 w.disk
  obtain ⟨_, -, -, answers⟩ := executes.answers (Demo.site Demo.clock) w process
  rw [sent] at answers
  obtain ⟨rest, extends_⟩ := answers.extends_
  rw [extends_, List.drop_left] at shown
  have cut := List.takeWhile_append_dropWhile (p := fun event => !claims event) (l := rest)
  generalize rest.dropWhile (fun event => !claims event) = tail at shown cut
  cases tail with
  | nil => cases shown
  | cons start late =>
    obtain ⟨claimed, appended⟩ := Bool.and_eq_true_iff.1 shown
    obtain ⟨found, member, appended⟩ := List.any_eq_true.1 appended
    cases start with
    | claiming approvalId now disk =>
      obtain rfl : approvalId = "apr_" := by simpa [claims] using claimed
      cases event with
      | wrote before after =>
        obtain ⟨approval, held, decided⟩ := (Option.any_eq_true _ _).1 approved
        simp only [Bool.and_eq_true, beq_iff_eq] at decided
        have trace : t.trace = w.trace ++ rest.takeWhile (fun event => !claims event) ++
            .claiming "apr_" now disk :: late := by
          rw [extends_, List.append_assoc, cut]
        rw [← sent] at trace
        have attributed := (execution_attributed_iff reachable process
          (.resume "alice" "fine" none now disk) trace (List.mem_append_left _ earlier) held
          decided.1 member (evidences_of_appends appended)).2 decided.2
        rw [decided.2] at attributed
        exact ⟨found, by rw [← sent, trace]; simp [member], evidences_of_appends appended, attributed⟩
      | _ => cases approved
    | _ => cases claimed

end DefiantHarness
