import DefiantHarness.McpProxy
import DefiantHarness.OutcomeEvidence

/-! What a proxy sends for the lines of its client: what reaches the upstream as received, and what
every other line is answered with. -/
namespace DefiantHarness

open Foundation Proc
open TrustState (record textData)

/-! ### Rules for serving -/

section Rules

variable {site : ProxySite} {α : Type} {s : ProxyWorld}

theorem ends_control {p : Control α} {Q : α → ProxyWorld → Prop}
    {E : HarnessError → ProxyWorld → Prop} :
    (Serving.control p).Ends Q E s ↔ p.Ends (fun a w => Q a { s with world := w })
      (fun e w => E e { s with world := w }) s.world := by
  unfold Ends Serving.control
  rcases p s.world with ⟨answer, w⟩
  cases answer <;> rfl

theorem ends_send {transmission : Transmission} {Q : Unit → ProxyWorld → Prop}
    {E : HarnessError → ProxyWorld → Prop}
    (sent : Q () { s with sent := s.sent ++ [transmission] })
    (raised : ∀ e, E e { s with sent := s.sent ++ [transmission] }) :
    (Serving.send site transmission).Ends Q E s := by
  unfold Ends Serving.send
  cases site.fails s.sent transmission with
  | none => exact sent
  | some e => exact raised e

theorem ends_attempt {p : Serving α} {Q : Except String α → ProxyWorld → Prop}
    {E : HarnessError → ProxyWorld → Prop}
    (ends : p.Ends (fun a t => Q (.ok a) t)
      (fun e t => (e.kind = .approval → Q (.error e.message) t) ∧ E e t) s) :
    (Serving.attempt p).Ends Q E s := by
  unfold Ends Serving.attempt
  unfold Ends at ends
  rcases run : p s with ⟨answer, t⟩
  rw [run] at ends
  cases answer with
  | ok a => exact ends
  | error e =>
    dsimp only
    by_cases approval : e.kind = .approval
    · rw [if_pos approval]
      exact ends.1 approval
    · rw [if_neg approval]
      exact ends.2

end Rules

/-! ### Fields -/

theorem fieldAt_setField {name : String} {x : Data} {fields : List Field} {k : Points} :
    fieldAt k (setField name x fields) =
      if k = .ofString name then some x else fieldAt k fields := by
  unfold setField
  split
  -- a field that is there is replaced in place
  next present =>
    unfold fieldAt
    rw [List.find?_map]
    have same : ((fun f : Field => f.1 == k) ∘ fun f =>
        if f.1 = .ofString name then (f.1, x) else f) = fun f => f.1 == k := by
      funext f
      by_cases own : f.1 = .ofString name <;> simp [own]
    rw [same]
    split
    next here =>
      subst here
      obtain ⟨y, found⟩ := Option.isSome_iff_exists.1 present
      obtain ⟨f, first, -⟩ := Option.map_eq_some_iff.1 found
      have own : f.1 = .ofString name := by simpa using List.find?_some first
      rw [first]
      simp [own]
    next other =>
      cases first : fields.find? (·.1 == k) with
      | none => rfl
      | some f =>
        have own : f.1 = k := by simpa using List.find?_some first
        simp [own, other]
  -- a new one goes last
  next absent =>
    unfold fieldAt
    rw [List.find?_append]
    split
    next here =>
      subst here
      have none : fields.find? (·.1 == .ofString name) = none := by
        rw [Bool.not_eq_true, hasField, Option.isSome_eq_false_iff, Option.isNone_iff_eq_none, fieldAt,
          Option.map_eq_none_iff] at absent
        exact absent
      rw [none]
      simp [record]
    next other =>
      have apart : (record [(name, x)]).find? (·.1 == k) = none := by
        simp [record, Ne.symm other]
      rw [apart, Option.or_none]

/-- The parameters that an `initialize` is forwarded with: no capabilities, the reviewed revision,
and the rest as received. -/
structure Bounded (received forwarded : List Field) : Prop where
  capabilities : fieldAt (.ofString "capabilities") forwarded = some (.obj [])
  protocolVersion : fieldAt (.ofString "protocolVersion") forwarded = some (.str mcpProtocolVersion)
  others : ∀ k, k ≠ .ofString "capabilities" → k ≠ .ofString "protocolVersion" →
    fieldAt k forwarded = fieldAt k received

theorem boundedParams_bounded (params : List Field) : Bounded params (boundedParams params) where
  capabilities := by
    rw [boundedParams, fieldAt_setField, if_neg (by decide), fieldAt_setField, if_pos rfl]
  protocolVersion := by rw [boundedParams, fieldAt_setField, if_pos rfl]
  others k capabilities version := by
    rw [boundedParams, fieldAt_setField, if_neg version, fieldAt_setField, if_neg capabilities]

/-! ### Verdicts -/

section Verdicts

variable {site : ProxySite} {proxy : McpProxy site} {line : List Char} {fields : List Field}

/-- A message in the admitted form, whose method the review allows in that form. -/
structure Permitted (proxy : McpProxy site) (fields : List Field) : Prop where
  envelope : admitsEnvelope fields = true
  allowed : proxy.dispositionOf (methodName fields) (!hasField "id" fields) = some .allow
  other : methodName fields ≠ toolsCall
  params : hasField "params" fields = true → isObject (getField "params" fields) = true

/-- The line fits, and is one strict object. -/
def Decodes (line : List Char) (fields : List Field) : Prop :=
  (line.flatMap String.utf8EncodeChar).length ≤ maxMcpMessageBytes ∧
    loadsStrictJson "client MCP message" line = .ok (.obj fields)

/-- What may reach the upstream for a line: the line itself, or its bounded `initialize`. -/
inductive Relays (proxy : McpProxy site) (line : List Char) : List Char → Prop where
  | received (fields : List Field)
      (decoded : Decodes line fields)
      (permitted : Permitted proxy fields) (plain : methodName fields ≠ initializeMethod) :
      Relays proxy line line
  | opening (fields params forwarded : List Field)
      (decoded : Decodes line fields)
      (permitted : Permitted proxy fields) (own : methodName fields = initializeMethod)
      (request : hasField "id" fields = true) (received : getField "params" fields = .obj params)
      (bounded : Bounded params forwarded) :
      Relays proxy line
        ((Data.obj (setField "params" (.obj forwarded) fields)).render .compact 0 ++ ['\n'])

theorem dispositionOf_allow {method : Points} {notification : Bool}
    (allowed : proxy.dispositionOf method notification = some .allow) : method ≠ toolsCall := by
  unfold McpProxy.dispositionOf at allowed
  split at allowed
  next policy _ => exact ((policy.disposition_checked allowed).allowed rfl).1
  next =>
    split at allowed
    next => cases allowed
    next => cases allowed

theorem dispositionOf_governed {method : Points} {notification : Bool}
    (governed : proxy.dispositionOf method notification = some .governed) :
    method = toolsCall ∧ notification = false := by
  unfold McpProxy.dispositionOf at governed
  split at governed
  next policy _ =>
    obtain ⟨own, form⟩ := (policy.disposition_checked governed).judged rfl
    refine ⟨own, ?_⟩
    cases notification with
    | false => rfl
    | true => cases form
  next =>
    split at governed
    next own => exact own
    next => cases governed

theorem judgeInitialize_forwarded {text : List Char}
    (forwarded : McpProxy.judgeInitialize fields = .forwarded text) :
    ∃ params, getField "params" fields = .obj params ∧ hasField "id" fields = true ∧
      text = boundedInitialize fields params := by
  unfold McpProxy.judgeInitialize at forwarded
  split at forwarded
  next params received =>
    split at forwarded
    next => cases forwarded
    next formed =>
      cases forwarded
      rw [not_or, Bool.not_eq_false] at formed
      exact ⟨params, received, formed.1, rfl⟩
  next => cases forwarded

theorem judgeInitialize_governed : McpProxy.judgeInitialize fields ≠ .governed := by
  unfold McpProxy.judgeInitialize
  split
  next => split <;> simp
  next => simp

theorem relays_of_judge {text : List Char}
    (decoded : Decodes line fields)
    (forwarded : proxy.judge fields line = .forwarded text) : Relays proxy line text := by
  unfold McpProxy.judge at forwarded
  split at forwarded
  next => cases forwarded
  next =>
    split at forwarded
    next => cases forwarded
    next envelope =>
      split at forwarded
      next => cases forwarded
      next allowed =>
        unfold McpProxy.judgeAllowed at forwarded
        split at forwarded
        next => cases forwarded
        next shaped =>
          -- the message has passed every refusal but the initialize request's own
          have permitted : Permitted proxy fields := by
            refine ⟨by simpa using envelope, allowed, dispositionOf_allow allowed, ?_⟩
            intro present
            by_contra other
            exact shaped ⟨present, by simpa using other⟩
          split at forwarded
          next own =>
            obtain ⟨params, received, request, rfl⟩ := judgeInitialize_forwarded forwarded
            exact .opening fields params _ decoded permitted own request received
              (boundedParams_bounded params)
          next plain =>
            cases forwarded
            exact .received fields decoded permitted plain
      next => cases forwarded
      next => cases forwarded

theorem governed_of_judge (governed : proxy.judge fields line = .governed) :
    admitsEnvelope fields = true ∧ methodName fields = toolsCall ∧ hasField "id" fields = true := by
  unfold McpProxy.judge at governed
  split at governed
  next => cases governed
  next =>
    split at governed
    next => cases governed
    next envelope =>
      split at governed
      next judged =>
        obtain ⟨own, request⟩ := dispositionOf_governed judged
        exact ⟨by simpa using envelope, own, by simpa using request⟩
      next =>
        unfold McpProxy.judgeAllowed at governed
        split at governed
        next => cases governed
        next =>
          split at governed
          next => exact absurd governed judgeInitialize_governed
          next => cases governed
      next => cases governed
      next => cases governed

end Verdicts

/-! ### Answers -/

section Answers

open Control

variable {site : ProxySite} {proxy : McpProxy site} {line : List Char} {fields : List Field}
  {s : ProxyWorld} {base : List Transmission} {α : Type}

/-- Nothing has been sent since. -/
def Unsent (base : List Transmission) (s : ProxyWorld) : Prop := s.sent = base

theorem keeps_control {p : Control α} {Q : α → ProxyWorld → Prop} (unsent : Unsent base s)
    (ends : p.Ends (fun a w => Q a { s with world := w }) (fun _ _ => True) s.world) :
    Keeps (Unsent base) (Serving.control p) Q s := by
  unfold Keeps
  rw [ends_control]
  apply ends.mono
  · exact fun a w ended => ⟨unsent, ended⟩
  · exact fun _ _ _ => unsent

theorem keeps_attempt {p : Serving α} {Q : Except String α → ProxyWorld → Prop}
    (ends : p.Ends (fun a t => Unsent base t ∧ Q (.ok a) t)
      (fun e t => Unsent base t ∧ Q (.error e.message) t) s) :
    Keeps (Unsent base) (Serving.attempt p) Q s := by
  apply ends_attempt
  apply ends.mono
  · exact fun _ _ ended => ended
  · exact fun _ _ raised => ⟨fun _ => raised, raised.1⟩

theorem ends_true {σ ε : Type} {p : Proc σ ε α} {t : σ} :
    p.Ends (fun _ _ => True) (fun _ _ => True) t := by
  rw [ends_iff]
  exact ⟨fun _ _ _ => trivial, fun _ _ _ => trivial⟩

/-- What a governed request is answered with: an error that names a malformed parameter, the outcome
of the harness with its evidence in the log, or the state of an approval that the request repeats. -/
inductive Governed (proxy : McpProxy site) (requestId : Data) (w : World) : Data → Prop where
  | malformed (message : String) : Governed proxy requestId w (rpcError requestId (-32602) message)
  | settled (outcome : ActionOutcome) (executionKey : String) (backed : outcome.Backed site.control w) :
      Governed proxy requestId w (outcomeResponse site.forms requestId outcome executionKey)
  | repeated (approval : PendingApproval) (own : approval.terms.executionOwner = proxy.executionOwner)
      (status : ResultStatus) (evidenceId executionKey detail : String) :
      Governed proxy requestId w
        (approvalResponse requestId approval.approvalId status evidenceId executionKey detail)

theorem rejectDuplicatePending_keeps {w : World} {authority : Data} {approvalId : String} :
    (proxy.rejectDuplicatePending authority approvalId).Ends
      (fun _ t => t.disk.records = w.disk.records) (fun _ _ => True) w := by
  have quiet : Keeps Settling.Anything (proxy.rejectDuplicatePending authority approvalId)
      (fun _ t => Holding w.disk.records w.disk.journal t) w := by
    apply keeps_disk_bind
    apply keeps_now_bind
    dsimp only
    have start : Holding w.disk.records w.disk.journal w.ticked := ⟨rfl, rfl⟩
    apply (keeps_each _ (fun approval t holds same =>
      (Settling.drafts site.control proxy.harness []).plain.decideApproval holds same)
      (Settling.anything _) start).bind
    intro _ t _ same
    exact keeps_pure (Settling.anything t) same
  apply Ends.mono quiet
  · exact fun _ _ ended => ended.2.1
  · exact fun _ _ _ => trivial

theorem resumeExisting_keeps {requestId : Data} {approval : PendingApproval}
    (own : approval.terms.executionOwner = proxy.executionOwner) {evidenceId executionKey : String}
    {authority : Data} (unsent : Unsent base s) :
    Keeps (Unsent base)
      (proxy.resumeExisting requestId approval evidenceId executionKey authority)
      (fun reply t => Governed proxy requestId t.world reply) s := by
  -- a failed resumption is answered with an error, so it has nothing to back
  apply Keeps.bind (Q := fun resumed t => ∀ outcome, resumed = .ok outcome →
    outcome.Backed site.control t.world)
  · apply keeps_attempt
    rw [ends_control]
    apply (Settling.backs Settling.resumes).mono
    · rintro outcome w backed
      refine ⟨unsent, ?_⟩
      rintro _ ⟨⟩
      exact backed
    · rintro _ _ -
      exact ⟨unsent, fun _ other => by cases other⟩
  · intro resumed t unsent backed
    cases resumed with
    | error message => exact keeps_pure unsent (.repeated approval own _ _ _ _)
    | ok outcome =>
      apply (keeps_control (Q := fun _ u => u.world.disk.records = t.world.disk.records) unsent
        rejectDuplicatePending_keeps).bind
      intro _ u unsent same
      refine keeps_pure unsent (.settled outcome _ ?_)
      obtain ⟨record, member, rest⟩ := backed outcome rfl
      exact ⟨record, same ▸ member, rest⟩

theorem handleExisting_keeps {requestId : Data} {approval : PendingApproval}
    (own : approval.terms.executionOwner = proxy.executionOwner) {executionKey : String}
    {authority : Data} (unsent : Unsent base s) :
    Keeps (Unsent base) (proxy.handleExisting requestId approval executionKey authority)
      (fun reply t => Governed proxy requestId t.world reply) s := by
  apply (keeps_control (Q := fun _ _ => True) unsent ends_true).bind
  intro disk t unsent _
  dsimp only
  split
  next => exact keeps_pure unsent (.repeated approval own _ _ _ _)
  next => exact keeps_pure unsent (.repeated approval own _ _ _ _)
  next => exact keeps_pure unsent (.repeated approval own _ _ _ _)
  next => exact resumeExisting_keeps own unsent

private theorem mem_foldl_later {approvals : List PendingApproval} {best : Option PendingApproval}
    {approval : PendingApproval}
    (found : approvals.foldl ApprovalStore.later best = some approval) :
    best = some approval ∨ approval ∈ approvals := by
  induction approvals generalizing best with
  | nil => exact .inl found
  | cons first rest ih =>
    rcases ih found with kept | within
    · cases best with
      | none =>
        cases kept
        exact .inr List.mem_cons_self
      | some other =>
        simp only [ApprovalStore.later] at kept
        split at kept
        next =>
          cases kept
          exact .inr List.mem_cons_self
        next => exact .inl kept
    · exact .inr (List.mem_cons_of_mem _ within)

private theorem findExecution_owner {approvals : Approvals} {owner key : String} {now : Timestamp}
    {approval : PendingApproval}
    (found : ApprovalStore.findExecution approvals owner key now = some approval) :
    approval.terms.executionOwner = owner := by
  unfold ApprovalStore.findExecution at found
  split at found
  next => cases found
  next =>
    rcases mem_foldl_later found with none | member
    · cases none
    · simp only [List.mem_filter, Bool.and_eq_true, beq_iff_eq] at member
      exact member.2.1.1

private theorem mem_firstMax {β : Type} {less : β → β → Bool} {xs : List β} {x : β}
    (found : firstMax less xs = some x) : x ∈ xs := by
  cases xs with
  | nil => cases found
  | cons first rest =>
    cases found
    have within (seen : List β) (best : β) (own : best ∈ seen) :
        rest.foldl (fun best x => if less best x then x else best) best ∈ seen ++ rest := by
      induction rest generalizing seen best with
      | nil => simpa using own
      | cons next others ih =>
        rw [List.foldl_cons, ← List.singleton_append, ← List.append_assoc]
        apply ih
        split
        next => simp
        next => exact List.mem_append_left _ own
    exact within [first] first (List.mem_singleton_self first)

private theorem existingApproval_owner {executionKey : String} {authority : Data} {w : World} :
    (proxy.existingApproval executionKey authority).Ends (fun found _ => ∀ approval ∈ found,
      approval.terms.executionOwner = proxy.executionOwner) (fun _ _ => True) w := by
  have quiet : Keeps Settling.Anything (proxy.existingApproval executionKey authority)
      (fun found _ => ∀ approval ∈ found,
        approval.terms.executionOwner = proxy.executionOwner) w := by
    apply keeps_disk_bind
    apply keeps_now_bind
    split
    next approval found =>
      refine keeps_pure (Settling.anything _) ?_
      rintro _ ⟨⟩
      exact findExecution_owner found
    next =>
      apply keeps_now_bind
      refine keeps_pure (Settling.anything _) ?_
      intro approval found
      have member := mem_firstMax found
      simp only [List.mem_filter, Bool.and_eq_true, beq_iff_eq] at member
      exact member.2.1
  exact Ends.mono quiet (fun _ _ ended => ended.2) fun _ _ _ => trivial

private theorem proposeCall_backed {requestId : Data} {name : Points} {arguments authority : Data}
    {executionKey : String} {w : World} :
    (proxy.proposeCall requestId name arguments authority executionKey).Ends
      (fun outcome t => outcome.Backed site.control t) (fun _ _ => True) w := by
  apply Settling.backs
  apply keeps_newId_bind
  apply keeps_now_bind
  exact Settling.proposes

theorem governCall_keeps {requestId : Data} {params : List Field} {name : Points} {arguments : Data}
    (unsent : Unsent base s) :
    Keeps (Unsent base) (proxy.governCall requestId params name arguments)
      (fun reply t => Governed proxy requestId t.world reply) s := by
  apply keeps_lift_bind unsent
  intro executionKey _
  apply (keeps_control (Q := fun _ _ => True) unsent ends_true).bind
  intro _ t unsent _
  apply (keeps_control (Q := fun found _ => ∀ approval ∈ found,
    approval.terms.executionOwner = proxy.executionOwner) unsent existingApproval_owner).bind
  intro existing u unsent own
  cases existing with
  | some approval => exact handleExisting_keeps (own approval rfl) unsent
  | none =>
    apply (keeps_control (Q := fun outcome v => outcome.Backed site.control v.world) unsent
      proposeCall_backed).bind
    intro outcome v unsent backed
    exact keeps_pure unsent (.settled outcome _ backed)

theorem handleToolRequest_keeps {requestId : Data}
    (request : fieldAt (.ofString "id") fields = some requestId) (unsent : Unsent base s) :
    Keeps (Unsent base) (proxy.handleToolRequest fields)
      (fun reply t => Governed proxy requestId t.world reply) s := by
  unfold McpProxy.handleToolRequest
  rw [request]
  dsimp only
  split
  next params _ =>
    split
    next =>
      split
      next => exact governCall_keeps unsent
      next => exact keeps_pure unsent (.malformed _)
    next => exact keeps_pure unsent (.malformed _)
  next => exact keeps_pure unsent (.malformed _)

/-- The evidence of a refusal stands at the end of the log, and nothing else in the log changed. -/
def RefusalRecorded (proxy : McpProxy site) (fields : List Field) (line : List Char)
    (refusal : Refusal) (recordId : String) (w t : World) : Prop :=
  ∃ eventId timestamp, t.disk.records = w.disk.records ++
    [(proxy.refusalRecord fields line refusal eventId recordId timestamp).sealed
      site.control.digests (EvidenceLog.headHash w.disk.records)]

private theorem append_last {record : EvidenceRecord} {w : World} :
    Keeps Settling.Anything (EvidenceStore.append site.control record) (fun stored t =>
      stored.recordId = record.recordId ∧ t.disk.records = w.disk.records ++
        [record.sealed site.control.digests (EvidenceLog.headHash w.disk.records)]) w := by
  have rules := Settling.rules site.control []
  apply keeps_lift_bind (Settling.anything w)
  intro _ _
  apply keeps_disk_bind
  apply keeps_lift_bind (Settling.anything w)
  intro _ _
  apply (rules.reconcileHead (Settling.anything w) ⟨rfl, rfl⟩).bind
  rintro _ t - ⟨log, -⟩
  apply keeps_disk_bind
  apply keeps_lift_bind (Settling.anything t)
  intro _ _
  have written := rules.appended t record (EvidenceLog.headHash t.disk.records)
    (Settling.anything t) trivial
  apply (keeps_save (Q := fun _ u => Holding (t.disk.records ++ [record.sealed site.control.digests
    (EvidenceLog.headHash t.disk.records)]) t.disk.journal u) (Settling.anything t)
    written ⟨rfl, rfl⟩).bind
  intro _ u _ same
  apply (rules.advanceHead (Settling.anything u) same _).bind
  rintro _ v - ⟨last, -⟩
  refine keeps_pure (Settling.anything v) ⟨rfl, ?_⟩
  rw [last, log]

private theorem recordRefusal_steps {Q : EvidenceRecord → World → Prop} {refusal : Refusal} {w : World}
    (appended : ∀ eventId recordId timestamp v, v.disk = w.disk →
      Keeps Settling.Anything (EvidenceStore.append site.control
        (proxy.refusalRecord fields line refusal eventId recordId timestamp)) Q v) :
    (proxy.recordRefusal fields line refusal).Ends Q (fun _ _ => True) w := by
  unfold McpProxy.recordRefusal
  rw [ends_bind, ends_newId, ends_bind, ends_newId, ends_bind, ends_now, ends_bind, ends_lift]
  refine ⟨fun _ _ => ?_, fun _ _ => trivial⟩
  exact Ends.mono (appended _ _ _ _ rfl) (fun _ _ ended => ended.2) fun _ _ _ => trivial

theorem recordRefusal_ends {refusal : Refusal} {w : World} :
    (proxy.recordRefusal fields line refusal).Ends (fun stored t =>
      RefusalRecorded proxy fields line refusal stored.recordId w t) (fun _ _ => True) w := by
  apply recordRefusal_steps
  intro eventId recordId timestamp v same
  apply append_last.mono
  rintro stored t - ⟨id, log⟩
  rw [same] at log
  refine ⟨eventId, timestamp, ?_⟩
  rw [id]
  exact log

/-- How one line is answered: what is sent for it, in the world that is left. -/
inductive Answered (proxy : McpProxy site) (line : List Char) (w t : World) :
    List Transmission → Prop where
  | unreadable (code : Int) (message : String) (same : t = w)
      (undecoded : ∀ fields, ¬ Decodes line fields) :
      Answered proxy line w t [.emitted (rpcError .null code message)]
  | refused (fields : List Field) (refusal : Refusal) (recordId : String)
      (decoded : Decodes line fields) (judged : proxy.judge fields line = .refused refusal true)
      (recorded : RefusalRecorded proxy fields line refusal recordId w t) :
      Answered proxy line w t [.emitted (McpProxy.refusalReply fields refusal recordId)]
  | dropped (fields : List Field) (refusal : Refusal) (recordId : String)
      (decoded : Decodes line fields) (judged : proxy.judge fields line = .refused refusal false)
      (recorded : RefusalRecorded proxy fields line refusal recordId w t) :
      Answered proxy line w t []
  | governed (fields : List Field) (requestId reply : Data) (decoded : Decodes line fields)
      (own : methodName fields = toolsCall)
      (request : fieldAt (.ofString "id") fields = some requestId)
      (valid : validRequestId requestId = true) (answered : Governed proxy requestId t reply) :
      Answered proxy line w t [.emitted reply]
  | relayed (text : List Char) (relays : Relays proxy line text) (same : t = w) :
      Answered proxy line w t [.forwarded text]

/-- From `s` on, the line has been answered. -/
def AnsweredFrom (proxy : McpProxy site) (line : List Char) (s t : ProxyWorld) : Prop :=
  ∃ new, t.sent = s.sent ++ new ∧ Answered proxy line s.world t.world new

theorem send_answers {u : ProxyWorld} {transmission : Transmission} (unsent : s.sent = u.sent)
    (answered : Answered proxy line u.world s.world [transmission]) :
    (Serving.send site transmission).Ends (fun _ t => AnsweredFrom proxy line u t)
      (fun _ t => t.sent = u.sent ∨ AnsweredFrom proxy line u t) s := by
  have sent : AnsweredFrom proxy line u { s with sent := s.sent ++ [transmission] } :=
    ⟨_, by rw [unsent], answered⟩
  exact ends_send sent fun _ => .inr sent

theorem refuseMethod_answers {refusal : Refusal} {response : Bool} (decoded : Decodes line fields)
    (judged : proxy.judge fields line = .refused refusal response) :
    (proxy.refuseMethod fields line refusal response).Ends
      (fun _ t => AnsweredFrom proxy line s t)
      (fun _ t => t.sent = s.sent ∨ AnsweredFrom proxy line s t) s := by
  unfold McpProxy.refuseMethod
  rw [ends_bind, ends_control]
  have ends := @recordRefusal_ends site proxy line fields refusal s.world
  refine Ends.mono ends (fun stored w recorded => ?_) fun _ _ _ => .inl rfl
  cases response with
  | true =>
    rw [if_pos rfl]
    have answered := Answered.refused fields refusal stored.recordId decoded judged recorded
    exact send_answers rfl answered
  | false =>
    have answered := Answered.dropped fields refusal stored.recordId decoded judged recorded
    rw [if_neg (by simp), ends_pure]
    exact ⟨[], by simp, answered⟩

theorem acceptMessage_answers (decoded : Decodes line fields) :
    (proxy.acceptMessage fields line).Ends (fun _ t => AnsweredFrom proxy line s t)
      (fun _ t => t.sent = s.sent ∨ AnsweredFrom proxy line s t) s := by
  unfold McpProxy.acceptMessage
  split
  next refusal response judged => exact refuseMethod_answers decoded judged
  -- a governed tool call has an id, and the id is valid
  next judged =>
    obtain ⟨envelope, own, present⟩ := governed_of_judge judged
    obtain ⟨requestId, request⟩ := Option.isSome_iff_exists.1 present
    have valid : validRequestId requestId = true := by
      simp only [admitsEnvelope, Bool.and_eq_true, request] at envelope
      exact envelope.2
    rw [ends_bind]
    have unsent : Unsent s.sent s := rfl
    have handled := @handleToolRequest_keeps site proxy fields s s.sent requestId request unsent
    refine Ends.mono handled ?_ ?_
    · rintro reply t ⟨unsent, governed⟩
      have answered : Answered proxy line s.world t.world [.emitted reply] :=
        .governed fields requestId reply decoded own request valid governed
      exact send_answers unsent answered
    · exact fun _ _ unsent => .inl unsent
  next text judged =>
    have answered : Answered proxy line s.world s.world [.forwarded text] :=
      .relayed text (relays_of_judge decoded judged) rfl
    exact send_answers rfl answered

/-- However a line ends, it has been answered in one of the ways that there are, or else it raised and
nothing was sent for it. -/
theorem acceptLine_answers (proxy : McpProxy site) (line : List Char) (s : ProxyWorld) :
    (proxy.acceptLine line).Ends (fun _ t => AnsweredFrom proxy line s t)
      (fun _ t => t.sent = s.sent ∨ AnsweredFrom proxy line s t) s := by
  -- the three unreadable lines are answered alike, under the null id
  have unreadable (code : Int) (message : String) (undecoded : ∀ fields, ¬ Decodes line fields) :
      (Serving.emitMessage site (rpcError .null code message)).Ends
        (fun _ t => AnsweredFrom proxy line s t)
        (fun _ t => t.sent = s.sent ∨ AnsweredFrom proxy line s t) s := by
    have answered : Answered proxy line s.world s.world [.emitted (rpcError .null code message)] :=
      .unreadable code message rfl undecoded
    exact send_answers rfl answered
  unfold McpProxy.acceptLine
  split
  next long => exact unreadable _ _ fun _ decoded => absurd decoded.1 (by omega)
  next fits =>
    split
    next unread =>
      apply unreadable
      rintro fields ⟨-, decoded⟩
      rw [unread] at decoded
      cases decoded
    next fields decoded => exact acceptMessage_answers ⟨by omega, decoded⟩
    next other decoded =>
      apply unreadable
      rintro fields ⟨-, object⟩
      rw [decoded] at object
      cases object
      exact other fields rfl

end Answers

/-! ### Main results -/

section

variable {site : ProxySite} {proxy : McpProxy site} {line : List Char} {s t : ProxyWorld}

private theorem AnsweredFrom.forwarded (answered : AnsweredFrom proxy line s t) {text : List Char}
    (sent : .forwarded text ∈ t.sent) : .forwarded text ∈ s.sent ∨ Relays proxy line text := by
  obtain ⟨new, same, answer⟩ := answered
  rw [same, List.mem_append] at sent
  rcases sent with old | own
  · exact .inl old
  · right
    cases answer with
    | relayed other relays =>
      obtain rfl : text = other := by simpa using own
      exact relays
    | dropped => cases own
    | unreadable => simp at own
    | refused => simp at own
    | governed => simp at own

/-- What was forwarded by the time that `lines` are still to come. -/
private def Sanctioned (proxy : McpProxy site) (all : List (List Char)) (s t : ProxyWorld) : Prop :=
  ∀ text, .forwarded text ∈ t.sent → .forwarded text ∈ s.sent ∨ ∃ line ∈ all, Relays proxy line text

private theorem Sanctioned.accept {all : List (List Char)} {u : ProxyWorld}
    (sanctioned : Sanctioned proxy all s t) (member : line ∈ all)
    (answered : u.sent = t.sent ∨ AnsweredFrom proxy line t u) : Sanctioned proxy all s u := by
  intro text sent
  rcases answered with same | answered
  · rw [same] at sent
    exact sanctioned text sent
  · rcases answered.forwarded sent with old | relays
    · exact sanctioned text old
    · exact .inr ⟨line, member, relays⟩

end

/-- Over any lines, everything that a proxy forwards is a line whose method the review allows in that
form, or its bounded `initialize`; no `tools/call` is among it. -/
theorem forwarded_lines_permitted {site : ProxySite} (proxy : McpProxy site)
    (lines : List (List Char)) (s : ProxyWorld) :
    (proxy.serve lines).Ends
      (fun _ t => ∀ text, .forwarded text ∈ t.sent →
        .forwarded text ∈ s.sent ∨ ∃ line ∈ lines, Relays proxy line text)
      (fun _ t => ∀ text, .forwarded text ∈ t.sent →
        .forwarded text ∈ s.sent ∨ ∃ line ∈ lines, Relays proxy line text) s := by
  have rounds := @ends_each ProxyWorld HarnessError Unit (List Char) proxy.acceptLine
    (fun rest t => rest ⊆ lines ∧ Sanctioned proxy lines s t) (fun _ t => Sanctioned proxy lines s t)
    (fun line rest t holds => by
      obtain ⟨within, sanctioned⟩ := holds
      have member : line ∈ lines := within List.mem_cons_self
      apply Ends.mono (acceptLine_answers proxy line t)
      · intro _ u answered
        exact ⟨fun _ later => within (List.mem_cons_of_mem _ later),
          sanctioned.accept member (.inr answered)⟩
      · exact fun _ u answered => sanctioned.accept member answered)
    (lines.filter fun line => line.any (!isSpace ·)) s
    ⟨List.filter_subset_self _, fun _ old => .inl old⟩
  unfold McpProxy.serve
  rw [ends_bind]
  exact Ends.mono rounds (fun _ _ done => ends_pure.2 done.2) fun _ _ raised => raised

/-! ### Replies -/

section Replies

variable {site : ProxySite} {proxy : McpProxy site} {line : List Char} {fields : List Field}
  {s t : ProxyWorld}

/-- A response of the client, which nobody asked it for. -/
def ClientResponse (fields : List Field) : Prop :=
  hasField "method" fields = false ∧ (hasField "result" fields = true ∨ hasField "error" fields = true)

instance (fields : List Field) : Decidable (ClientResponse fields) :=
  inferInstanceAs (Decidable (_ ∧ _))

/-- The id under which a message is answered; notifications and responses are not answered. -/
def answerId (fields : List Field) : Option Data :=
  if ClientResponse fields then none
  else (fieldAt (.ofString "id") fields).map fun id => if validRequestId id then id else .null

/-- Exactly one reply was sent under the id that the message is answered under, or none. -/
def RepliedOnce (fields : List Field) (before after : List Transmission) : Prop :=
  match answerId fields with
  | none => after = before
  | some id => ∃ body, after = before ++ [.emitted (.obj body)] ∧
    fieldAt (.ofString "id") body = some id

private theorem judgeInitialize_refused {refusal : Refusal} {response : Bool}
    (refused : McpProxy.judgeInitialize fields = .refused refusal response) :
    response = hasField "id" fields := by
  unfold McpProxy.judgeInitialize at refused
  split at refused
  next =>
    split at refused
    next =>
      cases refused
      rfl
    next => cases refused
  next =>
    cases refused
    rfl

private theorem response_of_judge {refusal : Refusal} {response : Bool}
    (judged : proxy.judge fields line = .refused refusal response) :
    response = (!decide (ClientResponse fields) && hasField "id" fields) := by
  unfold McpProxy.judge at judged
  split at judged
  next client =>
    cases judged
    simp [show ClientResponse fields from client]
  next other =>
    -- past the first test every refusal answers exactly the messages that have an id
    rw [decide_eq_false (show ¬ ClientResponse fields from other), Bool.not_false, Bool.true_and]
    split at judged
    next =>
      cases judged
      rfl
    next =>
      split at judged
      next => cases judged
      next =>
        unfold McpProxy.judgeAllowed at judged
        split at judged
        next =>
          cases judged
          rfl
        next =>
          split at judged
          next => exact judgeInitialize_refused judged
          next => cases judged
      next =>
        cases judged
        rfl
      next =>
        cases judged
        rfl

private theorem fieldAt_id (version requestId : Data) (rest : List (String × Data)) :
    fieldAt (.ofString "id") (record (("jsonrpc", version) :: ("id", requestId) :: rest)) =
      some requestId := by
  have apart : Points.ofString "jsonrpc" ≠ Points.ofString "id" := by decide
  simp [fieldAt, record, apart]

/-- Whatever governed requests are answered with carries their id. -/
theorem Governed.reply_id {requestId reply : Data} {w : World}
    (governed : Governed proxy requestId w reply) :
    ∃ body, reply = .obj body ∧ fieldAt (.ofString "id") body = some requestId := by
  cases governed with
  | malformed message => exact ⟨_, rfl, fieldAt_id _ _ _⟩
  | settled outcome executionKey backed =>
    unfold outcomeResponse
    dsimp only
    split
    next => exact ⟨_, rfl, fieldAt_id _ _ _⟩
    next =>
      split
      next => exact ⟨_, rfl, fieldAt_id _ _ _⟩
      next => exact ⟨_, rfl, fieldAt_id _ _ _⟩
  | repeated => exact ⟨_, rfl, fieldAt_id _ _ _⟩

private theorem refusalReply_id {refusal : Refusal} {recordId : String} {requestId : Data}
    (request : fieldAt (.ofString "id") fields = some requestId) :
    ∃ body, McpProxy.refusalReply fields refusal recordId = .obj body ∧
      fieldAt (.ofString "id") body =
        some (if validRequestId requestId then requestId else .null) := by
  refine ⟨_, rfl, ?_⟩
  have own : getField "id" fields = requestId := by rw [getField, request, Option.getD_some]
  rw [← own]
  exact fieldAt_id _ _ _

private theorem Decodes.unique {others : List Field} (decoded : Decodes line fields)
    (also : Decodes line others) : others = fields := by
  have same := decoded.2.symm.trans also.2
  cases same
  rfl

private theorem AnsweredFrom.replied (answered : AnsweredFrom proxy line s t)
    (decoded : Decodes line fields) :
    (∃ text, t.sent = s.sent ++ [.forwarded text]) ∨ RepliedOnce fields s.sent t.sent := by
  obtain ⟨new, sent, answer⟩ := answered
  unfold RepliedOnce answerId
  cases answer with
  | unreadable _ _ _ undecoded => exact absurd decoded (undecoded fields)
  | refused others refusal recordId also judged =>
    obtain rfl := decoded.unique also
    have response := response_of_judge judged
    simp only [Bool.true_eq, Bool.and_eq_true, Bool.not_eq_true', decide_eq_false_iff_not] at response
    obtain ⟨requestId, request⟩ := Option.isSome_iff_exists.1 response.2
    obtain ⟨body, shape, id⟩ := @refusalReply_id others refusal recordId requestId request
    right
    rw [if_neg response.1, request]
    exact ⟨body, by rw [sent, shape], id⟩
  -- a refused notification or response gets no reply, and its id asks for none
  | dropped others refusal recordId also judged =>
    obtain rfl := decoded.unique also
    right
    have response := response_of_judge judged
    split
    next => simpa using sent
    next id answered =>
      split at answered
      next => cases answered
      next other =>
        have present : hasField "id" others = true := by
          obtain ⟨x, found, -⟩ := Option.map_eq_some_iff.1 answered
          simp [hasField, found]
        simp [other, present] at response
  | governed others requestId reply also own request valid governed =>
    obtain rfl := decoded.unique also
    -- a client's response has no method, and this message has one
    have other : ¬ ClientResponse others := by
      rintro ⟨absent, -⟩
      have none : getField "method" others = .null := by
        rw [hasField, Option.isSome_eq_false_iff, Option.isNone_iff_eq_none] at absent
        rw [getField, absent, Option.getD_none]
      rw [methodName, none] at own
      cases own
    obtain ⟨body, rfl, id⟩ := governed.reply_id
    right
    rw [if_neg other, request, Option.map_some, if_pos valid]
    exact ⟨body, sent, id⟩
  | relayed text relays => exact .inl ⟨text, sent⟩

end Replies

/-- A line that does not raise is answered in one of the ways that there are. A refusal is in the log
before its reply, which names it. One message gets at most one answer: it is passed on, or its request
is replied to once under its id, or, when it asks for no reply, nothing is sent. A line that raises
sent no more than that. -/
theorem line_answered_once {site : ProxySite} (proxy : McpProxy site) (line : List Char)
    (s : ProxyWorld) :
    (proxy.acceptLine line).Ends
      (fun _ t => AnsweredFrom proxy line s t ∧ ∀ fields, Decodes line fields →
        (∃ text, t.sent = s.sent ++ [.forwarded text]) ∨ RepliedOnce fields s.sent t.sent)
      (fun _ t => t.sent = s.sent ∨ AnsweredFrom proxy line s t) s := by
  apply Ends.mono (acceptLine_answers proxy line s)
  · intro _ t answered
    exact ⟨answered, fun fields decoded => answered.replied decoded⟩
  · exact fun _ _ raised => raised

end DefiantHarness
