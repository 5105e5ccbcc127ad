import DefiantHarness.HookExecutions
import DefiantHarness.SingleCompletion

/-! What the hook gate correlates: the life of an entry, the completions that events report, and when
an event that is repeated is answered as before. -/
namespace DefiantHarness

open Foundation Proc

/-- What becomes of the entry of a tool use id. -/
inductive EntryMoves : Option HookExecution → Option HookExecution → Prop where
  | kept (entry : Option HookExecution) : EntryMoves entry entry
  | authorized (new : HookExecution) (status : new.status = .authorized) :
      EntryMoves none (some new)
  | completed (old : HookExecution) (status : old.status = .authorized) (recordId : String)
      (completedAt : Timestamp) :
      EntryMoves (some old) (some { old with status := .completed recordId completedAt })
  | replaced (old new : HookExecution) (completed : old.status ≠ .authorized)
      (status : new.status = .authorized) (key : new.executionKey = old.executionKey) :
      EntryMoves (some old) (some new)

/-- An event reports on the entry of its tool use id: of the same call of the same tool. -/
structure ReportsOn (site : HookSite) (gate : CopilotHookGate) (executions : HookExecutions)
    (event : Json) (fields : List (String × Json)) (tool : ToolFields) (entry : HookExecution) :
    Prop where
  snapshot : HookEvent.snapshot site event = .ok fields
  read : HookEvent.toolFields site fields = .ok tool
  native : gate.classify tool.nativeName ≠ "proxied_mcp"
  found : executions.lookup tool.toolUseId = some entry
  key : entry.executionKey = gate.executionKey site fields tool
  name : entry.nativeToolName = tool.nativeName

def Correlates (site : HookSite) (gate : CopilotHookGate) (executions : HookExecutions)
    (event : Json) (entry : HookExecution) : Prop :=
  ∃ fields tool, ReportsOn site gate executions event fields tool entry

/-- The event that a call handles reports this completion of an authorized call. -/
def ReportedBy (site : HookSite) (h : HookWorld) (call : HookCall) (record : EvidenceRecord) : Prop :=
  ∃ gate event entry, call = .postToolUse gate event ∧
    Correlates site gate h.executions event entry ∧ entry.status = .authorized ∧
    Harness.Reports site.toDeployment entry.action record

/-- A completion that was there before the call, or that the event of the call reports. -/
def AccountedFor (site : HookSite) (h : HookWorld) (call : HookCall) (record : EvidenceRecord) :
    Prop :=
  (∃ old ∈ h.world.disk.evidence, HasOutput old ∧ old.comparable = record) ∨
    ReportedBy site h call record

theorem ReportsOn.of_correlated {site : HookSite} {gate : CopilotHookGate} {data : HookExecutions}
    {event : Json} {fields : List (String × Json)} {tool : ToolFields} {entry : HookExecution}
    (snapshot : HookEvent.snapshot site event = .ok fields)
    (read : HookEvent.toolFields site fields = .ok tool)
    (native : gate.classify tool.nativeName ≠ "proxied_mcp")
    (ok : gate.correlated site data fields tool = .ok entry) :
    ReportsOn site gate data event fields tool entry := by
  simp only [CopilotHookGate.correlated, orRefuse_bind_ok_iff, refuseIf_bind_ok_iff, pure_ok_iff,
    not_not] at ok
  obtain ⟨_, found, key, name, rfl⟩ := ok
  exact ⟨snapshot, read, native, found, key, name⟩

theorem HookExecutionStore.built_ok {site : HookSite} {execution other : HookExecution}
    (ok : HookExecutionStore.built site execution = .ok other) : other = execution := by
  simp only [HookExecutionStore.built, refuseIf_bind_ok_iff] at ok
  obtain ⟨-, ok⟩ := ok
  obtain ⟨_, -, same⟩ := bind_ok_iff.1 ok
  exact pure_ok_iff.1 same

/-! ### Steps of the gate -/

/-- Every entry is under its id, and a completed one names a sealed completion of its action. -/
structure Marked (h : HookWorld) : Prop where
  keyed : ∀ id entry, h.executions.lookup id = some entry → entry.toolUseId = id
  named : ∀ id entry recordId completedAt, h.executions.lookup id = some entry →
    entry.status = .completed recordId completedAt →
    Harness.Completed entry.action.actionId recordId h.world

/-- What a call has done so far to the state it found. -/
structure Progress (site : HookSite) (S : EvidenceRecord → Prop) (found h : HookWorld) : Prop where
  moves : Moves site.toDeployment found.world h.world
  accounted : Booked S h.world
  entries : ∀ id, EntryMoves (found.executions.lookup id) (h.executions.lookup id)
  marked : Marked h

section

variable {site : HookSite} {S : EvidenceRecord → Prop} {found h : HookWorld} {α : Type}

theorem Harness.Completed.grows {actionId recordId : String} {w t : World}
    (completed : Harness.Completed actionId recordId w)
    (grows : w.disk.records <+: t.disk.records) : Harness.Completed actionId recordId t := by
  obtain ⟨record, member, facts⟩ := completed
  exact ⟨record, grows.subset member, facts⟩

namespace Progress

/-- The world moves on, and the executions stay. -/
theorem world (progress : Progress site S found h) {t : World}
    (moves : Moves site.toDeployment h.world t) (accounted : Booked S t) :
    Progress site S found { h with world := t } where
  moves := progress.moves.trans moves
  accounted := accounted
  entries := progress.entries
  marked := {
    keyed := progress.marked.keyed
    named := fun id entry recordId completedAt held status =>
      (progress.marked.named id entry recordId completedAt held status).grows moves.records_grow }

theorem control (progress : Progress site S found h) {p : Control α} {R : α → World → Prop}
    {Q : α → World → Prop} (does : Control.Does site.toDeployment p R h.world)
    (keeps : Keeps (Booked S) p Q h.world) :
    Keeps (Progress site S found) (HookControl.control p)
      (fun a t => Q a t.world ∧ t.executions = h.executions) h := by
  have ends := Ends.and does.ends keeps
  unfold Keeps Ends HookControl.control
  unfold Ends at ends
  rcases run : p h.world with ⟨answer, t⟩
  rw [run] at ends
  cases answer with
  | ok a => exact ⟨progress.world ends.1.1 ends.2.1, ends.2.2, rfl⟩
  | error e => exact progress.world ends.1 ends.2

theorem attempt (progress : Progress site S found h) {p : Control α} {R : α → World → Prop}
    {Q : α → World → Prop} (does : Control.Does site.toDeployment p R h.world)
    (keeps : Keeps (Booked S) p Q h.world) :
    Keeps (Progress site S found) (HookControl.attempt p)
      (fun _ t => t.executions = h.executions) h := by
  have ends := Ends.and does.ends keeps
  unfold Keeps Ends HookControl.attempt
  unfold Ends at ends
  rcases run : p h.world with ⟨answer, t⟩
  rw [run] at ends
  cases answer with
  | ok a => exact ⟨progress.world ends.1.1 ends.2.1, rfl⟩
  | error e =>
    have moved := progress.world ends.1 ends.2
    by_cases refused : e.kind = .approval
    · simp only [refused, if_true]
      exact ⟨moved, trivial⟩
    · simp only [refused, if_false]
      exact moved

theorem now (progress : Progress site S found h) :
    Keeps (Progress site S found) (HookControl.control (Control.now site.toDeployment))
      (fun _ t => t.executions = h.executions ∧ t.world.disk = h.world.disk) h := by
  have ticks : Control.Does site.toDeployment (Control.now site.toDeployment) (fun _ _ => True)
      h.world := ⟨Control.ends_now.2 ⟨.single (.tick _), trivial⟩⟩
  have keeps : Keeps (Booked S) (Control.now site.toDeployment)
      (fun _ t => t.disk = h.world.disk) h.world :=
    Control.ends_now.2 ⟨⟨progress.accounted.firsts, progress.accounted.within⟩, rfl⟩
  exact (progress.control ticks keeps).mono fun _ _ _ same => same.symm

theorem newId (progress : Progress site S found h) {kind : String} :
    Keeps (Progress site S found) (HookControl.control (Control.newId site.toDeployment kind))
      (fun _ t => t.executions = h.executions) h := by
  have draws : Control.Does site.toDeployment (Control.newId site.toDeployment kind)
      (fun _ _ => True) h.world := ⟨Control.ends_newId.2 ⟨.single (.draw _), trivial⟩⟩
  have keeps : Keeps (Booked S) (Control.newId site.toDeployment kind) (fun _ _ => True) h.world :=
    Control.ends_newId.2 ⟨⟨progress.accounted.firsts, progress.accounted.within⟩, trivial⟩
  exact (progress.control draws keeps).mono fun _ _ _ same => same.2

theorem lifted (progress : Progress site S found h) {x : Except HarnessError α} :
    Keeps (Progress site S found) (HookControl.control (Proc.lift x))
      (fun _ t => t.executions = h.executions) h := by
  have stays : Control.Does site.toDeployment (Proc.lift x) (fun _ _ => True) h.world :=
    Control.does_lift fun _ _ => trivial
  have keeps : Keeps (Booked S) (Proc.lift x) (fun _ _ => True) h.world :=
    keeps_lift progress.accounted fun _ _ => trivial
  exact (progress.control stays keeps).mono fun _ _ _ same => same.2

/-- The executions are saved with one entry set. -/
theorem save (progress : Progress site S found h)
    {id : String} {entry : HookExecution} (keyed : entry.toolUseId = id)
    (moves : EntryMoves (found.executions.lookup id) (some entry))
    (named : ∀ recordId completedAt, entry.status = .completed recordId completedAt →
      Harness.Completed entry.action.actionId recordId h.world) :
    Keeps (Progress site S found) (HookExecutionStore.writeAll site (h.executions.set id entry))
      (fun _ t => t.executions.lookup id = some entry) h := by
  apply keeps_lift_bind progress
  intro _ _
  unfold Keeps Ends HookControl.save
  -- the process may stop before the write, and then nothing has changed
  by_cases stops : h.world.writesLeft = some 0
  · simp only [stops, if_true]
    exact progress
  · simp only [stops, if_false]
    have step : Step site.toDeployment h.world { h.world with
        writesLeft := h.world.writesLeft.map (· - 1) } := .enter _ _ _
    have looked : ∀ other stored, (h.executions.set id entry).sorted.lookup other = some stored →
        (other = id ∧ stored = entry) ∨ other ≠ id ∧ h.executions.lookup other = some stored := by
      intro other stored held
      rw [Dict.lookup_sorted] at held
      by_cases here : other = id
      · subst here
        rw [Dict.lookup_set, Option.some.injEq] at held
        exact .inl ⟨rfl, held.symm⟩
      · rw [Dict.lookup_set_ne here] at held
        exact .inr ⟨here, held⟩
    refine ⟨⟨progress.moves.tail step, ⟨progress.accounted.firsts, progress.accounted.within⟩, ?_,
      ?_, ?_⟩, by simp⟩
    · intro other
      rw [Dict.lookup_sorted]
      by_cases here : other = id
      · subst here
        rw [Dict.lookup_set]
        exact moves
      · rw [Dict.lookup_set_ne here]
        exact progress.entries other
    · intro other stored held
      rcases looked other stored held with ⟨rfl, rfl⟩ | ⟨-, old⟩
      · exact keyed
      · exact progress.marked.keyed other stored old
    · intro other stored recordId completedAt held status
      rcases looked other stored held with ⟨rfl, rfl⟩ | ⟨-, old⟩
      · exact named recordId completedAt status
      · exact progress.marked.named other stored recordId completedAt old status

theorem executions_bind {β : Type} {f : HookExecutions → HookControl β} {R : β → HookWorld → Prop}
    (rest : Keeps (Progress site S found) (f h.executions) R h) :
    Keeps (Progress site S found) (HookControl.executions >>= f) R h := by
  unfold Keeps
  rw [ends_bind]
  exact (ends_of_ok (p := HookControl.executions) rfl).2 rest

/-- A new authorization takes no place, or that of a completed one of the same call. -/
theorem create (progress : Progress site S found h) (same : h.executions = found.executions)
    {execution : HookExecution} (authorized : execution.status = .authorized) :
    Keeps (Progress site S found) (HookExecutionStore.create site execution) (fun _ _ => True) h := by
  have written (moves : EntryMoves (found.executions.lookup execution.toolUseId) (some execution)) :
      Keeps (Progress site S found) (do
        HookExecutionStore.writeAll site (h.executions.set execution.toolUseId execution)
        pure execution) (fun _ _ => True) h := by
    apply (progress.save rfl moves (by simp [authorized])).bind
    intro _ t later _
    exact keeps_pure later trivial
  apply executions_bind
  rw [same]
  split
  -- a repeated authorization returns the stored one; a completed call's identifier may be taken again
  next prior held =>
    apply keeps_ite
    · intro _
      exact keeps_pure progress trivial
    · intro _
      apply keeps_ite
      · rintro ⟨completed, key⟩
        rw [← same]
        apply written
        rw [held]
        exact .replaced prior execution completed authorized key.symm
      · intro _
        exact keeps_raise progress
  next free =>
    rw [← same]
    apply written
    rw [free]
    exact .authorized execution authorized

theorem rememberAuthorization (progress : Progress site S found h)
    (same : h.executions = found.executions) {fields : ToolFields} {executionKey : String}
    {outcome : ActionOutcome} {request : HarnessRequest} :
    Keeps (Progress site S found) (CopilotHookGate.rememberAuthorization site fields executionKey
      outcome request) (fun _ _ => True) h := by
  apply progress.now.bind
  intro clock t later kept
  apply keeps_lift_bind later
  intro execution built
  obtain rfl := HookExecutionStore.built_ok built
  apply (later.create (kept.1.trans same) rfl).bind
  intro _ u last _
  exact keeps_pure last trivial

/-- The entry of a sealed completion is marked. -/
theorem markCompleted (progress : Progress site S found h) (same : h.executions = found.executions)
    {entry : HookExecution} {recordId : String}
    (held : found.executions.lookup entry.toolUseId = some entry)
    (authorized : entry.status = .authorized)
    (completed : Harness.Completed entry.action.actionId recordId h.world) :
    Keeps (Progress site S found) (HookExecutionStore.markCompleted site entry.toolUseId recordId)
      (fun _ t => ∃ completedAt, t.executions.lookup entry.toolUseId =
        some { entry with status := .completed recordId completedAt }) h := by
  apply keeps_lift_bind progress
  intro _ _
  apply executions_bind
  simp only [same, held, authorized]
  apply progress.now.bind
  intro clock t later kept
  apply keeps_lift_bind later
  intro execution built
  obtain rfl := HookExecutionStore.built_ok built
  -- reading the clock leaves the world's records alone
  have named : Harness.Completed entry.action.actionId recordId t.world := by
    unfold Harness.Completed
    rw [kept.2]
    exact completed
  have keyed : ({ entry with status := .completed recordId (clock 0) } : HookExecution).toolUseId =
      entry.toolUseId := rfl
  rw [← kept.1.trans same]
  apply (later.save keyed ?_ ?_).bind
  · intro _ u last stored
    exact keeps_pure last ⟨_, stored⟩
  · rw [held]
    exact .completed entry authorized recordId (clock 0)
  · rintro _ _ ⟨rfl, -⟩
    exact named

/-! ### The gate -/

variable {gate : CopilotHookGate} {event : Json} {fields : List (String × Json)} {tool : ToolFields}
  {entry : HookExecution}

/-- A reported result is sealed, and then the entry is marked with its record. -/
theorem postAuthorized (progress : Progress site S found h) (tracked : Tracked site.toDeployment h.world)
    (same : h.executions = found.executions)
    (held : found.executions.lookup entry.toolUseId = some entry)
    (authorized : entry.status = .authorized)
    (ended : ∀ record, S record → Harness.externallyTerminal record.resultStatus = true)
    (within : ∀ record, Harness.Reports site.toDeployment entry.action record → S record.comparable) :
    Keeps (Progress site S found) (gate.postAuthorized site fields entry) (fun answer t =>
      ∃ recordId completedAt, answer = .sealed_ recordId ∧
        t.executions.lookup entry.toolUseId =
          some { entry with status := .completed recordId completedAt }) h := by
  have digest : ∀ output, site.digests.output output ≠ "" := by
    intro output empty
    have formed := site.output_sha256 output
    rw [empty] at formed
    exact absurd formed (by decide)
  apply (progress.control (Harness.completeExternalCall_does tracked.named)
    (Harness.completeExternalCall_accounted progress.accounted ended digest within)).bind
  rintro outcome t later ⟨completed, kept⟩
  apply (later.markCompleted (kept.trans same) held authorized completed).bind
  rintro _ u last ⟨completedAt, marked⟩
  exact keeps_pure last ⟨outcome.evidenceRecordId, completedAt, rfl, marked⟩

/-- The answer names the record of a completed entry, or of the entry that is completed now. -/
def Answered (site : HookSite) (gate : CopilotHookGate) (found : HookWorld) (event : Json)
    (answer : PostOutput) (h : HookWorld) : Prop :=
  ∃ entry recordId completedAt, answer = .sealed_ recordId ∧
    Correlates site gate found.executions event entry ∧
    (entry.status = .completed recordId completedAt ∨ entry.status = .authorized ∧
      h.executions.lookup entry.toolUseId =
        some { entry with status := .completed recordId completedAt })

theorem postToolUse (progress : Progress site S found h) (tracked : Tracked site.toDeployment h.world)
    (same : h.executions = found.executions)
    (ended : ∀ record, S record → Harness.externallyTerminal record.resultStatus = true)
    (within : ∀ entry record, Correlates site gate found.executions event entry →
      entry.status = .authorized → Harness.Reports site.toDeployment entry.action record →
        S record.comparable) :
    Keeps (Progress site S found) (gate.postToolUse site event)
      (fun answer t => answer = .delegated ∨ Answered site gate found event answer t) h := by
  apply keeps_lift_bind progress
  intro fields snapshot
  apply keeps_lift_bind progress
  intro tool read
  apply keeps_ite
  · intro _
    exact keeps_pure progress (.inl rfl)
  · intro native
    apply executions_bind
    apply keeps_lift_bind progress
    intro entry correlated
    rw [same] at correlated
    have reports := ReportsOn.of_correlated snapshot read native correlated
    have keyed := progress.marked.keyed _ entry (same ▸ reports.found)
    -- a completed entry is answered from the store, an authorized one is completed now
    split
    next recordId completedAt completed =>
      exact keeps_pure progress (.inr ⟨entry, recordId, completedAt, rfl, ⟨fields, tool, reports⟩,
        .inl completed⟩)
    next authorized =>
      apply (progress.postAuthorized tracked same (keyed ▸ reports.found) authorized ended
        fun record => within entry record ⟨fields, tool, reports⟩ authorized).mono
      rintro answer t _ ⟨recordId, completedAt, rfl, marked⟩
      exact .inr ⟨entry, recordId, completedAt, rfl, ⟨fields, tool, reports⟩, .inr ⟨authorized, marked⟩⟩

theorem findExisting (progress : Progress site S found h) {executionKey : String} :
    Keeps (Progress site S found) (gate.findExisting site executionKey)
      (fun _ t => t.executions = h.executions) h := by
  have looks : Control.Does site.toDeployment Control.disk (fun _ _ => True) h.world :=
    ⟨Control.ends_disk.2 ⟨.refl, trivial⟩⟩
  have keeps : Keeps (Booked S) Control.disk (fun _ _ => True) h.world :=
    Control.ends_disk.2 ⟨progress.accounted, trivial⟩
  apply (progress.control looks keeps).bind
  rintro disk t later ⟨-, same⟩
  apply later.now.bind
  rintro clock u last ⟨kept, -⟩
  exact keeps_pure last (kept.trans same)

theorem preExisting (progress : Progress site S found h) (tracked : Tracked site.toDeployment h.world)
    (same : h.executions = found.executions) {approval : PendingApproval} {executionKey : String} :
    Keeps (Progress site S found) (gate.preExisting site fields approval tool executionKey)
      (fun _ _ => True) h := by
  apply keeps_ite
  · intro _
    exact keeps_pure progress trivial
  · intro _
    apply keeps_ite
    · intro _
      exact keeps_pure progress trivial
    · intro _
      apply keeps_ite
      · intro _
        exact keeps_pure progress trivial
      · intro _
        have drafts : PlainDrafts site.toDeployment (gate.harnessFor fields) (Booked S)
          (Bookable S) := Booked.plain
        apply (progress.attempt (Harness.resumeExternal_does tracked)
          (drafts.resumeExternal progress.accounted)).bind
        intro answer t later kept
        split
        next => exact keeps_pure later trivial
        next outcome =>
          apply keeps_ite
          · intro _
            apply later.lifted.bind
            intro request u last still
            apply (last.rememberAuthorization ((still.trans kept).trans same)).bind
            intro _ v done _
            exact keeps_pure done trivial
          · intro _
            exact keeps_pure later trivial

private theorem sealing (progress : Progress site S found h) (kind : String)
    (build : String → Clock → HarnessRequest) :
    Keeps (Progress site S found) (do
      let requestId ← HookControl.control (Control.newId site.toDeployment kind)
      let clock ← HookControl.control (Control.now site.toDeployment)
      HookControl.control (Proc.lift ((build requestId clock).sealContract site.limits.contract))
      pure (build requestId clock)) (fun _ t => t.executions = h.executions) h := by
  apply progress.newId.bind
  intro requestId t later drawn
  apply later.now.bind
  rintro clock u last ⟨ticked, -⟩
  apply last.lifted.bind
  intro _ v done same
  exact keeps_pure done ((same.trans ticked).trans drawn)

theorem newRequest (progress : Progress site S found h) :
    Keeps (Progress site S found) (gate.newRequest site tool)
      (fun _ t => t.executions = h.executions) h := by
  unfold CopilotHookGate.newRequest
  exact progress.sealing "req" _

theorem preNew (progress : Progress site S found h) (tracked : Tracked site.toDeployment found.world)
    (same : h.executions = found.executions) {executionKey : String} :
    Keeps (Progress site S found) (gate.preNew site fields tool executionKey)
      (fun _ _ => True) h := by
  unfold CopilotHookGate.preNew
  apply progress.newRequest.bind
  intro request t later made
  have drafts : PlainDrafts site.toDeployment (gate.harnessFor fields) (Booked S)
    (Bookable S) := Booked.plain
  apply (later.control (Harness.propose_does (tracked.moves later.moves))
    (drafts.propose drafts.authorizes later.accounted)).bind
  rintro outcome u last ⟨-, kept⟩
  apply keeps_ite
  · intro _
    apply (last.rememberAuthorization ((kept.trans made).trans same)).bind
    intro _ v done _
    exact keeps_pure done trivial
  · intro _
    exact keeps_pure last trivial

theorem preToolUse (progress : Progress site S found h) (tracked : Tracked site.toDeployment found.world)
    (same : h.executions = found.executions) :
    Keeps (Progress site S found) (gate.preToolUse site event) (fun _ _ => True) h := by
  unfold CopilotHookGate.preToolUse
  apply keeps_lift_bind progress
  intro fields _
  apply keeps_lift_bind progress
  intro tool _
  apply progress.findExisting.bind
  intro existing t later kept
  split
  next => exact later.preExisting (tracked.moves later.moves) (kept.trans same)
  next => exact later.preNew tracked (kept.trans same)

/-- Decisions, recoveries and expiries leave the executions alone. -/
theorem tend (progress : Progress site S found h) (tracked : Tracked site.toDeployment h.world)
    {harness : Harness} {call : Call} (tending : Tending call) :
    Keeps (Progress site S found) (HookControl.control (call.run site.toDeployment harness))
      (fun _ _ => True) h := by
  have drafts : PlainDrafts site.toDeployment harness (Booked S) (Bookable S) := Booked.plain
  have keeps : Keeps (Booked S) (call.run site.toDeployment harness) (fun _ _ => True) h.world := by
    have accounted := progress.accounted
    -- none of these calls carries an action out, so none can complete one
    cases tending with
    | decide =>
      apply Keeps.bind (drafts.decideApproval accounted ⟨rfl, rfl⟩)
      intro _ t later _
      exact keeps_pure later trivial
    | reject =>
      apply Keeps.bind (drafts.resume (fun agreed => absurd agreed Bool.false_ne_true) accounted)
      intro _ t later _
      exact keeps_pure later trivial
    | recoverOperation =>
      apply Keeps.bind (drafts.rules.recoverOperation accounted)
      intro _ t later _
      exact keeps_pure later trivial
    | reconcileExpiredApprovals =>
      apply Keeps.bind (drafts.made.reconcileExpiredApprovals drafts.rules accounted fun _ _ result => result)
      intro _ t later _
      exact keeps_pure later trivial
  exact (progress.control (call.run_does tracked) keeps).mono fun _ _ _ _ => trivial

end Progress

end

/-! ### Runs -/

/-- What holds in every state that sequences of hook calls reach. -/
structure Sound (site : HookSite) (h : HookWorld) : Prop where
  tracked : Tracked site.toDeployment h.world
  firsts : ∀ event ∈ h.world.trace, AddsFirst event
  once : CompletedOnce h.world.disk
  ended : ∀ record ∈ h.world.disk.evidence, HasOutput record →
    Harness.externallyTerminal record.resultStatus = true
  marked : Marked h

namespace Sound

variable {site : HookSite} {h : HookWorld} {process : HookProcess} {call : HookCall}

theorem fresh {w : World} (start : w.Fresh site.toDeployment) : Sound site ⟨w, ∅⟩ where
  tracked := .fresh start
  firsts := by simp [start.trace]
  once := .fresh start
  ended := by simp [Disk.evidence, start.records, start.journal]
  marked := ⟨by simp, by simp⟩

/-- Every completion that is accounted for is terminal for an external runtime. -/
theorem ended_of_accounted (sound : Sound site h) {record : EvidenceRecord}
    (accounted : AccountedFor site h call record) :
    Harness.externallyTerminal record.resultStatus = true := by
  rcases accounted with ⟨old, member, completes, rfl⟩ | ⟨_, _, _, -, -, -, reports⟩
  · exact sound.ended old member completes
  · rw [reports.status]
    rfl

theorem entered (sound : Sound site h) (process : HookProcess) (call : HookCall) :
    Progress site (AccountedFor site h call) h (h.entered process) where
  moves := .single (.enter _ _ _)
  accounted := ⟨sound.firsts, fun record member completes => .inl ⟨record, member, completes, rfl⟩⟩
  entries _ := .kept _
  marked := ⟨sound.marked.keyed, sound.marked.named⟩

theorem posted (sound : Sound site h) (process : HookProcess) (gate : CopilotHookGate)
    (event : Json) :
    Keeps (Progress site (AccountedFor site h (.postToolUse gate event)) h)
      (gate.postToolUse site event)
      (fun answer t => answer = .delegated ∨ Progress.Answered site gate h event answer t)
      (h.entered process) := by
  have progress := sound.entered process (.postToolUse gate event)
  apply progress.postToolUse (sound.tracked.moves progress.moves) rfl
  · intro record accounted
    exact sound.ended_of_accounted accounted
  · intro entry record correlates authorized reports
    exact .inr ⟨gate, event, entry, rfl, correlates, authorized,
      ⟨reports.own, reports.hash, reports.status⟩⟩

theorem run (sound : Sound site h) (process : HookProcess) (call : HookCall) :
    Keeps (Progress site (AccountedFor site h call) h) (call.run site) (fun _ _ => True)
      (h.entered process) := by
  have progress := sound.entered process call
  have tracked := sound.tracked.moves progress.moves
  cases call with
  | preToolUse gate event =>
    apply (progress.preToolUse sound.tracked rfl).bind
    intro _ t later _
    exact keeps_pure later trivial
  | postToolUse gate event =>
    apply (sound.posted process gate event).bind
    intro _ t later _
    exact keeps_pure later trivial
  | tend harness call tending => exact progress.tend tracked tending

theorem progress (sound : Sound site h) (process : HookProcess) (call : HookCall) :
    Progress site (AccountedFor site h call) h (h.after site process call) := by
  have ends := sound.run process call
  unfold Keeps Ends at ends
  unfold HookWorld.after
  split at ends
  next run => rw [run]; exact ends.1
  next run => rw [run]; exact ends

theorem after (sound : Sound site h) (process : HookProcess) (call : HookCall) :
    Sound site (h.after site process call) where
  tracked := sound.tracked.moves (sound.progress process call).moves
  firsts := (sound.progress process call).accounted.firsts
  once := sound.once.moves (sound.progress process call).moves
    (sound.progress process call).accounted.firsts
  ended record member completes := by
    have ended := sound.ended_of_accounted
      ((sound.progress process call).accounted.within record member completes)
    exact ended
  marked := (sound.progress process call).marked

end Sound

theorem HookReachable.sound {site : HookSite} {h : HookWorld} (reached : HookReachable site h) :
    Sound site h := by
  induction reached with
  | fresh start => exact .fresh start
  | call _ process call ih => exact ih.after process call

/-! ### Repeated events -/

section

variable {site : HookSite} {h : HookWorld} {gate : CopilotHookGate} {event : Json}
  {entry : HookExecution} {process : HookProcess}

private theorem lift_ok_bind {σ ε α β : Type} {a : α} {f : α → Proc σ ε β} :
    (Proc.lift (.ok a) >>= f) = f a := rfl

private theorem control_bind_error {α β : Type} {p : Control α} {f : α → HookControl β}
    {e : HarnessError} {t : World} (run : p h.world = (.error e, t)) :
    ((HookControl.control p >>= f) h).1 = .error (.harness e) := by
  change (Proc.andThen (HookControl.control p) f h).1 = _
  unfold Proc.andThen HookControl.control
  rw [run]

/-- An event that reports on an entry is answered by its status. -/
theorem ReportsOn.postToolUse_eq {fields : List (String × Json)} {tool : ToolFields}
    (reports : ReportsOn site gate h.executions event fields tool entry) :
    gate.postToolUse site event h = (match entry.status with
      | .completed recordId _ => (pure (.sealed_ recordId) : HookControl PostOutput)
      | .authorized => gate.postAuthorized site fields entry) h := by
  have correlated : gate.correlated site h.executions fields tool = .ok entry := by
    simp only [CopilotHookGate.correlated, orRefuse_bind_ok_iff, refuseIf_bind_ok_iff, pure_ok_iff,
      not_not]
    exact ⟨entry, reports.found, reports.key, reports.name, rfl⟩
  unfold CopilotHookGate.postToolUse
  rw [reports.snapshot, lift_ok_bind, reports.read, lift_ok_bind, if_neg reports.native]
  change ((Proc.lift (gate.correlated site h.executions fields tool) >>= fun execution =>
    match execution.status with
    | .completed recordId _ => (pure (.sealed_ recordId) : HookControl PostOutput)
    | .authorized => gate.postAuthorized site fields execution) : HookControl PostOutput) h = _
  rw [correlated, lift_ok_bind]

/-- While the entry of a sealed completion is not marked, its event is refused. -/
theorem Sound.refused (sound : Sound site h) (correlates : Correlates site gate h.executions event entry)
    (authorized : entry.status = .authorized) {record : EvidenceRecord}
    (member : record ∈ h.world.disk.records) (completes : HasOutput record)
    (own : record.actionId = entry.action.actionId) :
    ∃ e, (h.posted site process gate event).1 = .error e := by
  obtain ⟨fields, tool, reports⟩ := correlates
  have found : ReportsOn site gate (h.entered process).executions event fields tool entry := reports
  have ended := sound.ended record (mem_evidence.2 (.inl member)) completes
  -- the log holds a terminal record of this action already
  have refuses : Keeps (Kept record) ((gate.harnessFor fields).completeExternalCall site.toDeployment
      entry.action entry.request entry.decision (HookEvent.toolResponse fields) entry.approvalId)
      (fun _ _ => False) (h.entered process).world :=
    Harness.completeExternalCall_refuses member own ended
  rw [HookWorld.posted, found.postToolUse_eq, authorized]
  unfold Keeps at refuses
  generalize ran : (gate.harnessFor fields).completeExternalCall site.toDeployment entry.action
    entry.request entry.decision (HookEvent.toolResponse fields) entry.approvalId = p at refuses
  rcases run : p (h.entered process).world with ⟨answer, t⟩
  unfold Ends at refuses
  rw [run] at refuses
  cases answer with
  | ok outcome => exact refuses.2.elim
  | error e =>
    dsimp only
    unfold CopilotHookGate.postAuthorized
    rw [ran]
    exact ⟨.harness e, control_bind_error run⟩

/-- A repeated event is answered with a record and changes nothing exactly when its entry is marked
with the record. -/
theorem Sound.posted_eq_iff (sound : Sound site h) {recordId : String} :
    h.posted site process gate event = (.ok (.sealed_ recordId), h.entered process) ↔
      ∃ entry completedAt, Correlates site gate h.executions event entry ∧
        entry.status = .completed recordId completedAt := by
  constructor
  · intro answered
    rcases (sound.posted process gate event).ok answered with ⟨-, delegated | reported⟩
    · cases delegated
    · obtain ⟨entry, _, completedAt, same, correlates, completed | ⟨authorized, marked⟩⟩ := reported
      · cases same
        exact ⟨entry, completedAt, correlates, completed⟩
      · -- the mark would have changed the executions
        obtain ⟨fields, tool, reports⟩ := correlates
        have keyed := sound.marked.keyed _ entry reports.found
        have held : h.executions.lookup entry.toolUseId = some entry := keyed ▸ reports.found
        rw [show (h.entered process).executions = h.executions from rfl, held] at marked
        have status := congrArg HookExecution.status (Option.some.inj marked)
        rw [authorized] at status
        cases status
  · rintro ⟨entry, completedAt, ⟨fields, tool, reports⟩, completed⟩
    have found : ReportsOn site gate (h.entered process).executions event fields tool entry := reports
    rw [HookWorld.posted, found.postToolUse_eq, completed]
    rfl

end

/-- The correlation store and retries, over sequences of events and operator calls with stops between any
two writes. An entry only advances, or makes way for the same call once it is completed; an action gets
at most one completion, from an event of its own call; a mark names the sealed completion. A repeated
event returns a record and changes nothing exactly when its entry is marked with that record; before the
mark, the sealed completion stands in its way. -/
theorem hook_retry_iff (site : HookSite) {h : HookWorld} (reached : HookReachable site h) :
    (∀ process call id,
      EntryMoves (h.executions.lookup id) ((h.after site process call).executions.lookup id)) ∧
    (∀ actionId, (completions h.world.disk.records actionId).length ≤ 1) ∧
    (∀ process call, ∀ record ∈ (h.after site process call).world.disk.evidence, HasOutput record →
      AccountedFor site h call record.comparable) ∧
    (∀ id entry recordId completedAt, h.executions.lookup id = some entry →
      entry.status = .completed recordId completedAt →
        ∃ record ∈ completions h.world.disk.records entry.action.actionId,
          record.recordId = recordId) ∧
    (∀ process gate event recordId,
      h.posted site process gate event = (.ok (.sealed_ recordId), h.entered process) ↔
        ∃ entry completedAt, Correlates site gate h.executions event entry ∧
          entry.status = .completed recordId completedAt) ∧
    ∀ process gate event entry, Correlates site gate h.executions event entry →
      entry.status = .authorized → completions h.world.disk.records entry.action.actionId ≠ [] →
        ∃ e, (h.posted site process gate event).1 = .error e := by
  have sound := reached.sound
  refine ⟨?_, sound.once.completions_le_one, ?_, ?_, ?_, ?_⟩
  · intro process call id
    exact (sound.progress process call).entries id
  · intro process call record member completes
    exact (sound.progress process call).accounted.within record member completes
  · intro id entry recordId completedAt held status
    obtain ⟨record, member, named, own, completes⟩ :=
      sound.marked.named id entry recordId completedAt held status
    exact ⟨record, mem_completions.2 ⟨member, completes, own⟩, named⟩
  · intro process gate event recordId
    exact sound.posted_eq_iff
  · intro process gate event entry correlates authorized sealed_
    obtain ⟨record, found⟩ := List.exists_mem_of_ne_nil _ sealed_
    obtain ⟨member, completes, own⟩ := mem_completions.1 found
    exact sound.refused correlates authorized member completes own

/-! ### A stop before the mark -/

namespace HookDemo

def site : HookSite where
  toDeployment := Demo.site Demo.clock
  hash _ := "sha256:call"
  readArguments _ := none
  event _ := true
  execution _ := true
  document _ := true
  output_sha256 _ := Demo.digest_sha256 2

/-- A gate that lets mail pass. -/
def gate : CopilotHookGate where
  harness := Demo.harness .allow .zero .zero
  workspaceRoot := "/work"
  userId := "user"
  workspaceId := "work"
  mappingVersion := "1"
  executionOwner := "agent_hook"
  serverName := ""
  registeredNames := []
  classify name := name
  targetFor _ _ := "inbox"

/-- Both hooks are told of the same call. -/
def event : Json :=
  .obj [("tool_name", .str "mail"), ("tool_use_id", .str "call_1"), ("tool_input", .obj [])]

def process (writesLeft : Option Nat) : HookProcess := ⟨[], writesLeft⟩

def authorized : HookWorld :=
  HookWorld.after site ⟨Demo.start, ∅⟩ (process none) (.preToolUse gate event)

/-- What the event after the tool leaves when its process makes this many writes. -/
def reported (writesLeft : Option Nat) : HookWorld :=
  authorized.after site (process writesLeft) (.postToolUse gate event)

theorem marked : ((reported none).executions.lookup "call_1").isSome ∧
    ∀ entry ∈ (reported none).executions.lookup "call_1", entry.executionKey = "sha256:call" ∧
      entry.nativeToolName = "mail" ∧ entry.status = .completed "evd_aa" (Demo.clock 16 0) := by
  decide +kernel

theorem reached (writesLeft : Option Nat) : HookReachable site (reported writesLeft) :=
  .call (.call (.fresh (Demo.start_fresh Demo.clock)) _ _) _ _

end HookDemo

open HookDemo

/-- An event whose process ran to its end is answered again. -/
theorem hook_retry_iff_completed :
    (reported none).posted HookDemo.site (process none) gate event =
      (.ok (.sealed_ "evd_aa"), (reported none).entered (process none)) := by
  refine ((hook_retry_iff HookDemo.site (reached none)).2.2.2.2.1 _ _ _ _).2 ?_
  obtain ⟨entry, held⟩ := Option.isSome_iff_exists.1 marked.1
  have facts := marked.2 entry (Option.mem_def.2 held)
  exact ⟨entry, _, ⟨_, _, rfl, rfl, by decide, held, facts.1, facts.2.1⟩, facts.2.2⟩

/-- The process stops between the completion, which is sealed, and its mark: the event is refused when
it is repeated. -/
theorem hook_retry_refused :
    HookReachable HookDemo.site (reported (some 4)) ∧
      (∃ record ∈ (reported (some 4)).world.disk.records, HasOutput record ∧
        record ∉ authorized.world.disk.records) ∧
      ((reported (some 4)).posted HookDemo.site (process none) gate event).1 =
        .error (.harness (toolError "external action already has a terminal outcome")) := by
  refine ⟨reached _, ?_, ?_⟩
  · decide +kernel
  · decide +kernel

end DefiantHarness
