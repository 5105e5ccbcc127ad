import DefiantHarness.McpSession

/-! Private identifiers stay inside the session. -/
namespace DefiantHarness
namespace UpstreamSession

open Foundation Function

variable {s t : UpstreamSession}

/-! ### Every interleaving -/

/-- Queues, the reader and callers hold replies to their own identifiers, and a call that has a reply
does not wait any more. -/
structure Delivers (s : UpstreamSession) : Prop where
  queued : ∀ id x, s.queue id = some (.message x) → replyId x = some id
  putting : ∀ id x, s.reader = .putting id x → replyId x = some id
  delivered : ∀ p ∈ s.delivered, ∀ x, p.2 = .message x → replyId x = some p.1
  answered : ∀ p ∈ s.delivered, s.call p.1 = some (.leaving true) ∨ s.call p.1 = some .left
  once : (s.delivered.map (·.1)).Nodup

theorem route_putting {line : List Char} {x y : Data} {id : Points}
    (routed : s.route line x = .putting id y) : y = x ∧ replyId x = some id ∧ s.pending id = true := by
  unfold route at routed
  split at routed
  next own named =>
    split at routed
    next held =>
      obtain ⟨rfl, rfl⟩ := ReaderPhase.putting.inj routed
      exact ⟨rfl, named, held⟩
    · split at routed <;> cases routed
  · cases routed

theorem route_discarding {line : List Char} {x : Data} {id : Points}
    (routed : s.route line x = .discarding id) : replyId x = some id := by
  unfold route at routed
  split at routed
  next own named =>
    split at routed
    · cases routed
    · split at routed
      · obtain rfl := ReaderPhase.discarding.inj routed
        exact named
      · cases routed
  · cases routed

theorem route_emitting {line line' : List Char} {x : Data} (routed : s.route line x = .emitting line') :
    line' = line ∧ ∀ id, replyId x = some id → s.pending id = false ∧ s.privateIds id = false := by
  unfold route at routed
  split at routed
  next own named =>
    split at routed
    · cases routed
    next absent =>
      split at routed
      · cases routed
      next foreign =>
        refine ⟨(ReaderPhase.emitting.inj routed).symm, fun id same => ?_⟩
        obtain rfl := Option.some.inj (named.symm.trans same)
        exact ⟨by simpa using absent, by simpa using foreign⟩
  next unnamed =>
    refine ⟨(ReaderPhase.emitting.inj routed).symm, fun id same => ?_⟩
    rw [unnamed] at same
    cases same

/-- Answered calls stay answered when another call moves on. -/
private theorem answered_update {id : Points} {phase : CallPhase}
    (answered : ∀ p ∈ s.delivered, s.call p.1 = some (.leaving true) ∨ s.call p.1 = some .left)
    (other : ∀ p ∈ s.delivered, p.1 = id → phase = .left) :
    ∀ p ∈ s.delivered, update s.call id (some phase) p.1 = some (.leaving true) ∨
      update s.call id (some phase) p.1 = some .left := by
  intro p member
  by_cases same : p.1 = id
  · rw [same, update_self, other p member same]
    exact .inr rfl
  · rw [update_of_ne same]
    exact answered p member

private theorem queued_of_emptied {queue : Points → Option Reply} {id other : Points} {reply : Reply}
    (queued : update queue id none other = some reply) : queue other = some reply := by
  by_cases same : other = id
  · subst same
    simp at queued
  · rwa [update_of_ne same] at queued

theorem Delivers.step (held : Delivers s) (step : Step s t) : Delivers t := by
  -- a call that still waits has been answered nowhere
  have unanswered {id : Points} {phase : Option CallPhase} (now : s.call id = phase)
      (waits : phase ≠ some (.leaving true) ∧ phase ≠ some .left) : ∀ p ∈ s.delivered, p.1 ≠ id := by
    rintro p member rfl
    rcases held.answered p member with leaving | left
    · exact waits.1 (now.symm.trans leaving)
    · exact waits.2 (now.symm.trans left)
  cases step with
  | issue id own fresh =>
    have others := unanswered fresh ⟨by simp, by simp⟩
    exact { held with
      queued := fun other x queued => held.queued other x (queued_of_emptied queued)
      answered := answered_update held.answered fun p member same => absurd same (others p member) }
  | receive id reply waiting own =>
    have others := unanswered waiting ⟨by simp, by simp⟩
    refine ⟨fun other x queued => held.queued other x (queued_of_emptied queued), held.putting, ?_, ?_, ?_⟩
    · rw [List.forall_mem_append, List.forall_mem_singleton]
      refine ⟨held.delivered, fun x message => held.queued id x ?_⟩
      rw [own, ← message]
    · intro p member
      dsimp only at member ⊢
      rcases List.mem_append.1 member with old | new
      · rw [update_of_ne (others p old)]
        exact held.answered p old
      · obtain rfl := List.mem_singleton.1 new
        rw [update_self]
        exact .inl rfl
    · rw [List.map_append, List.map_singleton, ← List.concat_eq_append]
      apply held.once.concat
      intro known
      obtain ⟨p, member, same⟩ := List.mem_map.1 known
      exact others p member same
  | giveUp id waiting =>
    have others := unanswered waiting ⟨by simp, by simp⟩
    exact { held with
      answered := answered_update held.answered fun p member same => absurd same (others p member) }
  | leave id completed leaving =>
    exact { held with answered := answered_update held.answered fun _ _ _ => rfl }
  | read line x reading parsed =>
    refine { held with putting := fun id y routed => ?_ }
    obtain ⟨rfl, named, -⟩ := route_putting routed
    exact named
  -- the reply goes into the queue that its own id names
  | put id x putting empty =>
    refine { held with queued := fun other y queued => ?_, putting := by simp }
    dsimp only at queued
    by_cases same : other = id
    · subst same
      rw [update_self, Option.some.injEq, Reply.message.injEq] at queued
      subst queued
      exact held.putting other x putting
    · rw [update_of_ne same] at queued
      exact held.queued other y queued
  | discard id discarding => exact { held with putting := by simp }
  | emit line emitting => exact { held with putting := by simp }
  | fail message reading =>
    refine { held with queued := fun id x queued => ?_, putting := by simp }
    dsimp only at queued
    split at queued
    · cases queued
    · exact held.queued id x queued
  | stop reading => exact { held with putting := by simp }

theorem delivers_reached (reached : Reached s) : Delivers s := by
  induction reached with
  | refl => exact ⟨by simp [start], by simp [start], by simp [start], by simp [start], .nil⟩
  | tail _ step ih => exact ih.step step

/-! ### Orderly upstreams -/

/-- No message that was read replies to the identifier. -/
def Unheard (s : UpstreamSession) (id : Points) : Prop := ∀ y ∈ s.heard, replyId y ≠ some id

/-- The tables know only issued identifiers. -/
structure Tables (call : Points → Option CallPhase) (pending privateIds : Points → Bool) : Prop where
  pending : ∀ id, pending id = true → call id ≠ none
  privateIds : ∀ id, privateIds id = true → call id ≠ none
  named : ∀ id, call id ≠ none → isPrivate id = true

/-- An issued identifier that nobody replied to: it is in the table, its queue is empty and its call
has not completed. -/
structure Open (s : UpstreamSession) (id : Points) : Prop where
  listed : s.privateIds id = true
  empty : s.queue id = none
  running : s.call id ≠ some (.leaving true)

/-- Nothing private in a line that the client sees. -/
def Public (line : List Char) : Prop := ∃ x, loadsStrictJson label line = .ok x ∧ ¬ CarriesPrivate x

/-- While the reader lives, issued identifiers without a reply are open. The reader puts into empty
queues and shows nothing private. -/
structure Isolated (s : UpstreamSession) : Prop where
  tables : Tables s.call s.pending s.privateIds
  unheard : s.reader ≠ .ended → ∀ id, s.call id ≠ none → Unheard s id → Open s id
  putting : ∀ id x, s.reader = .putting id x → s.queue id = none ∧ ¬ Unheard s id
  discarding : ∀ id, s.reader = .discarding id → ¬ Unheard s id
  emitting : ∀ line, s.reader = .emitting line → Public line
  emitted : ∀ line ∈ s.emitted, Public line

private theorem update_ne_none {call : Points → Option CallPhase} {id other : Points} {phase : CallPhase}
    (issued : call id ≠ none) : update call id (some phase) other ≠ none ↔ call other ≠ none := by
  by_cases same : other = id
  · subst same
    simp [issued]
  · rw [update_of_ne same]

private theorem Tables.phase {call : Points → Option CallPhase} {pending privateIds : Points → Bool}
    (tables : Tables call pending privateIds) {id : Points} {phase : CallPhase} (issued : call id ≠ none) :
    Tables (update call id (some phase)) pending privateIds where
  pending other held := (update_ne_none issued).2 (tables.pending other held)
  privateIds other held := (update_ne_none issued).2 (tables.privateIds other held)
  named other known := tables.named other ((update_ne_none issued).1 known)

private theorem listed_of_removed {table : Points → Bool} {id other : Points}
    (listed : update table id false other = true) : table other = true := by
  by_cases same : other = id
  · subst same
    simp at listed
  · rwa [update_of_ne same] at listed

private theorem Tables.issue {call : Points → Option CallPhase} {pending privateIds : Points → Bool}
    (tables : Tables call pending privateIds) {id : Points} (own : isPrivate id = true) :
    Tables (update call id (some .waiting)) (update pending id true) (update privateIds id true) := by
  have known {table : Points → Bool} (before : ∀ other, table other = true → call other ≠ none)
      (other : Points) (listed : update table id true other = true) :
      update call id (some CallPhase.waiting) other ≠ none := by
    by_cases same : other = id
    · subst same
      simp
    · rw [update_of_ne same] at listed ⊢
      exact before other listed
  refine ⟨known tables.pending, known tables.privateIds, fun other issued => ?_⟩
  by_cases same : other = id
  · exact same ▸ own
  · rw [update_of_ne same] at issued
    exact tables.named other issued

/-- What the reader does next with an orderly message keeps it private. -/
private theorem Isolated.read (held : Isolated s) {line : List Char} {x : Data}
    (reading : s.reader = .reading) (parsed : loadsStrictJson label line = .ok x) (orderly : Orderly s x) :
    Isolated { s with reader := s.route line x, heard := s.heard ++ [x] } := by
  have alive : s.reader ≠ .ended := by simp [reading]
  have spoken {id : Points} (named : replyId x = some id) :
      ¬ Unheard { s with reader := s.route line x, heard := s.heard ++ [x] } id :=
    fun silent => silent x (by simp) named
  have first {id : Points} (named : replyId x = some id) (own : isPrivate id = true) : Open s id := by
    obtain ⟨other, same, issued, silent⟩ := orderly ⟨id, own, .inl named⟩
    obtain rfl := Option.some.inj (named.symm.trans same)
    exact held.unheard alive id issued silent
  refine ⟨held.tables, fun _ id issued silent => ?_, fun id y routed => ?_, fun id routed => ?_,
    fun line' routed => ?_, held.emitted⟩
  · obtain ⟨listed, empty, running⟩ :=
      held.unheard alive id issued fun y member => silent y (List.mem_append_left _ member)
    exact ⟨listed, empty, running⟩
  · obtain ⟨rfl, named, pending⟩ := route_putting routed
    exact ⟨(first named (held.tables.named id (held.tables.pending id pending))).empty, spoken named⟩
  · exact spoken (route_discarding routed)
  · obtain ⟨rfl, absent⟩ := route_emitting routed
    refine ⟨x, parsed, fun carries => ?_⟩
    -- an orderly private identifier is still in the table, so its line is not shown
    obtain ⟨id, named, issued, silent⟩ := orderly carries
    have listed := (held.unheard alive id issued silent).listed
    rw [(absent id named).2] at listed
    cases listed

theorem Isolated.step (held : Isolated s) (step : Step s t)
    (orderly : ∀ x, t.heard = s.heard ++ [x] → Orderly s x) : Isolated t := by
  cases step with
  | issue id own fresh =>
    refine ⟨held.tables.issue own, fun alive other known silent => ?_, fun other x putting => ?_,
      held.discarding, held.emitting, held.emitted⟩
    · by_cases same : other = id
      · subst same
        exact ⟨update_self .., update_self .., by simp⟩
      · dsimp only at alive known
        rw [update_of_ne same] at known
        obtain ⟨listed, empty, running⟩ := held.unheard alive other known silent
        exact ⟨(update_of_ne same _ _).trans listed, (update_of_ne same _ _).trans empty,
          fun done => running ((update_of_ne same _ _).symm.trans done)⟩
    · obtain ⟨empty, spoken⟩ := held.putting other x putting
      exact ⟨by by_cases same : other = id <;> simp [update, same, empty], spoken⟩
  | receive id reply waiting own =>
    have issued : s.call id ≠ none := by simp [waiting]
    refine ⟨held.tables.phase issued, fun alive other known silent => ?_, fun other x putting => ?_,
      held.discarding, held.emitting, held.emitted⟩
    · obtain ⟨listed, empty, running⟩ := held.unheard alive other ((update_ne_none issued).1 known) silent
      have different : other ≠ id := by
        rintro rfl
        rw [empty] at own
        cases own
      exact ⟨listed, (update_of_ne different _ _).trans empty,
        fun done => running ((update_of_ne different _ _).symm.trans done)⟩
    · obtain ⟨empty, spoken⟩ := held.putting other x putting
      exact ⟨by by_cases same : other = id <;> simp [update, same, empty], spoken⟩
  | giveUp id waiting =>
    have issued : s.call id ≠ none := by simp [waiting]
    refine ⟨held.tables.phase issued, fun alive other known silent => ?_, held.putting, held.discarding,
      held.emitting, held.emitted⟩
    obtain ⟨listed, empty, running⟩ := held.unheard alive other ((update_ne_none issued).1 known) silent
    exact ⟨listed, empty, by by_cases same : other = id <;> simp [update, same, running]⟩
  | leave id completed leaving =>
    have issued : s.call id ≠ none := by simp [leaving]
    have tables : Tables (update s.call id (some .left)) (update s.pending id false)
        (if completed then update s.privateIds id false else s.privateIds) := by
      obtain ⟨pending, privateIds, named⟩ := held.tables.phase issued
      refine ⟨fun other listed => pending other (listed_of_removed listed), fun other listed => ?_, named⟩
      split at listed
      · exact privateIds other (listed_of_removed listed)
      · exact privateIds other listed
    refine ⟨tables, fun alive other known silent => ?_, held.putting, held.discarding, held.emitting,
      held.emitted⟩
    obtain ⟨listed, empty, running⟩ := held.unheard alive other ((update_ne_none issued).1 known) silent
    refine ⟨?_, empty, by by_cases same : other = id <;> simp [update, same, running]⟩
    dsimp only
    split
    next done =>
      -- the call of an open identifier has not completed
      have different : other ≠ id := by
        rintro rfl
        exact running (by rw [leaving, done])
      rw [update_of_ne different]
      exact listed
    · exact listed
  | read line x reading parsed => exact held.read reading parsed (orderly x rfl)
  | put id x putting empty =>
    obtain ⟨-, spoken⟩ := held.putting id x putting
    refine ⟨held.tables, fun alive other known silent => ?_, by simp, by simp, by simp, held.emitted⟩
    obtain ⟨listed, empty', running⟩ := held.unheard (by simp [putting]) other known silent
    have different : other ≠ id := by
      rintro rfl
      exact spoken silent
    exact ⟨listed, (update_of_ne different _ _).trans empty', running⟩
  | discard id discarding =>
    have spoken := held.discarding id discarding
    refine ⟨⟨held.tables.pending, fun other listed =>
      held.tables.privateIds other (listed_of_removed listed), held.tables.named⟩,
      fun alive other known silent => ?_, by simp, by simp, by simp, held.emitted⟩
    obtain ⟨listed, empty, running⟩ := held.unheard (by simp [discarding]) other known silent
    have different : other ≠ id := by
      rintro rfl
      exact spoken silent
    exact ⟨(update_of_ne different _ _).trans listed, empty, running⟩
  | emit line emitting =>
    refine ⟨held.tables, fun alive other known silent => ?_, by simp, by simp, by simp, ?_⟩
    · obtain ⟨listed, empty, running⟩ := held.unheard (by simp [emitting]) other known silent
      exact ⟨listed, empty, running⟩
    · rw [List.forall_mem_append, List.forall_mem_singleton]
      exact ⟨held.emitted, held.emitting line emitting⟩
  | fail message reading =>
    exact ⟨held.tables, fun alive => absurd rfl alive, by simp, by simp, by simp, held.emitted⟩
  | stop reading =>
    exact ⟨held.tables, fun alive => absurd rfl alive, by simp, by simp, by simp, held.emitted⟩

theorem isolated_reached (reached : OrderlyReached s) : Isolated s := by
  induction reached with
  | refl =>
    exact ⟨⟨by simp [start], by simp [start], by simp [start]⟩, by simp [start], by simp [start],
      by simp [start], by simp [start], by simp [start]⟩
  | tail _ step ih =>
    obtain ⟨step, orderly⟩ := step
    exact ih.step step orderly

/-- Each private reply reaches at most one waiter, the call that issued its identifier. While the
upstream replies in an orderly way, no private identifier reaches the client, and the reader never
waits on a queue that nobody reads. -/
theorem private_replies_isolated {s : UpstreamSession} (reached : Reached s) :
    ((s.delivered.map (·.1)).Nodup ∧
      ∀ p ∈ s.delivered, ∀ x, p.2 = .message x → replyId x = some p.1) ∧
    (OrderlyReached s →
      (∀ line ∈ s.emitted, ∀ x, loadsStrictJson label line = .ok x → ¬ CarriesPrivate x) ∧
        ¬ Stuck s) := by
  constructor
  · have held := delivers_reached reached
    exact ⟨held.once, held.delivered⟩
  · intro orderly
    have held := isolated_reached orderly
    constructor
    · intro line member x parsed
      obtain ⟨y, own, hidden⟩ := held.emitted line member
      obtain rfl := Except.ok.inj (own.symm.trans parsed)
      exact hidden
    · rintro ⟨id, x, putting, full, -⟩
      exact full (held.putting id x putting).1

/-! ### Runs with one call -/

namespace Demo

def id : Points := Points.ofString "defiant:1"

/-- The upstream's answer to the call. -/
def answer : Data := .obj [(Points.ofString "jsonrpc", .str (Points.ofString "2.0")),
  (Points.ofString "id", .str id), (Points.ofString "result", .obj [(Points.ofString "content", .arr [])])]

def line : List Char := answer.text

theorem parsed : loadsStrictJson label line = .ok answer := by
  have joined : answer.joined = answer := rfl
  rw [line, ← Data.render_compact, loadsStrictJson_render, joined]
  exact ⟨⟨by decide, by decide, by decide +kernel, by decide +kernel⟩,
    ⟨by decide +kernel, trivial, trivial, ⟨by decide, trivial, trivial⟩, trivial⟩, rfl⟩

theorem named : replyId answer = some id := by decide +kernel

/-- The call has been issued. -/
def issued : UpstreamSession :=
  { start with
    call := update start.call id (some .waiting)
    pending := update start.pending id true
    privateIds := update start.privateIds id true
    queue := update start.queue id none }

/-- Its answer has been read. -/
def heard : UpstreamSession := { issued with reader := .putting id answer, heard := [answer] }

theorem issued_step : Step start issued := .issue start id (by decide +kernel) rfl

theorem read_pending {s : UpstreamSession} (reading : s.reader = .reading) (pending : s.pending id = true) :
    Step s { s with reader := .putting id answer, heard := s.heard ++ [answer] } := by
  have routed : s.route line answer = .putting id answer := by
    simp [route, named, pending]
  have read := Step.read s line answer reading parsed
  rw [routed] at read
  exact read

theorem heard_step : Step issued heard := read_pending rfl (by simp [issued])

theorem answered : OrderlyReached heard := by
  have first : OrderlyStep start issued := ⟨issued_step, fun x heard => by simp [start, issued] at heard⟩
  have second : OrderlyStep issued heard := by
    refine ⟨heard_step, fun x same => ?_⟩
    obtain rfl : answer = x := by simpa [heard, issued, start] using same
    exact fun _ => ⟨id, named, by simp [issued], by simp [issued, start]⟩
  exact (Relation.ReflTransGen.single first).tail second

/-- The answer waits in its queue. -/
def queued : UpstreamSession :=
  { heard with reader := .reading, queue := update heard.queue id (some (.message answer)) }

theorem heard_reached : Reached heard := (Relation.ReflTransGen.single issued_step).tail heard_step

theorem queued_reached : Reached queued := by
  have put : Step heard queued :=
    .put heard id answer rfl (by simp [heard, issued])
  exact heard_reached.tail put

/-- The call has its answer. -/
def served : UpstreamSession :=
  { queued with
    call := update queued.call id (some (.leaving true))
    queue := update queued.queue id none
    delivered := [(id, .message answer)] }

/-- The call has left. -/
def left : UpstreamSession :=
  { served with
    call := update served.call id (some .left)
    pending := update served.pending id false
    privateIds := update served.privateIds id false }

theorem left_reached : Reached left := by
  have receive : Step queued served :=
    .receive queued id (.message answer) (by simp [queued, heard, issued]) (by simp [queued])
  have leave : Step served left := .leave served id true (by simp [served])
  exact (queued_reached.tail receive).tail leave

/-- A second answer has been read. -/
def twice : UpstreamSession := { queued with reader := .putting id answer, heard := [answer, answer] }

/-- The call takes the first answer. -/
def taken : UpstreamSession :=
  { twice with
    call := update twice.call id (some (.leaving true))
    queue := update twice.queue id none
    delivered := [(id, .message answer)] }

/-- The second answer is in the queue. -/
def refilled : UpstreamSession :=
  { taken with reader := .reading, queue := update taken.queue id (some (.message answer)) }

/-- A third answer has been read. -/
def crowded : UpstreamSession :=
  { refilled with reader := .putting id answer, heard := [answer, answer, answer] }

theorem crowded_reached : Reached crowded := by
  have pending : queued.pending id = true := by simp [queued, heard, issued]
  have second : Step queued twice := read_pending rfl pending
  have receive : Step twice taken :=
    .receive twice id (.message answer) (by simp [twice, queued, heard, issued]) (by simp [twice, queued])
  have put : Step taken refilled := .put taken id answer rfl (by simp [taken])
  have third : Step refilled crowded := read_pending rfl pending
  exact (((queued_reached.tail second).tail receive).tail put).tail third

end Demo

theorem private_replies_isolated_answer : ¬ Stuck Demo.heard ∧ Demo.heard.delivered.map (·.1) = [] ∧
    ∀ line ∈ Demo.heard.emitted, ∀ x, loadsStrictJson label line = .ok x → ¬ CarriesPrivate x :=
  have isolated := (private_replies_isolated Demo.heard_reached).2 Demo.answered
  ⟨isolated.2, rfl, isolated.1⟩

/-- A repeated answer reaches the client once its call has left, and answers that crowd in while the
call leaves stop the reader for good. -/
theorem repeated_answers_escape :
    (∃ s, Reached s ∧ ∃ line ∈ s.emitted, ∃ x, loadsStrictJson label line = .ok x ∧ CarriesPrivate x) ∧
      ∃ s, Reached s ∧ Stuck s := by
  have carries : CarriesPrivate Demo.answer := ⟨Demo.id, by decide +kernel, .inl Demo.named⟩
  constructor
  · have again := Step.read Demo.left Demo.line Demo.answer rfl Demo.parsed
    have routed : Demo.left.route Demo.line Demo.answer = .emitting Demo.line := by
      simp [route, Demo.named, Demo.left, Demo.served]
    rw [routed] at again
    have shown := Step.emit { Demo.left with reader := .emitting Demo.line, heard := [Demo.answer, Demo.answer] }
      Demo.line rfl
    exact ⟨_, (Demo.left_reached.tail again).tail shown, Demo.line, by simp, Demo.answer, Demo.parsed,
      carries⟩
  · exact ⟨Demo.crowded, Demo.crowded_reached, Demo.id, Demo.answer, rfl, by simp [Demo.crowded, Demo.refilled],
      by simp [Demo.crowded, Demo.refilled, Demo.taken]⟩

end UpstreamSession
end DefiantHarness
