import Mathlib.Logic.Function.Basic
import Mathlib.Logic.Relation
import DefiantHarness.StrictJson

/-! One upstream session: callers that wait for replies to their private requests, and the reader of
what the upstream emits. Steps are atomic under the session's locks and queues. -/
namespace Foundation

/-- The value under a name of an object. -/
def Data.field (name : String) : Data → Option Data
  | .obj fields => (fields.find? fun f => f.1 == Points.ofString name).map (·.2)
  | _ => none

end Foundation

namespace DefiantHarness

open Foundation

/-- What a reply queue hands to a waiter. -/
inductive Reply where
  | message (x : Data)
  | transportError (text : String)

/-- Where a call on a private request stands. -/
inductive CallPhase where
  | waiting
  | leaving (completed : Bool)
  | left

inductive ReaderPhase where
  | reading
  | putting (id : Points) (x : Data)
  | discarding (id : Points)
  | emitting (line : List Char)
  | ended

/-- The session's tables of private identifiers, the reply queues of size one, and what reached the
client and the callers. `heard` is what the reader has read. -/
structure UpstreamSession where
  call : Points → Option CallPhase
  pending : Points → Bool
  privateIds : Points → Bool
  queue : Points → Option Reply
  reader : ReaderPhase
  emitted : List (List Char)
  delivered : List (Points × Reply)
  heard : List Data

namespace UpstreamSession

def start : UpstreamSession where
  call _ := none
  pending _ := false
  privateIds _ := false
  queue _ := none
  reader := .reading
  emitted := []
  delivered := []
  heard := []

/-- The identifier of a message that may answer a private request. -/
def replyId (x : Data) : Option Points :=
  match x.field "id" with
  | some (.str id) => some id
  | _ => none

/-- The names of private requests. -/
def isPrivate (id : Points) : Bool := (Points.ofString "defiant:").isPrefixOf id

def label : String := "upstream MCP message"

/-- What the reader does with a decoded line, by the tables that it finds. -/
def route (s : UpstreamSession) (line : List Char) (x : Data) : ReaderPhase :=
  match replyId x with
  | some id =>
    if s.pending id then .putting id x else if s.privateIds id then .discarding id else .emitting line
  | none => .emitting line

open Function in
/-- One atomic step of a caller or of the reader. -/
inductive Step : UpstreamSession → UpstreamSession → Prop where
  -- a caller registers a new private identifier and its queue before it writes the request
  | issue (s : UpstreamSession) (id : Points) (own : isPrivate id = true) (fresh : s.call id = none) :
    Step s { s with
      call := update s.call id (some .waiting)
      pending := update s.pending id true
      privateIds := update s.privateIds id true
      queue := update s.queue id none }
  | receive (s : UpstreamSession) (id : Points) (reply : Reply) (waiting : s.call id = some .waiting)
      (held : s.queue id = some reply) :
    Step s { s with
      call := update s.call id (some (.leaving true))
      queue := update s.queue id none
      delivered := s.delivered ++ [(id, reply)] }
  -- the request could not be written, or no reply came in time
  | giveUp (s : UpstreamSession) (id : Points) (waiting : s.call id = some .waiting) :
    Step s { s with call := update s.call id (some (.leaving false)) }
  | leave (s : UpstreamSession) (id : Points) (completed : Bool)
      (leaving : s.call id = some (.leaving completed)) :
    Step s { s with
      call := update s.call id (some .left)
      pending := update s.pending id false
      privateIds := if completed then update s.privateIds id false else s.privateIds }
  | read (s : UpstreamSession) (line : List Char) (x : Data) (reading : s.reader = .reading)
      (parsed : loadsStrictJson label line = .ok x) :
    Step s { s with reader := s.route line x, heard := s.heard ++ [x] }
  -- a put waits until the queue is empty
  | put (s : UpstreamSession) (id : Points) (x : Data) (putting : s.reader = .putting id x)
      (empty : s.queue id = none) :
    Step s { s with reader := .reading, queue := update s.queue id (some (.message x)) }
  | discard (s : UpstreamSession) (id : Points) (discarding : s.reader = .discarding id) :
    Step s { s with reader := .reading, privateIds := update s.privateIds id false }
  | emit (s : UpstreamSession) (line : List Char) (emitting : s.reader = .emitting line) :
    Step s { s with reader := .reading, emitted := s.emitted ++ [line] }
  -- the upstream ended, or broke its contract: every waiter without a reply is told
  | fail (s : UpstreamSession) (message : String) (reading : s.reader = .reading) :
    Step s { s with
      reader := .ended
      queue := fun id => if s.pending id && (s.queue id).isNone then some (.transportError message)
        else s.queue id }
  | stop (s : UpstreamSession) (reading : s.reader = .reading) : Step s { s with reader := .ended }

/-- The message carries a private identifier, by itself or in a batch. -/
def CarriesPrivate (x : Data) : Prop :=
  ∃ id, isPrivate id = true ∧
    (replyId x = some id ∨ ∃ items, x = .arr items ∧ ∃ y ∈ items, replyId y = some id)

/-- A private identifier comes back at most once, outside a batch, after it was issued. -/
def Orderly (s : UpstreamSession) (x : Data) : Prop :=
  CarriesPrivate x → ∃ id, replyId x = some id ∧ s.call id ≠ none ∧ ∀ y ∈ s.heard, replyId y ≠ some id

/-- A step in which the upstream replies in an orderly way. -/
inductive OrderlyStep : UpstreamSession → UpstreamSession → Prop where
  | mk {s t : UpstreamSession} (step : Step s t) (orderly : ∀ x, t.heard = s.heard ++ [x] → Orderly s x) :
    OrderlyStep s t

/-- The sessions that any interleaving reaches. -/
def Reached (s : UpstreamSession) : Prop := Relation.ReflTransGen Step start s

def OrderlyReached (s : UpstreamSession) : Prop := Relation.ReflTransGen OrderlyStep start s

/-- The reader waits on a full queue that its call will not read any more. -/
def Stuck (s : UpstreamSession) : Prop :=
  ∃ id x, s.reader = .putting id x ∧ s.queue id ≠ none ∧ s.call id ≠ some .waiting

end UpstreamSession
end DefiantHarness
