import Mathlib.Data.Finset.Basic
import Mathlib.Logic.Function.Basic
import Mathlib.Tactic.Common

/-!
# The authority transaction lock

`persistence.AuthorityTransactionLock.acquire` takes the process lock of its path, counts the
nesting of the calling thread, opens the lock file and locks it, and gives all of it back in nested
`finally` blocks. The threads of one process run it step by step, in any order, and every step of
the source that can raise has a raising outcome of its own.
-/

namespace DefiantHarness
namespace AuthorityLock

/-- `threading.RLock`: free, or owned with a number of further acquisitions. -/
inductive RLock (Thread : Type) where
  | free
  | held (owner : Thread) (further : Nat)

namespace RLock

variable {Thread : Type} [DecidableEq Thread]

/-- `acquire(blocking=False)`; `none` is the answer `False`. -/
def acquire : RLock Thread → Thread → Option (RLock Thread)
  | .free, t => some (.held t 0)
  | .held owner further, t => if owner = t then some (.held owner (further + 1)) else none

/-- `release()`; `none` is the `RuntimeError` of a thread that does not own the lock. -/
def release : RLock Thread → Thread → Option (RLock Thread)
  | .free, _ => none
  | .held owner further, t =>
    if owner = t then
      match further with
      | 0 => some .free
      | n + 1 => some (.held owner n)
    else none

/-- How often `t` holds the lock. -/
def holds : RLock Thread → Thread → Nat
  | .free, _ => 0
  | .held owner further, t => if owner = t then further + 1 else 0

end RLock

/-- A file descriptor. -/
abbrev Fd := Nat

/-- Who holds the lock of the lock file: a descriptor of this process, or another process. -/
inductive Holder where
  | own (fd : Fd)
  | other
  deriving DecidableEq

/-- The statement of `acquire` that an attempt runs next. -/
inductive Place where
  /-- `self._process_lock.acquire(blocking=False)` -/
  | calling
  /-- `depths.get(self.path, 0)` -/
  | gated
  /-- `prepare_storage_root(self.path.parent)` -/
  | preparing
  /-- `with _AUTHORITY_LOCKS_GUARD` of the opening block -/
  | prepared
  /-- `inspect_state_file(self.path)` -/
  | inspecting
  /-- `os.open` -/
  | opening
  /-- `os.fstat` and the three checks of the opened file -/
  | checking (fd : Fd)
  /-- `os.write`, `os.fsync` and the directory sync of an empty file -/
  | initializing (fd : Fd)
  /-- `_lock_byte(fd)` -/
  | locking (fd : Fd)
  /-- `_AUTHORITY_ACTIVE_FDS.add(fd)`, the last statement under the guard -/
  | recording (fd : Fd)
  /-- `depths[self.path] = 1` -/
  | counting (fd : Fd)
  /-- the `yield` of the outermost context -/
  | outermost (fd : Fd)
  /-- `with _AUTHORITY_LOCKS_GUARD` of the last `finally` -/
  | cleaning (fd : Option Fd) (locked : Bool)
  /-- `_unlock_byte(fd)` -/
  | unlocking (fd : Option Fd) (locked : Bool)
  /-- `os.close(fd)` and `_AUTHORITY_ACTIVE_FDS.discard(fd)` -/
  | closing (fd : Option Fd) (locked : Bool)
  /-- the `yield` of a nested context -/
  | nested
  /-- `self._process_lock.release()` -/
  | releasing
  deriving DecidableEq

/-- The context of the attempt is entered: its body runs. -/
def Place.entered : Place → Bool
  | .outermost _ | .nested => true
  | _ => false

/-- One call of `acquire`, on a lock object with the process lock `lock`. -/
structure Attempt where
  lock : Nat
  place : Place
  deriving DecidableEq

/-- The state of one path in one process, and the lock file. -/
structure LockState (Thread : Type) where
  /-- `_AUTHORITY_LOCKS[path]` -/
  registered : Option Nat := none
  /-- The number of `RLock()` calls so far. -/
  made : Nat := 0
  rlocks : Nat → RLock Thread := fun _ => .free
  /-- `_process_lock` of each lock object. -/
  objects : List Nat := []
  /-- `_AUTHORITY_DEPTHS.paths.get(path)` of each thread. -/
  depths : Thread → Option Nat := fun _ => none
  /-- `_AUTHORITY_LOCKS_GUARD` -/
  guard : Option Thread := none
  /-- `_AUTHORITY_ACTIVE_FDS` -/
  active : Finset Fd := ∅
  /-- The descriptors of the lock file that are open. -/
  opened : Finset Fd := ∅
  fileLock : Option Holder := none
  /-- The calls of `acquire` each thread is in, the innermost first. -/
  attempts : Thread → List Attempt := fun _ => []

/-- What happens next. -/
inductive Event (Thread : Type) where
  /-- `AuthorityTransactionLock(path)` -/
  | construct
  /-- A thread calls `acquire` on a lock object. -/
  | call (t : Thread) (object : Nat)
  /-- The next statement of the thread's innermost attempt completes. -/
  | completes (t : Thread)
  /-- `os.open` returns a descriptor. -/
  | opens (t : Thread) (fd : Fd)
  /-- The next statement of the thread's innermost attempt raises. -/
  | raises (t : Thread)
  /-- Another process locks the file. -/
  | otherLocks
  /-- Another process unlocks the file. -/
  | otherUnlocks

namespace LockState

variable {Thread : Type} [DecidableEq Thread]

/-- The innermost attempt of `t` moves on. -/
def moved (s : LockState Thread) (t : Thread) (a : Attempt) (enclosing : List Attempt)
    (place : Place) : LockState Thread :=
  { s with attempts := Function.update s.attempts t ({ a with place } :: enclosing) }

/-- The innermost attempt of `t` is left. -/
def left (s : LockState Thread) (t : Thread) (enclosing : List Attempt) : LockState Thread :=
  { s with attempts := Function.update s.attempts t enclosing }

/-- `with _AUTHORITY_LOCKS_GUARD` waits until the guard is free. -/
def takeGuard (s : LockState Thread) (t : Thread) : Option (LockState Thread) :=
  if s.guard.isNone then some { s with guard := some t } else none

def giveGuard (s : LockState Thread) : LockState Thread := { s with guard := none }

def setDepth (s : LockState Thread) (t : Thread) (depth : Option Nat) : LockState Thread :=
  { s with depths := Function.update s.depths t depth }

def setLock (s : LockState Thread) (id : Nat) (lock : RLock Thread) : LockState Thread :=
  { s with rlocks := Function.update s.rlocks id lock }

section attempts

variable (s : LockState Thread) (t : Thread)

@[simp] theorem moved_attempts (a : Attempt) (enclosing : List Attempt) (place : Place) :
    (s.moved t a enclosing place).attempts =
      Function.update s.attempts t ({ a with place } :: enclosing) := rfl

@[simp] theorem left_attempts (enclosing : List Attempt) :
    (s.left t enclosing).attempts = Function.update s.attempts t enclosing := rfl

@[simp] theorem setDepth_attempts (depth : Option Nat) :
    (s.setDepth t depth).attempts = s.attempts := rfl

omit [DecidableEq Thread]

@[simp] theorem setLock_attempts (id : Nat) (lock : RLock Thread) :
    (s.setLock id lock).attempts = s.attempts := rfl

@[simp] theorem giveGuard_attempts : s.giveGuard.attempts = s.attempts := rfl

end attempts

/-- The file lock of a descriptor is given up. -/
def unlockFile (s : LockState Thread) (fd : Option Fd) : LockState Thread :=
  { s with fileLock := if s.fileLock = fd.map Holder.own then none else s.fileLock }

/-- `os.close(fd)`, which also gives up the lock of the file, and the discard; nothing for `-1`. -/
def closeFile (s : LockState Thread) : Option Fd → LockState Thread
  | none => s
  | some fd =>
    { s.unlockFile (some fd) with opened := s.opened.erase fd, active := s.active.erase fd }

/-- `_process_authority_lock`: `RLock()` is made before `setdefault` looks at the registry. -/
def construct (s : LockState Thread) : Option (LockState Thread) :=
  if s.guard.isNone then
    let id := s.registered.getD s.made
    some { s with made := s.made + 1, registered := some id, objects := s.objects ++ [id] }
  else none

/-- A thread outside every attempt, or in the body of its innermost one, calls `acquire`. -/
def call (s : LockState Thread) (t : Thread) (object : Nat) : Option (LockState Thread) :=
  match s.objects[object]? with
  | none => none
  | some lock =>
    if (s.attempts t).head?.all (·.place.entered) then
      some { s with attempts := Function.update s.attempts t (⟨lock, .calling⟩ :: s.attempts t) }
    else none

/-- The next statement of the innermost attempt of `t` completes. -/
def completes (s : LockState Thread) (t : Thread) : Option (LockState Thread) :=
  match s.attempts t with
  | [] => none
  | a :: enclosing =>
    match a.place with
    | .calling =>
      ((s.rlocks a.lock).acquire t).map fun lock =>
        (s.setLock a.lock lock).moved t a enclosing .gated
    -- a thread that is inside already only counts one deeper
    | .gated =>
      match s.depths t with
      | some (depth + 1) => some ((s.setDepth t (some (depth + 2))).moved t a enclosing .nested)
      | _ => some (s.moved t a enclosing .preparing)
    | .preparing => some (s.moved t a enclosing .prepared)
    | .prepared => (s.takeGuard t).map (·.moved t a enclosing .inspecting)
    | .inspecting => some (s.moved t a enclosing .opening)
    -- opening a file ends with its descriptor, which is an event of its own
    | .opening => none
    | .checking fd => some (s.moved t a enclosing (.initializing fd))
    | .initializing fd => some (s.moved t a enclosing (.locking fd))
    | .locking fd =>
      if s.fileLock.isNone then
        some ({ s with fileLock := some (.own fd) }.moved t a enclosing (.recording fd))
      else none
    | .recording fd =>
      some ({ s with active := insert fd s.active }.giveGuard.moved t a enclosing (.counting fd))
    | .counting fd => some ((s.setDepth t (some 1)).moved t a enclosing (.outermost fd))
    | .outermost fd => some ((s.setDepth t none).moved t a enclosing (.cleaning (some fd) true))
    | .cleaning fd locked => (s.takeGuard t).map (·.moved t a enclosing (.unlocking fd locked))
    | .unlocking fd locked =>
      some ((if locked then s.unlockFile fd else s).moved t a enclosing (.closing fd locked))
    | .closing fd _ => some ((s.closeFile fd).giveGuard.moved t a enclosing .releasing)
    | .nested =>
      (s.depths t).map fun depth =>
        (s.setDepth t (some (depth - 1))).moved t a enclosing .releasing
    | .releasing =>
      ((s.rlocks a.lock).release t).map fun lock => (s.setLock a.lock lock).left t enclosing

/-- `os.open` returns a descriptor that is not open yet. -/
def opens (s : LockState Thread) (t : Thread) (fd : Fd) : Option (LockState Thread) :=
  match s.attempts t with
  | [] => none
  | a :: enclosing =>
    if a.place = .opening ∧ fd ∉ s.opened then
      some ({ s with opened := insert fd s.opened }.moved t a enclosing (.checking fd))
    else none

/-- The next statement of the innermost attempt of `t` raises. -/
def raises (s : LockState Thread) (t : Thread) : Option (LockState Thread) :=
  match s.attempts t with
  | [] => none
  | a :: enclosing =>
    match a.place with
    | .calling =>
      match (s.rlocks a.lock).acquire t with
      | none => some (s.left t enclosing)
      | some _ => none
    -- no `try` encloses this call
    | .preparing => some (s.left t enclosing)
    | .inspecting | .opening => some (s.giveGuard.moved t a enclosing (.cleaning none false))
    | .checking fd | .initializing fd | .locking fd =>
      some (s.giveGuard.moved t a enclosing (.cleaning (some fd) false))
    | .outermost fd => some ((s.setDepth t none).moved t a enclosing (.cleaning (some fd) true))
    | .nested =>
      (s.depths t).map fun depth =>
        (s.setDepth t (some (depth - 1))).moved t a enclosing .releasing
    -- both errors are swallowed
    | .unlocking fd true => some (s.moved t a enclosing (.closing fd true))
    | .closing (some fd) _ =>
      some ((s.closeFile (some fd)).giveGuard.moved t a enclosing .releasing)
    | _ => none

def step (s : LockState Thread) : Event Thread → Option (LockState Thread)
  | .construct => s.construct
  | .call t object => s.call t object
  | .completes t => s.completes t
  | .opens t fd => s.opens t fd
  | .raises t => s.raises t
  | .otherLocks => if s.fileLock.isNone then some { s with fileLock := some .other } else none
  | .otherUnlocks =>
    if s.fileLock = some .other then some { s with fileLock := none } else none

def run (s : LockState Thread) : List (Event Thread) → Option (LockState Thread)
  | [] => some s
  | event :: events => (s.step event).bind (·.run events)

/-- `prepare_storage_root` raises in this step. -/
def prepareRaises (s : LockState Thread) : Event Thread → Bool
  | .raises t => (s.attempts t).head?.any (·.place = .preparing)
  | _ => false

/-- No call of `prepare_storage_root` raises in the run. -/
def PreparesEachRoot (s : LockState Thread) : List (Event Thread) → Prop
  | [] => True
  | event :: events =>
    s.prepareRaises event = false ∧ ∀ s', s.step event = some s' → s'.PreparesEachRoot events

/-- No attempt is in progress: every one has its context entered. -/
def AtRest (s : LockState Thread) : Prop := ∀ t, ∀ a ∈ s.attempts t, a.place.entered

/-- The process lock of the path. -/
def processLock (s : LockState Thread) : RLock Thread :=
  s.registered.elim .free s.rlocks

/-- The process lock, the depths, the active descriptors and the file lock are exactly those of the
contexts still entered. -/
structure Balanced (s : LockState Thread) : Prop where
  shared : ∀ id ∈ s.objects, s.registered = some id
  holds : ∀ t, s.processLock.holds t = (s.attempts t).length
  depth : ∀ t, s.depths t = if s.attempts t = [] then none else some (s.attempts t).length
  active : ∀ fd, fd ∈ s.active ↔ ∃ t, ∃ a ∈ s.attempts t, a.place = .outermost fd
  fileLock : ∀ fd, s.fileLock = some (.own fd) ↔ ∃ t, ∃ a ∈ s.attempts t, a.place = .outermost fd

/-- The four are in `s'` what they were in `s`. -/
structure SameHoldings (s s' : LockState Thread) : Prop where
  holds : ∀ t, s'.processLock.holds t = s.processLock.holds t
  depth : s'.depths = s.depths
  active : s'.active = s.active
  fileLock : ∀ fd, s'.fileLock = some (.own fd) ↔ s.fileLock = some (.own fd)

/-- Nobody holds the lock: no thread is in an attempt, and no other process has the file. -/
structure Unheld (s : LockState Thread) : Prop where
  attempts : ∀ t, s.attempts t = []
  fileLock : s.fileLock ≠ some .other

end LockState

/-- One attempt none of whose steps raises. -/
def undisturbed {Thread : Type} (t : Thread) (object : Nat) (fd : Fd) : List (Event Thread) :=
  [.call t object, .completes t, .completes t, .completes t, .completes t, .completes t,
   .opens t fd, .completes t, .completes t, .completes t, .completes t, .completes t]

end AuthorityLock
end DefiantHarness
