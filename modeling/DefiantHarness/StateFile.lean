import DefiantHarness.Foundation.Directory
import DefiantHarness.Foundation.Machine

/-!
# Processes at one state file

`persistence.exclusive_file_lock`, `open_state_file`, `read_json` and `atomic_write_json`, one system
call at a time, as the stores use them: a lock-free read, an operation under the lock, and the
creation of the file by a constructor. A check that can only raise (permissions, link counts,
directory identity, sync) is part of the raising outcome that each statement has.
-/

namespace DefiantHarness
namespace StateFile

open Foundation

/-- `path`, `path.lock` and `.path.<uuid>.tmp`. -/
inductive FileName where
  | state
  | lock
  | temp (key : Nat)
  deriving DecidableEq

/-- What an operation makes of the content that it read under the lock. -/
inductive Decision (Byte : Type) where
  | refuse
  | keep
  | write (text : List Byte)

structure Settings (Op Byte : Type) where
  /-- `max_bytes` -/
  maximum : Nat
  /-- The text of a new store. -/
  initial : List Byte
  /-- `pid=…`, the text of a lock file. -/
  note : List Byte
  decide : Op → List Byte → Decision Byte

inductive Request (Op : Type) where
  | read
  | create
  | update (op : Op)

/-- Why the file is read: without the lock, or for an operation that holds it. -/
inductive Purpose (Op : Type) where
  | read
  | update (op : Op) (lock : Nat)

/-- One `atomic_write_json` under the lock. -/
structure Writer (Op Byte : Type) where
  request : Request Op
  lock : Nat
  /-- The content that the text was made from. -/
  seen : Option (List Byte)
  text : List Byte

/-- How an operation ends: with the content that it saw, or raising. -/
abbrev Ending (Op Byte : Type) := Option (Request Op × Option (List Byte))

/-- The statement that a process runs next. -/
inductive Place (Op Byte : Type) where
  | resting
  /-- `self.path.exists()` before the lock is taken -/
  | probing
  /-- `os.open(lock_path, O_CREAT | O_EXCL)` -/
  | locking (request : Request Op)
  /-- the write and the checks of the new lock file -/
  | noting (request : Request Op) (lock : Nat)
  /-- `self.path.exists()` under the lock -/
  | checking (lock : Nat)
  /-- the first `inspect_state_file(source)` of `open_state_file` -/
  | inspecting (purpose : Purpose Op)
  /-- `os.open(source)` -/
  | opening (purpose : Purpose Op) (before : Nat)
  /-- `os.fstat(fd)` -/
  | examining (purpose : Purpose Op) (before file : Nat)
  /-- `fh.read(maximum + 1)` -/
  | reading (purpose : Purpose Op) (file : Nat) (got : List Byte)
  /-- the last `inspect_state_file(source)` of `open_state_file` -/
  | closing (purpose : Purpose Op) (file : Nat) (got : List Byte)
  /-- the body of the operation -/
  | deciding (op : Op) (lock : Nat) (seen : List Byte)
  /-- `before = inspect_state_file(destination)` and the name of the temporary file -/
  | preparing (writer : Writer Op Byte)
  /-- `os.open(tmp, O_CREAT | O_EXCL)` -/
  | creating (writer : Writer Op Byte) (before : Option Nat) (key : Nat)
  /-- `json.dump`, `fh.flush`, `os.fsync` -/
  | writing (writer : Writer Op Byte) (before : Option Nat) (key file : Nat) (rest : List Byte)
  /-- the checks that the temporary file is still the one that was written -/
  | sealing (writer : Writer Op Byte) (before : Option Nat) (key file : Nat)
  /-- `current = inspect_state_file(destination)` -/
  | comparing (writer : Writer Op Byte) (before : Option Nat) (key : Nat)
  /-- `os.replace(tmp, destination)` -/
  | replacing (writer : Writer Op Byte) (key : Nat)
  /-- the inspection and the directory sync after the replacement -/
  | syncing (writer : Writer Op Byte) (key : Nat)
  /-- `tmp.unlink()` after an `OSError`, `TypeError` or `ValueError` -/
  | discarding (lock key : Nat)
  /-- `os.close(fd)` and `inspect_state_file(lock_path)` -/
  | unlocking (lock : Nat) (ending : Ending Op Byte)
  /-- `lock_path.unlink()` -/
  | unlinking (lock : Nat) (ending : Ending Op Byte)
  /-- the directory sync after the unlock -/
  | finishing (ending : Ending Op Byte)

/-- How a statement goes, with what the system chooses in it. -/
inductive Choice where
  | proceed
  /-- `uuid4()` -/
  | draw (key : Nat)
  | create (file : Nat)
  | transfer (count : Nat)
  /-- a `PersistenceError`; that the lock is held by another is one -/
  | raise
  /-- an `OSError`, `TypeError` or `ValueError` -/
  | fault

section

variable {Op Byte : Type}

def Purpose.request : Purpose Op → Request Op
  | .read => .read
  | .update op _ => .update op

def Purpose.lock : Purpose Op → Option Nat
  | .read => none
  | .update _ lock => some lock

/-- Where an exception inside `open_state_file` leads. -/
def Purpose.leave : Purpose Op → Place Op Byte
  | .read => .finishing none
  | .update _ lock => .unlocking lock none

variable (settings : Settings Op Byte) (dir : Directory FileName Byte)

/-- The next statement succeeds, where it chooses nothing. -/
def Place.proceed : Place Op Byte → Option (Directory FileName Byte × Place Op Byte)
  | .probing =>
    if (dir.entries .state).isSome then some (dir, .finishing (some (.create, none)))
    else some (dir, .locking .create)
  | .noting request lock =>
    some (dir.append lock settings.note,
      match request with
      | .read => .inspecting .read
      | .create => .checking lock
      | .update op => .inspecting (.update op lock))
  | .checking lock =>
    if (dir.entries .state).isSome then some (dir, .unlocking lock (some (.create, none)))
    else some (dir, .preparing ⟨.create, lock, none, settings.initial⟩)
  | .inspecting purpose => (dir.entries .state).map fun before => (dir, .opening purpose before)
  | .opening purpose before =>
    (dir.entries .state).map fun file => (dir, .examining purpose before file)
  | .examining purpose before file =>
    if before = file then some (dir, .reading purpose file []) else none
  | .reading purpose file got =>
    if (dir.contents file).length ≤ got.length ∨ got.length = settings.maximum + 1 then
      some (dir, .closing purpose file got)
    else none
  | .closing purpose file got =>
    -- the path is looked at again: it must still name the file that was read
    if dir.entries .state = some file ∧ got.length ≤ settings.maximum then
      some (dir, match purpose with
        | .read => .finishing (some (.read, some got))
        | .update op lock => .deciding op lock got)
    else none
  | .deciding op lock seen =>
    some (dir, match settings.decide op seen with
      | .refuse => .unlocking lock none
      | .keep => .unlocking lock (some (.update op, some seen))
      | .write text => .preparing ⟨.update op, lock, some seen, text⟩)
  | .writing writer before key file rest =>
    if rest = [] then some (dir, .sealing writer before key file) else none
  | .sealing writer before key file =>
    if dir.entries (.temp key) = some file then some (dir, .comparing writer before key) else none
  -- another writer may have put a file there since the update was decided
  | .comparing writer before key =>
    if dir.entries .state = before then some (dir, .replacing writer key) else none
  | .replacing writer key =>
    (dir.replace (.temp key) .state).map fun replaced => (replaced, .syncing writer key)
  | .syncing writer _ => some (dir, .unlocking writer.lock (some (writer.request, writer.seen)))
  | .discarding lock key => some (dir.unlink (.temp key), .unlocking lock none)
  | .unlocking lock ending =>
    if dir.entries .lock = some lock then some (dir, .unlinking lock ending) else none
  | .unlinking _ ending => some (dir.unlink .lock, .finishing ending)
  | .resting | .locking _ | .preparing _ | .creating .. | .finishing _ => none

def Place.draw (key : Nat) : Place Op Byte → Option (Place Op Byte)
  | .preparing writer => some (.creating writer (dir.entries .state) key)
  | _ => none

def Place.create (file : Nat) : Place Op Byte → Option (Directory FileName Byte × Place Op Byte)
  | .locking request => (dir.create .lock file).map fun made => (made, .noting request file)
  | .creating writer before key =>
    (dir.create (.temp key) file).map fun made => (made, .writing writer before key file writer.text)
  | _ => none

/-- Some bytes are read or written; `_BoundedTextWriter` lets no more than the ceiling through. -/
def Place.transfer (count : Nat) : Place Op Byte → Option (Directory FileName Byte × Place Op Byte)
  | .reading purpose file got =>
    -- one byte beyond the limit is read, to see that there is more
    if got.length + count ≤ settings.maximum + 1 then
      some (dir, .reading purpose file (got ++ ((dir.contents file).drop got.length).take count))
    else none
  | .writing writer before key file rest =>
    if writer.text.length - rest.length + count ≤ settings.maximum then
      some (dir.append file (rest.take count), .writing writer before key file (rest.drop count))
    else none
  | _ => none

def Place.raise : Place Op Byte → Option (Place Op Byte)
  | .resting => none
  | .probing | .locking _ | .unlocking .. | .unlinking .. | .finishing _ => some (.finishing none)
  | .inspecting purpose | .opening purpose _ | .examining purpose .. | .reading purpose ..
  | .closing purpose .. => some purpose.leave
  -- from here on the lock is held, so a failure has to give it back
  | .noting _ lock | .checking lock | .deciding _ lock _ | .discarding lock _ =>
    some (.unlocking lock none)
  | .preparing writer | .creating writer .. | .writing writer .. | .sealing writer ..
  | .comparing writer .. | .replacing writer _ | .syncing writer _ =>
    some (.unlocking writer.lock none)

/-- The `except` clause of `atomic_write_json`. -/
def Place.fault : Place Op Byte → Option (Place Op Byte)
  | .creating writer _ key | .writing writer _ key .. | .sealing writer _ key _
  | .comparing writer _ key | .replacing writer key | .syncing writer key =>
    some (.discarding writer.lock key)
  | _ => none

def Place.next (place : Place Op Byte) : Choice → Option (Directory FileName Byte × Place Op Byte)
  | .proceed => place.proceed settings dir
  | .draw key => (place.draw dir key).map fun after => (dir, after)
  | .create file => place.create dir file
  | .transfer count => place.transfer settings dir count
  | .raise => place.raise.map fun after => (dir, after)
  | .fault => place.fault.map fun after => (dir, after)

/-- The first statement of a request. -/
def Request.start : Request Op → Place Op Byte
  | .read => .inspecting .read
  | .create => .probing
  | .update op => .locking (.update op)

/-- The lock file that this process created and has not removed. -/
def Place.lock : Place Op Byte → Option Nat
  | .noting _ lock | .checking lock | .deciding _ lock _ | .discarding lock _ | .unlocking lock _
  | .unlinking lock _ => some lock
  | .inspecting purpose | .opening purpose _ | .examining purpose .. | .reading purpose ..
  | .closing purpose .. => purpose.lock
  | .preparing writer | .creating writer .. | .writing writer .. | .sealing writer ..
  | .comparing writer .. | .replacing writer _ | .syncing writer _ => some writer.lock
  | .resting | .probing | .locking _ | .finishing _ => none

/-- The files beside the lock file that this process has open. -/
def Place.opened : Place Op Byte → Option Nat
  | .examining _ _ file | .reading _ file _ | .closing _ file _ | .writing _ _ _ file _
  | .sealing _ _ _ file => some file
  | _ => none

end

/-- What the callers see. -/
inductive Event (Op Byte : Type) where
  | began (process : Nat) (request : Request Op)
  | returned (process : Nat) (request : Request Op) (seen : Option (List Byte))
  | raised (process : Nat)
  | crashed (process : Nat)

/-- The directory, and where each process is. -/
structure Shared (Op Byte : Type) where
  dir : Directory FileName Byte
  places : Nat → Place Op Byte

namespace Shared

variable {Op Byte : Type} (s : Shared Op Byte)

def move (process : Nat) (place : Place Op Byte) : Shared Op Byte :=
  { s with places := Function.update s.places process place }

/-- A file that is given to a new name: no name stands for it and no process has it open. -/
def Unused (file : Nat) : Prop :=
  s.dir.Unlinked file ∧ ∀ process, (s.places process).opened ≠ some file ∧
    (s.places process).lock ≠ some file

inductive Step (settings : Settings Op Byte) (s : Shared Op Byte) :
    Option (Event Op Byte) → Shared Op Byte → Prop where
  | begin (process : Nat) (request : Request Op) (rests : s.places process = .resting) :
      Step settings s (some (.began process request)) (s.move process request.start)
  | advance (process : Nat) (choice : Choice) (dir : Directory FileName Byte)
      (place : Place Op Byte) (unused : ∀ file, choice = .create file → s.Unused file)
      (next : (s.places process).next settings s.dir choice = some (dir, place)) :
      Step settings s none { s.move process place with dir := dir }
  | returns (process : Nat) (request : Request Op) (seen : Option (List Byte))
      (done : s.places process = .finishing (some (request, seen))) :
      Step settings s (some (.returned process request seen)) (s.move process .resting)
  | raises (process : Nat) (done : s.places process = .finishing none) :
      Step settings s (some (.raised process)) (s.move process .resting)
  /-- The process dies; its lock file and its temporary file stay. -/
  | crash (process : Nat) :
      Step settings s (some (.crashed process)) (s.move process .resting)
  /-- An operator confirms that no writer is alive and removes the lock file. -/
  | clear (dead : ∀ process, (s.places process).lock = none) :
      Step settings s none { s with dir := s.dir.unlink .lock }

/-- The processes at a state file. A lock file and temporary files may be left from before. -/
def machine (settings : Settings Op Byte) : Machine (Shared Op Byte) (Event Op Byte) where
  initial s := s.dir.Single ∧ ∀ process, s.places process = .resting
  step := Step settings

end Shared
end StateFile
end DefiantHarness
