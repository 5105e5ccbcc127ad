import DefiantHarness.StateFile

/-! What the stores rely on: the processes at a state file act on it one after another. -/
namespace DefiantHarness
namespace StateFile

open Foundation

variable {Op Byte : Type}

/-! ### One process after another -/

inductive Verdict (Byte : Type) where
  | refuse
  | keep (seen : Option (List Byte))
  | write (text : List Byte) (seen : Option (List Byte))

/-- What a request does with the whole content of the file, or with its absence. -/
def Settings.judge (settings : Settings Op Byte) : Request Op → Option (List Byte) → Verdict Byte
  | .create, none => .write settings.initial none
  | .create, some _ => .keep none
  | .read, none | .update _, none => .refuse
  | .read, some seen => if seen.length ≤ settings.maximum then .keep (some seen) else .refuse
  | .update op, some seen =>
    if seen.length ≤ settings.maximum then
      match settings.decide op seen with
      | .refuse => .refuse
      | .keep => .keep (some seen)
      | .write text => .write text (some seen)
    else .refuse

inductive Status (Op Byte : Type) where
  | idle
  | running (request : Request Op)
  | finished (request : Request Op) (seen : Option (List Byte))
  | failing

/-- The content of the file, and how far each process is with its request. -/
structure Register (Op Byte : Type) where
  content : Option (List Byte)
  status : Nat → Status Op Byte

namespace Register

def put (r : Register Op Byte) (process : Nat) (status : Status Op Byte) : Register Op Byte :=
  { r with status := Function.update r.status process status }

/-- A request takes effect in one step, between its begin and its end. -/
inductive Step (settings : Settings Op Byte) (r : Register Op Byte) :
    Option (Event Op Byte) → Register Op Byte → Prop where
  | begin (process : Nat) (request : Request Op) (idle : r.status process = .idle) :
      Step settings r (some (.began process request)) (r.put process (.running request))
  | keep (process : Nat) (request : Request Op) (seen : Option (List Byte))
      (running : r.status process = .running request)
      (judged : settings.judge request r.content = .keep seen) :
      Step settings r none (r.put process (.finished request seen))
  | write (process : Nat) (request : Request Op) (text : List Byte) (seen : Option (List Byte))
      (running : r.status process = .running request)
      (judged : settings.judge request r.content = .write text seen)
      (fits : text.length ≤ settings.maximum) :
      Step settings r none { r.put process (.finished request seen) with content := some text }
  | fail (process : Nat) (active : r.status process ≠ .idle) :
      Step settings r none (r.put process .failing)
  | returns (process : Nat) (request : Request Op) (seen : Option (List Byte))
      (finished : r.status process = .finished request seen) :
      Step settings r (some (.returned process request seen)) (r.put process .idle)
  | raises (process : Nat) (failing : r.status process = .failing) :
      Step settings r (some (.raised process)) (r.put process .idle)
  | crash (process : Nat) : Step settings r (some (.crashed process)) (r.put process .idle)

def machine (settings : Settings Op Byte) : Machine (Register Op Byte) (Event Op Byte) where
  initial r := ∀ process, r.status process = .idle
  step := Step settings

end Register

/-! ### What holds between two system calls -/

def Purpose.status (purpose : Purpose Op) : Status Op Byte := .running purpose.request

def Ending.status : Ending Op Byte → Status Op Byte
  | some (request, seen) => .finished request seen
  | none => .failing

/-- An operation takes effect when its check of the file passes or its replacement is made. -/
def Place.status : Place Op Byte → Status Op Byte
  | .resting => .idle
  | .probing | .checking _ => .running .create
  | .locking request | .noting request _ => .running request
  | .inspecting purpose | .opening purpose _ | .examining purpose .. | .reading purpose ..
  | .closing purpose .. => purpose.status
  | .deciding op .. => .running (.update op)
  | .preparing writer | .creating writer .. | .writing writer .. | .sealing writer ..
  | .comparing writer .. | .replacing writer _ => .running writer.request
  -- the rename has happened: nothing that follows can undo it
  | .syncing writer _ => .finished writer.request writer.seen
  | .discarding .. => .failing
  | .unlocking _ ending | .unlinking _ ending | .finishing ending => Ending.status ending

/-- The file is not a lock file or a temporary file. -/
def StateOnly (dir : Directory FileName Byte) (file : Nat) : Prop :=
  ∀ name, dir.entries name = some file → name = .state

/-- A file that was opened under the state name. Under the lock it still has that name. -/
structure Purpose.Opens (purpose : Purpose Op) (dir : Directory FileName Byte) (file : Nat) :
    Prop where
  only : StateOnly dir file
  held : ∀ op lock, purpose = .update op lock → dir.entries .state = some file

section

variable (settings : Settings Op Byte) (dir : Directory FileName Byte)

/-- The text is still what its operation makes of the content. -/
def Writer.Judged (writer : Writer Op Byte) : Prop :=
  settings.judge writer.request (dir.read .state) = .write writer.text writer.seen

/-- The temporary file has the text. -/
structure Writer.Written (writer : Writer Op Byte) (key : Nat) : Prop where
  judged : writer.Judged settings dir
  text : dir.read (.temp key) = some writer.text
  fits : writer.text.length ≤ settings.maximum

/-- What a process knows at a place. -/
def Place.Knows : Place Op Byte → Prop
  | .examining purpose _ file => purpose.Opens dir file
  | .reading purpose file got =>
    purpose.Opens dir file ∧ got = (dir.contents file).take got.length ∧
      got.length ≤ settings.maximum + 1
  -- read to the end, or to one byte over the limit
  | .closing purpose file got =>
    purpose.Opens dir file ∧ got = (dir.contents file).take (settings.maximum + 1)
  -- under the lock nobody else replaces what was read
  | .deciding _ _ seen => dir.read .state = some seen ∧ seen.length ≤ settings.maximum
  | .preparing writer | .creating writer _ _ => writer.Judged settings dir
  -- what is in the file and what is left make up the text
  | .writing writer _ key file rest =>
    writer.Judged settings dir ∧ dir.entries (.temp key) = some file ∧
      dir.contents file ++ rest = writer.text ∧ (dir.contents file).length ≤ settings.maximum
  | .sealing writer _ key file =>
    writer.Written settings dir key ∧ dir.entries (.temp key) = some file
  | .comparing writer _ key | .replacing writer key => writer.Written settings dir key
  | _ => True

end

/-- What one statement does to the content and to the status of its process. -/
inductive Acts (settings : Settings Op Byte) (before after : Option (List Byte))
    (old new : Status Op Byte) : Prop where
  | silent (same : after = before) (status : new = old)
  | keep (same : after = before) (request : Request Op) (seen : Option (List Byte))
      (running : old = .running request) (judged : settings.judge request before = .keep seen)
      (status : new = .finished request seen)
  | write (request : Request Op) (text : List Byte) (seen : Option (List Byte))
      (running : old = .running request) (judged : settings.judge request before = .write text seen)
      (fits : text.length ≤ settings.maximum) (content : after = some text)
      (status : new = .finished request seen)
  | fail (same : after = before) (active : old ≠ .idle) (status : new = .failing)

/-- What one statement of a process does, seen by itself and by the others. -/
structure Advance (settings : Settings Op Byte) (dir : Directory FileName Byte)
    (place : Place Op Byte) (used : Option Nat) (dir' : Directory FileName Byte)
    (place' : Place Op Byte) : Prop where
  single : dir'.Single
  /-- Other processes still read the same file. -/
  others : ∀ file, used ≠ some file → StateOnly dir file →
    StateOnly dir' file ∧ dir'.contents file = dir.contents file
  /-- Without the lock, a process only ever takes the lock, while nobody has it. -/
  apart : place.lock = none → (dir' = dir ∧ place'.lock = none) ∨ dir.entries .lock = none
  lock : ∀ lock, place'.lock = some lock → dir'.entries .lock = some lock
  knows : place'.Knows settings dir'
  acts : Acts settings (dir.read .state) (dir'.read .state) place.status place'.status

section

variable {settings : Settings Op Byte} {dir dir' : Directory FileName Byte}
  {place place' : Place Op Byte} {used : Option Nat} {file : Nat}

namespace Advance

/-- A statement that leaves the directory alone. -/
private theorem same (single : dir.Single) (free : place.lock = none → place'.lock = none)
    (lock : ∀ lock, place'.lock = some lock → dir.entries .lock = some lock)
    (knows : place'.Knows settings dir)
    (acts : Acts settings (dir.read .state) (dir.read .state) place.status place'.status) :
    Advance settings dir place used dir place' where
  single := single
  others _ _ only := ⟨only, rfl⟩
  apart unlocked := .inl ⟨rfl, free unlocked⟩
  lock := lock
  knows := knows
  acts := acts

/-- A statement of a process that holds the lock, outside the file of the state. -/
private theorem beside (held : place.lock.isSome = true) (single : dir'.Single)
    (others : ∀ file, used ≠ some file → StateOnly dir file →
      StateOnly dir' file ∧ dir'.contents file = dir.contents file)
    (lock : ∀ lock, place'.lock = some lock → dir'.entries .lock = some lock)
    (knows : place'.Knows settings dir')
    (acts : Acts settings (dir.read .state) (dir'.read .state) place.status place'.status) :
    Advance settings dir place used dir' place' where
  single := single
  others := others
  apart free := by
    rw [free] at held
    cases held
  lock := lock
  knows := knows
  acts := acts

end Advance

/-! ### The statements that leave the directory alone -/

theorem Purpose.leave_lock (purpose : Purpose Op) :
    (purpose.leave : Place Op Byte).lock = purpose.lock := by
  cases purpose <;> rfl

theorem Purpose.leave_knows (purpose : Purpose Op) :
    (purpose.leave : Place Op Byte).Knows settings dir := by
  cases purpose <;> exact trivial

theorem Purpose.leave_status (purpose : Purpose Op) :
    (purpose.leave : Place Op Byte).status = .failing := by
  cases purpose <;> rfl

/-- An exception leads to where the process knows nothing and still holds its lock, if any. -/
theorem Place.raise_spec (raised : place.raise = some place') :
    (place'.lock = place.lock ∨ place'.lock = none) ∧ place'.Knows settings dir ∧
      place.status ≠ .idle ∧ place'.status = .failing := by
  cases place with
  | resting => cases raised
  | inspecting purpose | opening purpose | examining purpose | reading purpose | closing purpose =>
    cases raised
    exact ⟨.inl purpose.leave_lock, purpose.leave_knows, nofun, purpose.leave_status⟩
  | unlocking _ ending | unlinking _ ending | finishing ending =>
    cases raised
    refine ⟨.inr rfl, trivial, ?_, rfl⟩
    rcases ending with _ | ⟨request, seen⟩ <;> nofun
  | probing | locking =>
    cases raised
    exact ⟨.inr rfl, trivial, nofun, rfl⟩
  | noting | checking | deciding | discarding | preparing | creating | writing | sealing | comparing
  | replacing | syncing =>
    cases raised
    exact ⟨.inl rfl, trivial, nofun, rfl⟩

theorem Place.fault_spec (raised : place.fault = some place') :
    place'.lock = place.lock ∧ place'.Knows settings dir ∧ place.status ≠ .idle ∧
      place'.status = .failing := by
  cases place with
  | creating | writing | sealing | comparing | replacing | syncing =>
    cases raised
    exact ⟨rfl, trivial, nofun, rfl⟩
  | _ => cases raised

/-! ### The statements that change it -/

/-- Where the names stay and the file is not the one that is written, a reader is not disturbed. -/
private theorem others_append {name : FileName} {bytes : List Byte}
    (entry : dir.entries name = some file) (named : name ≠ .state) (kept : Nat)
    (only : StateOnly dir kept) :
    StateOnly (dir.append file bytes) kept ∧
      (dir.append file bytes).contents kept = dir.contents kept := by
  refine ⟨only, Directory.append_other ?_⟩
  rintro rfl
  exact named (only name entry)

private theorem others_unlink {name : FileName} (kept : Nat) (only : StateOnly dir kept) :
    StateOnly (dir.unlink name) kept ∧ (dir.unlink name).contents kept = dir.contents kept := by
  refine ⟨fun other found => ?_, rfl⟩
  by_cases same : other = name
  · rw [same, Directory.unlink_same] at found
    cases found
  · rw [Directory.unlink_other same] at found
    exact only other found

private theorem others_create {name : FileName} (created : dir.create name file = some dir')
    (kept : Nat) (unused : some file ≠ some kept) (only : StateOnly dir kept) :
    StateOnly dir' kept ∧ dir'.contents kept = dir.contents kept := by
  obtain ⟨-, own, others, -, contents⟩ := Directory.create_cases created
  refine ⟨fun other found => ?_, contents kept fun same => unused (congrArg some same.symm)⟩
  by_cases same : other = name
  · rw [same, own] at found
    exact (unused found).elim
  · rw [others other same] at found
    exact only other found

private theorem others_replace {key : Nat} (replaced : dir.replace (.temp key) .state = some dir')
    (kept : Nat) (only : StateOnly dir kept) :
    StateOnly dir' kept ∧ dir'.contents kept = dir.contents kept := by
  obtain ⟨file, own, -, gone, others, contents⟩ := Directory.replace_cases replaced nofun
  refine ⟨fun other found => ?_, congrFun contents kept⟩
  by_cases same : other = .state
  · exact same
  · by_cases temp : other = .temp key
    · rw [temp, gone] at found
      cases found
    · rw [others other temp same] at found
      exact only other found

private theorem read_append {name : FileName} {bytes : List Byte} (single : dir.Single)
    (entry : dir.entries name = some file) (named : name ≠ .state) :
    (dir.append file bytes).read .state = dir.read .state := by
  have names : (dir.append file bytes).entries .state = dir.entries .state := rfl
  apply Directory.read_congr names
  intro kept found
  apply Directory.append_other
  rintro rfl
  exact named (single name .state kept entry found)

private theorem read_unlink {name : FileName} (named : name ≠ .state) :
    (dir.unlink name).read .state = dir.read .state :=
  Directory.read_congr (Directory.unlink_other named.symm) fun _ _ => rfl

private theorem read_create {name : FileName} (created : dir.create name file = some dir')
    (unlinked : dir.Unlinked file) (named : name ≠ .state) :
    dir'.read .state = dir.read .state := by
  obtain ⟨-, -, others, -, contents⟩ := Directory.create_cases created
  apply Directory.read_congr (others .state named.symm)
  intro kept found
  apply contents
  rintro rfl
  exact unlinked .state found

private theorem read_state {file : Nat} (entry : dir.entries .state = some file) :
    dir.read .state = some (dir.contents file) := Directory.read_of_entry entry

private theorem absent_read (absent : (dir.entries .state).isSome = false) :
    dir.read .state = none := by
  rw [Option.isSome_eq_false_iff, Option.isNone_iff_eq_none] at absent
  rw [Directory.read, absent, Option.map_none]

private theorem present_judge (present : (dir.entries .state).isSome = true) :
    settings.judge .create (dir.read .state) = .keep none := by
  obtain ⟨file, found⟩ := Option.isSome_iff_exists.1 present
  rw [read_state found]
  rfl

/-- The lock file is written. -/
private theorem noting_advance {request : Request Op} {lock : Nat} (single : dir.Single)
    (held : dir.entries .lock = some lock)
    (next : (Place.noting request lock).proceed settings dir = some (dir', place')) :
    Advance settings dir (.noting request lock) used dir' place' := by
  obtain ⟨rfl, rfl⟩ := Prod.mk.inj (Option.some.inj next)
  have read : (dir.append lock settings.note).read .state = dir.read .state :=
    read_append single held nofun
  apply Advance.beside rfl (single.append _ _)
    fun kept _ only => others_append held nofun kept only
  · intro own same
    cases request with
    | read => cases same
    | create | update =>
      cases same
      exact held
  · cases request <;> exact trivial
  · refine .silent read ?_
    cases request <;> rfl

/-- What was read is the whole content, which is still current. -/
private theorem closing_advance {purpose : Purpose Op} {got : List Byte} (single : dir.Single)
    (held : ∀ lock, purpose.lock = some lock → dir.entries .lock = some lock)
    (knows : (Place.closing purpose file got).Knows settings dir)
    (next : (Place.closing purpose file got).proceed settings dir = some (dir', place')) :
    Advance settings dir (.closing purpose file got) used dir' place' := by
  obtain ⟨-, prefix_⟩ := knows
  simp only [Place.proceed] at next
  split at next
  · next passed =>
    obtain ⟨rfl, rfl⟩ := Prod.mk.inj (Option.some.inj next)
    obtain ⟨current, short⟩ := passed
    -- fewer bytes than the limit came back, so the end of the file was reached
    have whole : got = dir.contents file := by
      rw [prefix_, List.length_take] at short
      rw [prefix_, List.take_of_length_le (by omega)]
    have read : dir.read .state = some got := by rw [read_state current, whole]
    cases purpose with
    | read =>
      dsimp only
      refine .same single (fun _ => rfl) nofun trivial (.keep rfl .read (some got) rfl ?_ rfl)
      rw [read]
      exact if_pos short
    | update op lock =>
      dsimp only
      exact .same single id held ⟨read, short⟩ (.silent rfl rfl)
  · cases next

private theorem deciding_advance {op : Op} {lock : Nat} {seen : List Byte} (single : dir.Single)
    (held : dir.entries .lock = some lock)
    (knows : (Place.deciding op lock seen).Knows settings dir)
    (next : (Place.deciding op lock seen).proceed settings dir = some (dir', place')) :
    Advance settings dir (.deciding op lock seen) used dir' place' := by
  obtain ⟨read, short⟩ := knows
  obtain ⟨rfl, rfl⟩ := Prod.mk.inj (Option.some.inj next)
  -- the lock is held, so the register is still as it was read
  have judged : settings.judge (.update op) (dir.read .state) =
      match settings.decide op seen with
      | .refuse => .refuse
      | .keep => .keep (some seen)
      | .write text => .write text (some seen) := by
    rw [read]
    exact if_pos short
  cases decided : settings.decide op seen with
  | refuse =>
    refine .same single nofun ?_ trivial (.fail rfl nofun rfl)
    rintro _ ⟨⟩
    exact held
  | keep =>
    rw [decided] at judged
    refine .same single nofun ?_ trivial (.keep rfl (.update op) (some seen) rfl judged rfl)
    rintro _ ⟨⟩
    exact held
  | write text =>
    rw [decided] at judged
    refine .same single nofun ?_ judged (.silent rfl rfl)
    rintro _ ⟨⟩
    exact held

/-- The temporary file takes the place of the state. -/
private theorem replacing_advance {writer : Writer Op Byte} {key : Nat} (single : dir.Single)
    (held : dir.entries .lock = some writer.lock)
    (knows : (Place.replacing writer key).Knows settings dir)
    (next : (Place.replacing writer key).proceed settings dir = some (dir', place')) :
    Advance settings dir (.replacing writer key) used dir' place' := by
  obtain ⟨replaced, moves, placed⟩ := Option.map_eq_some_iff.1 next
  obtain ⟨rfl, rfl⟩ := Prod.mk.inj placed
  obtain ⟨tmp, own, moved, -, others, contents⟩ := Directory.replace_cases moves nofun
  have text : dir.contents tmp = writer.text := by
    have read := knows.text
    rwa [Directory.read_of_entry own, Option.some.injEq] at read
  apply Advance.beside rfl (single.replace moves nofun)
    fun kept _ only => others_replace moves kept only
  · rintro _ ⟨⟩
    rw [others .lock nofun nofun]
    exact held
  · exact trivial
  · refine .write writer.request writer.text writer.seen rfl knows.judged knows.fits ?_ rfl
    rw [read_state moved, contents, text]

/-- The statements that succeed without a choice of the system. -/
theorem Place.proceed_advance (single : dir.Single)
    (held : ∀ lock, place.lock = some lock → dir.entries .lock = some lock)
    (knows : place.Knows settings dir)
    (next : place.proceed settings dir = some (dir', place')) :
    Advance settings dir place used dir' place' := by
  cases place with
  | resting | locking | preparing | creating | finishing => cases next
  | noting request lock => exact noting_advance single (held lock rfl) next
  | closing purpose file got => exact closing_advance single held knows next
  | deciding op lock seen => exact deciding_advance single (held lock rfl) knows next
  | replacing writer key => exact replacing_advance single (held writer.lock rfl) knows next
  | probing =>
    simp only [Place.proceed] at next
    split at next
    · next present =>
      obtain ⟨rfl, rfl⟩ := Prod.mk.inj (Option.some.inj next)
      exact .same single (fun _ => rfl) nofun trivial (.keep rfl .create none rfl (present_judge present) rfl)
    · obtain ⟨rfl, rfl⟩ := Prod.mk.inj (Option.some.inj next)
      exact .same single (fun _ => rfl) nofun trivial (.silent rfl rfl)
  | checking lock =>
    simp only [Place.proceed] at next
    split at next
    · next present =>
      obtain ⟨rfl, rfl⟩ := Prod.mk.inj (Option.some.inj next)
      exact .same single id held trivial (.keep rfl .create none rfl (present_judge present) rfl)
    · next absent =>
      obtain ⟨rfl, rfl⟩ := Prod.mk.inj (Option.some.inj next)
      refine .same single id held ?_ (.silent rfl rfl)
      show settings.judge .create (dir.read .state) = _
      rw [absent_read (Bool.not_eq_true _ ▸ absent)]
      rfl
  | inspecting purpose =>
    obtain ⟨before, -, placed⟩ := Option.map_eq_some_iff.1 next
    obtain ⟨rfl, rfl⟩ := Prod.mk.inj placed
    exact .same single id held trivial (.silent rfl rfl)
  | opening purpose before =>
    obtain ⟨file, found, placed⟩ := Option.map_eq_some_iff.1 next
    obtain ⟨rfl, rfl⟩ := Prod.mk.inj placed
    have opens : purpose.Opens dir file :=
      ⟨fun name other => single name .state file other found, fun _ _ _ => found⟩
    exact .same single id held opens (.silent rfl rfl)
  | examining purpose before file =>
    simp only [Place.proceed] at next
    split at next
    · obtain ⟨rfl, rfl⟩ := Prod.mk.inj (Option.some.inj next)
      exact .same single id held ⟨knows, rfl, Nat.zero_le _⟩ (.silent rfl rfl)
    · cases next
  | reading purpose file got =>
    obtain ⟨opens, prefix_, short⟩ := knows
    simp only [Place.proceed] at next
    split at next
    · next ended =>
      obtain ⟨rfl, rfl⟩ := Prod.mk.inj (Option.some.inj next)
      refine .same single id held ⟨opens, ?_⟩ (.silent rfl rfl)
      rcases ended with all | full
      · rw [List.take_of_length_le all] at prefix_
        rw [List.take_of_length_le (Nat.le_trans all short)]
        exact prefix_
      · rw [← full]
        exact prefix_
    · cases next
  | writing writer before key file rest =>
    obtain ⟨judged, entry, text, short⟩ := knows
    simp only [Place.proceed] at next
    split at next
    · next done =>
      obtain ⟨rfl, rfl⟩ := Prod.mk.inj (Option.some.inj next)
      rw [done, List.append_nil] at text
      rw [text] at short
      have read : dir.read (.temp key) = some writer.text := by
        rw [Directory.read_of_entry entry, text]
      exact .same single id held ⟨⟨judged, read, short⟩, entry⟩ (.silent rfl rfl)
    · cases next
  | sealing writer before key file =>
    simp only [Place.proceed] at next
    split at next
    · obtain ⟨rfl, rfl⟩ := Prod.mk.inj (Option.some.inj next)
      exact .same single id held knows.1 (.silent rfl rfl)
    · cases next
  | comparing writer before key =>
    simp only [Place.proceed] at next
    split at next
    · obtain ⟨rfl, rfl⟩ := Prod.mk.inj (Option.some.inj next)
      exact .same single id held knows (.silent rfl rfl)
    · cases next
  | syncing writer key =>
    obtain ⟨rfl, rfl⟩ := Prod.mk.inj (Option.some.inj next)
    exact .same single id held trivial (.silent rfl rfl)
  | discarding lock key =>
    obtain ⟨rfl, rfl⟩ := Prod.mk.inj (Option.some.inj next)
    have apart : FileName.lock ≠ .temp key := nofun
    refine .beside rfl (single.unlink _) (fun kept _ only => others_unlink kept only) ?_ trivial
      (.silent (read_unlink nofun) rfl)
    rintro _ ⟨⟩
    rw [Directory.unlink_other apart]
    exact held lock rfl
  | unlocking lock ending =>
    simp only [Place.proceed] at next
    split at next
    · obtain ⟨rfl, rfl⟩ := Prod.mk.inj (Option.some.inj next)
      exact .same single id held trivial (.silent rfl rfl)
    · cases next
  | unlinking lock ending =>
    obtain ⟨rfl, rfl⟩ := Prod.mk.inj (Option.some.inj next)
    exact .beside rfl (single.unlink _) (fun kept _ only => others_unlink kept only) nofun trivial
      (.silent (read_unlink nofun) rfl)

theorem Place.create_advance (single : dir.Single) (unlinked : dir.Unlinked file)
    (held : ∀ lock, place.lock = some lock → dir.entries .lock = some lock)
    (knows : place.Knows settings dir) (next : place.create dir file = some (dir', place')) :
    Advance settings dir place (some file) dir' place' := by
  cases place with
  | locking request =>
    obtain ⟨made, created, placed⟩ := Option.map_eq_some_iff.1 next
    obtain ⟨rfl, rfl⟩ := Prod.mk.inj placed
    obtain ⟨absent, own, -⟩ := Directory.create_cases created
    refine ⟨single.create unlinked created, others_create created, fun _ => .inr absent, ?_, trivial,
      .silent (read_create created unlinked nofun) rfl⟩
    rintro _ ⟨⟩
    exact own
  | creating writer before key =>
    obtain ⟨made, created, placed⟩ := Option.map_eq_some_iff.1 next
    obtain ⟨rfl, rfl⟩ := Prod.mk.inj placed
    obtain ⟨-, own, others, empty, -⟩ := Directory.create_cases created
    -- a file that no name leads to changes no read
    have read : made.read .state = dir.read .state := read_create created unlinked nofun
    apply Advance.beside rfl (single.create unlinked created) (others_create created)
    · rintro _ ⟨⟩
      rw [others .lock nofun]
      exact held writer.lock rfl
    · refine ⟨?_, own, ?_, ?_⟩
      · rw [Writer.Judged, read]
        exact knows
      · rw [empty, List.nil_append]
      · rw [empty]
        exact Nat.zero_le _
    · exact .silent read rfl
  | _ => cases next

theorem Place.transfer_advance {count : Nat} (single : dir.Single)
    (held : ∀ lock, place.lock = some lock → dir.entries .lock = some lock)
    (knows : place.Knows settings dir)
    (next : place.transfer settings dir count = some (dir', place')) :
    Advance settings dir place used dir' place' := by
  cases place with
  | reading purpose file got =>
    obtain ⟨opens, prefix_, short⟩ := knows
    simp only [Place.transfer] at next
    split at next
    · next bounded =>
      obtain ⟨rfl, rfl⟩ := Prod.mk.inj (Option.some.inj next)
      refine .same single id held ⟨opens, ?_, ?_⟩ (.silent rfl rfl)
      · -- what was read and the bytes behind it are again the first bytes of the file
        generalize dir.contents file = content at prefix_
        rw [List.length_append, List.length_take, List.length_drop]
        have within : got.length ≤ content.length := by
          have same := congrArg List.length prefix_
          rw [List.length_take] at same
          omega
        rw [List.take_add, ← prefix_]
        congr 1
        rcases Nat.le_total count (content.length - got.length) with less | more
        · rw [Nat.min_eq_left less]
        · rw [Nat.min_eq_right more, List.take_of_length_le (by simpa using more),
            List.take_of_length_le (by simp)]
      · rw [List.length_append, List.length_take]
        omega
    · cases next
  | writing writer before key file rest =>
    obtain ⟨judged, entry, text, short⟩ := knows
    simp only [Place.transfer] at next
    split at next
    · next bounded =>
      obtain ⟨rfl, rfl⟩ := Prod.mk.inj (Option.some.inj next)
      have read : (dir.append file (rest.take count)).read .state = dir.read .state :=
        read_append single entry nofun
      apply Advance.beside rfl (single.append _ _)
        fun kept _ only => others_append entry nofun kept only
      · exact held
      · refine ⟨?_, entry, ?_, ?_⟩
        · rw [Writer.Judged, read]
          exact judged
        · rw [Directory.append_same, List.append_assoc, List.take_append_drop]
          exact text
        · have length := congrArg List.length text
          rw [List.length_append] at length
          rw [Directory.append_same, List.length_append, List.length_take]
          omega
      · exact .silent read rfl
    · cases next
  | _ => cases next

/-- One statement of one process. -/
theorem Place.next_advance {choice : Choice} (single : dir.Single)
    (unlinked : ∀ file, choice = .create file → dir.Unlinked file)
    (held : ∀ lock, place.lock = some lock → dir.entries .lock = some lock)
    (knows : place.Knows settings dir) (next : place.next settings dir choice = some (dir', place')) :
    Advance settings dir place (match choice with | .create file => some file | _ => none)
      dir' place' := by
  cases choice with
  | proceed => exact Place.proceed_advance single held knows next
  | create file => exact Place.create_advance single (unlinked file rfl) held knows next
  | transfer count => exact Place.transfer_advance single held knows next
  | draw key =>
    obtain ⟨after, drawn, placed⟩ := Option.map_eq_some_iff.1 next
    obtain ⟨rfl, rfl⟩ := Prod.mk.inj placed
    cases place with
    | preparing writer =>
      cases drawn
      exact .same single id held knows (.silent rfl rfl)
    | _ => cases drawn
  -- a raise may give the lock up, a fault keeps it
  | raise =>
    obtain ⟨after, raised, placed⟩ := Option.map_eq_some_iff.1 next
    obtain ⟨rfl, rfl⟩ := Prod.mk.inj placed
    obtain ⟨lock, knows, active, failing⟩ := @Place.raise_spec _ _ settings dir _ _ raised
    refine .same single (fun free => ?_) ?_ knows (.fail rfl active failing)
    · rcases lock with kept | gone
      · rw [kept, free]
      · exact gone
    intro own same
    rcases lock with kept | gone
    · exact held own (kept ▸ same)
    · rw [gone] at same
      cases same
  | fault =>
    obtain ⟨after, raised, placed⟩ := Option.map_eq_some_iff.1 next
    obtain ⟨rfl, rfl⟩ := Prod.mk.inj placed
    obtain ⟨lock, knows, active, failing⟩ := @Place.fault_spec _ _ settings dir _ _ raised
    exact .same single (fun free => lock.trans free) (fun own same => held own (lock ▸ same)) knows
      (.fail rfl active failing)

end

/-! ### All processes -/

/-- What another process does leaves a reader its file. -/
theorem Place.Knows.beside {settings : Settings Op Byte} {dir dir' : Directory FileName Byte}
    {place : Place Op Byte} (knows : place.Knows settings dir) (free : place.lock = none)
    (others : ∀ file, place.opened = some file → StateOnly dir file →
      StateOnly dir' file ∧ dir'.contents file = dir.contents file) :
    place.Knows settings dir' := by
  have opens {purpose : Purpose Op} {file : Nat} (opened : place.opened = some file)
      (own : purpose.Opens dir file) (unlocked : purpose.lock = none) : purpose.Opens dir' file := by
    refine ⟨(others file opened own.only).1, ?_⟩
    rintro op lock rfl
    cases unlocked
  cases place with
  | examining purpose _ file => exact opens rfl knows free
  | reading purpose file got =>
    obtain ⟨own, prefix_, short⟩ := knows
    refine ⟨opens rfl own free, ?_, short⟩
    rw [(others file rfl own.only).2]
    exact prefix_
  | closing purpose file got =>
    obtain ⟨own, prefix_⟩ := knows
    refine ⟨opens rfl own free, ?_⟩
    rw [(others file rfl own.only).2]
    exact prefix_
  | deciding | preparing | creating | writing | sealing | comparing | replacing => cases free
  | _ => exact trivial

/-- The lock file is that of its only holder, and each process is right about what it knows. -/
structure Sound (settings : Settings Op Byte) (s : Shared Op Byte) : Prop where
  single : s.dir.Single
  held : ∀ process lock, (s.places process).lock = some lock → s.dir.entries .lock = some lock
  alone : ∀ p q, (s.places p).lock.isSome = true → (s.places q).lock.isSome = true → p = q
  knows : ∀ process, (s.places process).Knows settings s.dir

/-- The content of the file and the status of each process. -/
def Shared.view (s : Shared Op Byte) : Register Op Byte where
  content := s.dir.read .state
  status process := (s.places process).status

section

variable {settings : Settings Op Byte} {s t : Shared Op Byte} {process : Nat}
  {place : Place Op Byte} {dir : Directory FileName Byte}

@[simp] theorem Shared.move_same : (s.move process place).places process = place :=
  Function.update_self ..

theorem Shared.move_other {other : Nat} (apart : other ≠ process) :
    (s.move process place).places other = s.places other := Function.update_of_ne apart ..

theorem Shared.view_move : (s.move process place).view = s.view.put process place.status := by
  unfold Shared.view Register.put
  congr 1
  funext other
  by_cases own : other = process
  · rw [own, Shared.move_same, Function.update_self]
  · rw [Shared.move_other own, Function.update_of_ne own]

private theorem view_status (here : s.places process = place) :
    s.view.status process = place.status := congrArg Place.status here

namespace Sound

/-- A process goes where it holds nothing and knows nothing. -/
private theorem move (sound : Sound settings s) (free : place.lock = none)
    (knows : place.Knows settings s.dir) : Sound settings (s.move process place) where
  single := sound.single
  held other lock own := by
    by_cases same : other = process
    · rw [same, Shared.move_same, free] at own
      cases own
    · rw [Shared.move_other same] at own
      exact sound.held other lock own
  alone p q first second := by
    by_cases left : p = process
    · rw [left, Shared.move_same, free] at first
      cases first
    · by_cases right : q = process
      · rw [right, Shared.move_same, free] at second
        cases second
      · rw [Shared.move_other left] at first
        rw [Shared.move_other right] at second
        exact sound.alone p q first second
  knows other := by
    by_cases same : other = process
    · rw [same, Shared.move_same]
      exact knows
    · rw [Shared.move_other same]
      exact sound.knows other

private theorem clear (sound : Sound settings s)
    (dead : ∀ process, (s.places process).lock = none) :
    Sound settings { s with dir := s.dir.unlink .lock } where
  single := sound.single.unlink _
  held other lock own := by
    rw [dead other] at own
    cases own
  alone p _ first := by
    rw [dead p] at first
    cases first
  knows other := (sound.knows other).beside (dead other) fun file _ only => others_unlink file only

/-- The others keep what they know, and at most one of all holds the lock. -/
private theorem advance (sound : Sound settings s) {used : Option Nat}
    (unused : ∀ file, used = some file → s.Unused file)
    (advance : Advance settings s.dir (s.places process) used dir place) :
    Sound settings { s.move process place with dir := dir } := by
  -- while another process holds the lock, this one cannot touch what it protects
  have other_held (other lock : Nat) (apart : other ≠ process)
      (own : (s.places other).lock = some lock) : dir = s.dir ∧ place.lock = none := by
    have free : (s.places process).lock = none := by
      rw [← Option.not_isSome_iff_eq_none]
      intro holds
      exact apart (sound.alone other process (by rw [own]; rfl) holds)
    rcases advance.apart free with same | absent
    · exact same
    · rw [sound.held other lock own] at absent
      cases absent
  refine ⟨advance.single, ?_, ?_, ?_⟩
  · intro other lock own
    by_cases same : other = process
    · rw [same, Shared.move_same] at own
      exact advance.lock lock own
    · rw [Shared.move_other same] at own
      rw [(other_held other lock same own).1]
      exact sound.held other lock own
  · intro p q first second
    by_cases left : p = process
    · by_cases right : q = process
      · rw [left, right]
      · rw [Shared.move_other right] at second
        obtain ⟨lock, own⟩ := Option.isSome_iff_exists.1 second
        rw [left, Shared.move_same, (other_held q lock right own).2] at first
        cases first
    · rw [Shared.move_other left] at first
      by_cases right : q = process
      · obtain ⟨lock, own⟩ := Option.isSome_iff_exists.1 first
        rw [right, Shared.move_same, (other_held p lock left own).2] at second
        cases second
      · rw [Shared.move_other right] at second
        exact sound.alone p q first second
  · intro other
    by_cases same : other = process
    · rw [same, Shared.move_same]
      exact advance.knows
    · rw [Shared.move_other same]
      cases own : (s.places other).lock with
      | some lock =>
        dsimp only
        rw [(other_held other lock same own).1]
        exact sound.knows other
      | none =>
        apply (sound.knows other).beside own
        intro file opened only
        apply advance.others file _ only
        intro created
        exact ((unused file created).2 other).1 opened

/-- What one statement does is a step of the register, or nothing. -/
private theorem acts_step (before after : Register Op Byte) {new : Status Op Byte}
    (acts : Acts settings before.content after.content (before.status process) new)
    (status : after.status = Function.update before.status process new) :
    Register.Step settings before none after ∨ after = before := by
  obtain ⟨content, statuses⟩ := before
  obtain ⟨content', statuses'⟩ := after
  obtain rfl : statuses' = Function.update statuses process new := status
  cases acts with
  | silent same kept =>
    obtain rfl : content' = content := same
    obtain rfl : new = statuses process := kept
    exact .inr (by rw [Function.update_eq_self])
  | keep same request seen running judged finished =>
    obtain rfl : content' = content := same
    subst finished
    exact .inl (.keep process request seen running judged)
  | write request text seen running judged fits written finished =>
    obtain rfl : content' = some text := written
    subst finished
    exact .inl (.write process request text seen running judged fits)
  | fail same active failing =>
    obtain rfl : content' = content := same
    subst failing
    exact .inl (.fail process active)

end Sound

/-- The processes with their system calls refine the processes that act in one step. -/
theorem machine_refines (settings : Settings Op Byte) :
    Refines (Shared.machine settings) (Register.machine settings) (Sound settings) Shared.view where
  starts s initial := by
    obtain ⟨single, rest⟩ := initial
    refine ⟨⟨single, ?_, ?_, ?_⟩, ?_⟩
    · intro process lock own
      rw [rest process] at own
      cases own
    · intro p _ first
      rw [rest p] at first
      cases first
    · intro process
      rw [rest process]
      exact trivial
    · intro process
      show (s.places process).status = _
      rw [rest process]
      rfl
  keeps s shown t sound step := by
    cases step with
    | begin process request =>
      refine sound.move ?_ ?_ <;> cases request <;> first | rfl | exact trivial
    | advance process choice dir place unused next =>
      apply sound.advance _ (Place.next_advance sound.single (fun file created =>
        (unused file created).1) (sound.held process) (sound.knows process) next)
      intro file created
      cases choice <;> cases created
      exact unused file rfl
    | returns | raises | crash => exact sound.move rfl trivial
    | clear dead => exact sound.clear dead
  steps s shown t sound step := by
    cases step with
    | begin process request rests =>
      left
      rw [Shared.view_move]
      have start : (request.start : Place Op Byte).status = .running request := by
        cases request <;> rfl
      rw [start]
      exact .begin process request (view_status rests)
    | advance process choice dir place unused next =>
      have advance := Place.next_advance sound.single (fun file created => (unused file created).1)
        (sound.held process) (sound.knows process) next
      -- most steps of the file are none of the register's
      rcases Sound.acts_step s.view { s.move process place with dir := dir }.view advance.acts
        (congrArg Register.status Shared.view_move) with step | same
      · exact .inl step
      · exact .inr ⟨rfl, same⟩
    | returns process request seen done =>
      left
      rw [Shared.view_move]
      exact .returns process request seen (view_status done)
    | raises process done =>
      left
      rw [Shared.view_move]
      exact .raises process (view_status done)
    | crash process =>
      left
      rw [Shared.view_move]
      exact .crash process
    | clear =>
      right
      have apart : FileName.lock ≠ .state := nofun
      exact ⟨rfl, congrArg (fun content => Register.mk content s.view.status) (read_unlink apart)⟩

end

/-- In every run of the processes, with crashes anywhere and lock files that an operator clears: the
requests act on the file one after another, each at a moment between its begin and its return, no
update is lost and no read is torn; and at most one process is inside the lock. -/
theorem requests_take_turns (settings : Settings Op Byte) {s t : Shared Op Byte}
    {events : List (Event Op Byte)} (single : s.dir.Single)
    (resting : ∀ process, s.places process = .resting)
    (run : (Shared.machine settings).Run s events t) :
    (Register.machine settings).Run s.view events t.view ∧
      ∀ p q, (t.places p).lock.isSome = true → (t.places q).lock.isSome = true → p = q := by
  obtain ⟨sound, -, seen⟩ := (machine_refines settings).run_initial ⟨single, resting⟩ run
  exact ⟨seen, sound.alone⟩

/-! ### Two processes that append: one finds the lock taken, and the other one's text is written -/

private def appending : Settings Unit Nat where
  maximum := 8
  initial := []
  note := [1]
  decide _ seen := .write (seen ++ [7])

private def stored : Directory FileName Nat where
  entries := Function.update (fun _ => none) .state (some 0)
  contents _ := [3]

private theorem stored_entry {name : FileName} {file : Nat}
    (found : stored.entries name = some file) : name = .state ∧ file = 0 := by
  unfold stored at found
  dsimp only at found
  by_cases same : name = .state
  · rw [same, Function.update_self, Option.some.injEq] at found
    exact ⟨same, found.symm⟩
  · rw [Function.update_of_ne same] at found
    cases found

/-- Some statements of one process in a row, as the system chooses. -/
def Place.nexts {Op Byte : Type} (settings : Settings Op Byte) (dir : Directory FileName Byte)
    (place : Place Op Byte) : List Choice → Option (Directory FileName Byte × Place Op Byte)
  | [] => some (dir, place)
  | choice :: rest => (place.next settings dir choice).bind fun after =>
      after.2.nexts settings after.1 rest

def Choice.creates : Choice → Bool
  | .create _ => true
  | _ => false

theorem Shared.run_nexts {Op Byte : Type} {settings : Settings Op Byte} {s t : Shared Op Byte}
    {events : List (Event Op Byte)} {process : Nat} {choices : List Choice}
    (run : (Shared.machine settings).Run s events t) (creates : choices.all (!·.creates) = true)
    {dir : Directory FileName Byte} {place : Place Op Byte}
    (taken : (t.places process).nexts settings t.dir choices = some (dir, place)) :
    (Shared.machine settings).Run s events { t.move process place with dir := dir } := by
  induction choices generalizing t with
  | nil =>
    obtain ⟨rfl, rfl⟩ := Prod.mk.inj (Option.some.inj taken)
    rwa [Shared.move, Function.update_eq_self]
  | cons choice rest ih =>
    obtain ⟨after, next, taken⟩ := Option.bind_eq_some_iff.1 taken
    rw [List.all_cons, Bool.and_eq_true] at creates
    have unused : ∀ file, choice = .create file → t.Unused file := by
      rintro file rfl
      cases creates.1
    have moved := ih (.silent run (Shared.Step.advance process choice after.1 after.2 unused next)) creates.2
      (by rw [Shared.move_same]; exact taken)
    rwa [Shared.move, Shared.move, Function.update_idem] at moved

private def contended : List (Event Unit Nat) :=
  [.began 0 (.update ()), .began 1 (.update ()), .raised 1, .returned 0 (.update ()) (some [3])]

/-- The first process reads the file under its lock and prepares the new text, -/
private def prepared : List Choice :=
  [.proceed, .proceed, .proceed, .proceed, .transfer 1, .proceed, .proceed, .proceed, .draw 9]

/-- and writes it to a file that takes the place of the old one. -/
private def replaced : List Choice :=
  [.transfer 2, .proceed, .proceed, .proceed, .proceed, .proceed, .proceed, .proceed]

private theorem contended_run : ∃ t, (Shared.machine appending).Run ⟨stored, fun _ => .resting⟩
    contended t ∧ t.dir.read .state = some [3, 7] := by
  have unused : ∀ file, Choice.create 1 = .create file →
      (Shared.move ⟨stored, fun _ => .resting⟩ 0 (.locking (.update ()))).Unused file := by
    rintro _ ⟨⟩
    constructor
    · intro name found
      cases (stored_entry found).2
    · intro process
      by_cases first : process = 0
      · rw [first, Shared.move_same]
        exact ⟨nofun, nofun⟩
      · rw [Shared.move_other first]
        exact ⟨nofun, nofun⟩
  have locked : (Shared.machine appending).Run ⟨stored, fun _ => .resting⟩
      [.began 0 (.update ()), .began 1 (.update ()), .raised 1] _ :=
    .shown (.silent (.shown (.silent (.shown .start
      (Shared.Step.begin 0 (.update ()) rfl)) (Shared.Step.advance 0 (.create 1) _ _ unused rfl))
      (Shared.Step.begin 1 (.update ()) rfl)) (Shared.Step.advance 1 .raise _ _ nofun rfl))
      (Shared.Step.raises 1 rfl)
  have creating := @Shared.run_nexts _ _ _ _ _ _ 0 prepared locked rfl _ _ rfl
  refine ⟨_, .shown (@Shared.run_nexts _ _ _ _ _ _ 0 replaced (.silent creating
    (Shared.Step.advance 0 (.create 2) _ _ ?_ rfl)) rfl _ _ rfl)
    (Shared.Step.returns 0 (.update ()) (some [3]) rfl), rfl⟩
  -- the lock and the state are the only names, and only the first process has a file
  rintro _ ⟨⟩
  constructor
  · intro name found
    change Function.update stored.entries .lock (some 1) name = some 2 at found
    by_cases lock : name = .lock
    · rw [lock, Function.update_self] at found
      cases found
    · rw [Function.update_of_ne lock] at found
      cases (stored_entry found).2
  · intro process
    by_cases first : process = 0
    · rw [first, Shared.move_same]
      exact ⟨nofun, nofun⟩
    · by_cases second : process = 1
      · rw [second]
        exact ⟨nofun, nofun⟩
      · simp [Shared.move, Function.update_of_ne first, Function.update_of_ne second, Place.opened, Place.lock]

/-- The general theorem at this run. -/
theorem requests_take_turns_contended :
    ∃ r, (Register.machine appending).Run (Shared.view ⟨stored, fun _ => .resting⟩) contended r ∧
      r.content = some [3, 7] := by
  obtain ⟨t, run, content⟩ := contended_run
  have single : stored.Single := by
    intro a b file first second
    rw [(stored_entry first).1, (stored_entry second).1]
  exact ⟨t.view, (requests_take_turns appending single (fun _ => rfl) run).1, content⟩

end StateFile
end DefiantHarness
