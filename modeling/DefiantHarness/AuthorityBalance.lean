import DefiantHarness.AuthorityLock
import Mathlib.Algebra.GroupWithZero.Nat

/-!
# Balance of the authority transaction lock

At most one attempt of the process is past the process lock without being nested, so the guard, the
descriptors and the file lock are fixed by the place of that attempt. The hold count of a thread is
what its attempts hold and what a raising `prepare_storage_root` has left behind.
-/

namespace DefiantHarness
namespace AuthorityLock

namespace RLock

variable {Thread : Type} [DecidableEq Thread] {lock lock' : RLock Thread} {t u : Thread}

theorem holds_exclusive (first : 0 < lock.holds t) (second : 0 < lock.holds u) : t = u := by
  cases lock with
  | free => simp [holds] at first
  | held owner further =>
    simp only [holds] at first second
    split at first <;> split at second <;> simp_all

theorem holds_acquire (taken : lock.acquire t = some lock') (u : Thread) :
    lock'.holds u = lock.holds u + if u = t then 1 else 0 := by
  cases lock with
  | free =>
    obtain rfl : RLock.held t 0 = lock' := by simpa [acquire] using taken
    by_cases same : u = t
    · simp [holds, same]
    · simp [holds, same, Ne.symm same]
  | held owner further =>
    simp only [acquire, Option.ite_none_right_eq_some, Option.some.injEq] at taken
    obtain ⟨rfl, rfl⟩ := taken
    by_cases same : u = owner
    · simp [holds, same]
    · simp [holds, same, Ne.symm same]

theorem acquire_isSome (others : ∀ u, u ≠ t → lock.holds u = 0) :
    ∃ lock', lock.acquire t = some lock' := by
  cases lock with
  | free => exact ⟨_, rfl⟩
  | held owner further =>
    by_cases same : owner = t
    · exact ⟨_, if_pos same⟩
    · simpa [holds] using others owner same

theorem holds_other (taken : lock.acquire t = some lock') (other : u ≠ t) : lock.holds u = 0 := by
  cases lock with
  | free => rfl
  | held owner further =>
    simp only [acquire, Option.ite_none_right_eq_some] at taken
    exact if_neg (taken.1 ▸ Ne.symm other)

theorem holds_release (given : lock.release t = some lock') (u : Thread) :
    lock.holds u = lock'.holds u + if u = t then 1 else 0 := by
  cases lock with
  | free => simp [release] at given
  | held owner further =>
    simp only [release, Option.ite_none_right_eq_some] at given
    obtain ⟨rfl, given⟩ := given
    cases further <;> obtain rfl := Option.some.inj given <;>
      by_cases same : u = owner <;> simp [holds, same, eq_comm]

end RLock

/-! ## What the attempts of a thread account for -/

namespace Place

/-- The process lock is held once for the attempt. -/
def holding : Place → Nat
  | .calling => 0
  | _ => 1

/-- The places an attempt inside another context can be at. -/
def inner : Place → Bool
  | .calling | .gated | .nested | .releasing => true
  | _ => false

def inGuard : Place → Bool
  | .inspecting | .opening | .checking _ | .initializing _ | .locking _ | .recording _
  | .unlocking _ _ | .closing _ _ => true
  | _ => false

/-- The descriptor the attempt has open. -/
def openFd : Place → Option Fd
  | .checking fd | .initializing fd | .locking fd | .recording fd | .counting fd
  | .outermost fd => some fd
  | .cleaning fd _ | .unlocking fd _ | .closing fd _ => fd
  | _ => none

/-- The descriptor the attempt has in the active set. -/
def activeFd : Place → Option Fd
  | .counting fd | .outermost fd => some fd
  | .cleaning fd true | .unlocking fd true | .closing fd true => fd
  | _ => none

/-- The descriptor that certainly has the file lock. -/
def lockedFd : Place → Option Fd
  | .recording fd | .counting fd | .outermost fd => some fd
  | .cleaning fd true | .unlocking fd true => fd
  | _ => none

/-- The descriptor that may have the file lock: unlocking it can have failed. -/
def lockableFd : Place → Option Fd
  | .closing fd true => fd
  | place => place.lockedFd

end Place

def holdCount (attempts : List Attempt) : Nat := (attempts.map (·.place.holding)).sum

def entries (attempts : List Attempt) : Nat := attempts.countP (·.place.entered)

@[simp] theorem holdCount_nil : holdCount [] = 0 := rfl

@[simp] theorem holdCount_cons (a : Attempt) (attempts : List Attempt) :
    holdCount (a :: attempts) = a.place.holding + holdCount attempts := by
  simp [holdCount]

@[simp] theorem entries_nil : entries [] = 0 := rfl

theorem entries_cons (a : Attempt) (attempts : List Attempt) :
    entries (a :: attempts) = entries attempts + if a.place.entered then 1 else 0 := by
  simp [entries, List.countP_cons]

/-- The entry of the depth dictionary for a number of entered contexts. -/
def depthEntry (n : Nat) : Option Nat := if n = 0 then none else some n

/-- Every attempt of a thread but the innermost has its context entered, and every one but the
outermost is nested. -/
inductive Stacked : List Attempt → Prop where
  | nil : Stacked []
  | alone (a : Attempt) (outermost : a.place ≠ .nested) : Stacked [a]
  | within (a b : Attempt) (rest : List Attempt) (inner : a.place.inner)
      (entered : b.place.entered) (enclosing : Stacked (b :: rest)) : Stacked (a :: b :: rest)

theorem holding_eq_one {place : Place} (holding : place ≠ .calling) : place.holding = 1 := by
  cases place <;> first | rfl | contradiction

theorem holdCount_pos {a : Attempt} {attempts : List Attempt} (member : a ∈ attempts)
    (holding : a.place ≠ .calling) : 0 < holdCount attempts := by
  induction attempts with
  | nil => nomatch member
  | cons b rest ih =>
    rw [holdCount_cons]
    rcases List.mem_cons.mp member with rfl | member
    · rw [holding_eq_one holding]
      omega
    · have := ih member
      omega

theorem holding_of_entered {place : Place} (entered : place.entered) : place.holding = 1 := by
  cases place <;> first | rfl | cases entered

theorem ne_calling_of_entered {place : Place} (entered : place.entered) : place ≠ .calling := by
  rintro rfl
  cases entered

namespace Stacked

variable {a : Attempt} {enclosing : List Attempt}

theorem outer (stacked : Stacked (a :: enclosing)) : Stacked enclosing := by
  cases stacked with
  | alone => exact .nil
  | within _ _ _ _ _ rest => exact rest

theorem eq_nil (stacked : Stacked (a :: enclosing)) (outermost : a.place.inner = false) :
    enclosing = [] := by
  cases stacked with
  | alone => rfl
  | within _ _ _ inner => simp [inner] at outermost

theorem entered (stacked : Stacked (a :: enclosing)) : ∀ b ∈ enclosing, b.place.entered := by
  induction enclosing generalizing a with
  | nil => nofun
  | cons b rest ih =>
    cases stacked with
    | within _ _ _ _ entered below =>
      intro c member
      rcases List.mem_cons.mp member with rfl | member
      · exact entered
      · exact ih below c member

theorem replace (stacked : Stacked (a :: enclosing)) {b : Attempt} (inner : b.place.inner)
    (fits : enclosing = [] → b.place ≠ .nested) : Stacked (b :: enclosing) := by
  cases stacked with
  | alone => exact .alone b (fits rfl)
  | within _ c rest _ entered below => exact .within b c rest inner entered below

theorem push (stacked : Stacked enclosing) (inside : enclosing.head?.all (·.place.entered))
    (inner : a.place.inner) (outermost : a.place ≠ .nested) : Stacked (a :: enclosing) := by
  cases enclosing with
  | nil => exact .alone a outermost
  | cons b rest => exact .within a b rest inner (by simpa using inside) stacked

theorem last_of_outermost (stacked : Stacked enclosing) (member : a ∈ enclosing)
    (outermost : a.place.inner = false) : enclosing.getLast? = some a := by
  induction stacked with
  | nil => nomatch member
  | alone b => simp_all
  | within b c rest inner entered below ih =>
    rcases List.mem_cons.mp member with rfl | member
    · simp [inner] at outermost
    · simpa using ih member

theorem last_ne_nested (stacked : Stacked enclosing) (last : enclosing.getLast? = some a) :
    a.place ≠ .nested := by
  induction stacked with
  | nil => simp at last
  | alone b outermost =>
    obtain rfl : b = a := by simpa using last
    exact outermost
  | within b c rest _ _ _ ih => exact ih (by rwa [List.getLast?_cons_cons] at last)

end Stacked

/-! ## The invariant -/

variable {Thread : Type} [DecidableEq Thread] {s s' : LockState Thread} {t u : Thread}

/-- The guard, the descriptors and the file lock are those of an attempt of `t` at this place. -/
structure Fits (t : Thread) (place : Place) (s : LockState Thread) : Prop where
  guard : s.guard = if place.inGuard then some t else none
  active : ∀ fd, fd ∈ s.active ↔ place.activeFd = some fd
  opened : ∀ fd, fd ∈ s.opened ↔ place.openFd = some fd
  locked : ∀ fd, place.lockedFd = some fd → s.fileLock = some (.own fd)
  lockable : ∀ fd, s.fileLock = some (.own fd) → place.lockableFd = some fd

/-- Nothing of the lock is in use by this process. -/
structure Unused (s : LockState Thread) : Prop where
  guard : s.guard = none
  active : ∀ fd, fd ∉ s.active
  opened : ∀ fd, fd ∉ s.opened
  unlocked : ∀ fd, s.fileLock ≠ some (.own fd)

/-- The invariant of every run; `leaks` counts what raising preparations have left held. -/
structure Kept (leaks : Thread → Nat) (s : LockState Thread) : Prop where
  fresh : ∀ id, s.made ≤ id → s.rlocks id = .free
  registered : ∀ id, s.registered = some id → id < s.made
  objects : ∀ id ∈ s.objects, s.registered = some id
  lock : ∀ t, ∀ a ∈ s.attempts t, s.registered = some a.lock
  stacked : ∀ t, Stacked (s.attempts t)
  held : ∀ t, s.processLock.holds t = holdCount (s.attempts t) + leaks t
  depth : ∀ t, s.depths t = depthEntry (entries (s.attempts t))
  inside : ∀ t a, (s.attempts t).getLast? = some a → a.place ≠ .calling → Fits t a.place s
  vacant : (∀ t, holdCount (s.attempts t) = 0) → Unused s

omit [DecidableEq Thread] in
theorem Fits.unused {place : Place} (fits : Fits t place s) (guard : place.inGuard = false)
    (active : place.activeFd = none) (opened : place.openFd = none)
    (lockable : place.lockableFd = none) : Unused s where
  guard := by simpa [guard] using fits.guard
  active fd := by simp [fits.active fd, active]
  opened fd := by simp [fits.opened fd, opened]
  unlocked fd mine := by simpa [lockable] using fits.lockable fd mine

/-- The process locks and the lock objects are the same in both states. -/
structure SameLocks (s s' : LockState Thread) : Prop where
  registered : s'.registered = s.registered
  made : s'.made = s.made
  rlocks : s'.rlocks = s.rlocks
  objects : s'.objects = s.objects

namespace Kept

variable {leaks : Thread → Nat} {a : Attempt} {enclosing : List Attempt}

theorem init : Kept (fun _ => 0) ({} : LockState Thread) where
  fresh _ _ := rfl
  registered := nofun
  objects := nofun
  lock := nofun
  stacked _ := .nil
  held _ := rfl
  depth _ := rfl
  inside := nofun
  vacant _ := ⟨rfl, by simp, by simp, nofun⟩

/-- Only one thread holds the process lock. -/
theorem exclusive (kept : Kept leaks s) (holding : 0 < holdCount (s.attempts t))
    (other : u ≠ t) : holdCount (s.attempts u) = 0 := by
  have first := kept.held t
  have second := kept.held u
  by_contra positive
  exact other (RLock.holds_exclusive (show 0 < s.processLock.holds u by omega) (by omega))

theorem processLock_eq (kept : Kept leaks s) (at_ : s.attempts t = a :: enclosing) :
    s.processLock = s.rlocks a.lock := by
  simp [LockState.processLock, kept.lock t a (by simp [at_])]

/-- The innermost attempt of `t` moves on, and what it has changed fits the thread's outermost
attempt. -/
theorem moveOn (kept : Kept leaks s) (at_ : s.attempts t = a :: enclosing) {place : Place}
    (holding : place ≠ .calling) (registered : s'.registered = s.registered)
    (made : s'.made = s.made) (objects : s'.objects = s.objects)
    (attempts : s'.attempts = Function.update s.attempts t ({ a with place } :: enclosing))
    (fresh : ∀ id, s.made ≤ id → s'.rlocks id = .free)
    (stacked : Stacked ({ a with place } :: enclosing))
    (held : ∀ u, s'.processLock.holds u = holdCount (s'.attempts u) + leaks u)
    (depth : s'.depths t = depthEntry (entries ({ a with place } :: enclosing)))
    (depths : ∀ u, u ≠ t → s'.depths u = s.depths u)
    (others : ∀ u, u ≠ t → holdCount (s.attempts u) = 0)
    (fits : ∀ b, ({ a with place } :: enclosing).getLast? = some b → Fits t b.place s') :
    Kept leaks s' := by
  -- only the innermost attempt of this thread has changed
  have own : s'.attempts t = { a with place } :: enclosing := by simp [attempts]
  have same : ∀ u, u ≠ t → s'.attempts u = s.attempts u := by
    intro u other
    simp [attempts, other]
  constructor
  case fresh => simpa only [made] using fresh
  case registered => simpa only [made, registered] using kept.registered
  case objects => simpa only [objects, registered] using kept.objects
  case held => exact held
  case lock =>
    intro u b member
    rw [registered]
    by_cases this : u = t
    · subst this
      rcases List.mem_cons.mp (own ▸ member) with rfl | member
      · exact kept.lock u a (by simp [at_])
      · exact kept.lock u b (by simp [at_, member])
    · exact kept.lock u b (same u this ▸ member)
  case stacked =>
    intro u
    by_cases this : u = t
    · rw [this, own]
      exact stacked
    · rw [same u this]
      exact kept.stacked u
  case depth =>
    intro u
    by_cases this : u = t
    · rw [this, own, depth]
    · rw [depths u this, same u this, kept.depth u]
  case inside =>
    intro u b last calling
    by_cases this : u = t
    · rw [this, own] at last
      exact this ▸ fits b last
    · rw [same u this] at last
      have positive := holdCount_pos (List.mem_of_getLast? last) calling
      have none := others u this
      omega
  case vacant =>
    intro none
    have := none t
    simp [own, holding_eq_one holding] at this

/-- The only attempt past the process lock moves on; what it has changed fits its new place. -/
theorem advance (kept : Kept leaks s) (at_ : s.attempts t = [a]) (holding : a.place ≠ .calling)
    (place : Place) (same : SameLocks s s')
    (attempts : s'.attempts = Function.update s.attempts t [{ a with place }])
    (holding' : place ≠ .calling) (outermost : place ≠ .nested)
    (depth : s'.depths t = depthEntry (if place.entered then 1 else 0))
    (depths : ∀ u, u ≠ t → s'.depths u = s.depths u) (fits : Fits t place s') :
    Kept leaks s' := by
  have processLock : s'.processLock = s.processLock := by
    simp [LockState.processLock, same.registered, same.rlocks]
  have positive : 0 < holdCount (s.attempts t) := by simp [at_, holding_eq_one holding]
  refine kept.moveOn at_ holding' same.registered same.made same.objects attempts
    (same.rlocks ▸ kept.fresh) (.alone _ outermost) (fun u => ?_) ?_ depths
    (fun u other => kept.exclusive positive other) (fun b last => ?_)
  · rw [processLock, kept.held u, attempts]
    by_cases this : u = t
    · simp [this, at_, holding_eq_one holding, holding_eq_one holding']
    · simp [this]
  · simpa [entries_cons] using depth
  · obtain rfl : { a with place } = b := by simpa using last
    exact fits

/-- The process lock is taken: by an outermost attempt that finds everything unused, or once more
inside the thread's own contexts. -/
theorem acquire (kept : Kept leaks s) (at_ : s.attempts t = a :: enclosing)
    (calling : a.place = .calling) {lock : RLock Thread}
    (taken : (s.rlocks a.lock).acquire t = some lock) :
    Kept leaks ((s.setLock a.lock lock).moved t a enclosing .gated) := by
  have registered := kept.lock t a (by simp [at_])
  have made := kept.registered a.lock registered
  -- the lock was free or its own, so no other thread is inside
  have none : ∀ u, u ≠ t → holdCount (s.attempts u) = 0 := by
    intro u other
    have := kept.held u
    rw [kept.processLock_eq at_, RLock.holds_other taken other] at this
    omega
  have stacked := at_ ▸ kept.stacked t
  have holding : Place.gated ≠ .calling := nofun
  refine kept.moveOn at_ holding rfl rfl rfl rfl (fun id unmade => ?_) (stacked.replace rfl nofun)
    (fun u => ?_) ?_ (fun _ _ => rfl) none (fun b last => ?_)
  · have other : id ≠ a.lock := by omega
    simpa [LockState.moved, LockState.setLock, other] using kept.fresh id unmade
  · have before := kept.held u
    rw [kept.processLock_eq at_] at before
    have after := RLock.holds_acquire taken u
    by_cases this : u = t
    · subst this
      simp only [at_, holdCount_cons, calling, Place.holding] at before
      simp only [if_true] at after
      simp [LockState.processLock, LockState.moved, LockState.setLock, registered, Place.holding,
        after, before]
      omega
    · simpa [LockState.processLock, LockState.moved, LockState.setLock, registered, this, after]
        using before
  · simpa [LockState.moved, LockState.setLock, at_, entries_cons, calling, Place.entered]
      using kept.depth t
  · cases enclosing with
    -- the outermost attempt finds the files unused
    | nil =>
      obtain rfl : { a with place := .gated } = b := by simpa using last
      have unused := kept.vacant (fun u => by
        by_cases own : u = t
        · simp [own, at_, calling, Place.holding]
        · exact none u own)
      exact ⟨unused.guard, fun fd => iff_of_false (unused.active fd) nofun,
        fun fd => iff_of_false (unused.opened fd) nofun, nofun,
        fun fd mine => absurd mine (unused.unlocked fd)⟩
    | cons c rest =>
      rw [List.getLast?_cons_cons] at last
      have entered := stacked.entered b (List.mem_of_getLast? last)
      have fits := kept.inside t b (by rw [at_, List.getLast?_cons_cons, last])
        (ne_calling_of_entered entered)
      exact ⟨fits.guard, fits.active, fits.opened, fits.locked, fits.lockable⟩

/-- Inside the contexts of its thread an attempt moves on and counts itself. -/
theorem count (kept : Kept leaks s) {b : Attempt} {rest : List Attempt}
    (at_ : s.attempts t = a :: b :: rest) (holding : a.place ≠ .calling) (place : Place)
    (holding' : place ≠ .calling) (inner : place.inner) {depth : Option Nat}
    (counted : depth = depthEntry (entries ({ a with place } :: b :: rest))) :
    Kept leaks ((s.setDepth t depth).moved t a (b :: rest) place) := by
  have stacked := at_ ▸ kept.stacked t
  have positive := holdCount_pos (show a ∈ s.attempts t by simp [at_]) holding
  refine kept.moveOn at_ holding' rfl rfl rfl rfl kept.fresh
    (stacked.replace (b := { a with place }) inner nofun) (fun u => ?_)
    (by simpa [LockState.moved, LockState.setDepth] using counted)
    (fun u other => by simp [LockState.moved, LockState.setDepth, other])
    (fun u other => kept.exclusive positive other) (fun c last => ?_)
  · rw [show ((s.setDepth t depth).moved t a (b :: rest) place).processLock = s.processLock from rfl,
      kept.held u]
    by_cases this : u = t
    · subst this
      simp [LockState.moved, at_, holding_eq_one holding, holding_eq_one holding']
    · simp [LockState.moved, LockState.setDepth, this]
  · rw [List.getLast?_cons_cons] at last
    have entered := stacked.entered c (List.mem_of_getLast? last)
    have fits := kept.inside t c (by rw [at_, List.getLast?_cons_cons, last])
      (ne_calling_of_entered entered)
    exact ⟨fits.guard, fits.active, fits.opened, fits.locked, fits.lockable⟩

/-- The innermost attempt of `t` is left, with its context not entered. -/
theorem pop (kept : Kept leaks s) (at_ : s.attempts t = a :: enclosing)
    (outside : a.place.entered = false) {leaks' : Thread → Nat} {rlocks : Nat → RLock Thread}
    (fresh : ∀ id, s.made ≤ id → rlocks id = .free)
    (held : ∀ u, ({ s with rlocks } : LockState Thread).processLock.holds u =
      holdCount ((s.left t enclosing).attempts u) + leaks' u)
    (vacant : (∀ u, holdCount ((s.left t enclosing).attempts u) = 0) → Unused s) :
    Kept leaks' ({ s with rlocks }.left t enclosing) := by
  -- the attempt that is left had given everything back, so the outer ones stand as they did
  have others : ∀ u, u ≠ t → (s.left t enclosing).attempts u = s.attempts u := by
    intro u other
    simp [LockState.left, other]
  have own : (s.left t enclosing).attempts t = enclosing := by simp [LockState.left]
  constructor
  case fresh => exact fresh
  case registered => exact kept.registered
  case objects => exact kept.objects
  case held => exact held
  case lock =>
    intro u b (member : b ∈ (s.left t enclosing).attempts u)
    by_cases this : u = t
    · rw [this, own] at member
      exact kept.lock t b (by simp [at_, member])
    · exact kept.lock u b (others u this ▸ member)
  case stacked =>
    intro u
    change Stacked ((s.left t enclosing).attempts u)
    by_cases this : u = t
    · rw [this, own]
      exact (at_ ▸ kept.stacked t).outer
    · exact others u this ▸ kept.stacked u
  case depth =>
    intro u
    change s.depths u = depthEntry (entries ((s.left t enclosing).attempts u))
    rw [kept.depth u]
    by_cases this : u = t
    · rw [this, own, at_, entries_cons, outside]
      rfl
    · rw [others u this]
  case inside =>
    intro u b (last : ((s.left t enclosing).attempts u).getLast? = some b) holding
    have last : (s.attempts u).getLast? = some b := by
      by_cases this : u = t
      · rw [this, own] at last
        cases enclosing with
        | nil => simp at last
        | cons c rest => rw [this, at_, List.getLast?_cons_cons, last]
      · rw [← others u this, last]
    have fits := kept.inside u b last holding
    exact ⟨fits.guard, fits.active, fits.opened, fits.locked, fits.lockable⟩
  case vacant =>
    intro none
    have unused := vacant none
    exact ⟨unused.guard, unused.active, unused.opened, unused.unlocked⟩

/-- An attempt that holds nothing is left. -/
theorem leave (kept : Kept leaks s) (at_ : s.attempts t = a :: enclosing)
    (calling : a.place = .calling) : Kept leaks (s.left t enclosing) := by
  have counts : ∀ u, holdCount ((s.left t enclosing).attempts u) = holdCount (s.attempts u) := by
    intro u
    by_cases this : u = t
    · simp [LockState.left, this, at_, calling, Place.holding]
    · simp [LockState.left, this]
  exact kept.pop at_ (by rw [calling]; rfl) kept.fresh (fun u => by rw [counts u]; exact kept.held u)
    (fun none => kept.vacant fun u => by rw [← counts u]; exact none u)

/-- A preparation that raises leaves the attempt, and the process lock held. -/
theorem leak (kept : Kept leaks s) (at_ : s.attempts t = [a]) (preparing : a.place = .preparing) :
    Kept (fun u => leaks u + if u = t then 1 else 0) (s.left t []) := by
  refine kept.pop at_ (by rw [preparing]; rfl) kept.fresh (fun u => ?_) (fun _ => ?_)
  · refine (kept.held u).trans ?_
    by_cases this : u = t
    · simp [LockState.left, this, at_, preparing, Place.holding, Nat.add_comm]
    · simp [LockState.left, this]
  · have fits := kept.inside t a (by simp [at_]) (by simp [preparing])
    rw [preparing] at fits
    exact fits.unused rfl rfl rfl rfl

/-- The process lock is given back by an attempt that holds nothing else. -/
theorem release (kept : Kept leaks s) (at_ : s.attempts t = a :: enclosing)
    (releasing : a.place = .releasing) {lock : RLock Thread}
    (given : (s.rlocks a.lock).release t = some lock) :
    Kept leaks ((s.setLock a.lock lock).left t enclosing) := by
  have registered := kept.lock t a (by simp [at_])
  have made := kept.registered a.lock registered
  refine kept.pop at_ (by rw [releasing]; rfl) (fun id unmade => ?_) (fun u => ?_) (fun none => ?_)
  · have other : id ≠ a.lock := by omega
    rw [Function.update_of_ne other]
    exact kept.fresh id unmade
  · have before := kept.held u
    rw [kept.processLock_eq at_, RLock.holds_release given u] at before
    have after : ({ s with rlocks := Function.update s.rlocks a.lock lock } :
        LockState Thread).processLock = lock := by
      simp [LockState.processLock, registered]
    rw [after]
    by_cases this : u = t
    · subst this
      simp only [at_, holdCount_cons, releasing, Place.holding, if_true] at before
      simp only [LockState.left, Function.update_self]
      omega
    · simpa [LockState.left, this] using before
  -- an enclosing attempt would still hold the lock
  · have alone : enclosing = [] := by
      by_contra nonempty
      obtain ⟨b, rest, rfl⟩ := List.exists_cons_of_ne_nil nonempty
      have entered := (at_ ▸ kept.stacked t).entered b (by simp)
      have := none t
      simp [LockState.left, holding_of_entered entered] at this
    subst alone
    have fits := kept.inside t a (by simp [at_]) (by simp [releasing])
    rw [releasing] at fits
    exact fits.unused rfl rfl rfl rfl

theorem call (kept : Kept leaks s) {object : Nat} (done : s.call t object = some s') :
    Kept leaks s' := by
  simp only [LockState.call] at done
  split at done
  · cases done
  next lock found =>
  simp only [Option.ite_none_right_eq_some, Option.some.injEq] at done
  obtain ⟨inside, rfl⟩ := done
  -- a call that has not reached the lock holds nothing
  have counts : ∀ u, holdCount (Function.update s.attempts t (⟨lock, .calling⟩ :: s.attempts t) u) =
      holdCount (s.attempts u) := by
    intro u
    by_cases this : u = t
    · simp [this, Place.holding]
    · simp [this]
  constructor
  case fresh => exact kept.fresh
  case registered => exact kept.registered
  case objects => exact kept.objects
  case lock =>
    intro u b member
    by_cases this : u = t
    · subst this
      simp only [Function.update_self, List.mem_cons] at member
      rcases member with rfl | member
      · exact kept.objects lock (List.mem_of_getElem? found)
      · exact kept.lock u b member
    · exact kept.lock u b (by simpa [this] using member)
  case stacked =>
    intro u
    by_cases this : u = t
    · subst this
      simpa using (kept.stacked u).push (a := ⟨lock, .calling⟩) inside rfl nofun
    · simpa [this] using kept.stacked u
  case held =>
    intro u
    rw [counts u]
    exact kept.held u
  case depth =>
    intro u
    by_cases this : u = t
    · subst this
      simpa [entries_cons, Place.entered] using kept.depth u
    · simpa [this] using kept.depth u
  case inside =>
    intro u b last holding
    have last : (s.attempts u).getLast? = some b := by
      by_cases this : u = t
      · subst this
        simp only [Function.update_self] at last
        cases before : s.attempts u with
        | nil =>
          obtain rfl : (⟨lock, .calling⟩ : Attempt) = b := by simpa [before] using last
          exact absurd rfl holding
        | cons c rest => rwa [before, List.getLast?_cons_cons] at last
      · simpa [this] using last
    have fits := kept.inside u b last holding
    exact ⟨fits.guard, fits.active, fits.opened, fits.locked, fits.lockable⟩
  case vacant =>
    intro none
    have unused := kept.vacant fun u => by rw [← counts u]; exact none u
    exact ⟨unused.guard, unused.active, unused.opened, unused.unlocked⟩

theorem construct (kept : Kept leaks s) (done : s.construct = some s') : Kept leaks s' := by
  simp only [LockState.construct, Option.ite_none_right_eq_some, Option.some.injEq] at done
  obtain ⟨-, rfl⟩ := done
  -- all objects of one process share the first lock that was registered
  have processLock : ({ s with
      made := s.made + 1, registered := some (s.registered.getD s.made),
      objects := s.objects ++ [s.registered.getD s.made] } : LockState Thread).processLock =
        s.processLock := by
    cases known : s.registered with
    | none => simpa [LockState.processLock, known] using kept.fresh s.made (Nat.le_refl _)
    | some id => simp [LockState.processLock, known]
  constructor
  case fresh => exact fun id (unmade : s.made + 1 ≤ id) => kept.fresh id (by omega)
  case registered =>
    intro id same
    obtain rfl : s.registered.getD s.made = id := by simpa using same
    cases known : s.registered with
    | none => simp
    | some id => simpa [known] using Nat.lt_succ_of_lt (kept.registered id known)
  case objects =>
    intro id member
    rcases List.mem_append.mp member with old | new
    · simp [kept.objects id old]
    · simp [List.mem_singleton.mp new]
  case lock =>
    intro u b member
    simp [kept.lock u b member]
  case stacked => exact kept.stacked
  case held =>
    intro u
    rw [processLock]
    exact kept.held u
  case depth => exact kept.depth
  case inside =>
    intro u b last holding
    have fits := kept.inside u b last holding
    exact ⟨fits.guard, fits.active, fits.opened, fits.locked, fits.lockable⟩
  case vacant =>
    intro none
    have unused := kept.vacant none
    exact ⟨unused.guard, unused.active, unused.opened, unused.unlocked⟩

/-- Another process takes or gives up the file lock, which no descriptor of this process has. -/
theorem foreign (kept : Kept leaks s) {holder : Option Holder}
    (before : ∀ fd, s.fileLock ≠ some (.own fd)) (after : ∀ fd, holder ≠ some (.own fd)) :
    Kept leaks { s with fileLock := holder } := by
  have fits : ∀ {u place}, Fits u place s → Fits u place { s with fileLock := holder } :=
    fun fits => ⟨fits.guard, fits.active, fits.opened,
      fun fd locked => absurd (fits.locked fd locked) (before fd), fun fd mine => absurd mine (after fd)⟩
  exact ⟨kept.fresh, kept.registered, kept.objects, kept.lock, kept.stacked, kept.held, kept.depth,
    fun u b last holding => fits (kept.inside u b last holding), fun none =>
      have unused := kept.vacant none
      ⟨unused.guard, unused.active, unused.opened, after⟩⟩

/-- An attempt at a place that no nested one reaches is the only one of its thread. -/
theorem alone (kept : Kept leaks s) (at_ : s.attempts t = a :: enclosing) {place : Place}
    (place_eq : a.place = place) (outermost : place.inner = false) :
    s.attempts t = [a] ∧ Fits t place s ∧ s.depths t = depthEntry (if place.entered then 1 else 0) := by
  subst place_eq
  obtain rfl := (at_ ▸ kept.stacked t).eq_nil outermost
  have holding : a.place ≠ .calling := by
    intro calling
    simp [calling, Place.inner] at outermost
  refine ⟨at_, kept.inside t a (by simp [at_]) holding, ?_⟩
  rw [kept.depth t, at_, entries_cons, entries_nil, Nat.zero_add]

/-- A nested attempt leaves its context, whose entry is taken off the count. -/
theorem unnest (kept : Kept leaks s) (at_ : s.attempts t = a :: enclosing)
    (nested : a.place = .nested)
    (done : (s.depths t).map (fun depth =>
      (s.setDepth t (some (depth - 1))).moved t a enclosing .releasing) = some s') :
    Kept leaks s' := by
  obtain ⟨depth, known, rfl⟩ := Option.map_eq_some_iff.mp done
  have stacked := at_ ▸ kept.stacked t
  cases stacked with
  | alone _ outermost => exact absurd nested outermost
  | within _ b rest _ entered below =>
    refine kept.count at_ (by simp [nested]) .releasing nofun rfl ?_
    have counted := kept.depth t
    rw [known, at_] at counted
    have one : 0 < entries (b :: rest) := by simp [entries_cons, entered]
    simp only [entries_cons a, nested, Place.entered, if_true, depthEntry] at counted
    rw [entries_cons, depthEntry]
    simp only [Place.entered, Bool.false_eq_true, if_false, Nat.add_zero]
    rw [if_neg (by omega)] at counted ⊢
    cases counted
    rfl

/-- The outermost attempt leaves its context. -/
theorem quit (kept : Kept leaks s) {fd : Fd} (at_ : s.attempts t = a :: enclosing)
    (outermost : a.place = .outermost fd) :
    Kept leaks ((s.setDepth t none).moved t a enclosing (.cleaning (some fd) true)) := by
  obtain ⟨at_', fits, depth⟩ := kept.alone at_ outermost rfl
  obtain rfl : enclosing = [] := by simpa [at_] using at_'
  refine kept.advance at_ (by simp [outermost]) (.cleaning (some fd) true) ⟨rfl, rfl, rfl, rfl⟩ rfl nofun
    nofun ?_ ?_ ⟨fits.guard, fits.active, fits.opened, fits.locked, fits.lockable⟩
  · simp [LockState.moved, LockState.setDepth, Place.entered, depthEntry]
  · intro u other
    simp [LockState.moved, LockState.setDepth, other]

/-- The descriptor is closed, and with it the file lock is gone. -/
theorem close (kept : Kept leaks s) {fd : Option Fd} {locked : Bool}
    (at_ : s.attempts t = a :: enclosing) (closing : a.place = .closing fd locked) :
    Kept leaks ((s.closeFile fd).giveGuard.moved t a enclosing .releasing) := by
  obtain ⟨at_', fits, depth⟩ := kept.alone at_ closing rfl
  obtain rfl : enclosing = [] := by simpa [at_] using at_'
  -- whatever is still recorded of the file belongs to the descriptor that is closed
  have active : ∀ fd', fd' ∈ s.active → fd = some fd' := by
    intro fd' member
    have := (fits.active fd').mp member
    cases locked with
    | false => cases this
    | true => exact this
  have lockable : ∀ fd', s.fileLock = some (.own fd') → fd = some fd' := by
    intro fd' mine
    have := fits.lockable fd' mine
    cases locked with
    | false => cases this
    | true => exact this
  have opened : ∀ fd', fd' ∈ s.opened → fd = some fd' := fun fd' => (fits.opened fd').mp
  refine kept.advance at_ (by simp [closing]) .releasing ?_ ?_ nofun nofun ?_ ?_ ?_
  · cases fd <;> exact ⟨rfl, rfl, rfl, rfl⟩
  · cases fd <;> rfl
  · cases fd <;> exact depth
  · cases fd <;> exact fun _ _ => rfl
  · cases fd with
    | none =>
      exact ⟨rfl, fun fd' => ⟨fun member => (nomatch active fd' member), nofun⟩,
        fun fd' => ⟨fun member => (nomatch opened fd' member), nofun⟩, nofun,
        fun fd' mine => (nomatch lockable fd' mine)⟩
    | some fd =>
      refine ⟨rfl, fun fd' => ⟨fun member => ?_, nofun⟩, fun fd' => ⟨fun member => ?_, nofun⟩, nofun,
        fun fd' mine => ?_⟩
      · obtain ⟨other, member⟩ := Finset.mem_erase.mp member
        exact absurd (Option.some.inj (active fd' member)).symm other
      · obtain ⟨other, member⟩ := Finset.mem_erase.mp member
        exact absurd (Option.some.inj (opened fd' member)).symm other
      · change (if s.fileLock = some (.own fd) then none else s.fileLock) = some (.own fd') at mine
        split at mine
        · cases mine
        next other =>
          obtain rfl := Option.some.inj (lockable fd' mine)
          exact absurd mine other

theorem completes (kept : Kept leaks s) (done : s.completes t = some s') : Kept leaks s' := by
  cases at_ : s.attempts t with
  | nil => simp [LockState.completes, at_] at done
  | cons a enclosing =>
    simp only [LockState.completes, at_] at done
    cases place_eq : a.place <;> simp only [place_eq] at done
    case calling =>
      obtain ⟨lock, taken, rfl⟩ := Option.map_eq_some_iff.mp done
      exact kept.acquire at_ place_eq taken
    case gated =>
      have stacked := at_ ▸ kept.stacked t
      -- the depth of the thread tells whether another attempt of it is inside
      have counted := kept.depth t
      rw [at_, entries_cons, place_eq] at counted
      split at done
      next depth known =>
        cases stacked with
        | alone => simp [known, Place.entered, depthEntry] at counted
        | within _ b rest =>
          obtain rfl := Option.some.inj done
          refine kept.count at_ (by simp [place_eq]) .nested nofun rfl ?_
          simp only [known, Place.entered, Bool.false_eq_true, if_false, Nat.add_zero, depthEntry]
            at counted
          split at counted
          · cases counted
          · simp only [Option.some.injEq] at counted
            simp [entries_cons { a with place := .nested }, Place.entered, depthEntry, ← counted]
      -- with no depth there is nothing around this attempt
      next none =>
        have alone : enclosing = [] := by
          cases stacked with
          | alone => rfl
          | within _ b rest _ entered =>
            refine absurd counted ?_
            rw [entries_cons, entered]
            simp only [Place.entered, Bool.false_eq_true, if_false, if_true, Nat.add_zero, depthEntry,
              Nat.add_eq_zero_iff, Nat.one_ne_zero, and_false]
            exact fun known => none _ known
        subst alone
        obtain rfl := Option.some.inj done
        have fits := kept.inside t a (by simp [at_]) (by simp [place_eq])
        rw [place_eq] at fits
        exact kept.advance at_ (by simp [place_eq]) .preparing ⟨rfl, rfl, rfl, rfl⟩ rfl nofun nofun
          counted (fun _ _ => rfl)
          ⟨fits.guard, fits.active, fits.opened, fits.locked, fits.lockable⟩
    case opening => cases done
    case outermost fd =>
      obtain rfl := Option.some.inj done
      exact kept.quit at_ place_eq
    case nested => exact kept.unnest at_ place_eq done
    case closing fd locked =>
      obtain rfl := Option.some.inj done
      exact kept.close at_ place_eq
    case releasing =>
      obtain ⟨lock, given, rfl⟩ := Option.map_eq_some_iff.mp done
      exact kept.release at_ place_eq given
    all_goals
      obtain ⟨at_', fits, depth⟩ := kept.alone at_ place_eq rfl
      obtain rfl : enclosing = [] := by simpa [at_] using at_'
      have holding : a.place ≠ .calling := by simp [place_eq]
    case preparing | inspecting | checking fd | initializing fd =>
      obtain rfl := Option.some.inj done
      exact kept.advance at_ holding _ ⟨rfl, rfl, rfl, rfl⟩ rfl (by simp) (by simp) depth
        (fun _ _ => rfl) ⟨fits.guard, fits.active, fits.opened, fits.locked, fits.lockable⟩
    case prepared | cleaning fd locked =>
      simp only [LockState.takeGuard, Option.map_eq_some_iff, Option.ite_none_right_eq_some,
        Option.some.injEq] at done
      obtain ⟨_, ⟨-, rfl⟩, rfl⟩ := done
      refine kept.advance at_ holding _ ⟨rfl, rfl, rfl, rfl⟩ rfl (by simp) (by simp) depth
        (fun _ _ => rfl) ?_
      first
        | exact ⟨rfl, fits.active, fits.opened, fits.locked, fits.lockable⟩
        | cases locked <;> exact ⟨rfl, fits.active, fits.opened, fits.locked, fits.lockable⟩
    case locking fd =>
      simp only [Option.ite_none_right_eq_some, Option.some.injEq] at done
      obtain ⟨-, rfl⟩ := done
      refine kept.advance at_ holding (.recording fd) ⟨rfl, rfl, rfl, rfl⟩ rfl nofun nofun depth (fun _ _ => rfl)
        ⟨fits.guard, fits.active, fits.opened, ?_, ?_⟩
      · rintro _ ⟨⟩
        rfl
      · rintro _ ⟨⟩
        rfl
    case recording fd =>
      obtain rfl := Option.some.inj done
      refine kept.advance at_ holding (.counting fd) ⟨rfl, rfl, rfl, rfl⟩ rfl nofun nofun depth (fun _ _ => rfl)
        ⟨rfl, fun fd' => ?_, fits.opened, fits.locked, fits.lockable⟩
      -- no other descriptor was recorded
      have none := fits.active fd'
      simp only [Place.activeFd, reduceCtorEq, iff_false] at none
      simpa [LockState.moved, LockState.giveGuard, Place.activeFd, none] using eq_comm
    case counting fd =>
      obtain rfl := Option.some.inj done
      refine kept.advance at_ holding (.outermost fd) ⟨rfl, rfl, rfl, rfl⟩ rfl nofun nofun ?_ (fun u other => ?_)
        ⟨fits.guard, fits.active, fits.opened, fits.locked, fits.lockable⟩
      · simp [LockState.moved, LockState.setDepth, Place.entered, depthEntry]
      · simp [LockState.moved, LockState.setDepth, other]
    case unlocking fd locked =>
      obtain rfl := Option.some.inj done
      cases locked with
      | false =>
        exact kept.advance at_ holding (.closing fd _) ⟨rfl, rfl, rfl, rfl⟩ rfl nofun nofun depth (fun _ _ => rfl)
          ⟨fits.guard, fits.active, fits.opened, nofun, fits.lockable⟩
      | true =>
        refine kept.advance at_ holding (.closing fd _) ⟨rfl, rfl, rfl, rfl⟩ rfl nofun nofun depth (fun _ _ => rfl)
          ⟨fits.guard, fits.active, fits.opened, nofun, fun fd' mine => ?_⟩
        change (if s.fileLock = fd.map Holder.own then none else s.fileLock) = some (.own fd') at mine
        split at mine
        · cases mine
        · exact fits.lockable fd' mine

theorem opens (kept : Kept leaks s) {fd : Fd} (done : s.opens t fd = some s') : Kept leaks s' := by
  cases at_ : s.attempts t with
  | nil => simp [LockState.opens, at_] at done
  | cons a enclosing =>
    simp only [LockState.opens, at_, Option.ite_none_right_eq_some, Option.some.injEq] at done
    obtain ⟨⟨place_eq, -⟩, rfl⟩ := done
    obtain ⟨at_', fits, depth⟩ := kept.alone at_ place_eq rfl
    obtain rfl : enclosing = [] := by simpa [at_] using at_'
    refine kept.advance at_ (by simp [place_eq]) (.checking fd) ⟨rfl, rfl, rfl, rfl⟩ rfl nofun nofun
      depth (fun _ _ => rfl) ⟨fits.guard, fits.active, fun fd' => ?_, fits.locked, fits.lockable⟩
    have none := fits.opened fd'
    simp only [Place.openFd, reduceCtorEq, iff_false] at none
    simpa [LockState.moved, Place.openFd, none] using eq_comm

/-- A step that raises leaks the process lock exactly if it is a preparation. -/
theorem raises (kept : Kept leaks s) (done : s.raises t = some s') :
    if s.prepareRaises (.raises t) then Kept (fun u => leaks u + if u = t then 1 else 0) s'
    else Kept leaks s' := by
  cases at_ : s.attempts t with
  | nil => simp [LockState.raises, at_] at done
  | cons a enclosing =>
    simp only [LockState.raises, at_] at done
    simp only [LockState.prepareRaises, at_, List.head?_cons, Option.any_some]
    -- raising while the files are prepared leaves the lock held; from every other place it is given back
    cases place_eq : a.place <;> simp only [place_eq] at done
    case calling =>
      split at done
      · obtain rfl := Option.some.inj done
        exact kept.leave at_ place_eq
      · cases done
    case preparing =>
      obtain ⟨at_', -⟩ := kept.alone at_ place_eq rfl
      obtain rfl : enclosing = [] := by simpa [at_] using at_'
      obtain rfl := Option.some.inj done
      exact kept.leak at_ place_eq
    case outermost fd =>
      obtain rfl := Option.some.inj done
      exact kept.quit at_ place_eq
    case nested => exact kept.unnest at_ place_eq done
    case closing fd locked =>
      cases fd with
      | none => cases done
      | some fd =>
        obtain rfl := Option.some.inj done
        exact kept.close at_ place_eq
    case gated | prepared | recording | counting | cleaning | releasing => cases done
    all_goals
      obtain ⟨at_', fits, depth⟩ := kept.alone at_ place_eq rfl
      obtain rfl : enclosing = [] := by simpa [at_] using at_'
      have holding : a.place ≠ .calling := by simp [place_eq]
    case inspecting | opening | checking fd | initializing fd | locking fd =>
      obtain rfl := Option.some.inj done
      exact kept.advance at_ holding _ ⟨rfl, rfl, rfl, rfl⟩ rfl (by simp) (by simp) depth
        (fun _ _ => rfl) ⟨rfl, fits.active, fits.opened, nofun, fits.lockable⟩
    case unlocking fd locked =>
      cases locked with
      | false => cases done
      | true =>
        obtain rfl := Option.some.inj done
        exact kept.advance at_ holding _ ⟨rfl, rfl, rfl, rfl⟩ rfl (by simp) (by simp) depth
          (fun _ _ => rfl) ⟨fits.guard, fits.active, fits.opened, nofun, fits.lockable⟩

/-- One step: the leaks only grow, and stay all zero exactly if no preparation raises. -/
theorem step (kept : Kept leaks s) {event : Event Thread} (done : s.step event = some s') :
    ∃ leaks', Kept leaks' s' ∧ (∀ t, leaks t ≤ leaks' t) ∧
      ((∀ t, leaks' t = 0) ↔ (∀ t, leaks t = 0) ∧ s.prepareRaises event = false) := by
  -- every event but the one that leaks keeps the leaks as they are
  have same : ∀ {event}, s.prepareRaises event = false → Kept leaks s' →
      ∃ leaks', Kept leaks' s' ∧ (∀ t, leaks t ≤ leaks' t) ∧
        ((∀ t, leaks' t = 0) ↔ (∀ t, leaks t = 0) ∧ s.prepareRaises event = false) :=
    fun spared kept' => ⟨leaks, kept', fun _ => Nat.le_refl _, by simp [spared]⟩
  cases event with
  | construct => exact same rfl (kept.construct done)
  | call t object => exact same rfl (kept.call done)
  | completes t => exact same rfl (kept.completes done)
  | opens t fd => exact same rfl (kept.opens done)
  | raises t =>
    have next := kept.raises done
    split at next
    next leaked =>
      refine ⟨_, next, fun u => Nat.le_add_right _ _, fun none => ?_, fun ⟨_, spared⟩ => ?_⟩
      · have := none t
        simp at this
      · simp [spared] at leaked
    next spared => exact same (by simpa using spared) next
  | otherLocks =>
    simp only [LockState.step, Option.ite_none_right_eq_some, Option.some.injEq,
      Option.isNone_iff_eq_none] at done
    obtain ⟨free, rfl⟩ := done
    exact same rfl (kept.foreign (by simp [free]) nofun)
  | otherUnlocks =>
    simp only [LockState.step, Option.ite_none_right_eq_some, Option.some.injEq] at done
    obtain ⟨other, rfl⟩ := done
    exact same rfl (kept.foreign (by simp [other]) nofun)

theorem run (kept : Kept leaks s) {events : List (Event Thread)} (ran : s.run events = some s') :
    ∃ leaks', Kept leaks' s' ∧ (∀ t, leaks t ≤ leaks' t) ∧
      ((∀ t, leaks' t = 0) ↔ (∀ t, leaks t = 0) ∧ s.PreparesEachRoot events) := by
  induction events generalizing s leaks with
  | nil =>
    obtain rfl := Option.some.inj ran
    exact ⟨leaks, kept, fun _ => Nat.le_refl _, by simp [LockState.PreparesEachRoot]⟩
  | cons event events ih =>
    obtain ⟨middle, done, ran⟩ := Option.bind_eq_some_iff.mp ran
    obtain ⟨leaks₁, kept₁, grown₁, first⟩ := kept.step done
    obtain ⟨leaks₂, kept₂, grown₂, second⟩ := ih kept₁ ran
    refine ⟨leaks₂, kept₂, fun t => (grown₁ t).trans (grown₂ t), ?_⟩
    rw [second, first, LockState.PreparesEachRoot, and_assoc]
    refine and_congr_right fun _ => and_congr_right fun _ => ?_
    simp [done]

/-! ## At rest -/

theorem holdCount_at_rest {attempts : List Attempt} (rest : ∀ a ∈ attempts, a.place.entered) :
    holdCount attempts = attempts.length := by
  induction attempts with
  | nil => rfl
  | cons a enclosing ih =>
    rw [holdCount_cons, holding_of_entered (rest a (by simp)), ih fun b member => rest b (by simp [member]),
      List.length_cons, Nat.add_comm]

theorem entries_at_rest {attempts : List Attempt} (rest : ∀ a ∈ attempts, a.place.entered) :
    entries attempts = attempts.length :=
  List.countP_eq_length.mpr fun a member => by simpa using rest a member

/-- The outermost context of a thread that is in one. -/
theorem outermost_at_rest (kept : Kept leaks s) (rest : s.AtRest) (inside : s.attempts t ≠ []) :
    ∃ a fd, a ∈ s.attempts t ∧ a.place = .outermost fd ∧ Fits t (.outermost fd) s := by
  obtain ⟨a, last⟩ := Option.isSome_iff_exists.mp (List.getLast?_isSome.mpr inside)
  have member := List.mem_of_getLast? last
  have entered := rest t a member
  have fits := kept.inside t a last (ne_calling_of_entered entered)
  have notNested := (kept.stacked t).last_ne_nested last
  cases place_eq : a.place <;> rw [place_eq] at entered notNested
  case outermost fd => exact ⟨a, fd, member, place_eq, place_eq ▸ fits⟩
  case nested => exact absurd rfl notNested
  all_goals cases entered

/-- At rest a descriptor is the one of the outermost context in the process. -/
theorem fits_iff (kept : Kept leaks s) (rest : s.AtRest) (fd : Fd) :
    (fd ∈ s.active ↔ ∃ t, ∃ a ∈ s.attempts t, a.place = .outermost fd) ∧
      (s.fileLock = some (.own fd) ↔ ∃ t, ∃ a ∈ s.attempts t, a.place = .outermost fd) := by
  have given : (∃ t, ∃ a ∈ s.attempts t, a.place = .outermost fd) →
      ∃ t, Fits t (.outermost fd) s := by
    rintro ⟨t, a, member, place_eq⟩
    have last := (kept.stacked t).last_of_outermost member (by rw [place_eq]; rfl)
    exact ⟨t, place_eq ▸ kept.inside t a last (by simp [place_eq])⟩
  by_cases occupied : ∃ t, s.attempts t ≠ []
  · obtain ⟨t, inside⟩ := occupied
    obtain ⟨a, fd₀, member, place_eq, fits⟩ := kept.outermost_at_rest rest inside
    refine ⟨⟨fun active => ?_, fun context => ?_⟩, ⟨fun mine => ?_, fun context => ?_⟩⟩
    · obtain rfl := Option.some.inj ((fits.active fd).mp active)
      exact ⟨t, a, member, place_eq⟩
    · obtain ⟨u, fits⟩ := given context
      exact (fits.active fd).mpr rfl
    · obtain rfl := Option.some.inj (fits.lockable fd mine)
      exact ⟨t, a, member, place_eq⟩
    · obtain ⟨u, fits⟩ := given context
      exact fits.locked fd rfl
  · simp only [not_exists, not_not] at occupied
    have unused := kept.vacant fun t => by simp [occupied t]
    have none : ¬ ∃ t, ∃ a ∈ s.attempts t, a.place = .outermost fd := by simp [occupied]
    exact ⟨iff_of_false (unused.active fd) none, iff_of_false (unused.unlocked fd) none⟩

/-- At rest the lock is balanced exactly if nothing has been leaked. -/
theorem balanced_iff (kept : Kept leaks s) (rest : s.AtRest) :
    s.Balanced ↔ ∀ t, leaks t = 0 := by
  refine ⟨fun balanced t => ?_, fun none => ⟨kept.objects, fun t => ?_, fun t => ?_,
    fun fd => (kept.fits_iff rest fd).1, fun fd => (kept.fits_iff rest fd).2⟩⟩
  · have held := kept.held t
    rw [balanced.holds t, holdCount_at_rest (rest t)] at held
    omega
  · rw [kept.held t, holdCount_at_rest (rest t), none t, Nat.add_zero]
  · rw [kept.depth t, entries_at_rest (rest t), depthEntry]
    simp

/-- Nobody holds the lock: an attempt none of whose steps raises enters its context. -/
theorem undisturbed_enters (kept : Kept leaks s) (none : ∀ t, leaks t = 0) (unheld : s.Unheld)
    {object lock : Nat} (found : s.objects[object]? = some lock) (t : Thread) (fd : Fd) :
    ∃ s', s.run (undisturbed t object fd) = some s' ∧ s'.attempts t = [⟨lock, .outermost fd⟩] := by
  have unused := kept.vacant fun t => by simp [unheld.attempts t]
  have free : s.fileLock = .none := by
    cases holder : s.fileLock with
    | none => rfl
    | some holder' =>
      cases holder' with
      | own fd => exact absurd holder (unused.unlocked fd)
      | other => exact absurd holder unheld.fileLock
  have depth : s.depths t = .none := by
    rw [kept.depth t, unheld.attempts t]
    rfl
  have registered := kept.objects lock (List.mem_of_getElem? found)
  obtain ⟨held, taken⟩ := RLock.acquire_isSome (t := t) fun u _ => by
    have := kept.held u
    simpa [LockState.processLock, registered, unheld.attempts u, none u] using this
  simp [undisturbed, LockState.run, LockState.step, LockState.call, LockState.completes,
    LockState.opens, LockState.moved, LockState.setLock, LockState.setDepth, LockState.takeGuard,
    LockState.giveGuard, found, unheld.attempts t, taken, depth, unused.guard, unused.opened fd, free]

end Kept

namespace LockState

theorem Balanced.same {s₀ : LockState Thread} (first : s₀.Balanced) (second : s.Balanced)
    (contexts : s.attempts = s₀.attempts) : SameHoldings s₀ s where
  holds t := by rw [second.holds t, first.holds t, contexts]
  depth := funext fun t => by rw [second.depth t, first.depth t, contexts]
  active := Finset.ext fun fd => by rw [second.active fd, first.active fd, contexts]
  fileLock fd := by rw [second.fileLock fd, first.fileLock fd, contexts]

theorem prepares_of_no_raise {events : List (Event Thread)}
    (spared : ∀ t, .raises t ∉ events) : s.PreparesEachRoot events := by
  induction events generalizing s with
  | nil => trivial
  | cons event events ih =>
    refine ⟨?_, fun _ _ => ih fun t member => spared t (by simp [member])⟩
    cases event with
    | raises t => exact absurd (by simp) (spared t)
    | _ => rfl

theorem PreparesEachRoot.of_append {before since : List (Event Thread)}
    (prepares : s.PreparesEachRoot (before ++ since)) : s.PreparesEachRoot before := by
  induction before generalizing s with
  | nil => trivial
  | cons event before ih => exact ⟨prepares.1, fun s' done => ih (prepares.2 s' done)⟩

end LockState

/-- Whenever no attempt is in progress, the lock is balanced, has what it had before any attempts
that ended without entering, and lets any thread in once nobody holds it, exactly if
`prepare_storage_root` has never raised inside `acquire`. -/
theorem balanced_iff_prepares_each_root {events : List (Event Thread)}
    (ran : ({} : LockState Thread).run events = some s) (rest : s.AtRest) :
    (s.Balanced ∧
      (∀ before since s₀, events = before ++ since → ({} : LockState Thread).run before = some s₀ →
        s₀.AtRest → s.attempts = s₀.attempts → s₀.SameHoldings s) ∧
      (s.Unheld → ∀ object lock, s.objects[object]? = some lock → ∀ t fd,
        ∃ s', s.run (undisturbed t object fd) = some s' ∧
          s'.attempts t = [⟨lock, .outermost fd⟩])) ↔
      ({} : LockState Thread).PreparesEachRoot events := by
  obtain ⟨leaks, kept, -, spared⟩ := Kept.init.run ran
  simp only [implies_true, true_and] at spared
  rw [← spared]
  refine ⟨fun ⟨balanced, _⟩ => (kept.balanced_iff rest).mp balanced, fun none =>
    have balanced := (kept.balanced_iff rest).mpr none
    ⟨balanced, ?_, fun unheld object lock found t fd => ?_⟩⟩
  · rintro before since s₀ rfl ran₀ rest₀ contexts
    obtain ⟨leaks₀, kept₀, -, spared₀⟩ := Kept.init.run ran₀
    have prepares := (spared.mp none).of_append
    have none₀ := spared₀.mpr ⟨fun _ => rfl, prepares⟩
    exact ((kept₀.balanced_iff rest₀).mpr none₀).same balanced contexts
  · exact kept.undisturbed_enters none unheld found t fd

/-- One thread makes a lock object and enters its context. -/
theorem balanced_iff_prepares_each_root_entered :
    ∃ s : LockState Nat, ({} : LockState Nat).run (.construct :: undisturbed 0 0 3) = some s ∧
      s.Balanced ∧ s.processLock.holds 0 = 1 := by
  obtain ⟨s, ran⟩ : ∃ s, ({} : LockState Nat).run (.construct :: undisturbed 0 0 3) = some s :=
    ⟨_, rfl⟩
  have contexts : s.attempts = Function.update (fun _ => []) 0 [⟨0, .outermost 3⟩] := by
    cases ran
    funext t
    by_cases first : t = 0
    · subst first
      rfl
    · simp [first]
  have rest : s.AtRest := by
    intro t a member
    rw [contexts] at member
    by_cases first : t = 0
    · subst first
      obtain rfl : a = ⟨0, .outermost 3⟩ := by simpa using member
      rfl
    · simp [first] at member
  have balanced := ((balanced_iff_prepares_each_root ran rest).mpr
    (LockState.prepares_of_no_raise (by simp [undisturbed]))).1
  exact ⟨s, ran, balanced, by rw [balanced.holds 0, contexts]; rfl⟩

/-- `prepare_storage_root` raises in the only attempt there is: its thread holds the process lock
when every attempt has ended, and the next thread is turned away. -/
theorem prepare_raises_unbalanced :
    ∃ s : LockState Nat,
      ({} : LockState Nat).run [.construct, .call 0 0, .completes 0, .completes 0, .raises 0] = some s ∧
        s.AtRest ∧ s.Unheld ∧ ¬ s.Balanced ∧
          s.run [.call 1 0, .completes 1] = none ∧ (s.run [.call 1 0, .raises 1]).isSome := by
  obtain ⟨s, ran⟩ : ∃ s, ({} : LockState Nat).run
      [.construct, .call 0 0, .completes 0, .completes 0, .raises 0] = some s := ⟨_, rfl⟩
  have contexts : ∀ t, s.attempts t = [] := by
    cases ran
    intro t
    by_cases first : t = 0
    · subst first
      rfl
    · simp [first]
  cases ran
  refine ⟨_, rfl, fun t a member => ?_, ⟨contexts, nofun⟩, fun balanced => ?_, rfl, rfl⟩
  · rw [contexts t] at member
    cases member
  · exact absurd (balanced.holds 0) (by decide)

end AuthorityLock
end DefiantHarness
