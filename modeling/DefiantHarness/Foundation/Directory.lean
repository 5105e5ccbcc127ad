import Mathlib.Logic.Function.Basic

/-! One directory: which file each name stands for, and what each file contains. -/
namespace Foundation

/-- Files are known by their identity. A file that no name stands for any more can still be open. -/
structure Directory (Name Byte : Type) where
  entries : Name → Option Nat
  contents : Nat → List Byte

namespace Directory

variable {Name Byte : Type} (dir : Directory Name Byte)

/-- What a name stands for contains. -/
def read (name : Name) : Option (List Byte) := (dir.entries name).map dir.contents

def append (file : Nat) (bytes : List Byte) : Directory Name Byte :=
  { dir with contents := Function.update dir.contents file (dir.contents file ++ bytes) }

/-- No file has two names. -/
def Single : Prop := ∀ a b file, dir.entries a = some file → dir.entries b = some file → a = b

def Unlinked (file : Nat) : Prop := ∀ name, dir.entries name ≠ some file

section

variable {dir} {next : Directory Name Byte} {name : Name} {file : Nat} {bytes : List Byte}

@[simp] theorem append_entries : (dir.append file bytes).entries = dir.entries := rfl

@[simp] theorem append_same : (dir.append file bytes).contents file = dir.contents file ++ bytes :=
  Function.update_self ..

theorem append_other {kept : Nat} (apart : kept ≠ file) :
    (dir.append file bytes).contents kept = dir.contents kept := Function.update_of_ne apart ..

theorem Single.append (single : dir.Single) (file : Nat) (bytes : List Byte) :
    (dir.append file bytes).Single := single

theorem read_of_entry (found : dir.entries name = some file) :
    dir.read name = some (dir.contents file) := by rw [read, found, Option.map_some]

/-- A name is read as before where it stands for the same file with the same content. -/
theorem read_congr (entry : next.entries name = dir.entries name)
    (content : ∀ file, dir.entries name = some file → next.contents file = dir.contents file) :
    next.read name = dir.read name := by
  unfold read
  rw [entry]
  cases found : dir.entries name with
  | none => rfl
  | some file => rw [Option.map_some, Option.map_some, content file found]

end

variable [DecidableEq Name]

/-- `open` with `O_CREAT | O_EXCL`; `none` is the error of a name that exists. -/
def create (name : Name) (file : Nat) : Option (Directory Name Byte) :=
  if (dir.entries name).isSome then none
  else some
    { entries := Function.update dir.entries name (some file)
      contents := Function.update dir.contents file [] }

def unlink (name : Name) : Directory Name Byte :=
  { dir with entries := Function.update dir.entries name none }

/-- `rename` within the directory; `none` is the error of a name that does not exist. -/
def replace (source target : Name) : Option (Directory Name Byte) :=
  (dir.entries source).map fun file =>
    { dir with entries :=
        Function.update (Function.update dir.entries target (some file)) source none }

variable {dir} {name other source target : Name} {file : Nat} {next : Directory Name Byte}

@[simp] theorem unlink_contents : (dir.unlink name).contents = dir.contents := rfl

@[simp] theorem unlink_same : (dir.unlink name).entries name = none := Function.update_self ..

theorem unlink_other (apart : other ≠ name) : (dir.unlink name).entries other = dir.entries other :=
  Function.update_of_ne apart ..

/-- What a created file changes. -/
theorem create_cases (created : dir.create name file = some next) :
    dir.entries name = none ∧ next.entries name = some file ∧
      (∀ other, other ≠ name → next.entries other = dir.entries other) ∧
      next.contents file = [] ∧ ∀ kept, kept ≠ file → next.contents kept = dir.contents kept := by
  unfold create at created
  split at created
  · cases created
  · next absent =>
    rw [Option.some.injEq] at created
    subst created
    rw [Bool.not_eq_true, Option.isSome_eq_false_iff, Option.isNone_iff_eq_none] at absent
    exact ⟨absent, Function.update_self .., fun _ apart => Function.update_of_ne apart ..,
      Function.update_self .., fun _ apart => Function.update_of_ne apart ..⟩

/-- What a rename changes. -/
theorem replace_cases (replaced : dir.replace source target = some next)
    (apart : source ≠ target) :
    ∃ file, dir.entries source = some file ∧ next.entries target = some file ∧
      next.entries source = none ∧
      (∀ other, other ≠ source → other ≠ target → next.entries other = dir.entries other) ∧
      next.contents = dir.contents := by
  unfold replace at replaced
  cases found : dir.entries source with
  | none =>
    rw [found] at replaced
    cases replaced
  | some file =>
    rw [found, Option.map_some, Option.some.injEq] at replaced
    subst replaced
    refine ⟨file, rfl, ?_, Function.update_self .., ?_, rfl⟩
    · dsimp only
      rw [Function.update_of_ne apart.symm, Function.update_self]
    · intro other first second
      dsimp only
      rw [Function.update_of_ne first, Function.update_of_ne second]

namespace Single

theorem unlink (single : dir.Single) (name : Name) : (dir.unlink name).Single := by
  have fewer (other : Name) (file : Nat) (found : (dir.unlink name).entries other = some file) :
      dir.entries other = some file := by
    by_cases same : other = name
    · rw [same, unlink_same] at found
      cases found
    · rwa [unlink_other same] at found
  exact fun a b file first second => single a b file (fewer a file first) (fewer b file second)

theorem create (single : dir.Single) (unlinked : dir.Unlinked file)
    (created : dir.create name file = some next) : next.Single := by
  obtain ⟨-, own, others, -⟩ := create_cases created
  have entry (other : Name) (kept : Nat) (found : next.entries other = some kept) :
      (other = name ∧ kept = file) ∨ dir.entries other = some kept := by
    by_cases same : other = name
    · rw [same, own, Option.some.injEq] at found
      exact .inl ⟨same, found.symm⟩
    · rw [others other same] at found
      exact .inr found
  intro a b kept first second
  rcases entry a kept first with ⟨rfl, rfl⟩ | old
  · rcases entry b kept second with ⟨rfl, -⟩ | absurd
    · rfl
    · exact (unlinked b absurd).elim
  · rcases entry b kept second with ⟨rfl, rfl⟩ | also
    · exact (unlinked a old).elim
    · exact single a b kept old also

theorem replace (single : dir.Single) (replaced : dir.replace source target = some next)
    (apart : source ≠ target) : next.Single := by
  obtain ⟨file, own, moved, gone, others, -⟩ := replace_cases replaced apart
  have entry (name : Name) (kept : Nat) (found : next.entries name = some kept) :
      (name = target ∧ kept = file) ∨ (name ≠ source ∧ dir.entries name = some kept) := by
    by_cases first : name = source
    · rw [first, gone] at found
      cases found
    · by_cases second : name = target
      · rw [second, moved, Option.some.injEq] at found
        exact .inl ⟨second, found.symm⟩
      · rw [others name first second] at found
        exact .inr ⟨first, found⟩
  intro a b kept first second
  rcases entry a kept first with ⟨rfl, rfl⟩ | ⟨left, old⟩
  · rcases entry b kept second with ⟨rfl, -⟩ | ⟨right, absurd⟩
    · rfl
    · exact (right (single b source kept absurd own)).elim
  · rcases entry b kept second with ⟨rfl, rfl⟩ | ⟨-, also⟩
    · exact (left (single a source kept old own)).elim
    · exact single a b kept old also

end Single
end Directory
end Foundation
