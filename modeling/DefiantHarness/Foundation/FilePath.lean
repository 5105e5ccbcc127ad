import Mathlib.Data.List.Basic
import DefiantHarness.Foundation.CodePoint

/-! Absolute paths without links as lists of names, and the texts that they are read from and written
as. -/
namespace Foundation

namespace Points

def slash : CodePoint := .ofChar '/'

def backslash : CodePoint := .ofChar '\\'

def dot : Points := ofString "."

def dotdot : Points := ofString ".."

/-- The parts between slashes that lead somewhere. -/
def parts (text : Points) : List Points :=
  (text.splitOn slash).filter fun part => part != [] && part != dot

/-- Names with a slash between them. -/
def path (names : List Points) : Points := List.intercalate [slash] names

/-- A text that names a file in its directory. -/
structure IsName (name : Points) : Prop where
  some : name ≠ []
  notDot : name ≠ dot
  notUp : name ≠ dotdot
  whole : slash ∉ name

private theorem not_mem_of_splitOnP {p : CodePoint → Bool} {text part : Points}
    (member : part ∈ text.splitOnP p) : ∀ c ∈ part, p c = false := by
  induction text generalizing part with
  | nil =>
    rw [List.splitOnP_nil, List.mem_singleton] at member
    simp [member]
  | cons c text ih =>
    rw [List.splitOnP_cons_eq_if_modifyHead] at member
    split at member
    · rcases List.mem_cons.1 member with rfl | later
      · simp
      · exact ih later
    next kept =>
      cases rest : text.splitOnP p with
      | nil => exact absurd rest (List.splitOnP_ne_nil p text)
      | cons first others =>
        rw [rest] at ih member
        rw [List.modifyHead_cons] at member
        rcases List.mem_cons.1 member with rfl | later
        · intro d inside
          rcases List.mem_cons.1 inside with rfl | deeper
          · simpa using kept
          · exact ih (by simp) d deeper
        · exact ih (by simp [later])

theorem mem_parts {text part : Points} (member : part ∈ parts text) :
    part ≠ [] ∧ part ≠ dot ∧ slash ∉ part := by
  obtain ⟨split, visible⟩ := List.mem_filter.1 member
  simp only [Bool.and_eq_true, bne_iff_ne] at visible
  refine ⟨visible.1, visible.2, fun inside => ?_⟩
  rw [List.splitOn_eq_splitOnP] at split
  have apart := not_mem_of_splitOnP split slash inside
  simp at apart

theorem mem_path {names : List Points} {c : CodePoint} :
    c ∈ path names → c = slash ∨ ∃ name ∈ names, c ∈ name := by
  intro member
  induction names with
  | nil => cases member
  | cons name names ih =>
    cases names with
    | nil =>
      rw [path, List.intercalate_singleton] at member
      exact .inr ⟨name, by simp, member⟩
    | cons next rest =>
      rw [path, List.intercalate_cons_cons, List.mem_append, List.mem_append] at member
      rcases member with (own | separator) | later
      · exact .inr ⟨name, by simp, own⟩
      · exact .inl (List.mem_singleton.1 separator)
      · rcases ih later with here | ⟨other, among, inside⟩
        · exact .inl here
        · exact .inr ⟨other, List.mem_cons_of_mem _ among, inside⟩

theorem mem_path_of_mem {names : List Points} {name : Points} {c : CodePoint} (member : name ∈ names)
    (inside : c ∈ name) : c ∈ path names := by
  induction names with
  | nil => cases member
  | cons first names ih =>
    cases names with
    | nil =>
      obtain rfl := List.mem_singleton.1 member
      rw [path, List.intercalate_singleton]
      exact inside
    | cons next rest =>
      rw [path, List.intercalate_cons_cons, List.mem_append, List.mem_append]
      rcases List.mem_cons.1 member with rfl | later
      · exact .inl (.inl inside)
      · exact .inr (ih later)

/-- The parts of a text are made of its code points. -/
theorem mem_of_mem_parts {text part : Points} {c : CodePoint} (member : part ∈ parts text)
    (inside : c ∈ part) : c ∈ text := by
  have whole := mem_path_of_mem (List.mem_of_mem_filter member) inside
  rw [path, List.intercalate_splitOn] at whole
  exact whole

/-- A path is read as the names that it was written with. -/
theorem parts_path {names : List Points} (proper : ∀ name ∈ names, IsName name) :
    parts (path names) = names := by
  by_cases empty : names = []
  · subst empty
    rfl
  · rw [parts, path, List.splitOn_intercalate _ (fun name member => (proper name member).whole) empty,
      List.filter_eq_self]
    intro name member
    simp [(proper name member).some, (proper name member).notDot]

theorem path_injective {names others : List Points} (proper : ∀ name ∈ names, IsName name)
    (proper' : ∀ name ∈ others, IsName name) (same : path names = path others) : names = others := by
  rw [← parts_path proper, same, parts_path proper']

end Points

open Points

/-- An absolute path without links. -/
structure FilePath where
  names : List Points
  proper : ∀ name ∈ names, IsName name

namespace FilePath

@[ext] theorem ext {p q : FilePath} (names : p.names = q.names) : p = q := by
  cases p
  cases q
  subst names
  rfl

instance : DecidableEq FilePath := fun p q =>
  decidable_of_iff (p.names = q.names) ⟨ext, fun same => by rw [same]⟩

/-- One part further: up, or into a directory. -/
def descend (names : List Points) (part : Points) : List Points :=
  if part = dotdot then names.dropLast else names ++ [part]

private theorem descend_proper {names : List Points} {part : Points}
    (proper : ∀ name ∈ names, IsName name) (visible : part ≠ [] ∧ part ≠ dot ∧ slash ∉ part) :
    ∀ name ∈ descend names part, IsName name := by
  unfold descend
  split
  · exact fun name member => proper name (List.dropLast_subset names member)
  next forward =>
    intro name member
    rcases List.mem_append.1 member with old | new
    · exact proper name old
    · obtain rfl := List.mem_singleton.1 new
      exact ⟨visible.1, visible.2.1, forward, visible.2.2⟩

private theorem walk_proper {names : List Points} (proper : ∀ name ∈ names, IsName name)
    {steps : List Points} (visible : ∀ part ∈ steps, part ≠ [] ∧ part ≠ dot ∧ slash ∉ part) :
    ∀ name ∈ steps.foldl descend names, IsName name := by
  induction steps generalizing names with
  | nil => exact proper
  | cons part steps ih =>
    rw [List.forall_mem_cons] at visible
    exact ih (descend_proper proper visible.1) visible.2

/-- Walk down these texts, one after the other. -/
def join (base : FilePath) (texts : List Points) : FilePath where
  names := (texts.flatMap parts).foldl descend base.names
  proper := walk_proper base.proper fun part member => by
    obtain ⟨text, -, inside⟩ := List.mem_flatMap.1 member
    exact mem_parts inside

private theorem mem_walk {names steps : List Points} {name : Points}
    (member : name ∈ steps.foldl descend names) : name ∈ names ∨ name ∈ steps := by
  induction steps generalizing names with
  | nil => exact .inl member
  | cons part steps ih =>
    rcases ih member with here | later
    · unfold descend at here
      split at here
      · exact .inl (List.dropLast_subset names here)
      · rcases List.mem_append.1 here with old | new
        · exact .inl old
        · exact .inr (List.mem_cons.2 (.inl (List.mem_singleton.1 new)))
    · exact .inr (List.mem_cons_of_mem _ later)

/-- The names on the way come from the base and from the texts. -/
theorem mem_join {base : FilePath} {texts : List Points} {name : Points}
    (member : name ∈ (base.join texts).names) :
    name ∈ base.names ∨ ∃ text ∈ texts, name ∈ parts text := by
  rcases mem_walk member with old | new
  · exact .inl old
  · exact .inr (List.mem_flatMap.1 new)

def root : FilePath := ⟨[], by simp⟩

/-- The file that a text denotes for a process in a directory. -/
def resolve (cwd : FilePath) (text : Points) : FilePath :=
  if text.head? = some slash then root.join [text] else cwd.join [text]

/-- The names below a directory. -/
def relativeTo (file directory : FilePath) : Option (List Points) :=
  if directory.names.isPrefixOf file.names then some (file.names.drop directory.names.length)
  else none

/-- The names below a directory lead from it to the file. -/
theorem relativeTo_eq_some_iff {file directory : FilePath} {names : List Points} :
    file.relativeTo directory = some names ↔ file.names = directory.names ++ names := by
  rw [relativeTo]
  constructor
  · intro below
    split at below
    next inside =>
      obtain ⟨rest, same⟩ := List.isPrefixOf_iff_prefix.1 inside
      rw [← same, List.drop_left, Option.some.injEq] at below
      rw [← same, below]
    · cases below
  · intro same
    rw [same, if_pos (List.isPrefixOf_iff_prefix.2 (List.prefix_append _ _)), List.drop_left]

private theorem foldl_descend {names steps : List Points} (forward : dotdot ∉ steps) :
    steps.foldl descend names = names ++ steps := by
  induction steps generalizing names with
  | nil => simp
  | cons part steps ih =>
    rw [List.mem_cons, not_or] at forward
    rw [List.foldl_cons, ih forward.2, descend, if_neg (Ne.symm forward.1), List.append_assoc]
    rfl

/-- Proper names lead further down. -/
theorem join_names {base : FilePath} {names : List Points} (proper : ∀ name ∈ names, IsName name) :
    (base.join names).names = base.names ++ names := by
  have same : names.flatMap parts = names := by
    induction names with
    | nil => rfl
    | cons name names ih =>
      rw [List.forall_mem_cons] at proper
      have one := parts_path (List.forall_mem_singleton.2 proper.1)
      rw [path, List.intercalate_singleton] at one
      rw [List.flatMap_cons, one, ih proper.2]
      rfl
  have forward : dotdot ∉ names := fun up => (proper dotdot up).notUp rfl
  show (names.flatMap parts).foldl descend base.names = base.names ++ names
  rw [same, foldl_descend forward]

end FilePath
end Foundation
