import Mathlib.Data.List.Nodup
import DefiantHarness.Foundation.FilePath

/-! Directory trees of the host, and how a configured path is followed through them. -/
namespace DefiantHarness

open Foundation Points

/-- A name in a directory. Bytes that are no UTF-8 are decoded to low surrogates, so no high
surrogate occurs. -/
structure EntryName where
  text : Points
  proper : IsName text
  decoded : ∀ c ∈ text, c.high = false

inductive Node where
  /-- A regular file with its link count. -/
  | file (content : List UInt8) (links : Nat)
  | directory (entries : List (EntryName × Node))
  /-- A symbolic link, or another reparse point. -/
  | link
  /-- Anything else: a socket, a device, a pipe. -/
  | other

abbrev DirectoryEntry := EntryName × Node

namespace Node

/-- Induction over a tree with its entries. -/
@[elab_as_elim]
theorem induction_on {motive : Node → Prop} (file : ∀ content links, motive (.file content links))
    (directory : ∀ entries, (∀ e ∈ entries, motive e.2) → motive (.directory entries))
    (link : motive .link) (other : motive .other) (node : Node) : motive node :=
  @Node.rec motive (fun entries => ∀ e ∈ entries, motive e.2) (fun e => motive e.2)
    file directory link other (by simp)
    (fun _ _ head tail => List.forall_mem_cons.2 ⟨head, tail⟩) (fun _ _ held => held) node

/-- The node at the end of these names. -/
def nodeAt (node : Node) : List Points → Option Node
  | [] => some node
  | name :: names =>
    match node with
    | .directory entries =>
      match entries.find? fun e => e.1.text == name with
      | some entry => entry.2.nodeAt names
      | none => none
    | _ => none

def isDirectory : Node → Bool
  | .directory _ => true
  | _ => false

def isLink : Node → Bool
  | .link => true
  | _ => false

mutual

/-- Every entry below a directory, with its path from where the directory stands. -/
def descendants (base : List Points) : Node → List (List Points × Node)
  | .directory entries => entriesWithin base entries
  | .file .. => []
  | .link => []
  | .other => []

/-- The entries of a directory at a path, and everything below them. -/
def entriesWithin (base : List Points) : List DirectoryEntry → List (List Points × Node)
  | [] => []
  | (name, node) :: entries =>
    (base ++ [name.text], node) ::
      (descendants (base ++ [name.text]) node ++ entriesWithin base entries)

end

mutual

/-- No directory has two entries of one name. -/
def Distinct : Node → Prop
  | .directory entries => (entries.map (·.1.text)).Nodup ∧ DistinctEntries entries
  | .file .. => True
  | .link => True
  | .other => True

def DistinctEntries : List DirectoryEntry → Prop
  | [] => True
  | (_, node) :: entries => Distinct node ∧ DistinctEntries entries

end

private theorem found_named {entries : List DirectoryEntry} {name : Points} {entry : DirectoryEntry}
    (first : entries.find? (fun e => e.1.text == name) = some entry) : entry.1.text = name := by
  have same := List.find?_some first
  exact beq_iff_eq.1 same

theorem distinctEntries_iff {entries : List DirectoryEntry} :
    DistinctEntries entries ↔ ∀ e ∈ entries, e.2.Distinct := by
  induction entries with
  | nil => simp [DistinctEntries]
  | cons e entries ih =>
    obtain ⟨name, node⟩ := e
    rw [DistinctEntries, ih, List.forall_mem_cons]

@[simp] theorem nodeAt_nil (node : Node) : node.nodeAt [] = some node := by
  cases node <;> rfl

theorem nodeAt_cons_eq_some_iff {node found : Node} {name : Points} {names : List Points} :
    node.nodeAt (name :: names) = some found ↔
      ∃ entries entry, node = .directory entries ∧
        entries.find? (fun e => e.1.text == name) = some entry ∧
          entry.2.nodeAt names = some found := by
  cases node with
  | directory entries =>
    simp only [nodeAt, directory.injEq]
    split
    next entry first =>
      constructor
      · exact fun below => ⟨entries, entry, rfl, first, below⟩
      · rintro ⟨_, _, rfl, first', below⟩
        obtain rfl := Option.some.inj (first.symm.trans first')
        exact below
    next absent =>
      refine iff_of_false nofun ?_
      rintro ⟨_, _, rfl, first, _⟩
      exact nomatch absent.symm.trans first
  | _ => simp [nodeAt]

theorem nodeAt_append (node : Node) (names rest : List Points) :
    node.nodeAt (names ++ rest) = (node.nodeAt names).bind (·.nodeAt rest) := by
  induction names generalizing node with
  | nil => simp
  | cons name names ih =>
    ext found
    rw [List.cons_append, nodeAt_cons_eq_some_iff, Option.bind_eq_some_iff]
    constructor
    · rintro ⟨entries, entry, rfl, first, below⟩
      rw [ih, Option.bind_eq_some_iff] at below
      obtain ⟨middle, upper, lower⟩ := below
      exact ⟨middle, nodeAt_cons_eq_some_iff.2 ⟨entries, entry, rfl, first, upper⟩, lower⟩
    · rintro ⟨middle, upper, lower⟩
      obtain ⟨entries, entry, rfl, first, upper⟩ := nodeAt_cons_eq_some_iff.1 upper
      refine ⟨entries, entry, rfl, first, ?_⟩
      rw [ih, upper]
      exact lower

/-- What stands one name further stands in a directory. -/
theorem directory_of_concat {node found : Node} {names : List Points} {name : Points}
    (reached : node.nodeAt (names ++ [name]) = some found) :
    ∃ entries, node.nodeAt names = some (.directory entries) := by
  rw [nodeAt_append, Option.bind_eq_some_iff] at reached
  obtain ⟨middle, upper, lower⟩ := reached
  obtain ⟨entries, -, rfl, -⟩ := nodeAt_cons_eq_some_iff.1 lower
  exact ⟨entries, upper⟩

/-- Every name on the way to a node is the name of an entry. -/
theorem entryName_of_nodeAt {node found : Node} {names : List Points} {name : Points}
    (reached : node.nodeAt names = some found) (member : name ∈ names) :
    ∃ entry : EntryName, entry.text = name := by
  induction names generalizing node with
  | nil => cases member
  | cons first names ih =>
    obtain ⟨entries, entry, rfl, found, below⟩ := nodeAt_cons_eq_some_iff.1 reached
    rcases List.mem_cons.1 member with rfl | later
    · exact ⟨entry.1, found_named found⟩
    · exact ih below later

theorem Distinct.nodeAt {node found : Node} {names : List Points} (distinct : node.Distinct)
    (reached : node.nodeAt names = some found) : found.Distinct := by
  induction names generalizing node with
  | nil =>
    rw [nodeAt_nil, Option.some.injEq] at reached
    exact reached ▸ distinct
  | cons name names ih =>
    obtain ⟨entries, entry, rfl, first, below⟩ := nodeAt_cons_eq_some_iff.1 reached
    rw [Distinct, distinctEntries_iff] at distinct
    exact ih (distinct.2 entry (List.mem_of_find?_eq_some first)) below

/-- An entry is what its name leads to. -/
theorem find_entry {entries : List DirectoryEntry} (distinct : (entries.map (·.1.text)).Nodup)
    {entry : DirectoryEntry} (member : entry ∈ entries) :
    entries.find? (fun e => e.1.text == entry.1.text) = some entry := by
  have some : (entries.find? fun e => e.1.text == entry.1.text).isSome :=
    List.find?_isSome.2 ⟨entry, member, beq_iff_eq.2 rfl⟩
  obtain ⟨found, first⟩ := Option.isSome_iff_exists.1 some
  have own := List.mem_of_find?_eq_some first
  rw [first, List.inj_on_of_nodup_map distinct own member (found_named first)]

theorem mem_descendants_iff {node found : Node} {base path : List Points} (distinct : node.Distinct) :
    (path, found) ∈ node.descendants base ↔
      ∃ names, names ≠ [] ∧ path = base ++ names ∧ node.nodeAt names = some found := by
  induction node using Node.induction_on generalizing base path with
  | directory entries ih =>
    rw [Distinct, distinctEntries_iff] at distinct
    -- an entry's descendants are those below it, under the entry's own name first
    have within : ∀ es : List DirectoryEntry, (∀ e ∈ es, e ∈ entries) →
        ((path, found) ∈ entriesWithin base es ↔
          ∃ e ∈ es, ∃ rest, path = base ++ e.1.text :: rest ∧ e.2.nodeAt rest = some found) := by
      intro es among
      induction es with
      | nil => simp [entriesWithin]
      | cons e es step =>
        obtain ⟨name, node⟩ := e
        rw [List.forall_mem_cons] at among
        rw [entriesWithin, List.mem_cons, List.mem_append, step among.2,
          ih (name, node) among.1 (distinct.2 _ among.1), List.exists_mem_cons_iff]
        rw [← or_assoc]
        apply or_congr_left
        constructor
        · rintro (same | ⟨names, -, rfl, below⟩)
          · obtain ⟨rfl, rfl⟩ := Prod.mk.inj same
            exact ⟨[], rfl, nodeAt_nil _⟩
          · exact ⟨names, by rw [List.append_assoc]; rfl, below⟩
        · rintro ⟨rest, rfl, below⟩
          cases rest with
          | nil =>
            rw [nodeAt_nil, Option.some.injEq] at below
            obtain rfl := below
            exact .inl rfl
          | cons next rest =>
            exact .inr ⟨next :: rest, nofun, by rw [List.append_assoc]; rfl, below⟩
    rw [descendants, within entries fun _ member => member]
    constructor
    · rintro ⟨e, member, rest, rfl, below⟩
      refine ⟨e.1.text :: rest, nofun, rfl, nodeAt_cons_eq_some_iff.2 ?_⟩
      exact ⟨entries, e, rfl, find_entry distinct.1 member, below⟩
    · rintro ⟨names, some, rfl, reached⟩
      cases names with
      | nil => exact absurd rfl some
      | cons name rest =>
        obtain ⟨_, e, same, first, below⟩ := nodeAt_cons_eq_some_iff.1 reached
        obtain rfl := Node.directory.inj same
        refine ⟨e, List.mem_of_find?_eq_some first, rest, ?_, below⟩
        rw [found_named first]
  | _ =>
    refine iff_of_false (by simp [descendants]) ?_
    rintro ⟨names, some, rfl, reached⟩
    cases names with
    | nil => exact some rfl
    | cons name rest =>
      obtain ⟨_, _, same, _⟩ := nodeAt_cons_eq_some_iff.1 reached
      cases same

/-- What stands below an entry has the path of the entry before it. -/
private theorem under_entry {node : Node} {base path : List Points} {found : Node}
    (distinct : node.Distinct) (member : (path, found) ∈ node.descendants base) :
    ∃ name rest, path = base ++ name :: rest := by
  obtain ⟨names, some, rfl, -⟩ := (mem_descendants_iff distinct).1 member
  obtain ⟨name, rest, rfl⟩ := List.exists_cons_of_ne_nil some
  exact ⟨name, rest, rfl⟩

theorem mem_entriesWithin_names {entries : List DirectoryEntry} {base path : List Points} {found : Node}
    (distinct : ∀ e ∈ entries, e.2.Distinct) (member : (path, found) ∈ entriesWithin base entries) :
    ∃ e ∈ entries, ∃ rest, path = base ++ e.1.text :: rest := by
  induction entries with
  | nil => cases member
  | cons e entries ih =>
    obtain ⟨name, node⟩ := e
    rw [List.forall_mem_cons] at distinct
    rw [entriesWithin, List.mem_cons, List.mem_append] at member
    rcases member with same | own | later
    · exact ⟨(name, node), by simp, [], by rw [(Prod.mk.inj same).1]⟩
    · obtain ⟨next, rest, rfl⟩ := under_entry distinct.1 own
      exact ⟨(name, node), by simp, next :: rest, by rw [List.append_assoc]; rfl⟩
    · obtain ⟨e, inside, rest, rfl⟩ := ih distinct.2 later
      exact ⟨e, List.mem_cons_of_mem _ inside, rest, rfl⟩

/-- No two entries below a directory have one path. -/
theorem descendants_nodup {node : Node} {base : List Points} (distinct : node.Distinct) :
    ((node.descendants base).map (·.1)).Nodup := by
  induction node using Node.induction_on generalizing base with
  | directory entries ih =>
    rw [Distinct, distinctEntries_iff] at distinct
    obtain ⟨names, each⟩ := distinct
    rw [descendants]
    induction entries with
    | nil => exact List.nodup_nil
    | cons e entries step =>
      obtain ⟨name, node⟩ := e
      rw [List.map_cons, List.nodup_cons] at names
      rw [List.forall_mem_cons] at each ih
      -- two entries have different names, so nothing lies under both
      have apart : ∀ path, path ∈ (entriesWithin base entries).map (·.1) →
          ∀ rest, path ≠ base ++ name.text :: rest := by
        rintro path inside rest rfl
        obtain ⟨⟨_, found⟩, member, rfl⟩ := List.mem_map.1 inside
        obtain ⟨e, among, rest', same⟩ := mem_entriesWithin_names each.2 member
        have first := (List.cons.inj (List.append_cancel_left same)).1
        exact names.1 (List.mem_map.2 ⟨e, among, first.symm⟩)
      have below : ∀ path ∈ (node.descendants (base ++ [name.text])).map (·.1),
          ∃ next rest, path = base ++ name.text :: next :: rest := by
        rintro path inside
        obtain ⟨⟨_, found⟩, member, rfl⟩ := List.mem_map.1 inside
        obtain ⟨next, rest, same⟩ := under_entry each.1 member
        exact ⟨next, rest, by rw [same, List.append_assoc]; rfl⟩
      rw [entriesWithin, List.map_cons, List.map_append, List.nodup_cons, List.nodup_append]
      refine ⟨?_, ih.1 each.1, step ih.2 names.2 each.2, ?_⟩
      · rw [List.mem_append, not_or]
        refine ⟨fun inside => ?_, fun inside => apart _ inside [] rfl⟩
        obtain ⟨next, rest, same⟩ := below _ inside
        cases (List.cons.inj (List.append_cancel_left same)).2
      · rintro path inside other later rfl
        obtain ⟨next, rest, same⟩ := below _ inside
        exact apart _ later _ same
  | _ => exact List.nodup_nil

end Node

/-- The file system that a process sees, the directory it works in, and what links resolve to. -/
structure Host where
  root : List DirectoryEntry
  distinct : (Node.directory root).Distinct
  cwd : FilePath
  follow : List Points → Option (List Points)

namespace Host

variable (host : Host)

/-- `os.lstat` of the node at the end of these names. -/
def lstat (names : List Points) : Option Node := (Node.directory host.root).nodeAt names

/-- The parts of `path if path.is_absolute() else Path.cwd() / path`. -/
def absoluteParts (text : Points) : List Points :=
  if text.head? = some slash then parts text else host.cwd.names ++ parts text

/-- One part further on a path without links, as the operating system looks it up. -/
def lookup (position : List Points) (part : Points) : Option (List Points) :=
  match host.lstat position with
  | some (.directory _) =>
    let next := FilePath.descend position part
    if (host.lstat next).isSome then some next else none
  | _ => none

/-- `_path_has_symlink`: the first prefix that is a link; a prefix that cannot be looked up is none,
and neither is any longer one. -/
def pathHasLink (position : List Points) : List Points → Bool
  | [] => false
  | part :: rest =>
    match host.lookup position part with
    | none => false
    | some next =>
      if (host.lstat next).any Node.isLink then true else pathHasLink next rest

/-- `Path.resolve(strict=True)`: parts that lead up are dropped together with the part before, and
every other prefix must exist. -/
def resolveStrict (position : List Points) : List Points → Option (List Points)
  | [] => some position
  | part :: rest =>
    if part = dotdot then resolveStrict position.dropLast rest
    else
      match host.lstat (position ++ [part]) with
      | none => none
      | some .link => (host.follow (position ++ [part])).bind (resolveStrict · rest)
      | some _ => resolveStrict (position ++ [part]) rest

/-- Where a path leads without meeting a link. -/
def reached (position : List Points) : List Points → Option (List Points)
  | [] => some position
  | part :: rest =>
    match host.lookup position part with
    | none => none
    | some next => if (host.lstat next).any Node.isLink then none else reached next rest

/-- No part of the path leads up from what is not a directory. -/
def Straight (position : List Points) (path : List Points) : Prop :=
  ∀ before after reachedBefore, path = before ++ dotdot :: after →
    host.reached position before = some reachedBefore →
      (host.lstat reachedBefore).any Node.isDirectory

variable {host}

theorem any_isDirectory_iff {names : List Points} :
    (host.lstat names).any Node.isDirectory = true ↔
      ∃ entries, host.lstat names = some (.directory entries) := by
  rcases host.lstat names with _ | ⟨content, links⟩ | entries | _ | _ <;> simp [Node.isDirectory]

theorem lookup_eq_some_iff {position next : List Points} {part : Points} :
    host.lookup position part = some next ↔
      (∃ entries, host.lstat position = some (.directory entries)) ∧
        next = FilePath.descend position part ∧ (host.lstat next).isSome := by
  unfold lookup
  split
  next entries found =>
    simp only [Option.ite_none_right_eq_some, Option.some.injEq, found, Node.directory.injEq,
      exists_eq', true_and]
    constructor
    · rintro ⟨there, rfl⟩
      exact ⟨rfl, there⟩
    · rintro ⟨rfl, there⟩
      exact ⟨there, rfl⟩
  next other =>
    refine iff_of_false nofun ?_
    rintro ⟨⟨entries, found⟩, _⟩
    exact other entries found

/-- Above a node there are only directories. -/
theorem lstat_dropLast {names : List Points} {entries : List DirectoryEntry}
    (found : host.lstat names = some (.directory entries)) :
    ∃ upper, host.lstat names.dropLast = some (.directory upper) := by
  rcases List.eq_nil_or_concat' names with rfl | ⟨front, name, rfl⟩
  · exact ⟨host.root, Node.nodeAt_nil _⟩
  · rw [List.dropLast_concat]
    exact Node.directory_of_concat found

private theorem Straight.next {position : List Points} {part : Points} {rest next : List (List CodePoint)}
    (straight : host.Straight position (part :: rest))
    (step : ∀ path, host.reached position (part :: path) = host.reached next path) :
    host.Straight next rest := by
  rintro before after position' rfl way
  exact straight (part :: before) after position' rfl ((step before).trans way)

/-- A path that leads up from directories only passes the link check and resolves exactly where it
leads without meeting a link. -/
theorem reached_iff {position path found : List Points} (straight : host.Straight position path) :
    host.pathHasLink position path = false ∧ host.resolveStrict position path = some found ↔
      host.reached position path = some found := by
  induction path generalizing position with
  | nil => simp [pathHasLink, resolveStrict, reached]
  | cons part rest ih =>
    by_cases up : part = dotdot
    · subst up
      obtain ⟨entries, here⟩ := any_isDirectory_iff.1 (straight [] rest position rfl rfl)
      obtain ⟨upper, above⟩ := lstat_dropLast here
      have next : host.lookup position dotdot = some position.dropLast := by
        rw [lookup_eq_some_iff, above]
        exact ⟨⟨entries, here⟩, by rw [FilePath.descend, if_pos rfl], rfl⟩
      have step (path : List Points) :
          host.reached position (dotdot :: path) = host.reached position.dropLast path := by
        simp only [reached, next, above, Option.any_some, Node.isLink, Bool.false_eq_true, if_false]
      rw [step, ← ih (straight.next step)]
      simp only [pathHasLink, next, above, Option.any_some, Node.isLink, Bool.false_eq_true,
        if_false, resolveStrict, if_true]
    · have onward : FilePath.descend position part = position ++ [part] := if_neg up
      rcases there : host.lstat (position ++ [part]) with _ | node
      · -- nothing stands there, and the link check stops before it resolves
        have next : host.lookup position part = none := by
          refine Option.eq_none_iff_forall_ne_some.2 fun next some => ?_
          obtain ⟨-, rfl, there'⟩ := lookup_eq_some_iff.1 some
          rw [onward, there] at there'
          cases there'
        simp only [pathHasLink, next, resolveStrict, if_neg up, there, reached, and_false,
          reduceCtorEq]
      · have next : host.lookup position part = some (position ++ [part]) :=
          lookup_eq_some_iff.2
            ⟨Node.directory_of_concat there, onward.symm, Option.isSome_iff_exists.2 ⟨node, there⟩⟩
        by_cases link : node.isLink = true
        · simp only [pathHasLink, next, there, Option.any_some, link, if_true, reached,
            Bool.true_eq_false, false_and, reduceCtorEq]
        · have step (path : List Points) :
              host.reached position (part :: path) = host.reached (position ++ [part]) path := by
            simp only [reached, next, there, Option.any_some, link, Bool.false_eq_true, if_false]
          have resolved : host.resolveStrict position (part :: rest) =
              host.resolveStrict (position ++ [part]) rest := by
            simp only [resolveStrict, if_neg up, there]
            cases node with
            | link => exact absurd rfl link
            | _ => rfl
          rw [step, ← ih (straight.next step), resolved]
          simp only [pathHasLink, next, there, Option.any_some, link, Bool.false_eq_true, if_false]

theorem lstat_append (front rest : List Points) :
    host.lstat (front ++ rest) = (host.lstat front).bind (·.nodeAt rest) :=
  Node.nodeAt_append _ _ _

/-- Names that lead to a node meet no link before it. -/
theorem reached_lstat {front rest : List Points} {node : Node} (forward : dotdot ∉ rest)
    (found : host.lstat (front ++ rest) = some node) (plain : node.isLink = false) :
    host.reached front rest = some (front ++ rest) := by
  induction rest generalizing front with
  | nil => rw [reached, List.append_nil]
  | cons name rest ih =>
    rw [List.mem_cons, not_or] at forward
    rw [List.append_cons] at found ⊢
    have passed := found
    rw [lstat_append, Option.bind_eq_some_iff] at passed
    obtain ⟨middle, there, below⟩ := passed
    have next : host.lookup front name = some (front ++ [name]) := by
      rw [lookup_eq_some_iff, FilePath.descend, if_neg (Ne.symm forward.1)]
      exact ⟨Node.directory_of_concat there, rfl, Option.isSome_iff_exists.2 ⟨middle, there⟩⟩
    have through : middle.isLink = false := by
      cases rest with
      | nil =>
        rw [Node.nodeAt_nil, Option.some.injEq] at below
        exact below ▸ plain
      | cons _ _ =>
        obtain ⟨_, _, rfl, _⟩ := Node.nodeAt_cons_eq_some_iff.1 below
        rfl
    simp only [reached, next, there, Option.any_some, through, Bool.false_eq_true, if_false]
    exact ih forward.2 found

/-- The names on the way to a node are proper, and have no surrogate pairs. -/
theorem entryName_of_lstat {names : List Points} {node : Node} {name : Points}
    (found : host.lstat names = some node) (member : name ∈ names) :
    IsName name ∧ ∀ c ∈ name, c.high = false := by
  obtain ⟨entry, rfl⟩ := Node.entryName_of_nodeAt found member
  exact ⟨entry.proper, entry.decoded⟩

theorem straight_of_forward {position path : List Points} (forward : dotdot ∉ path) :
    host.Straight position path := by
  rintro before after _ rfl _
  exact absurd (List.mem_append_right before List.mem_cons_self) forward

/-- Names that lead to a node pass the link check and resolve to themselves. -/
theorem clear_of_lstat {names : List Points} {node : Node} (found : host.lstat names = some node)
    (plain : node.isLink = false) :
    host.pathHasLink [] names = false ∧ host.resolveStrict [] names = some names := by
  have forward : dotdot ∉ names := fun up => (entryName_of_lstat found up).1.notUp rfl
  exact (reached_iff (straight_of_forward forward)).2 (@reached_lstat host [] names node forward found plain)

end Host

end DefiantHarness
