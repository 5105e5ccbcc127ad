import DefiantHarness.DependencyInventory
import DefiantHarness.Foundation.Related
import DefiantHarness.PublicationSeals

/-! A verification answers closed exactly where the host holds what the operator pinned and nothing
else, and the bundle hash tells accepted bundles apart. -/
namespace DefiantHarness

open Foundation Points

namespace RuntimeArtifacts

open TrustState (isHash record textData)

/-- What `verify_runtime_artifacts` is called with, and the host that it looks at. -/
structure Verification where
  host : Host
  which : Points → Option Points
  stateRoot : FilePath
  command : List Points
  pins : List RuntimeArtifactPin
  cwd : Option Points
  roots : List RuntimeDependencyRoot

/-- The whole tree of a directory is what a manifest lists: directories and files with one link, the
files under the listed paths and with the listed digests. -/
structure Matches (sha : Sha256) (files : List RuntimeDependencyFilePin)
    (entries : List DirectoryEntry) : Prop where
  plain : ∀ names node, (Node.directory entries).nodeAt names = some node → Plain node
  inventory : ∀ p, (∃ names content links,
    (Node.directory entries).nodeAt names = some (.file content links) ∧ p = path names) ↔
      p ∈ files.map (·.path)
  digests : ∀ pin ∈ files, ∀ content links,
    (Node.directory entries).nodeAt (parts pin.path) = some (.file content links) →
      sha.fileHash content = pin.sha256

namespace Verification

variable (v : Verification) (sha : Sha256)

def run : Except Fault RuntimeArtifactAssurance :=
  verifyRuntimeArtifacts sha v.host v.stateRoot v.which v.command v.pins v.cwd v.roots

/-- Where a configured path leads without meeting a link. -/
def Reaches (text : Points) (found : List Points) : Prop :=
  v.host.reached [] (v.host.absoluteParts text) = some found

instance (text : Points) (found : List Points) : Decidable (v.Reaches text found) :=
  inferInstanceAs (Decidable (_ = _))

/-- No configured path leads up from what is not a directory. -/
structure Straight : Prop where
  pins : ∀ pin ∈ v.pins, v.host.Straight [] (v.host.absoluteParts pin.path)
  roots : ∀ root ∈ v.roots, v.host.Straight [] (v.host.absoluteParts root.path)

/-- The tree of every root is below the ceilings. -/
def Within : Prop :=
  ∀ root ∈ v.roots, ∀ found entries, v.Reaches root.path found →
    v.host.lstat found = some (.directory entries) → Bounded ((Node.directory entries).descendants [])

/-- A pinned file, reached without links, outside of mutable state, and with the pinned digest. -/
structure Pinned (pin : RuntimeArtifactPin) (a : VerifiedArtifact) : Prop where
  role : a.role = pin.role
  reached : v.Reaches pin.path a.resolved
  file : ∃ links, v.host.lstat a.resolved = some (.file a.content links)
  apart : ¬ v.stateRoot.names <+: a.resolved
  digest : sha.fileHash a.content = pin.sha256

/-- A dependency root, reached without links and apart from mutable state, whose tree is what its
manifest lists. -/
structure Rooted (root : RuntimeDependencyRoot) (found : List Points) : Prop where
  reached : v.Reaches root.path found
  apart : ¬ v.stateRoot.names <+: found ∧ ¬ found <+: v.stateRoot.names
  tree : ∃ entries, v.host.lstat found = some (.directory entries) ∧ Matches sha root.files entries

/-- The bundle is closed. -/
structure Closed : Prop where
  artifacts : ∀ pin ∈ v.pins, ∃ a, v.Pinned sha pin a
  roots : ∀ root ∈ v.roots, ∃ found, v.Rooted sha root found
  disjoint : v.roots.Pairwise fun a b => ∀ left right, v.Reaches a.path left → v.Reaches b.path right →
    ¬ left <+: right ∧ ¬ right <+: left

/-- What a bundle has to have apart from being closed: pins and roots, one pin for a role and one for
a file, and a pinned executable that the command stands for. -/
structure Configured : Prop where
  pins : v.pins ≠ []
  roots : v.roots ≠ []
  roles : (v.pins.map (·.role)).Nodup
  files : v.pins.Pairwise fun a b => ∀ found, ¬ (v.Reaches a.path found ∧ v.Reaches b.path found)
  executable : ∃ pin ∈ v.pins, pin.role = executableRole ∧ ∃ program ∈ v.command.head?,
    ∃ found, v.Reaches pin.path found ∧
      resolveCommandExecutable v.host v.which program v.cwd = .ok found

/-- The pinned files by role and resolved path. -/
def artifacts : Set VerifiedArtifact :=
  {a | ∃ pin ∈ v.pins, a.role = pin.role ∧ v.Reaches pin.path a.resolved ∧
    ∃ links, v.host.lstat a.resolved = some (.file a.content links)}

/-- The files below the dependency roots by relative path. -/
def dependencies : Set VerifiedDependency :=
  {d | ∃ root ∈ v.roots, v.Reaches root.path d.root ∧ ∃ names links, d.relative = path names ∧
    v.host.lstat (d.root ++ names) = some (.file d.content links)}

end Verification

/-! ### Pinned files -/

section Pins

variable {v : Verification} {sha : Sha256}

theorem isWithin_iff {names root : List Points} : isWithin names root = true ↔ root <+: names :=
  List.isPrefixOf_iff_prefix

theorem isWithin_eq_false_iff {names root : List Points} : isWithin names root = false ↔ ¬ root <+: names := by
  rw [← isWithin_iff, Bool.not_eq_true]

private theorem resolve_iff {source : List Points} {α : Type} {f : List Points → Except Fault α}
    {linked missing : Fault} {result : α} (straight : v.host.Straight [] source) :
    (refuseIf (v.host.pathHasLink [] source = true) linked >>= fun _ =>
      orRefuse (v.host.resolveStrict [] source) missing >>= f) = .ok result ↔
        ∃ found, v.host.reached [] source = some found ∧ f found = .ok result := by
  simp only [refuseIf_bind_ok_iff, orRefuse_bind_ok_iff, Bool.not_eq_true, ← Host.reached_iff straight]
  constructor
  · rintro ⟨clear, found, resolved, rest⟩
    exact ⟨found, ⟨clear, resolved⟩, rest⟩
  · rintro ⟨found, ⟨clear, resolved⟩, rest⟩
    exact ⟨clear, found, resolved, rest⟩

private theorem verifyPin_ok_iff {pin : RuntimeArtifactPin} {passed out : List VerifiedArtifact}
    (straight : v.host.Straight [] (v.host.absoluteParts pin.path)) :
    verifyPin sha v.host v.stateRoot passed pin = .ok out ↔
      ∃ a, v.Pinned sha pin a ∧ a.resolved ∉ passed.map (·.resolved) ∧ out = passed ++ [a] := by
  rw [verifyPin, resolve_iff straight]
  constructor
  · rintro ⟨found, reached, rest⟩
    split at rest
    next content links there =>
      simp only [refuseIf_bind_ok_iff, pure_ok_iff, isWithin_iff, not_not] at rest
      obtain ⟨fresh, apart, digest, rfl⟩ := rest
      exact ⟨⟨pin.role, found, content⟩, ⟨rfl, reached, ⟨links, there⟩, apart, digest⟩, fresh, rfl⟩
    · cases rest
  · rintro ⟨⟨role, found, content⟩, ⟨rfl, reached, ⟨links, there⟩, apart, digest⟩, fresh, rfl⟩
    refine ⟨found, reached, ?_⟩
    simp only [there, refuseIf_bind_ok_iff, pure_ok_iff, isWithin_iff, not_not]
    exact ⟨fresh, apart, digest, trivial⟩

/-- The loop over the pins. -/
private theorem verifyPins_ok_iff {pins : List RuntimeArtifactPin} {passed out : List VerifiedArtifact}
    (straight : ∀ pin ∈ pins, v.host.Straight [] (v.host.absoluteParts pin.path))
    (distinct : (passed.map (·.resolved)).Nodup) :
    pins.foldlM (verifyPin sha v.host v.stateRoot) passed = .ok out ↔
      ∃ artifacts, out = passed ++ artifacts ∧ List.Forall₂ (v.Pinned sha) pins artifacts ∧
        (out.map (·.resolved)).Nodup := by
  -- the files of the earlier pins are the accumulator, so the induction keeps them general
  induction pins generalizing passed with
  | nil =>
    rw [List.foldlM_nil, pure_ok_iff]
    constructor
    · rintro rfl
      exact ⟨[], (List.append_nil _).symm, .nil, distinct⟩
    · rintro ⟨artifacts, rfl, none, -⟩
      rw [List.forall₂_nil_left_iff.1 none, List.append_nil]
  | cons pin pins ih =>
    rw [List.forall_mem_cons] at straight
    simp only [List.foldlM_cons, bind_ok_iff, verifyPin_ok_iff straight.1]
    constructor
    · rintro ⟨_, ⟨a, pinned, fresh, rfl⟩, rest⟩
      have distinct' : ((passed ++ [a]).map (·.resolved)).Nodup := by
        rw [List.map_append, List.nodup_append_comm]
        exact List.nodup_cons.2 ⟨fresh, distinct⟩
      obtain ⟨artifacts, rfl, each, nodup⟩ := (ih straight.2 distinct').1 rest
      exact ⟨a :: artifacts, by rw [List.append_assoc]; rfl, .cons pinned each, nodup⟩
    · rintro ⟨_, rfl, each, nodup⟩
      obtain ⟨a, artifacts, pinned, others, rfl⟩ := List.forall₂_cons_left_iff.1 each
      have distinct' : ((passed ++ [a]).map (·.resolved)).Nodup := by
        rw [List.append_cons, List.map_append] at nodup
        exact nodup.of_append_left
      refine ⟨_, ⟨a, pinned, ?_, rfl⟩, (ih straight.2 distinct').2 ⟨artifacts, ?_, others, nodup⟩⟩
      swap
      · exact List.append_cons passed a artifacts
      rw [List.map_append, List.nodup_append_comm] at distinct'
      exact (List.nodup_cons.1 distinct').1

end Pins

/-! ### The files of a root -/

section Roots

variable {v : Verification} {sha : Sha256} {found : List Points} {entries : List DirectoryEntry}

private theorem mem_fileTexts_iff (there : v.host.lstat found = some (.directory entries)) {p : Points} :
    p ∈ fileTexts ((Node.directory entries).descendants []) ↔
      ∃ names content links,
        (Node.directory entries).nodeAt names = some (.file content links) ∧ p = path names := by
  have distinct := Node.Distinct.nodeAt v.host.distinct there
  simp only [fileTexts, List.mem_map, List.mem_filter]
  constructor
  · rintro ⟨⟨names, node⟩, ⟨member, file⟩, rfl⟩
    obtain ⟨names, -, rfl, below⟩ := (Node.mem_descendants_iff distinct).1 member
    cases node with
    | file content links => exact ⟨names, content, links, below, rfl⟩
    | _ => cases file
  · rintro ⟨names, content, links, below, rfl⟩
    have some : names ≠ [] := by
      rintro rfl
      rw [Node.nodeAt_nil] at below
      cases below
    exact ⟨(names, .file content links),
      ⟨(Node.mem_descendants_iff distinct).2 ⟨names, some, rfl, below⟩, rfl⟩, rfl⟩

private theorem plain_iff (there : v.host.lstat found = some (.directory entries)) :
    (∀ e ∈ (Node.directory entries).descendants [], Plain e.2) ↔
      ∀ names node, (Node.directory entries).nodeAt names = some node → Plain node := by
  have distinct := Node.Distinct.nodeAt v.host.distinct there
  constructor
  · intro each names node below
    by_cases here : names = []
    · subst here
      rw [Node.nodeAt_nil, Option.some.injEq] at below
      subst below
      trivial
    · exact each (names, node) ((Node.mem_descendants_iff distinct).2 ⟨names, here, rfl, below⟩)
  · rintro each ⟨names, node⟩ member
    obtain ⟨names, -, rfl, below⟩ := (Node.mem_descendants_iff distinct).1 member
    exact each names node below

/-- The paths of files below a directory are read as the names that they are written from. -/
theorem parts_of_nodeAt (there : v.host.lstat found = some (.directory entries)) {names : List Points}
    {node : Node} (below : (Node.directory entries).nodeAt names = some node) :
    parts (path names) = names := by
  refine parts_path fun name member => ?_
  have way : v.host.lstat (found ++ names) = some node := by
    rw [Host.lstat_append, there]
    exact below
  exact (Host.entryName_of_lstat way (List.mem_append_right found member)).1

/-- A pinned file below a root. -/
structure Held (v : Verification) (found : List Points) (pin : RuntimeDependencyFilePin)
    (d : VerifiedDependency) : Prop where
  root : d.root = found
  relative : d.relative = pin.path
  file : ∃ links, v.host.lstat (found ++ parts pin.path) = some (.file d.content links)

private theorem verifyDependencyFile_ok_iff {pin : RuntimeDependencyFilePin} {d : VerifiedDependency} :
    verifyDependencyFile sha v.host found pin = .ok d ↔
      d.root = found ∧ d.relative = pin.path ∧
        v.host.lstat (found ++ parts pin.path) = some (.file d.content 1) ∧
          sha.fileHash d.content = pin.sha256 := by
  simp only [verifyDependencyFile, refuseIf_bind_ok_iff, orRefuse_bind_ok_iff, Bool.not_eq_true]
  constructor
  · rintro ⟨-, _, -, -, rest⟩
    split at rest
    · cases rest
    next content there =>
      simp only [refuseIf_bind_ok_iff, pure_ok_iff, not_not] at rest
      obtain ⟨digest, rfl⟩ := rest
      exact ⟨rfl, rfl, there, digest⟩
    · cases rest
  · obtain ⟨root, relative, content⟩ := d
    rintro ⟨rfl, rfl, there, digest⟩
    obtain ⟨clear, resolved⟩ := Host.clear_of_lstat there rfl
    refine ⟨clear, _, resolved, ?_, ?_⟩
    · rw [Bool.not_eq_false, isWithin_iff]
      exact List.prefix_append _ _
    · simp only [there, refuseIf_bind_ok_iff, pure_ok_iff, not_not]
      exact ⟨digest, trivial⟩

private theorem counts_eq_zero_iff {observed expected : List Points} :
    ¬ ((observed.filter (· ∉ expected)).length ≠ 0 ∨ (expected.filter (· ∉ observed)).length ≠ 0) ↔
      ∀ p, p ∈ observed ↔ p ∈ expected := by
  simp only [not_or, not_not, List.length_eq_zero_iff, List.filter_eq_nil_iff, decide_eq_true_eq]
  exact ⟨fun ⟨left, right⟩ p => ⟨left p, right p⟩, fun same => ⟨fun p => (same p).1, fun p => (same p).2⟩⟩

/-- A root passes exactly when its tree is what its manifest lists. -/
private theorem verifyDependencyRoot_ok_iff {root : RuntimeDependencyRoot}
    {dependencies : List VerifiedDependency} (there : v.host.lstat found = some (.directory entries))
    (within : Bounded ((Node.directory entries).descendants [])) :
    verifyDependencyRoot sha v.host (found, root) = .ok dependencies ↔
      Matches sha root.files entries ∧
        List.Forall₂ (Held v found) (root.files.insertionSort fun f g => f.path ≤ g.path)
          dependencies := by
  simp only [verifyDependencyRoot, bind_ok_iff, refuseIf_ok_iff, counts_eq_zero_iff, mapM_ok_iff,
    verifyDependencyFile_ok_iff]
  constructor
  · rintro ⟨observed, finished, _, same, each⟩
    -- the scan finished, so it saw every file under the root, and the texts it saw are the pinned ones
    obtain ⟨plain, perm⟩ := inventory_ok there finished
    refine ⟨⟨(plain_iff there).1 plain, fun p => ?_, ?_⟩, ?_⟩
    · rw [← same p, perm.mem_iff, mem_fileTexts_iff there]
    · intro pin member content links below
      obtain ⟨d, -, -, -, file, digest⟩ :=
        related_of_mem each ((List.mem_insertionSort fun f g => f.path ≤ g.path).2 member)
      rw [Host.lstat_append, there, Option.bind_some, below, Option.some.injEq, Node.file.injEq] at file
      rw [file.1, digest]
    · exact each.imp fun pin d ⟨root, relative, file, _⟩ => ⟨root, relative, 1, file⟩
  · rintro ⟨matching, each⟩
    -- conversely nothing the scan refuses lies under the root, so it finishes
    obtain ⟨observed, finished⟩ := inventory_total there within ((plain_iff there).2 matching.plain)
    obtain ⟨-, perm⟩ := inventory_ok there finished
    refine ⟨observed, finished, (), fun p => ?_, ?_⟩
    · rw [perm.mem_iff, mem_fileTexts_iff there, matching.inventory p]
    · have listed : ∀ pin ∈ root.files.insertionSort fun f g => f.path ≤ g.path, pin ∈ root.files :=
        fun pin member => (List.mem_insertionSort fun f g => f.path ≤ g.path).1 member
      refine ((List.forall₂_and_left _ _).2 ⟨listed, each⟩).imp fun pin d ⟨member, held⟩ => ?_
      obtain ⟨links, file⟩ := held.file
      have below : (Node.directory entries).nodeAt (parts pin.path) = some (.file d.content links) := by
        rw [Host.lstat_append, there] at file
        exact file
      obtain rfl : links = 1 := matching.plain _ _ below
      exact ⟨held.root, held.relative, file, matching.digests pin member _ _ below⟩

private theorem resolveRoot_ok_iff {root : RuntimeDependencyRoot}
    (straight : v.host.Straight [] (v.host.absoluteParts root.path)) :
    resolveRoot v.host v.stateRoot root = .ok found ↔ v.Reaches root.path found ∧
      (∃ entries, v.host.lstat found = some (.directory entries)) ∧
        ¬ v.stateRoot.names <+: found ∧ ¬ found <+: v.stateRoot.names := by
  rw [resolveRoot, resolve_iff straight]
  simp only [refuseIf_bind_ok_iff, pure_ok_iff, isWithin_iff, not_or, Bool.not_eq_false,
    Host.any_isDirectory_iff]
  constructor
  · rintro ⟨_, reached, directory, apart, rfl⟩
    exact ⟨reached, directory, apart⟩
  · rintro ⟨reached, directory, apart⟩
    exact ⟨found, reached, directory, apart, rfl⟩

theorem mem_zip_sorted_iff {canonical : List (List Points)} {roots : List RuntimeDependencyRoot}
    {item : List Points × RuntimeDependencyRoot} :
    item ∈ (canonical.zip roots).insertionSort (fun a b => pathText a.1 ≤ pathText b.1) ↔
      item ∈ canonical.zip roots :=
  List.mem_insertionSort fun a b : List Points × RuntimeDependencyRoot => pathText a.1 ≤ pathText b.1

/-- The roots pass exactly when each is a root that its manifest lists and none overlaps another. -/
theorem verifyDependencyRoots_ok_iff {dependencies : List VerifiedDependency}
    (straight : ∀ root ∈ v.roots, v.host.Straight [] (v.host.absoluteParts root.path))
    (within : v.Within) :
    verifyDependencyRoots sha v.host v.stateRoot v.roots = .ok dependencies ↔
      ∃ canonical, List.Forall₂ (v.Rooted sha) v.roots canonical ∧ canonical.Nodup ∧
        canonical.Pairwise (fun left right => ¬ right <+: left ∧ ¬ left <+: right) ∧
          ∃ lists, List.Forall₂ (fun item held => List.Forall₂ (Held v item.1)
              (item.2.files.insertionSort fun f g => f.path ≤ g.path) held)
            ((canonical.zip v.roots).insertionSort fun a b => pathText a.1 ≤ pathText b.1) lists ∧
              dependencies = lists.flatten := by
  simp only [verifyDependencyRoots, bind_ok_iff, refuseIf_ok_iff, pure_ok_iff, mapM_ok_iff, not_not,
    isWithin_eq_false_iff]
  apply exists_congr
  intro canonical
  -- the roots are checked in the order of their texts, but each check is about its own root only
  have root_iff (resolved : List.Forall₂
      (fun root found => resolveRoot v.host v.stateRoot root = .ok found) v.roots canonical) :
      ∀ item ∈ canonical.zip v.roots, ∃ entries, v.Reaches item.2.path item.1 ∧
        v.host.lstat item.1 = some (.directory entries) ∧
          (¬ v.stateRoot.names <+: item.1 ∧ ¬ item.1 <+: v.stateRoot.names) ∧
            ∀ held, verifyDependencyRoot sha v.host item = .ok held ↔
              Matches sha item.2.files entries ∧ List.Forall₂ (Held v item.1)
                (item.2.files.insertionSort fun f g => f.path ≤ g.path) held := by
    rintro ⟨found, root⟩ member
    have listed : root ∈ v.roots := (List.of_mem_zip member).2
    obtain ⟨reached, ⟨entries, there⟩, apart⟩ :=
      (resolveRoot_ok_iff (straight root listed)).1 (List.forall₂_zip resolved.flip member)
    exact ⟨entries, reached, there, apart, fun held =>
      verifyDependencyRoot_ok_iff there (within root listed found entries reached there)⟩
  constructor
  · rintro ⟨resolved, _, nodup, _, disjoint, lists, each, rfl⟩
    refine ⟨?_, nodup, disjoint, lists, ?_, rfl⟩
    · refine List.forall₂_iff_zip.2 ⟨resolved.length_eq, fun {root found} member => ?_⟩
      have swapped : (found, root) ∈ canonical.zip v.roots := by
        rw [← List.zip_swap, List.mem_map]
        exact ⟨(root, found), member, rfl⟩
      obtain ⟨held, -, passed⟩ := related_of_mem each (mem_zip_sorted_iff.2 swapped)
      obtain ⟨entries, reached, there, apart, passes⟩ := root_iff resolved _ swapped
      exact ⟨reached, apart, entries, there, ((passes held).1 passed).1⟩
    · have listed := fun item => (@mem_zip_sorted_iff canonical v.roots item).1
      refine ((List.forall₂_and_left _ _).2 ⟨listed, each⟩).imp fun item held ⟨member, passed⟩ => ?_
      obtain ⟨entries, -, -, -, passes⟩ := root_iff resolved item member
      exact ((passes held).1 passed).2
  · rintro ⟨rooted, nodup, disjoint, lists, each, rfl⟩
    have resolved : List.Forall₂ (fun root found => resolveRoot v.host v.stateRoot root = .ok found)
        v.roots canonical := by
      refine ((List.forall₂_and_left (p := (· ∈ v.roots)) _ _).2 ⟨fun _ => id, rooted⟩).imp
        fun root found ⟨member, own⟩ => ?_
      obtain ⟨entries, there, -⟩ := own.tree
      exact (resolveRoot_ok_iff (straight root member)).2 ⟨own.reached, ⟨entries, there⟩, own.apart⟩
    refine ⟨resolved, (), nodup, (), disjoint, lists, ?_, rfl⟩
    have listed := fun item => (@mem_zip_sorted_iff canonical v.roots item).1
    refine ((List.forall₂_and_left _ _).2 ⟨listed, each⟩).imp fun item held ⟨member, files⟩ => ?_
    obtain ⟨entries, -, there, -, passes⟩ := root_iff resolved item member
    obtain ⟨entries', there', matching⟩ := (List.forall₂_zip rooted.flip member).tree
    obtain rfl := Node.directory.inj (Option.some.inj (there.symm.trans there'))
    exact (passes held).2 ⟨matching, files⟩

end Roots

/-! ### The whole bundle -/

section Bundle

variable {v : Verification} {sha : Sha256} {artifacts : List VerifiedArtifact}
  {dependencies : List VerifiedDependency}

/-- What an accepted bundle has been checked for. -/
structure Accepted (v : Verification) (sha : Sha256) (artifacts : List VerifiedArtifact)
    (dependencies : List VerifiedDependency) : Prop where
  pins : v.pins ≠ []
  roots : v.roots ≠ []
  roles : (v.pins.map (·.role)).Nodup
  pinned : List.Forall₂ (v.Pinned sha) v.pins artifacts
  files : (artifacts.map (·.resolved)).Nodup
  executable : ∃ executable ∈ artifacts, executable.role = executableRole ∧
    ∃ program ∈ v.command.head?,
      resolveCommandExecutable v.host v.which program v.cwd = .ok executable.resolved
  dependencies : verifyDependencyRoots sha v.host v.stateRoot v.roots = .ok dependencies

theorem roles_eq (pinned : List.Forall₂ (v.Pinned sha) v.pins artifacts) :
    artifacts.map (·.role) = v.pins.map (·.role) := by
  rw [← List.forall₂_eq_eq_eq, List.forall₂_map_left_iff, List.forall₂_map_right_iff]
  exact (pinned.imp fun pin a own => own.role).flip

/-- Only one artifact has the role of the executable. -/
private theorem find_executable (roles : (artifacts.map (·.role)).Nodup) {a : VerifiedArtifact} :
    artifacts.find? (·.role == executableRole) = some a ↔ a ∈ artifacts ∧ a.role = executableRole := by
  constructor
  · intro found
    have same := List.find?_some found
    exact ⟨List.mem_of_find?_eq_some found, beq_iff_eq.1 same⟩
  · rintro ⟨member, role⟩
    have some : (artifacts.find? (·.role == executableRole)).isSome :=
      List.find?_isSome.2 ⟨a, member, beq_iff_eq.2 role⟩
    obtain ⟨b, found⟩ := Option.isSome_iff_exists.1 some
    have same := List.find?_some found
    rw [found, List.inj_on_of_nodup_map roles (List.mem_of_find?_eq_some found) member
      ((beq_iff_eq.1 same).trans role.symm)]

private theorem of_isHash (x : Data) : isHash (sha.of x) = true := sha.text_formed x.canonical

/-- A root has files, so that roots give observations. -/
theorem dependencies_some (straight : v.Straight) (within : v.Within)
    (accepted : Accepted v sha artifacts dependencies) : dependencies ≠ [] := by
  obtain ⟨canonical, rooted, -, -, lists, each, rfl⟩ :=
    (verifyDependencyRoots_ok_iff straight.roots within).1 accepted.dependencies
  intro empty
  rw [List.flatten_eq_nil_iff] at empty
  obtain ⟨root, rest, roots⟩ := List.exists_cons_of_ne_nil accepted.roots
  rw [roots] at rooted
  obtain ⟨found, found', own, others, rfl⟩ := List.forall₂_cons_left_iff.1 rooted
  have member : (found, root) ∈ (found :: found').zip v.roots := by
    rw [roots, List.zip_cons_cons]
    exact List.mem_cons_self
  obtain ⟨held, listed, files⟩ := related_of_mem each (mem_zip_sorted_iff.2 member)
  rw [empty held listed, List.forall₂_nil_right_iff] at files
  have same := List.length_insertionSort (fun f g : RuntimeDependencyFilePin => f.path ≤ g.path) root.files
  rw [files] at same
  exact root.some (List.length_eq_zero_iff.1 same.symm)

private theorem checked_ok {a b : RuntimeArtifactAssurance} (checked : a.checked = .ok b) : b = a := by
  simp only [RuntimeArtifactAssurance.checked, refuseIf_bind_ok_iff, pure_ok_iff] at checked
  exact checked.2.2.2.2

private theorem checked_closed {digest : Points} {count rootCount fileCount : Nat} {command : List Points}
    (formed : isHash digest = true) (counted : 0 < count) (rooted : 0 < rootCount)
    (filed : 0 < fileCount) :
    RuntimeArtifactAssurance.checked ⟨.closed, some digest, count, true, command, rootCount, fileCount⟩ =
      .ok ⟨.closed, some digest, count, true, command, rootCount, fileCount⟩ := by
  simp only [RuntimeArtifactAssurance.checked, refuseIf_bind_ok_iff, pure_ok_iff]
  simp [formed]
  omega

theorem run_of_accepted (straight : v.Straight) (within : v.Within)
    (accepted : Accepted v sha artifacts dependencies) :
    ∃ a, v.run sha = .ok a ∧ a.mode = .closed := by
  have roles := roles_eq accepted.pinned
  have loop : v.pins.foldlM (verifyPin sha v.host v.stateRoot) [] = .ok artifacts :=
    (@verifyPins_ok_iff v sha v.pins [] artifacts straight.pins List.nodup_nil).2
      ⟨artifacts, rfl, accepted.pinned, accepted.files⟩
  obtain ⟨executable, member, role, program, first, resolved⟩ := accepted.executable
  have found := (find_executable (roles ▸ accepted.roles)).2 ⟨member, role⟩
  have named : ¬ ∀ pin ∈ v.pins, pin.role ≠ executableRole := by
    obtain ⟨pin, listed, own⟩ := related_from_mem accepted.pinned member
    exact fun none => none pin listed (own.role.symm.trans role)
  have counted : 0 < artifacts.length := List.length_pos_of_mem member
  have filed : 0 < dependencies.length :=
    List.length_pos_iff.2 (dependencies_some straight within accepted)
  rw [Verification.run, verifyRuntimeArtifacts, refuseIf_of_not (fun both => accepted.pins both.1),
    ok_bind, if_neg accepted.pins, Option.mem_def.1 first]
  simp only [orRefuse, ok_bind, refuseIf_of_not (not_not_intro accepted.roles), refuseIf_of_not named,
    loop, found, resolved, ne_eq, accepted.dependencies, if_neg accepted.roots]
  refine ⟨_, checked_closed (of_isHash _) ?_ (List.length_pos_iff.2 accepted.roots) filed, rfl⟩
  omega

/-- What a verification that answers closed has checked, and the hash that it gives. -/
theorem accepted_of_run (straight : v.Straight) {a : RuntimeArtifactAssurance} (ran : v.run sha = .ok a)
    (closed : a.mode = .closed) : ∃ artifacts dependencies, Accepted v sha artifacts dependencies ∧
      a.bundleHash = some (sha.of (bundleObservations sha
        (artifacts.insertionSort fun a b => a.role ≤ b.role) dependencies)) := by
  rw [Verification.run, verifyRuntimeArtifacts, refuseIf_bind_ok_iff] at ran
  obtain ⟨-, ran⟩ := ran
  split at ran
  · rw [checked_ok ran] at closed
    cases closed
  next pins =>
    simp only [bind_ok_iff, orRefuse_ok_iff, refuseIf_ok_iff, not_not] at ran
    obtain ⟨program, first, _, roles, _, -, artifacts, loop, executable, found, _, resolved, _, same,
      dependencies, verified, checked⟩ := ran
    obtain rfl := checked_ok checked
    have roots : v.roots ≠ [] := by
      intro none
      rw [none] at closed
      cases closed
    obtain ⟨_, rfl, pinned, files⟩ :=
      (@verifyPins_ok_iff v sha v.pins [] artifacts straight.pins List.nodup_nil).1 loop
    obtain ⟨member, role⟩ := (find_executable (roles_eq pinned ▸ roles)).1 found
    exact ⟨_, dependencies, ⟨pins, roots, roles, pinned, files,
      ⟨executable, member, role, program, first, same ▸ resolved⟩, verified⟩, rfl⟩

theorem Verification.Reaches.unique {text : Points} {found other : List Points}
    (one : v.Reaches text found) (another : v.Reaches text other) : other = found :=
  Option.some.inj (another.symm.trans one)

theorem Accepted.closed (straight : v.Straight) (within : v.Within)
    (accepted : Accepted v sha artifacts dependencies) : v.Closed sha where
  artifacts pin member :=
    have ⟨a, _, own⟩ := related_of_mem accepted.pinned member
    ⟨a, own⟩
  roots root member :=
    have ⟨_, rooted, _⟩ := (verifyDependencyRoots_ok_iff straight.roots within).1 accepted.dependencies
    have ⟨found, _, own⟩ := related_of_mem rooted member
    ⟨found, own⟩
  disjoint := by
    obtain ⟨canonical, rooted, -, disjoint, -⟩ :=
      (verifyDependencyRoots_ok_iff straight.roots within).1 accepted.dependencies
    refine (pairwise_left (f := id) (S := fun root found => v.Reaches root.path found)
      (P := fun left right => ¬ right <+: left ∧ ¬ left <+: right)
      rooted (fun root found other own reached => ?_) disjoint).imp ?_
    · exact own.reached.unique reached
    · exact fun apart left right one another => (apart left right one another).symm

theorem Accepted.configured (accepted : Accepted v sha artifacts dependencies) : v.Configured where
  pins := accepted.pins
  roots := accepted.roots
  roles := accepted.roles
  files := by
    have apart := List.pairwise_map.1 accepted.files
    refine (pairwise_left (f := VerifiedArtifact.resolved)
      (S := fun pin found => v.Reaches pin.path found) accepted.pinned (fun pin a found own reached =>
        own.reached.unique reached) apart).imp ?_
    exact fun each found both => each found found both.1 both.2 rfl
  executable := by
    obtain ⟨executable, member, role, program, first, resolved⟩ := accepted.executable
    obtain ⟨pin, listed, own⟩ := related_from_mem accepted.pinned member
    exact ⟨pin, listed, own.role.symm.trans role, program, first, _, own.reached, resolved⟩

/-- A manifest that its tree agrees with names files that are there. -/
private theorem exists_held {root : RuntimeDependencyRoot} {found : List Points}
    (rooted : v.Rooted sha root found) {pin : RuntimeDependencyFilePin} (member : pin ∈ root.files) :
    ∃ d, Held v found pin d := by
  obtain ⟨entries, there, matching⟩ := rooted.tree
  obtain ⟨names, content, links, below, same⟩ :=
    (matching.inventory pin.path).2 (List.mem_map_of_mem member)
  refine ⟨⟨found, pin.path, content⟩, rfl, rfl, links, ?_⟩
  rw [same, parts_of_nodeAt there below, Host.lstat_append, there]
  exact below

theorem exists_accepted (straight : v.Straight) (within : v.Within) (closed : v.Closed sha)
    (configured : v.Configured) : ∃ artifacts dependencies, Accepted v sha artifacts dependencies := by
  obtain ⟨artifacts, pinned⟩ := exists_related closed.artifacts
  obtain ⟨canonical, rooted⟩ := exists_related closed.roots
  -- `Closed` says the roots' places are apart; the canonical parts are those places
  have disjoint : canonical.Pairwise fun left right => ¬ right <+: left ∧ ¬ left <+: right := by
    refine pairwise_right (f := id) (P := fun left right => ¬ right <+: left ∧ ¬ left <+: right)
      rooted (fun _ _ own => own.reached) (closed.disjoint.imp ?_)
    exact fun apart left right one another => (apart left right one another).symm
  have held : ∀ item ∈ (canonical.zip v.roots).insertionSort (fun a b => pathText a.1 ≤ pathText b.1),
      ∃ ds, List.Forall₂ (Held v item.1) (item.2.files.insertionSort fun f g => f.path ≤ g.path) ds := by
    intro item member
    have own := List.forall₂_zip rooted.flip (mem_zip_sorted_iff.1 member)
    exact exists_related fun pin listed =>
      exists_held own ((List.mem_insertionSort fun f g => f.path ≤ g.path).1 listed)
  obtain ⟨lists, each⟩ := exists_related held
  refine ⟨artifacts, lists.flatten, configured.pins, configured.roots, configured.roles, pinned, ?_, ?_, ?_⟩
  · rw [List.Nodup, List.pairwise_map]
    refine pairwise_right (f := VerifiedArtifact.resolved) pinned (fun _ _ own => own.reached)
      (configured.files.imp ?_)
    rintro a b apart x y left right rfl
    exact apart x ⟨left, right⟩
  · obtain ⟨pin, member, role, program, first, found, reached, resolved⟩ := configured.executable
    obtain ⟨a, listed, own⟩ := related_of_mem pinned member
    refine ⟨a, listed, own.role.trans role, program, first, ?_⟩
    rw [resolved, reached.unique own.reached]
  · refine (verifyDependencyRoots_ok_iff straight.roots within).2
      ⟨canonical, rooted, disjoint.imp ?_, disjoint, lists, each, rfl⟩
    rintro left _ apart rfl
    exact apart.1 (List.prefix_refl left)

/-- A verification answers closed exactly where the bundle is closed and configured as one. -/
theorem run_closed_iff (straight : v.Straight) (within : v.Within) :
    (∃ a, v.run sha = .ok a ∧ a.mode = .closed) ↔ v.Closed sha ∧ v.Configured := by
  constructor
  · rintro ⟨a, ran, closed⟩
    obtain ⟨artifacts, dependencies, accepted, -⟩ := accepted_of_run straight ran closed
    exact ⟨accepted.closed straight within, accepted.configured⟩
  · rintro ⟨closed, configured⟩
    obtain ⟨artifacts, dependencies, accepted⟩ := exists_accepted straight within closed configured
    exact run_of_accepted straight within accepted

end Bundle

end RuntimeArtifacts

end DefiantHarness
