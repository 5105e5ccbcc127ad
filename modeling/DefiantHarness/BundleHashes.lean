import DefiantHarness.ClosedBundles

/-! The hash of an accepted bundle is one exactly for the same roles, paths and contents. -/
namespace DefiantHarness

open Foundation Points

namespace RuntimeArtifacts

open TrustState (isHash record textData fieldAt_record)
open AuthorityPublication (Unpaired unpaired_str unpaired_int unpaired_hash unpaired_record
  same_of_unpaired contents_of_same)

/-! ### What an accepted bundle has observed -/

section Observed

variable {v : Verification} {sha : Sha256} {artifacts : List VerifiedArtifact}
  {dependencies : List VerifiedDependency}

theorem Accepted.mem_artifacts_iff (accepted : Accepted v sha artifacts dependencies)
    {a : VerifiedArtifact} : a ∈ artifacts ↔ a ∈ v.artifacts := by
  constructor
  · intro member
    obtain ⟨pin, listed, own⟩ := related_from_mem accepted.pinned member
    exact ⟨pin, listed, own.role, own.reached, own.file⟩
  · rintro ⟨pin, listed, role, reached, links, there⟩
    obtain ⟨b, member, own⟩ := related_of_mem accepted.pinned listed
    obtain ⟨links', there'⟩ := own.file
    have place : a.resolved = b.resolved := own.reached.unique reached
    rw [← place, there, Option.some.injEq, Node.file.injEq] at there'
    have same : a = b := by
      obtain ⟨_, _, _⟩ := a
      obtain ⟨_, _, _⟩ := b
      rw [VerifiedArtifact.mk.injEq]
      exact ⟨role.trans own.role.symm, place, there'.1⟩
    exact same ▸ member

/-- Every observed file of a root is named by its manifest, and its root is configured. -/
private theorem held_of_mem {lists : List (List VerifiedDependency)}
    {items : List (List Points × RuntimeDependencyRoot)}
    (each : List.Forall₂ (fun item held => List.Forall₂ (Held v item.1)
      (item.2.files.insertionSort fun f g => f.path ≤ g.path) held) items lists)
    {d : VerifiedDependency} (member : d ∈ lists.flatten) :
    ∃ item ∈ items, ∃ pin ∈ item.2.files, Held v item.1 pin d := by
  obtain ⟨held, listed, inside⟩ := List.mem_flatten.1 member
  obtain ⟨item, among, files⟩ := related_from_mem each listed
  obtain ⟨pin, named, own⟩ := related_from_mem files inside
  exact ⟨item, among, pin, (List.mem_insertionSort fun f g => f.path ≤ g.path).1 named, own⟩

theorem Accepted.mem_dependencies_iff (straight : v.Straight) (within : v.Within)
    (accepted : Accepted v sha artifacts dependencies) {d : VerifiedDependency} :
    d ∈ dependencies ↔ d ∈ v.dependencies := by
  obtain ⟨canonical, rooted, -, -, lists, each, rfl⟩ :=
    (verifyDependencyRoots_ok_iff straight.roots within).1 accepted.dependencies
  constructor
  · intro member
    obtain ⟨⟨found, root⟩, among, pin, named, held⟩ := held_of_mem each member
    have zipped := mem_zip_sorted_iff.1 among
    have own := List.forall₂_zip rooted.flip zipped
    obtain ⟨entries, there, matching⟩ := own.tree
    obtain ⟨names, content, links, below, same⟩ :=
      (matching.inventory pin.path).2 (List.mem_map_of_mem named)
    obtain ⟨links', file⟩ := held.file
    rw [same, parts_of_nodeAt there below, ← held.root] at file
    refine ⟨root, (List.of_mem_zip zipped).2, ?_, names, links', held.relative.trans same, file⟩
    rw [held.root]
    exact own.reached
  · rintro ⟨root, listed, reached, names, links, relative, there⟩
    -- the file is pinned under its root, and each pin is read as one dependency
    obtain ⟨found, zipped⟩ := zipped_of_mem rooted listed
    have own := List.forall₂_zip rooted.flip zipped
    obtain rfl := own.reached.unique reached
    obtain ⟨entries, found, matching⟩ := own.tree
    rw [Host.lstat_append, found, Option.bind_some] at there
    obtain ⟨pin, named, path⟩ :=
      List.mem_map.1 ((matching.inventory d.relative).1 ⟨names, d.content, links, there, relative⟩)
    obtain ⟨held, among, files⟩ := related_of_mem each (mem_zip_sorted_iff.2 zipped)
    obtain ⟨d', inside, other⟩ := related_of_mem files
      ((List.mem_insertionSort fun f g => f.path ≤ g.path).2 named)
    obtain ⟨links', file⟩ := other.file
    rw [path, relative, parts_of_nodeAt found there, Host.lstat_append, found, Option.bind_some, there,
      Option.some.injEq, Node.file.injEq] at file
    have same : d = d' := by
      obtain ⟨_, _, _⟩ := d
      obtain ⟨_, _, _⟩ := d'
      rw [VerifiedDependency.mk.injEq]
      exact ⟨other.root.symm, (other.relative.trans path).symm, file.1⟩
    exact same ▸ List.mem_flatten.2 ⟨held, among, inside⟩

/-! ### The order of the observations -/

/-- The order of the observations of files: by the text of the root, then by the relative path. -/
def Before (d e : VerifiedDependency) : Prop :=
  pathText d.root < pathText e.root ∨ d.root = e.root ∧ d.relative < e.relative

instance : Std.Irrefl Before :=
  ⟨fun d before => before.elim (lt_irrefl _) fun same => lt_irrefl d.relative same.2⟩

instance : Std.Antisymm Before := by
  refine ⟨fun d e one another => ?_⟩
  rcases one with lower | ⟨root, lower⟩
  · rcases another with upper | ⟨root, -⟩
    · exact absurd (lower.trans upper) (lt_irrefl _)
    · rw [root] at lower
      exact absurd lower (lt_irrefl _)
  · rcases another with upper | ⟨-, upper⟩
    · rw [root] at upper
      exact absurd upper (lt_irrefl _)
    · exact absurd (lower.trans upper) (lt_irrefl _)

theorem pathText_injective {names others : List Points} (proper : ∀ name ∈ names, IsName name)
    (proper' : ∀ name ∈ others, IsName name) (same : pathText names = pathText others) :
    names = others :=
  path_injective proper proper' (List.cons.inj same).2

/-- The names of what the host has are proper. -/
theorem proper_of_lstat {host : Host} {names : List Points} {node : Node}
    (there : host.lstat names = some node) : ∀ name ∈ names, IsName name :=
  fun _ member => (Host.entryName_of_lstat there member).1

theorem Accepted.dependencies_ordered (straight : v.Straight) (within : v.Within)
    (accepted : Accepted v sha artifacts dependencies) : dependencies.Pairwise Before := by
  obtain ⟨canonical, rooted, nodup, -, lists, each, rfl⟩ :=
    (verifyDependencyRoots_ok_iff straight.roots within).1 accepted.dependencies
  have proper : ∀ found ∈ canonical, ∀ name ∈ found, IsName name := by
    intro found member
    obtain ⟨root, -, own⟩ := related_from_mem rooted member
    obtain ⟨entries, there, -⟩ := own.tree
    exact proper_of_lstat there
  have firsts : (canonical.zip v.roots).map (·.1) = canonical :=
    List.map_fst_zip rooted.length_eq.ge
  -- roots are sorted by their texts, and distinct roots have distinct texts
  have texts : (((canonical.zip v.roots).map (·.1)).map pathText).Nodup := by
    rw [firsts]
    exact nodup.map_on fun names member others member' same =>
      pathText_injective (proper names member) (proper others member') same
  rw [List.map_map] at texts
  have items := sorted_by_key texts
  rw [List.pairwise_flatten]
  constructor
  · intro held listed
    obtain ⟨item, -, files⟩ := related_from_mem each listed
    have paths := sorted_by_key item.2.unique
    -- inside one root the pins are sorted by their paths
    have relatives : held.Pairwise fun d e => d.relative < e.relative := by
      refine pairwise_right (f := VerifiedDependency.relative) (S := fun pin p => p = pin.path)
        (P := fun p q => p < q) files (fun _ _ own => own.relative) (paths.imp ?_)
      rintro a b below _ _ rfl rfl
      exact below
    refine List.Pairwise.imp_of_mem ?_ relatives
    intro d e first second below
    obtain ⟨_, -, own⟩ := related_from_mem files first
    obtain ⟨_, -, own'⟩ := related_from_mem files second
    exact .inr ⟨own.root.trans own'.root.symm, below⟩
  · refine pairwise_right (f := id) (S := fun item held => ∀ d ∈ held, d.root = item.1)
      (P := fun held held' => ∀ d ∈ held, ∀ e ∈ held', Before d e) each ?_ (items.imp ?_)
    · intro item held files d inside
      obtain ⟨_, -, own⟩ := related_from_mem files inside
      exact own.root
    · intro a b below held held' own own' d first e second
      rw [Before, own d first, own' e second]
      exact .inl below

end Observed

/-! ### The hashed document -/

/-- The hash has no collision among these texts, and none among these contents. -/
structure CollisionFree (sha : Sha256) (texts : Set (List Char)) (contents : Set (List UInt8)) : Prop where
  text : Set.InjOn sha.text texts
  bytes : Set.InjOn sha.bytes contents

namespace Verification

variable (v : Verification) (sha : Sha256)

/-- The resolved paths of a bundle. -/
def paths : Set (List Points) :=
  {found | (∃ a ∈ v.artifacts, a.resolved = found) ∨ ∃ d ∈ v.dependencies, d.root = found}

/-- The texts that an accepting verification hashes: its paths, and its observations. -/
def hashedTexts : Set (List Char) :=
  {text | (∃ found ∈ v.paths, text = (Data.str (pathText found)).canonical) ∨
    ∃ artifacts dependencies, Accepted v sha artifacts dependencies ∧ text = (bundleObservations sha
      (artifacts.insertionSort fun a b => a.role ≤ b.role) dependencies).canonical}

/-- The contents that a verification hashes. -/
def hashedContents : Set (List UInt8) :=
  {content | (∃ a ∈ v.artifacts, a.content = content) ∨ ∃ d ∈ v.dependencies, d.content = content}

end Verification

section Hash

variable {v w : Verification} {sha : Sha256} {texts : Set (List Char)} {contents : Set (List UInt8)}

private theorem same_of_hash (free : CollisionFree sha texts contents) {x y : Data}
    (hash : sha.of x = sha.of y) (left : x.canonical ∈ texts) (right : y.canonical ∈ texts)
    (plain : Unpaired x) (plain' : Unpaired y) : x.Same y := by
  have digests := congrArg String.toList (ofString_injective hash)
  rw [String.toList_append, String.toList_append, List.append_cancel_left_eq] at digests
  exact same_of_unpaired (free.text left right (String.toList_injective digests)) plain plain'

private theorem content_of_hash (free : CollisionFree sha texts contents) {content other : List UInt8}
    (hash : sha.fileHash content = sha.fileHash other) (left : content ∈ contents)
    (right : other ∈ contents) : content = other := by
  have digests := congrArg String.toList (ofString_injective hash)
  rw [String.toList_append, String.toList_append, List.append_cancel_left_eq] at digests
  exact free.bytes left right (String.toList_injective digests)

/-- A text without high surrogates has no surrogate pair. -/
private theorem unpaired_of_low {s : Points} (low : ∀ c ∈ s, c.high = false) : s.unpaired = true := by
  rw [TrustState.unpaired_iff_isChain]
  refine List.Pairwise.isChain (List.pairwise_iff_forall_sublist.2 fun {c d} inside => ?_)
  rw [low c (inside.subset List.mem_cons_self), Bool.false_and]

private theorem path_low {names : List Points} (low : ∀ name ∈ names, ∀ c ∈ name, c.high = false) :
    ∀ c ∈ path names, c.high = false := by
  intro c member
  rcases mem_path member with rfl | ⟨name, inside, own⟩
  · rfl
  · exact low name inside c own

private theorem names_low {host : Host} {names : List Points} {node : Node}
    (there : host.lstat names = some node) : ∀ name ∈ names, ∀ c ∈ name, c.high = false :=
  fun _ member => (Host.entryName_of_lstat there member).2

theorem lstat_of_mem_paths {found : List Points} (member : found ∈ v.paths) :
    ∃ node, v.host.lstat found = some node := by
  rcases member with ⟨a, ⟨_, _, _, _, links, there⟩, rfl⟩ | ⟨d, ⟨_, _, _, names, links, _, there⟩, rfl⟩
  · exact ⟨_, there⟩
  · rw [Host.lstat_append, Option.bind_eq_some_iff] at there
    obtain ⟨node, root, -⟩ := there
    exact ⟨node, root⟩

private theorem unpaired_pathText {found : List Points} (member : found ∈ v.paths) :
    Unpaired (.str (pathText found)) := by
  obtain ⟨node, there⟩ := lstat_of_mem_paths member
  refine unpaired_str.2 (unpaired_of_low (List.forall_mem_cons.2 ⟨rfl, path_low (names_low there)⟩))

private theorem path_of_hash (free : CollisionFree sha (v.hashedTexts sha ∪ w.hashedTexts sha) contents)
    {found other : List Points} (hash : pathHash sha found = pathHash sha other)
    (left : found ∈ v.paths) (right : other ∈ w.paths) : found = other := by
  have same := same_of_hash free hash (.inl (.inl ⟨found, left, rfl⟩)) (.inr (.inl ⟨other, right, rfl⟩))
    (unpaired_pathText left) (unpaired_pathText right)
  obtain ⟨_, there⟩ := lstat_of_mem_paths left
  obtain ⟨_, there'⟩ := lstat_of_mem_paths right
  exact pathText_injective (proper_of_lstat there) (proper_of_lstat there') (Data.str.inj same)

/-- An observation of either kind. -/
def observation (sha : Sha256) : VerifiedArtifact ⊕ VerifiedDependency → List (String × Data)
  | .inl a => ("kind", textData "artifact") :: a.fields sha
  | .inr d => d.fields sha

def Observed (v : Verification) : VerifiedArtifact ⊕ VerifiedDependency → Prop
  | .inl a => a ∈ v.artifacts
  | .inr d => d ∈ v.dependencies

private theorem unpaired_of (x : Data) : Unpaired (.str (sha.of x)) :=
  unpaired_hash (sha.text_formed x.canonical)

private theorem unpaired_text (s : String) : Unpaired (textData s) :=
  unpaired_str.2 (unpaired_ofString s)

private theorem unpaired_observation {item : VerifiedArtifact ⊕ VerifiedDependency}
    (observed : Observed v item) : Unpaired (.obj (record (observation sha item))) := by
  refine unpaired_record ?_
  cases item with
  | inl a =>
    obtain ⟨pin, -, role, -⟩ := observed
    have chars : ∀ c ∈ a.role, c.high = false := by
      intro c member
      have low : roleChars.all (fun d => !d.high) = true := by decide
      simpa using List.all_eq_true.1 low c (pin.named.2.2 c (role ▸ member))
    simp only [observation, VerifiedArtifact.fields, List.forall_mem_cons]
    exact ⟨unpaired_text _, unpaired_str.2 (unpaired_of_low chars), unpaired_of _,
      unpaired_hash (sha.bytes_formed _), unpaired_int _, nofun⟩
  | inr d =>
    obtain ⟨_, -, -, names, links, relative, there⟩ := observed
    have low := names_low there
    have chars : ∀ c ∈ d.relative, c.high = false := by
      rw [relative]
      exact path_low fun name member => low name (List.mem_append_right _ member)
    simp only [observation, VerifiedDependency.fields, List.forall_mem_cons]
    exact ⟨unpaired_text _, unpaired_of _, unpaired_str.2 (unpaired_of_low chars),
      unpaired_hash (sha.bytes_formed _), unpaired_int _, nofun⟩

private theorem names_nodup (item : VerifiedArtifact ⊕ VerifiedDependency) :
    ((observation sha item).map (·.1)).Nodup := by
  cases item <;> simp [observation, VerifiedArtifact.fields, VerifiedDependency.fields]

/-- The two kinds differ in their first field. -/
private theorem kind_apart {a : VerifiedArtifact} {d : VerifiedDependency} :
    ¬ (Data.obj (record (observation sha (.inl a)))).Same (.obj (record (observation sha (.inr d)))) := by
  intro same
  have each := ((AuthorityPublication.same_record_iff
    (AuthorityPublication.record_nodup (names_nodup (.inl a))) (names_nodup (.inr d))).1 same).2
  have kind := each ("kind", textData "dependency") List.mem_cons_self
  have first : ("kind", textData "artifact") ∈ observation sha (.inl a) := List.mem_cons_self
  rw [AuthorityPublication.fieldAt_entry (names_nodup _) first] at kind
  have texts := ofString_injective (Data.str.inj (Option.some.inj kind))
  exact absurd texts (by decide)

private theorem text_of_same {s t : Points} (same : (Data.str s).Same (.str t)) : s = t :=
  Data.str.inj same

/-- Observations that are the same are of one kind, and observe the same. -/
private theorem observation_apart
    (free : CollisionFree sha (v.hashedTexts sha ∪ w.hashedTexts sha)
      (v.hashedContents ∪ w.hashedContents))
    {item other : VerifiedArtifact ⊕ VerifiedDependency} (left : Observed v item)
    (right : Observed w other)
    (same : (Data.obj (record (observation sha item))).Same (.obj (record (observation sha other)))) :
    item = other := by
  cases item with
  | inl a =>
    cases other with
    | inl b =>
      have order : (observation sha (.inl a)).map (·.1) = (observation sha (.inl b)).map (·.1) := by
        simp [observation, VerifiedArtifact.fields]
      have each := contents_of_same (names_nodup (.inl a)) order same
      simp only [observation, VerifiedArtifact.fields, List.forall₂_cons, true_and] at each
      -- the hashes of paths and contents are free of collisions
      obtain ⟨-, role, place, content, -⟩ := each
      have resolved := path_of_hash free (text_of_same place) (.inl ⟨a, left, rfl⟩)
        (.inl ⟨b, right, rfl⟩)
      have file := content_of_hash free (text_of_same content) (.inl (.inl ⟨a, left, rfl⟩))
        (.inr (.inl ⟨b, right, rfl⟩))
      obtain ⟨_, _, _⟩ := a
      obtain ⟨_, _, _⟩ := b
      rw [Sum.inl.injEq, VerifiedArtifact.mk.injEq]
      exact ⟨text_of_same role, resolved, file⟩
    | inr d => exact absurd same kind_apart
  | inr d =>
    cases other with
    | inl a => exact absurd same.symm kind_apart
    | inr e =>
      have order : (observation sha (.inr d)).map (·.1) = (observation sha (.inr e)).map (·.1) := by
        simp [observation, VerifiedDependency.fields]
      have each := contents_of_same (names_nodup (.inr d)) order same
      simp only [observation, VerifiedDependency.fields, List.forall₂_cons, true_and] at each
      obtain ⟨-, place, relative, content, -⟩ := each
      have root := path_of_hash free (text_of_same place) (.inr ⟨d, left, rfl⟩)
        (.inr ⟨e, right, rfl⟩)
      have file := content_of_hash free (text_of_same content) (.inl (.inr ⟨d, left, rfl⟩))
        (.inr (.inr ⟨e, right, rfl⟩))
      obtain ⟨_, _, _⟩ := d
      obtain ⟨_, _, _⟩ := e
      rw [Sum.inr.injEq, VerifiedDependency.mk.injEq]
      exact ⟨root, text_of_same relative, file⟩

private theorem bundleObservations_eq {artifacts : List VerifiedArtifact}
    {dependencies : List VerifiedDependency} (some : dependencies ≠ []) :
    bundleObservations sha artifacts dependencies =
      .arr ((artifacts.map Sum.inl ++ dependencies.map Sum.inr).map fun item =>
        .obj (record (observation sha item))) := by
  rw [bundleObservations, if_neg some, List.map_append, List.map_map, List.map_map]
  rfl

private theorem inl_inr_cancel {α β : Type} {as as' : List α} {bs bs' : List β}
    (same : as.map (Sum.inl (β := β)) ++ bs.map Sum.inr = as'.map Sum.inl ++ bs'.map Sum.inr) :
    as = as' ∧ bs = bs' := by
  have lefts := congrArg (List.filterMap Sum.getLeft?) same
  have rights := congrArg (List.filterMap Sum.getRight?) same
  simp only [List.filterMap_append, List.filterMap_map] at lefts rights
  exact ⟨by simpa [Function.comp_def] using lefts, by simpa [Function.comp_def] using rights⟩

private theorem mem_by_role {artifacts : List VerifiedArtifact} {a : VerifiedArtifact} :
    a ∈ artifacts.insertionSort (fun a b => a.role ≤ b.role) ↔ a ∈ artifacts :=
  List.mem_insertionSort fun a b : VerifiedArtifact => a.role ≤ b.role

private theorem observed_of_mem {artifacts : List VerifiedArtifact}
    {dependencies : List VerifiedDependency} (straight : v.Straight) (within : v.Within)
    (accepted : Accepted v sha artifacts dependencies) {item : VerifiedArtifact ⊕ VerifiedDependency}
    (member : item ∈ (artifacts.insertionSort fun a b => a.role ≤ b.role).map Sum.inl ++
      dependencies.map Sum.inr) : Observed v item := by
  rcases List.mem_append.1 member with first | second
  · obtain ⟨a, listed, rfl⟩ := List.mem_map.1 first
    exact accepted.mem_artifacts_iff.1 (mem_by_role.1 listed)
  · obtain ⟨d, listed, rfl⟩ := List.mem_map.1 second
    exact (accepted.mem_dependencies_iff straight within).1 listed

private theorem unpaired_arr {items : List Data} (each : ∀ x ∈ items, Unpaired x) :
    Unpaired (.arr items) := by
  intro s member
  obtain ⟨x, inside, own⟩ := Data.mem_stringsItems.1 member
  exact each x inside s own

private theorem roles_ordered {artifacts : List VerifiedArtifact}
    {dependencies : List VerifiedDependency} (accepted : Accepted v sha artifacts dependencies) :
    (artifacts.insertionSort fun a b => a.role ≤ b.role).Pairwise fun a b => a.role < b.role :=
  sorted_by_key (roles_eq accepted.pinned ▸ accepted.roles)

/-- The observations depend on the artifacts and the dependency files only. -/
theorem Accepted.observations_eq {artifacts artifacts' : List VerifiedArtifact}
    {dependencies dependencies' : List VerifiedDependency} (straight : v.Straight) (within : v.Within)
    (straight' : w.Straight) (within' : w.Within) (one : Accepted v sha artifacts dependencies)
    (other : Accepted w sha artifacts' dependencies') (same : v.artifacts = w.artifacts)
    (same' : v.dependencies = w.dependencies) :
    bundleObservations sha (artifacts.insertionSort fun a b => a.role ≤ b.role) dependencies =
      bundleObservations sha (artifacts'.insertionSort fun a b => a.role ≤ b.role) dependencies' := by
  have files : dependencies = dependencies' := by
    refine (one.dependencies_ordered straight within).eq_of_mem_iff
      (other.dependencies_ordered straight' within') fun d => ?_
    rw [one.mem_dependencies_iff straight within, same', other.mem_dependencies_iff straight' within']
  have pinned := eq_of_keys (roles_ordered one) (roles_ordered other) fun a => by
    rw [mem_by_role, one.mem_artifacts_iff, same, mem_by_role, other.mem_artifacts_iff]
  rw [pinned, files]

/-- Accepted bundles have one hash exactly for the same artifacts and the same dependency files. -/
theorem Accepted.hash_iff {artifacts artifacts' : List VerifiedArtifact}
    {dependencies dependencies' : List VerifiedDependency} (straight : v.Straight) (within : v.Within)
    (straight' : w.Straight) (within' : w.Within) (one : Accepted v sha artifacts dependencies)
    (other : Accepted w sha artifacts' dependencies')
    (free : CollisionFree sha (v.hashedTexts sha ∪ w.hashedTexts sha)
      (v.hashedContents ∪ w.hashedContents)) :
    sha.of (bundleObservations sha (artifacts.insertionSort fun a b => a.role ≤ b.role) dependencies) =
        sha.of (bundleObservations sha (artifacts'.insertionSort fun a b => a.role ≤ b.role)
          dependencies') ↔
      v.artifacts = w.artifacts ∧ v.dependencies = w.dependencies := by
  constructor
  · intro hash
    have observed : ∀ item ∈ _, Observed v item := fun _ => observed_of_mem straight within one
    have observed' : ∀ item ∈ _, Observed w item := fun _ => observed_of_mem straight' within' other
    -- both bundles are hashed as lists of observations
    have some := @bundleObservations_eq sha (artifacts.insertionSort fun a b => a.role ≤ b.role) _
      (dependencies_some straight within one)
    have some' := @bundleObservations_eq sha (artifacts'.insertionSort fun a b => a.role ≤ b.role) _
      (dependencies_some straight' within' other)
    have same := same_of_hash free hash (.inl (.inr ⟨_, _, one, rfl⟩)) (.inr (.inr ⟨_, _, other, rfl⟩))
      (by rw [some]; exact unpaired_arr (List.forall_mem_map.2 fun item member =>
        unpaired_observation (observed item member)))
      (by rw [some']; exact unpaired_arr (List.forall_mem_map.2 fun item member =>
        unpaired_observation (observed' item member)))
    rw [some, some', Data.same_arr_iff, List.forall₂_map_left_iff, List.forall₂_map_right_iff] at same
    have items := eq_of_related same fun item member item' member' =>
      observation_apart free (observed item member) (observed' item' member')
    -- the artifacts come first in both lists, then the dependencies
    obtain ⟨first, second⟩ := inl_inr_cancel items
    constructor
    · ext a
      rw [← one.mem_artifacts_iff, ← other.mem_artifacts_iff, ← mem_by_role, first, mem_by_role]
    · ext d
      rw [← one.mem_dependencies_iff straight within, second,
        other.mem_dependencies_iff straight' within']
  · rintro ⟨same, same'⟩
    rw [one.observations_eq straight within straight' within' other same same']

end Hash

/-- A verification answers closed exactly where every pinned file and every root is reached without
links and outside of mutable state, no roots overlap, every tree is what its manifest lists and every
digest matches, for a bundle that is configured as one; and accepted bundles have one hash exactly for
the same roles, paths and contents. -/
theorem closed_bundle_exact {sha : Sha256} {v w : Verification} (straight : v.Straight)
    (within : v.Within) (straight' : w.Straight) (within' : w.Within)
    (free : CollisionFree sha (v.hashedTexts sha ∪ w.hashedTexts sha)
      (v.hashedContents ∪ w.hashedContents)) :
    ((∃ a, v.run sha = .ok a ∧ a.mode = .closed) ↔ v.Closed sha ∧ v.Configured) ∧
    ∀ a b, v.run sha = .ok a → a.mode = .closed → w.run sha = .ok b → b.mode = .closed →
      (a.bundleHash = b.bundleHash ↔ v.artifacts = w.artifacts ∧ v.dependencies = w.dependencies) := by
  refine ⟨run_closed_iff straight within, fun a b ran closed ran' closed' => ?_⟩
  obtain ⟨artifacts, dependencies, one, hash⟩ := accepted_of_run straight ran closed
  obtain ⟨artifacts', dependencies', other, hash'⟩ := accepted_of_run straight' ran' closed'
  rw [hash, hash', Option.some.injEq]
  exact one.hash_iff straight within straight' within' other free

namespace Demo

/-- Digests that tell the paths `/a` and `/d` apart from each other and from other texts, the texts that
name the content `[3]` from those that do not, and the three contents. -/
def sha : Sha256 where
  text t := String.ofList (List.replicate 64 (if t[2]? = some 'a' then '1' else if t[2]? = some 'd'
    then '2' else if '4' ∈ t then '3' else '0'))
  bytes content := String.ofList (List.replicate 64
    (if content = [1] then '1' else if content = [3] then '4' else '2'))
  text_formed t := by
    split
    · decide +kernel
    · split
      · decide +kernel
      · split <;> decide +kernel
  bytes_formed content := by
    split
    · decide +kernel
    · split <;> decide +kernel

def entry (c : Char) (proper : IsName [.ofChar c]) (low : (CodePoint.ofChar c).high = false) : EntryName :=
  ⟨[.ofChar c], proper, List.forall_mem_singleton.2 low⟩

/-- A program `/a`, and a directory `/d` with one file. -/
def host (content : List UInt8) : Host where
  root := [(entry 'a' ⟨by decide, by decide, by decide, by decide⟩ rfl, .file [1] 1),
    (entry 'd' ⟨by decide, by decide, by decide, by decide⟩ rfl, .directory
      [(entry 'f' ⟨by decide, by decide, by decide, by decide⟩ rfl, .file content 1)])]
  distinct := by
    simp only [Node.Distinct, Node.DistinctEntries, List.map_cons, List.map_nil]
    decide
  cwd := .root
  follow := fun _ => none

def pin (role : String) (some : ofString role ≠ [])
    (trimmed : ofString role = TrustState.strip (ofString role))
    (chars : (ofString role).all roleChars.contains = true) : RuntimeArtifactPin where
  role := ofString role
  path := ofString "/a"
  sha256 := sha.fileHash [1]
  named := ⟨some, trimmed, fun c member => List.contains_iff_mem.1 (List.all_eq_true.1 chars c member)⟩
  formed := sha.bytes_formed [1]

def root (content : List UInt8) : RuntimeDependencyRoot where
  path := ofString "/d"
  files := [⟨ofString "f", sha.fileHash content, rfl, sha.bytes_formed content⟩]
  some := List.cons_ne_nil _ _
  bounded := show 1 ≤ maxDependencyFiles by decide
  unique := List.nodup_singleton _

def stateRoot : FilePath :=
  ⟨[ofString "s"], List.forall_mem_singleton.2 ⟨by decide, by decide, by decide, by decide⟩⟩

def bundle (pin : RuntimeArtifactPin) (content : List UInt8) : Verification where
  host := host content
  which := fun _ => none
  stateRoot := stateRoot
  command := [ofString "/a"]
  pins := [pin]
  cwd := none
  roots := [root content]

def executable : RuntimeArtifactPin := pin "executable" (by decide) (by decide) (by decide)

def tool : RuntimeArtifactPin := pin "tool" (by decide) (by decide) (by decide)

/-- The two contents that the file has below. -/
def Known (content : List UInt8) : Prop := content = [2] ∨ content = [3]

variable {content : List UInt8}

theorem straight (known : Known content) (p : RuntimeArtifactPin) (path : p.path = ofString "/a") :
    (bundle p content).Straight := by
  constructor
  · refine List.forall_mem_singleton.2 (Host.straight_of_forward ?_)
    rw [path]
    show dotdot ∉ (host content).absoluteParts (ofString "/a")
    rcases known with rfl | rfl <;> decide +kernel
  · refine List.forall_mem_singleton.2 (Host.straight_of_forward ?_)
    show dotdot ∉ (host content).absoluteParts (root content).path
    rcases known with rfl | rfl <;> decide +kernel

theorem within (known : Known content) (p : RuntimeArtifactPin) : (bundle p content).Within := by
  refine List.forall_mem_singleton.2 fun found entries reached there => ?_
  have place : (bundle p content).Reaches (root content).path [ofString "d"] := by
    show (host content).reached [] ((host content).absoluteParts (root content).path) = _
    rcases known with rfl | rfl <;> decide +kernel
  obtain rfl := place.unique reached
  obtain rfl := Node.directory.inj (Option.some.inj there)
  rcases known with rfl | rfl <;> constructor <;> simp [Node.descendants, Node.entriesWithin, fileTexts,
    isFile, maxDependencyEntries, maxDependencyFiles]

def program : VerifiedArtifact := ⟨ofString "executable", [ofString "a"], [1]⟩

def file (content : List UInt8) : VerifiedDependency := ⟨[ofString "d"], ofString "f", content⟩

theorem accepted (known : Known content) :
    Accepted (bundle executable content) sha [program] [file content] where
  pins := List.cons_ne_nil _ _
  roots := List.cons_ne_nil _ _
  roles := List.nodup_singleton _
  pinned := by
    rcases known with rfl | rfl <;>
      exact .cons ⟨rfl, by decide +kernel, ⟨1, rfl⟩, by decide +kernel, rfl⟩ .nil
  files := List.nodup_singleton _
  executable := by
    refine ⟨program, List.mem_singleton_self _, rfl, ofString "/a", rfl, ?_⟩
    rcases known with rfl | rfl <;> rfl
  dependencies := by rcases known with rfl | rfl <;> rfl

theorem mem_artifacts (known : Known content) {a : VerifiedArtifact}
    (member : a ∈ (bundle executable content).artifacts) : a = program :=
  List.mem_singleton.1 ((accepted known).mem_artifacts_iff.2 member)

theorem mem_dependencies_iff (known : Known content) {d : VerifiedDependency} :
    d ∈ (bundle executable content).dependencies ↔ d = file content :=
  ((accepted known).mem_dependencies_iff (straight known _ rfl) (within known _)).symm.trans
    List.mem_singleton

/-- What is hashed: two paths, and the observations. -/
theorem mem_hashedTexts (known : Known content) {t : List Char}
    (member : t ∈ (bundle executable content).hashedTexts sha) :
    t = (Data.str (ofString "/a")).canonical ∨ t = (Data.str (ofString "/d")).canonical ∨
      t = (bundleObservations sha [program] [file content]).canonical := by
  rcases member with ⟨found, ⟨a, inside, rfl⟩ | ⟨d, inside, rfl⟩, rfl⟩ | ⟨_, _, other, rfl⟩
  · rw [mem_artifacts known inside]
    exact .inl rfl
  · rw [(mem_dependencies_iff known).1 inside]
    exact .inr (.inl rfl)
  · rw [other.observations_eq (straight known _ rfl) (within known _) (straight known _ rfl)
      (within known _) (accepted known) rfl rfl]
    exact .inr (.inr rfl)

/-- The texts that two verifications hash, with the files `[2]` and `[3]`. -/
def texts : List (List Char) := [(Data.str (ofString "/a")).canonical, (Data.str (ofString "/d")).canonical,
  (bundleObservations sha [program] [file [2]]).canonical,
  (bundleObservations sha [program] [file [3]]).canonical]

theorem free : CollisionFree sha
    ((bundle executable [2]).hashedTexts sha ∪ (bundle executable [3]).hashedTexts sha)
    ((bundle executable [2]).hashedContents ∪ (bundle executable [3]).hashedContents) where
  text := by
    have apart : (texts.map sha.text).Nodup := by decide +kernel
    have listed : ∀ t ∈ (bundle executable [2]).hashedTexts sha ∪ (bundle executable [3]).hashedTexts sha,
        t ∈ texts := by
      rintro t (member | member)
      · rcases mem_hashedTexts (.inl rfl) member with rfl | rfl | rfl <;> simp [texts]
      · rcases mem_hashedTexts (.inr rfl) member with rfl | rfl | rfl <;> simp [texts]
    exact fun t first u second => List.inj_on_of_nodup_map apart (listed t first) (listed u second)
  bytes := by
    have apart : ([[1], [2], [3]].map sha.bytes).Nodup := by decide +kernel
    have contents (content : List UInt8) (known : Known content) :
        ∀ c ∈ (bundle executable content).hashedContents, c = [1] ∨ c = content := by
      rintro _ (⟨a, member, rfl⟩ | ⟨d, member, rfl⟩)
      · exact .inl (congrArg VerifiedArtifact.content (mem_artifacts known member))
      · exact .inr (congrArg VerifiedDependency.content ((mem_dependencies_iff known).1 member))
    have listed : ∀ c ∈ (bundle executable [2]).hashedContents ∪ (bundle executable [3]).hashedContents,
        c ∈ ([[1], [2], [3]] : List (List UInt8)) := by
      rintro c (member | member)
      · rcases contents [2] (.inl rfl) c member with rfl | rfl <;> simp
      · rcases contents [3] (.inr rfl) c member with rfl | rfl <;> simp
    exact fun c first d second => List.inj_on_of_nodup_map apart (listed c first) (listed d second)

end Demo

/-- The program and its directory are a closed bundle, whose hash is another one when the file in the
directory is. -/
theorem closed_bundle_exact_program : ∃ a b,
    (Demo.bundle Demo.executable [2]).run Demo.sha = .ok a ∧ a.mode = .closed ∧
      (Demo.bundle Demo.executable [3]).run Demo.sha = .ok b ∧ b.mode = .closed ∧
      (Demo.bundle Demo.executable [2]).Closed Demo.sha ∧
      (Demo.bundle Demo.executable [2]).Configured ∧ a.bundleHash ≠ b.bundleHash := by
  have two : Demo.Known [2] := .inl rfl
  have three : Demo.Known [3] := .inr rfl
  have exact_ := closed_bundle_exact (Demo.straight two _ rfl) (Demo.within two _)
    (Demo.straight three _ rfl) (Demo.within three _) Demo.free
  have ran := run_of_accepted (Demo.straight two _ rfl) (Demo.within two _) (Demo.accepted two)
  have closed := exact_.1.1 ran
  obtain ⟨a, ran, mode⟩ := ran
  obtain ⟨b, ran', mode'⟩ := run_of_accepted (Demo.straight three _ rfl) (Demo.within three _)
    (Demo.accepted three)
  refine ⟨a, b, ran, mode, ran', mode', closed.1, closed.2, fun same => ?_⟩
  have files := ((exact_.2 a b ran mode ran' mode').1 same).2
  have moved : Demo.file [2] ∈ (Demo.bundle Demo.executable [3]).dependencies := by
    rw [← files]
    exact (Demo.mem_dependencies_iff two).2 rfl
  have contents := congrArg VerifiedDependency.content ((Demo.mem_dependencies_iff three).1 moved)
  exact absurd contents (by decide)

/-- Where nothing is pinned as the executable, a closed bundle is refused. -/
theorem closed_without_executable :
    ¬ ∀ (sha : Sha256) (v : Verification), v.Straight → v.Within →
      ((∃ a, v.run sha = .ok a ∧ a.mode = .closed) ↔ v.Closed sha) := by
  intro exact_
  have two : Demo.Known [2] := .inl rfl
  have closed := ((Demo.accepted two).closed (Demo.straight two _ rfl) (Demo.within two _))
  have alike : (Demo.bundle Demo.tool [2]).Closed Demo.sha := by
    refine ⟨List.forall_mem_singleton.2 ⟨⟨ofString "tool", [ofString "a"], [1]⟩, ?_⟩, fun root member => ?_,
      closed.disjoint⟩
    swap
    · obtain ⟨found, own⟩ := closed.roots root member
      exact ⟨found, own.reached, own.apart, own.tree⟩
    exact ⟨rfl, by decide +kernel, ⟨1, rfl⟩, by decide +kernel, rfl⟩
  obtain ⟨a, ran, -⟩ := (exact_ Demo.sha _ (Demo.straight two Demo.tool rfl) (Demo.within two _)).2 alike
  have refused : ((Demo.bundle Demo.tool [2]).run Demo.sha).toOption.isSome = false := by decide +kernel
  rw [ran] at refused
  cases refused

end RuntimeArtifacts

end DefiantHarness
