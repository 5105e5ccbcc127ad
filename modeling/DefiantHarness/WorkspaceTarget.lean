import DefiantHarness.ToolRegistry
import DefiantHarness.DurableAction
import DefiantHarness.Foundation.FilePath

/-! The targets of file tools: the file that a target denotes, and its canonical text for policy and
evidence. -/
namespace DefiantHarness

open Foundation Points

/-- What names a drive before a colon: an ASCII letter up to Python 3.11, every character since. -/
inductive DriveRule where
  | letters | every
deriving DecidableEq, Repr

def DriveRule.names : DriveRule → CodePoint → Bool
  | .letters, c => (65 ≤ c.val && c.val ≤ 90) || (97 ≤ c.val && c.val ≤ 122)
  | .every, _ => true

/-- A drive or a root of the other path family. -/
def windowsAnchored (drives : DriveRule) (target : Points) : Bool :=
  target.head? == some slash || target.head? == some backslash ||
    (target[1]? == some (CodePoint.ofChar ':') && target.head?.any drives.names)

/-- A code point that the encoding of file names cannot write: a surrogate that escapes no byte. -/
def unwritable (c : CodePoint) : Bool :=
  (0xd800 ≤ c.val && c.val < 0xdc80) || (0xdd00 ≤ c.val && c.val < 0xe000)

def nul : CodePoint := .ofChar '\x00'

/-- Resolving a path asks the host about every name on the way. -/
def askHost (names : List Points) : Except HarnessError Unit :=
  checkAll (fun name => do
    refuseIf (name.any unwritable = true) (valueError "surrogates not allowed")
    refuseIf (name.any (fun c => decide (c = nul)) = true) (valueError "embedded null byte")) names

def workspaceName : Points := ofString "workspace"

/-- Both slash styles separate. -/
def unifySlashes (target : Points) : Points :=
  target.map fun c => if c = backslash then slash else c

/-- The parts of a target below the workspace, without the names that stand for the workspace. -/
def workspaceParts (target : Points) : List Points :=
  (parts (unifySlashes target)).dropWhile fun part => part == dot || part == workspaceName

def emptyTarget : HarnessError := toolError "workspace file target must be non-empty"

def unnamedFile : HarnessError := toolError "workspace file target must name a file"

def outsideWorkspace (target : Points) : HarnessError :=
  toolError ("path is outside the approved workspace: " ++
    String.ofList (target.map fun c => Char.ofNat c.val))

section

variable (drives : DriveRule)

/-- Resolve a user-supplied file target inside one configured workspace. -/
def resolveWorkspaceTarget (target : Points) (workspaceRoot : FilePath) (allowRoot : Bool) :
    Except HarnessError FilePath := do
  refuseIf (target.all blankPoint = true) emptyTarget
  refuseIf (windowsAnchored drives target = true) (outsideWorkspace target)
  let below := workspaceParts target
  -- refused as written, before anything is resolved
  refuseIf (dotdot ∈ below) unnamedFile
  if below = [] then
    if allowRoot then pure workspaceRoot else throw unnamedFile
  else do
    askHost below
    let candidate := workspaceRoot.join below
    -- links may lead out of the workspace after all
    refuseIf (candidate.relativeTo workspaceRoot = none ∨ (candidate = workspaceRoot ∧ allowRoot = false))
      (outsideWorkspace target)
    pure candidate

/-- The file that a target denotes: an absolute path denotes itself. -/
def suppliedFile (target : Points) (workspaceRoot : FilePath) (allowRoot : Bool) :
    Except HarnessError FilePath := do
  refuseIf (target.all blankPoint = true) emptyTarget
  -- an absolute path must already lie in the workspace
  if target.head? = some slash then do
    askHost (parts target)
    let candidate := FilePath.root.join [target]
    refuseIf (candidate.relativeTo workspaceRoot = none) (outsideWorkspace target)
    refuseIf (candidate = workspaceRoot ∧ allowRoot = false) unnamedFile
    pure candidate
  else resolveWorkspaceTarget drives target workspaceRoot allowRoot

/-- Normalize a same-host workspace path for policy and evidence. -/
def canonicalWorkspaceTarget (target : Points) (workspaceRoot : FilePath) (allowRoot : Bool) :
    Except HarnessError Points := do
  let candidate ← suppliedFile drives target workspaceRoot allowRoot
  let relative ← orRefuse (candidate.relativeTo workspaceRoot) (outsideWorkspace target)
  pure (path (workspaceName :: relative))

/-- Workspace tools never overlap the control plane. -/
def requireUnprotected (protectedRoots : List FilePath) (target : FilePath) : Except HarnessError Unit :=
  refuseIf (∃ held ∈ protectedRoots, target = held ∨ target.relativeTo held ≠ none ∨
      held.relativeTo target ≠ none)
    (toolError "workspace target overlaps a protected control-plane path")

/-- The mechanical check of a file target before every authority decision. -/
def checkWorkspaceTarget (protectedRoots : List FilePath) (workspaceRoot : FilePath) (scope : TargetScope)
    (target : Points) : Except HarnessError Unit :=
  match scope with
  | .any => pure ()
  | .workspace => do
    let file ← resolveWorkspaceTarget drives target workspaceRoot false
    requireUnprotected protectedRoots file
  | .workspacePath => do
    let file ← resolveWorkspaceTarget drives target workspaceRoot true
    requireUnprotected protectedRoots file

end

variable {drives : DriveRule}

/-! ### What resolving does with a target -/

/-- A name that the host can be asked about. -/
def Writable (name : Points) : Prop := name.any unwritable = false ∧ nul ∉ name

theorem askHost_ok_iff {names : List Points} {u : Unit} :
    askHost names = .ok u ↔ ∀ name ∈ names, Writable name := by
  have absent (name : Points) : ¬ name.any (fun c => decide (c = nul)) = true ↔ nul ∉ name := by
    simp [List.any_eq_true]
  simp only [askHost, checkAll_ok_iff, refuseIf_bind_ok_iff, refuseIf_ok_iff, Writable, absent,
    Bool.not_eq_true]

/-- No directory named like the workspace comes first, and no name contains the other separator. -/
structure PlainNames (names : List Points) : Prop where
  first : names.head? ≠ some workspaceName
  whole : ∀ name ∈ names, backslash ∉ name

theorem backslash_not_mem_unifySlashes (target : Points) : backslash ∉ unifySlashes target := by
  intro member
  obtain ⟨c, -, same⟩ := List.mem_map.1 member
  split at same
  · exact absurd same (by decide)
  next other => exact other same

/-- A text without the other separator is left as it is. -/
theorem unifySlashes_eq_self {target : Points} (whole : backslash ∉ target) :
    unifySlashes target = target := by
  have each : ∀ c ∈ target, (if c = backslash then slash else c) = id c := by
    intro c member
    rw [if_neg]
    · rfl
    · rintro rfl
      exact whole member
  rw [unifySlashes, List.map_congr_left each, List.map_id]

theorem mem_workspaceParts {target part : Points} (member : part ∈ workspaceParts target) :
    part ≠ [] ∧ part ≠ dot ∧ slash ∉ part :=
  mem_parts ((List.dropWhile_sublist _).subset member)

/-- The parts of a target are plain: the names for the workspace are dropped, and both separators
separate. -/
theorem plainNames_workspaceParts (target : Points) : PlainNames (workspaceParts target) := by
  constructor
  · intro first
    have kept := List.head?_dropWhile_not (fun part => part == dot || part == workspaceName)
      (parts (unifySlashes target))
    rw [show (parts (unifySlashes target)).dropWhile
      (fun part => part == dot || part == workspaceName) = workspaceParts target from rfl, first] at kept
    simp at kept
  · intro name member inside
    have own : name ∈ parts (unifySlashes target) := (List.dropWhile_sublist _).subset member
    exact backslash_not_mem_unifySlashes target (mem_of_mem_parts own inside)

/-- What a resolved target leads to. -/
theorem resolve_ok {target : Points} {workspaceRoot file : FilePath} {allowRoot : Bool}
    (resolved : resolveWorkspaceTarget drives target workspaceRoot allowRoot = .ok file) :
    file.names = workspaceRoot.names ++ workspaceParts target ∧
      (workspaceParts target = [] → allowRoot = true) ∧ ∀ name ∈ workspaceParts target, Writable name := by
  simp only [resolveWorkspaceTarget, bind_ok_iff, refuseIf_ok_iff] at resolved
  obtain ⟨-, -, -, -, -, forward, resolved⟩ := resolved
  split at resolved
  next empty =>
    split at resolved
    next allowed =>
      obtain rfl := pure_ok_iff.1 resolved
      exact ⟨by rw [empty, List.append_nil], fun _ => allowed, by rw [empty]; exact fun _ none => nomatch none⟩
    · cases resolved
  next some =>
    simp only [bind_ok_iff, refuseIf_ok_iff, pure_ok_iff, askHost_ok_iff] at resolved
    obtain ⟨-, writable, -, -, rfl⟩ := resolved
    refine ⟨FilePath.join_names fun name member => ?_, fun empty => absurd empty some, writable⟩
    obtain ⟨visible, notDot, whole⟩ := mem_workspaceParts member
    exact ⟨visible, notDot, fun up => forward (up ▸ member), whole⟩

/-- Proper plain parts resolve to the file below the root. -/
theorem resolve_of_parts {target : Points} {workspaceRoot file : FilePath} {allowRoot : Bool}
    (visible : target.all blankPoint = false) (relative : windowsAnchored drives target = false)
    (names : file.names = workspaceRoot.names ++ workspaceParts target)
    (named : workspaceParts target = [] → allowRoot = true)
    (writable : ∀ name ∈ workspaceParts target, Writable name) :
    resolveWorkspaceTarget drives target workspaceRoot allowRoot = .ok file := by
  have proper : ∀ name ∈ workspaceParts target, IsName name := fun name member =>
    file.proper name (by rw [names]; exact List.mem_append_right _ member)
  have forward : dotdot ∉ workspaceParts target := fun up => (proper dotdot up).notUp rfl
  have same : workspaceRoot.join (workspaceParts target) = file :=
    FilePath.ext (by rw [FilePath.join_names proper, names])
  have below : file.relativeTo workspaceRoot = some (workspaceParts target) :=
    FilePath.relativeTo_eq_some_iff.2 names
  simp only [resolveWorkspaceTarget, bind_ok_iff, refuseIf_ok_iff]
  refine ⟨(), by simp [visible], (), by simp [relative], (), forward, ?_⟩
  by_cases empty : workspaceParts target = []
  · rw [if_pos empty, if_pos (named empty)]
    rw [empty, List.append_nil] at names
    rw [FilePath.ext names]
    rfl
  · rw [if_neg empty]
    have other : file ≠ workspaceRoot := by
      rintro rfl
      exact empty (List.self_eq_append_right.1 names)
    simp only [bind_ok_iff, refuseIf_ok_iff, pure_ok_iff, askHost_ok_iff]
    exact ⟨(), writable, (), by simp [same, below, other], same.symm⟩

/-! ### Canonical targets -/

theorem canonical_ok_iff {target canonical : Points} {workspaceRoot : FilePath} {allowRoot : Bool} :
    canonicalWorkspaceTarget drives target workspaceRoot allowRoot = .ok canonical ↔
      ∃ file names, suppliedFile drives target workspaceRoot allowRoot = .ok file ∧
        file.names = workspaceRoot.names ++ names ∧ canonical = path (workspaceName :: names) := by
  simp only [canonicalWorkspaceTarget, bind_ok_iff, orRefuse_ok_iff, pure_ok_iff,
    FilePath.relativeTo_eq_some_iff]
  constructor
  · rintro ⟨file, supplied, names, below, rfl⟩
    exact ⟨file, names, supplied, below, rfl⟩
  · rintro ⟨file, names, supplied, below, rfl⟩
    exact ⟨file, supplied, names, below, rfl⟩

/-- The root itself is denoted only where it may be. -/
theorem supplied_root {target : Points} {workspaceRoot : FilePath} {allowRoot : Bool}
    (supplied : suppliedFile drives target workspaceRoot allowRoot = .ok workspaceRoot) :
    allowRoot = true := by
  simp only [suppliedFile, bind_ok_iff, refuseIf_ok_iff] at supplied
  obtain ⟨-, -, supplied⟩ := supplied
  split at supplied
  · simp only [bind_ok_iff, refuseIf_ok_iff, pure_ok_iff, not_and] at supplied
    obtain ⟨-, -, -, -, -, allowed, same⟩ := supplied
    simpa using allowed same.symm
  · obtain ⟨names, named, -⟩ := resolve_ok supplied
    exact named (List.self_eq_append_right.1 names)

/-- The host was asked about every name of a denoted file below the workspace. -/
theorem supplied_writable {target : Points} {workspaceRoot file : FilePath} {allowRoot : Bool}
    (supplied : suppliedFile drives target workspaceRoot allowRoot = .ok file) {names : List Points}
    (below : file.names = workspaceRoot.names ++ names) : ∀ name ∈ names, Writable name := by
  simp only [suppliedFile, bind_ok_iff, refuseIf_ok_iff] at supplied
  obtain ⟨-, -, supplied⟩ := supplied
  split at supplied
  · simp only [bind_ok_iff, refuseIf_ok_iff, pure_ok_iff, askHost_ok_iff] at supplied
    obtain ⟨-, writable, -, -, -, -, rfl⟩ := supplied
    intro name member
    have own : name ∈ (FilePath.root.join [target]).names := by
      rw [below]
      exact List.mem_append_right _ member
    rcases FilePath.mem_join own with nowhere | ⟨text, only, inside⟩
    · cases nowhere
    · obtain rfl := List.mem_singleton.1 only
      exact writable name inside
  · obtain ⟨same, -, writable⟩ := resolve_ok supplied
    rw [below, List.append_cancel_left_eq] at same
    rwa [same]

theorem isName_workspaceName : IsName workspaceName where
  some := by decide
  notDot := by decide
  notUp := by decide
  whole := by decide

/-- A canonical target starts with the name for the workspace. -/
private theorem canonical_start (names : List Points) :
    ∃ rest, path (workspaceName :: names) = workspaceName ++ rest := by
  cases names with
  | nil => exact ⟨[], by rw [path, List.intercalate_singleton, List.append_nil]⟩
  | cons name names =>
    exact ⟨slash :: path (name :: names), by
      rw [path, List.intercalate_cons_cons, List.append_assoc]
      rfl⟩

private theorem canonical_shape (names : List Points) :
    (path (workspaceName :: names)).all blankPoint = false ∧
      windowsAnchored drives (path (workspaceName :: names)) = false ∧
      (path (workspaceName :: names)).head? ≠ some slash := by
  obtain ⟨rest, shape⟩ := canonical_start names
  rw [shape]
  refine ⟨?_, ?_, ?_⟩
  · rw [List.all_append, show workspaceName.all blankPoint = false by decide, Bool.false_and]
  · rw [windowsAnchored, List.head?_append_of_ne_nil _ (by decide),
      List.getElem?_append_left (by decide)]
    cases drives with
    | letters => decide
    | every => decide
  · rw [List.head?_append_of_ne_nil _ (by decide)]
    decide

/-- Plain names below the workspace are read back from a canonical target. -/
private theorem workspaceParts_canonical {names : List Points} (proper : ∀ name ∈ names, IsName name)
    (plain : PlainNames names) : workspaceParts (path (workspaceName :: names)) = names := by
  have whole : backslash ∉ path (workspaceName :: names) := by
    intro member
    rcases mem_path member with here | ⟨name, among, inside⟩
    · exact absurd here (by decide)
    · rcases List.mem_cons.1 among with rfl | later
      · exact absurd inside (by decide)
      · exact plain.whole name later inside
  rw [workspaceParts, unifySlashes_eq_self whole,
    parts_path (List.forall_mem_cons.2 ⟨isName_workspaceName, proper⟩), List.dropWhile_cons_of_pos (by simp)]
  cases names with
  | nil => rfl
  | cons name names =>
    have notDot := (proper name (by simp)).notDot
    have other : name ≠ workspaceName := fun same => plain.first (by rw [same]; rfl)
    rw [List.dropWhile_cons_of_neg (by simp [notDot, other])]

/-- What is relied on of the canonical target of a file: judging it again judges that file, which is
inside the workspace, and it is the canonical target of no other file. -/
structure Faithful (drives : DriveRule) (workspaceRoot file : FilePath) (allowRoot : Bool)
    (canonical : Points) : Prop where
  resolved : resolveWorkspaceTarget drives canonical workspaceRoot allowRoot = .ok file
  judged : ∀ protectedRoots, checkWorkspaceTarget drives protectedRoots workspaceRoot
    (if allowRoot then .workspacePath else .workspace) canonical = requireUnprotected protectedRoots file
  inside : ∃ names, file.relativeTo workspaceRoot = some names
  stable : canonicalWorkspaceTarget drives canonical workspaceRoot allowRoot = .ok canonical
  apart : ∀ target other alsoRoot, suppliedFile drives target workspaceRoot alsoRoot = .ok other →
    canonicalWorkspaceTarget drives target workspaceRoot alsoRoot = .ok canonical → other = file

/-- Two targets with one canonical target denote one file. -/
private theorem same_file {workspaceRoot file : FilePath} {names : List Points} {target : Points}
    (below : file.names = workspaceRoot.names ++ names) {other : FilePath} {alsoRoot : Bool}
    (denotes : suppliedFile drives target workspaceRoot alsoRoot = .ok other)
    (canonical : canonicalWorkspaceTarget drives target workspaceRoot alsoRoot =
      .ok (path (workspaceName :: names))) : other = file := by
  obtain ⟨found, others, supplied, among, same⟩ := canonical_ok_iff.1 canonical
  obtain rfl : found = other := Except.ok.inj (supplied.symm.trans denotes)
  have named : ∀ {file : FilePath} {names}, file.names = workspaceRoot.names ++ names →
      ∀ name ∈ workspaceName :: names, IsName name := by
    intro file names below
    rw [List.forall_mem_cons]
    exact ⟨isName_workspaceName, fun name member =>
      file.proper name (by rw [below]; exact List.mem_append_right _ member)⟩
  have equal := path_injective (named below) (named among) same
  rw [List.cons.injEq] at equal
  exact FilePath.ext (by rw [among, below, equal.2])

/-- The canonical target of an accepted target stands for the denoted file exactly where no directory
named like the workspace comes first below the root and no name has the other separator. -/
theorem canonical_target_faithful_iff {drives : DriveRule} {target canonical : Points}
    {workspaceRoot file : FilePath} {allowRoot : Bool}
    (denotes : suppliedFile drives target workspaceRoot allowRoot = .ok file)
    (accepted : canonicalWorkspaceTarget drives target workspaceRoot allowRoot = .ok canonical) :
    Faithful drives workspaceRoot file allowRoot canonical ↔
      ∀ names, file.relativeTo workspaceRoot = some names → PlainNames names := by
  obtain ⟨found, names, supplied, below, rfl⟩ := canonical_ok_iff.1 accepted
  obtain rfl : found = file := Except.ok.inj (supplied.symm.trans denotes)
  have only : found.relativeTo workspaceRoot = some names := FilePath.relativeTo_eq_some_iff.2 below
  constructor
  · intro faithful others among
    obtain ⟨parts, -⟩ := resolve_ok faithful.resolved
    rw [FilePath.relativeTo_eq_some_iff.1 among] at parts
    rw [List.append_cancel_left parts]
    exact plainNames_workspaceParts _
  · intro plain
    have proper : ∀ name ∈ names, IsName name := fun name member =>
      found.proper name (by rw [below]; exact List.mem_append_right _ member)
    have again := workspaceParts_canonical proper (plain names only)
    obtain ⟨visible, relative, below'⟩ := @canonical_shape drives names
    have named : names = [] → allowRoot = true := by
      rintro rfl
      rw [List.append_nil] at below
      obtain rfl := FilePath.ext below
      exact supplied_root denotes
    have resolved := resolve_of_parts visible relative (by rw [again]; exact below)
      (by rw [again]; exact named) (by rw [again]; exact supplied_writable supplied below)
    constructor
    · exact resolved
    · intro protectedRoots
      cases allowRoot with
      | false => exact congrArg (· >>= requireUnprotected protectedRoots) resolved
      | true => exact congrArg (· >>= requireUnprotected protectedRoots) resolved
    · exact ⟨names, only⟩
    · apply canonical_ok_iff.2
      refine ⟨found, names, ?_, below, rfl⟩
      have seen : (path (workspaceName :: names)).all blankPoint ≠ true := by simp [visible]
      rw [suppliedFile, refuseIf_of_not seen, ok_bind, if_neg below', resolved]
    · intro other file' alsoRoot denotes' accepted'
      exact same_file below denotes' accepted'

private def site : FilePath := FilePath.root.join [ofString "/srv/w"]

theorem canonical_target_faithful_note : ∃ file,
    Faithful .letters site file false (ofString "workspace/notes/a.txt") := by
  have denotes : suppliedFile .letters (ofString "notes//./a.txt") site false =
      .ok (site.join [ofString "notes/a.txt"]) := by decide +kernel
  refine ⟨site.join [ofString "notes/a.txt"], ?_⟩
  apply (canonical_target_faithful_iff denotes (by decide +kernel)).2
  intro names below
  obtain rfl : [ofString "notes", ofString "a.txt"] = names :=
    Option.some.inj ((by decide +kernel : (site.join [ofString "notes/a.txt"]).relativeTo site =
      some [ofString "notes", ofString "a.txt"]).symm.trans below)
  constructor
  · decide
  · decide

/-- Below a real directory with the name that stands for the workspace another file is judged. -/
theorem workspace_directory_confused :
    suppliedFile .letters (ofString "/srv/w/workspace/notes") site false =
        .ok (site.join [ofString "workspace/notes"]) ∧
      canonicalWorkspaceTarget .letters (ofString "/srv/w/workspace/notes") site false =
        .ok (ofString "workspace/workspace/notes") ∧
      resolveWorkspaceTarget .letters (ofString "workspace/workspace/notes") site false =
        .ok (site.join [ofString "notes"]) ∧
      canonicalWorkspaceTarget .letters (ofString "workspace/workspace/notes") site false =
        .ok (ofString "workspace/notes") ∧
      site.join [ofString "notes"] ≠ site.join [ofString "workspace/notes"] := by
  decide +kernel

end DefiantHarness
