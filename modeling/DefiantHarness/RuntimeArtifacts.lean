import DefiantHarness.HostTree
import DefiantHarness.OperatorTrustState

/-! Content pins of a local runtime and of the closed directories that it depends on, and their
verification against the host. -/
namespace DefiantHarness

open Foundation Points

namespace RuntimeArtifacts

open TrustState (isHash strip record textData)

def maxDependencyFiles : Nat := 100000
def maxDependencyEntries : Nat := 200000

/-- What escapes: a `RuntimeArtifactError`, or an `OSError` that nothing wraps. -/
inductive Fault where
  | runtimeArtifact (message : String)
  | os
deriving DecidableEq

def fault (message : String) : Fault := .runtimeArtifact message

/-- SHA-256 of texts and of file contents, in hexadecimal digits. -/
structure Sha256 where
  text : TextHash
  bytes : List UInt8 → String
  text_formed : ∀ t, isHash (ofString ("sha256:" ++ text t)) = true
  bytes_formed : ∀ content, isHash (ofString ("sha256:" ++ bytes content)) = true

/-- `sha256_of` -/
def Sha256.of (sha : Sha256) (x : Data) : Points := TrustState.sha256Of sha.text x

/-- `_file_hash` of a file with this content. -/
def Sha256.fileHash (sha : Sha256) (content : List UInt8) : Points :=
  ofString ("sha256:" ++ sha.bytes content)

/-- `str` of a resolved path. -/
def pathText (names : List Points) : Points := slash :: path names

def pathHash (sha : Sha256) (names : List Points) : Points := sha.of (.str (pathText names))

/-- `_is_within` -/
def isWithin (names root : List Points) : Bool := root.isPrefixOf names

/-! ### What the operator pins -/

def roleChars : Points := ofString "abcdefghijklmnopqrstuvwxyz0123456789_-"

structure RuntimeArtifactPin where
  role : Points
  path : Points
  sha256 : Points
  named : role ≠ [] ∧ role = strip role ∧ ∀ c ∈ role, c ∈ roleChars
  formed : isHash sha256 = true

/-- `_relative_manifest_path` -/
def relativeManifestPath (value : Points) : Except Fault Points := do
  refuseIf (value = [] ∨ value ≠ strip value ∨ CodePoint.ofChar '\x00' ∈ value)
    (fault "dependency file path must be non-empty")
  refuseIf (backslash ∈ value) (fault "dependency file path must use '/' separators")
  refuseIf (value.head? = some slash ∨ parts value = [] ∨ value ≠ path (parts value) ∨
      ∃ part ∈ parts value, part = [] ∨ part = dot ∨ part = dotdot)
    (fault "dependency file path must be canonical and relative")
  pure value

structure RuntimeDependencyFilePin where
  path : Points
  sha256 : Points
  relative : relativeManifestPath path = .ok path
  formed : isHash sha256 = true

structure RuntimeDependencyRoot where
  path : Points
  files : List RuntimeDependencyFilePin
  some : files ≠ []
  bounded : files.length ≤ maxDependencyFiles
  unique : (files.map (·.path)).Nodup

/-! ### The result -/

inductive Mode where
  | required
  | closed
  | unverified
  | remoteNotApplicable
deriving DecidableEq

structure RuntimeArtifactAssurance where
  mode : Mode
  bundleHash : Option Points
  artifactCount : Nat
  executablePinned : Bool
  command : List Points
  dependencyRootCount : Nat := 0
  dependencyFileCount : Nat := 0

/-- `RuntimeArtifactAssurance.__post_init__` -/
def RuntimeArtifactAssurance.checked (a : RuntimeArtifactAssurance) :
    Except Fault RuntimeArtifactAssurance := do
  refuseIf (∃ digest ∈ a.bundleHash, isHash digest = false)
    (fault "bundle_hash is not a sha256 identifier")
  refuseIf (a.mode = .required ∧
      (a.bundleHash = none ∨ a.artifactCount < 1 ∨ a.executablePinned = false))
    (fault "required artifact assurance is incomplete")
  refuseIf (a.mode = .closed ∧
      (a.bundleHash = none ∨ a.artifactCount < 1 ∨ a.executablePinned = false ∨
        a.dependencyRootCount < 1 ∨ a.dependencyFileCount < 1))
    (fault "closed artifact assurance is incomplete")
  refuseIf (a.mode ≠ .closed ∧ (a.dependencyRootCount ≠ 0 ∨ a.dependencyFileCount ≠ 0))
    (fault "dependency counts are only valid in closed artifact mode")
  pure a

def unverifiedArtifacts (command : List Points) : RuntimeArtifactAssurance :=
  ⟨.unverified, none, 0, false, command, 0, 0⟩

/-! ### Observations -/

/-- A pinned file as it was verified. -/
structure VerifiedArtifact where
  role : Points
  resolved : List Points
  content : List UInt8
deriving DecidableEq

def VerifiedArtifact.fields (sha : Sha256) (a : VerifiedArtifact) : List (String × Data) := [
  ("role", .str a.role), ("path_hash", .str (pathHash sha a.resolved)),
  ("content_hash", .str (sha.fileHash a.content)), ("size_bytes", .int a.content.length)]

/-- A file of a dependency root as it was verified. -/
structure VerifiedDependency where
  root : List Points
  relative : Points
  content : List UInt8
deriving DecidableEq

def VerifiedDependency.fields (sha : Sha256) (d : VerifiedDependency) : List (String × Data) := [
  ("kind", textData "dependency"), ("root_hash", .str (pathHash sha d.root)),
  ("relative_path", .str d.relative), ("content_hash", .str (sha.fileHash d.content)),
  ("size_bytes", .int d.content.length)]

/-- The document whose hash stands for the bundle. -/
def bundleObservations (sha : Sha256) (artifacts : List VerifiedArtifact)
    (dependencies : List VerifiedDependency) : Data :=
  if dependencies = [] then .arr (artifacts.map fun a => .obj (record (a.fields sha)))
  else .arr ((artifacts.map fun a => .obj (record (("kind", textData "artifact") :: a.fields sha))) ++
    dependencies.map fun d => .obj (record (d.fields sha)))

/-! ### The inventory of a root -/

/-- The locals of `_inventory_dependency_root`; the last directory of the stack comes first. -/
structure Inventory where
  files : List Points
  entryCount : Nat
  stack : List (List Points × List Points)

section Verification

variable (sha : Sha256) (host : Host)

/-- The body of the loop over the entries of a directory. -/
def scanEntry (directory relativeDir : List Points) (s : Inventory) (name : Points) :
    Except Fault Inventory := do
  let entryCount := s.entryCount + 1
  refuseIf (maxDependencyEntries < entryCount) (fault "dependency root has too many entries")
  let relative := relativeDir ++ [name]
  match host.lstat (directory ++ [name]) with
  | none => throw (fault "dependency entry is inaccessible during inventory")
  | some .link => throw (fault "dependency root must not contain links")
  -- only pushed: it is opened when the loop reaches it
  | some (.directory _) => pure ⟨s.files, entryCount, (directory ++ [name], relative) :: s.stack⟩
  | some (.file _ links) => do
    -- another name of the file could change it from outside the root
    refuseIf (links ≠ 1) (fault "dependency root must not contain hard links")
    let normalized := path relative
    refuseIf (normalized ∈ s.files) (fault "dependency root contains duplicate canonical paths")
    let files := normalized :: s.files
    refuseIf (maxDependencyFiles < files.length) (fault "dependency root has too many files")
    pure ⟨files, entryCount, s.stack⟩
  | some .other => throw (fault "dependency root contains a non-regular entry")

/-- The loop over the stack. Only an entry that was counted is pushed, so that the ceiling on entries
bounds the number of turns. -/
def inventoryLoop : Nat → Inventory → Except Fault (List Points)
  -- one turn for each directory, and directories count as entries
  | 0, _ => throw (fault "dependency root has too many entries")
  | turns + 1, s =>
    match s.stack with
    | [] => pure s.files
    | (directory, relativeDir) :: stack =>
      match host.lstat directory with
      | some (.directory entries) => do
        let s ← (entries.map (·.1.text)).foldlM (scanEntry host directory relativeDir) { s with stack }
        inventoryLoop turns s
      | _ => throw (fault "cannot inventory dependency root")

/-- `_inventory_dependency_root` -/
def inventoryDependencyRoot (root : List Points) : Except Fault (List Points) :=
  inventoryLoop host (maxDependencyEntries + 2) ⟨[], 0, [(root, [])]⟩

/-! ### Dependency roots -/

variable (stateRoot : FilePath)

/-- The first loop of `_verify_dependency_roots`. -/
def resolveRoot (root : RuntimeDependencyRoot) : Except Fault (List Points) := do
  let source := host.absoluteParts root.path
  refuseIf (host.pathHasLink [] source = true) (fault "dependency root must not contain links")
  let resolved ← orRefuse (host.resolveStrict [] source)
    (fault "dependency root is missing or inaccessible")
  refuseIf ((host.lstat resolved).any Node.isDirectory = false)
    (fault "dependency root must be a directory")
  -- neither inside the other
  refuseIf (isWithin resolved stateRoot.names = true ∨ isWithin stateRoot.names resolved = true)
    (fault "dependency roots and mutable harness state must not overlap")
  pure resolved

/-- The body of the loop over the files of a root. -/
def verifyDependencyFile (resolved : List Points) (pin : RuntimeDependencyFilePin) :
    Except Fault VerifiedDependency := do
  let candidate := resolved ++ parts pin.path
  refuseIf (host.pathHasLink [] candidate = true) (fault "dependency files must not contain links")
  let canonicalFile ← orRefuse (host.resolveStrict [] candidate)
    (fault "dependency file disappeared during verification")
  -- a link in the way would lead out of the root
  refuseIf (isWithin canonicalFile resolved = false) (fault "dependency file escapes its root")
  match host.lstat candidate with
  | none => throw (fault "dependency file is inaccessible during verification")
  | some (.file content 1) => do
    refuseIf (sha.fileHash content ≠ pin.sha256) (fault "dependency file digest mismatch")
    pure ⟨resolved, pin.path, content⟩
  | some _ => throw (fault "dependency file must be a regular file")

/-- The body of the loop over the resolved roots. -/
def verifyDependencyRoot (item : List Points × RuntimeDependencyRoot) :
    Except Fault (List VerifiedDependency) := do
  let expectedPaths := item.2.files.map (·.path)
  let observedPaths ← inventoryDependencyRoot host item.1
  -- the inventory is compared before any digest
  let added := (observedPaths.filter (· ∉ expectedPaths)).length
  let missing := (expectedPaths.filter (· ∉ observedPaths)).length
  refuseIf (added ≠ 0 ∨ missing ≠ 0) (fault ("dependency root inventory mismatch (" ++
    toString added ++ " added, " ++ toString missing ++ " missing)"))
  (item.2.files.insertionSort fun f g => f.path ≤ g.path).mapM
    (verifyDependencyFile sha host item.1)

/-- `_verify_dependency_roots` -/
def verifyDependencyRoots (roots : List RuntimeDependencyRoot) :
    Except Fault (List VerifiedDependency) := do
  let canonical ← roots.mapM (resolveRoot host stateRoot)
  refuseIf (¬ canonical.Nodup) (fault "dependency root paths must be unique")
  refuseIf (¬ canonical.Pairwise fun left right =>
      isWithin left right = false ∧ isWithin right left = false)
    (fault "dependency roots must not overlap")
  let observations ← ((canonical.zip roots).insertionSort fun a b => pathText a.1 ≤ pathText b.1).mapM
    (verifyDependencyRoot sha host)
  pure observations.flatten

/-! ### The whole bundle -/

/-- The body of the loop over the pins, with what has passed before. -/
def verifyPin (passed : List VerifiedArtifact) (pin : RuntimeArtifactPin) :
    Except Fault (List VerifiedArtifact) := do
  let named := "artifact '" ++ String.ofList (pin.role.map fun c => Char.ofNat c.val) ++ "'"
  let source := host.absoluteParts pin.path
  refuseIf (host.pathHasLink [] source = true) (fault (named ++ " must not be a symlink"))
  let resolved ← orRefuse (host.resolveStrict [] source)
    (fault (named ++ " is missing or inaccessible"))
  match host.lstat resolved with
  | some (.file content _) => do
    -- two roles may not pin one file
    refuseIf (resolved ∈ passed.map (·.resolved))
      (fault "artifact paths must be unique after canonical resolution")
    refuseIf (isWithin resolved stateRoot.names = true)
      (fault (named ++ " must be outside mutable harness state"))
    refuseIf (sha.fileHash content ≠ pin.sha256) (fault (named ++ " digest mismatch"))
    pure (passed ++ [⟨pin.role, resolved, content⟩])
  | _ => throw (fault (named ++ " must be a regular file"))

variable (which : Points → Option Points)

/-- `_resolve_command_executable` -/
def resolveCommandExecutable (value : Points) (cwd : Option Points) : Except Fault (List Points) :=
  if value.head? = some slash then
    orRefuse (host.resolveStrict [] (host.absoluteParts value))
      (fault "server.command executable is missing")
  -- a relative path is relative to the server's directory
  else if 2 ≤ (parts value).length then
    let directory := (cwd.map host.absoluteParts).getD host.cwd.names
    orRefuse (host.resolveStrict [] (directory ++ parts value))
      (fault "server.command executable is missing")
  else do
    -- a bare name is looked up as the shell would
    let found ← orRefuse ((which value).filter (· ≠ []))
      (fault "server.command executable cannot be resolved")
    orRefuse (host.resolveStrict [] (host.absoluteParts found)) .os

def executableRole : Points := ofString "executable"

/-- `verify_runtime_artifacts` -/
def verifyRuntimeArtifacts (command : List Points) (pins : List RuntimeArtifactPin)
    (cwd : Option Points) (dependencyRoots : List RuntimeDependencyRoot) :
    Except Fault RuntimeArtifactAssurance := do
  refuseIf (pins = [] ∧ dependencyRoots ≠ []) (fault "dependency roots require artifact pins")
  if pins = [] then (unverifiedArtifacts command).checked
  else do
    let program ← orRefuse command.head? (fault "artifact pins require a local command")
    refuseIf (¬ (pins.map (·.role)).Nodup) (fault "artifact roles must be unique")
    refuseIf (∀ pin ∈ pins, pin.role ≠ executableRole)
      (fault "artifact pins require exactly one executable role")
    -- the roles are checked before any file is opened
    let artifacts ← pins.foldlM (verifyPin sha host stateRoot) []
    let executable ← orRefuse (artifacts.find? (·.role == executableRole))
      (fault "artifact pins require exactly one executable role")
    let configured ← resolveCommandExecutable host which program cwd
    refuseIf (configured ≠ executable.resolved)
      (fault "server.command executable does not resolve to the pinned executable")
    let artifacts := artifacts.insertionSort fun a b => a.role ≤ b.role
    let dependencies ← verifyDependencyRoots sha host stateRoot dependencyRoots
    RuntimeArtifactAssurance.checked {
      mode := if dependencyRoots = [] then .required else .closed
      bundleHash := some (sha.of (bundleObservations sha artifacts dependencies))
      artifactCount := artifacts.length + dependencies.length
      executablePinned := true
      -- what is run is the file that was hashed, not the name it was found by
      command := pathText executable.resolved :: command.tail
      dependencyRootCount := dependencyRoots.length
      dependencyFileCount := dependencies.length }

end Verification

end RuntimeArtifacts

end DefiantHarness
