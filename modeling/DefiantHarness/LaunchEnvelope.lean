import DefiantHarness.RuntimeArtifacts

/-! The environment and the working directory that a local server is launched with. -/
namespace DefiantHarness

open Foundation Points

namespace LaunchEnvelope

open TrustState (isHash strip record textData)
open RuntimeArtifacts (Sha256 pathHash isWithin)

/-- The Unicode tables behind `str.casefold` and `str.upper`, which map each code point for itself,
and `repr` of a text. -/
structure TextTables where
  foldPoint : CodePoint → Points
  upperPoint : CodePoint → Points
  repr : Points → Points
  fold_ascii : ∀ c : Char, c.toNat < 128 → foldPoint (.ofChar c) = [.ofChar c.toLower]
  upper_ascii : ∀ c : Char, c.toNat < 128 → upperPoint (.ofChar c) = [.ofChar c.toUpper]

namespace TextTables

variable (tables : TextTables)

def casefold (s : Points) : Points := s.flatMap tables.foldPoint

def upper (s : Points) : Points := s.flatMap tables.upperPoint

end TextTables

def unsafeEnvironmentVariables : List Points := [
  "BASH_ENV", "CDPATH", "CLASSPATH", "COMSPEC", "CURL_CA_BUNDLE", "DYLD_FRAMEWORK_PATH",
  "DYLD_INSERT_LIBRARIES", "DYLD_LIBRARY_PATH", "ENV", "GCONV_PATH", "GLIBC_TUNABLES", "GEM_HOME",
  "GEM_PATH", "HTTP_PROXY", "HTTPS_PROXY", "IFS", "JAVA_TOOL_OPTIONS", "JDK_JAVA_OPTIONS",
  "LD_LIBRARY_PATH", "LD_PRELOAD", "NODE_OPTIONS", "NODE_PATH", "PATH", "PERL5LIB", "PERL5OPT",
  "PSMODULEPATH", "PROMPT_COMMAND", "PYTHONBREAKPOINT", "PYTHONHOME", "PYTHONINSPECT", "PYTHONPATH",
  "PYTHONSTARTUP", "REQUESTS_CA_BUNDLE", "RUBYLIB", "RUBYOPT", "SHELLOPTS", "SSL_CERT_DIR",
  "SSL_CERT_FILE", "ZDOTDIR", "_JAVA_OPTIONS"].map ofString

def equalsSign : CodePoint := .ofChar '='
def nul : CodePoint := .ofChar '\x00'

local instance lawful_codePoint : LawfulBEq CodePoint := inferInstance

/-- `_name`. Errors are the texts of a `LaunchEnvelopeError`. -/
def checkName (field : String) (value : Points) : Except Points Points := do
  refuseIf (value = [] ∨ value ≠ strip value ∨ equalsSign ∈ value ∨ nul ∈ value)
    (ofString ("launch environment " ++ field ++ " names must be non-empty trimmed text"))
  pure value

/-- `_value` -/
def checkValue (field value : Points) : Except Points Points := do
  refuseIf (nul ∈ value) (ofString "launch environment " ++ field ++ ofString " must be a string")
  pure value

/-! ### What the operator configures -/

/-- The fields of a `LaunchEnvironmentConfig`. -/
structure LaunchFields where
  inherit : List Points
  secretEnv : List Points
  values : List (Points × Points)
  allowUnsafe : List Points

/-- Every name that gets a value. -/
def LaunchFields.names (f : LaunchFields) : List Points := f.inherit ++ f.secretEnv ++ f.values.map (·.1)

section Tables

variable (tables : TextTables)

/-- `sorted(…, key=str.casefold)` -/
def sortedByFold (names : List Points) : List Points :=
  names.insertionSort fun a b => tables.casefold a ≤ tables.casefold b

/-- The check of an acknowledged name. -/
def checkAllowed (names : List Points) (name : Points) : Except Points Unit := do
  refuseIf (tables.casefold name ∉ names.map tables.casefold)
    (ofString "allow_unsafe may name only a configured environment variable")
  refuseIf (tables.upper name ∉ unsafeEnvironmentVariables)
    (ofString "allow_unsafe contains non-sensitive variable " ++ tables.repr name)

/-- `LaunchEnvironmentConfig.__post_init__` -/
def LaunchFields.postInit (f : LaunchFields) : Except Points LaunchFields := do
  let inherited ← f.inherit.mapM (checkName "inherit")
  let secrets ← f.secretEnv.mapM (checkName "secret_env")
  let values ← f.values.mapM fun entry => do
    let name ← checkName "set" entry.1
    let value ← checkValue (ofString "set." ++ name) entry.2
    pure (name, value)
  let allowed ← f.allowUnsafe.mapM (checkName "allow_unsafe")
  let names := inherited ++ secrets ++ values.map (·.1)
  -- two spellings of one name count as one source twice
  refuseIf (¬ (names.map tables.casefold).Nodup)
    (ofString "launch environment variable sources must not overlap")
  refuseIf (¬ (allowed.map tables.casefold).Nodup) (ofString "allow_unsafe entries must be unique")
  checkAll (checkAllowed tables names) allowed
  pure {
    inherit := sortedByFold tables inherited
    secretEnv := sortedByFold tables secrets
    values := values.insertionSort fun a b => tables.casefold a.1 ≤ tables.casefold b.1
    allowUnsafe := sortedByFold tables allowed }

/-- Fields as construction leaves them. -/
structure LaunchEnvironmentConfig where
  fields : LaunchFields
  built : ∃ given : LaunchFields, given.postInit tables = .ok fields

/-! ### The result -/

inductive Mode where
  | restricted
  | inheritedUnrestricted
  | remoteNotApplicable
deriving DecidableEq

structure LaunchEnvelopeAssurance where
  mode : Mode
  environmentHash : Option Points
  variableCount : Nat
  secretCount : Nat
  unsafeCount : Nat
  cwdHash : Option Points
  environment : Option (Dict Points Points)
  cwd : Option (List Points)
  cwdIdentity : Option (Int × Int)

/-- The names among these that count as unsafe. -/
def unsafeAmong (names : List Points) : List Points :=
  names.filter fun name => tables.upper name ∈ unsafeEnvironmentVariables

/-- The loop over the variables of the environment, with the case-folded names seen before. -/
def checkEffective : List Points → List (Sigma fun _ : Points => Points) → Except Points Unit
  | _, [] => pure ()
  | folded, entry :: rest => do
    let name ← checkName "effective" entry.1
    let _ ← checkValue (ofString "effective." ++ name) entry.2
    refuseIf (tables.casefold name ∈ folded)
      (ofString "effective environment variable names must be unique")
    checkEffective (tables.casefold name :: folded) rest

/-- `LaunchEnvelopeAssurance.__post_init__`. The mapping that replaces the environment has its
entries. -/
def LaunchEnvelopeAssurance.checked (a : LaunchEnvelopeAssurance) :
    Except Points LaunchEnvelopeAssurance := do
  refuseIf (∃ digest ∈ a.environmentHash, isHash digest = false)
    (ofString "environment_hash is not a sha256 identifier")
  refuseIf (∃ digest ∈ a.cwdHash, isHash digest = false) (ofString "cwd_hash is not a sha256 identifier")
  refuseIf (a.variableCount < a.secretCount ∨ a.variableCount < a.unsafeCount)
    (ofString "launch envelope counts are inconsistent")
  if a.mode = .remoteNotApplicable then do
    refuseIf (a.variableCount ≠ 0 ∨ a.secretCount ≠ 0 ∨ a.unsafeCount ≠ 0 ∨ a.environmentHash ≠ none ∨
      a.cwdHash ≠ none ∨ a.environment ≠ none ∨ a.cwd ≠ none ∨ a.cwdIdentity ≠ none)
      (ofString "remote launch envelope must be empty")
    pure a
  else do
    let environment ← orRefuse a.environment (ofString "local launch envelope is incomplete")
    refuseIf (a.cwd = none ∨ a.cwdIdentity = none) (ofString "local launch envelope is incomplete")
    refuseIf (a.cwdHash = none) (ofString "local launch envelope requires a cwd hash")
    checkEffective tables [] environment.entries
    refuseIf (environment.entries.length ≠ a.variableCount)
      (ofString "launch envelope variable count is inconsistent")
    refuseIf ((unsafeAmong tables environment.keys).length ≠ a.unsafeCount)
      (ofString "launch envelope unsafe count is inconsistent")
    refuseIf (a.mode = .restricted ∧ a.environmentHash = none)
      (ofString "restricted launch envelope is incomplete")
    refuseIf (a.mode = .inheritedUnrestricted ∧ (a.environmentHash ≠ none ∨ a.secretCount ≠ 0))
      (ofString "unrestricted launch envelope is inconsistent")
    pure a

end Tables

/-! ### Building the envelope -/

inductive Source where
  | inherit
  | secretEnv
  | set
deriving DecidableEq

def Source.text : Source → String
  | .inherit => "inherit"
  | .secretEnv => "secret_env"
  | .set => "set"

/-- One line of the manifest, with the value that its hash is taken of. -/
structure Observation where
  name : Points
  source : Source
  value : Option Points
deriving DecidableEq

def Observation.toDict (sha : Sha256) (o : Observation) : Data := .obj (record [
  ("name", .str o.name), ("source", textData o.source.text),
  ("value_hash", (o.value.map fun v => Data.str (sha.of (.str v))).getD .null)])

/-- The environment and the observations that the loops fill. -/
structure EnvelopeParts where
  effective : Dict Points Points
  observations : List Observation

/-- The names of a host's environment, and its values; names of the same letters in another case are
other variables. -/
structure ParentEnvironment where
  source : Dict Points Points
  names : ∀ e ∈ source.entries, equalsSign ∉ e.1 ∧ nul ∉ e.1
  values : ∀ e ∈ source.entries, nul ∉ e.2

section Build

variable (tables : TextTables) (sha : Sha256) (host : Host) (identity : List Points → Int × Int)
  (stateRoot : FilePath)

/-- `_resolve_cwd` -/
def resolveCwd (cwd : Option Points) (restricted : Bool) : Except Points (List Points) := do
  refuseIf (restricted = true ∧ cwd = none)
    (ofString "restricted launch environment requires an explicit server.cwd")
  -- without a configured directory the child starts where the harness runs
  let candidate := (cwd.map host.absoluteParts).getD host.cwd.names
  refuseIf (host.pathHasLink [] candidate = true)
    (ofString "launch working directory must not be a symlink")
  let resolved ← orRefuse (host.resolveStrict [] candidate)
    (ofString "launch working directory is missing or inaccessible")
  refuseIf ((host.lstat resolved).any Node.isDirectory = false)
    (ofString "launch working directory must be a directory")
  refuseIf (isWithin resolved stateRoot.names = true)
    (ofString "launch working directory must be outside mutable harness state")
  pure resolved

/-- The variables of the parent by their case-folded names; of several, the last one. -/
def byFolded (parent : ParentEnvironment) : Dict Points (Points × Points) :=
  parent.source.entries.foldl (fun d e => d.set (tables.casefold e.1) (e.1, e.2)) ∅

/-- The body of the loop over the inherited and the secret names. -/
def inheritVariable (f : LaunchFields) (parent : Dict Points (Points × Points)) (s : EnvelopeParts)
    (name : Points) : Except Points EnvelopeParts := do
  let found ← orRefuse (parent.lookup (tables.casefold name))
    (ofString "required parent environment variable " ++ tables.repr name ++ ofString " is not set")
  let value ← checkValue name found.2
  let secret := decide (tables.casefold name ∈ f.secretEnv.map tables.casefold)
  refuseIf (secret = true ∧ value = [])
    (ofString "required secret environment variable " ++ tables.repr name ++ ofString " is empty")
  pure ⟨s.effective.set name value,
    -- a secret's value is used and not observed
    s.observations ++ [⟨name, if secret then .secretEnv else .inherit, if secret then none else some value⟩]⟩

/-- The body of the loop over the literal values. -/
def setVariable (s : EnvelopeParts) (entry : Points × Points) : EnvelopeParts :=
  ⟨s.effective.set entry.1 entry.2, s.observations ++ [⟨entry.1, .set, some entry.2⟩]⟩

/-- The names of the child that nobody acknowledged. -/
def unapproved (f : LaunchFields) (unsafeNames : List Points) : List Points :=
  unsafeNames.filter fun name => tables.casefold name ∉ f.allowUnsafe.map tables.casefold

/-- What is hashed of a restricted environment. -/
def manifest (observations : List Observation) : Data :=
  .arr ((observations.insertionSort fun a b => tables.casefold a.name ≤ tables.casefold b.name).map
    (Observation.toDict sha))

/-- `build_launch_envelope` -/
def buildLaunchEnvelope (config : Option (LaunchEnvironmentConfig tables)) (cwd : Option Points)
    (parent : ParentEnvironment) : Except Points LaunchEnvelopeAssurance := do
  let resolved ← resolveCwd host stateRoot cwd config.isSome
  let cwdHash := pathHash sha resolved
  match config with
  | none => LaunchEnvelopeAssurance.checked tables {
      mode := .inheritedUnrestricted
      environmentHash := none
      variableCount := parent.source.entries.length
      secretCount := 0
      unsafeCount := (unsafeAmong tables parent.source.keys).length
      cwdHash := some cwdHash
      environment := some parent.source
      cwd := some resolved
      cwdIdentity := some (identity resolved) }
  | some config => do
    let f := config.fields
    -- secrets are inherited like the others; the values given come last and overwrite
    let inherited ← (f.inherit ++ f.secretEnv).foldlM
      (inheritVariable tables f (byFolded tables parent)) ⟨∅, []⟩
    let parts := f.values.foldl setVariable inherited
    let unsafeNames := (unsafeAmong tables parts.effective.keys).insertionSort (· ≤ ·)
    refuseIf (unapproved tables f unsafeNames ≠ [])
      (ofString "unsafe launch environment variables require explicit allow_unsafe: " ++
        List.intercalate (ofString ", ") (unapproved tables f unsafeNames))
    LaunchEnvelopeAssurance.checked tables {
      mode := .restricted
      environmentHash := some (sha.of (manifest tables sha parts.observations))
      variableCount := parts.effective.entries.length
      secretCount := f.secretEnv.length
      unsafeCount := unsafeNames.length
      cwdHash := some cwdHash
      environment := some parts.effective
      cwd := some resolved
      cwdIdentity := some (identity resolved) }

end Build

end LaunchEnvelope

end DefiantHarness
