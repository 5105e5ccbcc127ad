import DefiantHarness.OperatorTrustState
import DefiantHarness.PolicyMatching
import DefiantHarness.WorkspaceTarget

/-! Native tool hooks: the paths that a tool input names, the one target that policy and registry judge
for all of them, and the paths that this hides. -/
namespace DefiantHarness

open Foundation Points

/-! ### Texts -/

def replacePoint (old new : CodePoint) (s : Points) : Points :=
  s.map fun c => if c = old then new else c

/-- The characters that end a line. -/
def endsLine (c : CodePoint) : Bool :=
  [0x0a, 0x0b, 0x0c, 0x0d, 0x1c, 0x1d, 0x1e, 0x85, 0x2028, 0x2029].contains c.val

/-- The lines of a text; a line feed after a carriage return belongs to the same end. -/
def splitLinesFrom (afterReturn : Bool) (line : Points) : Points → List Points
  | [] => if line = [] then [] else [line]
  | c :: s =>
    if afterReturn && c.val == 0x0a then splitLinesFrom false line s
    else if endsLine c then line :: splitLinesFrom (c.val == 0x0d) [] s
    else splitLinesFrom false (line ++ [c]) s

def splitLines (s : Points) : List Points := splitLinesFrom false [] s

example : splitLines (ofString "a\r\n\nb") = [ofString "a", [], ofString "b"] := by decide

def removePrefix (start s : Points) : Points := if start <+: s then s.drop start.length else s

def spellings (names : List String) : List Points := names.map ofString

/-! ### Native tools -/

def readTools : List Points := spellings ["read", "view", "readfile", "read_file", "read_file_code"]

def writeTools : List Points := spellings ["write", "edit", "create", "apply_patch", "editfiles",
  "create_file", "replace_string_in_file", "multi_replace_string_in_file", "insert_edit_into_file",
  "notebookedit", "str_replace_editor"]

def searchTools : List Points := spellings ["grep", "glob", "rg", "search", "filesearch", "file_search",
  "semanticsearch", "semantic_search", "listdirectory", "list_dir", "codebase"]

def webTools : List Points := spellings ["webfetch", "web_fetch", "websearch", "web_search", "fetch"]

def controlTools : List Points := spellings ["askuserquestion", "ask_user", "request_user_input",
  "todowrite", "update_todo", "update_plan", "thinking"]

def terminalTools : List Points := spellings ["bash", "powershell", "runinterminal", "run_in_terminal",
  "terminal", "execute", "runcommand", "runcommands"]

def agentTools : List Points := spellings ["agent", "task", "subagent", "spawn_agent", "runsubagent",
  "run_subagent"]

def defiantMcpPrefixes : List Points := spellings ["defiant_filesystem_", "mcp__defiant_filesystem__"]

def defiantMcpTools : List Points := spellings ["read_text_file", "read_media_file", "list_directory",
  "list_directory_with_sizes", "directory_tree", "search_files", "get_file_info",
  "list_allowed_directories", "write_file", "create_directory", "edit_file"]

/-- What a native tool is for the harness: policy name, side effect and target scope. -/
structure NativeTool where
  name : Points
  sideEffect : SideEffect
  scope : TargetScope
deriving DecidableEq

def readFile : NativeTool := ⟨ofString "read_file", .none, .workspace⟩

def writeFile : NativeTool := ⟨ofString "write_file", .localWrite, .workspace⟩

def searchNative : NativeTool := ⟨ofString "search_native", .none, .workspacePath⟩

def pathKeys : List Points := spellings ["file", "file_path", "filepath", "notebook_path", "notebookpath",
  "path", "paths", "target"]

def pathContainerKeys : List Points := spellings ["edits", "files", "items", "replacements"]

def patchPathPrefixes : List Points := spellings ["*** Add File: ", "*** Delete File: ",
  "*** Update File: ", "*** Move to: "]

def protectedTargets : List Points := spellings ["workspace/.mcp.json", "workspace/.vscode/mcp.json"]

def protectedTargetPrefixes : List Points := spellings ["workspace/.codex/", "workspace/.dah-codex-hooks/",
  "workspace/.dah-codex-mcp/", "workspace/.dah-hooks/", "workspace/.git/", "workspace/.github/hooks/",
  "workspace/scripts/", "workspace/src/defiant_agent_harness/"]

def isProtectedTarget (target : Points) : Bool :=
  protectedTargets.contains target || protectedTargetPrefixes.any fun start => start.isPrefixOf target

/-- The policy packs that the gates load. -/
inductive HookPack where
  | copilot | codex
deriving DecidableEq, Repr

def HookPack.targets : HookPack → List Points
  | .copilot => spellings ["workspace/.mcp.json", "workspace/.vscode/mcp.json", "workspace/.codex/*",
    "workspace/.github/hooks/*", "workspace/.dah-hooks/*", "workspace/.dah-codex-hooks/*",
    "workspace/.dah-codex-mcp/*", "workspace/.git/*", "workspace/examples/filesystem/mcp-proxy.yaml",
    "workspace/scripts/*", "workspace/src/defiant_agent_harness/*"]
  | .codex => spellings ["workspace/.codex/*", "workspace/.dah-codex-hooks/*", "workspace/.dah-codex-mcp/*",
    "workspace/.git/*", "workspace/.mcp.json", "workspace/.vscode/mcp.json",
    "workspace/.github/hooks/*", "workspace/examples/filesystem/mcp-proxy.yaml",
    "workspace/scripts/*", "workspace/src/defiant_agent_harness/*"]

def HookPack.ruleId : HookPack → String
  | .copilot => "hook_block_guardrail_mutation"
  | .codex => "codex_hook_block_guardrail_mutation"

def HookPack.description : HookPack → String
  | .copilot => "The governed agent cannot rewrite its own enforcement layer."
  | .codex => "The governed Codex session cannot rewrite its enforcement layer."

def HookPack.reason : HookPack → String
  | .copilot => "Defiant hook enforcement files are operator-controlled and immutable."
  | .codex => "Defiant Codex enforcement files are operator-controlled and immutable."

/-- The one rule of a pack. -/
def HookPack.rule (pack : HookPack) : Durable.Rule where
  id := ofString pack.ruleId
  description := ofString pack.description
  tools := spellings ["write_file"]
  sideEffectAtLeast := none
  targets := pack.targets
  payloadContains := []
  maxPayloadTrust := none
  sensitivities := []
  effect := .block
  reason := ofString pack.reason
  approvalScope := []
  redactions := []
  visible := by cases pack <;> decide
  spelled := by cases pack <;> decide

/-- One opened hook gate. `rules` and `drives` are what the interpreter does with texts and paths. -/
structure HookGate where
  drives : DriveRule
  workspaceRoot : FilePath
  protectedRoots : List FilePath
  pack : HookPack
  rules : TextRules

namespace HookGate

variable (gate : HookGate)

def normalizedToolName (name : Points) : Points :=
  gate.rules.lower ((replacePoint (.ofChar '-') (.ofChar '_') (TrustState.strip name)).filter
    (· != .ofChar ' '))

/-- The canonical policy name, side effect and target scope of a native tool. -/
def classifyNativeTool (name : Points) : NativeTool :=
  let normalized := gate.normalizedToolName name
  if defiantMcpPrefixes.any fun start =>
      start.isPrefixOf normalized && defiantMcpTools.contains (removePrefix start normalized) then
    ⟨ofString "proxied_mcp", .none, .any⟩
  else if readTools.contains normalized then readFile
  else if writeTools.contains normalized then writeFile
  else if searchTools.contains normalized then searchNative
  else if webTools.contains normalized then ⟨ofString "search_web", .none, .any⟩
  else if controlTools.contains normalized then ⟨ofString "agent_control", .none, .any⟩
  else if terminalTools.contains normalized then ⟨ofString "native_terminal", .destructive, .any⟩
  else if agentTools.contains normalized then ⟨ofString "native_agent", .destructive, .any⟩
  -- a tool that no table lists is taken for the worst
  else ⟨ofString "native_unknown", .destructive, .any⟩

/-- A text that is not blank. -/
def shown : Data → Option Points
  | .str s => if s.all blankPoint then none else some s
  | _ => none

/-- The paths directly under a key for paths. -/
def directPaths : Data → List Points
  | .arr items => items.filterMap shown
  | value => (shown value).toList

mutual

/-- The paths that a value names, under the key of the container it stands in. -/
def pathCandidates (parentKey : Points) : Data → List Points
  | .obj fields => fieldCandidates fields
  | .arr items => if pathContainerKeys.contains parentKey then itemCandidates parentKey items else []
  | _ => []

def fieldCandidates : List (Points × Data) → List Points
  | [] => []
  | (key, child) :: fields =>
    let normalized := gate.rules.lower (replacePoint (.ofChar '-') (.ofChar '_') key)
    (if pathKeys.contains normalized then directPaths child else []) ++
      (if pathContainerKeys.contains normalized then pathCandidates normalized child else []) ++
      fieldCandidates fields

def itemCandidates (parentKey : Points) : List Data → List Points
  | [] => []
  | child :: items =>
    (match shown child with
      | some s => [s]
      | none => pathCandidates parentKey child) ++ itemCandidates parentKey items

end

/-- The file that a line of a patch names. -/
def patchPath (rawLine : Points) : Option Points :=
  let line := TrustState.strip rawLine
  match patchPathPrefixes.find? fun start => start.isPrefixOf line with
  | none => none
  | some start =>
    let candidate := TrustState.strip (removePrefix start line)
    if candidate = [] then none else some candidate

def patchPathCandidates (command : Points) : List Points := (splitLines command).filterMap patchPath

/-- All paths that a tool input names, those of a patch first. -/
def candidates (nativeName : Points) (toolInput : List Field) : List Points :=
  let found := gate.pathCandidates [] (.obj toolInput)
  if gate.normalizedToolName nativeName = ofString "apply_patch" then
    match fieldAt (ofString "command") toolInput with
    | some (.str command) => patchPathCandidates command ++ found
    | _ => found
  else found

def allowRoot (scope : TargetScope) : Bool := scope == .workspacePath

def canonical (scope : TargetScope) (candidate : Points) : Except HarnessError Points :=
  canonicalWorkspaceTarget gate.drives candidate gate.workspaceRoot (allowRoot scope)

/-- The canonical targets of the paths, and the paths that are no workspace targets. Other errors are
not caught. -/
def sortCandidates (scope : TargetScope) :
    List Points → Except HarnessError (List Points × List Points)
  | [] => pure ([], [])
  | candidate :: paths =>
    match gate.canonical scope candidate with
    | .ok target => do
      let (targets, escapes) ← sortCandidates scope paths
      pure (target :: targets, escapes)
    | .error fault =>
      -- an escape is one more candidate; any other fault ends the selection
      if fault.kind = .tool then do
        let (targets, escapes) ← sortCandidates scope paths
        pure (targets, candidate :: escapes)
      else throw fault

/-- The first path that is no workspace target, else the first protected target, else the first. -/
def selectTarget (nativeName : Points) (scope : TargetScope) (paths : List Points) :
    Except HarnessError Points :=
  if paths = [] then pure (if allowRoot scope then ofString "workspace" else nativeName)
  else do
    let (targets, escapes) ← gate.sortCandidates scope paths
    match escapes with
    | candidate :: _ => pure candidate
    | [] => pure (((targets.find? isProtectedTarget).orElse fun _ => targets.head?).getD [])

/-- The target of a native call. -/
def targetFor (nativeName : Points) (toolInput : List Field) : Except HarnessError Points :=
  let tool := gate.classifyNativeTool nativeName
  if tool.scope = .any then
    pure (((spellings ["url", "query", "command", "prompt"]).findSome? fun key =>
      (fieldAt key toolInput).bind shown).getD tool.name)
  else gate.selectTarget nativeName tool.scope (gate.candidates nativeName toolInput)

/-- The registry refuses the target, or the rule of the pack matches or meets a ceiling. -/
def blocks (tool : NativeTool) (rest : Durable.ProposedAction) (context : Durable.PolicyContext)
    (target : Points) : Bool :=
  let action : Durable.ProposedAction :=
    { rest with toolName := tool.name, target := target, sideEffectLevel := tool.sideEffect }
  match checkWorkspaceTarget gate.drives gate.protectedRoots gate.workspaceRoot tool.scope target with
  | .error _ => true
  | .ok _ =>
    match gate.pack.rule.matchesAction action context
        (.initial : Durable.PolicyMatchState gate.rules action.payload) with
    | .error _ => true
    | .ok (matched, _) => matched

/-- A call without a target fails closed, and one with a target is stopped where it is blocked. -/
def denies (tool : NativeTool) (rest : Durable.ProposedAction) (context : Durable.PolicyContext) :
    Except HarnessError Points → Bool
  | .error _ => true
  | .ok target => gate.blocks tool rest context target

end HookGate

/-! ### What the rule of a pack matches -/

/-- On no list of the gate, but in the rule of both packs. -/
def proxyConfiguration : Points := ofString "workspace/examples/filesystem/mcp-proxy.yaml"

/-- The directories of the gate's list that the rule of a pack names; one pack leaves one out. -/
def HookPack.starts : HookPack → List Points
  | .copilot => protectedTargetPrefixes
  | .codex => protectedTargetPrefixes.filter (· != ofString "workspace/.dah-hooks/")

/-- The targets that the rule of a pack blocks. -/
def HookPack.covers (pack : HookPack) (target : Points) : Bool :=
  protectedTargets.contains target || (pack.starts.any fun start => start.isPrefixOf target) ||
    target == proxyConfiguration

private theorem pack_targets (pack : HookPack) : pack.targets.Perm
    (protectedTargets ++ pack.starts.map (· ++ [Glob.star]) ++ [proxyConfiguration]) := by
  cases pack <;> decide +kernel

theorem anyGlob_pack (pack : HookPack) (target : Points) :
    Durable.anyGlob target pack.targets = pack.covers target := by
  have whole : ∀ pattern ∈ protectedTargets, pattern.all Glob.plain = true := by decide
  have starts : ∀ start ∈ pack.starts, start.all Glob.plain = true := by cases pack <;> decide
  have proxy : proxyConfiguration.all Glob.plain = true := by decide
  apply Bool.eq_iff_iff.2
  simp only [Durable.anyGlob, HookPack.covers, List.any_eq_true, (pack_targets pack).mem_iff,
    List.mem_append, List.mem_map, List.mem_singleton, Bool.or_eq_true, List.contains_iff_mem,
    List.isPrefixOf_iff_prefix, beq_iff_eq]
  constructor
  · rintro ⟨pattern, (named | ⟨start, inside, rfl⟩) | rfl, found⟩
    · rw [fnmatchcase_plain (whole pattern named)] at found
      exact .inl (.inl (found ▸ named))
    · exact .inl (.inr ⟨start, inside, (fnmatchcase_star (starts start inside) target).1 found⟩)
    · exact .inr ((fnmatchcase_plain proxy target).1 found)
  · rintro ((named | ⟨start, inside, found⟩) | rfl)
    · exact ⟨target, .inl (.inl named), (fnmatchcase_plain (whole target named) target).2 rfl⟩
    · exact ⟨_, .inl (.inr ⟨start, inside, rfl⟩), (fnmatchcase_star (starts start inside) target).2 found⟩
    · exact ⟨_, .inr rfl, (fnmatchcase_plain proxy _).2 rfl⟩

private theorem globWork_le (subject : Points) (patterns : List Points) :
    Durable.globWork subject patterns ≤
      patterns.length * subject.length + (patterns.map List.length).sum := by
  induction patterns with
  | nil => simp [Durable.globWork]
  | cons pattern patterns ih =>
    rw [Durable.globWork, List.map_cons, List.sum_cons, List.length_cons, Nat.add_mul, one_mul]
    split <;> omega

namespace HookGate

variable (gate : HookGate)

/-- A native read, write or search. -/
def isFileTool (tool : NativeTool) : Prop := tool = readFile ∨ tool = writeFile ∨ tool = searchNative

/-- A target that is let through: inside the workspace, off the control plane, and for a write short
enough to be matched and not covered by the pack. -/
structure Free (tool : NativeTool) (target : Points) : Prop where
  confined : checkWorkspaceTarget gate.drives gate.protectedRoots gate.workspaceRoot tool.scope target =
    .ok ()
  uncovered : tool = writeFile →
    target.length ≤ maxPolicyMatchTargetCharacters ∧ gate.pack.covers target = false

section

variable (action : Durable.ProposedAction) (context : Durable.PolicyContext)

private theorem toolHolds_pack : gate.pack.rule.toolHolds action =
    (action.toolName == ofString "write_file") := by
  apply Bool.eq_iff_iff.2
  simp only [Durable.Rule.toolHolds, HookPack.rule, spellings, List.map_cons, List.map_nil,
    Durable.anyGlob, List.any_cons, List.any_nil, Bool.or_false, beq_iff_eq, List.isEmpty_cons,
    Bool.false_or]
  exact fnmatchcase_plain (by decide) action.toolName

private theorem targetHolds_pack : gate.pack.rule.targetHolds action = gate.pack.covers action.target := by
  have some : gate.pack.targets.isEmpty = false := by cases gate.pack <;> rfl
  rw [Durable.Rule.targetHolds, HookPack.rule, some, Bool.false_or, anyGlob_pack]

private theorem holds_pack : gate.pack.rule.holds gate.rules action context =
    ((action.toolName == ofString "write_file") && gate.pack.covers action.target) := by
  rw [Durable.Rule.holds, toolHolds_pack, targetHolds_pack]
  simp [Durable.Rule.matchesLevel, Durable.Rule.payloadHolds, Durable.Rule.trustHolds,
    Durable.Rule.matchesTrust, Durable.Rule.matchesSensitivity, HookPack.rule]

private theorem admissible_pack (name : action.toolName.length ≤ 16) :
    gate.pack.rule.Admissible gate.rules action ↔ (action.toolName = ofString "write_file" →
      action.target.length ≤ maxPolicyMatchTargetCharacters) := by
  have some : gate.pack.rule.targets ≠ [] := by cases gate.pack <;> decide
  have short : action.toolName.length ≤ maxPolicyMatchToolNameCharacters := name.trans (by decide)
  have level : gate.pack.rule.matchesLevel action.sideEffectLevel = true := rfl
  have free : gate.pack.rule.payloadContains = [] := rfl
  simp only [Durable.Rule.Admissible, toolHolds_pack, beq_iff_eq, level, some, ne_eq, not_false_eq_true,
    free, not_true_eq_false, false_implies, implies_true, and_true, short, true_and, true_implies]

/-- Short subjects stay far below the ceiling on work. -/
private theorem work_pack (name : action.toolName.length ≤ 16)
    (short : action.toolName = ofString "write_file" →
      action.target.length ≤ maxPolicyMatchTargetCharacters) :
    gate.pack.rule.work gate.rules action ≤ Durable.PolicyMatchState.workLimit := by
  have tools := globWork_le action.toolName gate.pack.rule.tools
  have targets := globWork_le action.target gate.pack.rule.targets
  have toolSize : gate.pack.rule.tools.length * action.toolName.length +
      (gate.pack.rule.tools.map List.length).sum = action.toolName.length + 10 := by
    simp [HookPack.rule, spellings, ofString]
  have count : gate.pack.rule.targets.length ≤ 11 := by cases gate.pack <;> decide
  have size : (gate.pack.rule.targets.map List.length).sum ≤ 400 := by cases gate.pack <;> decide
  have free : gate.pack.rule.payloadContains = [] := rfl
  have zero : (0, 0) = (0 : Nat × Nat) := rfl
  simp only [Durable.Rule.work, toolHolds_pack, free, if_true, zero, ite_self, add_zero]
  -- the target's globs are tried only when the tool's name matches
  split
  next asked =>
    have write : action.toolName = ofString "write_file" := by
      rw [Bool.and_eq_true, beq_iff_eq] at asked
      exact asked.1
    have bound := Nat.mul_le_mul count (short write)
    have limit : 11 * maxPolicyMatchTargetCharacters + 426 ≤ maxPolicyGlobMatchWorkUnits := by decide
    refine ⟨?_, Nat.zero_le _⟩
    change Durable.globWork action.toolName gate.pack.rule.tools +
      Durable.globWork action.target gate.pack.rule.targets ≤ maxPolicyGlobMatchWorkUnits
    omega
  · have limit : 26 ≤ maxPolicyGlobMatchWorkUnits := by decide
    refine ⟨?_, Nat.zero_le _⟩
    change Durable.globWork action.toolName gate.pack.rule.tools + 0 ≤ maxPolicyGlobMatchWorkUnits
    omega

end

/-- The pack's rule, asked about one action. -/
private theorem rule_passes_iff (action : Durable.ProposedAction) (context : Durable.PolicyContext)
    (name : action.toolName.length ≤ 16) :
    (∃ s, gate.pack.rule.matchesAction action context
        (.initial : Durable.PolicyMatchState gate.rules action.payload) = .ok (false, s)) ↔
      (action.toolName = ofString "write_file" →
        action.target.length ≤ maxPolicyMatchTargetCharacters ∧
          gate.pack.covers action.target = false) := by
  obtain ⟨sound, complete⟩ := gate.pack.rule.charges_matches action context
    (.initial : Durable.PolicyMatchState gate.rules action.payload)
    (show (0, 0) ≤ Durable.PolicyMatchState.workLimit from ⟨Nat.zero_le _, Nat.zero_le _⟩)
  rw [admissible_pack gate action name] at complete
  constructor
  · rintro ⟨s, run⟩ write
    obtain ⟨admissible, missed, -⟩ := sound _ _ run
    rw [holds_pack, write, beq_self_eq_true, Bool.true_and] at missed
    exact ⟨(admissible_pack gate action name).1 admissible write, missed.symm⟩
  · intro passes
    -- for any other tool the rule does not hold, whatever the target
    have missed : gate.pack.rule.holds gate.rules action context = false := by
      rw [holds_pack]
      by_cases write : action.toolName = ofString "write_file"
      · rw [(passes write).2, Bool.and_false]
      · rw [beq_eq_false_iff_ne.2 write, Bool.false_and]
    rw [missed] at complete
    have work := work_pack gate action name fun write => (passes write).1
    exact complete (fun write => (passes write).1) (by
      change (0, 0) + gate.pack.rule.work gate.rules action ≤ Durable.PolicyMatchState.workLimit
      rw [Prod.mk_zero_zero, zero_add]
      exact work)

private theorem fileTool_name {tool : NativeTool} (native : isFileTool tool) :
    tool.name.length ≤ 16 ∧ (tool.name = ofString "write_file" ↔ tool = writeFile) ∧
      tool.scope ≠ .any := by
  rcases native with rfl | rfl | rfl <;> decide

/-- What the registry and the rule of the pack stop is what is not free. -/
theorem blocks_iff {tool : NativeTool} (native : isFileTool tool) (rest : Durable.ProposedAction)
    (context : Durable.PolicyContext) (target : Points) :
    gate.blocks tool rest context target = true ↔ ¬ gate.Free tool target := by
  obtain ⟨name, write, -⟩ := fileTool_name native
  have passes := rule_passes_iff gate
    { rest with toolName := tool.name, target := target, sideEffectLevel := tool.sideEffect } context name
  dsimp only at passes
  rw [write] at passes
  have free : gate.Free tool target ↔ checkWorkspaceTarget gate.drives gate.protectedRoots gate.workspaceRoot
      tool.scope target = .ok () ∧ (tool = writeFile →
        target.length ≤ maxPolicyMatchTargetCharacters ∧ gate.pack.covers target = false) :=
    ⟨fun free => ⟨free.confined, free.uncovered⟩, fun ⟨confined, uncovered⟩ => ⟨confined, uncovered⟩⟩
  rw [free, ← passes, blocks]
  cases checkWorkspaceTarget gate.drives gate.protectedRoots gate.workspaceRoot tool.scope target with
  | error e => simp
  | ok u =>
    simp only [true_and, not_exists]
    constructor
    · intro stopped s run
      rw [run] at stopped
      cases stopped
    · intro never
      split
      · rfl
      -- a rule whose work is refused blocks as one that matches does
      next matched s run =>
        cases matched with
        | false => exact absurd run (never s)
        | true => rfl

/-- A path that is no workspace target is refused by the registry. -/
theorem unsafe_refused {scope : TargetScope} (native : scope ≠ .any) {candidate : Points}
    {e : HarnessError} (outside : gate.canonical scope candidate = .error e) :
    checkWorkspaceTarget gate.drives gate.protectedRoots gate.workspaceRoot scope candidate ≠ .ok () := by
  intro confined
  have resolved : ∃ file,
      resolveWorkspaceTarget gate.drives candidate gate.workspaceRoot (allowRoot scope) = .ok file := by
    cases scope with
    | any => exact absurd rfl native
    | workspace =>
      obtain ⟨file, resolved, -⟩ := bind_ok_iff.1 confined
      exact ⟨file, resolved⟩
    | workspacePath =>
      obtain ⟨file, resolved, -⟩ := bind_ok_iff.1 confined
      exact ⟨file, resolved⟩
  obtain ⟨file, resolved⟩ := resolved
  -- what the check resolves does not start with a slash, so `canonical` takes it as relative too
  have supplied : suppliedFile gate.drives candidate gate.workspaceRoot (allowRoot scope) = .ok file := by
    simp only [resolveWorkspaceTarget, bind_ok_iff, refuseIf_ok_iff] at resolved
    obtain ⟨_, visible, _, relative, rest⟩ := resolved
    have start : candidate.head? ≠ some slash := by
      intro slashed
      apply relative
      simp [windowsAnchored, slashed]
    have again : resolveWorkspaceTarget gate.drives candidate gate.workspaceRoot (allowRoot scope) = .ok file := by
      simp only [resolveWorkspaceTarget, bind_ok_iff, refuseIf_ok_iff]
      exact ⟨(), visible, (), relative, rest⟩
    rw [suppliedFile, refuseIf_of_not visible, ok_bind, if_neg start, again]
  have accepted := canonical_ok_iff.2 ⟨file, _, supplied, (resolve_ok resolved).1, rfl⟩
  rw [canonical, accepted] at outside
  cases outside

variable (tool : NativeTool)

/-- The path alone is let through. -/
def Passes (path : Points) : Prop :=
  ∃ target, gate.canonical tool.scope path = .ok target ∧ gate.Free tool target

/-- The target of the path is on the list of the gate. -/
def Listed (path : Points) : Prop :=
  ∃ target, gate.canonical tool.scope path = .ok target ∧ isProtectedTarget target = true

/-- All paths are workspace targets, and not all of them are let through, but the first on the list of
the gate is, or the first of all where none is on the list. -/
structure Hides (paths : List Points) : Prop where
  inside : ∀ path ∈ paths, ∃ target, gate.canonical tool.scope path = .ok target
  leads : (∃ earlier path later, paths = earlier ++ path :: later ∧ gate.Listed tool path ∧
      (∀ other ∈ earlier, ¬ gate.Listed tool other) ∧ gate.Passes tool path) ∨
    (∀ path ∈ paths, ¬ gate.Listed tool path) ∧ ∃ path ∈ paths.head?, gate.Passes tool path
  hidden : ∃ path ∈ paths, ¬ gate.Passes tool path

section

variable {gate} {tool} {nativeName : Points} {scope : TargetScope} {paths : List Points}

/-- The canonical target of a path that has one. -/
private def targetOf (gate : HookGate) (scope : TargetScope) (path : Points) : Points :=
  (gate.canonical scope path).toOption.getD []

private theorem canonical_targetOf {path : Points}
    (inside : ∃ target, gate.canonical scope path = .ok target) :
    gate.canonical scope path = .ok (targetOf gate scope path) := by
  obtain ⟨target, found⟩ := inside
  rw [targetOf, found]
  rfl

private theorem sort_inside (inside : ∀ path ∈ paths, ∃ target, gate.canonical scope path = .ok target) :
    gate.sortCandidates scope paths = .ok (paths.map (targetOf gate scope), []) := by
  induction paths with
  | nil => rfl
  | cons path paths ih =>
    rw [List.forall_mem_cons] at inside
    rw [sortCandidates, canonical_targetOf inside.1]
    dsimp only
    rw [ih inside.2]
    rfl

/-- A path that is no workspace target is among those that escape, or the paths have no target. -/
private theorem sort_outside {path : Points} (member : path ∈ paths) {e : HarnessError}
    (outside : gate.canonical scope path = .error e) {targets escapes : List Points}
    (sorted : gate.sortCandidates scope paths = .ok (targets, escapes)) : escapes ≠ [] := by
  induction paths generalizing targets escapes with
  | nil => cases member
  | cons first paths ih =>
    rw [sortCandidates] at sorted
    cases found : gate.canonical scope first with
    | ok target =>
      rw [found] at sorted
      obtain ⟨⟨others, rest⟩, later, same⟩ := bind_ok_iff.1 sorted
      obtain ⟨-, rfl⟩ := Prod.mk.inj (pure_ok_iff.1 same)
      rcases List.mem_cons.1 member with rfl | behind
      · rw [found] at outside
        cases outside
      · exact ih behind later
    | error fault =>
      rw [found] at sorted
      dsimp only at sorted
      split at sorted
      · obtain ⟨⟨others, rest⟩, -, same⟩ := bind_ok_iff.1 sorted
        obtain ⟨-, rfl⟩ := Prod.mk.inj (pure_ok_iff.1 same)
        exact List.cons_ne_nil _ _
      · cases sorted

/-- What escapes is no workspace target. -/
private theorem escape_outside {targets escapes : List Points}
    (sorted : gate.sortCandidates scope paths = .ok (targets, escapes)) :
    ∀ path ∈ escapes, ∃ e, gate.canonical scope path = .error e := by
  induction paths generalizing targets escapes with
  | nil =>
    obtain ⟨-, rfl⟩ := Prod.mk.inj (pure_ok_iff.1 sorted)
    exact fun _ none => nomatch none
  | cons first paths ih =>
    rw [sortCandidates] at sorted
    cases found : gate.canonical scope first with
    | ok target =>
      rw [found] at sorted
      obtain ⟨⟨others, rest⟩, later, same⟩ := bind_ok_iff.1 sorted
      obtain ⟨-, rfl⟩ := Prod.mk.inj (pure_ok_iff.1 same)
      exact ih later
    | error fault =>
      rw [found] at sorted
      dsimp only at sorted
      split at sorted
      · obtain ⟨⟨others, rest⟩, later, same⟩ := bind_ok_iff.1 sorted
        obtain ⟨-, rfl⟩ := Prod.mk.inj (pure_ok_iff.1 same)
        exact List.forall_mem_cons.2 ⟨⟨fault, found⟩, ih later⟩
      · cases sorted

/-- The selected target of paths of which one is no workspace target is none either. -/
private theorem select_outside {path target : Points} (member : path ∈ paths) {e : HarnessError}
    (outside : gate.canonical scope path = .error e)
    (selected : gate.selectTarget nativeName scope paths = .ok target) :
    ∃ e', gate.canonical scope target = .error e' := by
  rw [selectTarget, if_neg (List.ne_nil_of_mem member)] at selected
  obtain ⟨⟨targets, escapes⟩, sorted, selected⟩ := bind_ok_iff.1 selected
  cases escapes with
  | nil => exact absurd rfl (sort_outside member outside sorted)
  | cons first rest =>
    obtain rfl := pure_ok_iff.1 selected
    exact escape_outside sorted _ List.mem_cons_self

/-- The selected target of workspace targets is that of the leading path. -/
private theorem select_inside (some : paths ≠ [])
    (inside : ∀ path ∈ paths, ∃ target, gate.canonical scope path = .ok target) :
    gate.selectTarget nativeName scope paths =
      .ok (((paths.find? fun path => isProtectedTarget (targetOf gate scope path)).orElse
        fun _ => paths.head?).elim [] (targetOf gate scope)) := by
  rw [selectTarget, if_neg some, sort_inside inside, ok_bind]
  dsimp only
  rw [List.find?_map, List.head?_map]
  cases found : paths.find? (isProtectedTarget ∘ targetOf gate scope) with
  | some path =>
    have same : (paths.find? fun path => isProtectedTarget (targetOf gate scope path)) = .some path := found
    rw [same]
    rfl
  | none =>
    have same : (paths.find? fun path => isProtectedTarget (targetOf gate scope path)) = .none := found
    rw [same]
    cases paths with
    | nil => exact absurd rfl some
    | cons first rest => rfl

private theorem select_alone {path target : Points} (inside : gate.canonical scope path = .ok target) :
    gate.selectTarget nativeName scope [path] = .ok target := by
  have own : targetOf gate scope path = target := by rw [targetOf, inside]; rfl
  rw [select_inside (List.cons_ne_nil _ _) (List.forall_mem_singleton.2 ⟨target, inside⟩), ← own]
  rw [List.find?_singleton]
  split <;> rfl

private theorem listed_iff {path : Points}
    (inside : ∃ target, gate.canonical tool.scope path = .ok target) :
    gate.Listed tool path ↔ isProtectedTarget (targetOf gate tool.scope path) = true := by
  rw [Listed, canonical_targetOf inside]
  simp only [Except.ok.injEq, exists_eq_left']

private theorem passes_iff {path : Points}
    (inside : ∃ target, gate.canonical tool.scope path = .ok target) :
    gate.Passes tool path ↔ gate.Free tool (targetOf gate tool.scope path) := by
  rw [Passes, canonical_targetOf inside]
  simp only [Except.ok.injEq, exists_eq_left']

/-- The selected target is let through exactly when the leading path is. -/
private theorem selected_free_iff (some : paths ≠ [])
    (inside : ∀ path ∈ paths, ∃ target, gate.canonical tool.scope path = .ok target) :
    gate.Free tool (((paths.find? fun path => isProtectedTarget (targetOf gate tool.scope path)).orElse
        fun _ => paths.head?).elim [] (targetOf gate tool.scope)) ↔
      (∃ earlier path later, paths = earlier ++ path :: later ∧ gate.Listed tool path ∧
          (∀ other ∈ earlier, ¬ gate.Listed tool other) ∧ gate.Passes tool path) ∨
        (∀ path ∈ paths, ¬ gate.Listed tool path) ∧ ∃ path ∈ paths.head?, gate.Passes tool path := by
  cases found : paths.find? fun path => isProtectedTarget (targetOf gate tool.scope path) with
  | some path =>
    obtain ⟨own, earlier, later, shape, before⟩ := List.find?_eq_some_iff_append.1 found
    have member : path ∈ paths := by rw [shape]; simp
    have front : ∀ other ∈ earlier, ∃ target, gate.canonical tool.scope other = .ok target :=
      fun other among => inside other (by rw [shape]; exact List.mem_append_left _ among)
    have listed := (listed_iff (inside path member)).2 own
    change gate.Free tool (targetOf gate tool.scope path) ↔ _
    rw [← passes_iff (inside path member)]
    constructor
    · intro passes
      refine .inl ⟨earlier, path, later, shape, listed, fun other among => ?_, passes⟩
      rw [listed_iff (front other among)]
      simpa using before other among
    · rintro (⟨first, other, rest, cut, on, none, passes⟩ | ⟨none, -⟩)
      · -- the first path on the list is one and the same
        have again : paths.find? (fun path => isProtectedTarget (targetOf gate tool.scope path)) =
            Option.some other := by
          refine List.find?_eq_some_iff_append.2 ⟨?_, first, rest, cut, fun path among => ?_⟩
          · exact (listed_iff (inside other (by rw [cut]; simp))).1 on
          · have off := none path among
            rw [listed_iff (inside path (by rw [cut]; exact List.mem_append_left _ among))] at off
            simpa using off
        obtain rfl := Option.some.inj (found.symm.trans again)
        exact passes
      · exact absurd listed (none path member)
  | none =>
    have off : ∀ path ∈ paths, ¬ gate.Listed tool path := by
      intro path member
      rw [listed_iff (inside path member)]
      exact List.find?_eq_none.1 found path member
    obtain ⟨first, rest, rfl⟩ := List.exists_cons_of_ne_nil some
    change gate.Free tool (targetOf gate tool.scope first) ↔ _
    rw [← passes_iff (inside first (by simp))]
    constructor
    · exact fun passes => .inr ⟨off, first, rfl, passes⟩
    · rintro (⟨earlier, path, later, cut, on, -, -⟩ | ⟨-, path, head, passes⟩)
      · exact absurd on (off path (by rw [cut]; simp))
      · obtain rfl := Option.some.inj head
        exact passes

end

end HookGate

namespace HookGate

/-- What a write can hide: where the pack covers the whole list of the gate, no path on it. -/
theorem hidden_by_write {gate : HookGate} {paths : List Points} (hides : gate.Hides writeFile paths)
    (pack : gate.pack = .copilot) : ∀ path ∈ paths, ¬ gate.Listed writeFile path := by
  rcases hides.leads with ⟨-, path, -, -, ⟨target, found, on⟩, -, ⟨other, again, free⟩⟩ | ⟨off, -⟩
  · -- the rule of the pack covers what leads
    obtain rfl := Except.ok.inj (found.symm.trans again)
    have covered : gate.pack.covers target = true := by
      rw [HookPack.covers, pack, HookPack.starts]
      exact Bool.or_eq_true_iff.2 (.inl on)
    rw [(free.uncovered rfl).2] at covered
    cases covered
  · exact off

private def stateDirectory : HookPack → Points
  | .copilot => ofString "/srv/w/.dah-hooks"
  | .codex => ofString "/srv/w/.dah-codex-hooks"

/-- A gate over a workspace whose control plane is a directory of it; texts are lowered as in ASCII. -/
private theorem capital_bound {c : CodePoint} (capital : 65 ≤ c.val ∧ c.val ≤ 90) :
    c.val + 32 < 0x110000 := by
  omega

private def small (c : CodePoint) : CodePoint :=
  if capital : 65 ≤ c.val ∧ c.val ≤ 90 then ⟨c.val + 32, capital_bound capital⟩ else c

private def hookSite (pack : HookPack) : HookGate where
  drives := .letters
  workspaceRoot := FilePath.root.join [ofString "/srv/w"]
  protectedRoots := [FilePath.root.join [stateDirectory pack]]
  pack := pack
  rules := ⟨List.map small, fun _ => []⟩

private def proposal : List Points → Durable.ProposedAction := fun _ => {
  toolName := []
  target := []
  payload := []
  sideEffectLevel := .none
  agentReason := .str []
  actionId := ofString "act"
  requestId := .str []
  payloadSources := []
  estimatedCostUsd := Decimal.zero
  createdAt := ofString "2026-01-01T00:00:00Z" }

private def filesInput (names : List String) : List Field :=
  [(ofString "files", .arr (names.map fun name => .str (ofString name)))]

end HookGate

end DefiantHarness
