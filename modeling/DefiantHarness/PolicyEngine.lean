import Mathlib.Data.List.Lex
import DefiantHarness.PolicyRule

/-! The policy engine: its sealed rule set, the context of a decision, and the decision itself. -/
namespace DefiantHarness

open Foundation

def maxPolicyContextEntries : Nat := 64
def maxPolicyContextKeyCharacters : Nat := 256
def maxPolicyContextValueCharacters : Nat := 4096
def maxPolicyContextCharacters : Nat := 256 * 1024

namespace Durable

/-! ### Contexts -/

def contextFault (limitEnforced message : String) (told : Told message := by decide) : PolicyFault :=
  ⟨message, limitEnforced, told⟩

def contextLimitFault (limitEnforced subject : String) (limit : Nat) (unit : String)
    (told : Told subject := by decide) : PolicyFault :=
  ⟨subject ++ toString limit ++ unit, limitEnforced, told.limit limit unit⟩

def contextTypeFault : PolicyFault :=
  contextFault "policy_context_type" "policy context keys and values must be strings"

def contextTextFault : PolicyFault :=
  contextLimitFault "policy_context_characters" "policy context text exceeds maximum of "
    maxPolicyContextCharacters " characters"

/-- The normalized keys, and how many characters they have. -/
def contextKeys (characters : Nat) (seen : List Points) : List Value →
    Except PolicyFault (List Points × Nat)
  | [] => pure (seen, characters)
  | key :: keys => do
    let normalized ← orRefuse key.text? contextTypeFault
    refuseIf (maxPolicyContextKeyCharacters < normalized.length)
      (contextLimitFault "policy_context_key_characters" "policy context key exceeds maximum of "
        maxPolicyContextKeyCharacters " characters")
    -- one budget of characters for all keys and values
    refuseIf (maxPolicyContextCharacters - characters < normalized.length) contextTextFault
    refuseIf (seen.contains normalized = true)
      (contextFault "policy_context_type" "policy context keys are ambiguous after normalization")
    contextKeys (characters + normalized.length) (seen ++ [normalized]) keys

def contextValues (characters : Nat) : List (Points × Value) → Except PolicyFault PolicyContext
  | [] => pure []
  | (key, value) :: items => do
    let normalized ← orRefuse value.text? contextTypeFault
    refuseIf (maxPolicyContextValueCharacters < normalized.length)
      (contextLimitFault "policy_context_value_characters" "policy context value exceeds maximum of "
        maxPolicyContextValueCharacters " characters")
    refuseIf (maxPolicyContextCharacters - characters < normalized.length) contextTextFault
    let rest ← contextValues (characters + normalized.length) items
    pure ((key, normalized) :: rest)

/-- Capture one bounded exact observation of the context. -/
def policyContextSnapshot : Option Value → Except PolicyFault PolicyContext
  | none => pure []
  | some (.dict entries) => do
    refuseIf (maxPolicyContextEntries < entries.length)
      (contextLimitFault "policy_context_entries" "policy context exceeds maximum entry count of "
        maxPolicyContextEntries "")
    let (keys, characters) ← contextKeys 0 [] (entries.map (·.1))
    contextValues characters (keys.zip (entries.map (·.2)))
  | some _ => throw (contextFault "policy_context_type" "policy context must be a mapping")

/-! ### Decisions -/

/-- The bounded canonical copy of a field of an authority record. -/
def authorityContractSnapshot (value : Value) (fieldName : String) : Except HarnessError Value :=
  (validateActionHashStructure (snapshotLimits (some maxActionHashCanonicalBytes)) value).mapError
    fun fault => invalid (fieldName ++ if fault.limitEnforced.isSome
      then " exceeds canonical contract limits" else " must contain canonical contract data")

/-- The texts of a list of strings. -/
def stringsOf : Value → Option (List Points)
  | .list items => items.mapM fun v => match v with
    | .str s => some s
    | _ => none
  | _ => none

def authorityStringListSnapshot (items : List Points) (fieldName : String) :
    Except HarnessError (List Points) := do
  refuseIf (maxActionHashNodes < items.length)
    (invalid (fieldName ++ " exceeds canonical contract limits"))
  let snapshot ← authorityContractSnapshot (.list (items.map .str)) fieldName
  orRefuse (stringsOf snapshot) (invalid (fieldName ++ " must contain strings"))

/-- The fields of a decision, as they are given to its constructor and as it keeps them. -/
structure GuardrailDecision where
  decision : Decision
  reason : Points
  policyIds : List Points
  policyVersion : Points
  rulesetHash : String
  approvalScope : Points
  redactions : List Points
  decisionInputs : Value

/-- The checks of the constructor. -/
def GuardrailDecision.validateContract (d : GuardrailDecision) : Except HarnessError GuardrailDecision := do
  let reason ← requireText (.str d.reason) "decision reason"
  let policyIds ← authorityStringListSnapshot d.policyIds "policy_ids"
  refuseIf (policyIds = [] ∨ [] ∈ policyIds) (invalid "policy_ids must contain at least one non-empty id")
  let redactions ← authorityStringListSnapshot d.redactions "redactions"
  let decisionInputs ← authorityContractSnapshot d.decisionInputs "decision_inputs"
  pure { d with reason, policyIds, redactions, decisionInputs }

/-! ### Engines -/

namespace Rule

def optionalText (text : Option String) : Value :=
  match text with
  | none => .null
  | some s => .str (Points.ofString s)

def textTuple (items : List Points) : Value := .tuple (items.map .str)

/-- The fields of a rule, as they are hashed. -/
def fields (rule : Rule) : List (String × Value) := [
  ("id", .str rule.id), ("description", .str rule.description), ("tools", textTuple rule.tools),
  ("side_effect_at_least", optionalText (rule.sideEffectAtLeast.map SideEffect.text)),
  ("targets", textTuple rule.targets), ("payload_contains", textTuple rule.payloadContains),
  ("max_payload_trust", optionalText (rule.maxPayloadTrust.map Trust.text)),
  ("sensitivities", textTuple rule.sensitivities),
  ("effect", .str (Points.ofString rule.effect.text)), ("reason", .str rule.reason),
  ("approval_scope", .str rule.approvalScope), ("redactions", textTuple rule.redactions)]

def vars (rule : Rule) : Value := .dict (record rule.fields)

def byId (r s : Rule) : Prop := r.id ≤ s.id

instance : DecidableRel byId := fun r s => inferInstanceAs (Decidable (r.id ≤ s.id))

end Rule

/-- What the hash of a rule set is taken of. -/
def rulesetSurface (knownTools : List Points) (authorityInputs : List Entry) (rules : List Rule) : Value :=
  .dict (record [
    ("known_tools", .list ((knownTools.insertionSort (· ≤ ·)).map .str)),
    ("authority_inputs", .dict authorityInputs),
    ("rules", .list ((rules.insertionSort Rule.byId).map Rule.vars))])

/-- A constructed engine with its sealed rule set. -/
structure PolicyEngine (sha : TextHash) where
  name : Points
  version : Points
  rules : List Rule
  knownTools : List Points
  authorityInputs : List Entry
  rulesetHash : String
  distinct : (rules.map (·.id)).Nodup
  spelled : [] ∉ knownTools
  hashed : sha256Of sha (rulesetSurface knownTools authorityInputs rules) = .ok rulesetHash

/-- A policy pack whose rules have been constructed. -/
structure PolicyPack where
  version : Points
  knownTools : List Points
  rules : List Rule

mutual

/-- The detached projection of frozen authority: sequences come back as lists. -/
def thawPolicyAuthority : Value → Value
  | .dict entries => .dict (thawPolicyEntries entries)
  | .list items => .list (thawPolicyItems items)
  | .tuple items => .list (thawPolicyItems items)
  | v => v

def thawPolicyItems : List Value → List Value
  | [] => []
  | v :: vs => thawPolicyAuthority v :: thawPolicyItems vs

def thawPolicyEntries : List Entry → List Entry
  | [] => []
  | (k, v) :: es => (k, thawPolicyAuthority v) :: thawPolicyEntries es

end

namespace PolicyEngine

variable {sha : TextHash}

/-- The constructor: packs are joined in order, and the rule set is hashed once. -/
def make (sha : TextHash) (packs : List PolicyPack) (name : Points) (authorityInputs : List Entry) :
    Except HarnessError (PolicyEngine sha) := do
  let snapshot ← (validateActionHashStructure (snapshotLimits (some maxActionHashCanonicalBytes))
    (.dict authorityInputs)).mapError fun _ =>
      invalid "policy authority inputs must contain bounded canonical data"
  let authorityInputs ← orRefuse (match snapshot with | .dict entries => some entries | _ => none)
    (invalid "policy authority inputs must be a mapping")
  let knownTools := packs.flatMap (·.knownTools)
  let rules := packs.flatMap (·.rules)
  -- what an engine keeps as proofs is tested here
  if spelled : [] ∉ knownTools then
    if distinct : (rules.map (·.id)).Nodup then
      match hashed : sha256Of sha (rulesetSurface knownTools authorityInputs rules) with
      | .ok rulesetHash => pure {
          name
          version := List.intercalate (Points.ofString "+") (packs.map (·.version))
          rules, knownTools, authorityInputs, rulesetHash, distinct, spelled, hashed }
      | .error fault => throw (invalid fault.message)
    else throw (invalid "duplicate policy rule id")
  else throw (invalid "known_tools must be a list of non-empty strings")

variable (engine : PolicyEngine sha)

/-- A tool nobody classified is the most dangerous kind of tool. -/
def isKnownTool {texts : TextRules} {payload : List Entry} (toolName : Points) :
    PolicyMatchState.Match texts payload Bool :=
  if engine.knownTools = [] then pure true
  else PolicyMatchState.matchesAnyGlob toolName engine.knownTools "tool name"
    maxPolicyMatchToolNameCharacters

/-- A decision that no rule takes part in. -/
def blocked (reason : Points) (policyId : String) (decisionInputs : List (String × Value)) :
    GuardrailDecision where
  decision := .block
  reason
  policyIds := [Points.ofString policyId]
  policyVersion := engine.version
  rulesetHash := engine.rulesetHash
  approvalScope := []
  redactions := []
  decisionInputs := .dict (record decisionInputs)

def levelText (level : SideEffect) : Value := .str (Points.ofString level.text)

def contextErrorDecision (fault : PolicyFault) (action : ProposedAction) : GuardrailDecision :=
  engine.blocked (Points.ofString fault.message) "policy_context_contract" [
    ("tool_name", .str action.toolName), ("side_effect_level", levelText action.sideEffectLevel),
    ("policy_name", .str engine.name), ("limit_enforced", .str (Points.ofString fault.limitEnforced))]

def matchLimitDecision (fault : PolicyFault) (action : ProposedAction) : GuardrailDecision :=
  engine.blocked (Points.ofString fault.message) "policy_match_limit" ([
    ("side_effect_level", levelText action.sideEffectLevel), ("policy_name", .str engine.name),
    ("limit_enforced", .str (Points.ofString fault.limitEnforced))] ++
      if fault.limitEnforced = "policy_glob_matching" then []
      else [("tool_name", .str action.toolName)])

def unknownToolDecision (action : ProposedAction) : GuardrailDecision :=
  engine.blocked (Points.ofString "tool '" ++ action.toolName ++
      Points.ofString "' is not declared in any loaded policy pack's known_tools; unclassified tools are refused")
    "unknown_tool" [
      ("tool_name", .str action.toolName),
      ("known_tools", .list ((engine.knownTools.insertionSort (· ≤ ·)).map .str)),
      ("policy_name", .str engine.name),
      ("authority_inputs", .dict (thawPolicyEntries engine.authorityInputs))]

/-- The first of the strictest rules. -/
def worst : List Rule → Option Rule
  | [] => none
  | rule :: rules =>
    match worst rules with
    | none => some rule
    | some other => if rule.effect.severity < other.effect.severity then some other else some rule

/-- The reason that a rule gives, else its description, else its id. -/
def ruleReason (rule : Rule) : Points :=
  if rule.reason ≠ [] then rule.reason
  else if rule.description ≠ [] then rule.description
  else Points.ofString "matched " ++ rule.id

def agreeing (decision : Decision) (matched : List Rule) : List Rule :=
  matched.filter fun rule => rule.effect = decision

/-- The sorted set of the redactions of some rules. -/
def redactionsOf (rules : List Rule) : List Points :=
  ((rules.flatMap (·.redactions)).dedup).insertionSort (· ≤ ·)

/-- What the matched rules, or the default for none, decide: decision, reason, ids, scope and
redactions. -/
def outcome (action : ProposedAction) (matched : List Rule) :
    Decision × Points × List Points × Points × List Points :=
  match worst matched with
  | some rule =>
    let winning := agreeing rule.effect matched
    (rule.effect, ruleReason rule, winning.map (·.id), rule.approvalScope, redactionsOf winning)
  | none =>
    -- default-deny for anything with a side effect
    if action.sideEffectLevel = .none then
      (.allow, Points.ofString "no rule matched; action has no side effect",
        [Points.ofString "default_deny"], [], [])
    else
      (.block, Points.ofString "no rule permits tool '" ++ action.toolName ++
        Points.ofString "' at side-effect level '" ++ Points.ofString action.sideEffectLevel.text ++
          Points.ofString "' (default deny)", [Points.ofString "default_deny"], [], [])

/-- The scope of an approval: the rule's own, else the tool and its target. -/
def scopeOf (action : ProposedAction) (decision : Decision) (approvalScope : Points) : Points :=
  if approvalScope ≠ [] then approvalScope
  else if decision = .approvalRequired then
    Points.ofString "execute " ++ action.toolName ++ Points.ofString " on " ++ action.target
  else []

/-- The inputs of a decision that the rules took part in. -/
def ruleInputs (action : SealedAction) (context : PolicyContext) (matched : List Rule) :
    List (String × Value) := [
  ("tool_name", .str action.action.toolName), ("target", .str action.action.target),
  ("side_effect_level", levelText action.action.sideEffectLevel),
  ("payload_hash", .str (Points.ofString action.payloadHash)),
  ("authorization_hash", .str (Points.ofString action.authorizationHash)),
  ("payload_trust", .str (Points.ofString (worstTrust action.action.payloadSources).text)),
  ("context", .dict (context.map fun e => (.str e.1, .str e.2))),
  ("matched_rules", .list (matched.map fun rule => .str rule.id)),
  ("policy_name", .str engine.name),
  ("authority_inputs", .dict (thawPolicyEntries engine.authorityInputs))]

def ruleDecision (action : SealedAction) (context : PolicyContext) (matched : List Rule) :
    GuardrailDecision :=
  let (decision, reason, policyIds, approvalScope, redactions) := outcome action.action matched
  { decision, reason, policyIds, redactions
    policyVersion := engine.version
    rulesetHash := engine.rulesetHash
    approvalScope := scopeOf action.action decision approvalScope
    decisionInputs := .dict (record (engine.ruleInputs action context matched)) }

/-- The rules that match, in load order; every rule charges the same counters. -/
def matchRules {texts : TextRules} (action : ProposedAction) (context : PolicyContext) :
    List Rule → PolicyMatchState.Match texts action.payload (List Rule)
  | [] => pure []
  | rule :: rules => do
    let hit ← rule.matchesAction action context
    let rest ← matchRules action context rules
    pure (if hit then rule :: rest else rest)

/-- The rules that match a known tool; `none` for a tool nobody classified. -/
def matchedRules {texts : TextRules} (action : ProposedAction) (context : PolicyContext) :
    PolicyMatchState.Match texts action.payload (Option (List Rule)) := do
  if !(← engine.isKnownTool action.toolName) then return none
  let matched ← matchRules action context engine.rules
  return some matched

/-- The decision about an action; it is refused wherever matching it would break a ceiling. -/
def decisionFor (texts : TextRules) (action : SealedAction) (context : Option Value) :
    GuardrailDecision :=
  match policyContextSnapshot context with
  | .error fault => engine.contextErrorDecision fault action.action
  | .ok snapshot =>
    let run : PolicyMatchState.Match texts action.action.payload _ :=
      engine.matchedRules action.action snapshot
    match run PolicyMatchState.initial with
    | .error fault => engine.matchLimitDecision fault action.action
    -- no rule is even tried for a tool that no pack knows
    | .ok (none, _) => engine.unknownToolDecision action.action
    | .ok (some matched, _) => engine.ruleDecision action snapshot matched

/-- Evaluate an action: every decision passes the checks of its constructor. -/
def evaluate (texts : TextRules) (action : SealedAction) (context : Option Value) :
    Except HarnessError GuardrailDecision :=
  (engine.decisionFor texts action context).validateContract

end PolicyEngine
end Durable
end DefiantHarness
