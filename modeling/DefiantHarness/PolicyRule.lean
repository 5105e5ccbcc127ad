import Mathlib.Data.List.Infix
import DefiantHarness.DurableAction
import DefiantHarness.Foundation.Glob

/-! Policy rules, and the bounded matching of an action against them. -/
namespace DefiantHarness

open Foundation

def maxPolicyMatchPayloadNestingDepth : Nat := 64
def maxPolicyMatchPayloadNodes : Nat := 100000
def maxPolicyMatchPayloadCharacters : Nat := 1024 * 1024
def maxPolicyPayloadMatchWorkUnits : Nat := 64 * 1024 * 1024
def maxPolicyMatchToolNameCharacters : Nat := 4096
def maxPolicyMatchTargetCharacters : Nat := 1024 * 1024
def maxPolicyGlobMatchWorkUnits : Nat := 64 * 1024 * 1024

/-- A message that says something. -/
def Told (message : String) : Prop := (Points.ofString message).all blankPoint = false

instance (message : String) : Decidable (Told message) := inferInstanceAs (Decidable (_ = false))

theorem Told.append {message : String} (told : Told message) (rest : String) : Told (message ++ rest) := by
  rw [Told, Points.ofString_eq] at told ⊢
  rw [String.toList_append, List.map_append, List.all_append]
  exact Bool.and_eq_false_imp.2 fun blank => absurd (blank.symm.trans told) (by decide)

theorem Told.limit {subject : String} (told : Told subject) (limit : Nat) (unit : String) :
    Told (subject ++ toString limit ++ unit) :=
  (told.append _).append _

/-- A ceiling on matching, or the contract of the context, that an input breaks. -/
structure PolicyFault where
  message : String
  limitEnforced : String
  told : Told message
deriving DecidableEq

def Decision.text : Decision → String
  | .allow => "allow"
  | .block => "block"
  | .approvalRequired => "approval_required"

/-- Strictest wins. -/
def Decision.severity : Decision → Nat
  | .allow => 0
  | .approvalRequired => 1
  | .block => 2

def SideEffect.rank : SideEffect → Nat
  | .none => 0
  | .localWrite => 1
  | .externalSend => 2
  | .externalPublish => 3
  | .spend => 4
  | .destructive => 5

def Trust.rank : Trust → Nat
  | .trusted => 0
  | .derived => 1
  | .untrusted => 2

/-- True when the actual trust is worse than the ceiling of a rule, i.e. the rule fires. -/
def trustSatisfies (actual requiredMax : Trust) : Bool := requiredMax.rank < actual.rank

/-- What the interpreter does with texts: the lower case of a text, and the text of a value that is
no JSON scalar. -/
structure TextRules where
  lower : Points → Points
  str : Value → Points

namespace Durable

/-- A rule whose conditions and outcome have been validated. -/
@[ext] structure Rule where
  id : Points
  description : Points
  tools : List Points
  sideEffectAtLeast : Option SideEffect
  targets : List Points
  payloadContains : List Points
  maxPayloadTrust : Option Trust
  sensitivities : List Points
  effect : Decision
  reason : Points
  approvalScope : Points
  redactions : List Points
  visible : id.all blankPoint = false
  spelled : ∀ items ∈ [tools, targets, payloadContains, sensitivities, redactions], [] ∉ items

/-! ### The text of a payload -/

/-- What flattening has written and counted so far. -/
structure Flattening where
  parts : List Points
  characterCount : Nat
  nodeCount : Nat

abbrev Flatten (α : Type) := StateT Flattening (Except PolicyFault) α

def payloadFault (subject : String) (limit : Nat) (unit : String) (told : Told subject := by decide) :
    PolicyFault :=
  ⟨subject ++ toString limit ++ unit, "policy_payload_matching", told.limit limit unit⟩

def appendText (value : Points) : Flatten Unit := fun s => do
  refuseIf (maxPolicyMatchPayloadCharacters - s.characterCount < value.length)
    (payloadFault "policy match payload text exceeds maximum of " maxPolicyMatchPayloadCharacters
      " characters")
  pure ((), { s with
    parts := s.parts ++ [value]
    characterCount := s.characterCount + value.length })

def enterNode (depth : Nat) : Flatten Unit := fun s => do
  refuseIf (maxPolicyMatchPayloadNestingDepth < depth)
    (payloadFault "policy match payload nesting exceeds maximum depth of "
      maxPolicyMatchPayloadNestingDepth "")
  refuseIf (maxPolicyMatchPayloadNodes < s.nodeCount + 1)
    (payloadFault "policy match payload node count exceeds maximum of " maxPolicyMatchPayloadNodes "")
  pure ((), { s with nodeCount := s.nodeCount + 1 })

/-- `str` of a leaf. -/
def leafText (rules : TextRules) : Value → Points
  | .null => Points.ofString "None"
  | .bool true => Points.ofString "True"
  | .bool false => Points.ofString "False"
  | .int i => ofChars (Numeral.ofInt i).chars
  | .float x => ofChars x.numeral.chars
  | .str s => s
  | v => rules.str v

mutual

/-- Flatten one value: the values of a mapping and the items of a sequence, with blanks between. -/
def flattenValue (rules : TextRules) (depth : Nat) : Value → Flatten Unit
  | .dict entries => do
    enterNode depth
    flattenEntries rules (depth + 1) 0 entries
  | .list items => do
    enterNode depth
    flattenItems rules (depth + 1) 0 items
  | .tuple items => do
    enterNode depth
    flattenItems rules (depth + 1) 0 items
  -- a leaf: one node, and its text
  | v => do
    enterNode depth
    appendText (leafText rules v)

def flattenItems (rules : TextRules) (depth index : Nat) : List Value → Flatten Unit
  | [] => pure ()
  | v :: vs => do
    if index = 0 then pure () else appendText (Points.ofString " ")
    flattenValue rules depth v
    flattenItems rules depth (index + 1) vs

def flattenEntries (rules : TextRules) (depth index : Nat) : List Entry → Flatten Unit
  | [] => pure ()
  | (_, v) :: es => do
    if index = 0 then pure () else appendText (Points.ofString " ")
    flattenValue rules depth v
    flattenEntries rules depth (index + 1) es

end

/-- Flatten payload values once while preserving legacy join semantics. -/
def boundedPayloadText (rules : TextRules) (payload : Value) : Except PolicyFault Points := do
  let (_, s) ← flattenValue rules 1 payload ⟨[], 0, 0⟩
  let lowered := rules.lower s.parts.flatten
  refuseIf (maxPolicyMatchPayloadCharacters < lowered.length)
    (payloadFault "normalized policy match payload text exceeds maximum of "
      maxPolicyMatchPayloadCharacters " characters")
  pure lowered

/-! ### Matching under ceilings -/

/-- The work of one evaluation, and the payload text once it has been asked for. -/
structure PolicyMatchState (rules : TextRules) (payload : List Entry) where
  payloadWorkUsed : Nat
  globWorkUsed : Nat
  payloadText : Option Points
  cached : ∀ text ∈ payloadText, boundedPayloadText rules (.dict payload) = .ok text

namespace PolicyMatchState

variable {rules : TextRules} {payload : List Entry}

abbrev Match (rules : TextRules) (payload : List Entry) (α : Type) :=
  StateT (PolicyMatchState rules payload) (Except PolicyFault) α

def initial : PolicyMatchState rules payload := ⟨0, 0, none, by simp⟩

def chargePayloadWork (units : Nat) : Match rules payload Unit := fun s => do
  refuseIf (maxPolicyPayloadMatchWorkUnits - s.payloadWorkUsed < units)
    (payloadFault "policy payload substring work exceeds maximum of " maxPolicyPayloadMatchWorkUnits
      " units")
  pure ((), { s with payloadWorkUsed := s.payloadWorkUsed + units })

def globFault (subject : String) (limit : Nat) (unit : String) (told : Told subject := by decide) :
    PolicyFault :=
  ⟨subject ++ toString limit ++ unit, "policy_glob_matching", told.limit limit unit⟩

def chargeGlobWork (units : Nat) : Match rules payload Unit := fun s => do
  refuseIf (maxPolicyGlobMatchWorkUnits - s.globWorkUsed < units)
    (globFault "policy glob match work exceeds maximum of " maxPolicyGlobMatchWorkUnits " units")
  pure ((), { s with globWorkUsed := s.globWorkUsed + units })

/-- `os.path.normcase` of a host whose paths have case. -/
def normcase (text : Points) : Points := text

/-- Try the patterns in order, up to the first that matches. -/
def matchPatterns (subject : Points) : List Points → Match rules payload Bool
  | [] => pure false
  | pattern :: patterns => do
    chargeGlobWork (subject.length + (normcase pattern).length)
    if fnmatchcase subject (normcase pattern) then pure true else matchPatterns subject patterns

def matchesAnyGlob (subject : Points) (patterns : List Points) (subjectLabel : String)
    (maximumCharacters : Nat) : Match rules payload Bool := do
  liftM (refuseIf (maximumCharacters < subject.length)
    (globFault ("policy glob " ++ subjectLabel ++ " exceeds maximum of ") maximumCharacters " characters"
      ((show Told "policy glob " by decide).append _ |>.append _)))
  liftM (refuseIf (maximumCharacters < (normcase subject).length)
    (globFault ("normalized policy glob " ++ subjectLabel ++ " exceeds maximum of ") maximumCharacters
      " characters" ((show Told "normalized policy glob " by decide).append _ |>.append _)))
  matchPatterns (normcase subject) patterns

/-- The payload text of this evaluation, flattened at most once. -/
def payloadTextFor : Match rules payload Points := fun s =>
  match s.payloadText with
  | some text => pure (text, s)
  | none =>
    match flat : boundedPayloadText rules (.dict payload) with
    | .error fault => throw fault
    | .ok text => pure (text, { s with
        payloadText := some text
        cached := fun other same => by rw [flat, Option.mem_some_iff.1 same] })

/-- Look for the terms in order, up to the first that occurs. -/
def containsTerm (payloadText : Points) : List Points → Match rules payload Bool
  | [] => pure false
  | term :: terms => do
    let loweredTerm := rules.lower term
    chargePayloadWork (payloadText.length + loweredTerm.length)
    if loweredTerm <:+: payloadText then pure true else containsTerm payloadText terms

end PolicyMatchState

open PolicyMatchState

/-- The context of a decision: bounded texts under bounded names. -/
abbrev PolicyContext := List (Points × Points)

def PolicyContext.get (context : PolicyContext) (name : String) : Points :=
  ((context.find? fun e => e.1 == Points.ofString name).map (·.2)).getD []

namespace Rule

variable {texts : TextRules} {payload : List Entry}

/-- The tool condition. -/
def matchesTools (rule : Rule) (toolName : Points) : Match texts payload Bool :=
  if rule.tools = [] then pure true
  else matchesAnyGlob toolName rule.tools "tool name" maxPolicyMatchToolNameCharacters

def matchesLevel (rule : Rule) (level : SideEffect) : Bool :=
  match rule.sideEffectAtLeast with
  | none => true
  | some threshold => threshold.rank ≤ level.rank

def matchesTargets (rule : Rule) (target : Points) : Match texts payload Bool :=
  if rule.targets = [] then pure true
  else matchesAnyGlob target rule.targets "target" maxPolicyMatchTargetCharacters

def matchesPayload (rule : Rule) : Match texts payload Bool :=
  if rule.payloadContains = [] then pure true
  else do
    let text ← payloadTextFor
    containsTerm text rule.payloadContains

def matchesTrust (rule : Rule) (trust : Trust) : Bool :=
  match rule.maxPayloadTrust with
  | none => true
  | some allowed => trustSatisfies trust allowed

def matchesSensitivity (rule : Rule) (context : PolicyContext) : Bool :=
  rule.sensitivities.isEmpty || rule.sensitivities.contains (context.get "sensitivity")

/-- All present conditions must match; the first that fails ends the matching of the rule. -/
def matchesAction (rule : Rule) (action : ProposedAction) (context : PolicyContext) :
    Match texts action.payload Bool := do
  if !(← rule.matchesTools action.toolName) then return false
  if !rule.matchesLevel action.sideEffectLevel then return false
  if !(← rule.matchesTargets action.target) then return false
  if !(← rule.matchesPayload) then return false
  if !rule.matchesTrust (worstTrust action.payloadSources) then return false
  return rule.matchesSensitivity context

end Rule
end Durable
end DefiantHarness
