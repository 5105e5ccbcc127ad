import DefiantHarness.PolicyMatching

/-! Which ceilings an action exceeds under a rule set, whatever the order of its rules. -/
namespace DefiantHarness

open Foundation

namespace Durable

private theorem told_glob (label : String) : Told ("policy glob " ++ label ++ " exceeds maximum of ") := by
  have told : Told "policy glob " := by decide
  exact (told.append _).append _

private theorem told_globWork : Told "policy glob match work exceeds maximum of " := by decide

private theorem told_payloadWork : Told "policy payload substring work exceeds maximum of " := by decide

/-- The fault of a subject that is too long for its patterns. -/
def tooLong (label : String) (maximum : Nat) : PolicyFault :=
  PolicyMatchState.globFault ("policy glob " ++ label ++ " exceeds maximum of ") maximum " characters"
    (told_glob label)

def globWorkFault : PolicyFault :=
  PolicyMatchState.globFault "policy glob match work exceeds maximum of " maxPolicyGlobMatchWorkUnits " units"
    told_globWork

def payloadWorkFault : PolicyFault :=
  payloadFault "policy payload substring work exceeds maximum of " maxPolicyPayloadMatchWorkUnits " units"
    told_payloadWork

namespace PolicyMatchState

variable {texts : TextRules} {payload : List Entry} {oversize : PolicyFault → Prop} {α β : Type}

/-- The faults of subjects that are too large, and of too much work in total. -/
def Exceeded (oversize : PolicyFault → Prop) (total : Nat × Nat) (fault : PolicyFault) : Prop :=
  oversize fault ∨ (fault = globWorkFault ∧ maxPolicyGlobMatchWorkUnits < total.1) ∨
    (fault = payloadWorkFault ∧ maxPolicyPayloadMatchWorkUnits < total.2)

theorem exceeded_mono (a b : Nat × Nat) (fault : PolicyFault) (below : a ≤ b)
    (exceeded : Exceeded oversize a fault) : Exceeded oversize b fault := by
  rcases exceeded with large | ⟨same, beyond⟩ | ⟨same, beyond⟩
  · exact .inl large
  · exact .inr (.inl ⟨same, beyond.trans_le below.1⟩)
  · exact .inr (.inr ⟨same, beyond.trans_le below.2⟩)

abbrev BlamesMatch (oversize : PolicyFault → Prop) (m : Match texts payload α) (cost : Nat × Nat) : Prop :=
  Blames used workLimit (Exceeded oversize) m cost

private theorem blames_glob (units : Nat) :
    BlamesMatch oversize (chargeGlobWork units : Match texts payload Unit) (units, 0) := by
  intro s fault _ failed
  simp only [chargeGlobWork] at failed
  by_cases beyond : maxPolicyGlobMatchWorkUnits - s.globWorkUsed < units
  · rw [refuseIf_of beyond] at failed
    obtain rfl := Except.error.inj failed
    exact .inr (.inl ⟨rfl, show _ < s.globWorkUsed + units by omega⟩)
  · rw [refuseIf_of_not beyond] at failed
    cases failed

private theorem blames_payload (units : Nat) :
    BlamesMatch oversize (chargePayloadWork units : Match texts payload Unit) (0, units) := by
  intro s fault _ failed
  simp only [chargePayloadWork] at failed
  by_cases beyond : maxPolicyPayloadMatchWorkUnits - s.payloadWorkUsed < units
  · rw [refuseIf_of beyond] at failed
    obtain rfl := Except.error.inj failed
    exact .inr (.inr ⟨rfl, show _ < s.payloadWorkUsed + units by omega⟩)
  · rw [refuseIf_of_not beyond] at failed
    cases failed

/-- A refusal is blamed on what it refuses. -/
private theorem blames_refuse {condition : Prop} [Decidable condition] {fault : PolicyFault}
    (named : condition → oversize fault) :
    BlamesMatch oversize (liftM (refuseIf condition fault) : Match texts payload Unit) 0 := by
  intro s other _ failed
  have unfolded : (liftM (refuseIf condition fault) : Match texts payload Unit) s =
    refuseIf condition fault >>= fun a => pure (a, s) := rfl
  rw [unfolded] at failed
  by_cases holds : condition
  · rw [refuseIf_of holds] at failed
    obtain rfl := Except.error.inj failed
    exact .inl (named holds)
  · rw [refuseIf_of_not holds] at failed
    cases failed

/-- A search that stops at its first hit is blamed for what it has tried. -/
private theorem blames_search {p : Prop} [Decidable p] {first rest : Nat × Nat}
    {head : Match texts payload Unit} {tail : Match texts payload Bool}
    (charge : ChargesMatch head True () first) (start : BlamesMatch oversize head first)
    (others : BlamesMatch oversize tail rest) :
    BlamesMatch oversize (head >>= fun _ => if p then pure true else tail)
      (first + if p then 0 else rest) := by
  apply Blames.bind exceeded_mono charge start
  intro _
  by_cases yes : p
  · rw [if_pos yes, if_pos yes]
    exact Blames.pure true
  · rw [if_neg yes, if_neg yes]
    exact others

private theorem blames_patterns (subject : Points) (patterns : List Points) :
    BlamesMatch oversize (matchPatterns subject patterns : Match texts payload Bool)
      (globWork subject patterns, 0) := by
  induction patterns with
  | nil => exact Blames.pure false
  | cons pattern patterns ih =>
    apply (blames_search (p := fnmatchcase subject pattern = true) (charges_glob _) (blames_glob _) ih).congr
    rw [globWork]
    split
    · rfl
    · rfl

private theorem blames_terms (payloadText : Points) (terms : List Points) :
    BlamesMatch oversize (containsTerm payloadText terms : Match texts payload Bool)
      (0, termWork texts payloadText terms) := by
  induction terms with
  | nil => exact Blames.pure false
  | cons term terms ih =>
    apply (blames_search (charges_payload _) (blames_payload _) ih).congr
    rw [termWork]
    split
    · rfl
    · rfl

/-- Patterns are blamed for a subject that is too long, and for their work. -/
private theorem blames_globs {subject : Points} {patterns : List Points} {label : String} {maximum : Nat}
    (named : patterns ≠ [] → maximum < subject.length → oversize (tooLong label maximum)) :
    BlamesMatch oversize
      (if patterns = [] then pure true
        else matchesAnyGlob subject patterns label maximum : Match texts payload Bool)
      (globWork subject patterns, 0) := by
  by_cases none : patterns = []
  · rw [if_pos none, none]
    exact Blames.pure true
  · rw [if_neg none]
    unfold matchesAnyGlob
    have first : BlamesMatch oversize
        (liftM (refuseIf (maximum < subject.length) (tooLong label maximum)) : Match texts payload Unit) 0 :=
      blames_refuse (named none)
    refine (first.bind exceeded_mono charges_refuse fun fits => ?_).congr (zero_add _)
    -- the normalized subject is the subject, and has passed already
    have again (fault : PolicyFault) : BlamesMatch oversize
        (liftM (refuseIf (maximum < (normcase subject).length) fault) : Match texts payload Unit) 0 :=
      blames_refuse fun long => absurd long fits
    refine ((again _).bind exceeded_mono charges_refuse fun _ => ?_).congr (zero_add _)
    exact blames_patterns _ _

private theorem blames_payloadText
    (named : ∀ fault, boundedPayloadText texts (.dict payload) = .error fault → oversize fault) :
    BlamesMatch oversize (payloadTextFor : Match texts payload Points) 0 := by
  rintro ⟨payloadWork, globWork, known, cached⟩ fault _ failed
  cases known with
  | some text => cases failed
  | none =>
    unfold payloadTextFor at failed
    dsimp only at failed
    split at failed
    next early refused =>
      obtain rfl : early = fault := Except.error.inj failed
      exact .inl (named early refused)
    next text kept => cases failed

private theorem blames_condition {rest : Match texts payload Bool} {a : Bool} {later : Nat × Nat}
    (tail : a = true → BlamesMatch oversize rest later) :
    BlamesMatch oversize (if (!a) = true then pure false else rest) (if a then later else 0) := by
  cases a with
  | true => exact tail rfl
  | false => exact Blames.pure false

/-- A condition that fails ends the matching, and the blame. -/
private theorem blames_and {m rest : Match texts payload Bool} {p : Prop} {a : Bool}
    {first later : Nat × Nat} (charge : ChargesMatch m p a first) (head : BlamesMatch oversize m first)
    (tail : a = true → BlamesMatch oversize rest later) :
    BlamesMatch oversize (m >>= fun hit => if (!hit) = true then pure false else rest)
      (first + if a then later else 0) := by
  exact Blames.bind exceeded_mono charge head fun _ => blames_condition tail

end PolicyMatchState

open PolicyMatchState

namespace Rule

variable {texts : TextRules} {action : ProposedAction} (rule : Rule)

/-- A rule that comes to look at the target. -/
def Reached (action : ProposedAction) : Prop :=
  rule.toolHolds action = true ∧ rule.matchesLevel action.sideEffectLevel = true

/-- The subjects of a rule that are too large for it. -/
inductive Oversize (texts : TextRules) (action : ProposedAction) : PolicyFault → Prop where
  | toolName (asked : rule.tools ≠ []) (long : maxPolicyMatchToolNameCharacters < action.toolName.length) :
    Oversize texts action (tooLong "tool name" maxPolicyMatchToolNameCharacters)
  | target (reached : rule.Reached action) (asked : rule.targets ≠ [])
    (long : maxPolicyMatchTargetCharacters < action.target.length) :
    Oversize texts action (tooLong "target" maxPolicyMatchTargetCharacters)
  | payload {fault : PolicyFault} (reached : rule.Reached action) (target : rule.targetHolds action = true)
    (asked : rule.payloadContains ≠ [])
    (refused : boundedPayloadText texts (.dict action.payload) = .error fault) : Oversize texts action fault

private theorem blames_payloadTerms {oversize : PolicyFault → Prop}
    (named : rule.payloadContains ≠ [] → ∀ fault,
      boundedPayloadText texts (.dict action.payload) = .error fault → oversize fault) :
    BlamesMatch oversize (rule.matchesPayload : Match texts action.payload Bool)
      (0, if rule.payloadContains = [] then 0
        else termWork texts (payloadTextOf texts action.payload) rule.payloadContains) := by
  unfold matchesPayload
  by_cases none : rule.payloadContains = []
  · rw [if_pos none, if_pos none]
    exact Blames.pure true
  · rw [if_neg none, if_neg none]
    refine ((blames_payloadText (named none)).bind exceeded_mono charges_payloadText fun _ => ?_).congr
      (zero_add _)
    exact blames_terms _ _

theorem blames_matches {oversize : PolicyFault → Prop} {context : PolicyContext}
    (named : ∀ fault, rule.Oversize texts action fault → oversize fault) :
    BlamesMatch oversize (rule.matchesAction action context : Match texts action.payload Bool)
      (rule.work texts action) := by
  have tools : BlamesMatch oversize (rule.matchesTools action.toolName : Match texts action.payload Bool) _ :=
    blames_globs fun asked long => named _ (.toolName asked long)
  have toolsCharge : ChargesMatch (rule.matchesTools action.toolName : Match texts action.payload Bool) _
      (rule.toolHolds action) _ :=
    charges_globs action.toolName rule.tools "tool name" maxPolicyMatchToolNameCharacters
  have targetsCharge : ChargesMatch (rule.matchesTargets action.target : Match texts action.payload Bool) _
      (rule.targetHolds action) _ :=
    charges_globs action.target rule.targets "target" maxPolicyMatchTargetCharacters
  have targets (reached : rule.Reached action) :
      BlamesMatch oversize (rule.matchesTargets action.target : Match texts action.payload Bool) _ :=
    blames_globs fun asked long => named _ (.target reached asked long)
  have terms (reached : rule.Reached action) (target : rule.targetHolds action = true) :
      BlamesMatch oversize (rule.matchesPayload : Match texts action.payload Bool) _ :=
    rule.blames_payloadTerms fun asked fault refused => named fault (.payload reached target asked refused)
  -- a criterion is charged for only when those before it hold, in the source's order
  apply Blames.congr
  · apply blames_and toolsCharge tools
    intro tool
    apply blames_condition
    intro level
    apply blames_and targetsCharge (targets ⟨tool, level⟩)
    intro target
    apply blames_and (rule.charges_terms action) (terms ⟨tool, level⟩ target)
    intro _
    exact blames_condition fun _ => Blames.pure _
  · simp only [work, ite_self, add_zero, Bool.and_eq_true, ite_and]

end Rule

/-! ### What a rule set exceeds -/

namespace PolicyEngine

variable {sha : TextHash} (engine : PolicyEngine sha) {texts : TextRules} {action : ProposedAction}

/-- A subject that is too large for the known tools or, once the tool is known, for some rule. -/
inductive Oversize (texts : TextRules) (action : ProposedAction) : PolicyFault → Prop where
  | toolName (asked : engine.knownTools ≠ [])
    (long : maxPolicyMatchToolNameCharacters < action.toolName.length) :
    Oversize texts action (tooLong "tool name" maxPolicyMatchToolNameCharacters)
  | rule {rule : Rule} {fault : PolicyFault} (known : engine.knows action.toolName = true)
    (loaded : rule ∈ engine.rules) (large : rule.Oversize texts action fault) : Oversize texts action fault

/-- The glob work and the payload work of all rules, as if nothing stopped it. -/
def totalWork (texts : TextRules) (action : ProposedAction) : Nat × Nat :=
  (globWork action.toolName engine.knownTools, 0) +
    if engine.knows action.toolName then (engine.rules.map fun rule => rule.work texts action).sum else 0

/-- The ceilings that an action exceeds under the rules, by their faults. -/
def Exceeds (texts : TextRules) (action : ProposedAction) : PolicyFault → Prop :=
  Exceeded (engine.Oversize texts action) (engine.totalWork texts action)

private theorem blames_rules {oversize : PolicyFault → Prop} {context : PolicyContext} (rules : List Rule)
    (named : ∀ rule ∈ rules, ∀ fault, rule.Oversize texts action fault → oversize fault) :
    BlamesMatch oversize (matchRules action context rules : Match texts action.payload (List Rule))
      (rules.map fun rule => rule.work texts action).sum := by
  induction rules with
  | nil => exact Blames.pure []
  | cons rule rules ih =>
    rw [List.map_cons, List.sum_cons, matchRules]
    have head : BlamesMatch oversize (rule.matchesAction action context : Match texts action.payload Bool) _ :=
      rule.blames_matches (named rule List.mem_cons_self)
    have tail := ih fun rule inside => named rule (List.mem_cons_of_mem _ inside)
    refine head.bind exceeded_mono (rule.charges_matches action context) fun _ => ?_
    refine (tail.bind exceeded_mono (charges_rules action context rules) fun _ => ?_).congr (add_zero _)
    exact Blames.pure _

/-- Where matching breaks a ceiling, the action exceeds it. -/
theorem exceeds_of_error {context : PolicyContext} {fault : PolicyFault}
    (failed : (engine.matchedRules action context : Match texts action.payload _) initial = .error fault) :
    engine.Exceeds texts action fault := by
  have tools : BlamesMatch (engine.Oversize texts action)
      (engine.isKnownTool action.toolName : Match texts action.payload Bool) _ :=
    blames_globs fun asked long => .toolName asked long
  have charge : ChargesMatch (engine.isKnownTool action.toolName : Match texts action.payload Bool) _
      (engine.knows action.toolName) _ :=
    charges_globs action.toolName engine.knownTools "tool name" maxPolicyMatchToolNameCharacters
  have all : BlamesMatch (engine.Oversize texts action)
      (engine.matchedRules action context : Match texts action.payload _) (engine.totalWork texts action) := by
    refine tools.bind exceeded_mono charge fun _ => ?_
    cases known : engine.knows action.toolName with
    | false => exact Blames.pure none
    | true =>
      have rules : BlamesMatch (engine.Oversize texts action)
          (matchRules action context engine.rules : Match texts action.payload (List Rule)) _ :=
        blames_rules engine.rules fun rule loaded fault large => .rule known loaded large
      refine (rules.bind exceeded_mono (charges_rules action context engine.rules) fun _ => ?_).congr
        (add_zero _)
      exact Blames.pure _
  have blamed := all initial fault ⟨Nat.zero_le _, Nat.zero_le _⟩ failed
  rwa [show used (initial : PolicyMatchState texts action.payload) = 0 from rfl, zero_add] at blamed

end PolicyEngine
end Durable
end DefiantHarness
