import Mathlib.Algebra.BigOperators.Group.List.Basic
import Mathlib.Algebra.Order.Monoid.Prod
import DefiantHarness.Foundation.Meter
import DefiantHarness.PolicyEngine

/-! What matching computes and what it charges, rule by rule and over a rule set. -/
namespace DefiantHarness

open Foundation

namespace Durable

/-- Whether a subject matches one of some patterns. -/
def anyGlob (subject : Points) (patterns : List Points) : Bool :=
  patterns.any fun pattern => fnmatchcase subject pattern

/-- The work of trying patterns up to the first that matches. -/
def globWork (subject : Points) : List Points → Nat
  | [] => 0
  | pattern :: patterns =>
    subject.length + pattern.length +
      if fnmatchcase subject pattern then 0 else globWork subject patterns

def anyTerm (texts : TextRules) (payloadText : Points) (terms : List Points) : Bool :=
  terms.any fun term => decide (texts.lower term <:+: payloadText)

def termWork (texts : TextRules) (payloadText : Points) : List Points → Nat
  | [] => 0
  | term :: terms =>
    payloadText.length + (texts.lower term).length +
      if texts.lower term <:+: payloadText then 0 else termWork texts payloadText terms

/-- The flattened text of a payload, where it has one. -/
def payloadTextOf (texts : TextRules) (payload : List Entry) : Points :=
  ((boundedPayloadText texts (.dict payload)).toOption).getD []

/-- A payload that flattens within the ceilings. -/
def Flattens (texts : TextRules) (payload : List Entry) : Prop :=
  boundedPayloadText texts (.dict payload) = .ok (payloadTextOf texts payload)

theorem flattens_of_ok {texts : TextRules} {payload : List Entry} {text : Points}
    (flat : boundedPayloadText texts (.dict payload) = .ok text) :
    Flattens texts payload ∧ payloadTextOf texts payload = text := by
  have same : payloadTextOf texts payload = text := by rw [payloadTextOf, flat]; rfl
  exact ⟨by rw [Flattens, same, flat], same⟩

namespace Rule

variable (texts : TextRules) (rule : Rule) (action : ProposedAction) (context : PolicyContext)

def toolHolds : Bool := rule.tools.isEmpty || anyGlob action.toolName rule.tools

def targetHolds : Bool := rule.targets.isEmpty || anyGlob action.target rule.targets

def payloadHolds : Bool :=
  rule.payloadContains.isEmpty || anyTerm texts (payloadTextOf texts action.payload) rule.payloadContains

def trustHolds : Bool := rule.matchesTrust (worstTrust action.payloadSources)

/-- All match conditions of a rule, without the ceilings. -/
def holds : Bool :=
  rule.toolHolds action && (rule.matchesLevel action.sideEffectLevel && (rule.targetHolds action &&
    (rule.payloadHolds texts action && (rule.trustHolds action && rule.matchesSensitivity context))))

/-- The subjects that the conditions come to look at are within their ceilings. -/
def Admissible : Prop :=
  (rule.tools ≠ [] → action.toolName.length ≤ maxPolicyMatchToolNameCharacters) ∧
  (rule.toolHolds action = true → rule.matchesLevel action.sideEffectLevel = true →
    (rule.targets ≠ [] → action.target.length ≤ maxPolicyMatchTargetCharacters) ∧
    (rule.targetHolds action = true → rule.payloadContains ≠ [] → Flattens texts action.payload))

/-- The glob work and the payload work of a rule; a condition that fails ends it. -/
def work : Nat × Nat :=
  (globWork action.toolName rule.tools, 0) +
    if rule.toolHolds action && rule.matchesLevel action.sideEffectLevel then
      (globWork action.target rule.targets, 0) +
        if rule.targetHolds action then
          (0, if rule.payloadContains = [] then 0
            else termWork texts (payloadTextOf texts action.payload) rule.payloadContains)
        else 0
    else 0

end Rule

/-! ### The charges of matching -/

namespace PolicyMatchState

variable {texts : TextRules} {payload : List Entry}

/-- The glob work and the payload work used so far. -/
def used (s : PolicyMatchState texts payload) : Nat × Nat := (s.globWorkUsed, s.payloadWorkUsed)

/-- The ceilings on both kinds of work. -/
def workLimit : Nat × Nat := (maxPolicyGlobMatchWorkUnits, maxPolicyPayloadMatchWorkUnits)

abbrev ChargesMatch (m : Match texts payload α) (p : Prop) (a : α) (cost : Nat × Nat) : Prop :=
  Charges used workLimit m p a cost

theorem charges_glob (units : Nat) :
    ChargesMatch (chargeGlobWork units : Match texts payload Unit) True () (units, 0) := by
  intro s below
  have start : s.globWorkUsed ≤ maxPolicyGlobMatchWorkUnits := below.1
  constructor
  · intro b t run
    simp only [chargeGlobWork, refuseIf_bind_ok_iff, pure_ok_iff, Prod.mk.injEq] at run
    obtain ⟨within, -, rfl⟩ := run
    have room : s.globWorkUsed + units ≤ maxPolicyGlobMatchWorkUnits := by omega
    exact ⟨trivial, rfl, rfl, room, below.2⟩
  · intro _ inside
    have room : s.globWorkUsed + units ≤ maxPolicyGlobMatchWorkUnits := inside.1
    exact ⟨_, refuseIf_bind_ok_iff.2 ⟨by omega, rfl⟩⟩

theorem charges_payload (units : Nat) :
    ChargesMatch (chargePayloadWork units : Match texts payload Unit) True () (0, units) := by
  intro s below
  have start : s.payloadWorkUsed ≤ maxPolicyPayloadMatchWorkUnits := below.2
  constructor
  · intro b t run
    simp only [chargePayloadWork, refuseIf_bind_ok_iff, pure_ok_iff, Prod.mk.injEq] at run
    obtain ⟨within, -, rfl⟩ := run
    have room : s.payloadWorkUsed + units ≤ maxPolicyPayloadMatchWorkUnits := by omega
    exact ⟨trivial, rfl, rfl, below.1, room⟩
  · intro _ inside
    have room : s.payloadWorkUsed + units ≤ maxPolicyPayloadMatchWorkUnits := inside.2
    exact ⟨_, refuseIf_bind_ok_iff.2 ⟨by omega, rfl⟩⟩

/-- A search that stops at its first hit charges for what it has tried. -/
private theorem charges_search {p : Prop} [Decidable p] {first rest : Nat × Nat}
    {head : Match texts payload Unit} {tail : Match texts payload Bool} {found : Bool}
    (charge : ChargesMatch head True () first) (others : ChargesMatch tail True found rest) :
    ChargesMatch (head >>= fun _ => if p then pure true else tail) True (decide p || found)
      (first + if p then 0 else rest) := by
  have later : ChargesMatch (if p then pure true else tail) True (decide p || found)
      (if p then 0 else rest) := by
    by_cases yes : p
    · rw [if_pos yes, if_pos yes, decide_eq_true yes]
      exact Charges.pure true
    · rw [if_neg yes, if_neg yes, decide_eq_false yes]
      exact others
  exact (Charges.bind charge fun _ => later).congr and_self_iff rfl

private theorem charges_patterns (subject : Points) (patterns : List Points) :
    ChargesMatch (matchPatterns subject patterns : Match texts payload Bool) True
      (anyGlob subject patterns) (globWork subject patterns, 0) := by
  induction patterns with
  | nil => exact Charges.pure false
  | cons pattern patterns ih =>
    have step := charges_search (p := fnmatchcase subject pattern = true)
      (charges_glob (subject.length + pattern.length)) ih
    rw [Bool.decide_eq_true] at step
    apply step.congr Iff.rfl
    rw [globWork]
    split
    · rfl
    · rfl

private theorem charges_terms (payloadText : Points) (terms : List Points) :
    ChargesMatch (containsTerm payloadText terms : Match texts payload Bool) True
      (anyTerm texts payloadText terms) (0, termWork texts payloadText terms) := by
  induction terms with
  | nil => exact Charges.pure false
  | cons term terms ih =>
    apply (charges_search (charges_payload (payloadText.length + (texts.lower term).length)) ih).congr
      Iff.rfl
    rw [termWork]
    split
    · rfl
    · rfl

private theorem lift_ok_iff {x : Except PolicyFault α} {s t : PolicyMatchState texts payload} {a : α} :
    (liftM x : Match texts payload α) s = .ok (a, t) ↔ x = .ok a ∧ t = s := by
  have unfolded : (liftM x : Match texts payload α) s = x >>= fun a => pure (a, s) := rfl
  rw [unfolded, bind_ok_iff]
  constructor
  · rintro ⟨b, result, same⟩
    obtain ⟨rfl, rfl⟩ := Prod.mk.inj (pure_ok_iff.1 same)
    exact ⟨result, rfl⟩
  · rintro ⟨result, rfl⟩
    exact ⟨a, result, rfl⟩

theorem charges_refuse {condition : Prop} [Decidable condition] {fault : PolicyFault} :
    ChargesMatch (liftM (refuseIf condition fault) : Match texts payload Unit) (¬ condition) () 0 := by
  apply Charges.free
  · intro s b t run
    obtain ⟨passed, rfl⟩ := lift_ok_iff.1 run
    exact ⟨refuseIf_ok_iff.1 passed, rfl, rfl⟩
  · intro passes s
    exact ⟨s, lift_ok_iff.2 ⟨refuseIf_of_not passes, rfl⟩⟩

private theorem charges_anyGlob (subject : Points) (patterns : List Points) (label : String) (maximum : Nat) :
    ChargesMatch (matchesAnyGlob subject patterns label maximum : Match texts payload Bool)
      (subject.length ≤ maximum) (anyGlob subject patterns) (globWork subject patterns, 0) := by
  apply (charges_refuse.bind fun _ => charges_refuse.bind fun _ => charges_patterns subject patterns).congr
  · simp [normcase]
  · simp

theorem charges_payloadText :
    ChargesMatch (payloadTextFor : Match texts payload Points) (Flattens texts payload)
      (payloadTextOf texts payload) 0 := by
  -- flattening charges no match work, and the text kept is the one a fresh run would give
  apply Charges.free
  · rintro ⟨payloadWork, globWork, known, cached⟩ text t run
    cases known with
    | some known =>
      obtain ⟨rfl, rfl⟩ := Prod.mk.inj (pure_ok_iff.1 run)
      obtain ⟨flat, same⟩ := flattens_of_ok (cached text rfl)
      exact ⟨flat, same.symm, rfl⟩
    | none =>
      unfold payloadTextFor at run
      dsimp only at run
      split at run
      · cases run
      next known flat =>
        obtain ⟨rfl, rfl⟩ := Prod.mk.inj (pure_ok_iff.1 run)
        obtain ⟨flat, same⟩ := flattens_of_ok flat
        exact ⟨flat, same.symm, rfl⟩
  · rintro flat ⟨payloadWork, globWork, known, cached⟩
    cases known with
    | some known =>
      obtain ⟨-, rfl⟩ := flattens_of_ok (cached known rfl)
      exact ⟨_, rfl⟩
    | none =>
      unfold payloadTextFor
      dsimp only
      split
      next fault refused =>
        rw [Flattens, refused] at flat
        cases flat
      next known flat =>
        obtain ⟨-, rfl⟩ := flattens_of_ok flat
        exact ⟨_, rfl⟩

/-- A condition that fails ends the matching; one that holds leads on. -/
private theorem charges_and {m rest : Match texts payload Bool} {p q : Prop} {a b : Bool}
    {first later : Nat × Nat} (head : ChargesMatch m p a first)
    (tail : p → a = true → ChargesMatch rest q b later) :
    ChargesMatch (m >>= fun hit => if (!hit) = true then pure false else rest) (p ∧ (a = true → q))
      (a && b) (first + if a then later else 0) := by
  apply Charges.bind head
  intro held
  cases a with
  | true => exact (tail held rfl).congr (by simp) (by simp)
  | false => exact (Charges.pure false).congr (by simp) (by simp)

private theorem charges_condition {rest : Match texts payload Bool} {q : Prop} {a b : Bool}
    {later : Nat × Nat} (tail : a = true → ChargesMatch rest q b later) :
    ChargesMatch (if (!a) = true then pure false else rest) (a = true → q) (a && b)
      (if a then later else 0) := by
  have known : ChargesMatch (pure a : Match texts payload Bool) True a 0 := Charges.pure a
  exact (charges_and known fun _ => tail).congr (by simp) (by simp)

/-- Patterns that are not there match everything. -/
theorem charges_globs (subject : Points) (patterns : List Points) (label : String) (maximum : Nat) :
    ChargesMatch
      (if patterns = [] then pure true
        else matchesAnyGlob subject patterns label maximum : Match texts payload Bool)
      (patterns ≠ [] → subject.length ≤ maximum) (patterns.isEmpty || anyGlob subject patterns)
      (globWork subject patterns, 0) := by
  cases patterns with
  | nil =>
    rw [if_pos rfl]
    exact (Charges.pure true).congr (by simp) rfl
  | cons pattern patterns =>
    rw [if_neg (List.cons_ne_nil _ _)]
    exact (charges_anyGlob subject _ label maximum).congr (by simp) rfl

end PolicyMatchState

open PolicyMatchState

namespace Rule

variable {texts : TextRules} (rule : Rule) (action : ProposedAction) (context : PolicyContext)

theorem charges_terms : ChargesMatch (rule.matchesPayload : Match texts action.payload Bool)
    (rule.payloadContains ≠ [] → Flattens texts action.payload) (rule.payloadHolds texts action)
    (0, if rule.payloadContains = [] then 0
      else termWork texts (payloadTextOf texts action.payload) rule.payloadContains) := by
  unfold matchesPayload payloadHolds
  by_cases none : rule.payloadContains = []
  · rw [if_pos none, if_pos none, none]
    exact (Charges.pure true).congr (by simp) rfl
  · rw [if_neg none, if_neg none, List.isEmpty_eq_false_iff.2 none, Bool.false_or]
    have search : ChargesMatch
        (containsTerm (payloadTextOf texts action.payload) rule.payloadContains :
          Match texts action.payload Bool) True _ _ := PolicyMatchState.charges_terms _ _
    exact (Charges.bind charges_payloadText fun _ => search).congr (by simp [none]) (by simp)

/-- Matching a rule computes whether it holds, for its own work. -/
theorem charges_matches : ChargesMatch
    (rule.matchesAction action context : Match texts action.payload Bool)
    (rule.Admissible texts action) (rule.holds texts action context) (rule.work texts action) := by
  have tools : ChargesMatch (rule.matchesTools action.toolName : Match texts action.payload Bool) _
      (rule.toolHolds action) _ :=
    charges_globs action.toolName rule.tools "tool name" maxPolicyMatchToolNameCharacters
  have targets : ChargesMatch (rule.matchesTargets action.target : Match texts action.payload Bool) _
      (rule.targetHolds action) _ :=
    charges_globs action.target rule.targets "target" maxPolicyMatchTargetCharacters
  have sensitivity : ChargesMatch
      (pure (rule.matchesSensitivity context) : Match texts action.payload Bool) True _ 0 :=
    Charges.pure (rule.matchesSensitivity context)
  have trust := charges_condition (a := rule.trustHolds action) fun _ => sensitivity
  have later := charges_and targets fun _ _ => charges_and (rule.charges_terms action) fun _ _ => trust
  have all := charges_and tools fun _ _ =>
    charges_condition (a := rule.matchesLevel action.sideEffectLevel) fun _ => later
  apply all.congr
  · simp only [Admissible, implies_true, and_true]
  · simp only [work, ite_self, add_zero, Bool.and_eq_true, ite_and]

end Rule

namespace PolicyEngine

variable {sha : TextHash} (engine : PolicyEngine sha) {texts : TextRules} (action : ProposedAction)
  (context : PolicyContext)

theorem charges_rules (rules : List Rule) : ChargesMatch
    (matchRules action context rules : Match texts action.payload (List Rule))
    (∀ rule ∈ rules, rule.Admissible texts action)
    (rules.filter fun rule => rule.holds texts action context)
    (rules.map fun rule => rule.work texts action).sum := by
  induction rules with
  | nil => exact (Charges.pure []).congr (by simp) rfl
  | cons rule rules ih =>
    have rest : ChargesMatch (matchRules action context rules >>= fun rest =>
        pure (if rule.holds texts action context then rule :: rest else rest) :
          Match texts action.payload (List Rule)) _ _ _ := ih.bind fun _ => Charges.pure _
    rw [matchRules, List.filter_cons]
    apply (Charges.bind (rule.charges_matches action context) fun _ => rest).congr
    · simp
    · simp

/-- A tool that some pack classifies. -/
def knows (toolName : Points) : Bool := engine.knownTools.isEmpty || anyGlob toolName engine.knownTools

/-- The rules that hold for an action. -/
def matching (texts : TextRules) (action : ProposedAction) (context : PolicyContext) : List Rule :=
  engine.rules.filter fun rule => rule.holds texts action context

/-- Everything that matching looks at is within the ceilings, its work in total included. -/
structure Within (texts : TextRules) (action : ProposedAction) : Prop where
  toolName : engine.knownTools ≠ [] → action.toolName.length ≤ maxPolicyMatchToolNameCharacters
  rules : engine.knows action.toolName = true → ∀ rule ∈ engine.rules, rule.Admissible texts action
  work : (globWork action.toolName engine.knownTools, 0) +
    (if engine.knows action.toolName then (engine.rules.map fun rule => rule.work texts action).sum
      else 0) ≤ workLimit

private theorem charges_matched : ChargesMatch
    (engine.matchedRules action context : Match texts action.payload (Option (List Rule)))
    ((engine.knownTools ≠ [] → action.toolName.length ≤ maxPolicyMatchToolNameCharacters) ∧
      (engine.knows action.toolName = true → ∀ rule ∈ engine.rules, rule.Admissible texts action))
    (if engine.knows action.toolName then some (engine.matching texts action context) else none)
    ((globWork action.toolName engine.knownTools, 0) +
      if engine.knows action.toolName then (engine.rules.map fun rule => rule.work texts action).sum
      else 0) := by
  have known : ChargesMatch (engine.isKnownTool action.toolName : Match texts action.payload Bool) _
      (engine.knows action.toolName) _ :=
    charges_globs action.toolName engine.knownTools "tool name" maxPolicyMatchToolNameCharacters
  apply Charges.bind known
  intro _
  cases engine.knows action.toolName with
  | true =>
    have rules : ChargesMatch (matchRules action context engine.rules >>= fun matched =>
        pure (some matched) : Match texts action.payload _) _ _ _ :=
      (charges_rules action context engine.rules).bind fun _ => Charges.pure _
    exact rules.congr (by simp) (by simp)
  | false => exact (Charges.pure none).congr (by simp) (by simp)

/-- Matching returns exactly within the ceilings, with the rules that hold. -/
theorem matchedRules_ok_iff {result : Option (List Rule)} :
    (∃ t, (engine.matchedRules action context : Match texts action.payload _).run initial =
        .ok (result, t)) ↔
      engine.Within texts action ∧ result =
        if engine.knows action.toolName then some (engine.matching texts action context) else none := by
  have zero : used (initial : PolicyMatchState texts action.payload) = 0 := rfl
  have start : used (initial : PolicyMatchState texts action.payload) ≤ workLimit :=
    ⟨Nat.zero_le _, Nat.zero_le _⟩
  obtain ⟨sound, complete⟩ := charges_matched engine action context initial start
  constructor
  · rintro ⟨t, run⟩
    obtain ⟨⟨toolName, rules⟩, rfl, cost, within⟩ := sound _ _ run
    rw [cost, zero, zero_add] at within
    exact ⟨⟨toolName, rules, within⟩, rfl⟩
  · rintro ⟨within, rfl⟩
    exact complete ⟨within.toolName, within.rules⟩ (by rw [zero, zero_add]; exact within.work)

end PolicyEngine
end Durable
end DefiantHarness
