import DefiantHarness.PolicyMatching
import DefiantHarness.SnapshotCost

/-! The strictest matching rule decides: the verdict of an engine about an action, the order of its
rules, and further rules. -/
namespace DefiantHarness

open Foundation

namespace Durable

/-! ### The records of a decision -/

/-- Plain texts are admitted as they stand. -/
private theorem nodes_texts (items : List Points) :
    (Value.list (items.map .str)).nodes = items.length + 1 := by
  have each : Value.nodesItems (items.map .str) = items.length := by
    induction items with
    | nil => rfl
    | cons s items ih => rw [List.map_cons, Value.nodesItems, ih, Value.nodes, List.length_cons, Nat.add_comm]
  rw [Value.nodes, each, Nat.add_comm]

private theorem snapshot_texts (items : List Points) :
    (Value.list (items.map .str)).snapshot = .list (items.map .str) := by
  rw [Value.snapshot, Value.snapshotItems_eq, List.map_map]
  rfl

private theorem stringsOf_texts (items : List Points) : stringsOf (.list (items.map .str)) = some items := by
  rw [stringsOf]
  induction items with
  | nil => rfl
  | cons s items ih => rw [List.map_cons, List.mapM_cons, ih]; rfl

private theorem contractSnapshot_ok_iff {v snapshot : Value} {fieldName : String} :
    authorityContractSnapshot v fieldName = .ok snapshot ↔
      Hashable maxActionHashCanonicalBytes v ∧ snapshot = v.snapshot := by
  rw [authorityContractSnapshot, mapError_ok_iff, validate_ok_iff]
  simp only [Ceiling.admits, decide_eq_true_eq]
  constructor
  · rintro ⟨admissible, fits, same⟩
    exact ⟨⟨admissible, fits⟩, same⟩
  · rintro ⟨⟨admissible, fits⟩, same⟩
    exact ⟨admissible, fits, same⟩

private theorem stringList_ok_iff {items recorded : List Points} {fieldName : String} :
    authorityStringListSnapshot items fieldName = .ok recorded ↔
      Hashable maxActionHashCanonicalBytes (.list (items.map .str)) ∧ recorded = items := by
  simp only [authorityStringListSnapshot, bind_ok_iff, refuseIf_ok_iff, contractSnapshot_ok_iff,
    orRefuse_ok_iff]
  constructor
  · rintro ⟨-, -, _, ⟨fits, rfl⟩, strings⟩
    rw [snapshot_texts, stringsOf_texts] at strings
    exact ⟨fits, (Option.some.inj strings).symm⟩
  · rintro ⟨fits, rfl⟩
    have nodes := fits.admissible.nodes
    rw [nodes_texts] at nodes
    refine ⟨(), by omega, _, ⟨fits, rfl⟩, ?_⟩
    rw [snapshot_texts, stringsOf_texts]

namespace GuardrailDecision

/-- The lists and the inputs of a decision stay within the canonical limits of a record. -/
structure Fits (d : GuardrailDecision) : Prop where
  ids : Hashable maxActionHashCanonicalBytes (.list (d.policyIds.map .str))
  redactions : Hashable maxActionHashCanonicalBytes (.list (d.redactions.map .str))
  inputs : Hashable maxActionHashCanonicalBytes d.decisionInputs

/-- What the constructor keeps. -/
def recorded (d : GuardrailDecision) : GuardrailDecision :=
  { d with decisionInputs := d.decisionInputs.snapshot }

theorem validateContract_ok_iff {d kept : GuardrailDecision} :
    d.validateContract = .ok kept ↔
      d.reason.all blankPoint = false ∧ (d.policyIds ≠ [] ∧ [] ∉ d.policyIds) ∧ d.Fits ∧
        kept = d.recorded := by
  simp only [validateContract, requireText, bind_ok_iff, orRefuse_ok_iff, refuseIf_ok_iff, pure_ok_iff,
    stringList_ok_iff, contractSnapshot_ok_iff, not_or]
  constructor
  · rintro ⟨_, ⟨_, same, -, visible, rfl⟩, _, ⟨ids, rfl⟩, -, named, _, ⟨redactions, rfl⟩, _, ⟨inputs, rfl⟩, rfl⟩
    obtain rfl := Option.some.inj same
    exact ⟨Bool.eq_false_iff.2 visible, named, ⟨ids, redactions, inputs⟩, rfl⟩
  · rintro ⟨visible, named, fits, rfl⟩
    exact ⟨_, ⟨_, rfl, (), Bool.eq_false_iff.1 visible, rfl⟩, _, ⟨fits.ids, rfl⟩, (), named, _,
      ⟨fits.redactions, rfl⟩, _, ⟨fits.inputs, rfl⟩, rfl⟩

end GuardrailDecision
/-! ### The strictest of some rules -/

namespace Rule

/-- A rule whose reason, or else its description, is no text of blanks alone. -/
def Explained (rule : Rule) : Prop :=
  if rule.reason ≠ [] then rule.reason.all blankPoint = false
  else rule.description ≠ [] → rule.description.all blankPoint = false

end Rule

theorem severity_injective {a b : Decision} (same : a.severity = b.severity) : a = b := by
  cases a <;> cases b <;> first | rfl | cases same

namespace PolicyEngine

theorem explained_iff {rule : Rule} : (ruleReason rule).all blankPoint = false ↔ rule.Explained := by
  unfold ruleReason Rule.Explained
  split
  · rfl
  · split
    next described => simp [described]
    next bare =>
      have told : (Points.ofString "matched " ++ rule.id).all blankPoint = false := by
        rw [List.all_append, show (Points.ofString "matched ").all blankPoint = false by decide,
          Bool.false_and]
      simp [told, not_not.1 bare]

theorem worst_eq_none_iff {rules : List Rule} : worst rules = none ↔ rules = [] := by
  cases rules with
  | nil => simp [worst]
  | cons rule rules =>
    simp only [worst, List.cons_ne_nil, iff_false]
    split
    · simp
    · split
      · simp
      · simp

/-- The first of the strictest rules is one of them, and none is stricter. -/
theorem worst_strictest {rules : List Rule} {rule : Rule} (first : worst rules = some rule) :
    rule ∈ rules ∧ ∀ other ∈ rules, other.effect.severity ≤ rule.effect.severity := by
  induction rules generalizing rule with
  | nil => cases first
  | cons head rules ih =>
    rw [worst] at first
    split at first
    next none =>
      obtain rfl := Option.some.inj first
      rw [worst_eq_none_iff.1 none]
      simp
    next other later =>
      obtain ⟨member, above⟩ := ih later
      split at first
      next stricter =>
        obtain rfl := Option.some.inj first
        exact ⟨List.mem_cons_of_mem _ member, List.forall_mem_cons.2 ⟨Nat.le_of_lt stricter, above⟩⟩
      next notStricter =>
        obtain rfl := Option.some.inj first
        refine ⟨List.mem_cons_self, List.forall_mem_cons.2 ⟨Nat.le_refl _, fun rule inside => ?_⟩⟩
        exact (above rule inside).trans (not_lt.1 notStricter)

theorem mem_redactionsOf {rules : List Rule} {text : Points} :
    text ∈ redactionsOf rules ↔ ∃ rule ∈ rules, text ∈ rule.redactions := by
  rw [redactionsOf, List.mem_insertionSort, List.mem_dedup, List.mem_flatMap]

/-! ### The verdict about an action -/

/-- What a decision keeps under a name of its inputs. -/
def inputOf (d : GuardrailDecision) (name : String) : Option Value :=
  match d.decisionInputs with
  | .dict entries => lookup name entries
  | _ => none

/-- The strictest of the matched rules, or the default where none matched. -/
structure Strictest (action : ProposedAction) (matched : List Rule) (d : GuardrailDecision) : Prop where
  default : matched = [] →
    d.decision = (if action.sideEffectLevel = .none then .allow else .block) ∧
      d.policyIds = [Points.ofString "default_deny"]
  attained : matched ≠ [] → ∃ rule ∈ matched, rule.effect = d.decision
  maximal : ∀ rule ∈ matched, rule.effect.severity ≤ d.decision.severity
  ids : matched ≠ [] →
    d.policyIds = (matched.filter fun rule => rule.effect = d.decision).map (·.id)
  redactions : ∀ text, text ∈ d.redactions ↔
    ∃ rule ∈ matched, rule.effect = d.decision ∧ text ∈ rule.redactions
  sorted : d.redactions.Pairwise (· ≤ ·) ∧ d.redactions.Nodup
  recorded : inputOf d "matched_rules" = some (.list (matched.map fun rule => .str rule.id))

/-- The record of a decision names every matched rule, in load order. -/
private theorem recorded_matched {sha : TextHash} (engine : PolicyEngine sha) (action : SealedAction)
    (context : PolicyContext) (matched : List Rule) :
    inputOf (engine.ruleDecision action context matched).recorded "matched_rules" =
      some (.list (matched.map fun rule => .str rule.id)) := by
  have names : (Value.list (matched.map fun rule => .str rule.id)).snapshot =
      .list (matched.map fun rule => .str rule.id) := by
    have texts := snapshot_texts (matched.map (·.id))
    rwa [List.map_map] at texts
  have kept : inputOf (engine.ruleDecision action context matched).recorded "matched_rules" =
      some (Value.list (matched.map fun rule => .str rule.id)).snapshot := rfl
  rw [kept, names]

/-- Where no rule matched, the side effect alone decides. -/
private theorem outcome_none (action : ProposedAction) : ∃ reason, outcome action [] =
    (if action.sideEffectLevel = .none then .allow else .block, reason,
      [Points.ofString "default_deny"], [], []) := by
  rw [outcome, worst]
  dsimp only
  split
  · exact ⟨_, rfl⟩
  · exact ⟨_, rfl⟩

private theorem redactionsOf_sorted (rules : List Rule) :
    (redactionsOf rules).Pairwise (· ≤ ·) ∧ (redactionsOf rules).Nodup := by
  constructor
  · exact List.pairwise_insertionSort _ _
  · exact (List.perm_insertionSort _ _).nodup_iff.2 (List.nodup_dedup _)

theorem strictest_recorded {sha : TextHash} (engine : PolicyEngine sha) (action : SealedAction)
    (context : PolicyContext) (matched : List Rule) :
    Strictest action.action matched (engine.ruleDecision action context matched).recorded := by
  have recorded := recorded_matched engine action context matched
  -- without a match the default answers, with no rule and no redaction
  cases first : worst matched with
  | none =>
    obtain rfl := worst_eq_none_iff.1 first
    obtain ⟨reason, shape⟩ := outcome_none action.action
    simp only [ruleDecision, shape] at recorded ⊢
    constructor
    · exact fun _ => ⟨rfl, rfl⟩
    · exact fun some => absurd rfl some
    · simp
    · exact fun some => absurd rfl some
    · simp [GuardrailDecision.recorded]
    · exact ⟨List.Pairwise.nil, List.nodup_nil⟩
    · exact recorded
  | some rule =>
    obtain ⟨member, above⟩ := worst_strictest first
    simp only [ruleDecision, outcome, first] at recorded ⊢
    constructor
    · rintro rfl
      cases member
    · exact fun _ => ⟨rule, member, rfl⟩
    · exact above
    · exact fun _ => rfl
    · intro text
      simp only [GuardrailDecision.recorded, mem_redactionsOf, agreeing, List.mem_filter,
        decide_eq_true_eq, and_assoc]
    · exact redactionsOf_sorted _
    · exact recorded

section Verdicts

variable {sha : TextHash} (engine : PolicyEngine sha) (texts : TextRules) (action : SealedAction)
  (context : Option Value)

/-- Where the decision about an action comes from. -/
inductive Origin : GuardrailDecision → Prop where
  | context {fault : PolicyFault} (refused : policyContextSnapshot context = .error fault) :
    Origin (engine.contextErrorDecision fault action.action)
  | limit {snapshot : PolicyContext} (fault : PolicyFault)
    (captured : policyContextSnapshot context = .ok snapshot)
    (tripped : ¬ engine.Within texts action.action) :
    Origin (engine.matchLimitDecision fault action.action)
  | unknown {snapshot : PolicyContext} (captured : policyContextSnapshot context = .ok snapshot)
    (within : engine.Within texts action.action) (unknown : engine.knows action.action.toolName = false) :
    Origin (engine.unknownToolDecision action.action)
  | rules {snapshot : PolicyContext} (captured : policyContextSnapshot context = .ok snapshot)
    (within : engine.Within texts action.action) (known : engine.knows action.action.toolName = true) :
    Origin (engine.ruleDecision action snapshot (engine.matching texts action.action snapshot))

theorem origin : Origin engine texts action context (engine.decisionFor texts action context) := by
  unfold decisionFor
  split
  next fault refused => exact .context refused
  next snapshot captured =>
    have returns := fun result => @matchedRules_ok_iff sha engine texts action.action snapshot result
    dsimp only
    split
    -- the scan stops at a limit exactly when the action is not within them
    next fault failed =>
      apply Origin.limit fault captured
      intro within
      obtain ⟨t, run⟩ := (returns _).2 ⟨within, rfl⟩
      exact absurd (failed.symm.trans run) (by simp)
    next t run =>
      obtain ⟨within, result⟩ := (returns none).1 ⟨t, run⟩
      apply Origin.unknown captured within
      by_contra known
      rw [if_pos (by simpa using known)] at result
      cases result
    next matched t run =>
      obtain ⟨within, result⟩ := (returns (some matched)).1 ⟨t, run⟩
      split at result
      next known =>
        obtain rfl := Option.some.inj result
        exact .rules captured within known
      · cases result

/-- The rule that decides, where one does, explains itself. -/
def Explains : Prop :=
  ∀ snapshot rule, policyContextSnapshot context = .ok snapshot → engine.Within texts action.action →
    engine.knows action.action.toolName = true →
      worst (engine.matching texts action.action snapshot) = some rule → rule.Explained

/-- A decision that the engine can return: its rule explains itself, and its record fits. -/
structure Recorded : Prop where
  explained : Explains engine texts action context
  fits : (engine.decisionFor texts action context).Fits

variable {engine texts action context}

private theorem blank_append {start : String} (told : Told start) (rest : Points) :
    (Points.ofString start ++ rest).all blankPoint = false := by
  rw [List.all_append, show (Points.ofString start).all blankPoint = false from told, Bool.false_and]

theorem origin_reason {d : GuardrailDecision} (origin : Origin engine texts action context d) :
    d.reason.all blankPoint = false ↔ Explains engine texts action context := by
  cases origin with
  | context refused =>
    apply iff_of_true
    · exact PolicyFault.told _
    · intro snapshot rule captured
      cases refused.symm.trans captured
  | limit fault captured tripped =>
    apply iff_of_true
    · exact fault.told
    · intro snapshot rule _ within
      exact absurd within tripped
  | unknown captured within unknown =>
    apply iff_of_true
    · simp only [unknownToolDecision, blocked, List.append_assoc]
      exact blank_append (by decide) _
    · intro snapshot rule _ _ known
      rw [unknown] at known
      cases known
  -- only here is the reason a rule's own text, which may be blank
  | @rules snapshot captured within known =>
    cases first : worst (engine.matching texts action.action snapshot) with
    | some rule =>
      have reason : (engine.ruleDecision action snapshot
          (engine.matching texts action.action snapshot)).reason = ruleReason rule := by
        simp only [ruleDecision, outcome, first]
      rw [reason, explained_iff]
      constructor
      · intro explained other rule' captured' _ _ first'
        obtain rfl := Except.ok.inj (captured.symm.trans captured')
        obtain rfl := Option.some.inj (first.symm.trans first')
        exact explained
      · exact fun explains => explains snapshot rule captured within known first
    | none =>
      apply iff_of_true
      · simp only [ruleDecision, outcome, first]
        split
        · decide
        · simp only [List.append_assoc]
          exact blank_append (by decide) _
      · intro other rule captured' _ _ first'
        obtain rfl := Except.ok.inj (captured.symm.trans captured')
        cases first.symm.trans first'

private theorem named_singleton (id : String) (told : Told id) :
    [Points.ofString id] ≠ [] ∧ ([] : Points) ∉ [Points.ofString id] := by
  refine ⟨List.cons_ne_nil _ _, fun empty => ?_⟩
  rw [Told, ← List.mem_singleton.1 empty] at told
  cases told

theorem origin_ids {d : GuardrailDecision} (origin : Origin engine texts action context d) :
    d.policyIds ≠ [] ∧ [] ∉ d.policyIds := by
  cases origin with
  | context refused => exact named_singleton "policy_context_contract" (by decide)
  | limit fault captured tripped => exact named_singleton "policy_match_limit" (by decide)
  | unknown captured within unknown => exact named_singleton "unknown_tool" (by decide)
  | @rules snapshot captured within known =>
    cases first : worst (engine.matching texts action.action snapshot) with
    | none =>
      simp only [ruleDecision, outcome, first]
      split
      · exact named_singleton "default_deny" (by decide)
      · exact named_singleton "default_deny" (by decide)
    | some rule =>
      simp only [ruleDecision, outcome, first]
      constructor
      · have winning : rule ∈ agreeing rule.effect (engine.matching texts action.action snapshot) :=
          List.mem_filter.2 ⟨(worst_strictest first).1, by simp⟩
        exact fun none => List.ne_nil_of_mem winning (List.map_eq_nil_iff.1 none)
      · intro empty
        obtain ⟨other, -, blank⟩ := List.mem_map.1 empty
        have visible := other.visible
        rw [blank] at visible
        cases visible

/-- Evaluation returns exactly the decisions that can be recorded. -/
theorem evaluate_ok_iff {d : GuardrailDecision} : engine.evaluate texts action context = .ok d ↔
    Recorded engine texts action context ∧ d = (engine.decisionFor texts action context).recorded := by
  have origin := origin engine texts action context
  rw [evaluate, GuardrailDecision.validateContract_ok_iff, origin_reason origin]
  constructor
  · rintro ⟨explained, -, fits, rfl⟩
    exact ⟨⟨explained, fits⟩, rfl⟩
  · rintro ⟨recorded, rfl⟩
    exact ⟨recorded.explained, origin_ids origin, recorded.fits, rfl⟩

/-- A refusal that no rule takes part in. -/
structure Refused (id : String) (d : GuardrailDecision) : Prop where
  decision : d.decision = .block
  ids : d.policyIds = [Points.ofString id]
  redactions : d.redactions = []

variable (engine texts action context) in
/-- What a decision says, input by input. -/
structure Verdict (d : GuardrailDecision) : Prop where
  contract : ∀ fault, policyContextSnapshot context = .error fault → Refused "policy_context_contract" d
  limits : ∀ snapshot, policyContextSnapshot context = .ok snapshot →
    ¬ engine.Within texts action.action → Refused "policy_match_limit" d
  unknown : ∀ snapshot, policyContextSnapshot context = .ok snapshot →
    engine.Within texts action.action → engine.knows action.action.toolName = false →
      Refused "unknown_tool" d
  strictest : ∀ snapshot, policyContextSnapshot context = .ok snapshot →
    engine.Within texts action.action → engine.knows action.action.toolName = true →
      Strictest action.action (engine.matching texts action.action snapshot) d

theorem origin_verdict {d : GuardrailDecision} (origin : Origin engine texts action context d) :
    Verdict engine texts action context d.recorded := by
  -- the four ways a decision comes about exclude one another
  cases origin with
  | context refused =>
    constructor
    · exact fun _ _ => ⟨rfl, rfl, rfl⟩
    · intro snapshot captured
      cases refused.symm.trans captured
    · intro snapshot captured
      cases refused.symm.trans captured
    · intro snapshot captured
      cases refused.symm.trans captured
  | limit fault captured tripped =>
    constructor
    · intro other refused
      cases refused.symm.trans captured
    · exact fun _ _ _ => ⟨rfl, rfl, rfl⟩
    · exact fun _ _ within => absurd within tripped
    · exact fun _ _ within => absurd within tripped
  | unknown captured within unknown =>
    constructor
    · intro other refused
      cases refused.symm.trans captured
    · exact fun _ _ tripped => absurd within tripped
    · exact fun _ _ _ _ => ⟨rfl, rfl, rfl⟩
    · intro snapshot _ _ known
      cases unknown.symm.trans known
  | rules captured within known =>
    constructor
    · intro other refused
      cases refused.symm.trans captured
    · exact fun _ _ tripped => absurd within tripped
    · intro snapshot _ _ unknown
      cases unknown.symm.trans known
    · intro snapshot captured' _ _
      obtain rfl := Except.ok.inj (captured.symm.trans captured')
      exact strictest_recorded engine action _ _

/-- A returned decision carries the verdict. -/
theorem verdict_of_ok {d : GuardrailDecision} (returned : engine.evaluate texts action context = .ok d) :
    Verdict engine texts action context d := by
  obtain ⟨-, rfl⟩ := evaluate_ok_iff.1 returned
  exact origin_verdict (origin engine texts action context)

/-! ### The order of the rules, and further rules -/

variable {other : PolicyEngine sha} {snapshot : PolicyContext} {d e : GuardrailDecision}

theorem knows_congr (tools : other.knownTools = engine.knownTools) (toolName : Points) :
    other.knows toolName = engine.knows toolName := by
  rw [knows, knows, tools]

/-- The work of a rule set does not depend on its order. -/
theorem within_perm (tools : other.knownTools = engine.knownTools) (order : other.rules.Perm engine.rules)
    (within : other.Within texts action.action) : engine.Within texts action.action where
  toolName := by rw [← tools]; exact within.toolName
  rules known rule member := by
    rw [← knows_congr tools] at known
    exact within.rules known rule (order.mem_iff.2 member)
  work := by
    have total := (order.map fun rule => rule.work texts action.action).sum_eq
    rw [← total, ← tools, ← knows_congr tools]
    exact within.work

/-- Fewer rules look at less. -/
theorem within_fewer (tools : other.knownTools = engine.knownTools) {rule : Rule}
    (order : other.rules.Perm (rule :: engine.rules)) (within : other.Within texts action.action) :
    engine.Within texts action.action where
  toolName := by rw [← tools]; exact within.toolName
  rules known rule' member := by
    rw [← knows_congr tools] at known
    exact within.rules known rule' (order.mem_iff.2 (List.mem_cons_of_mem _ member))
  work := by
    have total := (order.map fun rule => rule.work texts action.action).sum_eq
    rw [List.map_cons, List.sum_cons] at total
    have work := within.work
    rw [total, tools, knows_congr tools] at work
    apply le_trans _ work
    split
    · exact add_le_add le_rfl le_add_self
    · exact le_refl _

theorem Strictest.le {matched others : List Rule} (own : Strictest action.action matched d)
    (wider : Strictest action.action others e) (some : matched ≠ []) (within : matched ⊆ others) :
    d.decision.severity ≤ e.decision.severity := by
  obtain ⟨rule, member, attained⟩ := own.attained some
  rw [← attained]
  exact wider.maximal rule (within member)

/-- Permuted rules have one verdict. -/
theorem Strictest.perm {matched others : List Rule} (order : others.Perm matched)
    (own : Strictest action.action matched d) (reordered : Strictest action.action others e) :
    e.decision = d.decision ∧ (∀ id, id ∈ e.policyIds ↔ id ∈ d.policyIds) ∧
      e.redactions = d.redactions := by
  -- neither list has a stricter rule than the other
  have decision : e.decision = d.decision := by
    by_cases none : matched = []
    · subst none
      rw [(own.default rfl).1, (reordered.default order.eq_nil).1]
    · have some : others ≠ [] := fun empty => none (by rw [empty] at order; exact order.symm.eq_nil)
      exact severity_injective (Nat.le_antisymm (reordered.le own some order.subset)
        (own.le reordered none order.symm.subset))
  refine ⟨decision, ?_, ?_⟩
  · by_cases none : matched = []
    · subst none
      rw [(own.default rfl).2, (reordered.default order.eq_nil).2]
      exact fun _ => Iff.rfl
    · have some : others ≠ [] := fun empty => none (by rw [empty] at order; exact order.symm.eq_nil)
      intro id
      rw [own.ids none, reordered.ids some, decision]
      exact ((order.filter _).map _).mem_iff
  · apply List.Perm.eq_of_pairwise _ reordered.sorted.1 own.sorted.1
    · apply (List.perm_ext_iff_of_nodup reordered.sorted.2 own.sorted.2).2
      intro text
      rw [reordered.redactions, own.redactions, decision]
      simp only [order.mem_iff]
    · intro a b _ _ below above
      exact le_antisymm below above

/-- Two engines that know the tool alike and break a ceiling alike have one verdict, whatever the
order of their rules. -/
theorem verdict_alike (known : other.knows action.action.toolName = engine.knows action.action.toolName)
    (order : other.rules.Perm engine.rules)
    (alike : engine.Within texts action.action ↔ other.Within texts action.action)
    (own : Verdict engine texts action context d) (reordered : Verdict other texts action context e) :
    e.decision = d.decision ∧ (∀ id, id ∈ e.policyIds ↔ id ∈ d.policyIds) ∧
      e.redactions = d.redactions := by
  have refused {id : String} (a : Refused id d) (b : Refused id e) : e.decision = d.decision ∧
      (∀ id, id ∈ e.policyIds ↔ id ∈ d.policyIds) ∧ e.redactions = d.redactions :=
    ⟨b.decision.trans a.decision.symm, fun _ => by rw [a.ids, b.ids],
      b.redactions.trans a.redactions.symm⟩
  cases captured : policyContextSnapshot context with
  | error fault => exact refused (own.contract fault captured) (reordered.contract fault captured)
  | ok snapshot =>
    by_cases within : engine.Within texts action.action
    · have within' := alike.1 within
      cases knows : engine.knows action.action.toolName with
      | false =>
        exact refused (own.unknown _ captured within knows)
          (reordered.unknown _ captured within' (known.trans knows))
      | true =>
        exact (own.strictest _ captured within knows).perm (order.filter _)
          (reordered.strictest _ captured within' (known.trans knows))
    · have within' := fun inside => within (alike.2 inside)
      exact refused (own.limits _ captured within) (reordered.limits _ captured within')

/-- Loading the rules in another order changes no verdict. -/
theorem verdict_perm (tools : other.knownTools = engine.knownTools)
    (order : other.rules.Perm engine.rules) (own : Verdict engine texts action context d)
    (reordered : Verdict other texts action context e) :
    e.decision = d.decision ∧ (∀ id, id ∈ e.policyIds ↔ id ∈ d.policyIds) ∧
      e.redactions = d.redactions :=
  verdict_alike (knows_congr tools _) order
    ⟨within_perm tools.symm order.symm, within_perm tools order⟩ own reordered

/-- A further rule never lowers the severity of an action that some rule matches. -/
theorem verdict_mono (tools : other.knownTools = engine.knownTools) {rule : Rule}
    (order : other.rules.Perm (rule :: engine.rules))
    (captured : policyContextSnapshot context = .ok snapshot)
    (some : engine.matching texts action.action snapshot ≠ [])
    (own : Verdict engine texts action context d) (wider : Verdict other texts action context e) :
    d.decision.severity ≤ e.decision.severity := by
  have top (strict : e.decision = .block) : d.decision.severity ≤ e.decision.severity := by
    rw [strict]
    cases d.decision <;> decide
  by_cases within' : other.Within texts action.action
  · have within := within_fewer tools order within'
    cases known : engine.knows action.action.toolName with
    | false =>
      have known' := (knows_congr tools _).trans known
      exact top (wider.unknown _ captured within' known').decision
    | true =>
      have known' := (knows_congr tools _).trans known
      apply (own.strictest _ captured within known).le (wider.strictest _ captured within' known') some
      intro matched member
      obtain ⟨inside, hit⟩ := List.mem_filter.1 member
      exact List.mem_filter.2 ⟨order.mem_iff.2 (List.mem_cons_of_mem _ inside), hit⟩
  · exact top (wider.limits _ captured within').decision

end Verdicts

/-- Strictest rule wins: a decision comes back exactly where the deciding rule explains itself and the
record fits, and then it is the strictest among the matching rules; neither their order nor a further
rule ever loosens it. -/
theorem strictest_rule_wins {sha : TextHash} (engine : PolicyEngine sha) (texts : TextRules)
    (action : SealedAction) (context : Option Value) :
    ((∃ d, engine.evaluate texts action context = .ok d ∧ Verdict engine texts action context d) ↔
      Recorded engine texts action context) ∧
    (∀ d, engine.evaluate texts action context = .ok d → Verdict engine texts action context d) ∧
    (∀ (other : PolicyEngine sha) (d e : GuardrailDecision), other.knownTools = engine.knownTools →
      other.rules.Perm engine.rules → engine.evaluate texts action context = .ok d →
        other.evaluate texts action context = .ok e →
          e.decision = d.decision ∧ (∀ id, id ∈ e.policyIds ↔ id ∈ d.policyIds) ∧
            e.redactions = d.redactions) ∧
    (∀ (other : PolicyEngine sha) (rule : Rule) (d e : GuardrailDecision) (snapshot : PolicyContext),
      other.knownTools = engine.knownTools → other.rules.Perm (rule :: engine.rules) →
        policyContextSnapshot context = .ok snapshot →
          engine.matching texts action.action snapshot ≠ [] →
            engine.evaluate texts action context = .ok d → other.evaluate texts action context = .ok e →
              d.decision.severity ≤ e.decision.severity) := by
  refine ⟨⟨?_, ?_⟩, ?_, ?_, ?_⟩
  · rintro ⟨d, returned, -⟩
    exact (evaluate_ok_iff.1 returned).1
  · intro recorded
    have returned := evaluate_ok_iff.2 ⟨recorded, rfl⟩
    exact ⟨_, returned, verdict_of_ok returned⟩
  · exact fun d returned => verdict_of_ok returned
  · intro other d e tools order returned returned'
    exact verdict_perm tools order (verdict_of_ok returned) (verdict_of_ok returned')
  · intro other rule d e snapshot tools order captured some returned returned'
    exact verdict_mono tools order captured some (verdict_of_ok returned) (verdict_of_ok returned')

namespace Demo

def texts : TextRules := ⟨id, fun _ => []⟩

/-- A rule that looks at nothing and asks for an approval. -/
def rule (id reason approvalScope : String) (visible : (Points.ofString id).all blankPoint = false) :
    Rule where
  id := Points.ofString id
  description := []
  tools := []
  sideEffectAtLeast := none
  targets := []
  payloadContains := []
  maxPayloadTrust := none
  sensitivities := []
  effect := .approvalRequired
  reason := Points.ofString reason
  approvalScope := Points.ofString approvalScope
  redactions := []
  visible
  spelled := by decide

/-- Rules that are loaded without a list of known tools. -/
def load (sha : TextHash) (rules : List Rule) (text : List Char) (distinct : (rules.map (·.id)).Nodup)
    (canonical : canonicalJson (rulesetSurface [] [] rules) = .ok text) : PolicyEngine sha where
  name := Points.ofString "default"
  version := Points.ofString "1"
  rules
  knownTools := []
  authorityInputs := []
  rulesetHash := "sha256:" ++ sha text
  distinct
  spelled := by decide
  hashed := by rw [sha256Of, canonical]; rfl

/-- The canonical text of what is hashed of some rules. -/
def textOf (rules : List Rule) : List Char := ((canonicalJson (rulesetSurface [] [] rules)).toOption).getD []

def sha : TextHash := fun text => toString (text.length % 10)

/-- An engine whose only rule gives a blank as its reason. -/
def silent : PolicyEngine sha :=
  load sha [rule "silent" " " "" (by decide)] (textOf [rule "silent" " " "" (by decide)]) (by decide)
    (by decide +kernel)

def action : SealedAction where
  action := {
    toolName := Points.ofString "send"
    target := Points.ofString "ops"
    payload := []
    sideEffectLevel := .externalSend
    agentReason := .str []
    actionId := Points.ofString "act"
    requestId := .str []
    payloadSources := []
    estimatedCostUsd := Decimal.zero
    createdAt := Points.ofString "2026-01-01T00:00:00Z" }
  payloadHash := "sha256:0"
  authorizationHash := "sha256:0"

end Demo

/-- A matching rule whose reason is a blank leaves the action without any decision. -/
theorem blank_reason_decides_nothing :
    ¬ ∃ d, Demo.silent.evaluate Demo.texts Demo.action none = .ok d ∧
      Verdict Demo.silent Demo.texts Demo.action none d := by
  rintro ⟨d, returned, -⟩
  have refused : (Demo.silent.evaluate Demo.texts Demo.action none).toOption.isNone = true := by
    decide +kernel
  rw [returned] at refused
  cases refused

end PolicyEngine
end Durable
end DefiantHarness
