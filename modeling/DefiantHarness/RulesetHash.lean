import DefiantHarness.EvidenceChain
import DefiantHarness.MatchCeilings
import DefiantHarness.PayloadBinding
import DefiantHarness.StrictestRule

/-! What the hash of a rule set tells about its decisions. -/
namespace DefiantHarness

open Foundation

/-- Lists with one image are equal where the function tells their items apart. -/
theorem map_cancel {α β : Type} {f : α → β} {xs ys : List α}
    (apart : ∀ x ∈ xs, ∀ y ∈ ys, f x = f y → x = y) (same : xs.map f = ys.map f) : xs = ys := by
  induction xs generalizing ys with
  | nil => exact (List.map_eq_nil_iff.1 same.symm).symm
  | cons x xs ih =>
    cases ys with
    | nil => cases same
    | cons y ys =>
      obtain ⟨head, tail⟩ := List.cons.inj same
      rw [apart x List.mem_cons_self y List.mem_cons_self head]
      rw [ih (fun x inside y other => apart x (List.mem_cons_of_mem _ inside) y (List.mem_cons_of_mem _ other))
        tail]

/-- Lists with one image agree in whatever the function tells of their items. -/
theorem map_through {α β γ : Type} {f : α → β} {g : α → γ} (through : ∀ x y, f x = f y → g x = g y)
    {xs ys : List α} (same : xs.map f = ys.map f) : xs.map g = ys.map g := by
  induction xs generalizing ys with
  | nil => rw [List.map_eq_nil_iff.1 same.symm]
  | cons x xs ih =>
    cases ys with
    | nil => cases same
    | cons y ys =>
      obtain ⟨head, tail⟩ := List.cons.inj same
      rw [List.map_cons, List.map_cons, through x y head, ih tail]

/-- One item stands somewhere before another. -/
def Before {α : Type} (items : List α) (a b : α) : Prop := [a, b].Sublist items

theorem before_antisymm {α : Type} {items : List α} {a b : α} (distinct : items.Nodup)
    (forth : Before items a b) (back : Before items b a) : a = b := by
  induction items with
  | nil => cases forth
  | cons head items ih =>
    obtain ⟨fresh, distinct⟩ := List.nodup_cons.1 distinct
    cases forth with
    | cons _ forth =>
      cases back with
      | cons _ back => exact ih distinct forth back
      | cons_cons _ _ => exact absurd (forth.subset (by simp)) fresh
    | cons_cons _ rest =>
      cases back with
      | cons _ back => exact absurd (back.subset (by simp)) fresh
      | cons_cons _ _ => rfl

/-- Permuted lists of distinct items are equal where items stand before each other alike. -/
theorem eq_of_before {α : Type} {xs ys : List α} (distinct : xs.Nodup) (order : ys.Perm xs)
    (same : ∀ a b, Before ys a b → Before xs a b) : xs = ys :=
  List.Perm.eq_of_pairwise (fun _ _ _ _ => before_antisymm distinct) (List.pairwise_iff_forall_sublist.2 id)
    (List.pairwise_iff_forall_sublist.2 (same _ _)) order.symm

namespace Durable

variable {money : Decimal → PlainDecimal}

/-! ### What is hashed of a rule -/

theorem text_apart {s t : Points} (own : s.unpaired = true) (other : t.unpaired = true)
    (same : ((Value.str s).written money).joined = ((Value.str t).written money).joined) : s = t := by
  have spelled := Data.str.inj same
  rwa [join_units own, join_units other] at spelled

theorem items_apart {items others : List Value}
    (same : (Data.arr (Value.writtenItems money items)).joined =
      (Data.arr (Value.writtenItems money others)).joined) :
    items.map (fun v => (v.written money).joined) = others.map fun v => (v.written money).joined := by
  rw [Data.joined, Data.joined, Data.joinedItems_eq, Data.joinedItems_eq, Value.writtenItems_eq,
    Value.writtenItems_eq, List.map_map, List.map_map] at same
  exact Data.arr.inj same

theorem texts_apart {items others : List Points} (own : ∀ s ∈ items, s.unpaired = true)
    (other : ∀ s ∈ others, s.unpaired = true)
    (same : (Data.arr (Value.writtenItems money (items.map .str))).joined =
      (Data.arr (Value.writtenItems money (others.map .str))).joined) : items = others := by
  have each := items_apart same
  rw [List.map_map, List.map_map] at each
  exact map_cancel (f := fun s => ((Value.str s).written money).joined)
    (fun s inside t outside => text_apart (own s inside) (other t outside)) each

theorem SideEffect.text_injective : Function.Injective SideEffect.text := by
  intro a b same
  cases a <;> cases b <;> first | rfl | exact absurd same (by decide)

theorem Trust.text_injective : Function.Injective Trust.text := by
  intro a b same
  cases a <;> cases b <;> first | rfl | exact absurd same (by decide)

theorem Decision.text_injective : Function.Injective Decision.text := by
  intro a b same
  cases a <;> cases b <;> first | rfl | exact absurd same (by decide)

namespace Rule

/-- No text of the rule spells a code point as a surrogate pair. -/
structure Plain (rule : Rule) : Prop where
  id : rule.id.unpaired = true
  description : rule.description.unpaired = true
  tools : ∀ s ∈ rule.tools, s.unpaired = true
  targets : ∀ s ∈ rule.targets, s.unpaired = true
  payloadContains : ∀ s ∈ rule.payloadContains, s.unpaired = true
  sensitivities : ∀ s ∈ rule.sensitivities, s.unpaired = true
  reason : rule.reason.unpaired = true
  approvalScope : rule.approvalScope.unpaired = true
  redactions : ∀ s ∈ rule.redactions, s.unpaired = true

private theorem optional_apart {α : Type} {name : α → String} (apart : Function.Injective name)
    {a b : Option α} (same : ((optionalText (a.map name)).written money).joined =
      ((optionalText (b.map name)).written money).joined) : a = b := by
  cases a with
  | none =>
    cases b with
    | none => rfl
    | some y => cases same
  | some x =>
    cases b with
    | none => cases same
    | some y =>
      have spelled := Data.str.inj same
      rw [join_ofString, join_ofString] at spelled
      rw [apart (ofString_injective spelled)]

/-- A rule is told by what is hashed of it. -/
theorem vars_apart {r s : Rule} (plain : r.Plain) (plain' : s.Plain)
    (same : (r.vars.written money).joined = (s.vars.written money).joined) : r = s := by
  have fields := record_fields same (by rfl) (by
    change ["id", "description", "tools", "side_effect_at_least", "targets", "payload_contains",
      "max_payload_trust", "sensitivities", "effect", "reason", "approval_scope", "redactions"].Nodup
    decide)
  simp only [Rule.fields, List.forall₂_cons] at fields
  obtain ⟨id, description, tools, level, targets, payload, trust, sensitivities, effect, reason, scope,
    redactions, -⟩ := fields
  ext1
  · exact text_apart plain.id plain'.id id
  · exact text_apart plain.description plain'.description description
  · exact texts_apart plain.tools plain'.tools tools
  · exact optional_apart SideEffect.text_injective level
  · exact texts_apart plain.targets plain'.targets targets
  · exact texts_apart plain.payloadContains plain'.payloadContains payload
  · exact optional_apart Trust.text_injective trust
  · exact texts_apart plain.sensitivities plain'.sensitivities sensitivities
  · have spelled := Data.str.inj effect
    rw [join_ofString, join_ofString] at spelled
    exact Decision.text_injective (ofString_injective spelled)
  · exact text_apart plain.reason plain'.reason reason
  · exact text_apart plain.approvalScope plain'.approvalScope scope
  · exact texts_apart plain.redactions plain'.redactions redactions

end Rule

namespace PolicyEngine

variable {sha : TextHash} {engine other : PolicyEngine sha}

/-- Values with one canonical text. -/
def OneText (v w : Value) : Prop := (v.written Decimal.plain).text = (w.written Decimal.plain).text

/-- Tools of two engines that have one canonical text are one tool, and rules are one rule. -/
structure SpelledAlike (engine other : PolicyEngine sha) : Prop where
  knownTools : ∀ s ∈ engine.knownTools, ∀ t ∈ other.knownTools, OneText (.str s) (.str t) → s = t
  rules : ∀ r ∈ engine.rules, ∀ s ∈ other.rules, OneText r.vars s.vars → r = s

/-- No text of the rule set spells a code point as a surrogate pair. -/
structure Plain (engine : PolicyEngine sha) : Prop where
  knownTools : ∀ s ∈ engine.knownTools, s.unpaired = true
  rules : ∀ rule ∈ engine.rules, rule.Plain

theorem Plain.spelledAlike (plain : engine.Plain) (plain' : other.Plain) : SpelledAlike engine other := by
  have joined {v w : Value} (one : OneText v w) :
      (v.written Decimal.plain).joined = (w.written Decimal.plain).joined :=
    (Data.render_eq_iff Layout.compact).1 one
  constructor
  · intro s own t others one
    exact text_apart (plain.knownTools s own) (plain'.knownTools t others) (joined one)
  · intro r own s others one
    exact Rule.vars_apart (plain.rules r own) (plain'.rules s others) (joined one)

/-- Equal hashes are hashes of the same tools and rules, in some order. -/
theorem hash_binds (hash : CollisionFree sha) (spelled : SpelledAlike engine other)
    (same : engine.rulesetHash = other.rulesetHash) :
    other.knownTools.Perm engine.knownTools ∧ other.rules.Perm engine.rules := by
  have surfaces := hash.written engine.hashed (same ▸ other.hashed)
  have fields := record_fields surfaces (by rfl) (by
    change ["known_tools", "authority_inputs", "rules"].Nodup
    decide)
  simp only [List.forall₂_cons] at fields
  obtain ⟨tools, -, rules, -⟩ := fields
  -- texts that join alike are one text for the encoder
  have oneText {v w : Value} (joined : (v.written Decimal.plain).joined = (w.written Decimal.plain).joined) :
      OneText v w := (Data.render_eq_iff Layout.compact).2 joined
  constructor
  · have each := items_apart tools
    rw [List.map_map, List.map_map] at each
    have sorted := map_cancel (f := fun s : Points => ((Value.str s).written Decimal.plain).joined)
      (fun s inside t outside joined => spelled.knownTools s ((List.mem_insertionSort _).1 inside) t
        ((List.mem_insertionSort _).1 outside) (oneText joined)) each
    have order := List.perm_insertionSort (· ≤ ·) engine.knownTools
    rw [sorted] at order
    exact (List.perm_insertionSort (· ≤ ·) other.knownTools).symm.trans order
  · have each := items_apart rules
    rw [List.map_map, List.map_map] at each
    have sorted := map_cancel (f := fun rule : Rule => (rule.vars.written Decimal.plain).joined)
      (fun r inside s outside joined => spelled.rules r ((List.mem_insertionSort _).1 inside) s
        ((List.mem_insertionSort _).1 outside) (oneText joined)) each
    have order := List.perm_insertionSort Rule.byId engine.rules
    rw [sorted] at order
    exact (List.perm_insertionSort Rule.byId other.rules).symm.trans order

theorem knows_perm (order : other.knownTools.Perm engine.knownTools) (toolName : Points) :
    other.knows toolName = engine.knows toolName := by
  have listed : other.knownTools.isEmpty = engine.knownTools.isEmpty := by
    rw [Bool.eq_iff_iff, List.isEmpty_iff, List.isEmpty_iff]
    exact ⟨fun none => (none ▸ order).symm.eq_nil, fun none => (none ▸ order).eq_nil⟩
  have any : anyGlob toolName other.knownTools = anyGlob toolName engine.knownTools := by
    rw [Bool.eq_iff_iff, anyGlob, anyGlob, List.any_eq_true, List.any_eq_true]
    simp only [order.mem_iff]
  rw [knows, knows, listed, any]

/-! ### What a decision says -/

section Judged

variable (engine other) (texts : TextRules) (action : SealedAction) (context : Option Value)

/-- The ceiling that matching breaks first, if it breaks one. -/
def tripped (action : ProposedAction) (snapshot : PolicyContext) : Option PolicyFault :=
  let run : PolicyMatchState.Match texts action.payload _ := engine.matchedRules action snapshot
  match run PolicyMatchState.initial with
  | .error fault => some fault
  | .ok _ => none

/-- The strictest of the rules that match, in load order. -/
def winning (action : ProposedAction) (snapshot : PolicyContext) : List Rule :=
  match worst (engine.matching texts action snapshot) with
  | none => []
  | some rule => agreeing rule.effect (engine.matching texts action snapshot)

/-- Decision, reason, ids, scope and redactions of a decision. -/
def judged (d : GuardrailDecision) : Decision × Points × List Points × Points × List Points :=
  (d.decision, d.reason, d.policyIds, d.approvalScope, d.redactions)

/-- What evaluation says, where it returns. -/
def judgement : Option (Decision × Points × List Points × Points × List Points) :=
  (engine.evaluate texts action context).toOption.map judged

/-- A rule that holds for an action, and that no rule that holds is stricter than. -/
structure Leads (action : ProposedAction) (snapshot : PolicyContext) (rule : Rule) : Prop where
  loaded : rule ∈ engine.rules
  holds : rule.holds texts action snapshot = true
  strictest : ∀ other ∈ engine.rules, other.holds texts action snapshot = true →
    other.effect.severity ≤ rule.effect.severity

variable {engine other texts action context}
variable {action' : SealedAction} {snapshot : PolicyContext}

theorem tripped_eq_none_iff : engine.tripped texts action.action snapshot = none ↔
    engine.Within texts action.action := by
  have returns := fun result => @matchedRules_ok_iff sha engine texts action.action snapshot result
  unfold tripped
  dsimp only
  constructor
  · intro none
    split at none
    · cases none
    · next result run =>
      obtain ⟨result, t⟩ := result
      exact ((returns result).1 ⟨t, run⟩).1
  · intro within
    obtain ⟨t, run⟩ := (returns _).2 ⟨within, rfl⟩
    split
    next fault failed => exact absurd (failed.symm.trans run) (by simp)
    next => rfl

/-- The first of the strictest rules comes first among them. -/
theorem worst_first {rules : List Rule} {rule : Rule} (first : worst rules = some rule) :
    ∃ rest, agreeing rule.effect rules = rule :: rest := by
  induction rules generalizing rule with
  | nil => cases first
  | cons head rules ih =>
    rw [worst] at first
    split at first
    next none =>
      obtain rfl := Option.some.inj first
      exact ⟨_, by rw [agreeing, List.filter_cons_of_pos (by simp)]⟩
    next later later_first =>
      split at first
      next stricter =>
        obtain rfl := Option.some.inj first
        obtain ⟨rest, winners⟩ := ih later_first
        refine ⟨rest, ?_⟩
        rw [agreeing, List.filter_cons_of_neg, ← agreeing, winners]
        intro same
        rw [of_decide_eq_true same] at stricter
        exact lt_irrefl _ stricter
      next =>
        obtain rfl := Option.some.inj first
        exact ⟨_, by rw [agreeing, List.filter_cons_of_pos (by simp)]⟩

theorem worst_eq_head : worst (engine.matching texts action.action snapshot) =
    (engine.winning texts action.action snapshot).head? := by
  unfold winning
  cases first : worst (engine.matching texts action.action snapshot) with
  | none => rfl
  | some rule =>
    obtain ⟨rest, winners⟩ := worst_first first
    simp [winners]

theorem mem_winning_iff {rule : Rule} : rule ∈ engine.winning texts action.action snapshot ↔
    Leads engine texts action.action snapshot rule := by
  unfold winning
  cases first : worst (engine.matching texts action.action snapshot) with
  | none =>
    have none := worst_eq_none_iff.1 first
    constructor
    · exact fun inside => nomatch inside
    · intro leads
      have matched : rule ∈ engine.matching texts action.action snapshot :=
        List.mem_filter.2 ⟨leads.loaded, leads.holds⟩
      exact absurd matched (none ▸ List.not_mem_nil)
  | some top =>
    obtain ⟨member, above⟩ := worst_strictest first
    constructor
    · intro inside
      obtain ⟨matched, effect⟩ := List.mem_filter.1 inside
      obtain ⟨loaded, holds⟩ := List.mem_filter.1 matched
      refine ⟨loaded, holds, fun other inside holds => ?_⟩
      rw [of_decide_eq_true effect]
      exact above other (List.mem_filter.2 ⟨inside, holds⟩)
    · intro leads
      have matched : rule ∈ engine.matching texts action.action snapshot :=
        List.mem_filter.2 ⟨leads.loaded, leads.holds⟩
      obtain ⟨loaded, holds⟩ := List.mem_filter.1 member
      -- a rule as strict as the strictest has its effect
      have same := severity_injective (Nat.le_antisymm (above rule matched) (leads.strictest top loaded holds))
      exact List.mem_filter.2 ⟨matched, decide_eq_true same⟩

theorem winning_sublist : (engine.winning texts action.action snapshot).Sublist engine.rules := by
  unfold winning
  split
  · exact List.nil_sublist _
  · exact List.filter_sublist.trans List.filter_sublist

/-- The strictest rules keep the load order. -/
theorem before_winning_iff {r s : Rule} : Before (engine.winning texts action.action snapshot) r s ↔
    Leads engine texts action.action snapshot r ∧ Leads engine texts action.action snapshot s ∧
      Before engine.rules r s := by
  constructor
  · intro before
    exact ⟨mem_winning_iff.1 (before.subset (by simp)), mem_winning_iff.1 (before.subset (by simp)),
      before.trans winning_sublist⟩
  · rintro ⟨first, second, before⟩
    have inside := mem_winning_iff.2 first
    have inside' := mem_winning_iff.2 second
    unfold winning at inside inside' ⊢
    split at inside
    · cases inside
    next top found =>
      simp only [found] at inside' ⊢
      have kept := (List.Sublist.filter (fun rule : Rule => rule.holds texts action.action snapshot)
        before).filter fun rule => decide (rule.effect = top.effect)
      have effect := (List.mem_filter.1 inside).2
      have effect' := (List.mem_filter.1 inside').2
      simp only [List.filter_cons, first.holds, second.holds, effect, effect', ↓reduceIte,
        List.filter_nil] at kept
      exact kept

theorem winning_eq_iff (order : other.rules.Perm engine.rules)
    (leading : ∀ rule, Leads engine texts action.action snapshot rule ↔
      Leads other texts action'.action snapshot rule) :
    engine.winning texts action.action snapshot = other.winning texts action'.action snapshot ↔
      ∀ r s, Leads engine texts action.action snapshot r → Leads engine texts action.action snapshot s →
        (Before engine.rules r s ↔ Before other.rules r s) := by
  have distinct := engine.distinct.of_map
  have distinct' : other.rules.Nodup := order.nodup_iff.2 distinct
  constructor
  · intro same r s first second
    have own := @before_winning_iff sha engine texts action snapshot r s
    have others := @before_winning_iff sha other texts action' snapshot r s
    rw [same, others] at own
    simpa only [first, second, (leading r).1 first, (leading s).1 second, true_and] using own.symm
  · intro ordered
    apply eq_of_before (distinct.sublist winning_sublist)
    · apply (List.perm_ext_iff_of_nodup (distinct'.sublist winning_sublist) (distinct.sublist winning_sublist)).2
      intro rule
      rw [mem_winning_iff, mem_winning_iff, leading]
    · intro r s before
      obtain ⟨first, second, before⟩ := before_winning_iff.1 before
      have own := (leading r).2 first
      have own' := (leading s).2 second
      exact before_winning_iff.2 ⟨own, own', (ordered r s own own').2 before⟩

/-- What the strictest rules say. -/
def verdictOf (action : ProposedAction) :
    List Rule → Decision × Points × List Points × Points × List Points
  | [] =>
    let (decision, reason, policyIds, approvalScope, redactions) := outcome action []
    (decision, reason, policyIds, scopeOf action decision approvalScope, redactions)
  | rule :: rules => (rule.effect, ruleReason rule, (rule :: rules).map (·.id),
      scopeOf action rule.effect rule.approvalScope, redactionsOf (rule :: rules))

theorem judged_ruleDecision : judged (engine.ruleDecision action snapshot
    (engine.matching texts action.action snapshot)) =
      verdictOf action.action (engine.winning texts action.action snapshot) := by
  cases first : worst (engine.matching texts action.action snapshot) with
  | none =>
    have none := worst_eq_none_iff.1 first
    have empty : engine.winning texts action.action snapshot = [] := by rw [winning, first]
    rw [empty, none]
    rfl
  | some rule =>
    obtain ⟨rest, winners⟩ := worst_first first
    simp only [winning, first, winners, verdictOf, ruleDecision, outcome, judged]

/-- A refusal, by its message and its id. -/
def refusal (reason : Points) (id : String) : Decision × Points × List Points × Points × List Points :=
  (.block, reason, [Points.ofString id], [], [])

/-- The refusal of a tool that nobody classified. -/
def unknownTool (toolName : Points) : Decision × Points × List Points × Points × List Points :=
  refusal (Points.ofString "tool '" ++ toolName ++
    Points.ofString "' is not declared in any loaded policy pack's known_tools; unclassified tools are refused")
    "unknown_tool"

theorem judged_context {fault : PolicyFault} (refused : policyContextSnapshot context = .error fault) :
    judged (engine.decisionFor texts action context) =
      refusal (Points.ofString fault.message) "policy_context_contract" := by
  simp only [decisionFor, refused]
  rfl

theorem judged_tripped {fault : PolicyFault} (captured : policyContextSnapshot context = .ok snapshot)
    (trip : engine.tripped texts action.action snapshot = some fault) :
    judged (engine.decisionFor texts action context) =
      refusal (Points.ofString fault.message) "policy_match_limit" := by
  simp only [decisionFor, captured]
  unfold tripped at trip
  dsimp only at trip
  split at trip
  next run =>
    obtain rfl := Option.some.inj trip
    simp only [run]
    rfl
  · cases trip

theorem judged_known (captured : policyContextSnapshot context = .ok snapshot)
    (trip : engine.tripped texts action.action snapshot = none) :
    judged (engine.decisionFor texts action context) =
      if engine.knows action.action.toolName then
        verdictOf action.action (engine.winning texts action.action snapshot)
      else unknownTool action.action.toolName := by
  obtain ⟨t, run⟩ := (@matchedRules_ok_iff sha engine texts action.action snapshot _).2
    ⟨tripped_eq_none_iff.1 trip, rfl⟩
  rw [← judged_ruleDecision]
  simp only [decisionFor, captured]
  cases known : engine.knows action.action.toolName with
  | true =>
    simp only [known, ↓reduceIte] at run
    simp only [StateT.run] at run
    simp only [run, ↓reduceIte]
  | false =>
    simp only [known, Bool.false_eq_true, ↓reduceIte] at run
    simp only [StateT.run] at run
    simp only [run, Bool.false_eq_true, ↓reduceIte]
    rfl

/-! ### When two evaluations say the same -/

/-- What the strictest rules say depends on the tool, the target and the side effect of an action. -/
theorem verdictOf_congr {a b : ProposedAction} (tool : b.toolName = a.toolName) (target : b.target = a.target)
    (level : b.sideEffectLevel = a.sideEffectLevel) (rules : List Rule) :
    verdictOf b rules = verdictOf a rules := by
  cases rules with
  | nil =>
    have same : outcome b [] = outcome a [] := by rw [outcome, outcome, worst, tool, level]
    simp only [verdictOf, same, scopeOf, tool, target]
  | cons rule rules => simp only [verdictOf, scopeOf, tool, target]

/-- Actions with one tool, one target and one side effect, and engines that know the tool alike. -/
structure Comparable (engine other : PolicyEngine sha) (action action' : ProposedAction) : Prop where
  toolName : action'.toolName = action.toolName
  target : action'.target = action.target
  level : action'.sideEffectLevel = action.sideEffectLevel
  known : other.knows action.toolName = engine.knows action.toolName

variable {d e : GuardrailDecision}

theorem judged_of_ok (returned : engine.evaluate texts action context = .ok d) :
    judged d = judged (engine.decisionFor texts action context) := by
  obtain ⟨-, rfl⟩ := evaluate_ok_iff.1 returned
  rfl

/-- Within the ceilings of both, the strictest rules decide. -/
theorem judged_within (comparable : Comparable engine other action.action action'.action)
    (captured : policyContextSnapshot context = .ok snapshot)
    (within : engine.Within texts action.action) (within' : other.Within texts action'.action)
    (same : engine.knows action.action.toolName = true →
      engine.winning texts action.action snapshot = other.winning texts action'.action snapshot) :
    judged (other.decisionFor texts action' context) = judged (engine.decisionFor texts action context) := by
  rw [judged_known captured (tripped_eq_none_iff.2 within),
    judged_known captured (tripped_eq_none_iff.2 within'), comparable.toolName, comparable.known]
  split
  next knows => rw [same knows, verdictOf_congr comparable.toolName comparable.target comparable.level]
  next => rfl

/-- Beyond the ceilings, one of those that the action exceeds is broken first. -/
theorem exists_tripped (beyond : ¬ engine.Within texts action.action) (snapshot : PolicyContext) :
    ∃ fault, engine.tripped texts action.action snapshot = some fault ∧
      engine.Exceeds texts action.action fault := by
  cases trip : engine.tripped texts action.action snapshot with
  | none => exact absurd (tripped_eq_none_iff.1 trip) beyond
  | some fault =>
    refine ⟨fault, rfl, @exceeds_of_error sha engine texts action.action snapshot fault ?_⟩
    unfold tripped at trip
    dsimp only at trip
    split at trip
    next run =>
      obtain rfl := Option.some.inj trip
      exact run
    · cases trip

/-- All the ceilings that either action exceeds are one. -/
def OneCeiling (engine other : PolicyEngine sha) (texts : TextRules) (action action' : ProposedAction) : Prop :=
  ∀ f g, engine.Exceeds texts action f → other.Exceeds texts action' g → f.message = g.message

theorem judged_beyond (captured : policyContextSnapshot context = .ok snapshot)
    (beyond : ¬ engine.Within texts action.action) (beyond' : ¬ other.Within texts action'.action)
    (same : engine.tripped texts action.action snapshot = other.tripped texts action'.action snapshot ∨
      OneCeiling engine other texts action.action action'.action) :
    judged (other.decisionFor texts action' context) = judged (engine.decisionFor texts action context) := by
  obtain ⟨fault, trip, exceeds⟩ := exists_tripped beyond snapshot
  obtain ⟨fault', trip', exceeds'⟩ := exists_tripped beyond' snapshot
  rw [judged_tripped captured trip, judged_tripped captured trip']
  rcases same with same | one
  · obtain rfl := Option.some.inj (trip.symm.trans (same.trans trip'))
    rfl
  · rw [one fault fault' exceeds exceeds']

/-- No rule takes the id of a decision that no rule takes part in. -/
def Unreserved (engine : PolicyEngine sha) : Prop :=
  ∀ rule ∈ engine.rules, rule.id ∉ ["policy_match_limit", "default_deny"].map Points.ofString

private theorem verdictOf_ids (action : ProposedAction) (rules : List Rule) :
    (verdictOf action rules).2.2.1 =
      if rules = [] then [Points.ofString "default_deny"] else rules.map (·.id) := by
  cases rules with
  | nil =>
    rw [verdictOf, outcome, worst]
    dsimp only
    split <;> rfl
  | cons rule rules => rfl

private theorem known_ne_refusal (unreserved : engine.Unreserved) :
    (if engine.knows action.action.toolName then
      verdictOf action.action (engine.winning texts action.action snapshot)
    else unknownTool action.action.toolName).2.2.1 ≠ [Points.ofString "policy_match_limit"] := by
  intro ids
  split at ids
  · rw [verdictOf_ids] at ids
    split at ids
    · exact absurd ids (by decide)
    · obtain ⟨rule, member, id⟩ : ∃ rule ∈ engine.winning texts action.action snapshot,
          rule.id = Points.ofString "policy_match_limit" := by
        apply List.mem_map.1
        rw [ids]
        exact List.mem_singleton_self _
      exact unreserved rule (winning_sublist.subset member) (by simp [id])
  · have ids : [Points.ofString "unknown_tool"] = [Points.ofString "policy_match_limit"] := ids
    exact absurd ids (by decide)

private theorem winning_of_ids (order : other.rules.Perm engine.rules) (unreserved : engine.Unreserved)
    (same : (verdictOf action.action (engine.winning texts action.action snapshot)).2.2.1 =
      (verdictOf action'.action (other.winning texts action'.action snapshot)).2.2.1) :
    engine.winning texts action.action snapshot = other.winning texts action'.action snapshot := by
  rw [verdictOf_ids, verdictOf_ids] at same
  -- the default answer carries an identifier that no rule may have
  have apart {rules : List Rule} (inside : rules ⊆ engine.rules) :
      rules.map (·.id) ≠ [Points.ofString "default_deny"] := by
    intro ids
    obtain ⟨rule, member, id⟩ : ∃ rule ∈ rules, rule.id = Points.ofString "default_deny" := by
      apply List.mem_map.1
      rw [ids]
      exact List.mem_singleton_self _
    exact unreserved rule (inside member) (by simp [id])
  have inside : other.winning texts action'.action snapshot ⊆ engine.rules :=
    fun rule member => order.mem_iff.1 (winning_sublist.subset member)
  split at same
  next none =>
    split at same
    next none' => rw [none, none']
    next => exact absurd same.symm (apart inside)
  next =>
    split at same
    next => exact absurd same (apart winning_sublist.subset)
    next =>
      refine map_cancel (fun r own s outside id => ?_) same
      exact List.inj_on_of_nodup_map engine.distinct (winning_sublist.subset own) (inside outside) id

/-- Decision, reason and ids of a decision. -/
def said (t : Decision × Points × List Points × Points × List Points) : Decision × Points × List Points :=
  (t.1, t.2.1, t.2.2.1)

/-- Evaluations that say the same stay within the ceilings alike. -/
theorem within_of_said (order : other.rules.Perm engine.rules) (unreserved : engine.Unreserved)
    (captured : policyContextSnapshot context = .ok snapshot)
    (one : engine.Within texts action.action ∨ other.Within texts action'.action)
    (same : said (judged (other.decisionFor texts action' context)) =
      said (judged (engine.decisionFor texts action context))) :
    engine.Within texts action.action ∧ other.Within texts action'.action := by
  have ids := congrArg (fun t => t.2.2) same
  by_cases within : engine.Within texts action.action
  · refine ⟨within, ?_⟩
    by_contra beyond
    obtain ⟨fault, trip, -⟩ := exists_tripped beyond snapshot
    rw [judged_known captured (tripped_eq_none_iff.2 within), judged_tripped captured trip] at ids
    exact known_ne_refusal unreserved ids.symm
  · have within' := one.resolve_left within
    have unreserved' : other.Unreserved := fun rule member => unreserved rule (order.mem_iff.1 member)
    obtain ⟨fault, trip, -⟩ := exists_tripped within snapshot
    rw [judged_known captured (tripped_eq_none_iff.2 within'), judged_tripped captured trip] at ids
    exact absurd ids (known_ne_refusal unreserved')

/-- Evaluations within the ceilings that say the same find the same strictest rules. -/
theorem winning_of_said (comparable : Comparable engine other action.action action'.action)
    (order : other.rules.Perm engine.rules) (unreserved : engine.Unreserved)
    (captured : policyContextSnapshot context = .ok snapshot)
    (within : engine.Within texts action.action) (within' : other.Within texts action'.action)
    (knows : engine.knows action.action.toolName = true)
    (same : said (judged (other.decisionFor texts action' context)) =
      said (judged (engine.decisionFor texts action context))) :
    engine.winning texts action.action snapshot = other.winning texts action'.action snapshot := by
  rw [judged_known captured (tripped_eq_none_iff.2 within),
    judged_known captured (tripped_eq_none_iff.2 within'), comparable.toolName, comparable.known,
    if_pos knows, if_pos knows] at same
  exact winning_of_ids order unreserved (congrArg (fun t => t.2.2) same).symm

/-- Two evaluations that take one course: both stay within the ceilings and find the same strictest
rules, or both break one ceiling first. -/
structure OneCourse (engine other : PolicyEngine sha) (texts : TextRules) (action action' : ProposedAction)
    (snapshot : PolicyContext) : Prop where
  ceilings : engine.Within texts action ↔ other.Within texts action'
  winning : engine.Within texts action → engine.knows action.toolName = true →
    engine.winning texts action snapshot = other.winning texts action' snapshot
  tripped : ¬ engine.Within texts action →
    engine.tripped texts action snapshot = other.tripped texts action' snapshot ∨
      OneCeiling engine other texts action action'

/-- Evaluations that take one course say the same. -/
theorem judged_of_course (comparable : Comparable engine other action.action action'.action)
    (course : ∀ snapshot, policyContextSnapshot context = .ok snapshot →
      OneCourse engine other texts action.action action'.action snapshot) :
    judged (other.decisionFor texts action' context) = judged (engine.decisionFor texts action context) := by
  cases captured : policyContextSnapshot context with
  | error fault => rw [judged_context captured, judged_context captured]
  | ok snapshot =>
    have course := course snapshot captured
    by_cases within : engine.Within texts action.action
    · exact judged_within comparable captured within (course.ceilings.1 within) (course.winning within)
    · exact judged_beyond captured within (fun inside => within (course.ceilings.2 inside))
        (course.tripped within)

/-- Evaluations that take one course explain themselves alike. -/
theorem explains_of_course (comparable : Comparable engine other action.action action'.action)
    (course : ∀ snapshot, policyContextSnapshot context = .ok snapshot →
      OneCourse engine other texts action.action action'.action snapshot) :
    Explains engine texts action context ↔ Explains other texts action' context := by
  have knows_iff : other.knows action'.action.toolName = engine.knows action.action.toolName := by
    rw [comparable.toolName, comparable.known]
  have first {snapshot : PolicyContext} (captured : policyContextSnapshot context = .ok snapshot)
      (within : engine.Within texts action.action) (knows : engine.knows action.action.toolName = true) :
      worst (engine.matching texts action.action snapshot) =
        worst (other.matching texts action'.action snapshot) := by
    rw [worst_eq_head, worst_eq_head, (course snapshot captured).winning within knows]
  constructor
  · intro explains snapshot rule captured within' knows' found
    have within := (course snapshot captured).ceilings.2 within'
    have knows := knows_iff.symm.trans knows'
    exact explains snapshot rule captured within knows ((first captured within knows).trans found)
  · intro explains snapshot rule captured within knows found
    have within' := (course snapshot captured).ceilings.1 within
    exact explains snapshot rule captured within' (knows_iff.trans knows)
      ((first captured within knows).symm.trans found)

/-! ### Load orders -/

theorem leads_perm (order : other.rules.Perm engine.rules) (rule : Rule) :
    Leads engine texts action.action snapshot rule ↔ Leads other texts action.action snapshot rule := by
  constructor
  · intro leads
    exact ⟨order.mem_iff.2 leads.loaded, leads.holds,
      fun other inside => leads.strictest other (order.mem_iff.1 inside)⟩
  · intro leads
    exact ⟨order.mem_iff.1 leads.loaded, leads.holds,
      fun other inside => leads.strictest other (order.mem_iff.2 inside)⟩

/-- Two engines that stay within the ceilings of matching alike. Within them they load the rules that
lead in one order; beyond them they load everything in one order, or only one ceiling is exceeded. -/
structure LoadedAlike (engine other : PolicyEngine sha) (texts : TextRules) (action : ProposedAction)
    (snapshot : PolicyContext) : Prop where
  ceilings : engine.Within texts action ↔ other.Within texts action
  order : engine.Within texts action → engine.knows action.toolName = true → ∀ r s,
    Leads engine texts action snapshot r → Leads engine texts action snapshot s →
      (Before engine.rules r s ↔ Before other.rules r s)
  beyond : ¬ engine.Within texts action →
    (engine.knownTools = other.knownTools ∧ engine.rules = other.rules) ∨
      OneCeiling engine other texts action action

theorem LoadedAlike.course (order : other.rules.Perm engine.rules)
    (alike : LoadedAlike engine other texts action.action snapshot) :
    OneCourse engine other texts action.action action.action snapshot where
  ceilings := alike.ceilings
  winning within knows := (winning_eq_iff order (leads_perm order)).2 (alike.order within knows)
  tripped beyond := by
    rcases alike.beyond beyond with ⟨tools, rules⟩ | one
    · left
      unfold tripped matchedRules isKnownTool
      rw [tools, rules]
    · exact .inr one

theorem loadedAlike_of_judged (comparable : Comparable engine other action.action action.action)
    (order : other.rules.Perm engine.rules) (unreserved : engine.Unreserved)
    (captured : policyContextSnapshot context = .ok snapshot)
    (one : engine.Within texts action.action ∨ other.Within texts action.action)
    (same : judged (other.decisionFor texts action context) =
      judged (engine.decisionFor texts action context)) :
    LoadedAlike engine other texts action.action snapshot := by
  have said := congrArg said same
  obtain ⟨within, within'⟩ := within_of_said order unreserved captured one said
  constructor
  · exact iff_of_true within within'
  · intro _ knows
    exact (winning_eq_iff order (leads_perm order)).1
      (winning_of_said comparable order unreserved captured within within' knows said)
  · exact fun beyond => absurd within beyond

end Judged

namespace Demo

def review : Rule := rule "review" "needs a review" "" (by decide)

def pay : Rule := rule "pay" "spends money" "execute send once" (by decide)

/-- Two rules that ask for an approval, in either load order. -/
def reviewFirst : PolicyEngine markedHash :=
  load markedHash [review, pay] (textOf [review, pay]) (by decide) (by decide +kernel)

def payFirst : PolicyEngine markedHash :=
  load markedHash [pay, review] (textOf [review, pay]) (by decide) (by decide +kernel)

/-- A rule that refuses, with the one that asks for a review before or after it. -/
def stop : Rule := { rule "stop" "never sends" "" (by decide) with effect := .block }

def stopLast : PolicyEngine markedHash :=
  load markedHash [review, stop] (textOf [review, stop]) (by decide) (by decide +kernel)

def stopFirst : PolicyEngine markedHash :=
  load markedHash [stop, review] (textOf [review, stop]) (by decide) (by decide +kernel)

private theorem rule_plain {id reason approvalScope : String}
    (visible : (Points.ofString id).all blankPoint = false) (effect : Decision) :
    Rule.Plain { rule id reason approvalScope visible with effect } := by
  have spelled (s : String) : (Points.ofString s).unpaired = true := join_units_iff.1 (join_ofString s)
  constructor
  · exact spelled id
  · rfl
  · exact fun _ none => nomatch none
  · exact fun _ none => nomatch none
  · exact fun _ none => nomatch none
  · exact fun _ none => nomatch none
  · exact spelled reason
  · exact spelled approvalScope
  · exact fun _ none => nomatch none

theorem stop_spelledAlike : SpelledAlike stopFirst stopLast := by
  have review_plain : review.Plain := @rule_plain "review" "needs a review" "" (by decide) .approvalRequired
  have stop_plain : stop.Plain := @rule_plain "stop" "never sends" "" (by decide) .block
  apply Plain.spelledAlike
  · exact ⟨fun _ none => absurd none List.not_mem_nil,
      List.forall_mem_cons.2 ⟨stop_plain, List.forall_mem_singleton.2 review_plain⟩⟩
  · exact ⟨fun _ none => absurd none List.not_mem_nil,
      List.forall_mem_cons.2 ⟨review_plain, List.forall_mem_singleton.2 stop_plain⟩⟩

end Demo

private theorem ok_of_toOption {m : Except HarnessError GuardrailDecision} {d : GuardrailDecision}
    (some : m.toOption = some d) : m = .ok d := by
  cases m with
  | error fault => cases some
  | ok e => rw [Option.some.inj some]

end PolicyEngine
end Durable
end DefiantHarness
