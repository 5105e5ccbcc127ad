import DefiantHarness.Foundation.CaseMapping
import DefiantHarness.PolicyMatching

/-! The text of a payload, and which terms are found in it. -/
namespace DefiantHarness

open Foundation

namespace Durable

/-! ### Flattening -/

def blank : Points := Points.ofString " "

mutual

/-- The recursive join, with blanks, of the values of mappings and the items of sequences. -/
def flattened (rules : TextRules) : Value → Points
  | .dict entries => blank.intercalate (flattenedEntries rules entries)
  | .list items => blank.intercalate (flattenedItems rules items)
  | .tuple items => blank.intercalate (flattenedItems rules items)
  | v => leafText rules v

def flattenedItems (rules : TextRules) : List Value → List Points
  | [] => []
  | v :: vs => flattened rules v :: flattenedItems rules vs

def flattenedEntries (rules : TextRules) : List Entry → List Points
  | [] => []
  | (_, v) :: es => flattened rules v :: flattenedEntries rules es

end

mutual

/-- The scalar values of a payload, at any depth. -/
def scalars : Value → List Value
  | .dict entries => scalarsEntries entries
  | .list items => scalarsItems items
  | .tuple items => scalarsItems items
  | v => [v]

def scalarsItems : List Value → List Value
  | [] => []
  | v :: vs => scalars v ++ scalarsItems vs

def scalarsEntries : List Entry → List Value
  | [] => []
  | (_, v) :: es => scalars v ++ scalarsEntries es

end

section Flattening

variable {rules : TextRules}

theorem flattenedItems_eq (items : List Value) : flattenedItems rules items = items.map (flattened rules) := by
  induction items with
  | nil => rfl
  | cons v vs ih => rw [flattenedItems, ih, List.map_cons]

theorem flattenedEntries_eq (entries : List Entry) :
    flattenedEntries rules entries = flattenedItems rules (entries.map (·.2)) := by
  induction entries with
  | nil => rfl
  | cons e es ih => rw [flattenedEntries, ih, List.map_cons, flattenedItems]

theorem scalarsItems_eq (items : List Value) : scalarsItems items = items.flatMap scalars := by
  induction items with
  | nil => rfl
  | cons v vs ih => rw [scalarsItems, ih, List.flatMap_cons]

theorem scalarsEntries_eq (entries : List Entry) :
    scalarsEntries entries = scalarsItems (entries.map (·.2)) := by
  induction entries with
  | nil => rfl
  | cons e es ih => rw [scalarsEntries, ih, List.map_cons, scalarsItems]

theorem flattenEntries_eq (depth index : Nat) (entries : List Entry) :
    flattenEntries rules depth index entries = flattenItems rules depth index (entries.map (·.2)) := by
  induction entries generalizing index with
  | nil => rfl
  | cons e es ih =>
    rw [flattenEntries, List.map_cons, flattenItems]
    simp only [ih]

theorem intercalate_cons (x : Points) (xs : List Points) :
    blank.intercalate (x :: xs) = x ++ xs.flatMap fun y => blank ++ y := by
  induction xs generalizing x with
  | nil => simp [List.intercalate]
  | cons y ys ih =>
    have step : blank.intercalate (x :: y :: ys) = x ++ blank ++ blank.intercalate (y :: ys) := by
      simp [List.intercalate]
    rw [step, ih, List.flatMap_cons]
    simp

private theorem enterNode_parts {depth : Nat} {s t : Flattening} {u : Unit}
    (run : enterNode depth s = .ok (u, t)) : t.parts = s.parts := by
  simp only [enterNode, refuseIf_bind_ok_iff, pure_ok_iff, Prod.mk.injEq] at run
  obtain ⟨-, -, -, rfl⟩ := run
  rfl

private theorem appendText_parts {value : Points} {s t : Flattening} {u : Unit}
    (run : appendText value s = .ok (u, t)) : t.parts.flatten = s.parts.flatten ++ value := by
  simp only [appendText, refuseIf_bind_ok_iff, pure_ok_iff, Prod.mk.injEq] at run
  obtain ⟨-, -, rfl⟩ := run
  simp

/-- Flattening a value appends its join. -/
def Joins (rules : TextRules) (v : Value) : Prop :=
  ∀ depth s t u, flattenValue rules depth v s = .ok (u, t) →
    t.parts.flatten = s.parts.flatten ++ flattened rules v

private theorem items_join {items : List Value} (each : ∀ v ∈ items, Joins rules v) (depth index : Nat)
    {s t : Flattening} {u : Unit} (run : flattenItems rules depth index items s = .ok (u, t)) :
    t.parts.flatten = s.parts.flatten ++
      if index = 0 then blank.intercalate (flattenedItems rules items)
      else (flattenedItems rules items).flatMap fun y => blank ++ y := by
  induction items generalizing index s with
  | nil =>
    obtain ⟨-, rfl⟩ := Prod.mk.inj (pure_ok_iff.1 run)
    simp [flattenedItems, List.intercalate]
  | cons v vs ih =>
    -- the first item is written without a blank before it, the others with one
    have after {s₁ : Flattening} (run : (flattenValue rules depth v >>= fun _ =>
        flattenItems rules depth (index + 1) vs) s₁ = .ok (u, t)) :
        t.parts.flatten = s₁.parts.flatten ++ (flattened rules v ++
          (flattenedItems rules vs).flatMap fun y => blank ++ y) := by
      rw [state_bind_ok_iff] at run
      obtain ⟨_, s₂, own, rest⟩ := run
      rw [ih (fun w member => each w (List.mem_cons_of_mem _ member)) (index + 1) rest,
        each v List.mem_cons_self depth s₁ s₂ _ own, if_neg (Nat.succ_ne_zero index), List.append_assoc]
    rw [flattenItems] at run
    rw [flattenedItems]
    by_cases first : index = 0
    · rw [if_pos first] at run ⊢
      rw [after run, intercalate_cons]
    · rw [if_neg first, state_bind_ok_iff] at run
      obtain ⟨_, s₁, separated, run⟩ := run
      rw [if_neg first, after run, appendText_parts separated, List.flatMap_cons]
      simp [blank]

private theorem leaf_joins {v : Value}
    (leaf : ∀ depth, flattenValue rules depth v =
      (enterNode depth >>= fun _ => appendText (leafText rules v)))
    (text : flattened rules v = leafText rules v) : Joins rules v := by
  intro depth s t u run
  rw [leaf, state_bind_ok_iff] at run
  obtain ⟨_, s₁, entered, appended⟩ := run
  rw [appendText_parts appended, enterNode_parts entered, text]

theorem flattenValue_joins (v : Value) : Joins rules v := by
  -- lists, tuples and dictionaries' values are flattened by one loop
  have sequence {items : List Value} (each : ∀ v ∈ items, Joins rules v) {depth : Nat} {s t : Flattening}
      {u : Unit} (run : (enterNode depth >>= fun _ => flattenItems rules (depth + 1) 0 items) s = .ok (u, t)) :
      t.parts.flatten = s.parts.flatten ++ blank.intercalate (flattenedItems rules items) := by
    rw [state_bind_ok_iff] at run
    obtain ⟨_, s₁, entered, rest⟩ := run
    rw [items_join each _ 0 rest, enterNode_parts entered, if_pos rfl]
  induction v using Value.induction_on with
  | list items ih => exact fun depth s t u run => sequence ih run
  | tuple items ih => exact fun depth s t u run => sequence ih run
  | dict entries ih =>
    intro depth s t u run
    rw [flattenValue, flattenEntries_eq] at run
    rw [flattened, flattenedEntries_eq]
    refine sequence (fun v member => ?_) run
    obtain ⟨e, listed, rfl⟩ := List.mem_map.1 member
    exact (ih e listed).2
  | null => exact leaf_joins (fun _ => rfl) rfl
  | bool b => exact leaf_joins (fun _ => rfl) rfl
  | int i => exact leaf_joins (fun _ => rfl) rfl
  | float x => exact leaf_joins (fun _ => rfl) rfl
  | nonFinite => exact leaf_joins (fun _ => rfl) rfl
  | str s => exact leaf_joins (fun _ => rfl) rfl
  | decimal d => exact leaf_joins (fun _ => rfl) rfl
  | member mixed v ih => exact leaf_joins (fun _ => rfl) rfl
  | foreign => exact leaf_joins (fun _ => rfl) rfl

/-- The text of a payload is the lower case of its join. -/
theorem boundedPayloadText_eq {payload : Value} {text : Points}
    (flat : boundedPayloadText rules payload = .ok text) :
    text = rules.lower (flattened rules payload) ∧ text.length ≤ maxPolicyMatchPayloadCharacters := by
  simp only [boundedPayloadText, bind_ok_iff, refuseIf_ok_iff, pure_ok_iff, not_lt] at flat
  obtain ⟨⟨_, s⟩, run, _, fits, rfl⟩ := flat
  have joined := flattenValue_joins payload 1 _ _ _ run
  rw [List.flatten_nil, List.nil_append] at joined
  exact ⟨by rw [joined], fits⟩

theorem infix_intercalate {x : Points} {xs : List Points} (member : x ∈ xs) : x <:+: blank.intercalate xs := by
  cases xs with
  | nil => cases member
  | cons y ys =>
    rw [intercalate_cons]
    rcases List.mem_cons.1 member with rfl | member
    · exact (List.prefix_append _ _).isInfix
    · refine List.IsInfix.trans ?_ (List.suffix_append _ _).isInfix
      obtain ⟨before, after, rfl⟩ := List.append_of_mem member
      rw [List.flatMap_append, List.flatMap_cons]
      exact ⟨before.flatMap (fun y => blank ++ y) ++ blank, after.flatMap fun y => blank ++ y, by simp⟩

/-- The text of a scalar value stands in the join of the payload. -/
theorem scalar_within {v leaf : Value} (member : leaf ∈ scalars v) :
    leafText rules leaf <:+: flattened rules v := by
  have sequence {items : List Value} (each : ∀ v ∈ items, leaf ∈ scalars v →
      leafText rules leaf <:+: flattened rules v) (member : leaf ∈ scalarsItems items) :
      leafText rules leaf <:+: blank.intercalate (flattenedItems rules items) := by
    rw [scalarsItems_eq] at member
    obtain ⟨v, listed, inside⟩ := List.mem_flatMap.1 member
    rw [flattenedItems_eq]
    exact (each v listed inside).trans (infix_intercalate (List.mem_map_of_mem listed))
  induction v using Value.induction_on with
  | list items ih => exact sequence ih member
  | tuple items ih => exact sequence ih member
  | dict entries ih =>
    rw [scalars, scalarsEntries_eq] at member
    rw [flattened, flattenedEntries_eq]
    refine sequence (fun v listed => ?_) member
    obtain ⟨e, place, rfl⟩ := List.mem_map.1 listed
    exact (ih e place).2
  | null => rw [List.mem_singleton.1 member]; exact List.infix_refl _
  | bool b => rw [List.mem_singleton.1 member]; exact List.infix_refl _
  | int i => rw [List.mem_singleton.1 member]; exact List.infix_refl _
  | float x => rw [List.mem_singleton.1 member]; exact List.infix_refl _
  | nonFinite => rw [List.mem_singleton.1 member]; exact List.infix_refl _
  | str s => rw [List.mem_singleton.1 member]; exact List.infix_refl _
  | decimal d => rw [List.mem_singleton.1 member]; exact List.infix_refl _
  | member mixed v ih => rw [List.mem_singleton.1 member]; exact List.infix_refl _
  | foreign => rw [List.mem_singleton.1 member]; exact List.infix_refl _

end Flattening

/-! ### Looking for terms -/

section Terms

variable {texts : TextRules} {payload : List Entry}

open PolicyMatchState

/-- A condition that holds, or that a ceiling ends. -/
def HoldsOrRefused (condition : Match texts payload Bool) (s : PolicyMatchState texts payload) : Prop :=
  (∃ t, condition s = .ok (true, t)) ∨ ∃ fault, condition s = .error fault

theorem holdsOrRefused_bind {α : Type} {m : Match texts payload α} {f : α → Match texts payload Bool}
    {s : PolicyMatchState texts payload} (rest : ∀ a t, m s = .ok (a, t) → HoldsOrRefused (f a) t) :
    HoldsOrRefused (m >>= f) s := by
  have unfolded : (m >>= f) s = m s >>= fun r => f r.1 r.2 := rfl
  rw [HoldsOrRefused, unfolded]
  cases run : m s with
  | error fault => exact .inr ⟨fault, rfl⟩
  | ok r => exact rest r.1 r.2 run

theorem containsTerm_found {payloadText term : Points} {terms : List Points} (listed : term ∈ terms)
    (occurs : texts.lower term <:+: payloadText) (s : PolicyMatchState texts payload) :
    HoldsOrRefused (containsTerm payloadText terms) s := by
  induction terms generalizing s with
  | nil => cases listed
  | cons first terms ih =>
    refine holdsOrRefused_bind fun _ t _ => ?_
    split
    next => exact .inl ⟨t, rfl⟩
    next absent =>
      rcases List.mem_cons.1 listed with rfl | member
      · exact absurd occurs absent
      · exact ih member t

theorem payloadTextFor_ok {s t : PolicyMatchState texts payload} {text : Points}
    (run : (payloadTextFor : Match texts payload Points) s = .ok (text, t)) :
    boundedPayloadText texts (.dict payload) = .ok text := by
  rcases s with ⟨payloadWork, globWork, known, cached⟩
  cases known with
  | some known =>
    obtain ⟨rfl, -⟩ := Prod.mk.inj (pure_ok_iff.1 run)
    exact cached text rfl
  | none =>
    unfold payloadTextFor at run
    dsimp only at run
    split at run
    · cases run
    next flat =>
      obtain ⟨rfl, -⟩ := Prod.mk.inj (pure_ok_iff.1 run)
      exact flat

/-- A term that occurs in the text of every payload that has one is found. -/
theorem matchesPayload_found {rule : Rule} {term : Points} (listed : term ∈ rule.payloadContains)
    (occurs : ∀ text, boundedPayloadText texts (.dict payload) = .ok text → texts.lower term <:+: text)
    (s : PolicyMatchState texts payload) : HoldsOrRefused rule.matchesPayload s := by
  rw [Rule.matchesPayload, if_neg (List.ne_nil_of_mem listed)]
  exact holdsOrRefused_bind fun text t run => containsTerm_found listed (occurs text (payloadTextFor_ok run)) t

theorem bind_ok {α β : Type} {m : Match texts payload α} {f : α → Match texts payload β}
    {s t : PolicyMatchState texts payload} {a : α} (run : m s = .ok (a, t)) : (m >>= f) s = f a t := by
  have unfolded : (m >>= f) s = m s >>= fun r => f r.1 r.2 := rfl
  rw [unfolded, run]
  rfl

theorem bind_error {α β : Type} {m : Match texts payload α} {f : α → Match texts payload β}
    {s : PolicyMatchState texts payload} {fault : PolicyFault} (run : m s = .error fault) :
    (m >>= f) s = .error fault := by
  have unfolded : (m >>= f) s = m s >>= fun r => f r.1 r.2 := rfl
  rw [unfolded, run]
  rfl

end Terms

/-! ### Searches that are reached -/

section Reached

variable {sha : TextHash} {texts : TextRules} {action : ProposedAction} {context : PolicyContext}
  {engine : PolicyEngine sha} {rule : Rule}

open PolicyMatchState

/-- An evaluation searches the payload for the terms of a rule: the rules before it were matched, and its
own conditions before the search hold. -/
structure Searches (texts : TextRules) (engine : PolicyEngine sha) (action : ProposedAction)
    (context : PolicyContext) (rule : Rule) (t : PolicyMatchState texts action.payload) : Prop where
  listed : ∃ before after, engine.rules = before ++ rule :: after ∧
    ∃ known matched start tools, engine.isKnownTool action.toolName .initial = .ok (true, known) ∧
      PolicyEngine.matchRules action context before known = .ok (matched, start) ∧
        rule.matchesTools action.toolName start = .ok (true, tools) ∧
          rule.matchesTargets action.target tools = .ok (true, t)
  level : rule.matchesLevel action.sideEffectLevel = true

theorem matchesAction_error {s tools t : PolicyMatchState texts action.payload} {fault : PolicyFault}
    (toolHit : rule.matchesTools action.toolName s = .ok (true, tools))
    (level : rule.matchesLevel action.sideEffectLevel = true)
    (targetHit : rule.matchesTargets action.target tools = .ok (true, t))
    (refused : rule.matchesPayload t = .error fault) :
    rule.matchesAction action context s = .error fault := by
  rw [Rule.matchesAction, bind_ok toolHit]
  simp only [Bool.not_true, Bool.false_eq_true, if_false, level]
  rw [bind_ok targetHit]
  simp only [Bool.not_true, Bool.false_eq_true, if_false]
  exact bind_error refused

theorem matchRules_error {before after : List Rule} {s t : PolicyMatchState texts action.payload}
    {matched : List Rule} {fault : PolicyFault}
    (run : PolicyEngine.matchRules action context before s = .ok (matched, t))
    (refused : rule.matchesAction action context t = .error fault) :
    PolicyEngine.matchRules action context (before ++ rule :: after) s = .error fault := by
  induction before generalizing s matched with
  | nil =>
    obtain ⟨rfl, rfl⟩ := Prod.mk.inj (pure_ok_iff.1 run)
    exact bind_error refused
  | cons first before ih =>
    have unfolded : PolicyEngine.matchRules action context (first :: before) s =
        first.matchesAction action context s >>= fun r =>
          PolicyEngine.matchRules action context before r.2 >>= fun q =>
            .ok (if r.1 then first :: q.1 else q.1, q.2) := rfl
    rw [unfolded] at run
    simp only [bind_ok_iff, Prod.exists, Except.ok.injEq, Prod.mk.injEq] at run
    obtain ⟨hit, u, head, rest, v, tail, _, rfl⟩ := run
    rw [List.cons_append, PolicyEngine.matchRules, bind_ok head]
    exact bind_error (ih tail)

/-- The fault of a search that is reached is the fault of the whole evaluation. -/
theorem matchedRules_error {t : PolicyMatchState texts action.payload} {fault : PolicyFault}
    (reached : Searches texts engine action context rule t)
    (refused : rule.matchesPayload t = .error fault) :
    (engine.matchedRules action context : Match texts action.payload _) .initial = .error fault := by
  obtain ⟨before, after, rules, known, matched, start, tools, classified, run, toolHit, targetHit⟩ :=
    reached.listed
  rw [PolicyEngine.matchedRules, bind_ok classified, rules]
  exact bind_error (matchRules_error run (matchesAction_error toolHit reached.level targetHit refused))

end Reached

/-! ### Which terms are found -/

section Found

variable (table : CaseTable) (str : Value → Points)

/-- Texts of an interpreter with the given tables. -/
abbrev textsOf : TextRules := ⟨table.lower, str⟩

/-- Every rule that lists a term finds it, in whichever case it stands, in every scalar value of every
payload. -/
def FindsTerm (term : Points) : Prop :=
  ∀ (rule : Rule), term ∈ rule.payloadContains → ∀ (payload : List Entry)
    (s : PolicyMatchState (textsOf table str) payload), ∀ leaf ∈ scalars (.dict payload), ∀ u,
      u <:+: leafText (textsOf table str) leaf → u = term ∨ table.lower u = table.lower term →
        HoldsOrRefused rule.matchesPayload s

variable {table str}

theorem lower_infix_of_steady {term u s : Points} (steady : table.Steady (table.lower term))
    (lowered : table.lower u = table.lower term) (inside : u <:+: s) :
    table.lower term <:+: table.lower s := by
  obtain ⟨before, after, rfl⟩ := inside
  have kept : table.lowerWithin before.reverse after u = table.lower term := by
    rw [CaseTable.lowerWithin_of_steady (by rw [lowered]; exact steady), lowered]
  rw [CaseTable.lower_between, kept]
  exact ⟨_, _, rfl⟩

/-- Where there is no room for anything else, a payload is the term itself. -/
theorem lower_infix_of_full {term u s : Points} (lowered : table.lower u = table.lower term)
    (inside : u <:+: s) (full : (table.lower s).length ≤ (table.lower term).length) :
    table.lower term <:+: table.lower s := by
  obtain ⟨before, after, rfl⟩ := inside
  have middle : (table.lowerWithin before.reverse after u).length = (table.lower term).length := by
    rw [CaseTable.lowerWithin_length _ _ [] [], ← lowered]
    rfl
  have left := table.length_le_lowerWithin [] (u ++ after) before
  have right := table.length_le_lowerWithin (u.reverse ++ before.reverse) [] after
  rw [CaseTable.lower_between, List.length_append, List.length_append, middle] at full
  have first : before = [] := List.length_eq_zero_iff.1 (by omega)
  have last : after = [] := List.length_eq_zero_iff.1 (by omega)
  subst first last
  rw [List.nil_append, List.append_nil, lowered]

theorem flatten_done (told : Flattening) : (pure () : Flatten Unit) told = .ok ((), told) := rfl

theorem boundedPayloadText_single {rules : TextRules} {name : Value} {s : Points}
    (fits : s.length ≤ maxPolicyMatchPayloadCharacters)
    (lowered : (rules.lower s).length ≤ maxPolicyMatchPayloadCharacters) :
    boundedPayloadText rules (.dict [(name, .str s)]) = .ok (rules.lower s) := by
  have flat : flattenValue rules 1 (.dict [(name, .str s)]) ⟨[], 0, 0⟩ = .ok ((), ⟨[s], s.length, 2⟩) := by
    simp [flattenValue, flattenEntries, enterNode, appendText, refuseIf, bind, StateT.bind, Except.bind,
      flatten_done, leafText, maxPolicyMatchPayloadNestingDepth, maxPolicyMatchPayloadNodes, not_lt.2 fits]
  have within : ¬ maxPolicyMatchPayloadCharacters < (rules.lower [s].flatten).length := by
    rw [List.flatten_singleton]
    exact not_lt.2 lowered
  rw [boundedPayloadText, flat, ok_bind]
  dsimp only
  rw [refuseIf_of_not within, List.flatten_singleton]
  rfl

/-- A term that does not occur in a short text is not found in it. -/
theorem containsTerm_absent {texts : TextRules} {payload : List Entry} {text term : Points}
    (absent : ¬ texts.lower term <:+: text) (small : text.length ≤ maxPolicyMatchPayloadCharacters)
    (small' : (texts.lower term).length ≤ maxPolicyMatchPayloadCharacters)
    {s : PolicyMatchState texts payload} (fresh : s.payloadWorkUsed = 0) :
    ∃ t, (PolicyMatchState.containsTerm text [term] : PolicyMatchState.Match texts payload Bool) s =
      .ok (false, t) := by
  have room : ¬ maxPolicyPayloadMatchWorkUnits - s.payloadWorkUsed < text.length + (texts.lower term).length := by
    simp only [fresh, maxPolicyPayloadMatchWorkUnits, maxPolicyMatchPayloadCharacters] at *
    omega
  have charged : (PolicyMatchState.chargePayloadWork (text.length + (texts.lower term).length) :
      PolicyMatchState.Match texts payload Unit) s = .ok ((), { s with
        payloadWorkUsed := s.payloadWorkUsed + (text.length + (texts.lower term).length) }) := by
    rw [PolicyMatchState.chargePayloadWork, refuseIf_of_not room]
    rfl
  have steps : (PolicyMatchState.containsTerm text [term] : PolicyMatchState.Match texts payload Bool) s =
      (PolicyMatchState.chargePayloadWork (text.length + (texts.lower term).length) :
        PolicyMatchState.Match texts payload Unit) s >>= fun r =>
          (if texts.lower term <:+: text then pure true else pure false :
            PolicyMatchState.Match texts payload Bool) r.2 := rfl
  rw [steps, charged, ok_bind, if_neg absent]
  exact ⟨_, rfl⟩

theorem payloadTextFor_initial {texts : TextRules} {payload : List Entry} {text : Points}
    (flat : boundedPayloadText texts (.dict payload) = .ok text) :
    ∃ s, (PolicyMatchState.payloadTextFor : PolicyMatchState.Match texts payload Points)
      PolicyMatchState.initial = .ok (text, s) ∧ s.payloadWorkUsed = 0 := by
  unfold PolicyMatchState.payloadTextFor PolicyMatchState.initial
  dsimp only
  split
  next fault refused =>
    rw [flat] at refused
    cases refused
  next known found =>
    rw [flat, Except.ok.injEq] at found
    subst found
    exact ⟨_, rfl, rfl⟩

/-- The rule that looks for one term. -/
def termRule (term : Points) (spelled : term ≠ []) : Rule where
  id := Points.ofString "term"
  description := []
  tools := []
  sideEffectAtLeast := none
  targets := []
  payloadContains := [term]
  maxPayloadTrust := none
  sensitivities := []
  effect := .block
  reason := []
  approvalScope := []
  redactions := []
  visible := by decide
  spelled items member := by
    simp only [List.mem_cons, List.not_mem_nil, or_false] at member
    rcases member with rfl | rfl | rfl | rfl | rfl <;> simp [Ne.symm spelled]

theorem termRule_misses {texts : TextRules} {payload : List Entry} {text term : Points} (spelled : term ≠ [])
    (flat : boundedPayloadText texts (.dict payload) = .ok text) (absent : ¬ texts.lower term <:+: text)
    (small : text.length ≤ maxPolicyMatchPayloadCharacters)
    (small' : (texts.lower term).length ≤ maxPolicyMatchPayloadCharacters) :
    ∃ t, ((termRule term spelled).matchesPayload : PolicyMatchState.Match texts payload Bool)
      PolicyMatchState.initial = .ok (false, t) := by
  obtain ⟨s, read, fresh⟩ := payloadTextFor_initial flat
  have steps : ((termRule term spelled).matchesPayload : PolicyMatchState.Match texts payload Bool)
      PolicyMatchState.initial = (PolicyMatchState.payloadTextFor : PolicyMatchState.Match texts payload Points)
        PolicyMatchState.initial >>= fun r => PolicyMatchState.containsTerm r.1 [term] r.2 := rfl
  rw [steps, read, ok_bind]
  exact containsTerm_absent absent small small' fresh

/-- A rule finds its term in every payload exactly when no sigma of the term lowers differently elsewhere,
unless the term is so long that no payload holds more than it. -/
theorem findsTerm_iff {term : Points} :
    FindsTerm table str term ↔
      table.Steady (table.lower term) ∨ maxPolicyMatchPayloadCharacters ≤ (table.lower term).length := by
  constructor
  · intro finds
    by_contra lost
    rw [not_or, not_le] at lost
    obtain ⟨changes, short⟩ := lost
    have spelled : term ≠ [] := by
      rintro rfl
      exact changes fun a b => ⟨fun split => by simp [CaseTable.lower, CaseTable.lowerWithin] at split,
        fun split => by simp [CaseTable.lower, CaseTable.lowerWithin] at split⟩
    -- a text in which the occurrence of the term lowers differently than alone
    obtain ⟨a, u, b, one, length, lowered, longer, absent⟩ := CaseTable.lost_of_not_steady changes
    have fits : (table.lower (a ++ u ++ b)).length ≤ maxPolicyMatchPayloadCharacters := by omega
    have flat : boundedPayloadText (textsOf table str) (.dict [(.str [], .str (a ++ u ++ b))]) =
        .ok (table.lower (a ++ u ++ b)) := by
      refine boundedPayloadText_single ?_ fits
      simp only [List.length_append]
      omega
    have found := finds (termRule term spelled) (List.mem_singleton_self _) [(.str [], .str (a ++ u ++ b))]
      .initial (.str (a ++ u ++ b)) (List.mem_singleton_self _) u ⟨a, b, rfl⟩ (.inr lowered)
    obtain ⟨t, missed⟩ := termRule_misses spelled flat absent fits short.le
    rw [HoldsOrRefused, missed] at found
    simp at found
  · intro either rule listed payload s leaf member u inside same
    have lowered : table.lower u = table.lower term := by
      rcases same with rfl | same
      · rfl
      · exact same
    have inside := inside.trans (scalar_within member)
    refine matchesPayload_found listed (fun text flat => ?_) s
    obtain ⟨rfl, fits⟩ := boundedPayloadText_eq flat
    rcases either with steady | full
    · exact lower_infix_of_steady steady lowered inside
    · exact lower_infix_of_full lowered inside (fits.trans full)

/-- Rules find their terms in every payload exactly when no sigma of the term can lower differently in another
text; the searched text is the lower case of the recursive join; and a ceiling on the search ends the
evaluation, which blocks. -/
theorem payload_terms_found_iff (table : CaseTable) (str : Value → Points) :
    (∀ term, FindsTerm table str term ↔
      table.Steady (table.lower term) ∨ maxPolicyMatchPayloadCharacters ≤ (table.lower term).length) ∧
      (∀ (payload : List Entry) text,
        boundedPayloadText (textsOf table str) (.dict payload) = .ok text →
          text = table.lower (flattened (textsOf table str) (.dict payload))) ∧
      (∀ (sha : TextHash) (engine : PolicyEngine sha) (action : ProposedAction) context rule t fault,
        Searches (textsOf table str) engine action context rule t → rule.matchesPayload t = .error fault →
          (engine.matchedRules action context : PolicyMatchState.Match (textsOf table str) action.payload _)
            PolicyMatchState.initial = .error fault) ∧
      ∀ (sha : TextHash) (engine : PolicyEngine sha) (action : SealedAction) (context : Option Value) snapshot
        fault, policyContextSnapshot context = .ok snapshot →
          (engine.matchedRules action.action snapshot :
            PolicyMatchState.Match (textsOf table str) action.action.payload _) PolicyMatchState.initial =
              .error fault →
            (engine.decisionFor (textsOf table str) action context).decision = .block ∧
              (engine.decisionFor (textsOf table str) action context).policyIds =
                [Points.ofString "policy_match_limit"] := by
  refine ⟨fun term => findsTerm_iff, fun payload text flat => (boundedPayloadText_eq flat).1,
    fun sha engine action context rule t fault reached refused => matchedRules_error reached refused, ?_⟩
  intro sha engine action context snapshot fault read refused
  have decided : engine.decisionFor (textsOf table str) action context =
      engine.matchLimitDecision fault action.action := by
    rw [PolicyEngine.decisionFor, read]
    dsimp only
    rw [refused]
  rw [decided]
  exact ⟨rfl, rfl⟩

end Found

namespace Greek

/-- Capital letters of the Latin and the Greek alphabet. -/
def Capital (c : CodePoint) : Prop := 0x41 ≤ c.val ∧ c.val ≤ 0x5A ∨ 0x391 ≤ c.val ∧ c.val ≤ 0x3A9 ∧ c.val ≠ 0x3A2

instance (c : CodePoint) : Decidable (Capital c) := inferInstanceAs (Decidable (_ ∨ _))

def shifted (c : CodePoint) (capital : Capital c) : CodePoint := ⟨c.val + 32, by
  unfold Capital at capital
  omega⟩

def isLetter (c : CodePoint) : Bool :=
  decide (Capital c ∨ 0x61 ≤ c.val ∧ c.val ≤ 0x7A ∨ 0x3B1 ≤ c.val ∧ c.val ≤ 0x3C9)

def lowerPoint (c : CodePoint) : Points := if capital : Capital c then [shifted c capital] else [c]

theorem mem_lowerPoint {c d : CodePoint} (member : d ∈ lowerPoint c) :
    (∃ capital : Capital c, d = shifted c capital) ∨ ¬ Capital c ∧ d = c := by
  unfold lowerPoint at member
  split at member
  next capital => exact .inl ⟨capital, List.mem_singleton.1 member⟩
  next other => exact .inr ⟨other, List.mem_singleton.1 member⟩

theorem not_capital_shifted {c : CodePoint} (capital : Capital c) : ¬ Capital (shifted c capital) := by
  simp only [Capital, shifted] at capital ⊢
  omega

theorem isLetter_shifted {c : CodePoint} (capital : Capital c) :
    isLetter (shifted c capital) = true ∧ isLetter c = true := by
  constructor
  · rw [isLetter, decide_eq_true_eq]
    simp only [Capital, shifted] at capital ⊢
    omega
  · simp [isLetter, capital]

/-- A full stop, which the rule of the final sigma skips. -/
def isDot (c : CodePoint) : Bool := c == CodePoint.ofChar '.'

theorem lowerPoint_nonempty (c : CodePoint) : lowerPoint c ≠ [] := by
  unfold lowerPoint
  split <;> simp

theorem settled_lowerPoint (c d : CodePoint) (member : d ∈ lowerPoint c) :
    lowerPoint d = [d] ∧ d ≠ capitalSigma := by
  have stays : ¬ Capital d := by
    rcases mem_lowerPoint member with ⟨capital, rfl⟩ | ⟨other, rfl⟩
    · exact not_capital_shifted capital
    · exact other
  refine ⟨by rw [lowerPoint, dif_neg stays], ?_⟩
  rintro rfl
  exact stays (by decide)

theorem sigma_of_lowerPoint (c : CodePoint) (member : smallSigma ∈ lowerPoint c) :
    c = smallSigma ∨ c = capitalSigma := by
  rcases mem_lowerPoint member with ⟨capital, same⟩ | ⟨other, same⟩
  · simp only [smallSigma, shifted, Fin.ext_iff] at same
    exact .inr (Fin.ext (by simp only [capitalSigma]; omega))
  · exact .inl same.symm

theorem final_of_lowerPoint (c : CodePoint) (member : finalSigma ∈ lowerPoint c) : c = finalSigma := by
  rcases mem_lowerPoint member with ⟨capital, same⟩ | ⟨other, same⟩
  · simp only [finalSigma, shifted, Fin.ext_iff] at same
    simp only [Capital] at capital
    omega
  · exact same.symm

theorem lowerPoint_finalSigma : lowerPoint finalSigma = [finalSigma] :=
  dif_neg (by simp only [Capital, finalSigma]; omega)

theorem lowerPoint_capitalSigma : lowerPoint capitalSigma = [smallSigma] := by decide +kernel

theorem isLetter_sigma (c : CodePoint) (member : c ∈ [capitalSigma, finalSigma, smallSigma]) :
    isDot c = false ∧ isLetter c = true := by
  simp only [List.mem_cons, List.not_mem_nil, or_false] at member
  rcases member with rfl | rfl | rfl <;> decide +kernel

theorem firstCase_lowerPoint (c : CodePoint) :
    firstCase isDot isLetter (lowerPoint c) = firstCase isDot isLetter [c] ∧
      firstCase isDot isLetter (lowerPoint c).reverse = firstCase isDot isLetter [c] := by
  unfold lowerPoint
  split
  next capital =>
    obtain ⟨small, upper⟩ := isLetter_shifted capital
    have plain : isDot (shifted c capital) = false ∧ isDot c = false := by
      -- a full stop is no capital, and no capital is shifted to it
      constructor <;> rw [isDot, beq_eq_false_iff_ne] <;> rintro same <;>
        simp only [shifted, Fin.ext_iff, Capital] at same capital
      · have dot : (CodePoint.ofChar '.').val = 0x2E := rfl
        omega
      · have dot : (CodePoint.ofChar '.').val = 0x2E := rfl
        omega
    simp [firstCase, plain.1, plain.2, small, upper]
  next => exact ⟨rfl, rfl⟩

theorem lowerPoint_letter : lowerPoint (CodePoint.ofChar 'a') = [CodePoint.ofChar 'a'] ∧
    CodePoint.ofChar 'a' ≠ capitalSigma ∧ CodePoint.ofChar 'a' ≠ smallSigma ∧
      CodePoint.ofChar 'a' ≠ finalSigma ∧ isDot (CodePoint.ofChar 'a') = false ∧
        isLetter (CodePoint.ofChar 'a') = true := by
  decide +kernel

/-- The tables for texts of these letters. -/
def table : CaseTable where
  lowerPoint := lowerPoint
  -- a small case system: letters with two cases, sigma with two small forms, and a dot
  ignorable := isDot
  cased := isLetter
  nonempty := lowerPoint_nonempty
  settled := settled_lowerPoint
  small := sigma_of_lowerPoint
  final := final_of_lowerPoint
  sigma := lowerPoint_capitalSigma
  finalStays := lowerPoint_finalSigma
  letters := isLetter_sigma
  kept := firstCase_lowerPoint
  letter := CodePoint.ofChar 'a'
  letterStays := lowerPoint_letter

/-- A word that a payload contains verbatim and a rule does not find. -/
theorem word_within_longer_missed :
    Points.ofString "ΟΔΟΣ" <:+: Points.ofString "ΟΔΟΣΑ" ∧
      ∃ t, ((termRule (Points.ofString "ΟΔΟΣ") (by decide)).matchesPayload :
        PolicyMatchState.Match (textsOf table fun _ => [])
          [(.str (Points.ofString "note"), .str (Points.ofString "ΟΔΟΣΑ"))] Bool) PolicyMatchState.initial =
            .ok (false, t) := by
  refine ⟨by decide +kernel, ?_⟩
  have flat := @boundedPayloadText_single (textsOf table fun _ => []) (.str (Points.ofString "note"))
    (Points.ofString "ΟΔΟΣΑ") (by decide +kernel) (by decide +kernel)
  exact termRule_misses _ flat (by decide +kernel) (by decide +kernel) (by decide +kernel)

end Greek

end Durable
end DefiantHarness
