import DefiantHarness.RulesetHash

/-! What the authorization hash of an action tells about its decisions. -/
namespace DefiantHarness

open Foundation

namespace Durable

/-! ### Matching looks at a payload only through its text -/

namespace PolicyMatchState

variable {texts : TextRules} {payload others : List Entry} {α β : Type}

/-- What a state says, whatever payload it is about. -/
def view (s : PolicyMatchState texts payload) : Nat × Nat × Option Points :=
  (s.payloadWorkUsed, s.globWorkUsed, s.payloadText)

/-- Two computations that go the same way from states that say the same. -/
def Agree (m : Match texts payload α) (m' : Match texts others α) : Prop :=
  ∀ s s', view s = view s' →
    (m s).map (fun r => (r.1, view r.2)) = (m' s').map fun r => (r.1, view r.2)

private theorem agree_pure (a : α) :
    Agree (pure a : Match texts payload α) (pure a : Match texts others α) := by
  intro s s' same
  exact congrArg (fun v => Except.ok (a, v)) same

private theorem agree_bind {m : Match texts payload α} {m' : Match texts others α}
    {f : α → Match texts payload β} {f' : α → Match texts others β} (first : Agree m m')
    (later : ∀ a, Agree (f a) (f' a)) : Agree (m >>= f) (m' >>= f') := by
  intro s s' same
  have head := first s s' same
  have unfolded : (m >>= f) s = m s >>= fun r => f r.1 r.2 := rfl
  have unfolded' : (m' >>= f') s' = m' s' >>= fun r => f' r.1 r.2 := rfl
  rw [unfolded, unfolded']
  -- both runs fail with one fault, or both go on from states that look alike
  cases run : m s with
  | error fault =>
    cases run' : m' s' with
    | error fault' =>
      rw [run, run'] at head
      obtain rfl := Except.error.inj head
      rfl
    | ok r' =>
      rw [run, run'] at head
      cases head
  | ok r =>
    cases run' : m' s' with
    | error fault' =>
      rw [run, run'] at head
      cases head
    | ok r' =>
      rw [run, run'] at head
      obtain ⟨result, views⟩ := Prod.mk.inj (Except.ok.inj head)
      have tail := later r.1 r.2 r'.2 views
      rw [ok_bind, ok_bind, tail, result]

private theorem agree_refuse {condition : Prop} [Decidable condition] {fault : PolicyFault} :
    Agree (liftM (refuseIf condition fault) : Match texts payload Unit)
      (liftM (refuseIf condition fault) : Match texts others Unit) := by
  intro s s' same
  have unfolded : (liftM (refuseIf condition fault) : Match texts payload Unit) s =
    refuseIf condition fault >>= fun a => pure (a, s) := rfl
  have unfolded' : (liftM (refuseIf condition fault) : Match texts others Unit) s' =
    refuseIf condition fault >>= fun a => pure (a, s') := rfl
  rw [unfolded, unfolded']
  cases refuseIf condition fault with
  | error fault => rfl
  | ok a => exact agree_pure a s s' same

private theorem agree_glob (units : Nat) :
    Agree (chargeGlobWork units : Match texts payload Unit) (chargeGlobWork units : Match texts others Unit) := by
  rintro ⟨payloadWork, globWork, text, cached⟩ ⟨payloadWork', globWork', text', cached'⟩ same
  obtain ⟨rfl, rfl, rfl⟩ := by simpa [view] using same
  simp only [chargeGlobWork]
  cases refuseIf (maxPolicyGlobMatchWorkUnits - globWork < units) _ with
  | error fault => rfl
  | ok passed => rfl

private theorem agree_payload (units : Nat) :
    Agree (chargePayloadWork units : Match texts payload Unit)
      (chargePayloadWork units : Match texts others Unit) := by
  rintro ⟨payloadWork, globWork, text, cached⟩ ⟨payloadWork', globWork', text', cached'⟩ same
  obtain ⟨rfl, rfl, rfl⟩ := by simpa [view] using same
  simp only [chargePayloadWork]
  cases refuseIf (maxPolicyPayloadMatchWorkUnits - payloadWork < units) _ with
  | error fault => rfl
  | ok passed => rfl

private theorem agree_patterns (subject : Points) (patterns : List Points) :
    Agree (matchPatterns subject patterns : Match texts payload Bool)
      (matchPatterns subject patterns : Match texts others Bool) := by
  induction patterns with
  | nil => exact agree_pure false
  | cons pattern patterns ih =>
    apply agree_bind (agree_glob _)
    intro _
    split
    · exact agree_pure true
    · exact ih

private theorem agree_anyGlob (subject : Points) (patterns : List Points) (label : String) (maximum : Nat) :
    Agree (matchesAnyGlob subject patterns label maximum : Match texts payload Bool)
      (matchesAnyGlob subject patterns label maximum : Match texts others Bool) := by
  apply agree_bind agree_refuse
  intro _
  apply agree_bind agree_refuse
  intro _
  exact agree_patterns _ _

private theorem agree_terms (text : Points) (terms : List Points) :
    Agree (containsTerm text terms : Match texts payload Bool)
      (containsTerm text terms : Match texts others Bool) := by
  induction terms with
  | nil => exact agree_pure false
  | cons term terms ih =>
    apply agree_bind (agree_payload _)
    intro _
    split
    · exact agree_pure true
    · exact ih

private theorem agree_payloadText
    (flat : boundedPayloadText texts (.dict payload) = boundedPayloadText texts (.dict others)) :
    Agree (payloadTextFor : Match texts payload Points) (payloadTextFor : Match texts others Points) := by
  rintro ⟨payloadWork, globWork, text, cached⟩ ⟨payloadWork', globWork', text', cached'⟩ same
  obtain ⟨rfl, rfl, rfl⟩ := by simpa [view] using same
  cases text with
  | some text => rfl
  | none =>
    unfold payloadTextFor
    dsimp only
    split
    next fault refused =>
      split
      next fault' refused' =>
        obtain rfl := Except.error.inj (refused.symm.trans (flat.trans refused'))
        rfl
      next text' kept' => cases refused.symm.trans (flat.trans kept')
    next text kept =>
      split
      next fault' refused' => cases kept.symm.trans (flat.trans refused')
      next text' kept' =>
        obtain rfl := Except.ok.inj (kept.symm.trans (flat.trans kept'))
        rfl

end PolicyMatchState

open PolicyMatchState

/-- Actions that a rule sees alike. -/
structure SeenAlike (texts : TextRules) (a b : ProposedAction) : Prop where
  toolName : a.toolName = b.toolName
  target : a.target = b.target
  level : a.sideEffectLevel = b.sideEffectLevel
  trust : worstTrust a.payloadSources = worstTrust b.payloadSources
  flat : boundedPayloadText texts (.dict a.payload) = boundedPayloadText texts (.dict b.payload)

variable {texts : TextRules} {a b : ProposedAction}

private theorem agree_matches (alike : SeenAlike texts a b) (rule : Rule) (context : PolicyContext) :
    Agree (rule.matchesAction a context : Match texts a.payload Bool)
      (rule.matchesAction b context : Match texts b.payload Bool) := by
  unfold Rule.matchesAction
  rw [alike.toolName, alike.target, alike.level, alike.trust]
  have tools : Agree (rule.matchesTools b.toolName : Match texts a.payload Bool)
      (rule.matchesTools b.toolName : Match texts b.payload Bool) := by
    unfold Rule.matchesTools
    split
    · exact agree_pure true
    · exact agree_anyGlob _ _ _ _
  have targets : Agree (rule.matchesTargets b.target : Match texts a.payload Bool)
      (rule.matchesTargets b.target : Match texts b.payload Bool) := by
    unfold Rule.matchesTargets
    split
    · exact agree_pure true
    · exact agree_anyGlob _ _ _ _
  have terms : Agree (rule.matchesPayload : Match texts a.payload Bool)
      (rule.matchesPayload : Match texts b.payload Bool) := by
    unfold Rule.matchesPayload
    split
    · exact agree_pure true
    · exact agree_bind (agree_payloadText alike.flat) fun text => agree_terms text _
  have guarded {hit : Bool} {m : Match texts a.payload Bool} {m' : Match texts b.payload Bool}
      (rest : Agree m m') :
      Agree (if (!hit) = true then pure false else m) (if (!hit) = true then pure false else m') := by
    split
    · exact agree_pure false
    · exact rest
  -- the conditions in the order of the source: a miss ends the matching
  apply agree_bind tools
  intro _
  apply guarded
  apply guarded
  apply agree_bind targets
  intro _
  apply guarded
  apply agree_bind terms
  intro _
  apply guarded
  apply guarded
  exact agree_pure _

namespace PolicyEngine

variable {sha : TextHash} (engine : PolicyEngine sha)

private theorem agree_matched (alike : SeenAlike texts a b) (context : PolicyContext) :
    Agree (engine.matchedRules a context : Match texts a.payload (Option (List Rule)))
      (engine.matchedRules b context : Match texts b.payload (Option (List Rule))) := by
  have rules (rules : List Rule) : Agree (matchRules a context rules : Match texts a.payload (List Rule))
      (matchRules b context rules : Match texts b.payload (List Rule)) := by
    induction rules with
    | nil => exact agree_pure []
    | cons rule rules ih =>
      apply agree_bind (agree_matches alike rule context)
      intro hit
      exact agree_bind ih fun rest => agree_pure _
  have known : Agree (engine.isKnownTool a.toolName : Match texts a.payload Bool)
      (engine.isKnownTool b.toolName : Match texts b.payload Bool) := by
    rw [alike.toolName]
    unfold isKnownTool
    split
    · exact agree_pure true
    · exact agree_anyGlob _ _ _ _
  apply agree_bind known
  intro hit
  split
  · exact agree_pure none
  · exact agree_bind (rules engine.rules) fun matched => agree_pure _

theorem tripped_congr (alike : SeenAlike texts a b) (context : PolicyContext) :
    engine.tripped texts a context = engine.tripped texts b context := by
  have runs := engine.agree_matched alike context PolicyMatchState.initial PolicyMatchState.initial rfl
  unfold tripped
  dsimp only
  cases run : (engine.matchedRules a context : Match texts a.payload _) PolicyMatchState.initial with
  | error fault =>
    cases run' : (engine.matchedRules b context : Match texts b.payload _) PolicyMatchState.initial with
    | error fault' =>
      rw [run, run'] at runs
      exact congrArg some (Except.error.inj runs)
    | ok r' =>
      rw [run, run'] at runs
      cases runs
  | ok r =>
    cases run' : (engine.matchedRules b context : Match texts b.payload _) PolicyMatchState.initial with
    | error fault' =>
      rw [run, run'] at runs
      cases runs
    | ok r' => rfl

/-- The decision about an action depends on what the rules see of it, and on its hashes. -/
theorem decisionFor_congr {p q : SealedAction} (alike : SeenAlike texts p.action q.action)
    (payload : p.payloadHash = q.payloadHash) (authorization : p.authorizationHash = q.authorizationHash)
    (context : Option Value) :
    engine.decisionFor texts p context = engine.decisionFor texts q context := by
  unfold decisionFor
  cases captured : policyContextSnapshot context with
  | error fault => simp only [contextErrorDecision, alike.toolName, alike.level]
  | ok snapshot =>
    -- both match the rules with the same result, or reach the same ceiling
    have runs := engine.agree_matched alike snapshot PolicyMatchState.initial PolicyMatchState.initial rfl
    dsimp only
    cases run : (engine.matchedRules p.action snapshot : Match texts p.action.payload _)
        PolicyMatchState.initial with
    | error fault =>
      cases run' : (engine.matchedRules q.action snapshot : Match texts q.action.payload _)
          PolicyMatchState.initial with
      | error fault' =>
        rw [run, run'] at runs
        obtain rfl := Except.error.inj runs
        simp only [matchLimitDecision, alike.toolName, alike.level]
      | ok r' =>
        rw [run, run'] at runs
        cases runs
    | ok r =>
      cases run' : (engine.matchedRules q.action snapshot : Match texts q.action.payload _)
          PolicyMatchState.initial with
      | error fault' =>
        rw [run, run'] at runs
        cases runs
      | ok r' =>
        rw [run, run'] at runs
        obtain ⟨matched, t⟩ := r
        obtain ⟨matched', t'⟩ := r'
        obtain ⟨result, -⟩ := Prod.mk.inj (Except.ok.inj runs)
        obtain rfl : matched = matched' := result
        cases matched with
        | none => simp only [unknownToolDecision, alike.toolName]
        | some matched =>
          have same : outcome p.action matched = outcome q.action matched := by
            rw [outcome, outcome, alike.toolName, alike.level]
          simp only [ruleDecision, same, scopeOf, ruleInputs, alike.toolName, alike.target, alike.level,
            alike.trust, payload, authorization]

end PolicyEngine

/-! ### What the authorization hash covers -/

/-- Digests tell canonical texts apart. -/
def DigestsApart (sha : TextHash) : Prop := ∀ v w : Value,
  digest sha v = digest sha w → (v.written canonicalText).text = (w.written canonicalText).text

private theorem sealed_action {sha : TextHash} {chunking : Chunking} {p : SealedAction}
    (sealed : a.sealFingerprints sha chunking = .ok p) : ∃ payload, p.action = { a with payload } := by
  simp only [ProposedAction.sealFingerprints, bind_ok_iff, pure_ok_iff] at sealed
  obtain ⟨_, -, _, -, payload, -, rfl⟩ := sealed
  exact ⟨payload, rfl⟩

theorem worstTrust_congr {refs others : List ContentRef}
    (same : refs.map (·.trust) = others.map (·.trust)) : worstTrust refs = worstTrust others := by
  have any (trust : Trust) (items : List ContentRef) :
      (items.any fun r => r.trust == trust) = (items.map (·.trust)).any (· == trust) := by
    rw [List.any_map]
    rfl
  have none : refs = [] ↔ others = [] := by
    rw [← List.map_eq_nil_iff (f := (·.trust)), same, List.map_eq_nil_iff]
  simp only [worstTrust, any, same, none]

private theorem trust_of_written {r s : ContentRef}
    (same : (r.asDict.written canonicalText).joined = (s.asDict.written canonicalText).joined) :
    r.trust = s.trust := by
  have fields := record_fields same (by rfl) (by
    change ["ref_id", "origin", "trust", "content_hash", "label"].Nodup
    decide)
  simp only [List.forall₂_cons] at fields
  have spelled := Data.str.inj fields.2.2.1
  rw [join_ofString, join_ofString] at spelled
  exact Trust.text_injective (ofString_injective spelled)

private theorem units_of_written {s t : Points}
    (same : ((Value.str s).written canonicalText).joined = ((Value.str t).written canonicalText).joined) :
    s.units = t.units := by
  have units := congrArg Points.units (Data.str.inj same)
  rwa [units_join, units_join] at units

/-- Neither the tool nor the target of two actions is one text that they spell in two ways. -/
structure ProposedAction.SpelledAlike (a b : ProposedAction) : Prop where
  toolName : a.toolName.units = b.toolName.units → a.toolName = b.toolName
  target : a.target.units = b.target.units → a.target = b.target

/-- Sealed actions with one authorization hash. -/
structure OneHash (sha : TextHash) (p q : SealedAction) : Prop where
  toolName : p.action.toolName = q.action.toolName
  target : p.action.target = q.action.target
  level : p.action.sideEffectLevel = q.action.sideEffectLevel
  trust : worstTrust p.action.payloadSources = worstTrust q.action.payloadSources
  payloadHash : p.payloadHash = q.payloadHash

theorem OneHash.symm {sha : TextHash} {p q : SealedAction} (one : OneHash sha p q) : OneHash sha q p :=
  ⟨one.toolName.symm, one.target.symm, one.level.symm, one.trust.symm, one.payloadHash.symm⟩

theorem oneHash_of_sealed {sha : TextHash} (apart : DigestsApart sha) {chunking : Chunking}
    {p q : SealedAction} (sealed : a.sealFingerprints sha chunking = .ok p)
    (sealed' : b.sealFingerprints sha chunking = .ok q) (spelled : a.SpelledAlike b)
    (same : p.authorizationHash = q.authorizationHash) : OneHash sha p q := by
  obtain ⟨bounded, payloadHash, authorizationHash⟩ := sealed_hashes sealed
  obtain ⟨bounded', payloadHash', authorizationHash'⟩ := sealed_hashes sealed'
  rw [authorizationHash, authorizationHash'] at same
  -- digests tell texts apart, so the surfaces agree field by field
  have fields := surface_fields ((Data.render_eq_iff Layout.compact).1 (apart _ _ same))
  simp only [surfaceFields, List.forall₂_cons] at fields
  obtain ⟨-, -, tool, target, payload, level, sources, -⟩ := fields
  rw [bounded.written_snapshot, bounded'.written_snapshot] at payload
  obtain ⟨kept, shape⟩ := sealed_action sealed
  obtain ⟨kept', shape'⟩ := sealed_action sealed'
  constructor
  · rw [shape, shape']
    exact spelled.toolName (units_of_written tool)
  · rw [shape, shape']
    exact spelled.target (units_of_written target)
  · rw [shape, shape']
    have spelled := Data.str.inj level
    rw [join_ofString, join_ofString] at spelled
    exact SideEffect.text_injective (ofString_injective spelled)
  · rw [shape, shape']
    have each := items_apart sources
    rw [List.map_map, List.map_map] at each
    exact worstTrust_congr (map_through (fun _ _ written => trust_of_written written) each)
  · rw [payloadHash, payloadHash', digest, digest]
    exact congrArg (fun text => "sha256:" ++ sha text) ((Data.render_eq_iff Layout.compact).2 payload)

/-! ### Payloads that are read alike -/

namespace Rule

variable (rule : Rule) (action : ProposedAction) (context : PolicyContext)

/-- All match conditions of a rule but the one on the payload. -/
def holdsBut : Prop :=
  rule.toolHolds action = true ∧ rule.matchesLevel action.sideEffectLevel = true ∧
    rule.targetHolds action = true ∧ rule.trustHolds action = true ∧ rule.matchesSensitivity context = true

theorem holds_iff : rule.holds texts action context = true ↔
    rule.holdsBut action context ∧ rule.payloadHolds texts action = true := by
  simp only [holds, holdsBut, Bool.and_eq_true]
  tauto

end Rule

namespace PolicyEngine

section Read

variable {rulesHash sha : TextHash} {engine : PolicyEngine rulesHash} {p q : SealedAction}
variable {context : Option Value} {snapshot : PolicyContext}

/-- A rule that decides about one of two actions where its terms are found: its other conditions hold,
and no rule that holds for either action is stricter. -/
structure Contends (engine : PolicyEngine rulesHash) (texts : TextRules) (a b : ProposedAction)
    (snapshot : PolicyContext) (rule : Rule) : Prop where
  loaded : rule ∈ engine.rules
  others : rule.holdsBut a snapshot
  strictest : ∀ other ∈ engine.rules,
    other.holds texts a snapshot = true ∨ other.holds texts b snapshot = true →
      other.effect.severity ≤ rule.effect.severity

theorem holdsBut_iff (one : OneHash sha p q) (rule : Rule) :
    rule.holdsBut p.action snapshot ↔ rule.holdsBut q.action snapshot := by
  simp only [Rule.holdsBut, Rule.toolHolds, Rule.targetHolds, Rule.trustHolds, one.toolName, one.target,
    one.level, one.trust]

theorem Contends.symm (one : OneHash sha p q) {rule : Rule}
    (contends : Contends engine texts p.action q.action snapshot rule) :
    Contends engine texts q.action p.action snapshot rule :=
  ⟨contends.loaded, (holdsBut_iff one rule).1 contends.others,
    fun other inside holds => contends.strictest other inside holds.symm⟩

/-- A rule that leads for one action leads for the other, where the terms of those that contend are
found alike. -/
private theorem leads_of_terms (one : OneHash sha p q)
    (terms : ∀ rule, Contends engine texts p.action q.action snapshot rule →
      rule.payloadHolds texts p.action = rule.payloadHolds texts q.action) {rule : Rule}
    (leads : Leads engine texts p.action snapshot rule) : Leads engine texts q.action snapshot rule := by
  have moved {other : Rule} (contends : Contends engine texts p.action q.action snapshot other) :
      other.holds texts p.action snapshot = true ↔ other.holds texts q.action snapshot = true := by
    rw [Rule.holds_iff, Rule.holds_iff, holdsBut_iff one, terms other contends]
  -- the strictest of all rules that hold for either action contends, so it holds for both
  have above : ∀ other ∈ engine.rules,
      other.holds texts p.action snapshot = true ∨ other.holds texts q.action snapshot = true →
        other.effect.severity ≤ rule.effect.severity := by
    intro other inside holds
    cases first : worst (engine.rules.filter fun rule =>
        rule.holds texts p.action snapshot || rule.holds texts q.action snapshot) with
    | none =>
      have matched : other ∈ engine.rules.filter fun rule =>
          rule.holds texts p.action snapshot || rule.holds texts q.action snapshot :=
        List.mem_filter.2 ⟨inside, Bool.or_eq_true_iff.2 holds⟩
      rw [worst_eq_none_iff.1 first] at matched
      cases matched
    | some top =>
      obtain ⟨member, below⟩ := worst_strictest first
      obtain ⟨loaded, either⟩ := List.mem_filter.1 member
      have strictest : ∀ other ∈ engine.rules,
          other.holds texts p.action snapshot = true ∨ other.holds texts q.action snapshot = true →
            other.effect.severity ≤ top.effect.severity :=
        fun other inside holds => below other (List.mem_filter.2 ⟨inside, Bool.or_eq_true_iff.2 holds⟩)
      have others : top.holdsBut p.action snapshot := by
        rcases Bool.or_eq_true_iff.1 either with holds | holds
        · exact (Rule.holds_iff _ _ _).1 holds |>.1
        · exact (holdsBut_iff one top).2 ((Rule.holds_iff _ _ _).1 holds).1
      have both := moved ⟨loaded, others, strictest⟩
      have holdsFirst : top.holds texts p.action snapshot = true :=
        (Bool.or_eq_true_iff.1 either).elim id both.2
      exact (strictest other inside holds).trans (leads.strictest top loaded holdsFirst)
  have contends : Contends engine texts p.action q.action snapshot rule :=
    ⟨leads.loaded, ((Rule.holds_iff _ _ _).1 leads.holds).1, above⟩
  exact ⟨leads.loaded, (moved contends).1 leads.holds, fun other inside holds => above other inside (.inr holds)⟩

/-- The same rules are the strictest exactly where those that contend find their terms alike. -/
theorem winning_eq_iff_terms (one : OneHash sha p q) :
    engine.winning texts p.action snapshot = engine.winning texts q.action snapshot ↔
      ∀ rule, Contends engine texts p.action q.action snapshot rule →
        rule.payloadHolds texts p.action = rule.payloadHolds texts q.action := by
  constructor
  · intro same rule contends
    -- a rule leads on one side exactly when it does on the other
    have leading : Leads engine texts p.action snapshot rule ↔ Leads engine texts q.action snapshot rule := by
      rw [← mem_winning_iff, ← mem_winning_iff, same]
    rw [Bool.eq_iff_iff]
    constructor
    · intro found
      have holds := (Rule.holds_iff rule p.action snapshot).2 ⟨contends.others, found⟩
      have leads := leading.1 ⟨contends.loaded, holds,
        fun other inside holds => contends.strictest other inside (.inl holds)⟩
      exact ((Rule.holds_iff _ _ _).1 leads.holds).2
    · intro found
      have others := (holdsBut_iff one rule).1 contends.others
      have holds := (Rule.holds_iff rule q.action snapshot).2 ⟨others, found⟩
      have leads := leading.2 ⟨contends.loaded, holds,
        fun other inside holds => contends.strictest other inside (.inr holds)⟩
      exact ((Rule.holds_iff _ _ _).1 leads.holds).2
  · intro terms
    -- contending does not depend on which action comes first
    have back : ∀ rule, Contends engine texts q.action p.action snapshot rule →
        rule.payloadHolds texts q.action = rule.payloadHolds texts p.action :=
      fun rule contends => (terms rule (contends.symm one.symm)).symm
    exact (winning_eq_iff (List.Perm.refl _) fun rule =>
      ⟨leads_of_terms one terms, leads_of_terms one.symm back⟩).2 fun _ _ _ _ => Iff.rfl

/-- Two actions that stay within the ceilings of matching alike. Within them the rules that contend
find their terms in both payloads or in neither; beyond them the payloads flatten alike, or only one
ceiling is exceeded. -/
structure ReadAlike (engine : PolicyEngine rulesHash) (texts : TextRules) (a b : ProposedAction)
    (snapshot : PolicyContext) : Prop where
  ceilings : engine.Within texts a ↔ engine.Within texts b
  terms : engine.Within texts a → engine.knows a.toolName = true →
    ∀ rule, Contends engine texts a b snapshot rule → rule.payloadHolds texts a = rule.payloadHolds texts b
  beyond : ¬ engine.Within texts a →
    boundedPayloadText texts (.dict a.payload) = boundedPayloadText texts (.dict b.payload) ∨
      OneCeiling engine engine texts a b

theorem OneHash.seen (one : OneHash sha p q)
    (flat : boundedPayloadText texts (.dict p.action.payload) =
      boundedPayloadText texts (.dict q.action.payload)) :
    SeenAlike texts p.action q.action :=
  ⟨one.toolName, one.target, one.level, one.trust, flat⟩

theorem ReadAlike.course (one : OneHash sha p q) (alike : ReadAlike engine texts p.action q.action snapshot) :
    OneCourse engine engine texts p.action q.action snapshot where
  ceilings := alike.ceilings
  winning within knows := (winning_eq_iff_terms one).2 (alike.terms within knows)
  tripped beyond := by
    rcases alike.beyond beyond with flat | one'
    · exact .inl (engine.tripped_congr (OneHash.seen one flat) snapshot)
    · exact .inr one'

theorem readAlike_of_said (one : OneHash sha p q) (unreserved : engine.Unreserved)
    (captured : policyContextSnapshot context = .ok snapshot)
    (some : engine.Within texts p.action ∨ engine.Within texts q.action)
    (same : said (judged (engine.decisionFor texts q context)) =
      said (judged (engine.decisionFor texts p context))) :
    ReadAlike engine texts p.action q.action snapshot := by
  have comparable : Comparable engine engine p.action q.action :=
    ⟨one.toolName.symm, one.target.symm, one.level.symm, rfl⟩
  obtain ⟨within, within'⟩ := within_of_said (List.Perm.refl _) unreserved captured some same
  constructor
  · exact iff_of_true within within'
  · intro _ knows
    exact (winning_eq_iff_terms one).1
      (winning_of_said comparable (List.Perm.refl _) unreserved captured within within' knows same)
  · exact fun beyond => absurd within beyond

end Read

namespace Demo

/-- A rule that looks for a text in the payload. -/
def leak : Rule := { rule "leak" "names a customer" "" (by decide) with
  payloadContains := [Points.ofString "x y"]
  spelled := by decide }

def watching : PolicyEngine markedHash := load markedHash [leak] (textOf [leak]) (by decide) (by decide +kernel)

/-- A request with two texts, under names in this order. -/
def proposal (first second : String × String) : ProposedAction := { action.action with
  payload := [(.str (Points.ofString first.1), .str (Points.ofString first.2)),
    (.str (Points.ofString second.1), .str (Points.ofString second.2))] }

/-- As it is proposed, and as it is rebuilt from a record with sorted names. -/
def proposed : ProposedAction := proposal ("b", "x") ("a", "y")

def rebuilt : ProposedAction := proposal ("a", "y") ("b", "x")

/-- The same proposal, for another reason. -/
def retold : ProposedAction := { proposed with agentReason := .str (Points.ofString "again") }

theorem markedHash_digests : DigestsApart markedHash := by
  intro v w same
  have chars := congrArg String.toList same
  rw [digest, digest, String.toList_append, String.toList_append, List.append_cancel_left_eq, markedHash,
    markedHash, String.toList_ofList, String.toList_ofList] at chars
  exact (List.cons.inj chars).2

/-- The effect of the strictest rule about a proposal, once it is sealed. -/
def effectOn (a : ProposedAction) : Option Decision :=
  (a.sealFingerprints markedHash Chunking.single).toOption.bind fun p =>
    (watching.judgement Demo.texts p none).map (·.1)

private theorem effectOn_eq_some {a : ProposedAction} {effect : Decision} (found : effectOn a = some effect) :
    ∃ p, a.sealFingerprints markedHash Chunking.single = .ok p ∧
      (watching.judgement Demo.texts p none).map (·.1) = some effect := by
  unfold effectOn at found
  cases sealed : a.sealFingerprints markedHash Chunking.single with
  | error fault =>
    rw [sealed] at found
    cases found
  | ok p =>
    rw [sealed] at found
    exact ⟨p, rfl, found⟩

private theorem authorizationHash_eq {a b : ProposedAction} {p q : SealedAction}
    (sealed : a.sealFingerprints markedHash Chunking.single = .ok p)
    (sealed' : b.sealFingerprints markedHash Chunking.single = .ok q)
    (text : ((a.authorizationSurface (Value.dict a.payload).snapshot).written canonicalText).text =
      ((b.authorizationSurface (Value.dict b.payload).snapshot).written canonicalText).text) :
    p.authorizationHash = q.authorizationHash := by
  rw [(sealed_hashes sealed).2.2, (sealed_hashes sealed').2.2, digest, digest, text]

/-- As it is proposed, an approval is asked for. -/
private theorem proposed_effect : effectOn proposed = some .approvalRequired := by decide +kernel

end Demo

end PolicyEngine
end Durable
end DefiantHarness
