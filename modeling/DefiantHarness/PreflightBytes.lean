import DefiantHarness.ActionHash

/-! The structural preflight counts exactly the bytes of the text that is hashed. -/
namespace DefiantHarness

open Foundation

/-! ### Widths of tokens -/

private theorem characterWidth_eq (c : CodePoint) :
    characterWidth c = (c.units.flatMap CodeUnit.escape).length := by
  have bound := c.isLt
  by_cases small : c.val < 0x10000
  · rw [CodePoint.units, dif_pos small, List.flatMap_singleton, CodeUnit.escape_length,
      characterWidth]
    simp only [show c.val ≤ 0xFFFF by omega, if_true]
  · have plain (u : CodeUnit) (surrogate : 0xD800 ≤ u.val) : u.escape.length = 6 := by
      rw [CodeUnit.escape_length, if_neg, if_neg (by omega)]
      intro member
      simp only [List.mem_cons, List.not_mem_nil, or_false] at member
      omega
    have ordinary : c.val ∉ [0x22, 0x5C, 0x08, 0x0C, 0x0A, 0x0D, 0x09] := by
      intro member
      simp only [List.mem_cons, List.not_mem_nil, or_false] at member
      omega
    rw [characterWidth, if_neg ordinary, if_neg (by omega), if_neg (by omega), CodePoint.units,
      dif_neg small]
    simp only [List.flatMap_cons, List.flatMap_nil, List.append_nil, List.length_append]
    rw [plain _ (Nat.le_add_right _ _), plain _ (by simp only; omega)]

private theorem tokenLoop_eq (maximum : Ceiling) (used : Nat) (s : Points)
    (admitted : maximum.admits used = true) :
    tokenLoop maximum used s =
      if maximum.admits (used + (escaped s).length) = true then .ok (used + (escaped s).length)
      else .error (stringTokenFault maximum) := by
  induction s generalizing used with
  | nil => simp [tokenLoop, escaped, admitted]
  | cons c cs ih =>
    have total : used + (escaped (c :: cs)).length =
        used + characterWidth c + (escaped cs).length := by
      rw [escaped_cons, List.length_append, ← characterWidth_eq]
      omega
    rw [tokenLoop, total]
    by_cases fits : maximum.admits (used + characterWidth c) = true
    · rw [refuseIf_of_not (by simp [fits]), ok_bind, ih _ fits]
    · have above : maximum.admits (used + characterWidth c + (escaped cs).length) ≠ true :=
        fun later => fits (Ceiling.admits_mono (Nat.le_add_right _ _) later)
      rw [if_neg above, refuseIf, if_pos (by simpa using fits), error_bind]

private theorem verbatim_length {s : Points} (plain : verbatim s = true) :
    (escaped s).length = s.length := by
  induction s with
  | nil => rfl
  | cons c cs ih =>
    simp only [verbatim, List.all_cons, Bool.and_eq_true, decide_eq_true_eq, bne_iff_ne] at plain
    obtain ⟨⟨⟨⟨low, high⟩, quote⟩, backslash⟩, rest⟩ := plain
    have one : characterWidth c = 1 := by
      rw [characterWidth, if_neg, if_pos ⟨low, high⟩]
      intro member
      simp only [List.mem_cons, List.not_mem_nil, or_false] at member
      omega
    rw [escaped_cons, List.length_append, ← characterWidth_eq, one, ih rest, List.length_cons,
      Nat.add_comm]

/-- The width of a string token is the length of the token. -/
theorem validateActionHashStringToken_eq (s : Points) (maximum : Ceiling) :
    validateActionHashStringToken s maximum =
      if maximum.admits (quoted s).length = true then .ok (quoted s).length
      else .error (stringTokenFault maximum) := by
  unfold validateActionHashStringToken
  by_cases opened : maximum.admits 2 = true
  · rw [refuseIf_of_not (by simp [opened]), ok_bind, quoted_length]
    by_cases plain : verbatim s = true
    · rw [if_pos plain, verbatim_length plain]
      by_cases fits : maximum.admits (2 + s.length) = true
      · rw [refuseIf_of_not (by simp [fits]), if_pos fits]
        rfl
      · rw [refuseIf, if_pos (by simpa using fits), if_neg fits]
        rfl
    · rw [if_neg plain, tokenLoop_eq maximum 2 s opened]
  · have above : maximum.admits (quoted s).length ≠ true := by
      intro later
      refine opened (Ceiling.admits_mono ?_ later)
      rw [quoted_length]
      exact Nat.le_add_right _ _
    rw [if_neg above, refuseIf, if_pos (by simpa using opened), error_bind]

/-! ### Lowering the byte ceilings -/

/-- The bytes that a traversal has counted. -/
def Usage.bytes (s : Usage) : Nat := s.canonicalBytes

theorem checked_ok_iff {result : Except HashFault α} {s t : Usage} {a : α} :
    checked result s = .ok (a, t) ↔ result = .ok a ∧ t = s := by
  cases result with
  | error e => simp [checked, Except.map]
  | ok b =>
    simp only [checked, Except.map, Except.ok.injEq, Prod.mk.injEq]
    tauto

theorem pure_traversal_ok_iff {s t : Usage} {a b : α} :
    (pure a : Traversal α) s = .ok (b, t) ↔ b = a ∧ t = s := by
  have unfolded : (pure a : Traversal α) s = .ok (a, s) := rfl
  rw [unfolded, Except.ok.injEq, Prod.mk.injEq]
  tauto

theorem claimNode_ok_iff {limits : CanonicalSnapshotLimits} {depth : Nat} {s t : Usage} {u : Unit} :
    claimNode limits depth s = .ok (u, t) ↔ depth ≤ limits.nestingDepth ∧
      s.nodes + 1 ≤ limits.nodes ∧ t = { s with nodes := s.nodes + 1 } := by
  unfold claimNode
  rw [refuseIf_bind_ok_iff, refuseIf_bind_ok_iff, pure_ok_iff, not_lt, not_lt, Prod.mk.injEq]
  simp only [true_and]

theorem consume_ok_iff {limits : CanonicalSnapshotLimits} {width : Nat} {s t : Usage} {u : Unit} :
    consume limits width s = .ok (u, t) ↔
      limits.canonicalBytes.admits (s.canonicalBytes + width) = true ∧
        t = { s with canonicalBytes := s.canonicalBytes + width } := by
  unfold consume
  rw [refuseIf_bind_ok_iff, pure_ok_iff, Bool.not_eq_false, Prod.mk.injEq]
  simp only [true_and]

private theorem metered_checked (result : Except HashFault α) :
    Metered Usage.bytes fun _ => checked result := by
  refine Metered.steady fun run => ?_
  rw [(checked_ok_iff.1 run).2]

private theorem metered_pure (a : α) : Metered Usage.bytes fun _ => (pure a : Traversal α) := by
  refine Metered.steady fun run => ?_
  rw [(pure_traversal_ok_iff.1 run).2]

private theorem metered_claimNode (depth : Nat) :
    Metered Usage.bytes fun c => claimNode (snapshotLimits c) depth := by
  have same (c : Ceiling) : claimNode (snapshotLimits c) depth = claimNode (snapshotLimits none) depth :=
    rfl
  simp only [same]
  refine Metered.steady fun run => ?_
  rw [(claimNode_ok_iff.1 run).2.2]
  rfl

private theorem metered_consume (width : Nat) :
    Metered Usage.bytes fun c => consume (snapshotLimits c) width := by
  constructor
  · intro s t a run
    rw [(consume_ok_iff.1 run).2]
    exact Nat.le_add_right _ _
  · intro c s t a admitted
    rw [consume_ok_iff, consume_ok_iff]
    constructor
    · rintro ⟨fits, rfl⟩
      exact ⟨⟨rfl, rfl⟩, fits⟩
    · rintro ⟨⟨_, rfl⟩, fits⟩
      exact ⟨fits, rfl⟩

private theorem metered_sortWork (width rounds : Nat) :
    Metered Usage.bytes fun c => consumeMappingSortWork (snapshotLimits c) width rounds := by
  have same (c : Ceiling) : consumeMappingSortWork (snapshotLimits c) width rounds =
      consumeMappingSortWork (snapshotLimits none) width rounds := rfl
  simp only [same]
  refine Metered.steady fun {s t a} run => ?_
  unfold consumeMappingSortWork at run
  split at run
  · cases run
    rfl
  · simp only [refuseIf_bind_ok_iff, pure_ok_iff, Prod.mk.injEq] at run
    rw [run.2.2]
    rfl

/-- A string token is refused only when its own bytes pass the ceiling. -/
private theorem metered_token {s : Points} {f : Nat → Traversal α}
    (rest : ∀ w, Metered Usage.bytes fun _ => f w) :
    Metered Usage.bytes fun c => checked (validateActionHashStringToken s c) >>= fun width =>
      consume (snapshotLimits c) width >>= fun _ => f width := by
  have charged : Metered Usage.bytes fun c =>
      consume (snapshotLimits c) (quoted s).length >>= fun _ => f (quoted s).length :=
    (metered_consume _).bind fun _ => rest _
  -- without a ceiling the token's width is never compared
  have unlimited (t : Usage) : (checked (validateActionHashStringToken s none) >>= fun width =>
      consume (snapshotLimits none) width >>= fun _ => f width) t =
      (consume (snapshotLimits none) (quoted s).length >>= fun _ => f (quoted s).length) t := by
    rw [validateActionHashStringToken_eq]
    rfl
  constructor
  · intro s t a run
    rw [unlimited] at run
    exact charged.grows run
  · intro c start t a admitted
    rw [unlimited, ← charged.ceiling admitted]
    simp only [state_bind_ok_iff, checked_ok_iff, consume_ok_iff, validateActionHashStringToken_eq]
    constructor
    · rintro ⟨width, u, ⟨read, rfl⟩, v, w, ⟨fits, rfl⟩, tail⟩
      split at read
      next => cases read; exact ⟨v, _, ⟨fits, rfl⟩, tail⟩
      next => cases read
    · rintro ⟨v, w, ⟨fits, rfl⟩, tail⟩
      have token : c.admits (quoted s).length = true :=
        Ceiling.admits_mono (Nat.le_add_left _ _) fits
      exact ⟨_, _, ⟨if_pos token, rfl⟩, v, _, ⟨fits, rfl⟩, tail⟩

theorem checked_bind (result : Except HashFault α) (f : α → Except HashFault β) :
    checked (result >>= f) = checked result >>= fun a => checked (f a) := by
  funext s
  cases result <;> rfl

private theorem metered_scalar {s : Points} {f : Nat → Traversal α}
    (rest : ∀ w, Metered Usage.bytes fun _ => f w) :
    Metered Usage.bytes fun c => checked (validateActionHashScalar (snapshotLimits c) s) >>=
      fun width => consume (snapshotLimits c) width >>= fun _ => f width := by
  have split (c : Ceiling) : checked (validateActionHashScalar (snapshotLimits c) s) =
      checked (refuseIf (maxActionHashScalarCharacters < s.length)
        (limitFault "action_hash_scalar_characters" "action hash scalar exceeds maximum of "
          maxActionHashScalarCharacters " characters")) >>=
        fun _ => checked (validateActionHashStringToken s c) := checked_bind ..
  simp only [split, bind_assoc]
  exact (metered_checked _).bind fun _ => metered_token rest

private theorem metered_visitKey (depth : Nat) (v : Value) :
    Metered Usage.bytes fun c => visitKey (snapshotLimits c) depth v := by
  induction v using Value.induction_on with
  | member mixed v ih => exact (metered_claimNode depth).bind fun _ => ih
  | decimal d =>
    simp only [visitKey, snapshotLimits_numberCharacters]
    exact (metered_claimNode depth).bind fun _ => (metered_checked _).bind fun _ =>
      metered_token fun _ => metered_pure _
  | str s => exact (metered_claimNode depth).bind fun _ => metered_scalar fun _ => metered_pure _
  | bool b => exact (metered_claimNode depth).bind fun _ => (metered_consume _).bind fun _ => metered_pure _
  | null => exact (metered_claimNode depth).bind fun _ => (metered_consume _).bind fun _ => metered_pure _
  | int i =>
    simp only [visitKey, snapshotLimits_numberCharacters]
    exact (metered_claimNode depth).bind fun _ => (metered_checked _).bind fun _ =>
      (metered_consume _).bind fun _ => metered_pure _
  | float x =>
    simp only [visitKey, snapshotLimits_numberCharacters]
    exact (metered_claimNode depth).bind fun _ => (metered_checked _).bind fun _ =>
      (metered_consume _).bind fun _ => metered_pure _
  | nonFinite => exact (metered_claimNode depth).bind fun _ => metered_checked _
  | foreign => exact (metered_claimNode depth).bind fun _ => metered_checked _
  | list items ih => exact (metered_claimNode depth).bind fun _ => metered_checked _
  | tuple items ih => exact (metered_claimNode depth).bind fun _ => metered_checked _
  | dict entries ih => exact (metered_claimNode depth).bind fun _ => metered_checked _

private theorem metered_visitKeys (depth rounds : Nat) (seen : List Key) (ks : List Value) :
    Metered Usage.bytes fun c => visitKeys (snapshotLimits c) depth rounds seen ks := by
  induction ks generalizing seen with
  | nil => exact metered_pure _
  | cons k ks ih =>
    exact (metered_visitKey depth k).bind fun _ => (metered_sortWork _ _).bind fun _ =>
      (metered_checked _).bind fun _ => (ih _).bind fun _ => metered_pure _

private theorem metered_visitItems {items : List Value}
    (visits : ∀ v ∈ items, ∀ depth, Metered Usage.bytes fun c => visit (snapshotLimits c) depth v)
    (depth index : Nat) :
    Metered Usage.bytes fun c => visitItems (snapshotLimits c) depth index items := by
  induction items generalizing index with
  | nil => exact metered_pure _
  | cons v vs ih =>
    exact (metered_consume _).bind fun _ => (visits v (by simp) depth).bind fun _ =>
      (ih (fun w member => visits w (by simp [member])) _).bind fun _ => metered_pure _

private theorem metered_visitValues {entries : List Entry}
    (visits : ∀ e ∈ entries, ∀ depth,
      Metered Usage.bytes fun c => visit (snapshotLimits c) depth e.2)
    (depth index : Nat) :
    Metered Usage.bytes fun c => visitValues (snapshotLimits c) depth index entries := by
  induction entries generalizing index with
  | nil => exact metered_pure _
  | cons e es ih =>
    exact (metered_consume _).bind fun _ => (metered_consume _).bind fun _ =>
      (visits e (by simp) depth).bind fun _ =>
        (ih (fun w member => visits w (by simp [member])) _).bind fun _ => metered_pure _

/-- A lower byte ceiling refuses exactly the traversals that count more bytes. -/
theorem metered_visit (depth : Nat) (v : Value) :
    Metered Usage.bytes fun c => visit (snapshotLimits c) depth v := by
  induction v using Value.induction_on generalizing depth with
  -- a member is a node of its own; its content is charged as a node again
  | member mixed v ih => exact (metered_claimNode depth).bind fun _ => ih depth
  | decimal d =>
    simp only [visit, snapshotLimits_numberCharacters]
    exact (metered_claimNode depth).bind fun _ => (metered_checked _).bind fun _ =>
      metered_token fun _ => metered_pure _
  | str s => exact (metered_claimNode depth).bind fun _ => metered_scalar fun _ => metered_pure _
  | bool b => exact (metered_claimNode depth).bind fun _ => (metered_consume _).bind fun _ => metered_pure _
  | null => exact (metered_claimNode depth).bind fun _ => (metered_consume _).bind fun _ => metered_pure _
  | int i =>
    simp only [visit, snapshotLimits_numberCharacters]
    exact (metered_claimNode depth).bind fun _ => (metered_checked _).bind fun _ =>
      (metered_consume _).bind fun _ => metered_pure _
  | float x =>
    simp only [visit, snapshotLimits_numberCharacters]
    exact (metered_claimNode depth).bind fun _ => (metered_checked _).bind fun _ =>
      (metered_consume _).bind fun _ => metered_pure _
  | nonFinite => exact (metered_claimNode depth).bind fun _ => metered_checked _
  | foreign => exact (metered_claimNode depth).bind fun _ => metered_checked _
  | list items ih =>
    exact (metered_claimNode depth).bind fun _ => (metered_consume _).bind fun _ =>
      (metered_visitItems (fun v member d => ih v member d) _ _).bind fun _ => metered_pure _
  | tuple items ih =>
    exact (metered_claimNode depth).bind fun _ => (metered_consume _).bind fun _ =>
      (metered_visitItems (fun v member d => ih v member d) _ _).bind fun _ => metered_pure _
  | dict entries ih =>
    refine (metered_claimNode depth).bind fun _ => ?_
    refine (metered_checked (validateEntryCount (snapshotLimits none) entries.length)).bind fun _ => ?_
    refine (metered_checked _).bind fun _ => (metered_consume _).bind fun _ => ?_
    refine (metered_visitKeys _ _ _ _).bind fun keys => ?_
    refine (metered_visitValues (fun e member d => (ih e member).2 d) _ _).bind fun values => ?_
    exact metered_pure _

/-! ### What an unlimited traversal counts and returns -/

theorem validateMappingKeyFamilies_ok {ks : List Value}
    (valid : validateMappingKeyFamilies ks = .ok ()) :
    ∀ k ∈ ks, k.family? ≠ none ∧ ∀ k' ∈ ks, k'.family? = k.family? := by
  simp only [validateMappingKeyFamilies, unit_bind_ok_iff, checkAll_ok_iff, refuseIf_ok_iff] at valid
  obtain ⟨known, one⟩ := valid
  cases ks with
  | nil => simp
  | cons first rest =>
    simp only [refuseIf_ok_iff, List.any_eq_true, bne_iff_ne, not_exists, not_and, not_not] at one
    have each : ∀ k ∈ first :: rest, k.family? = first.family? := by
      intro k member
      rcases List.mem_cons.1 member with rfl | later
      · rfl
      · exact one k later
    intro k member
    exact ⟨known k member, fun k' other => (each k' other).trans (each k member).symm⟩

theorem quoted_plain {cs : List Char} (plain : Plain cs) :
    (quoted (ofChars cs)).length = cs.length + 2 := by
  have all : verbatim (ofChars cs) = true := by
    simp only [verbatim, ofChars, List.all_eq_true, List.mem_map]
    rintro _ ⟨c, member, rfl⟩
    have code := plain c member
    simp only [Bool.and_eq_true, decide_eq_true_eq, bne_iff_ne]
    exact ⟨⟨⟨code.1, code.2.1⟩, code.2.2.1⟩, code.2.2.2⟩
  rw [quoted_length, verbatim_length all, ofChars, List.length_map, Nat.add_comm]

private theorem validateActionHashInteger_ok {i : Int} {n w : Nat}
    (valid : validateActionHashInteger i n = .ok w) :
    w = (Numeral.ofInt i).chars.length ∧ (Nat.toDigits 10 i.natAbs).length ≤ n := by
  simp only [validateActionHashInteger, refuseIf_bind_ok_iff, pure_ok_iff, not_le] at valid
  obtain ⟨room, below, rfl⟩ := valid
  refine ⟨rfl, ?_⟩
  exact ((Nat.length_toDigits_le_iff (by norm_num) (Nat.pos_of_ne_zero room)).2 below).trans
    (Nat.sub_le _ _)

theorem short_integer {i : Int}
    (short : (Nat.toDigits 10 i.natAbs).length ≤ maxActionHashNumberCharacters) :
    ¬ maxStrDigits < (Nat.toDigits 10 i.natAbs).length := by
  have : maxActionHashNumberCharacters ≤ maxStrDigits := by decide
  omega

private theorem scalar_width {s : Points} {w : Nat}
    (valid : validateActionHashScalar (snapshotLimits none) s = .ok w) : w = (quoted s).length := by
  simp only [validateActionHashScalar, refuseIf_bind_ok_iff, validateActionHashStringToken_eq] at valid
  exact (Except.ok.inj valid.2).symm

private theorem money_width {d : Decimal} {cs : List Char} {w : Nat}
    (text : boundedMoneyText maxActionHashNumberCharacters d = .ok cs)
    (valid : validateActionHashStringToken (ofChars cs) none = .ok w) :
    cs = (canonicalText d).chars ∧ w = (quoted (ofChars cs)).length := by
  rw [validateActionHashStringToken_eq] at valid
  exact ⟨(boundedMoneyText_ok_iff.1 text).2.1, (Except.ok.inj valid).symm⟩

/-- A visited key is the key that the encoder writes, at the width of its name. -/
private theorem visitKey_ok {v : Value} {depth w : Nat} {s t : Usage} {key : Key}
    (run : visitKey (snapshotLimits none) depth v s = .ok ((key, w), t))
    (known : v.family? ≠ none) :
    v.key? = some key ∧ v.family? = some key.family ∧ w = (quoted key.name).length ∧
      t.canonicalBytes = s.canonicalBytes + w := by
  induction v using Value.induction_on generalizing s with
  | member mixed v ih =>
    cases mixed with
    | false => exact absurd rfl known
    | true =>
      simp only [visitKey, state_bind_ok_iff, claimNode_ok_iff] at run
      obtain ⟨_, u, ⟨_, _, rfl⟩, inner⟩ := run
      have content := ih inner known
      exact content
  | str text =>
    simp only [visitKey, state_bind_ok_iff, claimNode_ok_iff, checked_ok_iff, consume_ok_iff,
      pure_traversal_ok_iff, Prod.mk.injEq] at run
    obtain ⟨_, _, ⟨_, _, rfl⟩, width, _, ⟨valid, rfl⟩, _, _, ⟨_, rfl⟩, ⟨rfl, rfl⟩, rfl⟩ := run
    exact ⟨rfl, rfl, scalar_width valid, rfl⟩
  | bool b =>
    simp only [visitKey, state_bind_ok_iff, claimNode_ok_iff, consume_ok_iff,
      pure_traversal_ok_iff, Prod.mk.injEq] at run
    obtain ⟨_, _, ⟨_, _, rfl⟩, _, _, ⟨_, rfl⟩, ⟨rfl, rfl⟩, rfl⟩ := run
    refine ⟨rfl, rfl, ?_, rfl⟩
    cases b <;> decide
  | null =>
    simp only [visitKey, state_bind_ok_iff, claimNode_ok_iff, consume_ok_iff,
      pure_traversal_ok_iff, Prod.mk.injEq] at run
    obtain ⟨_, _, ⟨_, _, rfl⟩, _, _, ⟨_, rfl⟩, ⟨rfl, rfl⟩, rfl⟩ := run
    exact ⟨rfl, rfl, by decide, rfl⟩
  | int i =>
    simp only [visitKey, state_bind_ok_iff, claimNode_ok_iff, checked_ok_iff, consume_ok_iff,
      pure_traversal_ok_iff, Prod.mk.injEq] at run
    obtain ⟨_, _, ⟨_, _, rfl⟩, digits, _, ⟨valid, rfl⟩, _, _, ⟨_, rfl⟩, ⟨rfl, rfl⟩, rfl⟩ := run
    obtain ⟨rfl, short⟩ := validateActionHashInteger_ok valid
    refine ⟨if_neg (short_integer short), rfl, ?_, rfl⟩
    exact (quoted_plain (plain_chars (Numeral.ofInt_wellFormed i))).symm
  | float x =>
    simp only [visitKey, state_bind_ok_iff, claimNode_ok_iff, checked_ok_iff, consume_ok_iff,
      pure_traversal_ok_iff, Prod.mk.injEq] at run
    obtain ⟨_, _, ⟨_, _, rfl⟩, _, _, ⟨_, rfl⟩, _, _, ⟨_, rfl⟩, ⟨rfl, rfl⟩, rfl⟩ := run
    refine ⟨rfl, rfl, ?_, rfl⟩
    exact (quoted_plain (plain_chars x.numeral_wellFormed)).symm
  -- only the kinds `_key_family` knows can be keys, and of them the non-finite is refused
  | nonFinite =>
    simp only [visitKey, state_bind_ok_iff, checked_ok_iff] at run
    obtain ⟨_, _, _, refused, _⟩ := run
    cases refused
  | decimal d => exact absurd rfl known
  | list items ih => exact absurd rfl known
  | tuple items ih => exact absurd rfl known
  | dict entries ih => exact absurd rfl known
  | foreign => exact absurd rfl known

private theorem visitKeys_ok {ks : List Value} {depth rounds : Nat} {seen keys : List Key}
    {s t : Usage} (run : visitKeys (snapshotLimits none) depth rounds seen ks s = .ok (keys, t))
    (known : ∀ k ∈ ks, k.family? ≠ none) :
    ks.map Value.key? = keys.map some ∧ ks.map Value.family? = keys.map (some ∘ Key.family) ∧
      t.canonicalBytes =
        s.canonicalBytes + (keys.map fun k => (quoted k.name).length).sum := by
  induction ks generalizing seen keys s with
  | nil =>
    obtain ⟨rfl, rfl⟩ := pure_traversal_ok_iff.1 run
    simp
  | cons k ks ih =>
    simp only [visitKeys, state_bind_ok_iff, checked_ok_iff, pure_traversal_ok_iff] at run
    obtain ⟨⟨key, w⟩, u, head, _, _, sort, _, v, ⟨_, same⟩, rest, x, tail, rfl, rfl⟩ := run
    subst same
    -- sorting the keys is charged to another meter
    have bytes : v.canonicalBytes = u.canonicalBytes := by
      unfold consumeMappingSortWork at sort
      split at sort
      · cases sort
        rfl
      · simp only [refuseIf_bind_ok_iff, pure_ok_iff, Prod.mk.injEq] at sort
        rw [sort.2.2]
    obtain ⟨key_eq, family, width, used⟩ := visitKey_ok head (known k (by simp))
    obtain ⟨keys_eq, families, total⟩ := ih tail fun k' member => known k' (by simp [member])
    refine ⟨by simp [key_eq, keys_eq], by simp [family, families], ?_⟩
    subst width
    rw [total, bytes, used, List.map_cons, List.sum_cons]
    exact Nat.add_assoc ..

/-- A visited value and its snapshot have one document, and its text has the bytes counted. -/
private def Counted (v : Value) : Prop :=
  ∀ depth s t snapshot, visit (snapshotLimits none) depth v s = .ok (snapshot, t) →
    v.dumps .actionHashDefault = .ok (v.written canonicalText) ∧
      snapshot.dumps .actionHashDefault = .ok (v.written canonicalText) ∧
        t.canonicalBytes = s.canonicalBytes + (v.written canonicalText).text.length

/-- Commas before the remaining `n` entries from position `index` on. -/
private def commas (index n : Nat) : Nat := if index = 0 then n - 1 else n

private theorem commas_succ (index n : Nat) :
    commas index (n + 1) = (if index = 0 then 0 else 1) + commas (index + 1) n := by
  unfold commas
  split
  next first => simp [first]
  next later =>
    simp only [Nat.add_eq_zero_iff, one_ne_zero, and_false, if_false]
    omega

private theorem visitItems_ok {items snapshots : List Value} {depth index : Nat} {s t : Usage}
    (run : visitItems (snapshotLimits none) depth index items s = .ok (snapshots, t))
    (counted : ∀ v ∈ items, Counted v) :
    Value.dumpsItems .actionHashDefault items = .ok (Value.writtenItems canonicalText items) ∧
      Value.dumpsItems .actionHashDefault snapshots = .ok (Value.writtenItems canonicalText items) ∧
        t.canonicalBytes = s.canonicalBytes +
          (items.map fun v => (v.written canonicalText).text.length).sum +
            commas index items.length := by
  -- a comma is charged before every item but the first, so the index matters
  induction items generalizing snapshots index s with
  | nil =>
    obtain ⟨rfl, rfl⟩ := pure_traversal_ok_iff.1 run
    refine ⟨rfl, rfl, ?_⟩
    simp [commas]
  | cons v vs ih =>
    simp only [visitItems, state_bind_ok_iff, consume_ok_iff, pure_traversal_ok_iff] at run
    obtain ⟨_, _, ⟨_, rfl⟩, w, u, head, ws, x, tail, rfl, rfl⟩ := run
    obtain ⟨own, copy, bytes⟩ := counted v (by simp) _ _ _ _ head
    obtain ⟨owns, copies, total⟩ := ih tail fun w member => counted w (by simp [member])
    refine ⟨?_, ?_, ?_⟩
    · simp [Value.dumpsItems, own, owns, Value.writtenItems]
    · simp [Value.dumpsItems, copy, copies, Value.writtenItems]
    · rw [total, bytes, List.map_cons, List.sum_cons, List.length_cons,
        commas_succ]
      simp only
      omega

private theorem visitValues_ok {entries : List Entry} {values : List Value} {depth index : Nat}
    {s t : Usage} (run : visitValues (snapshotLimits none) depth index entries s = .ok (values, t))
    (counted : ∀ e ∈ entries, Counted e.2) :
    List.Forall₂ (fun e v => e.2.dumps .actionHashDefault = .ok (e.2.written canonicalText) ∧
        v.dumps .actionHashDefault = .ok (e.2.written canonicalText)) entries values ∧
      t.canonicalBytes = s.canonicalBytes +
        (entries.map fun e => (e.2.written canonicalText).text.length + 1).sum +
          commas index entries.length := by
  induction entries generalizing values index s with
  | nil =>
    obtain ⟨rfl, rfl⟩ := pure_traversal_ok_iff.1 run
    exact ⟨.nil, by simp [commas]⟩
  | cons e es ih =>
    simp only [visitValues, state_bind_ok_iff, consume_ok_iff, pure_traversal_ok_iff] at run
    obtain ⟨_, _, ⟨_, rfl⟩, _, _, ⟨_, rfl⟩, w, u, head, ws, x, tail, rfl, rfl⟩ := run
    obtain ⟨own, copy, bytes⟩ := counted e (by simp) _ _ _ _ head
    obtain ⟨rest, total⟩ := ih tail fun w member => counted w (by simp [member])
    refine ⟨.cons ⟨own, copy⟩ rest, ?_⟩
    rw [total, bytes, List.map_cons, List.sum_cons, List.length_cons, commas_succ]
    simp only
    omega

theorem toValue_key {v : Value} {key : Key} (found : v.key? = some key) :
    key.toValue.key? = some key := by
  induction v using Value.induction_on with
  | member mixed v ih =>
    cases mixed with
    | false => cases found
    | true => exact ih found
  | int i =>
    simp only [Value.key?] at found
    split at found
    next => cases found
    next short =>
      cases found
      exact if_neg short
  | null => cases found; rfl
  | bool b => cases found; rfl
  | float x => cases found; rfl
  | str s => cases found; rfl
  | nonFinite => cases found
  | decimal d => cases found
  | list items ih => cases found
  | tuple items ih => cases found
  | dict entries ih => cases found
  | foreign => cases found

private theorem dumpsEntries_ok {entries : List Entry} {keys : List Key} {values : List Value}
    (named : entries.map (fun e => e.1.key?) = keys.map some)
    (faithful : List.Forall₂ (fun e v =>
      e.2.dumps .actionHashDefault = .ok (e.2.written canonicalText) ∧
        v.dumps .actionHashDefault = .ok (e.2.written canonicalText)) entries values) :
    Value.dumpsEntries .actionHashDefault entries = .ok (Value.writtenEntries canonicalText entries) ∧
      Value.dumpsEntries .actionHashDefault ((keys.map Key.toValue).zip values) =
        .ok (Value.writtenEntries canonicalText entries) ∧
          (Value.writtenEntries canonicalText entries).map (·.1) = keys := by
  induction faithful generalizing keys with
  | nil =>
    cases keys with
    | nil => exact ⟨rfl, rfl, rfl⟩
    | cons key keys => simp at named
  | @cons e v es vs both rest ih =>
    obtain ⟨k, w⟩ := e
    cases keys with
    | nil => simp at named
    | cons key keys =>
      simp only [List.map_cons, List.cons.injEq] at named
      obtain ⟨own, copy, names⟩ := ih named.2
      refine ⟨?_, ?_, ?_⟩
      · simp [Value.dumpsEntries, Value.writtenEntries, named.1, both.1, own, orRefuse]
      · simp [Value.dumpsEntries, Value.writtenEntries, named.1, toValue_key named.1, both.2, copy,
          orRefuse]
      · simp [Value.writtenEntries, named.1, names]

private theorem oneFamily_of_same {keys : List Key}
    (same : ∀ k ∈ keys, ∀ k' ∈ keys, k'.family = k.family) : oneFamily keys = true := by
  cases keys with
  | nil => rfl
  | cons k ks =>
    simp only [oneFamily, List.all_eq_true, beq_iff_eq]
    exact fun k' member => same k (by simp) k' (by simp [member])

/-! ### The length of a written document -/

theorem writtenItems_length (money : Decimal → PlainDecimal) (items : List Value) :
    (Value.writtenItems money items).length = items.length := by
  induction items with
  | nil => rfl
  | cons v vs ih => simp [Value.writtenItems, ih]

theorem writtenEntries_length (money : Decimal → PlainDecimal) (entries : List Entry) :
    (Value.writtenEntries money entries).length = entries.length := by
  induction entries with
  | nil => rfl
  | cons e es ih => simp [Value.writtenEntries, ih]

private theorem entries_length (money : Decimal → PlainDecimal) (entries : List Entry) :
    ((Value.writtenEntries money entries).map fun f =>
      (quoted f.1.name).length + f.2.text.length + 1).sum =
      (((Value.writtenEntries money entries).map (·.1)).map fun k => (quoted k.name).length).sum +
        (entries.map fun e => (e.2.written money).text.length + 1).sum := by
  induction entries with
  | nil => rfl
  | cons e es ih =>
    obtain ⟨k, v⟩ := e
    simp only [Value.writtenEntries, List.map_cons, List.sum_cons, ih]
    omega

/-- Sorting the entries does not change the length of the text. -/
theorem dict_length (money : Decimal → PlainDecimal) (entries : List Entry) :
    ((Value.dict entries).written money).text.length =
      2 + (((Value.writtenEntries money entries).map (·.1)).map
        fun k => (quoted k.name).length).sum +
        (entries.map fun e => (e.2.written money).text.length + 1).sum +
          (entries.length - 1) := by
  have order := (List.perm_insertionSort byKey (Value.writtenEntries money entries)).map
    fun f => (quoted f.1.name).length + f.2.text.length + 1
  have sum := order.sum_eq
  rw [entries_length] at sum
  rw [Value.written, Data.text_obj_length, List.length_map, List.length_insertionSort,
    writtenEntries_length, List.map_map]
  change 2 + ((List.insertionSort byKey (Value.writtenEntries money entries)).map
    fun f => (quoted f.1.name).length + f.2.text.length + 1).sum + _ = _
  rw [sum]
  omega

theorem sequence_length (money : Decimal → PlainDecimal) (items : List Value) :
    (Data.arr (Value.writtenItems money items)).text.length =
      2 + (items.map fun v => (v.written money).text.length).sum + (items.length - 1) := by
  have each : (Value.writtenItems money items).map (fun x => x.text.length) =
      items.map fun v => (v.written money).text.length := by
    induction items with
    | nil => rfl
    | cons v vs ih => rw [Value.writtenItems, List.map_cons, List.map_cons, ih]
  rw [Data.text_arr_length, each, writtenItems_length]

/-- Visiting a value counts the bytes of its text, and the snapshot has the same document. -/
theorem counted (v : Value) : Counted v := by
  intro depth s t snapshot run
  induction v using Value.induction_on generalizing depth s t snapshot with
  | member mixed v ih =>
    simp only [visit, state_bind_ok_iff, claimNode_ok_iff] at run
    obtain ⟨_, u, ⟨_, _, rfl⟩, inner⟩ := run
    obtain ⟨own, copy, bytes⟩ := ih _ _ _ _ inner
    exact ⟨by cases mixed <;> exact own, copy, bytes⟩
  -- a decimal's snapshot is its text
  | decimal d =>
    simp only [visit, state_bind_ok_iff, claimNode_ok_iff, checked_ok_iff, consume_ok_iff,
      pure_traversal_ok_iff] at run
    obtain ⟨_, _, ⟨_, _, rfl⟩, text, _, ⟨money, rfl⟩, width, _, ⟨token, rfl⟩, _, _, ⟨_, rfl⟩, rfl,
      rfl⟩ := run
    obtain ⟨rfl, rfl⟩ := money_width money token
    refine ⟨?_, rfl, rfl⟩
    have read : boundedMoneyText maxActionHashNumberCharacters d = .ok (canonicalText d).chars := money
    simp only [Value.dumps, read]
    rfl
  | str text =>
    simp only [visit, state_bind_ok_iff, claimNode_ok_iff, checked_ok_iff, consume_ok_iff,
      pure_traversal_ok_iff] at run
    obtain ⟨_, _, ⟨_, _, rfl⟩, width, _, ⟨valid, rfl⟩, _, _, ⟨_, rfl⟩, rfl, rfl⟩ := run
    obtain rfl := scalar_width valid
    exact ⟨rfl, rfl, rfl⟩
  | bool b =>
    simp only [visit, state_bind_ok_iff, claimNode_ok_iff, consume_ok_iff,
      pure_traversal_ok_iff] at run
    obtain ⟨_, _, ⟨_, _, rfl⟩, _, _, ⟨_, rfl⟩, rfl, rfl⟩ := run
    exact ⟨rfl, rfl, by cases b <;> rfl⟩
  | null =>
    simp only [visit, state_bind_ok_iff, claimNode_ok_iff, consume_ok_iff,
      pure_traversal_ok_iff] at run
    obtain ⟨_, _, ⟨_, _, rfl⟩, _, _, ⟨_, rfl⟩, rfl, rfl⟩ := run
    exact ⟨rfl, rfl, rfl⟩
  | int i =>
    simp only [visit, state_bind_ok_iff, claimNode_ok_iff, checked_ok_iff, consume_ok_iff,
      pure_traversal_ok_iff] at run
    obtain ⟨_, _, ⟨_, _, rfl⟩, digits, _, ⟨valid, rfl⟩, _, _, ⟨_, rfl⟩, rfl, rfl⟩ := run
    obtain ⟨rfl, short⟩ := validateActionHashInteger_ok valid
    have written : (Value.int i).dumps .actionHashDefault = .ok (.int i) := by
      rw [Value.dumps, refuseIf_of_not (short_integer short)]
      rfl
    exact ⟨written, written, rfl⟩
  | float x =>
    simp only [visit, state_bind_ok_iff, claimNode_ok_iff, checked_ok_iff, consume_ok_iff,
      pure_traversal_ok_iff] at run
    obtain ⟨_, _, ⟨_, _, rfl⟩, _, _, ⟨_, rfl⟩, _, _, ⟨_, rfl⟩, rfl, rfl⟩ := run
    exact ⟨rfl, rfl, rfl⟩
  | nonFinite =>
    simp only [visit, state_bind_ok_iff, checked_ok_iff] at run
    obtain ⟨_, _, _, refused, _⟩ := run
    cases refused
  | foreign =>
    simp only [visit, state_bind_ok_iff, checked_ok_iff] at run
    obtain ⟨_, _, _, refused, _⟩ := run
    cases refused
  | list items ih =>
    simp only [visit, state_bind_ok_iff, claimNode_ok_iff, consume_ok_iff,
      pure_traversal_ok_iff] at run
    obtain ⟨_, _, ⟨_, _, rfl⟩, _, _, ⟨_, rfl⟩, copies, _, inner, rfl, rfl⟩ := run
    obtain ⟨own, copy, bytes⟩ := visitItems_ok inner fun v member d s t w => ih v member d s t w
    refine ⟨by simp [Value.dumps, own, Except.map, Value.written],
      by simp [Value.dumps, copy, Except.map, Value.written], ?_⟩
    rw [bytes, Value.written, sequence_length]
    simp only [commas, if_true]
    omega
  | tuple items ih =>
    simp only [visit, state_bind_ok_iff, claimNode_ok_iff, consume_ok_iff,
      pure_traversal_ok_iff] at run
    obtain ⟨_, _, ⟨_, _, rfl⟩, _, _, ⟨_, rfl⟩, copies, _, inner, rfl, rfl⟩ := run
    obtain ⟨own, copy, bytes⟩ := visitItems_ok inner fun v member d s t w => ih v member d s t w
    refine ⟨by simp [Value.dumps, own, Except.map, Value.written],
      by simp [Value.dumps, copy, Except.map, Value.written], ?_⟩
    rw [bytes, Value.written, sequence_length]
    simp only [commas, if_true]
    omega
  | dict entries ih =>
    simp only [visit, state_bind_ok_iff, claimNode_ok_iff, checked_ok_iff, consume_ok_iff,
      pure_traversal_ok_iff] at run
    obtain ⟨_, _, ⟨_, _, rfl⟩, _, _, ⟨_, rfl⟩, _, _, ⟨valid, rfl⟩, _, _, ⟨_, rfl⟩, keys, u, names,
      values, _, inner, rfl, rfl⟩ := run
    have families := validateMappingKeyFamilies_ok valid
    obtain ⟨named, family, keyBytes⟩ := visitKeys_ok names fun k member => (families k member).1
    obtain ⟨faithful, bytes⟩ := visitValues_ok inner fun e member d s t w => (ih e member).2 d s t w
    rw [List.map_map] at named
    obtain ⟨own, copy, written⟩ := dumpsEntries_ok named faithful
    -- the preflight has compared the families of any two keys
    have one : oneFamily keys = true := by
      refine oneFamily_of_same fun k member k' other => ?_
      have listed (key : Key) (inside : key ∈ keys) :
          ∃ v ∈ entries.map (·.1), v.family? = some key.family := by
        have image : some key.family ∈ (entries.map (·.1)).map Value.family? := by
          rw [family]
          exact List.mem_map.2 ⟨key, inside, rfl⟩
        exact List.mem_map.1 image
      obtain ⟨v, inside, found⟩ := listed k member
      obtain ⟨v', inside', found'⟩ := listed k' other
      have same := (families v inside).2 v' inside'
      rw [found, found', Option.some.injEq] at same
      exact same
    have sorted (fields : List (Key × Data)) (names : fields.map (·.1) = keys) :
        refuseIf (oneFamily (fields.map (·.1)) = false) notSerializable = .ok () :=
      refuseIf_of_not (by rw [names, one]; simp)
    refine ⟨?_, ?_, ?_⟩
    · rw [Value.dumps, own, ok_bind, sorted _ written]
      rfl
    · rw [Value.dumps, copy, ok_bind, sorted _ written]
      rfl
    · rw [bytes, keyBytes, dict_length, written]
      simp only [commas, if_true]
      omega

theorem utf8Length_ascii {text : List Char} (ascii : Ascii text) :
    utf8Length text = text.length := by
  induction text with
  | nil => rfl
  | cons c cs ih =>
    have one : c.utf8Size = 1 := by
      have small := ascii c (by simp)
      have code : c.val.toNat = c.toNat := rfl
      rw [Char.utf8Size, if_pos]
      exact UInt32.le_iff_toNat_le.2 (by
        show c.val.toNat ≤ 0x7F
        omega)
    simp only [utf8Length, List.map_cons, List.sum_cons, List.length_cons, one] at ih ⊢
    rw [ih fun d member => ascii d (by simp [member])]
    omega

private theorem utf8Length_flatten (chunks : List (List Char)) :
    utf8Length chunks.flatten = (chunks.map utf8Length).sum := by
  induction chunks with
  | nil => rfl
  | cons chunk chunks ih =>
    rw [List.flatten_cons, List.map_cons, List.sum_cons, ← ih]
    simp [utf8Length]

/-- Chunks that fit together are all accepted, however the text is cut. -/
private theorem streamChunks_fits {maximum encoded : Nat} {chunks : List (List Char)}
    (fits : encoded + utf8Length chunks.flatten ≤ maximum) :
    ∃ total, streamChunks maximum encoded chunks = .ok total := by
  induction chunks generalizing encoded with
  | nil => exact ⟨encoded, rfl⟩
  | cons chunk chunks ih =>
    rw [utf8Length_flatten, List.map_cons, List.sum_cons] at fits
    have later : encoded + utf8Length chunk + utf8Length chunks.flatten ≤ maximum := by
      rw [utf8Length_flatten]
      omega
    obtain ⟨total, rest⟩ := ih later
    exact ⟨total, by rw [streamChunks, refuseIf_of_not (by omega), ok_bind, rest]⟩

private theorem encoded_eq {v : Value} {document : Data}
    (dumped : v.dumps .actionHashDefault = .ok document) : encoded v = .ok document.text := by
  rw [encoded, dumped]
  rfl

theorem hashedText_fits {chunking : Chunking} {snapshot : Value} {text : List Char} {n : Nat}
    (written : encoded snapshot = .ok text) (fits : utf8Length text ≤ n) :
    hashedText chunking snapshot n = .ok text := by
  have whole : 0 + utf8Length (chunking.cut text).flatten ≤ n := by
    rw [chunking.whole]
    omega
  obtain ⟨total, streamed⟩ := streamChunks_fits whole
  have kept : (Except.ok text : Except HashFault (List Char)).mapError encoderFault = .ok text := rfl
  rw [hashedText, written, kept, ok_bind, streamed, ok_bind]
  rfl

/-- A snapshot taken under a byte ceiling: one text for the value and its copy, within the ceiling. -/
theorem validated {c : Ceiling} {v snapshot : Value} :
    validateActionHashStructure (snapshotLimits c) v = .ok snapshot ↔
      validateActionHashStructure (snapshotLimits none) v = .ok snapshot ∧
        c.admits (v.written canonicalText).text.length = true := by
  -- under a ceiling the visit is the same visit, cut off where the meter passes it
  have meter := metered_visit 0 v
  have inner (c : Ceiling) : validateActionHashStructure (snapshotLimits c) v = .ok snapshot ↔
      ∃ usage, visit (snapshotLimits c) 0 v ⟨0, 0, 0⟩ = .ok (snapshot, usage) := by
    unfold validateActionHashStructure
    cases visit (snapshotLimits c) 0 v ⟨0, 0, 0⟩ with
    | error e => simp [Except.map]
    | ok result => simp [Except.map, Prod.ext_iff]
  have start : c.admits (Usage.bytes ⟨0, 0, 0⟩) = true := by cases c <;> rfl
  rw [inner, inner]
  constructor
  · rintro ⟨usage, run⟩
    obtain ⟨unlimited, within⟩ := (meter.ceiling start).1 run
    have bytes : usage.canonicalBytes = 0 + (v.written canonicalText).text.length :=
      (counted v _ _ _ _ unlimited).2.2
    rw [zero_add] at bytes
    exact ⟨⟨usage, unlimited⟩, by rw [← bytes]; exact within⟩
  · rintro ⟨⟨usage, unlimited⟩, within⟩
    have bytes : usage.canonicalBytes = 0 + (v.written canonicalText).text.length :=
      (counted v _ _ _ _ unlimited).2.2
    rw [zero_add] at bytes
    exact ⟨usage, (meter.ceiling start).2 ⟨unlimited, by rw [← bytes] at within; exact within⟩⟩

/-- Canonical data inside the depth, node, entry, sort-work, scalar and number limits: accepted when
the byte ceilings are lifted. -/
def Inside (v : Value) : Prop :=
  ∃ snapshot, validateActionHashStructure (snapshotLimits none) v = .ok snapshot

theorem text_bytes (v : Value) :
    utf8Length (v.written canonicalText).text = (v.written canonicalText).text.length :=
  utf8Length_ascii (Data.ascii_render Layout.compact _ 0)

theorem inside_encoded {v snapshot : Value}
    (accepted : validateActionHashStructure (snapshotLimits none) v = .ok snapshot) :
    encoded v = .ok (v.written canonicalText).text ∧
      encoded snapshot = .ok (v.written canonicalText).text := by
  unfold validateActionHashStructure at accepted
  cases run : visit (snapshotLimits none) 0 v ⟨0, 0, 0⟩ with
  | error e =>
    rw [run] at accepted
    cases accepted
  | ok result =>
    obtain ⟨copy, usage⟩ := result
    rw [run] at accepted
    cases accepted
    obtain ⟨own, copy, _⟩ := counted v _ _ _ _ run
    exact ⟨encoded_eq own, encoded_eq copy⟩

/-- What the preflight accepted under a ceiling, streaming hashes under the same ceiling. -/
theorem hashed_of_accepted {chunking : Chunking} {v snapshot : Value} {n : Nat}
    (accepted : validateActionHashStructure (snapshotLimits (some n)) v = .ok snapshot) :
    ∃ text, encoded v = .ok text ∧ hashedText chunking snapshot n = .ok text := by
  obtain ⟨unlimited, fits⟩ := validated.1 accepted
  obtain ⟨own, copy⟩ := inside_encoded unlimited
  refine ⟨_, own, hashedText_fits copy ?_⟩
  rw [text_bytes]
  simpa [Ceiling.admits] using fits

/-- The bytes that the preflight counts are the bytes of the hashed text: a value inside the other
limits is accepted exactly when its text fits, streaming never refuses what the preflight accepted,
and the snapshot has the text of the original. -/
theorem preflight_exact (sha : TextHash) (chunking : Chunking) (v : Value) :
    (∀ ceiling snapshot usage,
      visit (snapshotLimits ceiling) 0 v ⟨0, 0, 0⟩ = .ok (snapshot, usage) →
        ∃ text, encoded v = .ok text ∧ encoded snapshot = .ok text ∧
          usage.canonicalBytes = utf8Length text) ∧
    (∀ snapshot n, validateActionHashStructure (snapshotLimits (some n)) v = .ok snapshot →
      ∃ text, encoded v = .ok text ∧ hashedText chunking snapshot n = .ok text) ∧
    (Inside v → ∃ text, encoded v = .ok text ∧
      (∀ n, 1 ≤ n → n ≤ maxActionHashCanonicalBytes →
        ((∃ r, authoritySnapshotAndSha256Of sha chunking v (some n) = .ok r) ↔
          utf8Length text ≤ n)) ∧
      ((∃ r, actionSnapshotAndSha256Of sha chunking v = .ok r) ↔
        utf8Length text ≤ maxActionHashCanonicalBytes)) := by
  refine ⟨?_, ?_, ?_⟩
  · intro ceiling snapshot usage run
    have start : Ceiling.admits ceiling (Usage.bytes ⟨0, 0, 0⟩) = true := by cases ceiling <;> rfl
    have unlimited := ((metered_visit 0 v).ceiling start).1 run
    obtain ⟨own, copy, bytes⟩ := counted v _ _ _ _ unlimited.1
    refine ⟨_, encoded_eq own, encoded_eq copy, ?_⟩
    rw [text_bytes, bytes, zero_add]
  · exact fun snapshot n => hashed_of_accepted
  · rintro ⟨snapshot, unlimited⟩
    obtain ⟨own, copy⟩ := inside_encoded unlimited
    -- what the meter has counted is what the encoder writes, byte for byte
    have hashed {n : Nat} (fits : utf8Length (v.written canonicalText).text ≤ n) :
        validateActionHashStructure (snapshotLimits (some n)) v = .ok snapshot ∧
          hashedText chunking snapshot n = .ok (v.written canonicalText).text := by
      refine ⟨validated.2 ⟨unlimited, ?_⟩, hashedText_fits copy fits⟩
      rw [text_bytes] at fits
      simpa [Ceiling.admits] using fits
    have refused {n : Nat} {r : Value}
        (accepted : validateActionHashStructure (snapshotLimits (some n)) v = .ok r) :
        utf8Length (v.written canonicalText).text ≤ n := by
      rw [text_bytes]
      simpa [Ceiling.admits] using (validated.1 accepted).2
    refine ⟨_, own, fun n positive below => ⟨?_, ?_⟩, ?_, ?_⟩
    · rintro ⟨r, accepted⟩
      have limits : authoritySnapshotLimits (some n) = .ok (snapshotLimits (some n)) := by
        rw [authoritySnapshotLimits, refuseIf_of_not (by omega)]
        rfl
      rw [authoritySnapshotAndSha256Of, limits, ok_bind] at accepted
      cases preflight : validateActionHashStructure (snapshotLimits (some n)) v with
      | error e =>
        rw [preflight] at accepted
        cases accepted
      | ok r => exact refused preflight
    · intro fits
      have limits : authoritySnapshotLimits (some n) = .ok (snapshotLimits (some n)) := by
        rw [authoritySnapshotLimits, refuseIf_of_not (by omega)]
        rfl
      obtain ⟨preflight, text⟩ := hashed fits
      refine ⟨(snapshot, "sha256:" ++ sha (v.written canonicalText).text), ?_⟩
      rw [authoritySnapshotAndSha256Of, limits, ok_bind, preflight, ok_bind]
      simp only [snapshotLimits, Option.getD_some, text, ok_bind]
      rfl
    · rintro ⟨r, accepted⟩
      cases preflight : validateActionHashStructure
          (snapshotLimits (some maxActionHashCanonicalBytes)) v with
      | error e =>
        rw [actionSnapshotAndSha256Of, preflight] at accepted
        cases accepted
      | ok r => exact refused preflight
    · intro fits
      obtain ⟨preflight, text⟩ := hashed fits
      refine ⟨(snapshot, "sha256:" ++ sha (v.written canonicalText).text), ?_⟩
      rw [actionSnapshotAndSha256Of, preflight, ok_bind, text, ok_bind]
      rfl

/-- `{"k": [Decimal("1.50"), "😀"]}`. -/
private def pricedLabel : Value :=
  .dict [(.str [0x6B], .list [.decimal ⟨false, 150, -2⟩, .str [0x1F600]])]

/-- It fits in the bytes of its text, and in no fewer. -/
theorem preflight_exact_pair :
    ∃ text, encoded pricedLabel = .ok text ∧
      ∀ n, 1 ≤ n → n ≤ maxActionHashCanonicalBytes →
        ((∃ r, authoritySnapshotAndSha256Of String.ofList Chunking.single pricedLabel (some n) =
            .ok r) ↔ utf8Length text ≤ n) := by
  have accepted : (validateActionHashStructure (snapshotLimits none) pricedLabel).isOk = true := by
    decide +kernel
  have inside : Inside pricedLabel := by
    cases result : validateActionHashStructure (snapshotLimits none) pricedLabel with
    | error e =>
      rw [result] at accepted
      cases accepted
    | ok snapshot => exact ⟨snapshot, result⟩
  obtain ⟨text, own, exact, _⟩ :=
    (preflight_exact String.ofList Chunking.single pricedLabel).2.2 inside
  exact ⟨text, own, exact⟩

end DefiantHarness
