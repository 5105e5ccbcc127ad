import Mathlib.Algebra.Order.Monoid.Prod
import DefiantHarness.PreflightBytes

/-! What a bounded snapshot returns and what it costs: which values it accepts, apart from bytes. -/
namespace DefiantHarness

open Foundation

namespace Value

/-- The key that a snapshot keeps. -/
def keyCopy : Value → Key
  | .member _ v => v.keyCopy
  | .decimal d => .str (ofChars (canonicalText d).chars)
  | .str s => .str s
  | .bool b => .bool b
  | .int i => .int i
  | .float x => .float x
  | .null => .null
  -- no valid mapping has a key of this kind
  | .nonFinite => .null
  | .list _ => .null
  | .tuple _ => .null
  | .dict _ => .null
  | .foreign => .null

mutual

/-- The detached copy: members and amounts are replaced, containers keep their kind. -/
def snapshot : Value → Value
  | .member _ v => v.snapshot
  -- amounts become their canonical text; everything else keeps its kind
  | .decimal d => .str (ofChars (canonicalText d).chars)
  | .list items => .list (snapshotItems items)
  | .tuple items => .tuple (snapshotItems items)
  | .dict entries => .dict (snapshotEntries entries)
  | .str s => .str s
  | .bool b => .bool b
  | .int i => .int i
  | .float x => .float x
  | .null => .null
  | .nonFinite => .nonFinite
  | .foreign => .foreign

def snapshotItems : List Value → List Value
  | [] => []
  | v :: vs => v.snapshot :: snapshotItems vs

def snapshotEntries : List Entry → List Entry
  | [] => []
  | (k, v) :: es => (k.keyCopy.toValue, v.snapshot) :: snapshotEntries es

end

def keyNodes : Value → Nat
  | .member _ v => v.keyNodes + 1
  | _ => 1

mutual

/-- The nodes that a traversal claims. -/
def nodes : Value → Nat
  -- an enumeration member counts once more than its value
  | .member _ v => v.nodes + 1
  | .list items => 1 + nodesItems items
  | .tuple items => 1 + nodesItems items
  | .dict entries => 1 + nodesEntries entries
  | .decimal _ => 1
  | .str _ => 1
  | .bool _ => 1
  | .int _ => 1
  | .float _ => 1
  | .null => 1
  | .nonFinite => 1
  | .foreign => 1

def nodesItems : List Value → Nat
  | [] => 0
  | v :: vs => v.nodes + nodesItems vs

def nodesEntries : List Entry → Nat
  | [] => 0
  | (k, v) :: es => k.keyNodes + v.nodes + nodesEntries es

end

/-- The width of a name inside its quotes and out. -/
def keyWidth (k : Value) : Nat := (quoted k.keyCopy.name).length

mutual

/-- The work that sorting all mappings is charged for. -/
def sortWork : Value → Nat
  | .member _ v => v.sortWork
  | .list items => sortWorkItems items
  | .tuple items => sortWorkItems items
  -- every round of the sort reads every key once
  | .dict entries => (entries.map fun e => e.1.keyWidth).sum * sortRounds entries.length +
      sortWorkEntries entries
  | .decimal _ => 0
  | .str _ => 0
  | .bool _ => 0
  | .int _ => 0
  | .float _ => 0
  | .null => 0
  | .nonFinite => 0
  | .foreign => 0

def sortWorkItems : List Value → Nat
  | [] => 0
  | v :: vs => v.sortWork + sortWorkItems vs

def sortWorkEntries : List Entry → Nat
  | [] => 0
  | (_, v) :: es => v.sortWork + sortWorkEntries es

end

mutual

/-- How deep the deepest node stands below a value; an empty container has nothing below it. -/
def height : Value → Nat
  | .member _ v => v.height
  | .list items => heightItems items
  | .tuple items => heightItems items
  | .dict entries => heightEntries entries
  | .decimal _ => 0
  | .str _ => 0
  | .bool _ => 0
  | .int _ => 0
  | .float _ => 0
  | .null => 0
  | .nonFinite => 0
  | .foreign => 0

def heightItems : List Value → Nat
  | [] => 0
  | v :: vs => max (v.height + 1) (heightItems vs)

def heightEntries : List Entry → Nat
  | [] => 0
  | (_, v) :: es => max (v.height + 1) (heightEntries es)

end

end Value

/-- An amount that has a bounded text. -/
def BoundedMoney (d : Decimal) : Prop :=
  0 ≤ d.value ∧ (d.isZero = true ∨ (Nat.toDigits 10 d.coefficient).length ≤ maxActionHashNumberCharacters ∧
    (canonicalText d).chars.length ≤ maxActionHashNumberCharacters)

namespace Value

def BoundedKey : Value → Prop
  | .member _ v => v.BoundedKey
  | .decimal d => BoundedMoney d
  | .str s => s.length ≤ maxActionHashScalarCharacters
  | .int i => (Numeral.ofInt i).chars.length ≤ maxActionHashNumberCharacters
  | .float x => x.numeral.chars.length ≤ maxActionHashNumberCharacters
  | .bool _ => True
  | .null => True
  -- what cannot be a key at all
  | .nonFinite => False
  | .list _ => False
  | .tuple _ => False
  | .dict _ => False
  | .foreign => False

/-- Keys of one family, no two of them equal. -/
def Keyed (keys : List Value) : Prop :=
  (∀ k ∈ keys, k.BoundedKey ∧ k.family? ≠ none ∧ ∀ k' ∈ keys, k'.family? = k.family?) ∧
    (keys.map keyCopy).Pairwise fun a b => b.same a = false

mutual

/-- Canonical data inside the limits on scalars, numbers and single mappings. -/
def Bounded : Value → Prop
  | .member _ v => v.Bounded
  | .decimal d => BoundedMoney d
  | .str s => s.length ≤ maxActionHashScalarCharacters
  | .int i => (Numeral.ofInt i).chars.length ≤ maxActionHashNumberCharacters
  | .float x => x.numeral.chars.length ≤ maxActionHashNumberCharacters
  | .bool _ => True
  | .null => True
  | .nonFinite => False
  | .foreign => False
  | .list items => BoundedItems items
  | .tuple items => BoundedItems items
  -- the keys are bounded and of one comparable kind
  | .dict entries =>
    entries.length ≤ maxActionHashMappingEntries ∧ Keyed (entries.map (·.1)) ∧ BoundedEntries entries

def BoundedItems : List Value → Prop
  | [] => True
  | v :: vs => v.Bounded ∧ BoundedItems vs

def BoundedEntries : List Entry → Prop
  | [] => True
  | (_, v) :: es => v.Bounded ∧ BoundedEntries es

end

/-- A value that the traversal accepts, apart from the ceilings on bytes. -/
structure Admissible (v : Value) : Prop where
  bounded : v.Bounded
  height : v.height ≤ maxActionHashNestingDepth
  nodes : v.nodes ≤ maxActionHashNodes
  sortWork : v.sortWork ≤ maxActionHashMappingSortWorkUnits

end Value

/-- The nodes and the sort work used so far. -/
def Usage.work (s : Usage) : Nat × Nat := (s.nodes, s.mappingSortWork)

/-- The limits on both. -/
def workLimit : Nat × Nat := (maxActionHashNodes, maxActionHashMappingSortWorkUnits)

abbrev ChargesWork (m : Traversal α) (admissible : Prop) (a : α) (cost : Nat × Nat) : Prop :=
  Charges Usage.work workLimit m admissible a cost

private theorem charges_checked {result : Except HashFault α} {p : Prop} {a : α}
    (accepted : ∀ b, result = .ok b ↔ p ∧ b = a) : ChargesWork (checked result) p a 0 := by
  apply Charges.free
  · intro s b t run
    obtain ⟨found, rfl⟩ := checked_ok_iff.1 run
    obtain ⟨held, rfl⟩ := (accepted b).1 found
    exact ⟨held, rfl, rfl⟩
  · intro held s
    exact ⟨s, checked_ok_iff.2 ⟨(accepted a).2 ⟨held, rfl⟩, rfl⟩⟩

private theorem charges_consume (width : Nat) :
    ChargesWork (consume (snapshotLimits none) width) True () 0 := by
  apply Charges.free
  · intro s b t run
    rw [(consume_ok_iff.1 run).2]
    exact ⟨trivial, rfl, rfl⟩
  · exact fun _ s => ⟨_, consume_ok_iff.2 ⟨rfl, rfl⟩⟩

/-- A scalar is charged its width and returned. -/
private theorem charges_leaf (width : Nat) (a : α) :
    ChargesWork (consume (snapshotLimits none) width >>= fun _ => (pure a : Traversal α)) True a 0 := by
  have charges := Charges.bind (f := fun _ => (pure a : Traversal α)) (charges_consume width)
    fun _ => Charges.pure a
  exact charges.congr (by simp) (by simp)

private theorem charges_claimNode (depth : Nat) :
    ChargesWork (claimNode (snapshotLimits none) depth) (depth ≤ maxActionHashNestingDepth) ()
      (1, 0) := by
  intro s within
  constructor
  · intro b t run
    obtain ⟨shallow, room, rfl⟩ := claimNode_ok_iff.1 run
    exact ⟨shallow, rfl, rfl, room, within.2⟩
  · intro shallow inside
    exact ⟨_, claimNode_ok_iff.2 ⟨shallow, inside.1, rfl⟩⟩

private theorem charges_sortWork (width rounds : Nat) :
    ChargesWork (consumeMappingSortWork (snapshotLimits none) width rounds) True ()
      (0, width * rounds) := by
  unfold consumeMappingSortWork
  by_cases trivialRounds : rounds = 0
  · simp only [trivialRounds, if_true, mul_zero]
    exact Charges.pure ()
  simp only [if_neg trivialRounds]
  have positive := Nat.pos_of_ne_zero trivialRounds
  intro s within
  have used : s.mappingSortWork ≤ maxActionHashMappingSortWorkUnits := within.2
  -- the quotient test is the sum test, since what is used is within the limit
  have fits : ¬ (maxActionHashMappingSortWorkUnits - s.mappingSortWork) / rounds < width ↔
      s.mappingSortWork + width * rounds ≤ maxActionHashMappingSortWorkUnits := by
    rw [not_lt, Nat.le_div_iff_mul_le positive]
    omega
  have run (b : Unit) (t : Usage) : (do
      refuseIf ((maxActionHashMappingSortWorkUnits - s.mappingSortWork) / rounds < width)
        (limitFault "action_hash_mapping_sort_work_units"
          "action hash mapping sort work exceeds maximum of " maxActionHashMappingSortWorkUnits " units")
      pure ((), { s with mappingSortWork := s.mappingSortWork + width * rounds })) =
        Except.ok (b, t) ↔
      s.mappingSortWork + width * rounds ≤ maxActionHashMappingSortWorkUnits ∧
        t = { s with mappingSortWork := s.mappingSortWork + width * rounds } := by
    rw [refuseIf_bind_ok_iff, fits, pure_ok_iff, Prod.mk.injEq]
    tauto
  constructor
  · intro b t returned
    obtain ⟨room, rfl⟩ := (run b t).1 returned
    exact ⟨trivial, rfl, rfl, within.1, room⟩
  · intro _ inside
    exact ⟨_, (run () _).2 ⟨inside.2, rfl⟩⟩

private theorem ofInt_length (i : Int) :
    (Numeral.ofInt i).chars.length =
      (if i < 0 then 1 else 0) + (Nat.toDigits 10 i.natAbs).length := by
  by_cases negative : i < 0 <;>
    simp [Numeral.ofInt, Numeral.chars, Numeral.fractionChars, Numeral.exponentChars, negative,
      Nat.add_comm]

private theorem integer_ok_iff {i : Int} {w : Nat} :
    validateActionHashInteger i maxActionHashNumberCharacters = .ok w ↔
      (Numeral.ofInt i).chars.length ≤ maxActionHashNumberCharacters ∧
        w = (Numeral.ofInt i).chars.length := by
  have room : ¬ maxActionHashNumberCharacters - (if i < 0 then 1 else 0) = 0 := by
    split <;> decide
  have sign : (if i < 0 then 1 else 0) ≤ maxActionHashNumberCharacters := by
    split <;> decide
  have digits := Nat.length_toDigits_le_iff (b := 10) (n := i.natAbs) (by norm_num)
    (Nat.pos_of_ne_zero room)
  simp only [validateActionHashInteger, refuseIf_bind_ok_iff, pure_ok_iff, not_le, ← digits,
    ofInt_length]
  constructor
  · rintro ⟨_, short, rfl⟩
    exact ⟨by omega, rfl⟩
  · rintro ⟨short, rfl⟩
    exact ⟨room, by omega, rfl⟩

private theorem scalar_ok_iff {s : Points} {w : Nat} :
    validateActionHashScalar (snapshotLimits none) s = .ok w ↔
      s.length ≤ maxActionHashScalarCharacters ∧ w = (quoted s).length := by
  simp only [validateActionHashScalar, refuseIf_bind_ok_iff, validateActionHashStringToken_eq]
  have unlimited : (snapshotLimits none).stringTokenBytes.admits (quoted s).length = true := rfl
  rw [if_pos unlimited, Except.ok.injEq, not_lt]
  constructor
  · rintro ⟨short, rfl⟩
    exact ⟨short, rfl⟩
  · rintro ⟨short, rfl⟩
    exact ⟨short, rfl⟩

private theorem bounded_ok_iff {d : Decimal} {cs : List Char} :
    boundedMoneyText maxActionHashNumberCharacters d = .ok cs ↔
      BoundedMoney d ∧ cs = (canonicalText d).chars := by
  rw [boundedMoneyText_ok_iff, BoundedMoney]
  constructor
  · rintro ⟨sign, rfl, size⟩
    exact ⟨⟨sign, size⟩, rfl⟩
  · rintro ⟨⟨sign, size⟩, rfl⟩
    exact ⟨sign, rfl, size⟩

private theorem numberText_ok_iff {cs : List Char} {u : Unit} :
    validateActionHashNumberText cs maxActionHashNumberCharacters = .ok u ↔
      cs.length ≤ maxActionHashNumberCharacters ∧ u = () := by
  simp [validateActionHashNumberText]

private theorem token_ok_iff {s : Points} {w : Nat} :
    validateActionHashStringToken s none = .ok w ↔ True ∧ w = (quoted s).length := by
  have unlimited : Ceiling.admits none (quoted s).length = true := rfl
  rw [validateActionHashStringToken_eq, if_pos unlimited, Except.ok.injEq, eq_comm]
  simp

private theorem refuse_charges {e : HashFault} {a : α} : ChargesWork (checked (.error e)) False a 0 :=
  charges_checked fun b => by simp

/-- A key costs its nodes, and its width is that of its name. -/
private theorem charges_visitKey (depth : Nat) (v : Value) (known : v.family? ≠ none) :
    ChargesWork (visitKey (snapshotLimits none) depth v)
      (depth ≤ maxActionHashNestingDepth ∧ v.BoundedKey) (v.keyCopy, v.keyWidth)
      (v.keyNodes, 0) := by
  have claim := charges_claimNode depth
  induction v using Value.induction_on with
  | member mixed v ih =>
    -- of the members only a text enumeration is known to `_key_family`
    cases mixed with
    | false => exact absurd rfl known
    | true =>
      refine (claim.bind fun _ => ih known).congr ?_ ?_
      · exact and_self_left
      · simp [Value.keyNodes, Nat.add_comm]
  | str s =>
    refine (claim.bind fun _ => (charges_checked fun b => scalar_ok_iff).bind fun _ =>
      charges_leaf _ _).congr ?_ ?_
    · simp [Value.BoundedKey]
    · rfl
  | bool b =>
    have width : (if b then 6 else 7) = (Value.bool b).keyWidth := by cases b <;> rfl
    simp only [visitKey, width]
    refine (claim.bind fun _ => charges_leaf _ _).congr ?_ ?_
    · simp [Value.BoundedKey]
    · rfl
  | null =>
    refine (claim.bind fun _ => charges_leaf _ _).congr ?_ ?_
    · simp [Value.BoundedKey]
    · rfl
  | int i =>
    have width : (Numeral.ofInt i).chars.length + 2 = (Value.int i).keyWidth :=
      (quoted_plain (plain_chars (Numeral.ofInt_wellFormed i))).symm
    have leaf := charges_leaf ((Numeral.ofInt i).chars.length + 2)
      (Key.int i, (Numeral.ofInt i).chars.length + 2)
    rw [← width]
    simp only [visitKey, snapshotLimits_numberCharacters]
    refine (claim.bind fun _ => (charges_checked fun b => integer_ok_iff).bind fun _ =>
      leaf).congr ?_ ?_
    · simp [Value.BoundedKey]
    · rfl
  | float x =>
    have width : x.numeral.chars.length + 2 = (Value.float x).keyWidth :=
      (quoted_plain (plain_chars x.numeral_wellFormed)).symm
    simp only [visitKey, snapshotLimits_numberCharacters, width]
    refine (claim.bind fun _ => (charges_checked fun b => numberText_ok_iff).bind fun _ =>
      charges_leaf _ _).congr ?_ ?_
    · simp [Value.BoundedKey]
    · rfl
  | nonFinite =>
    refine (claim.bind fun _ => refuse_charges).congr ?_ ?_
    · simp [Value.BoundedKey]
    · rfl
  | decimal d => exact absurd rfl known
  | list items ih => exact absurd rfl known
  | tuple items ih => exact absurd rfl known
  | dict entries ih => exact absurd rfl known
  | foreign => exact absurd rfl known

private theorem charges_visitKeys {ks : List Value} (depth rounds : Nat) (seen : List Key)
    (known : ∀ k ∈ ks, k.family? ≠ none) (apart : seen.Pairwise fun a b => b.same a = false) :
    ChargesWork (visitKeys (snapshotLimits none) depth rounds seen ks)
      ((∀ k ∈ ks, depth ≤ maxActionHashNestingDepth ∧ k.BoundedKey) ∧
        (seen ++ ks.map Value.keyCopy).Pairwise fun a b => b.same a = false)
      (ks.map Value.keyCopy)
      ((ks.map Value.keyNodes).sum, (ks.map Value.keyWidth).sum * rounds) := by
  induction ks generalizing seen with
  | nil =>
    refine (Charges.pure ([] : List Key)).congr ?_ ?_
    · simp [apart]
    · simp only [List.map_nil, List.sum_nil, zero_mul]
      rfl
  | cons k ks ih =>
    have new : ChargesWork (checked (refuseIf (seen.any k.keyCopy.same = true) notCanonical))
        (∀ s ∈ seen, k.keyCopy.same s = false) () 0 := by
      refine charges_checked fun b => ?_
      simp [refuseIf_ok_iff]
    -- a key is compared with those seen before it, so the list of them grows along
    have rest (clear : ∀ s ∈ seen, k.keyCopy.same s = false) :=
      Charges.bind (f := fun keys => (pure (k.keyCopy :: keys) : Traversal (List Key)))
        (ih (seen ++ [k.keyCopy]) (fun k' member => known k' (by simp [member])) (by
          rw [List.pairwise_append]
          refine ⟨apart, by simp, ?_⟩
          simpa using clear)) fun _ => Charges.pure _
    refine ((charges_visitKey depth k (known k (by simp))).bind fun _ =>
      (charges_sortWork _ _).bind fun _ => new.bind rest).congr ?_ ?_
    · rw [List.append_assoc]
      simp only [List.map_cons, List.singleton_append, List.forall_mem_cons]
      constructor
      · rintro ⟨first, _, _, ⟨others, pairwise⟩, _⟩
        exact ⟨⟨first, others⟩, pairwise⟩
      · rintro ⟨⟨first, others⟩, pairwise⟩
        refine ⟨first, trivial, ?_, ⟨others, pairwise⟩, trivial⟩
        exact fun s member => (List.pairwise_append.1 pairwise).2.2 s member _ (by simp)
    · simp only [List.map_cons, List.sum_cons, Prod.mk_add_mk, add_zero, zero_add, Prod.mk.injEq,
        true_and]
      ring

namespace Value

theorem boundedItems_iff {items : List Value} : BoundedItems items ↔ ∀ v ∈ items, v.Bounded := by
  induction items with
  | nil => simp [BoundedItems]
  | cons v vs ih => simp [BoundedItems, ih]

theorem boundedEntries_iff {entries : List Entry} :
    BoundedEntries entries ↔ ∀ e ∈ entries, e.2.Bounded := by
  induction entries with
  | nil => simp [BoundedEntries]
  | cons e es ih => simp [BoundedEntries, ih]

theorem heightItems_le {items : List Value} {n : Nat} :
    heightItems items ≤ n ↔ ∀ v ∈ items, v.height + 1 ≤ n := by
  induction items with
  | nil => simp [heightItems]
  | cons v vs ih => simp [heightItems, ih]

theorem heightEntries_le {entries : List Entry} {n : Nat} :
    heightEntries entries ≤ n ↔ ∀ e ∈ entries, e.2.height + 1 ≤ n := by
  induction entries with
  | nil => simp [heightEntries]
  | cons e es ih => simp [heightEntries, ih]

end Value

/-- A value returns its copy for its nodes and its sort work, when it is bounded and shallow. -/
private def ChargesVisit (v : Value) : Prop :=
  ∀ depth, ChargesWork (visit (snapshotLimits none) depth v)
    (v.Bounded ∧ depth + v.height ≤ maxActionHashNestingDepth) v.snapshot (v.nodes, v.sortWork)

private theorem charges_visitItems {items : List Value} (each : ∀ v ∈ items, ChargesVisit v)
    (depth index : Nat) :
    ChargesWork (visitItems (snapshotLimits none) depth index items)
      (∀ v ∈ items, v.Bounded ∧ depth + v.height ≤ maxActionHashNestingDepth)
      (Value.snapshotItems items) (Value.nodesItems items, Value.sortWorkItems items) := by
  induction items generalizing index with
  | nil =>
    refine (Charges.pure ([] : List Value)).congr ?_ ?_
    · simp
    · rfl
  | cons v vs ih =>
    have rest := Charges.bind (f := fun ws => (pure (v.snapshot :: ws) : Traversal (List Value)))
      (ih (fun w member => each w (by simp [member])) (index + 1)) fun _ => Charges.pure _
    refine ((charges_consume _).bind fun _ =>
      (each v (by simp) depth).bind fun _ => rest).congr ?_ ?_
    · simp
    · simp [Value.nodesItems, Value.sortWorkItems]

private theorem charges_visitValues {entries : List Entry} (each : ∀ e ∈ entries, ChargesVisit e.2)
    (depth index : Nat) :
    ChargesWork (visitValues (snapshotLimits none) depth index entries)
      (∀ e ∈ entries, e.2.Bounded ∧ depth + e.2.height ≤ maxActionHashNestingDepth)
      (entries.map fun e => e.2.snapshot)
      ((entries.map fun e => e.2.nodes).sum, Value.sortWorkEntries entries) := by
  induction entries generalizing index with
  | nil =>
    refine (Charges.pure ([] : List Value)).congr ?_ ?_
    · simp
    · rfl
  | cons e es ih =>
    obtain ⟨k, v⟩ := e
    have rest := Charges.bind (f := fun ws => (pure (v.snapshot :: ws) : Traversal (List Value)))
      (ih (fun w member => each w (by simp [member])) (index + 1)) fun _ => Charges.pure _
    refine ((charges_consume _).bind fun _ => (charges_consume 1).bind fun _ =>
      (each (k, v) (by simp) depth).bind fun _ => rest).congr ?_ ?_
    · simp
    · simp [Value.sortWorkEntries]

private theorem families_ok_iff {ks : List Value} {u : Unit} :
    validateMappingKeyFamilies ks = .ok u ↔
      (∀ k ∈ ks, k.family? ≠ none ∧ ∀ k' ∈ ks, k'.family? = k.family?) ∧ u = () := by
  constructor
  · exact fun valid => ⟨validateMappingKeyFamilies_ok valid, rfl⟩
  · rintro ⟨families, _⟩
    simp only [validateMappingKeyFamilies, unit_bind_ok_iff, checkAll_ok_iff, refuseIf_ok_iff]
    refine ⟨fun k member => (families k member).1, ?_⟩
    cases ks with
    | nil => rfl
    | cons first rest =>
      simp only [refuseIf_ok_iff, List.any_eq_true, bne_iff_ne, not_exists, not_and, not_not]
      exact fun k member => (families first (by simp)).2 k (by simp [member])

private theorem count_ok_iff {n : Nat} {u : Unit} :
    validateEntryCount (snapshotLimits none) n = .ok u ↔ n ≤ maxActionHashMappingEntries ∧ u = () := by
  rw [validateEntryCount, refuseIf_ok_iff, not_lt]
  simp [snapshotLimits]

namespace Value

theorem snapshotItems_eq (items : List Value) : snapshotItems items = items.map snapshot := by
  induction items with
  | nil => rfl
  | cons v vs ih => rw [snapshotItems, ih, List.map_cons]

theorem snapshotEntries_eq (entries : List Entry) :
    snapshotEntries entries = entries.map fun e => (e.1.keyCopy.toValue, e.2.snapshot) := by
  induction entries with
  | nil => rfl
  | cons e es ih =>
    obtain ⟨k, v⟩ := e
    rw [snapshotEntries, ih, List.map_cons]

theorem nodesEntries_eq (entries : List Entry) : nodesEntries entries =
    ((entries.map (·.1)).map keyNodes).sum + (entries.map fun e => e.2.nodes).sum := by
  induction entries with
  | nil => rfl
  | cons e es ih =>
    obtain ⟨k, v⟩ := e
    simp only [nodesEntries, ih, List.map_cons, List.sum_cons]
    omega

end Value

private theorem zip_snapshot (entries : List Entry) :
    (((entries.map (·.1)).map Value.keyCopy).map Key.toValue).zip (entries.map fun e => e.2.snapshot) =
      Value.snapshotEntries entries := by
  induction entries with
  | nil => rfl
  | cons e es ih =>
    obtain ⟨k, v⟩ := e
    simp only [List.map_cons, List.zip_cons_cons, ih, Value.snapshotEntries]

private theorem sequence_admissible {items : List Value} {depth : Nat} :
    (depth ≤ maxActionHashNestingDepth ∧ True ∧
      (∀ v ∈ items, v.Bounded ∧ depth + 1 + v.height ≤ maxActionHashNestingDepth) ∧ True) ↔
      Value.BoundedItems items ∧
        depth + Value.heightItems items ≤ maxActionHashNestingDepth := by
  have below : depth + Value.heightItems items ≤ maxActionHashNestingDepth ↔
      depth ≤ maxActionHashNestingDepth ∧
        ∀ v ∈ items, depth + 1 + v.height ≤ maxActionHashNestingDepth := by
    constructor
    · intro total
      have inner := Value.heightItems_le.1 (show Value.heightItems items ≤ 
        maxActionHashNestingDepth - depth by omega)
      exact ⟨by omega, fun v member => by have := inner v member; omega⟩
    · rintro ⟨shallow, inner⟩
      have := Value.heightItems_le.2 fun v member =>
        (show v.height + 1 ≤ maxActionHashNestingDepth - depth by have := inner v member; omega)
      omega
  rw [below, Value.boundedItems_iff]
  constructor
  · rintro ⟨shallow, _, each, _⟩
    exact ⟨fun v member => (each v member).1, shallow, fun v member => (each v member).2⟩
  · rintro ⟨bounded, shallow, inner⟩
    exact ⟨shallow, trivial, fun v member => ⟨bounded v member, inner v member⟩, trivial⟩

private theorem mapping_admissible {entries : List Entry} {depth : Nat} :
    (depth ≤ maxActionHashNestingDepth ∧ entries.length ≤ maxActionHashMappingEntries ∧
      (∀ k ∈ entries.map (·.1), k.family? ≠ none ∧
        ∀ k' ∈ entries.map (·.1), k'.family? = k.family?) ∧ True ∧
      ((∀ k ∈ entries.map (·.1), depth + 1 ≤ maxActionHashNestingDepth ∧ k.BoundedKey) ∧
        (([] : List Key) ++ (entries.map (·.1)).map Value.keyCopy).Pairwise
          fun a b => b.same a = false) ∧
      (∀ e ∈ entries, e.2.Bounded ∧ depth + 1 + e.2.height ≤ maxActionHashNestingDepth) ∧ True) ↔
      (Value.dict entries).Bounded ∧
        depth + Value.heightEntries entries ≤ maxActionHashNestingDepth := by
  have below : depth + Value.heightEntries entries ≤ maxActionHashNestingDepth ↔
      depth ≤ maxActionHashNestingDepth ∧
        ∀ e ∈ entries, depth + 1 + e.2.height ≤ maxActionHashNestingDepth := by
    constructor
    · intro total
      have inner := Value.heightEntries_le.1 (show Value.heightEntries entries ≤
        maxActionHashNestingDepth - depth by omega)
      exact ⟨by omega, fun e member => by have := inner e member; omega⟩
    · rintro ⟨shallow, inner⟩
      have := Value.heightEntries_le.2 fun e member =>
        (show e.2.height + 1 ≤ maxActionHashNestingDepth - depth by have := inner e member; omega)
      omega
  rw [below, Value.Bounded, Value.boundedEntries_iff, Value.Keyed, List.nil_append]
  constructor
  · rintro ⟨shallow, count, families, _, ⟨keys, apart⟩, each, _⟩
    exact ⟨⟨count, ⟨fun k member => ⟨(keys k member).2, families k member⟩, apart⟩,
      fun e member => (each e member).1⟩, shallow, fun e member => (each e member).2⟩
  · rintro ⟨⟨count, ⟨keys, apart⟩, bounded⟩, shallow, inner⟩
    refine ⟨shallow, count, fun k member => (keys k member).2, trivial,
      ⟨fun k member => ⟨?_, (keys k member).1⟩, apart⟩,
      fun e member => ⟨bounded e member, inner e member⟩, trivial⟩
    obtain ⟨e, listed, rfl⟩ := List.mem_map.1 member
    have := inner e listed
    omega

private theorem charges_visit (v : Value) : ChargesVisit v := by
  intro depth
  have claim := charges_claimNode depth
  induction v using Value.induction_on generalizing depth with
  | member mixed v ih =>
    -- the content stands at the member's own depth, so its height is the member's
    refine (claim.bind fun _ => ih depth claim).congr ?_ ?_
    · simp only [Value.Bounded, Value.height]
      constructor
      · exact fun held => held.2
      · exact fun held => ⟨by omega, held⟩
    · simp [Value.nodes, Value.sortWork, Nat.add_comm]
  | decimal d =>
    refine (claim.bind fun _ => (charges_checked fun b => bounded_ok_iff).bind fun _ =>
      (charges_checked fun b => token_ok_iff).bind fun _ => charges_leaf _ _).congr ?_ ?_
    · simp only [Value.Bounded, Value.height, Nat.add_zero]
      tauto
    · rfl
  | str s =>
    refine (claim.bind fun _ => (charges_checked fun b => scalar_ok_iff).bind fun _ =>
      charges_leaf _ _).congr ?_ ?_
    · simp only [Value.Bounded, Value.height, Nat.add_zero]
      tauto
    · rfl
  | bool b =>
    refine (claim.bind fun _ => charges_leaf _ _).congr ?_ ?_
    · simp only [Value.Bounded, Value.height, Nat.add_zero]
      tauto
    · rfl
  | null =>
    refine (claim.bind fun _ => charges_leaf _ _).congr ?_ ?_
    · simp only [Value.Bounded, Value.height, Nat.add_zero]
      tauto
    · rfl
  | int i =>
    refine (claim.bind fun _ => (charges_checked fun b => integer_ok_iff).bind fun _ =>
      charges_leaf _ _).congr ?_ ?_
    · simp only [Value.Bounded, Value.height, Nat.add_zero]
      tauto
    · rfl
  | float x =>
    refine (claim.bind fun _ => (charges_checked fun b => numberText_ok_iff).bind fun _ =>
      charges_leaf _ _).congr ?_ ?_
    · simp only [Value.Bounded, Value.height, Nat.add_zero]
      tauto
    · rfl
  | nonFinite =>
    refine (claim.bind fun _ => refuse_charges).congr ?_ ?_
    · simp [Value.Bounded]
    · rfl
  | foreign =>
    refine (claim.bind fun _ => refuse_charges).congr ?_ ?_
    · simp [Value.Bounded]
    · rfl
  | list items ih =>
    have rest := Charges.bind (f := fun ws => (pure (.list ws) : Traversal Value))
      (charges_visitItems (fun v member d => ih v member d (charges_claimNode d)) (depth + 1) 0)
      fun _ => Charges.pure _
    refine (claim.bind fun _ => (charges_consume 2).bind fun _ => rest).congr sequence_admissible ?_
    simp [Value.nodes, Value.sortWork]
  | tuple items ih =>
    have rest := Charges.bind (f := fun ws => (pure (.tuple ws) : Traversal Value))
      (charges_visitItems (fun v member d => ih v member d (charges_claimNode d)) (depth + 1) 0)
      fun _ => Charges.pure _
    refine (claim.bind fun _ => (charges_consume 2).bind fun _ => rest).congr sequence_admissible ?_
    simp [Value.nodes, Value.sortWork]
  | dict entries ih =>
    have values (keys : List Key) := Charges.bind
      (f := fun ws => (pure (.dict ((keys.map Key.toValue).zip ws)) : Traversal Value))
      (charges_visitValues (fun e member d => (ih e member).2 d (charges_claimNode d)) (depth + 1) 0)
      fun _ => Charges.pure _
    -- the keys are visited before any value, and only when their families agree
    have keys (families : ∀ k ∈ entries.map (·.1), k.family? ≠ none ∧
        ∀ k' ∈ entries.map (·.1), k'.family? = k.family?) :=
      Charges.bind (f := fun keys => (do
          let values ← visitValues (snapshotLimits none) (depth + 1) 0 entries
          pure (.dict ((keys.map Key.toValue).zip values)) : Traversal Value))
        (charges_visitKeys (depth + 1) (sortRounds entries.length) []
          (fun k member => (families k member).1) List.Pairwise.nil) fun _ => values _
    rw [Value.snapshot, ← zip_snapshot]
    refine (claim.bind fun _ => (charges_checked fun b => count_ok_iff).bind fun _ =>
      (charges_checked fun b => families_ok_iff).bind fun families =>
        (charges_consume 2).bind fun _ => keys families).congr mapping_admissible ?_
    simp only [Value.nodes, Value.sortWork, Value.nodesEntries_eq, List.map_map, Function.comp_def,
      Prod.mk_add_mk, add_zero, zero_add]

/-- The traversal accepts exactly the admissible values, and returns their copies. -/
theorem unlimited_ok_iff {v snapshot : Value} :
    validateActionHashStructure (snapshotLimits none) v = .ok snapshot ↔
      v.Admissible ∧ snapshot = v.snapshot := by
  have start : Usage.work ⟨0, 0, 0⟩ ≤ workLimit := ⟨Nat.zero_le _, Nat.zero_le _⟩
  have zero : Usage.work ⟨0, 0, 0⟩ = 0 := rfl
  obtain ⟨sound, complete⟩ := charges_visit v 0 ⟨0, 0, 0⟩ start
  unfold validateActionHashStructure
  constructor
  · intro accepted
    cases run : visit (snapshotLimits none) 0 v ⟨0, 0, 0⟩ with
    | error e =>
      rw [run] at accepted
      cases accepted
    | ok result =>
      rw [run] at accepted
      cases accepted
      obtain ⟨⟨bounded, shallow⟩, copy, cost, within⟩ := sound _ _ run
      rw [cost, zero, zero_add] at within
      exact ⟨⟨bounded, by omega, within.1, within.2⟩, copy⟩
  · rintro ⟨admissible, rfl⟩
    obtain ⟨t, run⟩ := complete ⟨admissible.bounded, by have := admissible.height; omega⟩
      (by rw [zero, zero_add]; exact ⟨admissible.nodes, admissible.sortWork⟩)
    rw [run]
    rfl

/-- Under a ceiling on bytes, the canonical text must also fit. -/
theorem validate_ok_iff {c : Ceiling} {v snapshot : Value} :
    validateActionHashStructure (snapshotLimits c) v = .ok snapshot ↔
      v.Admissible ∧ c.admits (v.written canonicalText).text.length = true ∧ snapshot = v.snapshot := by
  rw [validated, unlimited_ok_iff]
  tauto

/-! ### The document of a copy -/

namespace Value

/-- A bounded key of a known family is written as its copy. -/
theorem BoundedKey.key {k : Value} (bounded : k.BoundedKey) (known : k.family? ≠ none) :
    k.key? = some k.keyCopy := by
  induction k using Value.induction_on with
  | member mixed v ih =>
    cases mixed with
    | false => exact absurd rfl known
    | true => exact ih bounded known
  | int i =>
    have digits : (Nat.toDigits 10 i.natAbs).length ≤ maxActionHashNumberCharacters := by
      have length := ofInt_length i
      simp only [BoundedKey] at bounded
      omega
    exact if_neg (short_integer digits)
  | null => rfl
  | bool b => rfl
  | float x => rfl
  | str s => rfl
  | nonFinite => exact bounded.elim
  | decimal d => exact absurd rfl known
  | list items ih => exact absurd rfl known
  | tuple items ih => exact absurd rfl known
  | dict entries ih => exact absurd rfl known
  | foreign => exact absurd rfl known

private theorem written_copies {entries : List Entry} (money : Decimal → PlainDecimal)
    (keys : ∀ e ∈ entries, e.1.key? = some e.1.keyCopy)
    (each : ∀ e ∈ entries, e.2.snapshot.written money = e.2.written canonicalText) :
    writtenEntries money (snapshotEntries entries) = writtenEntries canonicalText entries := by
  induction entries with
  | nil => rfl
  | cons e es ih =>
    obtain ⟨k, v⟩ := e
    have key := keys (k, v) (by simp)
    rw [snapshotEntries, writtenEntries, writtenEntries, each (k, v) (by simp),
      ih (fun e member => keys e (by simp [member])) fun e member => each e (by simp [member]),
      toValue_key key, key]

private theorem written_items {items : List Value} (money : Decimal → PlainDecimal)
    (each : ∀ v ∈ items, v.snapshot.written money = v.written canonicalText) :
    writtenItems money (snapshotItems items) = writtenItems canonicalText items := by
  induction items with
  | nil => rfl
  | cons v vs ih =>
    rw [snapshotItems, writtenItems, writtenItems, each v (by simp),
      ih fun w member => each w (by simp [member])]

/-- The copy has the document of the original, whatever text amounts would get. -/
theorem Bounded.written_snapshot {v : Value} (bounded : v.Bounded)
    (money : Decimal → PlainDecimal) : v.snapshot.written money = v.written canonicalText := by
  induction v using Value.induction_on with
  | member mixed v ih => exact ih bounded
  | list items ih =>
    have each := written_items money fun v member => ih v member (boundedItems_iff.1 bounded v member)
    rw [snapshot, written, written, each]
  | tuple items ih =>
    have each := written_items money fun v member => ih v member (boundedItems_iff.1 bounded v member)
    rw [snapshot, written, written, each]
  | dict entries ih =>
    obtain ⟨_, keyed, values⟩ := bounded
    have keys : ∀ e ∈ entries, e.1.key? = some e.1.keyCopy := by
      intro e member
      obtain ⟨own, known, _⟩ := keyed.1 e.1 (List.mem_map_of_mem member)
      exact own.key known
    have each := written_copies money keys fun e member =>
      (ih e member).2 (boundedEntries_iff.1 values e member)
    rw [snapshot, written, written, each]
  | null => rfl
  | bool b => rfl
  | int i => rfl
  | float x => rfl
  | str s => rfl
  | decimal d => rfl
  | nonFinite => rfl
  | foreign => exact bounded.elim

end Value

/-! ### The two hashing entries -/

/-- An accepted value, hashed under a ceiling on its canonical bytes. -/
structure Hashable (n : Nat) (v : Value) : Prop where
  admissible : v.Admissible
  bytes : (v.written canonicalText).text.length ≤ n

/-- The digest of the canonical text of a value. -/
def digest (sha : TextHash) (v : Value) : String := "sha256:" ++ sha (v.written canonicalText).text

private theorem hash_ok_iff (sha : TextHash) (chunking : Chunking) {v snapshot : Value} {n : Nat}
    {d : String} :
    (do
      let snapshot ← validateActionHashStructure (snapshotLimits (some n)) v
      let text ← hashedText chunking snapshot n
      pure (snapshot, "sha256:" ++ sha text)) = Except.ok (snapshot, d) ↔
      Hashable n v ∧ snapshot = v.snapshot ∧ d = digest sha v := by
  simp only [bind_ok_iff, validate_ok_iff, pure_ok_iff, Prod.mk.injEq, Ceiling.admits,
    decide_eq_true_eq]
  have hashed (admissible : v.Admissible) (fits : (v.written canonicalText).text.length ≤ n) :
      hashedText chunking v.snapshot n = .ok (v.written canonicalText).text := by
    have copied := inside_encoded (unlimited_ok_iff.2 ⟨admissible, rfl⟩)
    exact hashedText_fits copied.2 (by rw [text_bytes]; exact fits)
  constructor
  · rintro ⟨_, ⟨admissible, fits, rfl⟩, text, found, rfl, rfl⟩
    rw [hashed admissible fits, Except.ok.injEq] at found
    subst found
    exact ⟨⟨admissible, fits⟩, rfl, rfl⟩
  · rintro ⟨⟨admissible, fits⟩, rfl, rfl⟩
    exact ⟨_, ⟨admissible, fits, rfl⟩, _, hashed admissible fits, rfl, rfl⟩

theorem actionSnapshot_ok_iff {sha : TextHash} {chunking : Chunking} {v snapshot : Value}
    {d : String} : actionSnapshotAndSha256Of sha chunking v = .ok (snapshot, d) ↔
      Hashable maxActionHashCanonicalBytes v ∧ snapshot = v.snapshot ∧ d = digest sha v :=
  hash_ok_iff sha chunking

theorem actionSha256Of_ok_iff {sha : TextHash} {chunking : Chunking} {v : Value} {d : String} :
    actionSha256Of sha chunking v = .ok d ↔
      Hashable maxActionHashCanonicalBytes v ∧ d = digest sha v := by
  unfold actionSha256Of
  cases result : actionSnapshotAndSha256Of sha chunking v with
  | error e =>
    have refused : ¬ Hashable maxActionHashCanonicalBytes v := by
      intro hashable
      rw [actionSnapshot_ok_iff.2 ⟨hashable, rfl, rfl⟩] at result
      cases result
    simp [Except.map, refused]
  | ok both =>
    obtain ⟨snapshot, d'⟩ := both
    obtain ⟨hashable, _, rfl⟩ := actionSnapshot_ok_iff.1 result
    simp [Except.map, hashable, eq_comm]

/-- Authority material under a ceiling that is in range. -/
theorem authoritySnapshot_ok_iff {sha : TextHash} {chunking : Chunking} {v snapshot : Value}
    {d : String} {n : Nat} (positive : 1 ≤ n) (below : n ≤ maxActionHashCanonicalBytes) :
    authoritySnapshotAndSha256Of sha chunking v (some n) = .ok (snapshot, d) ↔
      Hashable n v ∧ snapshot = v.snapshot ∧ d = digest sha v := by
  have limits : authoritySnapshotLimits (some n) = .ok (snapshotLimits (some n)) := by
    rw [authoritySnapshotLimits, refuseIf_of_not (by omega)]
    rfl
  rw [← hash_ok_iff sha chunking, authoritySnapshotAndSha256Of, limits,
    ok_bind]
  simp only [snapshotLimits, Option.getD_some]
  generalize (do
    let snapshot ← validateActionHashStructure _ v
    let text ← hashedText chunking snapshot n
    pure (snapshot, "sha256:" ++ sha text) : Except HashFault (Value × String)) = result
  cases result <;> simp [Except.mapError]

end DefiantHarness
