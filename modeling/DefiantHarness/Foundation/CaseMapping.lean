import Mathlib.Data.List.Infix
import DefiantHarness.Foundation.CodePoint

/-! Lower case of whole texts: every code point has a mapping of its own except the capital sigma,
which becomes a final sigma at the end of a word. -/
namespace Foundation

def capitalSigma : CodePoint := ⟨0x3A3, by decide⟩
def finalSigma : CodePoint := ⟨0x3C2, by decide⟩
def smallSigma : CodePoint := ⟨0x3C3, by decide⟩

/-- The first code point that is not ignored has case; `none` if all are ignored. -/
def firstCase (ignorable cased : CodePoint → Bool) (s : Points) : Option Bool :=
  (s.find? fun c => !ignorable c).map cased

/-- The tables behind lower case. -/
structure CaseTable where
  lowerPoint : CodePoint → Points
  ignorable : CodePoint → Bool
  cased : CodePoint → Bool
  nonempty : ∀ c, lowerPoint c ≠ []
  /-- A lower-case text stays as it is. -/
  settled : ∀ c, ∀ d ∈ lowerPoint c, lowerPoint d = [d] ∧ d ≠ capitalSigma
  small : ∀ c, smallSigma ∈ lowerPoint c → c = smallSigma ∨ c = capitalSigma
  final : ∀ c, finalSigma ∈ lowerPoint c → c = finalSigma
  sigma : lowerPoint capitalSigma = [smallSigma]
  finalStays : lowerPoint finalSigma = [finalSigma]
  letters : ∀ c ∈ [capitalSigma, finalSigma, smallSigma], ignorable c = false ∧ cased c = true
  /-- The lower case of a code point has case, or is ignored, like the code point itself. -/
  kept : ∀ c, firstCase ignorable cased (lowerPoint c) = firstCase ignorable cased [c] ∧
    firstCase ignorable cased (lowerPoint c).reverse = firstCase ignorable cased [c]
  /-- Some letter is a lower-case text by itself. -/
  letter : CodePoint
  letterStays : lowerPoint letter = [letter] ∧ letter ≠ capitalSigma ∧ letter ≠ smallSigma ∧
    letter ≠ finalSigma ∧ ignorable letter = false ∧ cased letter = true

namespace CaseTable

variable (table : CaseTable)

/-- What the next code point that is not ignored is. -/
def next (s : Points) : Option Bool := firstCase table.ignorable table.cased s

/-- A capital sigma between two texts ends a word; the text before it is given backwards. -/
def isFinal (before after : Points) : Bool :=
  table.next before == some true && table.next after != some true

/-- The lower case of a text that stands between two others. -/
def lowerWithin (before : Points) (after : Points) : Points → Points
  | [] => []
  | c :: s =>
    (if c = capitalSigma then [if table.isFinal before (s ++ after) then finalSigma else smallSigma]
      else table.lowerPoint c) ++ lowerWithin (c :: before) after s

/-- `str.lower` -/
def lower (s : Points) : Points := table.lowerWithin [] [] s

/-- No capital sigma of a text can end a word in one place and stand inside a word in another. -/
def Steady (w : Points) : Prop :=
  ∀ a b, (w = a ++ smallSigma :: b → ¬ (table.next a.reverse = none ∧ table.next b ≠ some true)) ∧
    (w = a ++ finalSigma :: b → ¬ (table.next a.reverse = some true ∧ table.next b = none))

end CaseTable

section Next

variable {table : CaseTable}

theorem firstCase_append (ignorable cased : CodePoint → Bool) (s t : Points) :
    firstCase ignorable cased (s ++ t) = (firstCase ignorable cased s).or (firstCase ignorable cased t) := by
  rw [firstCase, List.find?_append, firstCase, firstCase]
  cases s.find? fun c => !ignorable c <;> rfl

namespace CaseTable

theorem next_append (s t : Points) : table.next (s ++ t) = (table.next s).or (table.next t) :=
  firstCase_append _ _ s t

theorem next_cons (c : CodePoint) (s : Points) : table.next (c :: s) = (table.next [c]).or (table.next s) :=
  next_append [c] s

theorem next_sigma {c : CodePoint} (member : c ∈ [capitalSigma, finalSigma, smallSigma]) :
    table.next [c] = some true := by
  obtain ⟨kept, cased⟩ := table.letters c member
  simp [next, firstCase, kept, cased]

theorem lowerWithin_cons (before after : Points) (c : CodePoint) (s : Points) :
    table.lowerWithin before after (c :: s) =
      table.lowerWithin before (s ++ after) [c] ++ table.lowerWithin (c :: before) after s := by
  simp [lowerWithin]

theorem lowerWithin_append (before after s t : Points) :
    table.lowerWithin before after (s ++ t) =
      table.lowerWithin before (t ++ after) s ++ table.lowerWithin (s.reverse ++ before) after t := by
  induction s generalizing before with
  | nil => rfl
  | cons c s ih =>
    rw [List.cons_append, lowerWithin_cons, ih, lowerWithin_cons before (t ++ after) c s]
    simp

theorem lower_between (a u b : Points) : table.lower (a ++ u ++ b) =
    table.lowerWithin [] (u ++ b) a ++ table.lowerWithin a.reverse b u ++
      table.lowerWithin (u.reverse ++ a.reverse) [] b := by
  rw [lower, lowerWithin_append, lowerWithin_append]
  simp

/-- One code point lowers to something with the case that it has. -/
theorem next_lowerWithin_single (before after : Points) (c : CodePoint) :
    table.next (table.lowerWithin before after [c]) = table.next [c] ∧
      table.next (table.lowerWithin before after [c]).reverse = table.next [c] := by
  simp only [lowerWithin, List.append_nil]
  split
  next capital =>
    subst capital
    have upper : table.next [capitalSigma] = some true := next_sigma (by simp)
    have small : table.next [smallSigma] = some true := next_sigma (by simp)
    have final : table.next [finalSigma] = some true := next_sigma (by simp)
    rw [upper]
    split
    · exact ⟨final, final⟩
    · exact ⟨small, small⟩
  next => exact table.kept c

/-- A text has the same case at its beginning as its lower case. -/
theorem next_lowerWithin (before after s : Points) :
    table.next (table.lowerWithin before after s) = table.next s := by
  induction s generalizing before with
  | nil => rfl
  | cons c s ih => rw [lowerWithin_cons, next_append, ih, (next_lowerWithin_single _ _ c).1, ← next_cons]

theorem next_lowerWithin_reverse (before after s : Points) :
    table.next (table.lowerWithin before after s).reverse = table.next s.reverse := by
  induction s generalizing before with
  | nil => rfl
  | cons c s ih =>
    rw [lowerWithin_cons, List.reverse_append, next_append, ih, (next_lowerWithin_single _ _ c).2,
      List.reverse_cons, next_append]

/-- How long a lower case is does not depend on what stands around the text. -/
theorem lowerWithin_length (before after before' after' s : Points) :
    (table.lowerWithin before after s).length = (table.lowerWithin before' after' s).length := by
  induction s generalizing before before' with
  | nil => rfl
  | cons c s ih =>
    simp only [lowerWithin, List.length_append, ih (c :: before) (c :: before')]
    split <;> rfl

theorem length_le_lowerWithin (before after s : Points) :
    s.length ≤ (table.lowerWithin before after s).length := by
  induction s generalizing before with
  | nil => exact Nat.zero_le _
  | cons c s ih =>
    have some : 0 < (table.lowerPoint c).length := List.length_pos_iff.2 (table.nonempty c)
    have rest := ih (c :: before)
    simp only [lowerWithin, List.length_append, List.length_cons]
    split
    · simp only [List.length_singleton]
      omega
    · omega

/-! ### Texts that lower the same everywhere -/

/-- A text whose lower case is steady lowers the same between any other texts. -/
theorem lowerWithin_of_steady {u : Points} (steady : table.Steady (table.lower u)) (before after : Points) :
    table.lowerWithin before after u = table.lower u := by
  have suffix (p s : Points) (split : u = p ++ s) :
      table.lowerWithin (p.reverse ++ before) after s = table.lowerWithin p.reverse [] s := by
    induction s generalizing p with
    | nil => rfl
    | cons c s ih =>
      have rest := ih (p ++ [c]) (by simp [split])
      rw [List.reverse_append, List.reverse_singleton, List.singleton_append, List.cons_append] at rest
      rw [lowerWithin, lowerWithin, rest]
      split
      next capital =>
        -- the sigma ends a word here exactly where it does in the text alone
        have whole : table.lower u = table.lowerWithin [] (c :: s) p ++
            (if table.isFinal p.reverse s then finalSigma else smallSigma) ::
              table.lowerWithin (c :: p.reverse) [] s := by
          rw [lower, split, lowerWithin_append, lowerWithin, if_pos capital]
          simp
        obtain ⟨small, final⟩ := steady (table.lowerWithin [] (c :: s) p)
          (table.lowerWithin (c :: p.reverse) [] s)
        rw [next_lowerWithin, next_lowerWithin_reverse, whole] at small final
        congr 3
        rw [List.append_nil, isFinal, isFinal, next_append, next_append]
        rw [isFinal] at small final
        rcases ahead : table.next p.reverse with _ | _ | _ <;> rcases behind : table.next s with _ | _ | _ <;>
          simp_all
      next => rfl
  exact suffix [] u rfl

/-- Code points that are their own lower case. -/
def Settled (table : CaseTable) (s : Points) : Prop := ∀ c ∈ s, table.lowerPoint c = [c] ∧ c ≠ capitalSigma

theorem settled_lowerWithin (before after s : Points) : table.Settled (table.lowerWithin before after s) := by
  induction s generalizing before with
  | nil => intro c member; cases member
  | cons c s ih =>
    intro d member
    rw [lowerWithin, List.mem_append] at member
    rcases member with own | rest
    · split at own
      · rw [List.mem_singleton] at own
        subst own
        split
        · exact ⟨table.finalStays, by decide⟩
        · exact table.settled capitalSigma _ (by rw [table.sigma]; exact List.mem_singleton_self _)
      · exact table.settled c d own
    · exact ih (c :: before) d rest

theorem lowerWithin_settled {s : Points} (settled : table.Settled s) (before after : Points) :
    table.lowerWithin before after s = s := by
  induction s generalizing before with
  | nil => rfl
  | cons c s ih =>
    obtain ⟨stays, lower⟩ := settled c List.mem_cons_self
    rw [lowerWithin, if_neg lower, stays, ih fun d member => settled d (List.mem_cons_of_mem _ member)]
    rfl

theorem lowerWithin_sigma {a b : Points} (left : table.Settled a) (right : table.Settled b)
    (before after : Points) : table.lowerWithin before after (a ++ capitalSigma :: b) =
      a ++ (if table.isFinal (a.reverse ++ before) (b ++ after) then finalSigma else smallSigma) :: b := by
  rw [lowerWithin_append, lowerWithin_settled left, lowerWithin, if_pos rfl, lowerWithin_settled right]
  rfl

/-- A lower case that is not steady is lost in some text one letter longer. -/
theorem lost_of_not_steady {t : Points} (changes : ¬ table.Steady (table.lower t)) :
    ∃ a u b, a.length + b.length = 1 ∧ u.length = (table.lower t).length ∧ table.lower u = table.lower t ∧
      (table.lower (a ++ u ++ b)).length = (table.lower t).length + 1 ∧
        ¬ table.lower t <:+: table.lower (a ++ u ++ b) := by
  obtain ⟨letterStays, notCapital, notSmall, notFinal, kept, cased⟩ := table.letterStays
  have settled := table.settled_lowerWithin [] [] t
  have letter : table.next [table.letter] = some true := by simp [next, firstCase, kept, cased]
  have alone : table.Settled [table.letter] := by
    intro c member
    rw [List.mem_singleton] at member
    rw [member]
    exact ⟨letterStays, notCapital⟩
  rw [← lower] at settled
  simp only [Steady, not_forall, not_and_or, not_or, not_not, ne_eq] at changes
  obtain ⟨a, b, ⟨whole, nothing, uncased⟩ | ⟨whole, cased', nothing⟩⟩ := changes
  all_goals
    rw [whole] at settled
    have left : table.Settled a := fun c member => settled c (List.mem_append_left _ member)
    have right : table.Settled b := fun c member =>
      settled c (List.mem_append_right _ (List.mem_cons_of_mem _ member))
  · -- a letter before the capital sigma makes it end a word
    have own : table.lower (a ++ capitalSigma :: b) = table.lower t := by
      rw [lower, lowerWithin_sigma left right, List.append_nil, List.append_nil, isFinal, nothing, whole]
      rfl
    have moved : table.lower ([table.letter] ++ (a ++ capitalSigma :: b) ++ []) =
        table.letter :: (a ++ finalSigma :: b) := by
      rw [lower, List.append_nil, lowerWithin_append, lowerWithin_settled alone, lowerWithin_sigma left right,
        isFinal, next_append, nothing, List.append_nil, List.append_nil, List.reverse_singleton, letter]
      simp [uncased]
    refine ⟨[table.letter], a ++ capitalSigma :: b, [], rfl, by simp [whole], own, ?_, fun found => ?_⟩
    · rw [moved, whole]
      simp
    · rw [moved, whole] at found
      have fewer := found.sublist.count_le smallSigma
      simp only [List.count_cons, List.count_append, beq_self_eq_true, ↓reduceIte, beq_iff_eq, notSmall,
        show finalSigma ≠ smallSigma by decide] at fewer
      omega
  · -- a letter after it makes it stand inside one
    have own : table.lower (a ++ capitalSigma :: b) = table.lower t := by
      rw [lower, lowerWithin_sigma left right, List.append_nil, List.append_nil, isFinal, nothing, cased', whole]
      rfl
    have moved : table.lower ([] ++ (a ++ capitalSigma :: b) ++ [table.letter]) =
        (a ++ smallSigma :: b) ++ [table.letter] := by
      have inside : table.next (b ++ ([table.letter] ++ [])) = some true := by
        rw [List.append_nil, next_append, nothing, letter]
        rfl
      rw [lower, List.nil_append, lowerWithin_append, lowerWithin_settled alone, lowerWithin_sigma left right,
        isFinal, inside]
      simp
    refine ⟨[], a ++ capitalSigma :: b, [table.letter], rfl, by simp [whole], own, ?_, fun found => ?_⟩
    · rw [moved, whole]
      simp
      omega
    · rw [moved, whole] at found
      have fewer := found.sublist.count_le finalSigma
      simp only [List.count_cons, List.count_append, List.count_nil, beq_self_eq_true, ↓reduceIte, beq_iff_eq,
        notFinal, show smallSigma ≠ finalSigma by decide] at fewer
      omega

end CaseTable
end Next
end Foundation
