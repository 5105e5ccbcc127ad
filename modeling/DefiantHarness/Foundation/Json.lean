import Mathlib.Logic.Basic

/-! JSON values, with numbers kept as the text that the encoder writes. -/
namespace Foundation

inductive Json where
  | null
  | bool (value : Bool)
  | number (text : String)
  | str (text : String)
  | arr (items : List Json)
  | obj (fields : List (String × Json))

namespace Json

mutual

/-- Structural equality; fields are compared in order. -/
def beq : Json → Json → Bool
  | .null, .null => true
  | .bool a, .bool b => a == b
  | .number a, .number b => a == b
  | .str a, .str b => a == b
  | .arr as, .arr bs => beqItems as bs
  | .obj as, .obj bs => beqFields as bs
  | _, _ => false

def beqItems : List Json → List Json → Bool
  | [], [] => true
  | a :: as, b :: bs => beq a b && beqItems as bs
  | _, _ => false

def beqFields : List (String × Json) → List (String × Json) → Bool
  | [], [] => true
  | (k, a) :: as, (l, b) :: bs => k == l && beq a b && beqFields as bs
  | _, _ => false

end

mutual

theorem eq_of_beq : (a b : Json) → beq a b = true → a = b
  | .null, b, equal => by cases b <;> simp [beq] at equal ⊢
  | .bool a, b, equal => by cases b <;> simp [beq] at equal ⊢; exact equal
  | .number a, b, equal => by cases b <;> simp [beq] at equal ⊢; exact equal
  | .str a, b, equal => by cases b <;> simp [beq] at equal ⊢; exact equal
  | .arr as, b, equal => by
    cases b <;> simp [beq] at equal ⊢
    exact items_eq_of_beq as _ equal
  | .obj as, b, equal => by
    cases b <;> simp [beq] at equal ⊢
    exact fields_eq_of_beq as _ equal

theorem items_eq_of_beq : (as bs : List Json) → beqItems as bs = true → as = bs
  | [], bs, equal => by cases bs <;> simp [beqItems] at equal ⊢
  | a :: as, bs, equal => by
    cases bs with
    | nil => simp [beqItems] at equal
    | cons b bs =>
      simp only [beqItems, Bool.and_eq_true] at equal
      rw [eq_of_beq a b equal.1, items_eq_of_beq as bs equal.2]

theorem fields_eq_of_beq : (as bs : List (String × Json)) → beqFields as bs = true → as = bs
  | [], bs, equal => by cases bs <;> simp [beqFields] at equal ⊢
  | (k, a) :: as, bs, equal => by
    cases bs with
    | nil => simp [beqFields] at equal
    | cons b bs =>
      simp only [beqFields, Bool.and_eq_true, beq_iff_eq] at equal
      obtain ⟨⟨key, head⟩, tail⟩ := equal
      rw [key, eq_of_beq a b.2 head, fields_eq_of_beq as bs tail]

end

mutual

theorem beq_refl : (a : Json) → beq a a = true
  | .null => rfl
  | .bool _ => by simp [beq]
  | .number _ => by simp [beq]
  | .str _ => by simp [beq]
  | .arr as => by simpa [beq] using items_beq_refl as
  | .obj as => by simpa [beq] using fields_beq_refl as

theorem items_beq_refl : (as : List Json) → beqItems as as = true
  | [] => rfl
  | a :: as => by simp [beqItems, beq_refl a, items_beq_refl as]

theorem fields_beq_refl : (as : List (String × Json)) → beqFields as as = true
  | [] => rfl
  | (_, a) :: as => by simp [beqFields, beq_refl a, fields_beq_refl as]

end

instance : DecidableEq Json := fun a b =>
  if equal : beq a b then .isTrue (eq_of_beq a b equal)
  else .isFalse fun same => equal (same ▸ beq_refl a)

end Json
end Foundation
