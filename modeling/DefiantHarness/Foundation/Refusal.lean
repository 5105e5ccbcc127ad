import Mathlib.Data.List.Forall2
import Mathlib.Order.Basic

/-! Computations that refuse: guards, lookups that must succeed, and their inversion rules. -/
namespace Foundation

variable {ε α β : Type}

/-- Raise `e` when the condition holds. -/
def refuseIf (condition : Prop) [Decidable condition] (e : ε) : Except ε Unit :=
  if condition then .error e else .ok ()

/-- Raise `e` when there is no value. -/
def orRefuse (value : Option α) (e : ε) : Except ε α :=
  match value with
  | some a => .ok a
  | none => .error e

/-- Raise `e` when any element fails its check, in order. -/
def checkAll (check : α → Except ε Unit) : List α → Except ε Unit
  | [] => .ok ()
  | a :: as => check a >>= fun _ => checkAll check as

@[simp] theorem ok_bind (a : α) (f : α → Except ε β) : (Except.ok a >>= f) = f a := rfl

@[simp] theorem error_bind (e : ε) (f : α → Except ε β) : (Except.error e >>= f) = .error e := rfl

@[simp] theorem pure_eq_ok (a : α) : (pure a : Except ε α) = .ok a := rfl

@[simp] theorem throw_eq_error (e : ε) : (throw e : Except ε α) = .error e := rfl

theorem pure_ok_iff {a b : α} : (pure a : Except ε α) = .ok b ↔ b = a := by
  rw [pure_eq_ok, Except.ok.injEq, eq_comm]

theorem bind_ok_iff {x : Except ε α} {f : α → Except ε β} {b : β} :
    x >>= f = .ok b ↔ ∃ a, x = .ok a ∧ f a = .ok b := by
  cases x with
  | ok a => simp
  | error e => simp

theorem map_ok_iff {x : Except ε α} {f : α → β} {b : β} :
    x.map f = .ok b ↔ ∃ a, x = .ok a ∧ f a = b := by
  cases x <;> simp [Except.map]

theorem mapError_ok_iff {ε' : Type} {x : Except ε α} {f : ε → ε'} {a : α} :
    x.mapError f = .ok a ↔ x = .ok a := by
  cases x <;> simp [Except.mapError]

theorem unit_bind_ok_iff {x : Except ε Unit} {f : Unit → Except ε β} {b : β} :
    x >>= f = .ok b ↔ x = .ok () ∧ f () = .ok b := by
  cases x <;> simp

@[simp] theorem refuseIf_ok_iff {condition : Prop} [Decidable condition] {e : ε} {u : Unit} :
    refuseIf condition e = .ok u ↔ ¬ condition := by
  unfold refuseIf
  split <;> simp [*]

@[simp] theorem refuseIf_bind_ok_iff {condition : Prop} [Decidable condition] {e : ε}
    {f : Unit → Except ε β} {b : β} :
    refuseIf condition e >>= f = .ok b ↔ ¬ condition ∧ f () = .ok b := by
  unfold refuseIf
  split <;> simp [*]

theorem refuseIf_or {P Q : Prop} [Decidable P] [Decidable Q] (e : ε) :
    refuseIf (P ∨ Q) e = (refuseIf P e >>= fun _ => refuseIf Q e) := by
  by_cases first : P <;> simp [refuseIf, first]

theorem refuseIf_of {condition : Prop} [Decidable condition] {e : ε} (holds : condition) :
    refuseIf condition e = .error e :=
  if_pos holds

theorem refuseIf_of_not {condition : Prop} [Decidable condition] {e : ε} (passes : ¬ condition) :
    refuseIf condition e = .ok () :=
  refuseIf_ok_iff.2 passes

@[simp] theorem orRefuse_ok_iff {value : Option α} {e : ε} {a : α} :
    orRefuse value e = .ok a ↔ value = some a := by
  cases value <;> simp [orRefuse]

@[simp] theorem orRefuse_bind_ok_iff {value : Option α} {e : ε} {f : α → Except ε β} {b : β} :
    orRefuse value e >>= f = .ok b ↔ ∃ a, value = some a ∧ f a = .ok b := by
  simp [bind_ok_iff]

@[simp] theorem checkAll_ok_iff {check : α → Except ε Unit} {as : List α} {u : Unit} :
    checkAll check as = .ok u ↔ ∀ a ∈ as, check a = .ok () := by
  induction as with
  | nil => simp [checkAll]
  | cons a as ih =>
    cases head : check a with
    | ok u => simp [checkAll, head, ih]
    | error e => simp [checkAll, head]

/-- The results of a computation for each element, in order. -/
theorem mapM_ok_iff {f : α → Except ε β} {as : List α} {bs : List β} :
    as.mapM f = .ok bs ↔ List.Forall₂ (fun a b => f a = .ok b) as bs := by
  induction as generalizing bs with
  | nil => rw [List.mapM_nil, pure_ok_iff, List.forall₂_nil_left_iff]
  | cons a as ih =>
    simp only [List.mapM_cons, bind_ok_iff, pure_ok_iff, List.forall₂_cons_left_iff, ih]
    constructor
    · rintro ⟨b, head, bs, rest, rfl⟩
      exact ⟨b, bs, head, rest, rfl⟩
    · rintro ⟨b, bs, head, rest, rfl⟩
      exact ⟨b, head, bs, rest, rfl⟩

end Foundation
