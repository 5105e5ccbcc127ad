import DefiantHarness.Foundation.Refusal
import Mathlib.Logic.Relation

/-! Procedures over a state that survives what they raise, and rules for reasoning about them. -/
namespace Foundation

/-- A procedure: it ends with an answer or by raising, and leaves a state in both cases. -/
def Proc (σ ε α : Type) : Type := σ → Except ε α × σ

namespace Proc

variable {σ ε α β : Type}

def andThen (p : Proc σ ε α) (f : α → Proc σ ε β) : Proc σ ε β := fun s =>
  match p s with
  | (.ok a, t) => f a t
  | (.error e, t) => (.error e, t)

instance : Monad (Proc σ ε) where
  pure a := fun s => (.ok a, s)
  bind := andThen

/-- A pure computation that may raise. -/
def lift (x : Except ε α) : Proc σ ε α := fun s => (x, s)

def raise (e : ε) : Proc σ ε α := lift (.error e)

def get : Proc σ ε σ := fun s => (.ok s, s)

def set (t : σ) : Proc σ ε Unit := fun _ => (.ok (), t)

/-- Run a procedure on every element, in order. -/
def each (f : β → Proc σ ε α) : List β → Proc σ ε (List α)
  | [] => pure []
  | b :: bs => do
    let a ← f b
    let rest ← each f bs
    pure (a :: rest)

/-- From `s`, a normal end satisfies `Q` and a raise satisfies `E`. -/
def Ends (p : Proc σ ε α) (Q : α → σ → Prop) (E : ε → σ → Prop) (s : σ) : Prop :=
  match p s with
  | (.ok a, t) => Q a t
  | (.error e, t) => E e t

variable {Q : α → σ → Prop} {E : ε → σ → Prop} {s t : σ}

instance [∀ a t, Decidable (Q a t)] [∀ e t, Decidable (E e t)] (p : Proc σ ε α) :
    Decidable (p.Ends Q E s) :=
  match run : p s with
  | (.ok a, t) => decidable_of_iff (Q a t) (by rw [Ends, run])
  | (.error e, t) => decidable_of_iff (E e t) (by rw [Ends, run])

theorem ends_iff {p : Proc σ ε α} :
    p.Ends Q E s ↔ (∀ a t, p s = (.ok a, t) → Q a t) ∧ ∀ e t, p s = (.error e, t) → E e t := by
  unfold Ends
  rcases p s with ⟨answer, t⟩
  cases answer <;> simp

theorem Ends.ok {p : Proc σ ε α} (ends : p.Ends Q E s) {a : α} (run : p s = (.ok a, t)) : Q a t :=
  (ends_iff.1 ends).1 a t run

theorem Ends.error {p : Proc σ ε α} (ends : p.Ends Q E s) {e : ε} (run : p s = (.error e, t)) :
    E e t :=
  (ends_iff.1 ends).2 e t run

/-- A run that is known ends in one way. -/
theorem ends_of_ok {p : Proc σ ε α} {a : α} (run : p s = (.ok a, t)) : p.Ends Q E s ↔ Q a t := by
  rw [Ends, run]

theorem ends_of_error {p : Proc σ ε α} {e : ε} (run : p s = (.error e, t)) : p.Ends Q E s ↔ E e t := by
  rw [Ends, run]

@[simp] theorem ends_pure {a : α} : (pure a : Proc σ ε α).Ends Q E s ↔ Q a s := Iff.rfl

@[simp] theorem ends_raise {e : ε} : (raise e : Proc σ ε α).Ends Q E s ↔ E e s := Iff.rfl

@[simp] theorem ends_get {Q : σ → σ → Prop} : (get : Proc σ ε σ).Ends Q E s ↔ Q s s := Iff.rfl

@[simp] theorem ends_set {Q : Unit → σ → Prop} : (set t : Proc σ ε Unit).Ends Q E s ↔ Q () t :=
  Iff.rfl

theorem ends_lift {x : Except ε α} :
    (lift x : Proc σ ε α).Ends Q E s ↔ (∀ a, x = .ok a → Q a s) ∧ ∀ e, x = .error e → E e s := by
  cases x <;> simp [Ends, lift]

@[simp] theorem ends_lift_ok {a : α} : (lift (.ok a) : Proc σ ε α).Ends Q E s ↔ Q a s := Iff.rfl

@[simp] theorem ends_lift_error {e : ε} :
    (lift (.error e) : Proc σ ε α).Ends Q E s ↔ E e s := Iff.rfl

@[simp] theorem ends_bind {p : Proc σ ε α} {f : α → Proc σ ε β} {Q : β → σ → Prop} :
    (p >>= f).Ends Q E s ↔ p.Ends (fun a t => (f a).Ends Q E t) E s := by
  change (andThen p f).Ends Q E s ↔ _
  unfold Ends andThen
  rcases p s with ⟨answer, t⟩
  cases answer <;> rfl

/-- Weaken what holds at the end. -/
theorem Ends.mono {p : Proc σ ε α} {Q' : α → σ → Prop} {E' : ε → σ → Prop} (ends : p.Ends Q E s)
    (normal : ∀ a t, Q a t → Q' a t) (raised : ∀ e t, E e t → E' e t) : p.Ends Q' E' s := by
  rw [ends_iff] at ends ⊢
  exact ⟨fun a t run => normal a t (ends.1 a t run), fun e t run => raised e t (ends.2 e t run)⟩

theorem Ends.and {p : Proc σ ε α} {Q' : α → σ → Prop} {E' : ε → σ → Prop} (left : p.Ends Q E s)
    (right : p.Ends Q' E' s) :
    p.Ends (fun a t => Q a t ∧ Q' a t) (fun e t => E e t ∧ E' e t) s := by
  rw [ends_iff] at left right ⊢
  exact ⟨fun a t run => ⟨left.1 a t run, right.1 a t run⟩,
    fun e t run => ⟨left.2 e t run, right.2 e t run⟩⟩

theorem ends_ite {condition : Prop} [Decidable condition] {p q : Proc σ ε α} :
    (if condition then p else q).Ends Q E s ↔
      (condition → p.Ends Q E s) ∧ (¬ condition → q.Ends Q E s) := by
  split <;> simp [*]

/-- A loop rule: `I` says what holds before the remaining elements are visited. -/
theorem ends_each {f : β → Proc σ ε α} {I : List β → σ → Prop} {E : ε → σ → Prop}
    (visit : ∀ b bs s, I (b :: bs) s → (f b).Ends (fun _ t => I bs t) E s) (bs : List β) {s : σ}
    (holds : I bs s) : (each f bs).Ends (fun _ t => I [] t) E s := by
  induction bs generalizing s with
  | nil => exact holds
  | cons b bs ih =>
    simp only [each, ends_bind, ends_pure]
    exact (visit b bs s holds).mono (fun _ _ next => ih next) (fun _ _ raised => raised)

-- From here on only these rules open it: a goal about a run is not to be evaluated by unification.
attribute [irreducible] Ends

end Proc
end Foundation
