import Mathlib.Algebra.Order.Monoid.Canonical.Defs
import DefiantHarness.Foundation.Refusal

/-! Computations that count a resource against a ceiling. -/
namespace Foundation

/-- The most that may be used; `none` is no limit. -/
abbrev Ceiling := Option Nat

namespace Ceiling

def admits : Ceiling → Nat → Bool
  | none, _ => true
  | some limit, n => n ≤ limit

theorem admits_mono {c : Ceiling} {m n : Nat} (below : m ≤ n) (admitted : c.admits n = true) :
    c.admits m = true := by
  cases c with
  | none => rfl
  | some limit =>
    simp only [admits, decide_eq_true_eq] at admitted ⊢
    omega

@[simp] theorem admits_none (n : Nat) : admits none n = true := rfl

end Ceiling

variable {ε σ α β : Type}

/-- Runs of a state computation that return. -/
theorem state_bind_ok_iff {m : StateT σ (Except ε) α} {f : α → StateT σ (Except ε) β} {s t : σ}
    {b : β} : (m >>= f) s = .ok (b, t) ↔ ∃ a u, m s = .ok (a, u) ∧ f a u = .ok (b, t) := by
  have unfolded : (m >>= f) s = m s >>= fun p => f p.1 p.2 := rfl
  rw [unfolded, bind_ok_iff]
  constructor
  · rintro ⟨⟨a, u⟩, first, rest⟩
    exact ⟨a, u, first, rest⟩
  · rintro ⟨a, u, first, rest⟩
    exact ⟨(a, u), first, rest⟩

/-- Lowering the ceiling of a computation refuses the runs that use more, and changes no other. -/
structure Metered (used : σ → Nat) (m : Ceiling → StateT σ (Except ε) α) : Prop where
  grows : ∀ {s t a}, m none s = .ok (a, t) → used s ≤ used t
  ceiling : ∀ {c s t a}, c.admits (used s) = true →
    (m c s = .ok (a, t) ↔ m none s = .ok (a, t) ∧ c.admits (used t) = true)

namespace Metered

variable {used : σ → Nat}

/-- A computation that uses nothing. -/
theorem steady {m : StateT σ (Except ε) α}
    (unused : ∀ {s t a}, m s = .ok (a, t) → used t = used s) : Metered used fun _ => m := by
  constructor
  · intro s t a run
    exact Nat.le_of_eq (unused run).symm
  · intro c s t a admitted
    constructor
    · intro run
      exact ⟨run, by rw [unused run]; exact admitted⟩
    · exact fun run => run.1

theorem bind {m : Ceiling → StateT σ (Except ε) α} {f : Ceiling → α → StateT σ (Except ε) β}
    (first : Metered used m) (rest : ∀ a, Metered used fun c => f c a) :
    Metered used fun c => m c >>= f c := by
  constructor
  · intro s t b run
    obtain ⟨a, u, head, tail⟩ := state_bind_ok_iff.1 run
    exact Nat.le_trans (first.grows head) ((rest a).grows tail)
  · intro c s t b admitted
    rw [state_bind_ok_iff, state_bind_ok_iff]
    constructor
    · rintro ⟨a, u, head, tail⟩
      obtain ⟨head, between⟩ := (first.ceiling admitted).1 head
      obtain ⟨tail, after⟩ := ((rest a).ceiling between).1 tail
      exact ⟨⟨a, u, head, tail⟩, after⟩
    · rintro ⟨⟨a, u, head, tail⟩, after⟩
      have between := Ceiling.admits_mono ((rest a).grows tail) after
      exact ⟨a, u, (first.ceiling admitted).2 ⟨head, between⟩,
        ((rest a).ceiling between).2 ⟨tail, after⟩⟩

end Metered

section Charges

variable {κ : Type} [AddCommMonoid κ] [PartialOrder κ]

/-- A computation that returns `a` for a fixed cost exactly where its input is admissible and the
cost stays within the limit. -/
def Charges (used : σ → κ) (limit : κ) (m : StateT σ (Except ε) α) (admissible : Prop) (a : α)
    (cost : κ) : Prop :=
  ∀ s, used s ≤ limit →
    (∀ b t, m s = .ok (b, t) →
      admissible ∧ b = a ∧ used t = used s + cost ∧ used t ≤ limit) ∧
    (admissible → used s + cost ≤ limit → ∃ t, m s = .ok (a, t))

namespace Charges

variable {used : σ → κ} {limit : κ}

theorem congr {m : StateT σ (Except ε) α} {p q : Prop} {a : α} {cost cost' : κ}
    (charges : Charges used limit m p a cost) (same : p ↔ q) (equal : cost = cost') :
    Charges used limit m q a cost' := by
  subst equal
  intro s within
  obtain ⟨sound, complete⟩ := charges s within
  constructor
  · intro b t run
    obtain ⟨held, rest⟩ := sound b t run
    exact ⟨same.1 held, rest⟩
  · exact fun held => complete (same.2 held)

theorem bind [CanonicallyOrderedAdd κ] {m : StateT σ (Except ε) α}
    {f : α → StateT σ (Except ε) β} {p q : Prop} {a : α}
    {b : β} {first rest : κ} (head : Charges used limit m p a first)
    (tail : p → Charges used limit (f a) q b rest) :
    Charges used limit (m >>= f) (p ∧ q) b (first + rest) := by
  intro s within
  obtain ⟨sound, complete⟩ := head s within
  constructor
  · intro c t run
    obtain ⟨a', u, start, finish⟩ := state_bind_ok_iff.1 run
    obtain ⟨held, rfl, cost, below⟩ := sound a' u start
    obtain ⟨also, rfl, total, inside⟩ := (tail held u below).1 c t finish
    exact ⟨⟨held, also⟩, rfl, by rw [total, cost, add_assoc], inside⟩
  · rintro ⟨held, also⟩ inside
    have early : used s + first ≤ limit := by
      rw [← add_assoc] at inside
      exact le_self_add.trans inside
    obtain ⟨u, start⟩ := complete held early
    obtain ⟨_, _, cost, below⟩ := sound a u start
    obtain ⟨t, finish⟩ := (tail held u below).2 also (by rw [cost, add_assoc]; exact inside)
    exact ⟨t, state_bind_ok_iff.2 ⟨a, u, start, finish⟩⟩

/-- A computation that costs nothing, and whether it returns does not depend on the state. -/
theorem free {m : StateT σ (Except ε) α} {p : Prop} {a : α}
    (sound : ∀ s b t, m s = .ok (b, t) → p ∧ b = a ∧ used t = used s)
    (complete : p → ∀ s, ∃ t, m s = .ok (a, t)) : Charges used limit m p a 0 := by
  intro s within
  constructor
  · intro b t run
    obtain ⟨held, rfl, same⟩ := sound s b t run
    exact ⟨held, rfl, by rw [same, add_zero], by rw [same]; exact within⟩
  · exact fun held _ => complete held s

theorem pure (a : α) : Charges used limit (Pure.pure a : StateT σ (Except ε) α) True a 0 := by
  refine free (fun s b t run => ?_) fun _ s => ⟨s, rfl⟩
  cases run
  exact ⟨trivial, rfl, rfl⟩

end Charges

/-! ### What a failing computation is blamed for -/

/-- A computation whose faults are all among those allowed at its full cost. -/
def Blames (used : σ → κ) (limit : κ) (allowed : κ → ε → Prop) (m : StateT σ (Except ε) α)
    (cost : κ) : Prop :=
  ∀ s fault, used s ≤ limit → m s = .error fault → allowed (used s + cost) fault

namespace Blames

variable {used : σ → κ} {limit : κ} {allowed : κ → ε → Prop}

theorem pure (a : α) : Blames used limit allowed (Pure.pure a : StateT σ (Except ε) α) 0 := by
  intro s fault _ failed
  cases failed

theorem congr {m : StateT σ (Except ε) α} {cost cost' : κ}
    (blames : Blames used limit allowed m cost) (equal : cost = cost') :
    Blames used limit allowed m cost' :=
  equal ▸ blames

/-- A later fault is blamed on the whole cost, where more work allows more faults. -/
theorem bind [CanonicallyOrderedAdd κ] (grows : ∀ a b fault, a ≤ b → allowed a fault → allowed b fault)
    {m : StateT σ (Except ε) α} {f : α → StateT σ (Except ε) β} {p : Prop} {a : α} {first rest : κ}
    (charge : Charges used limit m p a first) (head : Blames used limit allowed m first)
    (tail : p → Blames used limit allowed (f a) rest) :
    Blames used limit allowed (m >>= f) (first + rest) := by
  intro s fault within failed
  have unfolded : (m >>= f) s = m s >>= fun r => f r.1 r.2 := rfl
  rw [unfolded] at failed
  cases run : m s with
  | error early =>
    rw [run] at failed
    obtain rfl : early = fault := Except.error.inj failed
    rw [← add_assoc]
    exact grows _ _ early le_self_add (head s early within run)
  | ok r =>
    rw [run] at failed
    obtain ⟨held, same, cost, below⟩ := (charge s within).1 r.1 r.2 run
    have late : f a r.2 = .error fault := same ▸ failed
    have blamed := tail held r.2 fault below late
    rwa [cost, add_assoc] at blamed

end Blames
end Charges
end Foundation
