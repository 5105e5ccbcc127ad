import DefiantHarness.Foundation.Proc

/-! An invariant that a procedure keeps however it ends, with what a normal end adds to it. -/
namespace Foundation

namespace Proc

variable {σ ε α β : Type} {J : σ → Prop} {p q : Proc σ ε α} {f : α → Proc σ ε β}
  {Q : α → σ → Prop} {R : β → σ → Prop} {s : σ}

/-- From `s`, the invariant holds at every end, and `Q` at a normal one. -/
def Keeps (J : σ → Prop) (p : Proc σ ε α) (Q : α → σ → Prop) (s : σ) : Prop :=
  p.Ends (fun a t => J t ∧ Q a t) (fun _ t => J t) s

theorem Keeps.bind (first : Keeps J p Q s) (rest : ∀ a t, J t → Q a t → Keeps J (f a) R t) :
    Keeps J (p >>= f) R s := by
  unfold Keeps
  rw [ends_bind]
  apply first.mono
  · rintro a t ⟨holds, ended⟩
    exact rest a t holds ended
  · intro _ t holds
    exact holds

theorem Keeps.mono {Q' : α → σ → Prop} (keeps : Keeps J p Q s)
    (weaker : ∀ a t, J t → Q a t → Q' a t) : Keeps J p Q' s := by
  apply Ends.mono keeps
  · rintro a t ⟨holds, ended⟩
    exact ⟨holds, weaker a t holds ended⟩
  · intro _ t holds
    exact holds

/-- What a second invariant adds at a normal end. -/
theorem Keeps.along {K : σ → Prop} {Q' : α → σ → Prop} (first : Keeps J p Q s)
    (second : Keeps K p Q' s) : Keeps J p (fun a t => Q a t ∧ K t ∧ Q' a t) s := by
  apply (Ends.and first second).mono
  · rintro a t ⟨⟨holds, ended⟩, kept, also⟩
    exact ⟨holds, ended, kept, also⟩
  · rintro _ t ⟨holds, -⟩
    exact holds

theorem keeps_of_ok {a : α} {t : σ} (run : p s = (.ok a, t)) (holds : J t) (ended : Q a t) :
    Keeps J p Q s :=
  (ends_of_ok run).2 ⟨holds, ended⟩

theorem keeps_pure {a : α} (holds : J s) (ended : Q a s) :
    Keeps J (pure a : Proc σ ε α) Q s :=
  ends_pure.2 ⟨holds, ended⟩

theorem keeps_raise {e : ε} (holds : J s) : Keeps J (raise e : Proc σ ε α) Q s :=
  ends_raise.2 holds

theorem keeps_lift {x : Except ε α} (holds : J s) (ended : ∀ a, x = .ok a → Q a s) :
    Keeps J (lift x) Q s :=
  ends_lift.2 ⟨fun a ok => ⟨holds, ended a ok⟩, fun _ _ => holds⟩

theorem keeps_lift_bind {x : Except ε α} (holds : J s)
    (rest : ∀ a, x = .ok a → Keeps J (f a) R s) : Keeps J (lift x >>= f) R s := by
  apply Keeps.bind (keeps_lift (Q := fun a t => x = .ok a ∧ t = s) holds fun _ ok => ⟨ok, rfl⟩)
  rintro a t - ⟨ok, rfl⟩
  exact rest a ok

theorem keeps_get_bind {f : σ → Proc σ ε β} (rest : Keeps J (f s) R s) :
    Keeps J (get >>= f) R s := by
  unfold Keeps
  rw [ends_bind, ends_get]
  exact rest

theorem keeps_ite {condition : Prop} [Decidable condition]
    (yes : condition → Keeps J p Q s) (no : ¬ condition → Keeps J q Q s) :
    Keeps J (if condition then p else q) Q s := by
  split
  next holds => exact yes holds
  next fails => exact no fails

/-- A loop keeps what each of its rounds keeps. -/
theorem keeps_each {f : β → Proc σ ε α} {P : σ → Prop} (bs : List β)
    (visit : ∀ b s, J s → P s → Keeps J (f b) (fun _ t => P t) s) (holds : J s) (start : P s) :
    Keeps J (each f bs) (fun _ t => P t) s := by
  induction bs generalizing s with
  | nil => exact keeps_pure holds start
  | cons b bs ih =>
    apply Keeps.bind (visit b s holds start)
    intro _ t holds kept
    apply Keeps.bind (ih holds kept)
    intro _ u holds kept
    exact keeps_pure holds kept

end Proc
end Foundation
