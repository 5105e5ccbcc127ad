import Mathlib.Data.List.Basic

/-! Properties of the events of a trace, each seen with the events before it. -/
namespace Foundation

variable {ε : Type} {P : List ε → ε → Prop} {trace : List ε}

/-- Every event has the property, after the events before it. -/
def Each (P : List ε → ε → Prop) (trace : List ε) : Prop :=
  ∀ past event later, trace = past ++ event :: later → P past event

theorem Each.nil : Each P [] := by
  intro past event later shape
  simp at shape

/-- A longer trace has one event more to look at. -/
theorem Each.concat {last : ε} (each : Each P trace) (ends : P trace last) :
    Each P (trace ++ [last]) := by
  intro past event later shape
  rcases later.eq_nil_or_concat with rfl | ⟨rest, end_, rfl⟩
  · obtain ⟨rfl, same⟩ := List.append_inj' shape rfl
    obtain rfl := List.singleton_inj.1 same
    exact ends
  · rw [List.concat_eq_append, ← List.cons_append, ← List.append_assoc] at shape
    exact each past event rest (List.append_inj' shape rfl).1

end Foundation
