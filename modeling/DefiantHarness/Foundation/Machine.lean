/-! Step systems whose steps are silent or show an event, and one system that refines another. -/
namespace Foundation

structure Machine (State Event : Type) where
  initial : State → Prop
  step : State → Option Event → State → Prop

namespace Machine

variable {State Event : Type} (m : Machine State Event)

/-- The steps from one state to another, with the events that they show, in order. -/
inductive Run (s : State) : List Event → State → Prop where
  | start : Run s [] s
  | silent {events : List Event} {t u : State} (run : Run s events t) (next : m.step t none u) :
      Run s events u
  | shown {events : List Event} {t u : State} {event : Event} (run : Run s events t)
      (next : m.step t (some event) u) : Run s (events ++ [event]) u

variable {m}

/-- What holds at the start and is kept by every step, along with the events shown so far. -/
theorem Run.invariant {s t : State} {events : List Event} {I : List Event → State → Prop}
    (run : m.Run s events t) (start : I [] s)
    (kept : ∀ past u shown v, I past u → m.step u shown v → I (past ++ shown.toList) v) :
    I events t := by
  induction run with
  | start => exact start
  | @silent past u v _ next ih =>
    have holds := kept past u none v ih next
    rwa [Option.toList_none, List.append_nil] at holds
  | @shown past u v event _ next ih => exact kept past u (some event) v ih next

end Machine

/-- Seen through `view`, each step of a state that keeps `I` is a step of the abstract machine that
shows the same, or a silent one that changes nothing there. -/
structure Refines {Concrete Abstract Event : Type} (concrete : Machine Concrete Event)
    (abstract : Machine Abstract Event) (I : Concrete → Prop) (view : Concrete → Abstract) :
    Prop where
  starts : ∀ s, concrete.initial s → I s ∧ abstract.initial (view s)
  keeps : ∀ s shown t, I s → concrete.step s shown t → I t
  steps : ∀ s shown t, I s → concrete.step s shown t →
    abstract.step (view s) shown (view t) ∨ (shown = none ∧ view t = view s)

namespace Refines

variable {Concrete Abstract Event : Type} {concrete : Machine Concrete Event}
  {abstract : Machine Abstract Event} {I : Concrete → Prop} {view : Concrete → Abstract}
  {s t : Concrete} {events : List Event}

/-- Every run is a run of the abstract machine with the same events. -/
theorem run (refines : Refines concrete abstract I view) (holds : I s)
    (run : concrete.Run s events t) : I t ∧ abstract.Run (view s) events (view t) := by
  induction run with
  | start => exact ⟨holds, .start⟩
  | @silent _ u v _ next ih =>
    obtain ⟨kept, seen⟩ := ih
    refine ⟨refines.keeps u none v kept next, ?_⟩
    rcases refines.steps u none v kept next with step | ⟨-, same⟩
    · exact .silent seen step
    · rwa [same]
  | @shown _ u v event _ next ih =>
    obtain ⟨kept, seen⟩ := ih
    refine ⟨refines.keeps u (some event) v kept next, ?_⟩
    rcases refines.steps u (some event) v kept next with step | ⟨absurd, -⟩
    · exact .shown seen step
    · cases absurd

theorem run_initial (refines : Refines concrete abstract I view) (initial : concrete.initial s)
    (run : concrete.Run s events t) :
    I t ∧ abstract.initial (view s) ∧ abstract.Run (view s) events (view t) := by
  obtain ⟨holds, starts⟩ := refines.starts s initial
  obtain ⟨kept, seen⟩ := refines.run holds run
  exact ⟨kept, starts, seen⟩

end Refines
end Foundation
