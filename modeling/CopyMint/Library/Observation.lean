import CopyMint.Library.Interleaving

/-!
# What an observer sees of a run

An observer sees some of the actions of a run and a view of its worlds. The view is a
world of a program of its own, with the same events. Suppose that an action which the
observer does not see leaves the view alone, while the observer's program takes every
action that is seen and comes to the view of the next world. Then the view of a run is a
run of the observer's program through the actions that are seen. Two runs of which the
same actions are seen therefore end in the same view, whatever else happens in them.
-/

namespace Interleaving

universe u v w

variable {Store : Type u} {Local : Type v} {Event : Type w}

namespace Program

variable (program : Program Store Local Event)

/-- The actions of a schedule that an observer sees, in their order. -/
def observations (sees : World Store Local → ℕ → Event → Bool) (world : World Store Local) :
    List (ℕ × Event) → List (ℕ × Event)
  | [] => []
  | (index, event) :: schedule =>
      match program.act world index event with
      | none => []
      | some next =>
          if sees world index event then (index, event) :: observations sees next schedule
          else observations sees next schedule

variable {program} {allowed : Condition Store Local Event}
  {sees : World Store Local → ℕ → Event → Bool} {OwnStore : Type u} {OwnLocal : Type v}
  {own : Program OwnStore OwnLocal Event} {view : World Store Local → World OwnStore OwnLocal}
  {holds : World Store Local → Prop}

/-- The view of a run is a run of the observer's program through what is seen. -/
theorem execute_observations
    (preserved : ∀ {world next : World Store Local} {index : ℕ} {event : Event},
      holds world → allowed world index event →
      program.act world index event = some next → holds next)
    (unseen : ∀ {world next : World Store Local} {index : ℕ} {event : Event},
      holds world → allowed world index event → sees world index event = false →
      program.act world index event = some next → view next = view world)
    (seen : ∀ {world next : World Store Local} {index : ℕ} {event : Event},
      holds world → allowed world index event → sees world index event = true →
      program.act world index event = some next →
      own.act (view world) index event = some (view next))
    {world finish : World Store Local} {schedule : List (ℕ × Event)} (initially : holds world)
    (meets : program.Meets allowed world schedule)
    (executed : program.execute world schedule = some finish) :
    own.execute (view world) (program.observations sees world schedule) = some (view finish) := by
  induction schedule generalizing world with
  | nil =>
      cases executed
      rfl
  | cons action schedule ih =>
      rcases action with ⟨index, event⟩
      simp only [execute, Option.bind_eq_some_iff] at executed
      rcases executed with ⟨next, acted, executed⟩
      have later := ih (preserved initially meets.1 acted) (meets.2 next acted) executed
      simp only [observations, acted]
      cases sees_eq : sees world index event with
      | true =>
          simp only [if_true, execute, seen initially meets.1 sees_eq acted]
          exact later
      | false =>
          rw [← unseen initially meets.1 sees_eq acted]
          simpa using later

end Program

end Interleaving
