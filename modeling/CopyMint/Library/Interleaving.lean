import Mathlib.Data.Nat.Notation
import Mathlib.Logic.Function.Basic

/-!
# Processes interleaved over a shared store

A program is given by the atomic actions that one of its processes can take:
each reads and writes the shared store together with the local state of the
process. Unboundedly many processes run the program, and a run is any
interleaving of their actions. Crashes and failures are ordinary actions which
leave the store alone, so that no fairness is assumed anywhere.

Runs carry a condition on the action about to be taken. The condition
`Unrestricted` gives every run of the program; a stronger one describes, for
example, an environment that answers consistently.
-/

namespace Interleaving

universe u v w

/-- The atomic actions of one process over a store shared by all of them. -/
structure Program (Store : Type u) (Local : Type v) (Event : Type w) where
  /-- Take an action, or `none` where the process cannot take it. -/
  step : Store → Local → Event → Option (Store × Local)

/-- The shared store and the local state of every process. -/
@[ext]
structure World (Store : Type u) (Local : Type v) where
  store : Store
  process : ℕ → Local

variable {Store : Type u} {Local : Type v} {Event : Type w}

/-- The world in which every process is in one and the same local state. -/
def World.uniform (store : Store) (state : Local) : World Store Local :=
  ⟨store, fun _ => state⟩

@[simp]
theorem World.uniform_store (store : Store) (state : Local) :
    (World.uniform store state).store = store := rfl

@[simp]
theorem World.uniform_process (store : Store) (state : Local) (index : ℕ) :
    (World.uniform store state).process index = state := rfl

/-- After an update, a process either is the updated one or is as before. -/
theorem eq_or_of_update_eq {processes : ℕ → Local} {index other : ℕ} {state found : Local}
    (updated : Function.update processes index state other = found) :
    other = index ∧ state = found ∨ other ≠ index ∧ processes other = found := by
  by_cases same : other = index
  · left
    rw [same, Function.update_self] at updated
    exact ⟨same, updated⟩
  · right
    rw [Function.update_of_ne same] at updated
    exact ⟨same, updated⟩

/-- At most one process at a time stays so, if the updated process conflicts with no other. -/
theorem exclusive_update (conflicts : Local → Local → Prop)
    (symmetric : ∀ {left right}, conflicts left right → conflicts right left)
    (processes : ℕ → Local) {index : ℕ} {state : Local}
    (fresh : ∀ other, other ≠ index → ¬conflicts state (processes other))
    (exclusive : ∀ first second, conflicts (processes first) (processes second) →
      first = second) {first second : ℕ}
    (conflict : conflicts (Function.update processes index state first)
      (Function.update processes index state second)) : first = second := by
  by_cases first_eq : first = index
  · by_cases second_eq : second = index
    · rw [first_eq, second_eq]
    · rw [first_eq, Function.update_self, Function.update_of_ne second_eq] at conflict
      exact absurd conflict (fresh second second_eq)
  · by_cases second_eq : second = index
    · rw [second_eq, Function.update_self, Function.update_of_ne first_eq] at conflict
      exact absurd (symmetric conflict) (fresh first first_eq)
    · rw [Function.update_of_ne first_eq, Function.update_of_ne second_eq] at conflict
      exact exclusive first second conflict

/-- A condition on the action that a process is about to take. -/
abbrev Condition (Store : Type u) (Local : Type v) (Event : Type w) :=
  World Store Local → ℕ → Event → Prop

/-- The condition met by every action. -/
def Unrestricted : Condition Store Local Event := fun _ _ _ => True

instance (world : World Store Local) (index : ℕ) (event : Event) :
    Decidable (Unrestricted world index event) :=
  .isTrue trivial

namespace Program

variable (program : Program Store Local Event)

/-- One atomic action of the process `index`. -/
def act (world : World Store Local) (index : ℕ) (event : Event) :
    Option (World Store Local) :=
  (program.step world.store (world.process index) event).map fun result =>
    ⟨result.1, Function.update world.process index result.2⟩

/-- Execute a finite schedule of actions. -/
def execute (world : World Store Local) : List (ℕ × Event) → Option (World Store Local)
  | [] => some world
  | (index, event) :: schedule =>
      (program.act world index event).bind fun next => execute next schedule

/-- Every action of a schedule meets a condition in the world it is taken in. -/
def Meets (allowed : Condition Store Local Event) (world : World Store Local) :
    List (ℕ × Event) → Prop
  | [] => True
  | (index, event) :: schedule =>
      allowed world index event ∧
        ∀ next, program.act world index event = some next → Meets allowed next schedule

/-- Whether a schedule meets a condition can be computed if it can for one action. -/
instance decidableMeets (allowed : Condition Store Local Event)
    [∀ world index event, Decidable (allowed world index event)] :
    ∀ (world : World Store Local) (schedule : List (ℕ × Event)),
      Decidable (program.Meets allowed world schedule)
  | _, [] => .isTrue trivial
  | world, (index, event) :: schedule =>
      have : Decidable (∀ next, program.act world index event = some next →
          Meets program allowed next schedule) :=
        match acted : program.act world index event with
        | none => .isTrue fun _ impossible => by cases impossible
        | some next =>
            match decidableMeets allowed next schedule with
            | .isTrue meets => .isTrue fun _ same => by cases same; exact meets
            | .isFalse fails => .isFalse fun meets => fails (meets next rfl)
      inferInstanceAs (Decidable (_ ∧ _))

/-- The worlds reached by runs whose actions all meet a condition. -/
inductive Reaches (allowed : Condition Store Local Event) :
    World Store Local → World Store Local → Prop
  | refl (world : World Store Local) : Reaches allowed world world
  | tail {start middle finish : World Store Local} {index : ℕ} {event : Event}
      (run : Reaches allowed start middle) (meets : allowed middle index event)
      (acted : program.act middle index event = some finish) : Reaches allowed start finish

variable {program} {allowed : Condition Store Local Event}

theorem act_eq_some_iff {world next : World Store Local} {index : ℕ} {event : Event} :
    program.act world index event = some next ↔
      ∃ store state, program.step world.store (world.process index) event = some (store, state) ∧
        next = ⟨store, Function.update world.process index state⟩ := by
  simp only [act, Option.map_eq_some_iff, Prod.exists]
  constructor
  · rintro ⟨store, state, stepped, rfl⟩
    exact ⟨store, state, stepped, rfl⟩
  · rintro ⟨store, state, stepped, rfl⟩
    exact ⟨store, state, stepped, rfl⟩

/--
An action preserves an invariant of the store together with one of each local
state relative to the store, if it establishes both for the process that takes it
and does not disturb the local invariant of any other process.
-/
theorem act_local (shared : Store → Prop) (owned : Store → Local → Prop)
    {world next : World Store Local} {index : ℕ} {event : Event}
    (acted : program.act world index event = some next)
    (acting : ∀ {store : Store} {state : Local},
      program.step world.store (world.process index) event = some (store, state) →
      shared store ∧ owned store state)
    (undisturbed : ∀ {store : Store} {state other : Local},
      program.step world.store (world.process index) event = some (store, state) →
      owned world.store other → owned store other)
    (holds : ∀ other, owned world.store (world.process other)) :
    shared next.store ∧ ∀ other, owned next.store (next.process other) := by
  rcases act_eq_some_iff.mp acted with ⟨store, state, stepped, rfl⟩
  have established := acting stepped
  refine ⟨established.1, fun other => ?_⟩
  by_cases same : other = index
  · subst same
    simpa using established.2
  · simpa [Function.update_of_ne same] using undisturbed stepped (holds other)

namespace Reaches

theorem trans {start middle finish : World Store Local}
    (first : program.Reaches allowed start middle)
    (second : program.Reaches allowed middle finish) :
    program.Reaches allowed start finish := by
  induction second with
  | refl => exact first
  | tail _ meets acted ih => exact ih.tail meets acted

theorem mono {weaker : Condition Store Local Event}
    (implies : ∀ {world index event}, allowed world index event → weaker world index event)
    {start finish : World Store Local} (run : program.Reaches allowed start finish) :
    program.Reaches weaker start finish := by
  induction run with
  | refl => exact .refl _
  | tail _ meets acted ih => exact ih.tail (implies meets) acted

/-- What every allowed action preserves holds in every world of a run. -/
theorem invariant (holds : World Store Local → Prop)
    (preserved : ∀ {world next : World Store Local} {index : ℕ} {event : Event},
      holds world → allowed world index event →
      program.act world index event = some next → holds next)
    {start finish : World Store Local} (run : program.Reaches allowed start finish)
    (initially : holds start) : holds finish := by
  induction run with
  | refl => exact initially
  | tail _ meets acted ih => exact preserved ih meets acted

/--
Under an invariant, a reflexive and transitive relation that every action
respects relates the ends of a run.
-/
theorem relates {holds : World Store Local → Prop} {related : Store → Store → Prop}
    (reflexive : ∀ store, related store store)
    (transitive : ∀ {first second third}, related first second → related second third →
      related first third)
    (respected : ∀ {world next : World Store Local} {index : ℕ} {event : Event},
      holds world → allowed world index event → program.act world index event = some next →
      holds next ∧ related world.store next.store)
    {start finish : World Store Local} (run : program.Reaches allowed start finish)
    (initially : holds start) : holds finish ∧ related start.store finish.store := by
  induction run with
  | refl => exact ⟨initially, reflexive _⟩
  | tail _ meets acted ih =>
      rcases ih with ⟨middle_holds, first⟩
      rcases respected middle_holds meets acted with ⟨finish_holds, second⟩
      exact ⟨finish_holds, transitive first second⟩

end Reaches

theorem reaches_of_execute {world finish : World Store Local} {schedule : List (ℕ × Event)}
    (executed : program.execute world schedule = some finish)
    (meets : program.Meets allowed world schedule) :
    program.Reaches allowed world finish := by
  induction schedule generalizing world with
  | nil =>
      simp only [execute, Option.some.injEq] at executed
      exact executed ▸ .refl world
  | cons action schedule ih =>
      rcases action with ⟨index, event⟩
      simp only [execute, Option.bind_eq_some_iff] at executed
      rcases executed with ⟨next, acted, executed⟩
      have first : program.Reaches allowed world next := (Reaches.refl world).tail meets.1 acted
      exact first.trans (ih executed (meets.2 next acted))

/-- The processes that a schedule does not name are left alone. -/
theorem execute_process_of_notMem {world finish : World Store Local}
    {schedule : List (ℕ × Event)} (executed : program.execute world schedule = some finish)
    {other : ℕ} (absent : other ∉ schedule.map Prod.fst) :
    finish.process other = world.process other := by
  induction schedule generalizing world with
  | nil =>
      cases executed
      rfl
  | cons action schedule ih =>
      rcases action with ⟨index, event⟩
      simp only [List.map_cons, List.mem_cons, not_or] at absent
      simp only [execute, Option.bind_eq_some_iff] at executed
      rcases executed with ⟨next, acted, executed⟩
      rcases act_eq_some_iff.mp acted with ⟨store, state, _, rfl⟩
      rw [ih executed absent.2]
      exact Function.update_of_ne absent.1 state world.process

/-- What holds of every process at first holds at last, if it does of those that are named. -/
theorem forall_process_of_execute {world finish : World Store Local}
    {schedule : List (ℕ × Event)} (holds : Local → Prop)
    (executed : program.execute world schedule = some finish)
    (initially : ∀ index, holds (world.process index))
    (named : ∀ index ∈ schedule.map Prod.fst, holds (finish.process index)) (index : ℕ) :
    holds (finish.process index) := by
  by_cases mem : index ∈ schedule.map Prod.fst
  · exact named index mem
  · rw [execute_process_of_notMem executed mem]
    exact initially index

/-- A condition on events alone is met if every event of the schedule satisfies it. -/
theorem meets_of_events (admitted : Event → Prop) {schedule : List (ℕ × Event)}
    (every : ∀ action ∈ schedule, admitted action.2) (world : World Store Local) :
    program.Meets (fun _ _ event => admitted event) world schedule := by
  induction schedule generalizing world with
  | nil => trivial
  | cons action schedule ih =>
      refine ⟨every action List.mem_cons_self, fun next _ => ih ?_ next⟩
      exact fun other other_mem => every other (List.mem_cons_of_mem action other_mem)

/-- Two conditions are met together if each of them is met. -/
theorem meets_and {other : Condition Store Local Event} {world : World Store Local}
    {schedule : List (ℕ × Event)} (first : program.Meets allowed world schedule)
    (second : program.Meets other world schedule) :
    program.Meets (fun world index event => allowed world index event ∧ other world index event)
      world schedule := by
  induction schedule generalizing world with
  | nil => trivial
  | cons action schedule ih =>
      exact ⟨⟨first.1, second.1⟩, fun next acted => ih (first.2 next acted) (second.2 next acted)⟩

theorem meets_unrestricted (world : World Store Local) (schedule : List (ℕ × Event)) :
    program.Meets Unrestricted world schedule :=
  meets_of_events (fun _ => True) (fun _ _ => trivial) world

end Program

end Interleaving
