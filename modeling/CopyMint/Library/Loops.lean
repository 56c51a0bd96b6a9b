import Mathlib.Data.Nat.Notation

/-!
# Loops

A loop is given by its round: from a state, a round either goes on with another
state or leaves the loop with a result. `run` plays a bounded number of rounds.
The rules derive from one round what holds of the result, that there is a result,
and that another loop does the same.
-/

namespace Loops

universe u v

/-- What a round of a loop comes to. -/
inductive Round (State : Type u) (Result : Type v) where
  | next (state : State)
  | exit (result : Result)

variable {State Other : Type u} {Result OtherResult : Type v}

/-- A round in other terms. -/
def Round.map (change : State → Other) (changeResult : Result → OtherResult) :
    Round State Result → Round Other OtherResult
  | .next state => .next (change state)
  | .exit result => .exit (changeResult result)

/-- The result of a loop, if it has one within a number of rounds. -/
def run (round : State → Round State Result) : ℕ → State → Option Result
  | 0, _ => none
  | rounds + 1, state =>
      match round state with
      | .next state => run round rounds state
      | .exit result => some result

variable {round : State → Round State Result} {state next : State} {result : Result}
  {rounds : ℕ}

theorem run_of_next (goesOn : round state = .next next) :
    run round (rounds + 1) state = run round rounds next := by
  simp only [run, goesOn]

theorem run_of_exit (leaves : round state = .exit result) :
    run round (rounds + 1) state = some result := by
  simp only [run, leaves]

/-- What every round keeps and every exit turns into a property of the result holds of it. -/
theorem run_invariant (holds : State → Prop) (ends : Result → Prop)
    (keeps : ∀ {before after}, holds before → round before = .next after → holds after)
    (establishes : ∀ {before result}, holds before → round before = .exit result → ends result)
    (ran : run round rounds state = some result) (initially : holds state) : ends result := by
  induction rounds generalizing state with
  | zero => cases ran
  | succ rounds ih =>
      cases played : round state with
      | next after =>
          rw [run_of_next played] at ran
          exact ih ran (keeps initially played)
      | exit final =>
          rw [run_of_exit played] at ran
          cases ran
          exact establishes initially played

/-- A loop whose rounds all lower a measure has a result. -/
theorem exists_run_eq_some (holds : State → Prop) (measure : State → ℕ)
    (lowers : ∀ {before after}, holds before → round before = .next after →
      holds after ∧ measure after < measure before)
    (initially : holds state) (enough : measure state < rounds) :
    ∃ result, run round rounds state = some result := by
  induction rounds generalizing state with
  | zero => exact absurd enough (Nat.not_lt_zero _)
  | succ rounds ih =>
      cases played : round state with
      | next after =>
          rcases lowers initially played with ⟨holds_after, lower⟩
          rw [run_of_next played]
          exact ih holds_after (Nat.lt_of_lt_of_le lower (Nat.lt_succ_iff.mp enough))
      | exit final => exact ⟨final, run_of_exit played⟩

/-- Rounds that are not needed change nothing. -/
theorem run_mono (ran : run round rounds state = some result) {more : ℕ} (enough : rounds ≤ more) :
    run round more state = some result := by
  induction rounds generalizing state more with
  | zero => cases ran
  | succ rounds ih =>
      cases more with
      | zero => exact absurd enough (Nat.not_succ_le_zero rounds)
      | succ more =>
          cases played : round state with
          | next after =>
              rw [run_of_next played] at ran ⊢
              exact ih ran (Nat.le_of_succ_le_succ enough)
          | exit final =>
              rw [run_of_exit played] at ran ⊢
              exact ran

/-- A loop that plays the same rounds has the same results, as far as another loop has them. -/
theorem run_of_imp {other : State → Round State Result} (expected : Result → Prop)
    (goes : ∀ {before after}, round before = .next after → other before = .next after)
    (ends : ∀ {before result}, round before = .exit result → expected result →
      other before = .exit result)
    (ran : run round rounds state = some result) (isExpected : expected result) :
    run other rounds state = some result := by
  induction rounds generalizing state with
  | zero => cases ran
  | succ rounds ih =>
      cases played : round state with
      | next after =>
          rw [run_of_next played] at ran
          rw [run_of_next (goes played)]
          exact ih ran
      | exit final =>
          rw [run_of_exit played] at ran
          cases ran
          exact run_of_exit (ends played isExpected)

/-- A loop whose rounds follow those of another loop has its results. -/
theorem run_map {other : Other → Round Other OtherResult} (change : State → Other)
    (changeResult : Result → OtherResult)
    (follows : ∀ state, other (change state) = (round state).map change changeResult)
    (rounds : ℕ) (state : State) :
    run other rounds (change state) = (run round rounds state).map changeResult := by
  induction rounds generalizing state with
  | zero => rfl
  | succ rounds ih =>
      cases played : round state with
      | next after =>
          have followed : other (change state) = .next (change after) := by
            rw [follows, played]
            rfl
          rw [run_of_next played, run_of_next followed]
          exact ih after
      | exit final =>
          have followed : other (change state) = .exit (changeResult final) := by
            rw [follows, played]
            rfl
          rw [run_of_exit played, run_of_exit followed]
          rfl

end Loops
