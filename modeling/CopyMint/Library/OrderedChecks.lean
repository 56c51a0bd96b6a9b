import CopyMint.Library.Fallible
import Mathlib.Tactic.SplitIfs

/-!
# Checks that are made in order

A computation over untrusted data makes one check after the other. A check of what it
was given passes, refuses the data with a failure that is expected, or breaks on the
data with one that is not. A sequence of checks breaks exactly if one of them does and
none before it refuses.
-/

namespace Fallible

universe u v w
variable {ε : Type u} {α β : Type v} {Check : Type w} {expected : ε → Prop}

/-- How a computation ends that breaks, or else refuses, on exactly the given conditions. -/
inductive Judged (expected : ε → Prop) (broken refused : Prop) : Except ε α → Prop
  | breaks (breaks : broken) {failure : ε} (unexpected : ¬expected failure) :
      Judged expected broken refused (.error failure)
  | refuses (whole : ¬broken) (refuses : refused) {failure : ε} (isExpected : expected failure) :
      Judged expected broken refused (.error failure)
  | passes (whole : ¬broken) (accepted : ¬refused) (value : α) :
      Judged expected broken refused (.ok value)

namespace Judged

variable {broken refused brokenNext refusedNext : Prop} {result first : Except ε α}
  {next : α → Except ε β}

/-- A judged computation fails as expected exactly if it does not break. -/
theorem failsOnly_iff (judged : Judged expected broken refused result) :
    FailsOnly expected result ↔ ¬broken := by
  cases judged with
  | breaks breaks unexpected => simp [breaks, unexpected]
  | refuses whole _ isExpected => simp [whole, isExpected]
  | passes whole _ value => simp [whole]

theorem congr (judged : Judged expected broken refused result) (same : broken ↔ brokenNext)
    (sameRefusal : refused ↔ refusedNext) : Judged expected brokenNext refusedNext result := by
  rw [← propext same, ← propext sameRefusal]
  exact judged

/-- A sequence breaks if its first part does, or if that does not refuse and the second does. -/
theorem bind (begins : Judged expected broken refused first)
    (continues : ∀ value, first = .ok value → Judged expected brokenNext refusedNext (next value)) :
    Judged expected (broken ∨ ¬refused ∧ brokenNext) (refused ∨ refusedNext) (first >>= next) := by
  cases begins with
  | breaks breaks unexpected => exact .breaks (.inl breaks) unexpected
  | refuses whole refuses isExpected =>
      refine .refuses ?_ (.inl refuses) isExpected
      rintro (breaks | ⟨accepted, _⟩)
      · exact whole breaks
      · exact accepted refuses
  | passes whole accepted value =>
      rw [ok_bind]
      refine (continues value rfl).congr ?_ ?_
      · simp [whole, accepted]
      · simp [accepted]

theorem map {function : α → β} (judged : Judged expected broken refused result) :
    Judged expected broken refused (result.map function) := by
  cases judged with
  | breaks breaks unexpected => exact .breaks breaks unexpected
  | refuses whole refuses isExpected => exact .refuses whole refuses isExpected
  | passes whole accepted value => exact .passes whole accepted (function value)

end Judged

section Order

variable (broken refused : Check → Prop)

/-- One of the checks breaks, and none before it refuses. -/
def Breaks (checks : List Check) : Prop :=
  ∃ before check after, checks = before ++ check :: after ∧ broken check ∧
    ∀ earlier ∈ before, ¬refused earlier

variable {broken refused}

theorem breaks_nil : ¬Breaks broken refused [] := by
  rintro ⟨before, check, after, split, _⟩
  simp at split

theorem breaks_cons_iff {check : Check} {checks : List Check} :
    Breaks broken refused (check :: checks) ↔
      broken check ∨ ¬refused check ∧ Breaks broken refused checks := by
  constructor
  · rintro ⟨before, other, after, split, breaks, accepted⟩
    cases before with
    | nil =>
        cases split
        exact .inl breaks
    | cons head before =>
        rcases List.cons.inj split with ⟨rfl, rest⟩
        refine .inr ⟨accepted check List.mem_cons_self, before, other, after, rest, breaks, ?_⟩
        intro earlier earlier_mem
        exact accepted earlier (List.mem_cons_of_mem check earlier_mem)
  · rintro (breaks | ⟨first, before, other, after, rfl, breaks, accepted⟩)
    · exact ⟨[], check, checks, rfl, breaks, List.forall_mem_nil _⟩
    · exact ⟨check :: before, other, after, rfl, breaks, List.forall_mem_cons.mpr ⟨first, accepted⟩⟩

namespace Judged

/-- The end of a sequence of checks. -/
theorem done (value : α) :
    Judged expected (Breaks broken refused []) (∃ check ∈ ([] : List Check), refused check)
      (.ok value) := by
  refine .passes breaks_nil ?_ value
  simp

/-- One check more in front of a sequence. -/
theorem check {check : Check} {checks : List Check} {first : Except ε α} {next : α → Except ε β}
    (begins : Judged expected (broken check) (refused check) first)
    (continues : ∀ value, first = .ok value →
      Judged expected (Breaks broken refused checks) (∃ other ∈ checks, refused other)
        (next value)) :
    Judged expected (Breaks broken refused (check :: checks))
      (∃ other ∈ check :: checks, refused other) (first >>= next) := by
  refine (begins.bind continues).congr breaks_cons_iff.symm ?_
  simp

theorem mapM {body : Check → Except ε α} {checks : List Check}
    (judges : ∀ check ∈ checks, Judged expected (broken check) (refused check) (body check)) :
    Judged expected (Breaks broken refused checks) (∃ check ∈ checks, refused check)
      (checks.mapM body) := by
  induction checks with
  | nil => exact .done []
  | cons first checks ih =>
      have later := ih fun check check_mem => judges check (List.mem_cons_of_mem first check_mem)
      rw [List.mapM_cons]
      refine .check (judges first List.mem_cons_self) fun result _ => ?_
      exact later.map

end Judged

end Order

end Fallible
