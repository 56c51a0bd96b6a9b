import Mathlib.Data.List.Basic
import Mathlib.Data.List.Forall2

/-!
# Computations that may raise

A computation that may raise is an `Except`. This file inverts successful
sequencing, says which failures a sequence can have, and gives the rules for the
two loops used on top of it: `mapM`, which raises as soon as one element does, and
`foldlM`, whose accumulator keeps every property that one round keeps.
-/

namespace Fallible

universe u v

variable {ε : Type u} {α β σ : Type v}

/-- A sequence succeeds exactly if both of its parts do. -/
theorem bind_eq_ok_iff {first : Except ε α} {next : α → Except ε β} {result : β} :
    (first >>= next) = .ok result ↔ ∃ value, first = .ok value ∧ next value = .ok result := by
  cases first with
  | error raised =>
      constructor
      · intro impossible
        cases impossible
      · rintro ⟨value, impossible, _⟩
        cases impossible
  | ok value =>
      constructor
      · exact fun continued => ⟨value, rfl, continued⟩
      · rintro ⟨other, equal, continued⟩
        cases equal
        exact continued

theorem ok_bind (value : α) (next : α → Except ε β) :
    ((.ok value : Except ε α) >>= next) = next value := rfl

theorem map_eq_ok_iff {first : Except ε α} {change : α → β} {result : β} :
    (change <$> first) = .ok result ↔ ∃ value, first = .ok value ∧ change value = result := by
  cases first with
  | error raised =>
      constructor
      · intro impossible
        cases impossible
      · rintro ⟨value, impossible, _⟩
        cases impossible
  | ok value =>
      constructor
      · intro equal
        cases equal
        exact ⟨value, rfl, rfl⟩
      · rintro ⟨other, equal, rfl⟩
        cases equal
        rfl

theorem mapError_ok {ε' : Type u} (change : ε → ε') (value : α) :
    (.ok value : Except ε α).mapError change = .ok value := rfl

theorem mapError_eq_ok_iff {ε' : Type u} {first : Except ε α} {change : ε → ε'} {result : α} :
    first.mapError change = .ok result ↔ first = .ok result := by
  cases first <;> simp [Except.mapError]

/-- Computations that agree up to a change either raise the same or both return. -/
theorem error_or_ok_of_map_eq {first second : Except ε α} {change : α → β}
    (same : first.map change = second.map change) :
    (∃ raised, first = .error raised ∧ second = .error raised) ∨
      ∃ value other, first = .ok value ∧ second = .ok other ∧ change value = change other := by
  cases first with
  | error raised =>
      cases second with
      | error other =>
          cases same
          exact .inl ⟨raised, rfl, rfl⟩
      | ok other => cases same
  | ok value =>
      cases second with
      | error raised => cases same
      | ok other => exact .inr ⟨value, other, rfl, rfl, Except.ok.inj same⟩

/-- Every failure of a computation is an expected one. -/
def FailsOnly (expected : ε → Prop) (result : Except ε α) : Prop :=
  ∀ failure, result = .error failure → expected failure

section FailsOnly

variable {expected : ε → Prop}

@[simp]
theorem failsOnly_ok (value : α) : FailsOnly expected (.ok value) := by
  intro _ impossible
  cases impossible

@[simp]
theorem failsOnly_error_iff {failure : ε} :
    FailsOnly expected (.error failure : Except ε α) ↔ expected failure := by
  constructor
  · exact fun fails => fails failure rfl
  · rintro isExpected _ equal
    cases equal
    exact isExpected

/-- A sequence fails as expected if both of its parts do. -/
theorem FailsOnly.bind {first : Except ε α} {next : α → Except ε β}
    (begins : FailsOnly expected first)
    (continues : ∀ value, first = .ok value → FailsOnly expected (next value)) :
    FailsOnly expected (first >>= next) := by
  cases first with
  | error failure =>
      intro other raised
      cases raised
      exact begins failure rfl
  | ok value => exact continues value rfl

/-- A sequence fails as expected exactly if its parts do, where they are reached. -/
theorem failsOnly_bind_iff {first : Except ε α} {next : α → Except ε β} :
    FailsOnly expected (first >>= next) ↔
      FailsOnly expected first ∧ ∀ value, first = .ok value → FailsOnly expected (next value) := by
  constructor
  · intro fails
    constructor
    · rintro failure rfl
      exact fails failure rfl
    · rintro value rfl
      exact fails
  · rintro ⟨begins, continues⟩
    exact begins.bind continues

theorem failsOnly_mapError_iff {ε' : Type u} {expected : ε' → Prop} {result : Except ε α}
    {change : ε → ε'} :
    FailsOnly expected (result.mapError change) ↔
      FailsOnly (fun failure => expected (change failure)) result := by
  cases result with
  | error failure => rw [Except.mapError, failsOnly_error_iff, failsOnly_error_iff]
  | ok value => exact iff_of_true (failsOnly_ok value) (failsOnly_ok value)

theorem FailsOnly.mono {weaker : ε → Prop} {result : Except ε α}
    (fails : FailsOnly expected result)
    (implies : ∀ failure, expected failure → weaker failure) : FailsOnly weaker result :=
  fun failure raised => implies failure (fails failure raised)

/-- A computation without failures returns. -/
theorem FailsOnly.exists_eq_ok {result : Except ε α} (fails : FailsOnly expected result)
    (never : ∀ failure, ¬expected failure) : ∃ value, result = .ok value := by
  cases result with
  | error failure => exact absurd (fails failure rfl) (never failure)
  | ok value => exact ⟨value, rfl⟩

end FailsOnly

/-- Whatever a computation returns has a property. -/
def Returns (holds : α → Prop) (result : Except ε α) : Prop :=
  ∀ value, result = .ok value → holds value

section Returns

variable {holds : α → Prop}

@[simp]
theorem returns_ok_iff {value : α} : Returns holds (.ok value : Except ε α) ↔ holds value := by
  constructor
  · exact fun returns => returns value rfl
  · rintro kept _ equal
    cases equal
    exact kept

@[simp]
theorem returns_error (failure : ε) : Returns holds (.error failure) := by
  intro _ impossible
  cases impossible

theorem Returns.bind {holds : β → Prop} {first : Except ε α} {next : α → Except ε β}
    (continues : ∀ value, first = .ok value → Returns holds (next value)) :
    Returns holds (first >>= next) := by
  intro result returned
  rcases bind_eq_ok_iff.mp returned with ⟨value, first_eq, next_eq⟩
  exact continues value first_eq result next_eq

end Returns

/-- `mapM` succeeds exactly if every element does, with the results in order. -/
theorem mapM_eq_ok_iff {body : α → Except ε β} {elements : List α} {results : List β} :
    elements.mapM body = .ok results ↔
      List.Forall₂ (fun element result => body element = .ok result) elements results := by
  induction elements generalizing results with
  | nil =>
      constructor
      · intro equal
        cases equal
        exact .nil
      · intro related
        cases related
        rfl
  | cons element elements ih =>
      simp only [List.mapM_cons, bind_eq_ok_iff, ih]
      constructor
      · rintro ⟨result, first, rest, later, equal⟩
        cases equal
        exact .cons first later
      · intro related
        cases related with
        | cons first later => exact ⟨_, first, _, later, rfl⟩

theorem mapM_eq_ok_map {body : α → Except ε β} {elements : List α} (result : α → β)
    (succeeds : ∀ element ∈ elements, body element = .ok (result element)) :
    elements.mapM body = .ok (elements.map result) := by
  rw [mapM_eq_ok_iff, List.forall₂_map_right_iff]
  exact List.forall₂_same.mpr succeeds

theorem FailsOnly.mapM {expected : ε → Prop} {body : α → Except ε β} {elements : List α}
    (fails : ∀ element ∈ elements, FailsOnly expected (body element)) :
    FailsOnly expected (elements.mapM body) := by
  induction elements with
  | nil => exact failsOnly_ok []
  | cons element elements ih =>
      have later := ih fun other other_mem => fails other (List.mem_cons_of_mem element other_mem)
      rw [List.mapM_cons]
      refine (fails element List.mem_cons_self).bind fun result _ => ?_
      exact later.bind fun results _ => failsOnly_ok (result :: results)

section Pairwise

variable {related : α → β → Prop} {left : List α} {right : List β}

theorem exists_left_of_forall₂ (pairwise : List.Forall₂ related left right) {result : β}
    (result_mem : result ∈ right) : ∃ element ∈ left, related element result := by
  induction pairwise with
  | nil => simp at result_mem
  | cons first _ ih =>
      rcases List.mem_cons.mp result_mem with rfl | later
      · exact ⟨_, List.mem_cons_self, first⟩
      · rcases ih later with ⟨element, element_mem, holds⟩
        exact ⟨element, List.mem_cons_of_mem _ element_mem, holds⟩

theorem exists_right_of_forall₂ (pairwise : List.Forall₂ related left right) {element : α}
    (element_mem : element ∈ left) : ∃ result ∈ right, related element result := by
  induction pairwise with
  | nil => simp at element_mem
  | cons first _ ih =>
      rcases List.mem_cons.mp element_mem with rfl | later
      · exact ⟨_, List.mem_cons_self, first⟩
      · rcases ih later with ⟨result, result_mem, holds⟩
        exact ⟨result, List.mem_cons_of_mem _ result_mem, holds⟩

end Pairwise

/-- Every result of a successful `mapM` comes from one of its elements. -/
theorem exists_mem_of_mapM_eq_ok {body : α → Except ε β} {elements : List α} {results : List β}
    (mapped : elements.mapM body = .ok results) {result : β} (result_mem : result ∈ results) :
    ∃ element ∈ elements, body element = .ok result :=
  exists_left_of_forall₂ (mapM_eq_ok_iff.mp mapped) result_mem

theorem Returns.mapM {holds : β → Prop} {body : α → Except ε β} {elements : List α}
    (returns : ∀ element ∈ elements, Returns holds (body element)) :
    Returns (fun results => ∀ result ∈ results, holds result) (elements.mapM body) := by
  intro results mapped result result_mem
  rcases exists_mem_of_mapM_eq_ok mapped result_mem with ⟨element, element_mem, returned⟩
  exact returns element element_mem result returned

/-- What one round of a loop preserves, the whole loop preserves. -/
theorem foldlM_invariant {body : σ → α → Except ε σ} (holds : σ → Prop) {elements : List α}
    (preserved : ∀ {before element after}, element ∈ elements → holds before →
      body before element = .ok after → holds after)
    {start finish : σ} (looped : elements.foldlM body start = .ok finish)
    (initially : holds start) : holds finish := by
  induction elements generalizing start with
  | nil =>
      cases looped
      exact initially
  | cons element elements ih =>
      simp only [List.foldlM_cons, bind_eq_ok_iff] at looped
      rcases looped with ⟨middle, first, later⟩
      exact ih (fun element_mem => preserved (List.mem_cons_of_mem element element_mem)) later
        (preserved List.mem_cons_self initially first)

/--
A loop over a list establishes for each element what its own round establishes,
provided that the later rounds preserve it.
-/
theorem foldlM_establishes {body : σ → α → Except ε σ} (holds : σ → Prop)
    (done : α → σ → Prop) {elements : List α}
    (kept : ∀ {before element after}, element ∈ elements → holds before →
      body before element = .ok after → holds after)
    (establishes : ∀ {before element after}, element ∈ elements → holds before →
      body before element = .ok after → done element after)
    (preserved : ∀ {before element after other}, element ∈ elements → holds before →
      body before element = .ok after → done other before → done other after)
    {start finish : σ} (looped : elements.foldlM body start = .ok finish)
    (initially : holds start) : ∀ element ∈ elements, done element finish := by
  induction elements generalizing start with
  | nil => simp
  | cons element elements ih =>
      simp only [List.foldlM_cons, bind_eq_ok_iff] at looped
      rcases looped with ⟨middle, first, later⟩
      have middle_holds : holds middle := kept List.mem_cons_self initially first
      have kept_later : ∀ {before other after}, other ∈ elements → holds before →
          body before other = .ok after → holds after :=
        fun other_mem => kept (List.mem_cons_of_mem element other_mem)
      intro target target_mem
      rcases List.mem_cons.mp target_mem with rfl | target_later
      · have established := establishes List.mem_cons_self initially first
        have carried : holds finish ∧ done target finish :=
          foldlM_invariant (fun state => holds state ∧ done target state)
            (fun other_mem before_holds stepped =>
              ⟨kept_later other_mem before_holds.1 stepped,
                preserved (List.mem_cons_of_mem target other_mem) before_holds.1 stepped
                  before_holds.2⟩)
            later ⟨middle_holds, established⟩
        exact carried.2
      · exact ih kept_later
          (fun other_mem => establishes (List.mem_cons_of_mem element other_mem))
          (fun other_mem => preserved (List.mem_cons_of_mem element other_mem))
          later middle_holds target target_later

/-- A loop whose rounds succeed where a property holds and keep it succeeds and keeps it. -/
theorem exists_foldlM_invariant {body : σ → α → Except ε σ} (holds : σ → Prop) {elements : List α}
    (succeeds : ∀ element ∈ elements, ∀ before, holds before →
      ∃ after, body before element = .ok after ∧ holds after)
    {start : σ} (initially : holds start) :
    ∃ finish, elements.foldlM body start = .ok finish ∧ holds finish := by
  induction elements generalizing start with
  | nil => exact ⟨start, rfl, initially⟩
  | cons element elements ih =>
      rcases succeeds element List.mem_cons_self start initially with ⟨middle, first, kept⟩
      rcases ih (fun other other_mem => succeeds other (List.mem_cons_of_mem element other_mem))
        kept with ⟨finish, later, holds_finish⟩
      refine ⟨finish, ?_, holds_finish⟩
      simp only [List.foldlM_cons, bind_eq_ok_iff]
      exact ⟨middle, first, later⟩

theorem exists_foldlM_eq_ok {body : σ → α → Except ε σ} {elements : List α}
    (succeeds : ∀ element ∈ elements, ∀ before, ∃ after, body before element = .ok after)
    (start : σ) : ∃ finish, elements.foldlM body start = .ok finish := by
  have looped : ∃ finish, elements.foldlM body start = .ok finish ∧ True :=
    exists_foldlM_invariant (fun _ => True) (fun element element_mem before _ =>
      (succeeds element element_mem before).imp fun _ returned => ⟨returned, trivial⟩) trivial
  exact looped.imp fun _ facts => facts.1

end Fallible
