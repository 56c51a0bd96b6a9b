import Mathlib.Order.Lattice
import Mathlib.Data.List.Induction

/-!
# The newest of the observations

A register keeps one of the observations that it is offered. It takes a new one
unless it holds a newer one already. Whatever the order in which observations are
offered, and however often each of them is, the register then holds one of them
that no other one is newer than. Where observations with equal stamps have equal
values there is only one such observation, so that the register depends only on
the set of the observations.
-/

namespace Newest

universe u v

variable {Value : Type u} {Stamp : Type v}

/-- A value with the stamp under which it was observed. -/
@[ext]
structure Observation (Value : Type u) (Stamp : Type v) where
  value : Value
  stamp : Stamp
  deriving DecidableEq

/-- Observations with equal stamps have equal values. -/
def Consistent (observations : List (Observation Value Stamp)) : Prop :=
  ∀ first ∈ observations, ∀ second ∈ observations, first.stamp = second.stamp →
    first.value = second.value

variable [LinearOrder Stamp]

/-- What the register holds is not newer than a stamp. -/
def NotNewer (stored : Option (Observation Value Stamp)) (stamp : Stamp) : Prop :=
  ∀ held ∈ stored, held.stamp ≤ stamp

instance (stored : Option (Observation Value Stamp)) (stamp : Stamp) :
    Decidable (NotNewer stored stamp) :=
  match stored with
  | none => .isTrue (by simp [NotNewer])
  | some held => decidable_of_iff (held.stamp ≤ stamp) (by simp [NotNewer])

/-- Offer an observation to the register. -/
def offer (stored : Option (Observation Value Stamp)) (new : Observation Value Stamp) :
    Option (Observation Value Stamp) :=
  if NotNewer stored new.stamp then some new else stored

/-- The register after all observations have been offered in turn. -/
def newest (observations : List (Observation Value Stamp)) :
    Option (Observation Value Stamp) :=
  observations.foldl offer none

variable {stored : Option (Observation Value Stamp)} {new held : Observation Value Stamp}
  {observations : List (Observation Value Stamp)}

@[simp]
theorem notNewer_none (stamp : Stamp) :
    NotNewer (none : Option (Observation Value Stamp)) stamp := by
  simp [NotNewer]

@[simp]
theorem newest_nil : newest ([] : List (Observation Value Stamp)) = none := rfl

@[simp]
theorem newest_concat (observations : List (Observation Value Stamp))
    (new : Observation Value Stamp) :
    newest (observations ++ [new]) = offer (newest observations) new := by
  simp [newest, List.foldl_append]

theorem offer_of_notNewer (notNewer : NotNewer stored new.stamp) :
    offer stored new = some new :=
  if_pos notNewer

theorem offer_of_newer (newer : ¬NotNewer stored new.stamp) : offer stored new = stored :=
  if_neg newer

/-- The register never goes back to an older observation. -/
theorem le_offer (heldBefore : stored = some held) :
    ∃ after, offer stored new = some after ∧ held.stamp ≤ after.stamp := by
  by_cases notNewer : NotNewer stored new.stamp
  · exact ⟨new, offer_of_notNewer notNewer, notNewer held heldBefore⟩
  · exact ⟨held, (offer_of_newer notNewer).trans heldBefore, le_rfl⟩

/-- The register holds something at least as new as what it was just offered. -/
theorem new_le_offer : ∃ after, offer stored new = some after ∧ new.stamp ≤ after.stamp := by
  by_cases notNewer : NotNewer stored new.stamp
  · exact ⟨new, offer_of_notNewer notNewer, le_rfl⟩
  · have newer := notNewer
    simp only [NotNewer, not_forall] at newer
    rcases newer with ⟨held, heldBefore, later⟩
    exact ⟨held, (offer_of_newer notNewer).trans heldBefore, (not_le.mp later).le⟩

theorem mem_of_newest_eq_some (found : newest observations = some held) :
    held ∈ observations := by
  induction observations using List.reverseRecOn generalizing held with
  | nil => simp at found
  | append_singleton observations new ih =>
      rw [newest_concat] at found
      by_cases notNewer : NotNewer (newest observations) new.stamp
      · rw [offer_of_notNewer notNewer, Option.some.injEq] at found
        simp [found]
      · rw [offer_of_newer notNewer] at found
        exact List.mem_append_left _ (ih found)

/-- Every observation has found its way into the register, or a newer one has. -/
theorem exists_newest_of_mem {observation : Observation Value Stamp}
    (offered : observation ∈ observations) :
    ∃ held, newest observations = some held ∧ observation.stamp ≤ held.stamp := by
  induction observations using List.reverseRecOn with
  | nil => simp at offered
  | append_singleton observations new ih =>
      rw [newest_concat]
      rcases List.mem_append.mp offered with earlier | last
      · rcases ih earlier with ⟨held, heldBefore, older⟩
        obtain ⟨after, offered, later⟩ :
            ∃ after, offer (newest observations) new = some after ∧ held.stamp ≤ after.stamp :=
          le_offer heldBefore
        exact ⟨after, offered, older.trans later⟩
      · rw [List.mem_singleton] at last
        subst last
        exact new_le_offer

/-- In a consistent collection there is one observation that the register can hold. -/
theorem newest_eq_some_iff (consistent : Consistent observations) :
    newest observations = some held ↔
      held ∈ observations ∧ ∀ other ∈ observations, other.stamp ≤ held.stamp := by
  constructor
  · intro found
    refine ⟨mem_of_newest_eq_some found, fun other other_mem => ?_⟩
    rcases exists_newest_of_mem other_mem with ⟨held', found', older⟩
    rw [found, Option.some.injEq] at found'
    exact found' ▸ older
  · rintro ⟨held_mem, greatest⟩
    rcases exists_newest_of_mem held_mem with ⟨kept, found, older⟩
    have kept_mem := mem_of_newest_eq_some found
    have sameStamp : kept.stamp = held.stamp := le_antisymm (greatest kept kept_mem) older
    have sameValue := consistent kept kept_mem held held_mem sameStamp
    rw [found, Observation.ext sameValue sameStamp]

/-- Neither the order of consistent observations nor their repetition matters. -/
theorem newest_congr {reordered : List (Observation Value Stamp)}
    (consistent : Consistent observations)
    (same : ∀ observation, observation ∈ reordered ↔ observation ∈ observations) :
    newest reordered = newest observations := by
  have reorderedConsistent : Consistent reordered := by
    intro first first_mem second second_mem
    exact consistent first ((same first).mp first_mem) second ((same second).mp second_mem)
  ext held
  calc newest reordered = some held
      ↔ held ∈ reordered ∧ ∀ other ∈ reordered, other.stamp ≤ held.stamp :=
        newest_eq_some_iff reorderedConsistent
    _ ↔ held ∈ observations ∧ ∀ other ∈ observations, other.stamp ≤ held.stamp := by
        simp only [same]
    _ ↔ newest observations = some held := (newest_eq_some_iff consistent).symm

end Newest
