import CopyMint.Library.Relational
import CopyMint.Library.RowSecurity
import Mathlib.Tactic.SplitIfs

/-!
# Tables that their constraints admit

Every row of a table is valid, has an identifier of its own that has been drawn, and a
value of its own under a unique constraint. Inserting a row with a new identifier and
rewriting rows under their keys keep this, and so does drawing further identifiers.
-/

namespace Relational

universe u v

variable {Row : Type u} {Key : Type v} {valid weaker : Row → Prop} {id : Row → ℕ}
  {key : Row → Key} {nextId : ℕ} {rows : List Row}

/-- The rows satisfy the constraints of their table, and numbers have been drawn for them. -/
structure Admitted (valid : Row → Prop) (id : Row → ℕ) (key : Row → Key) (nextId : ℕ)
    (rows : List Row) : Prop where
  valid : ∀ row ∈ rows, valid row
  ids : Unique id rows
  drawn : ∀ row ∈ rows, id row < nextId
  unique : Unique key rows

namespace Admitted

theorem mono (admitted : Admitted valid id key nextId rows) {laterId : ℕ}
    (weakens : ∀ row, valid row → weaker row) (later : nextId ≤ laterId) :
    Admitted weaker id key laterId rows where
  valid := fun row row_mem => weakens row (admitted.valid row row_mem)
  ids := admitted.ids
  drawn := fun row row_mem => Nat.lt_of_lt_of_le (admitted.drawn row row_mem) later
  unique := admitted.unique

/-- A valid row with the next identifier and a key that is free is admitted. -/
theorem append [DecidableEq Key] (admitted : Admitted valid id key nextId rows) {row : Row}
    (isValid : valid row) (new : id row = nextId) (free : ∀ other ∈ rows, key other ≠ key row) :
    Admitted valid id key (nextId + 1) (rows ++ [row]) where
  valid := by
    intro other other_mem
    rcases List.mem_append.mp other_mem with old | added
    · exact admitted.valid other old
    · rw [List.mem_singleton.mp added]
      exact isValid
  ids := by
    apply admitted.ids.append
    rw [lookup_eq_none_iff]
    intro other other_mem same
    have old := admitted.drawn other other_mem
    omega
  drawn := by
    intro other other_mem
    rcases List.mem_append.mp other_mem with old | added
    · exact Nat.lt_succ_of_lt (admitted.drawn other old)
    · rw [List.mem_singleton.mp added, new]
      exact Nat.lt_succ_self nextId
  unique := admitted.unique.append (lookup_eq_none_iff.mpr free)

/-- Rows that are rewritten under their keys are admitted if they remain valid. -/
theorem updateWhere (admitted : Admitted valid id key nextId rows) {selected : Row → Bool}
    {change : Row → Row} (sameId : ∀ row, id (change row) = id row)
    (sameKey : ∀ row, key (change row) = key row)
    (remains : ∀ row ∈ rows, selected row = true → valid (change row)) :
    Admitted valid id key nextId (Relational.updateWhere selected change rows) where
  valid := by
    intro row row_mem
    rcases mem_updateWhere.mp row_mem with ⟨old, old_mem, rfl⟩
    split_ifs with chosen
    · exact remains old old_mem chosen
    · exact admitted.valid old old_mem
  ids := admitted.ids.updateWhere sameId
  drawn := by
    intro row row_mem
    rcases mem_updateWhere.mp row_mem with ⟨old, old_mem, rfl⟩
    have drawn := admitted.drawn old old_mem
    split_ifs
    · rw [sameId]
      exact drawn
    · exact drawn
  unique := admitted.unique.updateWhere sameKey

end Admitted

/-- A partial constraint remains where rows are rewritten that leave its part of the table. -/
theorem Unique.filter_updateWhere {part selected : Row → Bool} {change : Row → Row}
    (unique : Unique key (rows.filter part)) (leaves : ∀ row, part (change row) = false) :
    Unique key ((Relational.updateWhere selected change rows).filter part) := by
  have kept : (Relational.updateWhere selected change rows).filter part =
      (rows.filter part).filter fun row => !selected row := by
    induction rows with
    | nil => rfl
    | cons row rows ih =>
        have ih := ih (unique.sublist ((List.sublist_cons_self row rows).filter part |>.map key))
        simp only [Relational.updateWhere] at ih ⊢
        by_cases chosen : selected row = true
        · by_cases inside : part row = true <;> simp [chosen, inside, leaves, ih]
        · by_cases inside : part row = true <;> simp [chosen, inside, ih]
  rw [kept]
  exact unique.sublist (List.filter_sublist.map key)

/-- An identifier that is in use. -/
def Has (id : Row → ℕ) (rows : List Row) (value : ℕ) : Prop :=
  ∃ row ∈ rows, id row = value

theorem Has.append {value : ℕ} (has : Has id rows value) (added : List Row) :
    Has id (rows ++ added) value := by
  rcases has with ⟨row, row_mem, same⟩
  exact ⟨row, List.mem_append_left added row_mem, same⟩

theorem has_append_singleton (rows : List Row) (row : Row) : Has id (rows ++ [row]) (id row) :=
  ⟨row, List.mem_append_right rows (List.mem_singleton_self row), rfl⟩

theorem Has.updateWhere {value : ℕ} (has : Has id rows value) {change : Row → Row}
    (sameId : ∀ row, id (change row) = id row) (selected : Row → Bool) :
    Has id (Relational.updateWhere selected change rows) value := by
  rcases has with ⟨row, row_mem, same⟩
  refine ⟨_, mem_updateWhere.mpr ⟨row, row_mem, rfl⟩, ?_⟩
  split_ifs
  · rw [sameId, same]
  · exact same

end Relational

namespace RowSecurity

open Relational

universe u v

variable {Settings : Type u} {Row : Type v} {policy : Policy Settings Row} {settings : Settings}
  {rows updated : List Row}

/-- An update that is no violation rewrites rows that it selects. -/
theorem updateSelected_eq_some {selected : Row → Bool} {change : Row → Row}
    (returned : updateSelected policy settings selected change rows = some updated) :
    ∃ reached : Row → Bool, updated = updateWhere reached change rows := by
  simp only [updateSelected] at returned
  split_ifs at returned
  cases returned
  exact ⟨_, rfl⟩

theorem insertReturning_eq_some {row : Row}
    (returned : insertReturning policy settings row rows = some updated) :
    updated = rows ++ [row] := by
  simp only [insertReturning] at returned
  split_ifs at returned
  cases returned
  rfl

end RowSecurity
