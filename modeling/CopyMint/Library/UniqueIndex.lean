import CopyMint.Library.Relational
import Mathlib.Data.List.Perm.Subperm

/-!
# Insertions into a unique index

A table keeps its committed rows apart from those that open transactions have
inserted. A unique index covers both. An insertion that would violate it does nothing
where the other row is committed, and waits for the end of its transaction where it is
not. The transaction in the end commits its row or takes it back.

As long as rows are only inserted in this way, the index stays unique over all rows
together, so that whatever commits later is unique as well.
-/

namespace UniqueIndex

open Relational

universe u v

variable {Row : Type u} {Key : Type v}

/-- The committed rows of a table, and those that open transactions have inserted. -/
structure Table (Row : Type u) where
  rows : List Row
  pending : List Row

/-- What an insertion comes to that does not have to wait. -/
inductive Insertion (Row : Type u) where
  | inserted (table : Table Row)
  | conflict
  | violation

namespace Table

/-- A table without rows. -/
def empty : Table Row := ⟨[], []⟩

/--
Insert a row that gives way to a committed one with the same key. Another constraint
is violated where the new row clashes with an existing one.
-/
def insertOnConflict [DecidableEq Key] (key : Row → Key) (clashes : Row → Row → Bool)
    (row : Row) (table : Table Row) : Option (Insertion Row) :=
  if ∃ other ∈ table.rows, key other = key row then some .conflict
  else if ∃ other ∈ table.pending, key other = key row then none
  else if table.rows.any (clashes row) then some .violation
  else if table.pending.any (clashes row) then none
  else some (.inserted { table with pending := table.pending ++ [row] })

variable [DecidableEq Row]

/-- Commit the row that a transaction has inserted, if any. -/
def commit (new : Option Row) (table : Table Row) : Table Row :=
  match new with
  | none => table
  | some row => ⟨table.rows ++ [row], table.pending.erase row⟩

/-- Take back the row that a transaction has inserted, if any. -/
def rollback (new : Option Row) (table : Table Row) : Table Row :=
  match new with
  | none => table
  | some row => { table with pending := table.pending.erase row }

/-- The index is unique over the committed and the pending rows. -/
def Sound (key : Row → Key) (table : Table Row) : Prop :=
  Unique key (table.rows ++ table.pending)

end Table

open Table

variable {key : Row → Key} {clashes : Row → Row → Bool} {row other : Row} {table after : Table Row}

section Insert

variable [DecidableEq Key]

/-- An inserted row differs in its key from all others and clashes with none of them. -/
theorem insertOnConflict_eq_inserted
    (inserted : table.insertOnConflict key clashes row = some (.inserted after)) :
    after = { table with pending := table.pending ++ [row] } ∧
      ∀ existing ∈ table.rows ++ table.pending, key existing ≠ key row ∧
        clashes row existing = false := by
  simp only [insertOnConflict] at inserted
  split_ifs at inserted with committed pending clashing clashing'
  · cases inserted
  · cases inserted
  · cases inserted
    simp only [not_exists, not_and] at committed pending
    rw [Bool.not_eq_true, List.any_eq_false] at clashing clashing'
    refine ⟨rfl, fun existing existing_mem => ?_⟩
    rcases List.mem_append.mp existing_mem with isCommitted | isPending
    · exact ⟨committed existing isCommitted, by simpa using clashing existing isCommitted⟩
    · exact ⟨pending existing isPending, by simpa using clashing' existing isPending⟩

theorem insertOnConflict_eq_conflict
    (conflict : table.insertOnConflict key clashes row = some .conflict) :
    ∃ existing ∈ table.rows, key existing = key row := by
  simp only [insertOnConflict] at conflict
  split_ifs at conflict with committed
  · exact committed
  · cases conflict
  · cases conflict

/-- A violation is one of a committed row with another key. -/
theorem insertOnConflict_eq_violation
    (violation : table.insertOnConflict key clashes row = some .violation) :
    ∃ existing ∈ table.rows, key existing ≠ key row ∧ clashes row existing = true := by
  simp only [insertOnConflict] at violation
  split_ifs at violation with committed pending clashing
  · cases violation
  · rcases List.any_eq_true.mp clashing with ⟨existing, existing_mem, clashes⟩
    exact ⟨existing, existing_mem, fun same => committed ⟨existing, existing_mem, same⟩, clashes⟩
  · cases violation

end Insert

theorem Table.Sound.unique (sound : table.Sound key) : Unique key table.rows :=
  List.Nodup.sublist ((List.sublist_append_left _ _).map key) sound

/-- A committed row and a pending one have different keys. -/
theorem Table.Sound.ne_of_committed (sound : table.Sound key) (committed : row ∈ table.rows)
    (pending : other ∈ table.pending) : key row ≠ key other := by
  rw [Table.Sound, Relational.Unique, List.map_append, List.nodup_append] at sound
  exact sound.2.2 _ (List.mem_map_of_mem committed) _ (List.mem_map_of_mem pending)

theorem Table.Sound.append (sound : table.Sound key)
    (different : ∀ existing ∈ table.rows ++ table.pending, key existing ≠ key row) :
    Table.Sound key { table with pending := table.pending ++ [row] } := by
  simp only [Table.Sound, Relational.Unique, ← List.append_assoc] at sound ⊢
  rw [List.map_append, List.nodup_append]
  refine ⟨sound, by simp, fun value value_mem last last_mem => ?_⟩
  rcases List.mem_map.mp value_mem with ⟨existing, existing_mem, rfl⟩
  simp only [List.map_cons, List.map_nil, List.mem_singleton] at last_mem
  exact last_mem ▸ different existing existing_mem

variable [DecidableEq Row]

/-- Committing a pending row rearranges the rows of the table. -/
theorem Table.Sound.commit {new : Option Row} (sound : table.Sound key)
    (pending : ∀ row ∈ new, row ∈ table.pending) : (table.commit new).Sound key := by
  cases new with
  | none => exact sound
  | some row =>
      have rearranged : (table.rows ++ [row] ++ table.pending.erase row).Perm
          (table.rows ++ table.pending) := by
        rw [List.append_assoc]
        exact (List.perm_cons_erase (pending row rfl)).symm.append_left _
      exact (rearranged.map key).nodup_iff.mpr sound

theorem Table.Sound.rollback (sound : table.Sound key) (new : Option Row) :
    (table.rollback new).Sound key := by
  cases new with
  | none => exact sound
  | some row =>
      refine List.Nodup.sublist (List.Sublist.map key ?_) sound
      exact List.Sublist.append_left List.erase_sublist table.rows

@[simp]
theorem rows_rollback (new : Option Row) : (table.rollback new).rows = table.rows := by
  cases new <;> rfl

@[simp]
theorem rows_commit (new : Option Row) :
    (table.commit new).rows = table.rows ++ new.toList := by
  cases new <;> simp [Table.commit]

theorem pending_commit (new : Option Row) :
    (table.commit new).pending = (table.rollback new).pending := by
  cases new <;> rfl

/-- The pending row of another transaction stays pending. -/
theorem mem_pending_rollback {new : Option Row} (pending : other ∈ table.pending)
    (different : other ∉ new) : other ∈ (table.rollback new).pending := by
  cases new with
  | none => exact pending
  | some row => exact (List.mem_erase_of_ne fun same => different (by simp [same])).mpr pending

end UniqueIndex
