import Mathlib.Data.List.Basic

/-!
# Tables under row-level security

A policy says which rows of a table a statement may read, insert and update under
the settings of its transaction. Rows that a statement may not read or update are
invisible to it, while writing a row that the policy does not admit is a
violation. An insertion that returns columns of its row also reads the row, and
so does an update that selects its rows by their columns.
-/

namespace RowSecurity

universe u v

variable {Settings : Type u} {Row : Type v}

/-- The rows that a table admits for each kind of access. -/
structure Policy (Settings : Type u) (Row : Type v) where
  readable : Settings → Row → Bool
  insertable : Settings → Row → Bool
  updatable : Settings → Row → Bool
  /-- What an updated row must satisfy. -/
  updated : Settings → Row → Bool

/-- One clause for every kind of access. -/
def Policy.isolation (clause : Settings → Row → Bool) : Policy Settings Row where
  readable := clause
  insertable := clause
  updatable := clause
  updated := clause

/-- Equality of nullable values, which null never satisfies. -/
def sqlEqual (left right : Option ℕ) : Bool :=
  match left, right with
  | some left, some right => left = right
  | _, _ => false

@[simp]
theorem sqlEqual_some {left right : ℕ} : sqlEqual (some left) (some right) = (left = right) := by
  simp [sqlEqual]

@[simp]
theorem sqlEqual_none_left {right : Option ℕ} : sqlEqual none right = false := rfl

variable (policy : Policy Settings Row) (settings : Settings)

/-- The rows that a query returns from. -/
def visible (rows : List Row) : List Row := rows.filter (policy.readable settings)

/-- The rows that an update or a locking query can reach. -/
def lockable (rows : List Row) : List Row :=
  rows.filter fun row => policy.readable settings row && policy.updatable settings row

/-- Insert a row and read columns of it back; `none` is a violation. -/
def insertReturning (row : Row) (rows : List Row) : Option (List Row) :=
  if policy.insertable settings row && policy.readable settings row then some (rows ++ [row])
  else none

/-- Rewrite the selected rows that can be reached; `none` is a violation. -/
def updateSelected (selected : Row → Bool) (change : Row → Row) (rows : List Row) :
    Option (List Row) :=
  let reached := fun row =>
    selected row && policy.readable settings row && policy.updatable settings row
  if rows.all fun row => !reached row ||
      (policy.updated settings (change row) && policy.readable settings (change row)) then
    some (rows.map fun row => if reached row then change row else row)
  else none

variable {policy settings} {clause : Settings → Row → Bool} {rows : List Row}

theorem insertReturning_isolation {row : Row} (admitted : clause settings row = true) :
    insertReturning (Policy.isolation clause) settings row rows = some (rows ++ [row]) := by
  simp [insertReturning, Policy.isolation, admitted]

variable (clause settings rows) in
/-- A change that leaves the isolated columns alone is never a violation. -/
theorem exists_updateSelected_isolation (selected : Row → Bool) (change : Row → Row)
    (kept : ∀ row, clause settings row = true → clause settings (change row) = true) :
    ∃ updated, updateSelected (Policy.isolation clause) settings selected change rows =
      some updated := by
  have admitted : (rows.all fun row =>
      !(selected row && clause settings row && clause settings row) ||
        (clause settings (change row) && clause settings (change row))) = true := by
    rw [List.all_eq_true]
    intro row _
    cases readable : clause settings row with
    | false => simp
    | true => simp [kept row readable]
  exact ⟨_, if_pos admitted⟩

theorem mem_of_mem_visible {row : Row} (row_mem : row ∈ visible policy settings rows) :
    row ∈ rows :=
  List.mem_of_mem_filter row_mem

end RowSecurity
