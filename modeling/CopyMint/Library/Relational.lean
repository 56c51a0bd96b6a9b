import Mathlib.Data.List.Nodup

/-!
# Tables with a unique key

A table is the list of its rows in insertion order, and a unique constraint is
a function `key` on rows whose values are pairwise distinct over the table.
`insertOrIgnore` is an insertion that gives way to an existing row with the same
key, `insertOrGet` is one that reads that row instead, `lookup` reads a row by its
key, `updateWhere` rewrites selected rows and `updateReturning` reads one of them
back.
-/

namespace Relational

universe u v

variable {Row : Type u} {Key : Type v} [DecidableEq Key] {key : Row → Key}

/-- The values of a unique constraint are pairwise distinct over the table. -/
def Unique (key : Row → Key) (rows : List Row) : Prop :=
  (rows.map key).Nodup

/-- Insert a row unless the table already has one with its key. -/
def insertOrIgnore (key : Row → Key) (row : Row) (rows : List Row) : List Row :=
  if ∃ existing ∈ rows, key existing = key row then rows else rows ++ [row]

/-- Insert rows one after another, each unless its key is taken. -/
def insertAllOrIgnore (key : Row → Key) (new : List Row) (rows : List Row) : List Row :=
  new.foldl (fun table row => insertOrIgnore key row table) rows

/-- The first row with a key, which is the only one where the key is unique. -/
def lookup (key : Row → Key) (value : Key) (rows : List Row) : Option Row :=
  rows.find? fun row => key row = value

/--
Insert a row, or read the one that has its key already. The result tells which of
the two it was; there is none where the new row violates another constraint,
that is, clashes with an existing row.
-/
def insertOrGet (key : Row → Key) (clashes : Row → Row → Bool) (row : Row) (rows : List Row) :
    Option (List Row × Row × Bool) :=
  match lookup key (key row) rows with
  | some existing => some (rows, existing, false)
  | none => if rows.any (clashes row) then none else some (rows ++ [row], row, true)

/-- Rewrite the rows that satisfy a condition. -/
def updateWhere (selected : Row → Bool) (change : Row → Row) (rows : List Row) : List Row :=
  rows.map fun row => if selected row then change row else row

/-- Rewrite the rows that satisfy a condition, and read the first of them back. -/
def updateReturning (selected : Row → Bool) (change : Row → Row) (rows : List Row) :
    List Row × Option Row :=
  (updateWhere selected change rows, (rows.find? selected).map change)

omit [DecidableEq Key] in
@[simp]
theorem unique_nil : Unique key [] := List.nodup_nil

omit [DecidableEq Key] in
/-- Under a unique constraint, a row is determined by its key. -/
theorem Unique.eq_of_key_eq {rows : List Row} (unique : Unique key rows) {first second : Row}
    (first_mem : first ∈ rows) (second_mem : second ∈ rows) (same : key first = key second) :
    first = second :=
  List.inj_on_of_nodup_map unique first_mem second_mem same

theorem insertOrIgnore_of_conflict {row : Row} {rows : List Row}
    (conflict : ∃ existing ∈ rows, key existing = key row) :
    insertOrIgnore key row rows = rows := by
  simp only [insertOrIgnore, if_pos conflict]

theorem insertOrIgnore_of_absent {row : Row} {rows : List Row}
    (absent : ∀ existing ∈ rows, key existing ≠ key row) :
    insertOrIgnore key row rows = rows ++ [row] := by
  have noConflict : ¬∃ existing ∈ rows, key existing = key row := by
    rintro ⟨existing, existing_mem, same⟩
    exact absent existing existing_mem same
  simp only [insertOrIgnore, if_neg noConflict]

theorem mem_insertOrIgnore {row candidate : Row} {rows : List Row} :
    candidate ∈ insertOrIgnore key row rows ↔
      candidate ∈ rows ∨ (candidate = row ∧ ∀ existing ∈ rows, key existing ≠ key row) := by
  by_cases conflict : ∃ existing ∈ rows, key existing = key row
  · rw [insertOrIgnore_of_conflict conflict]
    rcases conflict with ⟨existing, existing_mem, same⟩
    constructor
    · exact Or.inl
    · rintro (old | ⟨_, absent⟩)
      · exact old
      · exact absurd same (absent existing existing_mem)
  · have absent : ∀ existing ∈ rows, key existing ≠ key row := by
      intro existing existing_mem same
      exact conflict ⟨existing, existing_mem, same⟩
    rw [insertOrIgnore_of_absent absent, List.mem_append, List.mem_singleton]
    exact or_congr_right (iff_self_and.mpr fun _ => absent)

theorem mem_insertOrIgnore_of_mem {row candidate : Row} {rows : List Row}
    (old : candidate ∈ rows) : candidate ∈ insertOrIgnore key row rows :=
  mem_insertOrIgnore.mpr (Or.inl old)

variable (key) in
/-- After the insertion some row has the key, whoever inserted it. -/
theorem exists_mem_insertOrIgnore (row : Row) (rows : List Row) :
    ∃ stored ∈ insertOrIgnore key row rows, key stored = key row := by
  by_cases conflict : ∃ existing ∈ rows, key existing = key row
  · rw [insertOrIgnore_of_conflict conflict]
    exact conflict
  · refine ⟨row, mem_insertOrIgnore.mpr (Or.inr ⟨rfl, ?_⟩), rfl⟩
    intro existing existing_mem same
    exact conflict ⟨existing, existing_mem, same⟩

theorem Unique.insertOrIgnore {rows : List Row} (unique : Unique key rows) (row : Row) :
    Unique key (insertOrIgnore key row rows) := by
  by_cases conflict : ∃ existing ∈ rows, key existing = key row
  · rw [insertOrIgnore_of_conflict conflict]
    exact unique
  · have absent : ∀ existing ∈ rows, key existing ≠ key row := by
      intro existing existing_mem same
      exact conflict ⟨existing, existing_mem, same⟩
    rw [insertOrIgnore_of_absent absent, Unique, List.map_append, List.nodup_append]
    refine ⟨unique, by simp, ?_⟩
    intro value value_mem other other_mem
    rcases List.mem_map.mp value_mem with ⟨existing, existing_mem, rfl⟩
    simp only [List.map_cons, List.map_nil, List.mem_singleton] at other_mem
    exact other_mem ▸ absent existing existing_mem

section Growth

variable {isNew : Row → Prop} {before middle after : List Row}

/-- Rows with a property are added at the end of a table, under keys that were free. -/
def Grows (key : Row → Key) (isNew : Row → Prop) (before after : List Row) : Prop :=
  ∃ added, after = before ++ added ∧
    ∀ row ∈ added, isNew row ∧ ∀ existing ∈ before, key existing ≠ key row

omit [DecidableEq Key] in
theorem Grows.refl (rows : List Row) : Grows key isNew rows rows := ⟨[], by simp, by simp⟩

omit [DecidableEq Key] in
theorem Grows.trans (first : Grows key isNew before middle)
    (second : Grows key isNew middle after) :
    Grows key isNew before after := by
  rcases first with ⟨added, rfl, new⟩
  rcases second with ⟨later, rfl, newer⟩
  refine ⟨added ++ later, List.append_assoc before added later, fun row row_mem => ?_⟩
  rcases List.mem_append.mp row_mem with row_mem | row_mem
  · exact new row row_mem
  · refine ⟨(newer row row_mem).1, fun existing existing_mem => ?_⟩
    exact (newer row row_mem).2 existing (List.mem_append_left added existing_mem)

omit [DecidableEq Key] in
theorem Grows.imp {isNewer : Row → Prop}
    (implies : ∀ row, isNew row → (∀ existing ∈ before, key existing ≠ key row) → isNewer row)
    (grows : Grows key isNew before after) : Grows key isNewer before after := by
  rcases grows with ⟨added, rfl, new⟩
  refine ⟨added, rfl, fun row row_mem => ?_⟩
  rcases new row row_mem with ⟨isNew, free⟩
  exact ⟨implies row isNew free, free⟩

theorem grows_insertOrIgnore {row : Row} (new : isNew row) (rows : List Row) :
    Grows key isNew rows (insertOrIgnore key row rows) := by
  by_cases conflict : ∃ existing ∈ rows, key existing = key row
  · rw [insertOrIgnore_of_conflict conflict]
    exact Grows.refl rows
  · have free : ∀ existing ∈ rows, key existing ≠ key row := by
      intro existing existing_mem same
      exact conflict ⟨existing, existing_mem, same⟩
    rw [insertOrIgnore_of_absent free]
    refine ⟨[row], rfl, fun other other_mem => ?_⟩
    rw [List.mem_singleton.mp other_mem]
    exact ⟨new, free⟩

end Growth

@[simp]
theorem insertAllOrIgnore_nil (rows : List Row) : insertAllOrIgnore key [] rows = rows := rfl

@[simp]
theorem insertAllOrIgnore_cons (row : Row) (new rows : List Row) :
    insertAllOrIgnore key (row :: new) rows =
      insertAllOrIgnore key new (insertOrIgnore key row rows) := rfl

theorem mem_insertAllOrIgnore_of_mem (new : List Row) {rows : List Row} {candidate : Row}
    (old : candidate ∈ rows) : candidate ∈ insertAllOrIgnore key new rows := by
  induction new generalizing rows with
  | nil => exact old
  | cons row new ih => exact ih (mem_insertOrIgnore_of_mem old)

theorem mem_or_mem_of_mem_insertAllOrIgnore {new rows : List Row} {candidate : Row}
    (stored : candidate ∈ insertAllOrIgnore key new rows) :
    candidate ∈ rows ∨ candidate ∈ new := by
  induction new generalizing rows with
  | nil => exact Or.inl stored
  | cons row new ih =>
      rcases ih stored with inserted | later
      · rcases mem_insertOrIgnore.mp inserted with old | ⟨rfl, _⟩
        · exact Or.inl old
        · exact Or.inr List.mem_cons_self
      · exact Or.inr (List.mem_cons_of_mem row later)

/-- Rows with keys of their own are inserted exactly where the table has no row with their key. -/
theorem mem_insertAllOrIgnore {new rows : List Row} {candidate : Row}
    (distinct : new.Pairwise fun first second => key first ≠ key second) :
    candidate ∈ insertAllOrIgnore key new rows ↔
      candidate ∈ rows ∨
        (candidate ∈ new ∧ ∀ existing ∈ rows, key existing ≠ key candidate) := by
  induction new generalizing rows with
  | nil => simp
  | cons row new ih =>
      rcases List.pairwise_cons.mp distinct with ⟨apart, distinct⟩
      rw [insertAllOrIgnore_cons, ih distinct, mem_insertOrIgnore, List.mem_cons]
      constructor
      · rintro ((old | ⟨rfl, absent⟩) | ⟨later, absent⟩)
        · exact Or.inl old
        · exact Or.inr ⟨Or.inl rfl, absent⟩
        · refine Or.inr ⟨Or.inr later, fun existing existing_mem => ?_⟩
          exact absent existing (mem_insertOrIgnore_of_mem existing_mem)
      · rintro (old | ⟨rfl | later, absent⟩)
        · exact Or.inl (Or.inl old)
        · exact Or.inl (Or.inr ⟨rfl, absent⟩)
        · refine Or.inr ⟨later, fun existing existing_mem => ?_⟩
          rcases mem_insertOrIgnore.mp existing_mem with old | ⟨rfl, _⟩
          · exact absent existing old
          · exact apart candidate later

theorem exists_mem_insertAllOrIgnore {new : List Row} {row : Row} (row_mem : row ∈ new)
    (rows : List Row) : ∃ stored ∈ insertAllOrIgnore key new rows, key stored = key row := by
  induction new generalizing rows with
  | nil => simp at row_mem
  | cons first new ih =>
      rcases List.mem_cons.mp row_mem with rfl | later
      · rcases exists_mem_insertOrIgnore key row rows with ⟨stored, stored_mem, same⟩
        exact ⟨stored, mem_insertAllOrIgnore_of_mem new stored_mem, same⟩
      · exact ih later _

theorem Unique.insertAllOrIgnore {rows : List Row} (unique : Unique key rows) (new : List Row) :
    Unique key (insertAllOrIgnore key new rows) := by
  induction new generalizing rows with
  | nil => exact unique
  | cons row new ih => exact ih (unique.insertOrIgnore row)

/-- Where the key is unique, exactly one row has the key of a row of the table. -/
theorem Unique.countP_eq_one {rows : List Row} (unique : Unique key rows) {row : Row}
    (row_mem : row ∈ rows) : (rows.countP fun other => key other = key row) = 1 := by
  have once := List.count_eq_one_of_mem unique (List.mem_map_of_mem row_mem)
  rw [List.count, List.countP_map] at once
  rw [← once]
  apply List.countP_congr
  simp

theorem lookup_eq_some_mem {value : Key} {rows : List Row} {row : Row}
    (found : lookup key value rows = some row) : row ∈ rows ∧ key row = value := by
  refine ⟨List.mem_of_find?_eq_some found, ?_⟩
  simpa using List.find?_some found

theorem lookup_eq_none_iff {value : Key} {rows : List Row} :
    lookup key value rows = none ↔ ∀ row ∈ rows, key row ≠ value := by
  simp [lookup]

theorem Unique.lookup_of_mem {rows : List Row} (unique : Unique key rows) {row : Row}
    (row_mem : row ∈ rows) : lookup key (key row) rows = some row := by
  cases found : lookup key (key row) rows with
  | none => exact absurd rfl (lookup_eq_none_iff.mp found row row_mem)
  | some other =>
      have other_mem := lookup_eq_some_mem found
      rw [unique.eq_of_key_eq other_mem.1 row_mem other_mem.2]

theorem Unique.append {rows : List Row} (unique : Unique key rows) {row : Row}
    (absent : lookup key (key row) rows = none) : Unique key (rows ++ [row]) := by
  rw [← insertOrIgnore_of_absent (lookup_eq_none_iff.mp absent)]
  exact unique.insertOrIgnore row

/-- Rewriting changes nothing where it does not change the selected rows. -/
theorem updateWhere_eq_self {selected : Row → Bool} {change : Row → Row} {rows : List Row}
    (fixed : ∀ row ∈ rows, selected row → change row = row) :
    updateWhere selected change rows = rows := by
  refine (List.map_congr_left fun row row_mem => ?_).trans (List.map_id rows)
  split_ifs with isSelected
  · exact fixed row row_mem isSelected
  · rfl

theorem mem_updateWhere {selected : Row → Bool} {change : Row → Row} {rows : List Row}
    {candidate : Row} :
    candidate ∈ updateWhere selected change rows ↔
      ∃ row ∈ rows, (if selected row then change row else row) = candidate := by
  simp [updateWhere]

theorem lookup_append (value : Key) (rows new : List Row) :
    lookup key value (rows ++ new) = (lookup key value rows).or (lookup key value new) :=
  List.find?_append

theorem lookup_singleton (value : Key) (row : Row) :
    lookup key value [row] = if key row = value then some row else none := by
  by_cases same : key row = value <;> simp [lookup, same]

theorem lookup_append_new {value : Key} {rows : List Row} {row : Row} (same : key row = value)
    (absent : lookup key value rows = none) : lookup key value (rows ++ [row]) = some row := by
  rw [lookup_append, absent, lookup_singleton, if_pos same, Option.none_or]

theorem lookup_append_other {value : Key} {row : Row} (different : key row ≠ value)
    (rows : List Row) : lookup key value (rows ++ [row]) = lookup key value rows := by
  rw [lookup_append, lookup_singleton, if_neg different, Option.or_none]

/-- A change that keeps the keys can be made before or after the look-up. -/
theorem lookup_updateWhere {selected : Row → Bool} {change : Row → Row}
    (kept : ∀ row, key (change row) = key row) (value : Key) (rows : List Row) :
    lookup key value (updateWhere selected change rows) =
      (lookup key value rows).map fun row => if selected row then change row else row := by
  have sameKey : ∀ row, key (if selected row then change row else row) = key row := by
    intro row
    by_cases chosen : selected row <;> simp [chosen, kept]
  simp only [lookup, updateWhere, List.find?_map, Function.comp_def, sameKey]

theorem lookup_updateWhere_selected {selected : Row → Bool} {change : Row → Row}
    (kept : ∀ row, key (change row) = key row) {value : Key} {rows : List Row} {row : Row}
    (present : lookup key value rows = some row) (chosen : selected row = true) :
    lookup key value (updateWhere selected change rows) = some (change row) := by
  rw [lookup_updateWhere kept, present, Option.map_some, if_pos chosen]

/-- A change of other rows is not seen by the look-up. -/
theorem lookup_updateWhere_of_unselected {selected : Row → Bool} {change : Row → Row}
    (kept : ∀ row, key (change row) = key row) {value : Key}
    (unselected : ∀ row, key row = value → selected row = false) (rows : List Row) :
    lookup key value (updateWhere selected change rows) = lookup key value rows := by
  rw [lookup_updateWhere kept]
  cases found : lookup key value rows with
  | none => rfl
  | some row => simp [unselected row (lookup_eq_some_mem found).2]

omit [DecidableEq Key] in
theorem Unique.updateWhere {rows : List Row} (unique : Unique key rows)
    {selected : Row → Bool} {change : Row → Row} (kept : ∀ row, key (change row) = key row) :
    Unique key (updateWhere selected change rows) := by
  have keys : (Relational.updateWhere selected change rows).map key = rows.map key := by
    simp only [Relational.updateWhere, List.map_map]
    apply List.map_congr_left
    intro row _
    by_cases chosen : selected row <;> simp [chosen, kept]
  simpa only [Unique, keys] using unique

section UpdateReturning

variable {selected : Row → Bool} {change : Row → Row} {rows : List Row}

/-- The row that an update returns is a rewritten one. -/
theorem updateReturning_eq_some {updated : Row}
    (returned : (updateReturning selected change rows).2 = some updated) :
    ∃ row ∈ rows, selected row = true ∧ updated = change row ∧
      updated ∈ (updateReturning selected change rows).1 := by
  rcases Option.map_eq_some_iff.mp returned with ⟨row, found, rfl⟩
  have row_mem := List.mem_of_find?_eq_some found
  have chosen : selected row = true := List.find?_some found
  refine ⟨row, row_mem, chosen, rfl, mem_updateWhere.mpr ⟨row, row_mem, ?_⟩⟩
  rw [if_pos chosen]

end UpdateReturning

section InsertOrGet

variable {clashes : Row → Row → Bool} {row stored : Row} {rows next : List Row}

/-- An insertion that reads an existing row leaves the table alone. -/
theorem insertOrGet_eq_some_false
    (inserted : insertOrGet key clashes row rows = some (next, stored, false)) :
    next = rows ∧ stored ∈ rows ∧ key stored = key row := by
  simp only [insertOrGet] at inserted
  split at inserted
  · rename_i existing found
    cases inserted
    exact ⟨rfl, lookup_eq_some_mem found⟩
  · split_ifs at inserted
    cases inserted

/-- An insertion that creates its row appends it to a table without its key. -/
theorem insertOrGet_eq_some_true
    (inserted : insertOrGet key clashes row rows = some (next, stored, true)) :
    next = rows ++ [row] ∧ stored = row ∧ (∀ other ∈ rows, key other ≠ key row) ∧
      ∀ other ∈ rows, clashes row other = false := by
  simp only [insertOrGet] at inserted
  split at inserted
  · cases inserted
  · rename_i absent
    split_ifs at inserted with clashing
    cases inserted
    rw [Bool.not_eq_true, List.any_eq_false] at clashing
    exact ⟨rfl, rfl, lookup_eq_none_iff.mp absent, fun other other_mem => by
      simpa using clashing other other_mem⟩

variable {created : Bool}

theorem mem_of_insertOrGet
    (inserted : insertOrGet key clashes row rows = some (next, stored, created)) :
    stored ∈ next ∧ key stored = key row := by
  cases created with
  | false =>
      rcases insertOrGet_eq_some_false inserted with ⟨rfl, stored_mem, same⟩
      exact ⟨stored_mem, same⟩
  | true =>
      rcases insertOrGet_eq_some_true inserted with ⟨rfl, rfl, _, _⟩
      simp

theorem subset_of_insertOrGet
    (inserted : insertOrGet key clashes row rows = some (next, stored, created)) :
    rows ⊆ next := by
  cases created with
  | false =>
      rcases insertOrGet_eq_some_false inserted with ⟨rfl, _, _⟩
      exact List.Subset.refl _
  | true =>
      rcases insertOrGet_eq_some_true inserted with ⟨rfl, _, _, _⟩
      exact List.subset_append_left rows [row]

theorem eq_or_mem_of_mem_insertOrGet
    (inserted : insertOrGet key clashes row rows = some (next, stored, created)) {other : Row}
    (other_mem : other ∈ next) : other ∈ rows ∨ other = row := by
  cases created with
  | false =>
      rcases insertOrGet_eq_some_false inserted with ⟨rfl, _, _⟩
      exact .inl other_mem
  | true =>
      rcases insertOrGet_eq_some_true inserted with ⟨rfl, _, _, _⟩
      simpa using other_mem

theorem Unique.insertOrGet {rows next : List Row} {row stored : Row} {created : Bool}
    (unique : Unique key rows)
    (inserted : insertOrGet key clashes row rows = some (next, stored, created)) :
    Unique key next := by
  cases created with
  | false =>
      rcases insertOrGet_eq_some_false inserted with ⟨rfl, _, _⟩
      exact unique
  | true =>
      rcases insertOrGet_eq_some_true inserted with ⟨rfl, _, absent, _⟩
      rw [← insertOrIgnore_of_absent absent]
      exact unique.insertOrIgnore row

end InsertOrGet

end Relational
