import CopyMint.Library.Relational

/-!
# Tables that are shared in parts

A part of a table is given by a condition on its rows, such as that they belong to one
owner. An operation whose rows all lie in the part does to it what it would do to a table
of these rows alone, provided that no row elsewhere is in its way. An operation whose
rows lie elsewhere leaves the part alone.
-/

namespace Relational

universe u v

variable {Row : Type u} {Key : Type v} {key : Row → Key} {part : Row → Bool} {rows : List Row}

section Keys

variable [DecidableEq Key] {clashes : Row → Row → Bool} {row : Row}

/-- A key of the part is looked up in the part. -/
theorem lookup_part {value : Key} (own : ∀ row, key row = value → part row = true) :
    lookup key value (rows.filter part) = lookup key value rows := by
  rw [lookup, lookup, List.find?_filter]
  congr 1
  funext row
  by_cases same : key row = value
  · simp [same, own row same]
  · simp [same]

/-- An insertion into the part sees the rows of its key and no others. -/
theorem insertOrGet_part (own : ∀ existing, key existing = key row → part existing = true)
    (fits : ∀ existing ∈ rows, key existing ≠ key row → clashes row existing = false) :
    insertOrGet key clashes row (rows.filter part) =
      (insertOrGet key clashes row rows).map fun result => (result.1.filter part, result.2) := by
  simp only [insertOrGet, lookup_part own]
  cases found : lookup key (key row) rows with
  | some existing => rfl
  | none =>
      have absent := lookup_eq_none_iff.mp found
      have free : rows.any (clashes row) = false := by
        rw [List.any_eq_false]
        intro existing existing_mem
        simp [fits existing existing_mem (absent existing existing_mem)]
      have freePart : (rows.filter part).any (clashes row) = false := by
        rw [List.any_eq_false] at free ⊢
        intro existing existing_mem
        exact free existing (List.mem_filter.mp existing_mem).1
      simp [free, freePart, own row rfl]

/-- An insertion elsewhere leaves the part alone. -/
theorem insertOrGet_elsewhere {next : List Row} {stored : Row} {created : Bool}
    (elsewhere : part row = false)
    (inserted : insertOrGet key clashes row rows = some (next, stored, created)) :
    next.filter part = rows.filter part := by
  cases created with
  | false => rw [(insertOrGet_eq_some_false inserted).1]
  | true => simp [(insertOrGet_eq_some_true inserted).1, elsewhere]

end Keys

section Updates

variable {selected : Row → Bool} {change : Row → Row}

/-- An update acts on the part as on a table of its own. -/
theorem updateWhere_part (kept : ∀ row, part (change row) = part row) :
    (updateWhere selected change rows).filter part =
      updateWhere selected change (rows.filter part) := by
  simp only [updateWhere, List.filter_map]
  congr 2
  funext row
  simp only [Function.comp_apply]
  split_ifs <;> simp [kept]

/-- An update of rows elsewhere leaves the part alone. -/
theorem updateWhere_elsewhere (kept : ∀ row, part (change row) = part row)
    (elsewhere : ∀ row, selected row = true → part row = false) :
    (updateWhere selected change rows).filter part = rows.filter part := by
  rw [updateWhere_part kept, updateWhere]
  refine (List.map_congr_left fun row row_mem => ?_).trans (List.map_id _)
  have unselected : selected row ≠ true := by
    intro chosen
    have outside := elsewhere row chosen
    rw [(List.mem_filter.mp row_mem).2] at outside
    cases outside
  exact if_neg unselected

/-- An update of rows of the part reads one of them back. -/
theorem find?_part (own : ∀ row, selected row = true → part row = true) :
    (rows.filter part).find? selected = rows.find? selected := by
  rw [List.find?_filter]
  congr 1
  funext row
  by_cases chosen : selected row = true
  · simp [chosen, own row chosen]
  · simp [chosen]

end Updates

end Relational
