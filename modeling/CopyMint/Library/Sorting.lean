import Mathlib.Data.List.Sort
import Mathlib.Order.Lattice

/-!
# Stable sorting by a key

Sorting by a key keeps the elements of each key in their order, so that the sorted list
is determined by them. It commutes with every selection of elements. A list that is
sorted is divided by any key into the elements up to it and those behind it.
-/

namespace Sorting

universe u v

variable {α : Type u} {κ : Type v} [LinearOrder κ] {key : α → κ}

variable (key) in
/-- Sort by a key, and keep the order of elements with the same key. -/
def sortBy (elements : List α) : List α :=
  elements.insertionSort fun first second => key first ≤ key second

variable (key) in
/-- The keys of a list do not descend. -/
def Ascending (elements : List α) : Prop :=
  elements.Pairwise fun first second => key first ≤ key second

theorem ascending_sortBy (elements : List α) : Ascending key (sortBy key elements) := by
  have total : Std.Total fun first second : α => key first ≤ key second :=
    ⟨fun first second => le_total (key first) (key second)⟩
  have transitive : IsTrans α fun first second => key first ≤ key second :=
    ⟨fun _ _ _ => le_trans⟩
  exact List.pairwise_insertionSort _ elements

theorem sortBy_perm (elements : List α) : (sortBy key elements).Perm elements :=
  List.perm_insertionSort _ elements

@[simp]
theorem mem_sortBy {elements : List α} {element : α} :
    element ∈ sortBy key elements ↔ element ∈ elements :=
  (sortBy_perm elements).mem_iff

theorem sortBy_of_ascending {elements : List α} (ascending : Ascending key elements) :
    sortBy key elements = elements :=
  List.Pairwise.insertionSort_eq ascending

/-- An element in front of all others is inserted at the front. -/
theorem orderedInsert_of_forall_le {element : α} {elements : List α}
    (least : ∀ other ∈ elements, key element ≤ key other) :
    elements.orderedInsert (fun first second => key first ≤ key second) element =
      element :: elements := by
  cases elements with
  | nil => rfl
  | cons other elements =>
      exact List.orderedInsert_cons_of_le _ _ (least other List.mem_cons_self)

/-- An insertion commutes with a selection. -/
theorem filter_orderedInsert (selected : α → Bool) (element : α) {elements : List α}
    (ascending : Ascending key elements) :
    (elements.orderedInsert (fun first second => key first ≤ key second) element).filter selected =
      if selected element then
        (elements.filter selected).orderedInsert (fun first second => key first ≤ key second)
          element
      else elements.filter selected := by
  induction elements with
  | nil => cases kept : selected element <;> simp [kept]
  | cons other elements ih =>
      rcases List.pairwise_cons.mp ascending with ⟨least, rest⟩
      rw [List.orderedInsert_cons]
      by_cases ordered : key element ≤ key other
      · rw [if_pos ordered, List.filter_cons]
        congr 1
        rw [orderedInsert_of_forall_le]
        intro later later_mem
        rcases List.mem_cons.mp (List.mem_of_mem_filter later_mem) with rfl | behind
        · exact ordered
        · exact ordered.trans (least later behind)
      · rw [if_neg ordered, List.filter_cons, ih rest]
        cases kept : selected other with
        | false => simp [kept]
        | true => cases taken : selected element <;> simp [kept, ordered]

theorem sortBy_cons (element : α) (elements : List α) :
    sortBy key (element :: elements) =
      (sortBy key elements).orderedInsert (fun first second => key first ≤ key second) element :=
  rfl

theorem filter_sortBy (selected : α → Bool) (elements : List α) :
    (sortBy key elements).filter selected = sortBy key (elements.filter selected) := by
  induction elements with
  | nil => rfl
  | cons element elements ih =>
      rw [sortBy_cons, filter_orderedInsert selected element (ascending_sortBy elements), ih]
      cases kept : selected element with
      | false => simp [kept]
      | true => simp [kept, sortBy_cons]

theorem mem_iff_of_filter_key_eq {first second : List α}
    (same : ∀ value, first.filter (fun element => key element = value) =
      second.filter fun element => key element = value) (element : α) :
    element ∈ first ↔ element ∈ second := by
  have found : element ∈ first.filter (fun other => key other = key element) ↔
      element ∈ second.filter fun other => key other = key element := by rw [same]
  simpa using found

/-- Ascending lists that agree on the elements of every key are the same. -/
theorem eq_of_filter_key_eq {first second : List α} (ascending : Ascending key first)
    (other_ascending : Ascending key second)
    (same : ∀ value, first.filter (fun element => key element = value) =
      second.filter fun element => key element = value) : first = second := by
  have members := mem_iff_of_filter_key_eq same
  induction first generalizing second with
  | nil =>
      cases second with
      | nil => rfl
      | cons head second => exact absurd ((members head).mpr List.mem_cons_self) (by simp)
  | cons head first ih =>
      cases second with
      | nil => exact absurd ((members head).mp List.mem_cons_self) (by simp)
      | cons other second =>
          rcases List.pairwise_cons.mp ascending with ⟨least, rest⟩
          rcases List.pairwise_cons.mp other_ascending with ⟨other_least, other_rest⟩
          have lower : key head ≤ key other := by
            rcases List.mem_cons.mp ((members other).mpr List.mem_cons_self) with rfl | behind
            · exact le_rfl
            · exact least other behind
          have upper : key other ≤ key head := by
            rcases List.mem_cons.mp ((members head).mp List.mem_cons_self) with rfl | behind
            · exact le_rfl
            · exact other_least head behind
          have keys : key head = key other := le_antisymm lower upper
          have heads : head = other := by
            have lists := same (key head)
            rw [List.filter_cons_of_pos (by simp), List.filter_cons_of_pos (by simp [keys])] at lists
            exact (List.cons.inj lists).1
          subst heads
          have tails : ∀ value, first.filter (fun element => key element = value) =
              second.filter fun element => key element = value := by
            intro value
            have lists := same value
            by_cases equal : key head = value
            · simpa [equal] using lists
            · simpa [equal] using lists
          rw [ih rest other_rest tails (mem_iff_of_filter_key_eq tails)]

/-- The order of elements with different keys does not matter to the sorted list. -/
theorem sortBy_congr {first second : List α}
    (same : ∀ value, first.filter (fun element => key element = value) =
      second.filter fun element => key element = value) : sortBy key first = sortBy key second :=
  eq_of_filter_key_eq (ascending_sortBy first) (ascending_sortBy second) fun value => by
    rw [filter_sortBy, filter_sortBy, same]

/-- A sorted list has the elements up to a key in front of the others. -/
theorem filter_append_filter_not {elements : List α} (ascending : Ascending key elements)
    (early : α → Bool)
    (downward : ∀ first second, key first ≤ key second → early second → early first) :
    elements.filter early ++ elements.filter (fun element => !early element) = elements := by
  induction elements with
  | nil => rfl
  | cons head elements ih =>
      rcases List.pairwise_cons.mp ascending with ⟨least, rest⟩
      cases first : early head with
      | true => simp [first, ih rest]
      | false =>
          have none_early : elements.filter early = [] := by
            rw [List.filter_eq_nil_iff]
            intro element element_mem is_early
            rw [downward head element (least element element_mem) is_early] at first
            cases first
          have all_late : elements.filter (fun element => !early element) = elements := by
            have split := ih rest
            rwa [none_early, List.nil_append] at split
          simp [first, none_early, all_late]

end Sorting
