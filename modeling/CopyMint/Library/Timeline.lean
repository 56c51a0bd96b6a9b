import Mathlib.Data.Int.Notation
import Mathlib.Data.List.Chain
import Mathlib.Order.Lattice

/-!
# Timelines

A quantity has a value, or none, from a position on, and it changes at later positions.
Its timeline is told in spans: a span is closed right before the change that ends it,
and the last one stays open. A change to a value with the same key is no change. The
spans tell the value at every position, and they are in order with no gaps; a span is
empty only where the quantity changes at the very start.
-/

namespace Timeline

universe u v

section Assigning

variable {ι : Type u} {β : Type v} [LinearOrder ι]

/-- Set the value at a position, as a dictionary does. -/
def assign (position : ι) (value : β) : List (ι × β) → List (ι × β)
  | [] => [(position, value)]
  | (other, old) :: rest =>
      if other = position then (position, value) :: rest
      else (other, old) :: assign position value rest

/-- The last of the entries up to a position. -/
def latest (entries : List (ι × β)) (position : ι) : Option (ι × β) :=
  (entries.filter fun entry => entry.1 ≤ position).getLast?

/-- The positions ascend, and no two are the same. -/
def Ordered (entries : List (ι × β)) : Prop :=
  entries.Pairwise fun first second => first.1 < second.1

variable {entries : List (ι × β)} {position : ι} {value : β}

/-- A value that is set behind all others takes the place of one at its position. -/
theorem assign_eq_append (ordered : Ordered entries)
    (behind : ∀ entry ∈ entries, entry.1 ≤ position) :
    assign position value entries =
      entries.filter (fun entry => entry.1 ≠ position) ++ [(position, value)] := by
  induction entries with
  | nil => rfl
  | cons entry entries ih =>
      rcases entry with ⟨other, old⟩
      rcases List.pairwise_cons.mp ordered with ⟨least, rest⟩
      have behind_rest : ∀ entry ∈ entries, entry.1 ≤ position :=
        fun entry entry_mem => behind entry (List.mem_cons_of_mem _ entry_mem)
      by_cases equal : other = position
      · subst equal
        have none_left : entries = [] := by
          rw [List.eq_nil_iff_forall_not_mem]
          intro entry entry_mem
          exact absurd (behind_rest entry entry_mem) (not_le.mpr (least entry entry_mem))
        simp [assign, none_left]
      · rw [assign, if_neg equal, ih rest behind_rest, List.filter_cons_of_pos (by simpa using equal),
          List.cons_append]

theorem latest_append (entries : List (ι × β)) (position : ι) (value : β) (target : ι) :
    latest (entries ++ [(position, value)]) target =
      if position ≤ target then some (position, value) else latest entries target := by
  simp only [latest, List.filter_append]
  split_ifs with reached
  · simp [reached]
  · simp [reached]

theorem latest_of_forall_lt (later : ∀ entry ∈ entries, position < entry.1) :
    latest entries position = none := by
  have none_reached : entries.filter (fun entry => entry.1 ≤ position) = [] := by
    rw [List.filter_eq_nil_iff]
    intro entry entry_mem
    simpa using later entry entry_mem
  simp only [latest, none_reached, List.getLast?_nil]

theorem latest_cons_self (ordered : Ordered ((position, value) :: entries)) :
    latest ((position, value) :: entries) position = some (position, value) := by
  have later : entries.filter (fun entry => entry.1 ≤ position) = [] := by
    rw [List.filter_eq_nil_iff]
    intro entry entry_mem
    simpa using (List.pairwise_cons.mp ordered).1 entry entry_mem
  simp [latest, later]

/-- The dictionary that the entries of a list are set in, one after another. -/
def assigned (entries : List (ι × β)) : List (ι × β) :=
  entries.foldl (fun dictionary entry => assign entry.1 entry.2 dictionary) []

theorem assigned_append (entries : List (ι × β)) (entry : ι × β) :
    assigned (entries ++ [entry]) = assign entry.1 entry.2 (assigned entries) := by
  simp only [assigned, List.foldl_append, List.foldl_cons, List.foldl_nil]

/--
Entries in ascending order fill a dictionary in ascending order. It has the last entry
of every position.
-/
theorem assigned_spec (ascending : entries.Pairwise fun first second => first.1 ≤ second.1) :
    Ordered (assigned entries) ∧ (∀ entry ∈ assigned entries, entry ∈ entries) ∧
      ∀ target, latest (assigned entries) target = latest entries target := by
  induction entries using List.reverseRecOn with
  | nil => exact ⟨.nil, by simp [assigned], fun _ => rfl⟩
  | append_singleton entries entry ih =>
      rcases entry with ⟨position, value⟩
      rcases List.pairwise_append.mp ascending with ⟨earlier, _, behind⟩
      rcases ih earlier with ⟨ordered, members, same⟩
      have behind : ∀ entry ∈ assigned entries, entry.1 ≤ position :=
        fun entry entry_mem => behind entry (members entry entry_mem) _ (List.mem_singleton_self _)
      rw [assigned_append, assign_eq_append ordered behind]
      refine ⟨?_, ?_, ?_⟩
      · refine List.pairwise_append.mpr ⟨ordered.filter _, List.pairwise_singleton _ _, ?_⟩
        intro entry entry_mem last last_mem
        cases List.mem_singleton.mp last_mem
        rcases List.mem_filter.mp entry_mem with ⟨entry_mem, different⟩
        exact lt_of_le_of_ne (behind entry entry_mem) (by simpa using different)
      · intro entry entry_mem
        rcases List.mem_append.mp entry_mem with old | new
        · exact List.mem_append_left _ (members entry (List.mem_of_mem_filter old))
        · exact List.mem_append_right _ new
      · intro target
        rw [latest_append, latest_append, ← same]
        split_ifs with reached
        · rfl
        · simp only [latest, List.filter_filter]
          congr 1
          refine List.filter_congr fun entry _ => ?_
          by_cases early : entry.1 ≤ target
          · have different : entry.1 ≠ position := by
              rintro rfl
              exact reached early
            simp [early, different]
          · simp [early]

end Assigning

section Spans

variable {α : Type u} {κ : Type v} [DecidableEq κ]

/-- A value from a position on, up to the position that closes the span. -/
structure Span (α : Type u) where
  value : α
  start : ℤ
  stop : Option ℤ

/-- The position is in the span. -/
def Span.Contains (span : Span α) (position : ℤ) : Prop :=
  span.start ≤ position ∧ ∀ stop ∈ span.stop, position ≤ stop

/-- The spans of a quantity from a position on, by its value there and its later changes. -/
def spans (key : α → κ) : Option α → ℤ → List (ℤ × α) → List (Span α)
  | none, _, [] => []
  | some active, since, [] => [⟨active, since, none⟩]
  | none, _, (position, value) :: changes => spans key (some value) position changes
  | some active, since, (position, value) :: changes =>
      if key active = key value then spans key (some active) since changes
      else ⟨active, since, some (position - 1)⟩ :: spans key (some value) position changes

/-- The value at a position. -/
def valueAt (initial : Option α) (changes : List (ℤ × α)) (position : ℤ) : Option α :=
  ((latest changes position).map Prod.snd).or initial

variable {key : α → κ} {initial : Option α} {since : ℤ} {changes : List (ℤ × α)} {position : ℤ}
  {value : α}

theorem valueAt_cons_of_le {target : ℤ} (reached : position ≤ target) :
    valueAt initial ((position, value) :: changes) target = valueAt (some value) changes target := by
  have kept : ((position, value) :: changes).filter (fun entry => entry.1 ≤ target) =
      (position, value) :: changes.filter fun entry => entry.1 ≤ target :=
    List.filter_cons_of_pos (by simpa using reached)
  simp only [valueAt, latest, kept]
  cases changes.filter (fun entry => entry.1 ≤ target) with
  | nil => rfl
  | cons entry entries =>
      rw [List.getLast?_cons_cons, List.getLast?_eq_getLast_of_ne_nil (List.cons_ne_nil _ _)]
      rfl

theorem valueAt_of_forall_lt (later : ∀ change ∈ changes, position < change.1) :
    valueAt initial changes position = initial := by
  simp [valueAt, latest_of_forall_lt later]

omit [DecidableEq κ] in
/-- Only the key of the first value matters to the keys. -/
theorem map_valueAt_congr {first second : α} (same : key first = key second) :
    (valueAt (some first) changes position).map key =
      (valueAt (some second) changes position).map key := by
  simp only [valueAt]
  cases latest changes position with
  | none => simp [same]
  | some change => rfl

theorem forall_le_of_cons (ordered : Ordered ((position, value) :: changes)) :
    ∀ change ∈ changes, position ≤ change.1 :=
  fun change change_mem => ((List.pairwise_cons.mp ordered).1 change change_mem).le

theorem forall_lt_of_cons {target : ℤ} (ordered : Ordered ((position, value) :: changes))
    (early : target < position) : ∀ change ∈ (position, value) :: changes, target < change.1 := by
  intro change change_mem
  rcases List.mem_cons.mp change_mem with rfl | later
  · exact early
  · exact early.trans ((List.pairwise_cons.mp ordered).1 change later)

theorem le_start_of_mem_spans (ordered : Ordered changes)
    (behind : ∀ change ∈ changes, since ≤ change.1) {span : Span α}
    (span_mem : span ∈ spans key initial since changes) : since ≤ span.start := by
  fun_induction spans key initial since changes with
  | case1 => cases span_mem
  | case2 =>
      cases List.mem_singleton.mp span_mem
      exact le_rfl
  | case3 since position value changes ih =>
      have first : since ≤ position := behind (position, value) List.mem_cons_self
      exact first.trans (ih ordered.of_cons (forall_le_of_cons ordered) span_mem)
  | case4 active since position value changes same ih =>
      exact ih ordered.of_cons (fun change change_mem => behind change
        (List.mem_cons_of_mem _ change_mem)) span_mem
  | case5 active since position value changes different ih =>
      have first : since ≤ position := behind (position, value) List.mem_cons_self
      rcases List.mem_cons.mp span_mem with rfl | later
      · exact le_rfl
      · exact first.trans (ih ordered.of_cons (forall_le_of_cons ordered) later)

/-- The value of a span is the first value or that of a change. -/
theorem value_of_mem_spans {span : Span α} (span_mem : span ∈ spans key initial since changes) :
    initial = some span.value ∨ ∃ change ∈ changes, change.2 = span.value := by
  fun_induction spans key initial since changes with
  | case1 => cases span_mem
  | case2 =>
      cases List.mem_singleton.mp span_mem
      exact .inl rfl
  | case3 since position value changes ih =>
      rcases ih span_mem with first | ⟨change, change_mem, later⟩
      · exact .inr ⟨(position, value), List.mem_cons_self, Option.some.inj first⟩
      · exact .inr ⟨change, List.mem_cons_of_mem _ change_mem, later⟩
  | case4 active since position value changes same ih =>
      rcases ih span_mem with first | ⟨change, change_mem, later⟩
      · exact .inl first
      · exact .inr ⟨change, List.mem_cons_of_mem _ change_mem, later⟩
  | case5 active since position value changes different ih =>
      rcases List.mem_cons.mp span_mem with rfl | span_mem
      · exact .inl rfl
      · rcases ih span_mem with first | ⟨change, change_mem, later⟩
        · exact .inr ⟨(position, value), List.mem_cons_self, Option.some.inj first⟩
        · exact .inr ⟨change, List.mem_cons_of_mem _ change_mem, later⟩

/-- The spans begin with the active value. -/
theorem exists_spans_eq_cons (key : α → κ) (active : α) (since : ℤ) (changes : List (ℤ × α)) :
    ∃ stop rest, spans key (some active) since changes = ⟨active, since, stop⟩ :: rest := by
  induction changes with
  | nil => exact ⟨none, [], rfl⟩
  | cons change changes ih =>
      rcases change with ⟨position, value⟩
      rw [spans]
      split_ifs
      · exact ih
      · exact ⟨some (position - 1), _, rfl⟩

/-- Every span starts right after the one before it, and neighbours have different keys. -/
theorem isChain_spans (key : α → κ) (initial : Option α) (since : ℤ) (changes : List (ℤ × α)) :
    (spans key initial since changes).IsChain fun earlier later =>
      earlier.stop = some (later.start - 1) ∧ key earlier.value ≠ key later.value := by
  fun_induction spans key initial since changes with
  | case1 => exact .nil
  | case2 => exact .singleton _
  | case3 since position value changes ih => exact ih
  | case4 active since position value changes same ih => exact ih
  | case5 active since position value changes different ih =>
      rcases exists_spans_eq_cons key value position changes with ⟨stop, rest, next⟩
      rw [next] at ih ⊢
      exact .cons_cons ⟨rfl, different⟩ ih

/-- Only the last span is open. -/
theorem stop_of_spans_eq_append {init : List (Span α)} {last : Span α}
    (split : spans key initial since changes = init ++ [last]) :
    last.stop = none ∧ ∀ span ∈ init, span.stop ≠ none := by
  fun_induction spans key initial since changes generalizing init with
  | case1 => exact absurd split.symm (by simp)
  | case2 active since =>
      rcases List.append_eq_singleton_iff.mp split.symm with ⟨rfl, single⟩ | ⟨rfl, impossible⟩
      · cases single
        exact ⟨rfl, by simp⟩
      · cases impossible
  | case3 since position value changes ih => exact ih split
  | case4 active since position value changes same ih => exact ih split
  | case5 active since position value changes different ih =>
      rcases exists_spans_eq_cons key value position changes with ⟨stop, rest, next⟩
      cases init with
      | nil =>
          rw [next] at split
          cases split
      | cons first init =>
          rcases List.cons.inj split with ⟨rfl, later⟩
          rcases ih later with ⟨open_, closed⟩
          refine ⟨open_, fun span span_mem => ?_⟩
          rcases List.mem_cons.mp span_mem with rfl | behind
          · exact Option.some_ne_none _
          · exact closed span behind

/-- The spans that contain a position tell the key of the value there. -/
theorem exists_contains_iff (ordered : Ordered changes)
    (behind : ∀ change ∈ changes, since ≤ change.1) (reached : since ≤ position) (target : κ) :
    (∃ span ∈ spans key initial since changes, span.Contains position ∧ key span.value = target) ↔
      (valueAt initial changes position).map key = some target := by
  fun_induction spans key initial since changes with
  | case1 => simp [valueAt, latest]
  | case2 active since => simp [Span.Contains, valueAt, latest, reached]
  | case3 since first value changes ih =>
      have rest := forall_le_of_cons ordered
      by_cases changed : first ≤ position
      · rw [ih ordered.of_cons rest changed, valueAt_cons_of_le changed]
      · rw [valueAt_of_forall_lt (forall_lt_of_cons ordered (not_le.mp changed))]
        constructor
        · rintro ⟨span, span_mem, contains, _⟩
          have later := le_start_of_mem_spans ordered.of_cons rest span_mem
          exact absurd (later.trans contains.1) changed
        · intro impossible
          cases impossible
  | case4 active since first value changes same ih =>
      have rest := forall_le_of_cons ordered
      rw [ih ordered.of_cons (fun change change_mem => behind change
        (List.mem_cons_of_mem _ change_mem)) reached]
      by_cases changed : first ≤ position
      · rw [valueAt_cons_of_le changed, map_valueAt_congr same]
      · have later := forall_lt_of_cons ordered (not_le.mp changed)
        rw [valueAt_of_forall_lt later, valueAt_of_forall_lt fun change change_mem =>
          later change (List.mem_cons_of_mem _ change_mem)]
  | case5 active since first value changes different ih =>
      have rest := forall_le_of_cons ordered
      have contained : (⟨active, since, some (first - 1)⟩ : Span α).Contains position ↔
          position < first := by
        constructor
        · intro contains
          exact Int.le_sub_one_iff.mp (contains.2 (first - 1) rfl)
        · intro before
          refine ⟨reached, ?_⟩
          rintro stop ⟨⟩
          exact Int.le_sub_one_of_lt before
      have split : (∃ span ∈ (⟨active, since, some (first - 1)⟩ : Span α) ::
          spans key (some value) first changes, span.Contains position ∧ key span.value = target) ↔
          (position < first ∧ key active = target) ∨
            ∃ span ∈ spans key (some value) first changes,
              span.Contains position ∧ key span.value = target := by
        simp [contained]
      rw [split]
      by_cases changed : first ≤ position
      · rw [ih ordered.of_cons rest changed, valueAt_cons_of_le changed]
        simp [not_lt.mpr changed]
      · rw [valueAt_of_forall_lt (forall_lt_of_cons ordered (not_le.mp changed))]
        constructor
        · rintro (⟨_, same⟩ | ⟨span, span_mem, contains, _⟩)
          · simp [same]
          · have later := le_start_of_mem_spans ordered.of_cons rest span_mem
            exact absurd (later.trans contains.1) changed
        · intro same
          exact .inl ⟨not_le.mp changed, Option.some.inj same⟩

/-- No span is empty. -/
def NonEmpty (spans : List (Span α)) : Prop :=
  ∀ span ∈ spans, ∀ stop ∈ span.stop, span.start ≤ stop

theorem nonEmpty_spans (ordered : Ordered changes)
    (behind : ∀ change ∈ changes, since < change.1) :
    NonEmpty (spans key initial since changes) := by
  fun_induction spans key initial since changes with
  | case1 => simp [NonEmpty]
  | case2 => simp [NonEmpty]
  | case3 since position value changes ih =>
      exact ih ordered.of_cons (List.pairwise_cons.mp ordered).1
  | case4 active since position value changes same ih =>
      exact ih ordered.of_cons fun change change_mem => behind change
        (List.mem_cons_of_mem _ change_mem)
  | case5 active since position value changes different ih =>
      have later := ih ordered.of_cons (List.pairwise_cons.mp ordered).1
      intro span span_mem
      rcases List.mem_cons.mp span_mem with rfl | span_mem
      · intro stop stop_eq
        cases stop_eq
        exact Int.le_sub_one_of_lt (behind (position, value) List.mem_cons_self)
      · exact later span span_mem

/-- The quantity has a value when it changes at the very start. -/
def ChangesAtStart (key : α → κ) (initial : Option α) (since : ℤ) (changes : List (ℤ × α)) :
    Prop :=
  ∃ active change, initial = some active ∧ latest changes since = some change ∧
    key active ≠ key change.2

/-- A span is empty exactly if the quantity changes at the very start. -/
theorem nonEmpty_spans_iff (ordered : Ordered changes)
    (behind : ∀ change ∈ changes, since ≤ change.1) :
    NonEmpty (spans key initial since changes) ↔ ¬ChangesAtStart key initial since changes := by
  cases changes with
  | nil =>
      refine ⟨fun _ => ?_, fun _ => nonEmpty_spans ordered (by simp)⟩
      rintro ⟨_, _, _, impossible, _⟩
      cases impossible
  | cons change changes =>
      rcases change with ⟨position, value⟩
      rcases List.pairwise_cons.mp ordered with ⟨least, rest⟩
      by_cases changed : position = since
      · subst changed
        have first := latest_cons_self ordered
        cases initial with
        | none =>
            rw [spans]
            refine ⟨fun _ => ?_, fun _ => nonEmpty_spans rest least⟩
            rintro ⟨_, _, impossible, _⟩
            cases impossible
        | some active =>
            by_cases same : key active = key value
            · rw [spans, if_pos same]
              refine ⟨fun _ => ?_, fun _ => nonEmpty_spans rest least⟩
              rintro ⟨_, _, ⟨⟩, changed, different⟩
              rw [first] at changed
              cases changed
              exact different same
            · rw [spans, if_neg same]
              constructor
              · intro nonEmpty
                have impossible : position ≤ position - 1 :=
                  nonEmpty ⟨active, position, some (position - 1)⟩ List.mem_cons_self _ rfl
                omega
              · intro unchanged
                exact absurd ⟨active, _, rfl, first, same⟩ unchanged
      · have early : since < position :=
          lt_of_le_of_ne (behind (position, value) List.mem_cons_self) (Ne.symm changed)
        have later := forall_lt_of_cons ordered early
        refine ⟨fun _ => ?_, fun _ => nonEmpty_spans ordered later⟩
        rintro ⟨_, _, _, impossible, _⟩
        rw [latest_of_forall_lt later] at impossible
        cases impossible

/-- Spans that follow one another and are not empty have ascending starts. -/
theorem pairwise_start_of_nonEmpty {spans : List (Span α)}
    (chain : spans.IsChain fun earlier later => earlier.stop = some (later.start - 1))
    (nonEmpty : NonEmpty spans) : spans.Pairwise fun earlier later => earlier.start < later.start := by
  have transitive : IsTrans (Span α) fun earlier later => earlier.start < later.start :=
    ⟨fun _ _ _ => lt_trans⟩
  refine List.isChain_iff_pairwise.mp ?_
  induction chain with
  | nil => exact .nil
  | singleton => exact .singleton _
  | @cons_cons earlier later spans adjacent _ ih =>
      have forward : earlier.start ≤ later.start - 1 :=
        nonEmpty earlier List.mem_cons_self _ adjacent
      exact .cons_cons (Int.lt_of_le_sub_one forward)
        (ih fun span span_mem => nonEmpty span (List.mem_cons_of_mem _ span_mem))

end Spans

end Timeline
