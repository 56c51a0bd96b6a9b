import Mathlib.Data.List.Basic
import Mathlib.Order.Lattice

/-!
# Fixed windows

Hits are counted in windows of a fixed length. A hit that finds no window begins one,
and a window that has ended is forgotten. A limit lets the hits pass whose count is
within it: in every window these are the first ones, and a stretch of time as long as a
window meets at most two windows that let hits pass.
-/

namespace FixedWindow

/-- The hits counted in a window, and the time at which it ends. -/
structure Counter where
  count : ℕ
  expiresAt : ℕ
  deriving DecidableEq

/-- No window is open at a time. -/
def Closed (counter : Option Counter) (now : ℕ) : Prop :=
  ∀ open_ ∈ counter, open_.expiresAt ≤ now

/-- Count a hit, in the window that is open or in a new one. -/
def count (length now : ℕ) (counter : Option Counter) : Counter :=
  match counter.filter fun open_ => now < open_.expiresAt with
  | some open_ => { open_ with count := open_.count + 1 }
  | none => ⟨1, now + length⟩

/-- The times of hits with their counts. -/
def counted (length : ℕ) : Option Counter → List ℕ → List (ℕ × ℕ)
  | _, [] => []
  | counter, now :: times =>
      (now, (count length now counter).count) ::
        counted length (some (count length now counter)) times

/-- The counter after hits. -/
def after (length : ℕ) (counter : Option Counter) (times : List ℕ) : Option Counter :=
  times.foldl (fun counter now => some (count length now counter)) counter

/-- The hits that are within a limit. -/
def allowed (limit : ℕ) (hits : List (ℕ × ℕ)) : List (ℕ × ℕ) :=
  hits.filter fun hit => hit.2 ≤ limit

variable {length limit now : ℕ} {counter : Option Counter} {open_ : Counter} {times later : List ℕ}

variable (length) in
theorem count_of_open (soon : now < open_.expiresAt) :
    count length now (some open_) = ⟨open_.count + 1, open_.expiresAt⟩ := by
  simp [count, Option.filter, soon]

variable (length) in
theorem count_of_closed (closed : Closed counter now) :
    count length now counter = ⟨1, now + length⟩ := by
  cases counter with
  | none => rfl
  | some open_ =>
      have ended : ¬now < open_.expiresAt := not_lt.mpr (closed open_ rfl)
      simp [count, Option.filter, ended]

theorem counted_append (times later : List ℕ) :
    counted length counter (times ++ later) =
      counted length counter times ++ counted length (after length counter times) later := by
  induction times generalizing counter with
  | nil => rfl
  | cons now times ih =>
      rw [List.cons_append, counted, ih]
      rfl

@[simp]
theorem map_fst_counted (times : List ℕ) :
    (counted length counter times).map Prod.fst = times := by
  induction times generalizing counter with
  | nil => rfl
  | cons now times ih => rw [counted, List.map_cons, ih]

theorem fst_mem_of_mem_counted {hit : ℕ × ℕ} (hit_mem : hit ∈ counted length counter times) :
    hit.1 ∈ times := by
  have found : hit.1 ∈ (counted length counter times).map Prod.fst := List.mem_map_of_mem hit_mem
  rwa [map_fst_counted] at found

/-- As long as a window is open, its hits are numbered. -/
theorem counted_of_open (soon : ∀ now ∈ times, now < open_.expiresAt) :
    counted length (some open_) times = times.zipIdx (open_.count + 1) := by
  induction times generalizing open_ with
  | nil => rfl
  | cons now times ih =>
      have first := count_of_open length (soon now List.mem_cons_self)
      have rest : ∀ later ∈ times, later < (⟨open_.count + 1, open_.expiresAt⟩ : Counter).expiresAt :=
        fun later later_mem => soon later (List.mem_cons_of_mem now later_mem)
      rw [counted, first, ih rest, List.zipIdx_cons]

/-- A hit that finds no window begins one, and the hits in it are numbered. -/
theorem counted_of_closed (closed : Closed counter now)
    (soon : ∀ later ∈ times, later < now + length) :
    counted length counter (now :: times) = (now :: times).zipIdx 1 := by
  rw [counted, count_of_closed length closed, counted_of_open soon, List.zipIdx_cons]

variable (length) in
theorem after_of_open (soon : ∀ now ∈ times, now < open_.expiresAt) :
    ∃ count, after length (some open_) times = some ⟨count, open_.expiresAt⟩ := by
  induction times generalizing open_ with
  | nil => exact ⟨open_.count, rfl⟩
  | cons now times ih =>
      have first := count_of_open length (soon now List.mem_cons_self)
      have rest : ∀ later ∈ times, later < (⟨open_.count + 1, open_.expiresAt⟩ : Counter).expiresAt :=
        fun later later_mem => soon later (List.mem_cons_of_mem now later_mem)
      rcases ih rest with ⟨count, ends⟩
      refine ⟨count, ?_⟩
      rw [after, List.foldl_cons, first]
      exact ends

/-- The numbered hits within a limit are the first ones. -/
theorem allowed_zipIdx (times : List ℕ) (first limit : ℕ) :
    allowed limit (times.zipIdx first) = (times.zipIdx first).take (limit + 1 - first) := by
  induction times generalizing first with
  | nil => simp [allowed]
  | cons now times ih =>
      rw [allowed, List.zipIdx_cons, List.filter_cons]
      by_cases within : first ≤ limit
      · have more : limit + 1 - first = limit + 1 - (first + 1) + 1 := by omega
        rw [if_pos (by simpa using within), more, List.take_succ_cons, ← ih]
        rfl
      · have none_left : limit + 1 - first = 0 := by omega
        have later := ih (first + 1)
        rw [show limit + 1 - (first + 1) = 0 by omega, List.take_zero] at later
        rw [if_neg (by simpa using within), none_left, List.take_zero]
        exact later

theorem length_allowed_zipIdx_le (times : List ℕ) {first : ℕ} (positive : 1 ≤ first) (limit : ℕ) :
    (allowed limit (times.zipIdx first)).length ≤ limit := by
  rw [allowed_zipIdx, List.length_take]
  omega

theorem allowed_append (limit : ℕ) (hits more : List (ℕ × ℕ)) :
    allowed limit (hits ++ more) = allowed limit hits ++ allowed limit more :=
  List.filter_append _ _

/-- Ascending times are those before a time and those from it on. -/
theorem filter_append_filter_of_pairwise (ascending : times.Pairwise (· ≤ ·)) (stop : ℕ) :
    times.filter (· < stop) ++ times.filter (fun now => stop ≤ now) = times := by
  induction times with
  | nil => rfl
  | cons now times ih =>
      rcases List.pairwise_cons.mp ascending with ⟨least, rest⟩
      by_cases early : now < stop
      · simp [early, not_le.mpr early, ih rest]
      · have none_early : times.filter (· < stop) = [] := by
          rw [List.filter_eq_nil_iff]
          intro later later_mem
          have := least later later_mem
          simp only [decide_eq_true_eq]
          omega
        have split := ih rest
        rw [none_early, List.nil_append] at split
        simp [not_lt.mp early, none_early, split, early]

theorem mem_of_filter_le_eq {stop : ℕ} (late : times.filter (fun now => stop ≤ now) = later) :
    ∀ other ∈ later, other ∈ times ∧ stop ≤ other := by
  rintro other other_mem
  rw [← late] at other_mem
  rcases List.mem_filter.mp other_mem with ⟨found, reached⟩
  exact ⟨found, of_decide_eq_true reached⟩

/-- The hits that a window counts, up to its end, and the hits behind it. -/
theorem counted_cons_of_closed (closed : Closed counter now)
    (ascending : (now :: times).Pairwise (· ≤ ·)) :
    ∃ behind, counted length counter (now :: times) =
        (now :: times.filter (· < now + length)).zipIdx 1 ++
          counted length behind (times.filter fun later => now + length ≤ later) ∧
      Closed behind (now + length) := by
  have rest := (List.pairwise_cons.mp ascending).2
  let begun : Counter := ⟨1, now + length⟩
  have early : ∀ later ∈ times.filter (· < now + length), later < begun.expiresAt :=
    fun later later_mem => of_decide_eq_true (List.mem_filter.mp later_mem).2
  have ended : after length counter (now :: times.filter (· < now + length)) =
      after length (some ⟨1, now + length⟩) (times.filter (· < now + length)) := by
    rw [after, List.foldl_cons, count_of_closed length closed]
    rfl
  rcases after_of_open length early with ⟨count, ends⟩
  refine ⟨some ⟨count, now + length⟩, ?_, ?_⟩
  · rw [← counted_of_closed closed early, ← ends, ← ended, ← counted_append, List.cons_append,
      filter_append_filter_of_pairwise rest]
  · intro open_ open_eq
    cases open_eq
    exact le_rfl

theorem Closed.mono (closed : Closed counter now) {later : ℕ} (behind : now ≤ later) :
    Closed counter later :=
  fun open_ open_mem => (closed open_ open_mem).trans behind

/-- A limit lets pass the first hits of a window. -/
theorem allowed_window (positive : 0 < length) (closed : Closed counter now)
    (ascending : (now :: times).Pairwise (· ≤ ·)) (limit : ℕ) :
    allowed limit ((counted length counter (now :: times)).filter fun hit => hit.1 < now + length) =
      ((counted length counter (now :: times)).filter fun hit => hit.1 < now + length).take
        limit := by
  rcases counted_cons_of_closed closed ascending with ⟨behind, split, _⟩
  have inside : ((now :: times.filter (· < now + length)).zipIdx 1).filter
      (fun hit => hit.1 < now + length) = (now :: times.filter (· < now + length)).zipIdx 1 := by
    rw [List.filter_eq_self]
    intro hit hit_mem
    have found := List.fst_mem_of_mem_zipIdx hit_mem
    rcases List.mem_cons.mp found with same | early
    · simpa [same] using positive
    · exact (List.mem_filter.mp early).2
  have outside : (counted length behind (times.filter fun later => now + length ≤ later)).filter
      (fun hit => hit.1 < now + length) = [] := by
    rw [List.filter_eq_nil_iff]
    intro hit hit_mem
    have late := of_decide_eq_true (List.mem_filter.mp (fst_mem_of_mem_counted hit_mem)).2
    simpa using late
  rw [split, List.filter_append, inside, outside, List.append_nil, allowed_zipIdx,
    Nat.add_sub_cancel]

/-- Hits within a number of window lengths from the first of them on. -/
theorem length_allowed_le_mul (closed : Closed counter now)
    (ascending : (now :: times).Pairwise (· ≤ ·)) (windows : ℕ)
    (soon : ∀ later ∈ now :: times, later < now + windows * length) (limit : ℕ) :
    (allowed limit (counted length counter (now :: times))).length ≤ windows * limit := by
  induction windows generalizing counter now times with
  | zero => exact absurd (soon now List.mem_cons_self) (by omega)
  | succ windows ih =>
      rcases counted_cons_of_closed closed ascending with ⟨behind, split, ended⟩
      have first := length_allowed_zipIdx_le (now :: times.filter (· < now + length)) (le_refl 1)
        limit
      rw [split, allowed_append, List.length_append, Nat.succ_mul]
      have rest : (allowed limit (counted length behind
          (times.filter fun later => now + length ≤ later))).length ≤ windows * limit := by
        have still := (List.pairwise_cons.mp ascending).2.filter fun later => now + length ≤ later
        cases late : times.filter fun later => now + length ≤ later with
        | nil => exact Nat.zero_le _
        | cons next later =>
            have members := mem_of_filter_le_eq late
            have reached := (members next List.mem_cons_self).2
            refine ih (ended.mono reached) (late ▸ still) fun other other_mem => ?_
            have bound := soon other (List.mem_cons_of_mem now (members other other_mem).1)
            rw [Nat.succ_mul] at bound
            omega
      omega

/-- A stretch of time that is as long as a window meets two windows at most. -/
theorem length_allowed_le_two_mul (positive : 0 < length) (counter : Option Counter)
    (ascending : times.Pairwise (· ≤ ·)) {start : ℕ}
    (inside : ∀ now ∈ times, start ≤ now ∧ now ≤ start + length) (limit : ℕ) :
    (allowed limit (counted length counter times)).length ≤ 2 * limit := by
  cases times with
  | nil => exact Nat.zero_le _
  | cons now times =>
      have first := inside now List.mem_cons_self
      by_cases closed : Closed counter now
      · refine length_allowed_le_mul closed ascending 2 (fun later later_mem => ?_) limit
        have bounds := inside later later_mem
        omega
      · cases counter with
        | none => exact absurd (fun _ impossible => nomatch impossible) closed
        | some open_ =>
            have soon : now < open_.expiresAt := by
              by_contra ended
              refine closed fun other other_eq => ?_
              cases other_eq
              exact not_lt.mp ended
            have early : ∀ later ∈ (now :: times).filter (· < open_.expiresAt),
                later < open_.expiresAt :=
              fun later later_mem => of_decide_eq_true (List.mem_filter.mp later_mem).2
            rcases after_of_open length early with ⟨count, ends⟩
            have still := ascending.filter fun later => open_.expiresAt ≤ later
            rw [← filter_append_filter_of_pairwise ascending open_.expiresAt, counted_append,
              allowed_append, List.length_append, counted_of_open early, ends]
            have before := length_allowed_zipIdx_le
              ((now :: times).filter (· < open_.expiresAt)) (Nat.le_add_left 1 open_.count) limit
            cases late : (now :: times).filter fun later => open_.expiresAt ≤ later with
            | nil =>
                simp only [counted, allowed, List.filter_nil, List.length_nil] at before ⊢
                omega
            | cons next later =>
                have members := mem_of_filter_le_eq late
                have reached := (members next List.mem_cons_self).2
                have ended : Closed (some ⟨count, open_.expiresAt⟩) next := by
                  intro other other_eq
                  cases other_eq
                  exact reached
                have last : ∀ other ∈ next :: later, other < next + 1 * length := by
                  intro other other_mem
                  have bounds := inside other (members other other_mem).1
                  omega
                have behind := length_allowed_le_mul ended (late ▸ still) 1 last limit
                omega

theorem filter_counted_of_forall (keep : ℕ → Bool) (all : ∀ now ∈ times, keep now = true) :
    (counted length counter times).filter (fun hit => keep hit.1) = counted length counter times := by
  rw [List.filter_eq_self]
  exact fun hit hit_mem => all hit.1 (fst_mem_of_mem_counted hit_mem)

theorem filter_counted_of_forall_not (keep : ℕ → Bool) (all : ∀ now ∈ times, keep now = false) :
    (counted length counter times).filter (fun hit => keep hit.1) = [] := by
  rw [List.filter_eq_nil_iff]
  intro hit hit_mem
  rw [all hit.1 (fst_mem_of_mem_counted hit_mem)]
  exact Bool.false_ne_true

/-- Whatever stretch of time that is as long as a window: at most two limits pass in it. -/
theorem length_allowed_stretch_le (positive : 0 < length) (counter : Option Counter)
    (ascending : times.Pairwise (· ≤ ·)) (start limit : ℕ) :
    (allowed limit ((counted length counter times).filter fun hit =>
      start ≤ hit.1 ∧ hit.1 ≤ start + length)).length ≤ 2 * limit := by
  have from_start := ascending.filter fun now => start ≤ now
  rw [← filter_append_filter_of_pairwise ascending start,
    ← filter_append_filter_of_pairwise from_start (start + length + 1), counted_append,
    counted_append]
  generalize after length counter (times.filter (· < start)) = reached
  generalize after length reached _ = behind
  have before : (counted length counter (times.filter (· < start))).filter
      (fun hit => start ≤ hit.1 ∧ hit.1 ≤ start + length) = [] := by
    refine filter_counted_of_forall_not (fun now => start ≤ now ∧ now ≤ start + length)
      fun now now_mem => ?_
    have bound := of_decide_eq_true (List.mem_filter.mp now_mem).2
    simp only [decide_eq_false_iff_not]
    omega
  have later : (counted length behind ((times.filter fun now => start ≤ now).filter
      fun now => start + length + 1 ≤ now)).filter
      (fun hit => start ≤ hit.1 ∧ hit.1 ≤ start + length) = [] := by
    refine filter_counted_of_forall_not (fun now => start ≤ now ∧ now ≤ start + length)
      fun now now_mem => ?_
    have bound := of_decide_eq_true (List.mem_filter.mp now_mem).2
    simp only [decide_eq_false_iff_not]
    omega
  have bounds : ∀ now ∈ (times.filter fun now => start ≤ now).filter (· < start + length + 1),
      start ≤ now ∧ now ≤ start + length := by
    intro now now_mem
    rcases List.mem_filter.mp now_mem with ⟨now_mem, upper⟩
    have upper := of_decide_eq_true upper
    exact ⟨of_decide_eq_true (List.mem_filter.mp now_mem).2, by omega⟩
  have inside : (counted length reached ((times.filter fun now => start ≤ now).filter
      (· < start + length + 1))).filter (fun hit => start ≤ hit.1 ∧ hit.1 ≤ start + length) =
      counted length reached ((times.filter fun now => start ≤ now).filter
        (· < start + length + 1)) :=
    filter_counted_of_forall (fun now => start ≤ now ∧ now ≤ start + length)
      fun now now_mem => decide_eq_true (bounds now now_mem)
  rw [List.filter_append, List.filter_append, before, inside, later, List.nil_append,
    List.append_nil]
  exact length_allowed_le_two_mul positive reached (from_start.filter _) bounds limit

/-- The elements that are selected are the first ones if their images are. -/
theorem filter_eq_take_of_map {α β : Type} (image : α → β) (selected : β → Bool)
    {elements : List α} {many : ℕ}
    (same : (elements.map image).filter selected = (elements.map image).take many) :
    elements.filter (fun element => selected (image element)) = elements.take many := by
  rw [List.filter_map, ← List.map_take] at same
  have lengths : (elements.filter fun element => selected (image element)).length =
      (elements.take many).length := by
    have counted := congrArg List.length same
    rwa [List.length_map, List.length_map] at counted
  have first : (elements.take many).filter (fun element => selected (image element)) =
      elements.take many := by
    rw [List.filter_eq_self]
    intro element element_mem
    have found : image element ∈ (elements.filter (selected ∘ image)).map image := by
      rw [same]
      exact List.mem_map_of_mem element_mem
    rcases List.mem_map.mp found with ⟨other, other_mem, image_eq⟩
    rw [← image_eq]
    exact (List.mem_filter.mp other_mem).2
  rw [← List.take_append_drop many elements, List.filter_append, first] at lengths ⊢
  rw [List.take_append_drop, List.length_append] at lengths
  have none_later : ((elements.drop many).filter
      fun element => selected (image element)).length = 0 := by
    omega
  rw [List.length_eq_zero_iff.mp none_later, List.append_nil, List.take_append_drop]

end FixedWindow
