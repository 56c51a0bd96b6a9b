import CopyMint.Library.Substitution

/-!
# Regular expressions

An expression is tried at a place between the text before it, of which the nearest
element comes first, and the text behind it. It yields the ways to match in the order in
which a backtracking matcher tries them: a repetition takes as many elements as it can
and then gives them back one by one, and the left alternative comes first. The first way
is the match.
-/

open Substitution

/-- A way to match: what is taken, and what remains behind it. -/
abbrev Taking (α : Type) := List α × List α

/-- An expression; a repetition is one of single elements. -/
inductive Regex (α : Type) where
  | empty
  /-- A place with an element of the kind on one of its sides only. -/
  | boundary (inWord : α → Bool)
  | one (accepts : α → Bool)
  | many (least : ℕ) (most : Option ℕ) (accepts : α → Bool)
  | seq (first second : Regex α)
  | alt (first second : Regex α)

namespace Regex

variable {α : Type}

/-- `\b`. -/
def AtBoundary (inWord : α → Bool) (before rest : List α) : Prop :=
  (before.head?.any inWord) ≠ (rest.head?.any inWord)

instance (inWord : α → Bool) (before rest : List α) : Decidable (AtBoundary inWord before rest) :=
  inferInstanceAs (Decidable (_ ≠ _))

/-- The ways of a repetition, the longest first. -/
def repeats (accepts : α → Bool) : ℕ → Option ℕ → List α → List (Taking α)
  | least, _, [] => if least = 0 then [([], [])] else []
  | least, most, element :: rest =>
      let longer :=
        if accepts element ∧ most ≠ some 0 then
          (repeats accepts (least - 1) (most.map (· - 1)) rest).map fun (taken, remaining) =>
            (element :: taken, remaining)
        else []
      longer ++ if least = 0 then [([], element :: rest)] else []

/-- All ways to match at a place, the one to prefer first. -/
def takings : Regex α → List α → List α → List (Taking α)
  | empty, _, rest => [([], rest)]
  | boundary inWord, before, rest =>
      if AtBoundary inWord before rest then [([], rest)] else []
  | one _, _, [] => []
  | one accepts, _, element :: rest => if accepts element then [([element], rest)] else []
  | many least most accepts, _, rest => repeats accepts least most rest
  | seq first second, before, rest =>
      (first.takings before rest).flatMap fun (taken, remaining) =>
        (second.takings (taken.reverse ++ before) remaining).map fun (more, left) =>
          (taken ++ more, left)
  | alt first second, before, rest => first.takings before rest ++ second.takings before rest

/-- `(?:regex)?`. -/
def optional (regex : Regex α) : Regex α := alt regex empty

/-- One expression behind the other. -/
def concat (regexes : List (Regex α)) : Regex α := regexes.foldr seq empty

/-- The alternatives, from the left. -/
def oneOf (first : Regex α) : List (Regex α) → Regex α
  | [] => first
  | second :: rest => alt first (oneOf second rest)

/-- The number of elements that every match takes at least. -/
def minimum : Regex α → ℕ
  | empty => 0
  | boundary _ => 0
  | one _ => 1
  | many least _ _ => least
  | seq first second => first.minimum + second.minimum
  | alt first second => min first.minimum second.minimum

theorem append_of_mem_repeats {accepts : α → Bool} {least : ℕ} {most : Option ℕ}
    {rest taken remaining : List α} (taking : (taken, remaining) ∈ repeats accepts least most rest) :
    taken ++ remaining = rest ∧ least ≤ taken.length ∧ ∀ element ∈ taken, accepts element := by
  induction rest generalizing least most taken with
  | nil =>
      rw [repeats] at taking
      split_ifs at taking with none
      · cases List.mem_singleton.mp taking
        simp [none]
      · cases taking
  | cons element rest ih =>
      rw [repeats] at taking
      rcases List.mem_append.mp taking with longer | shortest
      · split_ifs at longer with accepted
        · rcases List.mem_map.mp longer with ⟨⟨more, left⟩, more_mem, same⟩
          cases same
          rcases ih more_mem with ⟨rfl, enough, accepted_more⟩
          refine ⟨rfl, ?_, ?_⟩
          · rw [List.length_cons]
            omega
          · exact List.forall_mem_cons.mpr ⟨accepted.1, accepted_more⟩
        · cases longer
      · split_ifs at shortest with none
        · cases List.mem_singleton.mp shortest
          simp [none]
        · cases shortest

/-- A match takes a beginning of the text behind its place, and at least the minimum of it. -/
theorem append_of_mem_takings {regex : Regex α} {before rest taken remaining : List α}
    (taking : (taken, remaining) ∈ regex.takings before rest) :
    taken ++ remaining = rest ∧ regex.minimum ≤ taken.length := by
  induction regex generalizing before rest taken remaining with
  | empty =>
      cases List.mem_singleton.mp taking
      exact ⟨rfl, Nat.le_refl 0⟩
  | boundary inWord =>
      rw [takings] at taking
      split_ifs at taking
      · cases List.mem_singleton.mp taking
        exact ⟨rfl, Nat.le_refl 0⟩
      · cases taking
  | one accepts =>
      cases rest with
      | nil => cases taking
      | cons element rest =>
          rw [takings] at taking
          split_ifs at taking
          · cases List.mem_singleton.mp taking
            exact ⟨rfl, Nat.le_refl 1⟩
          · cases taking
  | many least most accepts =>
      have taken_spec := append_of_mem_repeats taking
      exact ⟨taken_spec.1, taken_spec.2.1⟩
  | seq first second ihFirst ihSecond =>
      rcases List.mem_flatMap.mp taking with ⟨⟨front, middle⟩, front_mem, behind⟩
      rcases List.mem_map.mp behind with ⟨⟨more, left⟩, more_mem, same⟩
      cases same
      rcases ihFirst front_mem with ⟨rfl, front_long⟩
      rcases ihSecond more_mem with ⟨rfl, more_long⟩
      rw [List.length_append]
      exact ⟨List.append_assoc _ _ _, Nat.add_le_add front_long more_long⟩
  | alt first second ihFirst ihSecond =>
      rcases List.mem_append.mp taking with left | right
      · rcases ihFirst left with ⟨whole, long⟩
        exact ⟨whole, Nat.le_trans (Nat.min_le_left _ _) long⟩
      · rcases ihSecond right with ⟨whole, long⟩
        exact ⟨whole, Nat.le_trans (Nat.min_le_right _ _) long⟩

end Regex

/-- An expression in three parts, the first and the last of which are kept. -/
structure Pattern (α : Type) where
  opening : Regex α
  removed : Regex α
  closing : Regex α
  written : List α
  removes : 0 < removed.minimum

namespace Pattern

variable {α : Type} (pattern : Pattern α)

/-- All ways to match, with the three parts told apart. -/
def occurrences (before rest : List α) : List (Found α) :=
  (pattern.opening.takings before rest).flatMap fun (opening, behindOpening) =>
    let inner := opening.reverse ++ before
    (pattern.removed.takings inner behindOpening).flatMap fun (removed, behindRemoved) =>
      (pattern.closing.takings (removed.reverse ++ inner) behindRemoved).map fun (closing, _) =>
        ⟨opening, removed, pattern.written, closing⟩

/-- An occurrence comes from ways of its parts, each behind the one before it. -/
theorem mem_occurrences {before rest : List α} {found : Found α} :
    found ∈ pattern.occurrences before rest ↔
      found.written = pattern.written ∧
        ∃ behindOpening behindRemoved remaining,
          (found.opening, behindOpening) ∈ pattern.opening.takings before rest ∧
            (found.removed, behindRemoved) ∈
              pattern.removed.takings (found.opening.reverse ++ before) behindOpening ∧
            (found.closing, remaining) ∈
              pattern.closing.takings
                (found.removed.reverse ++ (found.opening.reverse ++ before)) behindRemoved := by
  simp only [occurrences, List.mem_flatMap, List.mem_map, Prod.exists]
  constructor
  · rintro ⟨opening, behindOpening, opening_mem, removed, behindRemoved, removed_mem, closing,
      remaining, closing_mem, rfl⟩
    exact ⟨rfl, behindOpening, behindRemoved, remaining, opening_mem, removed_mem, closing_mem⟩
  · rintro ⟨written, behindOpening, behindRemoved, remaining, opening_mem, removed_mem,
      closing_mem⟩
    refine ⟨_, behindOpening, opening_mem, _, behindRemoved, removed_mem, _, remaining,
      closing_mem, ?_⟩
    rw [← written]

/-- The first occurrence at each place. -/
def rule : Rule α where
  find before rest := (pattern.occurrences before rest).head?
  found_prefix := by
    intro before rest found finds
    rcases (pattern.mem_occurrences).mp (List.mem_of_mem_head? finds) with
      ⟨_, behindOpening, behindRemoved, remaining, opening_mem, removed_mem, closing_mem⟩
    rcases Regex.append_of_mem_takings opening_mem with ⟨rfl, _⟩
    rcases Regex.append_of_mem_takings removed_mem with ⟨rfl, _⟩
    rcases Regex.append_of_mem_takings closing_mem with ⟨rfl, _⟩
    exact ⟨remaining, by simp [Found.source]⟩
  removed_ne_nil := by
    intro before rest found finds
    rcases (pattern.mem_occurrences).mp (List.mem_of_mem_head? finds) with
      ⟨_, behindOpening, behindRemoved, remaining, _, removed_mem, _⟩
    have long := (Regex.append_of_mem_takings removed_mem).2
    exact List.length_pos_iff.mp (Nat.lt_of_lt_of_le pattern.removes long)

end Pattern
