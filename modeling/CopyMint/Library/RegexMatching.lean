import CopyMint.Library.Regex
import CopyMint.Library.Stretches

/-!
# What expressions match

The ways to match, by the parts of an expression, and the separators that no part of an
expression accepts or counts as an element of a word.
-/

open Substitution

namespace Regex

variable {α : Type} {before rest taken remaining : List α}

section Ways

theorem mem_repeats_iff {accepts : α → Bool} {least : ℕ} {most : Option ℕ} :
    (taken, remaining) ∈ repeats accepts least most rest ↔
      taken ++ remaining = rest ∧ (∀ element ∈ taken, accepts element = true) ∧
        least ≤ taken.length ∧ ∀ limit ∈ most, taken.length ≤ limit := by
  induction rest generalizing least most taken with
  | nil =>
      rw [repeats]
      constructor
      · intro taking
        split_ifs at taking with none
        · cases List.mem_singleton.mp taking
          simp [none]
        · cases taking
      · rintro ⟨whole, _, enough, _⟩
        rcases List.append_eq_nil_iff.mp whole with ⟨rfl, rfl⟩
        rw [if_pos (Nat.le_zero.mp enough)]
        exact List.mem_singleton_self _
  | cons element rest ih =>
      rw [repeats, List.mem_append]
      constructor
      · rintro (longer | shortest)
        · split_ifs at longer with accepted
          · rcases List.mem_map.mp longer with ⟨⟨more, left⟩, more_mem, same⟩
            cases same
            rcases ih.mp more_mem with ⟨rfl, all, enough, limited⟩
            refine ⟨rfl, List.forall_mem_cons.mpr ⟨accepted.1, all⟩, ?_, ?_⟩
            · rw [List.length_cons]
              omega
            · rintro limit rfl
              have positive : limit ≠ 0 := fun zero => accepted.2 (congrArg some zero)
              have bound := limited (limit - 1) rfl
              rw [List.length_cons]
              omega
          · cases longer
        · split_ifs at shortest with none
          · cases List.mem_singleton.mp shortest
            simp [none]
          · cases shortest
      · rintro ⟨whole, all, enough, limited⟩
        cases taken with
        | nil =>
            right
            rw [if_pos (Nat.le_zero.mp enough), ← whole]
            exact List.mem_singleton_self _
        | cons first more =>
            left
            rw [List.cons_append, List.cons.injEq] at whole
            rcases whole with ⟨rfl, rfl⟩
            rcases List.forall_mem_cons.mp all with ⟨accepted, all⟩
            rw [List.length_cons] at enough
            have unlimited : most ≠ some 0 := by
              rintro rfl
              exact absurd (limited 0 rfl) (Nat.not_succ_le_zero _)
            rw [if_pos ⟨accepted, unlimited⟩]
            refine List.mem_map.mpr ⟨(more, remaining), ih.mpr ⟨rfl, all, by omega, ?_⟩, rfl⟩
            intro limit limit_mem
            rcases Option.map_eq_some_iff.mp limit_mem with ⟨greater, same, rfl⟩
            have bound := limited greater same
            rw [List.length_cons] at bound
            omega

theorem mem_takings_empty :
    (taken, remaining) ∈ empty.takings before rest ↔ taken = [] ∧ remaining = rest := by
  simp [takings]

theorem mem_takings_boundary {inWord : α → Bool} :
    (taken, remaining) ∈ (boundary inWord).takings before rest ↔
      AtBoundary inWord before rest ∧ taken = [] ∧ remaining = rest := by
  simp [takings]

theorem mem_takings_one {accepts : α → Bool} :
    (taken, remaining) ∈ (one accepts).takings before rest ↔
      ∃ element, accepts element = true ∧ taken = [element] ∧ rest = element :: remaining := by
  cases rest with
  | nil => simp [takings]
  | cons element rest =>
      rw [takings]
      constructor
      · intro taking
        split_ifs at taking with accepted
        · cases List.mem_singleton.mp taking
          exact ⟨element, accepted, rfl, rfl⟩
        · cases taking
      · rintro ⟨_, accepted, rfl, same⟩
        cases same
        rw [if_pos accepted]
        exact List.mem_singleton_self _

theorem mem_takings_many {accepts : α → Bool} {least : ℕ} {most : Option ℕ} :
    (taken, remaining) ∈ (many least most accepts).takings before rest ↔
      taken ++ remaining = rest ∧ (∀ element ∈ taken, accepts element = true) ∧
        least ≤ taken.length ∧ ∀ limit ∈ most, taken.length ≤ limit :=
  mem_repeats_iff

theorem mem_takings_run {accepts : α → Bool} {least : ℕ} :
    (taken, remaining) ∈ (many least none accepts).takings before rest ↔
      taken ++ remaining = rest ∧ (∀ element ∈ taken, accepts element = true) ∧
        least ≤ taken.length := by
  simp [mem_takings_many]

theorem mem_takings_seq {first second : Regex α} :
    (taken, remaining) ∈ (seq first second).takings before rest ↔
      ∃ front middle more, taken = front ++ more ∧ (front, middle) ∈ first.takings before rest ∧
        (more, remaining) ∈ second.takings (front.reverse ++ before) middle := by
  simp only [takings, List.mem_flatMap, List.mem_map, Prod.exists, Prod.mk.injEq]
  constructor
  · rintro ⟨front, middle, front_mem, more, left, more_mem, rfl, rfl⟩
    exact ⟨front, middle, more, rfl, front_mem, more_mem⟩
  · rintro ⟨front, middle, more, rfl, front_mem, more_mem⟩
    exact ⟨front, middle, front_mem, more, remaining, more_mem, rfl, rfl⟩

theorem mem_takings_alt {first second : Regex α} :
    (taken, remaining) ∈ (alt first second).takings before rest ↔
      (taken, remaining) ∈ first.takings before rest ∨
        (taken, remaining) ∈ second.takings before rest :=
  List.mem_append

theorem concat_nil : concat ([] : List (Regex α)) = empty := rfl

theorem concat_cons (first : Regex α) (others : List (Regex α)) :
    concat (first :: others) = seq first (concat others) := rfl

end Ways

section Preferences

/-- The ways of a repetition get shorter. -/
theorem pairwise_repeats (accepts : α → Bool) (least : ℕ) (most : Option ℕ) (rest : List α) :
    (repeats accepts least most rest).Pairwise fun first second =>
      second.1.length < first.1.length := by
  induction rest generalizing least most with
  | nil =>
      rw [repeats]
      split_ifs
      · exact List.pairwise_singleton _ _
      · exact List.Pairwise.nil
  | cons element rest ih =>
      rw [repeats, List.pairwise_append]
      refine ⟨?_, ?_, ?_⟩
      · split_ifs
        · rw [List.pairwise_map]
          exact (ih (least - 1) (most.map (· - 1))).imp fun shorter => Nat.succ_lt_succ shorter
        · exact List.Pairwise.nil
      · split_ifs
        · exact List.pairwise_singleton _ _
        · exact List.Pairwise.nil
      · intro first first_mem second second_mem
        split_ifs at first_mem
        · rcases List.mem_map.mp first_mem with ⟨_, _, rfl⟩
          split_ifs at second_mem
          · rw [List.mem_singleton.mp second_mem]
            exact Nat.succ_pos _
          · cases second_mem
        · cases first_mem

/-- Behind the match of a sequence, its second part has the first of its ways. -/
theorem exists_of_head?_seq {first second : Regex α}
    (first_eq : ((seq first second).takings before rest).head? = some (taken, remaining)) :
    ∃ front middle more, taken = front ++ more ∧ (front, middle) ∈ first.takings before rest ∧
      (second.takings (front.reverse ++ before) middle).head? = some (more, remaining) := by
  rw [takings, List.head?_flatMap] at first_eq
  rcases List.exists_of_findSome?_eq_some first_eq with ⟨⟨front, middle⟩, front_mem, head_eq⟩
  rw [List.head?_map, Option.map_eq_some_iff] at head_eq
  rcases head_eq with ⟨⟨more, left⟩, more_eq, same⟩
  cases same
  exact ⟨front, middle, more, rfl, front_mem, more_eq⟩

/-- A repetition takes as much as lets the rest match. -/
theorem longest_of_head?_seq {least : ℕ} {most : Option ℕ} {accepts : α → Bool} {second : Regex α}
    (first_eq : ((seq (many least most accepts) second).takings before rest).head? =
      some (taken, remaining)) :
    ∃ front middle more, taken = front ++ more ∧
      (front, middle) ∈ (many least most accepts).takings before rest ∧
        (second.takings (front.reverse ++ before) middle).head? = some (more, remaining) ∧
          ∀ longer behind way, (longer, behind) ∈ (many least most accepts).takings before rest →
            way ∈ second.takings (longer.reverse ++ before) behind →
              longer.length ≤ front.length := by
  rw [takings, List.head?_flatMap, List.findSome?_eq_some_iff] at first_eq
  rcases first_eq with ⟨earlier, ⟨front, middle⟩, later, ways_eq, head_eq, none⟩
  rw [List.head?_map, Option.map_eq_some_iff] at head_eq
  rcases head_eq with ⟨⟨more, left⟩, more_eq, same⟩
  cases same
  have shorter := pairwise_repeats accepts least most rest
  rw [show repeats accepts least most rest = _ from ways_eq, List.pairwise_append] at shorter
  refine ⟨front, middle, more, rfl, ?_, more_eq, ?_⟩
  · rw [ways_eq]
    exact List.mem_append_right _ List.mem_cons_self
  · intro longer behind way longer_mem way_mem
    rw [ways_eq] at longer_mem
    rcases List.mem_append.mp longer_mem with before_mem | after_mem
    · have nothing := none _ before_mem
      rw [List.head?_map, Option.map_eq_none_iff, List.head?_eq_none_iff] at nothing
      rw [nothing] at way_mem
      cases way_mem
    · rcases List.mem_cons.mp after_mem with same | after_mem
      · cases same
        exact Nat.le_refl _
      · exact Nat.le_of_lt ((List.pairwise_cons.mp shorter.2.1).1 _ after_mem)

/-- A repetition at the end stops only in front of what it does not accept. -/
theorem stops_of_head?_seq {least : ℕ} {accepts : α → Bool}
    (first_eq : ((seq (many least none accepts) empty).takings before rest).head? =
      some (taken, remaining)) :
    remaining.head?.any accepts = false := by
  rcases longest_of_head?_seq first_eq with ⟨front, middle, more, _, front_mem, more_eq, longest⟩
  cases (Option.some.inj more_eq)
  rcases mem_takings_run.mp front_mem with ⟨rfl, all, enough⟩
  cases remaining with
  | nil => rfl
  | cons element others =>
      refine Bool.eq_false_iff.mpr fun accepted => ?_
      have longer : (front ++ [element], others) ∈
          (many least none accepts).takings before (front ++ element :: others) := by
        refine mem_takings_run.mpr ⟨by simp, ?_, ?_⟩
        · exact List.forall_mem_append.mpr ⟨all, List.forall_mem_singleton.mpr accepted⟩
        · rw [List.length_append]
          omega
      have bound := longest _ _ ([], others) longer (List.mem_singleton_self _)
      rw [List.length_append, List.length_singleton] at bound
      omega

theorem stops_of_head?_many {least : ℕ} {accepts : α → Bool}
    (first_eq : ((many least none accepts).takings before rest).head? = some (taken, remaining)) :
    remaining.head?.any accepts = false := by
  have same : (seq (many least none accepts) empty).takings before rest =
      (many least none accepts).takings before rest := by
    simp [takings]
  exact stops_of_head?_seq (same ▸ first_eq)

end Preferences

section Contexts

/-- An expression that does not look at what is around its match. -/
def Unbound : Regex α → Prop
  | empty => True
  | boundary _ => False
  | one _ => True
  | many _ _ _ => True
  | seq first second => first.Unbound ∧ second.Unbound
  | alt first second => first.Unbound ∧ second.Unbound

theorem unbound_concat {regexes : List (Regex α)} :
    (concat regexes).Unbound ↔ ∀ regex ∈ regexes, regex.Unbound := by
  induction regexes with
  | nil => simp [concat, Unbound]
  | cons regex regexes ih =>
      rw [concat_cons, List.forall_mem_cons, ← ih]
      rfl

/-- Such an expression matches a text wherever it stands. -/
theorem mem_takings_unbound {regex : Regex α} (unbound : regex.Unbound) :
    (taken, remaining) ∈ regex.takings before rest ↔
      taken ++ remaining = rest ∧ (taken, []) ∈ regex.takings [] taken := by
  induction regex generalizing before rest taken remaining with
  | empty =>
      rw [mem_takings_empty, mem_takings_empty]
      constructor
      · rintro ⟨rfl, rfl⟩
        exact ⟨rfl, rfl, rfl⟩
      · rintro ⟨rfl, rfl, _⟩
        exact ⟨rfl, rfl⟩
  | boundary inWord => exact unbound.elim
  | one accepts =>
      rw [mem_takings_one, mem_takings_one]
      constructor
      · rintro ⟨element, accepted, rfl, rfl⟩
        exact ⟨rfl, element, accepted, rfl, rfl⟩
      · rintro ⟨rfl, element, accepted, rfl, _⟩
        exact ⟨element, accepted, rfl, rfl⟩
  | many least most accepts =>
      rw [mem_takings_many, mem_takings_many, List.append_nil]
      constructor
      · rintro ⟨whole, spec⟩
        exact ⟨whole, rfl, spec⟩
      · rintro ⟨whole, _, spec⟩
        exact ⟨whole, spec⟩
  | seq first second ihFirst ihSecond =>
      rw [mem_takings_seq, mem_takings_seq]
      constructor
      · rintro ⟨front, middle, more, rfl, front_mem, more_mem⟩
        rcases (ihFirst unbound.1).mp front_mem with ⟨rfl, front_taken⟩
        rcases (ihSecond unbound.2).mp more_mem with ⟨rfl, more_taken⟩
        refine ⟨List.append_assoc _ _ _, front, more, more, rfl, ?_, ?_⟩
        · exact (ihFirst unbound.1).mpr ⟨rfl, front_taken⟩
        · exact (ihSecond unbound.2).mpr ⟨List.append_nil more, more_taken⟩
      · rintro ⟨rfl, front, middle, more, rfl, front_mem, more_mem⟩
        rcases (ihFirst unbound.1).mp front_mem with ⟨_, front_taken⟩
        rcases (ihSecond unbound.2).mp more_mem with ⟨_, more_taken⟩
        refine ⟨front, more ++ remaining, more, rfl, ?_, ?_⟩
        · exact (ihFirst unbound.1).mpr ⟨by rw [List.append_assoc], front_taken⟩
        · exact (ihSecond unbound.2).mpr ⟨rfl, more_taken⟩
  | alt first second ihFirst ihSecond =>
      rw [mem_takings_alt, mem_takings_alt, ihFirst unbound.1, ihSecond unbound.2]
      exact (and_or_left).symm

end Contexts

section Separators

variable {separator : α}

/-- No part of an expression accepts a separator or counts it as an element of a word. -/
def Shuns (separator : α) : Regex α → Prop
  | empty => True
  | boundary inWord => inWord separator = false
  | one accepts => accepts separator = false
  | many _ _ accepts => accepts separator = false
  | seq first second => first.Shuns separator ∧ second.Shuns separator
  | alt first second => first.Shuns separator ∧ second.Shuns separator

instance decidableShuns (separator : α) : (regex : Regex α) → Decidable (regex.Shuns separator)
  | empty => inferInstanceAs (Decidable True)
  | boundary inWord => inferInstanceAs (Decidable (inWord separator = false))
  | one accepts => inferInstanceAs (Decidable (accepts separator = false))
  | many _ _ accepts => inferInstanceAs (Decidable (accepts separator = false))
  | seq first second =>
      @instDecidableAnd _ _ (decidableShuns separator first) (decidableShuns separator second)
  | alt first second =>
      @instDecidableAnd _ _ (decidableShuns separator first) (decidableShuns separator second)

theorem any_head?_append (inWord : α → Bool) (outside : inWord separator = false)
    (text further : List α) :
    (text ++ separator :: further).head?.any inWord = text.head?.any inWord := by
  cases text with
  | nil => simp [outside]
  | cons element text => rfl

theorem repeats_ahead {accepts : α → Bool} (refused : accepts separator = false) (least : ℕ)
    (most : Option ℕ) (rest further : List α) :
    repeats accepts least most (rest ++ separator :: further) =
      (repeats accepts least most rest).map fun taking =>
        (taking.1, taking.2 ++ separator :: further) := by
  induction rest generalizing least most with
  | nil =>
      simp only [List.nil_append, repeats, refused, Bool.false_eq_true, false_and, if_false]
      split_ifs <;> rfl
  | cons element rest ih =>
      simp only [List.cons_append, repeats, ih]
      split_ifs <;> simp

/-- What stands behind a separator does not matter before it. -/
theorem takings_ahead {regex : Regex α} (shuns : regex.Shuns separator)
    (before rest further : List α) :
    regex.takings before (rest ++ separator :: further) =
      (regex.takings before rest).map fun taking =>
        (taking.1, taking.2 ++ separator :: further) := by
  induction regex generalizing before rest with
  | empty => rfl
  | boundary inWord =>
      have same : AtBoundary inWord before (rest ++ separator :: further) ↔
          AtBoundary inWord before rest := by
        rw [AtBoundary, AtBoundary, any_head?_append inWord shuns]
      rw [takings, takings]
      by_cases at_boundary : AtBoundary inWord before rest
      · rw [if_pos (same.mpr at_boundary), if_pos at_boundary]
        rfl
      · rw [if_neg (mt same.mp at_boundary), if_neg at_boundary]
        rfl
  | one accepts =>
      cases rest with
      | nil => simp [takings, show accepts separator = false from shuns]
      | cons element rest =>
          simp only [List.cons_append, takings]
          split_ifs <;> rfl
  | many least most accepts => exact repeats_ahead shuns least most rest further
  | seq first second ihFirst ihSecond =>
      simp only [takings, ihFirst shuns.1, ihSecond shuns.2, List.flatMap_map, List.map_flatMap,
        List.map_map]
      rfl
  | alt first second ihFirst ihSecond =>
      simp only [takings, ihFirst shuns.1, ihSecond shuns.2, List.map_append]

/-- What stands before a separator does not matter behind it. -/
theorem takings_behind {regex : Regex α} (shuns : regex.Shuns separator)
    (before further rest : List α) :
    regex.takings (before ++ separator :: further) rest = regex.takings before rest := by
  induction regex generalizing before rest with
  | empty => rfl
  | boundary inWord =>
      have same : AtBoundary inWord (before ++ separator :: further) rest ↔
          AtBoundary inWord before rest := by
        rw [AtBoundary, AtBoundary, any_head?_append inWord shuns]
      rw [takings, takings]
      by_cases at_boundary : AtBoundary inWord before rest
      · rw [if_pos (same.mpr at_boundary), if_pos at_boundary]
      · rw [if_neg (mt same.mp at_boundary), if_neg at_boundary]
  | one accepts => cases rest <;> rfl
  | many least most accepts => rfl
  | seq first second ihFirst ihSecond =>
      simp only [takings, ihFirst shuns.1, ← List.append_assoc, ihSecond shuns.2]
  | alt first second ihFirst ihSecond =>
      simp only [takings, ihFirst shuns.1, ihSecond shuns.2]

/-- What an expression takes is free of what it shuns. -/
theorem not_mem_of_mem_takings {regex : Regex α} (shuns : regex.Shuns separator)
    (taking : (taken, remaining) ∈ regex.takings before rest) : separator ∉ taken := by
  induction regex generalizing before rest taken remaining with
  | empty =>
      rw [(mem_takings_empty.mp taking).1]
      exact List.not_mem_nil
  | boundary inWord =>
      rw [(mem_takings_boundary.mp taking).2.1]
      exact List.not_mem_nil
  | one accepts =>
      rcases mem_takings_one.mp taking with ⟨element, accepted, rfl, _⟩
      intro separator_mem
      rw [List.mem_singleton.mp separator_mem] at shuns
      exact Bool.eq_false_iff.mp shuns accepted
  | many least most accepts =>
      intro separator_mem
      exact Bool.eq_false_iff.mp shuns ((mem_takings_many.mp taking).2.1 separator separator_mem)
  | seq first second ihFirst ihSecond =>
      rcases mem_takings_seq.mp taking with ⟨front, middle, more, rfl, front_mem, more_mem⟩
      rw [List.mem_append, not_or]
      exact ⟨ihFirst shuns.1 front_mem, ihSecond shuns.2 more_mem⟩
  | alt first second ihFirst ihSecond =>
      rcases mem_takings_alt.mp taking with left | right
      · exact ihFirst shuns.1 left
      · exact ihSecond shuns.2 right

theorem shuns_concat {regexes : List (Regex α)} :
    (concat regexes).Shuns separator ↔ ∀ regex ∈ regexes, regex.Shuns separator := by
  induction regexes with
  | nil => simp [concat, Shuns]
  | cons regex regexes ih =>
      rw [concat_cons, List.forall_mem_cons, ← ih]
      rfl

end Separators

end Regex

namespace Pattern

variable {α : Type} {pattern : Pattern α}

/-- A pattern looks neither beyond nor back over what all its parts shun. -/
theorem separatedBy {separator : α} (opening : pattern.opening.Shuns separator)
    (removed : pattern.removed.Shuns separator) (closing : pattern.closing.Shuns separator) :
    pattern.rule.SeparatedBy separator where
  ahead := by
    intro before rest further
    have same : pattern.occurrences before (rest ++ separator :: further) =
        pattern.occurrences before rest := by
      simp only [occurrences, Regex.takings_ahead opening, Regex.takings_ahead removed,
        Regex.takings_ahead closing, List.flatMap_map, List.map_map]
      rfl
    exact congrArg List.head? same
  behind := by
    intro before further rest
    have same : pattern.occurrences (before ++ separator :: further) rest =
        pattern.occurrences before rest := by
      simp only [occurrences, Regex.takings_behind opening, ← List.append_assoc,
        Regex.takings_behind removed, Regex.takings_behind closing]
    exact congrArg List.head? same

/-- Something is found where there is an occurrence. -/
theorem exists_find_of_mem {before rest : List α} {found : Found α}
    (found_mem : found ∈ pattern.occurrences before rest) :
    ∃ first, pattern.rule.find before rest = some first := by
  cases occurrences_eq : pattern.occurrences before rest with
  | nil =>
      rw [occurrences_eq] at found_mem
      cases found_mem
  | cons first others => exact ⟨first, congrArg List.head? occurrences_eq⟩

theorem mem_occurrences_of_find {before rest : List α} {found : Found α}
    (finds : pattern.rule.find before rest = some found) :
    found ∈ pattern.occurrences before rest :=
  List.mem_of_mem_head? finds

/-- A pattern without a part to keep at its end finds the first way of what it removes. -/
theorem exists_of_find {before rest : List α} {found : Found α} (closing : pattern.closing = .empty)
    (finds : pattern.rule.find before rest = some found) :
    found.closing = [] ∧ ∃ behindOpening remaining,
      (found.opening, behindOpening) ∈ pattern.opening.takings before rest ∧
        (pattern.removed.takings (found.opening.reverse ++ before) behindOpening).head? =
          some (found.removed, remaining) := by
  have occurrences_eq : pattern.occurrences before rest =
      (pattern.opening.takings before rest).flatMap fun front =>
        (pattern.removed.takings (front.1.reverse ++ before) front.2).map fun taking =>
          ⟨front.1, taking.1, pattern.written, []⟩ := by
    simp [occurrences, closing, Regex.takings, List.map_eq_flatMap]
  have head_eq : (pattern.occurrences before rest).head? = some found := finds
  rw [occurrences_eq, List.head?_flatMap] at head_eq
  rcases List.exists_of_findSome?_eq_some head_eq with
    ⟨⟨opening, behindOpening⟩, opening_mem, rest_eq⟩
  rw [List.head?_map, Option.map_eq_some_iff] at rest_eq
  rcases rest_eq with ⟨⟨removed, remaining⟩, first_eq, rfl⟩
  exact ⟨rfl, behindOpening, remaining, opening_mem, first_eq⟩

/-- A pattern without parts to keep finds the first way of what it removes. -/
theorem head?_of_find {before rest : List α} {found : Found α} (opening : pattern.opening = .empty)
    (closing : pattern.closing = .empty) (finds : pattern.rule.find before rest = some found) :
    ∃ remaining, (pattern.removed.takings before rest).head? = some (found.removed, remaining) := by
  rcases exists_of_find closing finds with ⟨_, behindOpening, remaining, opening_mem, first_eq⟩
  rw [opening] at opening_mem
  rcases Regex.mem_takings_empty.mp opening_mem with ⟨opening_eq, rfl⟩
  rw [opening_eq] at first_eq
  exact ⟨remaining, first_eq⟩

/-- A pattern without parts to keep. -/
theorem bare (opening : pattern.opening = .empty) (closing : pattern.closing = .empty) :
    pattern.rule.Bare := by
  intro before rest found finds
  rcases pattern.mem_occurrences.mp (mem_occurrences_of_find finds) with
    ⟨_, _, _, _, opening_mem, _, closing_mem⟩
  rw [opening] at opening_mem
  rw [closing] at closing_mem
  exact ⟨(Regex.mem_takings_empty.mp opening_mem).1, (Regex.mem_takings_empty.mp closing_mem).1⟩

theorem written_of_mem_pieces {text removed written : List α}
    (replaced : .replaced removed written ∈ pattern.rule.pieces text) :
    written = pattern.written := by
  rcases Rule.exists_find_of_mem_piecesFrom replaced with ⟨_, _, found, finds, _, rfl⟩
  exact (pattern.mem_occurrences.mp (mem_occurrences_of_find finds)).1

/--
A word has not come with the marks of a pattern that keeps an opening and removes all of a
run behind it, if neither the end of the opening nor what ends a run goes on with the word.
-/
theorem infix_of_infix_sub_run {word text : List α} {least : ℕ} {accepts : α → Bool}
    (removed_eq : pattern.removed = .many least none accepts) (closing : pattern.closing = .empty)
    (not_mark : ¬word <:+: pattern.written)
    (opens : ∀ before rest opening remaining,
      (opening, remaining) ∈ pattern.opening.takings before rest →
        ∃ front last, opening = front ++ [last] ∧ ¬Precedes pattern.written word last)
    (stops : ∀ next, accepts next = false → ¬Follows pattern.written word next)
    (occurs : word <:+: pattern.rule.sub text) : word <:+: text := by
  have found_at : ∀ earlier removed written later,
      pattern.rule.pieces text = earlier ++ .replaced removed written :: later →
        (∃ front last, earlier = front ++ [.kept last] ∧ ¬Precedes pattern.written word last) ∧
          (later.flatMap Piece.source).head?.any accepts = false := by
    intro earlier removed written later pieces_eq
    rcases Rule.exists_found_of_piecesFrom (Nat.zero_le _) pieces_eq with
      ⟨found, front, behind, rfl, rfl, _, _, finds⟩
    rcases exists_of_find closing finds with
      ⟨closing_eq, behindOpening, remaining, opening_mem, first_eq⟩
    rcases opens _ _ _ _ opening_mem with ⟨begun, last, opening_eq, not_precedes⟩
    have opening_whole := (Regex.append_of_mem_takings opening_mem).1
    have removed_whole := (Regex.append_of_mem_takings (List.mem_of_head? first_eq)).1
    rw [Found.source, closing_eq, List.append_nil, List.append_assoc] at opening_whole
    rw [List.append_cancel_left opening_whole] at removed_whole first_eq
    rw [List.append_cancel_left removed_whole, removed_eq] at first_eq
    refine ⟨⟨front ++ begun.map .kept, last, by simp [opening_eq], not_precedes⟩, ?_⟩
    rw [closing_eq]
    exact Regex.stops_of_head?_many first_eq
  rw [← pattern.rule.flatMap_source_pieces text]
  have beside : ∀ earlier removed written later,
      pattern.rule.pieces text = earlier ++ .replaced removed written :: later →
        (∀ last ∈ (earlier.flatMap Piece.source ++ []).getLast?,
          ¬Precedes pattern.written word last) ∧
          ∀ next ∈ (later.flatMap Piece.target).head?, ¬Follows pattern.written word next := by
    intro earlier removed written later pieces_eq
    rcases found_at _ _ _ _ pieces_eq with ⟨⟨front, last, rfl, not_precedes⟩, refused⟩
    constructor
    · intro other other_mem
      rw [List.append_nil, List.flatMap_append] at other_mem
      cases (Option.mem_some_iff.mp (by simpa [Piece.source] using other_mem))
      exact not_precedes
    · intro next next_mem
      cases later with
      | nil => cases next_mem
      | cons piece later =>
          cases piece with
          | kept element =>
              cases next_mem
              exact stops next refused
          | replaced other written' =>
              -- The opening of what is found next would be missing.
              rcases found_at (front ++ [.kept last] ++ [.replaced removed written]) other written'
                later (by simpa using pieces_eq) with ⟨⟨ahead, further, pieces_last, _⟩, _⟩
              cases (List.append_inj' pieces_last rfl).2
  rcases infix_source_or_heading not_mark
    (fun removed written replaced => written_of_mem_pieces replaced) beside occurs with
    stood | ⟨earlier, removed, written, later, pieces_eq, completed⟩
  · exact stood
  · rw [pieces_eq, List.flatMap_append]
    rw [List.append_nil] at completed
    exact completed.trans (List.prefix_append _ _).isInfix

/-- What does not overlap the text that is written has not come with it. -/
theorem infix_of_infix_sub {word text : List α} (apart : ¬Overlaps word pattern.written)
    (occurs : word <:+: pattern.rule.sub text) : word <:+: text := by
  rw [← Rule.flatMap_source_pieces text]
  refine infix_source_of_apart ?_ occurs
  intro removed written replaced
  rwa [written_of_mem_pieces replaced]

end Pattern
