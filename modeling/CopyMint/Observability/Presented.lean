import CopyMint.Observability.Expressions
import Mathlib.Data.List.TakeWhile

/-!
# What a bearer presents

The first expression removes the run of characters that `Bearer` announces at the beginning
of a word. An announcement inside such a run belongs to it and announces nothing, so that
the announcements of a text are told by recursion on what stands before them.
-/

namespace CopyMint

open Hexadecimal Substitution Regex

variable {tables : CharacterTables}

/-- A character of what a bearer presents. -/
def isPresentable (character : Char) : Bool := sameClass isBearerCharacter character

/-- `Bearer` in any case, with blanks behind it, where no word goes on. -/
structure Announces (tables : CharacterTables) (front spelled blanks : Text) : Prop where
  outer : front.reverse.head?.any tables.isWord = false
  spelled_eq : spelled.map Char.toLower = "bearer".toList
  blanks_ne : blanks ≠ []
  blanks_all : ∀ blank ∈ blanks, tables.isSpace blank = true

/-- The text ends with an announcement, and with a run of what a bearer presents behind it. -/
def Presented (tables : CharacterTables) (text : Text) : Prop :=
  ∃ front spelled blanks value, ∃ _ : text = front ++ (spelled ++ (blanks ++ value)),
    ∃ _ : Announces tables front spelled blanks,
      (∀ character ∈ value, isPresentable character = true) ∧ ¬Presented tables front
  termination_by text.length
  decreasing_by
    rename_i whole announces
    have nonempty := List.length_pos_iff.mpr announces.blanks_ne
    rw [whole]
    simp only [List.length_append]
    omega

/-- An announcement, and all of the run behind it. -/
structure Presents (tables : CharacterTables) (front removed behind : Text) : Prop where
  parts : ∃ spelled blanks value, removed = spelled ++ (blanks ++ value) ∧
    Announces tables front spelled blanks ∧ value ≠ [] ∧
      ∀ character ∈ value, isPresentable character = true
  stops : behind.head?.any isPresentable = false

/-- The rest goes on with what is presented before it. -/
def Taken (tables : CharacterTables) (front rest : Text) : Prop :=
  Presented tables front ∧ rest.head?.any isPresentable = true

/-- No word goes on behind the text, as the first expression leaves it. -/
def Opens (tables : CharacterTables) (front rest : Text) : Prop :=
  (Presented tables front ∧ rest.head?.any isPresentable = false) ∨
    (¬Presented tables front ∧ front.reverse.head?.any tables.isWord = false)

/-- Behind the text something is announced and presented. -/
def AnnouncesAt (tables : CharacterTables) (front rest : Text) : Prop :=
  ∃ spelled blanks value, rest = spelled ++ (blanks ++ value) ∧
    Announces tables front spelled blanks ∧ value.head?.any isPresentable = true

/--
The word is what the first expression leaves of its other spelling: the word itself, if
nothing is announced in it, or else with the beginning of `Bearer` at its end.
-/
def Spells (tables : CharacterTables) (word other behind : Text) : Prop :=
  (other = word ∧ ∀ body part, other = body ++ part → part ≠ [] →
    ¬AnnouncesAt tables body (part ++ behind)) ∨
  ∃ body part, other = body ++ part ∧ part ≠ [] ∧ part.length ≤ 6 ∧
    AnnouncesAt tables body (part ++ behind) ∧ word = body ++ "Bearer".toList.take part.length

section Characters

theorem isBearerCharacter_graphic {character : Char}
    (accepted : isBearerCharacter character = true) :
    32 < character.toNat ∧ character.toNat < 127 := by
  have small : character.toNat < 128 := by
    rw [isBearerCharacter, Bool.or_eq_true, Bool.or_eq_true, decide_eq_true_eq] at accepted
    rcases accepted with (lower | digit) | other
    · exact Nat.lt_of_le_of_lt (of_decide_eq_true (Bool.and_eq_true_iff.mp lower).2) (by decide)
    · exact Nat.lt_of_le_of_lt (of_decide_eq_true (Bool.and_eq_true_iff.mp digit).2) (by decide)
    · have marks : ∀ mark ∈ "._~+/=-".toList, mark.toNat < 128 := forall_mem_of_all (by decide)
      exact marks character other
  exact @of_ascii (fun character => isBearerCharacter character = true →
    32 < character.toNat ∧ character.toNat < 127) (by decide +kernel) _ small accepted

/-- A character in whose class a pattern finds it in another case is of ASCII, or one of four. -/
theorem isPresentable_cases {character : Char} (presentable : isPresentable character = true) :
    (32 < character.toNat ∧ character.toNat < 127) ∨
      character ∈ ['\u0130', '\u0131', '\u017f', '\u212a'] := by
  have lowered : ∀ low : Char, character.toLower = low →
      (32 < low.toNat ∧ low.toNat < 127 → 32 < character.toNat ∧ character.toNat < 127) ∧
        (low ∈ ['\u0131', '\u017f'] → character = low) := by
    rintro low rfl
    rcases toLower_eq_or character with same | ⟨alnum, _, small, lower_small⟩
    · rw [same]
      exact ⟨id, fun _ => rfl⟩
    · constructor
      · intro _
        exact @of_ascii (fun character => character.isAlphanum = true →
          32 < character.toNat ∧ character.toNat < 127) (by decide +kernel) _ small alnum
      · intro cased
        have large : ∀ mark ∈ ['\u0131', '\u017f'], ¬mark.toNat < 128 :=
          forall_mem_of_all (by decide)
        exact absurd lower_small (large _ cased)
  by_cases kelvin : character = '\u212a'
  · right
    simp [kelvin]
  by_cases dotted : character = '\u0130'
  · right
    simp [dotted]
  have lower_eq : unicodeTolower character = character.toLower := by
    rw [unicodeTolower, if_neg kelvin, if_neg dotted]
  have cases_eq : extraCases 'i' = ['\u0131'] ∧ extraCases 's' = ['\u017f'] := by decide
  rw [isPresentable, sameClass, lower_eq, cases_eq.1, cases_eq.2] at presentable
  simp only [Bool.or_eq_true, Bool.and_eq_true, decide_eq_true_eq, List.mem_singleton]
    at presentable
  rcases presentable with (plain | ⟨dotless, _⟩) | ⟨long, _⟩
  · exact .inl ((lowered _ rfl).1 (isBearerCharacter_graphic plain))
  · right
    rw [(lowered _ dotless).2 (by decide)]
    decide
  · right
    rw [(lowered _ long).2 (by decide)]
    decide

theorem isSpace_of_isPresentable (lawful : tables.Lawful) {character : Char}
    (presentable : isPresentable character = true) : tables.isSpace character = false := by
  rcases isPresentable_cases presentable with graphic | cased
  · exact lawful.isSpace_graphic character graphic.1 graphic.2
  · exact lawful.isSpace_cased character cased

theorem isPresentable_of_isTokenCharacter {character : Char}
    (accepted : isTokenCharacter character = true) : isPresentable character = true := by
  have graphic := isTokenCharacter_graphic accepted
  exact @of_ascii (fun character => isTokenCharacter character = true →
    isPresentable character = true) (by decide +kernel) _ (Nat.lt_succ_of_lt graphic.2) accepted

end Characters

section Shape

theorem forall₂_bearer {spelled : Text} :
    List.Forall₂ (fun letter character => sameLetter letter character = true) "Bearer".toList
      spelled ↔ spelled.map Char.toLower = "bearer".toList := by
  constructor
  · intro same
    exact (map_toLower_of_sameLetter (forall_mem_of_all (by decide)) same).trans (by decide)
  · have general : ∀ letters : Text, (∀ letter ∈ letters, unicodeTolower letter ≠ '\u212a' ∧
        unicodeTolower letter ≠ '\u0130') → ∀ spelled : Text,
          spelled.map Char.toLower = letters.map unicodeTolower →
            List.Forall₂ (fun letter character => sameLetter letter character = true) letters
              spelled := by
      intro letters plain
      induction letters with
      | nil =>
          intro spelled same
          rw [List.map_eq_nil_iff.mp same]
          exact List.Forall₂.nil
      | cons letter letters ih =>
          rcases List.forall_mem_cons.mp plain with ⟨plain_letter, plain_letters⟩
          intro spelled same
          rcases List.map_eq_cons_iff.mp same with ⟨character, others, rfl, same_here, same_rest⟩
          refine List.Forall₂.cons ?_ (ih plain_letters others same_rest)
          have kelvin : character ≠ '\u212a' := by
            rintro rfl
            exact plain_letter.1 same_here.symm
          have dotted : character ≠ '\u0130' := by
            rintro rfl
            exact plain_letter.2 same_here.symm
          rw [sameLetter, show unicodeTolower character = character.toLower by
            rw [unicodeTolower, if_neg kelvin, if_neg dotted], same_here, decide_eq_true rfl,
            Bool.true_or]
    intro same
    exact general _ (forall_mem_of_all (by decide)) spelled (same.trans (by decide))

theorem Announces.length_spelled {front spelled blanks : Text}
    (announces : Announces tables front spelled blanks) : spelled.length = 6 := by
  have lengths := congrArg List.length announces.spelled_eq
  rwa [List.length_map] at lengths

theorem isWord_of_mem_spelled (lawful : tables.Lawful) {spelled : Text}
    (spelled_eq : spelled.map Char.toLower = "bearer".toList) :
    ∀ character ∈ spelled, tables.isWord character = true := by
  intro character character_mem
  have lower_mem : character.toLower ∈ "bearer".toList := by
    rw [← spelled_eq]
    exact List.mem_map_of_mem character_mem
  have letters : ∀ letter ∈ "bearer".toList, letter.toNat < 128 ∧ letter.isAlphanum = true :=
    forall_mem_of_all (by decide)
  rcases letters _ lower_mem with ⟨small, alnum⟩
  rw [← lawful.isWord_toLower, lawful.isWord_ascii small, alnum, Bool.true_or]

theorem isTokenCharacter_of_mem_spelled {spelled : Text}
    (spelled_eq : spelled.map Char.toLower = "bearer".toList) :
    ∀ character ∈ spelled, isTokenCharacter character = true := by
  intro character character_mem
  have lower_mem : character.toLower ∈ "bearer".toList := by
    rw [← spelled_eq]
    exact List.mem_map_of_mem character_mem
  have letters : ∀ letter ∈ "bearer".toList, isTokenCharacter letter = true :=
    forall_mem_of_all (by decide)
  rw [← isTokenCharacter_toLower, letters _ lower_mem]

/-- An announcement begins with a letter, which can be presented. -/
theorem Presents.exists_cons {front removed behind : Text}
    (presents : Presents tables front removed behind) :
    ∃ first others, removed = first :: others ∧ isTokenCharacter first = true := by
  rcases presents.parts with ⟨spelled, blanks, value, rfl, announces, _, _⟩
  have letters := isTokenCharacter_of_mem_spelled announces.spelled_eq
  rcases List.map_eq_cons_iff.mp announces.spelled_eq with ⟨first, others, rfl, _, _⟩
  exact ⟨first, others ++ (blanks ++ value), rfl, letters first List.mem_cons_self⟩

theorem Presents.outer {front removed behind : Text}
    (presents : Presents tables front removed behind) :
    front.reverse.head?.any tables.isWord = false := by
  rcases presents.parts with ⟨_, _, _, _, announces, _, _⟩
  exact announces.outer

/-- What the first expression removes is an announcement with a run behind it. -/
theorem mem_takings_bearer (lawful : tables.Lawful) {front rest removed behind : Text} :
    (removed, behind) ∈ (bearerPattern tables).removed.takings front.reverse rest ↔
      removed ++ behind = rest ∧
        ∃ spelled blanks value, removed = spelled ++ (blanks ++ value) ∧
          Announces tables front spelled blanks ∧ value ≠ [] ∧
            ∀ character ∈ value, isPresentable character = true := by
  have at_boundary : ∀ spelled rest : Text, spelled.map Char.toLower = "bearer".toList →
      (AtBoundary tables.isWord front.reverse (spelled ++ rest) ↔
        front.reverse.head?.any tables.isWord = false) := by
    intro spelled rest same
    have words := isWord_of_mem_spelled lawful same
    rcases List.map_eq_cons_iff.mp same with ⟨first, others, rfl, _, _⟩
    rw [AtBoundary, List.cons_append, List.head?_cons, Option.any_some,
      words first List.mem_cons_self]
    exact Bool.eq_false_iff.symm
  constructor
  · intro removed_mem
    rcases mem_takings_seq.mp removed_mem with ⟨_, _, others, rfl, boundary_mem, others_mem⟩
    rcases mem_takings_boundary.mp boundary_mem with ⟨boundary, rfl, rfl⟩
    rcases mem_takings_seq.mp others_mem with ⟨spelled, _, values, rfl, spelled_mem, values_mem⟩
    rcases mem_takings_seq.mp values_mem with ⟨blanks, _, more, rfl, blanks_mem, more_mem⟩
    rcases mem_takings_seq.mp more_mem with ⟨value, _, _, rfl, value_mem, empty_mem⟩
    rcases mem_takings_empty.mp empty_mem with ⟨rfl, rfl⟩
    rcases mem_takings_ignoringCase.mp spelled_mem with ⟨rfl, same⟩
    rcases mem_takings_many.mp blanks_mem with ⟨rfl, blanks_all, blanks_least, _⟩
    rcases mem_takings_many.mp value_mem with ⟨rfl, value_all, value_least, _⟩
    have spelled_eq := forall₂_bearer.mp same
    refine ⟨by simp, spelled, blanks, value, by simp, ⟨?_, spelled_eq, ?_, blanks_all⟩, ?_,
      value_all⟩
    · exact (at_boundary _ _ spelled_eq).mp boundary
    · exact List.length_pos_iff.mp blanks_least
    · exact List.length_pos_iff.mp value_least
  · rintro ⟨rfl, spelled, blanks, value, rfl, ⟨outer, spelled_eq, blanks_ne, blanks_all⟩, value_ne,
      value_all⟩
    refine mem_takings_seq.mpr ⟨[], _, spelled ++ (blanks ++ value), rfl,
      mem_takings_boundary.mpr ⟨?_, rfl, rfl⟩, ?_⟩
    · rw [List.append_assoc]
      exact (at_boundary _ _ spelled_eq).mpr outer
    refine mem_takings_seq.mpr ⟨spelled, blanks ++ (value ++ behind), blanks ++ value, rfl,
      mem_takings_ignoringCase.mpr ⟨by simp, forall₂_bearer.mpr spelled_eq⟩, ?_⟩
    refine mem_takings_seq.mpr ⟨blanks, value ++ behind, value, rfl,
      mem_takings_run.mpr ⟨rfl, blanks_all, List.length_pos_iff.mpr blanks_ne⟩, ?_⟩
    exact mem_takings_seq.mpr ⟨value, behind, [], (List.append_nil value).symm,
      mem_takings_run.mpr ⟨rfl, value_all, List.length_pos_iff.mpr value_ne⟩,
        mem_takings_empty.mpr ⟨rfl, rfl⟩⟩

theorem bearer_bare : (bearerPattern tables).rule.Bare := Pattern.bare rfl rfl

theorem presents_of_find (lawful : tables.Lawful) {front rest : Text} {found : Found Char}
    (finds : (bearerPattern tables).rule.find front.reverse rest = some found) :
    ∃ behind, rest = found.removed ++ behind ∧ Presents tables front found.removed behind := by
  rcases Pattern.head?_of_find rfl rfl finds with ⟨behind, head_eq⟩
  rcases (mem_takings_bearer lawful).mp (List.mem_of_head? head_eq) with ⟨rfl, parts⟩
  refine ⟨behind, rfl, parts, ?_⟩
  rcases exists_of_head?_seq head_eq with ⟨_, _, _, _, _, named_eq⟩
  rcases exists_of_head?_seq named_eq with ⟨_, _, _, _, _, blanks_eq⟩
  rcases exists_of_head?_seq blanks_eq with ⟨_, _, _, _, _, value_eq⟩
  exact stops_of_head?_seq value_eq

theorem exists_find_of_presents (lawful : tables.Lawful) {front removed behind : Text}
    (presents : Presents tables front removed behind) :
    ∃ found, (bearerPattern tables).rule.find front.reverse (removed ++ behind) = some found := by
  have removed_mem : (removed, behind) ∈
      (bearerPattern tables).removed.takings front.reverse (removed ++ behind) :=
    (mem_takings_bearer lawful).mpr ⟨rfl, presents.parts⟩
  have found_mem : (⟨[], removed, "Bearer ".toList ++ redactedMark, []⟩ : Found Char) ∈
      (bearerPattern tables).occurrences front.reverse (removed ++ behind) :=
    (Pattern.mem_occurrences _).mpr ⟨rfl, _, behind, behind, mem_takings_empty.mpr ⟨rfl, rfl⟩,
      removed_mem, mem_takings_empty.mpr ⟨rfl, rfl⟩⟩
  exact Pattern.exists_find_of_mem found_mem

end Shape

section Replaced

/-- The run behind an announcement is determined by the text. -/
theorem Presents.unique (lawful : tables.Lawful) {front removed behind removed' behind' : Text}
    (presents : Presents tables front removed behind)
    (presents' : Presents tables front removed' behind')
    (same : removed ++ behind = removed' ++ behind') : removed = removed' := by
  rcases presents with ⟨⟨spelled, blanks, value, rfl, announces, value_ne, value_all⟩, stops⟩
  rcases presents' with ⟨⟨spelled', blanks', value', rfl, announces', value_ne', value_all'⟩,
    stops'⟩
  have no_blank : ∀ value rest : Text, value ≠ [] →
      (∀ character ∈ value, isPresentable character = true) →
        (value ++ rest).head?.any tables.isSpace = false := by
    intro value rest value_ne value_all
    cases value with
    | nil => exact absurd rfl value_ne
    | cons first others =>
        exact isSpace_of_isPresentable lawful (value_all first List.mem_cons_self)
  simp only [List.append_assoc] at same
  rcases List.append_inj same (announces.length_spelled.trans announces'.length_spelled.symm) with
    ⟨spelled_eq, same⟩
  rcases run_inj same announces.blanks_all announces'.blanks_all (no_blank _ _ value_ne value_all)
    (no_blank _ _ value_ne' value_all') with ⟨blanks_eq, same⟩
  rw [spelled_eq, blanks_eq, (run_inj same value_all value_all' stops stops').1]

/-- The run goes on with what can be presented. -/
theorem Presented.exists_presents {text rest : Text} (presented : Presented tables text)
    (goes_on : rest.head?.any isPresentable = true) :
    ∃ front inside more behind, text = front ++ inside ∧ inside ≠ [] ∧ rest = more ++ behind ∧
      more ≠ [] ∧ Presents tables front (inside ++ more) behind ∧ ¬Presented tables front := by
  rw [Presented] at presented
  rcases presented with ⟨front, spelled, blanks, value, rfl, announces, value_all, unpresented⟩
  have more_ne : rest.takeWhile isPresentable ≠ [] := by
    cases rest with
    | nil => cases goes_on
    | cons first others =>
        have accepted : isPresentable first = true := goes_on
        rw [List.takeWhile_cons_of_pos accepted]
        exact List.cons_ne_nil _ _
  refine ⟨front, spelled ++ (blanks ++ value), rest.takeWhile isPresentable,
    rest.dropWhile isPresentable, rfl, ?_, List.takeWhile_append_dropWhile.symm, more_ne, ⟨?_, ?_⟩,
    unpresented⟩
  · simp [announces.blanks_ne]
  · refine ⟨spelled, blanks, value ++ rest.takeWhile isPresentable, by simp, announces,
      by simp [more_ne], ?_⟩
    exact List.forall_mem_append.mpr ⟨value_all, fun character character_mem =>
      List.mem_takeWhile_imp character_mem⟩
  · have refused := List.head?_dropWhile_not isPresentable rest
    cases dropped : (rest.dropWhile isPresentable).head? with
    | none => rfl
    | some first =>
        rw [dropped] at refused
        exact refused

/-- Inside an announcement and its run, a word begins only in the run. -/
theorem Presents.presented_of_inside (lawful : tables.Lawful) {front inside more behind : Text}
    (presents : Presents tables front (inside ++ more) behind)
    (unpresented : ¬Presented tables front) (inside_ne : inside ≠ []) (more_ne : more ≠ [])
    (outer : (front ++ inside).reverse.head?.any tables.isWord = false)
    (solid : more.head?.any tables.isSpace = false) : Presented tables (front ++ inside) := by
  rcases presents.parts with ⟨spelled, blanks, value, whole, announces, _, value_all⟩
  have spelled_word := isWord_of_mem_spelled lawful announces.spelled_eq
  have not_letters : ∀ rest, ¬inside ++ rest = spelled := by
    rintro rest rfl
    rcases List.eq_nil_or_concat inside with rfl | ⟨others, last, rfl⟩
    · exact inside_ne rfl
    · have last_word := spelled_word last (by simp)
      simp [last_word] at outer
  rcases List.append_eq_append_iff.mp whole with ⟨others, spelled_eq, _⟩ |
    ⟨ahead, rfl, rest_eq⟩
  · exact absurd spelled_eq.symm (not_letters others)
  rw [Presented]
  rcases List.append_eq_append_iff.mp rest_eq with ⟨begun, rfl, rfl⟩ | ⟨begun, rfl, rfl⟩
  · exact ⟨front, spelled, blanks, begun, rfl, announces, fun character character_mem =>
      value_all character (List.mem_append_left _ character_mem), unpresented⟩
  · cases begun with
    | nil =>
        rw [List.append_nil] at announces
        refine ⟨front, spelled, ahead, [], by rw [List.append_nil], announces, ?_, unpresented⟩
        exact fun character none => absurd none List.not_mem_nil
    | cons blank begun =>
        have is_blank := announces.blanks_all blank (by simp)
        rw [List.cons_append, List.head?_cons, Option.any_some, is_blank] at solid
        cases solid

/-- The first expression removes what an announcement presents that is in no other run. -/
theorem bearer_replaces_iff (lawful : tables.Lawful) {before removed after : Text} :
    (bearerPattern tables).rule.Replaces before removed after ↔
      Presents tables before removed after ∧ ¬Presented tables before := by
  induction length_eq : before.length using Nat.strong_induction_on
    generalizing before removed after with
  | _ length ih =>
  subst length_eq
  constructor
  · intro replaces
    rcases replaces.finds bearer_bare with ⟨found, finds, rfl⟩
    rcases presents_of_find lawful finds with ⟨behind, whole, presents⟩
    cases List.append_cancel_left whole
    refine ⟨presents, fun presented => ?_⟩
    rcases presents.exists_cons with ⟨letter, others, removed_eq, accepted⟩
    have goes_on : (found.removed ++ after).head?.any isPresentable = true := by
      rw [removed_eq]
      exact isPresentable_of_isTokenCharacter accepted
    rcases presented.exists_presents goes_on with
      ⟨front, inside, more, behind, rfl, inside_ne, rest_eq, more_ne, presents_front, unpresented⟩
    have inside_pos := List.length_pos_iff.mpr inside_ne
    have more_pos := List.length_pos_iff.mpr more_ne
    have less : front.length < (front ++ inside).length := by
      rw [List.length_append]
      omega
    have replaces_front := (ih front.length less rfl).mpr ⟨presents_front, unpresented⟩
    have ends := replaces_front.apart replaces (by rw [rest_eq]; simp) less
    simp only [List.length_append] at ends
    omega
  · rintro ⟨presents, unpresented⟩
    rcases exists_find_of_presents lawful presents with ⟨found, finds⟩
    rcases bearer_bare.exists_replaces finds with
      ⟨first, reached, taken, behind, rfl, replaces, whole, long⟩
    by_cases reached_nil : reached = []
    · subst reached_nil
      rw [List.append_nil] at presents ⊢
      rcases replaces.finds bearer_bare with ⟨found', finds', rfl⟩
      rcases presents_of_find lawful finds' with ⟨behind', same, presents'⟩
      cases List.append_cancel_left same
      have taken_eq := presents.unique lawful presents' whole.symm
      subst taken_eq
      cases List.append_cancel_left whole
      exact replaces
    · exfalso
      have reached_pos := List.length_pos_iff.mpr reached_nil
      have less : first.length < (first ++ reached).length := by
        rw [List.length_append]
        omega
      rcases (ih first.length less rfl).mp replaces with ⟨presents_first, unpresented_first⟩
      rcases List.append_eq_append_iff.mp whole with ⟨more, rfl, _⟩ | ⟨more, rfl, rest_eq⟩
      · simp at long
      have more_ne : more ≠ [] := by
        rintro rfl
        simp at long
      have solid : more.head?.any tables.isSpace = false := by
        rcases presents.exists_cons with ⟨letter, others, removed_eq, accepted⟩
        rw [removed_eq] at rest_eq
        cases more with
        | nil => rfl
        | cons character more =>
            rw [(List.cons.inj rest_eq).1] at accepted
            exact isSpace_of_isPresentable lawful (isPresentable_of_isTokenCharacter accepted)
      exact unpresented (presents_first.presented_of_inside lawful unpresented_first reached_nil
        more_ne presents.outer solid)

end Replaced

section Kept

variable {front word behind text : Text}

theorem exists_blank_of_presents {removed : Text}
    (presents : Presents tables front removed behind) :
    ∃ blank ∈ removed, tables.isSpace blank = true := by
  rcases presents.parts with ⟨spelled, blanks, value, rfl, announces, _, _⟩
  rcases List.exists_mem_of_ne_nil blanks announces.blanks_ne with ⟨blank, blank_mem⟩
  exact ⟨blank, by simp [blank_mem], announces.blanks_all blank blank_mem⟩

/-- Nothing is presented in a text without blanks. -/
theorem not_presented_of_solid (solid : ∀ character ∈ text, tables.isSpace character = false) :
    ¬Presented tables text := by
  rw [Presented]
  rintro ⟨front, spelled, blanks, value, rfl, announces, _⟩
  rcases List.exists_mem_of_ne_nil blanks announces.blanks_ne with ⟨blank, blank_mem⟩
  have not_blank := solid blank (by simp [blank_mem])
  rw [announces.blanks_all blank blank_mem] at not_blank
  cases not_blank

/-- A word without blanks is kept, unless it goes on with what is presented before it. -/
theorem keeps_or_taken (lawful : tables.Lawful) (front : Text)
    (solid : ∀ character ∈ word, tables.isSpace character = false) :
    (bearerPattern tables).rule.Keeps front word [] ∨ Taken tables front word := by
  rcases (bearerPattern tables).rule.keeps_or_meets front word [] with keeps |
    ⟨before, removed, after, replaces, same, _, reaches⟩
  · exact .inl keeps
  right
  rcases (bearer_replaces_iff lawful).mp replaces with ⟨⟨⟨spelled, blanks, value, rfl, announces,
    value_ne, value_all⟩, _⟩, unpresented⟩
  have divided : (before ++ (spelled ++ blanks)) ++ (value ++ after) = front ++ word := by
    simpa using same
  rcases List.append_eq_append_iff.mp divided with ⟨begun, rfl, rest_eq⟩ | ⟨inside, front_eq, rfl⟩
  · rcases List.append_eq_append_iff.mp rest_eq with ⟨more, rfl, _⟩ | ⟨more, rfl, rfl⟩
    · simp at reaches
    · cases more with
      | nil => simp at reaches
      | cons character more =>
          refine ⟨?_, value_all character (by simp)⟩
          rw [Presented]
          exact ⟨before, spelled, blanks, begun, by simp, announces, fun character character_mem =>
            value_all character (List.mem_append_left _ character_mem), unpresented⟩
  · rcases List.eq_nil_or_concat inside with rfl | ⟨others, last, rfl⟩
    · cases value with
      | nil => exact absurd rfl value_ne
      | cons character value =>
          refine ⟨?_, value_all character List.mem_cons_self⟩
          rw [Presented]
          refine ⟨before, spelled, blanks, [], ?_, announces, ?_, unpresented⟩
          · simpa using front_eq.symm
          · exact fun character none => absurd none List.not_mem_nil
    · -- The last blank would belong to the word.
      rcases List.eq_nil_or_concat blanks with rfl | ⟨blanks, blank, rfl⟩
      · exact absurd rfl announces.blanks_ne
      have last_eq : blank = last := by
        have ends := congrArg List.getLast? front_eq
        simpa using ends
      have is_blank := announces.blanks_all blank (by simp)
      rw [last_eq, solid last (by simp)] at is_blank
      cases is_blank

/-- What goes on with what is presented is not kept. -/
theorem not_keeps_of_taken (lawful : tables.Lawful) (taken : Taken tables front word) :
    ¬(bearerPattern tables).rule.Keeps front word behind := by
  intro keeps
  have goes_on : (word ++ behind).head?.any isPresentable = true := by
    cases word with
    | nil => cases taken.2
    | cons first others => exact taken.2
  rcases taken.1.exists_presents goes_on with
    ⟨before, inside, more, after, rfl, inside_ne, rest_eq, more_ne, presents, unpresented⟩
  have replaces := (bearer_replaces_iff lawful).mpr ⟨presents, unpresented⟩
  have inside_pos := List.length_pos_iff.mpr inside_ne
  have more_pos := List.length_pos_iff.mpr more_ne
  refine keeps.not_meets replaces (by rw [rest_eq]; simp) ⟨?_, ?_⟩
  · rw [List.length_append]
    omega
  · rw [List.length_append, List.length_append]
    omega

/-- The run ends where it is removed. -/
theorem presented_of_replaces (lawful : tables.Lawful) {removed : Text}
    (replaces : (bearerPattern tables).rule.Replaces front removed behind) :
    Presented tables (front ++ removed) ∧ behind.head?.any isPresentable = false := by
  rcases (bearer_replaces_iff lawful).mp replaces with ⟨⟨⟨spelled, blanks, value, rfl,
    announces, _, value_all⟩, stops⟩, unpresented⟩
  refine ⟨?_, stops⟩
  rw [Presented]
  exact ⟨front, spelled, blanks, value, rfl, announces, value_all, unpresented⟩

/-- Behind a run that has ended no word goes on, and the run is removed. -/
theorem outer_of_presented (lawful : tables.Lawful) {character : Char}
    (presented : Presented tables (front ++ [character]))
    (stops : word.head?.any isPresentable = false)
    (keeps : (bearerPattern tables).rule.Keeps front [character] word) :
    tables.isWord character = false := by
  rw [Presented] at presented
  rcases presented with ⟨before, spelled, blanks, value, whole, announces, value_all, unpresented⟩
  by_cases value_nil : value = []
  · rcases List.eq_nil_or_concat blanks with rfl | ⟨blanks, blank, rfl⟩
    · exact absurd rfl announces.blanks_ne
    have last_eq : character = blank := by
      have ends := congrArg List.getLast? whole
      simpa [value_nil] using ends
    rw [last_eq]
    exact lawful.isWord_space (announces.blanks_all blank (by simp))
  · have presents : Presents tables before (spelled ++ (blanks ++ value)) word :=
      ⟨⟨spelled, blanks, value, rfl, announces, value_nil, value_all⟩, stops⟩
    have replaces := (bearer_replaces_iff lawful).mpr ⟨presents, unpresented⟩
    have lengths := congrArg List.length whole
    have value_pos := List.length_pos_iff.mpr value_nil
    simp only [List.length_append, List.length_singleton] at lengths
    have same : before ++ ((spelled ++ (blanks ++ value)) ++ word) =
        front ++ ([character] ++ word) := by
      rw [← List.append_assoc, ← whole, List.append_assoc]
    refine absurd ⟨?_, ?_⟩ (keeps.not_meets replaces same)
    · rw [List.length_singleton]
      omega
    · simp only [List.length_append]
      omega

/-- The end of what is left before a word that is kept. -/
theorem opens_iff (lawful : tables.Lawful) {earlier : List (Piece Char)}
    (pieces_eq : (bearerPattern tables).rule.pieces (front ++ word) =
      earlier ++ word.map .kept) (front_eq : earlier.flatMap Piece.source = front) :
    (earlier.flatMap Piece.target).reverse.head?.any tables.isWord = false ↔
      Opens tables front word := by
  have not_taken : ¬Taken tables front word := fun taken =>
    not_keeps_of_taken lawful taken ⟨earlier, [], by simpa using pieces_eq, front_eq, rfl⟩
  rcases List.eq_nil_or_concat earlier with rfl | ⟨others, piece, rfl⟩
  · cases front_eq
    have unpresented : ¬Presented tables [] := not_presented_of_solid (by simp)
    simp [Opens, unpresented]
  rw [List.concat_eq_append] at pieces_eq front_eq ⊢
  rw [List.flatMap_append, List.flatMap_singleton] at front_eq ⊢
  cases piece with
  | replaced removed written =>
      have replaced : .replaced removed written ∈
          (bearerPattern tables).rule.pieces (front ++ word) := by
        rw [pieces_eq]
        simp
      rw [List.append_assoc, List.singleton_append] at pieces_eq
      rcases Rule.Replaces.of_pieces pieces_eq with ⟨replaces, _⟩
      rcases presented_of_replaces lawful replaces with ⟨presented, stops⟩
      rw [flatMap_source_kept] at stops
      have opened : Opens tables front word := by
        rw [← front_eq]
        exact .inl ⟨presented, stops⟩
      have outside : tables.isWord ']' = false := by
        rw [lawful.isWord_ascii (by decide)]
        decide
      have written_eq : written = "Bearer [REDACTED".toList ++ [']'] :=
        Pattern.written_of_mem_pieces replaced
      rw [written_eq]
      refine ⟨fun _ => opened, fun _ => ?_⟩
      rw [Piece.target, ← List.append_assoc, List.reverse_append]
      exact outside
  | kept character =>
      have last_eq : (others.flatMap Piece.target ++ (Piece.kept character).target).reverse.head?.any
          tables.isWord = tables.isWord character := by
        simp [Piece.target]
      have keeps : (bearerPattern tables).rule.Keeps (others.flatMap Piece.source) [character]
          word := by
        refine ⟨others, word.map .kept, ?_, rfl, flatMap_source_kept word⟩
        rw [← List.append_assoc, show [character] = (Piece.kept character).source from rfl, front_eq,
          pieces_eq]
        rfl
      rw [last_eq, ← front_eq]
      constructor
      · intro outside
        by_cases presented : Presented tables (others.flatMap Piece.source ++ [character])
        · refine .inl ⟨presented, Bool.eq_false_iff.mpr fun goes_on => not_taken ⟨?_, goes_on⟩⟩
          rw [← front_eq]
          exact presented
        · refine .inr ⟨presented, ?_⟩
          simpa [Piece.source] using outside
      · rintro (⟨presented, stops⟩ | ⟨_, outside⟩)
        · exact outer_of_presented lawful presented stops keeps
        · simpa [Piece.source] using outside

end Kept

section Spelled

variable {front body word text rest : Text}

/-- What is announced behind a text without blanks is removed. -/
theorem AnnouncesAt.exists_replaces (lawful : tables.Lawful)
    (announced : AnnouncesAt tables body rest)
    (solid : ∀ character ∈ body, tables.isSpace character = false) :
    ∃ removed after, rest = removed ++ after ∧
      (bearerPattern tables).rule.Replaces body removed after := by
  rcases announced with ⟨spelled, blanks, value, rfl, announces, goes_on⟩
  have presented : Presented tables (body ++ (spelled ++ (blanks ++ []))) := by
    rw [Presented]
    exact ⟨body, spelled, blanks, [], rfl, announces, fun _ none => absurd none List.not_mem_nil,
      not_presented_of_solid solid⟩
  have run_ne : value.takeWhile isPresentable ≠ [] := by
    cases value with
    | nil => cases goes_on
    | cons first others =>
        have accepted : isPresentable first = true := goes_on
        rw [List.takeWhile_cons_of_pos accepted]
        exact List.cons_ne_nil _ _
  refine ⟨spelled ++ (blanks ++ value.takeWhile isPresentable), value.dropWhile isPresentable,
    by simp, (bearer_replaces_iff lawful).mpr ⟨⟨⟨spelled, blanks, _, rfl, announces, run_ne,
      fun _ => List.mem_takeWhile_imp⟩, ?_⟩, not_presented_of_solid solid⟩⟩
  have refused := List.head?_dropWhile_not isPresentable value
  cases dropped : (value.dropWhile isPresentable).head? with
  | none => rfl
  | some first =>
      rw [dropped] at refused
      exact refused

/-- What is removed has been announced. -/
theorem announcesAt_of_replaces (lawful : tables.Lawful) {removed after : Text}
    (replaces : (bearerPattern tables).rule.Replaces front removed after) :
    AnnouncesAt tables front (removed ++ after) := by
  rcases (bearer_replaces_iff lawful).mp replaces with
    ⟨⟨⟨spelled, blanks, value, rfl, announces, value_ne, value_all⟩, _⟩, _⟩
  refine ⟨spelled, blanks, value ++ after, by simp, announces, ?_⟩
  cases value with
  | nil => exact absurd rfl value_ne
  | cons first others => exact value_all first List.mem_cons_self

/-- What stands before a stretch and has no blanks has been kept. -/
theorem pieces_of_replaces (lawful : tables.Lawful) {removed after : Text}
    (replaces : (bearerPattern tables).rule.Replaces body removed after)
    (solid : ∀ character ∈ body, tables.isSpace character = false) :
    ∃ later, (bearerPattern tables).rule.sub (body ++ (removed ++ after)) =
      (body ++ "Bearer".toList) ++ ' ' :: (redactedMark ++ later) := by
  rcases replaces with ⟨earlier, written, later, pieces_eq, rfl⟩
  have replaced : .replaced removed written ∈
      (bearerPattern tables).rule.pieces (earlier.flatMap Piece.source ++ (removed ++ after)) := by
    rw [pieces_eq]
    simp
  have kept : earlier = (earlier.flatMap Piece.source).map .kept := by
    refine eq_map_kept fun removed' written' replaced' => ?_
    rcases List.append_of_mem replaced' with ⟨left, right, rfl⟩
    rw [List.append_assoc, List.cons_append] at pieces_eq
    rcases Rule.Replaces.of_pieces pieces_eq with ⟨replaces', _⟩
    rcases exists_blank_of_presents ((bearer_replaces_iff lawful).mp replaces').1 with
      ⟨blank, blank_mem, is_blank⟩
    rw [solid blank (by simp [Piece.source, blank_mem])] at is_blank
    cases is_blank
  refine ⟨later.flatMap Piece.target, ?_⟩
  have written_eq : written = "Bearer ".toList ++ redactedMark :=
    Pattern.written_of_mem_pieces replaced
  rw [Rule.sub, pieces_eq, List.flatMap_append, List.flatMap_cons, kept, flatMap_target_kept,
    flatMap_source_kept, written_eq]
  simp [Piece.target]

/-- What the first expression leaves at the beginning of a text, before the first blank. -/
theorem prefix_sub_iff (lawful : tables.Lawful)
    (solid : ∀ character ∈ word, tables.isSpace character = false) :
    word <+: (bearerPattern tables).rule.sub text ↔
      ∃ other behind, text = other ++ behind ∧ Spells tables word other behind := by
  have untouched : ∀ kept rest : Text, text = kept ++ rest →
      (∃ earlier later, (bearerPattern tables).rule.pieces text = earlier ++ later ∧
        earlier = kept.map .kept) → word <+: kept → ∃ other behind, text = other ++ behind ∧
          Spells tables word other behind := by
    rintro kept rest rfl ⟨_, later, pieces_eq, rfl⟩ ⟨ahead, rfl⟩
    refine ⟨word, ahead ++ rest, by simp, .inl ⟨rfl, ?_⟩⟩
    rintro body part rfl part_ne announced
    rcases announced.exists_replaces lawful fun character character_mem =>
      solid character (List.mem_append_left _ character_mem) with ⟨removed, after, rest_eq, replaces⟩
    have keeps : (bearerPattern tables).rule.Keeps [] ((body ++ part) ++ ahead) rest := by
      refine ⟨[], later, ?_, rfl, ?_⟩
      · simpa using pieces_eq
      · have source_eq := (bearerPattern tables).rule.flatMap_source_pieces
          (((body ++ part) ++ ahead) ++ rest)
        rw [pieces_eq, List.flatMap_append, flatMap_source_kept] at source_eq
        exact List.append_cancel_left source_eq
    have part_pos := List.length_pos_iff.mpr part_ne
    have removed_pos := List.length_pos_iff.mpr replaces.removed_ne_nil
    refine keeps.not_meets replaces ?_ ⟨?_, ?_⟩
    · rw [← rest_eq]
      simp
    · simp only [List.length_append, List.length_nil]
      omega
    · rw [List.length_nil]
      omega
  constructor
  · intro begins
    have source_eq := (bearerPattern tables).rule.flatMap_source_pieces text
    rw [Rule.sub] at begins
    rcases kept_or_first_replaced ((bearerPattern tables).rule.pieces text) with
      ⟨rest, pieces_eq⟩ | ⟨rest, removed, written, later, pieces_eq⟩
    · rw [pieces_eq, flatMap_target_kept] at begins
      rw [pieces_eq, flatMap_source_kept] at source_eq
      exact untouched rest [] (by rw [List.append_nil, source_eq])
        ⟨_, [], by rw [List.append_nil, pieces_eq], rfl⟩ begins
    · rcases Rule.Replaces.of_pieces pieces_eq with ⟨replaces, whole⟩
      rw [flatMap_source_kept] at replaces whole
      have replaced : .replaced removed written ∈ (bearerPattern tables).rule.pieces text := by
        rw [pieces_eq]
        simp
      have target_eq : ((bearerPattern tables).rule.pieces text).flatMap Piece.target =
          (rest ++ "Bearer".toList) ++ ' ' :: (redactedMark ++ later.flatMap Piece.target) := by
        rw [pieces_eq, List.flatMap_append, flatMap_target_kept, List.flatMap_cons, Piece.target,
          show written = _ from Pattern.written_of_mem_pieces replaced]
        simp [bearerPattern]
      have space_absent : ' ' ∉ word := fun space_mem => by
        have not_blank := solid ' ' space_mem
        rw [lawful.isSpace_space] at not_blank
        cases not_blank
      rw [target_eq] at begins
      have kept := untouched rest (removed ++ later.flatMap Piece.source) whole.symm
        ⟨_, _, pieces_eq, rfl⟩
      rcases prefix_or_append_of_prefix (prefix_of_append_cons space_absent begins) with
        begins | ⟨now, rfl, now_begins⟩
      · exact kept begins
      by_cases now_nil : now = []
      · refine kept ?_
        rw [now_nil, List.append_nil]
      -- What the heading has been is as long as what the word has of it now.
      have announced := announcesAt_of_replaces lawful replaces
      have now_length := now_begins.length_le
      have long : now.length ≤ (removed ++ later.flatMap Piece.source).length := by
        rcases announced with ⟨spelled, blanks, value, rest_eq, announces, _⟩
        rw [rest_eq, List.length_append, announces.length_spelled]
        exact now_length.trans (Nat.le_add_right 6 _)
      generalize removed ++ later.flatMap Piece.source = further at whole announced long
      have part_length : (further.take now.length).length = now.length := by
        rw [List.length_take, Nat.min_eq_left long]
      refine ⟨rest ++ further.take now.length, further.drop now.length, ?_, .inr
        ⟨rest, further.take now.length, rfl, ?_, part_length.trans_le now_length, ?_, ?_⟩⟩
      · rw [List.append_assoc, List.take_append_drop, whole]
      · exact fun nothing => now_nil (List.length_eq_zero_iff.mp (by
          simpa [nothing] using part_length.symm))
      · rwa [List.take_append_drop]
      · rw [part_length, ← List.prefix_iff_eq_take.mp now_begins]
  · rintro ⟨other, behind, rfl, ⟨rfl, unannounced⟩ | ⟨body, part, rfl, _, _, announced, rfl⟩⟩
    · have source_eq := (bearerPattern tables).rule.flatMap_source_pieces (other ++ behind)
      rw [Rule.sub]
      rcases kept_or_first_replaced ((bearerPattern tables).rule.pieces (other ++ behind)) with
        ⟨rest, pieces_eq⟩ | ⟨rest, removed, written, later, pieces_eq⟩
      · rw [pieces_eq, flatMap_source_kept] at source_eq
        rw [pieces_eq, flatMap_target_kept, source_eq]
        exact List.prefix_append other behind
      · rcases Rule.Replaces.of_pieces pieces_eq with ⟨replaces, whole⟩
        rw [flatMap_source_kept] at replaces whole
        rw [pieces_eq, List.flatMap_append, flatMap_target_kept]
        rcases List.append_eq_append_iff.mp whole with ⟨part, rfl, rest_eq⟩ | ⟨more, rfl, _⟩
        · by_cases part_nil : part = []
          · rw [part_nil, List.append_nil]
            exact List.prefix_append rest _
          · have announced := announcesAt_of_replaces lawful replaces
            rw [rest_eq] at announced
            exact absurd announced (unannounced rest part rfl part_nil)
        · rw [List.append_assoc]
          exact List.prefix_append other _
    · have body_solid : ∀ character ∈ body, tables.isSpace character = false :=
        fun character character_mem => solid character (List.mem_append_left _ character_mem)
      rcases announced.exists_replaces lawful body_solid with ⟨removed, after, rest_eq, replaces⟩
      rcases pieces_of_replaces lawful replaces body_solid with ⟨later, sub_eq⟩
      rw [List.append_assoc, rest_eq, sub_eq]
      refine List.IsPrefix.trans ?_ (List.prefix_append _ _)
      exact (List.prefix_append_right_inj body).mpr (List.take_prefix _ _)

end Spelled

end CopyMint
