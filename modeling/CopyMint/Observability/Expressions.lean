import CopyMint.Library.RegexMatching
import CopyMint.Observability.Redaction
import Mathlib.Data.Char

/-!
# What the redaction expressions find

The tables of characters are those of Unicode, of which a few facts are needed: how ASCII
is classified, that blanks belong to no word, and that decimals do. Each of the first two
expressions is described by the shape of what it removes.
-/

namespace CopyMint

open Hexadecimal Substitution Regex

/-- What the tables say of ASCII, and of blanks, letters and decimals beyond it. -/
structure CharacterTables.Lawful (tables : CharacterTables) : Prop where
  isAlnum_ascii : ∀ character, character.toNat < 128 →
    tables.isAlnum character = character.isAlphanum
  isDecimal_ascii : ∀ character, character.toNat < 128 →
    tables.isDecimal character = character.isDigit
  isSpace_graphic : ∀ character, 32 < character.toNat → character.toNat < 127 →
    tables.isSpace character = false
  isSpace_space : tables.isSpace ' ' = true
  /-- The four characters that are a letter of ASCII in another case are no blanks. -/
  isSpace_cased : ∀ character ∈ ['\u0130', '\u0131', '\u017f', '\u212a'],
    tables.isSpace character = false
  isAlnum_space : ∀ character, tables.isSpace character = true →
    tables.isAlnum character = false
  isAlnum_decimal : ∀ character, tables.isDecimal character = true →
    tables.isAlnum character = true

variable {tables : CharacterTables}

section Characters

/-- A check made along a list of characters. -/
theorem forall_mem_of_all {property : Char → Prop} [DecidablePred property] {text : Text}
    (checked : text.all (fun character => decide (property character)) = true) :
    ∀ character ∈ text, property character := by
  intro character character_mem
  exact of_decide_eq_true (List.all_eq_true.mp checked character character_mem)

theorem of_ascii {property : Char → Prop} (table : ∀ code < 128, property (Char.ofNat code))
    {character : Char} (small : character.toNat < 128) : property character := by
  have found := table character.toNat small
  rwa [Char.ofNat_toNat] at found

/-- A character is its own lower case, or a letter of ASCII. -/
theorem toLower_eq_or (character : Char) :
    character.toLower = character ∨
      character.isAlphanum = true ∧ character.toLower.isAlphanum = true ∧
        character.toNat < 128 ∧ character.toLower.toNat < 128 := by
  by_cases upper : 'A' ≤ character ∧ character ≤ 'Z'
  · have small : character.toNat < 128 := lt_of_le_of_lt upper.2 (by decide)
    exact @of_ascii (fun character => character.toLower = character ∨
      character.isAlphanum = true ∧ character.toLower.isAlphanum = true ∧
        character.toNat < 128 ∧ character.toLower.toNat < 128) (by decide +kernel) _ small
  · exact .inl (dif_neg upper)

theorem isTokenCharacter_graphic {character : Char} (accepted : isTokenCharacter character = true) :
    32 < character.toNat ∧ character.toNat < 127 := by
  have small : character.toNat < 128 := by
    rw [isTokenCharacter, Bool.or_eq_true, Bool.or_eq_true, decide_eq_true_eq,
      decide_eq_true_eq] at accepted
    rcases accepted with (alnum | rfl) | rfl
    · rcases Bool.or_eq_true_iff.mp alnum with alpha | digit
      · rcases Bool.or_eq_true_iff.mp alpha with upper | lower
        · exact Nat.lt_of_le_of_lt (of_decide_eq_true upper).2 (by decide)
        · exact Nat.lt_of_le_of_lt (of_decide_eq_true (Bool.and_eq_true_iff.mp lower).2) (by decide)
      · exact Nat.lt_of_le_of_lt (of_decide_eq_true (Bool.and_eq_true_iff.mp digit).2) (by decide)
    · decide
    · decide
  exact @of_ascii (fun character => isTokenCharacter character = true →
    32 < character.toNat ∧ character.toNat < 127) (by decide +kernel) _ small accepted

theorem isTokenCharacter_toLower (character : Char) :
    isTokenCharacter character.toLower = isTokenCharacter character := by
  rcases toLower_eq_or character with same | ⟨alnum, lower_alnum, _, _⟩
  · rw [same]
  · simp only [isTokenCharacter, alnum, lower_alnum, Bool.true_or]

namespace CharacterTables.Lawful

variable (lawful : tables.Lawful)

include lawful

theorem isWord_ascii {character : Char} (small : character.toNat < 128) :
    tables.isWord character = (character.isAlphanum || character = '_') := by
  rw [isWord, lawful.isAlnum_ascii character small]

theorem isWord_space {character : Char} (blank : tables.isSpace character = true) :
    tables.isWord character = false := by
  have underscore : character ≠ '_' := by
    rintro rfl
    rw [lawful.isSpace_graphic '_' (by decide) (by decide)] at blank
    cases blank
  rw [isWord, lawful.isAlnum_space character blank, decide_eq_false underscore, Bool.or_false]

theorem isWord_decimal {character : Char} (decimal : tables.isDecimal character = true) :
    tables.isWord character = true := by
  rw [isWord, lawful.isAlnum_decimal character decimal, Bool.true_or]

theorem isTokenCharacter_space {character : Char} (blank : tables.isSpace character = true) :
    isTokenCharacter character = false := by
  cases accepted : isTokenCharacter character with
  | false => rfl
  | true =>
      have graphic := isTokenCharacter_graphic accepted
      rw [lawful.isSpace_graphic character graphic.1 graphic.2] at blank
      cases blank

theorem isWord_toLower (character : Char) :
    tables.isWord character.toLower = tables.isWord character := by
  rcases toLower_eq_or character with same | ⟨alnum, lower_alnum, small, lower_small⟩
  · rw [same]
  · rw [lawful.isWord_ascii small, lawful.isWord_ascii lower_small, alnum, lower_alnum,
      Bool.true_or, Bool.true_or]

end CharacterTables.Lawful

end Characters

section Letters

/-- A letter that is the lower case of no other character than its two cases. -/
theorem toLower_of_sameLetter {letter character : Char}
    (plain : unicodeTolower letter ≠ 'k' ∧ unicodeTolower letter ≠ 'i' ∧
      extraCases (unicodeTolower letter) = [])
    (same : sameLetter letter character = true) :
    character.toLower = unicodeTolower letter := by
  rw [sameLetter, plain.2.2, Bool.or_eq_true, decide_eq_true_eq, decide_eq_true_eq] at same
  rcases same with same | impossible
  · rw [unicodeTolower] at same
    split_ifs at same
    · exact absurd same.symm plain.1
    · exact absurd same.symm plain.2.1
    · exact same
  · cases impossible

theorem map_toLower_of_sameLetter {letters taken : Text}
    (plain : ∀ letter ∈ letters, unicodeTolower letter ≠ 'k' ∧ unicodeTolower letter ≠ 'i' ∧
      extraCases (unicodeTolower letter) = [])
    (same : List.Forall₂ (fun letter character => sameLetter letter character = true) letters
      taken) :
    taken.map Char.toLower = letters.map unicodeTolower := by
  induction same with
  | nil => rfl
  | cons first _ ih =>
      rcases List.forall_mem_cons.mp plain with ⟨plain_first, plain_others⟩
      rw [List.map_cons, List.map_cons, toLower_of_sameLetter plain_first first, ih plain_others]

theorem mem_takings_ignoringCase {text : String} {before rest taken remaining : Text} :
    (taken, remaining) ∈ (ignoringCase text).takings before rest ↔
      taken ++ remaining = rest ∧
        List.Forall₂ (fun letter character => sameLetter letter character = true) text.toList
          taken := by
  rw [ignoringCase]
  generalize text.toList = letters
  induction letters generalizing before rest taken with
  | nil =>
      rw [List.map_nil, concat_nil, mem_takings_empty, List.forall₂_nil_left_iff]
      constructor
      · rintro ⟨rfl, rfl⟩
        exact ⟨rfl, rfl⟩
      · rintro ⟨rfl, rfl⟩
        exact ⟨rfl, rfl⟩
  | cons letter letters ih =>
      rw [List.map_cons, concat_cons, mem_takings_seq, List.forall₂_cons_left_iff]
      constructor
      · rintro ⟨front, middle, more, rfl, first_mem, more_mem⟩
        rcases mem_takings_one.mp first_mem with ⟨character, same, rfl, rfl⟩
        rcases ih.mp more_mem with ⟨rfl, others⟩
        exact ⟨rfl, character, more, same, others, rfl⟩
      · rintro ⟨rfl, character, more, same, others, rfl⟩
        exact ⟨[character], more ++ remaining, more, rfl,
          mem_takings_one.mpr ⟨character, same, rfl, rfl⟩, ih.mpr ⟨rfl, others⟩⟩

theorem shuns_ignoringCase {text : String} {separator : Char}
    (refused : ∀ letter ∈ text.toList, sameLetter letter separator = false) :
    (ignoringCase text).Shuns separator := by
  refine shuns_concat.mpr ?_
  intro regex regex_mem
  rcases List.mem_map.mp regex_mem with ⟨letter, letter_mem, rfl⟩
  exact refused letter letter_mem

end Letters

section Bearer

/-- What is removed of a credential that a bearer presents, and what is written instead. -/
def IsBearerPiece (tables : CharacterTables) (removed written : Text) : Prop :=
  written = "Bearer ".toList ++ redactedMark ∧
    ∃ spelled blank more, removed = spelled ++ blank :: more ∧
      spelled.map Char.toLower = "Bearer".toList.map Char.toLower ∧ tables.isSpace blank = true

theorem isBearerPiece_of_find {before rest : Text} {found : Found Char}
    (finds : (bearerPattern tables).rule.find before rest = some found) :
    IsBearerPiece tables found.removed found.written := by
  rcases (Pattern.mem_occurrences _).mp (Pattern.mem_occurrences_of_find finds) with
    ⟨written_eq, behindOpening, behindRemoved, _, _, removed_mem, _⟩
  refine ⟨written_eq, ?_⟩
  rcases mem_takings_seq.mp removed_mem with ⟨_, _, others, removed_eq, boundary_mem, others_mem⟩
  rcases mem_takings_boundary.mp boundary_mem with ⟨_, rfl, rfl⟩
  rcases mem_takings_seq.mp others_mem with ⟨spelled, _, values, rfl, spelled_mem, values_mem⟩
  rcases mem_takings_seq.mp values_mem with ⟨blanks, _, more, rfl, blanks_mem, _⟩
  have blanks_spec := mem_takings_many.mp blanks_mem
  cases blanks with
  | nil => exact absurd blanks_spec.2.2.1 (Nat.not_succ_le_zero 0)
  | cons blank blanks =>
      refine ⟨spelled, blank, blanks ++ more, removed_eq, ?_,
        blanks_spec.2.1 blank List.mem_cons_self⟩
      exact map_toLower_of_sameLetter (forall_mem_of_all (by decide))
        (mem_takings_ignoringCase.mp spelled_mem).2

theorem bearer_separatedBy (lawful : tables.Lawful) {separator : Char}
    (separator_mem : separator ∈ [':', '@']) :
    (bearerPattern tables).rule.SeparatedBy separator := by
  have kinds : ∀ mark ∈ [':', '@'], (32 < mark.toNat ∧ mark.toNat < 127) ∧
      (mark.isAlphanum || mark = '_') = false ∧
        "Bearer".toList.all (fun letter => !sameLetter letter mark) = true ∧
          sameClass isBearerCharacter mark = false :=
    forall_mem_of_all (by decide)
  rcases kinds separator separator_mem with ⟨graphic, plain, letters, class_eq⟩
  simp only [List.all_eq_true, Bool.not_eq_true'] at letters
  have outside : tables.isWord separator = false := by
    rw [lawful.isWord_ascii (Nat.lt_succ_of_lt graphic.2), plain]
  refine Pattern.separatedBy trivial (shuns_concat.mpr ?_) trivial
  simp only [List.forall_mem_cons]
  exact ⟨outside, shuns_ignoringCase letters,
    lawful.isSpace_graphic separator graphic.1 graphic.2, class_eq,
    fun _ none => absurd none List.not_mem_nil⟩

/-- Nothing is found in a text without blanks. -/
theorem bearer_sub_eq_self {text : Text}
    (solid : ∀ character ∈ text, tables.isSpace character = false) :
    (bearerPattern tables).rule.sub text = text := by
  refine Rule.sub_eq_self fun before rest whole => ?_
  cases finds : (bearerPattern tables).rule.find before.reverse rest with
  | none => rfl
  | some found =>
      rcases isBearerPiece_of_find finds with ⟨_, spelled, blank, more, removed_eq, _, is_blank⟩
      have blank_mem : blank ∈ found.source := by
        simp [Found.source, removed_eq]
      have rest_mem := ((bearerPattern tables).rule.found_prefix finds).subset blank_mem
      rw [solid blank (whole ▸ List.mem_append_right before rest_mem)] at is_blank
      cases is_blank

end Bearer

section BotTokens

/-- The digits of a bot token. -/
def IsTokenNumber (tables : CharacterTables) (digits : Text) : Prop :=
  6 ≤ digits.length ∧ digits.length ≤ 12 ∧ ∀ digit ∈ digits, tables.isDecimal digit = true

/-- The part of a bot token behind its colon. -/
def IsTokenSecret (secret : Text) : Prop :=
  30 ≤ secret.length ∧ ∀ character ∈ secret, isTokenCharacter character = true

theorem mem_occurrences_token {before rest : Text} {found : Found Char} :
    found ∈ (telegramTokenPattern tables).occurrences before rest ↔
      found.opening = [] ∧ found.closing = [] ∧ found.written = redactedMark ∧
        ∃ digits secret behind, found.removed = digits ++ ':' :: secret ∧
          rest = digits ++ ':' :: (secret ++ behind) ∧
            IsTokenNumber tables digits ∧ IsTokenSecret secret ∧
              AtBoundary tables.isWord before rest ∧
                AtBoundary tables.isWord (secret.reverse ++ ':' :: (digits.reverse ++ before))
                  behind := by
  rw [Pattern.mem_occurrences]
  constructor
  · rintro ⟨written_eq, behindOpening, behindRemoved, _, opening_mem, removed_mem, closing_mem⟩
    rcases mem_takings_empty.mp opening_mem with ⟨opening_eq, rfl⟩
    rcases mem_takings_empty.mp closing_mem with ⟨closing_eq, _⟩
    rw [opening_eq, List.reverse_nil, List.nil_append] at removed_mem
    rcases mem_takings_seq.mp removed_mem with ⟨_, _, token, removed_eq, boundary_mem, token_mem⟩
    rcases mem_takings_boundary.mp boundary_mem with ⟨starts, rfl, rfl⟩
    rcases mem_takings_seq.mp token_mem with ⟨digits, _, named, rfl, digits_mem, named_mem⟩
    rcases mem_takings_seq.mp named_mem with ⟨_, _, more, rfl, colon_mem, more_mem⟩
    rcases mem_takings_one.mp colon_mem with ⟨colon, is_colon, rfl, rfl⟩
    rcases mem_takings_seq.mp more_mem with ⟨secret, _, ending, rfl, secret_mem, ending_mem⟩
    rcases mem_takings_seq.mp ending_mem with ⟨_, _, _, rfl, last_mem, empty_mem⟩
    rcases mem_takings_boundary.mp last_mem with ⟨ends, rfl, rfl⟩
    rcases mem_takings_empty.mp empty_mem with ⟨rfl, rfl⟩
    rcases mem_takings_many.mp digits_mem with ⟨rest_eq, digits_all, digits_least, digits_most⟩
    rcases mem_takings_many.mp secret_mem with ⟨rfl, secret_all, secret_least, _⟩
    cases of_decide_eq_true is_colon
    refine ⟨opening_eq, closing_eq, written_eq, digits, secret, behindRemoved, ?_, ?_,
      ⟨digits_least, digits_most 12 rfl, digits_all⟩, ⟨secret_least, secret_all⟩, starts, ?_⟩
    · simpa using removed_eq
    · exact rest_eq.symm
    · simpa using ends
  · rintro ⟨opening_eq, closing_eq, written_eq, digits, secret, behind, removed_eq, rfl, number,
      secret_spec, starts, ends⟩
    refine ⟨written_eq, _, behind, behind, mem_takings_empty.mpr ⟨opening_eq, rfl⟩, ?_,
      mem_takings_empty.mpr ⟨closing_eq, rfl⟩⟩
    rw [opening_eq, removed_eq, List.reverse_nil, List.nil_append]
    refine mem_takings_seq.mpr ⟨[], _, digits ++ ':' :: secret, rfl,
      mem_takings_boundary.mpr ⟨starts, rfl, rfl⟩, ?_⟩
    refine mem_takings_seq.mpr ⟨digits, ':' :: (secret ++ behind), ':' :: secret, rfl,
      mem_takings_many.mpr ⟨rfl, number.2.2, number.1, ?_⟩, ?_⟩
    · intro limit limit_mem
      cases limit_mem
      exact number.2.1
    refine mem_takings_seq.mpr ⟨[':'], secret ++ behind, secret, rfl,
      mem_takings_one.mpr ⟨':', rfl, rfl, rfl⟩, ?_⟩
    refine mem_takings_seq.mpr ⟨secret, behind, [], (List.append_nil secret).symm,
      mem_takings_run.mpr ⟨rfl, secret_spec.2, secret_spec.1⟩, ?_⟩
    refine mem_takings_seq.mpr ⟨[], behind, [], rfl,
      mem_takings_boundary.mpr ⟨?_, rfl, rfl⟩, mem_takings_empty.mpr ⟨rfl, rfl⟩⟩
    simpa using ends

theorem token_separatedBy (lawful : tables.Lawful) {separator : Char}
    (separator_mem : separator ∈ ['/', '@']) :
    (telegramTokenPattern tables).rule.SeparatedBy separator := by
  have kinds : ∀ mark ∈ ['/', '@'], mark.toNat < 128 ∧ (mark.isAlphanum || mark = '_') = false ∧
      mark.isDigit = false ∧ decide (mark = ':') = false ∧ isTokenCharacter mark = false :=
    forall_mem_of_all (by decide)
  rcases kinds separator separator_mem with ⟨small, plain, digit, colon, token⟩
  have outside : tables.isWord separator = false := by
    rw [lawful.isWord_ascii small, plain]
  refine Pattern.separatedBy trivial (shuns_concat.mpr ?_) trivial
  simp only [List.forall_mem_cons]
  exact ⟨outside, (lawful.isDecimal_ascii separator small).trans digit, colon, token, outside,
    fun _ none => absurd none List.not_mem_nil⟩

end BotTokens

end CopyMint
