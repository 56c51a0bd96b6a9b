import CopyMint.Observability.BotTokens

/-!
# What stands beside the marks

A word that stands in no part of a text may still come about where a mark is written: with
an end of the mark and what is behind it, or with a beginning of the mark and what is in
front of it. One character beside each mark tells whether the word goes on there, and this
character is told by the text before the expressions.
-/

namespace CopyMint

open Hexadecimal Substitution Regex

variable {tables : CharacterTables}

section Definitions

variable (tables)

/-- The first expression completes the word, or leaves something that goes on with it. -/
def JoinsBearer (word text : Text) : Prop :=
  ∃ front removed behind, text = front ++ (removed ++ behind) ∧
    Presents tables front removed behind ∧ ¬Presented tables front ∧
      (word <:+: front ++ "Bearer".toList ∨ ∃ next ∈ behind.head?, Follows redactedMark word next)

/-- A token that the second expression removes is beside something that goes on with the word. -/
def JoinsToken (word text : Text) : Prop :=
  ∃ front digits secret behind, text = (front ++ digits) ++ ':' :: (secret ++ behind) ∧
    IsTokenNumber tables digits ∧ Opens tables front digits ∧ TakesSecret tables secret behind ∧
      ¬RunsInto (StartsToken tables (Opens tables)) (front ++ digits) ∧
        ((∃ last ∈ front.getLast?, Precedes redactedMark word last) ∨
          Presented tables front ∧ Precedes redactedMark word ']' ∨
            ∃ next ∈ behind.head?, Follows redactedMark word next ∨
              tables.isDecimal next = true ∧ Follows redactedMark word '[')

/-- A sign that is left beside the value of a name or a label goes on with the word. -/
def JoinsValue (word : Text) : Prop :=
  Precedes redactedMark word '=' ∨ ∃ sign ∈ ['&', ',', ';'], Follows redactedMark word sign

end Definitions

variable {word text : Text}

theorem mem_of_precedes {mark : Text} {element : Char} (precedes : Precedes mark word element) :
    element ∈ word := by
  rcases precedes with ⟨front, beginning, rfl, _⟩
  exact List.mem_append_right _ List.mem_cons_self

theorem mem_of_follows {mark : Text} {element : Char} (follows : Follows mark word element) :
    element ∈ word := by
  rcases follows with ⟨ending, rest, rfl, _⟩
  exact List.mem_append_right _ List.mem_cons_self

theorem not_joinsValue_of_absent (absent : ∀ sign ∈ ['=', '&', ',', ';'], sign ∉ word) :
    ¬JoinsValue word := by
  rintro (precedes | ⟨sign, sign_mem, follows⟩)
  · exact absent '=' (by decide) (mem_of_precedes precedes)
  · exact absent sign (List.mem_cons_of_mem _ sign_mem) (mem_of_follows follows)

section Earlier

variable (lawful : tables.Lawful) (not_mark : ¬word <:+: redactedMark)

include lawful not_mark

/-- A word that the first expression leaves was there. -/
theorem infix_of_infix_bearer (solid : ' ' ∉ word) (apart : ¬JoinsBearer tables word text)
    (occurs : word <:+: (bearerPattern tables).rule.sub text) : word <:+: text := by
  have written_eq : ∀ removed written,
      .replaced removed written ∈ (bearerPattern tables).rule.pieces text →
        written = "Bearer ".toList ++ redactedMark :=
    fun _ _ replaced => Pattern.written_of_mem_pieces replaced
  have joins : ∀ earlier removed written later,
      (bearerPattern tables).rule.pieces text = earlier ++ .replaced removed written :: later →
        ¬(word <:+: earlier.flatMap Piece.source ++ "Bearer".toList ∨
          ∃ next ∈ (later.flatMap Piece.source).head?, Follows redactedMark word next) := by
    intro earlier removed written later pieces_eq joined
    rcases Rule.Replaces.of_pieces pieces_eq with ⟨replaces, whole⟩
    rcases (bearer_replaces_iff lawful).mp replaces with ⟨presents, unpresented⟩
    exact apart ⟨_, removed, _, whole.symm, presents, unpresented, joined⟩
  have beside : ∀ earlier removed written later,
      (bearerPattern tables).rule.pieces text = earlier ++ .replaced removed written :: later →
        (∀ last ∈ (earlier.flatMap Piece.source ++ "Bearer ".toList).getLast?,
          ¬Precedes redactedMark word last) ∧
          ∀ next ∈ (later.flatMap Piece.target).head?, ¬Follows redactedMark word next := by
    intro earlier removed written later pieces_eq
    constructor
    · intro last last_mem precedes
      rw [show "Bearer ".toList = "Bearer".toList ++ [' '] from rfl, ← List.append_assoc,
        List.getLast?_concat] at last_mem
      cases last_mem
      exact solid (mem_of_precedes precedes)
    · intro next next_mem follows
      refine joins _ _ _ _ pieces_eq (.inr ⟨next, ?_, follows⟩)
      cases later with
      | nil => cases next_mem
      | cons piece others =>
          cases piece with
          | kept element => exact next_mem
          | replaced other written' =>
              -- What is announced next would belong to the value before it.
              exfalso
              rcases Rule.Replaces.of_pieces pieces_eq with ⟨replaces, _⟩
              have stops := (presented_of_replaces lawful replaces).2
              have split : (bearerPattern tables).rule.pieces text =
                  (earlier ++ [.replaced removed written]) ++
                    .replaced other written' :: others := by
                rw [pieces_eq]
                simp
              have presents :=
                ((bearer_replaces_iff lawful).mp (Rule.Replaces.of_pieces split).1).1
              rcases presents.exists_cons with ⟨first, more, rfl, accepted⟩
              rw [List.flatMap_cons, Piece.source, List.cons_append, List.head?_cons,
                Option.any_some, isPresentable_of_isTokenCharacter accepted] at stops
              cases stops
  rcases infix_source_or_heading not_mark written_eq beside occurs with
    stood | ⟨earlier, removed, written, later, pieces_eq, completed⟩
  · rwa [Rule.flatMap_source_pieces] at stood
  · refine absurd (.inl ?_) (joins _ _ _ _ pieces_eq)
    have headed : word <:+: (earlier.flatMap Piece.source ++ "Bearer".toList) ++ ' ' :: [] := by
      simpa using completed
    rcases infix_of_append_cons solid headed with before | nothing
    · exact before
    · exact nothing.trans List.nil_infix

/-- A word that the second expression leaves was there behind the first one. -/
theorem infix_of_infix_token (solid : ∀ character ∈ word, tables.isSpace character = false)
    (apart : ¬JoinsToken tables word text) (occurs : word <:+:
      (telegramTokenPattern tables).rule.sub ((bearerPattern tables).rule.sub text)) :
    word <:+: (bearerPattern tables).rule.sub text := by
  have separated := bearer_separatedBy lawful (show ':' ∈ [':', '@'] by decide)
  have written_eq : ∀ removed written, .replaced removed written ∈
      (telegramTokenPattern tables).rule.pieces ((bearerPattern tables).rule.sub text) →
        written = [] ++ redactedMark :=
    fun _ _ replaced => Pattern.written_of_mem_pieces replaced
  have beside : ∀ earlier removed written later,
      (telegramTokenPattern tables).rule.pieces ((bearerPattern tables).rule.sub text) =
        earlier ++ .replaced removed written :: later →
          (∀ last ∈ (earlier.flatMap Piece.source ++ []).getLast?,
            ¬Precedes redactedMark word last) ∧
            ∀ next ∈ (later.flatMap Piece.target).head?, ¬Follows redactedMark word next := by
    intro earlier removed written later pieces_eq
    rcases Rule.Replaces.of_pieces pieces_eq with ⟨replaces, whole⟩
    rcases shape_of_token_replaces lawful replaces with
      ⟨digits, secret, rfl, number, outer, takes⟩
    have not_runs := ((takesColon_iff lawful).mp
      ⟨_, digits, secret, _, rfl, rfl, replaces, number, outer, takes⟩).2.2
    have sub_eq : (bearerPattern tables).rule.sub text =
        (earlier.flatMap Piece.source ++ digits) ++ ':' ::
          (secret ++ later.flatMap Piece.source) := by
      rw [← whole]
      simp
    rcases separated.exists_of_sub_eq bearer_colon_absent sub_eq with
      ⟨first, second, text_eq, first_eq, second_eq⟩
    rw [← first_eq, runsInto_sub_iff lawful] at not_runs
    rcases exists_number_of_sub lawful first_eq number outer with
      ⟨front, rfl, opens, last_spec⟩
    rcases exists_secret_of_sub lawful second_eq takes with ⟨other, behind, rfl, takes, next_spec⟩
    have joins := fun joined => apart
      ⟨front, digits, other, behind, text_eq, number, opens, takes, not_runs, joined⟩
    constructor
    · intro last last_mem precedes
      rw [List.append_nil] at last_mem
      rcases last_spec last last_mem with stood | ⟨rfl, presented⟩
      · exact joins (.inl ⟨last, stood, precedes⟩)
      · exact joins (.inr (.inl ⟨presented, precedes⟩))
    · intro next next_mem follows
      have no_blank : ∀ character ∈ word, tables.isSpace character ≠ true := by
        intro character character_mem blank
        rw [solid character character_mem] at blank
        cases blank
      cases later with
      | nil => cases next_mem
      | cons piece others =>
          cases piece with
          | kept element =>
              rcases next_spec next next_mem with stood | blank
              · exact joins (.inr (.inr ⟨next, stood, .inl follows⟩))
              · exact no_blank next (mem_of_follows follows) blank
          | replaced other' written' =>
              have split : (telegramTokenPattern tables).rule.pieces
                  ((bearerPattern tables).rule.sub text) =
                    (earlier ++ [.replaced (digits ++ ':' :: secret) written]) ++
                      .replaced other' written' :: others := by
                rw [pieces_eq]
                simp
              rcases shape_of_token_replaces lawful (Rule.Replaces.of_pieces split).1 with
                ⟨digits', secret', rfl, number', _⟩
              have replaced : .replaced (digits' ++ ':' :: secret') written' ∈
                  (telegramTokenPattern tables).rule.pieces
                    ((bearerPattern tables).rule.sub text) := by
                rw [split]
                simp
              rw [show written' = redactedMark from written_eq _ _ replaced] at next_mem
              cases next_mem
              cases digits' with
              | nil => exact number'.ne_nil rfl
              | cons digit digits' =>
                  have decimal := number'.2.2 digit List.mem_cons_self
                  rcases next_spec digit rfl with stood | blank
                  · exact joins (.inr (.inr ⟨digit, stood, .inr ⟨decimal, follows⟩⟩))
                  · rw [IsTokenNumber.solid lawful number'.2.2 digit List.mem_cons_self] at blank
                    cases blank
  rcases infix_source_or_heading not_mark written_eq beside occurs with
    stood | ⟨earlier, removed, written, later, pieces_eq, completed⟩
  · rwa [Rule.flatMap_source_pieces] at stood
  · rw [← (telegramTokenPattern tables).rule.flatMap_source_pieces
      ((bearerPattern tables).rule.sub text), pieces_eq, List.flatMap_append]
    rw [List.append_nil] at completed
    exact completed.trans (List.prefix_append _ _).isInfix

end Earlier

section Later

/-- A word that the last two expressions leave was there. -/
theorem infix_of_infix_value (not_mark : ¬word <:+: redactedMark)
    (solid : ∀ character ∈ word, tables.isSpace character = false) (colon_absent : ':' ∉ word)
    (apart : ¬JoinsValue word) :
    (word <:+: (querySecretPattern tables).rule.sub text → word <:+: text) ∧
      (word <:+: (labeledSecretPattern tables).rule.sub text → word <:+: text) := by
  have no_blank : ∀ {character : Char}, tables.isSpace character = true → character ∉ word := by
    intro character blank character_mem
    rw [solid character character_mem] at blank
    cases blank
  have not_precedes : ¬Precedes redactedMark word '=' := fun precedes => apart (.inl precedes)
  have not_follows : ∀ sign ∈ ['&', ',', ';'], ¬Follows redactedMark word sign :=
    fun sign sign_mem follows => apart (.inr ⟨sign, sign_mem, follows⟩)
  constructor
  · refine Pattern.infix_of_infix_sub_run rfl rfl not_mark ?_ ?_
    · intro before rest opening remaining taking
      rcases mem_takings_seq.mp taking with ⟨name, _, _, rfl, _, sign_mem⟩
      rcases mem_takings_seq.mp sign_mem with ⟨_, _, _, rfl, equals_mem, empty_mem⟩
      rcases mem_takings_one.mp equals_mem with ⟨sign, is_sign, rfl, rfl⟩
      rcases mem_takings_empty.mp empty_mem with ⟨rfl, _⟩
      cases of_decide_eq_true is_sign
      exact ⟨name, '=', rfl, not_precedes⟩
    · intro next refused
      rw [Bool.and_eq_false_iff, decide_eq_false_iff_not, not_not, Bool.not_eq_false'] at refused
      rcases refused with rfl | blank
      · exact not_follows '&' (by decide)
      · exact fun follows => no_blank blank (mem_of_follows follows)
  · refine Pattern.infix_of_infix_sub_run rfl rfl not_mark ?_ ?_
    · intro before rest opening remaining taking
      rcases mem_takings_seq.mp taking with ⟨label, _, _, rfl, _, others_mem⟩
      rcases mem_takings_seq.mp others_mem with ⟨blanks, _, _, rfl, _, sign_mem⟩
      rcases mem_takings_seq.mp sign_mem with ⟨_, _, _, rfl, sign_mem, blanks_mem⟩
      rcases mem_takings_one.mp sign_mem with ⟨sign, is_sign, rfl, _⟩
      rcases mem_takings_seq.mp blanks_mem with ⟨further, _, _, rfl, further_mem, empty_mem⟩
      rcases mem_takings_empty.mp empty_mem with ⟨rfl, _⟩
      rw [List.append_nil]
      rcases List.eq_nil_or_concat further with rfl | ⟨others, blank, rfl⟩
      · refine ⟨label ++ blanks, sign, by simp, ?_⟩
        rw [Bool.or_eq_true, decide_eq_true_eq, decide_eq_true_eq] at is_sign
        rcases is_sign with rfl | rfl
        · exact fun precedes => colon_absent (mem_of_precedes precedes)
        · exact not_precedes
      · refine ⟨label ++ (blanks ++ sign :: others), blank, by simp, fun precedes => ?_⟩
        exact no_blank ((mem_takings_many.mp further_mem).2.1 blank (by simp))
          (mem_of_precedes precedes)
    · intro next refused
      rw [Bool.and_eq_false_iff, Bool.and_eq_false_iff, decide_eq_false_iff_not,
        decide_eq_false_iff_not, not_not, not_not, Bool.not_eq_false'] at refused
      rcases refused with (rfl | rfl) | blank
      · exact not_follows ',' (by decide)
      · exact not_follows ';' (by decide)
      · exact fun follows => no_blank blank (mem_of_follows follows)

end Later

end CopyMint
