import CopyMint.Observability.Presented
import CopyMint.Observability.TokenStretches

/-!
# Bot tokens in redacted text

What the second expression leaves of a token is told by the text before the first one: what
a bearer presents is gone, words begin behind the mark, and the end of a secret may be
respelled. A token survives the two expressions exactly where neither takes anything of it.
What is written afterwards cannot bring a token back.
-/

namespace CopyMint

open Hexadecimal Substitution Regex

variable {tables : CharacterTables}

section Marks

theorem not_overlaps_mark {word : Text} (opens : '[' ∉ word) (closes : ']' ∉ word)
    (inside : ¬word <:+: redactedMark) : ¬Overlaps word redactedMark := by
  rintro (within | around | ⟨common, common_ne, ⟨common_word, begins⟩ | ⟨common_word, ends⟩⟩)
  · exact inside within
  · exact opens (around.subset (by decide))
  · cases common with
    | nil => exact common_ne rfl
    | cons first others =>
        have first_eq : first = '[' := (List.cons_prefix_cons.mp begins).1
        exact opens (common_word.subset (first_eq ▸ List.mem_cons_self))
  · rcases List.eq_nil_or_concat common with rfl | ⟨others, last, rfl⟩
    · exact common_ne rfl
    · have last_eq : last = ']' := by
        rw [show redactedMark = "[REDACTED".toList ++ [']'] from rfl, List.concat_eq_append] at ends
        have same := List.suffix_concat_iff.mp ends
        simp at same
        exact same.1
      refine closes (common_word.subset ?_)
      rw [← last_eq, List.concat_eq_append]
      exact List.mem_append_right _ List.mem_cons_self

end Marks

section Characters

variable {digits secret text : Text}

theorem IsTokenNumber.solid (lawful : tables.Lawful) (decimals : ∀ digit ∈ digits,
    tables.isDecimal digit = true) : ∀ digit ∈ digits, tables.isSpace digit = false := by
  intro digit digit_mem
  have alnum := lawful.isAlnum_decimal digit (decimals digit digit_mem)
  cases blank : tables.isSpace digit with
  | false => rfl
  | true =>
      rw [lawful.isAlnum_space digit blank] at alnum
      cases alnum

theorem IsTokenSecret.solid (lawful : tables.Lawful) (accepted : ∀ character ∈ secret,
    isTokenCharacter character = true) :
    ∀ character ∈ secret, tables.isSpace character = false := by
  intro character character_mem
  have graphic := isTokenCharacter_graphic (accepted character character_mem)
  exact lawful.isSpace_graphic character graphic.1 graphic.2

/-- A decimal is no letter of `Bearer`. -/
theorem not_isDecimal_of_mem_spelled (lawful : tables.Lawful) {spelled : Text}
    (spelled_eq : spelled.map Char.toLower = "bearer".toList) :
    ∀ character ∈ spelled, tables.isDecimal character = false := by
  intro character character_mem
  have lower_mem : character.toLower ∈ "bearer".toList := by
    rw [← spelled_eq]
    exact List.mem_map_of_mem character_mem
  have graphic := isTokenCharacter_graphic
    (isTokenCharacter_of_mem_spelled spelled_eq character character_mem)
  have small : character.toNat < 128 := Nat.lt_succ_of_lt graphic.2
  rw [lawful.isDecimal_ascii character small]
  exact @of_ascii (fun character => character.toLower ∈ "bearer".toList →
    character.isDigit = false) (by decide +kernel) _ small lower_mem

end Characters

section Bearers

variable {text digits : Text}

theorem isBearerPiece_of_mem_pieces {removed written : Text}
    (replaced : .replaced removed written ∈ (bearerPattern tables).rule.pieces text) :
    IsBearerPiece tables removed written := by
  rcases Rule.exists_find_of_mem_piecesFrom replaced with ⟨_, _, found, finds, rfl, rfl⟩
  exact isBearerPiece_of_find finds

theorem bearer_ends (removed written : Text)
    (replaced : .replaced removed written ∈ (bearerPattern tables).rule.pieces text) :
    ∃ front, written = front ++ [']'] :=
  ⟨"Bearer [REDACTED".toList, Pattern.written_of_mem_pieces replaced⟩

theorem bearer_colon_absent (text removed written : Text)
    (replaced : .replaced removed written ∈ (bearerPattern tables).rule.pieces text) :
    ':' ∉ written := by
  rw [show written = "Bearer ".toList ++ redactedMark from Pattern.written_of_mem_pieces replaced]
  decide

/-- A text in which nothing blank is left has been left alone. -/
theorem eq_of_sub_solid (lawful : tables.Lawful)
    (solid : ∀ character ∈ (bearerPattern tables).rule.sub text, tables.isSpace character = false) :
    (bearerPattern tables).rule.sub text = text := by
  have source_eq := (bearerPattern tables).rule.flatMap_source_pieces text
  rw [Rule.sub] at solid ⊢
  rcases kept_or_first_replaced ((bearerPattern tables).rule.pieces text) with
    ⟨rest, pieces_eq⟩ | ⟨rest, removed, written, later, pieces_eq⟩
  · rw [pieces_eq, flatMap_source_kept] at source_eq
    rw [pieces_eq, flatMap_target_kept, source_eq]
  · have replaced : .replaced removed written ∈ (bearerPattern tables).rule.pieces text := by
      rw [pieces_eq]
      simp
    have written_eq : written = "Bearer ".toList ++ redactedMark :=
      Pattern.written_of_mem_pieces replaced
    have space_mem : ' ' ∈ ((bearerPattern tables).rule.pieces text).flatMap Piece.target := by
      rw [List.mem_flatMap]
      refine ⟨_, replaced, ?_⟩
      rw [Piece.target, written_eq]
      decide
    have not_blank := solid ' ' space_mem
    rw [lawful.isSpace_space] at not_blank
    cases not_blank

theorem Opens.not_taken {front rest : Text} (opens : Opens tables front rest) :
    ¬Taken tables front rest := by
  rintro ⟨presented, goes_on⟩
  rcases opens with ⟨_, stops⟩ | ⟨unpresented, _⟩
  · rw [goes_on] at stops
    cases stops
  · exact unpresented presented

/-- The digits that end a text behind the first expression, with what is in front of them. -/
theorem exists_number_of_sub (lawful : tables.Lawful) {before : Text}
    (sub_eq : (bearerPattern tables).rule.sub text = before ++ digits)
    (number : IsTokenNumber tables digits) (outer : Outside tables before digits) :
    ∃ front, text = front ++ digits ∧ Opens tables front digits ∧
      ∀ last ∈ before.getLast?, last ∈ front.getLast? ∨ last = ']' ∧ Presented tables front := by
  have absent : ']' ∉ digits := not_mem_of_decimals lawful number.2.2 (by decide) (by decide)
  rcases exists_kept_suffix absent bearer_ends (sub_eq ▸ List.suffix_append before digits) with
    ⟨earlier, pieces_eq⟩
  have text_eq : text = earlier.flatMap Piece.source ++ digits := by
    rw [← (bearerPattern tables).rule.flatMap_source_pieces text, pieces_eq, List.flatMap_append,
      flatMap_source_kept]
  have before_eq : earlier.flatMap Piece.target = before := by
    rw [Rule.sub, pieces_eq, List.flatMap_append, flatMap_target_kept] at sub_eq
    exact List.append_cancel_right sub_eq
  have pieces_front := pieces_eq
  rw [text_eq] at pieces_front
  refine ⟨_, text_eq, (opens_iff lawful pieces_front rfl).mp (before_eq ▸ outer), ?_⟩
  rw [← before_eq]
  intro last last_mem
  rcases List.eq_nil_or_concat earlier with rfl | ⟨others, piece, rfl⟩
  · cases last_mem
  rw [List.concat_eq_append, List.flatMap_append, List.flatMap_singleton] at last_mem ⊢
  cases piece with
  | kept element =>
      refine .inl (List.mem_getLast?_append_of_mem_getLast? ?_)
      simpa [Piece.target, Piece.source] using last_mem
  | replaced removed written =>
      rw [List.concat_eq_append, List.append_assoc] at pieces_eq
      have replaced : .replaced removed written ∈ (bearerPattern tables).rule.pieces text := by
        rw [pieces_eq]
        simp
      rcases bearer_ends removed written replaced with ⟨front, rfl⟩
      have last_eq : ']' = last := by
        simpa [Piece.target] using last_mem
      exact .inr ⟨last_eq.symm,
        (presented_of_replaces lawful (Rule.Replaces.of_pieces pieces_eq).1).1⟩

/-- A token begins behind the first expression where it may begin before it. -/
theorem startsToken_sub_iff (lawful : tables.Lawful) :
    StartsToken tables (Outside tables) ((bearerPattern tables).rule.sub text) ↔
      StartsToken tables (Opens tables) text := by
  constructor
  · rintro ⟨before, digits, sub_eq, number, outer⟩
    rcases exists_number_of_sub lawful sub_eq number outer with ⟨front, text_eq, opens, _⟩
    exact ⟨front, digits, text_eq, number, opens⟩
  · rintro ⟨front, digits, rfl, number, opens⟩
    rcases keeps_or_taken lawful front (IsTokenNumber.solid lawful number.2.2) with keeps | taken
    · rcases keeps.at_end with ⟨earlier, pieces_eq, front_eq⟩
      refine ⟨earlier.flatMap Piece.target, digits, ?_, number,
        (opens_iff lawful pieces_eq front_eq).mpr opens⟩
      rw [Rule.sub, pieces_eq, List.flatMap_append, flatMap_target_kept]
    · exact absurd taken opens.not_taken

/-- A secret runs into the end of a text behind the first expression as it does before it. -/
theorem runsInto_sub_iff (lawful : tables.Lawful) :
    RunsInto (StartsToken tables (Outside tables)) ((bearerPattern tables).rule.sub text) ↔
      RunsInto (StartsToken tables (Opens tables)) text := by
  have separated := bearer_separatedBy lawful (show ':' ∈ [':', '@'] by decide)
  induction length_eq : text.length using Nat.strongRecOn generalizing text with
  | ind length ih =>
  subst length_eq
  have shorter : ∀ front body : Text, text = front ++ ':' :: body →
      front.length < text.length := by
    rintro front body rfl
    rw [List.length_append, List.length_cons]
    omega
  rw [RunsInto, RunsInto]
  constructor
  · rintro ⟨front, body, sub_eq, body_spec, starts, not_runs⟩
    rcases separated.exists_of_sub_eq bearer_colon_absent sub_eq with
      ⟨first, second, text_eq, rfl, rfl⟩
    have second_eq := eq_of_sub_solid lawful (IsTokenSecret.solid lawful body_spec.2)
    rw [second_eq] at body_spec
    exact ⟨first, second, text_eq, body_spec, (startsToken_sub_iff lawful).mp starts,
      mt (ih first.length (shorter _ _ text_eq) rfl).mpr not_runs⟩
  · rintro ⟨front, body, text_eq, body_spec, starts, not_runs⟩
    refine ⟨(bearerPattern tables).rule.sub front, body, ?_, body_spec,
      (startsToken_sub_iff lawful).mpr starts,
      mt (ih front.length (shorter _ _ text_eq) rfl).mp not_runs⟩
    rw [text_eq, separated.sub_append_cons,
      bearer_sub_eq_self (IsTokenSecret.solid lawful body_spec.2)]

/-- The end of a secret does not depend on its spelling, nor on the blank behind it. -/
theorem endsToken_of_map_eq (lawful : tables.Lawful) {text other behind further : Text}
    {blank space : Char} (same : other.map Char.toLower = text.map Char.toLower)
    (is_blank : tables.isSpace blank = true) (outside : tables.isWord space = false)
    (ends : EndsToken tables (other ++ blank :: further)) :
    EndsToken tables (text ++ space :: behind) := by
  rcases ends with ⟨taken, rest, whole, taken_spec, boundary⟩
  have absent : blank ∉ taken := by
    intro blank_mem
    have accepted := taken_spec.2 blank blank_mem
    rw [lawful.isTokenCharacter_space is_blank] at accepted
    cases accepted
  rcases prefix_of_append_cons absent (whole ▸ List.prefix_append taken rest) with ⟨inner, rfl⟩
  have rest_eq : rest = inner ++ blank :: further := by
    simpa using whole.symm
  rw [List.map_append] at same
  rcases List.map_eq_append_iff.mp same.symm with ⟨secret, remaining, rfl, secret_eq, remaining_eq⟩
  have accepted_iff : ∀ texts : Text, texts.all isTokenCharacter =
      (texts.map Char.toLower).all isTokenCharacter := by
    intro texts
    simp [List.all_map, Function.comp_def, isTokenCharacter_toLower]
  have word_iff : ∀ texts : Text, texts.head?.any tables.isWord =
      (texts.map Char.toLower).head?.any tables.isWord := by
    intro texts
    cases texts with
    | nil => rfl
    | cons first others => simp [lawful.isWord_toLower]
  refine ⟨secret, remaining ++ space :: behind, List.append_assoc _ _ _, ⟨?_, ?_⟩, ?_⟩
  · rw [← List.length_map Char.toLower, secret_eq, List.length_map]
    exact taken_spec.1
  · rw [← List.all_eq_true, accepted_iff, secret_eq, ← accepted_iff, List.all_eq_true]
    exact taken_spec.2
  · rw [AtBoundary, rest_eq, any_head?_append tables.isWord (lawful.isWord_space is_blank),
      word_iff, List.map_reverse, word_iff inner] at boundary
    rw [AtBoundary, any_head?_append tables.isWord outside, word_iff, List.map_reverse,
      word_iff remaining, secret_eq, remaining_eq]
    exact boundary

/-- A text that the first expression leaves alone, or the first thing that it announces. -/
theorem eq_or_first_announced (text : Text) :
    (bearerPattern tables).rule.sub text = text ∨
      ∃ rest spelled blank further later,
        spelled.map Char.toLower = "bearer".toList ∧ tables.isSpace blank = true ∧
          text = (rest ++ spelled) ++ blank :: further ∧
            (bearerPattern tables).rule.sub text = (rest ++ "Bearer".toList) ++ ' ' :: later := by
  have source_eq := (bearerPattern tables).rule.flatMap_source_pieces text
  rw [Rule.sub]
  rcases kept_or_first_replaced ((bearerPattern tables).rule.pieces text) with
    ⟨rest, pieces_eq⟩ | ⟨rest, removed, written, later, pieces_eq⟩
  · rw [pieces_eq, flatMap_source_kept] at source_eq
    rw [pieces_eq, flatMap_target_kept, source_eq]
    exact .inl rfl
  · have replaced : .replaced removed written ∈ (bearerPattern tables).rule.pieces text := by
      rw [pieces_eq]
      simp
    rcases isBearerPiece_of_mem_pieces replaced with
      ⟨rfl, spelled, blank, more, rfl, same, is_blank⟩
    refine .inr ⟨rest, spelled, blank, more ++ later.flatMap Piece.source,
      redactedMark ++ later.flatMap Piece.target, same.trans (by decide), is_blank, ?_, ?_⟩
    · rw [← source_eq, pieces_eq]
      simp [Piece.source, flatMap_source_kept]
    · rw [pieces_eq]
      simp [Piece.target, flatMap_target_kept]

/-- A secret ends behind the first expression as it does before it. -/
theorem endsToken_sub_iff (lawful : tables.Lawful) :
    EndsToken tables ((bearerPattern tables).rule.sub text) ↔ EndsToken tables text := by
  rcases eq_or_first_announced text with same |
    ⟨rest, spelled, blank, further, later, same, is_blank, text_eq, sub_eq⟩
  · rw [same]
  · have respelled : (rest ++ spelled).map Char.toLower =
        (rest ++ "Bearer".toList).map Char.toLower := by
      rw [List.map_append, List.map_append, same, show "bearer".toList =
        "Bearer".toList.map Char.toLower by decide]
    rw [sub_eq, text_eq]
    exact ⟨endsToken_of_map_eq lawful respelled.symm lawful.isSpace_space
        (lawful.isWord_space is_blank),
      endsToken_of_map_eq lawful respelled is_blank (lawful.isWord_space lawful.isSpace_space)⟩

/-- A secret that ends in front of a blank is as long as it can be. -/
theorem takesSecret_of_blank (lawful : tables.Lawful) {secret behind : Text} {blank : Char}
    (spec : IsTokenSecret secret) (last : secret.reverse.head?.any tables.isWord = true)
    (is_blank : tables.isSpace blank = true) : TakesSecret tables secret (blank :: behind) := by
  have outside := lawful.isWord_space is_blank
  refine ⟨spec, ?_, fun longer rest whole longer_spec _ => ?_⟩
  · rw [AtBoundary, last, List.head?_cons, Option.any_some, outside]
    exact Bool.false_ne_true.symm
  · have absent : blank ∉ longer := by
      intro blank_mem
      have accepted := longer_spec.2 blank blank_mem
      rw [lawful.isTokenCharacter_space is_blank] at accepted
      cases accepted
    exact (prefix_of_append_cons absent (whole ▸ List.prefix_append longer rest)).length_le

/-- `Bearer` in any case at the end of a secret ends a word. -/
theorem isTokenSecret_append_spelled (lawful : tables.Lawful) {rest spelled : Text}
    (same : spelled.map Char.toLower = "bearer".toList)
    (accepted : ∀ character ∈ rest, isTokenCharacter character = true)
    (long : 30 ≤ rest.length + 6) : IsTokenSecret (rest ++ spelled) ∧
      (rest ++ spelled).reverse.head?.any tables.isWord = true := by
  have lengths := congrArg List.length same
  rw [List.length_map, show "bearer".toList.length = 6 by decide] at lengths
  refine ⟨⟨by rw [List.length_append, lengths]; exact long, List.forall_mem_append.mpr
    ⟨accepted, isTokenCharacter_of_mem_spelled same⟩⟩, ?_⟩
  rcases List.eq_nil_or_concat spelled with rfl | ⟨others, last, rfl⟩
  · cases lengths
  · rw [List.concat_eq_append, ← List.append_assoc, List.reverse_append]
    exact isWord_of_mem_spelled lawful same last (by simp)

/-- The secret that begins a text behind the first expression, with what is behind it. -/
theorem exists_secret_of_sub (lawful : tables.Lawful) {secret after : Text}
    (sub_eq : (bearerPattern tables).rule.sub text = secret ++ after)
    (takes : TakesSecret tables secret after) :
    ∃ other behind, text = other ++ behind ∧ TakesSecret tables other behind ∧
      ∀ next ∈ after.head?, next ∈ behind.head? ∨ tables.isSpace next = true := by
  rcases @eq_or_first_announced tables text with same |
    ⟨rest, spelled, blank, further, later, same, is_blank, text_eq, announced_eq⟩
  · exact ⟨secret, after, same.symm.trans sub_eq, takes, fun next next_mem => .inl next_mem⟩
  have whole := sub_eq.symm.trans announced_eq
  have absent : ' ' ∉ secret := by
    intro space_mem
    have solid := IsTokenSecret.solid lawful takes.spec.2 ' ' space_mem
    rw [lawful.isSpace_space] at solid
    cases solid
  have begins : secret <+: rest ++ "Bearer".toList :=
    prefix_of_append_cons absent (whole ▸ List.prefix_append secret after)
  have six : "Bearer".toList.length = 6 := by decide
  have within := begins.length_le
  rw [List.length_append, six] at within
  have enough := takes.spec.1
  -- Where all of the text before `Bearer` may belong to a secret, so does `Bearer`.
  have covers : (∀ character ∈ rest, isTokenCharacter character = true) →
      (rest ++ "Bearer".toList).length ≤ secret.length := by
    intro accepted
    rcases isTokenSecret_append_spelled lawful (show "Bearer".toList.map Char.toLower = _ by decide)
      accepted (by omega) with ⟨spec, last⟩
    exact takes.longest _ (' ' :: later) whole.symm spec
      (takesSecret_of_blank lawful spec last lawful.isSpace_space).ends
  by_cases short : secret.length < rest.length
  · rcases List.prefix_of_prefix_length_le begins (List.prefix_append rest _) short.le with
      ⟨more, rfl⟩
    cases more with
    | nil => simp at short
    | cons first others =>
        have after_eq : after = first :: (others ++ ("Bearer".toList ++ ' ' :: later)) := by
          simpa using whole
        have behind_eq : text = secret ++ first :: (others ++ (spelled ++ blank :: further)) := by
          rw [text_eq]
          simp
        refine ⟨secret, _, behind_eq, ⟨takes.spec, ?_, ?_⟩, ?_⟩
        · have ends := takes.ends
          rw [after_eq] at ends
          exact ends
        · intro longer tail longer_eq longer_spec longer_ends
          have longer_begins : longer <+: (secret ++ first :: others) ++
              (spelled ++ blank :: further) := by
            rw [List.append_assoc, List.cons_append, ← longer_eq]
            exact List.prefix_append longer tail
          rcases Nat.lt_or_ge longer.length (secret ++ first :: others).length with less | enough
          · rcases List.prefix_of_prefix_length_le longer_begins (List.prefix_append _ _) less.le
              with ⟨inside, inside_eq⟩
            cases inside with
            | nil =>
                rw [← inside_eq] at less
                simp at less
            | cons next inside =>
                refine takes.longest longer (next :: (inside ++ ("Bearer".toList ++ ' ' :: later)))
                  ?_ longer_spec ?_
                · have text_whole := congrArg (· ++ ("Bearer".toList ++ ' ' :: later)) inside_eq
                  rw [after_eq]
                  simpa using text_whole
                · have tail_eq : tail = next :: (inside ++ (spelled ++ blank :: further)) := by
                    refine List.append_cancel_left (longer_eq.trans ?_)
                    have text_whole := congrArg (· ++ (spelled ++ blank :: further)) inside_eq
                    simpa using text_whole.symm
                  rw [tail_eq] at longer_ends
                  exact longer_ends
          · have rest_begins := List.prefix_of_prefix_length_le (List.prefix_append _ _)
              longer_begins enough
            have bound := covers fun character character_mem =>
              longer_spec.2 character (rest_begins.subset character_mem)
            rw [List.length_append] at bound
            omega
        · intro next next_mem
          rw [after_eq] at next_mem
          exact .inl next_mem
  · rcases List.prefix_of_prefix_length_le (List.prefix_append rest "Bearer".toList) begins
      (by omega) with ⟨inside, rfl⟩
    have accepted : ∀ character ∈ rest, isTokenCharacter character = true :=
      fun character character_mem => takes.spec.2 character (List.mem_append_left _ character_mem)
    have secret_eq := begins.eq_of_length_le (covers accepted)
    rw [secret_eq] at whole
    rcases isTokenSecret_append_spelled lawful same accepted (by omega) with ⟨spec, last⟩
    refine ⟨rest ++ spelled, blank :: further, text_eq,
      takesSecret_of_blank lawful spec last is_blank, fun next next_mem => .inr ?_⟩
    rw [List.append_cancel_left whole] at next_mem
    cases next_mem
    exact lawful.isSpace_space

end Bearers

section Places

variable {digits secret other behind text : Text}

theorem Spells.length_eq (spells : Spells tables secret other behind) :
    other.length = secret.length := by
  rcases spells with ⟨rfl, _⟩ | ⟨body, part, rfl, _, short, _, rfl⟩
  · rfl
  · have six : "Bearer".toList.length = 6 := by decide
    rw [List.length_append, List.length_append, List.length_take, six, Nat.min_eq_left short]

/-- The end of a secret is taken behind the first expression as it is before it. -/
theorem tailTaken_sub_iff (lawful : tables.Lawful) {left : Text} (spec : IsTokenSecret secret)
    (spells : Spells tables secret other behind)
    (sub_eq : (bearerPattern tables).rule.sub (other ++ behind) = secret ++ left) :
    TailTaken tables secret left ↔ TailTaken tables other behind := by
  have separated := bearer_separatedBy lawful (show ':' ∈ [':', '@'] by decide)
  constructor
  · rintro ⟨body, digits, more, rest, secret_eq, rfl, digits_ne, number, outer, ends⟩
    have whole : (bearerPattern tables).rule.sub (other ++ behind) =
        (secret ++ more) ++ ':' :: rest := by
      rw [sub_eq, List.append_assoc]
    rcases separated.exists_of_sub_eq bearer_colon_absent whole with
      ⟨first, second, text_eq, first_eq, rfl⟩
    have solid : ∀ character ∈ secret ++ more, tables.isSpace character = false := by
      refine List.forall_mem_append.mpr ⟨IsTokenSecret.solid lawful spec.2, ?_⟩
      exact fun digit digit_mem => IsTokenNumber.solid lawful number.2.2 digit
        (List.mem_append_right _ digit_mem)
    have first_solid := eq_of_sub_solid lawful (first_eq ▸ solid)
    rw [← first_solid, first_eq, List.append_assoc] at text_eq
    rcases List.append_inj text_eq spells.length_eq with ⟨rfl, rfl⟩
    exact ⟨body, digits, more, second, secret_eq, rfl, digits_ne, number, outer,
      (endsToken_sub_iff lawful).mp ends⟩
  · rintro ⟨body, digits, more, rest, other_eq, rfl, digits_ne, number, outer, ends⟩
    rcases spells with ⟨rfl, _⟩ | ⟨begun, part, rfl, part_ne, short, announced, _⟩
    · have solid : ∀ character ∈ other ++ more, tables.isSpace character = false := by
        refine List.forall_mem_append.mpr ⟨IsTokenSecret.solid lawful spec.2, ?_⟩
        exact fun digit digit_mem => IsTokenNumber.solid lawful number.2.2 digit
          (List.mem_append_right _ digit_mem)
      rw [← List.append_assoc, separated.sub_append_cons, bearer_sub_eq_self solid,
        List.append_assoc] at sub_eq
      exact ⟨body, digits, more, _, other_eq, (List.append_cancel_left sub_eq).symm, digits_ne,
        number, outer, (endsToken_sub_iff lawful).mpr ends⟩
    · -- The last of the digits would be a letter of `Bearer`.
      exfalso
      rcases announced with ⟨spelled, blanks, value, rest_eq, announces, _⟩
      rcases List.eq_nil_or_concat digits with rfl | ⟨digits, digit, rfl⟩
      · exact digits_ne rfl
      rcases List.eq_nil_or_concat part with rfl | ⟨part, letter, rfl⟩
      · exact part_ne rfl
      have letter_eq : letter = digit := by
        have ends := congrArg List.getLast? other_eq
        simpa using ends
      have part_begins : part.concat letter <+: spelled := by
        refine List.prefix_of_prefix_length_le (List.prefix_append _ _)
          (rest_eq ▸ List.prefix_append spelled _) ?_
        rw [announces.length_spelled]
        exact short
      have letter_mem : letter ∈ spelled := part_begins.subset (by simp)
      have decimal := number.2.2 digit (by simp)
      rw [← letter_eq, not_isDecimal_of_mem_spelled lawful announces.spelled_eq letter letter_mem]
        at decimal
      cases decimal

theorem token_apart (lawful : tables.Lawful) (number : IsTokenNumber tables digits)
    (spec : IsTokenSecret secret) : ¬Overlaps (digits ++ ':' :: secret) redactedMark := by
  have absent : ∀ bracket ∈ ['[', ']'], bracket ∉ digits ++ ':' :: secret := by
    intro bracket bracket_mem
    have kinds : ∀ mark ∈ ['[', ']'], mark.toNat < 128 ∧ mark.isDigit = false ∧ mark ≠ ':' ∧
        isTokenCharacter mark = false :=
      forall_mem_of_all (by decide)
    rcases kinds bracket bracket_mem with ⟨small, digit, colon, token⟩
    simp only [List.mem_append, List.mem_cons, not_or]
    refine ⟨not_mem_of_decimals lawful number.2.2 small digit, colon, fun bracket_mem => ?_⟩
    rw [spec.2 bracket bracket_mem] at token
    cases token
  refine not_overlaps_mark (absent '[' (by decide)) (absent ']' (by decide)) ?_
  intro within
  exact absurd (within.subset (List.mem_append_right _ List.mem_cons_self)) (by decide)

/--
A token stands behind the first two expressions where it stood before them, perhaps with
another spelling, and neither of them takes anything of it.
-/
theorem token_infix_iff (lawful : tables.Lawful) (number : IsTokenNumber tables digits)
    (spec : IsTokenSecret secret) :
    (digits ++ ':' :: secret) <:+: (telegramTokenPattern tables).rule.sub
        ((bearerPattern tables).rule.sub text) ↔
      ∃ before other behind, before ++ (digits ++ ':' :: other) ++ behind = text ∧
        Spells tables secret other behind ∧ ¬Taken tables before digits ∧
          ¬RunsInto (StartsToken tables (Opens tables)) (before ++ digits) ∧
            ¬TailTaken tables other behind ∧
              ¬(StartsToken tables (Opens tables) (before ++ digits) ∧
                EndsToken tables (other ++ behind)) := by
  have separated := bearer_separatedBy lawful (show ':' ∈ [':', '@'] by decide)
  have apart := token_apart lawful number spec
  constructor
  · intro occurs
    have token_apart : ∀ removed written, .replaced removed written ∈
        (telegramTokenPattern tables).rule.pieces ((bearerPattern tables).rule.sub text) →
          ¬Overlaps (digits ++ ':' :: secret) written := by
      intro removed written replaced
      rwa [Pattern.written_of_mem_pieces replaced]
    rcases exists_kept_of_apart token_apart occurs with ⟨earlier, later, pieces_eq⟩
    have sub_eq : (bearerPattern tables).rule.sub text = earlier.flatMap Piece.source ++
        ((digits ++ ':' :: secret) ++ later.flatMap Piece.source) := by
      rw [← (telegramTokenPattern tables).rule.flatMap_source_pieces
        ((bearerPattern tables).rule.sub text), pieces_eq, List.flatMap_append,
        List.flatMap_append, flatMap_source_kept, List.append_assoc]
    have keeps : (telegramTokenPattern tables).rule.Keeps (earlier.flatMap Piece.source)
        (digits ++ ':' :: secret) (later.flatMap Piece.source) :=
      ⟨earlier, later, by rw [← sub_eq, pieces_eq], rfl, rfl⟩
    rcases (token_keeps_iff lawful number spec).mp keeps with ⟨not_runs, not_tail, not_both⟩
    have whole : (bearerPattern tables).rule.sub text =
        (earlier.flatMap Piece.source ++ digits) ++ ':' ::
          (secret ++ later.flatMap Piece.source) := by
      rw [sub_eq]
      simp
    rcases separated.exists_of_sub_eq bearer_colon_absent whole with
      ⟨first, second, rfl, first_eq, second_eq⟩
    have absent : ']' ∉ digits := not_mem_of_decimals lawful number.2.2 (by decide) (by decide)
    rcases exists_kept_suffix absent bearer_ends (first_eq ▸ List.suffix_append _ digits) with
      ⟨ahead, ahead_eq⟩
    have text_eq : first = ahead.flatMap Piece.source ++ digits := by
      rw [← (bearerPattern tables).rule.flatMap_source_pieces first, ahead_eq,
        List.flatMap_append, flatMap_source_kept]
    rcases (prefix_sub_iff lawful (IsTokenSecret.solid lawful spec.2)).mp
      (second_eq ▸ List.prefix_append secret _) with ⟨other, behind, rfl, spells⟩
    rw [← first_eq, runsInto_sub_iff lawful, text_eq] at not_runs
    rw [tailTaken_sub_iff lawful spec spells second_eq] at not_tail
    rw [← first_eq, ← second_eq, startsToken_sub_iff lawful, endsToken_sub_iff lawful,
      text_eq] at not_both
    refine ⟨ahead.flatMap Piece.source, other, behind, by simp [text_eq], spells, ?_, not_runs,
      not_tail, not_both⟩
    rw [text_eq] at ahead_eq
    exact fun taken => not_keeps_of_taken lawful taken
      ⟨ahead, [], by simpa using ahead_eq, rfl, rfl⟩
  · rintro ⟨before, other, behind, rfl, spells, not_taken, not_runs, not_tail, not_both⟩
    rcases keeps_or_taken lawful before (IsTokenNumber.solid lawful number.2.2) with keeps | taken
    · rcases keeps.at_end with ⟨ahead, ahead_eq, _⟩
      have first_eq : (bearerPattern tables).rule.sub (before ++ digits) =
          ahead.flatMap Piece.target ++ digits := by
        rw [Rule.sub, ahead_eq, List.flatMap_append, flatMap_target_kept]
      rcases (prefix_sub_iff lawful (IsTokenSecret.solid lawful spec.2)).mpr
        ⟨other, behind, rfl, spells⟩ with ⟨left, second_eq⟩
      have second_eq := second_eq.symm
      have sub_eq : (bearerPattern tables).rule.sub (before ++ (digits ++ ':' :: other) ++ behind) =
          ahead.flatMap Piece.target ++ ((digits ++ ':' :: secret) ++ left) := by
        have whole := separated.sub_append_cons (before ++ digits) (other ++ behind)
        rw [first_eq, second_eq] at whole
        simpa using whole
      rw [sub_eq]
      refine Rule.Keeps.infix_sub ((token_keeps_iff lawful number spec).mpr ⟨?_, ?_, ?_⟩)
      · rwa [← first_eq, runsInto_sub_iff lawful]
      · rwa [tailTaken_sub_iff lawful spec spells second_eq]
      · rwa [← first_eq, ← second_eq, startsToken_sub_iff lawful, endsToken_sub_iff lawful]
    · exact absurd taken not_taken

end Places

end CopyMint
