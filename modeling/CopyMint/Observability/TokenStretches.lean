import CopyMint.Observability.Expressions

/-!
# Where bot tokens are removed

The second expression removes a token at a colon with the digits of a token before it, which
begin a word, and the secret of a token behind it, unless the secret of a token before it
takes the digits away. The secret goes as far as it can, so that a token that is not removed
itself may lose the end of its secret to the digits of the next one.
-/

namespace CopyMint

open Hexadecimal Substitution Regex

variable {tables : CharacterTables}

section Definitions

/-- No word goes on behind the text. -/
def Outside (tables : CharacterTables) (front _rest : Text) : Prop :=
  front.reverse.head?.any tables.isWord = false

/-- A text that ends with the digits of a bot token, in front of which a word may begin. -/
def StartsToken (tables : CharacterTables) (opens : Text → Text → Prop) (text : Text) : Prop :=
  ∃ front digits, text = front ++ digits ∧ IsTokenNumber tables digits ∧ opens front digits

/-- A text that begins with the secret of a bot token, with the end of a word behind it. -/
def EndsToken (tables : CharacterTables) (text : Text) : Prop :=
  ∃ secret behind, text = secret ++ behind ∧ IsTokenSecret secret ∧
    AtBoundary tables.isWord secret.reverse behind

/-- The secret of a token that is removed goes on to the end of the text. -/
def RunsInto (starts : Text → Prop) (text : Text) : Prop :=
  ∃ front body, ∃ _ : text = front ++ ':' :: body,
    IsTokenSecret body ∧ starts front ∧ ¬RunsInto starts front
  termination_by text.length
  decreasing_by
    rename_i whole
    rw [whole, List.length_append, List.length_cons]
    omega

/-- The end of a secret belongs to the digits of the next token. -/
def TailTaken (tables : CharacterTables) (secret behind : Text) : Prop :=
  ∃ body digits more rest, secret = body ++ digits ∧ behind = more ++ ':' :: rest ∧ digits ≠ [] ∧
    IsTokenNumber tables (digits ++ more) ∧ Outside tables body digits ∧ EndsToken tables rest

/-- The longest secret at the beginning of a text with the end of a word behind it. -/
structure TakesSecret (tables : CharacterTables) (secret behind : Text) : Prop where
  spec : IsTokenSecret secret
  ends : AtBoundary tables.isWord secret.reverse behind
  longest : ∀ longer rest, longer ++ rest = secret ++ behind → IsTokenSecret longer →
    AtBoundary tables.isWord longer.reverse rest → longer.length ≤ secret.length

/-- A token is removed with the colon between the texts. -/
def TakesColon (tables : CharacterTables) (front rest : Text) : Prop :=
  ∃ before digits secret after, front = before ++ digits ∧ rest = secret ++ after ∧
    (telegramTokenPattern tables).rule.Replaces before (digits ++ ':' :: secret) after ∧
      IsTokenNumber tables digits ∧ Outside tables before digits ∧ TakesSecret tables secret after

end Definitions

section Characters

variable {digits secret : Text}

theorem not_mem_of_decimals (lawful : tables.Lawful) {character : Char}
    (decimals : ∀ digit ∈ digits, tables.isDecimal digit = true) (small : character.toNat < 128)
    (other : character.isDigit = false) : character ∉ digits := by
  intro character_mem
  have decimal := decimals character character_mem
  rw [lawful.isDecimal_ascii character small, other] at decimal
  cases decimal

theorem IsTokenNumber.ne_nil (number : IsTokenNumber tables digits) : digits ≠ [] := by
  rintro rfl
  exact absurd number.1 (by decide)

theorem IsTokenNumber.colon_absent (lawful : tables.Lawful) (number : IsTokenNumber tables digits) :
    ':' ∉ digits :=
  not_mem_of_decimals lawful number.2.2 (by decide) (by decide)

theorem IsTokenSecret.ne_nil (spec : IsTokenSecret secret) : secret ≠ [] := by
  rintro rfl
  exact absurd spec.1 (by decide)

theorem IsTokenSecret.colon_absent (spec : IsTokenSecret secret) : ':' ∉ secret := fun colon_mem =>
  absurd (spec.2 ':' colon_mem) (by decide)

theorem isWord_colon (lawful : tables.Lawful) : tables.isWord ':' = false := by
  rw [lawful.isWord_ascii (by decide)]
  decide

theorem any_head?_of_decimals (lawful : tables.Lawful) (decimals : ∀ digit ∈ digits,
    tables.isDecimal digit = true) (digits_ne : digits ≠ []) (rest : Text) :
    (digits ++ rest).head?.any tables.isWord = true := by
  cases digits with
  | nil => exact absurd rfl digits_ne
  | cons first others => exact lawful.isWord_decimal (decimals first List.mem_cons_self)

theorem any_last_of_decimals (lawful : tables.Lawful) (decimals : ∀ digit ∈ digits,
    tables.isDecimal digit = true) (digits_ne : digits ≠ []) (front : Text) :
    (front ++ digits).reverse.head?.any tables.isWord = true := by
  rw [List.reverse_append]
  refine any_head?_of_decimals lawful ?_ (mt List.reverse_eq_nil_iff.mp digits_ne) _
  exact fun digit digit_mem => decimals digit (List.mem_reverse.mp digit_mem)

/-- The digits in front of which a word begins are determined by the text. -/
theorem number_inj (lawful : tables.Lawful) {front front' digits' : Text}
    (same : front ++ digits = front' ++ digits') (number : IsTokenNumber tables digits)
    (number' : IsTokenNumber tables digits') (outer : Outside tables front digits)
    (outer' : Outside tables front' digits') : front = front' ∧ digits = digits' := by
  rcases List.append_eq_append_iff.mp same with ⟨inside, rfl, rfl⟩ | ⟨inside, rfl, rfl⟩
  · by_cases inside_nil : inside = []
    · simp [inside_nil]
    · rw [Outside, any_last_of_decimals lawful
        (fun digit digit_mem => number.2.2 digit (List.mem_append_left _ digit_mem)) inside_nil]
        at outer'
      cases outer'
  · by_cases inside_nil : inside = []
    · simp [inside_nil]
    · rw [Outside, any_last_of_decimals lawful
        (fun digit digit_mem => number'.2.2 digit (List.mem_append_left _ digit_mem)) inside_nil]
        at outer
      cases outer

/-- A secret with the last of its characters in a word ends at a colon. -/
theorem endsToken_of_last (lawful : tables.Lawful) (spec : IsTokenSecret secret) (rest : Text)
    (last : secret.reverse.head?.any tables.isWord = true) :
    EndsToken tables (secret ++ ':' :: rest) := by
  refine ⟨secret, ':' :: rest, rfl, spec, ?_⟩
  rw [AtBoundary, last, List.head?_cons, Option.any_some, isWord_colon lawful]
  exact Bool.false_ne_true.symm

end Characters

section Shape

variable {before removed after front rest digits secret behind : Text}

theorem token_bare : (telegramTokenPattern tables).rule.Bare := Pattern.bare rfl rfl

/-- What the second expression removes is a token that begins a word, as long as it can be. -/
theorem shape_of_token_replaces (lawful : tables.Lawful)
    (replaces : (telegramTokenPattern tables).rule.Replaces before removed after) :
    ∃ digits secret, removed = digits ++ ':' :: secret ∧ IsTokenNumber tables digits ∧
      Outside tables before digits ∧ TakesSecret tables secret after := by
  rcases replaces.finds token_bare with ⟨found, finds, rfl⟩
  rcases Pattern.head?_of_find rfl rfl finds with ⟨remaining, head_eq⟩
  have whole := (append_of_mem_takings (List.mem_of_head? head_eq)).1
  cases List.append_cancel_left whole
  rcases exists_of_head?_seq head_eq with ⟨_, _, token, removed_eq, boundary_mem, token_eq⟩
  rcases mem_takings_boundary.mp boundary_mem with ⟨starts, rfl, rfl⟩
  rcases exists_of_head?_seq token_eq with ⟨digits, _, named, rfl, digits_mem, named_eq⟩
  rcases exists_of_head?_seq named_eq with ⟨_, _, more, rfl, colon_mem, more_eq⟩
  rcases mem_takings_one.mp colon_mem with ⟨colon, is_colon, rfl, rfl⟩
  cases of_decide_eq_true is_colon
  rcases longest_of_head?_seq more_eq with ⟨secret, _, ending, rfl, secret_mem, ending_eq, longest⟩
  rcases mem_takings_seq.mp (List.mem_of_head? ending_eq) with
    ⟨_, _, _, rfl, last_mem, empty_mem⟩
  rcases mem_takings_boundary.mp last_mem with ⟨ends, rfl, rfl⟩
  rcases mem_takings_empty.mp empty_mem with ⟨rfl, rfl⟩
  rcases mem_takings_many.mp digits_mem with ⟨rest_eq, digits_all, digits_least, digits_most⟩
  rcases mem_takings_many.mp secret_mem with ⟨rfl, secret_all, secret_least, _⟩
  have digits_ne : digits ≠ [] := by
    rintro rfl
    exact absurd digits_least (by decide)
  have secret_ne : secret ≠ [] := by
    rintro rfl
    exact absurd secret_least (by decide)
  have reversed_ne : secret.reverse ≠ [] := mt List.reverse_eq_nil_iff.mp secret_ne
  have nearest : ∀ body further : Text, body ≠ [] →
      (body.reverse ++ further).head?.any tables.isWord = body.reverse.head?.any tables.isWord := by
    intro body further body_ne
    cases reversed : body.reverse with
    | nil => exact absurd (List.reverse_eq_nil_iff.mp reversed) body_ne
    | cons last others => rfl
  refine ⟨digits, secret, by simpa using removed_eq, ⟨digits_least, digits_most 12 rfl, digits_all⟩,
    ?_, ⟨secret_least, secret_all⟩, ?_, ?_⟩
  · rw [AtBoundary, ← rest_eq, any_head?_of_decimals lawful digits_all digits_ne] at starts
    exact Bool.eq_false_iff.mpr starts
  · rw [AtBoundary, nearest secret _ secret_ne] at ends
    exact ends
  · intro longer rest longer_eq longer_spec longer_ends
    refine longest longer rest ([], rest) ?_ ?_
    · exact mem_takings_run.mpr ⟨longer_eq, longer_spec.2, longer_spec.1⟩
    · refine mem_takings_seq.mpr ⟨[], rest, [], rfl, mem_takings_boundary.mpr ⟨?_, rfl, rfl⟩,
        mem_takings_empty.mpr ⟨rfl, rfl⟩⟩
      rw [AtBoundary, nearest longer _ longer_spec.ne_nil]
      exact longer_ends

/-- A token that begins a word and reaches the end of one is found. -/
theorem exists_find_of_token (lawful : tables.Lawful) (number : IsTokenNumber tables digits)
    (outer : Outside tables front digits) (ends : EndsToken tables rest) :
    ∃ found, (telegramTokenPattern tables).rule.find front.reverse (digits ++ ':' :: rest) =
      some found := by
  rcases ends with ⟨secret, behind, rfl, spec, boundary⟩
  have occurs : (⟨[], digits ++ ':' :: secret, redactedMark, []⟩ : Found Char) ∈
      (telegramTokenPattern tables).occurrences front.reverse
        (digits ++ ':' :: (secret ++ behind)) := by
    refine mem_occurrences_token.mpr ⟨rfl, rfl, rfl, digits, secret, behind, rfl, rfl, number, spec,
      ?_, ?_⟩
    · rw [AtBoundary, show front.reverse.head?.any tables.isWord = false from outer,
        any_head?_of_decimals lawful number.2.2 number.ne_nil]
      exact Bool.false_ne_true
    · rw [AtBoundary] at boundary ⊢
      rcases reversed : secret.reverse with _ | ⟨last, others⟩
      · exact absurd (List.reverse_eq_nil_iff.mp reversed) spec.ne_nil
      · simpa [reversed] using boundary
  exact Pattern.exists_find_of_mem occurs

end Shape

section Colons

variable {front rest digits secret body behind : Text}

theorem TakesSecret.unique {after : Text} (takes : TakesSecret tables secret behind)
    (takes' : TakesSecret tables body after) (same : secret ++ behind = body ++ after) :
    secret = body ∧ behind = after :=
  List.append_inj same (Nat.le_antisymm
    (takes'.longest secret behind same takes.spec takes.ends)
    (takes.longest body after same.symm takes'.spec takes'.ends))

/-- A secret that ends in front of a colon is taken as a whole. -/
theorem TakesColon.covers (takes : TakesColon tables front (body ++ ':' :: rest))
    (spec : IsTokenSecret body) (boundary : AtBoundary tables.isWord body.reverse (':' :: rest)) :
    ∃ before digits, front = before ++ digits ∧
      (telegramTokenPattern tables).rule.Replaces before (digits ++ ':' :: body) (':' :: rest) := by
  rcases takes with ⟨before, digits, secret, after, rfl, rest_eq, replaces, _, _, secret_spec⟩
  have length_le := secret_spec.longest body (':' :: rest) rest_eq spec boundary
  have begins : secret <+: body := prefix_of_append_cons secret_spec.spec.colon_absent
    (rest_eq ▸ List.prefix_append secret after)
  have secret_eq := begins.eq_of_length_le length_le
  subst secret_eq
  cases List.append_cancel_left rest_eq
  exact ⟨before, digits, rfl, replaces⟩

theorem boundary_of_last (lawful : tables.Lawful) (rest : Text)
    (last : body.reverse.head?.any tables.isWord = true) :
    AtBoundary tables.isWord body.reverse (':' :: rest) := by
  rw [AtBoundary, last, List.head?_cons, Option.any_some, isWord_colon lawful]
  exact Bool.false_ne_true.symm

/-- The secret in front of the digits of a token ends with them. -/
theorem digits_suffix_of_eq (lawful : tables.Lawful) {before : Text}
    (number : IsTokenNumber tables digits) (whole : before ++ digits = front ++ ':' :: body) :
    digits <:+ body ∧ body.reverse.head?.any tables.isWord = true := by
  have suffix : digits <:+ body := suffix_of_append_cons (number.colon_absent lawful)
    (whole ▸ List.suffix_append before digits)
  rcases suffix with ⟨inside, rfl⟩
  exact ⟨List.suffix_append inside digits,
    any_last_of_decimals lawful number.2.2 number.ne_nil inside⟩

/--
A token is removed where one starts and ends, unless the secret of a token before it runs
into its digits.
-/
theorem takesColon_iff (lawful : tables.Lawful) : TakesColon tables front rest ↔
    StartsToken tables (Outside tables) front ∧ EndsToken tables rest ∧
      ¬RunsInto (StartsToken tables (Outside tables)) front := by
  induction length_eq : front.length using Nat.strongRecOn generalizing front rest with
  | ind length ih =>
  subst length_eq
  constructor
  · rintro ⟨before, digits, secret, after, rfl, rfl, replaces, number, outer, secret_spec⟩
    refine ⟨⟨before, digits, rfl, number, outer⟩, ⟨secret, after, rfl, secret_spec.spec,
      secret_spec.ends⟩, fun runs => ?_⟩
    rw [RunsInto] at runs
    rcases runs with ⟨first, body, whole, body_spec, starts, not_runs⟩
    rcases digits_suffix_of_eq lawful number whole with ⟨suffix, last⟩
    have lengths := congrArg List.length whole
    have suffix_le := suffix.length_le
    have digits_pos := List.length_pos_iff.mpr number.ne_nil
    simp only [List.length_append, List.length_cons] at lengths
    have less : first.length < (before ++ digits).length := by
      rw [List.length_append]
      omega
    have takes : TakesColon tables first (body ++ ':' :: (secret ++ after)) :=
      (ih first.length less rfl).mpr ⟨starts, endsToken_of_last lawful body_spec _ last, not_runs⟩
    rcases takes.covers body_spec (boundary_of_last lawful _ last) with
      ⟨before', digits', rfl, replaces'⟩
    have same : before' ++ ((digits' ++ ':' :: body) ++ ':' :: (secret ++ after)) =
        before ++ ((digits ++ ':' :: secret) ++ after) := by
      simpa using congrArg (· ++ ':' :: (secret ++ after)) whole.symm
    rw [List.length_append] at lengths
    have ends := replaces'.apart replaces same (by omega)
    rw [List.length_append, List.length_cons] at ends
    omega
  · rintro ⟨⟨before, digits, rfl, number, outer⟩, ends, not_runs⟩
    rcases exists_find_of_token lawful number outer ends with ⟨found, finds⟩
    rcases token_bare.exists_replaces finds with
      ⟨first, reached, removed, after, rfl, replaces, whole, long⟩
    rcases shape_of_token_replaces lawful replaces with
      ⟨name, body, rfl, name_spec, name_outer, body_spec⟩
    rw [List.append_assoc, List.cons_append] at whole
    by_cases colon_mem : ':' ∈ reached
    · -- The secret of the token that is removed would run into the digits.
      rcases List.eq_append_cons_of_mem colon_mem with ⟨ahead, begun, rfl, ahead_plain⟩
      rw [List.append_assoc ahead, List.cons_append] at whole
      rcases append_cons_inj_of_first (name_spec.colon_absent lawful) ahead_plain whole with
        ⟨rfl, rest_eq⟩
      rcases List.append_eq_append_iff.mp rest_eq with ⟨_, rfl, _⟩ | ⟨taken, rfl, digits_eq⟩
      · simp at long
      have taken_ne : taken ≠ [] := by
        rintro rfl
        simp at long
      have taken_absent : ':' ∉ taken := fun colon_mem =>
        body_spec.spec.colon_absent (List.mem_append_right begun colon_mem)
      rcases prefix_of_append_cons taken_absent (digits_eq ▸ List.prefix_append taken after) with
        ⟨left, rfl⟩
      have after_eq : after = left ++ ':' :: rest := by
        simpa using digits_eq.symm
      have left_nil : left = [] := by
        by_contra left_ne
        refine body_spec.ends ?_
        rw [after_eq, any_head?_of_decimals lawful
          (fun digit digit_mem => number.2.2 digit (List.mem_append_right _ digit_mem)) left_ne,
          any_last_of_decimals lawful
          (fun digit digit_mem => number.2.2 digit (List.mem_append_left _ digit_mem)) taken_ne]
      have takes : TakesColon tables (first ++ name) ((begun ++ taken) ++ after) :=
        ⟨first, name, begun ++ taken, after, rfl, rfl, replaces, name_spec, name_outer, body_spec⟩
      have less : (first ++ name).length <
          ((first ++ (name ++ ':' :: begun)) ++ (taken ++ left)).length := by
        simp only [List.length_append, List.length_cons]
        omega
      refine absurd ?_ not_runs
      rw [RunsInto]
      refine ⟨first ++ name, begun ++ taken, ?_, body_spec.spec, ⟨first, name, rfl, name_spec,
        name_outer⟩, ((ih _ less rfl).mp takes).2.2⟩
      simp [left_nil]
    · have front_absent : ':' ∉ reached ++ digits := by
        rw [List.mem_append, not_or]
        exact ⟨colon_mem, number.colon_absent lawful⟩
      rw [← List.append_assoc] at whole
      rcases append_cons_inj_of_first (name_spec.colon_absent lawful) front_absent whole with
        ⟨rfl, rest_eq⟩
      exact ⟨first, reached ++ digits, body, after, by simp, rest_eq.symm, replaces, name_spec,
        name_outer, body_spec⟩

/-- A secret that runs into a text is removed to the end of it. -/
theorem RunsInto.exists_replaces (lawful : tables.Lawful) (rest : Text)
    (runs : RunsInto (StartsToken tables (Outside tables)) front)
    (last : front.reverse.head?.any tables.isWord = true) :
    ∃ before removed, front = before ++ removed ∧ 30 ≤ removed.length ∧
      (telegramTokenPattern tables).rule.Replaces before removed (':' :: rest) := by
  rw [RunsInto] at runs
  rcases runs with ⟨first, body, rfl, body_spec, starts, not_runs⟩
  have last_body : body.reverse.head?.any tables.isWord = true := by
    rw [List.reverse_append, List.reverse_cons, List.append_assoc] at last
    cases reversed : body.reverse with
    | nil => exact absurd (List.reverse_eq_nil_iff.mp reversed) body_spec.ne_nil
    | cons character others =>
        rw [reversed] at last
        exact last
  have takes := (takesColon_iff lawful).mpr
    ⟨starts, endsToken_of_last lawful body_spec rest last_body, not_runs⟩
  rcases takes.covers body_spec (boundary_of_last lawful rest last_body) with
    ⟨before, digits, rfl, replaces⟩
  refine ⟨before, digits ++ ':' :: body, by simp, ?_, replaces⟩
  have long := body_spec.1
  rw [List.length_append, List.length_cons]
  omega

/-- Where the end of a secret belongs to the next token, that one is removed. -/
theorem TailTaken.exists_replaces (lawful : tables.Lawful) (spec : IsTokenSecret secret)
    (tail : TailTaken tables secret behind)
    (not_both : ¬(StartsToken tables (Outside tables) front ∧ EndsToken tables (secret ++ behind) ∧
      ¬RunsInto (StartsToken tables (Outside tables)) front)) :
    ∃ begun taken removed after, secret = begun ++ taken ∧ taken ≠ [] ∧
      taken ++ behind = removed ++ after ∧
        (telegramTokenPattern tables).rule.Replaces (front ++ ':' :: begun) removed after := by
  rcases tail with ⟨begun, digits, more, rest, rfl, rfl, digits_ne, number, outer, ends⟩
  have long := spec.1
  have short := number.2.1
  simp only [List.length_append] at long short
  have begun_ne : begun ≠ [] := by
    rintro rfl
    simp at long
    omega
  have outer_whole : Outside tables (front ++ ':' :: begun) (digits ++ more) := by
    rw [Outside] at outer ⊢
    rw [List.reverse_append, List.reverse_cons, List.append_assoc]
    cases reversed : begun.reverse with
    | nil => exact absurd (List.reverse_eq_nil_iff.mp reversed) begun_ne
    | cons character others =>
        rw [reversed] at outer
        exact outer
  have starts : StartsToken tables (Outside tables)
      ((front ++ ':' :: begun) ++ (digits ++ more)) :=
    ⟨front ++ ':' :: begun, digits ++ more, rfl, number, outer_whole⟩
  have not_runs : ¬RunsInto (StartsToken tables (Outside tables))
      ((front ++ ':' :: begun) ++ (digits ++ more)) := by
    intro runs
    rw [RunsInto] at runs
    rcases runs with ⟨first, body, whole, body_spec, starts_first, not_runs_first⟩
    have absent : ':' ∉ begun ++ (digits ++ more) := by
      rw [← List.append_assoc, List.mem_append, not_or]
      exact ⟨spec.colon_absent, fun colon_mem => number.colon_absent lawful
        (List.mem_append_right _ colon_mem)⟩
    have parts : front ++ ':' :: (begun ++ (digits ++ more)) = first ++ ':' :: body := by
      simpa using whole
    rcases append_cons_inj_of_last absent body_spec.colon_absent parts with ⟨rfl, rfl⟩
    have last : (begun ++ (digits ++ more)).reverse.head?.any tables.isWord = true :=
      any_last_of_decimals lawful number.2.2 number.ne_nil begun
    have ends_first := endsToken_of_last lawful body_spec rest last
    exact not_both ⟨starts_first, by simpa using ends_first, not_runs_first⟩
  rcases (takesColon_iff lawful).mpr ⟨starts, ends, not_runs⟩ with
    ⟨before, digits', secret, after, whole, rfl, replaces, number', outer', _⟩
  rcases number_inj lawful whole number number' outer_whole outer' with ⟨rfl, rfl⟩
  exact ⟨begun, digits, _, after, rfl, digits_ne, by simp, replaces⟩

/-- What is taken of the digits before a colon is all of them. -/
theorem nothing_left (lawful : tables.Lawful) {first left after : Text}
    (number : IsTokenNumber tables digits)
    (whole : front ++ digits = first ++ ':' :: (body ++ left))
    (ends : AtBoundary tables.isWord body.reverse after) (after_eq : after = left ++ ':' :: rest)
    (less : left.length < digits.length) : left = [] := by
  rcases digits_suffix_of_eq lawful number whole with ⟨suffix, _⟩
  rcases List.suffix_of_suffix_length_le (List.suffix_append body left) suffix less.le with
    ⟨taken, rfl⟩
  rcases suffix with ⟨begun, body_eq⟩
  rw [← List.append_assoc] at body_eq
  have taken_ne : taken ≠ [] := by
    rintro rfl
    simp at less
  by_contra left_ne
  refine ends ?_
  rw [after_eq, any_head?_of_decimals lawful
    (fun digit digit_mem => number.2.2 digit (List.mem_append_right _ digit_mem)) left_ne,
    ← List.append_cancel_right body_eq, any_last_of_decimals lawful
    (fun digit digit_mem => number.2.2 digit (List.mem_append_left _ digit_mem)) taken_ne]

/--
A token is kept where nothing before it takes its digits, nothing behind it the end of its
secret, and it does not begin and end as a token has to.
-/
theorem token_keeps_iff (lawful : tables.Lawful) (number : IsTokenNumber tables digits)
    (spec : IsTokenSecret secret) :
    (telegramTokenPattern tables).rule.Keeps front (digits ++ ':' :: secret) behind ↔
      ¬RunsInto (StartsToken tables (Outside tables)) (front ++ digits) ∧
        ¬TailTaken tables secret behind ∧
          ¬(StartsToken tables (Outside tables) (front ++ digits) ∧
            EndsToken tables (secret ++ behind)) := by
  constructor
  · intro keeps
    have not_runs : ¬RunsInto (StartsToken tables (Outside tables)) (front ++ digits) := by
      intro runs
      rcases runs.exists_replaces lawful (secret ++ behind)
        (any_last_of_decimals lawful number.2.2 number.ne_nil front) with
        ⟨before, removed, whole, long, replaces⟩
      have lengths := congrArg List.length whole
      have short := number.2.1
      have positive := number.1
      simp only [List.length_append] at lengths
      refine keeps.not_meets replaces ?_ ⟨?_, ?_⟩
      · simpa using congrArg (· ++ ':' :: (secret ++ behind)) whole.symm
      · rw [List.length_append]
        omega
      · omega
    have not_both : ¬(StartsToken tables (Outside tables) (front ++ digits) ∧
        EndsToken tables (secret ++ behind)) := by
      rintro ⟨starts, ends⟩
      rcases (takesColon_iff lawful).mpr ⟨starts, ends, not_runs⟩ with
        ⟨before, digits', secret', after, whole, rest_eq, replaces, _, _, _⟩
      have lengths := congrArg List.length whole
      have positive := number.1
      simp only [List.length_append] at lengths
      refine keeps.not_meets replaces ?_ ⟨?_, ?_⟩
      · have joined : (before ++ digits') ++ ':' :: (secret' ++ after) =
            (front ++ digits) ++ ':' :: (secret ++ behind) := by
          rw [whole, rest_eq]
        simpa using joined
      · rw [List.length_append, List.length_cons]
        omega
      · rw [List.length_append, List.length_cons]
        omega
    refine ⟨not_runs, fun tail => ?_, not_both⟩
    have not_taken : ¬(StartsToken tables (Outside tables) (front ++ digits) ∧
        EndsToken tables (secret ++ behind) ∧
          ¬RunsInto (StartsToken tables (Outside tables)) (front ++ digits)) :=
      fun taken => not_both ⟨taken.1, taken.2.1⟩
    rcases tail.exists_replaces lawful spec not_taken with
      ⟨begun, taken, removed, after, rfl, taken_ne, rest_eq, replaces⟩
    have taken_pos := List.length_pos_iff.mpr taken_ne
    have removed_pos := List.length_pos_iff.mpr replaces.removed_ne_nil
    refine keeps.not_meets replaces ?_ ⟨?_, ?_⟩
    · rw [← rest_eq]
      simp
    · simp only [List.length_append, List.length_cons]
      omega
    · simp only [List.length_append, List.length_cons]
      omega
  · rintro ⟨not_runs, not_tail, not_both⟩
    rcases (telegramTokenPattern tables).rule.keeps_or_meets front (digits ++ ':' :: secret) behind
      with keeps | ⟨before, removed, after, replaces, same, starts, reaches⟩
    · exact keeps
    exfalso
    rcases shape_of_token_replaces lawful replaces with
      ⟨name, body, rfl, name_spec, name_outer, body_spec⟩
    have takes : TakesColon tables (before ++ name) (body ++ after) :=
      ⟨before, name, body, after, rfl, rfl, replaces, name_spec, name_outer, body_spec⟩
    rcases (takesColon_iff lawful).mp takes with ⟨starts_name, ends_body, not_runs_name⟩
    have parts : (before ++ name) ++ ':' :: (body ++ after) =
        (front ++ digits) ++ ':' :: (secret ++ behind) := by
      simpa using same
    simp only [List.length_append, List.length_cons] at starts reaches
    rcases List.append_eq_append_iff.mp parts with ⟨between, front_eq, rest_eq⟩ |
      ⟨between, name_eq, rest_eq⟩
    · cases between with
      | nil =>
          rw [List.append_nil] at front_eq
          rw [← front_eq] at starts_name
          rw [(List.cons.inj rest_eq).2] at ends_body
          exact not_both ⟨starts_name, ends_body⟩
      | cons colon between =>
          rw [List.cons_append, List.cons.injEq] at rest_eq
          rcases rest_eq with ⟨rfl, rest_eq⟩
          rcases prefix_of_append_cons body_spec.spec.colon_absent
            (rest_eq ▸ List.prefix_append body after) with ⟨left, rfl⟩
          have after_eq : after = left ++ ':' :: (secret ++ behind) := by
            simpa using rest_eq
          have left_nil := nothing_left lawful number front_eq body_spec.ends after_eq
            (by have lengths := congrArg List.length front_eq
                simp only [List.length_append, List.length_cons] at lengths
                omega)
          refine not_runs ?_
          rw [RunsInto]
          exact ⟨before ++ name, body, by rw [front_eq, left_nil, List.append_nil],
            body_spec.spec, starts_name, not_runs_name⟩
    · cases between with
      | nil =>
          rw [List.append_nil] at name_eq
          rw [name_eq] at starts_name
          rw [← (List.cons.inj rest_eq).2] at ends_body
          exact not_both ⟨starts_name, ends_body⟩
      | cons colon between =>
          rw [List.cons_append, List.cons.injEq] at rest_eq
          rcases rest_eq with ⟨rfl, rest_eq⟩
          rcases prefix_of_append_cons spec.colon_absent
            (rest_eq ▸ List.prefix_append secret behind) with ⟨more, rfl⟩
          have behind_eq : behind = more ++ ':' :: (body ++ after) := by
            simpa using rest_eq
          have lengths := congrArg List.length name_eq
          simp only [List.length_append, List.length_cons] at lengths
          rcases digits_suffix_of_eq lawful name_spec name_eq with ⟨suffix, _⟩
          rcases List.suffix_of_suffix_length_le (List.suffix_append secret more) suffix
            (by omega) with ⟨taken, rfl⟩
          rcases suffix with ⟨begun, secret_eq⟩
          rw [← List.append_assoc] at secret_eq
          have begun_eq := List.append_cancel_right secret_eq
          have joined : before ++ (taken ++ more) =
              ((front ++ digits) ++ ':' :: begun) ++ (taken ++ more) := by
            rw [← begun_eq] at name_eq
            simpa using name_eq
          have before_eq := List.append_cancel_right joined
          refine not_tail ⟨begun, taken, more, body ++ after, begun_eq.symm, behind_eq, ?_,
            name_spec, ?_, ends_body⟩
          · rintro rfl
            simp only [List.nil_append] at lengths starts
            omega
          · rw [Outside, before_eq, List.reverse_append, List.reverse_cons,
              List.append_assoc] at name_outer
            rw [Outside]
            cases reversed : begun.reverse with
            | nil => rfl
            | cons character others =>
                rw [reversed] at name_outer
                exact name_outer

end Colons

end CopyMint
