import CopyMint.Observability.CredentialUrls

/-!
# Credentials in redacted text

A credential is a bot token, or the beginning of an address with a user and a password. It
is not seen where its own expression finds it and the secret does not come about in another
place. Where the later expressions find nothing, one that is not found is seen: a token
behind a letter, as in the addresses of a bot's methods, and a password without a user.
-/

namespace CopyMint

open Hexadecimal Substitution Regex

variable {tables : CharacterTables}

/-- What must not be seen in a log. -/
inductive Credential where
  /-- `number:secret`. -/
  | botToken (number secret : Text)
  /-- `scheme://user:password@`. -/
  | address (scheme user password : Text)

/--
Wherever a token stands in a text, it is removed as one that begins a word and reaches the
end of one, or something else that is removed takes a part of it: what a bearer presents,
the secret of a token before it, or the number of one behind it.
-/
def TokenFound (tables : CharacterTables) (text number secret : Text) : Prop :=
  ∀ before other behind, before ++ (number ++ ':' :: other) ++ behind = text →
    Spells tables secret other behind →
      (StartsToken tables (Opens tables) (before ++ number) ∧ EndsToken tables (other ++ behind)) ∨
        Taken tables before number ∨
          RunsInto (StartsToken tables (Opens tables)) (before ++ number) ∨
            TailTaken tables other behind

namespace Credential

/-- The credential as it is written. -/
def text : Credential → Text
  | botToken number secret => number ++ ':' :: secret
  | address scheme user password =>
      scheme ++ ("://".toList ++ (user ++ ':' :: (password ++ ['@'])))

/-- The part that must not be seen. -/
def hidden : Credential → Text
  | botToken number secret => number ++ ':' :: secret
  | address _ _ password => password

/-- A token has the digits and the secret of one, and an address a scheme and a password. -/
def WellFormed (tables : CharacterTables) : Credential → Prop
  | botToken number secret => IsTokenNumber tables number ∧ IsTokenSecret secret
  | address scheme user password =>
      scheme ∈ urlSchemes ∧ (∀ character ∈ user, IsUserinfoCharacter tables character) ∧
        password ≠ [] ∧ ∀ character ∈ password, IsUserinfoCharacter tables character

variable (tables : CharacterTables) (pre post : Text)

/-- A credential that the text around it does not have is not seen after redaction. -/
def Unseen (credential : Credential) : Prop :=
  ¬credential.hidden <:+: pre → ¬credential.hidden <:+: post →
    ¬credential.hidden <:+: redactedMark →
      ¬credential.hidden <:+: redactText tables (pre ++ credential.text ++ post)

/-- The expression for the credential finds it. -/
def Found : Credential → Prop
  | botToken number secret =>
      TokenFound tables (pre ++ (botToken number secret).text ++ post) number secret
  | address scheme user password => AddressFound tables (pre ++ scheme) user password

/-- The secret stands in no other place, and does not come about in one. -/
def Clear : Credential → Prop
  | botToken _ _ => True
  | address scheme user password => AddressClear tables (pre ++ scheme) user password post

/-- The later expressions find nothing that hides the credential after all. -/
def Exposed (credential : Credential) : Prop :=
  Quiet tables (pre ++ credential.text ++ post) ∧
    match credential with
    | botToken _ _ => Lacks tables (urlScheme tables) [':'] (pre ++ credential.text ++ post)
    | address _ _ _ => True

end Credential

section Tokens

variable {text number secret : Text}

/-- A token that is found wherever it stands is not in the result. -/
theorem token_unseen (lawful : tables.Lawful) (number_spec : IsTokenNumber tables number)
    (secret_spec : IsTokenSecret secret) (found : TokenFound tables text number secret) :
    ¬(number ++ ':' :: secret) <:+: redactText tables text := by
  have apart := token_apart lawful number_spec secret_spec
  intro occurs
  rw [redactText_eq] at occurs
  rcases (token_infix_iff lawful number_spec secret_spec).mp (Pattern.infix_of_infix_sub apart
    (Pattern.infix_of_infix_sub apart (Pattern.infix_of_infix_sub apart occurs))) with
    ⟨before, other, behind, whole, spells, not_taken, not_runs, not_tail, not_both⟩
  rcases found before other behind whole spells with both | taken | runs | tail
  · exact not_both both
  · exact not_taken taken
  · exact not_runs runs
  · exact not_tail tail

/-- Where the later expressions find nothing, a token that is not found somewhere is seen. -/
theorem token_seen (lawful : tables.Lawful) (number_spec : IsTokenNumber tables number)
    (secret_spec : IsTokenSecret secret) (quiet : Quiet tables text)
    (lacks : Lacks tables (urlScheme tables) [':'] text)
    (not_found : ¬TokenFound tables text number secret) :
    (number ++ ':' :: secret) <:+: redactText tables text := by
  have quiet := ((quiet.earlier lawful).1.earlier lawful).2.1
  have shuns := urlScheme_shuns_mark lawful (show ']' ∈ [':', '/', '@', ']'] by decide)
  have heading : ∀ sign ∈ [':'], sign ∉ "Bearer ".toList ++ redactedMark :=
    forall_mem_of_all (by decide)
  have mark : ∀ sign ∈ [':'], sign ∉ redactedMark := forall_mem_of_all (by decide)
  have lacks_bearer : Lacks tables (urlScheme tables) [':']
      ((bearerPattern tables).rule.sub text) :=
    lacks.sub shuns (isSpace_bracket lawful) ⟨"Bearer [REDACTED".toList, rfl⟩ heading
  have lacks_token : Lacks tables (urlScheme tables) [':'] ((telegramTokenPattern tables).rule.sub
      ((bearerPattern tables).rule.sub text)) :=
    lacks_bearer.sub shuns (isSpace_bracket lawful) ⟨"[REDACTED".toList, rfl⟩ mark
  rw [redactText_eq, credentialUrl_sub_eq_self lacks_token, quiet.sub_eq_self.1,
    quiet.sub_eq_self.2]
  refine (token_infix_iff lawful number_spec secret_spec).mpr ?_
  by_contra nowhere
  refine not_found fun before other behind whole spells => ?_
  by_contra missed
  simp only [not_or] at missed
  exact nowhere ⟨before, other, behind, whole, spells, missed.2.1, missed.2.2.1, missed.2.2.2,
    missed.1⟩

/-- A token with the only colon of the text has only one place to be looked for. -/
theorem tokenFound_of_one_colon {pre post : Text} (front_plain : ':' ∉ pre ++ number)
    (behind_plain : ':' ∉ secret ++ post)
    (starts : StartsToken tables (Opens tables) (pre ++ number))
    (ends : EndsToken tables (secret ++ post)) :
    TokenFound tables (pre ++ (number ++ ':' :: secret) ++ post) number secret := by
  intro before other behind whole _
  have parts : (pre ++ number) ++ ':' :: (secret ++ post) =
      (before ++ number) ++ ':' :: (other ++ behind) := by
    simpa using whole.symm
  rcases (List.append_cons_inj_of_notMem front_plain behind_plain).mp parts with
    ⟨front_eq, _, behind_eq⟩
  rw [← front_eq, ← behind_eq]
  exact .inl ⟨starts, ends⟩

end Tokens

section Samples

theorem asciiTables_lawful : asciiTables.Lawful where
  isAlnum_ascii _ _ := rfl
  isDecimal_ascii character _ := by
    simp only [CharacterTables.isDecimal, asciiTables]
    cases character.isDigit <;> rfl
  isSpace_graphic character large small :=
    @of_ascii (fun character => 32 < character.toNat → Hexadecimal.isSpace character = false)
      (by decide +kernel) character (by omega) large
  isSpace_space := by decide
  isSpace_cased := forall_mem_of_all (by decide)
  isAlnum_space character blank := by
    have blank_mem : character ∈ [' ', '\t', '\n', '\r', '\x0b', '\x0c'] :=
      of_decide_eq_true blank
    have classes : ∀ space ∈ [' ', '\t', '\n', '\r', '\x0b', '\x0c'],
        Char.isAlphanum space = false :=
      forall_mem_of_all (by decide)
    exact classes character blank_mem
  isAlnum_decimal character decimal := by
    simp only [CharacterTables.isDecimal, asciiTables] at decimal ⊢
    cases digit : character.isDigit with
    | true => rw [Char.isAlphanum, digit, Bool.or_true]
    | false =>
        rw [digit] at decimal
        cases decimal

/-- A token of the form that bots have. -/
def sampleBotToken : Credential :=
  .botToken "123456789".toList "AAHdqTcvCH1vGWJxfSeofSAs0K5PALDsaw0".toList

/-- An address with the password `hunter2`. -/
def sampleUrl (scheme user : String) : Credential :=
  .address scheme.toList user.toList "hunter2".toList

theorem sampleBotToken_wellFormed : sampleBotToken.WellFormed asciiTables :=
  ⟨⟨by decide, by decide, forall_mem_of_all (by decide)⟩, by decide,
    forall_mem_of_all (by decide)⟩

theorem sampleUrl_wellFormed (scheme user : String) (scheme_mem : scheme.toList ∈ urlSchemes)
    (plain : ∀ character ∈ user.toList, IsUserinfoCharacter asciiTables character) :
    (sampleUrl scheme user).WellFormed asciiTables := by
  have password_plain : ∀ character ∈ "hunter2".toList,
      asciiTables.isSpace character = false ∧ character ∉ ['/', ':', '@'] :=
    forall_mem_of_all (by decide)
  exact ⟨scheme_mem, plain, by decide, password_plain⟩

theorem Announces.exists_letter {front spelled blanks : Text}
    (announces : Announces tables front spelled blanks) :
    ∃ letter ∈ spelled, letter.toLower = 'b' := by
  rcases List.map_eq_cons_iff.mp announces.spelled_eq with ⟨letter, others, rfl, same, _⟩
  exact ⟨letter, List.mem_cons_self, same⟩

/-- Nothing is presented in a text without a letter of `Bearer`. -/
theorem not_presented_of_absent {text : Text} (absent : ∀ character ∈ text, character.toLower ≠ 'b') :
    ¬Presented tables text := by
  rw [Presented]
  rintro ⟨front, spelled, blanks, value, rfl, announces, _⟩
  rcases announces.exists_letter with ⟨letter, letter_mem, same⟩
  exact absent letter (by simp [letter_mem]) same

theorem not_joinsBearer_of_absent {word text : Text}
    (absent : ∀ character ∈ text, character.toLower ≠ 'b') : ¬JoinsBearer tables word text := by
  rintro ⟨front, removed, behind, rfl, presents, _⟩
  rcases presents.parts with ⟨spelled, blanks, value, rfl, announces, _⟩
  rcases announces.exists_letter with ⟨letter, letter_mem, same⟩
  exact absent letter (by simp [letter_mem]) same

theorem not_joinsToken_of_short {word text : Text} (short : text.length < 30) :
    ¬JoinsToken tables word text := by
  rintro ⟨front, digits, secret, behind, rfl, _, _, takes, _⟩
  have long := takes.spec.1
  simp only [List.length_append, List.length_cons] at short
  omega

theorem sampleBotToken_exposed : sampleBotToken.Found asciiTables "token ".toList " used".toList ∧
    sampleBotToken.Exposed asciiTables "token ".toList " used".toList := by
  refine ⟨tokenFound_of_one_colon (by decide) (by decide) ?_ ?_, ⟨?_, ?_⟩, ?_⟩
  · exact ⟨"token ".toList, _, rfl, sampleBotToken_wellFormed.1,
      .inr ⟨not_presented_of_absent (forall_mem_of_all (by decide)), by decide⟩⟩
  · exact ⟨_, " used".toList, rfl, sampleBotToken_wellFormed.2, by decide⟩
  · exact .of_absent (forall_mem_of_all (by decide))
  · exact .of_shuns (by decide) (by decide)
  · intro front word blanks sign behind sign_mem whole _ taking
    cases List.mem_singleton.mp sign_mem
    have parts : "token 123456789".toList ++
        ':' :: ("AAHdqTcvCH1vGWJxfSeofSAs0K5PALDsaw0".toList ++ " used".toList) =
          (front ++ (word ++ blanks)) ++ ':' :: behind := by
      refine Eq.trans ?_ (whole.trans (by simp))
      decide
    rcases IsUrlScheme.exists_cons taking with ⟨first, others, rfl, first_mem⟩
    have front_eq := ((List.append_cons_inj_of_notMem (by decide) (by decide)).mp parts).1
    have letters : ∀ character ∈ "token 123456789".toList, character.toLower ∉ ['p', 'r'] :=
      forall_mem_of_all (by decide)
    exact letters first (front_eq ▸ by simp) first_mem

theorem sampleUrl_clear :
    (sampleUrl "postgresql" "app1").Found asciiTables "<".toList "> ok".toList ∧
      (sampleUrl "postgresql" "app1").Clear asciiTables "<".toList "> ok".toList ∧
        (sampleUrl "postgresql" "app1").Exposed asciiTables "<".toList "> ok".toList := by
  refine ⟨.whole ?_ (by decide) ?_, ⟨by decide, ?_, ?_, .inl ?_⟩, ⟨?_, ?_⟩, trivial⟩
  · rintro before after ⟨digits, secret, user_eq, _, number, _⟩
    have lengths := congrArg List.length user_eq
    have six := number.1
    rw [List.length_append, show "app1".toList.length = 4 by decide] at lengths
    omega
  · refine ⟨"<".toList, "postgresql".toList, rfl, isUrlScheme_of_mem (by decide), rfl,
      not_presented_of_absent (forall_mem_of_all (by decide)), ?_⟩
    rintro ⟨first, inside, _, _, front_eq, _⟩
    have colon_mem : ':' ∈ "<".toList := by
      rw [front_eq]
      simp
    exact absurd colon_mem (by decide)
  · have letters : ∀ text ∈ ["<postgresql".toList, "> ok".toList],
        text.all (fun character => decide (character.toLower ≠ 'b')) = true := by
      decide
    exact fun text text_mem => not_joinsBearer_of_absent (forall_mem_of_all (letters text text_mem))
  · have short : ∀ text ∈ ["<postgresql:".toList, "> ok".toList], text.length < 30 := by
      decide
    exact fun text text_mem => not_joinsToken_of_short (short text text_mem)
  · exact not_joinsValue_of_absent (forall_mem_of_all (by decide))
  · exact .of_absent (forall_mem_of_all (by decide))
  · exact .of_shuns (by decide) (by decide)

end Samples

end CopyMint
