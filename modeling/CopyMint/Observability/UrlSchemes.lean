import CopyMint.Observability.BotTokens

/-!
# Addresses with credentials

The third expression looks for the name of a scheme that begins a word, with a user and a
password behind its slashes. The first two expressions leave such a name at the end of a
text, unless what a bearer presents or the secret of a token goes on into it.
-/

namespace CopyMint

open Hexadecimal Substitution Regex

variable {tables : CharacterTables}

/-- The schemes of the addresses that have credentials. -/
def urlSchemes : List Text :=
  ["postgres".toList, "postgresql".toList, "redis".toList, "rediss".toList]

/-- A name that the third expression takes for a scheme, in any case and with any dialect. -/
def IsUrlScheme (tables : CharacterTables) (name : Text) : Prop :=
  (name, []) ∈ (urlScheme tables).takings [] name

/-- The secret of a token that is removed goes on into the word behind the text. -/
def TokenReaches (tables : CharacterTables) (starts : Text → Prop) (front word : Text) : Prop :=
  ∃ first inside body after, front = first ++ ':' :: inside ∧
    body ++ after = inside ++ (word ++ [':']) ∧ starts first ∧ ¬RunsInto starts first ∧
      TakesSecret tables body after ∧ inside.length < body.length

/-- A scheme ends the text and begins a word, and nothing that is removed goes on into it. -/
def SchemeStands (tables : CharacterTables) (text : Text) : Prop :=
  ∃ front name, text = front ++ name ∧ IsUrlScheme tables name ∧ Outside tables front name ∧
    ¬Presented tables front ∧ ¬TokenReaches tables (StartsToken tables (Opens tables)) front name

/-- What the third expression has found behind a text. -/
structure IsFoundUrl (tables : CharacterTables) (before : Text) (found : Found Char) : Prop where
  written_eq : found.written = redactedMark
  closing_eq : found.closing = ['@']
  opening : ∃ name, found.opening = name ++ "://".toList ∧ IsUrlScheme tables name
  outer : before.reverse.head?.any tables.isWord = false
  parts : ∃ user password, found.removed = user ++ ':' :: password ∧ user ≠ []
  slash_absent : '/' ∉ found.removed
  at_absent : '@' ∉ found.removed

section Names

theorem unbound_ignoringCase (text : String) : (ignoringCase text).Unbound := by
  refine unbound_concat.mpr ?_
  intro regex regex_mem
  rcases List.mem_map.mp regex_mem with ⟨letter, _, rfl⟩
  trivial

theorem urlScheme_unbound : (urlScheme tables).Unbound := by
  have dialect : (optional (concat [.one (· = '+'), .many 1 none tables.isWord])).Unbound :=
    ⟨unbound_concat.mpr (by simp [Unbound]), trivial⟩
  have postgres : (concat [ignoringCase "postgres", optional (ignoringCase "ql"),
      optional (concat [.one (· = '+'), .many 1 none tables.isWord])]).Unbound :=
    ⟨unbound_ignoringCase "postgres", ⟨unbound_ignoringCase "ql", trivial⟩, dialect, trivial⟩
  have redis : (concat [ignoringCase "redis", optional (ignoringCase "s")]).Unbound :=
    ⟨unbound_ignoringCase "redis", ⟨unbound_ignoringCase "s", trivial⟩, trivial⟩
  exact ⟨postgres, redis⟩

theorem mem_takings_word (text : String) (before rest : Text) :
    (text.toList, rest) ∈ (ignoringCase text).takings before (text.toList ++ rest) := by
  refine mem_takings_ignoringCase.mpr ⟨rfl, List.forall₂_same.mpr ?_⟩
  intro letter _
  rw [sameLetter, decide_eq_true rfl, Bool.true_or]

theorem isUrlScheme_of_mem {scheme : Text} (scheme_mem : scheme ∈ urlSchemes) :
    IsUrlScheme tables scheme := by
  have nothing : ∀ regex : Regex Char, ∀ before rest : Text,
      (([] : Text), rest) ∈ (optional regex).takings before rest := fun _ _ _ =>
    mem_takings_alt.mpr (.inr (mem_takings_empty.mpr ⟨rfl, rfl⟩))
  have ends : ∀ before rest : Text, (([] : Text), rest) ∈ (concat []).takings before rest :=
    fun _ _ => mem_takings_empty.mpr ⟨rfl, rfl⟩
  simp only [urlSchemes, List.mem_cons, List.not_mem_nil, or_false] at scheme_mem
  rcases scheme_mem with rfl | rfl | rfl | rfl
  · refine mem_takings_alt.mpr (.inl (mem_takings_seq.mpr
      ⟨_, [], [], (List.append_nil _).symm, mem_takings_word _ _ _, ?_⟩))
    refine mem_takings_seq.mpr ⟨[], [], [], rfl, nothing _ _ _, ?_⟩
    exact mem_takings_seq.mpr ⟨[], [], [], rfl, nothing _ _ _, ends _ _⟩
  · refine mem_takings_alt.mpr (.inl (mem_takings_seq.mpr
      ⟨"postgres".toList, "ql".toList, "ql".toList, rfl, mem_takings_word _ _ _, ?_⟩))
    refine mem_takings_seq.mpr ⟨"ql".toList, [], [], rfl,
      mem_takings_alt.mpr (.inl (mem_takings_word "ql" _ [])), ?_⟩
    exact mem_takings_seq.mpr ⟨[], [], [], rfl, nothing _ _ _, ends _ _⟩
  · refine mem_takings_alt.mpr (.inr (mem_takings_seq.mpr
      ⟨_, [], [], (List.append_nil _).symm, mem_takings_word _ _ _, ?_⟩))
    exact mem_takings_seq.mpr ⟨[], [], [], rfl, nothing _ _ _, ends _ _⟩
  · refine mem_takings_alt.mpr (.inr (mem_takings_seq.mpr
      ⟨"redis".toList, "s".toList, "s".toList, rfl, mem_takings_word _ _ _, ?_⟩))
    exact mem_takings_seq.mpr ⟨"s".toList, [], [], rfl,
      mem_takings_alt.mpr (.inl (mem_takings_word "s" _ [])), ends _ _⟩

/-- The third expression takes no character into a name but its letters and those of words. -/
theorem urlScheme_shuns {separator : Char} (outside : tables.isWord separator = false)
    (letters : ∀ letter ∈ "postgresqldi".toList, sameLetter letter separator = false)
    (plus : separator ≠ '+') : (urlScheme tables).Shuns separator := by
  have word : ∀ text : String, (∀ letter ∈ text.toList, letter ∈ "postgresqldi".toList) →
      (ignoringCase text).Shuns separator := fun text within =>
    shuns_ignoringCase fun letter letter_mem => letters letter (within letter letter_mem)
  have dialect : (optional (concat [.one (· = '+'), .many 1 none tables.isWord])).Shuns
      separator :=
    ⟨shuns_concat.mpr (by simp [Shuns, outside, plus]), trivial⟩
  have postgres : (concat [ignoringCase "postgres", optional (ignoringCase "ql"),
      optional (concat [.one (· = '+'), .many 1 none tables.isWord])]).Shuns separator :=
    ⟨word "postgres" (forall_mem_of_all (by decide)),
      ⟨word "ql" (forall_mem_of_all (by decide)), trivial⟩, dialect, trivial⟩
  have redis : (concat [ignoringCase "redis", optional (ignoringCase "s")]).Shuns separator :=
    ⟨word "redis" (forall_mem_of_all (by decide)),
      ⟨word "s" (forall_mem_of_all (by decide)), trivial⟩, trivial⟩
  exact ⟨postgres, redis⟩

theorem urlScheme_shuns_mark (lawful : tables.Lawful) {mark : Char}
    (mark_mem : mark ∈ [':', '/', '@', ']']) : (urlScheme tables).Shuns mark := by
  have kinds : ∀ mark ∈ [':', '/', '@', ']'], mark.toNat < 128 ∧
      (mark.isAlphanum || mark = '_') = false ∧ mark ≠ '+' ∧
        "postgresqldi".toList.all (fun letter => !sameLetter letter mark) = true :=
    forall_mem_of_all (by decide)
  rcases kinds mark mark_mem with ⟨small, plain, plus, letters⟩
  simp only [List.all_eq_true, Bool.not_eq_true'] at letters
  refine urlScheme_shuns ?_ letters plus
  rw [lawful.isWord_ascii small, plain]

/-- A letter in another case can be presented like the letter. -/
theorem isPresentable_of_sameLetter {letter character : Char}
    (presentable : isBearerCharacter (unicodeTolower letter) = true)
    (same : sameLetter letter character = true) : isPresentable character = true := by
  rw [sameLetter, Bool.or_eq_true, decide_eq_true_eq, decide_eq_true_eq] at same
  rcases same with same | extra
  · rw [isPresentable, sameClass, same, presentable]
    rfl
  · have cased : isBearerCharacter 'i' = true ∧ isBearerCharacter 's' = true := by decide
    rw [isPresentable, sameClass]
    generalize unicodeTolower character = low at extra
    by_cases dotted : unicodeTolower letter = 'i'
    · rw [dotted] at extra
      rw [decide_eq_true extra, cased.1, Bool.and_self, Bool.or_true, Bool.true_or]
    · by_cases long : unicodeTolower letter = 's'
      · rw [long] at extra
        rw [decide_eq_true extra, cased.2, Bool.and_self, Bool.or_true]
      · simp [extraCases, dotted, long] at extra

namespace IsUrlScheme

variable {name : Text}

theorem mem_takings (spec : IsUrlScheme tables name) (before rest : Text) :
    (name, rest) ∈ (urlScheme tables).takings before (name ++ rest) :=
  (mem_takings_unbound urlScheme_unbound).mpr ⟨rfl, spec⟩

theorem absent (lawful : tables.Lawful) (spec : IsUrlScheme tables name) {mark : Char}
    (mark_mem : mark ∈ [':', '/', '@', ']']) : mark ∉ name :=
  not_mem_of_mem_takings (urlScheme_shuns_mark lawful mark_mem) spec

theorem solid (lawful : tables.Lawful) (spec : IsUrlScheme tables name) :
    ∀ character ∈ name, tables.isSpace character = false := by
  intro character character_mem
  refine Bool.eq_false_iff.mpr fun blank => ?_
  have presentable : ∀ letter ∈ "postgresqldi".toList,
      isBearerCharacter (unicodeTolower letter) = true :=
    forall_mem_of_all (by decide)
  refine not_mem_of_mem_takings (urlScheme_shuns (lawful.isWord_space blank) ?_ ?_) spec
    character_mem
  · intro letter letter_mem
    refine Bool.eq_false_iff.mpr fun same => ?_
    rw [isSpace_of_isPresentable lawful
      (isPresentable_of_sameLetter (presentable letter letter_mem) same)] at blank
    cases blank
  · rintro rfl
    rw [lawful.isSpace_graphic '+' (by decide) (by decide)] at blank
    cases blank

/-- The name of a scheme begins with a letter that no other character is the same as. -/
theorem exists_cons (spec : IsUrlScheme tables name) :
    ∃ first others, name = first :: others ∧ first.toLower ∈ ['p', 'r'] := by
  have begins : ∀ (text : String) (first : Char) (letters : Text), text.toList = first :: letters →
      (unicodeTolower first ≠ 'k' ∧ unicodeTolower first ≠ 'i' ∧
        extraCases (unicodeTolower first) = []) → unicodeTolower first ∈ ['p', 'r'] →
          ∀ regexes : List (Regex Char), (name, []) ∈
            (concat (ignoringCase text :: regexes)).takings [] name →
              ∃ first others, name = first :: others ∧ first.toLower ∈ ['p', 'r'] := by
    intro text letter letters text_eq plain letter_mem regexes taking
    rcases mem_takings_seq.mp taking with ⟨word, _, more, rfl, word_mem, _⟩
    have same := (mem_takings_ignoringCase.mp word_mem).2
    rw [text_eq] at same
    rcases List.forall₂_cons_left_iff.mp same with ⟨first, others, same_first, _, rfl⟩
    refine ⟨first, others ++ more, rfl, ?_⟩
    rw [toLower_of_sameLetter plain same_first]
    exact letter_mem
  rcases mem_takings_alt.mp spec with postgres | redis
  · exact begins "postgres" 'p' "ostgres".toList rfl (by decide) (by decide) _ postgres
  · exact begins "redis" 'r' "edis".toList rfl (by decide) (by decide) _ redis

theorem ne_nil (spec : IsUrlScheme tables name) : name ≠ [] := by
  rcases spec.exists_cons with ⟨first, others, rfl, _⟩
  exact List.cons_ne_nil first others

theorem head?_isWord (lawful : tables.Lawful) (spec : IsUrlScheme tables name) (rest : Text) :
    (name ++ rest).head?.any tables.isWord = true := by
  rcases spec.exists_cons with ⟨first, others, rfl, first_mem⟩
  have kinds : ∀ letter ∈ ['p', 'r'], letter.toNat < 128 ∧ letter.isAlphanum = true :=
    forall_mem_of_all (by decide)
  rcases kinds _ first_mem with ⟨small, alnum⟩
  rw [List.cons_append, List.head?_cons, Option.any_some, ← lawful.isWord_toLower,
    lawful.isWord_ascii small, alnum, Bool.true_or]

theorem head?_isPresentable (spec : IsUrlScheme tables name) :
    name.head?.any isPresentable = true := by
  rcases spec.exists_cons with ⟨first, others, rfl, first_mem⟩
  have kinds : ∀ letter ∈ ['p', 'r'], isTokenCharacter letter = true :=
    forall_mem_of_all (by decide)
  refine isPresentable_of_isTokenCharacter ?_
  rw [← isTokenCharacter_toLower, kinds _ first_mem]

end IsUrlScheme

end Names

section Found

/-- A mark without letters has one spelling. -/
theorem eq_slashes {taken : Text}
    (same : List.Forall₂ (fun letter character => sameLetter letter character = true)
      "://".toList taken) : taken = "://".toList := by
  have lowered := map_toLower_of_sameLetter (forall_mem_of_all (by decide)) same
  have kept : ∀ character ∈ taken, character.toLower = character := by
    intro character character_mem
    have lower_mem : character.toLower ∈ taken.map Char.toLower :=
      List.mem_map.mpr ⟨character, character_mem, rfl⟩
    rw [lowered] at lower_mem
    rcases toLower_eq_or character with same | ⟨_, alnum, _⟩
    · exact same
    · have refused : ∀ mark ∈ "://".toList.map unicodeTolower, mark.isAlphanum = false :=
        forall_mem_of_all (by decide)
      rw [refused _ lower_mem] at alnum
      cases alnum
  rw [List.map_congr_left kept, List.map_id'] at lowered
  rw [lowered]
  decide

theorem isFoundUrl_of_find (lawful : tables.Lawful) {before rest : Text} {found : Found Char}
    (finds : (credentialUrlPattern tables).rule.find before.reverse rest = some found) :
    IsFoundUrl tables before found := by
  rcases (Pattern.mem_occurrences _).mp (Pattern.mem_occurrences_of_find finds) with
    ⟨written_eq, _, _, _, opening_mem, removed_mem, closing_mem⟩
  rcases mem_takings_seq.mp opening_mem with
    ⟨_, _, address, opening_eq, boundary_mem, address_mem⟩
  rcases mem_takings_boundary.mp boundary_mem with ⟨boundary, rfl, rfl⟩
  rcases mem_takings_seq.mp address_mem with ⟨name, _, marks, rfl, name_mem, marks_mem⟩
  rcases mem_takings_seq.mp marks_mem with ⟨slashes, _, _, rfl, slashes_mem, empty_mem⟩
  rcases mem_takings_empty.mp empty_mem with ⟨rfl, _⟩
  rcases (mem_takings_unbound urlScheme_unbound).mp name_mem with ⟨rest_eq, spec⟩
  have slash_eq := eq_slashes (mem_takings_ignoringCase.mp slashes_mem).2
  refine ⟨written_eq, ?_, ⟨name, ?_, spec⟩, ?_, ?_, ?_, ?_⟩
  · rcases mem_takings_one.mp closing_mem with ⟨_, is_at, closing_eq, _⟩
    rw [closing_eq, of_decide_eq_true is_at]
  · rw [opening_eq, List.nil_append, List.append_nil, slash_eq]
  · rw [AtBoundary, ← rest_eq, IsUrlScheme.head?_isWord lawful spec] at boundary
    exact Bool.eq_false_iff.mpr boundary
  · rcases mem_takings_seq.mp removed_mem with ⟨user, _, others, removed_eq, user_mem, others_mem⟩
    rcases mem_takings_seq.mp others_mem with ⟨_, _, password, rfl, colon_mem, _⟩
    rcases mem_takings_one.mp colon_mem with ⟨_, is_colon, rfl, _⟩
    rw [of_decide_eq_true is_colon] at removed_eq
    exact ⟨user, password, removed_eq, List.length_pos_iff.mp (mem_takings_many.mp user_mem).2.2.1⟩
  · refine not_mem_of_mem_takings (shuns_concat.mpr ?_) removed_mem
    simp [Shuns, CharacterTables.isUserinfo]
  · refine not_mem_of_mem_takings (shuns_concat.mpr ?_) removed_mem
    simp [Shuns, CharacterTables.isUserinfo]

/-- The user and the password of an address are found behind a scheme. -/
theorem exists_find_of_url (lawful : tables.Lawful) {name user password before : Text}
    (behind : Text) (spec : IsUrlScheme tables name)
    (outer : before.reverse.head?.any tables.isWord = false) (user_ne : user ≠ [])
    (password_ne : password ≠ [])
    (user_all : ∀ character ∈ user, tables.isUserinfo character = true)
    (password_all : ∀ character ∈ password, tables.isUserinfo character = true) :
    ∃ found, (credentialUrlPattern tables).rule.find before.reverse
      (name ++ ("://".toList ++ (user ++ ':' :: (password ++ '@' :: behind)))) = some found := by
  have occurs : (⟨name ++ "://".toList, user ++ ':' :: password, redactedMark, ['@']⟩ :
      Found Char) ∈ (credentialUrlPattern tables).occurrences before.reverse
        (name ++ ("://".toList ++ (user ++ ':' :: (password ++ '@' :: behind)))) := by
    refine (Pattern.mem_occurrences _).mpr ⟨rfl, user ++ ':' :: (password ++ '@' :: behind),
      '@' :: behind, behind, ?_, ?_, mem_takings_one.mpr ⟨'@', rfl, rfl, rfl⟩⟩
    · refine mem_takings_seq.mpr ⟨[], _, _, rfl, mem_takings_boundary.mpr ⟨?_, rfl, rfl⟩, ?_⟩
      · rw [AtBoundary, outer, spec.head?_isWord lawful]
        exact Bool.false_ne_true
      refine mem_takings_seq.mpr ⟨name, _, "://".toList, rfl, spec.mem_takings _ _, ?_⟩
      exact mem_takings_seq.mpr ⟨"://".toList, _, [], rfl, mem_takings_word _ _ _,
        mem_takings_empty.mpr ⟨rfl, rfl⟩⟩
    · refine mem_takings_seq.mpr ⟨user, ':' :: (password ++ '@' :: behind), ':' :: password, rfl,
        mem_takings_many.mpr ⟨rfl, user_all, List.length_pos_iff.mpr user_ne,
          fun limit none => absurd none (Option.not_mem_none limit)⟩, ?_⟩
      refine mem_takings_seq.mpr ⟨[':'], password ++ '@' :: behind, password, rfl,
        mem_takings_one.mpr ⟨':', rfl, rfl, rfl⟩, ?_⟩
      exact mem_takings_seq.mpr ⟨password, '@' :: behind, [], (List.append_nil password).symm,
        mem_takings_many.mpr ⟨rfl, password_all, List.length_pos_iff.mpr password_ne,
          fun limit none => absurd none (Option.not_mem_none limit)⟩,
        mem_takings_empty.mpr ⟨rfl, rfl⟩⟩
  exact Pattern.exists_find_of_mem occurs

end Found

section Standing

variable {front word text : Text}

/-- A word in front of a colon is kept, unless the secret of a token goes on into it. -/
theorem token_keeps_word_iff (lawful : tables.Lawful) (colon_absent : ':' ∉ word)
    (word_ne : word ≠ []) :
    (telegramTokenPattern tables).rule.Keeps front (word ++ [':']) [] ↔
      ¬TokenReaches tables (StartsToken tables (Outside tables)) front word := by
  constructor
  · rintro keeps ⟨first, inside, body, after, rfl, whole, starts, not_runs, takes, long⟩
    have takes_colon := (takesColon_iff lawful).mpr
      ⟨starts, ⟨body, after, whole.symm, takes.spec, takes.ends⟩, not_runs⟩
    rcases takes_colon with
      ⟨before, digits, secret, behind, rfl, rest_eq, replaces, number, _, takes_secret⟩
    rcases takes_secret.unique takes (rest_eq.symm.trans whole.symm) with ⟨rfl, rfl⟩
    have digits_pos := number.1
    have word_pos := List.length_pos_iff.mpr word_ne
    refine keeps.not_meets replaces ?_ ⟨?_, ?_⟩
    · rw [List.append_nil, List.append_assoc digits, List.cons_append, whole]
      simp
    · simp only [List.length_append, List.length_cons]
      omega
    · simp only [List.length_append, List.length_cons]
      omega
  · intro not_reaches
    rcases (telegramTokenPattern tables).rule.keeps_or_meets front (word ++ [':']) [] with
      keeps | ⟨before, removed, after, replaces, same, starts, reaches⟩
    · exact keeps
    exfalso
    rcases shape_of_token_replaces lawful replaces with
      ⟨digits, secret, rfl, number, outer, takes⟩
    have split : (before ++ digits) ++ ':' :: (secret ++ after) = (front ++ word) ++ ':' :: [] := by
      simpa using same
    rcases List.append_eq_append_iff.mp (split.trans (List.append_assoc front word [':'])) with
      ⟨inside, front_eq, rest_eq⟩ | ⟨inside, digits_eq, rest_eq⟩
    · cases inside with
      | nil =>
          rw [List.nil_append] at rest_eq
          cases word with
          | nil => exact word_ne rfl
          | cons first others =>
              rw [List.cons_append, List.cons.injEq] at rest_eq
              exact colon_absent (rest_eq.1 ▸ List.mem_cons_self)
      | cons colon inside =>
          rw [List.cons_append, List.cons.injEq] at rest_eq
          rcases rest_eq with ⟨rfl, rest_eq⟩
          rcases (takesColon_iff lawful).mp
            ⟨before, digits, secret, after, rfl, rfl, replaces, number, outer, takes⟩ with
            ⟨starts_token, _, not_runs⟩
          refine not_reaches ⟨before ++ digits, inside, secret, after, front_eq, rest_eq,
            starts_token, not_runs, takes, ?_⟩
          have lengths := congrArg List.length front_eq
          simp only [List.length_append, List.length_cons] at lengths reaches
          omega
    · -- The last colon has no secret behind it.
      have long := takes.spec.1
      rcases List.append_eq_append_iff.mp rest_eq with ⟨more, _, more_eq⟩ | ⟨more, rfl, more_eq⟩
      · have lengths := congrArg List.length more_eq
        simp only [List.length_append, List.length_cons, List.length_nil] at lengths
        omega
      · cases more with
        | nil =>
            have lengths := congrArg List.length more_eq
            simp only [List.length_append, List.length_cons, List.length_nil] at lengths
            omega
        | cons colon more =>
            rw [List.cons_append, List.cons.injEq] at more_eq
            exact colon_absent (more_eq.1 ▸ by simp)

/-- A token's secret goes on into a word behind the first expression as it does before it. -/
theorem tokenReaches_sub_iff (lawful : tables.Lawful) {earlier : List (Piece Char)}
    (solid : ∀ character ∈ word, tables.isSpace character = false)
    (pieces_eq : (bearerPattern tables).rule.pieces (front ++ word) = earlier ++ word.map .kept)
    (front_eq : earlier.flatMap Piece.source = front) :
    TokenReaches tables (StartsToken tables (Outside tables)) (earlier.flatMap Piece.target) word ↔
      TokenReaches tables (StartsToken tables (Opens tables)) front word := by
  have separated := bearer_separatedBy lawful (show ':' ∈ [':', '@'] by decide)
  have sub_eq : (bearerPattern tables).rule.sub (front ++ word) =
      earlier.flatMap Piece.target ++ word := by
    rw [Rule.sub, pieces_eq, List.flatMap_append, flatMap_target_kept]
  have all_solid : ∀ {inside body after : Text}, body ++ after = inside ++ (word ++ [':']) →
      IsTokenSecret body → inside.length < body.length →
        ∀ character ∈ inside ++ word, tables.isSpace character = false := by
    intro inside body after whole spec long
    have within : inside <+: body := List.prefix_of_prefix_length_le
      (whole ▸ List.prefix_append inside _) (List.prefix_append body after) long.le
    refine List.forall_mem_append.mpr ⟨fun character character_mem => ?_, solid⟩
    exact IsTokenSecret.solid lawful spec.2 character (within.subset character_mem)
  constructor
  · rintro ⟨first, inside, body, after, target_eq, whole, starts, not_runs, takes, long⟩
    rw [target_eq, List.append_assoc, List.cons_append] at sub_eq
    rcases separated.exists_of_sub_eq bearer_colon_absent sub_eq with
      ⟨ahead, second, text_eq, rfl, second_eq⟩
    have second_solid := eq_of_sub_solid lawful
      (second_eq ▸ all_solid whole takes.spec long)
    rw [second_eq] at second_solid
    rw [← second_solid, ← List.cons_append, ← List.append_assoc] at text_eq
    exact ⟨ahead, inside, body, after, List.append_cancel_right text_eq, whole,
      (startsToken_sub_iff lawful).mp starts, mt (runsInto_sub_iff lawful).mpr not_runs, takes,
      long⟩
  · rintro ⟨first, inside, body, after, rfl, whole, starts, not_runs, takes, long⟩
    rw [List.append_assoc, List.cons_append, separated.sub_append_cons,
      bearer_sub_eq_self (all_solid whole takes.spec long), ← List.cons_append,
      ← List.append_assoc] at sub_eq
    exact ⟨(bearerPattern tables).rule.sub first, inside, body, after,
      (List.append_cancel_right sub_eq).symm, whole, (startsToken_sub_iff lawful).mpr starts,
      mt (runsInto_sub_iff lawful).mp not_runs, takes, long⟩

theorem token_ends (removed written : Text)
    (replaced : .replaced removed written ∈ (telegramTokenPattern tables).rule.pieces text) :
    ∃ front, written = front ++ [']'] :=
  ⟨"[REDACTED".toList, Pattern.written_of_mem_pieces replaced⟩

theorem any_mark (lawful : tables.Lawful) (text : Text) :
    (text ++ redactedMark).reverse.head?.any tables.isWord = false := by
  have outside : tables.isWord ']' = false := by
    rw [lawful.isWord_ascii (by decide)]
    decide
  rw [List.reverse_append, show redactedMark.reverse = ']' :: "[REDACTED".toList.reverse by decide]
  exact outside

/-- In front of a word that is kept a word ends behind the second expression as it does before. -/
theorem any_last_of_token_pieces (lawful : tables.Lawful) {earlier : List (Piece Char)}
    (begins : word.head?.any tables.isWord = true)
    (pieces_eq : (telegramTokenPattern tables).rule.pieces (front ++ word) =
      earlier ++ word.map .kept) (front_eq : earlier.flatMap Piece.source = front) :
    (earlier.flatMap Piece.target).reverse.head?.any tables.isWord =
      front.reverse.head?.any tables.isWord := by
  rw [← front_eq]
  rcases List.eq_nil_or_concat earlier with rfl | ⟨others, piece, rfl⟩
  · rfl
  cases piece with
  | kept character => simp [Piece.source, Piece.target]
  | replaced removed written =>
      rw [List.concat_eq_append] at pieces_eq ⊢
      rw [List.append_assoc, List.singleton_append] at pieces_eq
      have replaced : .replaced removed written ∈
          (telegramTokenPattern tables).rule.pieces (front ++ word) := by
        rw [pieces_eq]
        simp
      rcases Rule.Replaces.of_pieces pieces_eq with ⟨replaces, _⟩
      rw [flatMap_source_kept] at replaces
      rcases shape_of_token_replaces lawful replaces with ⟨digits, secret, rfl, _, _, takes⟩
      have ends := takes.ends
      rw [AtBoundary, begins] at ends
      have marked : (others.flatMap Piece.target ++ redactedMark).reverse.head?.any tables.isWord =
          false := any_mark lawful _
      rw [List.flatMap_append, List.flatMap_append, List.flatMap_singleton, List.flatMap_singleton,
        Piece.target, Piece.source, show written = redactedMark from
          Pattern.written_of_mem_pieces replaced, marked]
      cases reversed : secret.reverse with
      | nil => exact absurd (List.reverse_eq_nil_iff.mp reversed) takes.spec.ne_nil
      | cons last others =>
          rw [reversed] at ends
          simpa [reversed] using ends

/-- The first two expressions leave a scheme at the end of a text where one stands. -/
theorem scheme_kept_iff (lawful : tables.Lawful) :
    (∃ front name, (telegramTokenPattern tables).rule.sub
        ((bearerPattern tables).rule.sub text ++ [':']) = front ++ (name ++ [':']) ∧
      IsUrlScheme tables name ∧ front.reverse.head?.any tables.isWord = false) ↔
        SchemeStands tables text := by
  constructor
  · rintro ⟨front, name, sub_eq, spec, outer⟩
    have colon_absent := spec.absent lawful (show ':' ∈ [':', '/', '@', ']'] by decide)
    have bracket_absent := spec.absent lawful (show ']' ∈ [':', '/', '@', ']'] by decide)
    have begins := spec.head?_isWord lawful [':']
    rcases exists_kept_suffix (by simpa using bracket_absent) token_ends
      (sub_eq ▸ List.suffix_append front (name ++ [':'])) with ⟨earlier, token_eq⟩
    rw [Rule.sub, token_eq, List.flatMap_append, flatMap_target_kept] at sub_eq
    have front_eq := List.append_cancel_right sub_eq
    have left_eq : (bearerPattern tables).rule.sub text = earlier.flatMap Piece.source ++ name := by
      have source_eq := (telegramTokenPattern tables).rule.flatMap_source_pieces
        ((bearerPattern tables).rule.sub text ++ [':'])
      rw [token_eq, List.flatMap_append, flatMap_source_kept, ← List.append_assoc] at source_eq
      exact (List.append_cancel_right source_eq).symm
    rcases exists_kept_suffix bracket_absent bearer_ends
      (left_eq ▸ List.suffix_append _ name) with ⟨ahead, bearer_eq⟩
    have text_eq : text = ahead.flatMap Piece.source ++ name := by
      rw [← (bearerPattern tables).rule.flatMap_source_pieces text, bearer_eq,
        List.flatMap_append, flatMap_source_kept]
    have target_eq : ahead.flatMap Piece.target = earlier.flatMap Piece.source := by
      rw [Rule.sub, bearer_eq, List.flatMap_append, flatMap_target_kept] at left_eq
      exact List.append_cancel_right left_eq
    rw [left_eq, List.append_assoc] at token_eq
    rw [text_eq] at bearer_eq
    have unpresented : ¬Presented tables (ahead.flatMap Piece.source) := fun presented =>
      not_keeps_of_taken lawful ⟨presented, spec.head?_isPresentable⟩
        ⟨ahead, [], by simpa using bearer_eq, rfl, rfl⟩
    have last_eq := any_last_of_token_pieces lawful begins token_eq rfl
    have opened := (opens_iff lawful bearer_eq rfl).mp (by
      rw [target_eq, ← last_eq, front_eq]
      exact outer)
    refine ⟨_, name, text_eq, spec, ?_, unpresented, ?_⟩
    · rcases opened with ⟨presented, _⟩ | ⟨_, outside⟩
      · exact absurd presented unpresented
      · exact outside
    · rw [← tokenReaches_sub_iff lawful (spec.solid lawful) bearer_eq rfl, target_eq]
      refine (token_keeps_word_iff lawful colon_absent spec.ne_nil).mp ⟨earlier, [], ?_, rfl, rfl⟩
      simpa using token_eq
  · rintro ⟨front, name, rfl, spec, outer, unpresented, not_reaches⟩
    have colon_absent := spec.absent lawful (show ':' ∈ [':', '/', '@', ']'] by decide)
    rcases keeps_or_taken lawful front (spec.solid lawful) with keeps | taken
    · rcases keeps.at_end with ⟨ahead, bearer_eq, front_eq⟩
      rw [← tokenReaches_sub_iff lawful (spec.solid lawful) bearer_eq front_eq] at not_reaches
      have opened := (opens_iff lawful bearer_eq front_eq).mpr (.inr ⟨unpresented, outer⟩)
      rcases ((token_keeps_word_iff lawful colon_absent spec.ne_nil).mpr not_reaches).at_end with
        ⟨earlier, token_eq, left_eq⟩
      refine ⟨earlier.flatMap Piece.target, name, ?_, spec, ?_⟩
      · rw [show (bearerPattern tables).rule.sub (front ++ name) = ahead.flatMap Piece.target ++ name
          by rw [Rule.sub, bearer_eq, List.flatMap_append, flatMap_target_kept],
          List.append_assoc, Rule.sub, token_eq, List.flatMap_append, flatMap_target_kept]
      · rw [any_last_of_token_pieces lawful (spec.head?_isWord lawful [':']) token_eq left_eq]
        exact opened
    · exact absurd taken.1 unpresented

end Standing

end CopyMint
