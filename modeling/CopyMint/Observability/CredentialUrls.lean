import CopyMint.Observability.Neighbours
import CopyMint.Observability.QuietTexts

/-!
# Passwords of addresses in redacted text

The first two expressions look neither beyond the colon behind the scheme nor beyond the
slashes and the at sign, so that each part of an address is treated on its own. What stands
between the slashes and the at sign is then either removed as a whole by the third
expression, or kept.
-/

namespace CopyMint

open Hexadecimal Substitution Regex

variable {tables : CharacterTables}

/-- A character of a user or a password in an address. -/
def IsUserinfoCharacter (tables : CharacterTables) (character : Char) : Prop :=
  tables.isSpace character = false ∧ character ∉ ['/', ':', '@']

/-- A token in user and password that the second expression removes, with what is around it. -/
def Cuts (tables : CharacterTables) (user password before after : Text) : Prop :=
  ∃ digits secret, user = before ++ digits ∧ password = secret ++ after ∧
    IsTokenNumber tables digits ∧ Outside tables before digits ∧ TakesSecret tables secret after

/-- User and password behind a text are removed, by the third expression or around a token. -/
inductive AddressFound (tables : CharacterTables) (front user password : Text) : Prop
  | whole (uncut : ∀ before after, ¬Cuts tables user password before after) (user_ne : user ≠ [])
      (stands : SchemeStands tables front)
  | cut {before after : Text} (cuts : Cuts tables user password before after)
      (gone : ¬password <:+: before ++ (redactedMark ++ after))

/-- There is no name and no label of a secret around an address, nor around a token in it. -/
structure QuietAround (tables : CharacterTables) (front user password post : Text) : Prop where
  front : Quiet tables (front ++ [':'])
  post : Quiet tables post
  cut : ∀ before after, Cuts tables user password before after →
    Quiet tables (before ++ (redactedMark ++ after))

/--
The password stands only in its place, and nothing beside a mark goes on with it: neither
what a bearer presents, nor another token, nor the value of a name or a label, where there
is one.
-/
structure AddressClear (tables : CharacterTables) (front user password post : Text) : Prop where
  away : ¬password <:+: front
  bearers : ∀ text ∈ [front, post], ¬JoinsBearer tables password text
  tokens : ∀ text ∈ [front ++ [':'], post], ¬JoinsToken tables password text
  values : ¬JoinsValue password ∨ QuietAround tables front user password post

theorem IsUserinfoCharacter.isUserinfo {character : Char}
    (plain : IsUserinfoCharacter tables character) : tables.isUserinfo character = true := by
  simp only [IsUserinfoCharacter, List.mem_cons, List.not_mem_nil, or_false, not_or] at plain
  simp [CharacterTables.isUserinfo, plain]

section Userinfo

variable {user password before after text : Text}

/-- Pieces without a colon are kept by the second expression. -/
theorem token_pieces_kept (lawful : tables.Lawful) {earlier pieces later : List (Piece Char)}
    (pieces_eq : (telegramTokenPattern tables).rule.pieces text = earlier ++ pieces ++ later)
    (colon_absent : ':' ∉ pieces.flatMap Piece.source) :
    pieces = (pieces.flatMap Piece.source).map .kept := by
  refine eq_map_kept fun removed written replaced => ?_
  rcases List.append_of_mem replaced with ⟨left, right, rfl⟩
  have split : (telegramTokenPattern tables).rule.pieces text =
      (earlier ++ left) ++ .replaced removed written :: (right ++ later) := by
    rw [pieces_eq]
    simp
  rcases shape_of_token_replaces lawful (Rule.Replaces.of_pieces split).1 with
    ⟨digits, secret, rfl, _⟩
  exact colon_absent (by simp [Piece.source])

/-- The second expression leaves a mark where a token was. -/
theorem Cuts.sub_eq (lawful : tables.Lawful) (cuts : Cuts tables user password before after)
    (user_plain : ':' ∉ user) (password_plain : ':' ∉ password) :
    (telegramTokenPattern tables).rule.sub (user ++ ':' :: password) =
      before ++ (redactedMark ++ after) := by
  rcases cuts with ⟨digits, secret, rfl, rfl, number, outer, takes⟩
  have not_runs : ¬RunsInto (StartsToken tables (Outside tables)) (before ++ digits) := by
    intro runs
    rw [RunsInto] at runs
    rcases runs with ⟨front, body, whole, _⟩
    exact user_plain (whole ▸ by simp)
  rcases (takesColon_iff lawful).mpr
    ⟨⟨before, digits, rfl, number, outer⟩, ⟨secret, after, rfl, takes.spec, takes.ends⟩, not_runs⟩
    with ⟨before', digits', secret', after', whole, rest_eq, replaces, number', outer', takes'⟩
  rcases number_inj lawful whole number number' outer outer' with ⟨rfl, rfl⟩
  rcases takes.unique takes' rest_eq with ⟨rfl, rfl⟩
  rcases replaces.exists_pieces with ⟨earlier, written, later, pieces_eq, rfl, after_eq⟩
  have earlier_kept := @token_pieces_kept _ _ lawful [] earlier _ pieces_eq
    fun colon_mem => user_plain (List.mem_append_left _ colon_mem)
  have later_split : (telegramTokenPattern tables).rule.pieces
      (earlier.flatMap Piece.source ++ ((digits ++ ':' :: secret) ++ after)) =
        (earlier ++ [.replaced (digits ++ ':' :: secret) written]) ++ later ++ [] := by
    rw [pieces_eq]
    simp
  have later_kept := token_pieces_kept lawful later_split
    fun colon_mem => password_plain (List.mem_append_right _ (after_eq ▸ colon_mem))
  have replaced : .replaced (digits ++ ':' :: secret) written ∈
      (telegramTokenPattern tables).rule.pieces
        (earlier.flatMap Piece.source ++ ((digits ++ ':' :: secret) ++ after)) := by
    rw [pieces_eq]
    exact List.mem_append_right _ List.mem_cons_self
  have marked : written = redactedMark := Pattern.written_of_mem_pieces replaced
  have text_eq : (earlier.flatMap Piece.source ++ digits) ++ ':' :: (secret ++ after) =
      earlier.flatMap Piece.source ++ ((digits ++ ':' :: secret) ++ after) := by
    simp
  rw [text_eq, Rule.sub, pieces_eq, List.flatMap_append, List.flatMap_cons, earlier_kept,
    later_kept, after_eq, flatMap_target_kept, flatMap_target_kept, flatMap_source_kept, marked]
  rfl

/-- Without such a token the second expression leaves user and password. -/
theorem sub_userinfo_of_uncut (lawful : tables.Lawful) (user_plain : ':' ∉ user)
    (password_plain : ':' ∉ password)
    (uncut : ∀ before after, ¬Cuts tables user password before after) :
    (telegramTokenPattern tables).rule.sub (user ++ ':' :: password) = user ++ ':' :: password := by
  have kept := @eq_map_kept _ ((telegramTokenPattern tables).rule.pieces (user ++ ':' :: password))
    fun removed written replaced => by
      rcases List.append_of_mem replaced with ⟨earlier, later, pieces_eq⟩
      rcases Rule.Replaces.of_pieces pieces_eq with ⟨replaces, whole⟩
      rcases shape_of_token_replaces lawful replaces with
        ⟨digits, secret, rfl, number, outer, takes⟩
      have parts : user ++ ':' :: password = (earlier.flatMap Piece.source ++ digits) ++
          ':' :: (secret ++ later.flatMap Piece.source) := by
        rw [← whole]
        simp
      rcases (List.append_cons_inj_of_notMem user_plain password_plain).mp parts with
        ⟨user_eq, _, password_eq⟩
      exact uncut _ _ ⟨digits, secret, user_eq, password_eq, number, outer, takes⟩
  rw [Rule.sub, kept, flatMap_target_kept, Rule.flatMap_source_pieces]

end Userinfo

section Values

variable {front value behind word : Text}

/-- What the third expression replaces stands between a slash and an at sign. -/
theorem url_walled (lawful : tables.Lawful) (text : Text) :
    Walled '/' '@' ((credentialUrlPattern tables).rule.pieces text) := by
  intro earlier removed written later pieces_eq
  rcases Rule.exists_found_of_piecesFrom (Nat.zero_le _) pieces_eq with
    ⟨found, ahead, behind, rfl, rfl, _, _, finds⟩
  rw [List.append_nil] at finds
  rcases isFoundUrl_of_find lawful finds with ⟨_, closing_eq, ⟨name, opening_eq, _⟩, _⟩
  rw [opening_eq, closing_eq]
  exact ⟨⟨ahead ++ (name ++ ":/".toList).map .kept, by simp⟩, behind, rfl⟩

/-- Between slashes and an at sign all is kept, or all of it is the user and the password. -/
theorem value_kept_or_replaced (lawful : tables.Lawful) (front behind : Text)
    (slash_absent : '/' ∉ value) (at_absent : '@' ∉ value) :
    (credentialUrlPattern tables).rule.Keeps (front ++ "//".toList) value ('@' :: behind) ∨
      (credentialUrlPattern tables).rule.Replaces (front ++ "//".toList) value ('@' :: behind) ∧
        ∃ first name user password, front = first ++ (name ++ [':']) ∧ IsUrlScheme tables name ∧
          first.reverse.head?.any tables.isWord = false ∧ value = user ++ ':' :: password ∧
            user ≠ [] := by
  rcases (credentialUrlPattern tables).rule.keeps_or_meets (front ++ "//".toList) value
    ('@' :: behind) with keeps | ⟨before, removed, after, replaces, same, starts, reaches⟩
  · exact .inl keeps
  right
  rcases replaces.exists_pieces with ⟨earlier, written, later, pieces_eq, before_eq, after_eq⟩
  rcases Rule.exists_found_of_piecesFrom (Nat.zero_le _) pieces_eq with
    ⟨found, ahead, others, rfl, rfl, rfl, rfl, finds⟩
  rw [List.append_nil, List.take_zero, List.nil_append] at finds
  rcases isFoundUrl_of_find lawful finds with
    ⟨_, closing_eq, ⟨name, opening_eq, spec⟩, outer, ⟨user, password, parts, user_ne⟩,
      removed_slash, removed_at⟩
  have before_parts : before = (ahead.flatMap Piece.source ++ (name ++ ":/".toList)) ++ ['/'] := by
    rw [← before_eq, opening_eq, List.flatMap_append, flatMap_source_kept]
    simp
  have after_parts : after = '@' :: others.flatMap Piece.source := by
    rw [← after_eq, closing_eq]
    rfl
  have front_parts : front ++ "//".toList = (front ++ ['/']) ++ ['/'] := by
    simp
  rw [before_parts, front_parts] at same starts
  rw [before_parts, front_parts] at reaches
  rw [before_parts, after_parts] at replaces
  rw [after_parts] at same
  have aligned : (ahead.flatMap Piece.source ++ (name ++ ":/".toList)) ++
      '/' :: (found.removed ++ '@' :: others.flatMap Piece.source) =
        (front ++ ['/']) ++ '/' :: (value ++ '@' :: behind) := by
    simpa using same
  have one_more : ∀ text : Text, (text ++ ['/']).length = text.length + 1 := fun _ =>
    List.length_append
  rw [one_more (ahead.flatMap Piece.source ++ _), one_more (front ++ ['/'])] at starts reaches
  rcases walled_inj aligned ⟨removed_slash, removed_at⟩ ⟨slash_absent, at_absent⟩ (by omega)
    (by omega) with ⟨front_eq, rfl, rfl⟩
  have first_eq : ahead.flatMap Piece.source ++ (name ++ [':']) = front := by
    have split : (ahead.flatMap Piece.source ++ (name ++ [':'])) ++ ['/'] = front ++ ['/'] := by
      rw [← front_eq]
      simp
    exact List.append_cancel_right split
  refine ⟨?_, ahead.flatMap Piece.source, name, user, password, first_eq.symm, spec, outer, parts,
    user_ne⟩
  rwa [front_parts, ← front_eq]

/-- Behind a scheme that begins a word, user and password are not kept. -/
theorem not_keeps_of_scheme (lawful : tables.Lawful) {first name user password : Text}
    (spec : IsUrlScheme tables name) (outer : first.reverse.head?.any tables.isWord = false)
    (user_ne : user ≠ []) (password_ne : password ≠ [])
    (user_plain : ∀ character ∈ user, IsUserinfoCharacter tables character)
    (password_plain : ∀ character ∈ password, IsUserinfoCharacter tables character) :
    ¬(credentialUrlPattern tables).rule.Keeps ((first ++ (name ++ [':'])) ++ "//".toList)
      (user ++ ':' :: password) ('@' :: behind) := by
  rcases exists_find_of_url lawful behind spec outer user_ne password_ne
    (fun character character_mem => (user_plain character character_mem).isUserinfo)
    (fun character character_mem => (password_plain character character_mem).isUserinfo) with
    ⟨found, finds⟩
  rcases Rule.exists_pieces_of_find finds with
    ⟨ahead, reached, earlier, later, other, rfl, finds_other, long, pieces_eq, ahead_eq⟩
  rcases isFoundUrl_of_find lawful finds_other with
    ⟨_, closing_eq, ⟨other_name, opening_eq, other_spec⟩, _⟩
  have split : (credentialUrlPattern tables).rule.pieces ((ahead ++ reached) ++
      (name ++ ("://".toList ++ (user ++ ':' :: (password ++ '@' :: behind))))) =
        (earlier ++ other.opening.map .kept) ++ .replaced other.removed other.written ::
          (other.closing.map .kept ++ later) := by
    rw [pieces_eq, Found.pieces]
    simp
  rcases Rule.Replaces.of_pieces split with ⟨replaces, whole⟩
  rw [List.flatMap_append, List.flatMap_append, flatMap_source_kept, flatMap_source_kept, ahead_eq,
    closing_eq] at replaces whole
  have aligned : ahead ++ ((other.opening ++ other.removed) ++ '@' :: later.flatMap Piece.source) =
      ahead ++ (reached ++ ((name ++ ("://".toList ++ (user ++ ':' :: password))) ++
        '@' :: behind)) := by
    simpa using whole
  have aligned := List.append_cancel_left aligned
  have at_absent : '@' ∉ name ++ ("://".toList ++ (user ++ ':' :: password)) := by
    simp only [List.mem_append, List.mem_cons, not_or]
    exact ⟨spec.absent lawful (by decide), by decide,
      fun at_mem => (user_plain '@' at_mem).2 (by decide), by decide, fun at_mem => (password_plain '@' at_mem).2 (by decide)⟩
  have long : reached.length ≤ (other.opening ++ other.removed).length := by
    rw [Found.source, closing_eq, List.length_append, List.length_singleton] at long
    exact Nat.le_of_lt_succ long
  rcases List.prefix_of_prefix_length_le ⟨_, aligned.symm⟩ (List.prefix_append _ _) long with
    ⟨more, reached_eq⟩
  rw [← reached_eq, List.append_assoc] at aligned
  have rest_eq := List.append_cancel_left aligned
  rcases prefix_of_append_cons at_absent ⟨_, rest_eq.symm⟩ with ⟨further, rfl⟩
  have lengths := congrArg List.length reached_eq
  have three : "://".toList.length = 3 := by decide
  have two : "//".toList.length = 2 := by decide
  simp only [List.length_append, List.length_cons, three] at lengths
  intro keeps
  refine keeps.not_meets replaces (by simpa using whole) ⟨?_, ?_⟩
  · -- Otherwise the opening would go on beyond the colon of the user.
    by_contra beyond
    simp only [List.length_append, List.length_cons, List.length_nil, two] at beyond
    have begins : reached ++ (name ++ ("://".toList ++ (user ++ ':' :: password))) <+:
        other.opening := by
      refine List.prefix_of_prefix_length_le ⟨further, ?_⟩
        (List.prefix_append other.opening other.removed) ?_
      · rw [List.append_assoc]
        exact reached_eq
      · simp only [List.length_append, List.length_cons, three]
        omega
    have colons := begins.sublist.count_le ':'
    have colon_absent := other_spec.absent lawful (show ':' ∈ [':', '/', '@', ']'] by decide)
    have one : "://".toList.count ':' = 1 := by decide
    simp only [opening_eq, List.count_append, List.count_cons_self, one,
      List.count_eq_zero_of_not_mem colon_absent] at colons
    omega
  · simp only [List.length_append, List.length_cons, List.length_nil, two]
    omega

section Replaced

variable (lawful : tables.Lawful)
  (replaces : (credentialUrlPattern tables).rule.Replaces (front ++ "//".toList) value
    ('@' :: behind))

include lawful replaces

/-- The pieces around a user and a password that are removed. -/
theorem exists_pieces_of_replaced : ∃ earlier later,
    (credentialUrlPattern tables).rule.pieces ((front ++ "//".toList) ++ (value ++ '@' :: behind)) =
        (earlier ++ [.kept '/']) ++ .replaced value redactedMark :: .kept '@' :: later ∧
      earlier.flatMap Piece.source = front ++ ['/'] ∧ later.flatMap Piece.source = behind ∧
        (credentialUrlPattern tables).rule.sub
            ((front ++ "//".toList) ++ (value ++ '@' :: behind)) =
          earlier.flatMap Piece.target ++
            '/' :: (redactedMark ++ '@' :: later.flatMap Piece.target) := by
  rcases replaces.exists_pieces with ⟨earlier, written, later, pieces_eq, earlier_eq, later_eq⟩
  have replaced : .replaced value written ∈ (credentialUrlPattern tables).rule.pieces
      ((front ++ "//".toList) ++ (value ++ '@' :: behind)) := by
    rw [pieces_eq]
    exact List.mem_append_right _ List.mem_cons_self
  have marked : written = redactedMark := Pattern.written_of_mem_pieces replaced
  rcases url_walled lawful _ _ _ _ _ pieces_eq with ⟨⟨ahead, rfl⟩, others, rfl⟩
  rw [marked] at pieces_eq
  refine ⟨ahead, others, pieces_eq, ?_, (List.cons.inj later_eq).2, ?_⟩
  · rw [List.flatMap_append, show front ++ "//".toList = (front ++ ['/']) ++ ['/'] by simp]
      at earlier_eq
    exact List.append_cancel_right earlier_eq
  · rw [Rule.sub, pieces_eq]
    simp [Piece.target]

/-- A word without a slash and an at sign stands outside of what is removed. -/
theorem infix_of_replaced (word_ne : word ≠ []) (slash_absent : '/' ∉ word) (at_absent : '@' ∉ word)
    (not_mark : ¬word <:+: redactedMark) (occurs : word <:+:
      (credentialUrlPattern tables).rule.sub ((front ++ "//".toList) ++ (value ++ '@' :: behind))) :
    word <:+: front ∨ word <:+: behind := by
  rcases exists_pieces_of_replaced lawful replaces with
    ⟨earlier, later, pieces_eq, front_eq, behind_eq, sub_eq⟩
  have walled := url_walled lawful ((front ++ "//".toList) ++ (value ++ '@' :: behind))
  have outside : ∀ removed written, .replaced removed written ∈ (earlier ++ [.kept '/']) ++
      .replaced value redactedMark :: .kept '@' :: later → ¬word <:+: written := by
    intro removed written replaced
    rw [← pieces_eq] at replaced
    rwa [Pattern.written_of_mem_pieces replaced]
  have nowhere : ¬word <:+: [] := fun nothing => word_ne (List.eq_nil_of_infix_nil nothing)
  rw [pieces_eq] at walled
  rw [sub_eq] at occurs
  rcases infix_of_append_cons slash_absent occurs with before | occurs
  · left
    have stood := infix_source_of_walled walled.sides.1 slash_absent at_absent
      (fun removed written replaced => outside removed written (List.mem_append_left _ replaced))
      (before.trans ⟨[], ['/'], by simp [Piece.target]⟩)
    rw [List.flatMap_append, front_eq] at stood
    have stood : word <:+: front ++ '/' :: ([] ++ '/' :: []) := by
      simpa [Piece.source] using stood
    rcases infix_of_append_cons slash_absent stood with before | nothing
    · exact before
    rcases infix_of_append_cons slash_absent nothing with nothing | nothing
    · exact absurd nothing nowhere
    · exact absurd nothing nowhere
  · rcases infix_of_append_cons at_absent occurs with within | after
    · exact absurd within not_mark
    right
    have stood := infix_source_of_walled walled.sides.2 slash_absent at_absent
      (fun removed written replaced => outside removed written (by simp [replaced]))
      (after.trans ⟨['@'], [], by simp [Piece.target]⟩)
    rw [List.flatMap_cons, behind_eq] at stood
    have stood : word <:+: [] ++ '@' :: behind := by
      simpa [Piece.source] using stood
    rcases infix_of_append_cons at_absent stood with nothing | after
    · exact absurd nothing nowhere
    · exact after

/-- What is around user and password is as quiet as it was. -/
theorem quiet_of_replaced (front_quiet : Quiet tables front) (behind_quiet : Quiet tables behind) :
    Quiet tables ((credentialUrlPattern tables).rule.sub
      ((front ++ "//".toList) ++ (value ++ '@' :: behind))) := by
  rcases exists_pieces_of_replaced lawful replaces with
    ⟨earlier, later, pieces_eq, front_eq, rfl, sub_eq⟩
  have ends : ∀ removed written, .replaced removed written ∈ (earlier ++ [.kept '/']) ++
      .replaced value redactedMark :: .kept '@' :: later →
        (∃ front, written = front ++ [']']) ∧ ∀ sign ∈ [':', '='], sign ∉ written := by
    intro removed written replaced
    rw [← pieces_eq] at replaced
    rw [Pattern.written_of_mem_pieces replaced]
    have signless : ∀ sign ∈ [':', '='], sign ∉ redactedMark := forall_mem_of_all (by decide)
    exact ⟨⟨"[REDACTED".toList, rfl⟩, signless⟩
  have earlier_quiet : Quiet tables (earlier.flatMap Piece.target) := by
    refine Quiet.target lawful (fun removed written replaced => ends removed written (by
      simp [replaced])) ?_
    rw [front_eq]
    exact front_quiet.append_cons lawful (by decide) (.of_absent (forall_mem_of_all (by decide)))
  have later_quiet : Quiet tables (later.flatMap Piece.target) :=
    Quiet.target lawful (fun removed written replaced => ends removed written (by
      simp [replaced])) behind_quiet
  have mark_quiet : Quiet tables redactedMark := .of_absent (forall_mem_of_all (by decide))
  rw [sub_eq]
  exact earlier_quiet.append_cons lawful (by decide)
    (mark_quiet.append_cons lawful (by decide) later_quiet)

end Replaced

end Values

section Address

variable {front user password post text : Text}

theorem redactText_eq (text : Text) : redactText tables text =
    (labeledSecretPattern tables).rule.sub ((querySecretPattern tables).rule.sub
      ((credentialUrlPattern tables).rule.sub ((telegramTokenPattern tables).rule.sub
        ((bearerPattern tables).rule.sub text)))) := by
  simp only [redactText, redactionRules, substitute, List.foldl_cons, List.foldl_nil]

theorem bearer_sub_colon (lawful : tables.Lawful) (front : Text) :
    (bearerPattern tables).rule.sub front ++ [':'] =
      (bearerPattern tables).rule.sub (front ++ [':']) := by
  have colon := bearer_separatedBy lawful (show ':' ∈ [':', '@'] by decide)
  rw [colon.sub_append_cons]
  rfl

/-- The first two expressions apply to the parts of an address. -/
theorem earlier_sub_address (lawful : tables.Lawful)
    (user_plain : ∀ character ∈ user, IsUserinfoCharacter tables character)
    (password_plain : ∀ character ∈ password, IsUserinfoCharacter tables character)
    (front post : Text) :
    (telegramTokenPattern tables).rule.sub ((bearerPattern tables).rule.sub
        (front ++ ("://".toList ++ (user ++ ':' :: (password ++ '@' :: post))))) =
      ((telegramTokenPattern tables).rule.sub ((bearerPattern tables).rule.sub front ++ [':']) ++
        "//".toList) ++ ((telegramTokenPattern tables).rule.sub (user ++ ':' :: password) ++
          '@' :: (telegramTokenPattern tables).rule.sub ((bearerPattern tables).rule.sub post)) := by
  have colon := bearer_separatedBy lawful (show ':' ∈ [':', '@'] by decide)
  have at_sign := bearer_separatedBy lawful (show '@' ∈ [':', '@'] by decide)
  have slash := token_separatedBy lawful (show '/' ∈ ['/', '@'] by decide)
  have at_token := token_separatedBy lawful (show '@' ∈ ['/', '@'] by decide)
  have solid : ∀ character ∈ "//".toList ++ (user ++ ':' :: password),
      tables.isSpace character = false := by
    have slashes : ∀ slash ∈ "//".toList, 32 < slash.toNat ∧ slash.toNat < 127 :=
      forall_mem_of_all (by decide)
    refine List.forall_mem_append.mpr ⟨fun slash slash_mem => ?_, List.forall_mem_append.mpr
      ⟨fun character user_mem => (user_plain character user_mem).1, List.forall_mem_cons.mpr
        ⟨lawful.isSpace_graphic ':' (by decide) (by decide),
          fun character password_mem => (password_plain character password_mem).1⟩⟩⟩
    exact lawful.isSpace_graphic slash (slashes slash slash_mem).1 (slashes slash slash_mem).2
  have text_eq : front ++ ("://".toList ++ (user ++ ':' :: (password ++ '@' :: post))) =
      front ++ ':' :: (("//".toList ++ (user ++ ':' :: password)) ++ '@' :: post) := by
    simp
  have left_eq : ∀ left right : Text,
      left ++ ':' :: (("//".toList ++ (user ++ ':' :: password)) ++ '@' :: right) =
        (left ++ [':']) ++ '/' :: ([] ++ '/' :: ((user ++ ':' :: password) ++ '@' :: right)) := by
    simp
  have nothing : (telegramTokenPattern tables).rule.sub [] = [] := rfl
  rw [text_eq, colon.sub_append_cons, at_sign.sub_append_cons, bearer_sub_eq_self solid, left_eq,
    slash.sub_append_cons, slash.sub_append_cons, at_token.sub_append_cons, nothing]
  simp

/-- The parts in front of an address and behind it stay quiet. -/
theorem QuietAround.beside (lawful : tables.Lawful)
    (quiet : QuietAround tables front user password post) :
    Quiet tables ((telegramTokenPattern tables).rule.sub
        ((bearerPattern tables).rule.sub front ++ [':'])) ∧
      Quiet tables ((telegramTokenPattern tables).rule.sub
        ((bearerPattern tables).rule.sub post)) := by
  rw [bearer_sub_colon lawful]
  exact ⟨((quiet.front.earlier lawful).1.earlier lawful).2.1,
    ((quiet.post.earlier lawful).1.earlier lawful).2.1⟩

/-- A password that the last two expressions leave was there. -/
theorem infix_of_infix_later
    (password_plain : ∀ character ∈ password, IsUserinfoCharacter tables character)
    (not_mark : ¬password <:+: redactedMark)
    (values : ¬JoinsValue password ∨ Quiet tables text)
    (occurs : password <:+: (labeledSecretPattern tables).rule.sub
      ((querySecretPattern tables).rule.sub text)) : password <:+: text := by
  rcases values with apart | quiet
  · have solid : ∀ character ∈ password, tables.isSpace character = false :=
      fun character character_mem => (password_plain character character_mem).1
    have colon_absent : ':' ∉ password := fun colon_mem =>
      (password_plain ':' colon_mem).2 (by decide)
    have leaves := fun text : Text =>
      @infix_of_infix_value tables password text not_mark solid colon_absent apart
    exact (leaves _).1 ((leaves _).2 occurs)
  · rwa [quiet.sub_eq_self.1, quiet.sub_eq_self.2] at occurs

section Redacted

variable (lawful : tables.Lawful)
  (password_plain : ∀ character ∈ password, IsUserinfoCharacter tables character)

include lawful password_plain

/-- A password that stands only in its place is not beside it behind the first two expressions. -/
theorem beside_absent (password_ne : password ≠ []) (not_post : ¬password <:+: post)
    (not_mark : ¬password <:+: redactedMark)
    (clear : AddressClear tables front user password post) :
    ¬password <:+: (telegramTokenPattern tables).rule.sub
        ((bearerPattern tables).rule.sub front ++ [':']) ∧
      ¬password <:+: (telegramTokenPattern tables).rule.sub
        ((bearerPattern tables).rule.sub post) := by
  have solid : ∀ character ∈ password, tables.isSpace character = false :=
    fun character character_mem => (password_plain character character_mem).1
  have colon_absent : ':' ∉ password := fun colon_mem =>
    (password_plain ':' colon_mem).2 (by decide)
  have space_absent : ' ' ∉ password := by
    intro space_mem
    have not_blank := solid ' ' space_mem
    rw [lawful.isSpace_space] at not_blank
    cases not_blank
  constructor
  · intro occurs
    rw [bearer_sub_colon lawful] at occurs
    have occurs := infix_of_infix_token lawful not_mark solid
      (clear.tokens _ List.mem_cons_self) occurs
    rw [← bearer_sub_colon lawful] at occurs
    rcases infix_of_append_cons colon_absent occurs with before | nothing
    · exact clear.away (infix_of_infix_bearer lawful not_mark space_absent
        (clear.bearers front List.mem_cons_self) before)
    · exact password_ne (List.eq_nil_of_infix_nil nothing)
  · intro occurs
    exact not_post (infix_of_infix_bearer lawful not_mark space_absent
      (clear.bearers post (by simp)) (infix_of_infix_token lawful not_mark solid
        (clear.tokens post (by simp)) occurs))

variable (user_plain : ∀ character ∈ user, IsUserinfoCharacter tables character)

include user_plain

/-- A password that is found, and stands in no other place, is removed. -/
theorem password_unseen (password_ne : password ≠ []) (not_post : ¬password <:+: post)
    (not_mark : ¬password <:+: redactedMark) (found : AddressFound tables front user password)
    (clear : AddressClear tables front user password post) :
    ¬password <:+: redactText tables
      (front ++ ("://".toList ++ (user ++ ':' :: (password ++ '@' :: post)))) := by
  have plain : ∀ mark ∈ ['/', ':', '@'], mark ∉ user ∧ mark ∉ password := fun mark mark_mem =>
    ⟨fun user_mem => (user_plain mark user_mem).2 mark_mem,
      fun password_mem => (password_plain mark password_mem).2 mark_mem⟩
  have colon_plain := plain ':' (by decide)
  have slash_plain := plain '/' (by decide)
  have at_plain := plain '@' (by decide)
  have nowhere : ¬password <:+: [] := fun nothing => password_ne (List.eq_nil_of_infix_nil nothing)
  have beside := beside_absent lawful password_plain password_ne not_post not_mark clear
  intro occurs
  rw [redactText_eq, earlier_sub_address lawful user_plain password_plain] at occurs
  rcases found with ⟨uncut, user_ne, stands⟩ | @⟨before, after, cuts, gone⟩
  · rcases (scheme_kept_iff lawful).mpr stands with ⟨first, name, front_eq, spec, outer⟩
    rw [sub_userinfo_of_uncut lawful colon_plain.1 colon_plain.2 uncut] at occurs
    have replaces : (credentialUrlPattern tables).rule.Replaces
        ((telegramTokenPattern tables).rule.sub ((bearerPattern tables).rule.sub front ++ [':']) ++
          "//".toList) (user ++ ':' :: password) ('@' :: (telegramTokenPattern tables).rule.sub
            ((bearerPattern tables).rule.sub post)) := by
      rcases @value_kept_or_replaced _ (user ++ ':' :: password) lawful
        ((telegramTokenPattern tables).rule.sub ((bearerPattern tables).rule.sub front ++ [':']))
        ((telegramTokenPattern tables).rule.sub ((bearerPattern tables).rule.sub post))
        (by simp [slash_plain]) (by simp [at_plain]) with keeps | ⟨replaces, _⟩
      · rw [front_eq] at keeps
        exact absurd keeps (not_keeps_of_scheme lawful spec outer user_ne password_ne user_plain
          password_plain)
      · exact replaces
    have occurs := infix_of_infix_later password_plain not_mark (clear.values.imp_right
      fun quiet => quiet_of_replaced lawful replaces (quiet.beside lawful).1
        (quiet.beside lawful).2) occurs
    rcases infix_of_replaced lawful replaces password_ne slash_plain.2 at_plain.2 not_mark occurs
      with before | behind
    · exact beside.1 before
    · exact beside.2 behind
  · rw [cuts.sub_eq lawful colon_plain.1 colon_plain.2, List.append_assoc] at occurs
    have stays_quiet : QuietAround tables front user password post → Quiet tables
        ((credentialUrlPattern tables).rule.sub ((telegramTokenPattern tables).rule.sub
          ((bearerPattern tables).rule.sub front ++ [':']) ++ ("//".toList ++
            (before ++ (redactedMark ++ after) ++ '@' ::
              (telegramTokenPattern tables).rule.sub ((bearerPattern tables).rule.sub post))))) := by
      intro quiet
      rcases quiet.beside lawful with ⟨front_quiet, post_quiet⟩
      have value_quiet := (quiet.cut _ _ cuts).append_cons lawful
        (show '@' ∈ ['/', '@'] by decide) post_quiet
      have nothing : Quiet tables [] := .of_absent (by simp)
      have address_quiet := front_quiet.append_cons lawful (show '/' ∈ ['/', '@'] by decide)
        (nothing.append_cons lawful (show '/' ∈ ['/', '@'] by decide) value_quiet)
      exact (address_quiet.earlier lawful).2.2
    have occurs := infix_of_infix_later password_plain not_mark
      (clear.values.imp_right stays_quiet) occurs
    have occurs := infix_source_of_walled (url_walled lawful _) slash_plain.2 at_plain.2
      (fun removed written replaced =>
        (Pattern.written_of_mem_pieces replaced : written = redactedMark) ▸ not_mark) occurs
    rw [Rule.flatMap_source_pieces] at occurs
    rcases infix_of_append_cons slash_plain.2 occurs with before | occurs
    · exact beside.1 before
    rcases infix_of_append_cons slash_plain.2
      (show password <:+: [] ++ '/' :: _ from occurs) with nothing | occurs
    · exact nowhere nothing
    rcases infix_of_append_cons at_plain.2 occurs with within | behind
    · exact gone within
    · exact beside.2 behind

/-- Where the later expressions find nothing, a password that is not found is seen. -/
theorem password_seen (quiet : Quiet tables
      (front ++ ("://".toList ++ (user ++ ':' :: (password ++ '@' :: post)))))
    (not_found : ¬AddressFound tables front user password) :
    password <:+: redactText tables
      (front ++ ("://".toList ++ (user ++ ':' :: (password ++ '@' :: post)))) := by
  have plain : ∀ mark ∈ ['/', ':', '@'], mark ∉ user ∧ mark ∉ password := fun mark mark_mem =>
    ⟨fun user_mem => (user_plain mark user_mem).2 mark_mem,
      fun password_mem => (password_plain mark password_mem).2 mark_mem⟩
  have earlier_quiet := (((quiet.earlier lawful).1.earlier lawful).2.1.earlier lawful).2.2
  rw [redactText_eq, earlier_quiet.sub_eq_self.1, earlier_quiet.sub_eq_self.2,
    earlier_sub_address lawful user_plain password_plain]
  by_cases cut : ∃ before after, Cuts tables user password before after
  · rcases cut with ⟨before, after, cuts⟩
    have shown : password <:+: before ++ (redactedMark ++ after) := by
      by_contra gone
      exact not_found (.cut cuts gone)
    have absent : ∀ mark ∈ ['/', ':', '@'], mark ∉ before ++ (redactedMark ++ after) := by
      intro mark mark_mem
      have outside : ∀ mark ∈ ['/', ':', '@'], mark ∉ redactedMark := forall_mem_of_all (by decide)
      rcases cuts with ⟨digits, secret, rfl, rfl, _⟩
      simp only [List.mem_append, not_or]
      exact ⟨fun mem => (plain mark mark_mem).1 (List.mem_append_left _ mem),
        outside mark mark_mem, fun mem => (plain mark mark_mem).2 (List.mem_append_right _ mem)⟩
    rw [cuts.sub_eq lawful (plain ':' (by decide)).1 (plain ':' (by decide)).2]
    rcases value_kept_or_replaced lawful _ _ (absent '/' (by decide)) (absent '@' (by decide)) with
      keeps | ⟨_, _, _, _, _, _, _, _, value_eq, _⟩
    · exact shown.trans keeps.infix_sub
    · exact absurd (value_eq ▸ List.mem_append_right _ List.mem_cons_self) (absent ':' (by decide))
  · have uncut : ∀ before after, ¬Cuts tables user password before after :=
      fun before after cuts => cut ⟨before, after, cuts⟩
    rw [sub_userinfo_of_uncut lawful (plain ':' (by decide)).1 (plain ':' (by decide)).2 uncut]
    rcases @value_kept_or_replaced _ (user ++ ':' :: password) lawful _ _
      (by simp [plain '/']) (by simp [plain '@']) with
      keeps | ⟨_, first, name, other, _, front_eq, spec, outer, value_eq, other_ne⟩
    · exact (List.suffix_append_of_suffix (List.suffix_cons _ _)).isInfix.trans keeps.infix_sub
    · have user_eq := ((List.append_cons_inj_of_notMem (plain ':' (by decide)).1
        (plain ':' (by decide)).2).mp value_eq).1
      refine absurd (.whole uncut (user_eq ▸ other_ne) ?_) not_found
      exact (scheme_kept_iff lawful).mp ⟨first, name, front_eq, spec, outer⟩

end Redacted

end Address

end CopyMint
