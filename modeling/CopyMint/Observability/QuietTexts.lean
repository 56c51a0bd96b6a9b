import CopyMint.Observability.UrlSchemes

/-!
# Texts in which the later expressions find nothing

The third expression needs the name of a scheme in front of a colon, the fourth the name of
a secret in front of an equals sign, and the fifth a label in front of one of the two. A
text without these is left alone. What the expressions write has no such sign and ends with
a bracket, so that none of them brings one about.
-/

namespace CopyMint

open Hexadecimal Substitution Regex

variable {tables : CharacterTables}

/-- No match of the expression stands in front of one of the signs, with or without blanks. -/
def Lacks (tables : CharacterTables) (regex : Regex Char) (signs : List Char) (text : Text) :
    Prop :=
  ∀ front word blanks sign behind, sign ∈ signs →
    text = front ++ (word ++ (blanks ++ sign :: behind)) →
      (∀ blank ∈ blanks, tables.isSpace blank = true) → (word, []) ∉ regex.takings [] word

/-- There is no name and no label of a secret in front of its sign. -/
structure Quiet (tables : CharacterTables) (text : Text) : Prop where
  names : Lacks tables secretName ['='] text
  labels : Lacks tables secretLabel [':', '='] text

section Lacking

variable {regex : Regex Char} {signs : List Char} {text left right : Text}

theorem Lacks.of_absent (absent : ∀ sign ∈ signs, sign ∉ text) : Lacks tables regex signs text := by
  rintro front word blanks sign behind sign_mem rfl
  exact absurd (by simp) (absent sign sign_mem)

/-- There is no match where an element that it cannot have stands in front of each sign. -/
theorem Lacks.of_shuns (nonempty : 0 < regex.minimum)
    (shuns : ∀ pair ∈ text.zip text.tail, pair.2 ∈ signs →
      tables.isSpace pair.1 = false ∧ regex.Shuns pair.1) : Lacks tables regex signs text := by
  intro front word blanks sign behind sign_mem whole blanks_all taking
  have neighbours : ∀ (ahead further : Text) (last next : Char),
      (last, next) ∈ (ahead ++ last :: next :: further).zip
        (ahead ++ last :: next :: further).tail := by
    intro ahead
    induction ahead with
    | nil => exact fun further last next => List.mem_cons_self
    | cons first ahead ih =>
        intro further last next
        cases ahead with
        | nil => exact List.mem_cons_of_mem _ (ih further last next)
        | cons second ahead => exact List.mem_cons_of_mem _ (ih further last next)
  have word_ne : word ≠ [] := by
    rintro rfl
    exact absurd (append_of_mem_takings taking).2 (Nat.not_le.mpr nonempty)
  rcases List.eq_nil_or_concat (word ++ blanks) with nothing | ⟨others, last, split⟩
  · exact word_ne (List.append_eq_nil_iff.mp nothing).1
  have text_eq : text = (front ++ others) ++ last :: sign :: behind := by
    rw [whole, ← List.append_assoc word, split]
    simp
  rcases shuns (last, sign) (text_eq ▸ neighbours _ _ _ _) sign_mem with ⟨plain, refused⟩
  have last_mem : last ∈ word ++ blanks := by
    rw [split]
    simp
  rcases List.mem_append.mp last_mem with word_mem | blank_mem
  · exact not_mem_of_mem_takings refused taking word_mem
  · rw [blanks_all last blank_mem] at plain
    cases plain

/-- A separator that neither a match nor the blanks have divides the condition. -/
theorem Lacks.append_cons {separator : Char} (shuns : regex.Shuns separator)
    (plain : tables.isSpace separator = false) (other : separator ∉ signs)
    (left_lacks : Lacks tables regex signs left) (right_lacks : Lacks tables regex signs right) :
    Lacks tables regex signs (left ++ separator :: right) := by
  intro front word blanks sign behind sign_mem whole blanks_all taking
  have absent : separator ∉ word ++ (blanks ++ [sign]) := by
    simp only [List.mem_append, List.mem_singleton, not_or]
    refine ⟨not_mem_of_mem_takings shuns taking, fun blank_mem => ?_, fun same => ?_⟩
    · rw [blanks_all separator blank_mem] at plain
      cases plain
    · exact other (same ▸ sign_mem)
  have split : left ++ separator :: right = front ++ ((word ++ (blanks ++ [sign])) ++ behind) := by
    rw [whole]
    simp
  rcases List.append_eq_append_iff.mp split with ⟨inside, rfl, rest_eq⟩ | ⟨inside, rfl, rest_eq⟩
  · cases inside with
    | nil =>
        rw [List.nil_append] at rest_eq
        cases named : word ++ (blanks ++ [sign]) with
        | nil => simp at named
        | cons first others =>
            rw [named, List.cons_append, List.cons.injEq] at rest_eq
            exact absent (by rw [named, rest_eq.1]; exact List.mem_cons_self)
    | cons _ inside =>
        rw [List.cons_append, List.cons.injEq] at rest_eq
        refine right_lacks inside word blanks sign behind sign_mem ?_ blanks_all taking
        rw [rest_eq.2]
        simp
  · rcases prefix_of_append_cons absent (rest_eq ▸ List.prefix_append _ behind) with ⟨more, rfl⟩
    exact left_lacks front word blanks sign more sign_mem (by simp) blanks_all taking

/-- Pieces whose texts end with a bracket and have no sign bring no match about. -/
theorem Lacks.target {pieces : List (Piece Char)} (shuns : regex.Shuns ']')
    (plain : tables.isSpace ']' = false)
    (ends : ∀ removed written, .replaced removed written ∈ pieces →
      (∃ front, written = front ++ [']']) ∧ ∀ sign ∈ signs, sign ∉ written)
    (lacks : Lacks tables regex signs (pieces.flatMap Piece.source)) :
    Lacks tables regex signs (pieces.flatMap Piece.target) := by
  intro front word blanks sign behind sign_mem whole blanks_all taking
  have bracket_absent : ']' ∉ word ++ blanks := by
    rw [List.mem_append, not_or]
    refine ⟨not_mem_of_mem_takings shuns taking, fun blank_mem => ?_⟩
    rw [blanks_all ']' blank_mem] at plain
    cases plain
  have divided : pieces.flatMap Piece.target = (front ++ (word ++ blanks)) ++ sign :: behind := by
    rw [whole]
    simp
  rcases exists_kept_of_cons (fun removed written replaced => (ends removed written replaced).2
    sign sign_mem) divided with ⟨earlier, later, rfl, front_eq, rfl⟩
  rcases exists_kept_suffix bracket_absent (fun removed written replaced =>
    (ends removed written (List.mem_append_left _ replaced)).1)
    (front_eq ▸ List.suffix_append front _) with ⟨ahead, rfl⟩
  refine lacks (ahead.flatMap Piece.source) word blanks sign (later.flatMap Piece.source) sign_mem
    ?_ blanks_all taking
  simp [Piece.source, flatMap_source_kept]

/-- A pattern that writes no sign and a bracket at the end brings no match about. -/
theorem Lacks.sub {pattern : Pattern Char} (shuns : regex.Shuns ']')
    (plain : tables.isSpace ']' = false) (ends : ∃ front, pattern.written = front ++ [']'])
    (signless : ∀ sign ∈ signs, sign ∉ pattern.written) (lacks : Lacks tables regex signs text) :
    Lacks tables regex signs (pattern.rule.sub text) := by
  refine Lacks.target shuns plain ?_ ((pattern.rule.flatMap_source_pieces text).symm ▸ lacks)
  intro removed written replaced
  rw [Pattern.written_of_mem_pieces replaced]
  exact ⟨ends, signless⟩

/-- A pattern that begins with the expression, perhaps blanks, and a sign finds nothing. -/
theorem Lacks.sub_eq_self {pattern : Pattern Char}
    (opens : ∀ before rest taken remaining,
      (taken, remaining) ∈ pattern.opening.takings before rest → ∃ word blanks sign more,
        taken = word ++ (blanks ++ sign :: more) ∧ sign ∈ signs ∧
          (∀ blank ∈ blanks, tables.isSpace blank = true) ∧ (word, []) ∈ regex.takings [] word)
    (lacks : Lacks tables regex signs text) : pattern.rule.sub text = text := by
  refine Rule.sub_eq_self fun before rest whole => ?_
  cases finds : pattern.rule.find before.reverse rest with
  | none => rfl
  | some found =>
      exfalso
      rcases pattern.rule.found_prefix finds with ⟨behind, rest_eq⟩
      rcases (Pattern.mem_occurrences _).mp (Pattern.mem_occurrences_of_find finds) with
        ⟨_, _, _, _, opening_mem, _, _⟩
      rcases opens _ _ _ _ opening_mem with
        ⟨word, blanks, sign, more, opening_eq, sign_mem, blanks_all, word_mem⟩
      refine lacks before word blanks sign (more ++ (found.removed ++ (found.closing ++ behind)))
        sign_mem ?_ blanks_all word_mem
      rw [← whole, ← rest_eq, Found.source, opening_eq]
      simp

end Lacking

section Later

variable {text : Text}

theorem maybeOf_unbound (characters : String) : (maybeOf characters).Unbound := ⟨trivial, trivial⟩

theorem secretName_unbound : secretName.Unbound := by
  have spaced : ∀ first marks second : String,
      (concat [ignoringCase first, maybeOf marks, ignoringCase second]).Unbound :=
    fun first marks second => ⟨unbound_ignoringCase first, maybeOf_unbound marks,
      unbound_ignoringCase second, trivial⟩
  exact ⟨spaced "api" "_-" "key", spaced "access" "_-" "token", unbound_ignoringCase "token",
    unbound_ignoringCase "secret", unbound_ignoringCase "key"⟩

theorem secretLabel_unbound : secretLabel.Unbound := by
  have spaced : ∀ first second : String,
      (concat [ignoringCase first, maybeOf "_ -", ignoringCase second]).Unbound :=
    fun first second => ⟨unbound_ignoringCase first, maybeOf_unbound "_ -",
      unbound_ignoringCase second, trivial⟩
  exact ⟨spaced "private" "key", spaced "seed" "phrase", unbound_ignoringCase "mnemonic",
    unbound_ignoringCase "password", unbound_ignoringCase "secret"⟩

theorem credentialUrl_sub_eq_self (lacks : Lacks tables (urlScheme tables) [':'] text) :
    (credentialUrlPattern tables).rule.sub text = text := by
  refine lacks.sub_eq_self fun before rest taken remaining opening_mem => ?_
  rcases mem_takings_seq.mp opening_mem with ⟨_, _, address, taken_eq, boundary_mem, address_mem⟩
  rcases mem_takings_boundary.mp boundary_mem with ⟨_, rfl, rfl⟩
  rcases mem_takings_seq.mp address_mem with ⟨name, _, marks, rfl, name_mem, marks_mem⟩
  rcases mem_takings_seq.mp marks_mem with ⟨slashes, _, more, rfl, slashes_mem, _⟩
  rw [eq_slashes (mem_takings_ignoringCase.mp slashes_mem).2] at taken_eq
  exact ⟨name, [], ':', "//".toList ++ more, taken_eq, List.mem_cons_self,
    fun _ none => absurd none List.not_mem_nil,
    ((mem_takings_unbound urlScheme_unbound).mp name_mem).2⟩

/-- The fourth and the fifth expression leave a quiet text alone. -/
theorem Quiet.sub_eq_self (quiet : Quiet tables text) :
    (querySecretPattern tables).rule.sub text = text ∧
      (labeledSecretPattern tables).rule.sub text = text := by
  constructor
  · refine quiet.names.sub_eq_self fun before rest taken remaining taking => ?_
    rcases mem_takings_seq.mp taking with ⟨name, _, _, rfl, name_mem, sign_mem⟩
    rcases mem_takings_seq.mp sign_mem with ⟨_, _, more, rfl, equals_mem, _⟩
    rcases mem_takings_one.mp equals_mem with ⟨sign, is_sign, rfl, _⟩
    refine ⟨name, [], sign, more, rfl, ?_, fun _ none => absurd none List.not_mem_nil,
      ((mem_takings_unbound secretName_unbound).mp name_mem).2⟩
    rw [of_decide_eq_true is_sign]
    exact List.mem_cons_self
  · refine quiet.labels.sub_eq_self fun before rest taken remaining taking => ?_
    rcases mem_takings_seq.mp taking with ⟨label, _, _, rfl, label_mem, others_mem⟩
    rcases mem_takings_seq.mp others_mem with ⟨blanks, _, _, rfl, blanks_mem, sign_mem⟩
    rcases mem_takings_seq.mp sign_mem with ⟨_, _, more, rfl, sign_mem, _⟩
    rcases mem_takings_one.mp sign_mem with ⟨sign, is_sign, rfl, _⟩
    refine ⟨label, blanks, sign, more, rfl, ?_, (mem_takings_many.mp blanks_mem).2.1,
      ((mem_takings_unbound secretLabel_unbound).mp label_mem).2⟩
    rw [Bool.or_eq_true, decide_eq_true_eq, decide_eq_true_eq] at is_sign
    rcases is_sign with rfl | rfl
    · exact List.mem_cons_self
    · exact List.mem_cons_of_mem _ List.mem_cons_self

end Later

section Earlier

variable {text left right : Text} {pattern : Pattern Char}

theorem secret_shuns : ∀ mark ∈ ['/', '@', ']'], secretName.Shuns mark ∧ secretLabel.Shuns mark :=
  forall_mem_of_all (by decide)

theorem isSpace_bracket (lawful : tables.Lawful) : tables.isSpace ']' = false :=
  lawful.isSpace_graphic ']' (by decide) (by decide)

theorem Quiet.of_absent (absent : ∀ sign ∈ [':', '='], sign ∉ text) : Quiet tables text :=
  ⟨.of_absent fun sign sign_mem => absent sign (List.mem_cons_of_mem _ sign_mem), .of_absent absent⟩

/-- Pieces whose texts end with a bracket and have no sign keep a text quiet. -/
theorem Quiet.target (lawful : tables.Lawful) {pieces : List (Piece Char)}
    (ends : ∀ removed written, .replaced removed written ∈ pieces →
      (∃ front, written = front ++ [']']) ∧ ∀ sign ∈ [':', '='], sign ∉ written)
    (quiet : Quiet tables (pieces.flatMap Piece.source)) :
    Quiet tables (pieces.flatMap Piece.target) where
  names := quiet.names.target (secret_shuns ']' (by decide)).1 (isSpace_bracket lawful)
    fun removed written replaced => ⟨(ends removed written replaced).1, fun sign sign_mem =>
      (ends removed written replaced).2 sign (List.mem_cons_of_mem _ sign_mem)⟩
  labels := quiet.labels.target (secret_shuns ']' (by decide)).2 (isSpace_bracket lawful) ends

theorem Quiet.sub (lawful : tables.Lawful) (ends : ∃ front, pattern.written = front ++ [']'])
    (signless : ∀ sign ∈ [':', '='], sign ∉ pattern.written) (quiet : Quiet tables text) :
    Quiet tables (pattern.rule.sub text) := by
  refine Quiet.target lawful ?_ ((pattern.rule.flatMap_source_pieces text).symm ▸ quiet)
  intro removed written replaced
  rw [Pattern.written_of_mem_pieces replaced]
  exact ⟨ends, signless⟩

/-- The first three expressions keep a text quiet. -/
theorem Quiet.earlier (lawful : tables.Lawful) (quiet : Quiet tables text) :
    Quiet tables ((bearerPattern tables).rule.sub text) ∧
      Quiet tables ((telegramTokenPattern tables).rule.sub text) ∧
        Quiet tables ((credentialUrlPattern tables).rule.sub text) := by
  have heading : ∀ sign ∈ [':', '='], sign ∉ "Bearer ".toList ++ redactedMark :=
    forall_mem_of_all (by decide)
  have mark : ∀ sign ∈ [':', '='], sign ∉ redactedMark := forall_mem_of_all (by decide)
  exact ⟨quiet.sub lawful ⟨"Bearer [REDACTED".toList, rfl⟩ heading,
    quiet.sub lawful ⟨"[REDACTED".toList, rfl⟩ mark,
    quiet.sub lawful ⟨"[REDACTED".toList, rfl⟩ mark⟩

theorem Quiet.append_cons (lawful : tables.Lawful) {separator : Char}
    (separator_mem : separator ∈ ['/', '@']) (left_quiet : Quiet tables left)
    (right_quiet : Quiet tables right) : Quiet tables (left ++ separator :: right) := by
  have kinds : ∀ mark ∈ ['/', '@'], mark ∈ ['/', '@', ']'] ∧ (32 < mark.toNat ∧
      mark.toNat < 127) ∧ mark ∉ ['='] ∧ mark ∉ [':', '='] :=
    forall_mem_of_all (by decide)
  rcases kinds separator separator_mem with ⟨mark_mem, graphic, equals, signs⟩
  have plain := lawful.isSpace_graphic separator graphic.1 graphic.2
  exact ⟨left_quiet.names.append_cons (secret_shuns separator mark_mem).1 plain equals
      right_quiet.names,
    left_quiet.labels.append_cons (secret_shuns separator mark_mem).2 plain signs
      right_quiet.labels⟩

end Earlier

end CopyMint
