import CopyMint.Library.Substitution
import Mathlib.Data.List.Induction

/-!
# Words in a text with replacements

Where a word stands in a text after a rule has been applied, and where it has come from. A
word that does not overlap what is written lies between the replacements, so that it stood
in the text before. So does one that overlaps it, if nothing beside what is written goes on
with the word. A separator that a rule never looks beyond divides a text into parts to which
the rule applies one by one.
-/

namespace Substitution

variable {α : Type}

section Words

variable {word left right mark : List α} {separator : α}

/-- A word and a mark overlap where they stand in one text, or one of them has the other. -/
def Overlaps (word mark : List α) : Prop :=
  word <:+: mark ∨ mark <:+: word ∨
    ∃ common, common ≠ [] ∧ (common <:+ word ∧ common <+: mark ∨ common <+: word ∧ common <:+ mark)

/-- A word that does not overlap a mark stands before or behind it. -/
theorem infix_of_append_mark (apart : ¬Overlaps word mark)
    (occurs : word <:+: left ++ (mark ++ right)) :
    word <:+: left ∨ word <:+: right := by
  rcases List.infix_append_iff_ne_nil.mp occurs with before | behind |
    ⟨front, rest, _, rest_ne, rfl, _, rest_begins⟩
  · exact .inl before
  · rcases List.infix_append_iff_ne_nil.mp behind with inside | behind |
      ⟨front, rest, front_ne, _, rfl, front_suffix, _⟩
    · exact absurd (.inl inside) apart
    · exact .inr behind
    · refine absurd (.inr (.inr ⟨front, front_ne, .inr ⟨?_, front_suffix⟩⟩)) apart
      exact List.prefix_append _ _
  · rcases List.prefix_or_prefix_of_prefix rest_begins (List.prefix_append mark right) with
      within | whole
    · exact absurd (.inr (.inr ⟨rest, rest_ne, .inl ⟨List.suffix_append _ _, within⟩⟩)) apart
    · exact absurd (.inr (.inl (whole.isInfix.trans (List.suffix_append _ _).isInfix))) apart

/-- In the word, the element stands behind an end of the mark. -/
def Follows (mark word : List α) (element : α) : Prop :=
  ∃ ending rest, word = ending ++ element :: rest ∧ ending ≠ [] ∧ ending <:+ mark

/-- In the word, the element stands before a beginning of the mark, or before all of it. -/
def Precedes (mark word : List α) (element : α) : Prop :=
  ∃ front beginning, word = front ++ element :: beginning ∧ beginning ≠ [] ∧
    (beginning <+: mark ∨ mark <+: beginning)

/-- A word stands before or behind a mark if nothing beside the mark goes on with it. -/
theorem infix_of_beside (not_mark : ¬word <:+: mark)
    (last_spec : ∀ last ∈ left.getLast?, ¬Precedes mark word last)
    (next_spec : ∀ next ∈ right.head?, ¬Follows mark word next)
    (occurs : word <:+: left ++ (mark ++ right)) : word <:+: left ∨ word <:+: right := by
  rcases List.infix_append_iff_ne_nil.mp occurs with before | behind |
    ⟨front, rest, front_ne, rest_ne, rfl, front_suffix, rest_begins⟩
  · exact .inl before
  · rcases List.infix_append_iff_ne_nil.mp behind with inside | behind |
      ⟨front, rest, front_ne, rest_ne, rfl, front_suffix, rest_begins⟩
    · exact absurd inside not_mark
    · exact .inr behind
    · cases rest with
      | nil => exact absurd rfl rest_ne
      | cons next rest =>
          rcases rest_begins with ⟨further, rfl⟩
          exact absurd ⟨front, rest, rfl, front_ne, front_suffix⟩ (next_spec next rfl)
  · rcases List.eq_nil_or_concat front with rfl | ⟨front, last, rfl⟩
    · exact absurd rfl front_ne
    rw [List.concat_eq_append] at front_suffix last_spec
    rcases front_suffix with ⟨further, rfl⟩
    refine absurd ⟨front, rest, by simp, rest_ne, ?_⟩ (last_spec last (by simp))
    exact List.prefix_or_prefix_of_prefix rest_begins (List.prefix_append mark right)

/-- A word without a separator stands before or behind it. -/
theorem infix_of_append_cons (absent : separator ∉ word)
    (occurs : word <:+: left ++ separator :: right) : word <:+: left ∨ word <:+: right := by
  rcases List.infix_append_iff_ne_nil.mp occurs with before | behind |
    ⟨front, rest, _, rest_ne, rfl, _, rest_begins⟩
  · exact .inl before
  · rcases List.infix_cons_iff.mp behind with begins | behind
    · cases word with
      | nil => exact .inl (List.nil_infix)
      | cons first rest =>
          rw [List.cons_prefix_cons] at begins
          exact absurd (begins.1 ▸ List.mem_cons_self) absent
    · exact .inr behind
  · cases rest with
    | nil => exact absurd rfl rest_ne
    | cons first rest =>
        rw [List.cons_prefix_cons] at rest_begins
        exact absurd (List.mem_append_right _ (rest_begins.1 ▸ List.mem_cons_self)) absent

/-- A suffix without a separator stands behind it. -/
theorem suffix_of_append_cons (absent : separator ∉ word)
    (ends : word <:+ left ++ separator :: right) : word <:+ right := by
  rcases List.suffix_or_suffix_of_suffix ends (List.suffix_append left (separator :: right)) with
    within | whole
  · rcases List.suffix_cons_iff.mp within with rfl | behind
    · exact absurd List.mem_cons_self absent
    · exact behind
  · exact absurd (whole.subset List.mem_cons_self) absent

/-- A prefix of one text before another is a prefix of the first, or has it and goes on. -/
theorem prefix_or_append_of_prefix (begins : word <+: left ++ right) :
    word <+: left ∨ ∃ rest, word = left ++ rest ∧ rest <+: right := by
  rcases List.prefix_or_prefix_of_prefix begins (List.prefix_append left right) with
    before | ⟨rest, rfl⟩
  · exact .inl before
  · exact .inr ⟨rest, rfl, (List.prefix_append_right_inj left).mp begins⟩

/-- A prefix without a separator stands before it. -/
theorem prefix_of_append_cons (absent : separator ∉ word)
    (begins : word <+: left ++ separator :: right) : word <+: left := by
  rcases prefix_or_append_of_prefix begins with before | ⟨rest, rfl, rest_begins⟩
  · exact before
  · cases rest with
    | nil => exact (List.append_nil left).symm ▸ List.prefix_refl left
    | cons first rest =>
        rw [List.cons_prefix_cons] at rest_begins
        exact absurd (List.mem_append_right _ (rest_begins.1 ▸ List.mem_cons_self)) absent

/-- The first separator divides a text in one way. -/
theorem append_cons_inj_of_first {front behind : List α} (left_absent : separator ∉ left)
    (front_absent : separator ∉ front)
    (same : left ++ separator :: right = front ++ separator :: behind) :
    left = front ∧ right = behind := by
  have left_begins := prefix_of_append_cons left_absent (same ▸ List.prefix_append left _)
  have front_begins := prefix_of_append_cons front_absent (same ▸ List.prefix_append front _)
  have equal := left_begins.eq_of_length_le front_begins.length_le
  rw [equal] at same
  exact ⟨equal, (List.cons.inj (List.append_cancel_left same)).2⟩

end Words

section Pieces

variable {pieces : List (Piece α)} {word : List α}

/--
A word of the new text stood in the old one, or it is completed by the heading that is
written in front of the mark, if nothing beside a mark goes on with the word.
-/
theorem infix_source_or_heading {heading mark : List α} (not_mark : ¬word <:+: mark)
    (written_eq : ∀ removed written, .replaced removed written ∈ pieces →
      written = heading ++ mark)
    (beside : ∀ earlier removed written later,
      pieces = earlier ++ .replaced removed written :: later →
        (∀ last ∈ (earlier.flatMap Piece.source ++ heading).getLast?, ¬Precedes mark word last) ∧
          ∀ next ∈ (later.flatMap Piece.target).head?, ¬Follows mark word next)
    (occurs : word <:+: pieces.flatMap Piece.target) :
    word <:+: pieces.flatMap Piece.source ∨
      ∃ earlier removed written later, pieces = earlier ++ .replaced removed written :: later ∧
        word <:+: earlier.flatMap Piece.source ++ heading := by
  -- The text is what has been kept since the last mark.
  have general : ∀ text : List α,
      (∀ earlier removed written later, pieces = earlier ++ .replaced removed written :: later →
        (∀ last ∈ (text ++ earlier.flatMap Piece.source ++ heading).getLast?,
          ¬Precedes mark word last) ∧
          ∀ next ∈ (later.flatMap Piece.target).head?, ¬Follows mark word next) →
      word <:+: text ++ pieces.flatMap Piece.target →
        word <:+: text ++ pieces.flatMap Piece.source ∨
          ∃ earlier removed written later, pieces = earlier ++ .replaced removed written :: later ∧
            word <:+: text ++ earlier.flatMap Piece.source ++ heading := by
    clear occurs beside
    induction pieces with
    | nil => exact fun text _ occurs => .inl occurs
    | cons piece pieces ih =>
        have ih := ih fun removed written replaced =>
          written_eq removed written (List.mem_cons_of_mem _ replaced)
        intro text beside occurs
        cases piece with
        | kept element =>
            have same : ∀ earlier : List (Piece α),
                text ++ [element] ++ earlier.flatMap Piece.source =
                  text ++ (Piece.kept element :: earlier).flatMap Piece.source := by
              simp [Piece.source]
            rcases ih (text ++ [element]) (fun earlier removed written later pieces_eq => by
                rw [same]
                exact beside (.kept element :: earlier) removed written later
                  (by rw [pieces_eq]; rfl))
              (by simpa [Piece.target] using occurs) with
              stood | ⟨earlier, removed, written, later, rfl, completed⟩
            · exact .inl (same pieces ▸ stood)
            · exact .inr ⟨.kept element :: earlier, removed, written, later, rfl,
                same earlier ▸ completed⟩
        | replaced removed written =>
            cases written_eq removed written List.mem_cons_self
            have here := beside [] removed _ pieces rfl
            rw [List.flatMap_cons, Piece.target, List.append_assoc,
              ← List.append_assoc text] at occurs
            rcases infix_of_beside not_mark (by simpa using here.1) here.2 occurs with
              before | behind
            · exact .inr ⟨[], removed, _, pieces, rfl, by simpa using before⟩
            have later_beside : ∀ earlier removed written later,
                pieces = earlier ++ .replaced removed written :: later →
                  (∀ last ∈ ([] ++ earlier.flatMap Piece.source ++ heading).getLast?,
                    ¬Precedes mark word last) ∧
                    ∀ next ∈ (later.flatMap Piece.target).head?, ¬Follows mark word next := by
              intro earlier other written later pieces_eq
              rcases beside (.replaced removed _ :: earlier) other written later
                (by rw [pieces_eq]; rfl) with ⟨last_spec, next_spec⟩
              refine ⟨fun last last_mem => last_spec last ?_, next_spec⟩
              rw [List.flatMap_cons, ← List.append_assoc, List.append_assoc (text ++ _)]
              exact List.mem_getLast?_append_of_mem_getLast? last_mem
            rcases ih [] later_beside behind with
              stood | ⟨earlier, other, written, later, rfl, completed⟩
            · exact .inl (stood.trans ⟨text ++ removed, [], by simp [Piece.source]⟩)
            · refine .inr ⟨.replaced removed _ :: earlier, other, written, later, rfl,
                completed.trans ⟨text ++ removed, [], by simp [Piece.source]⟩⟩
  exact general [] (by simpa using beside) occurs

/-- A word of the new text that overlaps nothing that is written has been kept. -/
theorem exists_kept_of_apart
    (apart : ∀ removed written, .replaced removed written ∈ pieces → ¬Overlaps word written)
    (occurs : word <:+: pieces.flatMap Piece.target) :
    ∃ earlier later, pieces = earlier ++ word.map .kept ++ later := by
  have general : ∀ text : List α, word <:+: text ++ pieces.flatMap Piece.target →
      ∃ earlier later, text.map .kept ++ pieces = earlier ++ word.map .kept ++ later := by
    clear occurs
    induction pieces with
    | nil =>
        rintro text ⟨left, right, whole⟩
        rw [List.flatMap_nil, List.append_nil] at whole
        exact ⟨left.map .kept, right.map .kept, by rw [List.append_nil, ← whole]; simp⟩
    | cons piece pieces ih =>
        have later := ih fun removed written replaced_mem =>
          apart removed written (List.mem_cons_of_mem _ replaced_mem)
        intro text occurs
        rw [List.flatMap_cons] at occurs
        cases piece with
        | kept element =>
            rw [← List.append_assoc] at occurs
            rcases later (text ++ [element]) occurs with ⟨earlier, behind, whole⟩
            exact ⟨earlier, behind, by simpa using whole⟩
        | replaced removed written =>
            rcases infix_of_append_mark (apart removed written List.mem_cons_self) occurs with
              ⟨left, right, rfl⟩ | behind
            · exact ⟨left.map .kept, right.map .kept ++ .replaced removed written :: pieces,
                by simp⟩
            · rcases later [] behind with ⟨earlier, others, whole⟩
              refine ⟨text.map .kept ++ .replaced removed written :: earlier, others, ?_⟩
              rw [List.map_nil, List.nil_append] at whole
              simp [whole]
  exact general [] occurs

/-- A word that overlaps nothing that is written stood in the old text. -/
theorem infix_source_of_apart
    (apart : ∀ removed written, .replaced removed written ∈ pieces → ¬Overlaps word written)
    (occurs : word <:+: pieces.flatMap Piece.target) : word <:+: pieces.flatMap Piece.source := by
  rcases exists_kept_of_apart apart occurs with ⟨earlier, later, rfl⟩
  rw [List.flatMap_append, List.flatMap_append, flatMap_source_kept]
  exact List.infix_append _ _ _

/-- An element that is never written has been kept. -/
theorem exists_kept_of_cons {element : α} {left right : List α}
    (absent : ∀ removed written, .replaced removed written ∈ pieces → element ∉ written)
    (whole : pieces.flatMap Piece.target = left ++ element :: right) :
    ∃ earlier later, pieces = earlier ++ .kept element :: later ∧
      earlier.flatMap Piece.target = left ∧ later.flatMap Piece.target = right := by
  induction pieces generalizing left with
  | nil => simp at whole
  | cons piece pieces ih =>
      have later_absent : ∀ removed written, .replaced removed written ∈ pieces →
          element ∉ written := fun removed written replaced_mem =>
        absent removed written (List.mem_cons_of_mem _ replaced_mem)
      rw [List.flatMap_cons] at whole
      rcases List.append_eq_append_iff.mp whole with
        ⟨rest, rfl, rest_eq⟩ | ⟨rest, target_eq, rest_eq⟩
      · rcases ih later_absent rest_eq with ⟨earlier, later, rfl, rfl, rfl⟩
        exact ⟨piece :: earlier, later, rfl, by rw [List.flatMap_cons], rfl⟩
      · -- The element begins what the piece has become, or what comes after it.
        cases rest with
        | nil =>
            rcases @ih [] later_absent rest_eq.symm with ⟨earlier, later, rfl, empty, rfl⟩
            refine ⟨piece :: earlier, later, rfl, ?_, rfl⟩
            rw [List.flatMap_cons, empty, target_eq, List.append_nil, List.append_nil]
        | cons first rest =>
            rw [List.cons_append, List.cons.injEq] at rest_eq
            rcases rest_eq with ⟨rfl, rfl⟩
            cases piece with
            | kept other =>
                rcases List.append_eq_cons_iff.mp target_eq.symm with
                  ⟨rfl, same⟩ | ⟨_, _, impossible⟩
                · cases same
                  exact ⟨[], pieces, rfl, rfl, rfl⟩
                · simp at impossible
            | replaced removed written =>
                refine absurd ?_ (absent removed written List.mem_cons_self)
                rw [show written = left ++ element :: rest from target_eq]
                exact List.mem_append_right _ List.mem_cons_self

/-- Pieces that are all kept, or the last that is replaced with what is kept behind it. -/
theorem kept_or_last_replaced (pieces : List (Piece α)) :
    (∃ rest : List α, pieces = rest.map .kept) ∨
      ∃ before removed written, ∃ rest : List α,
        pieces = before ++ .replaced removed written :: rest.map .kept := by
  induction pieces with
  | nil => exact .inl ⟨[], rfl⟩
  | cons piece pieces ih =>
      rcases ih with ⟨rest, rfl⟩ | ⟨before, removed, written, rest, rfl⟩
      · cases piece with
        | kept element => exact .inl ⟨element :: rest, rfl⟩
        | replaced removed written => exact .inr ⟨[], removed, written, rest, rfl⟩
      · exact .inr ⟨piece :: before, removed, written, rest, rfl⟩

/-- Pieces that are all kept, or the first that is replaced with what is kept before it. -/
theorem kept_or_first_replaced (pieces : List (Piece α)) :
    (∃ rest : List α, pieces = rest.map .kept) ∨
      ∃ rest : List α, ∃ removed written behind,
        pieces = rest.map .kept ++ .replaced removed written :: behind := by
  induction pieces with
  | nil => exact .inl ⟨[], rfl⟩
  | cons piece pieces ih =>
      cases piece with
      | replaced removed written => exact .inr ⟨[], removed, written, pieces, rfl⟩
      | kept element =>
          rcases ih with ⟨rest, rfl⟩ | ⟨rest, removed, written, behind, rfl⟩
          · exact .inl ⟨element :: rest, rfl⟩
          · exact .inr ⟨element :: rest, removed, written, behind, rfl⟩

theorem flatMap_target_kept (elements : List α) :
    (elements.map Piece.kept).flatMap Piece.target = elements := by
  induction elements with
  | nil => rfl
  | cons element elements ih => simpa [Piece.target] using ih

theorem replaced_not_mem_kept (removed written : List α) :
    Piece.replaced removed written ∉ word.map Piece.kept := by
  intro replaced_mem
  rcases List.mem_map.mp replaced_mem with ⟨_, _, impossible⟩
  cases impossible

/-- What is replaced stands before what is kept, or behind it. -/
theorem replaced_apart_from_kept {earlier later before after : List (Piece α)}
    {removed written : List α}
    (same : earlier ++ word.map .kept ++ later = before ++ .replaced removed written :: after) :
    (∃ between, earlier = before ++ .replaced removed written :: between) ∨
      ∃ between, before = earlier ++ word.map .kept ++ between := by
  rcases List.append_eq_append_iff.mp same with ⟨between, rfl, _⟩ | ⟨rest, whole, rest_eq⟩
  · exact .inr ⟨between, rfl⟩
  rcases List.cons_eq_append_iff.mp rest_eq with ⟨rfl, _⟩ | ⟨rest, rfl, _⟩
  · rw [List.append_nil] at whole
    exact .inr ⟨[], by rw [whole, List.append_nil]⟩
  rcases List.append_eq_append_iff.mp whole with ⟨inner, _, inner_eq⟩ | ⟨inner, rfl, inner_eq⟩
  · exact absurd (inner_eq ▸ List.mem_append_right inner List.mem_cons_self)
      (replaced_not_mem_kept removed written)
  · rcases List.cons_eq_append_iff.mp inner_eq with ⟨rfl, inner_eq⟩ | ⟨between, rfl, _⟩
    · exact absurd (inner_eq ▸ List.mem_cons_self) (replaced_not_mem_kept removed written)
    · exact .inl ⟨between, rfl⟩

section Walls

variable {wallLeft wallRight : α}

/-- What is replaced stands between two elements that are kept. -/
def Walled (wallLeft wallRight : α) (pieces : List (Piece α)) : Prop :=
  ∀ earlier removed written later, pieces = earlier ++ .replaced removed written :: later →
    (∃ front, earlier = front ++ [.kept wallLeft]) ∧ ∃ behind, later = .kept wallRight :: behind

/-- On each side of a replaced piece the others have their walls. -/
theorem Walled.sides {earlier later : List (Piece α)} {removed written : List α}
    (walled : Walled wallLeft wallRight (earlier ++ .replaced removed written :: later)) :
    Walled wallLeft wallRight earlier ∧ Walled wallLeft wallRight later := by
  constructor
  · rintro ahead gone mark between rfl
    have whole := walled ahead gone mark (between ++ .replaced removed written :: later) (by simp)
    refine ⟨whole.1, ?_⟩
    rcases whole.2 with ⟨behind, between_eq⟩
    cases between with
    | nil => simp at between_eq
    | cons piece between =>
        rw [List.cons_append, List.cons.injEq] at between_eq
        exact ⟨between, by rw [between_eq.1]⟩
  · rintro between gone mark behind rfl
    have whole := walled (earlier ++ .replaced removed written :: between) gone mark behind
      (by simp)
    refine ⟨?_, whole.2⟩
    rcases whole.1 with ⟨front, front_eq⟩
    rcases List.eq_nil_or_concat between with rfl | ⟨others, piece, rfl⟩
    · simpa using congrArg List.getLast? front_eq
    · have last_eq := congrArg List.getLast? front_eq
      simp only [List.concat_eq_append, List.getLast?_append, List.getLast?_cons] at last_eq
      refine ⟨others, ?_⟩
      simp at last_eq
      rw [last_eq, List.concat_eq_append]

/-- A word without the walls stood in the old text, unless it is part of what is written. -/
theorem infix_source_of_walled (walled : Walled wallLeft wallRight pieces)
    (left_absent : wallLeft ∉ word) (right_absent : wallRight ∉ word)
    (outside : ∀ removed written, .replaced removed written ∈ pieces → ¬word <:+: written)
    (occurs : word <:+: pieces.flatMap Piece.target) : word <:+: pieces.flatMap Piece.source := by
  induction length_eq : pieces.length using Nat.strongRecOn generalizing pieces with
  | ind length ih =>
  rcases kept_or_first_replaced pieces with ⟨rest, rfl⟩ | ⟨rest, removed, written, later, rfl⟩
  · rwa [flatMap_target_kept, ← flatMap_source_kept rest] at occurs
  · rcases walled _ _ _ _ rfl with ⟨⟨front, front_eq⟩, behind, rfl⟩
    rcases List.map_eq_append_iff.mp front_eq with ⟨text, last, rfl, _, last_eq⟩
    rcases List.map_eq_singleton_iff.mp last_eq with ⟨_, rfl, last_eq⟩
    cases last_eq
    simp only [List.flatMap_append, List.flatMap_cons, flatMap_target_kept, flatMap_source_kept,
      Piece.target, Piece.source, List.append_assoc, List.singleton_append] at occurs ⊢
    rcases infix_of_append_cons left_absent occurs with before | occurs
    · exact before.trans (List.prefix_append _ _).isInfix
    rcases infix_of_append_cons right_absent occurs with within | after
    · exact absurd within (outside removed written (by simp))
    · have shorter : (Piece.kept wallRight :: behind).length < length := by
        simp only [← length_eq, List.length_append, List.length_cons]
        omega
      have stood := ih _ shorter walled.sides.2
        (fun removed written replaced => outside removed written (by
          rw [List.mem_append, List.mem_cons]
          exact .inr (.inr replaced)))
        (after.trans (List.suffix_cons wallRight _).isInfix) rfl
      refine stood.trans ⟨text ++ wallLeft :: removed, [], ?_⟩
      simp [Piece.source]

/-- A wall does not stand inside what another one begins. -/
theorem not_inside_of_walled {front value rest front' rest' : List α}
    (same : front ++ wallLeft :: (value ++ rest) = front' ++ wallLeft :: rest')
    (absent : wallLeft ∉ value) (less : front.length < front'.length) :
    front.length + value.length ≤ front'.length := by
  by_contra inside
  rcases List.append_eq_append_iff.mp same with ⟨more, rfl, rest_eq⟩ | ⟨more, rfl, _⟩
  · cases more with
    | nil => simp at less
    | cons wall more =>
        rw [List.cons_append, List.cons.injEq] at rest_eq
        simp only [List.length_append, List.length_cons] at inside
        have begins : more ++ [wallLeft] <+: value := by
          refine List.prefix_of_prefix_length_le (rest_eq.2 ▸ ⟨rest', by simp⟩)
            (List.prefix_append value rest) ?_
          rw [List.length_append, List.length_singleton]
          omega
        exact absent (begins.subset (by simp))
  · rw [List.length_append] at less
    omega

/-- Of two stretches between walls that overlap, each begins and ends as the other. -/
theorem walled_inj {front front' value value' behind behind' : List α}
    (same : front ++ wallLeft :: (value ++ wallRight :: behind) =
      front' ++ wallLeft :: (value' ++ wallRight :: behind'))
    (absent : wallLeft ∉ value ∧ wallRight ∉ value)
    (absent' : wallLeft ∉ value' ∧ wallRight ∉ value')
    (starts : front.length < front'.length + value'.length)
    (reaches : front'.length < front.length + value.length) :
    front = front' ∧ value = value' ∧ behind = behind' := by
  have after := mt (not_inside_of_walled same absent.1) (Nat.not_le.mpr reaches)
  have before := mt (not_inside_of_walled same.symm absent'.1) (Nat.not_le.mpr starts)
  rcases List.append_inj same (by omega) with ⟨front_eq, rest_eq⟩
  exact ⟨front_eq, append_cons_inj_of_first absent.2 absent'.2 (List.cons.inj rest_eq).2⟩

end Walls

end Pieces

namespace Rule

variable {rule : Rule α}

section Finding

theorem find_nil (rule : Rule α) {before : List α} : rule.find before [] = none := by
  cases finds : rule.find before [] with
  | none => rfl
  | some found =>
      exact absurd (List.prefix_nil.mp (rule.found_prefix finds)) (source_ne_nil finds)

/-- What is replaced has been found somewhere. -/
theorem exists_find_of_mem_piecesFrom {skip : ℕ} {before text removed written : List α}
    (replaced : .replaced removed written ∈ rule.piecesFrom skip before text) :
    ∃ before rest found, rule.find before rest = some found ∧ found.removed = removed ∧
      found.written = written := by
  induction text generalizing skip before with
  | nil =>
      rw [piecesFrom] at replaced
      cases replaced
  | cons element rest ih =>
      cases skip with
      | succ skip =>
          rw [piecesFrom] at replaced
          exact ih replaced
      | zero =>
          rw [piecesFrom] at replaced
          cases finds : rule.find before (element :: rest) with
          | none =>
              rw [finds] at replaced
              rcases List.mem_cons.mp replaced with impossible | later
              · cases impossible
              · exact ih later
          | some found =>
              rw [finds] at replaced
              rcases List.mem_append.mp replaced with here | later
              · rcases List.mem_append.mp here with opening | behind
                · rcases List.mem_map.mp opening with ⟨_, _, impossible⟩
                  cases impossible
                · rcases List.mem_cons.mp behind with same | closing
                  · cases same
                    exact ⟨before, element :: rest, found, finds, rfl, rfl⟩
                  · rcases List.mem_map.mp closing with ⟨_, _, impossible⟩
                    cases impossible
              · exact ih later

/-- A text in which nothing is found is left alone. -/
theorem sub_eq_self {text : List α} (finds : ∀ before rest, before ++ rest = text →
    rule.find before.reverse rest = none) : rule.sub text = text := by
  have general : ∀ before rest, before ++ rest = text →
      rule.piecesFrom 0 before.reverse rest = rest.map .kept := by
    intro before rest whole
    induction rest generalizing before with
    | nil => rfl
    | cons element rest ih =>
        have next := ih (before ++ [element]) (by simpa using whole)
        rw [List.reverse_append] at next
        rw [piecesFrom, finds before _ whole, List.map_cons]
        exact congrArg _ next
  rw [sub, pieces, show [] = ([] : List α).reverse from rfl, general [] text rfl,
    flatMap_target_kept]

/--
Where a rule finds something, it is replaced, unless something found before reaches beyond
that place.
-/
theorem exists_pieces_of_find {before rest : List α} {found : Found α}
    (finds : rule.find before.reverse rest = some found) :
    ∃ first reached earlier later other, before = first ++ reached ∧
      rule.find first.reverse (reached ++ rest) = some other ∧
        reached.length < other.source.length ∧
          rule.pieces (before ++ rest) = earlier ++ other.pieces ++ later ∧
            earlier.flatMap Piece.source = first := by
  -- The first elements may belong to something that was found before them.
  have general : ∀ (ahead behind : List α) (skip : ℕ), skip ≤ ahead.length →
      rule.find (ahead.reverse ++ behind) rest = some found →
        ∃ first reached earlier later other, ahead = first ++ reached ∧ skip ≤ first.length ∧
          rule.find (first.reverse ++ behind) (reached ++ rest) = some other ∧
            reached.length < other.source.length ∧
              rule.piecesFrom skip behind (ahead ++ rest) = earlier ++ other.pieces ++ later ∧
                earlier.flatMap Piece.source = first.drop skip := by
    clear finds
    intro ahead
    induction ahead with
    | nil =>
        intro behind skip skip_le finds
        cases Nat.le_zero.mp skip_le
        cases rest with
        | nil => exact absurd (finds.symm.trans rule.find_nil) (Option.some_ne_none _)
        | cons element rest =>
            refine ⟨[], [], [], rule.piecesFrom (found.source.length - 1) (element :: behind) rest,
              found, rfl, Nat.le_refl 0, finds, List.length_pos_iff.mpr (source_ne_nil finds), ?_,
              rfl⟩
            rw [List.nil_append, piecesFrom, show rule.find behind (element :: rest) = _ from finds]
            rfl
    | cons element ahead ih =>
        intro behind skip skip_le finds
        have finds_later : rule.find (ahead.reverse ++ element :: behind) rest = some found := by
          simpa using finds
        cases skip with
        | succ skip =>
            rcases ih (element :: behind) skip (Nat.le_of_succ_le_succ skip_le) finds_later with
              ⟨first, reached, earlier, later, other, rfl, skip_le, finds_other, long, pieces_eq,
                source_eq⟩
            refine ⟨element :: first, reached, earlier, later, other, rfl,
              Nat.succ_le_succ skip_le, by simpa using finds_other, long, ?_, source_eq⟩
            rw [List.cons_append, piecesFrom]
            exact pieces_eq
        | zero =>
            cases here : rule.find behind (element :: (ahead ++ rest)) with
            | none =>
                rcases ih (element :: behind) 0 (Nat.zero_le _) finds_later with
                  ⟨first, reached, earlier, later, other, rfl, _, finds_other, long, pieces_eq,
                    source_eq⟩
                refine ⟨element :: first, reached, .kept element :: earlier, later, other, rfl,
                  Nat.zero_le _, by simpa using finds_other, long, ?_, ?_⟩
                · rw [List.cons_append, piecesFrom, here]
                  exact congrArg _ pieces_eq
                · rw [List.flatMap_cons, source_eq]
                  rfl
            | some other =>
                by_cases reaches : (element :: ahead).length < other.source.length
                · refine ⟨[], element :: ahead, [],
                    rule.piecesFrom (other.source.length - 1) (element :: behind) (ahead ++ rest),
                    other, rfl, Nat.le_refl 0, here, reaches, ?_, rfl⟩
                  rw [List.cons_append, piecesFrom, here]
                  rfl
                · have nonempty := List.length_pos_iff.mpr (source_ne_nil here)
                  rw [List.length_cons] at reaches
                  rcases ih (element :: behind) (other.source.length - 1) (by omega)
                      finds_later with
                    ⟨first, reached, earlier, later, last, rfl, skip_le, finds_last, long,
                      pieces_eq, source_eq⟩
                  refine ⟨element :: first, reached, other.pieces ++ earlier, later, last, rfl,
                    Nat.zero_le _, by simpa using finds_last, long, ?_, ?_⟩
                  · rw [List.cons_append, piecesFrom, here]
                    dsimp only
                    rw [pieces_eq]
                    simp only [List.append_assoc]
                  · have taken :
                        other.source = element :: first.take (other.source.length - 1) := by
                      have taken := List.prefix_iff_eq_take.mp (rule.found_prefix here)
                      rw [← Nat.sub_one_add_one (Nat.ne_of_gt nonempty), List.take_succ_cons,
                        List.append_assoc, List.take_append_of_le_length skip_le] at taken
                      exact taken
                    rw [List.flatMap_append, Found.flatMap_source_pieces, source_eq, taken,
                      List.length_cons, List.length_take, Nat.min_eq_left skip_le,
                      Nat.add_sub_cancel, List.cons_append, List.take_append_drop]
                    rfl
  rcases general before [] 0 (Nat.zero_le _) (by simpa using finds) with
    ⟨first, reached, earlier, later, other, split, _, found_other, long, pieces_eq, source_eq⟩
  exact ⟨first, reached, earlier, later, other, split, by simpa using found_other, long, pieces_eq,
    source_eq⟩

end Finding

section Separators

variable {separator : α}

/-- A rule looks neither beyond a separator in front of a place nor beyond one behind it. -/
structure SeparatedBy (rule : Rule α) (separator : α) : Prop where
  ahead : ∀ before rest further,
    rule.find before (rest ++ separator :: further) = rule.find before rest
  behind : ∀ before further rest,
    rule.find (before ++ separator :: further) rest = rule.find before rest

namespace SeparatedBy

theorem piecesFrom_ahead (separated : rule.SeparatedBy separator) {text : List α}
    (rest before : List α) {skip : ℕ} (skip_le : skip ≤ text.length) :
    rule.piecesFrom skip before (text ++ separator :: rest) =
      rule.piecesFrom skip before text ++
        .kept separator :: rule.piecesFrom 0 (separator :: (text.reverse ++ before)) rest := by
  induction text generalizing skip before with
  | nil =>
      cases Nat.le_zero.mp skip_le
      have none := separated.ahead before [] rest
      rw [rule.find_nil, List.nil_append] at none
      have left : rule.piecesFrom 0 before (separator :: rest) =
          .kept separator :: rule.piecesFrom 0 (separator :: before) rest := by
        rw [piecesFrom, none]
      exact left
  | cons element text ih =>
      cases skip with
      | succ skip =>
          rw [List.cons_append, piecesFrom, piecesFrom,
            ih (element :: before) (Nat.le_of_succ_le_succ skip_le)]
          simp
      | zero =>
          have same := separated.ahead before (element :: text) rest
          rw [List.cons_append] at same
          rw [List.cons_append, piecesFrom, piecesFrom, same]
          cases finds : rule.find before (element :: text) with
          | none =>
              dsimp only
              rw [ih (element :: before) (Nat.zero_le _)]
              simp
          | some found =>
              have long := (rule.found_prefix finds).length_le
              rw [List.length_cons] at long
              dsimp only
              rw [ih (element :: before) (by omega)]
              simp

theorem piecesFrom_behind (separated : rule.SeparatedBy separator) (skip : ℕ)
    (before further text : List α) :
    rule.piecesFrom skip (before ++ separator :: further) text =
      rule.piecesFrom skip before text := by
  induction text generalizing skip before with
  | nil => rfl
  | cons element text ih =>
      cases skip with
      | succ skip => exact ih skip (element :: before)
      | zero =>
          rw [piecesFrom, piecesFrom, separated.behind before further (element :: text)]
          cases rule.find before (element :: text) with
          | none => exact congrArg _ (ih 0 (element :: before))
          | some found => exact congrArg _ (ih _ (element :: before))

/-- The rule applies to what is before a separator and to what is behind it. -/
theorem sub_append_cons (separated : rule.SeparatedBy separator) (text rest : List α) :
    rule.sub (text ++ separator :: rest) = rule.sub text ++ separator :: rule.sub rest := by
  rw [sub, pieces, separated.piecesFrom_ahead rest [] (Nat.zero_le _),
    show separator :: (text.reverse ++ []) = [] ++ separator :: text.reverse by simp,
    separated.piecesFrom_behind 0 [] text.reverse rest, List.flatMap_append, List.flatMap_cons]
  rfl

end SeparatedBy

end Separators

end Rule

end Substitution
