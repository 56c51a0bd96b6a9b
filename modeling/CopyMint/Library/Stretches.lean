import CopyMint.Library.Occurrences

/-!
# Stretches that are replaced

What a rule finds at a place is replaced, unless a stretch that was found before reaches
beyond that place. A word of the text is kept exactly if no stretch that is replaced
overlaps it.
-/

namespace Substitution

variable {α : Type}

/-- The last separator divides a text in one way. -/
theorem append_cons_inj_of_last {separator : α} {left right front behind : List α}
    (right_absent : separator ∉ right) (behind_absent : separator ∉ behind)
    (same : left ++ separator :: right = front ++ separator :: behind) :
    left = front ∧ right = behind := by
  have right_ends := suffix_of_append_cons right_absent
    (same ▸ (List.suffix_cons separator right).trans (List.suffix_append left _))
  have behind_ends := suffix_of_append_cons behind_absent
    (same ▸ (List.suffix_cons separator behind).trans (List.suffix_append front _))
  have equal := right_ends.eq_of_length_le behind_ends.length_le
  rw [equal] at same
  exact ⟨List.append_cancel_right same, equal⟩

/-- A run that ends where it has to is determined by the text. -/
theorem run_inj {accepts : α → Bool} {run run' rest rest' : List α}
    (same : run ++ rest = run' ++ rest') (all : ∀ element ∈ run, accepts element = true)
    (all' : ∀ element ∈ run', accepts element = true) (stops : rest.head?.any accepts = false)
    (stops' : rest'.head?.any accepts = false) : run = run' ∧ rest = rest' := by
  rcases List.append_eq_append_iff.mp same with ⟨more, rfl, rfl⟩ | ⟨more, rfl, rfl⟩
  · cases more with
    | nil => exact ⟨(List.append_nil run).symm, rfl⟩
    | cons element more =>
        have accepted := all' element (List.mem_append_right _ List.mem_cons_self)
        rw [List.cons_append, List.head?_cons, Option.any_some, accepted] at stops
        cases stops
  · cases more with
    | nil => exact ⟨List.append_nil run', rfl⟩
    | cons element more =>
        have accepted := all element (List.mem_append_right _ List.mem_cons_self)
        rw [List.cons_append, List.head?_cons, Option.any_some, accepted] at stops'
        cases stops'

section Pieces

variable {pieces : List (Piece α)} {front word rest : List α}

/-- A place of the old text lies between two pieces, or inside one that is replaced. -/
theorem split_or_replaced (whole : pieces.flatMap Piece.source = front ++ rest) :
    (∃ earlier later, pieces = earlier ++ later ∧ earlier.flatMap Piece.source = front ∧
      later.flatMap Piece.source = rest) ∨
      ∃ earlier removed written later, pieces = earlier ++ .replaced removed written :: later ∧
        (earlier.flatMap Piece.source).length < front.length ∧
          front.length < (earlier.flatMap Piece.source).length + removed.length := by
  induction pieces generalizing front with
  | nil =>
      rcases List.append_eq_nil_iff.mp whole.symm with ⟨rfl, rfl⟩
      exact .inl ⟨[], [], rfl, rfl, rfl⟩
  | cons piece pieces ih =>
      rw [List.flatMap_cons] at whole
      rcases List.append_eq_append_iff.mp whole with ⟨others, rfl, later_eq⟩ |
        ⟨inside, source_eq, rest_eq⟩
      · rcases ih later_eq with ⟨earlier, later, rfl, rfl, rfl⟩ |
          ⟨earlier, removed, written, later, rfl, starts, reaches⟩
        · exact .inl ⟨piece :: earlier, later, rfl, by rw [List.flatMap_cons], rfl⟩
        · refine .inr ⟨piece :: earlier, removed, written, later, rfl, ?_, ?_⟩
          · simp only [List.flatMap_cons, List.length_append]
            omega
          · simp only [List.flatMap_cons, List.length_append]
            omega
      · rcases List.eq_nil_or_concat front with rfl | ⟨others, last, rfl⟩
        · refine .inl ⟨[], piece :: pieces, rfl, rfl, ?_⟩
          rw [List.flatMap_cons, whole, List.nil_append]
        rcases List.eq_nil_or_concat inside with rfl | ⟨_, _, rfl⟩
        · refine .inl ⟨[piece], pieces, rfl, ?_, rest_eq.symm⟩
          simpa using source_eq
        · cases piece with
          | kept element =>
              have lengths := congrArg List.length source_eq
              simp only [Piece.source, List.length_singleton, List.concat_eq_append,
                List.length_append] at lengths
              omega
          | replaced removed written =>
              have lengths := congrArg List.length source_eq
              refine .inr ⟨[], removed, written, pieces, rfl, ?_, ?_⟩
              · simp
              · simp [Piece.source] at lengths ⊢
                omega

/-- Pieces without a replacement are all kept. -/
theorem eq_map_kept (none : ∀ removed written, .replaced removed written ∉ pieces) :
    pieces = (pieces.flatMap Piece.source).map .kept := by
  rcases kept_or_first_replaced pieces with ⟨rest, rfl⟩ | ⟨rest, removed, written, behind, rfl⟩
  · rw [flatMap_source_kept]
  · exact absurd (by simp) (none removed written)

/-- What has been found has only one piece that is replaced. -/
theorem Found.pieces_inj {found : Found α} {removed written : List α}
    {earlier later : List (Piece α)}
    (same : found.pieces = earlier ++ .replaced removed written :: later) :
    earlier = found.opening.map .kept ∧ found.removed = removed ∧ found.written = written ∧
      later = found.closing.map .kept := by
  rw [Found.pieces] at same
  rcases List.append_eq_append_iff.mp same with
    ⟨between, rfl, rest_eq⟩ | ⟨between, open_eq, rest_eq⟩
  · cases between with
    | nil =>
        cases rest_eq
        exact ⟨List.append_nil _, rfl, rfl, rfl⟩
    | cons piece between =>
        have replaced : Piece.replaced removed written ∈ found.closing.map Piece.kept := by
          rw [(List.cons.inj rest_eq).2]
          simp
        exact absurd replaced (replaced_not_mem_kept removed written)
  · cases between with
    | nil =>
        cases rest_eq
        exact ⟨by rw [open_eq, List.append_nil], rfl, rfl, rfl⟩
    | cons piece between =>
        have replaced : Piece.replaced removed written ∈ found.opening.map Piece.kept := by
          rw [open_eq, (List.cons.inj rest_eq).1]
          simp
        exact absurd replaced (replaced_not_mem_kept removed written)

end Pieces

namespace Rule

variable {rule : Rule α} {before removed after rest : List α}

/-- The rule keeps nothing of what it finds. -/
def Bare (rule : Rule α) : Prop :=
  ∀ {before rest found}, rule.find before rest = some found →
    found.opening = [] ∧ found.closing = []

/-- The rule replaces the stretch between two texts. -/
def Replaces (rule : Rule α) (before removed after : List α) : Prop :=
  ∃ earlier written later,
    rule.pieces (before ++ (removed ++ after)) = earlier ++ .replaced removed written :: later ∧
      earlier.flatMap Piece.source = before

theorem Bare.source_eq (bare : rule.Bare) {found : Found α}
    (finds : rule.find before rest = some found) : found.source = found.removed := by
  rw [Found.source, (bare finds).1, (bare finds).2, List.nil_append, List.append_nil]

theorem Bare.pieces_eq (bare : rule.Bare) {found : Found α}
    (finds : rule.find before rest = some found) :
    found.pieces = [.replaced found.removed found.written] := by
  rw [Found.pieces, (bare finds).1, (bare finds).2]
  rfl

theorem removed_ne_nil_of_mem_pieces {text written : List α}
    (replaced : .replaced removed written ∈ rule.pieces text) : removed ≠ [] := by
  rcases exists_find_of_mem_piecesFrom replaced with ⟨_, _, _, finds, rfl, _⟩
  exact rule.removed_ne_nil finds

namespace Replaces

theorem of_pieces {text written : List α} {earlier later : List (Piece α)}
    (pieces_eq : rule.pieces text = earlier ++ .replaced removed written :: later) :
    rule.Replaces (earlier.flatMap Piece.source) removed (later.flatMap Piece.source) ∧
      earlier.flatMap Piece.source ++ (removed ++ later.flatMap Piece.source) = text := by
  have whole : earlier.flatMap Piece.source ++ (removed ++ later.flatMap Piece.source) = text := by
    rw [← rule.flatMap_source_pieces text, pieces_eq, List.flatMap_append, List.flatMap_cons]
    rfl
  exact ⟨⟨earlier, written, later, by rw [whole, pieces_eq], rfl⟩, whole⟩

theorem exists_pieces (replaces : rule.Replaces before removed after) :
    ∃ earlier written later,
      rule.pieces (before ++ (removed ++ after)) = earlier ++ .replaced removed written :: later ∧
        earlier.flatMap Piece.source = before ∧ later.flatMap Piece.source = after := by
  rcases replaces with ⟨earlier, written, later, pieces_eq, rfl⟩
  refine ⟨earlier, written, later, pieces_eq, rfl, ?_⟩
  have source_eq := rule.flatMap_source_pieces
    (earlier.flatMap Piece.source ++ (removed ++ after))
  rw [pieces_eq] at source_eq
  simpa [Piece.source] using source_eq

theorem removed_ne_nil (replaces : rule.Replaces before removed after) : removed ≠ [] := by
  rcases replaces with ⟨earlier, written, later, pieces_eq, _⟩
  have replaced : .replaced removed written ∈ rule.pieces (before ++ (removed ++ after)) := by
    rw [pieces_eq]
    exact List.mem_append_right _ List.mem_cons_self
  exact removed_ne_nil_of_mem_pieces replaced

/-- Of two stretches that are replaced, one ends before the other begins. -/
theorem apart {before' removed' after' : List α} (replaces : rule.Replaces before removed after)
    (replaces' : rule.Replaces before' removed' after')
    (same : before ++ (removed ++ after) = before' ++ (removed' ++ after'))
    (less : before.length < before'.length) :
    before.length + removed.length ≤ before'.length := by
  rcases replaces with ⟨earlier, written, later, pieces_eq, rfl⟩
  rcases replaces' with ⟨earlier', written', later', pieces_eq', rfl⟩
  rw [← same, pieces_eq] at pieces_eq'
  rcases List.append_eq_append_iff.mp pieces_eq' with ⟨between, rfl, rest_eq⟩ | ⟨between, rfl, _⟩
  · cases between with
    | nil => simp at less
    | cons piece between =>
        rw [List.cons_append, List.cons.injEq] at rest_eq
        rw [← rest_eq.1]
        simp [Piece.source]
  · rw [List.flatMap_append, List.length_append] at less
    omega

/-- At one place only one stretch is replaced. -/
theorem unique {removed' after' : List α} (replaces : rule.Replaces before removed after)
    (replaces' : rule.Replaces before removed' after')
    (same : removed ++ after = removed' ++ after') : removed = removed' := by
  have removed_ne := replaces.removed_ne_nil
  have removed_ne' := replaces'.removed_ne_nil
  rcases replaces with ⟨earlier, written, later, pieces_eq, rfl⟩
  rcases replaces' with ⟨earlier', written', later', pieces_eq', before_eq⟩
  rw [← same, pieces_eq] at pieces_eq'
  rcases List.append_eq_append_iff.mp pieces_eq' with
    ⟨between, rfl, rest_eq⟩ | ⟨between, rfl, rest_eq⟩
  · cases between with
    | nil =>
        cases rest_eq
        rfl
    | cons piece between =>
        rw [List.cons_append, List.cons.injEq] at rest_eq
        rw [← rest_eq.1] at before_eq
        simp [Piece.source, removed_ne] at before_eq
  · cases between with
    | nil =>
        cases rest_eq
        rfl
    | cons piece between =>
        rw [List.cons_append, List.cons.injEq] at rest_eq
        rw [← rest_eq.1] at before_eq
        simp [Piece.source, removed_ne'] at before_eq

end Replaces

/-- A piece that is replaced stands between the kept parts of what has been found there. -/
theorem exists_found_of_piecesFrom {skip : ℕ} {ahead text written : List α}
    {earlier later : List (Piece α)} (skip_le : skip ≤ text.length)
    (pieces_eq : rule.piecesFrom skip ahead text = earlier ++ .replaced removed written :: later) :
    ∃ found front behind, earlier = front ++ found.opening.map .kept ∧
      later = found.closing.map .kept ++ behind ∧ found.removed = removed ∧
        found.written = written ∧
          rule.find ((text.take skip ++ front.flatMap Piece.source).reverse ++ ahead)
            (found.source ++ behind.flatMap Piece.source) = some found := by
  induction text generalizing skip ahead earlier with
  | nil =>
      rw [piecesFrom] at pieces_eq
      simp at pieces_eq
  | cons element text ih =>
      cases skip with
      | succ skip =>
          rw [piecesFrom] at pieces_eq
          simpa using ih (Nat.le_of_succ_le_succ skip_le) pieces_eq
      | zero =>
          have source_eq := rule.flatMap_source_piecesFrom 0 ahead (element :: text)
          rw [pieces_eq] at source_eq
          rw [piecesFrom] at pieces_eq
          cases finds : rule.find ahead (element :: text) with
          | none =>
              rw [finds] at pieces_eq
              cases earlier with
              | nil => simp at pieces_eq
              | cons piece earlier =>
                  rw [List.cons_append, List.cons.injEq] at pieces_eq
                  rcases pieces_eq with ⟨rfl, pieces_eq⟩
                  rcases ih (Nat.zero_le _) pieces_eq with
                    ⟨found, front, behind, rfl, rfl, removed_eq, written_eq, finds_found⟩
                  refine ⟨found, .kept element :: front, behind, rfl, rfl, removed_eq, written_eq,
                    ?_⟩
                  simpa [Piece.source] using finds_found
          | some found =>
              rw [finds] at pieces_eq
              dsimp only at pieces_eq
              have here_or_later : (∃ between, earlier = found.pieces ++ between ∧
                  rule.piecesFrom (found.source.length - 1) (element :: ahead) text =
                    between ++ .replaced removed written :: later) ∨
                  ∃ inside, found.pieces = earlier ++ .replaced removed written :: inside ∧
                    later = inside ++
                      rule.piecesFrom (found.source.length - 1) (element :: ahead) text := by
                rcases List.append_eq_append_iff.mp pieces_eq with
                  later_eq | ⟨between, found_eq, rest_eq⟩
                · exact .inl later_eq
                · cases between with
                  | nil => exact .inl ⟨[], by simpa using found_eq.symm, rest_eq.symm⟩
                  | cons piece between =>
                      rw [List.cons_append, List.cons.injEq] at rest_eq
                      rcases rest_eq with ⟨rfl, rest_eq⟩
                      exact .inr ⟨between, found_eq, rest_eq⟩
              rcases here_or_later with ⟨between, rfl, rest_eq⟩ | ⟨inside, found_eq, rfl⟩
              · have long := (rule.found_prefix finds).length_le
                have nonempty := List.length_pos_iff.mpr (source_ne_nil finds)
                have taken : found.source = element :: text.take (found.source.length - 1) := by
                  have taken := List.prefix_iff_eq_take.mp (rule.found_prefix finds)
                  rw [← Nat.sub_one_add_one (Nat.ne_of_gt nonempty), List.take_succ_cons] at taken
                  exact taken
                rw [List.length_cons] at long
                rcases ih (by omega) rest_eq with
                  ⟨other, front, behind, rfl, rfl, removed_eq, written_eq, finds_other⟩
                refine ⟨other, found.pieces ++ front, behind, by rw [List.append_assoc], rfl,
                  removed_eq, written_eq, ?_⟩
                rw [List.flatMap_append, Found.flatMap_source_pieces, taken]
                simpa using finds_other
              · rcases Found.pieces_inj found_eq with ⟨rfl, rfl, rfl, rfl⟩
                refine ⟨found, [], _, rfl, rfl, rfl, rfl, ?_⟩
                have rest_eq : found.source ++ (rule.piecesFrom (found.source.length - 1)
                    (element :: ahead) text).flatMap Piece.source = element :: text := by
                  rw [List.drop_zero] at source_eq
                  rw [← source_eq, Found.source]
                  simp [flatMap_source_kept, Piece.source]
                rw [rest_eq]
                simpa using finds

/-- What is replaced has been found at its place. -/
theorem Replaces.finds (replaces : rule.Replaces before removed after) (bare : rule.Bare) :
    ∃ found, rule.find before.reverse (removed ++ after) = some found ∧
      found.removed = removed := by
  rcases replaces.exists_pieces with ⟨earlier, written, later, pieces_eq, rfl, after_eq⟩
  rcases exists_found_of_piecesFrom (Nat.zero_le _) pieces_eq with
    ⟨found, front, behind, rfl, rfl, removed_eq, _, finds⟩
  rcases bare finds with ⟨opening_eq, closing_eq⟩
  refine ⟨found, ?_, removed_eq⟩
  rw [← after_eq, ← removed_eq]
  simpa [Found.source, opening_eq, closing_eq] using finds

/-- Where something is found, a stretch is replaced that reaches beyond the place. -/
theorem Bare.exists_replaces (bare : rule.Bare) {found : Found α}
    (finds : rule.find before.reverse rest = some found) :
    ∃ first reached removed after, before = first ++ reached ∧
      rule.Replaces first removed after ∧ removed ++ after = reached ++ rest ∧
        reached.length < removed.length := by
  rcases exists_pieces_of_find finds with
    ⟨first, reached, earlier, later, other, rfl, finds_other, long, pieces_eq, first_eq⟩
  rw [bare.source_eq finds_other] at long
  rw [bare.pieces_eq finds_other, List.append_assoc earlier, List.singleton_append] at pieces_eq
  rcases Replaces.of_pieces pieces_eq with ⟨replaces, whole⟩
  rw [first_eq, List.append_assoc] at whole
  rw [first_eq] at replaces
  exact ⟨first, reached, other.removed, later.flatMap Piece.source, rfl, replaces,
    List.append_cancel_left whole, long⟩

section Words

variable {front word behind : List α}

/-- The stretch of a text overlaps the word behind a place. -/
def Meets (before removed front word : List α) : Prop :=
  before.length < front.length + word.length ∧ front.length < before.length + removed.length

/-- The word between two texts is kept. -/
def Keeps (rule : Rule α) (front word behind : List α) : Prop :=
  ∃ earlier later, rule.pieces (front ++ (word ++ behind)) = earlier ++ word.map .kept ++ later ∧
    earlier.flatMap Piece.source = front ∧ later.flatMap Piece.source = behind

/-- A word is kept, or a stretch that is replaced overlaps it. -/
theorem keeps_or_meets (rule : Rule α) (front word behind : List α) :
    rule.Keeps front word behind ∨
      ∃ before removed after, rule.Replaces before removed after ∧
        before ++ (removed ++ after) = front ++ (word ++ behind) ∧
          Meets before removed front word := by
  have whole := rule.flatMap_source_pieces (front ++ (word ++ behind))
  rcases split_or_replaced whole with ⟨earlier, others, pieces_eq, earlier_eq, others_eq⟩ |
    ⟨earlier, removed, written, later, pieces_eq, starts, reaches⟩
  · rcases split_or_replaced others_eq with ⟨inside, later, rfl, inside_eq, later_eq⟩ |
      ⟨inside, removed, written, later, rfl, starts, reaches⟩
    · by_cases replaced : ∃ removed written, .replaced removed written ∈ inside
      · rcases replaced with ⟨removed, written, replaced⟩
        rcases List.append_of_mem replaced with ⟨left, right, rfl⟩
        have split : rule.pieces (front ++ (word ++ behind)) =
            (earlier ++ left) ++ .replaced removed written :: (right ++ later) := by
          rw [pieces_eq]
          simp
        rcases Replaces.of_pieces split with ⟨replaces, text_eq⟩
        have removed_pos := List.length_pos_iff.mpr replaces.removed_ne_nil
        have lengths := congrArg List.length inside_eq
        simp only [List.flatMap_append, List.flatMap_cons, List.length_append, Piece.source]
          at lengths
        refine .inr ⟨_, removed, _, replaces, text_eq, ?_, ?_⟩
        · rw [List.flatMap_append, earlier_eq, List.length_append]
          omega
        · rw [List.flatMap_append, earlier_eq, List.length_append]
          omega
      · left
        have kept := eq_map_kept fun removed written replaced_mem =>
          replaced ⟨removed, written, replaced_mem⟩
        rw [inside_eq] at kept
        exact ⟨earlier, later, by rw [pieces_eq, ← kept, List.append_assoc], earlier_eq, later_eq⟩
    · have split : rule.pieces (front ++ (word ++ behind)) =
          (earlier ++ inside) ++ .replaced removed written :: later := by
        rw [pieces_eq, List.append_assoc]
      rcases Replaces.of_pieces split with ⟨replaces, text_eq⟩
      have removed_pos := List.length_pos_iff.mpr replaces.removed_ne_nil
      refine .inr ⟨_, removed, _, replaces, text_eq, ?_, ?_⟩
      · rw [List.flatMap_append, earlier_eq, List.length_append]
        omega
      · rw [List.flatMap_append, earlier_eq, List.length_append]
        omega
  · rcases Replaces.of_pieces pieces_eq with ⟨replaces, text_eq⟩
    exact .inr ⟨_, removed, _, replaces, text_eq, Nat.lt_add_right _ starts, reaches⟩

/-- No stretch that is replaced overlaps a word that is kept. -/
theorem Keeps.not_meets (keeps : rule.Keeps front word behind)
    (replaces : rule.Replaces before removed after)
    (same : before ++ (removed ++ after) = front ++ (word ++ behind)) :
    ¬Meets before removed front word := by
  rintro ⟨starts, reaches⟩
  rcases keeps with ⟨earlier, later, pieces_eq, rfl, rfl⟩
  rcases replaces with ⟨first, written, others, pieces_eq', rfl⟩
  rw [same, pieces_eq] at pieces_eq'
  rcases replaced_apart_from_kept pieces_eq' with ⟨between, rfl⟩ | ⟨between, rfl⟩
  · simp only [List.flatMap_append, List.flatMap_cons, List.length_append, Piece.source] at reaches
    omega
  · simp only [List.flatMap_append, flatMap_source_kept, List.length_append] at starts
    omega

/-- A word at the end of a text is kept at the end of the pieces. -/
theorem Keeps.at_end (keeps : rule.Keeps front word []) :
    ∃ earlier, rule.pieces (front ++ word) = earlier ++ word.map .kept ∧
      earlier.flatMap Piece.source = front := by
  rcases keeps with ⟨earlier, later, pieces_eq, front_eq, later_eq⟩
  rw [List.append_nil] at pieces_eq
  cases later with
  | nil => exact ⟨earlier, by simpa using pieces_eq, front_eq⟩
  | cons piece later =>
      rw [List.flatMap_cons, List.append_eq_nil_iff] at later_eq
      cases piece with
      | kept element => cases later_eq.1
      | replaced removed written =>
          have replaced : .replaced removed written ∈ rule.pieces (front ++ word) := by
            rw [pieces_eq]
            simp
          exact absurd later_eq.1 (removed_ne_nil_of_mem_pieces replaced)

/-- What is kept stands in the new text. -/
theorem Keeps.infix_sub (keeps : rule.Keeps front word behind) :
    word <:+: rule.sub (front ++ (word ++ behind)) := by
  rcases keeps with ⟨earlier, later, pieces_eq, _, _⟩
  rw [sub, pieces_eq, List.flatMap_append, List.flatMap_append, flatMap_target_kept]
  exact List.infix_append _ _ _

end Words

section Separators

variable {separator : α} {text left right : List α}

/-- An element of the new text is one of the old text, or of what has been written. -/
theorem mem_of_mem_sub {element : α}
    (absent : ∀ removed written, .replaced removed written ∈ rule.pieces text → element ∉ written)
    (element_mem : element ∈ rule.sub text) : element ∈ text := by
  rw [sub, List.mem_flatMap] at element_mem
  rcases element_mem with ⟨piece, piece_mem, element_mem⟩
  cases piece with
  | kept other =>
      rw [← rule.flatMap_source_pieces text, List.mem_flatMap]
      exact ⟨.kept other, piece_mem, element_mem⟩
  | replaced removed written => exact absurd element_mem (absent removed written piece_mem)

/-- A separator of the new text divides the old one. -/
theorem SeparatedBy.exists_of_sub_eq (separated : rule.SeparatedBy separator)
    (absent : ∀ text removed written, .replaced removed written ∈ rule.pieces text →
      separator ∉ written) (whole : rule.sub text = left ++ separator :: right) :
    ∃ front behind, text = front ++ separator :: behind ∧ rule.sub front = left ∧
      rule.sub behind = right := by
  induction length_eq : text.length using Nat.strongRecOn generalizing text left with
  | ind length ih =>
  have separator_mem : separator ∈ text := by
    refine mem_of_mem_sub (absent text) ?_
    rw [whole]
    exact List.mem_append_right left List.mem_cons_self
  rcases List.eq_append_cons_of_mem separator_mem with ⟨first, rest, rfl, first_plain⟩
  have first_absent : separator ∉ rule.sub first := fun separator_mem =>
    first_plain (mem_of_mem_sub (absent first) separator_mem)
  rw [separated.sub_append_cons] at whole
  by_cases left_absent : separator ∉ left
  · rcases append_cons_inj_of_first first_absent left_absent whole with ⟨rfl, rfl⟩
    exact ⟨first, rest, rfl, rfl, rfl⟩
  · rcases List.eq_append_cons_of_mem (not_not.mp left_absent) with
      ⟨before, after, rfl, before_plain⟩
    rw [List.append_assoc, List.cons_append] at whole
    rcases append_cons_inj_of_first first_absent before_plain whole with ⟨rfl, rest_eq⟩
    have shorter : rest.length < length := by
      rw [← length_eq, List.length_append, List.length_cons]
      omega
    rcases ih rest.length shorter rest_eq rfl with ⟨front, behind, rfl, rfl, rfl⟩
    exact ⟨first ++ separator :: front, behind, by simp, separated.sub_append_cons first front, rfl⟩

end Separators

end Rule

section Endings

variable {pieces : List (Piece α)} {word : List α} {stop : α}

/-- A suffix without the element that all ends in that is written has been kept. -/
theorem exists_kept_suffix (absent : stop ∉ word)
    (ends : ∀ removed written, .replaced removed written ∈ pieces →
      ∃ front, written = front ++ [stop])
    (suffix : word <:+ pieces.flatMap Piece.target) :
    ∃ earlier, pieces = earlier ++ word.map .kept := by
  rcases kept_or_last_replaced pieces with ⟨rest, rfl⟩ | ⟨before, removed, written, rest, rfl⟩
  · rw [flatMap_target_kept] at suffix
    rcases suffix with ⟨front, rfl⟩
    exact ⟨front.map .kept, List.map_append⟩
  · rcases ends removed written (by simp) with ⟨front, rfl⟩
    have behind : word <:+ (before.flatMap Piece.target ++ front) ++ stop :: rest := by
      simpa [Piece.target, flatMap_target_kept] using suffix
    rcases suffix_of_append_cons absent behind with ⟨inside, rfl⟩
    exact ⟨before ++ .replaced removed (front ++ [stop]) :: inside.map .kept, by simp⟩

end Endings

end Substitution
