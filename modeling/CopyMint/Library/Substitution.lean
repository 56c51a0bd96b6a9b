import Mathlib.Data.List.Basic

/-!
# Substitution in a text

A rule finds stretches of a text, from the left to the right and without overlap, and
writes something else in their place. What it finds may begin and end with parts that are
kept. Several rules are applied one after the other, each to what the one before it has
made of the text.
-/

namespace Substitution

variable {α : Type}

/-- A stretch that has been found. -/
structure Found (α : Type) where
  /-- What is kept at the beginning. -/
  opening : List α
  removed : List α
  written : List α
  /-- What is kept at the end. -/
  closing : List α

namespace Found

/-- The text that has been found. -/
def source (found : Found α) : List α := found.opening ++ found.removed ++ found.closing

/-- The text that takes its place. -/
def target (found : Found α) : List α := found.opening ++ found.written ++ found.closing

end Found

/-- What is found at a place, by the text before it, the nearest first, and that behind it. -/
structure Rule (α : Type) where
  find : List α → List α → Option (Found α)
  found_prefix : ∀ {before rest found}, find before rest = some found → found.source <+: rest
  removed_ne_nil : ∀ {before rest found}, find before rest = some found → found.removed ≠ []

/-- An element that is kept, or a stretch that is replaced. -/
inductive Piece (α : Type) where
  | kept (element : α)
  | replaced (removed written : List α)

namespace Piece

/-- What a piece has been made from. -/
def source : Piece α → List α
  | kept element => [element]
  | replaced removed _ => removed

/-- What a piece is in the new text. -/
def target : Piece α → List α
  | kept element => [element]
  | replaced _ written => written

end Piece

/-- What has been found, with what takes its place. -/
def Found.pieces (found : Found α) : List (Piece α) :=
  found.opening.map .kept ++ .replaced found.removed found.written :: found.closing.map .kept

namespace Rule

variable (rule : Rule α)

/-- The pieces of the text behind a place; the rest of a stretch that was found is skipped. -/
def piecesFrom : ℕ → List α → List α → List (Piece α)
  | _, _, [] => []
  | skip + 1, before, element :: rest => piecesFrom skip (element :: before) rest
  | 0, before, element :: rest =>
      match rule.find before (element :: rest) with
      | none => .kept element :: piecesFrom 0 (element :: before) rest
      | some found =>
          found.pieces ++ piecesFrom (found.source.length - 1) (element :: before) rest

/-- The pieces of a text. -/
def pieces (text : List α) : List (Piece α) := rule.piecesFrom 0 [] text

/-- The text with everything replaced that the rule finds. -/
def sub (text : List α) : List α := (rule.pieces text).flatMap Piece.target

end Rule

/-- The rules one after the other. -/
def substitute (rules : List (Rule α)) (text : List α) : List α :=
  rules.foldl (fun text rule => rule.sub text) text

theorem flatMap_source_kept (elements : List α) :
    (elements.map Piece.kept).flatMap Piece.source = elements := by
  induction elements with
  | nil => rfl
  | cons element elements ih => simpa [Piece.source] using ih

theorem Found.flatMap_source_pieces (found : Found α) :
    found.pieces.flatMap Piece.source = found.source := by
  simp [pieces, source, flatMap_source_kept, Piece.source]

namespace Rule

variable {rule : Rule α}

theorem source_ne_nil {before rest : List α} {found : Found α}
    (finds : rule.find before rest = some found) : found.source ≠ [] := by
  intro empty
  simp only [Found.source, List.append_eq_nil_iff] at empty
  exact rule.removed_ne_nil finds empty.1.2

/-- The pieces are pieces of the text, in its order and without gaps. -/
theorem flatMap_source_piecesFrom (skip : ℕ) (before text : List α) :
    (rule.piecesFrom skip before text).flatMap Piece.source = text.drop skip := by
  induction text generalizing skip before with
  | nil => simp [piecesFrom]
  | cons element rest ih =>
      cases skip with
      | succ skip => simpa [piecesFrom] using ih skip (element :: before)
      | zero =>
          rw [piecesFrom]
          cases finds : rule.find before (element :: rest) with
          | none => simpa [Piece.source] using ih 0 (element :: before)
          | some found =>
              rcases rule.found_prefix finds with ⟨behind, whole⟩
              have nonempty := List.length_pos_iff.mpr (source_ne_nil finds)
              have remainder : rest.drop (found.source.length - 1) = behind := by
                have dropped := congrArg (List.drop found.source.length) whole
                rw [List.drop_left, ← Nat.sub_one_add_one (Nat.ne_of_gt nonempty),
                  List.drop_succ_cons] at dropped
                exact dropped.symm
              simp only [List.flatMap_append, Found.flatMap_source_pieces, ih, remainder,
                List.drop_zero, whole]

theorem flatMap_source_pieces (text : List α) :
    (rule.pieces text).flatMap Piece.source = text :=
  flatMap_source_piecesFrom 0 [] text

end Rule

end Substitution
