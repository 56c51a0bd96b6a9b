import CopyMint.Library.JsonText

/-!
# Lines of JSON

A document may be written with the members of its objects in the order in which they are given,
as `json.dumps` does without `sort_keys`. This text is one line of printable ASCII, and it
determines the document. Texts that are written with a line break behind each of them are found
again between the line breaks.
-/

open Hexadecimal

namespace Json

mutual

/-- The text of a document in the order of its members. -/
def write : Json → Text
  | .null => dumps .null
  | .bool value => dumps (.bool value)
  | .int value => dumps (.int value)
  | .real literal => dumps (.real literal)
  | .str value => quote value
  | .arr items => '[' :: joined (writeItems items) ++ [']']
  | .obj members => '\x7b' :: joined (writeMembers members) ++ ['\x7d']

/-- The items of an array. -/
def writeItems : List Json → List Text
  | [] => []
  | item :: items => write item :: writeItems items

/-- The members of an object. -/
def writeMembers : List (Text × Json) → List Text
  | [] => []
  | (name, value) :: members => member (name, write value) :: writeMembers members

end

/-- A member whose value has not been written yet. -/
def writeMember (entry : Text × Json) : Text := member (entry.1, write entry.2)

theorem writeItems_eq (items : List Json) : writeItems items = items.map write := by
  induction items with
  | nil => rfl
  | cons item items ih => rw [writeItems, ih, List.map_cons]

theorem writeMembers_eq (members : List (Text × Json)) :
    writeMembers members = members.map writeMember := by
  induction members with
  | nil => rfl
  | cons entry members ih =>
      rcases entry with ⟨name, value⟩
      rw [writeMembers, ih, List.map_cons, writeMember]

theorem write_arr (items : List Json) :
    write (.arr items) = '[' :: joined (items.map write) ++ [']'] := by
  rw [write, writeItems_eq]

theorem write_obj (members : List (Text × Json)) :
    write (.obj members) = '\x7b' :: joined (members.map writeMember) ++ ['\x7d'] := by
  rw [write, writeMembers_eq]

/-- What has no members is written as ever. -/
theorem write_atom {document : Json} (atom : document.isAtom) :
    document.write = document.dumps := by
  cases document with
  | null | bool | int | real => rw [write]
  | str | arr | obj => cases atom

section Printing

/-- Text of printable ASCII, on one line. -/
def IsPrintable (text : Text) : Prop := ∀ character ∈ text, ' ' ≤ character ∧ character ≤ '~'

instance (text : Text) : Decidable (IsPrintable text) :=
  List.decidableBAll (fun character => ' ' ≤ character ∧ character ≤ '~') text

theorem IsPrintable.append {first second : Text} (before : IsPrintable first)
    (after : IsPrintable second) : IsPrintable (first ++ second) := by
  intro character character_mem
  rcases List.mem_append.mp character_mem with front | back
  · exact before character front
  · exact after character back

theorem isPrintable_flatMap {α : Type} {elements : List α} {write : α → Text}
    (each : ∀ element ∈ elements, IsPrintable (write element)) :
    IsPrintable (elements.flatMap write) := by
  intro character character_mem
  rcases List.mem_flatMap.mp character_mem with ⟨element, element_mem, written⟩
  exact each element element_mem character written

theorem isPrintable_digitChar {value : ℕ} (small : value < 16) :
    ' ' ≤ Nat.digitChar value ∧ Nat.digitChar value ≤ '~' := by
  interval_cases value <;> decide

theorem isPrintable_unicodeEscape (unit : ℕ) : IsPrintable (unicodeEscape unit) := by
  intro character character_mem
  simp only [unicodeEscape, List.mem_cons, List.not_mem_nil, or_false] at character_mem
  rcases character_mem with rfl | rfl | rfl | rfl | rfl | rfl
  · decide
  · decide
  all_goals exact isPrintable_digitChar (Nat.mod_lt _ (by decide))

/-- Whatever a character is, its escape is printable. -/
theorem isPrintable_escape (character : Char) : IsPrintable (escape character) := by
  simp only [escape]
  split_ifs with _ _ _ _ _ _ _ printable
  · decide
  · decide
  · decide
  · decide
  · decide
  · decide
  · decide
  · intro other other_mem
    rw [List.mem_singleton.mp other_mem]
    exact printable
  · exact isPrintable_unicodeEscape _
  · exact (isPrintable_unicodeEscape _).append (isPrintable_unicodeEscape _)

theorem isPrintable_quote (value : Text) : IsPrintable (quote value) := by
  have marks : IsPrintable ['"'] := by decide
  exact (marks.append (isPrintable_flatMap fun character _ => isPrintable_escape character)).append
    marks

theorem isPrintable_decimal (value : ℤ) : IsPrintable (decimal value) := by
  intro character character_mem
  rcases mem_decimal character_mem with rfl | isDigit
  · decide
  · rw [Char.isDigit, Bool.and_eq_true, decide_eq_true_eq, decide_eq_true_eq] at isDigit
    have low : ' ' ≤ '0' := by decide
    have high : '9' ≤ '~' := by decide
    exact ⟨Char.le_trans low isDigit.1, Char.le_trans isDigit.2 high⟩

theorem isPrintable_joined {texts : List Text} (each : ∀ text ∈ texts, IsPrintable text) :
    IsPrintable (joined texts) := by
  cases texts with
  | nil => intro _ impossible; cases impossible
  | cons text texts =>
      rw [joined_cons]
      have comma : IsPrintable [','] := by decide
      exact (each text List.mem_cons_self).append
        (isPrintable_flatMap fun later later_mem =>
          comma.append (each later (List.mem_cons_of_mem text later_mem)))

/-- A document is written on one line of printable ASCII. -/
theorem isPrintable_write (document : Json) : IsValid document → IsPrintable document.write := by
  induction document using induct with
  | null => exact fun _ => by decide
  | bool value => cases value <;> exact fun _ => by decide
  | int value => exact fun _ => isPrintable_decimal value
  | real literal =>
      rintro (_ | _ | _ | float)
      rcases float with named | ⟨numeric, _⟩
      · simp only [List.mem_cons, List.not_mem_nil, or_false] at named
        rcases named with rfl | rfl | rfl <;> decide
      · have printable : IsPrintable "0123456789+-.e".toList := by decide
        intro character character_mem
        exact printable character
          (of_decide_eq_true (List.all_eq_true.mp numeric character character_mem))
  | str value => exact fun _ => isPrintable_quote value
  | arr items ih =>
      rintro (_ | _ | _ | _ | _ | each)
      rw [write_arr]
      have brackets : IsPrintable ['['] ∧ IsPrintable [']'] := by decide
      refine (brackets.1.append (isPrintable_joined fun text text_mem => ?_)).append brackets.2
      rcases List.mem_map.mp text_mem with ⟨item, item_mem, rfl⟩
      exact ih item item_mem (each item item_mem)
  | obj members ih =>
      rintro (_ | _ | _ | _ | _ | _ | each)
      rw [write_obj]
      have braces : IsPrintable ['\x7b'] ∧ IsPrintable ['\x7d'] ∧ IsPrintable [':'] := by decide
      refine (braces.1.append (isPrintable_joined fun text text_mem => ?_)).append braces.2.1
      rcases List.mem_map.mp text_mem with ⟨entry, entry_mem, rfl⟩
      exact (isPrintable_quote entry.1).append
        (braces.2.2.append (ih entry entry_mem (each entry entry_mem)))

end Printing

section Reading

/-- A value that is no atom begins with an opener. -/
theorem exists_write_opener {document : Json} (compound : ¬document.isAtom) :
    ∃ opener text, document.write = opener :: text ∧ opener ∈ openers := by
  cases document with
  | null | bool | int | real => simp [isAtom] at compound
  | str value => exact ⟨'"', value.flatMap escape ++ ['"'], rfl, by decide⟩
  | arr items => exact ⟨'[', _, write_arr items, by decide⟩
  | obj members => exact ⟨'\x7b', _, write_obj members, by decide⟩

theorem write_opens (document : Json) (valid : IsValid document) :
    ∃ character text, document.write = character :: text ∧ character ∉ separators := by
  by_cases atom : document.isAtom
  · rw [write_atom atom]
    exact dumps_opens document valid
  · have apart : ∀ opener ∈ openers, opener ∉ separators :=
      List.all_iff_forall_prop.mp (by decide)
    rcases exists_write_opener atom with ⟨opener, text, text_eq, opens⟩
    exact ⟨opener, text, text_eq, apart opener opens⟩

theorem write_atom_append_ne {document : Json} (valid : IsValid document) (atom : document.isAtom)
    {opener : Char} (opens : opener ∈ openers) (rest tail : Text) :
    document.write ++ rest ≠ opener :: tail := by
  rw [write_atom atom]
  exact atom_append_ne valid atom opens rest tail

/-- Atoms that are equal up to the order of members are the same. -/
theorem Equal.eq_of_isAtom {first second : Json} (equal : Equal first second)
    (atom : first.isAtom) : first = second := by
  cases equal with
  | null | bool | int | real => rfl
  | str | arr | obj => cases atom

theorem readable_write_atom {document : Json} (valid : IsValid document)
    (atom : document.isAtom) : Readable write IsValid (· = ·) document := by
  intro other rest tail other_valid rest_ends tail_ends same
  by_cases other_atom : other.isAtom
  · rw [write_atom atom, write_atom other_atom] at same
    rcases readable_atom valid atom other_valid rest_ends tail_ends same with ⟨equal, rests⟩
    exact ⟨equal.eq_of_isAtom atom, rests⟩
  · rcases exists_write_opener other_atom with ⟨opener, text, text_eq, opens⟩
    rw [text_eq] at same
    exact absurd same (write_atom_append_ne valid atom opens _ _)

theorem readable_write_member {entry : Text × Json}
    (readable : Readable write IsValid (· = ·) entry.2) :
    Readable writeMember (fun entry => IsValid entry.2) (· = ·) entry := by
  intro other rest tail other_valid rest_ends tail_ends same
  simp only [writeMember, member, List.append_assoc, List.cons_append] at same
  rcases quote_append_inj same with ⟨names, same⟩
  rcases readable other_valid rest_ends tail_ends (List.cons.inj same).2 with ⟨values, rests⟩
  exact ⟨Prod.ext names values, rests⟩

theorem readable_write_str (value : Text) : Readable write IsValid (· = ·) (.str value) := by
  intro other rest tail other_valid _ _ same
  by_cases atom : other.isAtom
  · exact absurd same.symm (write_atom_append_ne other_valid atom (by decide) _ _)
  · cases other with
    | null | bool | int | real => simp [isAtom] at atom
    | str text =>
        rw [write, write] at same
        rcases quote_append_inj same with ⟨rfl, rests⟩
        exact ⟨rfl, rests⟩
    | arr items =>
        rw [write_arr] at same
        cases (List.cons.inj same).1
    | obj members =>
        rw [write_obj] at same
        cases (List.cons.inj same).1

theorem readable_write_arr {items : List Json} (valid : ∀ item ∈ items, IsValid item)
    (readable : ∀ item ∈ items, Readable write IsValid (· = ·) item) :
    Readable write IsValid (· = ·) (.arr items) := by
  intro other rest tail other_valid _ _ same
  rw [write_arr] at same
  by_cases atom : other.isAtom
  · exact absurd same.symm (write_atom_append_ne other_valid atom (by decide) _ _)
  · cases other_valid with
    | null | bool | int | real => simp [isAtom] at atom
    | str text => cases (List.cons.inj same).1
    | @arr others others_valid =>
        simp only [write_arr, List.cons_append, List.append_assoc, List.cons.injEq, true_and,
          List.nil_append] at same
        rcases joined_append_inj (by decide) (by decide) write_opens valid others_valid readable
          same with ⟨pairwise, rests⟩
        rw [List.forall₂_eq_eq_eq] at pairwise
        exact ⟨congrArg arr pairwise, rests⟩
    | @obj members =>
        rw [write_obj] at same
        cases (List.cons.inj same).1

theorem readable_write_obj {members : List (Text × Json)}
    (valid : ∀ entry ∈ members, IsValid entry.2)
    (readable : ∀ entry ∈ members, Readable write IsValid (· = ·) entry.2) :
    Readable write IsValid (· = ·) (.obj members) := by
  intro other rest tail other_valid _ _ same
  rw [write_obj] at same
  by_cases atom : other.isAtom
  · exact absurd same.symm (write_atom_append_ne other_valid atom (by decide) _ _)
  · cases other_valid with
    | null | bool | int | real => simp [isAtom] at atom
    | str text => cases (List.cons.inj same).1
    | arr =>
        rw [write_arr] at same
        cases (List.cons.inj same).1
    | @obj others others_valid =>
        simp only [write_obj, List.cons_append, List.append_assoc, List.cons.injEq, true_and,
          List.nil_append] at same
        have opens : ∀ entry : Text × Json, IsValid entry.2 → ∃ character text,
            writeMember entry = character :: text ∧ character ∉ separators :=
          fun entry _ => ⟨'"', _, rfl, by decide⟩
        rcases joined_append_inj (by decide) (by decide) opens valid others_valid
          (fun entry entry_mem => readable_write_member (readable entry entry_mem)) same with
          ⟨pairwise, rests⟩
        rw [List.forall₂_eq_eq_eq] at pairwise
        exact ⟨congrArg obj pairwise, rests⟩

/-- The text of a document determines it, whatever follows behind a separator. -/
theorem readable_write (document : Json) :
    IsValid document → Readable write IsValid (· = ·) document := by
  induction document using induct with
  | null => exact fun valid => readable_write_atom valid rfl
  | bool value => exact fun valid => readable_write_atom valid rfl
  | int value => exact fun valid => readable_write_atom valid rfl
  | real literal => exact fun valid => readable_write_atom valid rfl
  | str value => exact fun _ => readable_write_str value
  | arr items ih =>
      rintro (_ | _ | _ | _ | _ | each)
      exact readable_write_arr each fun item item_mem => ih item item_mem (each item item_mem)
  | obj members ih =>
      rintro (_ | _ | _ | _ | _ | _ | each)
      exact readable_write_obj each fun entry entry_mem =>
        ih entry entry_mem (each entry entry_mem)

/-- Documents with the same text are the same, in the order of their members. -/
theorem write_injective {first second : Json} (first_valid : IsValid first)
    (second_valid : IsValid second) (same : first.write = second.write) : first = second :=
  (readable_write first first_valid second_valid ends_nil ends_nil (by rw [same])).1

/-- Documents with the same texts, one by one, are the same. -/
theorem map_write_injective {documents others : List Json}
    (valid : ∀ document ∈ documents, IsValid document)
    (others_valid : ∀ other ∈ others, IsValid other)
    (same : documents.map write = others.map write) : documents = others := by
  induction documents generalizing others with
  | nil => exact (List.map_eq_nil_iff.mp same.symm).symm
  | cons document documents ih =>
      rcases List.map_eq_cons_iff.mp same.symm with ⟨other, others, rfl, first, later⟩
      rcases List.forall_mem_cons.mp valid with ⟨document_valid, valid⟩
      rcases List.forall_mem_cons.mp others_valid with ⟨other_valid, others_valid⟩
      rw [write_injective document_valid other_valid first.symm, ih valid others_valid later.symm]

end Reading

end Json

namespace Hexadecimal

/-- Texts with a line break behind each of them. -/
def lines (texts : List Text) : Text := texts.flatMap fun text => text ++ ['\n']

/-- Between the line breaks are the texts, and nothing behind the last one. -/
theorem splitOn_lines {texts : List Text} (single : ∀ text ∈ texts, '\n' ∉ text) :
    (lines texts).splitOn '\n' = texts ++ [[]] := by
  induction texts with
  | nil => rfl
  | cons text texts ih =>
      rcases List.forall_mem_cons.mp single with ⟨first, later⟩
      have written : lines (text :: texts) = text ++ '\n' :: lines texts := by
        simp [lines]
      rw [written, List.splitOn_append_cons_self_of_not_mem first, ih later, List.cons_append]

theorem lines_injective {texts others : List Text} (single : ∀ text ∈ texts, '\n' ∉ text)
    (other_single : ∀ text ∈ others, '\n' ∉ text) (same : lines texts = lines others) :
    texts = others := by
  have split := splitOn_lines single
  rw [same, splitOn_lines other_single] at split
  exact (List.append_cancel_right split).symm

end Hexadecimal
