import CopyMint.Library.Reading
import Mathlib.Data.Bool.AllAny
import Mathlib.Data.List.Perm.Basic

/-!
# What the canonical text of a document determines

The canonical text determines a document up to the order of the members of its objects.
The proof is an induction over the document in which the text is followed by other text
that begins where a value can end. Numbers and names end at a comma or a closing
bracket, and strings, arrays and objects end by themselves.
-/

open Hexadecimal

namespace Json

/-- Python writes a number with a fraction or an exponent, or one that is not finite. -/
def IsFloat (literal : Text) : Prop :=
  literal ∈ ["NaN".toList, "Infinity".toList, "-Infinity".toList] ∨
    literal.all (· ∈ "0123456789+-.e".toList) ∧ literal.any (· ∈ ".e".toList)

instance (literal : Text) : Decidable (IsFloat literal) :=
  inferInstanceAs (Decidable (_ ∨ _ ∧ _))

/-- Every number with a fraction or an exponent is one that Python writes. -/
inductive IsValid : Json → Prop
  | null : IsValid .null
  | bool (value : Bool) : IsValid (.bool value)
  | int (value : ℤ) : IsValid (.int value)
  | real {literal : Text} (float : IsFloat literal) : IsValid (.real literal)
  | str (value : Text) : IsValid (.str value)
  | arr {items : List Json} (each : ∀ item ∈ items, IsValid item) : IsValid (.arr items)
  | obj {members : List (Text × Json)} (each : ∀ entry ∈ members, IsValid entry.2) :
      IsValid (.obj members)

/-- Documents that differ in the order of the members of their objects only. -/
inductive Equal : Json → Json → Prop
  | null : Equal .null .null
  | bool (value : Bool) : Equal (.bool value) (.bool value)
  | int (value : ℤ) : Equal (.int value) (.int value)
  | real (literal : Text) : Equal (.real literal) (.real literal)
  | str (value : Text) : Equal (.str value) (.str value)
  | arr {items others : List Json} (length : items.length = others.length)
      (each : ∀ pair ∈ items.zip others, Equal pair.1 pair.2) : Equal (.arr items) (.arr others)
  | obj {members partners others : List (Text × Json)} (rearranged : partners.Perm others)
      (names : members.map Prod.fst = partners.map Prod.fst)
      (each : ∀ pair ∈ members.zip partners, Equal pair.1.2 pair.2.2) :
      Equal (.obj members) (.obj others)

/-- A property of documents that elements and members pass on holds of all documents. -/
theorem induct {holds : Json → Prop} (null : holds .null) (bool : ∀ value, holds (.bool value))
    (int : ∀ value, holds (.int value)) (real : ∀ literal, holds (.real literal))
    (str : ∀ value, holds (.str value))
    (arr : ∀ items, (∀ item ∈ items, holds item) → holds (.arr items))
    (obj : ∀ members : List (Text × Json), (∀ entry ∈ members, holds entry.2) →
      holds (.obj members)) (document : Json) : holds document :=
  @Json.rec holds (fun items => ∀ item ∈ items, holds item)
    (fun members => ∀ entry ∈ members, holds entry.2) (fun entry => holds entry.2)
    null bool int real str arr obj (List.forall_mem_nil _)
    (fun _ _ first later => List.forall_mem_cons.mpr ⟨first, later⟩) (List.forall_mem_nil _)
    (fun _ _ first later => List.forall_mem_cons.mpr ⟨first, later⟩) (fun _ _ => id) document

/-- The characters that may stand behind a value. -/
def separators : Text := [',', ']', '\x7d']

/-- The characters that begin a value which ends by itself. -/
def openers : Text := ['"', '[', '\x7b']

/-- Text that may stand behind a value. -/
def Ends (rest : Text) : Prop := ∀ character ∈ rest.head?, character ∈ separators

theorem ends_nil : Ends [] := by simp [Ends]

theorem ends_cons {character : Char} (separator : character ∈ separators) (rest : Text) :
    Ends (character :: rest) := by
  simpa [Ends] using separator

/-- Text without separators ends at the first one. -/
theorem append_ends_inj {first second rest other : Text}
    (first_free : ∀ character ∈ first, character ∉ separators)
    (second_free : ∀ character ∈ second, character ∉ separators) (rest_ends : Ends rest)
    (other_ends : Ends other) (same : first ++ rest = second ++ other) :
    first = second ∧ rest = other := by
  induction first generalizing second with
  | nil =>
      cases second with
      | nil => exact ⟨rfl, same⟩
      | cons character second =>
          rw [List.nil_append, List.cons_append] at same
          rw [same] at rest_ends
          exact absurd (rest_ends character (by simp)) (second_free character List.mem_cons_self)
  | cons character first ih =>
      cases second with
      | nil =>
          rw [List.nil_append, List.cons_append] at same
          rw [← same] at other_ends
          exact absurd (other_ends character (by simp)) (first_free character List.mem_cons_self)
      | cons head second =>
          rw [List.cons_append, List.cons_append, List.cons.injEq] at same
          rcases ih (List.forall_mem_cons.mp first_free).2 (List.forall_mem_cons.mp second_free).2
            same.2 with ⟨firsts, rests⟩
          rw [same.1, firsts]
          exact ⟨rfl, rests⟩

section Atoms

/-- A value that is neither a string nor an array nor an object. -/
def isAtom : Json → Bool
  | .null | .bool _ | .int _ | .real _ => true
  | .str _ | .arr _ | .obj _ => false

/-- The kind of an atom, read from its text. -/
def atomKind (text : Text) : ℕ :=
  if text = "null".toList then 0
  else if text = "true".toList then 1
  else if text = "false".toList then 2
  else if text.any (· ∈ ".eNI".toList) then 3
  else 4

/-- A decimal number is written without letters and without a point. -/
theorem notMem_decimal {character : Char} (letter : character ∈ "ntfeNI.".toList) (value : ℤ) :
    character ∉ decimal value := by
  have apart : ∀ character ∈ "ntfeNI.".toList, ¬(character = '-' ∨ character.isDigit) :=
    List.all_iff_forall_prop.mp (by decide)
  exact fun digit => apart character letter (mem_decimal digit)

theorem atomKind_decimal (value : ℤ) : atomKind (decimal value) = 4 := by
  rw [atomKind, if_neg, if_neg, if_neg, if_neg]
  · intro some_special
    rcases List.any_iff_exists_prop.mp some_special with ⟨character, character_mem, special⟩
    have letter : ∀ character ∈ ".eNI".toList, character ∈ "ntfeNI.".toList :=
      List.all_iff_forall_prop.mp (by decide)
    exact notMem_decimal (letter character special) value character_mem
  · intro equal
    exact notMem_decimal (show 'f' ∈ "ntfeNI.".toList by decide) value (by rw [equal]; decide)
  · intro equal
    exact notMem_decimal (show 't' ∈ "ntfeNI.".toList by decide) value (by rw [equal]; decide)
  · intro equal
    exact notMem_decimal (show 'n' ∈ "ntfeNI.".toList by decide) value (by rw [equal]; decide)

theorem atomKind_float {literal : Text} (float : IsFloat literal) : atomKind literal = 3 := by
  rcases float with named | ⟨numeric, marked⟩
  · simp only [List.mem_cons, List.not_mem_nil, or_false] at named
    rcases named with rfl | rfl | rfl <;> decide
  · have digit := List.all_iff_forall_prop.mp numeric
    rw [atomKind, if_neg, if_neg, if_neg, if_pos]
    · rcases List.any_iff_exists_prop.mp marked with ⟨character, character_mem, special⟩
      have marks : ∀ character ∈ ".e".toList, character ∈ ".eNI".toList :=
        List.all_iff_forall_prop.mp (by decide)
      exact List.any_iff_exists_prop.mpr ⟨character, character_mem, marks character special⟩
    · intro equal
      exact absurd (digit 'f' (by rw [equal]; decide)) (by decide)
    · intro equal
      exact absurd (digit 't' (by rw [equal]; decide)) (by decide)
    · intro equal
      exact absurd (digit 'n' (by rw [equal]; decide)) (by decide)

/-- Text that is not empty and has no separators or openers. -/
def IsPlain (text : Text) : Prop :=
  text ≠ [] ∧ ∀ character ∈ text, character ∉ separators ++ openers

theorem isPlain_of_all {text : Text} (nonempty : text ≠ [])
    (free : text.all (· ∉ separators ++ openers)) : IsPlain text :=
  ⟨nonempty, List.all_iff_forall_prop.mp free⟩

theorem atom_plain {document : Json} (valid : IsValid document) (atom : document.isAtom) :
    IsPlain document.dumps := by
  cases valid with
  | null => exact isPlain_of_all (by decide) (by decide)
  | bool value => cases value <;> exact isPlain_of_all (by decide) (by decide)
  | int value =>
      have apart : ∀ character ∈ separators ++ openers,
          ¬(character = '-' ∨ character.isDigit) :=
        List.all_iff_forall_prop.mp (by decide)
      refine ⟨?_, fun character character_mem reserved =>
        apart character reserved (mem_decimal character_mem)⟩
      simp only [dumps, decimal]
      split_ifs
      · simp
      · exact Nat.toDigits_ne_nil
  | @real literal float =>
      rcases float with named | ⟨numeric, marked⟩
      · simp only [List.mem_cons, List.not_mem_nil, or_false] at named
        rcases named with rfl | rfl | rfl <;> exact isPlain_of_all (by decide) (by decide)
      · have apart : ∀ character ∈ "0123456789+-.e".toList,
            character ∉ separators ++ openers :=
          List.all_iff_forall_prop.mp (by decide)
        rcases List.any_iff_exists_prop.mp marked with ⟨character, character_mem, _⟩
        refine ⟨List.ne_nil_of_mem character_mem, fun other other_mem => ?_⟩
        exact apart other (List.all_iff_forall_prop.mp numeric other other_mem)
  | str | arr | obj => cases atom

/-- The kind of a document, of which the text of an atom tells. -/
def kindOf : Json → ℕ
  | .null => 0
  | .bool true => 1
  | .bool false => 2
  | .real _ => 3
  | .int _ => 4
  | .str _ | .arr _ | .obj _ => 5

theorem atomKind_dumps {document : Json} (valid : IsValid document) (atom : document.isAtom) :
    atomKind document.dumps = document.kindOf := by
  cases valid with
  | null => decide
  | bool value => cases value <;> decide
  | int value => exact atomKind_decimal value
  | real float => exact atomKind_float float
  | str | arr | obj => cases atom

/-- Atoms with the same text are the same. -/
theorem atom_injective {first second : Json} (first_valid : IsValid first)
    (second_valid : IsValid second) (first_atom : first.isAtom) (second_atom : second.isAtom)
    (same : first.dumps = second.dumps) : Equal first second := by
  have kinds : first.kindOf = second.kindOf := by
    rw [← atomKind_dumps first_valid first_atom, ← atomKind_dumps second_valid second_atom, same]
  cases first_valid with
  | null =>
      cases second_valid with
      | null => exact .null
      | bool value => cases value <;> simp [kindOf] at kinds
      | int | real | str | arr | obj => simp [kindOf] at kinds
  | bool value =>
      cases second_valid with
      | bool other =>
          cases value <;> cases other <;> first | exact .bool _ | simp [kindOf] at kinds
      | null | int | real | str | arr | obj => cases value <;> simp [kindOf] at kinds
  | int value =>
      cases second_valid with
      | int other =>
          rw [show value = other from decimal_injective same]
          exact .int other
      | bool value => cases value <;> simp [kindOf] at kinds
      | null | real | str | arr | obj => simp [kindOf] at kinds
  | @real literal float =>
      cases second_valid with
      | @real other _ =>
          rw [show literal = other from same]
          exact .real other
      | bool value => cases value <;> simp [kindOf] at kinds
      | null | int | str | arr | obj => simp [kindOf] at kinds
  | str | arr | obj => cases first_atom

end Atoms

section Sequences

variable {α : Type} {write : α → Text} {valid : α → Prop} {same : α → α → Prop}

/-- Text behind which a value can end determines the value up to a relation. -/
def Readable (write : α → Text) (valid : α → Prop) (same : α → α → Prop) (element : α) : Prop :=
  ∀ {other : α} {rest tail : Text}, valid other → Ends rest → Ends tail →
    write element ++ rest = write other ++ tail → same element other ∧ rest = tail

theorem joined_cons (text : Text) (texts : List Text) :
    joined (text :: texts) = text ++ texts.flatMap (',' :: ·) := by
  induction texts generalizing text with
  | nil => simp [joined]
  | cons next texts ih =>
      have later := ih next
      simp only [joined] at later
      rw [joined, List.intersperse_cons_cons, List.flatten_cons, List.flatten_cons, later]
      simp

/-- The elements behind commas can be told apart from what follows the closing bracket. -/
theorem later_append_inj {close : Char} (closes : close ∈ separators) (notComma : close ≠ ',')
    {elements others : List α} {rest tail : Text}
    (readable : ∀ element ∈ elements, Readable write valid same element)
    (others_valid : ∀ other ∈ others, valid other)
    (equal : (elements.map write).flatMap (',' :: ·) ++ close :: rest =
      (others.map write).flatMap (',' :: ·) ++ close :: tail) :
    List.Forall₂ same elements others ∧ rest = tail := by
  have ends : ∀ (texts : List Text) (rest : Text),
      Ends (texts.flatMap (',' :: ·) ++ close :: rest) := by
    intro texts rest
    cases texts with
    | nil => exact ends_cons closes rest
    | cons text texts => exact ends_cons (by decide) _
  induction elements generalizing others with
  | nil =>
      cases others with
      | nil => exact ⟨.nil, by simpa using equal⟩
      | cons other others => simp [notComma] at equal
  | cons element elements ih =>
      cases others with
      | nil => simp [Ne.symm notComma] at equal
      | cons other others =>
          simp only [List.map_cons, List.flatMap_cons, List.cons_append, List.append_assoc,
            List.cons.injEq, true_and] at equal
          rcases readable element List.mem_cons_self (others_valid other List.mem_cons_self)
            (ends _ rest) (ends _ tail) equal with ⟨first, equal⟩
          rcases ih (List.forall_mem_cons.mp readable).2 (List.forall_mem_cons.mp others_valid).2
            equal with ⟨later, rests⟩
          exact ⟨.cons first later, rests⟩

/-- Joined elements can be told apart from what follows the closing bracket. -/
theorem joined_append_inj {close : Char} (closes : close ∈ separators) (notComma : close ≠ ',')
    {elements others : List α} {rest tail : Text}
    (opens : ∀ element, valid element → ∃ character text, write element = character :: text ∧
      character ∉ separators)
    (elements_valid : ∀ element ∈ elements, valid element)
    (others_valid : ∀ other ∈ others, valid other)
    (readable : ∀ element ∈ elements, Readable write valid same element)
    (equal : joined (elements.map write) ++ close :: rest =
      joined (others.map write) ++ close :: tail) :
    List.Forall₂ same elements others ∧ rest = tail := by
  have closed : ∀ {other : α} {text rest : Text}, valid other →
      write other ++ text ≠ close :: rest := by
    intro other text rest other_valid equal
    rcases opens other other_valid with ⟨character, written, write_eq, free⟩
    rw [write_eq, List.cons_append, List.cons.injEq] at equal
    exact free (equal.1 ▸ closes)
  cases elements with
  | nil =>
      cases others with
      | nil => exact ⟨.nil, (List.cons.inj equal).2⟩
      | cons other others =>
          rw [List.map_cons, joined_cons, List.append_assoc] at equal
          exact absurd equal.symm (closed (others_valid other List.mem_cons_self))
  | cons element elements =>
      cases others with
      | nil =>
          rw [List.map_cons, joined_cons, List.append_assoc] at equal
          exact absurd equal (closed (elements_valid element List.mem_cons_self))
      | cons other others =>
          refine later_append_inj closes notComma readable others_valid ?_
          simpa [joined_cons] using equal

end Sequences

section Documents

theorem dumpsItems_eq (items : List Json) : dumpsItems items = items.map dumps := by
  induction items with
  | nil => rfl
  | cons item items ih => rw [dumpsItems, ih, List.map_cons]

theorem dumpsMembers_eq (members : List (Text × Json)) :
    dumpsMembers members = members.map fun entry => (entry.1, dumps entry.2) := by
  induction members with
  | nil => rfl
  | cons entry members ih =>
      rcases entry with ⟨name, value⟩
      rw [dumpsMembers, ih, List.map_cons]

/-- The members of an object in the order of their keys. -/
def inOrder (members : List (Text × Json)) : List (Text × Json) :=
  members.insertionSort fun left right => textLe left.1 right.1

/-- A member whose value has not been written yet. -/
def dumpsMember (entry : Text × Json) : Text := member (entry.1, dumps entry.2)

theorem dumps_obj (members : List (Text × Json)) :
    dumps (.obj members) = '\x7b' :: joined ((inOrder members).map dumpsMember) ++ ['\x7d'] := by
  have sorted := List.map_insertionSort (fun left right : Text × Json => textLe left.1 right.1)
    (fun left right : Text × Text => textLe left.1 right.1)
    (fun entry => (entry.1, dumps entry.2)) members (fun _ _ _ _ => Iff.rfl)
  simp only [dumps, dumpsMembers_eq, inOrder, ← sorted, List.map_map]
  rfl

/-- A value that is no atom begins with an opener. -/
theorem exists_opener {document : Json} (compound : ¬document.isAtom) :
    ∃ opener text, document.dumps = opener :: text ∧ opener ∈ openers := by
  cases document with
  | null | bool | int | real => simp [isAtom] at compound
  | str value => exact ⟨'"', _, rfl, by decide⟩
  | arr items => exact ⟨'[', _, rfl, by decide⟩
  | obj members => exact ⟨'\x7b', _, dumps_obj members, by decide⟩

/-- A value begins with no separator. -/
theorem dumps_opens (document : Json) (valid : IsValid document) :
    ∃ character text, document.dumps = character :: text ∧ character ∉ separators := by
  by_cases atom : document.isAtom
  · rcases atom_plain valid atom with ⟨nonempty, plain⟩
    rcases List.exists_cons_of_ne_nil nonempty with ⟨character, text, text_eq⟩
    refine ⟨character, text, text_eq, fun separator => ?_⟩
    exact plain character (by rw [text_eq]; exact List.mem_cons_self)
      (List.mem_append_left openers separator)
  · have apart : ∀ opener ∈ openers, opener ∉ separators :=
      List.all_iff_forall_prop.mp (by decide)
    rcases exists_opener atom with ⟨opener, text, text_eq, opens⟩
    exact ⟨opener, text, text_eq, apart opener opens⟩

/-- The text of an atom begins with no opener. -/
theorem atom_append_ne {document : Json} (valid : IsValid document) (atom : document.isAtom)
    {opener : Char} (opens : opener ∈ openers) (rest tail : Text) :
    document.dumps ++ rest ≠ opener :: tail := by
  intro equal
  rcases atom_plain valid atom with ⟨nonempty, plain⟩
  rcases List.exists_cons_of_ne_nil nonempty with ⟨character, text, text_eq⟩
  rw [text_eq, List.cons_append, List.cons.injEq] at equal
  refine plain character (by rw [text_eq]; exact List.mem_cons_self) ?_
  rw [equal.1]
  exact List.mem_append_right separators opens

theorem readable_atom {document : Json} (valid : IsValid document) (atom : document.isAtom) :
    Readable dumps IsValid Equal document := by
  intro other rest tail other_valid rest_ends tail_ends equal
  have free : ∀ {document : Json}, IsValid document → document.isAtom →
      ∀ character ∈ document.dumps, character ∉ separators := by
    intro document valid atom character character_mem separator
    exact (atom_plain valid atom).2 character character_mem
      (List.mem_append_left openers separator)
  by_cases other_atom : other.isAtom
  · rcases append_ends_inj (free valid atom) (free other_valid other_atom) rest_ends tail_ends
      equal with ⟨texts, rests⟩
    exact ⟨atom_injective valid other_valid atom other_atom texts, rests⟩
  · rcases exists_opener other_atom with ⟨opener, text, text_eq, opens⟩
    rw [text_eq] at equal
    exact absurd equal (atom_append_ne valid atom opens _ _)

theorem readable_str (value : Text) : Readable dumps IsValid Equal (.str value) := by
  intro other rest tail other_valid _ _ equal
  by_cases atom : other.isAtom
  · exact absurd equal.symm (atom_append_ne other_valid atom (by decide) _ _)
  · cases other with
    | null | bool | int | real => simp [isAtom] at atom
    | str text =>
        rcases quote_append_inj equal with ⟨rfl, rests⟩
        exact ⟨.str value, rests⟩
    | arr items => cases (List.cons.inj equal).1
    | obj members =>
        rw [dumps_obj] at equal
        cases (List.cons.inj equal).1

theorem readable_arr {items : List Json} (valid : ∀ item ∈ items, IsValid item)
    (readable : ∀ item ∈ items, Readable dumps IsValid Equal item) :
    Readable dumps IsValid Equal (.arr items) := by
  intro other rest tail other_valid _ _ equal
  by_cases atom : other.isAtom
  · exact absurd equal.symm (atom_append_ne other_valid atom (by decide) _ _)
  · cases other_valid with
    | null | bool | int | real => simp [isAtom] at atom
    | str text => cases (List.cons.inj equal).1
    | @arr others others_valid =>
        simp only [dumps, dumpsItems_eq, List.cons_append, List.append_assoc, List.cons.injEq,
          true_and, List.nil_append] at equal
        rcases joined_append_inj (by decide) (by decide) dumps_opens valid others_valid readable
          equal with ⟨pairwise, rests⟩
        rw [List.forall₂_iff_zip] at pairwise
        exact ⟨.arr pairwise.1 fun pair pair_mem => pairwise.2 pair_mem, rests⟩
    | @obj members =>
        rw [dumps_obj] at equal
        cases (List.cons.inj equal).1

/-- Members have the same name and equal values. -/
def EqualMember (first second : Text × Json) : Prop :=
  first.1 = second.1 ∧ Equal first.2 second.2

theorem readable_member {entry : Text × Json} (readable : Readable dumps IsValid Equal entry.2) :
    Readable dumpsMember (fun entry => IsValid entry.2) EqualMember entry := by
  intro other rest tail other_valid rest_ends tail_ends equal
  simp only [dumpsMember, member, List.append_assoc, List.cons_append] at equal
  rcases quote_append_inj equal with ⟨names, equal⟩
  rcases readable other_valid rest_ends tail_ends (List.cons.inj equal).2 with ⟨values, rests⟩
  exact ⟨⟨names, values⟩, rests⟩

/-- Members that are equal in the order of their keys are equal up to their order. -/
theorem equal_obj {members others : List (Text × Json)}
    (pairwise : List.Forall₂ EqualMember (inOrder members) (inOrder others)) :
    Equal (.obj members) (.obj others) := by
  have sorted : members.Perm (inOrder members) := (List.perm_insertionSort _ members).symm
  rcases List.perm_comp_forall₂ sorted pairwise with ⟨partners, matched, rearranged⟩
  have names : List.Forall₂ (· = ·) (members.map Prod.fst) (partners.map Prod.fst) := by
    rw [List.forall₂_map_left_iff, List.forall₂_map_right_iff]
    exact matched.imp fun _ _ => And.left
  rw [List.forall₂_eq_eq_eq] at names
  rw [List.forall₂_iff_zip] at matched
  exact .obj (rearranged.trans (List.perm_insertionSort _ others)) names
    fun pair pair_mem => (matched.2 pair_mem).2

theorem readable_obj {members : List (Text × Json)}
    (valid : ∀ entry ∈ members, IsValid entry.2)
    (readable : ∀ entry ∈ members, Readable dumps IsValid Equal entry.2) :
    Readable dumps IsValid Equal (.obj members) := by
  intro other rest tail other_valid _ _ equal
  by_cases atom : other.isAtom
  · rw [dumps_obj] at equal
    exact absurd equal.symm (atom_append_ne other_valid atom (by decide) _ _)
  · cases other_valid with
    | null | bool | int | real => simp [isAtom] at atom
    | str text =>
        rw [dumps_obj] at equal
        cases (List.cons.inj equal).1
    | arr =>
        rw [dumps_obj] at equal
        cases (List.cons.inj equal).1
    | @obj others others_valid =>
        simp only [dumps_obj, List.cons_append, List.append_assoc, List.cons.injEq, true_and,
          List.nil_append] at equal
        have opens : ∀ entry : Text × Json, IsValid entry.2 → ∃ character text,
            dumpsMember entry = character :: text ∧ character ∉ separators :=
          fun entry _ => ⟨'"', _, rfl, by decide⟩
        rcases joined_append_inj (by decide) (by decide) opens
          (fun entry entry_mem => valid entry ((List.mem_insertionSort _).mp entry_mem))
          (fun entry entry_mem => others_valid entry ((List.mem_insertionSort _).mp entry_mem))
          (fun entry entry_mem =>
            readable_member (readable entry ((List.mem_insertionSort _).mp entry_mem)))
          equal with ⟨pairwise, rests⟩
        exact ⟨equal_obj pairwise, rests⟩

/-- The text of a document determines it, whatever follows behind a separator. -/
theorem readable_dumps (document : Json) :
    IsValid document → Readable dumps IsValid Equal document := by
  induction document using induct with
  | null => exact fun valid => readable_atom valid rfl
  | bool value => exact fun valid => readable_atom valid rfl
  | int value => exact fun valid => readable_atom valid rfl
  | real literal => exact fun valid => readable_atom valid rfl
  | str value => exact fun _ => readable_str value
  | arr items ih =>
      rintro (_ | _ | _ | _ | _ | each)
      exact readable_arr each fun item item_mem => ih item item_mem (each item item_mem)
  | obj members ih =>
      rintro (_ | _ | _ | _ | _ | _ | each)
      exact readable_obj each fun entry entry_mem => ih entry entry_mem (each entry entry_mem)

/-- Documents with the same canonical text are equal up to the order of members. -/
theorem dumps_injective {first second : Json} (first_valid : IsValid first)
    (second_valid : IsValid second) (same : first.dumps = second.dumps) : Equal first second :=
  (readable_dumps first first_valid second_valid ends_nil ends_nil (by rw [same])).1

end Documents

end Json
