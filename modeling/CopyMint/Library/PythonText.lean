import CopyMint.Library.Json
import Mathlib.Tactic.SplitIfs

/-!
# Python's conversions between text and values

`int` reads an integer from text: blank space around it, a sign, digits in which single
underscores may stand, and for base 16 a prefix. `str` and `repr` write a document as
Python writes the value it is read into. What is particular to characters beyond ASCII,
the tables of Unicode, is a parameter.
-/

open Hexadecimal

/-- What Python looks up of a character. -/
structure UnicodeData where
  /-- `Py_UNICODE_ISSPACE`. -/
  isSpace : Char → Bool
  /-- `str.isdigit` of a single character. -/
  isDigit : Char → Bool
  /-- `str.isprintable` of a single character. -/
  isPrintable : Char → Bool
  /-- `Py_UNICODE_TODECIMAL`. -/
  decimal : Char → Option (Fin 10)

namespace UnicodeData

variable (unicode : UnicodeData)

/--
`_PyUnicode_TransformDecimalAndSpaceToASCII`. Text in ASCII remains as it is; a character
that is neither a digit nor blank becomes one that no number has.
-/
def toAscii (text : Text) : Text :=
  if text.all fun character => character.toNat < 128 then text
  else
    text.map fun character =>
      if character.toNat < 127 then character
      else if unicode.isSpace character then ' '
      else
        match unicode.decimal character with
        | some digit => Nat.digitChar digit
        | none => '?'

/-- `Py_ISSPACE` at both ends. -/
def strip (text : Text) : Text :=
  ((text.dropWhile Hexadecimal.isSpace).reverse.dropWhile Hexadecimal.isSpace).reverse

/-- A base that the code reads in. -/
inductive Base where
  | ten
  | sixteen
  deriving DecidableEq

namespace Base

/-- The number that a base is. -/
def value : Base → ℕ
  | ten => 10
  | sixteen => 16

/-- The digits behind the prefix `0x` of base 16 and an underscore that may follow it. -/
def unprefixed : Base → Text → Text
  | ten, digits => digits
  | sixteen, '0' :: letter :: digits =>
      if letter = 'x' ∨ letter = 'X' then removePrefix ['_'] digits
      else '0' :: letter :: digits
  | sixteen, digits => digits

/-- `sys.get_int_max_str_digits()`, which bases that are powers of two are exempt from. -/
def maxDigits : Base → Option ℕ
  | ten => some 4300
  | sixteen => none

/-- The character is a digit of the base. -/
def isDigit (base : Base) (digit : Char) : Bool :=
  (digitValue digit).any fun value => value < base.value

end Base

/-- Digits in which single underscores may stand. -/
def readNatural (base : Base) (text : Text) : Option ℕ :=
  let groups := (base.unprefixed text).splitOn '_'
  let digits := groups.flatten
  if (groups.all fun group => group ≠ [] ∧ group.all base.isDigit) ∧
      base.maxDigits.all (digits.length ≤ ·) then
    some (digits.foldl (fun number digit => base.value * number + (digitValue digit).getD 0) 0)
  else none

/-- `int(text, base)`; without a result it raises `ValueError`. -/
def int (base : Base) (text : Text) : Option ℤ :=
  match strip (unicode.toAscii text) with
  | '-' :: digits => (readNatural base digits).map fun value : ℕ => -(value : ℤ)
  | '+' :: digits => (readNatural base digits).map Int.ofNat
  | digits => (readNatural base digits).map Int.ofNat

/-- What is left between the blank space begins with a character that is none. -/
theorem strip_cons {first : Char} (text : Text) (solid : Hexadecimal.isSpace first = false) :
    ∃ rest, strip (first :: text) = first :: rest := by
  have kept : (first :: text).dropWhile Hexadecimal.isSpace = first :: text :=
    List.dropWhile_cons_of_neg (by simp [solid])
  rw [strip, kept, List.reverse_cons, List.dropWhile_append]
  split_ifs
  · refine ⟨[], ?_⟩
    rw [List.dropWhile_cons_of_neg (by simp [solid])]
    rfl
  · exact ⟨_, List.reverse_append⟩

/-- A number that begins with a digit has no sign. -/
theorem int_nonneg {base : Base} {text : Text} {number : ℤ}
    (read : unicode.int base ('0' :: text) = some number) : 0 ≤ number := by
  have ascii : ∃ rest, unicode.toAscii ('0' :: text) = '0' :: rest := by
    rw [toAscii]
    split_ifs
    · exact ⟨text, rfl⟩
    · exact ⟨_, rfl⟩
  rcases ascii with ⟨rest, ascii⟩
  rcases strip_cons rest (show Hexadecimal.isSpace '0' = false from rfl) with ⟨digits, stripped⟩
  rw [int, ascii, stripped] at read
  rcases Option.map_eq_some_iff.mp read with ⟨value, _, rfl⟩
  exact Int.natCast_nonneg value

/-- `str.isdigit`. -/
def isdigit (text : Text) : Bool := text ≠ [] && text.all unicode.isDigit

/-- `text.split(maxsplit=1)`: the first word, and what follows it from the next one on. -/
def splitOnce (text : Text) : List Text :=
  let inWord := fun character => !unicode.isSpace character
  match text.dropWhile unicode.isSpace with
  | [] => []
  | first :: rest =>
      let word := first :: rest.takeWhile inWord
      match (rest.dropWhile inWord).dropWhile unicode.isSpace with
      | [] => [word]
      | remainder => [word, remainder]

/-- An escape with the given number of hexadecimal digits. -/
def reprEscape (letter : Char) (width code : ℕ) : Text :=
  let places := (List.range width).reverse
  '\\' :: letter :: places.map fun place => Nat.digitChar (code / 16 ^ place % 16)

/-- One character of `repr`, between the given quotes. -/
def reprCharacter (quote character : Char) : Text :=
  let code := character.toNat
  if character = quote ∨ character = '\\' then ['\\', character]
  else if character = '\t' then ['\\', 't']
  else if character = '\n' then ['\\', 'n']
  else if character = '\r' then ['\\', 'r']
  else if code < 32 ∨ code = 127 then reprEscape 'x' 2 code
  else if code < 127 then [character]
  else if unicode.isPrintable character then [character]
  else if code < 256 then reprEscape 'x' 2 code
  else if code < 65536 then reprEscape 'u' 4 code
  else reprEscape 'U' 8 code

/-- `repr` of a string. -/
def reprText (text : Text) : Text :=
  let quote := if '\'' ∈ text ∧ '"' ∉ text then '"' else '\''
  quote :: text.flatMap (unicode.reprCharacter quote) ++ [quote]

/-- Numbers that are not finite are written in another way than in JSON. -/
def reprFloat (literal : Text) : Text :=
  if literal = "NaN".toList then "nan".toList
  else if literal = "Infinity".toList then "inf".toList
  else if literal = "-Infinity".toList then "-inf".toList
  else literal

/-- The elements of a list or dictionary with commas between them. -/
def commaSeparated (parts : List Text) : Text :=
  [',', ' '].intercalate parts

mutual

/-- `repr` of a document. -/
def repr : Json → Text
  | .null => "None".toList
  | .bool true => "True".toList
  | .bool false => "False".toList
  | .int value => Json.decimal value
  | .real literal => reprFloat literal
  | .str value => unicode.reprText value
  | .arr items => '[' :: commaSeparated (reprItems items) ++ [']']
  | .obj members => '\x7b' :: commaSeparated (reprMembers members) ++ ['\x7d']

/-- The items of a list. -/
def reprItems : List Json → List Text
  | [] => []
  | item :: items => repr item :: reprItems items

/-- The members of a dictionary. -/
def reprMembers : List (Text × Json) → List Text
  | [] => []
  | (name, value) :: members =>
      (unicode.reprText name ++ ':' :: ' ' :: repr value) :: reprMembers members

end

/-- `str`, which differs from `repr` on strings only. -/
def str : Json → Text
  | .str value => value
  | document => unicode.repr document

/-- `str` of what `dict.get` returns. -/
def strGet (found : Option Json) : Text := unicode.str (found.getD .null)

end UnicodeData

/-- `bool(value)`. -/
def Json.truth : Json → Bool
  | .null => false
  | .bool value => value
  | .int value => value ≠ 0
  | .real literal => literal ∉ ["0.0".toList, "-0.0".toList]
  | .str value => value ≠ []
  | .arr items => !items.isEmpty
  | .obj members => !members.isEmpty

/-- What all versions of the tables say about digits. -/
structure UnicodeDigits extends UnicodeData where
  ascii : ∀ character, character.toNat < 128 → isDigit character = character.isDigit
  solid : ∀ character, isDigit character = true → isSpace character = false

namespace UnicodeData

/-- A character that can stand in a number, or the one that stands for those that cannot. -/
def IsPlain (character : Char) : Prop := character.isDigit = true ∨ character = '?'

theorem isDigit_iff_digitChar {character : Char} :
    character.isDigit = true ↔ ∃ value < 10, character = Nat.digitChar value := by
  constructor
  · intro isDigit
    simp only [Char.isDigit, Bool.and_eq_true, decide_eq_true_eq] at isDigit
    have low : 48 ≤ character.toNat := UInt32.le_iff_toNat_le.mp isDigit.1
    have high : character.toNat ≤ 57 := UInt32.le_iff_toNat_le.mp isDigit.2
    refine ⟨character.toNat - 48, by omega, ?_⟩
    rw [← Char.ofNat_toNat character]
    interval_cases character.toNat <;> rfl
  · rintro ⟨value, small, rfl⟩
    interval_cases value <;> rfl

namespace IsPlain

variable {character : Char}

theorem isSpace_eq_false (plain : IsPlain character) : Hexadecimal.isSpace character = false := by
  rcases plain with isDigit | rfl
  · rcases isDigit_iff_digitChar.mp isDigit with ⟨value, small, rfl⟩
    exact isSpace_digitChar (by omega)
  · rfl

theorem notMem_signs (plain : IsPlain character) : character ∉ ['-', '+', '_'] := by
  rcases plain with isDigit | rfl
  · rcases isDigit_iff_digitChar.mp isDigit with ⟨value, small, rfl⟩
    interval_cases value <;> decide
  · decide

theorem isDigit_base_iff (plain : IsPlain character) :
    Base.ten.isDigit character = true ↔ character ≠ '?' := by
  rcases plain with isDigit | rfl
  · rcases isDigit_iff_digitChar.mp isDigit with ⟨value, small, rfl⟩
    interval_cases value <;> decide
  · decide

end IsPlain

/-- Nothing is left out of text without blanks. -/
theorem strip_eq_self {text : Text} (solid : ∀ character ∈ text,
    Hexadecimal.isSpace character = false) : strip text = text := by
  have kept : text.dropWhile Hexadecimal.isSpace = text := by
    cases text with
    | nil => rfl
    | cons first rest => exact List.dropWhile_cons_of_neg (by simp [solid first])
  have keptReverse : text.reverse.dropWhile Hexadecimal.isSpace = text.reverse := by
    cases reversed : text.reverse with
    | nil => rfl
    | cons last rest =>
        have last_mem : last ∈ text := List.mem_reverse.mp (reversed ▸ List.mem_cons_self)
        exact List.dropWhile_cons_of_neg (by simp [solid last last_mem])
  rw [strip, kept, keptReverse, List.reverse_reverse]

theorem readNatural_isSome_iff {text : Text} (filled : text ≠ [])
    (plain : ∀ character ∈ text, IsPlain character) :
    (readNatural .ten text).isSome ↔ text.length ≤ 4300 ∧ '?' ∉ text := by
  have whole : (Base.unprefixed .ten text).splitOn '_' = [text] := by
    refine List.splitOn_eq_singleton fun underscore_mem => ?_
    exact absurd (by simp) (plain '_' underscore_mem).notMem_signs
  have digits : text.all Base.ten.isDigit = true ↔ '?' ∉ text := by
    rw [List.all_eq_true]
    constructor
    · intro all_digits unknown_mem
      exact (plain _ unknown_mem).isDigit_base_iff.mp (all_digits _ unknown_mem) rfl
    · intro unknown_notMem character character_mem
      refine (plain _ character_mem).isDigit_base_iff.mpr ?_
      rintro rfl
      exact unknown_notMem character_mem
  have accepted : (readNatural .ten text).isSome ↔
      text.all Base.ten.isDigit = true ∧ text.length ≤ 4300 := by
    simp only [readNatural, whole]
    split_ifs with valid <;> simp_all [Base.maxDigits]
  rw [accepted, digits, and_comm]

end UnicodeData

namespace UnicodeDigits

variable (unicode : UnicodeDigits) {text : Text}

/-- What becomes of a digit before a number is read. -/
def asciiDigit (character : Char) : Char :=
  if character.toNat < 128 then character
  else (unicode.decimal character).elim '?' fun digit => Nat.digitChar digit

open UnicodeData

theorem isPlain_asciiDigit {character : Char} (isDigit : unicode.isDigit character = true) :
    IsPlain (unicode.asciiDigit character) := by
  rw [asciiDigit]
  split_ifs with ascii
  · exact .inl (unicode.ascii character ascii ▸ isDigit)
  · cases unicode.decimal character with
    | none => exact .inr rfl
    | some digit => exact .inl (isDigit_iff_digitChar.mpr ⟨digit, digit.isLt, rfl⟩)

theorem asciiDigit_eq_unknown_iff {character : Char} (isDigit : unicode.isDigit character = true) :
    unicode.asciiDigit character = '?' ↔
      128 ≤ character.toNat ∧ unicode.decimal character = none := by
  rw [asciiDigit]
  split_ifs with ascii
  · rw [unicode.ascii character ascii] at isDigit
    refine iff_of_false ?_ fun beyond => absurd ascii (by omega)
    rintro rfl
    cases isDigit
  · cases found : unicode.decimal character with
    | none => simpa using Nat.not_lt.mp ascii
    | some digit =>
        refine iff_of_false ?_ fun unknown => by cases unknown.2
        have plain := isDigit_iff_digitChar.mpr ⟨digit, digit.isLt, rfl⟩
        intro unknown
        rw [Option.elim_some] at unknown
        rw [unknown] at plain
        cases plain

theorem toAscii_of_digits (digits : ∀ character ∈ text, unicode.isDigit character = true) :
    unicode.toAscii text = text.map unicode.asciiDigit := by
  rw [toAscii]
  split_ifs with ascii
  · have kept : ∀ character ∈ text, unicode.asciiDigit character = character := by
      intro character character_mem
      exact if_pos (by simpa using List.all_eq_true.mp ascii character character_mem)
    rw [List.map_congr_left kept, List.map_id']
  · refine List.map_congr_left fun character character_mem => ?_
    have isDigit := digits character character_mem
    by_cases low : character.toNat < 128
    · rw [unicode.ascii character low] at isDigit
      have below : character.toNat < 127 := by
        rcases isDigit_iff_digitChar.mp isDigit with ⟨value, small, rfl⟩
        interval_cases value <;> decide
      rw [if_pos below, asciiDigit, if_pos low]
    · rw [if_neg (by omega), unicode.solid character isDigit, asciiDigit, if_neg low]
      cases unicode.decimal character <;> rfl

/--
Text that passes `isdigit` is read as a number exactly if it is not too long and every
digit beyond ASCII is a decimal one.
-/
theorem int_isSome_iff (digits : unicode.isdigit text = true) :
    (unicode.int .ten text).isSome ↔ text.length ≤ 4300 ∧
      ∀ character ∈ text, 128 ≤ character.toNat → (unicode.decimal character).isSome := by
  simp only [isdigit, Bool.and_eq_true, decide_eq_true_eq, List.all_eq_true] at digits
  rcases digits with ⟨filled, digits⟩
  have plain : ∀ character ∈ text.map unicode.asciiDigit, IsPlain character := by
    intro character character_mem
    rcases List.mem_map.mp character_mem with ⟨digit, digit_mem, rfl⟩
    exact unicode.isPlain_asciiDigit (digits digit digit_mem)
  have unsigned : unicode.int .ten text =
      (readNatural .ten (text.map unicode.asciiDigit)).map Int.ofNat := by
    rw [UnicodeData.int, unicode.toAscii_of_digits digits,
      strip_eq_self fun character character_mem => (plain character character_mem).isSpace_eq_false]
    split
    · rename_i starts
      exact absurd (by simp) (plain '-' (starts ▸ List.mem_cons_self)).notMem_signs
    · rename_i starts
      exact absurd (by simp) (plain '+' (starts ▸ List.mem_cons_self)).notMem_signs
    · rfl
  rw [unsigned, Option.isSome_map, readNatural_isSome_iff (by simpa using filled) plain,
    List.length_map]
  refine and_congr_right fun _ => ?_
  constructor
  · intro known character character_mem beyond
    rw [← Option.ne_none_iff_isSome]
    intro undecimal
    refine known (List.mem_map.mpr ⟨character, character_mem, ?_⟩)
    exact (unicode.asciiDigit_eq_unknown_iff (digits _ character_mem)).mpr ⟨beyond, undecimal⟩
  · intro decimals unknown_mem
    rcases List.mem_map.mp unknown_mem with ⟨character, character_mem, unknown⟩
    have odd := (unicode.asciiDigit_eq_unknown_iff (digits _ character_mem)).mp unknown
    exact Option.ne_none_iff_isSome.mpr (decimals character character_mem odd.1) odd.2

end UnicodeDigits
