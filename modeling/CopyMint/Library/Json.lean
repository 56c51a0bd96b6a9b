import CopyMint.Library.Hexadecimal
import Mathlib.Data.List.Sort

/-!
# JSON documents and their canonical text

The text written for a document is Python's
`json.dumps(value, sort_keys=True, separators=(",", ":"))`: members in the order
of their keys, no blank space, and every character outside printable ASCII
escaped. A floating-point number is kept as the text Python writes for it.
-/

open Hexadecimal

/-- A JSON document. -/
inductive Json where
  | null
  | bool (value : Bool)
  | int (value : ℤ)
  | real (literal : Text)
  | str (value : Text)
  | arr (items : List Json)
  | obj (members : List (Text × Json))

namespace Json

/-- An integer in decimal notation. -/
def decimal (value : ℤ) : Text :=
  if value < 0 then '-' :: Nat.toDigits 10 value.natAbs else Nat.toDigits 10 value.natAbs

/-- Four hexadecimal digits behind `\u`. -/
def unicodeEscape (unit : ℕ) : Text :=
  ['\\', 'u', Nat.digitChar (unit / 4096 % 16), Nat.digitChar (unit / 256 % 16),
    Nat.digitChar (unit / 16 % 16), Nat.digitChar (unit % 16)]

/-- One character of a string; characters past U+FFFF become a surrogate pair. -/
def escape (character : Char) : Text :=
  if character = '"' then ['\\', '"']
  else if character = '\\' then ['\\', '\\']
  else if character = '\n' then ['\\', 'n']
  else if character = '\r' then ['\\', 'r']
  else if character = '\t' then ['\\', 't']
  else if character = '\x0c' then ['\\', 'f']
  else if character = '\x08' then ['\\', 'b']
  else if ' ' ≤ character ∧ character ≤ '~' then [character]
  else if character.toNat < 65536 then unicodeEscape character.toNat
  else
    let offset := character.toNat - 65536
    unicodeEscape (55296 + offset / 1024) ++ unicodeEscape (56320 + offset % 1024)

/-- A text between quotes. -/
def quote (value : Text) : Text :=
  '"' :: value.flatMap escape ++ ['"']

/-- The elements of an array or object with commas between them. -/
def joined (parts : List Text) : Text :=
  List.flatten (parts.intersperse [','])

/-- A name and a value that is written already. -/
def member (entry : Text × Text) : Text :=
  quote entry.1 ++ ':' :: entry.2

/-- The order of texts by the code points of their characters. -/
def textLe : Text → Text → Bool
  | [], _ => true
  | _ :: _, [] => false
  | first :: left, other :: right =>
      first.toNat < other.toNat || (first.toNat = other.toNat && textLe left right)

mutual

/-- The canonical text of a document. -/
def dumps : Json → Text
  | .null => ['n', 'u', 'l', 'l']
  | .bool true => ['t', 'r', 'u', 'e']
  | .bool false => ['f', 'a', 'l', 's', 'e']
  | .int value => decimal value
  | .real literal => literal
  | .str value => quote value
  | .arr items => '[' :: joined (dumpsItems items) ++ [']']
  | .obj members =>
      let sorted := (dumpsMembers members).insertionSort fun left right => textLe left.1 right.1
      '\x7b' :: joined (sorted.map member) ++ ['\x7d']

/-- The items of an array. -/
def dumpsItems : List Json → List Text
  | [] => []
  | item :: items => dumps item :: dumpsItems items

/-- The members of an object. -/
def dumpsMembers : List (Text × Json) → List (Text × Text)
  | [] => []
  | (name, value) :: members => (name, dumps value) :: dumpsMembers members

end

/-- The UTF-8 bytes of text. -/
def utf8 (text : Text) : Bytes := text.flatMap String.utf8EncodeChar

example :
    dumps (.obj [("b".toList, .arr [.int 1, .bool false]), ("a".toList, .str "x\n".toList)]) =
      "\x7b\"a\":\"x\\n\",\"b\":[1,false]\x7d".toList := by
  decide

end Json
