import CopyMint.Library.PythonText
import CopyMint.Library.Regex
import Mathlib.Data.List.Infix

/-!
# Redaction of logs

Text is redacted by five expressions, one after the other. A structured value is redacted
as a whole where its key is a sensitive one, and otherwise element by element. What is
particular to characters beyond ASCII is looked up in tables, except for the four of them
that are a letter of ASCII in another case.
-/

namespace CopyMint

open Hexadecimal Substitution

/-- What is looked up of a character. -/
structure CharacterTables extends UnicodeData where
  /-- `str.isalnum` of a single character. -/
  isAlnum : Char → Bool
  /-- `str.casefold` of a single character. -/
  casefold : Char → Text

/-- `REDACTED`. -/
def redactedMark : Text := "[REDACTED]".toList

section Letters

/-- `_sre.unicode_tolower`, as far as it has letters of ASCII for results. -/
def unicodeTolower (character : Char) : Char :=
  if character = '\u212a' then 'k'
  else if character = '\u0130' then 'i'
  else character.toLower

/-- `_EXTRA_CASES`. -/
def extraCases (letter : Char) : List Char :=
  if letter = 'i' then ['\u0131'] else if letter = 's' then ['\u017f'] else []

/-- A letter in a pattern that ignores case. -/
def sameLetter (letter character : Char) : Bool :=
  unicodeTolower character = unicodeTolower letter ||
    unicodeTolower character ∈ extraCases (unicodeTolower letter)

/-- A class in a pattern that ignores case, given by its lower-case characters. -/
def sameClass (accepts : Char → Bool) (character : Char) : Bool :=
  let low := unicodeTolower character
  accepts low || (low ∈ extraCases 'i' && accepts 'i') || (low ∈ extraCases 's' && accepts 's')

/-- Text in a pattern that ignores case. -/
def ignoringCase (text : String) : Regex Char :=
  .concat (text.toList.map fun letter => .one (sameLetter letter))

/-- `[characters]?`. -/
def maybeOf (characters : String) : Regex Char :=
  .optional (.one fun character => character ∈ characters.toList)

end Letters

variable (tables : CharacterTables)

/-- `\w`. -/
def CharacterTables.isWord (character : Char) : Bool :=
  tables.isAlnum character || character = '_'

/-- `\d`. -/
def CharacterTables.isDecimal (character : Char) : Bool := (tables.decimal character).isSome

/-- `[A-Za-z0-9._~+/=-]`, by its lower-case characters. -/
def isBearerCharacter (character : Char) : Bool :=
  character.isLower || character.isDigit || character ∈ "._~+/=-".toList

/-- `[A-Za-z0-9_-]`. -/
def isTokenCharacter (character : Char) : Bool :=
  character.isAlphanum || character = '_' || character = '-'

/-- `[^\s/@]`. -/
def CharacterTables.isUserinfo (character : Char) : Bool :=
  !tables.isSpace character && character ≠ '/' && character ≠ '@'

/-- `_BEARER_RE`. -/
def bearerPattern : Pattern Char where
  opening := .empty
  removed := .concat [.boundary tables.isWord, ignoringCase "Bearer",
    .many 1 none tables.isSpace, .many 1 none (sameClass isBearerCharacter)]
  closing := .empty
  written := "Bearer ".toList ++ redactedMark
  removes := Nat.zero_lt_succ _

/-- `_TELEGRAM_TOKEN_RE`. -/
def telegramTokenPattern : Pattern Char where
  opening := .empty
  removed := .concat [.boundary tables.isWord, .many 6 (some 12) tables.isDecimal,
    .one (· = ':'), .many 30 none isTokenCharacter, .boundary tables.isWord]
  closing := .empty
  written := redactedMark
  removes := Nat.zero_lt_succ _

/-- `postgres(?:ql)?(?:\+\w+)?|redis(?:s)?`. -/
def urlScheme : Regex Char :=
  .oneOf
    (.concat [ignoringCase "postgres", .optional (ignoringCase "ql"),
      .optional (.concat [.one (· = '+'), .many 1 none tables.isWord])])
    [.concat [ignoringCase "redis", .optional (ignoringCase "s")]]

/-- `_CREDENTIAL_URL_RE`; the groups around the password are kept. -/
def credentialUrlPattern : Pattern Char where
  opening := .concat [.boundary tables.isWord, urlScheme tables, ignoringCase "://"]
  removed := .concat [.many 1 none tables.isUserinfo, .one (· = ':'),
    .many 1 none tables.isUserinfo]
  closing := .one (· = '@')
  written := redactedMark
  removes := Nat.zero_lt_succ _

/-- `api[_-]?key|access[_-]?token|token|secret|key`. -/
def secretName : Regex Char :=
  .oneOf (.concat [ignoringCase "api", maybeOf "_-", ignoringCase "key"])
    [.concat [ignoringCase "access", maybeOf "_-", ignoringCase "token"],
      ignoringCase "token", ignoringCase "secret", ignoringCase "key"]

/-- `_QUERY_SECRET_RE`. -/
def querySecretPattern : Pattern Char where
  opening := .concat [secretName, .one (· = '=')]
  removed := .many 1 none fun character => character ≠ '&' && !tables.isSpace character
  closing := .empty
  written := redactedMark
  removes := Nat.zero_lt_succ _

/-- `private[_ -]?key|seed[_ -]?phrase|mnemonic|password|secret`. -/
def secretLabel : Regex Char :=
  .oneOf (.concat [ignoringCase "private", maybeOf "_ -", ignoringCase "key"])
    [.concat [ignoringCase "seed", maybeOf "_ -", ignoringCase "phrase"],
      ignoringCase "mnemonic", ignoringCase "password", ignoringCase "secret"]

/-- `_LABELED_SECRET_RE`. -/
def labeledSecretPattern : Pattern Char where
  opening := .concat [secretLabel, .many 0 none tables.isSpace,
    .one fun character => character = ':' || character = '=', .many 0 none tables.isSpace]
  removed := .many 1 none fun character =>
    character ≠ ',' && character ≠ ';' && !tables.isSpace character
  closing := .empty
  written := redactedMark
  removes := Nat.zero_lt_succ _

/-- The expressions in the order in which they are applied. -/
def redactionRules : List (Rule Char) :=
  [(bearerPattern tables).rule, (telegramTokenPattern tables).rule,
    (credentialUrlPattern tables).rule, (querySecretPattern tables).rule,
    (labeledSecretPattern tables).rule]

/-- `redact_text`. -/
def redactText (value : Text) : Text := substitute (redactionRules tables) value

/-- `_SENSITIVE_FRAGMENTS`. -/
def sensitiveFragments : List Text :=
  ["authorization".toList, "api_key".toList, "apikey".toList, "bot_token".toList,
    "ciphertext".toList, "cookie".toList, "database_url".toList,
    "encrypted_data_key".toList, "kms".toList, "mnemonic".toList, "password".toList,
    "private_key".toList, "queue_url".toList, "raw_transaction".toList, "recovery".toList,
    "rpc_url".toList, "seed".toList, "secret".toList, "signed_transaction".toList,
    "signer_key_id".toList, "token".toList]

/-- `_is_sensitive_key`. -/
def isSensitiveKey (key : Text) : Bool :=
  let normalized := (key.flatMap tables.casefold).map fun character =>
    if character = '-' ∨ character = ' ' then '_' else character
  sensitiveFragments.any fun fragment => decide (fragment <:+: normalized)

/-- A value that is neither text nor a container. -/
inductive Scalar (Number : Type) where
  | none
  | bool (value : Bool)
  | number (value : Number)

/-- What is logged. The keys of a mapping are distinct. -/
inductive Value (Number : Type) where
  | scalar (value : Scalar Number)
  | text (value : Text)
  | list (items : List (Value Number))
  | tuple (items : List (Value Number))
  | mapping (members : List (Text × Value Number))

variable {Number : Type}

mutual

/-- `redact(value, key=key)`. -/
def redact (key : Option Text) (value : Value Number) : Value Number :=
  if key.any (isSensitiveKey tables) then .text redactedMark
  else
    match value with
    | .scalar value => .scalar value
    | .text value => .text (redactText tables value)
    | .list items => .list (redactItems items)
    | .tuple items => .tuple (redactItems items)
    | .mapping members => .mapping (redactMembers members)

/-- The items of a list or a tuple. -/
def redactItems : List (Value Number) → List (Value Number)
  | [] => []
  | item :: items => redact none item :: redactItems items

/-- The members of a mapping. -/
def redactMembers : List (Text × Value Number) → List (Text × Value Number)
  | [] => []
  | (key, item) :: members => (key, redact (some key) item) :: redactMembers members

end

section Samples

/-- The tables as far as ASCII goes. -/
def asciiTables : CharacterTables where
  isSpace := Hexadecimal.isSpace
  isDigit := Char.isDigit
  isPrintable character := 32 ≤ character.toNat && character.toNat < 127
  decimal character :=
    if character.isDigit then some (Fin.ofNat 10 (character.toNat - 48)) else none
  isAlnum := Char.isAlphanum
  casefold character := [character.toLower]

end Samples

end CopyMint
