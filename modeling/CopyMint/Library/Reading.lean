import CopyMint.Library.AbiEncoding
import CopyMint.Library.Json

/-!
# Reading written text back

Digits, decimal numbers, UTF-8 bytes and quoted JSON strings determine what they
were written for. An escaped character is also determined where other text
follows it, and so is a quoted string, since no escape begins with the quotation
mark.
-/

open Hexadecimal

namespace Hexadecimal

/-- The text behind the last of several separators can be told apart from what precedes it. -/
theorem append_separator_inj {separator : Char} {first second tail other : Text}
    (tail_free : separator ∉ tail) (other_free : separator ∉ other)
    (same : first ++ separator :: tail = second ++ separator :: other) :
    first = second ∧ tail = other := by
  rcases List.append_eq_append_iff.mp same with
    ⟨middle, rfl, later⟩ | ⟨middle, rfl, later⟩
  · cases middle with
    | nil =>
        simp only [List.nil_append, List.cons.injEq, true_and] at later
        simp [later]
    | cons character middle =>
        simp only [List.cons_append, List.cons.injEq] at later
        simp [later.2] at tail_free
  · cases middle with
    | nil =>
        simp only [List.nil_append, List.cons.injEq, true_and] at later
        simp [later]
    | cons character middle =>
        simp only [List.cons_append, List.cons.injEq] at later
        simp [later.2] at other_free

/-- The text in front of the first of several separators can be told apart from what follows it. -/
theorem append_separator_head_inj {separator : Char} {first second rest other : Text}
    (first_free : separator ∉ first) (second_free : separator ∉ second)
    (same : first ++ separator :: rest = second ++ separator :: other) :
    first = second ∧ rest = other := by
  rcases List.append_eq_append_iff.mp same with
    ⟨middle, rfl, later⟩ | ⟨middle, rfl, later⟩
  · cases middle with
    | nil => simpa using later
    | cons character middle =>
        simp only [List.cons_append, List.cons.injEq] at later
        simp [later.1] at second_free
  · cases middle with
    | nil => simpa [eq_comm] using later
    | cons character middle =>
        simp only [List.cons_append, List.cons.injEq] at later
        simp [later.1] at first_free

theorem newline_notMem_hex (bytes : Bytes) : '\n' ∉ hex bytes := by
  intro newline_mem
  rcases exists_digitChar_of_mem_hex newline_mem with ⟨value, small, equal⟩
  revert equal
  interval_cases value <;> decide

end Hexadecimal

namespace AbiEncoding

theorem bigEndian_injective (length : ℕ) {first second : ℕ} (first_lt : first < 256 ^ length)
    (second_lt : second < 256 ^ length)
    (same : bigEndian length first = bigEndian length second) : first = second := by
  induction length generalizing first second with
  | zero =>
      simp only [pow_zero] at first_lt second_lt
      omega
  | succ length ih =>
      simp only [bigEndian] at same
      rcases List.append_inj' same rfl with ⟨high, low⟩
      have high_eq : first / 256 = second / 256 := by
        apply ih _ _ high
        · rw [Nat.div_lt_iff_lt_mul (by omega)]
          simpa [pow_succ] using first_lt
        · rw [Nat.div_lt_iff_lt_mul (by omega)]
          simpa [pow_succ] using second_lt
      have low_eq : first % 256 = second % 256 := by
        have bytes := congrArg UInt8.toNat (List.singleton_inj.mp low)
        simpa using bytes
      omega

end AbiEncoding

namespace Json

theorem utf8_injective {first second : Text} (same : utf8 first = utf8 second) :
    first = second := by
  have encoded : first.utf8Encode = second.utf8Encode := congrArg List.toByteArray same
  have decoded := congrArg ByteArray.utf8Decode? encoded
  simpa using decoded

section Decimal

theorem mem_decimal {value : ℤ} {character : Char} (character_mem : character ∈ decimal value) :
    character = '-' ∨ character.isDigit := by
  have digits : character ∈ Nat.toDigits 10 value.natAbs → character.isDigit :=
    Nat.isDigit_of_mem_toDigits (by omega) (by omega)
  simp only [decimal] at character_mem
  split_ifs at character_mem
  · exact (List.mem_cons.mp character_mem).imp_right digits
  · exact .inr (digits character_mem)

theorem newline_notMem_decimal (value : ℤ) : '\n' ∉ decimal value :=
  fun newline_mem => absurd (mem_decimal newline_mem) (by decide)

theorem comma_notMem_decimal (value : ℤ) : ',' ∉ decimal value :=
  fun comma_mem => absurd (mem_decimal comma_mem) (by decide)

theorem toDigits_injective {first second : ℕ}
    (same : Nat.toDigits 10 first = Nat.toDigits 10 second) : first = second := by
  have read := congrArg (Nat.ofDigitChars 10 · 0) same
  simpa [Nat.ofDigitChars_toDigits] using read

theorem minus_notMem_toDigits (value : ℕ) : '-' ∉ Nat.toDigits 10 value := by
  intro minus_mem
  have digit := Nat.isDigit_of_mem_toDigits (by omega) (by omega) minus_mem
  revert digit
  decide

theorem decimal_injective {first second : ℤ} (same : decimal first = decimal second) :
    first = second := by
  simp only [decimal] at same
  split_ifs at same with first_neg second_neg second_neg
  · have digits := toDigits_injective (List.cons.inj same).2
    omega
  · exact absurd (same ▸ List.mem_cons_self) (minus_notMem_toDigits second.natAbs)
  · exact absurd (same ▸ List.mem_cons_self) (minus_notMem_toDigits first.natAbs)
  · have digits := toDigits_injective same
    omega

/-- A number can be told apart from the members after it. -/
theorem decimal_append_inj {first second : ℤ} {rest other : Text}
    (same : decimal first ++ ',' :: rest = decimal second ++ ',' :: other) :
    first = second ∧ rest = other := by
  rcases append_separator_head_inj (comma_notMem_decimal first) (comma_notMem_decimal second)
    same with ⟨numbers, later⟩
  exact ⟨decimal_injective numbers, later⟩

theorem decimal_ne_null (value : ℤ) : decimal value ≠ ['n', 'u', 'l', 'l'] := by
  have digits : 'n' ∉ Nat.toDigits 10 value.natAbs := by
    intro mem
    have digit := Nat.isDigit_of_mem_toDigits (by omega) (by omega) mem
    revert digit
    decide
  intro null
  simp only [decimal] at null
  split_ifs at null
  · simp at null
  · simp [null] at digits

end Decimal

section Quote

/-- The number that four hexadecimal digits stand for. -/
def unitOf (first second third fourth : Char) : Option ℕ :=
  match digitValue first, digitValue second, digitValue third, digitValue fourth with
  | some first, some second, some third, some fourth =>
      some (first * 4096 + second * 256 + third * 16 + fourth)
  | _, _, _, _ => none

/-- The character that a surrogate pair stands for. -/
def surrogatePair (high low : ℕ) : Char :=
  Char.ofNat (65536 + (high - 55296) * 1024 + (low - 56320))

/-- Read one escaped character, and what follows it. -/
def unescape : Text → Option (Char × Text)
  | '\\' :: 'u' :: first :: second :: third :: fourth :: rest =>
      match unitOf first second third fourth with
      | none => none
      | some high =>
          if 55296 ≤ high ∧ high < 56320 then
            match rest with
            | '\\' :: 'u' :: first :: second :: third :: fourth :: rest =>
                (unitOf first second third fourth).map fun low => (surrogatePair high low, rest)
            | _ => none
          else some (Char.ofNat high, rest)
  | '\\' :: 'n' :: rest => some ('\n', rest)
  | '\\' :: 'r' :: rest => some ('\r', rest)
  | '\\' :: 't' :: rest => some ('\t', rest)
  | '\\' :: 'f' :: rest => some ('\x0c', rest)
  | '\\' :: 'b' :: rest => some ('\x08', rest)
  | '\\' :: character :: rest => some (character, rest)
  | character :: rest => some (character, rest)
  | [] => none

theorem unescape_of_ne {character : Char} (plain : character ≠ '\\') (rest : Text) :
    unescape (character :: rest) = some (character, rest) := by
  unfold unescape
  split <;> simp_all

theorem unitOf_digitChars {unit : ℕ} (small : unit < 65536) :
    unitOf (Nat.digitChar (unit / 4096 % 16)) (Nat.digitChar (unit / 256 % 16))
      (Nat.digitChar (unit / 16 % 16)) (Nat.digitChar (unit % 16)) = some unit := by
  have digit : ∀ value : ℕ, digitValue (Nat.digitChar (value % 16)) = some (value % 16) :=
    fun value => digitValue_digitChar (by omega)
  simp only [unitOf, digit, Option.some.injEq]
  omega

theorem unescape_unicodeEscape {unit : ℕ} (small : unit < 55296 ∨ 56320 ≤ unit ∧ unit < 65536)
    (rest : Text) : unescape (unicodeEscape unit ++ rest) = some (Char.ofNat unit, rest) := by
  have read := unitOf_digitChars (show unit < 65536 by omega)
  have single : ¬(55296 ≤ unit ∧ unit < 56320) := by omega
  simp [unicodeEscape, unescape, read, single]

theorem unescape_surrogates {high low : ℕ} (high_ge : 55296 ≤ high) (high_lt : high < 56320)
    (low_lt : low < 65536) (rest : Text) :
    unescape (unicodeEscape high ++ unicodeEscape low ++ rest) =
      some (surrogatePair high low, rest) := by
  have read_high := unitOf_digitChars (show high < 65536 by omega)
  have read_low := unitOf_digitChars low_lt
  simp [unicodeEscape, unescape, read_high, read_low, high_ge, high_lt]

/-- An escaped character is read back, whatever follows it. -/
theorem unescape_escape (character : Char) (rest : Text) :
    unescape (escape character ++ rest) = some (character, rest) := by
  have valid : character.toNat < 55296 ∨ 57343 < character.toNat ∧ character.toNat < 1114112 :=
    character.valid
  simp only [escape]
  split_ifs with quotation backslash newline carriage tab feed back printable narrow
  · simp [unescape, quotation]
  · simp [unescape, backslash]
  · simp [unescape, newline]
  · simp [unescape, carriage]
  · simp [unescape, tab]
  · simp [unescape, feed]
  · simp [unescape, back]
  · exact unescape_of_ne backslash rest
  · rw [unescape_unicodeEscape (by omega), Char.ofNat_toNat]
  · have high_lt : (character.toNat - 65536) / 1024 < 1024 := by omega
    have low_lt : (character.toNat - 65536) % 1024 < 1024 := by omega
    have whole : 65536 + (55296 + (character.toNat - 65536) / 1024 - 55296) * 1024 +
        (56320 + (character.toNat - 65536) % 1024 - 56320) = character.toNat := by
      omega
    rw [unescape_surrogates (by omega) (by omega) (by omega), surrogatePair, whole,
      Char.ofNat_toNat]

theorem escape_append_inj {first second : Char} {rest other : Text}
    (same : escape first ++ rest = escape second ++ other) : first = second ∧ rest = other := by
  have read := congrArg unescape same
  simpa only [unescape_escape, Option.some.injEq, Prod.mk.injEq] using read

/-- No escape begins with the quotation mark that ends a string. -/
theorem escape_append_ne (character : Char) (rest other : Text) :
    escape character ++ rest ≠ '"' :: other := by
  intro same
  have read := congrArg unescape same
  rw [unescape_escape, unescape_of_ne (by decide)] at read
  simp only [Option.some.injEq, Prod.mk.injEq] at read
  rw [read.1, read.2] at same
  simp [escape] at same

theorem escapes_append_inj {first second rest other : Text}
    (same : first.flatMap escape ++ '"' :: rest = second.flatMap escape ++ '"' :: other) :
    first = second ∧ rest = other := by
  induction first generalizing second with
  | nil =>
      cases second with
      | nil => simpa using same
      | cons character second =>
          simp only [List.flatMap_nil, List.nil_append, List.flatMap_cons,
            List.append_assoc] at same
          exact absurd same.symm (escape_append_ne character _ _)
  | cons character first ih =>
      cases second with
      | nil =>
          simp only [List.flatMap_nil, List.nil_append, List.flatMap_cons,
            List.append_assoc] at same
          exact absurd same (escape_append_ne character _ _)
      | cons other_character second =>
          simp only [List.flatMap_cons, List.append_assoc] at same
          rcases escape_append_inj same with ⟨rfl, later⟩
          rcases ih later with ⟨rfl, rest_eq⟩
          exact ⟨rfl, rest_eq⟩

/-- A quoted string can be told apart from the text after it. -/
theorem quote_append_inj {first second rest other : Text}
    (same : quote first ++ rest = quote second ++ other) : first = second ∧ rest = other := by
  simp only [quote, List.cons_append, List.append_assoc, List.nil_append, List.cons.injEq,
    true_and] at same
  exact escapes_append_inj same

theorem member_quote_append_inj {first_name second_name first second rest other : Text}
    (same : member (first_name, quote first) ++ rest =
      member (second_name, quote second) ++ other) :
    first_name = second_name ∧ first = second ∧ rest = other := by
  simp only [member, List.append_assoc, List.cons_append] at same
  rcases quote_append_inj same with ⟨names, values⟩
  exact ⟨names, quote_append_inj (List.cons.inj values).2⟩

end Quote

end Json
