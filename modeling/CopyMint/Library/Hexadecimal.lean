import Mathlib.Data.List.Basic
import Mathlib.Tactic.IntervalCases

/-!
# Hexadecimal text

Text is a list of characters. The operations follow Python's: `fromhex` reads
pairs of digits of either case and skips ASCII whitespace between pairs, `hex`
writes two lower-case digits for each byte and no prefix, and `removePrefix`
drops a prefix once where it is there. `lower` changes ASCII letters only, which
is all that it has to do on text compared with hexadecimal digits.
-/

namespace Hexadecimal

/-- Text, one character after another. -/
abbrev Text := List Char

/-- A string of bytes. -/
abbrev Bytes := List UInt8

/-- A byte string of a fixed length. -/
abbrev BytesOf (length : ℕ) := { bytes : Bytes // bytes.length = length }

/-- The prefix that marks hexadecimal text. -/
def marker : Text := ['0', 'x']

/-- `str.lower` of ASCII. -/
def lower (text : Text) : Text := text.map Char.toLower

/-- `str.removeprefix`. -/
def removePrefix (start text : Text) : Text :=
  if start.isPrefixOf text then text.drop start.length else text

/-- The value of a hexadecimal digit of either case. -/
def digitValue (digit : Char) : Option ℕ :=
  if '0' ≤ digit ∧ digit ≤ '9' then some (digit.toNat - 48)
  else if 'a' ≤ digit ∧ digit ≤ 'f' then some (digit.toNat - 87)
  else if 'A' ≤ digit ∧ digit ≤ 'F' then some (digit.toNat - 55)
  else none

/-- The ASCII whitespace that may stand between two bytes. -/
def isSpace (character : Char) : Bool :=
  character ∈ [' ', '\t', '\n', '\r', '\x0b', '\x0c']

/-- `bytes.fromhex`; blanks may stand between bytes. -/
def fromhex : Text → Option Bytes
  | [] => some []
  | first :: rest =>
      if isSpace first then fromhex rest
      else
        match rest with
        | [] => none
        | second :: rest =>
            match digitValue first, digitValue second with
            | some high, some low =>
                (fromhex rest).map fun bytes => UInt8.ofNat (16 * high + low) :: bytes
            | _, _ => none

/-- `bytes.hex`. -/
def hex : Bytes → Text
  | [] => []
  | byte :: bytes =>
      Nat.digitChar (byte.toNat / 16) :: Nat.digitChar (byte.toNat % 16) :: hex bytes

/-- Text made of hexadecimal digits of either case. -/
def IsDigits (text : Text) : Prop :=
  ∀ digit ∈ text, (digitValue digit).isSome

instance (text : Text) : Decidable (IsDigits text) :=
  List.decidableBAll (fun digit => (digitValue digit).isSome = true) text

/-- The marker followed by the digits of a given number of bytes. -/
def IsMarkedHex (length : ℕ) (text : Text) : Prop :=
  ∃ digits, text = marker ++ digits ∧ digits.length = 2 * length ∧ IsDigits digits

theorem isMarkedHex_iff {length : ℕ} {text : Text} :
    IsMarkedHex length text ↔
      text.take 2 = marker ∧ (text.drop 2).length = 2 * length ∧ IsDigits (text.drop 2) := by
  constructor
  · rintro ⟨digits, rfl, even, isDigits⟩
    exact ⟨rfl, even, isDigits⟩
  · rintro ⟨marked, even, isDigits⟩
    refine ⟨text.drop 2, ?_, even, isDigits⟩
    rw [← marked, List.take_append_drop]

instance (length : ℕ) (text : Text) : Decidable (IsMarkedHex length text) :=
  decidable_of_iff _ isMarkedHex_iff.symm

/-- The byte string that text stands for, with or without the marker. -/
def Denotes (text : Text) (bytes : Bytes) : Prop :=
  fromhex (removePrefix marker text) = some bytes

instance (text : Text) (bytes : Bytes) : Decidable (Denotes text bytes) :=
  inferInstanceAs (Decidable (_ = _))

theorem digitValue_digitChar {value : ℕ} (small : value < 16) :
    digitValue (Nat.digitChar value) = some value := by
  interval_cases value <;> decide

theorem isSpace_digitChar {value : ℕ} (small : value < 16) :
    isSpace (Nat.digitChar value) = false := by
  interval_cases value <;> decide

theorem toLower_toLower (character : Char) : character.toLower.toLower = character.toLower := by
  by_cases upper : 'A' ≤ character ∧ character ≤ 'Z'
  · have table : ∀ code < 128, (Char.ofNat code).toLower.toLower = (Char.ofNat code).toLower := by
      decide +kernel
    have found := table character.toNat (lt_of_le_of_lt upper.2 (by decide))
    rwa [Char.ofNat_toNat] at found
  · have kept : character.toLower = character := dif_neg upper
    rw [kept, kept]

@[simp]
theorem lower_lower (text : Text) : lower (lower text) = lower text := by
  rw [lower, lower, List.map_map]
  exact List.map_congr_left fun character _ => toLower_toLower character

/-- A digit of lower case is the one of its value. -/
theorem exists_digitChar {digit : Char} (valued : (digitValue digit).isSome)
    (lowered : digit.toLower = digit) : ∃ value < 16, digit = Nat.digitChar value := by
  have small : digit.toNat < 128 := by
    simp only [digitValue] at valued
    split_ifs at valued with decimal small large
    · exact lt_of_le_of_lt decimal.2 (by decide)
    · exact lt_of_le_of_lt small.2 (by decide)
    · exact lt_of_le_of_lt large.2 (by decide)
    · cases valued
  have table : ∀ code < 128, (digitValue (Char.ofNat code)).isSome →
      (Char.ofNat code).toLower = Char.ofNat code →
      ∃ value < 16, Char.ofNat code = Nat.digitChar value := by
    decide +kernel
  have found := table digit.toNat small
  rw [Char.ofNat_toNat] at found
  exact found valued lowered

theorem digitChar_ne_x {value : ℕ} (small : value < 16) : Nat.digitChar value ≠ 'x' := by
  interval_cases value <;> decide

theorem toLower_digitChar {value : ℕ} (small : value < 16) :
    (Nat.digitChar value).toLower = Nat.digitChar value := by
  interval_cases value <;> decide

theorem isSpace_eq_false_of_digitValue {digit : Char} (valued : (digitValue digit).isSome) :
    isSpace digit = false := by
  by_contra spaced
  simp only [isSpace, Bool.not_eq_false, List.mem_cons, List.not_mem_nil, or_false,
    decide_eq_true_eq] at spaced
  rcases spaced with rfl | rfl | rfl | rfl | rfl | rfl <;> simp [digitValue] at valued

@[simp]
theorem length_hex (bytes : Bytes) : (hex bytes).length = 2 * bytes.length := by
  induction bytes with
  | nil => rfl
  | cons byte bytes ih =>
      simp only [hex, List.length_cons, ih]
      omega

@[simp]
theorem lower_hex (bytes : Bytes) : lower (hex bytes) = hex bytes := by
  induction bytes with
  | nil => rfl
  | cons byte bytes ih =>
      have byte_lt := byte.toNat_lt
      have tail : List.map Char.toLower (hex bytes) = hex bytes := ih
      simp only [lower, hex, List.map_cons, tail,
        toLower_digitChar (show byte.toNat / 16 < 16 by omega),
        toLower_digitChar (show byte.toNat % 16 < 16 by omega)]

/-- What `hex` writes are digits of lower case. -/
theorem exists_digitChar_of_mem_hex {bytes : Bytes} {digit : Char} (digit_mem : digit ∈ hex bytes) :
    ∃ value < 16, digit = Nat.digitChar value := by
  induction bytes with
  | nil => cases digit_mem
  | cons byte bytes ih =>
      have byte_lt := byte.toNat_lt
      simp only [hex, List.mem_cons] at digit_mem
      rcases digit_mem with rfl | rfl | later
      · exact ⟨byte.toNat / 16, by omega, rfl⟩
      · exact ⟨byte.toNat % 16, by omega, rfl⟩
      · exact ih later

/-- Reading the digits of a byte string gives the byte string back. -/
@[simp]
theorem fromhex_hex (bytes : Bytes) : fromhex (hex bytes) = some bytes := by
  induction bytes with
  | nil => rfl
  | cons byte bytes ih =>
      have byte_lt := byte.toNat_lt
      have high_lt : byte.toNat / 16 < 16 := by omega
      have low_lt : byte.toNat % 16 < 16 := by omega
      have halves : 16 * (byte.toNat / 16) + byte.toNat % 16 = byte.toNat := by omega
      simp [hex, fromhex, isSpace_digitChar high_lt, digitValue_digitChar high_lt,
        digitValue_digitChar low_lt, ih, halves]

theorem hex_injective {first second : Bytes} (same : hex first = hex second) : first = second := by
  have read : some first = some second := by
    rw [← fromhex_hex first, ← fromhex_hex second, same]
  exact Option.some.inj read

/-- Written digits carry no marker, so they never equal marked text. -/
theorem hex_ne_marker_append (bytes : Bytes) (text : Text) : hex bytes ≠ marker ++ text := by
  cases bytes with
  | nil => simp [hex, marker]
  | cons byte bytes =>
      intro equal
      have low_lt : byte.toNat % 16 < 16 := by omega
      simp only [hex, marker, List.cons_append, List.nil_append, List.cons.injEq] at equal
      exact digitChar_ne_x low_lt equal.2.1

@[simp]
theorem lower_marker_append (text : Text) : lower (marker ++ text) = marker ++ lower text := by
  simp [lower, marker, show ('0' : Char).toLower = '0' by decide,
    show ('x' : Char).toLower = 'x' by decide]

@[simp]
theorem removePrefix_append (start text : Text) : removePrefix start (start ++ text) = text := by
  simp [removePrefix]

/-- Digits of an even number are read as half as many bytes. -/
theorem fromhex_of_digits {text : Text} (digits : IsDigits text) {length : ℕ}
    (even : text.length = 2 * length) :
    ∃ bytes, fromhex text = some bytes ∧ bytes.length = length := by
  induction length generalizing text with
  | zero =>
      have empty : text = [] := List.length_eq_zero_iff.mp (by omega)
      exact ⟨[], by rw [empty]; rfl, rfl⟩
  | succ length ih =>
      match text, digits, even with
      | first :: second :: rest, digits, even =>
          have first_digit := digits first (by simp)
          have second_digit := digits second (by simp)
          have rest_even : rest.length = 2 * length := by
            simp only [List.length_cons] at even
            omega
          rcases ih (fun digit digit_mem => digits digit (by simp [digit_mem])) rest_even with
            ⟨bytes, read, length_eq⟩
          rcases Option.isSome_iff_exists.mp first_digit with ⟨high, high_eq⟩
          rcases Option.isSome_iff_exists.mp second_digit with ⟨low, low_eq⟩
          refine ⟨UInt8.ofNat (16 * high + low) :: bytes, ?_, by simp [length_eq]⟩
          simp [fromhex, isSpace_eq_false_of_digitValue first_digit, high_eq, low_eq, read]

theorem IsMarkedHex.denotes {length : ℕ} {text : Text} (marked : IsMarkedHex length text) :
    ∃ bytes, Denotes text bytes ∧ bytes.length = length := by
  rcases marked with ⟨digits, rfl, even, isDigits⟩
  simp only [Denotes, removePrefix_append]
  exact fromhex_of_digits isDigits even

theorem isDigits_hex (bytes : Bytes) : IsDigits (hex bytes) := by
  intro digit digit_mem
  rcases exists_digitChar_of_mem_hex digit_mem with ⟨value, small, rfl⟩
  simp [digitValue_digitChar small]

/-- Marked text in lower case is never what `hex` writes. -/
theorem IsMarkedHex.lower_ne_hex {length : ℕ} {text : Text} (marked : IsMarkedHex length text)
    (bytes : Bytes) : lower text ≠ hex bytes := by
  rcases marked with ⟨digits, rfl, _⟩
  rw [lower_marker_append]
  exact (hex_ne_marker_append bytes _).symm

theorem isMarkedHex_hex (bytes : Bytes) : IsMarkedHex bytes.length (marker ++ hex bytes) :=
  ⟨hex bytes, rfl, length_hex bytes, isDigits_hex bytes⟩

end Hexadecimal
