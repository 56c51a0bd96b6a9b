import CopyMint.Library.PythonText
import Mathlib.Algebra.Order.Field.Rat
import Mathlib.Data.List.DropRight
import Mathlib.Data.Nat.Find
import Mathlib.Data.Nat.Log
import Mathlib.Tactic.FieldSimp
import Mathlib.Tactic.Ring

/-!
# Decimal numbers with a point

Text is read as a number if it consists of digits, or of digits on both sides of one
point. Digits are written with zeros in front up to a given width, and zeros behind the
last other digit of a fraction can be left away.
-/

open Hexadecimal

namespace DecimalText

/-- `f"{value:0{width}d}"`. -/
def zeroPadded (width value : ℕ) : Text :=
  let digits := Nat.toDigits 10 value
  List.replicate (width - digits.length) '0' ++ digits

/-- `text.rstrip(character)`. -/
def rstrip (character : Char) (text : Text) : Text :=
  text.rdropWhile fun other => other = character

/-- A sequence of digits, at least one. -/
def IsNumeral (text : Text) : Prop := text ≠ [] ∧ ∀ character ∈ text, character.isDigit = true

instance (text : Text) : Decidable (IsNumeral text) :=
  inferInstanceAs (Decidable (_ ∧ _))

/-- The value of digits. -/
def digitsValue (digits : Text) : ℕ := Nat.ofDigitChars 10 digits 0

/-- The number that text stands for. -/
def readDecimal (text : Text) : Option ℚ :=
  let whole := text.takeWhile fun character => character ≠ '.'
  match text.dropWhile fun character => character ≠ '.' with
  | [] => if IsNumeral whole then some (digitsValue whole) else none
  | _ :: fraction =>
      if IsNumeral whole ∧ IsNumeral fraction then
        some (digitsValue (whole ++ fraction) / 10 ^ fraction.length)
      else none

variable {digits whole fraction : Text}

theorem isNumeral_toDigits (value : ℕ) : IsNumeral (Nat.toDigits 10 value) :=
  ⟨Nat.toDigits_ne_nil, fun _ => Nat.isDigit_of_mem_toDigits (by omega) (by omega)⟩

@[simp]
theorem digitsValue_toDigits (value : ℕ) : digitsValue (Nat.toDigits 10 value) = value :=
  Nat.ofDigitChars_ten_toDigits

theorem digitsValue_append (before after : Text) :
    digitsValue (before ++ after) =
      10 ^ after.length * digitsValue before + digitsValue after := by
  rw [digitsValue, Nat.ofDigitChars_append, Nat.ofDigitChars_eq_ofDigitChars_zero]
  rfl

@[simp]
theorem digitsValue_replicate_zero (count : ℕ) :
    digitsValue (List.replicate count '0') = 0 := by
  rw [digitsValue, Nat.ofDigitChars_replicate_zero, mul_zero]

@[simp]
theorem digitsValue_zeroPadded (width value : ℕ) :
    digitsValue (zeroPadded width value) = value := by
  simp [zeroPadded, digitsValue_append]

theorem length_zeroPadded {width value : ℕ} (positive : 0 < width) (small : value < 10 ^ width) :
    (zeroPadded width value).length = width := by
  have fits : (Nat.toDigits 10 value).length ≤ width :=
    (Nat.length_toDigits_le_iff (by omega) positive).mpr small
  simp only [zeroPadded, List.length_append, List.length_replicate]
  omega

theorem isDigit_of_mem_zeroPadded {width value : ℕ} {character : Char}
    (character_mem : character ∈ zeroPadded width value) : character.isDigit = true := by
  rcases List.mem_append.mp character_mem with zero | digit
  · rw [List.eq_of_mem_replicate zero]
    rfl
  · exact (isNumeral_toDigits value).2 character digit

theorem point_notMem (numeral : IsNumeral digits) : '.' ∉ digits :=
  fun point_mem => absurd (numeral.2 '.' point_mem) (by decide)

section Strip

variable (character : Char) (text : Text)

/-- What is stripped is a repetition of the character. -/
theorem rstrip_append_replicate :
    ∃ count, text = rstrip character text ++ List.replicate count character := by
  refine ⟨(text.rtakeWhile fun other => other = character).length, ?_⟩
  have stripped : text.rtakeWhile (fun other => decide (other = character)) =
      List.replicate (text.rtakeWhile fun other => decide (other = character)).length
        character := by
    apply List.eq_replicate_of_mem
    intro other other_mem
    have same := List.mem_rtakeWhile_imp other_mem
    exact of_decide_eq_true same
  rw [← stripped]
  exact List.rdropWhile_append_rtakeWhile.symm

theorem getLast?_rstrip_ne : (rstrip character text).getLast? ≠ some character := by
  intro last
  have kept : rstrip character text ≠ [] := by
    intro empty
    rw [empty] at last
    cases last
  rw [List.getLast?_eq_getLast_of_ne_nil kept, Option.some.injEq] at last
  exact List.rdropWhile_last_not _ _ kept (decide_eq_true last)

/-- Nothing is stripped from what precedes another character. -/
theorem rstrip_append {before : Text} (kept : rstrip character text ≠ []) :
    rstrip character (before ++ text) = before ++ rstrip character text := by
  have notAll : ¬∀ other ∈ text, decide (other = character) = true :=
    fun all => kept (List.rdropWhile_eq_nil_iff.mpr all)
  have remaining : text.reverse.dropWhile (fun other => decide (other = character)) ≠ [] := by
    simpa [List.dropWhile_eq_nil_iff] using notAll
  simp only [rstrip, List.rdropWhile, List.reverse_append, List.dropWhile_append,
    List.isEmpty_iff, if_neg remaining, List.reverse_reverse]

end Strip

theorem ne_point (numeral : IsNumeral digits) :
    ∀ character ∈ digits, decide (character ≠ '.') = true := by
  intro character character_mem
  apply decide_eq_true
  rintro rfl
  exact point_notMem numeral character_mem

/-- Digits without a point. -/
theorem readDecimal_whole (numeral : IsNumeral whole) :
    readDecimal whole = some (digitsValue whole : ℚ) := by
  have front : whole.takeWhile (fun character => character ≠ '.') = whole :=
    List.takeWhile_eq_self_iff.mpr (ne_point numeral)
  have back : whole.dropWhile (fun character => character ≠ '.') = [] :=
    List.dropWhile_eq_nil_iff.mpr (ne_point numeral)
  simp only [readDecimal, front, back, if_pos numeral]

theorem readDecimal_fraction (numeral : IsNumeral whole) (behind : IsNumeral fraction) :
    readDecimal (whole ++ '.' :: fraction) =
      some ((digitsValue (whole ++ fraction) : ℚ) / 10 ^ fraction.length) := by
  have front : (whole ++ '.' :: fraction).takeWhile (fun character => character ≠ '.') =
      whole := by
    rw [List.takeWhile_append_of_pos (ne_point numeral), List.takeWhile_cons_of_neg (by decide),
      List.append_nil]
  have back : (whole ++ '.' :: fraction).dropWhile (fun character => character ≠ '.') =
      '.' :: fraction := by
    rw [List.dropWhile_append_of_pos (ne_point numeral), List.dropWhile_cons_of_neg (by decide)]
  simp only [readDecimal, front, back, if_pos (And.intro numeral behind)]

/-- Zeros at the end of a fraction do not count. -/
theorem digitsValue_div_stripped (count : ℕ) :
    (digitsValue (whole ++ (fraction ++ List.replicate count '0')) : ℚ) /
        10 ^ (fraction ++ List.replicate count '0').length =
      (digitsValue (whole ++ fraction) : ℚ) / 10 ^ fraction.length := by
  rw [← List.append_assoc, digitsValue_append, digitsValue_replicate_zero, List.length_append,
    List.length_replicate, pow_add]
  push_cast
  field_simp
  ring

section Size

/-- The number of digits in which a number is written. -/
def numeralSize (value : ℕ) : ℕ := Nat.log 10 value + 1

/-- The zeros at the end of a number that is written with a given width. -/
def trailingZeros (width value : ℕ) : ℕ :=
  Nat.findGreatest (fun zeros => 10 ^ zeros ∣ value) width

@[simp]
theorem length_toDigits (value : ℕ) : (Nat.toDigits 10 value).length = numeralSize value := by
  have bound : ∀ size, 0 < size →
      ((Nat.toDigits 10 value).length ≤ size ↔ numeralSize value ≤ size) := by
    intro size positive
    rw [Nat.length_toDigits_le_iff (by omega) positive, numeralSize, Nat.succ_le_iff]
    exact ⟨Nat.log_lt_of_lt_pow' (Nat.ne_of_gt positive), Nat.lt_pow_of_log_lt (by omega)⟩
  apply le_antisymm
  · exact (bound _ (Nat.succ_pos _)).mpr le_rfl
  · exact (bound _ Nat.length_toDigits_pos).mp le_rfl

/-- A number whose last digit is another than zero is no multiple of ten. -/
theorem not_dvd_digitsValue (numeral : IsNumeral digits) (last : digits.getLast? ≠ some '0') :
    ¬10 ∣ digitsValue digits := by
  rcases List.eq_nil_or_concat digits with rfl | ⟨front, digit, rfl⟩
  · exact absurd rfl numeral.1
  · rw [List.concat_eq_append] at *
    have isDigit := numeral.2 digit (List.mem_append_right _ List.mem_cons_self)
    rw [List.getLast?_append_of_ne_nil _ (List.cons_ne_nil _ _)] at last
    have other : digit ≠ '0' := fun same => last (same ▸ rfl)
    rcases UnicodeData.isDigit_iff_digitChar.mp isDigit with ⟨value, small, rfl⟩
    have positive : value ≠ 0 := fun zero => other (zero ▸ rfl)
    have lastValue : digitsValue [Nat.digitChar value] = value := by
      rw [digitsValue, Nat.ofDigitChars_cons_digitChar_of_lt_ten small, Nat.ofDigitChars_nil]
      omega
    rw [digitsValue_append, lastValue, List.length_singleton]
    omega

/-- A number that is not zero keeps a digit when its zeros are stripped. -/
theorem isNumeral_rstrip_zeroPadded {width value : ℕ} (nonzero : value ≠ 0) :
    IsNumeral (rstrip '0' (zeroPadded width value)) := by
  constructor
  · intro empty
    rcases rstrip_append_replicate '0' (zeroPadded width value) with ⟨count, stripped⟩
    rw [empty, List.nil_append] at stripped
    apply nonzero
    rw [← digitsValue_zeroPadded width value, stripped, digitsValue_replicate_zero]
  · intro character character_mem
    exact isDigit_of_mem_zeroPadded ((List.rdropWhile_prefix _ _).subset character_mem)

/-- What is stripped of a padded number are the zeros that its value ends with. -/
theorem length_rstrip_zeroPadded {width value : ℕ} (nonzero : value ≠ 0)
    (small : value < 10 ^ width) :
    (rstrip '0' (zeroPadded width value)).length = width - trailingZeros width value := by
  have positive : 0 < width := by
    rcases Nat.eq_zero_or_pos width with rfl | positive
    · exact absurd (Nat.lt_one_iff.mp small) nonzero
    · exact positive
  rcases rstrip_append_replicate '0' (zeroPadded width value) with ⟨count, stripped⟩
  have numeral := @isNumeral_rstrip_zeroPadded width value nonzero
  have rest := not_dvd_digitsValue numeral (getLast?_rstrip_ne '0' _)
  generalize rstrip '0' (zeroPadded width value) = kept at *
  have lengths : width = kept.length + count := by
    have whole := congrArg List.length stripped
    rwa [length_zeroPadded positive small, List.length_append, List.length_replicate] at whole
  have values : value = 10 ^ count * digitsValue kept := by
    have whole := congrArg digitsValue stripped
    rwa [digitsValue_zeroPadded, digitsValue_append, digitsValue_replicate_zero,
      List.length_replicate, Nat.add_zero] at whole
  have zeros : trailingZeros width value = count := by
    rw [trailingZeros, Nat.findGreatest_eq_iff]
    refine ⟨by omega, fun _ => ⟨_, values⟩, ?_⟩
    intro more count_lt _ divides
    apply rest
    have divides_succ := (pow_dvd_pow 10 count_lt).trans divides
    rw [values, pow_succ] at divides_succ
    exact Nat.dvd_of_mul_dvd_mul_left (by positivity) divides_succ
  omega

end Size

end DecimalText
