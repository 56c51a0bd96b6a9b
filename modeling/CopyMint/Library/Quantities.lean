import CopyMint.Library.PythonText

/-!
# Quantities and data of JSON-RPC

A quantity is a natural number in hexadecimal digits behind a marker. What a node means by it is
what Python reads in base 16, and `hex` writes every natural number as a quantity. Data are bytes
in the same notation, and read in either case.
-/

namespace Hexadecimal

open UnicodeData

/-- The number that digits stand for, the first of them being the most significant one. -/
def digitsNumber (digits : Text) : ℕ :=
  digits.foldl (fun number digit => 16 * number + (digitValue digit).getD 0) 0

/-- The number that a node means by a text, if it is a quantity. -/
def quantityOf (text : Text) : Option ℕ :=
  if marker.isPrefixOf text ∧ text.drop 2 ≠ [] ∧ IsDigits (text.drop 2) then
    some (digitsNumber (text.drop 2))
  else none

theorem quantityOf_eq_some_iff {text : Text} {number : ℕ} :
    quantityOf text = some number ↔
      ∃ digits, text = marker ++ digits ∧ digits ≠ [] ∧ IsDigits digits ∧
        digitsNumber digits = number := by
  simp only [quantityOf]
  constructor
  · intro means
    split_ifs at means with quantity
    rcases quantity with ⟨marked, filled, isDigits⟩
    rcases List.isPrefixOf_iff_prefix.mp marked with ⟨digits, rfl⟩
    exact ⟨digits, rfl, filled, isDigits, Option.some.inj means⟩
  · rintro ⟨digits, rfl, filled, isDigits, rfl⟩
    have marked : marker.isPrefixOf (marker ++ digits) = true :=
      List.isPrefixOf_iff_prefix.mpr (List.prefix_append _ _)
    exact if_pos ⟨marked, filled, isDigits⟩

section Digits

variable {digits : Text}

/-- A digit of either case is one in base 16, and no underscore. -/
theorem isDigit_sixteen {digit : Char} (valued : (digitValue digit).isSome) :
    digit.toNat < 128 ∧ digit ≠ '_' ∧ Base.sixteen.isDigit digit = true := by
  have small : digit.toNat < 128 := by
    simp only [digitValue] at valued
    split_ifs at valued with decimal lowered raised
    · exact lt_of_le_of_lt decimal.2 (by decide)
    · exact lt_of_le_of_lt lowered.2 (by decide)
    · exact lt_of_le_of_lt raised.2 (by decide)
    · cases valued
  have table : ∀ code < 128, (digitValue (Char.ofNat code)).isSome →
      Char.ofNat code ≠ '_' ∧ Base.sixteen.isDigit (Char.ofNat code) = true := by
    decide +kernel
  have found := table digit.toNat small
  rw [Char.ofNat_toNat] at found
  exact ⟨small, found valued⟩

theorem digitsNumber_append (digits : Text) (last : Char) :
    digitsNumber (digits ++ [last]) = 16 * digitsNumber digits + (digitValue last).getD 0 := by
  simp [digitsNumber, List.foldl_append]

/-- The digits of a number stand for it. -/
theorem digits_toDigits (number : ℕ) :
    IsDigits (Nat.toDigits 16 number) ∧ digitsNumber (Nat.toDigits 16 number) = number := by
  induction number using Nat.strong_induction_on with
  | h number ih =>
      by_cases small : number < 16
      · rw [Nat.toDigits_of_lt_base small]
        have value := digitValue_digitChar small
        refine ⟨fun digit digit_mem => ?_, ?_⟩
        · rw [List.mem_singleton.mp digit_mem, value]
          rfl
        · simp [digitsNumber, value]
      · have last := digitValue_digitChar (show number % 16 < 16 by omega)
        rw [Nat.toDigits_of_base_le (by decide) (by omega)]
        rcases ih (number / 16) (by omega) with ⟨isDigits, same⟩
        refine ⟨fun digit digit_mem => ?_, ?_⟩
        · rcases List.mem_append.mp digit_mem with front | back
          · exact isDigits digit front
          · rw [List.mem_singleton.mp back, last]
            rfl
        · rw [digitsNumber_append, same, last]
          simp only [Option.getD_some]
          omega

end Digits

/-- `hex` of a natural number is the quantity of that number. -/
theorem quantityOf_toDigits (number : ℕ) :
    quantityOf (marker ++ Nat.toDigits 16 number) = some number := by
  rcases digits_toDigits number with ⟨isDigits, same⟩
  exact quantityOf_eq_some_iff.mpr ⟨_, rfl, Nat.toDigits_ne_nil, isDigits, same⟩

/-- Python reads a quantity as the number that is meant. -/
theorem int_of_quantityOf (unicode : UnicodeData) {text : Text} {number : ℕ}
    (means : quantityOf text = some number) :
    unicode.int .sixteen text = some (number : ℤ) := by
  rcases quantityOf_eq_some_iff.mp means with ⟨digits, rfl, filled, isDigits, rfl⟩
  have ascii : unicode.toAscii (marker ++ digits) = marker ++ digits := by
    refine if_pos (List.all_eq_true.mpr fun character character_mem => ?_)
    rcases List.mem_append.mp character_mem with front | back
    · exact List.all_eq_true.mp (show marker.all (fun c => c.toNat < 128) = true from rfl) _ front
    · exact decide_eq_true (isDigit_sixteen (isDigits _ back)).1
  have stripped : strip (marker ++ digits) = marker ++ digits := by
    refine strip_eq_self fun character character_mem => ?_
    rcases List.mem_append.mp character_mem with front | back
    · simp only [marker, List.mem_cons, List.not_mem_nil, or_false] at front
      rcases front with rfl | rfl <;> rfl
    · exact isSpace_eq_false_of_digitValue (isDigits _ back)
  have solid : '_' ∉ digits := fun underscore_mem =>
    (isDigit_sixteen (isDigits _ underscore_mem)).2.1 rfl
  have unprefixed : Base.sixteen.unprefixed (marker ++ digits) = digits := by
    cases digits with
    | nil => exact absurd rfl filled
    | cons first rest =>
        have other : ¬['_'].isPrefixOf (first :: rest) = true := by
          intro starts
          rcases List.isPrefixOf_iff_prefix.mp starts with ⟨_, same⟩
          exact solid (same ▸ List.mem_cons_self)
        exact if_neg other
  have groups : digits.splitOn '_' = [digits] := List.splitOn_eq_singleton solid
  have all_digits : ∀ digit ∈ digits, Base.sixteen.isDigit digit = true :=
    fun digit digit_mem => (isDigit_sixteen (isDigits digit digit_mem)).2.2
  have read : readNatural .sixteen (marker ++ digits) = some (digitsNumber digits) := by
    simp only [readNatural, unprefixed, groups]
    simpa [filled, Base.maxDigits, digitsNumber, Base.value] using all_digits
  rw [UnicodeData.int, ascii, stripped]
  exact congrArg (Option.map Int.ofNat) read

section Data

/-- A digit of either case has the value that it has in lower case. -/
theorem digitValue_of_toLower {digit : Char} {value : ℕ} (small : value < 16)
    (lowered : digit.toLower = Nat.digitChar value) : digitValue digit = some value := by
  have ascii : digit.toNat < 128 := by
    by_cases upper : 'A' ≤ digit ∧ digit ≤ 'Z'
    · exact lt_of_le_of_lt upper.2 (by decide)
    · have kept : digit.toLower = digit := dif_neg upper
      rw [← kept, lowered]
      exact (isDigit_sixteen (by rw [digitValue_digitChar small]; rfl)).1
  have table : ∀ code < 128, ∀ value < 16, (Char.ofNat code).toLower = Nat.digitChar value →
      digitValue (Char.ofNat code) = some value := by
    decide +kernel
  have found := table digit.toNat ascii value small
  rw [Char.ofNat_toNat] at found
  exact found lowered

/-- Digits of either case stand for the bytes that they stand for in lower case. -/
theorem fromhex_of_lower {digits : Text} {bytes : Bytes} (written : lower digits = hex bytes) :
    fromhex digits = some bytes := by
  induction bytes generalizing digits with
  | nil =>
      rw [List.map_eq_nil_iff.mp written]
      rfl
  | cons byte bytes ih =>
      have halves : byte.toNat / 16 < 16 ∧ byte.toNat % 16 < 16 := by
        have byte_lt : byte.toNat < 256 := byte.toNat_lt
        omega
      rcases List.map_eq_cons_iff.mp written with ⟨first, rest, rfl, first_eq, rest_eq⟩
      rcases List.map_eq_cons_iff.mp rest_eq with ⟨second, rest, rfl, second_eq, written⟩
      have high := digitValue_of_toLower halves.1 first_eq
      have low := digitValue_of_toLower halves.2 second_eq
      have solid : isSpace first = false := isSpace_eq_false_of_digitValue (by rw [high]; rfl)
      have same : UInt8.ofNat (16 * (byte.toNat / 16) + byte.toNat % 16) = byte := by
        rw [Nat.div_add_mod, UInt8.ofNat_toNat]
      simp [fromhex, solid, high, low, ih written, same]

end Data

end Hexadecimal
