import CopyMint.Library.DecimalText

/-!
# Amounts of ether

A balance is kept in wei and shown in ether. What is shown is the balance exactly.
-/

namespace CopyMint

open Hexadecimal DecimalText

/-- `format_wei`. -/
def formatWei (value : ℕ) : Text :=
  let whole := value / 10 ^ 18
  let remainder := value % 10 ^ 18
  if remainder = 0 then Nat.toDigits 10 whole
  else rstrip '0' (Nat.toDigits 10 whole ++ '.' :: zeroPadded 18 remainder)

/-- What is shown of a remainder. -/
def fractionText (remainder : ℕ) : Text := rstrip '0' (zeroPadded 18 remainder)

variable {remainder : ℕ}

theorem isNumeral_fractionText (nonzero : remainder ≠ 0) :
    IsNumeral (fractionText remainder) :=
  isNumeral_rstrip_zeroPadded nonzero

theorem formatWei_of_remainder {value : ℕ} (nonzero : value % 10 ^ 18 ≠ 0) :
    formatWei value =
      Nat.toDigits 10 (value / 10 ^ 18) ++ '.' :: fractionText (value % 10 ^ 18) := by
  have kept := (isNumeral_fractionText nonzero).1
  have behindPoint : rstrip '0' ('.' :: zeroPadded 18 (value % 10 ^ 18)) =
      '.' :: fractionText (value % 10 ^ 18) := @rstrip_append '0' _ ['.'] kept
  simp only [formatWei, if_neg nonzero]
  rw [rstrip_append '0' _ (by rw [behindPoint]; exact List.cons_ne_nil _ _), behindPoint]

/-- Read as a number, the text is the balance. -/
theorem readDecimal_formatWei (value : ℕ) :
    readDecimal (formatWei value) = some ((value : ℚ) / 10 ^ 18) := by
  have parts := Nat.div_add_mod value (10 ^ 18)
  by_cases whole : value % 10 ^ 18 = 0
  · simp only [formatWei, if_pos whole]
    rw [readDecimal_whole (isNumeral_toDigits _), digitsValue_toDigits]
    have exact : (value : ℚ) = 10 ^ 18 * (value / 10 ^ 18 : ℕ) := by
      rw [whole, Nat.add_zero] at parts
      exact_mod_cast parts.symm
    rw [exact]
    field_simp
  · rw [formatWei_of_remainder whole,
      readDecimal_fraction (isNumeral_toDigits _) (isNumeral_fractionText whole)]
    rcases rstrip_append_replicate '0' (zeroPadded 18 (value % 10 ^ 18)) with ⟨count, stripped⟩
    have unstripped := @digitsValue_div_stripped (Nat.toDigits 10 (value / 10 ^ 18))
      (fractionText (value % 10 ^ 18)) count
    have length : (zeroPadded 18 (value % 10 ^ 18)).length = 18 :=
      length_zeroPadded (by omega) (Nat.mod_lt _ (by omega))
    rw [fractionText, ← stripped, length, digitsValue_append, digitsValue_toDigits,
      digitsValue_zeroPadded, length, parts] at unstripped
    rw [fractionText, ← unstripped]

/-- The text ends with the digits of a whole number or with a fraction. -/
theorem getLast?_formatWei (value : ℕ) :
    '.' ∉ formatWei value ∧ formatWei value ≠ [] ∨
      (formatWei value).getLast? = (fractionText (value % 10 ^ 18)).getLast? ∧
        value % 10 ^ 18 ≠ 0 := by
  by_cases whole : value % 10 ^ 18 = 0
  · left
    have numeral := isNumeral_toDigits (value / 10 ^ 18)
    simp only [formatWei, if_pos whole]
    exact ⟨point_notMem numeral, numeral.1⟩
  · right
    have kept := (isNumeral_fractionText whole).1
    rw [formatWei_of_remainder whole, List.append_cons]
    exact ⟨List.getLast?_append_of_ne_nil _ kept, whole⟩

theorem getLast?_formatWei_ne_zero {value : ℕ} (point_mem : '.' ∈ formatWei value) :
    (formatWei value).getLast? ≠ some '0' := by
  rcases getLast?_formatWei value with ⟨without, _⟩ | ⟨last, _⟩
  · exact absurd point_mem without
  · rw [last]
    exact getLast?_rstrip_ne '0' _

theorem getLast?_formatWei_ne_point (value : ℕ) : (formatWei value).getLast? ≠ some '.' := by
  rcases getLast?_formatWei value with ⟨without, _⟩ | ⟨last, nonzero⟩
  · exact fun point => without (List.mem_of_getLast? point)
  · rw [last]
    exact fun point => point_notMem (isNumeral_fractionText nonzero) (List.mem_of_getLast? point)

theorem formatWei_injective : Function.Injective formatWei := by
  intro first second same
  have read := readDecimal_formatWei first
  rw [same, readDecimal_formatWei second, Option.some.injEq] at read
  have scaled := (div_left_inj' (by norm_num : (10 ^ 18 : ℚ) ≠ 0)).mp read
  exact_mod_cast scaled.symm

end CopyMint
