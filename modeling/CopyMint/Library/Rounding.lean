import Mathlib.Algebra.Order.Ring.Int

/-!
# Quotients rounded to a floating-point number

Python divides two integers into the floating-point number that is nearest to the
quotient, and `int` drops its fraction. A floating-point number has 53 binary digits,
so a quotient just below an integer may become that integer. A whole quotient is kept,
and rounding respects whole bounds.
-/

namespace Rounding

/-- The integer nearest to a quotient; of two that are equally near, the even one. -/
def nearest (numerator denominator : ℕ) : ℕ :=
  let quotient := numerator / denominator
  let twice := 2 * (numerator % denominator)
  if twice < denominator ∨ twice = denominator ∧ quotient % 2 = 0 then quotient
  else quotient + 1

/-- The binary digits behind the point of a number below `2 ^ 53`, by its whole part. -/
def fractionDigits (whole : ℕ) : ℕ :=
  if whole = 0 then 53 else 52 - whole.log2

/-- `int(numerator / denominator)`, where the quotient is below `2 ^ 53`. -/
def truncatedNat (numerator denominator : ℕ) : ℕ :=
  let scale := 2 ^ fractionDigits (numerator / denominator)
  nearest (numerator * scale) denominator / scale

/-- `int(numerator / denominator)`, where the quotient is between `-2 ^ 53` and `2 ^ 53`. -/
def truncated (numerator : ℤ) (denominator : ℕ) : ℤ :=
  if numerator < 0 then -truncatedNat numerator.natAbs denominator
  else truncatedNat numerator.natAbs denominator

-- A microsecond before the year 2600 is a second too much.
example : truncated 19880899199999999 1000000 = 19880899200 := by
  decide +kernel

variable {denominator : ℕ}

theorem nearest_mul (whole : ℕ) (positive : 0 < denominator) :
    nearest (whole * denominator) denominator = whole := by
  simp only [nearest, Nat.mul_mod_left, Nat.mul_div_cancel _ positive]
  rw [if_pos (.inl positive)]

theorem nearest_le {numerator bound : ℕ} (positive : 0 < denominator)
    (bounded : numerator ≤ bound * denominator) : nearest numerator denominator ≤ bound := by
  have quotient_le : numerator / denominator ≤ bound := by
    apply Nat.div_le_of_le_mul
    rwa [mul_comm]
  simp only [nearest]
  split_ifs with down
  · exact quotient_le
  · apply Nat.succ_le_of_lt
    apply lt_of_le_of_ne quotient_le
    intro reached
    have whole := Nat.div_add_mod numerator denominator
    rw [reached, mul_comm denominator] at whole
    apply down
    omega

theorem truncatedNat_mul (whole : ℕ) (positive : 0 < denominator) :
    truncatedNat (whole * denominator) denominator = whole := by
  simp only [truncatedNat, Nat.mul_div_cancel _ positive]
  rw [mul_right_comm, nearest_mul _ positive]
  exact Nat.mul_div_cancel _ (Nat.two_pow_pos _)

theorem truncatedNat_le {numerator bound : ℕ} (positive : 0 < denominator)
    (bounded : numerator ≤ bound * denominator) : truncatedNat numerator denominator ≤ bound := by
  simp only [truncatedNat]
  apply Nat.div_le_of_le_mul
  rw [mul_comm _ bound]
  apply nearest_le positive
  rw [mul_right_comm]
  exact Nat.mul_le_mul_right _ bounded

/-- A whole quotient is kept. -/
theorem truncated_mul (whole : ℤ) (positive : 0 < denominator) :
    truncated (whole * denominator) denominator = whole := by
  simp only [truncated, Int.natAbs_mul, Int.natAbs_natCast, truncatedNat_mul _ positive]
  have denominator_pos : (0 : ℤ) < denominator := Int.natCast_pos.mpr positive
  have sign : whole * denominator < 0 ↔ whole < 0 := by
    have scaled := @Int.mul_lt_mul_right denominator whole 0 denominator_pos
    rwa [zero_mul] at scaled
  split_ifs with negative
  all_goals
    rw [sign] at negative
    omega

theorem truncated_nonneg {numerator : ℤ} (nonneg : 0 ≤ numerator) (denominator : ℕ) :
    0 ≤ truncated numerator denominator := by
  rw [truncated, if_neg (by omega)]
  exact Int.natCast_nonneg _

/-- A quotient within whole bounds stays within them. -/
theorem natAbs_truncated_le {numerator : ℤ} {bound : ℕ} (positive : 0 < denominator)
    (bounded : numerator.natAbs ≤ bound * denominator) :
    (truncated numerator denominator).natAbs ≤ bound := by
  have magnitude := truncatedNat_le positive bounded
  simp only [truncated]
  split_ifs
  all_goals omega

end Rounding
