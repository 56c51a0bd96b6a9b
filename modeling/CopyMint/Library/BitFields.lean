import Mathlib.Algebra.BigOperators.Group.List.Basic
import Mathlib.Tactic.Ring

/-!
# Fields packed into a number

A number is assembled from fields of fixed widths, the first of them in the highest
bits: each value is shifted to its place, and the shifted values are combined by OR. As
long as every value fits into its width no two fields overlap. OR then is addition, each
field can be read back, and the first field decides which of two numbers is smaller.
-/

namespace BitFields

/-- A value that fits into the bits kept for it. -/
structure BitField where
  width : ℕ
  value : ℕ
  value_lt : value < 2 ^ width

/-- The bits that all fields take. -/
def totalWidth (fields : List BitField) : ℕ := (fields.map BitField.width).sum

/-- The number that holds the fields. -/
def pack : List BitField → ℕ
  | [] => 0
  | field :: rest => field.value <<< totalWidth rest ||| pack rest

/-- What is read from `width` bits above the lowest `offset` ones. -/
def extract (offset width packed : ℕ) : ℕ := packed >>> offset &&& 2 ^ width - 1

@[simp]
theorem totalWidth_cons (field : BitField) (rest : List BitField) :
    totalWidth (field :: rest) = field.width + totalWidth rest := by
  simp [totalWidth]

theorem totalWidth_append (before after : List BitField) :
    totalWidth (before ++ after) = totalWidth before + totalWidth after := by
  simp [totalWidth]

/-- A number below a power of two overlaps with nothing that is shifted by its exponent. -/
theorem shiftLeft_or {low width : ℕ} (low_lt : low < 2 ^ width) (high : ℕ) :
    high <<< width ||| low = high * 2 ^ width + low := by
  rw [← Nat.shiftLeft_add_eq_or_of_lt low_lt, Nat.shiftLeft_eq]

theorem pack_lt (fields : List BitField) : pack fields < 2 ^ totalWidth fields := by
  induction fields with
  | nil => simp [pack, totalWidth]
  | cons field rest ih =>
      rw [pack, totalWidth_cons, shiftLeft_or ih, pow_add]
      calc
        field.value * 2 ^ totalWidth rest + pack rest
            < field.value * 2 ^ totalWidth rest + 2 ^ totalWidth rest := by omega
        _ = (field.value + 1) * 2 ^ totalWidth rest := by ring
        _ ≤ 2 ^ field.width * 2 ^ totalWidth rest :=
            Nat.mul_le_mul_right _ field.value_lt

/-- The fields do not overlap, so that their sum is the number. -/
theorem pack_cons (field : BitField) (rest : List BitField) :
    pack (field :: rest) = field.value * 2 ^ totalWidth rest + pack rest :=
  shiftLeft_or (pack_lt rest) _

theorem pack_append (before after : List BitField) :
    pack (before ++ after) = pack before * 2 ^ totalWidth after + pack after := by
  induction before with
  | nil => simp [pack]
  | cons field rest ih =>
      rw [List.cons_append, pack_cons, pack_cons, ih, totalWidth_append, pow_add]
      ring

theorem extract_eq (offset width packed : ℕ) :
    extract offset width packed = packed / 2 ^ offset % 2 ^ width := by
  rw [extract, Nat.shiftRight_eq_div_pow, Nat.and_two_pow_sub_one_eq_mod]

/-- Each field is read back from its place. -/
theorem extract_pack (before : List BitField) (field : BitField) (after : List BitField) :
    extract (totalWidth after) field.width (pack (before ++ field :: after)) = field.value := by
  have place : pack (before ++ field :: after) =
      (pack before * 2 ^ field.width + field.value) * 2 ^ totalWidth after + pack after := by
    rw [pack_append, pack_cons, totalWidth_cons, pow_add]
    ring
  have quotient : pack (before ++ field :: after) / 2 ^ totalWidth after =
      pack before * 2 ^ field.width + field.value := by
    rw [place, mul_comm]
    apply Nat.div_eq_of_lt_le
    · rw [mul_comm]
      exact Nat.le_add_right _ _
    · have after_lt := pack_lt after
      rw [Nat.succ_mul, mul_comm (2 ^ totalWidth after)]
      omega
  rw [extract_eq, quotient, Nat.mul_add_mod', Nat.mod_eq_of_lt field.value_lt]

/-- The first field decides. -/
theorem pack_lt_pack {first second : BitField} {rest others : List BitField}
    (widths : totalWidth rest = totalWidth others) (smaller : first.value < second.value) :
    pack (first :: rest) < pack (second :: others) := by
  rw [pack_cons, pack_cons, ← widths]
  calc
    first.value * 2 ^ totalWidth rest + pack rest
        < first.value * 2 ^ totalWidth rest + 2 ^ totalWidth rest :=
          Nat.add_lt_add_left (pack_lt rest) _
    _ = (first.value + 1) * 2 ^ totalWidth rest := by ring
    _ ≤ second.value * 2 ^ totalWidth rest := Nat.mul_le_mul_right _ smaller
    _ ≤ second.value * 2 ^ totalWidth rest + pack others := Nat.le_add_right _ _

end BitFields
