import CopyMint.Library.AbiEncoding

/-!
# ABI decoding of unsigned integers

Readers for the encodings of `uint256` values, pairs of them and pairs of arrays. They
read words, follow the offsets of arrays and give back what was encoded.
-/

namespace AbiEncoding

open Hexadecimal

/-- The value of base-256 digits, most significant first. -/
def fromBigEndian (bytes : Bytes) : ℕ :=
  bytes.foldl (fun value byte => 256 * value + byte.toNat) 0

theorem fromBigEndian_bigEndian (length : ℕ) {value : ℕ} (value_lt : value < 256 ^ length) :
    fromBigEndian (bigEndian length value) = value := by
  induction length generalizing value with
  | zero =>
      rw [pow_zero] at value_lt
      exact (Nat.lt_one_iff.mp value_lt).symm
  | succ length ih =>
      have high_lt : value / 256 < 256 ^ length := by
        rw [Nat.div_lt_iff_lt_mul (by omega)]
        simpa [pow_succ] using value_lt
      have high := ih high_lt
      simp only [fromBigEndian] at high
      simp only [fromBigEndian, bigEndian, List.foldl_append, high, List.foldl_cons,
        List.foldl_nil, UInt8.toNat_ofNat']
      omega

theorem fromBigEndian_word {value : ℕ} (value_lt : value < 2 ^ 256) :
    fromBigEndian (word value) = value :=
  fromBigEndian_bigEndian 32 (by simpa using value_lt)

/-- Read a word and what follows it. -/
def readWord (data : Bytes) : Option (ℕ × Bytes) :=
  if data.length < 32 then none else some (fromBigEndian (data.take 32), data.drop 32)

/-- Read a number of words. -/
def readWords : ℕ → Bytes → Option (List ℕ)
  | 0, _ => some []
  | count + 1, data =>
      match readWord data with
      | none => none
      | some (value, rest) => (readWords count rest).map (value :: ·)

/-- Read an array at an offset. -/
def readArray (data : Bytes) (offset : ℕ) : Option (List ℕ) :=
  match readWord (data.drop offset) with
  | none => none
  | some (count, rest) => readWords count rest

/-- One word. -/
def decodeUint256 (data : Bytes) : Option ℕ := (readWord data).map Prod.fst

/-- Two words. -/
def decodeUint256Pair (data : Bytes) : Option (ℕ × ℕ) :=
  match readWord data with
  | none => none
  | some (first, rest) => (readWord rest).map fun second => (first, second.1)

/-- Two arrays of words, behind their offsets. -/
def decodeUint256Arrays (data : Bytes) : Option (List ℕ × List ℕ) :=
  match decodeUint256Pair data with
  | none => none
  | some (first, second) =>
      match readArray data first, readArray data second with
      | some first, some second => some (first, second)
      | _, _ => none

/-- A list of values whose array is encoded without overflow of an offset. -/
structure Fits (values : List ℕ) : Prop where
  bounded : ∀ value ∈ values, value < 2 ^ 256
  short : 64 + 32 * (values.length + 1) < 2 ^ 256

@[simp]
theorem readWord_append {value : ℕ} (value_lt : value < 2 ^ 256) (rest : Bytes) :
    readWord (word value ++ rest) = some (value, rest) := by
  have long : ¬(word value ++ rest).length < 32 := by simp
  rw [readWord, if_neg long, List.take_left' (length_word value),
    List.drop_left' (length_word value), fromBigEndian_word value_lt]

theorem readWords_append {values : List ℕ} (bounded : ∀ value ∈ values, value < 2 ^ 256)
    (rest : Bytes) : readWords values.length (values.flatMap word ++ rest) = some values := by
  induction values with
  | nil => rfl
  | cons value values ih =>
      have later := ih fun other other_mem => bounded other (List.mem_cons_of_mem value other_mem)
      rw [List.flatMap_cons, List.append_assoc, List.length_cons, readWords,
        readWord_append (bounded value List.mem_cons_self)]
      simp [later]

/-- An array is read back wherever it stands. -/
theorem readArray_append {values : List ℕ} (fits : Fits values) {start : Bytes} {offset : ℕ}
    (offset_eq : start.length = offset) (rest : Bytes) :
    readArray (start ++ (arrayTail values ++ rest)) offset = some values := by
  have count_lt : values.length < 2 ^ 256 := by
    have short := fits.short
    omega
  rw [readArray, List.drop_left' offset_eq, arrayTail, List.append_assoc,
    readWord_append count_lt]
  exact readWords_append fits.bounded rest

theorem length_arrayTail (values : List ℕ) :
    (arrayTail values).length = 32 * (values.length + 1) := by
  have words : (values.flatMap word).length = 32 * values.length := by
    induction values with
    | nil => rfl
    | cons value values ih =>
        rw [List.flatMap_cons, List.length_append, ih, length_word, List.length_cons]
        omega
  rw [arrayTail, List.length_append, words, length_word]
  omega

theorem decodeUint256_word {value : ℕ} (value_lt : value < 2 ^ 256) :
    decodeUint256 (word value) = some value := by
  have read := readWord_append value_lt []
  rw [List.append_nil] at read
  rw [decodeUint256, read]
  rfl

theorem decodeUint256Pair_append {first second : ℕ} (first_lt : first < 2 ^ 256)
    (second_lt : second < 2 ^ 256) (rest : Bytes) :
    decodeUint256Pair (word first ++ (word second ++ rest)) = some (first, second) := by
  rw [decodeUint256Pair, readWord_append first_lt]
  simp only [readWord_append second_lt, Option.map_some]

/-- Two arrays are read back through their offsets. -/
theorem decodeUint256Arrays_arrays {first second : List ℕ} (first_fits : Fits first)
    (second_fits : Fits second) :
    decodeUint256Arrays (arrays first second) = some (first, second) := by
  have offsets := decodeUint256Pair_append (show 64 < 2 ^ 256 by decide) first_fits.short
    (arrayTail first ++ arrayTail second)
  have read_first := readArray_append first_fits
    (show (word 64 ++ word (64 + 32 * (first.length + 1))).length = 64 by simp) (arrayTail second)
  have length_eq : (word 64 ++ word (64 + 32 * (first.length + 1)) ++ arrayTail first).length =
      64 + 32 * (first.length + 1) := by
    simp [length_arrayTail]
    omega
  have read_second := readArray_append second_fits length_eq []
  simp only [List.append_nil, List.append_assoc] at read_first read_second
  simp only [decodeUint256Arrays, arrays, List.append_assoc, offsets, read_first, read_second]

end AbiEncoding
