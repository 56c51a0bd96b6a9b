import CopyMint.Library.Hexadecimal

/-!
# ABI encoding of unsigned integers

The encoding of `uint256` values and of pairs of `uint256` arrays as event data,
and of addresses as indexed topics. Array arguments are encoded as offsets of
their tails, and each tail is its length followed by its elements.
-/

namespace AbiEncoding

open Hexadecimal

/-- The last `length` base-256 digits of a value, most significant first. -/
def bigEndian : ℕ → ℕ → Bytes
  | 0, _ => []
  | length + 1, value => bigEndian length (value / 256) ++ [UInt8.ofNat value]

/-- A 32-byte word. -/
def word (value : ℕ) : Bytes := bigEndian 32 value

/-- An address padded on the left to a word. -/
def addressWord (address : BytesOf 20) : Bytes := List.replicate 12 0 ++ address.val

/-- An array: its length and its words. -/
def arrayTail (values : List ℕ) : Bytes := word values.length ++ values.flatMap word

/-- Two `uint256[]` arguments. -/
def arrays (first second : List ℕ) : Bytes :=
  word 64 ++ word (64 + 32 * (first.length + 1)) ++ arrayTail first ++ arrayTail second

@[simp]
theorem length_bigEndian (length value : ℕ) : (bigEndian length value).length = length := by
  induction length generalizing value with
  | zero => rfl
  | succ length ih => simp [bigEndian, ih]

@[simp]
theorem length_word (value : ℕ) : (word value).length = 32 := length_bigEndian 32 value

@[simp]
theorem length_addressWord (address : BytesOf 20) : (addressWord address).length = 32 := by
  simp [addressWord, address.property]

end AbiEncoding
