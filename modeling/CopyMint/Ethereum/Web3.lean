import CopyMint.Ethereum.Ports

/-!
# Third-party primitives

Hash functions, the ABI decoder and the address functions of the libraries are parameters of
the model, the last of them with what is known of them: text that is accepted as an address
spells twenty bytes, in whichever letter cases the library allows, and an address gets its
EIP-55 checksum on top of the hash function, so that the letter case of every stored address
is determined by it.
-/

namespace CopyMint

open Hexadecimal

/-- Text that spells twenty bytes in hexadecimal, with or without the marker. -/
def IsAddressText (text : Text) : Prop :=
  (removePrefix marker (lower text)).length = 40 ∧ IsDigits (removePrefix marker (lower text))

instance (text : Text) : Decidable (IsAddressText text) :=
  inferInstanceAs (Decidable (_ ∧ _))

/-- A digit of an address is upper case where the hash has a digit above seven. -/
def checksumDigit (digit hashDigit : Char) : Char :=
  if 7 < (digitValue hashDigit).getD 0 then digit.toUpper else digit

/-- The EIP-55 spelling of an address on top of a hash function. -/
def eip55 (keccak : Text → BytesOf 32) (address : Text) : Text :=
  let digits := removePrefix marker (lower address)
  marker ++ List.zipWith checksumDigit digits (hex (keccak digits).val)

/-- The functions that the code takes from its cryptographic, ABI and address libraries. -/
structure Primitives where
  /-- `Web3.keccak(text=...)`. -/
  keccak : Text → BytesOf 32
  /-- `hashlib.sha256(...).digest()`. -/
  sha256 : Bytes → BytesOf 32
  /-- `decode(["uint256"], data)`. -/
  decodeUint256 : Bytes → Option ℕ
  /-- `decode(["uint256", "uint256"], data)`. -/
  decodeUint256Pair : Bytes → Option (ℕ × ℕ)
  /-- `decode(["uint256[]", "uint256[]"], data)`. -/
  decodeUint256Arrays : Bytes → Option (List ℕ × List ℕ)
  /-- `Web3.is_address`. -/
  isAddress : Text → Bool
  /-- `Web3.to_checksum_address`. -/
  toChecksumAddress : Text → Except Raised Text
  /-- What is accepted spells an address. -/
  isAddressText_of_isAddress : ∀ text, isAddress text = true → IsAddressText text
  /-- Every spelling of an address gets its checksum. -/
  toChecksumAddress_eq_ok : ∀ text, IsAddressText text →
    toChecksumAddress text = .ok (eip55 keccak text)
  /-- Other text is refused. -/
  toChecksumAddress_eq_error : ∀ text, ¬IsAddressText text →
    toChecksumAddress text = .error (.valueError "Unknown format")

/-- The given hash functions and decoders, with addresses accepted in any letter case. -/
def Primitives.ofHashes (keccak : Text → BytesOf 32) (sha256 : Bytes → BytesOf 32)
    (decodeUint256 : Bytes → Option ℕ) (decodeUint256Pair : Bytes → Option (ℕ × ℕ))
    (decodeUint256Arrays : Bytes → Option (List ℕ × List ℕ)) : Primitives where
  keccak := keccak
  sha256 := sha256
  decodeUint256 := decodeUint256
  decodeUint256Pair := decodeUint256Pair
  decodeUint256Arrays := decodeUint256Arrays
  isAddress text := decide (IsAddressText text)
  toChecksumAddress text :=
    if IsAddressText text then .ok (eip55 keccak text) else .error (.valueError "Unknown format")
  isAddressText_of_isAddress _ := of_decide_eq_true
  toChecksumAddress_eq_ok _ spelled := if_pos spelled
  toChecksumAddress_eq_error _ unspelled := if_neg unspelled

variable (primitives : Primitives)

/-- The same libraries on top of another hash function. -/
def Primitives.withKeccak (keccak : Text → BytesOf 32) : Primitives :=
  .ofHashes keccak primitives.sha256 primitives.decodeUint256 primitives.decodeUint256Pair
    primitives.decodeUint256Arrays

/-- The checksummed form of twenty bytes. -/
def checksumAddress (address : BytesOf 20) : Text :=
  marker ++ List.zipWith checksumDigit (hex address.val)
    (hex (primitives.keccak (hex address.val)).val)

/-- A digit survives the choice of its letter case. -/
theorem toLower_checksumDigit {value : ℕ} (small : value < 16) (hashDigit : Char) :
    (checksumDigit (Nat.digitChar value) hashDigit).toLower = Nat.digitChar value := by
  simp only [checksumDigit]
  split_ifs
  · interval_cases value <;> decide
  · exact toLower_digitChar small

/-- A checksum changes nothing but the letter case of the digits. -/
theorem lower_checksumDigits {digits hash : Text} (valued : IsDigits digits)
    (lowered : lower digits = digits) (long : digits.length ≤ hash.length) :
    lower (List.zipWith checksumDigit digits hash) = digits := by
  induction digits generalizing hash with
  | nil => rfl
  | cons digit digits ih =>
      cases hash with
      | nil => simp at long
      | cons first hash =>
          simp only [lower, List.map_cons, List.cons.injEq] at lowered
          have rest := ih (fun digit digit_mem => valued digit (List.mem_cons_of_mem _ digit_mem))
            lowered.2 (by simpa using long)
          rcases exists_digitChar (valued digit List.mem_cons_self) lowered.1 with
            ⟨value, small, rfl⟩
          simp only [lower] at rest
          simp only [lower, List.zipWith_cons_cons, List.map_cons, rest,
            toLower_checksumDigit small]

/-- The digits of an address in lower case behind the marker. -/
def lowerAddress (address : Text) : Text :=
  marker ++ removePrefix marker (lower address)

theorem lower_removePrefix_lower (address : Text) :
    lower (removePrefix marker (lower address)) = removePrefix marker (lower address) := by
  simp only [removePrefix]
  split_ifs
  · simp only [lower, ← List.map_drop, List.map_map]
    apply List.map_congr_left
    intro character _
    exact toLower_toLower character
  · exact lower_lower address

variable {primitives}

namespace Primitives

/-- The checksummed form of an address, or the refusal of other text. -/
theorem toChecksumAddress_eq (address : Text) :
    primitives.toChecksumAddress address =
      if IsAddressText address then .ok (eip55 primitives.keccak address)
      else .error (.valueError "Unknown format") := by
  split_ifs with spelled
  · exact primitives.toChecksumAddress_eq_ok address spelled
  · exact primitives.toChecksumAddress_eq_error address spelled

end Primitives

/-- The checksummed form has the digits of the address. -/
theorem lower_toChecksumAddress {address checksum : Text}
    (ok : primitives.toChecksumAddress address = .ok checksum) :
    lower checksum = lowerAddress address := by
  rw [primitives.toChecksumAddress_eq] at ok
  split_ifs at ok with spelled
  cases ok
  rw [eip55, lower_marker_append, lowerAddress, lower_checksumDigits spelled.2
    (lower_removePrefix_lower address)]
  simp [spelled.1, (primitives.keccak _).property]

/-- Spellings of one address have the same checksummed form. -/
theorem toChecksumAddress_congr {first second : Text}
    (same : lowerAddress first = lowerAddress second) :
    primitives.toChecksumAddress first = primitives.toChecksumAddress second := by
  have digits : removePrefix marker (lower first) = removePrefix marker (lower second) :=
    List.append_cancel_left same
  have spelled : IsAddressText first ↔ IsAddressText second := by
    rw [IsAddressText, IsAddressText, digits]
  simp only [primitives.toChecksumAddress_eq, eip55, digits, spelled]

/-- Text that spells an address has the checksummed form of the address. -/
theorem toChecksumAddress_of_spelled {text : Text} {address : BytesOf 20}
    (spelled : lowerAddress text = marker ++ hex address.val) :
    primitives.toChecksumAddress text = .ok (checksumAddress primitives address) := by
  have digits : removePrefix marker (lower text) = hex address.val :=
    List.append_cancel_left spelled
  have long : (hex address.val).length = 40 := by rw [length_hex, address.property]
  have valued : IsAddressText text := by
    rw [IsAddressText, digits]
    exact ⟨long, isDigits_hex address.val⟩
  rw [primitives.toChecksumAddress_eq_ok text valued, eip55, digits, checksumAddress]

theorem lower_checksumAddress (address : BytesOf 20) :
    lower (checksumAddress primitives address) = marker ++ hex address.val := by
  rw [checksumAddress, lower_marker_append,
    lower_checksumDigits (isDigits_hex address.val) (lower_hex address.val)]
  simp [address.property, (primitives.keccak _).property]

/-- What a call of the ABI decoder returns, or its own exception. -/
def decodeAbi {Value : Type} (decoder : Bytes → Option Value) (data : Bytes) :
    Except Raised Value :=
  match decoder data with
  | some value => .ok value
  | none => .error .decodingError

end CopyMint
