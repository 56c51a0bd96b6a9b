import CopyMint.Ethereum.Decoders

/-!
# EIP-1967 implementation evidence

An implementation address is read from a storage word or from the second topic
of an `Upgraded` event. The event is recognised as the mint events are: topic 0
in lower case is compared with a constant computed from the hash function.
-/

namespace CopyMint

open Hexadecimal Fallible

variable (primitives : Primitives)

/-- The signature of an upgrade. -/
def upgradedSignature : String := "Upgraded(address)"

/-- `UPGRADED_TOPIC`. -/
def upgradedTopic : Text := signatureTopic primitives upgradedSignature

/-- `implementation_from_word`. -/
def implementationFromWord (value : Bytes) : Except Raised (Option Text) :=
  if value.length ≠ 32 then
    .error (.invalidProxyEvidence "EIP-1967 storage word must contain 32 bytes")
  else if value.all (· = 0) then .ok none
  else if (value.take 12).any (· ≠ 0) then
    .error (.invalidProxyEvidence "EIP-1967 implementation word is not an address")
  else some <$> primitives.toChecksumAddress (marker ++ hex (value.drop 12))

/-- `implementation_from_upgrade`. -/
def implementationFromUpgrade (log : EvmLog) : Except Raised Text :=
  match log.topics with
  | [signature, implementation] =>
      if lower signature ≠ upgradedTopic primitives then
        .error (.invalidProxyEvidence "Upgraded event topics are malformed")
      else
        match fromhex (removePrefix marker implementation) with
        | none => .error (.invalidProxyEvidence "Upgraded implementation topic is malformed")
        | some value => do
            match ← implementationFromWord primitives value with
            | none =>
                .error (.invalidProxyEvidence "Upgraded implementation cannot be the zero address")
            | some address => .ok address
  | _ => .error (.invalidProxyEvidence "Upgraded event topics are malformed")

section Words

variable {primitives}

theorem toChecksumAddress_hex (address : BytesOf 20) :
    primitives.toChecksumAddress (marker ++ hex address.val) =
      .ok (checksumAddress primitives address) := by
  apply toChecksumAddress_of_spelled
  rw [lowerAddress, lower_marker_append, lower_hex, removePrefix_append]

/-- What a word of 32 bytes is, by the two parts that are looked at. -/
theorem implementationFromWord_append (address : BytesOf 20) :
    implementationFromWord primitives (List.replicate 12 0 ++ address.val) =
      if ∃ byte ∈ address.val, byte ≠ 0 then .ok (some (checksumAddress primitives address))
      else .ok none := by
  have length : (List.replicate 12 (0 : UInt8) ++ address.val).length = 32 := by
    simp [address.property]
  have front : (List.replicate 12 (0 : UInt8) ++ address.val).take 12 = List.replicate 12 0 :=
    List.take_left' List.length_replicate
  have back : (List.replicate 12 (0 : UInt8) ++ address.val).drop 12 = address.val :=
    List.drop_left' List.length_replicate
  have zero_iff : (List.replicate 12 (0 : UInt8) ++ address.val).all (· = 0) = true ↔
      ¬∃ byte ∈ address.val, byte ≠ 0 := by
    simp
  have front_zero : ¬((List.replicate 12 (0 : UInt8)).any (· ≠ 0) = true) := by simp
  simp only [implementationFromWord, length, front, back, toChecksumAddress_hex, zero_iff,
    if_neg front_zero, ne_eq, not_true_eq_false, if_false, ite_not]
  rfl

/-- A word without its own failure has twelve zeros in front of an address. -/
theorem exists_address_of_implementationFromWord {word : Bytes} {read : Option Text}
    (ok : implementationFromWord primitives word = .ok read) :
    ∃ address : BytesOf 20, word = List.replicate 12 0 ++ address.val := by
  simp only [implementationFromWord] at ok
  split_ifs at ok with length zero front
  · have word_eq : word = List.replicate 32 0 := by
      rw [List.eq_replicate_iff]
      exact ⟨not_not.mp length, by simpa using zero⟩
    exact ⟨⟨List.replicate 20 0, List.length_replicate⟩, by rw [word_eq, List.replicate_append_replicate]⟩
  · have long : word.length = 32 := not_not.mp length
    have front_eq : word.take 12 = List.replicate 12 0 := by
      rw [List.eq_replicate_iff]
      exact ⟨by simp [long], by simpa using front⟩
    refine ⟨⟨word.drop 12, by simp [long]⟩, ?_⟩
    rw [← front_eq, List.take_append_drop]

/-- A word holds an implementation exactly if it is an address that is not zero. -/
theorem implementationFromWord_eq_some_iff {word : Bytes} {implementation : Text} :
    implementationFromWord primitives word = .ok (some implementation) ↔
      ∃ address : BytesOf 20, word = List.replicate 12 0 ++ address.val ∧
        (∃ byte ∈ address.val, byte ≠ 0) ∧ implementation = checksumAddress primitives address := by
  constructor
  · intro read
    rcases exists_address_of_implementationFromWord read with ⟨address, rfl⟩
    rw [implementationFromWord_append] at read
    split_ifs at read with used
    · cases read
      exact ⟨address, rfl, used, rfl⟩
    · cases read
  · rintro ⟨address, rfl, used, rfl⟩
    rw [implementationFromWord_append, if_pos used]

/-- Words whose implementations differ in letter case at most are the same. -/
theorem eq_of_implementationFromWord {first second : Bytes} {implementation other : Text}
    (read : implementationFromWord primitives first = .ok (some implementation))
    (other_read : implementationFromWord primitives second = .ok (some other))
    (same : lower implementation = lower other) : first = second := by
  rcases implementationFromWord_eq_some_iff.mp read with ⟨address, rfl, _, rfl⟩
  rcases implementationFromWord_eq_some_iff.mp other_read with ⟨otherAddress, rfl, _, rfl⟩
  rw [lower_checksumAddress, lower_checksumAddress] at same
  rw [hex_injective (List.append_cancel_left same)]

theorem eq_replicate_of_implementationFromWord {word : Bytes}
    (read : implementationFromWord primitives word = .ok none) : word = List.replicate 32 0 := by
  rcases exists_address_of_implementationFromWord read with ⟨address, rfl⟩
  rw [implementationFromWord_append] at read
  split_ifs at read with used
  · cases read
  · have zero : address.val = List.replicate 20 0 := by
      rw [List.eq_replicate_iff]
      exact ⟨address.property, by simpa using used⟩
    rw [zero, List.replicate_append_replicate]

/-- A word is refused as evidence or read. -/
theorem implementationFromWord_failsOnly (word : Bytes) :
    FailsOnly (fun raised => ∃ message, raised = .invalidProxyEvidence message)
      (implementationFromWord primitives word) := by
  simp only [implementationFromWord]
  split_ifs with length
  · exact failsOnly_error_iff.mpr ⟨_, rfl⟩
  · exact failsOnly_ok none
  · exact failsOnly_error_iff.mpr ⟨_, rfl⟩
  · have twenty : (word.drop 12).length = 20 := by simp [not_not.mp length]
    have checksummed : primitives.toChecksumAddress (marker ++ hex (word.drop 12)) = .ok _ :=
      toChecksumAddress_hex ⟨word.drop 12, twenty⟩
    rw [checksummed]
    exact failsOnly_ok _

end Words

end CopyMint
