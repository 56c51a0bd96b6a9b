import CopyMint.Ethereum.Proxies
import CopyMint.Library.AbiEncoding

/-!
# Logs as they come over the wire

An Ethereum node writes topics, hashes and data as hexadecimal text behind the
marker `0x`. The constants of the decoders carry no marker. This file describes
the logs that the provider adapter builds from a node's answer, says which of
them record mints and upgrades, and derives what the two recognisers do on them.
-/

namespace CopyMint

open Hexadecimal AbiEncoding

/-- A log as `JsonRpcEvmProvider.logs` builds it from a well-formed answer. -/
structure IsWireLog (log : EvmLog) : Prop where
  address : IsMarkedHex 20 log.address
  topics : ∀ topic ∈ log.topics, IsMarkedHex 32 topic
  data : ∃ length, IsMarkedHex length log.data
  blockHash : IsMarkedHex 32 log.blockHash
  transactionHash : IsMarkedHex 32 log.transactionHash
  kept : log.removed = false

variable (primitives : Primitives)

/-- Topic 0 stands for the hash of an event signature. -/
def IsSignature (signature : String) (topic : Text) : Prop :=
  Denotes topic (primitives.keccak signature.toList).val

/--
The log is one of the four standard transfer events, from the zero address and
of at least one token in positive quantity.
-/
inductive IsMintLog (log : EvmLog) : Prop
  | erc721 {signature sender recipient token : Text} {owner : BytesOf 20} {tokenId : ℕ}
      (topics : log.topics = [signature, sender, recipient, token])
      (recognised : IsSignature primitives erc721TransferSignature signature)
      (fromZero : Denotes sender (word 0))
      (recipient_eq : Denotes recipient (addressWord owner))
      (token_eq : Denotes token (word tokenId)) (token_lt : tokenId < 2 ^ 256)
  | erc1155Single {signature operator sender recipient : Text} {caller owner : BytesOf 20}
      {tokenId quantity : ℕ}
      (topics : log.topics = [signature, operator, sender, recipient])
      (recognised : IsSignature primitives erc1155SingleSignature signature)
      (operator_eq : Denotes operator (addressWord caller))
      (fromZero : Denotes sender (word 0))
      (recipient_eq : Denotes recipient (addressWord owner))
      (data_eq : Denotes log.data (word tokenId ++ word quantity))
      (token_lt : tokenId < 2 ^ 256) (quantity_lt : quantity < 2 ^ 256) (positive : 0 < quantity)
  | erc1155Batch {signature operator sender recipient : Text} {caller owner : BytesOf 20}
      {tokens : List (ℕ × ℕ)}
      (topics : log.topics = [signature, operator, sender, recipient])
      (recognised : IsSignature primitives erc1155BatchSignature signature)
      (operator_eq : Denotes operator (addressWord caller))
      (fromZero : Denotes sender (word 0))
      (recipient_eq : Denotes recipient (addressWord owner))
      (data_eq : Denotes log.data (arrays (tokens.map Prod.fst) (tokens.map Prod.snd)))
      (nonempty : tokens ≠ [])
      (bounded : ∀ token ∈ tokens, token.1 < 2 ^ 256 ∧ 0 < token.2 ∧ token.2 < 2 ^ 256)
  | erc2309 {signature first sender recipient : Text} {owner : BytesOf 20}
      {fromTokenId toTokenId : ℕ}
      (topics : log.topics = [signature, first, sender, recipient])
      (recognised : IsSignature primitives erc2309ConsecutiveSignature signature)
      (first_eq : Denotes first (word fromTokenId))
      (fromZero : Denotes sender (word 0))
      (recipient_eq : Denotes recipient (addressWord owner))
      (data_eq : Denotes log.data (word toTokenId))
      (ordered : fromTokenId ≤ toTokenId) (token_lt : toTokenId < 2 ^ 256)

/-- The log records an upgrade to an implementation other than the zero address. -/
structure IsUpgradeLog (log : EvmLog) (implementation : BytesOf 20) : Prop where
  topics : ∃ signature target, log.topics = [signature, target] ∧
    IsSignature primitives upgradedSignature signature ∧
    Denotes target (addressWord implementation)
  nonzero : ∃ byte ∈ implementation.val, byte ≠ 0

/-- The decoder returns at least one mint. -/
def RecognisesMint (log : EvmLog) (maxErc2309Range : ℕ) : Prop :=
  ∃ mints, decodeMintLog primitives log maxErc2309Range = .ok mints ∧ mints ≠ []

/-- The upgrade is read as the implementation that it names. -/
def RecognisesUpgrade (log : EvmLog) (implementation : BytesOf 20) : Prop :=
  ∃ address, implementationFromUpgrade primitives log = .ok address ∧
    Denotes address implementation.val

variable {primitives}

/-- A topic with the marker is never a constant without one. -/
theorem IsWireLog.topic_ne_signatureTopic (primitives : Primitives) {log : EvmLog}
    (wire : IsWireLog log) {topic : Text}
    (topic_mem : topic ∈ log.topics) (signature : String) :
    lower topic ≠ signatureTopic primitives signature :=
  (wire.topics topic topic_mem).lower_ne_hex _

theorem decodeMintLog_of_isWireLog {log : EvmLog} (wire : IsWireLog log) (maxErc2309Range : ℕ) :
    decodeMintLog primitives log maxErc2309Range = .ok [] := by
  cases topics : log.topics with
  | nil => simp only [decodeMintLog, wire.kept, topics]
  | cons topic rest =>
      have unequal := wire.topic_ne_signatureTopic primitives
        (show topic ∈ log.topics by simp [topics])
      simp only [decodeMintLog, wire.kept, topics, erc721TransferTopic, erc1155SingleTopic,
        erc1155BatchTopic, erc2309ConsecutiveTopic, unequal, if_false]

theorem implementationFromUpgrade_of_isWireLog {log : EvmLog} (wire : IsWireLog log) :
    implementationFromUpgrade primitives log =
      .error (.invalidProxyEvidence "Upgraded event topics are malformed") := by
  match topics : log.topics with
  | [] => simp only [implementationFromUpgrade, topics]
  | [_] => simp only [implementationFromUpgrade, topics]
  | _ :: _ :: _ :: _ => simp only [implementationFromUpgrade, topics]
  | [signature, _] =>
      have unequal := wire.topic_ne_signatureTopic primitives
        (show signature ∈ log.topics by simp [topics]) upgradedSignature
      simp only [implementationFromUpgrade, topics, upgradedTopic]
      exact if_pos unequal

/-- Neither mints nor upgrades are recognised in any log that comes over the wire. -/
theorem wireLog_neverRecognised {log : EvmLog} (wire : IsWireLog log) :
    (IsMintLog primitives log → ∀ maxErc2309Range,
      ¬RecognisesMint primitives log maxErc2309Range) ∧
      ∀ implementation, IsUpgradeLog primitives log implementation →
        ¬RecognisesUpgrade primitives log implementation := by
  constructor
  · rintro _ maxErc2309Range ⟨mints, returned, nonempty⟩
    rw [decodeMintLog_of_isWireLog wire] at returned
    cases returned
    exact nonempty rfl
  · rintro implementation _ ⟨address, returned, _⟩
    rw [implementationFromUpgrade_of_isWireLog wire] at returned
    cases returned

theorem denotes_marker_hex (bytes : Bytes) : Denotes (marker ++ hex bytes) bytes := by
  simp [Denotes]

section Samples

/-- A hash of zeros. -/
def zeroHash : BytesOf 32 := ⟨List.replicate 32 0, rfl⟩

/-- Hashes of the signatures and of the address digits that the samples below use. -/
def knownHash (text : Text) : BytesOf 32 :=
  if text = erc721TransferSignature.toList then
    ⟨[0xdd, 0xf2, 0x52, 0xad, 0x1b, 0xe2, 0xc8, 0x9b, 0x69, 0xc2, 0xb0, 0x68,
      0xfc, 0x37, 0x8d, 0xaa, 0x95, 0x2b, 0xa7, 0xf1, 0x63, 0xc4, 0xa1, 0x16,
      0x28, 0xf5, 0x5a, 0x4d, 0xf5, 0x23, 0xb3, 0xef], rfl⟩
  else if text = erc1155SingleSignature.toList then
    ⟨[0xc3, 0xd5, 0x81, 0x68, 0xc5, 0xae, 0x73, 0x97, 0x73, 0x1d, 0x06, 0x3d,
      0x5b, 0xbf, 0x3d, 0x65, 0x78, 0x54, 0x42, 0x73, 0x43, 0xf4, 0xc0, 0x83,
      0x24, 0x0f, 0x7a, 0xac, 0xaa, 0x2d, 0x0f, 0x62], rfl⟩
  else if text = upgradedSignature.toList then
    ⟨[0xbc, 0x7c, 0xd7, 0x5a, 0x20, 0xee, 0x27, 0xfd, 0x9a, 0xde, 0xba, 0xb3,
      0x20, 0x41, 0xf7, 0x55, 0x21, 0x4d, 0xbc, 0x6b, 0xff, 0xa9, 0x0c, 0xc0,
      0x22, 0x5b, 0x39, 0xda, 0x2e, 0x5c, 0x2d, 0x3b], rfl⟩
  else if text = List.replicate 40 '1' then
    ⟨[0x2d, 0x6c, 0xa4, 0x2d, 0x0b, 0x5f, 0x46, 0xb3, 0x11, 0x27, 0x77, 0x10,
      0xcd, 0x2d, 0xcf, 0x95, 0xbd, 0x59, 0x94, 0x8e, 0x09, 0x57, 0xe7, 0xe1,
      0x67, 0xeb, 0xbf, 0x11, 0xac, 0x59, 0x2f, 0xc3], rfl⟩
  else if text = List.replicate 40 '0' then
    ⟨[0xcc, 0xc5, 0x27, 0xfe, 0x1f, 0x93, 0x91, 0xbf, 0xf4, 0x44, 0x99, 0x4d,
      0xdc, 0xa4, 0x04, 0xbe, 0xd1, 0xdc, 0x00, 0x8a, 0x06, 0x6f, 0xf7, 0xf1,
      0xb2, 0x43, 0xe1, 0x15, 0xca, 0xb7, 0x07, 0x20], rfl⟩
  else zeroHash

/-- The primitives as far as the samples use them. -/
def sampleHashes : Primitives :=
  .ofHashes knownHash (fun _ => zeroHash)
    (fun data => if 32 ≤ data.length then some (intFromBytes (data.take 32)) else none)
    (fun data =>
      if 64 ≤ data.length then
        some (intFromBytes (data.take 32), intFromBytes ((data.drop 32).take 32))
      else none)
    fun _ => none

/-- An address of ones. -/
def sampleAddress : BytesOf 20 := ⟨List.replicate 20 0x11, rfl⟩

/-- A log with the given topics and data, at a fixed position of the chain. -/
def sampleLog (topics : List Bytes) (data : Bytes) : EvmLog where
  address := marker ++ hex sampleAddress.val
  topics := topics.map fun topic => marker ++ hex topic
  data := marker ++ hex data
  blockNumber := 7
  blockHash := marker ++ hex (word 3)
  transactionHash := marker ++ hex (word 5)
  logIndex := 0
  removed := false

/-- `Transfer` of token 1 from the zero address. -/
def transferLog : EvmLog :=
  sampleLog [(sampleHashes.keccak erc721TransferSignature.toList).val, word 0,
    addressWord sampleAddress, word 1] []

/-- `TransferSingle` of two units of token 1 from the zero address. -/
def transferSingleLog : EvmLog :=
  sampleLog [(sampleHashes.keccak erc1155SingleSignature.toList).val, addressWord sampleAddress,
    word 0, addressWord sampleAddress] (word 1 ++ word 2)

/-- An upgrade as a node sends it. -/
def upgradeLog : EvmLog :=
  sampleLog [(sampleHashes.keccak upgradedSignature.toList).val, addressWord sampleAddress] []

end Samples

theorem isWireLog_sampleLog {topics : List Bytes} {data : Bytes}
    (words : ∀ topic ∈ topics, topic.length = 32) : IsWireLog (sampleLog topics data) where
  address := isMarkedHex_hex _
  topics := by
    intro text text_mem
    rcases List.mem_map.mp text_mem with ⟨topic, topic_mem, rfl⟩
    exact words topic topic_mem ▸ isMarkedHex_hex topic
  data := ⟨data.length, isMarkedHex_hex data⟩
  blockHash := isMarkedHex_hex (word 3)
  transactionHash := isMarkedHex_hex (word 5)
  kept := rfl

theorem isMintLog_transferLog : IsMintLog sampleHashes transferLog :=
  .erc721 rfl (denotes_marker_hex _) (denotes_marker_hex _) (denotes_marker_hex _)
    (denotes_marker_hex _) (by decide)

theorem isWireLog_transferLog : IsWireLog transferLog :=
  isWireLog_sampleLog (by decide)

theorem isMintLog_transferSingleLog : IsMintLog sampleHashes transferSingleLog :=
  .erc1155Single rfl (denotes_marker_hex _) (denotes_marker_hex _) (denotes_marker_hex _)
    (denotes_marker_hex _) (denotes_marker_hex _) (by decide) (by decide) (by decide)

theorem isUpgradeLog_upgradeLog : IsUpgradeLog sampleHashes upgradeLog sampleAddress where
  topics := ⟨_, _, rfl, denotes_marker_hex _, denotes_marker_hex _⟩
  nonzero := ⟨0x11, by decide, by decide⟩

/-- A transfer from the zero address, as a node writes it, is not decoded. -/
theorem transferLog_notRecognised :
    ¬∀ log, IsWireLog log → IsMintLog sampleHashes log → RecognisesMint sampleHashes log 5000 := by
  intro recognises
  rcases recognises transferLog isWireLog_transferLog isMintLog_transferLog with
    ⟨mints, returned, nonempty⟩
  rw [decodeMintLog_of_isWireLog isWireLog_transferLog] at returned
  cases returned
  exact nonempty rfl

theorem sampleLogs_neverRecognised :
    ¬RecognisesMint sampleHashes transferSingleLog 5000 ∧
      ¬RecognisesUpgrade sampleHashes upgradeLog sampleAddress :=
  ⟨(wireLog_neverRecognised (isWireLog_sampleLog (by decide))).1 isMintLog_transferSingleLog 5000,
    (wireLog_neverRecognised (isWireLog_sampleLog (by decide))).2 _ isUpgradeLog_upgradeLog⟩

end CopyMint
