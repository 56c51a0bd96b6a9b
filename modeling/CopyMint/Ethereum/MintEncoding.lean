import CopyMint.Ethereum.WireFormat
import CopyMint.Library.AbiDecoding

/-!
# Decoding undoes encoding

What the four mint events say and how their logs are laid out: where the operator, the
sender, the recipient and the tokens stand. On a log with topic 0 spelled as the
constant of its event, the decoder returns exactly the tokens of a mint.
-/

namespace CopyMint

open Hexadecimal AbiEncoding Fallible

/-- The address that tokens are minted from. -/
def nobody : BytesOf 20 := ⟨List.replicate 20 0, rfl⟩

section Encoding

variable (primitives : Primitives)

/-- The four constants differ from each other. -/
def DistinctTopics : Prop :=
  [erc721TransferTopic primitives, erc1155SingleTopic primitives, erc1155BatchTopic primitives,
    erc2309ConsecutiveTopic primitives].Nodup

instance : Decidable (DistinctTopics primitives) :=
  inferInstanceAs (Decidable (List.Nodup _))

/-- The ABI decoder inverts the ABI encoding. -/
structure Primitives.InvertsEncoding : Prop where
  uint256 : ∀ {value : ℕ}, value < 2 ^ 256 → primitives.decodeUint256 (word value) = some value
  pair : ∀ {first second : ℕ}, first < 2 ^ 256 → second < 2 ^ 256 →
    primitives.decodeUint256Pair (word first ++ word second) = some (first, second)
  arrays : ∀ {first second : List ℕ}, Fits first → Fits second →
    primitives.decodeUint256Arrays (arrays first second) = some (first, second)

/-- The tokens from the first one to the last one, each of them once. -/
def consecutiveTokens (first last : ℕ) : List (ℕ × ℕ) :=
  (List.range (last + 1 - first)).map fun subIndex => (first + subIndex, 1)

/--
A log says that tokens of a standard are transferred, in the layout of its event. The
operator is part of the ERC-1155 events only.
-/
inductive Encodes (maxErc2309Range : ℕ) (log : EvmLog) (sender recipient : BytesOf 20) :
    TokenStandard → Option (BytesOf 20) → List (ℕ × ℕ) → Prop
  | erc721 {signature source target token : Text} {tokenId : ℕ}
      (topics : log.topics = [signature, source, target, token])
      (recognised : lower signature = erc721TransferTopic primitives)
      (source_eq : Denotes source (addressWord sender))
      (target_eq : Denotes target (addressWord recipient))
      (token_eq : Denotes token (word tokenId)) (token_lt : tokenId < 2 ^ 256) :
      Encodes maxErc2309Range log sender recipient .erc721 none [(tokenId, 1)]
  | erc1155Single {signature caller source target : Text} {operator : BytesOf 20}
      {tokenId quantity : ℕ} (topics : log.topics = [signature, caller, source, target])
      (recognised : lower signature = erc1155SingleTopic primitives)
      (caller_eq : Denotes caller (addressWord operator))
      (source_eq : Denotes source (addressWord sender))
      (target_eq : Denotes target (addressWord recipient))
      (data_eq : Denotes log.data (word tokenId ++ word quantity))
      (token_lt : tokenId < 2 ^ 256) (quantity_lt : quantity < 2 ^ 256) (positive : 0 < quantity) :
      Encodes maxErc2309Range log sender recipient .erc1155 (some operator) [(tokenId, quantity)]
  | erc1155Batch {signature caller source target : Text} {operator : BytesOf 20}
      {tokens : List (ℕ × ℕ)} (topics : log.topics = [signature, caller, source, target])
      (recognised : lower signature = erc1155BatchTopic primitives)
      (caller_eq : Denotes caller (addressWord operator))
      (source_eq : Denotes source (addressWord sender))
      (target_eq : Denotes target (addressWord recipient))
      (data_eq : Denotes log.data (arrays (tokens.map Prod.fst) (tokens.map Prod.snd)))
      (tokens_fit : Fits (tokens.map Prod.fst)) (quantities_fit : Fits (tokens.map Prod.snd))
      (positive : ∀ token ∈ tokens, 0 < token.2) :
      Encodes maxErc2309Range log sender recipient .erc1155 (some operator) tokens
  | erc2309 {signature begin source target : Text} {first last : ℕ}
      (topics : log.topics = [signature, begin, source, target])
      (recognised : lower signature = erc2309ConsecutiveTopic primitives)
      (begin_eq : Denotes begin (word first))
      (source_eq : Denotes source (addressWord sender))
      (target_eq : Denotes target (addressWord recipient))
      (data_eq : Denotes log.data (word last)) (last_lt : last < 2 ^ 256)
      (ordered : first ≤ last) (short : last + 1 - first ≤ maxErc2309Range) :
      Encodes maxErc2309Range log sender recipient .erc2309 none (consecutiveTokens first last)

/-- A log of one of the four events names its sender, whatever else it says. -/
inductive IsSentFrom (log : EvmLog) (sender : BytesOf 20) : Prop
  | erc721 {signature source target token : Text}
      (topics : log.topics = [signature, source, target, token])
      (recognised : lower signature = erc721TransferTopic primitives)
      (source_eq : Denotes source (addressWord sender))
  | other {signature first source target : Text}
      (topics : log.topics = [signature, first, source, target])
      (recognised : lower signature ∈ [erc1155SingleTopic primitives,
        erc1155BatchTopic primitives, erc2309ConsecutiveTopic primitives])
      (source_eq : Denotes source (addressWord sender))

/-- The mints of tokens, numbered in order, at the position of their log. -/
def mintsOf (log : EvmLog) (contract recipient : BytesOf 20) (standard : TokenStandard)
    (operator : Option (BytesOf 20)) (tokens : List (ℕ × ℕ)) : List DecodedMint :=
  tokens.zipIdx.map fun ((tokenId, quantity), subIndex) =>
    { collectionAddress := checksumAddress primitives contract
      tokenStandard := standard
      tokenId
      quantity
      recipient := checksumAddress primitives recipient
      operator := operator.map (checksumAddress primitives)
      blockNumber := log.blockNumber
      blockHash := log.blockHash
      transactionHash := log.transactionHash
      logIndex := log.logIndex
      subIndex }

end Encoding

variable {primitives : Primitives} {maxErc2309Range : ℕ} {log : EvmLog}
  {sender recipient contract : BytesOf 20} {standard : TokenStandard}
  {operator : Option (BytesOf 20)} {tokens : List (ℕ × ℕ)}

section Parts

theorem lowerAddress_hex (address : BytesOf 20) :
    lowerAddress (marker ++ hex address.val) = marker ++ hex address.val := by
  rw [lowerAddress, lower_marker_append, removePrefix_append, lower_hex]

theorem bytesFromhex_of_denotes {text : Text} {bytes : Bytes} (denotes : Denotes text bytes) :
    bytesFromhex text = .ok bytes := by
  simp only [Denotes] at denotes
  simp only [bytesFromhex, denotes]

theorem dataBytes_of_denotes {text : Text} {bytes : Bytes} (denotes : Denotes text bytes) :
    dataBytes text = .ok bytes := by
  simp only [Denotes] at denotes
  simp only [dataBytes, denotes]

/-- An integer topic is read as the integer. -/
theorem topicUint_of_denotes {topic : Text} {value : ℕ} (denotes : Denotes topic (word value))
    (value_lt : value < 2 ^ 256) : topicUint topic = .ok value := by
  have read : intFromBytes (word value) = value := fromBigEndian_word value_lt
  rw [topicUint, bytesFromhex_of_denotes denotes, ok_bind, if_neg (by simp), read]

/-- An address topic is read as the checksummed address. -/
theorem topicAddress_of_denotes {topic : Text} {address : BytesOf 20}
    (denotes : Denotes topic (addressWord address)) :
    topicAddress primitives topic = .ok (checksumAddress primitives address) := by
  have padded : (addressWord address).take 12 = List.replicate 12 0 :=
    List.take_left' (by simp)
  have dropped : (addressWord address).drop 12 = address.val :=
    List.drop_left' (by simp)
  have wellFormed :
      ¬((addressWord address).length ≠ 32 ∨ ((addressWord address).take 12).any (· ≠ 0)) := by
    rw [padded]
    simp
  rw [topicAddress, bytesFromhex_of_denotes denotes, ok_bind, if_neg wellFormed, dropped]
  exact toChecksumAddress_of_spelled (lowerAddress_hex address)

/-- The sender is compared with nobody. -/
theorem isFromZero_of_denotes {topic : Text} (denotes : Denotes topic (addressWord sender)) :
    isFromZero primitives topic = .ok (decide (sender = nobody)) := by
  have zero : zeroAddress = marker ++ hex nobody.val := by decide
  have same : lower (checksumAddress primitives sender) = zeroAddress ↔ sender = nobody := by
    rw [lower_checksumAddress, zero, List.append_cancel_left_eq]
    exact ⟨fun equal => Subtype.ext (hex_injective equal), fun equal => by rw [equal]⟩
  rw [isFromZero, topicAddress_of_denotes denotes, ok_bind]
  simp only [same]

/-- A positive quantity of a well-formed contract is a mint. -/
theorem decoded_of_spelled (spelled : lowerAddress log.address = marker ++ hex contract.val)
    {tokenId quantity : ℕ} (positive : 0 < quantity) (recipient : Text) (operator : Option Text)
    (subIndex : ℕ) :
    decoded primitives log standard tokenId quantity recipient operator subIndex = .ok
      { collectionAddress := checksumAddress primitives contract
        tokenStandard := standard
        tokenId
        quantity
        recipient
        operator
        blockNumber := log.blockNumber
        blockHash := log.blockHash
        transactionHash := log.transactionHash
        logIndex := log.logIndex
        subIndex } := by
  rw [decoded, if_neg positive.ne', toChecksumAddress_of_spelled spelled, ok_bind]

theorem mintsOf_consecutiveTokens (first last : ℕ) :
    mintsOf primitives log contract recipient .erc2309 none (consecutiveTokens first last) =
      (List.range (last + 1 - first)).map fun subIndex =>
        { collectionAddress := checksumAddress primitives contract
          tokenStandard := .erc2309
          tokenId := first + subIndex
          quantity := 1
          recipient := checksumAddress primitives recipient
          operator := none
          blockNumber := log.blockNumber
          blockHash := log.blockHash
          transactionHash := log.transactionHash
          logIndex := log.logIndex
          subIndex } := by
  apply List.ext_getElem
  · simp [mintsOf, consecutiveTokens]
  · intro position left_lt right_lt
    simp [mintsOf, consecutiveTokens]

end Parts

/-- Every constant leads to the decoder of its own event. -/
theorem decodeMintLog_eq (distinct : DistinctTopics primitives) (kept : log.removed = false)
    {signature : Text} {rest : List Text} (topics : log.topics = signature :: rest)
    (maxErc2309Range : ℕ) :
    (lower signature = erc721TransferTopic primitives →
      decodeMintLog primitives log maxErc2309Range = decodeErc721 primitives log) ∧
    (lower signature = erc1155SingleTopic primitives →
      decodeMintLog primitives log maxErc2309Range = decodeErc1155Single primitives log) ∧
    (lower signature = erc1155BatchTopic primitives →
      decodeMintLog primitives log maxErc2309Range = decodeErc1155Batch primitives log) ∧
    (lower signature = erc2309ConsecutiveTopic primitives →
      decodeMintLog primitives log maxErc2309Range =
        decodeErc2309 primitives log maxErc2309Range) := by
  simp only [DistinctTopics, List.nodup_cons, List.mem_cons, List.not_mem_nil, or_false,
    not_or] at distinct
  rcases distinct with ⟨⟨first, second, third⟩, ⟨fourth, fifth⟩, sixth, _⟩
  simp only [decodeMintLog, kept, topics]
  refine ⟨?_, ?_, ?_, ?_⟩
  · intro recognised
    rw [if_pos recognised]
  · intro recognised
    rw [recognised, if_neg (Ne.symm first), if_pos rfl]
  · intro recognised
    rw [recognised, if_neg (Ne.symm second), if_neg (Ne.symm fourth), if_pos rfl]
  · intro recognised
    rw [recognised, if_neg (Ne.symm third), if_neg (Ne.symm fifth), if_neg (Ne.symm sixth),
      if_pos rfl]

/-- A log of one of the events decodes to nothing unless it is sent from nobody. -/
theorem decodeMintLog_of_isSentFrom (distinct : DistinctTopics primitives)
    (sent : IsSentFrom primitives log sender) (somebody : sender ≠ nobody) :
    decodeMintLog primitives log maxErc2309Range = .ok [] := by
  cases kept : log.removed with
  | true => rw [decodeMintLog, kept]
  | false =>
      cases sent with
      | erc721 topics recognised source_eq =>
          rw [(decodeMintLog_eq distinct kept topics maxErc2309Range).1 recognised]
          simp only [decodeErc721, topics, isFromZero_of_denotes source_eq, ok_bind, somebody]
          rfl
      | other topics recognised source_eq =>
          have dispatch := decodeMintLog_eq distinct kept topics maxErc2309Range
          simp only [List.mem_cons, List.not_mem_nil, or_false] at recognised
          rcases recognised with single | batch | consecutive
          · rw [dispatch.2.1 single]
            simp only [decodeErc1155Single, topics, isFromZero_of_denotes source_eq, ok_bind,
              somebody]
            rfl
          · rw [dispatch.2.2.1 batch]
            simp only [decodeErc1155Batch, topics, isFromZero_of_denotes source_eq, ok_bind,
              somebody]
            rfl
          · rw [dispatch.2.2.2 consecutive]
            simp only [decodeErc2309, topics, isFromZero_of_denotes source_eq, ok_bind, somebody]
            rfl

/-- A log that mints tokens decodes to exactly these, in order. -/
theorem decodeMintLog_of_encodes (distinct : DistinctTopics primitives)
    (inverts : primitives.InvertsEncoding)
    (spelled : lowerAddress log.address = marker ++ hex contract.val) (kept : log.removed = false)
    (encodes : Encodes primitives maxErc2309Range log nobody recipient standard operator tokens) :
    decodeMintLog primitives log maxErc2309Range =
      .ok (mintsOf primitives log contract recipient standard operator tokens) := by
  cases encodes with
  | erc721 topics recognised source_eq target_eq token_eq token_lt =>
      rw [(decodeMintLog_eq distinct kept topics maxErc2309Range).1 recognised]
      simp only [decodeErc721, topics, isFromZero_of_denotes source_eq,
        topicUint_of_denotes token_eq token_lt, topicAddress_of_denotes target_eq,
        decoded_of_spelled spelled Nat.one_pos, ok_bind]
      rfl
  | erc1155Single topics recognised caller_eq source_eq target_eq data_eq token_lt quantity_lt
      positive =>
      rw [(decodeMintLog_eq distinct kept topics maxErc2309Range).2.1 recognised]
      simp only [decodeErc1155Single, topics, isFromZero_of_denotes source_eq,
        dataBytes_of_denotes data_eq, decodeAbi, inverts.pair token_lt quantity_lt,
        topicAddress_of_denotes target_eq, topicAddress_of_denotes caller_eq,
        decoded_of_spelled spelled positive, ok_bind]
      rfl
  | @erc1155Batch _ _ _ _ caller _ topics recognised caller_eq source_eq target_eq data_eq
      tokens_fit quantities_fit positive =>
      have zipped : (tokens.map Prod.fst).zip (tokens.map Prod.snd) = tokens := by
        rw [← List.unzip_fst, ← List.unzip_snd, List.zip_unzip]
      have looped : tokens.zipIdx.mapM (fun element => decoded primitives log .erc1155 element.1.1
          element.1.2 (checksumAddress primitives recipient)
          (some (checksumAddress primitives caller)) element.2) =
            .ok (mintsOf primitives log contract recipient .erc1155 (some caller) tokens) :=
        mapM_eq_ok_map _ fun element element_mem => decoded_of_spelled spelled
          (positive element.1 (List.fst_mem_of_mem_zipIdx element_mem)) _ _ _
      rw [(decodeMintLog_eq distinct kept topics maxErc2309Range).2.2.1 recognised]
      simp only [decodeErc1155Batch, topics, isFromZero_of_denotes source_eq,
        dataBytes_of_denotes data_eq, decodeAbi, inverts.arrays tokens_fit quantities_fit,
        topicAddress_of_denotes target_eq, topicAddress_of_denotes caller_eq, ok_bind,
        List.length_map, zipped, looped]
      simp
  | @erc2309 _ _ _ _ first last topics recognised begin_eq source_eq target_eq data_eq last_lt
      ordered short =>
      have looped : (List.range (last + 1 - first)).mapM (fun subIndex => decoded primitives log
          .erc2309 (first + subIndex) 1 (checksumAddress primitives recipient) none subIndex) =
            .ok (mintsOf primitives log contract recipient .erc2309 none
              (consecutiveTokens first last)) := by
        rw [mintsOf_consecutiveTokens]
        exact mapM_eq_ok_map _ fun subIndex _ => decoded_of_spelled spelled Nat.one_pos _ _ _
      have counted : last + 1 - first ≠ 0 := by omega
      rw [(decodeMintLog_eq distinct kept topics maxErc2309Range).2.2.2 recognised]
      simp only [decodeErc2309, topics, isFromZero_of_denotes source_eq,
        dataBytes_of_denotes data_eq, decodeAbi, inverts.uint256 last_lt,
        topicUint_of_denotes begin_eq (lt_of_le_of_lt ordered last_lt),
        topicAddress_of_denotes target_eq, ok_bind, counted, not_lt.mpr short, if_false, looped]
      simp

/--
Decoding undoes encoding for the four events. Mints decode to the tokens that they say,
in order and with everything else taken from the log. What is sent from somebody decodes
to nothing, and so does what was removed.
-/
theorem decodeMintLog_undoesEncoding (distinct : DistinctTopics primitives)
    (inverts : primitives.InvertsEncoding) (maxErc2309Range : ℕ) :
    (∀ (log : EvmLog) (contract recipient : BytesOf 20) (standard : TokenStandard)
      (operator : Option (BytesOf 20)) (tokens : List (ℕ × ℕ)),
      lowerAddress log.address = marker ++ hex contract.val → log.removed = false →
      Encodes primitives maxErc2309Range log nobody recipient standard operator tokens →
        decodeMintLog primitives log maxErc2309Range =
          .ok (mintsOf primitives log contract recipient standard operator tokens)) ∧
    (∀ (log : EvmLog) (sender : BytesOf 20), IsSentFrom primitives log sender →
      sender ≠ nobody → decodeMintLog primitives log maxErc2309Range = .ok []) ∧
    ∀ log : EvmLog, log.removed = true → decodeMintLog primitives log maxErc2309Range = .ok [] := by
  refine ⟨?_, ?_, ?_⟩
  · intro log contract recipient standard operator tokens spelled kept encodes
    exact decodeMintLog_of_encodes distinct inverts spelled kept encodes
  · intro log sender sent somebody
    exact decodeMintLog_of_isSentFrom distinct sent somebody
  · intro log removed
    rw [decodeMintLog, removed]

section Samples

/-- Hashes of all four signatures, and the decoders that read the encodings back. -/
def referencePrimitives : Primitives :=
  .ofHashes
    (fun text =>
      if text = erc1155BatchSignature.toList then
        ⟨[0x4a, 0x39, 0xdc, 0x06, 0xd4, 0xc0, 0xdb, 0xc6, 0x4b, 0x70, 0xaf, 0x90,
          0xfd, 0x69, 0x8a, 0x23, 0x3a, 0x51, 0x8a, 0xa5, 0xd0, 0x7e, 0x59, 0x5d,
          0x98, 0x3b, 0x8c, 0x05, 0x26, 0xc8, 0xf7, 0xfb], rfl⟩
      else if text = erc2309ConsecutiveSignature.toList then
        ⟨[0xde, 0xaa, 0x91, 0xb6, 0x12, 0x3d, 0x06, 0x8f, 0x58, 0x21, 0xd0, 0xfb,
          0x06, 0x78, 0x46, 0x3d, 0x1a, 0x8a, 0x60, 0x79, 0xfe, 0x8a, 0xf5, 0xde,
          0x3c, 0xe5, 0xe8, 0x96, 0xdc, 0xf9, 0x13, 0x3d], rfl⟩
      else knownHash text)
    (fun _ => zeroHash) decodeUint256 decodeUint256Pair decodeUint256Arrays

theorem distinctTopics_referencePrimitives : DistinctTopics referencePrimitives := by
  decide +kernel

theorem invertsEncoding_referencePrimitives : referencePrimitives.InvertsEncoding := by
  have single : referencePrimitives.decodeUint256 = decodeUint256 := rfl
  have pair : referencePrimitives.decodeUint256Pair = decodeUint256Pair := rfl
  have both : referencePrimitives.decodeUint256Arrays = decodeUint256Arrays := rfl
  constructor
  · intro value value_lt
    rw [single, decodeUint256_word value_lt]
  · intro first second first_lt second_lt
    have read := decodeUint256Pair_append first_lt second_lt []
    rw [List.append_nil] at read
    rw [pair, read]
  · intro first second first_fits second_fits
    rw [both, decodeUint256Arrays_arrays first_fits second_fits]

/-- A log with the constant of an event as topic 0, and other topics from the wire. -/
def eventLog (signature : Text) (topics : List Bytes) (data : Bytes) : EvmLog :=
  { sampleLog topics data with
    topics := signature :: topics.map fun topic => marker ++ hex topic }

/-- Three tokens of different quantities are minted at once. -/
def batchLog : EvmLog :=
  eventLog (erc1155BatchTopic referencePrimitives)
    [addressWord sampleAddress, addressWord nobody, addressWord sampleAddress]
    (arrays [8, 2, 5] [1, 3, 2])

/-- A token goes from one owner to another. -/
def resaleLog : EvmLog :=
  eventLog (erc721TransferTopic referencePrimitives)
    [addressWord sampleAddress, addressWord sampleAddress, word 9] []

theorem encodes_batchLog :
    Encodes referencePrimitives 5000 batchLog nobody sampleAddress .erc1155 (some sampleAddress)
      [(8, 1), (2, 3), (5, 2)] :=
  .erc1155Batch rfl (lower_hex _) (denotes_marker_hex _) (denotes_marker_hex _)
    (denotes_marker_hex _) (denotes_marker_hex _) ⟨by simp, by simp⟩ ⟨by simp, by simp⟩ (by simp)

end Samples

theorem referenceDecoding_undoesEncoding :
    decodeMintLog referencePrimitives batchLog =
      .ok (mintsOf referencePrimitives batchLog sampleAddress sampleAddress .erc1155
        (some sampleAddress) [(8, 1), (2, 3), (5, 2)]) ∧
    decodeMintLog referencePrimitives resaleLog = .ok [] ∧
    decodeMintLog referencePrimitives { batchLog with removed := true } = .ok [] := by
  have undoes := decodeMintLog_undoesEncoding distinctTopics_referencePrimitives
    invertsEncoding_referencePrimitives 5000
  refine ⟨?_, ?_, undoes.2.2 _ rfl⟩
  · exact undoes.1 _ _ _ _ _ _ (lowerAddress_hex sampleAddress) rfl encodes_batchLog
  · exact undoes.2.1 _ sampleAddress (.erc721 rfl (lower_hex _) (denotes_marker_hex _)) (by decide)

end CopyMint
