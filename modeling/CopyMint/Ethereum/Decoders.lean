import CopyMint.Domain.Enums
import CopyMint.Ethereum.Web3
import CopyMint.Library.Fallible
import Mathlib.Data.List.Nodup

/-!
# Strict decoders for standard NFT mint events

The four event signatures are recognised by comparing topic 0, in lower case,
with constants that the module computes once from the hash function. The
constants are written by `HexBytes.hex`, which is `bytes.hex`.
-/

namespace CopyMint

open Hexadecimal Fallible

section Constants

variable (primitives : Primitives)

/-- `Web3.keccak(text=signature).hex()`. -/
def signatureTopic (signature : String) : Text :=
  hex (primitives.keccak signature.toList).val

/-- The signature of a transfer of one token. -/
def erc721TransferSignature : String := "Transfer(address,address,uint256)"

/-- The signature of a transfer of some of one token. -/
def erc1155SingleSignature : String := "TransferSingle(address,address,address,uint256,uint256)"

/-- The signature of a transfer of several tokens. -/
def erc1155BatchSignature : String := "TransferBatch(address,address,address,uint256[],uint256[])"

/-- The signature of a transfer of a range of tokens. -/
def erc2309ConsecutiveSignature : String := "ConsecutiveTransfer(uint256,uint256,address,address)"

/-- `ERC721_TRANSFER_TOPIC`. -/
def erc721TransferTopic : Text := signatureTopic primitives erc721TransferSignature

/-- `ERC1155_SINGLE_TOPIC`. -/
def erc1155SingleTopic : Text := signatureTopic primitives erc1155SingleSignature

/-- `ERC1155_BATCH_TOPIC`. -/
def erc1155BatchTopic : Text := signatureTopic primitives erc1155BatchSignature

/-- `ERC2309_CONSECUTIVE_TOPIC`. -/
def erc2309ConsecutiveTopic : Text := signatureTopic primitives erc2309ConsecutiveSignature

end Constants

/-- `ZERO_ADDRESS`. -/
def zeroAddress : Text := marker ++ List.replicate 40 '0'

/-- One minted token, or some of one, with the log that it comes from. -/
structure DecodedMint where
  collectionAddress : Text
  tokenStandard : TokenStandard
  tokenId : ℕ
  quantity : ℕ
  recipient : Text
  operator : Option Text
  blockNumber : ℕ
  blockHash : Text
  transactionHash : Text
  logIndex : ℕ
  subIndex : ℕ
  deriving DecidableEq

/-- `bytes.fromhex(value.removeprefix("0x"))`. -/
def bytesFromhex (value : Text) : Except Raised Bytes :=
  match fromhex (removePrefix marker value) with
  | some raw => .ok raw
  | none => .error (.valueError "non-hexadecimal number found in fromhex() arg")

/-- `int.from_bytes(raw, "big")`. -/
def intFromBytes (raw : Bytes) : ℕ :=
  raw.foldl (fun value byte => 256 * value + byte.toNat) 0

/-- `data_bytes`, which rejects what is no hexadecimal text. -/
def dataBytes (value : Text) : Except Raised Bytes :=
  match fromhex (removePrefix marker value) with
  | some raw => .ok raw
  | none => .error (.invalidMintLog "event data is malformed")

/-- `topic_uint`. -/
def topicUint (topic : Text) : Except Raised ℕ := do
  let raw ← bytesFromhex topic
  if raw.length ≠ 32 then
    .error (.invalidMintLog "indexed integer topic is malformed")
  else
    .ok (intFromBytes raw)

variable (primitives : Primitives)

/-- `topic_address`, with its checksum. -/
def topicAddress (topic : Text) : Except Raised Text := do
  let raw ← bytesFromhex topic
  if raw.length ≠ 32 ∨ (raw.take 12).any (· ≠ 0) then
    .error (.invalidMintLog "indexed address topic is malformed")
  else
    primitives.toChecksumAddress (marker ++ hex (raw.drop 12))

/-- `decoded`, which rejects a quantity of zero. -/
def decoded (log : EvmLog) (standard : TokenStandard) (tokenId quantity : ℕ) (recipient : Text)
    (operator : Option Text) (subIndex : ℕ) : Except Raised DecodedMint := do
  if quantity = 0 then
    .error (.invalidMintLog "mint quantity must be positive")
  else
    let collectionAddress ← primitives.toChecksumAddress log.address
    .ok
      { collectionAddress
        tokenStandard := standard
        tokenId
        quantity
        recipient
        operator
        blockNumber := log.blockNumber
        blockHash := log.blockHash
        transactionHash := log.transactionHash
        logIndex := log.logIndex
        subIndex }

/-- The topic holds the zero address. -/
def isFromZero (topic : Text) : Except Raised Bool := do
  let sender ← topicAddress primitives topic
  .ok (lower sender = zeroAddress)

/-- The branch of `decode_mint_log` for ERC-721. -/
def decodeErc721 (log : EvmLog) : Except Raised (List DecodedMint) :=
  match log.topics with
  | [_, sender, recipient, token] => do
      if !(← isFromZero primitives sender) then .ok []
      else
        let tokenId ← topicUint token
        let recipient ← topicAddress primitives recipient
        let mint ← decoded primitives log .erc721 tokenId 1 recipient none 0
        .ok [mint]
  | _ => .ok []

/-- The branch of `decode_mint_log` for a single ERC-1155 token. -/
def decodeErc1155Single (log : EvmLog) : Except Raised (List DecodedMint) :=
  match log.topics with
  | [_, operator, sender, recipient] => do
      if !(← isFromZero primitives sender) then .ok []
      else
        let data ← dataBytes log.data
        let (tokenId, quantity) ← decodeAbi primitives.decodeUint256Pair data
        let recipient ← topicAddress primitives recipient
        let operator ← topicAddress primitives operator
        let mint ← decoded primitives log .erc1155 tokenId quantity recipient (some operator) 0
        .ok [mint]
  | _ => .ok []

/-- The branch of `decode_mint_log` for an ERC-1155 batch, numbered in its order. -/
def decodeErc1155Batch (log : EvmLog) : Except Raised (List DecodedMint) :=
  match log.topics with
  | [_, operator, sender, recipient] => do
      if !(← isFromZero primitives sender) then .ok []
      else
        let data ← dataBytes log.data
        let (tokenIds, quantities) ← decodeAbi primitives.decodeUint256Arrays data
        if tokenIds.length ≠ quantities.length then
          .error (.invalidMintLog "ERC-1155 batch ID and quantity lengths differ")
        else
          let recipient ← topicAddress primitives recipient
          let operator ← topicAddress primitives operator
          (tokenIds.zip quantities).zipIdx.mapM fun ((tokenId, quantity), subIndex) =>
            decoded primitives log .erc1155 tokenId quantity recipient (some operator) subIndex
  | _ => .ok []

/-- The branch of `decode_mint_log` for ERC-2309, up to a limit on the length of the range. -/
def decodeErc2309 (log : EvmLog) (maxErc2309Range : ℕ) : Except Raised (List DecodedMint) :=
  match log.topics with
  | [_, first, sender, recipient] => do
      if !(← isFromZero primitives sender) then .ok []
      else
        let data ← dataBytes log.data
        let toTokenId ← decodeAbi primitives.decodeUint256 data
        let fromTokenId ← topicUint first
        let count := toTokenId + 1 - fromTokenId
        if count = 0 then
          .error (.invalidMintLog "ERC-2309 token range is invalid")
        else if maxErc2309Range < count then
          .error (.consecutiveRangeTooLarge
            s!"ERC-2309 range contains {count} tokens; limit is {maxErc2309Range}")
        else
          let recipient ← topicAddress primitives recipient
          (List.range count).mapM fun subIndex =>
            decoded primitives log .erc2309 (fromTokenId + subIndex) 1 recipient none subIndex
  | _ => .ok []

/-- `decode_mint_log`, by the first topic of the log. -/
def decodeMintLog (log : EvmLog) (maxErc2309Range : ℕ := 5000) :
    Except Raised (List DecodedMint) :=
  match log.removed, log.topics with
  | true, _ => .ok []
  | false, [] => .ok []
  | false, topic :: _ =>
      let signature := lower topic
      if signature = erc721TransferTopic primitives then decodeErc721 primitives log
      else if signature = erc1155SingleTopic primitives then decodeErc1155Single primitives log
      else if signature = erc1155BatchTopic primitives then decodeErc1155Batch primitives log
      else if signature = erc2309ConsecutiveTopic primitives then
        decodeErc2309 primitives log maxErc2309Range
      else .ok []

/-- A mint carries the position of the log that it was decoded from. -/
structure DecodedMint.IsFrom (mint : DecodedMint) (log : EvmLog) : Prop where
  blockNumber : mint.blockNumber = log.blockNumber
  blockHash : mint.blockHash = log.blockHash
  transactionHash : mint.transactionHash = log.transactionHash
  logIndex : mint.logIndex = log.logIndex

/-- Mints of one log are numbered from zero in order. -/
structure Expands (log : EvmLog) (mints : List DecodedMint) : Prop where
  isFrom : ∀ mint ∈ mints, mint.IsFrom log
  numbered : mints.map DecodedMint.subIndex = List.range mints.length

variable {primitives} {log : EvmLog} {mints : List DecodedMint}

theorem decoded_eq_ok {standard : TokenStandard} {tokenId quantity : ℕ} {recipient : Text}
    {operator : Option Text} {subIndex : ℕ} {mint : DecodedMint}
    (returned : decoded primitives log standard tokenId quantity recipient operator subIndex =
      .ok mint) :
    mint.IsFrom log ∧ mint.subIndex = subIndex ∧ mint.tokenId = tokenId ∧
      mint.quantity = quantity ∧ 0 < quantity := by
  simp only [decoded] at returned
  split_ifs at returned with absent
  rcases bind_eq_ok_iff.mp returned with ⟨collectionAddress, _, built⟩
  cases built
  exact ⟨⟨rfl, rfl, rfl, rfl⟩, rfl, rfl, rfl, Nat.pos_of_ne_zero absent⟩

theorem expands_nil (log : EvmLog) : Expands log [] := ⟨by simp, rfl⟩

theorem expands_singleton {mint : DecodedMint} (isFrom : mint.IsFrom log)
    (first : mint.subIndex = 0) : Expands log [mint] :=
  ⟨by simpa using isFrom, by simp [first]⟩

/-- A loop that decodes its elements at their positions numbers them in order. -/
theorem expands_of_mapM {α : Type} {elements : List α} {body : α → Except Raised DecodedMint}
    (mapped : elements.mapM body = .ok mints)
    (isFrom : ∀ {element mint}, body element = .ok mint → mint.IsFrom log)
    (numbered : ∀ {position : ℕ} {element : α} {mint : DecodedMint},
      elements[position]? = some element → body element = .ok mint → mint.subIndex = position) :
    Expands log mints := by
  have related := mapM_eq_ok_iff.mp mapped
  constructor
  · intro mint mint_mem
    rcases exists_mem_of_mapM_eq_ok mapped mint_mem with ⟨element, _, returned⟩
    exact isFrom returned
  · apply List.ext_getElem
    · simp
    · intro position mint_lt range_lt
      have mint_lt : position < mints.length := by simpa using mint_lt
      have element_lt : position < elements.length := related.length_eq ▸ mint_lt
      have returned := (List.forall₂_iff_get.mp related).2 position element_lt mint_lt
      simpa using numbered (List.getElem?_eq_getElem element_lt) returned

/-- A log that is sent by somebody is no mint, and others are decoded further. -/
theorem returns_fromZero {holds : List DecodedMint → Prop} {sender : Text}
    {next : Except Raised (List DecodedMint)} (nothing : holds []) (returns : Returns holds next) :
    Returns holds (isFromZero primitives sender >>= fun zero => if !zero then .ok [] else next) := by
  refine .bind fun zero _ => ?_
  split_ifs
  · exact returns_ok_iff.mpr nothing
  · exact returns

theorem singleton_expands (standard : TokenStandard) (tokenId quantity : ℕ) (recipient : Text)
    (operator : Option Text) :
    Returns (Expands log)
      (decoded primitives log standard tokenId quantity recipient operator 0 >>=
        fun mint => .ok [mint]) := by
  refine .bind fun mint built => returns_ok_iff.mpr ?_
  have facts := decoded_eq_ok built
  exact expands_singleton facts.1 facts.2.1

theorem decodeErc721_expands : Returns (Expands log) (decodeErc721 primitives log) := by
  simp only [decodeErc721]
  split
  · refine returns_fromZero (expands_nil log) ?_
    exact .bind fun tokenId _ => .bind fun recipient _ => singleton_expands _ _ _ _ _
  · exact returns_ok_iff.mpr (expands_nil log)

theorem decodeErc1155Single_expands :
    Returns (Expands log) (decodeErc1155Single primitives log) := by
  simp only [decodeErc1155Single]
  split
  · refine returns_fromZero (expands_nil log) ?_
    exact .bind fun data _ => .bind fun token _ => .bind fun recipient _ =>
      .bind fun operator _ => singleton_expands _ _ _ _ _
  · exact returns_ok_iff.mpr (expands_nil log)

theorem decodeErc1155Batch_expands :
    Returns (Expands log) (decodeErc1155Batch primitives log) := by
  simp only [decodeErc1155Batch]
  split
  · refine returns_fromZero (expands_nil log) (.bind fun data _ => .bind fun tokens _ => ?_)
    split_ifs
    · exact returns_error _
    · refine .bind fun recipient _ => .bind fun operator _ => fun mints mapped => ?_
      refine expands_of_mapM mapped (fun built => (decoded_eq_ok built).1) ?_
      intro position element mint element_eq built
      rw [(decoded_eq_ok built).2.1]
      rw [List.getElem?_zipIdx] at element_eq
      rcases Option.map_eq_some_iff.mp element_eq with ⟨token, _, rfl⟩
      simp
  · exact returns_ok_iff.mpr (expands_nil log)

theorem decodeErc2309_expands {maxErc2309Range : ℕ} :
    Returns (Expands log) (decodeErc2309 primitives log maxErc2309Range) := by
  simp only [decodeErc2309]
  split
  · refine returns_fromZero (expands_nil log)
      (.bind fun data _ => .bind fun toTokenId _ => .bind fun fromTokenId _ => ?_)
    split_ifs
    · exact returns_error _
    · exact returns_error _
    · refine .bind fun recipient _ => fun mints mapped => ?_
      refine expands_of_mapM mapped (fun built => (decoded_eq_ok built).1) ?_
      intro position element mint element_eq built
      rw [(decoded_eq_ok built).2.1]
      rcases List.getElem?_eq_some_iff.mp element_eq with ⟨_, rfl⟩
      simp
  · exact returns_ok_iff.mpr (expands_nil log)

/-- Whatever a log decodes to carries the log's position, numbered in order. -/
theorem decodeMintLog_expands {maxErc2309Range : ℕ}
    (returned : decodeMintLog primitives log maxErc2309Range = .ok mints) :
    Expands log mints := by
  simp only [decodeMintLog] at returned
  split at returned
  · cases returned
    exact expands_nil log
  · cases returned
    exact expands_nil log
  · split_ifs at returned
    · exact decodeErc721_expands _ returned
    · exact decodeErc1155Single_expands _ returned
    · exact decodeErc1155Batch_expands _ returned
    · exact decodeErc2309_expands _ returned
    · cases returned
      exact expands_nil log

theorem Expands.eq_of_subIndex_eq (expands : Expands log mints) {first second : DecodedMint}
    (first_mem : first ∈ mints) (second_mem : second ∈ mints)
    (same : first.subIndex = second.subIndex) : first = second := by
  have distinct : (mints.map DecodedMint.subIndex).Nodup := by
    rw [expands.numbered]
    exact List.nodup_range
  exact List.inj_on_of_nodup_map distinct first_mem second_mem same

end CopyMint
