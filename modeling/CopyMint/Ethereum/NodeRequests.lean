import CopyMint.Ethereum.ProviderErrors
import CopyMint.Library.Quantities

/-!
# The other side of JSON-RPC

A node reads a request for what it asks, and answers with a document that conveys a fact. It may
write quantities with leading zeros, digits of either case, and members that nobody reads. Every
call of the adapter is read as the question that the call is for.
-/

namespace CopyMint

open Hexadecimal

/-- A block as a node finds it. -/
inductive NodeBlock where
  | number (number : ℕ)
  | name (name : Text)
  deriving DecidableEq

/-- Text that is a quantity is the number of a block, and any other text is a name. -/
def NodeBlock.ofText (text : Text) : NodeBlock :=
  match quantityOf text with
  | some found => .number found
  | none => .name text

/-- What a node is asked. -/
inductive NodeRequest where
  | chainId
  | block (tag : NodeBlock)
  | code (address : Text) (block : NodeBlock)
  | storageAt (address slot : Text) (block : NodeBlock)
  | logs (address : Text) (first last : NodeBlock) (topics : List (Option Text))
  | transaction (transactionHash : Text)
  | receipt (transactionHash : Text)
  | trace (transactionHash : Text)
  deriving DecidableEq

namespace NodeRequest

/-- What there is to know about a request. -/
abbrev Fact : NodeRequest → Type
  | chainId => ℕ
  | block _ => BlockReference
  | code _ _ => Bytes
  | storageAt _ _ _ => BytesOf 32
  | logs _ _ _ _ => List EvmLog
  | transaction _ => EvmTransaction
  | receipt _ => EvmReceipt
  | trace _ => List (Text × Json)

section Reading

/-- A topic of a filter, or any topic. -/
def readTopic : Json → Option (Option Text)
  | .null => some none
  | .str topic => some (some topic)
  | _ => none

/-- The topics of a filter, which may be left out. -/
def readTopics : Option Json → Option (List (Option Text))
  | none => some []
  | some (.arr topics) => topics.mapM readTopic
  | some _ => none

/-- The filter of a request for logs. -/
def readFilter (query : List (Text × Json)) : Option NodeRequest :=
  match query.lookup "address".toList, query.lookup "fromBlock".toList,
      query.lookup "toBlock".toList with
  | some (.str address), some (.str first), some (.str last) =>
      (readTopics (query.lookup "topics".toList)).map
        (.logs address (.ofText first) (.ofText last))
  | _, _, _ => none

/-- What a method asks with its parameters. -/
def read (method : Text) (params : List Json) : Option NodeRequest :=
  match String.ofList method, params with
  | "eth_chainId", [] => some .chainId
  | "eth_getBlockByNumber", [.str tag, .bool _] => some (.block (.ofText tag))
  | "eth_getCode", [.str address, .str tag] => some (.code address (.ofText tag))
  | "eth_getStorageAt", [.str address, .str slot, .str tag] =>
      some (.storageAt address slot (.ofText tag))
  | "eth_getLogs", [.obj query] => readFilter query
  | "eth_getTransactionByHash", [.str transactionHash] => some (.transaction transactionHash)
  | "eth_getTransactionReceipt", [.str transactionHash] => some (.receipt transactionHash)
  | "debug_traceTransaction", [.str transactionHash, .obj _] => some (.trace transactionHash)
  | _, _ => none

/-- The number of a request and what it asks. -/
def ofJson : Json → Option (ℕ × NodeRequest)
  | .obj members =>
      match members.lookup "id".toList, members.lookup "method".toList,
          members.lookup "params".toList with
      | some (.int (.ofNat requestId)), some (.str method), some (.arr params) =>
          (read method params).map (requestId, ·)
      | _, _, _ => none
  | _ => none

end Reading

section Conveying

/-- A document that is a quantity. -/
def IsQuantity (number : ℕ) (value : Option Json) : Prop :=
  ∃ text, value = some (.str text) ∧ quantityOf text = some number

/-- The digits of bytes in either case, behind the marker. -/
def IsData (bytes : Bytes) (document : Json) : Prop :=
  ∃ digits, document = .str (marker ++ digits) ∧ lower digits = hex bytes

/-- A member that may be null or missing. -/
def IsOptional {α : Type} (conveys : α → Option Json → Prop) :
    Option α → Option Json → Prop
  | none, value => IsMissing value
  | some fact, value => conveys fact value

/-- The member is the text. -/
def IsText (text : Text) (value : Option Json) : Prop := value = some (.str text)

/-- The members tell the block. -/
structure ConveysBlock (block : BlockReference) (members : List (Text × Json)) : Prop where
  blockHash : IsText block.blockHash (members.lookup "hash".toList)
  number : IsQuantity block.number (members.lookup "number".toList)

/-- The members tell the log. -/
structure ConveysLog (log : EvmLog) (members : List (Text × Json)) : Prop where
  address : IsText log.address (members.lookup "address".toList)
  topics : members.lookup "topics".toList = some (.arr (log.topics.map .str))
  data : IsText log.data (members.lookup "data".toList)
  blockNumber : IsQuantity log.blockNumber (members.lookup "blockNumber".toList)
  blockHash : IsText log.blockHash (members.lookup "blockHash".toList)
  transactionHash : IsText log.transactionHash (members.lookup "transactionHash".toList)
  logIndex : IsQuantity log.logIndex (members.lookup "logIndex".toList)
  removed : (members.lookup "removed".toList).getD (.bool false) = .bool log.removed

/-- The members tell the transaction. -/
structure ConveysTransaction (transaction : EvmTransaction) (members : List (Text × Json)) :
    Prop where
  transactionHash : IsText transaction.transactionHash (members.lookup "hash".toList)
  sender : IsText transaction.sender (members.lookup "from".toList)
  recipient : IsOptional IsText transaction.recipient (members.lookup "to".toList)
  valueWei : IsQuantity transaction.valueWei (members.lookup "value".toList)
  inputData : IsText transaction.inputData (members.lookup "input".toList)
  blockNumber : IsQuantity transaction.blockNumber (members.lookup "blockNumber".toList)

/-- The members tell the receipt. -/
structure ConveysReceipt (receipt : EvmReceipt) (members : List (Text × Json)) : Prop where
  transactionHash : IsText receipt.transactionHash (members.lookup "transactionHash".toList)
  blockNumber : IsQuantity receipt.blockNumber (members.lookup "blockNumber".toList)
  blockHash : IsText receipt.blockHash (members.lookup "blockHash".toList)
  status : IsQuantity receipt.status (members.lookup "status".toList)
  gasUsed : IsQuantity receipt.gasUsed (members.lookup "gasUsed".toList)
  effectiveGasPrice : IsOptional IsQuantity receipt.effectiveGasPrice
    (members.lookup "effectiveGasPrice".toList)

/-- A document with which a node conveys a fact. -/
def Conveys : (asked : NodeRequest) → asked.Fact → Json → Prop
  | chainId, number, result => IsQuantity number (some result)
  | block _, fact, result => ∃ members, result = .obj members ∧ ConveysBlock fact members
  | code _ _, bytes, result => IsData bytes result
  | storageAt _ _ _, value, result => IsData value.val result
  | logs _ _ _ _, facts, result => ∃ items, result = .arr items ∧
      List.Forall₂ (fun item fact => ∃ members, item = .obj members ∧ ConveysLog fact members)
        items facts
  | transaction _, fact, result => ∃ members, result = .obj members ∧
      ConveysTransaction fact members
  | receipt _, fact, result => ∃ members, result = .obj members ∧ ConveysReceipt fact members
  | trace _, members, result => result = .obj members

/-- A result that conveys what there is to know, or null where there is nothing. -/
def Tells (asked : NodeRequest) (known : Option asked.Fact) (result : Json) : Prop :=
  match known with
  | some fact => asked.Conveys fact result
  | none => result = .null

end Conveying

section Writing

/-- A quantity as a node writes it. -/
def writeQuantity (number : ℕ) : Json := .str (marker ++ Nat.toDigits 16 number)

/-- Bytes as a node writes them. -/
def writeData (bytes : Bytes) : Json := .str (marker ++ hex bytes)

/-- A fact that may be missing. -/
def writeOptional {α : Type} (write : α → Json) : Option α → Json
  | none => .null
  | some fact => write fact

/-- A log as a node writes it. -/
def writeLog (log : EvmLog) : Json := .obj
  [("address".toList, .str log.address), ("topics".toList, .arr (log.topics.map .str)),
    ("data".toList, .str log.data), ("blockNumber".toList, writeQuantity log.blockNumber),
    ("blockHash".toList, .str log.blockHash),
    ("transactionHash".toList, .str log.transactionHash),
    ("logIndex".toList, writeQuantity log.logIndex), ("removed".toList, .bool log.removed)]

/-- The document that a node writes for a fact. -/
def write : (asked : NodeRequest) → asked.Fact → Json
  | chainId, number => writeQuantity number
  | block _, fact => .obj
      [("number".toList, writeQuantity fact.number), ("hash".toList, .str fact.blockHash)]
  | code _ _, bytes => writeData bytes
  | storageAt _ _ _, value => writeData value.val
  | logs _ _ _ _, facts => .arr (facts.map writeLog)
  | transaction _, fact => .obj
      [("hash".toList, .str fact.transactionHash), ("from".toList, .str fact.sender),
        ("to".toList, writeOptional .str fact.recipient),
        ("value".toList, writeQuantity fact.valueWei), ("input".toList, .str fact.inputData),
        ("blockNumber".toList, writeQuantity fact.blockNumber)]
  | receipt _, fact => .obj
      [("transactionHash".toList, .str fact.transactionHash),
        ("blockNumber".toList, writeQuantity fact.blockNumber),
        ("blockHash".toList, .str fact.blockHash), ("status".toList, writeQuantity fact.status),
        ("gasUsed".toList, writeQuantity fact.gasUsed),
        ("effectiveGasPrice".toList, writeOptional writeQuantity fact.effectiveGasPrice)]
  | trace _, members => .obj members

theorem isQuantity_writeQuantity (number : ℕ) : IsQuantity number (some (writeQuantity number)) :=
  ⟨_, rfl, quantityOf_toDigits number⟩

theorem isData_writeData (bytes : Bytes) : IsData bytes (writeData bytes) :=
  ⟨_, rfl, lower_hex bytes⟩

theorem isText_str (text : Text) : IsText text (some (.str text)) := rfl

theorem isOptional_writeOptional {α : Type} {conveys : α → Option Json → Prop}
    {writer : α → Json} (conveyed : ∀ fact, conveys fact (some (writer fact)))
    (fact : Option α) : IsOptional conveys fact (some (writeOptional writer fact)) := by
  cases fact with
  | none => exact .inr rfl
  | some fact => exact conveyed fact

/-- Every fact is conveyed by the document that is written for it. -/
theorem conveys_write (asked : NodeRequest) (fact : asked.Fact) :
    asked.Conveys fact (asked.write fact) := by
  cases asked with
  | chainId => exact isQuantity_writeQuantity fact
  | block => exact ⟨_, rfl, rfl, isQuantity_writeQuantity fact.number⟩
  | code => exact isData_writeData fact
  | storageAt => exact isData_writeData fact.val
  | logs =>
      refine ⟨_, rfl, List.forall₂_map_left_iff.mpr (List.forall₂_same.mpr fun log _ => ?_)⟩
      exact ⟨_, rfl, rfl, rfl, rfl, isQuantity_writeQuantity log.blockNumber, rfl, rfl,
        isQuantity_writeQuantity log.logIndex, rfl⟩
  | transaction =>
      exact ⟨_, rfl, rfl, rfl, isOptional_writeOptional isText_str fact.recipient,
        isQuantity_writeQuantity fact.valueWei, rfl, isQuantity_writeQuantity fact.blockNumber⟩
  | receipt =>
      exact ⟨_, rfl, rfl, isQuantity_writeQuantity fact.blockNumber, rfl,
        isQuantity_writeQuantity fact.status, isQuantity_writeQuantity fact.gasUsed,
        isOptional_writeOptional isQuantity_writeQuantity fact.effectiveGasPrice⟩
  | trace => exact rfl

end Writing

end NodeRequest

end CopyMint
