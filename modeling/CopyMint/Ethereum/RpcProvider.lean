import CopyMint.Ethereum.Ports
import CopyMint.Library.OrderedChecks
import CopyMint.Library.PythonText

/-!
# The adapter for JSON-RPC

Each method sends one request and reads its answer. What the scanner and the enricher
handle of a failed request is a provider error, and the adapter raises one for a transport
failure, a status other than success, an error of the node and a result of another shape.
It reads on where a body is no document, a member is missing or a quantity has no digits,
and then another exception passes by both callers.
-/

namespace CopyMint

open Hexadecimal Fallible

/-- What `client.post` raises. -/
inductive HttpxError where
  | timeoutException
  | networkError
  /-- A failure of the protocol, the proxy, or the content encoding. -/
  | other
  deriving DecidableEq

/-- What a node returns. -/
structure HttpResponse where
  statusCode : ℕ
  content : Bytes
  deriving DecidableEq

/-- `Response.is_success`. -/
def HttpResponse.isSuccess (response : HttpResponse) : Bool :=
  200 ≤ response.statusCode && response.statusCode ≤ 299

/-- The exceptions of the adapter. -/
inductive AdapterFailure where
  | providerError (error : ProviderError)
  | httpxError (error : HttpxError)
  /-- `response.json()` on a body that is no document. -/
  | undecodable
  | valueError
  | keyError (name : Text)
  | typeError
  deriving DecidableEq

/-- `except ProviderError`. -/
def IsProviderError : AdapterFailure → Prop
  | .providerError _ => True
  | _ => False

/-- The third-party functions of the adapter. -/
structure HttpClient where
  post : Text → Json → Except HttpxError HttpResponse
  /-- `Response.json`, which raises where there is no document. -/
  json : Bytes → Option Json
  unicode : UnicodeData

/-- The provider with the number of its last request. -/
structure JsonRpcEvmProvider where
  endpoint : Text
  requestId : ℕ
  deriving DecidableEq

/-- `hex(value)`. -/
def hexInt (value : ℤ) : Text :=
  if value < 0 then '-' :: marker ++ Nat.toDigits 16 value.natAbs
  else marker ++ Nat.toDigits 16 value.natAbs

/-- A block by its number or by a name such as `latest`. -/
inductive BlockArgument where
  | number (value : ℤ)
  | name (tag : Text)
  deriving DecidableEq

/-- A block as a parameter. -/
def BlockArgument.text : BlockArgument → Text
  | number value => hexInt value
  | name tag => tag

/-- A provider error that is neither transient nor asks for a smaller range. -/
def invalid {α : Type} (code : String) : Except AdapterFailure α :=
  .error (.providerError ⟨code, false, false⟩)

namespace HttpClient

variable (client : HttpClient)

/-- `quantity(value, field)`. -/
def quantity (value : Option Json) (field : String) : Except AdapterFailure ℕ :=
  match value with
  | some (.str text) =>
      if marker.isPrefixOf text then
        match client.unicode.int .sixteen text with
        | some number => .ok number.toNat
        | none => .error .valueError
      else invalid ("invalid_" ++ field)
  | _ => invalid ("invalid_" ++ field)

/-- `str(members[name])`. -/
def text (members : List (Text × Json)) (name : String) : Except AdapterFailure Text :=
  match members.lookup name.toList with
  | some value => .ok (client.unicode.str value)
  | none => .error (.keyError name.toList)

/-- The guarded block of `_rpc`. -/
def receive (method : Text) : Except HttpxError HttpResponse → Except AdapterFailure HttpResponse
  | .error .other => .error (.httpxError .other)
  | .error _ => .error (.providerError ⟨"transport", true, false⟩)
  | .ok response =>
      if response.isSuccess then .ok response
      else
        let status := response.statusCode
        let splitRange : Bool := method = "eth_getLogs".toList ∧ status = 403
        .error (.providerError
          ⟨"http_" ++ String.ofList (Nat.toDigits 10 status),
            splitRange || status = 429 || 500 ≤ status, splitRange⟩)

/-- Lists and dictionaries have no hash and cannot be looked up in a set. -/
def isHashable : Option Json → Bool
  | some (.arr _) | some (.obj _) => false
  | _ => true

/-- `rpc_code in {-32005, -32602}`, where a number with a fraction may be equal as well. -/
def isSplitCode : Option Json → Bool
  | some (.int code) => code = -32005 || code = -32602
  | some (.real code) => code = "-32005.0".toList || code = "-32602.0".toList
  | _ => false

/-- What `_rpc` makes of the document that it has received. -/
def readPayload : Json → Except AdapterFailure Json
  | .obj payload =>
      match payload.lookup "error".toList with
      | some (.obj error) =>
          let rpcCode := error.lookup "code".toList
          if isHashable rpcCode then
            let split := isSplitCode rpcCode
            .error (.providerError
              ⟨"rpc_" ++ String.ofList (client.unicode.strGet rpcCode), split, split⟩)
          else .error .typeError
      | _ =>
          match payload.lookup "result".toList with
          | some result => .ok result
          | none => invalid "missing_result"
  | _ => invalid "invalid_response"

/-- `_rpc` on the answer to its request. -/
def readAnswer (method : Text) (answer : Except HttpxError HttpResponse) :
    Except AdapterFailure Json := do
  let response ← receive method answer
  match client.json response.content with
  | some payload => client.readPayload payload
  | none => .error .undecodable

/-- The request that `_rpc` sends. -/
def request (requestId : ℕ) (method : Text) (params : List Json) : Json := .obj
  [("jsonrpc".toList, .str "2.0".toList), ("id".toList, .int requestId),
    ("method".toList, .str method), ("params".toList, .arr params)]

/-- `_rpc`. -/
def rpc (method : Text) (params : List Json) (provider : JsonRpcEvmProvider) :
    JsonRpcEvmProvider × Except AdapterFailure Json :=
  let provider := { provider with requestId := provider.requestId + 1 }
  let answer := client.post provider.endpoint (request provider.requestId method params)
  (provider, client.readAnswer method answer)

/-- A call of `_rpc` and what follows it. -/
def call {α : Type} (method : String) (params : List Json) (read : Json → Except AdapterFailure α)
    (provider : JsonRpcEvmProvider) : JsonRpcEvmProvider × Except AdapterFailure α :=
  let (provider, result) := client.rpc method.toList params provider
  (provider, result >>= read)

/-- `chain_id`. -/
def chainId : JsonRpcEvmProvider → JsonRpcEvmProvider × Except AdapterFailure ℕ :=
  client.call "eth_chainId" [] fun result => client.quantity (some result) "chain_id"

/-- What `block` makes of the result. -/
def readBlock : Json → Except AdapterFailure BlockReference
  | .obj result =>
      match result.lookup "hash".toList with
      | some (.str blockHash) => do
          let number ← client.quantity (result.lookup "number".toList) "block_number"
          .ok { number, blockHash }
      | _ => invalid "invalid_block"
  | _ => invalid "invalid_block"

/-- `block`. -/
def block (tag : BlockArgument) :
    JsonRpcEvmProvider → JsonRpcEvmProvider × Except AdapterFailure BlockReference :=
  client.call "eth_getBlockByNumber" [.str tag.text, .bool false] client.readBlock

/-- What `code` makes of the result. -/
def readCode : Json → Except AdapterFailure Bytes
  | .str result =>
      if marker.isPrefixOf result then
        match fromhex (result.drop 2) with
        | some code => .ok code
        | none => invalid "invalid_code"
      else invalid "invalid_code"
  | _ => invalid "invalid_code"

/-- `code`. -/
def code (address : Text) (block : BlockArgument) :
    JsonRpcEvmProvider → JsonRpcEvmProvider × Except AdapterFailure Bytes :=
  client.call "eth_getCode" [.str address, .str block.text] readCode

/-- What `storage_at` makes of the result. -/
def readStorage : Json → Except AdapterFailure Bytes
  | .str result =>
      if marker.isPrefixOf result then
        match fromhex (result.drop 2) with
        | some value => if value.length = 32 then .ok value else invalid "invalid_storage"
        | none => invalid "invalid_storage"
      else invalid "invalid_storage"
  | _ => invalid "invalid_storage"

/-- `storage_at`. -/
def storageAt (address slot : Text) (block : BlockArgument) :
    JsonRpcEvmProvider → JsonRpcEvmProvider × Except AdapterFailure Bytes :=
  client.call "eth_getStorageAt" [.str address, .str slot, .str block.text] readStorage

/-- What `logs` makes of one item of the result. -/
def readLog : Json → Except AdapterFailure EvmLog
  | .obj item =>
      match item.lookup "topics".toList with
      | some (.arr topics) => do
          let address ← client.text item "address"
          let data ← client.text item "data"
          let blockNumber ← client.quantity (item.lookup "blockNumber".toList) "block_number"
          let blockHash ← client.text item "blockHash"
          let transactionHash ← client.text item "transactionHash"
          let logIndex ← client.quantity (item.lookup "logIndex".toList) "log_index"
          .ok
            { address, topics := topics.map client.unicode.str, data, blockNumber, blockHash
              transactionHash, logIndex
              removed := ((item.lookup "removed".toList).getD (.bool false)).truth }
      | _ => invalid "invalid_log"
  | _ => invalid "invalid_log"

/-- What `logs` makes of the result. -/
def readLogs : Json → Except AdapterFailure (List EvmLog)
  | .arr items => items.mapM client.readLog
  | _ => invalid "invalid_logs"

/-- A topic of a filter. -/
def topic : Option Text → Json
  | some value => .str value
  | none => .null

/-- The filter that `logs` asks with. -/
def logsQuery (address : Text) (startBlock endBlock : ℤ) (topics : List (Option Text)) : Json :=
  .obj <|
    [("address".toList, .str address), ("fromBlock".toList, .str (hexInt startBlock)),
      ("toBlock".toList, .str (hexInt endBlock))] ++
      if topics = [] then [] else [("topics".toList, .arr (topics.map topic))]

/-- `logs`. -/
def logs (address : Text) (startBlock endBlock : ℤ) (topics : List (Option Text))
    (provider : JsonRpcEvmProvider) :
    JsonRpcEvmProvider × Except AdapterFailure (List EvmLog) :=
  if startBlock < 0 ∨ endBlock < startBlock then (provider, .error .valueError)
  else
    let query := logsQuery address startBlock endBlock topics
    client.call "eth_getLogs" [query] client.readLogs provider

/-- `str(recipient) if recipient is not None else None`. -/
def optionalText : Option Json → Option Text
  | none | some .null => none
  | some value => some (client.unicode.str value)

/-- What `transaction` makes of the result. -/
def readTransaction : Json → Except AdapterFailure EvmTransaction
  | .obj result => do
      let recipient := client.optionalText (result.lookup "to".toList)
      let transactionHash ← client.text result "hash"
      let sender ← client.text result "from"
      let valueWei ← client.quantity (result.lookup "value".toList) "transaction_value"
      let inputData ← client.text result "input"
      let blockNumber ← client.quantity (result.lookup "blockNumber".toList) "block_number"
      .ok { transactionHash, sender, recipient, valueWei, inputData, blockNumber }
  | _ => invalid "transaction_not_found"

/-- `transaction`. -/
def transaction (transactionHash : Text) :
    JsonRpcEvmProvider → JsonRpcEvmProvider × Except AdapterFailure EvmTransaction :=
  client.call "eth_getTransactionByHash" [.str transactionHash] client.readTransaction

/-- `quantity(value, field) if value is not None else None`. -/
def optionalQuantity (value : Option Json) (field : String) : Except AdapterFailure (Option ℕ) :=
  match value with
  | none | some .null => .ok none
  | some value => (client.quantity (some value) field).map some

/-- What `receipt` makes of the result. -/
def readReceipt : Json → Except AdapterFailure EvmReceipt
  | .obj result => do
      let transactionHash ← client.text result "transactionHash"
      let blockNumber ← client.quantity (result.lookup "blockNumber".toList) "block_number"
      let blockHash ← client.text result "blockHash"
      let status ← client.quantity (result.lookup "status".toList) "receipt_status"
      let gasUsed ← client.quantity (result.lookup "gasUsed".toList) "gas_used"
      let effectiveGasPrice ← client.optionalQuantity (result.lookup "effectiveGasPrice".toList)
        "effective_gas_price"
      .ok { transactionHash, blockNumber, blockHash, status, gasUsed, effectiveGasPrice }
  | _ => .error (.providerError ⟨"receipt_not_found", true, false⟩)

/-- `receipt`. -/
def receipt (transactionHash : Text) :
    JsonRpcEvmProvider → JsonRpcEvmProvider × Except AdapterFailure EvmReceipt :=
  client.call "eth_getTransactionReceipt" [.str transactionHash] client.readReceipt

/-- What `trace_transaction` makes of the result. -/
def readTrace : Json → Except AdapterFailure (List (Text × Json))
  | .obj result => .ok result
  | _ => invalid "invalid_trace"

/-- `trace_transaction`. -/
def traceTransaction (transactionHash : Text) :
    JsonRpcEvmProvider → JsonRpcEvmProvider × Except AdapterFailure (List (Text × Json)) :=
  client.call "debug_traceTransaction"
    [.str transactionHash,
      .obj [("tracer".toList, .str "callTracer".toList), ("timeout".toList, .str "10s".toList)]]
    readTrace

end HttpClient

end CopyMint
