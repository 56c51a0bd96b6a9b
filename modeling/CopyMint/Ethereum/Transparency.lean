import CopyMint.Ethereum.NodeRequests

/-!
# The adapter is transparent

A node that does not refuse a request tells what is known at that moment about what it was asked.
Then a call returns a value exactly if the value is known, for the arguments of the call and not
for others: nothing is lost or changed between the caller and the node on the way there or back.
-/

namespace CopyMint

open Hexadecimal Fallible

/-- The block that a node finds for an argument. -/
def BlockArgument.located : BlockArgument → NodeBlock
  | .number value => if value < 0 then .name (hexInt value) else .number value.toNat
  | .name tag => .ofText tag

namespace ProviderCall

section Parts

/-- What a call asks. -/
def asked : ProviderCall → NodeRequest
  | chainId => .chainId
  | block tag => .block tag.located
  | code address tag => .code address tag.located
  | storageAt address slot tag => .storageAt address slot tag.located
  | logs address startBlock endBlock topics =>
      .logs address (.number startBlock.toNat) (.number endBlock.toNat) topics
  | transaction transactionHash => .transaction transactionHash
  | receipt transactionHash => .receipt transactionHash
  | traceTransaction transactionHash => .trace transactionHash

/-- A fact as the value that the call returns. -/
def value : (call : ProviderCall) → call.asked.Fact → call.Value
  | chainId, fact => fact
  | block _, fact => fact
  | code _ _, fact => fact
  | storageAt _ _ _, fact => fact.val
  | logs _ _ _ _, fact => fact
  | transaction _, fact => fact
  | receipt _, fact => fact
  | traceTransaction _, fact => fact

/-- The method that a call asks for. -/
def method : ProviderCall → String
  | chainId => "eth_chainId"
  | block _ => "eth_getBlockByNumber"
  | code _ _ => "eth_getCode"
  | storageAt _ _ _ => "eth_getStorageAt"
  | logs _ _ _ _ => "eth_getLogs"
  | transaction _ => "eth_getTransactionByHash"
  | receipt _ => "eth_getTransactionReceipt"
  | traceTransaction _ => "debug_traceTransaction"

/-- The parameters that a call asks with. -/
def params : ProviderCall → List Json
  | chainId => []
  | block tag => [.str tag.text, .bool false]
  | code address tag => [.str address, .str tag.text]
  | storageAt address slot tag => [.str address, .str slot, .str tag.text]
  | logs address startBlock endBlock topics =>
      [HttpClient.logsQuery address startBlock endBlock topics]
  | transaction transactionHash => [.str transactionHash]
  | receipt transactionHash => [.str transactionHash]
  | traceTransaction transactionHash =>
      [.str transactionHash,
        .obj [("tracer".toList, .str "callTracer".toList), ("timeout".toList, .str "10s".toList)]]

variable (client : HttpClient)

/-- What a call makes of the result. -/
def readResult : (call : ProviderCall) → Json → Except AdapterFailure call.Value
  | chainId => fun result => client.quantity (some result) "chain_id"
  | block _ => client.readBlock
  | code _ _ => HttpClient.readCode
  | storageAt _ _ _ => HttpClient.readStorage
  | logs _ _ _ _ => client.readLogs
  | transaction _ => client.readTransaction
  | receipt _ => client.readReceipt
  | traceTransaction _ => HttpClient.readTrace

/-- What a call sends as a request of a given number. -/
def request (call : ProviderCall) (requestId : ℕ) : Json :=
  HttpClient.request requestId call.method.toList call.params

/-- A call sends its request and reads the result, unless the caller asks for no range. -/
theorem run_eq_call {call : ProviderCall} (valid : ¬call.InvalidRange)
    (provider : JsonRpcEvmProvider) :
    call.run client provider =
      client.call call.method call.params (call.readResult client) provider := by
  cases call with
  | logs => exact if_neg valid
  | chainId | block | code | storageAt | transaction | receipt | traceTransaction => rfl

end Parts

section Requests

theorem ofText_number (number : ℕ) : NodeBlock.ofText (hexInt number) = .number number := by
  have means : quantityOf (hexInt number) = some number := quantityOf_toDigits number
  simp only [NodeBlock.ofText, means]

/-- A node finds the block that an argument is for. -/
theorem ofText_text (tag : BlockArgument) : NodeBlock.ofText tag.text = tag.located := by
  cases tag with
  | name tag => rfl
  | number value =>
      simp only [BlockArgument.text, BlockArgument.located]
      split_ifs with negative
      · have unmarked : quantityOf (hexInt value) = none := by
          simp only [hexInt, if_pos negative]
          rfl
        simp only [NodeBlock.ofText, unmarked]
      · lift value to ℕ using not_lt.mp negative
        exact ofText_number value

theorem mapM_readTopic (topics : List (Option Text)) :
    (topics.map HttpClient.topic).mapM NodeRequest.readTopic = some topics := by
  induction topics with
  | nil => rfl
  | cons topic topics ih =>
      rw [List.map_cons, List.mapM_cons, ih]
      cases topic <;> rfl

theorem readFilter_logsQuery (address : Text) (first last : ℕ) (topics : List (Option Text)) :
    (NodeRequest.read "eth_getLogs".toList [HttpClient.logsQuery address first last topics]) =
      some (.logs address (.number first) (.number last) topics) := by
  have read (filter : List (Text × Json)) :
      NodeRequest.readFilter ([("address".toList, .str address),
          ("fromBlock".toList, .str (hexInt first)), ("toBlock".toList, .str (hexInt last))] ++
            filter) =
        (NodeRequest.readTopics (filter.lookup "topics".toList)).map
          (.logs address (.ofText (hexInt first)) (.ofText (hexInt last))) := rfl
  have filtered : NodeRequest.readTopics (List.lookup "topics".toList
      (if topics = [] then [] else [("topics".toList, .arr (topics.map HttpClient.topic))])) =
        some topics := by
    split_ifs with empty
    · rw [empty]
      rfl
    · exact mapM_readTopic topics
  have asks (query : List (Text × Json)) :
      NodeRequest.read "eth_getLogs".toList [.obj query] = NodeRequest.readFilter query := by
    simp only [NodeRequest.read, String.ofList_toList]
  rw [HttpClient.logsQuery, asks, read, filtered, ofText_number, ofText_number]
  rfl

/-- A node reads a request as what the call asks. -/
theorem ofJson_request {call : ProviderCall} (valid : ¬call.InvalidRange) (requestId : ℕ) :
    NodeRequest.ofJson (call.request requestId) = some (requestId, call.asked) := by
  have read : NodeRequest.read call.method.toList call.params = some call.asked := by
    cases call with
    | logs address startBlock endBlock topics =>
        simp only [InvalidRange, not_or, not_lt] at valid
        lift startBlock to ℕ using valid.1
        lift endBlock to ℕ using valid.1.trans valid.2
        exact readFilter_logsQuery address startBlock endBlock topics
    | chainId | block | code | storageAt | transaction | receipt | traceTransaction =>
        simp [NodeRequest.read, method, params, asked, ofText_text]
  have members : NodeRequest.ofJson (call.request requestId) =
      (NodeRequest.read call.method.toList call.params).map (requestId, ·) := rfl
  rw [members, read]
  rfl

end Requests

section Results

open NodeRequest

variable {client : HttpClient} {members : List (Text × Json)}

theorem quantity_of_isQuantity {number : ℕ} {value : Option Json}
    (conveyed : IsQuantity number value) (field : String) :
    client.quantity value field = .ok number := by
  rcases conveyed with ⟨text, rfl, means⟩
  rcases quantityOf_eq_some_iff.mp means with ⟨digits, rfl, _⟩
  exact quantity_eq_ok_iff.mpr
    ⟨_, rfl, List.prefix_append _ _, int_of_quantityOf client.unicode means⟩

theorem text_of_isText {text : Text} {name : String}
    (conveyed : IsText text (members.lookup name.toList)) :
    client.text members name = .ok text := by
  have found : members.lookup name.toList = some (.str text) := conveyed
  simp only [HttpClient.text, found]
  rfl

theorem optionalText_of_isOptional {text : Option Text} {value : Option Json}
    (conveyed : IsOptional IsText text value) : client.optionalText value = text := by
  cases text with
  | none => rcases conveyed with rfl | rfl <;> rfl
  | some text =>
      have found : value = some (.str text) := conveyed
      rw [found]
      rfl

theorem optionalQuantity_of_isOptional {number : Option ℕ} {value : Option Json}
    (conveyed : IsOptional IsQuantity number value) (field : String) :
    client.optionalQuantity value field = .ok number := by
  cases number with
  | none => rcases conveyed with rfl | rfl <;> rfl
  | some number =>
      have read : client.quantity value field = .ok number :=
        quantity_of_isQuantity conveyed field
      rcases conveyed with ⟨text, rfl, _⟩
      simp only [HttpClient.optionalQuantity, read]
      rfl

theorem fromhex_of_isData {bytes : Bytes} {document : Json} (conveyed : IsData bytes document) :
    ∃ text, document = .str text ∧ marker.isPrefixOf text = true ∧
      fromhex (text.drop 2) = some bytes := by
  rcases conveyed with ⟨digits, rfl, written⟩
  exact ⟨_, rfl, List.isPrefixOf_iff_prefix.mpr (List.prefix_append _ _),
    fromhex_of_lower written⟩

theorem readLog_of_conveys {log : EvmLog} (conveyed : ConveysLog log members) :
    client.readLog (.obj members) = .ok log := by
  have topics : log.topics.map (client.unicode.str ∘ .str) = log.topics := List.map_id _
  simp only [HttpClient.readLog, conveyed.topics, text_of_isText conveyed.address,
    text_of_isText conveyed.data, quantity_of_isQuantity conveyed.blockNumber,
    text_of_isText conveyed.blockHash, text_of_isText conveyed.transactionHash,
    quantity_of_isQuantity conveyed.logIndex, conveyed.removed, ok_bind, List.map_map, topics]
  rfl

/-- A fact that a result conveys is what the call reads. -/
theorem readResult_of_conveys {call : ProviderCall} {fact : call.asked.Fact} {result : Json}
    (conveyed : call.asked.Conveys fact result) :
    call.readResult client result = .ok (call.value fact) := by
  cases call with
  | chainId => exact quantity_of_isQuantity conveyed _
  | block =>
      rcases conveyed with ⟨members, rfl, conveyed⟩
      have blockHash : members.lookup "hash".toList = some (.str fact.blockHash) :=
        conveyed.blockHash
      simp only [readResult, HttpClient.readBlock, blockHash,
        quantity_of_isQuantity conveyed.number, ok_bind]
      rfl
  | code =>
      rcases fromhex_of_isData conveyed with ⟨text, rfl, marked, read⟩
      simp only [readResult, HttpClient.readCode, marked, if_true, read]
      rfl
  | storageAt =>
      rcases fromhex_of_isData conveyed with ⟨text, rfl, marked, read⟩
      simp only [readResult, HttpClient.readStorage, marked, if_true, read, fact.property]
      rfl
  | logs =>
      rcases conveyed with ⟨items, rfl, conveyed⟩
      refine mapM_eq_ok_iff.mpr (conveyed.imp ?_)
      rintro _ log ⟨members, rfl, conveyed⟩
      exact readLog_of_conveys conveyed
  | transaction =>
      rcases conveyed with ⟨members, rfl, conveyed⟩
      simp only [readResult, HttpClient.readTransaction, text_of_isText conveyed.transactionHash,
        text_of_isText conveyed.sender, optionalText_of_isOptional conveyed.recipient,
        quantity_of_isQuantity conveyed.valueWei, text_of_isText conveyed.inputData,
        quantity_of_isQuantity conveyed.blockNumber, ok_bind]
      rfl
  | receipt =>
      rcases conveyed with ⟨members, rfl, conveyed⟩
      simp only [readResult, HttpClient.readReceipt, text_of_isText conveyed.transactionHash,
        quantity_of_isQuantity conveyed.blockNumber, text_of_isText conveyed.blockHash,
        quantity_of_isQuantity conveyed.status, quantity_of_isQuantity conveyed.gasUsed,
        optionalQuantity_of_isOptional conveyed.effectiveGasPrice, ok_bind]
      rfl
  | traceTransaction =>
      cases conveyed
      rfl

/-- No call takes null for a value. -/
theorem readResult_null (client : HttpClient) (call : ProviderCall) :
    ∃ error, call.readResult client .null = .error (.providerError error) := by
  cases call <;> exact ⟨_, rfl⟩

end Results

end ProviderCall

/-- Where the node at an endpoint does not refuse a request, it tells what is known of it. -/
def HttpClient.ReachesNode (client : HttpClient) (endpoint : Text)
    (known : ℕ → (asked : NodeRequest) → Option asked.Fact) : Prop :=
  ∀ request result, AnswerResult client (client.post endpoint request) result →
    ∃ moment asked, NodeRequest.ofJson request = some (moment, asked) ∧
      asked.Tells (known moment asked) result

namespace ProviderCall

/-- The request that a call sends next is answered with a result. -/
def IsAnswered (client : HttpClient) (provider : JsonRpcEvmProvider) (call : ProviderCall) : Prop :=
  ∃ result, AnswerResult client
    (client.post provider.endpoint (call.request (provider.requestId + 1))) result

variable {client : HttpClient} {provider : JsonRpcEvmProvider}
  {known : ℕ → (asked : NodeRequest) → Option asked.Fact} {call : ProviderCall}

/-- A result of a call is what is known of it, or no value. -/
theorem readResult_of_reachesNode (reaches : client.ReachesNode provider.endpoint known)
    (valid : ¬call.InvalidRange) {result : Json}
    (received : AnswerResult client
      (client.post provider.endpoint (call.request (provider.requestId + 1))) result) :
    (∃ fact, known (provider.requestId + 1) call.asked = some fact ∧
        call.readResult client result = .ok (call.value fact)) ∨
      known (provider.requestId + 1) call.asked = none ∧
        ∃ error, call.readResult client result = .error (.providerError error) := by
  rcases reaches _ _ received with ⟨moment, asked, read, told⟩
  rw [ofJson_request valid] at read
  cases read
  generalize known (provider.requestId + 1) call.asked = fact at told
  cases fact with
  | some fact => exact .inl ⟨fact, rfl, readResult_of_conveys told⟩
  | none =>
      have isNull : result = .null := told
      rw [isNull]
      exact .inr ⟨rfl, readResult_null client call⟩

/-- A call without a result does not return. -/
theorem run_ne_ok_of_unanswered (unanswered : ¬call.IsAnswered client provider)
    (valid : ¬call.InvalidRange) (value : call.Value) :
    (call.run client provider).2 ≠ .ok value := by
  intro returned
  rw [run_eq_call client valid] at returned
  have outcome := readAnswer_outcome client call.method.toList
    (client.post provider.endpoint (call.request (provider.requestId + 1)))
  rcases bind_eq_ok_iff.mp returned with ⟨result, received, _⟩
  have received : client.readAnswer call.method.toList
      (client.post provider.endpoint (call.request (provider.requestId + 1))) = .ok result :=
    received
  rw [received] at outcome
  cases outcome with
  | passes found => exact unanswered ⟨result, found⟩

/-- A call reads the result that it receives. -/
theorem run_of_answer (valid : ¬call.InvalidRange) {result : Json}
    (received : AnswerResult client
      (client.post provider.endpoint (call.request (provider.requestId + 1))) result) :
    (call.run client provider).2 = call.readResult client result := by
  have read := readAnswer_of_result received call.method.toList
  rw [run_eq_call client valid]
  calc client.readAnswer call.method.toList
        (client.post provider.endpoint (call.request (provider.requestId + 1))) >>=
          call.readResult client
      = .ok result >>= call.readResult client := by rw [read]
    _ = call.readResult client result := ok_bind _ _

/--
A call takes a number of its own, and returns a value exactly if it is answered and the value is
what the node knows at that moment about the arguments of the call. Where nothing is known, it
raises a provider error, and it sends nothing where the caller asks for no range.
-/
theorem run_transparent (reaches : client.ReachesNode provider.endpoint known)
    (call : ProviderCall) :
    (call.InvalidRange → call.run client provider = (provider, .error .valueError)) ∧
      (¬call.InvalidRange →
        (call.run client provider).1 = { provider with requestId := provider.requestId + 1 } ∧
        (∀ value, (call.run client provider).2 = .ok value ↔ call.IsAnswered client provider ∧
          (known (provider.requestId + 1) call.asked).map call.value = some value) ∧
        (call.IsAnswered client provider → known (provider.requestId + 1) call.asked = none →
          ∃ error, (call.run client provider).2 = .error (.providerError error))) := by
  refine ⟨fun outside => ?_, fun valid => ⟨?_, fun value => ⟨fun returned => ?_, ?_⟩, ?_⟩⟩
  · cases call with
    | logs => exact if_pos outside
    | chainId | block | code | storageAt | transaction | receipt | traceTransaction =>
        cases outside
  · rw [run_eq_call client valid]
    rfl
  · have answered : call.IsAnswered client provider := by
      by_contra unanswered
      exact run_ne_ok_of_unanswered unanswered valid value returned
    refine ⟨answered, ?_⟩
    rcases answered with ⟨result, received⟩
    rw [run_of_answer valid received] at returned
    rcases readResult_of_reachesNode reaches valid received with
      ⟨fact, found, read⟩ | ⟨_, error, read⟩
    · rw [read] at returned
      cases returned
      rw [found]
      rfl
    · rw [read] at returned
      cases returned
  · rintro ⟨⟨result, received⟩, found⟩
    rw [run_of_answer valid received]
    rcases readResult_of_reachesNode reaches valid received with ⟨fact, knows, read⟩ | ⟨unknown, _⟩
    · rw [knows] at found
      cases found
      exact read
    · rw [unknown] at found
      cases found
  · rintro ⟨result, received⟩ unknown
    rw [run_of_answer valid received]
    rcases readResult_of_reachesNode reaches valid received with ⟨fact, knows, _⟩ | ⟨_, refused⟩
    · rw [unknown] at knows
      cases knows
    · exact refused

end ProviderCall

section Samples

/-- A contract that is deployed at block 7. -/
def sampleCode (block : ℕ) : Bytes := if 7 ≤ block then [0x60, 0x00] else []

/-- A block of the sample chain. -/
def sampleReference (number : ℕ) : BlockReference := ⟨number, hexInt number⟩

/-- A chain of twenty blocks, one of which becomes final with every request. -/
def sampleKnown (moment : ℕ) : (asked : NodeRequest) → Option asked.Fact
  | .chainId => some 1
  | .block (.number number) => if number ≤ 20 then some (sampleReference number) else none
  | .block (.name name) =>
      if name = "finalized".toList ∧ moment ≤ 20 then some (sampleReference moment) else none
  | .code _ (.number number) => if number ≤ 20 then some (sampleCode number) else none
  | _ => none

/-- What the sample chain knows, in two bytes. -/
def sampleBody (moment : ℕ) : NodeRequest → Option Bytes
  | .chainId => some [0, 0]
  | .block (.number number) => if number ≤ 20 then some [1, UInt8.ofNat number] else none
  | .block (.name name) =>
      if name = "finalized".toList ∧ moment ≤ 20 then some [1, UInt8.ofNat moment] else none
  | .code _ (.number number) => if number ≤ 20 then some [2, UInt8.ofNat number] else none
  | _ => none

/-- What the bodies of the sample stand for. -/
def sampleDocument : Bytes → Option Json
  | [0, 0] => some (NodeRequest.write .chainId 1)
  | [1, number] => some (NodeRequest.write (.block (.number 0)) (sampleReference number.toNat))
  | [2, number] => some (NodeRequest.write (.code [] (.number 0)) (sampleCode number.toNat))
  | _ => none

/-- A node that refuses what it does not know. -/
def sampleNode : HttpClient where
  post _ request :=
    match NodeRequest.ofJson request with
    | some (moment, asked) =>
        match sampleBody moment asked with
        | some body => .ok ⟨200, body⟩
        | none => .error .networkError
    | none => .error .networkError
  json body := (sampleDocument body).map fun result => .obj [("result".toList, result)]
  unicode := asciiData

theorem sampleDocument_of_sampleBody {moment : ℕ} {asked : NodeRequest} {body : Bytes}
    (answers : sampleBody moment asked = some body) :
    ∃ fact result, sampleKnown moment asked = some fact ∧ sampleDocument body = some result ∧
      asked.Conveys fact result := by
  have small {number : ℕ} (small : number ≤ 20) : (UInt8.ofNat number).toNat = number :=
    Nat.mod_eq_of_lt (lt_of_le_of_lt small (by decide))
  cases asked with
  | chainId =>
      cases answers
      exact ⟨_, _, rfl, rfl, NodeRequest.conveys_write .chainId 1⟩
  | block tag =>
      cases tag with
      | number number =>
          simp only [sampleBody, Option.ite_none_right_eq_some, Option.some.injEq] at answers
          rcases answers with ⟨known, rfl⟩
          refine ⟨_, _, if_pos known, rfl, ?_⟩
          rw [small known]
          exact NodeRequest.conveys_write (.block (.number number)) (sampleReference number)
      | name name =>
          simp only [sampleBody, Option.ite_none_right_eq_some, Option.some.injEq] at answers
          rcases answers with ⟨known, rfl⟩
          refine ⟨_, _, if_pos known, rfl, ?_⟩
          rw [small known.2]
          exact NodeRequest.conveys_write (.block (.name name)) (sampleReference moment)
  | code address tag =>
      cases tag with
      | number number =>
          simp only [sampleBody, Option.ite_none_right_eq_some, Option.some.injEq] at answers
          rcases answers with ⟨known, rfl⟩
          refine ⟨_, _, if_pos known, rfl, ?_⟩
          rw [small known]
          exact NodeRequest.conveys_write (.code address (.number number)) (sampleCode number)
      | name => cases answers
  | storageAt | logs | transaction | receipt | trace => cases answers

/-- The sample node tells what its chain knows. -/
theorem reachesNode_sampleNode (endpoint : Text) :
    sampleNode.ReachesNode endpoint sampleKnown := by
  intro request result received
  generalize answered : sampleNode.post endpoint request = answer at received
  rcases received with ⟨⟨_, decoded⟩, _, present⟩
  simp only [sampleNode] at answered
  split at answered
  · rename_i moment asked read
    split at answered
    · rename_i body known
      cases answered
      rcases sampleDocument_of_sampleBody known with ⟨fact, written, knows, found, conveyed⟩
      simp only [sampleNode, found, Option.map_some, Option.some.injEq, Json.obj.injEq] at decoded
      subst decoded
      cases present
      refine ⟨moment, asked, read, ?_⟩
      rw [knows]
      exact conveyed
    · cases answered
  · cases answered

end Samples

/-- The code of a contract at a block is read as the node knows it. -/
theorem deployedCode_transparent :
    ((ProviderCall.code "0xabcd".toList (.number 8)).run sampleNode ⟨"https://rpc".toList, 4⟩).2 =
      .ok (sampleCode 8) := by
  have transparent := (ProviderCall.run_transparent
    (reachesNode_sampleNode (JsonRpcEvmProvider.mk "https://rpc".toList 4).endpoint)
    (.code "0xabcd".toList (.number 8))).2 id
  refine (transparent.2.1 (sampleCode 8)).mpr ⟨⟨_, ⟨rfl, rfl⟩, ?_, rfl⟩, rfl⟩
  intro error failed
  cases failed

end CopyMint
