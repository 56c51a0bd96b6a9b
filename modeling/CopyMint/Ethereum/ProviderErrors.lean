import CopyMint.Ethereum.RpcProvider

/-!
# Which answers escape the adapter

The fields of a result are read in order, and a field that is not marked as a quantity is
refused with a provider error. A call raises another exception exactly if its answer cannot
be received or decoded, or if a field breaks before one is refused.
-/

namespace CopyMint

open Hexadecimal Fallible

/-- A call of one of the methods, with its arguments. -/
inductive ProviderCall where
  | chainId
  | block (tag : BlockArgument)
  | code (address : Text) (block : BlockArgument)
  | storageAt (address slot : Text) (block : BlockArgument)
  | logs (address : Text) (startBlock endBlock : ℤ) (topics : List (Option Text))
  | transaction (transactionHash : Text)
  | receipt (transactionHash : Text)
  | traceTransaction (transactionHash : Text)

namespace ProviderCall

/-- The declared type of a method's result. -/
abbrev Value : ProviderCall → Type
  | chainId => ℕ
  | block _ => BlockReference
  | code _ _ | storageAt _ _ _ => Bytes
  | logs _ _ _ _ => List EvmLog
  | transaction _ => EvmTransaction
  | receipt _ => EvmReceipt
  | traceTransaction _ => List (Text × Json)

variable (client : HttpClient) (provider : JsonRpcEvmProvider)

/-- The method of the adapter that a call is. -/
def run : (call : ProviderCall) → JsonRpcEvmProvider × Except AdapterFailure call.Value
  | .chainId => client.chainId provider
  | .block tag => client.block tag provider
  | .code address tag => client.code address tag provider
  | .storageAt address slot tag => client.storageAt address slot tag provider
  | .logs address startBlock endBlock topics =>
      client.logs address startBlock endBlock topics provider
  | .transaction transactionHash => client.transaction transactionHash provider
  | .receipt transactionHash => client.receipt transactionHash provider
  | .traceTransaction transactionHash => client.traceTransaction transactionHash provider

end ProviderCall

section Conditions

/-- A marked quantity that `int` does not read. -/
def Malformed (unicode : UnicodeData) (value : Option Json) : Prop :=
  ∃ text, value = some (.str text) ∧ marker <+: text ∧ unicode.int .sixteen text = none

/-- No text, or text without the mark of a quantity. -/
def Unmarked (value : Option Json) : Prop :=
  ∀ text, value = some (.str text) → ¬marker <+: text

/-- The member is missing or null. -/
def IsMissing (value : Option Json) : Prop := value = none ∨ value = some .null

/-- A field that a method reads of an object. -/
inductive Field where
  | text (name : String)
  | quantity (name : String)
  | optionalQuantity (name : String)

variable (client : HttpClient) (members : List (Text × Json))

/-- A field on which its reader raises something else than a provider error. -/
def Field.Broken : Field → Prop
  | text name => members.lookup name.toList = none
  | quantity name | optionalQuantity name =>
      Malformed client.unicode (members.lookup name.toList)

/-- A field that its reader refuses with a provider error. -/
def Field.Refused : Field → Prop
  | text _ => False
  | quantity name => Unmarked (members.lookup name.toList)
  | optionalQuantity name =>
      ¬IsMissing (members.lookup name.toList) ∧ Unmarked (members.lookup name.toList)

/-- What `logs` reads of a log, in its order. -/
def logFields : List Field :=
  [.text "address", .text "data", .quantity "blockNumber", .text "blockHash",
    .text "transactionHash", .quantity "logIndex"]

/-- What `transaction` reads, in its order. -/
def transactionFields : List Field :=
  [.text "hash", .text "from", .quantity "value", .text "input", .quantity "blockNumber"]

/-- What `receipt` reads, in its order. -/
def receiptFields : List Field :=
  [.text "transactionHash", .quantity "blockNumber", .text "blockHash", .quantity "status",
    .quantity "gasUsed", .optionalQuantity "effectiveGasPrice"]

/-- Reading the fields of an object in order, one breaks. -/
def FieldsBroken (fields : List Field) : Prop :=
  Breaks (Field.Broken client members) (Field.Refused members) fields

/-- A log that is an object with a list of topics. -/
def IsLog (item : Json) (members : List (Text × Json)) : Prop :=
  item = .obj members ∧ ∃ topics, members.lookup "topics".toList = some (.arr topics)

/-- Reading the log raises what is no `ProviderError`. -/
def LogBroken (item : Json) : Prop :=
  ∃ members, IsLog item members ∧ FieldsBroken client members logFields

/-- The log is no object with topics, or one of its fields is refused. -/
def LogRefused (item : Json) : Prop :=
  ∀ members, IsLog item members → ∃ field ∈ logFields, field.Refused members

/-- The results on which a method raises something else than a provider error. -/
def ProviderCall.ResultBroken (result : Json) : ProviderCall → Prop
  | chainId => Malformed client.unicode (some result)
  | block _ => ∃ members blockHash, result = .obj members ∧
      members.lookup "hash".toList = some (.str blockHash) ∧
      Malformed client.unicode (members.lookup "number".toList)
  | code _ _ | storageAt _ _ _ | traceTransaction _ => False
  | logs _ _ _ _ => ∃ items, result = .arr items ∧ Breaks (LogBroken client) LogRefused items
  | transaction _ => ∃ members, result = .obj members ∧
      FieldsBroken client members transactionFields
  | receipt _ => ∃ members, result = .obj members ∧ FieldsBroken client members receiptFields

/-- A successful response whose document is an object. -/
def Received (response : HttpResponse) (payload : List (Text × Json)) : Prop :=
  response.isSuccess = true ∧ client.json response.content = some (.obj payload)

/-- The answers on which `_rpc` raises something else than a provider error. -/
inductive AnswerBroken : Except HttpxError HttpResponse → Prop
  | unsent : AnswerBroken (.error .other)
  | undecodable {response : HttpResponse} (success : response.isSuccess = true)
      (unreadable : client.json response.content = none) : AnswerBroken (.ok response)
  | unhashable {response : HttpResponse} {payload error : List (Text × Json)}
      (received : Received client response payload)
      (failed : payload.lookup "error".toList = some (.obj error))
      (unhashable : HttpClient.isHashable (error.lookup "code".toList) = false) :
      AnswerBroken (.ok response)

/-- An answer that has a result and no error. -/
inductive AnswerResult : Except HttpxError HttpResponse → Json → Prop
  | intro {response : HttpResponse} {payload : List (Text × Json)} {result : Json}
      (received : Received client response payload)
      (accepted : ∀ error, payload.lookup "error".toList ≠ some (.obj error))
      (present : payload.lookup "result".toList = some result) : AnswerResult (.ok response) result

/-- A range of blocks that the caller of `logs` must not ask for. -/
def ProviderCall.InvalidRange : ProviderCall → Prop
  | logs _ startBlock endBlock _ => startBlock < 0 ∨ endBlock < startBlock
  | _ => False

/-- The answers to a call on which it raises something else than a provider error. -/
inductive ProviderCall.Escapes (call : ProviderCall) (answer : Except HttpxError HttpResponse) :
    Prop
  | range (outside : call.InvalidRange)
  | answer (broken : AnswerBroken client answer)
  | result {result : Json} (received : AnswerResult client answer result)
      (broken : call.ResultBroken client result)

end Conditions

variable {client : HttpClient} {members : List (Text × Json)}

section Fields

/-- A marked quantity breaks where `int` raises, and one without the mark is refused. -/
theorem judged_quantity (value : Option Json) (field : String) :
    Judged IsProviderError (Malformed client.unicode value) (Unmarked value)
      (client.quantity value field) := by
  have unmarked : (∀ text, value ≠ some (.str text)) →
      Judged IsProviderError (Malformed client.unicode value) (Unmarked value)
        (invalid ("invalid_" ++ field) : Except AdapterFailure ℕ) := by
    intro noText
    refine .refuses ?_ (fun text found => absurd found (noText text)) trivial
    rintro ⟨text, found, _⟩
    exact noText text found
  cases value with
  | none => exact unmarked fun _ impossible => by cases impossible
  | some value =>
      cases value with
      | str text =>
          simp only [HttpClient.quantity]
          split_ifs with marked
          · have isMarked : marker <+: text := List.isPrefixOf_iff_prefix.mp marked
            cases read : client.unicode.int .sixteen text with
            | none => exact .breaks ⟨text, rfl, isMarked, read⟩ id
            | some number =>
                refine .passes ?_ (fun refused => refused text rfl isMarked) number.toNat
                rintro ⟨_, same, _, unread⟩
                cases same
                rw [read] at unread
                cases unread
          · have isUnmarked : ¬marker <+: text := fun isMarked =>
              marked (List.isPrefixOf_iff_prefix.mpr isMarked)
            refine .refuses ?_ ?_ trivial
            · rintro ⟨_, same, isMarked, _⟩
              cases same
              exact isUnmarked isMarked
            · intro _ same
              cases same
              exact isUnmarked
      | null | bool | int | real | arr | obj =>
          exact unmarked fun _ impossible => by cases impossible

/-- A quantity is the number that `int` reads, which is not negative behind the mark. -/
theorem quantity_eq_ok_iff {value : Option Json} {field : String} {number : ℕ} :
    client.quantity value field = .ok number ↔ ∃ text, value = some (.str text) ∧
      marker <+: text ∧ client.unicode.int .sixteen text = some (number : ℤ) := by
  constructor
  · intro returned
    simp only [HttpClient.quantity] at returned
    split at returned
    · rename_i text
      split_ifs at returned with marked
      · have isMarked : marker <+: text := List.isPrefixOf_iff_prefix.mp marked
        split at returned
        · rename_i found read
          cases returned
          refine ⟨text, rfl, isMarked, ?_⟩
          rcases isMarked with ⟨digits, rfl⟩
          rw [read, Int.toNat_of_nonneg (client.unicode.int_nonneg read)]
        · cases returned
      · cases returned
    · cases returned
  · rintro ⟨text, rfl, marked, read⟩
    simp only [HttpClient.quantity, List.isPrefixOf_iff_prefix.mpr marked, if_true, read,
      Int.toNat_natCast]

theorem judged_text (name : String) :
    Judged IsProviderError (Field.Broken client members (.text name))
      (Field.Refused members (.text name)) (client.text members name) := by
  simp only [HttpClient.text]
  cases found : members.lookup name.toList with
  | none => exact .breaks found id
  | some value =>
      refine .passes ?_ id (client.unicode.str value)
      intro missing
      rw [Field.Broken, found] at missing
      cases missing

theorem judged_optionalQuantity (name field : String) :
    Judged IsProviderError (Field.Broken client members (.optionalQuantity name))
      (Field.Refused members (.optionalQuantity name))
      (client.optionalQuantity (members.lookup name.toList) field) := by
  simp only [Field.Broken, Field.Refused]
  generalize members.lookup name.toList = value
  by_cases missing : IsMissing value
  · have absent : client.optionalQuantity value field = .ok none := by
      rcases missing with rfl | rfl <;> rfl
    rw [absent]
    refine .passes ?_ (fun refused => refused.1 missing) none
    rintro ⟨text, rfl, _⟩
    rcases missing with impossible | impossible <;> cases impossible
  · have present : client.optionalQuantity value field =
        (client.quantity value field).map some := by
      simp only [HttpClient.optionalQuantity]
      split
      · exact absurd (.inl rfl) missing
      · exact absurd (.inr rfl) missing
      · rfl
    rw [present]
    refine (judged_quantity value field).map.congr Iff.rfl ?_
    simp [missing]

end Fields

section Results

variable (client)

theorem readBlock_failsOnly_iff (result : Json) (tag : BlockArgument) :
    FailsOnly IsProviderError (client.readBlock result) ↔
      ¬(ProviderCall.block tag).ResultBroken client result := by
  by_cases isBlock : ∃ members blockHash, result = .obj members ∧
      members.lookup "hash".toList = some (.str blockHash)
  · rcases isBlock with ⟨members, blockHash, rfl, found⟩
    have judged := @judged_quantity client (members.lookup "number".toList) "block_number"
    simp only [HttpClient.readBlock, found, failsOnly_bind_iff, judged.failsOnly_iff,
      failsOnly_ok, implies_true, and_true, ProviderCall.ResultBroken]
    constructor
    · rintro whole ⟨_, _, same, _, malformed⟩
      cases same
      exact whole malformed
    · exact fun whole malformed => whole ⟨members, blockHash, rfl, found, malformed⟩
  · have raised : client.readBlock result = invalid "invalid_block" := by
      simp only [HttpClient.readBlock]
      split
      · split
        · rename_i found
          exact absurd ⟨_, _, rfl, found⟩ isBlock
        · rfl
      · rfl
    rw [raised]
    constructor
    · rintro _ ⟨members, blockHash, same, found, _⟩
      exact isBlock ⟨members, blockHash, same, found⟩
    · exact fun _ => failsOnly_error_iff.mpr trivial

theorem judged_log (item : Json) :
    Judged IsProviderError (LogBroken client item) (LogRefused item) (client.readLog item) := by
  by_cases isLog : ∃ members, IsLog item members
  · rcases isLog with ⟨members, rfl, topics, found⟩
    have judged : Judged IsProviderError (FieldsBroken client members logFields)
        (∃ field ∈ logFields, field.Refused members) (client.readLog (.obj members)) := by
      simp only [HttpClient.readLog, found]
      refine .check (judged_text "address") fun address _ => ?_
      refine .check (judged_text "data") fun data _ => ?_
      refine .check (judged_quantity _ _) fun blockNumber _ => ?_
      refine .check (judged_text "blockHash") fun blockHash _ => ?_
      refine .check (judged_text "transactionHash") fun transactionHash _ => ?_
      refine .check (judged_quantity _ _) fun logIndex _ => ?_
      exact .done _
    refine judged.congr ?_ ?_
    · constructor
      · exact fun broken => ⟨members, ⟨rfl, topics, found⟩, broken⟩
      · rintro ⟨_, ⟨same, _⟩, broken⟩
        cases same
        exact broken
    · constructor
      · rintro refused _ ⟨same, _⟩
        cases same
        exact refused
      · exact fun refused => refused members ⟨rfl, topics, found⟩
  · have raised : client.readLog item = invalid "invalid_log" := by
      simp only [HttpClient.readLog]
      split
      · split
        · rename_i found
          exact absurd ⟨_, rfl, _, found⟩ isLog
        · rfl
      · rfl
    rw [raised]
    refine .refuses ?_ (fun members logged => absurd ⟨members, logged⟩ isLog) trivial
    rintro ⟨members, logged, _⟩
    exact isLog ⟨members, logged⟩

/-- A reader of objects that refuses everything else escapes where an object's fields break. -/
theorem failsOnly_object_iff {α : Type} {read : Json → Except AdapterFailure α}
    {fields : List Field}
    (objects : ∀ members, Judged IsProviderError (FieldsBroken client members fields)
      (∃ field ∈ fields, field.Refused members) (read (.obj members)))
    (others : ∀ result, (∀ members, result ≠ .obj members) →
      FailsOnly IsProviderError (read result)) (result : Json) :
    FailsOnly IsProviderError (read result) ↔
      ¬∃ members, result = .obj members ∧ FieldsBroken client members fields := by
  by_cases isObject : ∃ members, result = .obj members
  · rcases isObject with ⟨members, rfl⟩
    rw [(objects members).failsOnly_iff]
    constructor
    · rintro whole ⟨_, same, breaks⟩
      cases same
      exact whole breaks
    · exact fun whole breaks => whole ⟨members, rfl, breaks⟩
  · constructor
    · rintro _ ⟨members, same, _⟩
      exact isObject ⟨members, same⟩
    · exact fun _ => others result fun members same => isObject ⟨members, same⟩

theorem readTransaction_failsOnly_iff (result : Json) :
    FailsOnly IsProviderError (client.readTransaction result) ↔
      ¬∃ members, result = .obj members ∧ FieldsBroken client members transactionFields := by
  apply failsOnly_object_iff
  · intro members
    simp only [HttpClient.readTransaction]
    refine .check (judged_text "hash") fun transactionHash _ => ?_
    refine .check (judged_text "from") fun sender _ => ?_
    refine .check (judged_quantity _ _) fun valueWei _ => ?_
    refine .check (judged_text "input") fun inputData _ => ?_
    refine .check (judged_quantity _ _) fun blockNumber _ => ?_
    exact .done _
  · intro result noObject
    cases result with
    | obj members => exact absurd rfl (noObject members)
    | null | bool | int | real | arr | str => exact failsOnly_error_iff.mpr trivial

theorem readReceipt_failsOnly_iff (result : Json) :
    FailsOnly IsProviderError (client.readReceipt result) ↔
      ¬∃ members, result = .obj members ∧ FieldsBroken client members receiptFields := by
  apply failsOnly_object_iff
  · intro members
    simp only [HttpClient.readReceipt]
    refine .check (judged_text "transactionHash") fun transactionHash _ => ?_
    refine .check (judged_quantity _ _) fun blockNumber _ => ?_
    refine .check (judged_text "blockHash") fun blockHash _ => ?_
    refine .check (judged_quantity _ _) fun status _ => ?_
    refine .check (judged_quantity _ _) fun gasUsed _ => ?_
    refine .check (judged_optionalQuantity _ _) fun effectiveGasPrice _ => ?_
    exact .done _
  · intro result noObject
    cases result with
    | obj members => exact absurd rfl (noObject members)
    | null | bool | int | real | arr | str => exact failsOnly_error_iff.mpr trivial

theorem readLogs_failsOnly_iff (result : Json) :
    FailsOnly IsProviderError (client.readLogs result) ↔
      ¬∃ items, result = .arr items ∧ Breaks (LogBroken client) LogRefused items := by
  by_cases isList : ∃ items, result = .arr items
  · rcases isList with ⟨items, rfl⟩
    have judged := Judged.mapM fun item (_ : item ∈ items) => judged_log client item
    rw [HttpClient.readLogs, judged.failsOnly_iff]
    constructor
    · rintro whole ⟨_, same, breaks⟩
      cases same
      exact whole breaks
    · exact fun whole breaks => whole ⟨items, rfl, breaks⟩
  · have raised : client.readLogs result = invalid "invalid_logs" := by
      cases result with
      | arr items => exact absurd ⟨items, rfl⟩ isList
      | null | bool | int | real | obj | str => rfl
    rw [raised]
    constructor
    · rintro _ ⟨items, same, _⟩
      exact isList ⟨items, same⟩
    · exact fun _ => failsOnly_error_iff.mpr trivial

/-- A decoding error of hexadecimal text is turned into a provider error. -/
theorem readCode_failsOnly (result : Json) :
    FailsOnly IsProviderError (HttpClient.readCode result) := by
  cases result with
  | str result =>
      simp only [HttpClient.readCode]
      split_ifs
      · split
        · exact failsOnly_ok _
        · exact failsOnly_error_iff.mpr trivial
      · exact failsOnly_error_iff.mpr trivial
  | null | bool | int | real | arr | obj => exact failsOnly_error_iff.mpr trivial

theorem readStorage_failsOnly (result : Json) :
    FailsOnly IsProviderError (HttpClient.readStorage result) := by
  cases result with
  | str result =>
      simp only [HttpClient.readStorage]
      split_ifs
      · split
        · split_ifs
          · exact failsOnly_ok _
          · exact failsOnly_error_iff.mpr trivial
        · exact failsOnly_error_iff.mpr trivial
      · exact failsOnly_error_iff.mpr trivial
  | null | bool | int | real | arr | obj => exact failsOnly_error_iff.mpr trivial

theorem readTrace_failsOnly (result : Json) :
    FailsOnly IsProviderError (HttpClient.readTrace result) := by
  cases result with
  | obj members => exact failsOnly_ok _
  | null | bool | int | real | arr | str => exact failsOnly_error_iff.mpr trivial

end Results

section Answers

/-- How `_rpc` ends on an answer. -/
inductive AnswerOutcome (client : HttpClient) (answer : Except HttpxError HttpResponse) :
    Except AdapterFailure Json → Prop
  | breaks (broken : AnswerBroken client answer) {failure : AdapterFailure}
      (unexpected : ¬IsProviderError failure) : AnswerOutcome client answer (.error failure)
  | refuses (whole : ¬AnswerBroken client answer)
      (none : ∀ result, ¬AnswerResult client answer result) {failure : AdapterFailure}
      (isExpected : IsProviderError failure) : AnswerOutcome client answer (.error failure)
  | passes {result : Json} (received : AnswerResult client answer result) :
      AnswerOutcome client answer (.ok result)

theorem readPayload_outcome {response : HttpResponse} {payload : Json}
    (success : response.isSuccess = true) (decoded : client.json response.content = some payload) :
    AnswerOutcome client (.ok response) (client.readPayload payload) := by
  have broken_iff : AnswerBroken client (.ok response) ↔ ∃ members error,
      payload = .obj members ∧ members.lookup "error".toList = some (.obj error) ∧
        HttpClient.isHashable (error.lookup "code".toList) = false := by
    constructor
    · rintro (_ | ⟨_, undecoded⟩ | ⟨received, failed, unhashable⟩)
      · rw [decoded] at undecoded
        cases undecoded
      · rw [received.2, Option.some.injEq] at decoded
        exact ⟨_, _, decoded.symm, failed, unhashable⟩
    · rintro ⟨members, error, rfl, failed, unhashable⟩
      exact .unhashable ⟨success, decoded⟩ failed unhashable
  have result_iff (result : Json) : AnswerResult client (.ok response) result ↔ ∃ members,
      payload = .obj members ∧ (∀ error, members.lookup "error".toList ≠ some (.obj error)) ∧
        members.lookup "result".toList = some result := by
    constructor
    · rintro ⟨received, accepted, present⟩
      rw [received.2, Option.some.injEq] at decoded
      exact ⟨_, decoded.symm, accepted, present⟩
    · rintro ⟨members, rfl, accepted, present⟩
      exact .intro ⟨success, decoded⟩ accepted present
  cases payload with
  | obj members =>
      simp only [HttpClient.readPayload]
      split
      · rename_i error failed
        split_ifs with hashable
        · refine .refuses ?_ ?_ trivial
          · rw [broken_iff]
            rintro ⟨_, other, same, found, unhashable⟩
            cases same
            rw [failed] at found
            cases found
            rw [hashable] at unhashable
            cases unhashable
          · intro result
            rw [result_iff]
            rintro ⟨_, same, accepted, _⟩
            cases same
            exact accepted error failed
        · refine .breaks (broken_iff.mpr ⟨members, error, rfl, failed, ?_⟩) id
          exact Bool.eq_false_iff.mpr hashable
      · rename_i accepted
        have whole : ¬AnswerBroken client (.ok response) := by
          rw [broken_iff]
          rintro ⟨_, error, same, failed, _⟩
          cases same
          exact accepted error failed
        cases present : members.lookup "result".toList with
        | none =>
            refine .refuses whole ?_ trivial
            intro result
            rw [result_iff]
            rintro ⟨_, same, _, found⟩
            cases same
            rw [present] at found
            cases found
        | some result => exact .passes ((result_iff result).mpr ⟨members, rfl, accepted, present⟩)
  | null | bool | int | real | arr | str =>
      refine .refuses ?_ ?_ trivial
      · rw [broken_iff]
        rintro ⟨_, _, impossible, _⟩
        cases impossible
      · intro result
        rw [result_iff]
        rintro ⟨_, impossible, _⟩
        cases impossible

theorem readAnswer_outcome (client : HttpClient) (method : Text)
    (answer : Except HttpxError HttpResponse) :
    AnswerOutcome client answer (client.readAnswer method answer) := by
  cases answer with
  | error error =>
      cases error with
      | other => exact .breaks .unsent id
      | timeoutException | networkError =>
          refine .refuses ?_ ?_ trivial
          · intro broken
            cases broken
          · intro result received
            cases received
  | ok response =>
      by_cases success : response.isSuccess = true
      · have received : HttpClient.receive method (.ok response) = .ok response := if_pos success
        rw [HttpClient.readAnswer, received, ok_bind]
        cases decoded : client.json response.content with
        | none => exact .breaks (.undecodable success decoded) id
        | some payload => exact readPayload_outcome success decoded
      · have refused : ∃ error,
            HttpClient.receive method (.ok response) = .error (.providerError error) :=
          ⟨_, if_neg success⟩
        rcases refused with ⟨error, refused⟩
        rw [HttpClient.readAnswer, refused]
        refine .refuses ?_ ?_ trivial
        · rintro (_ | ⟨succeeded, _⟩ | ⟨received, _, _⟩)
          · exact success succeeded
          · exact success received.1
        · rintro result ⟨received, _, _⟩
          exact success received.1

theorem readAnswer_of_result {answer : Except HttpxError HttpResponse} {result : Json}
    (received : AnswerResult client answer result) (method : Text) :
    client.readAnswer method answer = .ok result := by
  rcases received with ⟨⟨success, decoded⟩, accepted, present⟩
  have succeeded : HttpClient.receive method (.ok _) = .ok _ := if_pos success
  rw [HttpClient.readAnswer, succeeded, ok_bind, decoded]
  simp only [HttpClient.readPayload, present]

/-- A call escapes at its answer, or at the result that the answer has. -/
theorem call_failsOnly_iff {α : Type} {read : Json → Except AdapterFailure α} (method : Text)
    (answer : Except HttpxError HttpResponse) :
    FailsOnly IsProviderError (client.readAnswer method answer >>= read) ↔
      ¬AnswerBroken client answer ∧
        ∀ result, AnswerResult client answer result → FailsOnly IsProviderError (read result) := by
  have outcome := readAnswer_outcome client method answer
  have read_eq (result : Json) (received : AnswerResult client answer result) :
      client.readAnswer method answer = .ok result := readAnswer_of_result received method
  generalize client.readAnswer method answer = received at outcome read_eq
  cases outcome with
  | breaks broken unexpected =>
      constructor
      · exact fun fails => absurd (fails _ rfl) unexpected
      · exact fun facts => absurd broken facts.1
  | refuses whole none isExpected =>
      constructor
      · exact fun _ => ⟨whole, fun result found => absurd found (none result)⟩
      · exact fun _ => failsOnly_error_iff.mpr isExpected
  | passes found =>
      rename_i result
      have whole : ¬AnswerBroken client answer := by
        rcases found with ⟨⟨success, decoded⟩, accepted, _⟩
        rintro (_ | ⟨_, undecoded⟩ | ⟨⟨_, received⟩, failed, _⟩)
        · rw [decoded] at undecoded
          cases undecoded
        · rw [decoded] at received
          cases received
          exact accepted _ failed
      rw [ok_bind]
      constructor
      · intro fails
        refine ⟨whole, fun other otherFound => ?_⟩
        cases read_eq other otherFound
        exact fails
      · exact fun facts => facts.2 result found

end Answers

section Calls

variable (client) (provider : JsonRpcEvmProvider) {answer : Except HttpxError HttpResponse}

/-- The result of a call is read as the call declares. -/
theorem call_escapes_iff {call : ProviderCall} {α : Type}
    {read : Json → Except AdapterFailure α} {method : String} {params : List Json}
    (answered : ∀ request, client.post provider.endpoint request = answer)
    (valid : ¬call.InvalidRange)
    (reads : ∀ result, FailsOnly IsProviderError (read result) ↔
      ¬call.ResultBroken client result) :
    FailsOnly IsProviderError (client.call method params read provider).2 ↔
      ¬call.Escapes client answer := by
  simp only [HttpClient.call, HttpClient.rpc, answered]
  rw [call_failsOnly_iff]
  constructor
  · rintro ⟨whole, fails⟩ (outside | broken | ⟨received, broken⟩)
    · exact valid outside
    · exact whole broken
    · exact (reads _).mp (fails _ received) broken
  · intro stays
    refine ⟨fun broken => stays (.answer broken), fun result received => ?_⟩
    exact (reads result).mpr fun broken => stays (.result received broken)

/--
A call returns a value of its declared type or raises a provider error, exactly if its
answer does not make it escape.
-/
theorem run_failsOnly_iff (json : Bytes → Option Json) (unicode : UnicodeData)
    (answer : Except HttpxError HttpResponse) (provider : JsonRpcEvmProvider)
    (call : ProviderCall) :
    FailsOnly IsProviderError (call.run ⟨fun _ _ => answer, json, unicode⟩ provider).2 ↔
      ¬call.Escapes ⟨fun _ _ => answer, json, unicode⟩ answer := by
  generalize adapter : (⟨fun _ _ => answer, json, unicode⟩ : HttpClient) = client
  have answered (request : Json) : client.post provider.endpoint request = answer := by
    rw [← adapter]
  cases call with
  | chainId =>
      exact call_escapes_iff client provider answered id fun result =>
        (judged_quantity (some result) "chain_id").failsOnly_iff
  | block tag =>
      exact call_escapes_iff client provider answered id fun result =>
        readBlock_failsOnly_iff client result tag
  | code address tag =>
      exact call_escapes_iff client provider answered id fun result =>
        iff_of_true (readCode_failsOnly result) id
  | storageAt address slot tag =>
      exact call_escapes_iff client provider answered id fun result =>
        iff_of_true (readStorage_failsOnly result) id
  | logs address startBlock endBlock topics =>
      simp only [ProviderCall.run, HttpClient.logs]
      split_ifs with outside
      · refine iff_of_false ?_ (not_not.mpr (.range outside))
        exact fun fails => fails _ rfl
      · exact call_escapes_iff client provider answered outside (readLogs_failsOnly_iff client)
  | transaction transactionHash =>
      exact call_escapes_iff client provider answered id (readTransaction_failsOnly_iff client)
  | receipt transactionHash =>
      exact call_escapes_iff client provider answered id (readReceipt_failsOnly_iff client)
  | traceTransaction transactionHash =>
      exact call_escapes_iff client provider answered id fun result =>
        iff_of_true (readTrace_failsOnly result) id

end Calls

section Samples

/-- The characters of ASCII. -/
def asciiData : UnicodeData where
  isSpace := Hexadecimal.isSpace
  isDigit := Char.isDigit
  isPrintable character := 32 ≤ character.toNat && character.toNat < 127
  decimal _ := none

/-- An answer whose quantity has no digits. -/
def emptyQuantity : Text := "\x7b\"jsonrpc\":\"2.0\",\"id\":1,\"result\":\"0x\"\x7d".toList

/-- A decoder that knows one document. -/
def sampleDecoder (body : Bytes) : Option Json :=
  if body = Json.utf8 emptyQuantity then
    some (.obj [("jsonrpc".toList, .str "2.0".toList), ("id".toList, .int 1),
      ("result".toList, .str "0x".toList)])
  else none

end Samples

/-- A chain that answers with a quantity without digits, and a proxy that answers in HTML. -/
theorem emptyQuantity_escapes :
    ¬FailsOnly IsProviderError
        (ProviderCall.chainId.run
          ⟨fun _ _ => .ok ⟨200, Json.utf8 emptyQuantity⟩, sampleDecoder, asciiData⟩
          ⟨"https://rpc".toList, 0⟩).2 ∧
      ¬FailsOnly IsProviderError
        (ProviderCall.chainId.run
          ⟨fun _ _ => .ok ⟨200, Json.utf8 "<html>".toList⟩, sampleDecoder, asciiData⟩
          ⟨"https://rpc".toList, 0⟩).2 := by
  constructor
  · have raised : (ProviderCall.chainId.run
        ⟨fun _ _ => .ok ⟨200, Json.utf8 emptyQuantity⟩, sampleDecoder, asciiData⟩
        ⟨"https://rpc".toList, 0⟩).2 = .error .valueError := by
      rfl
    intro fails
    exact fails _ raised
  · have raised : (ProviderCall.chainId.run
        ⟨fun _ _ => .ok ⟨200, Json.utf8 "<html>".toList⟩, sampleDecoder, asciiData⟩
        ⟨"https://rpc".toList, 0⟩).2 = .error .undecodable := by
      rfl
    intro fails
    exact fails _ raised

end CopyMint
