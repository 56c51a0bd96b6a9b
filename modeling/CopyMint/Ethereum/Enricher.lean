import CopyMint.Ethereum.Enrichment
import CopyMint.Ethereum.MintBatch

/-!
# Enrichment of stored mints

For each transaction hash with mints that are not enriched, one database
transaction appends the evidence of the transaction, of its receipt and, where
the provider has one, of its trace, and rewrites the identity columns of those
mints. It fails as a whole if one of them does not match the evidence.
-/

namespace CopyMint

open Hexadecimal Relational Fallible

variable (primitives : Primitives)

/-- The value of the enumeration. -/
def EvidenceKind.value : EvidenceKind → Text
  | .block => "block".toList
  | .log => "log".toList
  | .transaction => "transaction".toList
  | .receipt => "receipt".toList
  | .trace => "trace".toList

/-- A text in evidence, `None` included. -/
def optionalText : Option Text → Json
  | none => .null
  | some text => .str text

/-- An integer in evidence, `None` included. -/
def optionalInt : Option ℕ → Json
  | none => .null
  | some value => .int value

/-- What is stored of a transaction. -/
def transactionPayload (transaction : EvmTransaction) : Json :=
  .obj
    [("transaction_hash".toList, .str transaction.transactionHash),
      ("sender".toList, .str transaction.sender),
      ("recipient".toList, optionalText transaction.recipient),
      ("value_wei".toList, .int transaction.valueWei),
      ("input_data".toList, .str transaction.inputData),
      ("block_number".toList, .int transaction.blockNumber)]

/-- What is stored of a receipt. -/
def receiptPayload (receipt : EvmReceipt) : Json :=
  .obj
    [("transaction_hash".toList, .str receipt.transactionHash),
      ("block_number".toList, .int receipt.blockNumber),
      ("block_hash".toList, .str receipt.blockHash), ("status".toList, .int receipt.status),
      ("gas_used".toList, .int receipt.gasUsed),
      ("effective_gas_price".toList, optionalInt receipt.effectiveGasPrice)]

/-- The document whose hash identifies a piece of evidence of an enrichment. -/
def evidenceDocument (kind : EvidenceKind) (payload : Json) : Json :=
  .obj [("kind".toList, .str kind.value), ("payload".toList, payload)]

/-- `append_evidence`: insert a row unless one has the same content hash. -/
def appendEvidence (kind : EvidenceKind) (providerAlias : String) (blockNumber : ℕ)
    (transactionHash : Text) (payload : Json) (db : Database) : Except Raised Database := do
  let transactionHash ← hexBytes transactionHash 32
  let row : RawEvidence :=
    { id := db.nextId
      chainId := 1
      kind
      contentHash := contentHash primitives (evidenceDocument kind payload)
      providerAlias
      blockNumber := some blockNumber
      transactionHash := some transactionHash
      payload
      retentionStatus := .active }
  .ok
    { db with
      rawEvidence := insertOrIgnore RawEvidence.contentHash row db.rawEvidence
      nextId := db.nextId + 1 }

/-- The row waits for enrichment. -/
def MintEvent.isPending (event : MintEvent) : Bool := event.identityReasonCode = "not_enriched"

/-- The row is one that the enrichment of a transaction rewrites. -/
def MintEvent.awaits (event : MintEvent) (collectionId : ℕ) (transactionHash : Bytes) : Bool :=
  event.collectionId = collectionId && event.transactionHash = transactionHash && event.isPending

/-- The distinct hashes of a range with mints that are not enriched, in some order. -/
def pendingHashes (collectionId startBlock endBlock : ℕ) (db : Database) : List Bytes :=
  ((db.mintEvents.filter fun event =>
    event.collectionId = collectionId && startBlock ≤ event.blockNumber &&
      event.blockNumber ≤ endBlock && event.isPending).map MintEvent.transactionHash).dedup

/-- The stored facts of a row as a mint. -/
def MintEvent.toMint (event : MintEvent) (collectionAddress transactionHash : Text) :
    DecodedMint where
  collectionAddress
  tokenStandard := event.tokenStandard
  tokenId := event.tokenId
  quantity := event.quantity
  recipient := event.recipient
  operator := event.operator
  blockNumber := event.blockNumber
  blockHash := marker ++ hex event.blockHash
  transactionHash
  logIndex := event.logIndex
  subIndex := event.subIndex

/-- Take over the identity and the route of an enriched mint. -/
def MintEvent.withIdentity (event : MintEvent) (enriched : EnrichedMint) : MintEvent :=
  { event with
    transactionSender := some enriched.transactionSender
    payer := enriched.payer
    probableInitiator := enriched.probableInitiator
    identityConfidence := enriched.identityConfidence
    identityReasonCode := enriched.identityReasonCode
    route := enriched.route
    classification := enriched.classification
    classificationReasonCode := enriched.classificationReasonCode }

/-- What the provider answers about one transaction; a trace may be unavailable. -/
structure TransactionAnswers where
  transaction : EvmTransaction
  receipt : EvmReceipt
  trace : Except ProviderError Json

/-- The row of a mint with its identity and classification. -/
def enrichEvent (collectionAddress transactionHash : Text) (answers : TransactionAnswers)
    (event : MintEvent) : Except Raised MintEvent := do
  let enriched ← enrichMint primitives (event.toMint collectionAddress transactionHash)
    answers.transaction answers.receipt
  .ok (event.withIdentity enriched)

/-- Append the evidence of a trace where the provider has one. -/
def appendTrace (providerAlias : String) (transactionHash : Text) (answers : TransactionAnswers)
    (db : Database) : Except Raised Database :=
  match answers.trace with
  | .ok trace =>
      appendEvidence primitives .trace providerAlias answers.receipt.blockNumber transactionHash
        trace db
  | .error _ => .ok db

/-- The database transaction for one transaction hash. -/
def enrichTransaction (collectionId : ℕ) (collectionAddress : Text) (providerAlias : String)
    (rawHash : Bytes) (answers : TransactionAnswers) (db : Database) :
    Except Raised Database := do
  let transactionHash := marker ++ hex rawHash
  let db ← appendEvidence primitives .transaction providerAlias answers.transaction.blockNumber
    transactionHash (transactionPayload answers.transaction) db
  let db ← appendEvidence primitives .receipt providerAlias answers.receipt.blockNumber
    transactionHash (receiptPayload answers.receipt) db
  let db ← appendTrace primitives providerAlias transactionHash answers db
  let mintEvents ← db.mintEvents.mapM fun event =>
    if event.awaits collectionId rawHash then
      enrichEvent primitives collectionAddress transactionHash answers event
    else .ok event
  .ok { db with mintEvents }

/-- The warning about a transaction without a trace. -/
def traceWarning (answers : TransactionAnswers) : List String :=
  match answers.trace with
  | .ok _ => []
  | .error error => [s!"trace_unavailable:{error.code}"]

/-- A row is kept, or its identity columns are rewritten. -/
def MintEvent.SameFacts (before after : MintEvent) : Prop :=
  after = before ∨ ∃ enriched, after = before.withIdentity enriched

/-- One row before and after the enrichment of a transaction. -/
structure MintEvent.EnrichedAt (collectionId : ℕ) (transactionHash : Bytes)
    (before after : MintEvent) : Prop where
  facts : before.SameFacts after
  settled : before.awaits collectionId transactionHash = true → after.isPending = false
  untouched : before.awaits collectionId transactionHash = false → after = before

/-- What the enrichment of a transaction does to the database. -/
structure EnrichesTransaction (collectionId : ℕ) (transactionHash : Bytes)
    (before after : Database) : Prop where
  collections : after.collections = before.collections
  scanJobs : after.scanJobs = before.scanJobs
  scanCheckpoints : after.scanCheckpoints = before.scanCheckpoints
  evidence_kept : before.rawEvidence ⊆ after.rawEvidence
  wellFormed : before.WellFormed → after.WellFormed
  mints : List.Forall₂ (MintEvent.EnrichedAt collectionId transactionHash) before.mintEvents
    after.mintEvents

theorem MintEvent.SameFacts.position_eq {before after : MintEvent}
    (same : before.SameFacts after) : after.position = before.position := by
  rcases same with rfl | ⟨enriched, rfl⟩ <;> rfl

theorem MintEvent.SameFacts.collectionId_eq {before after : MintEvent}
    (same : before.SameFacts after) : after.collectionId = before.collectionId := by
  rcases same with rfl | ⟨enriched, rfl⟩ <;> rfl

theorem MintEvent.SameFacts.rawEvidenceId_eq {before after : MintEvent}
    (same : before.SameFacts after) : after.rawEvidenceId = before.rawEvidenceId := by
  rcases same with rfl | ⟨enriched, rfl⟩ <;> rfl

theorem MintEvent.Records.of_sameFacts {collectionId : ℕ} {before after : MintEvent}
    {mint : DecodedMint} (records : before.Records collectionId mint)
    (same : before.SameFacts after) : after.Records collectionId mint := by
  rcases same with rfl | ⟨enriched, rfl⟩
  · exact records
  · exact ⟨records.chainId, records.collectionId, records.blockNumber, records.blockHash,
      records.transactionHash, records.logIndex, records.subIndex, records.tokenStandard,
      records.tokenId, records.quantity, records.recipient, records.operator⟩

/-- The rows are kept up to their identity columns, and evidence is only added. -/
structure RowsKept (before after : Database) : Prop where
  evidence : before.rawEvidence ⊆ after.rawEvidence
  backward : ∀ row ∈ after.mintEvents, ∃ old ∈ before.mintEvents, old.SameFacts row
  forward : ∀ old ∈ before.mintEvents, ∃ row ∈ after.mintEvents, old.SameFacts row

theorem RowsKept.of_eq {before after : Database} (evidence : after.rawEvidence = before.rawEvidence)
    (mints : after.mintEvents = before.mintEvents) : RowsKept before after where
  evidence := evidence ▸ fun _ => id
  backward := fun row row_mem => ⟨row, mints ▸ row_mem, Or.inl rfl⟩
  forward := fun old old_mem => ⟨old, mints ▸ old_mem, Or.inl rfl⟩

variable {primitives}

theorem appendEvidence_extends {kind : EvidenceKind} {providerAlias : String} {blockNumber : ℕ}
    {transactionHash : Text} {payload : Json} {db next : Database} (collectionId : ℕ)
    (source : EvmLog → Prop)
    (appended : appendEvidence primitives kind providerAlias blockNumber transactionHash payload
      db = .ok next) :
    Extends primitives collectionId source db next ∧ next.mintEvents = db.mintEvents := by
  rcases bind_eq_ok_iff.mp appended with ⟨raw, _, built⟩
  cases built
  refine ⟨⟨rfl, rfl, rfl, fun _ => mem_insertOrIgnore_of_mem, fun _ => id, ?_, fun _ => Or.inl⟩,
    rfl⟩
  rintro ⟨evidence_unique, position_unique⟩
  exact ⟨evidence_unique.insertOrIgnore _, position_unique⟩

theorem enrichEvent_isPending {collectionAddress transactionHash : Text}
    {answers : TransactionAnswers} {event after : MintEvent}
    (returned : enrichEvent primitives collectionAddress transactionHash answers event =
      .ok after) :
    after.isPending = false ∧ ∃ enriched, after = event.withIdentity enriched := by
  rcases bind_eq_ok_iff.mp returned with ⟨enriched, succeeded, built⟩
  cases built
  refine ⟨?_, enriched, rfl⟩
  exact decide_eq_false (enrichMint_reasonCode succeeded)

theorem positions_eq {collectionId : ℕ} {transactionHash : Bytes} {before after : List MintEvent}
    (related : List.Forall₂ (MintEvent.EnrichedAt collectionId transactionHash) before after) :
    after.map MintEvent.position = before.map MintEvent.position := by
  induction related with
  | nil => rfl
  | cons first _ ih => simp [first.facts.position_eq, ih]

theorem enrichTransaction_eq_ok {collectionId : ℕ} {collectionAddress : Text}
    {providerAlias : String} {rawHash : Bytes} {answers : TransactionAnswers} {db next : Database}
    (enriched : enrichTransaction primitives collectionId collectionAddress providerAlias rawHash
      answers db = .ok next) : EnrichesTransaction collectionId rawHash db next := by
  simp only [enrichTransaction, bind_eq_ok_iff] at enriched
  rcases enriched with ⟨withTransaction, first, withReceipt, second, withTrace, third, mintEvents,
    mapped, built⟩
  cases built
  have firstExtends := appendEvidence_extends collectionId (fun _ => False) first
  have secondExtends := appendEvidence_extends collectionId (fun _ => False) second
  have thirdExtends : Extends primitives collectionId (fun _ => False) withReceipt withTrace ∧
      withTrace.mintEvents = withReceipt.mintEvents := by
    simp only [appendTrace] at third
    split at third
    · exact appendEvidence_extends collectionId _ third
    · cases third
      exact ⟨.refl _, rfl⟩
  have extended := (firstExtends.1.trans secondExtends.1).trans thirdExtends.1
  have mints_eq : withTrace.mintEvents = db.mintEvents := by
    rw [thirdExtends.2, secondExtends.2, firstExtends.2]
  have related : List.Forall₂ (MintEvent.EnrichedAt collectionId rawHash) db.mintEvents
      mintEvents := by
    rw [← mints_eq]
    refine (mapM_eq_ok_iff.mp mapped).imp ?_
    intro event after returned
    split_ifs at returned with awaiting
    · rcases enrichEvent_isPending returned with ⟨settled, enriched⟩
      exact ⟨Or.inr enriched, fun _ => settled,
        fun untouched => absurd awaiting (by simp [untouched])⟩
    · cases returned
      exact ⟨Or.inl rfl, fun selected => absurd selected awaiting, fun _ => rfl⟩
  refine ⟨extended.collections, extended.scanJobs, extended.scanCheckpoints,
    extended.evidence_kept, fun wellFormed => ?_, related⟩
  have grown := extended.wellFormed wellFormed
  refine ⟨grown.evidence_unique, ?_⟩
  have unique := wellFormed.position_unique
  simpa only [Relational.Unique, positions_eq related] using unique

theorem EnrichesTransaction.rowsKept {collectionId : ℕ} {transactionHash : Bytes}
    {before after : Database}
    (enriches : EnrichesTransaction collectionId transactionHash before after) :
    RowsKept before after where
  evidence := enriches.evidence_kept
  backward := by
    intro row row_mem
    rcases exists_left_of_forall₂ enriches.mints row_mem with ⟨old, old_mem, enrichedAt⟩
    exact ⟨old, old_mem, enrichedAt.facts⟩
  forward := by
    intro old old_mem
    rcases exists_right_of_forall₂ enriches.mints old_mem with ⟨row, row_mem, enrichedAt⟩
    exact ⟨row, row_mem, enrichedAt.facts⟩

end CopyMint
