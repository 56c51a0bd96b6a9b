import CopyMint.Ethereum.Database
import CopyMint.Ethereum.Decoders
import CopyMint.Ethereum.Scanner

/-!
# Atomic persistence of mint batches

One transaction stores the evidence of every log of a batch and the mints decoded
from it, and then moves the checkpoint, never backwards. Evidence is identified
by the hash of its canonical JSON text and a mint by its position on the chain;
rows that are there already are left alone.
-/

namespace CopyMint

open Hexadecimal Relational Fallible

variable (primitives : Primitives)

/-- `hex_bytes`. -/
def hexBytes (value : Text) (length : ℕ) : Except Raised Bytes :=
  match fromhex (removePrefix marker value) with
  | none => .error (.valueError "Ethereum hexadecimal value is malformed")
  | some result =>
      if result.length ≠ length then
        .error (.valueError s!"Ethereum value must contain {length} bytes")
      else .ok result

/-- What is stored of a log. -/
def evidencePayload (log : EvmLog) : Json :=
  .obj
    [("address".toList, .str log.address), ("topics".toList, .arr (log.topics.map .str)),
      ("data".toList, .str log.data), ("block_number".toList, .int log.blockNumber),
      ("block_hash".toList, .str log.blockHash),
      ("transaction_hash".toList, .str log.transactionHash),
      ("log_index".toList, .int log.logIndex), ("removed".toList, .bool log.removed)]

/-- The hash of a document's canonical text. -/
def contentHash (document : Json) : BytesOf 32 := primitives.sha256 (Json.utf8 document.dumps)

/-- The consumer of the batches of one scan. -/
structure SqlAlchemyMintBatchConsumer where
  collectionId : ℕ
  scanVersion : ℕ
  providerAlias : String
  deriving DecidableEq

/-- The row inserted for a decoded mint. -/
def mintRow (collectionId rawEvidenceId id : ℕ) (blockHash transactionHash : Bytes)
    (mint : DecodedMint) : MintEvent where
  id
  chainId := 1
  collectionId
  rawEvidenceId
  blockNumber := mint.blockNumber
  blockHash
  transactionHash
  logIndex := mint.logIndex
  subIndex := mint.subIndex
  tokenStandard := mint.tokenStandard
  tokenId := mint.tokenId
  quantity := mint.quantity
  recipient := mint.recipient
  transactionSender := none
  operator := mint.operator
  payer := none
  probableInitiator := none
  identityConfidence := 0
  identityReasonCode := "not_enriched"
  route := .unknown
  classification := .unknownMint
  classificationReasonCode := "not_classified"
  finality := .finalized
  canonical := true

/-- The row inserted for the evidence of a log. -/
def evidenceRow (providerAlias : String) (id : ℕ) (transactionHash : Bytes) (log : EvmLog) :
    RawEvidence where
  id
  chainId := 1
  kind := .log
  contentHash := contentHash primitives (evidencePayload log)
  providerAlias
  blockNumber := some log.blockNumber
  transactionHash := some transactionHash
  payload := evidencePayload log
  retentionStatus := .active

/-- The conflict action of the checkpoint: take over a block that is not older. -/
def ScanCheckpoint.moveTo (stored : ScanCheckpoint) (endBlock : ℕ) (endBlockHash : Bytes) :
    ScanCheckpoint :=
  if stored.lastCommittedBlockNumber ≤ endBlock then
    { stored with
      lastCommittedBlockNumber := endBlock
      lastCommittedBlockHash := endBlockHash }
  else stored

theorem ScanCheckpoint.key_moveTo (endBlock : ℕ) (endBlockHash : Bytes)
    (stored : ScanCheckpoint) : (stored.moveTo endBlock endBlockHash).key = stored.key := by
  simp only [moveTo]
  split <;> rfl

theorem ScanCheckpoint.lastCommittedBlockNumber_moveTo (endBlock : ℕ) (endBlockHash : Bytes)
    (stored : ScanCheckpoint) :
    (stored.moveTo endBlock endBlockHash).lastCommittedBlockNumber =
      max endBlock stored.lastCommittedBlockNumber := by
  simp only [moveTo]
  split
  · rename_i advances
    exact (max_eq_left advances).symm
  · rename_i behind
    exact (max_eq_right (Nat.le_of_not_le behind)).symm

namespace SqlAlchemyMintBatchConsumer

variable (consumer : SqlAlchemyMintBatchConsumer)

/-- Insert the row of a mint unless its position is taken. -/
def storeMint (rawEvidenceId : ℕ) (db : Database) (mint : DecodedMint) :
    Except Raised Database := do
  let blockHash ← hexBytes mint.blockHash 32
  let transactionHash ← hexBytes mint.transactionHash 32
  let row := mintRow consumer.collectionId rawEvidenceId db.nextId blockHash transactionHash mint
  .ok
    { db with
      mintEvents := insertOrIgnore MintEvent.position row db.mintEvents
      nextId := db.nextId + 1 }

/-- Insert the row of a log unless one has the same content hash. -/
def insertEvidence (transactionHash : Bytes) (log : EvmLog) (db : Database) : Database :=
  let row := evidenceRow primitives consumer.providerAlias db.nextId transactionHash log
  { db with
    rawEvidence := insertOrIgnore RawEvidence.contentHash row db.rawEvidence
    nextId := db.nextId + 1 }

/-- Store a log and the mints that it is decoded to. -/
def storeLog (db : Database) (log : EvmLog) : Except Raised Database := do
  let transactionHash ← hexBytes log.transactionHash 32
  let db := consumer.insertEvidence primitives transactionHash log db
  -- The row with this content hash, whether it was inserted now or was there before.
  match lookup RawEvidence.contentHash (contentHash primitives (evidencePayload log))
    db.rawEvidence with
  | none => .error (.runtimeError "evidence idempotency conflict was not recoverable")
  | some created =>
      let mints ← decodeMintLog primitives log
      mints.foldlM (consumer.storeMint created.id) db

/-- Insert the checkpoint, or move it unless that would move it backwards. -/
def moveCheckpoint (endBlock : ℕ) (endBlockHash : Bytes) (db : Database) : Database :=
  let key := (consumer.collectionId, consumer.scanVersion)
  let row : ScanCheckpoint :=
    { id := db.nextId
      collectionId := consumer.collectionId
      scanVersion := consumer.scanVersion
      lastCommittedBlockNumber := endBlock
      lastCommittedBlockHash := endBlockHash }
  let scanCheckpoints :=
    match lookup ScanCheckpoint.key key db.scanCheckpoints with
    | none => db.scanCheckpoints ++ [row]
    | some _ =>
        updateWhere (fun stored => stored.key = key) (·.moveTo endBlock endBlockHash)
          db.scanCheckpoints
  { db with scanCheckpoints, nextId := db.nextId + 1 }

/-- `commit`, one transaction: the logs of a batch and then the checkpoint. -/
def commit (batch : ScanBatch) (db : Database) : Except Raised Database := do
  let db ← batch.logs.foldlM (consumer.storeLog primitives) db
  let endBlockHash ← hexBytes batch.endBlockHash 32
  .ok (consumer.moveCheckpoint batch.endBlock endBlockHash db)

end SqlAlchemyMintBatchConsumer

/-- A log decodes to a list of mints that contains a mint. -/
def IsMintOf (log : EvmLog) (mint : DecodedMint) : Prop :=
  ∃ mints, decodeMintLog primitives log = .ok mints ∧ mint ∈ mints

/-- A row holds the facts of a mint of a collection. -/
structure MintEvent.Records (row : MintEvent) (collectionId : ℕ) (mint : DecodedMint) : Prop where
  chainId : row.chainId = 1
  collectionId : row.collectionId = collectionId
  blockNumber : row.blockNumber = mint.blockNumber
  blockHash : hexBytes mint.blockHash 32 = .ok row.blockHash
  transactionHash : hexBytes mint.transactionHash 32 = .ok row.transactionHash
  logIndex : row.logIndex = mint.logIndex
  subIndex : row.subIndex = mint.subIndex
  tokenStandard : row.tokenStandard = mint.tokenStandard
  tokenId : row.tokenId = mint.tokenId
  quantity : row.quantity = mint.quantity
  recipient : row.recipient = mint.recipient
  operator : row.operator = mint.operator

/-- Nothing is said about who sent, paid for or initiated a mint. -/
structure MintEvent.IsUnidentified (row : MintEvent) : Prop where
  reasonCode : row.identityReasonCode = "not_enriched"
  confidence : row.identityConfidence = 0
  sender : row.transactionSender = none
  payer : row.payer = none
  initiator : row.probableInitiator = none

/-- The unique key of the evidence of a log. -/
def evidenceHash (log : EvmLog) : BytesOf 32 := contentHash primitives (evidencePayload log)

/-- A row points to the evidence of a log. -/
def PointsTo (db : Database) (row : MintEvent) (log : EvmLog) : Prop :=
  ∃ evidence ∈ db.rawEvidence,
    evidence.contentHash = evidenceHash primitives log ∧ row.rawEvidenceId = evidence.id

/-- A row records a mint of a log and points to the log's evidence. -/
def IsRowOf (collectionId : ℕ) (db : Database) (log : EvmLog) (row : MintEvent) : Prop :=
  ∃ mint, IsMintOf primitives log mint ∧ row.Records collectionId mint ∧
    PointsTo primitives db row log

/-- The evidence of a log is stored. -/
def EvidenceStored (db : Database) (log : EvmLog) : Prop :=
  ∃ evidence ∈ db.rawEvidence, evidence.contentHash = evidenceHash primitives log

/-- Some row takes the position of a mint. -/
def PositionTaken (db : Database) (mint : DecodedMint) : Prop :=
  ∃ row ∈ db.mintEvents, ∃ transactionHash,
    hexBytes mint.transactionHash 32 = .ok transactionHash ∧
      row.position = (1, transactionHash, mint.logIndex, mint.subIndex)

/-- The evidence of a log is stored and the positions of its mints are taken. -/
structure LogStored (db : Database) (log : EvmLog) : Prop where
  evidence : EvidenceStored primitives db log
  mints : ∀ mint, IsMintOf primitives log mint → PositionTaken db mint

/-- Rows are added for logs of a source, and nothing else changes. -/
structure Extends (collectionId : ℕ) (source : EvmLog → Prop) (before after : Database) :
    Prop where
  collections : after.collections = before.collections
  scanJobs : after.scanJobs = before.scanJobs
  scanCheckpoints : after.scanCheckpoints = before.scanCheckpoints
  evidence_kept : before.rawEvidence ⊆ after.rawEvidence
  mints_kept : before.mintEvents ⊆ after.mintEvents
  wellFormed : before.WellFormed → after.WellFormed
  mints_new : ∀ row ∈ after.mintEvents,
    row ∈ before.mintEvents ∨ ∃ log, source log ∧ IsRowOf primitives collectionId after log row

variable {primitives} {collectionId : ℕ} {source : EvmLog → Prop}

theorem PointsTo.mono {before after : Database}
    (kept : before.rawEvidence ⊆ after.rawEvidence) {row : MintEvent} {log : EvmLog}
    (points : PointsTo primitives before row log) : PointsTo primitives after row log := by
  rcases points with ⟨evidence, evidence_mem, facts⟩
  exact ⟨evidence, kept evidence_mem, facts⟩

theorem IsRowOf.mono {before after : Database}
    (kept : before.rawEvidence ⊆ after.rawEvidence) {log : EvmLog} {row : MintEvent}
    (isRow : IsRowOf primitives collectionId before log row) :
    IsRowOf primitives collectionId after log row := by
  rcases isRow with ⟨mint, isMint, records, points⟩
  exact ⟨mint, isMint, records, points.mono kept⟩

namespace Extends

theorem refl (db : Database) : Extends primitives collectionId source db db where
  collections := rfl
  scanJobs := rfl
  scanCheckpoints := rfl
  evidence_kept := fun _ => id
  mints_kept := fun _ => id
  wellFormed := id
  mints_new := fun _ => Or.inl

theorem trans {first second third : Database}
    (before : Extends primitives collectionId source first second)
    (after : Extends primitives collectionId source second third) :
    Extends primitives collectionId source first third where
  collections := after.collections.trans before.collections
  scanJobs := after.scanJobs.trans before.scanJobs
  scanCheckpoints := after.scanCheckpoints.trans before.scanCheckpoints
  evidence_kept := fun _ row_mem => after.evidence_kept (before.evidence_kept row_mem)
  mints_kept := fun _ row_mem => after.mints_kept (before.mints_kept row_mem)
  wellFormed := after.wellFormed ∘ before.wellFormed
  mints_new := by
    intro row row_mem
    rcases after.mints_new row row_mem with middle | new
    · rcases before.mints_new row middle with old | ⟨log, log_source, isRow⟩
      · exact Or.inl old
      · exact Or.inr ⟨log, log_source, isRow.mono after.evidence_kept⟩
    · exact Or.inr new

theorem weaken {wider : EvmLog → Prop} (implies : ∀ {log}, source log → wider log)
    {before after : Database} (extended : Extends primitives collectionId source before after) :
    Extends primitives collectionId wider before after where
  collections := extended.collections
  scanJobs := extended.scanJobs
  scanCheckpoints := extended.scanCheckpoints
  evidence_kept := extended.evidence_kept
  mints_kept := extended.mints_kept
  wellFormed := extended.wellFormed
  mints_new := by
    intro row row_mem
    rcases extended.mints_new row row_mem with old | ⟨log, log_source, isRow⟩
    · exact Or.inl old
    · exact Or.inr ⟨log, implies log_source, isRow⟩

end Extends

theorem PositionTaken.mono {before after : Database}
    (kept : before.mintEvents ⊆ after.mintEvents) {mint : DecodedMint}
    (taken : PositionTaken before mint) : PositionTaken after mint := by
  rcases taken with ⟨row, row_mem, facts⟩
  exact ⟨row, kept row_mem, facts⟩

theorem LogStored.mono {before after : Database}
    (evidence_kept : before.rawEvidence ⊆ after.rawEvidence)
    (mints_kept : before.mintEvents ⊆ after.mintEvents) {log : EvmLog}
    (stored : LogStored primitives before log) : LogStored primitives after log where
  evidence := by
    rcases stored.evidence with ⟨evidence, evidence_mem, same⟩
    exact ⟨evidence, evidence_kept evidence_mem, same⟩
  mints := fun mint isMint => (stored.mints mint isMint).mono mints_kept

namespace SqlAlchemyMintBatchConsumer

variable {consumer : SqlAlchemyMintBatchConsumer}

theorem storeMint_eq_ok {rawEvidenceId : ℕ} {db next : Database} {mint : DecodedMint}
    (stored : consumer.storeMint rawEvidenceId db mint = .ok next) :
    ∃ row : MintEvent, row.Records consumer.collectionId mint ∧
      row.rawEvidenceId = rawEvidenceId ∧ row.IsUnidentified ∧
      next =
        { db with
          mintEvents := insertOrIgnore MintEvent.position row db.mintEvents
          nextId := db.nextId + 1 } := by
  simp only [storeMint, bind_eq_ok_iff] at stored
  rcases stored with ⟨blockHash, blockHash_eq, transactionHash, transactionHash_eq, built⟩
  cases built
  refine ⟨_, ?_, rfl, ⟨rfl, rfl, rfl, rfl, rfl⟩, rfl⟩
  constructor <;> first | rfl | assumption

theorem storeMint_extends {rawEvidenceId : ℕ} {db next : Database} {log : EvmLog}
    {mint : DecodedMint} (isMint : IsMintOf primitives log mint)
    (evidence : ∃ created ∈ db.rawEvidence,
      created.contentHash = evidenceHash primitives log ∧ rawEvidenceId = created.id)
    (stored : consumer.storeMint rawEvidenceId db mint = .ok next) :
    Extends primitives consumer.collectionId (· = log) db next ∧ PositionTaken next mint := by
  rcases storeMint_eq_ok stored with ⟨row, records, rfl, _, rfl⟩
  refine ⟨⟨rfl, rfl, rfl, fun _ => id, fun _ => mem_insertOrIgnore_of_mem, ?_, ?_⟩, ?_⟩
  · rintro ⟨evidence_unique, position_unique⟩
    exact ⟨evidence_unique, position_unique.insertOrIgnore row⟩
  · intro candidate candidate_mem
    rcases mem_insertOrIgnore.mp candidate_mem with old | ⟨rfl, _⟩
    · exact Or.inl old
    · exact Or.inr ⟨log, rfl, mint, isMint, records, evidence⟩
  · rcases exists_mem_insertOrIgnore MintEvent.position row db.mintEvents with
      ⟨existing, existing_mem, same⟩
    refine ⟨existing, existing_mem, row.transactionHash, records.transactionHash, ?_⟩
    rw [same, MintEvent.position, records.chainId, records.logIndex, records.subIndex]

theorem insertEvidence_extends (transactionHash : Bytes) (log : EvmLog) (db : Database) :
    Extends primitives consumer.collectionId source db
      (consumer.insertEvidence primitives transactionHash log db) := by
  refine ⟨rfl, rfl, rfl, fun _ => mem_insertOrIgnore_of_mem, fun _ => id, ?_, fun _ => Or.inl⟩
  rintro ⟨evidence_unique, position_unique⟩
  exact ⟨evidence_unique.insertOrIgnore _, position_unique⟩

theorem storeLog_extends {db next : Database} {log : EvmLog}
    (stored : consumer.storeLog primitives db log = .ok next) :
    Extends primitives consumer.collectionId (· = log) db next ∧ LogStored primitives next log := by
  simp only [storeLog, bind_eq_ok_iff] at stored
  rcases stored with ⟨transactionHash, _, stored⟩
  have inserted : Extends primitives consumer.collectionId (· = log) db
      (consumer.insertEvidence primitives transactionHash log db) :=
    insertEvidence_extends transactionHash log db
  split at stored
  · cases stored
  rename_i created found
  rcases lookup_eq_some_mem found with ⟨created_mem, created_hash⟩
  rcases bind_eq_ok_iff.mp stored with ⟨mints, decodes, looped⟩
  have evidence : ∀ {state}, Extends primitives consumer.collectionId (· = log)
      (consumer.insertEvidence primitives transactionHash log db) state →
      ∃ existing ∈ state.rawEvidence,
        existing.contentHash = evidenceHash primitives log ∧ created.id = existing.id :=
    fun extended => ⟨created, extended.evidence_kept created_mem, created_hash, rfl⟩
  have step : ∀ {before mint after}, mint ∈ mints →
      Extends primitives consumer.collectionId (· = log)
        (consumer.insertEvidence primitives transactionHash log db) before →
      consumer.storeMint created.id before mint = .ok after →
      Extends primitives consumer.collectionId (· = log) before after ∧
        PositionTaken after mint :=
    fun mint_mem before stepped =>
      storeMint_extends ⟨mints, decodes, mint_mem⟩ (evidence before) stepped
  have extended := foldlM_invariant
    (Extends primitives consumer.collectionId (· = log) _)
    (fun mint_mem before stepped => before.trans (step mint_mem before stepped).1)
    looped (Extends.refl _)
  have taken := foldlM_establishes
    (Extends primitives consumer.collectionId (· = log) _)
    (fun mint state => PositionTaken state mint)
    (fun mint_mem before stepped => before.trans (step mint_mem before stepped).1)
    (fun mint_mem before stepped => (step mint_mem before stepped).2)
    (fun mint_mem before stepped already =>
      already.mono (step mint_mem before stepped).1.mints_kept)
    looped (Extends.refl _)
  refine ⟨inserted.trans extended, ?_, ?_⟩
  · rcases evidence extended with ⟨existing, existing_mem, same, _⟩
    exact ⟨existing, existing_mem, same⟩
  · rintro mint ⟨others, decodesOthers, mint_mem⟩
    cases decodes.symm.trans decodesOthers
    exact taken mint mint_mem

/-- The logs of a batch are stored, and rows are added for them only. -/
theorem storeLogs_extends {logs : List EvmLog} {db next : Database}
    (stored : logs.foldlM (consumer.storeLog primitives) db = .ok next) :
    Extends primitives consumer.collectionId (· ∈ logs) db next ∧
      ∀ log ∈ logs, LogStored primitives next log := by
  have step : ∀ {before log after}, log ∈ logs →
      consumer.storeLog primitives before log = .ok after →
      Extends primitives consumer.collectionId (· ∈ logs) before after ∧
        LogStored primitives after log := by
    intro before log after log_mem stepped
    rcases storeLog_extends stepped with ⟨extended, logStored⟩
    exact ⟨extended.weaken fun same => same ▸ log_mem, logStored⟩
  constructor
  · exact foldlM_invariant (Extends primitives consumer.collectionId (· ∈ logs) db)
      (fun log_mem before stepped => before.trans (step log_mem stepped).1) stored (Extends.refl db)
  · exact foldlM_establishes (fun _ => True)
      (fun log state => LogStored primitives state log)
      (fun _ _ _ => trivial) (fun log_mem _ stepped => (step log_mem stepped).2)
      (fun log_mem _ stepped already =>
        already.mono (step log_mem stepped).1.evidence_kept (step log_mem stepped).1.mints_kept)
      stored trivial

@[simp]
theorem committedBlock_moveCheckpoint (consumer : SqlAlchemyMintBatchConsumer) (endBlock : ℕ)
    (endBlockHash : Bytes) (db : Database) :
    (consumer.moveCheckpoint endBlock endBlockHash db).committedBlock consumer.collectionId
      consumer.scanVersion =
      some (max endBlock
        ((db.committedBlock consumer.collectionId consumer.scanVersion).getD 0)) := by
  simp only [Database.committedBlock, Database.checkpoint, moveCheckpoint]
  cases found : lookup ScanCheckpoint.key (consumer.collectionId, consumer.scanVersion)
      db.scanCheckpoints with
  | none =>
      simp only [lookup_append, found, lookup_singleton]
      simp [ScanCheckpoint.key]
  | some stored =>
      have stored_key := (lookup_eq_some_mem found).2
      simp only [lookup_updateWhere (ScanCheckpoint.key_moveTo endBlock endBlockHash), found]
      simp [stored_key, ScanCheckpoint.lastCommittedBlockNumber_moveTo]

/-- Any successful commit stores the logs of its batch and then moves the checkpoint. -/
theorem commit_eq_ok {batch : ScanBatch} {db next : Database}
    (committed : consumer.commit primitives batch db = .ok next) :
    ∃ stored endBlockHash,
      Extends primitives consumer.collectionId (· ∈ batch.logs) db stored ∧
        (∀ log ∈ batch.logs, LogStored primitives stored log) ∧
        hexBytes batch.endBlockHash 32 = .ok endBlockHash ∧
        next = consumer.moveCheckpoint batch.endBlock endBlockHash stored := by
  simp only [commit, bind_eq_ok_iff] at committed
  rcases committed with ⟨stored, looped, endBlockHash, hash_eq, built⟩
  cases built
  exact ⟨stored, endBlockHash, (storeLogs_extends looped).1, (storeLogs_extends looped).2,
    hash_eq, rfl⟩

end SqlAlchemyMintBatchConsumer

end CopyMint
