import CopyMint.Ethereum.MintEncoding
import CopyMint.Ethereum.WireBatches

/-!
# Rescans

A rescan commits batches that overlap the ones committed before. It adds rows for the
logs that were not stored at the ends of the tables of evidence and of mints, and
rewrites none. A log that is stored is stored again without any change, and with it a
batch, whose checkpoint is then there as well.
-/

namespace CopyMint

open Hexadecimal Relational Fallible AbiEncoding

section Rows

variable (primitives : Primitives)

/-- A row inserted for the evidence of a log. -/
def IsEvidenceRowOf (providerAlias : String) (log : EvmLog) (row : RawEvidence) : Prop :=
  ∃ id transactionHash, hexBytes log.transactionHash 32 = .ok transactionHash ∧
    row = evidenceRow primitives providerAlias id transactionHash log

/-- A row inserted for a mint of a log. -/
def IsMintRowOf (collectionId : ℕ) (log : EvmLog) (row : MintEvent) : Prop :=
  ∃ mint, IsMintOf primitives log mint ∧ row.Records collectionId mint ∧ row.IsUnidentified

/-- Rows are added for logs of a source, and all others are left as they are. -/
structure AddsRows (consumer : SqlAlchemyMintBatchConsumer) (source : EvmLog → Prop)
    (before after : Database) : Prop where
  rawEvidence : Grows RawEvidence.contentHash
    (fun row => ∃ log, source log ∧ IsEvidenceRowOf primitives consumer.providerAlias log row)
    before.rawEvidence after.rawEvidence
  mintEvents : Grows MintEvent.position
    (fun row => ∃ log, source log ∧ IsMintRowOf primitives consumer.collectionId log row)
    before.mintEvents after.mintEvents

/-- Nothing but the next identifier differs. -/
structure SameTables (before after : Database) : Prop where
  collections : after.collections = before.collections
  scanJobs : after.scanJobs = before.scanJobs
  scanCheckpoints : after.scanCheckpoints = before.scanCheckpoints
  rawEvidence : after.rawEvidence = before.rawEvidence
  mintEvents : after.mintEvents = before.mintEvents

/-- A log of which everything can be stored that it stands for. -/
structure IsStorable (log : EvmLog) : Prop where
  transactionHash : ∃ bytes, hexBytes log.transactionHash 32 = .ok bytes
  mints : ∃ mints, decodeMintLog primitives log = .ok mints ∧
    ∀ mint ∈ mints, ∃ bytes, hexBytes mint.blockHash 32 = .ok bytes

end Rows

variable {primitives : Primitives} {consumer : SqlAlchemyMintBatchConsumer}
  {source : EvmLog → Prop} {db next before middle after : Database} {log : EvmLog}

section Additions

theorem AddsRows.refl (db : Database) : AddsRows primitives consumer source db db :=
  ⟨Grows.refl _, Grows.refl _⟩

theorem AddsRows.trans (first : AddsRows primitives consumer source before middle)
    (second : AddsRows primitives consumer source middle after) :
    AddsRows primitives consumer source before after :=
  ⟨first.rawEvidence.trans second.rawEvidence, first.mintEvents.trans second.mintEvents⟩

/-- A row under a free key belongs to a log that was not stored. -/
theorem AddsRows.unstored (adds : AddsRows primitives consumer source before after) :
    AddsRows primitives consumer (fun log => source log ∧ ¬LogStored primitives before log)
      before after := by
  constructor
  · refine adds.rawEvidence.imp fun row isNew free => ?_
    rcases isNew with ⟨log, log_source, id, transactionHash, hash_eq, rfl⟩
    refine ⟨log, ⟨log_source, fun stored => ?_⟩, id, transactionHash, hash_eq, rfl⟩
    rcases stored.evidence with ⟨existing, existing_mem, same⟩
    exact free existing existing_mem same
  · refine adds.mintEvents.imp fun row isNew free => ?_
    rcases isNew with ⟨log, log_source, mint, isMint, records, unidentified⟩
    refine ⟨log, ⟨log_source, fun stored => ?_⟩, mint, isMint, records, unidentified⟩
    rcases stored.mints mint isMint with ⟨existing, existing_mem, transactionHash, hash_eq, same⟩
    cases hash_eq.symm.trans records.transactionHash
    refine free existing existing_mem ?_
    rw [same, MintEvent.position, records.chainId, records.logIndex, records.subIndex]

theorem storeMint_addsRows {rawEvidenceId : ℕ} {mint : DecodedMint} (log_source : source log)
    (isMint : IsMintOf primitives log mint)
    (stored : consumer.storeMint rawEvidenceId db mint = .ok next) :
    AddsRows primitives consumer source db next := by
  rcases SqlAlchemyMintBatchConsumer.storeMint_eq_ok stored with
    ⟨row, records, _, unidentified, rfl⟩
  exact ⟨Grows.refl _,
    grows_insertOrIgnore ⟨log, log_source, mint, isMint, records, unidentified⟩ _⟩

/-- Storing a log adds rows for the log only, and succeeds for storable logs only. -/
theorem storeLog_addsRows (log_source : source log)
    (stored : consumer.storeLog primitives db log = .ok next) :
    AddsRows primitives consumer source db next ∧ IsStorable primitives log := by
  simp only [SqlAlchemyMintBatchConsumer.storeLog, bind_eq_ok_iff] at stored
  rcases stored with ⟨transactionHash, hash_eq, stored⟩
  have inserted : AddsRows primitives consumer source db
      (consumer.insertEvidence primitives transactionHash log db) :=
    ⟨grows_insertOrIgnore ⟨log, log_source, _, transactionHash, hash_eq, rfl⟩ _, Grows.refl _⟩
  split at stored
  · cases stored
  rename_i created found
  rcases bind_eq_ok_iff.mp stored with ⟨mints, decodes, looped⟩
  have added := foldlM_invariant (AddsRows primitives consumer source _)
    (fun mint_mem before stepped =>
      before.trans (storeMint_addsRows log_source ⟨mints, decodes, mint_mem⟩ stepped))
    looped (AddsRows.refl _)
  have hashed : ∀ mint ∈ mints, ∃ bytes, hexBytes mint.blockHash 32 = .ok bytes := by
    refine foldlM_establishes (fun _ => True)
      (fun mint _ => ∃ bytes, hexBytes mint.blockHash 32 = .ok bytes) (fun _ _ _ => trivial)
      ?_ ?_ looped trivial
    · intro before mint after _ _ stepped
      exact (bind_eq_ok_iff.mp stepped).imp fun _ facts => facts.1
    · intro before mint after other _ _ _ already
      exact already
  exact ⟨inserted.trans added, ⟨transactionHash, hash_eq⟩, mints, decodes, hashed⟩

theorem storeLogs_addsRows {logs : List EvmLog}
    (stored : logs.foldlM (consumer.storeLog primitives) db = .ok next) :
    AddsRows primitives consumer (· ∈ logs) db next ∧ ∀ log ∈ logs, IsStorable primitives log := by
  have each : ∀ {before log after}, log ∈ logs →
      consumer.storeLog primitives before log = .ok after →
      AddsRows primitives consumer (· ∈ logs) before after ∧ IsStorable primitives log :=
    fun log_mem stepped => storeLog_addsRows log_mem stepped
  constructor
  · exact foldlM_invariant (AddsRows primitives consumer (· ∈ logs) db)
      (fun log_mem before stepped => before.trans (each log_mem stepped).1)
      stored (AddsRows.refl db)
  · exact foldlM_establishes (fun _ => True) (fun log _ => IsStorable primitives log)
      (fun _ _ _ => trivial) (fun log_mem _ stepped => (each log_mem stepped).2)
      (fun _ _ _ already => already) stored trivial

end Additions

section Repetition

theorem SameTables.refl (db : Database) : SameTables db db := ⟨rfl, rfl, rfl, rfl, rfl⟩

theorem SameTables.trans (first : SameTables before middle) (second : SameTables middle after) :
    SameTables before after where
  collections := second.collections.trans first.collections
  scanJobs := second.scanJobs.trans first.scanJobs
  scanCheckpoints := second.scanCheckpoints.trans first.scanCheckpoints
  rawEvidence := second.rawEvidence.trans first.rawEvidence
  mintEvents := second.mintEvents.trans first.mintEvents

theorem SameTables.logStored (same : SameTables before after)
    (stored : LogStored primitives before log) : LogStored primitives after log := by
  refine stored.mono ?_ ?_
  · rw [same.rawEvidence]
    exact List.Subset.refl _
  · rw [same.mintEvents]
    exact List.Subset.refl _

theorem storeMint_again (rawEvidenceId : ℕ) {mint : DecodedMint} (taken : PositionTaken db mint)
    (hashed : ∃ bytes, hexBytes mint.blockHash 32 = .ok bytes) :
    ∃ next, consumer.storeMint rawEvidenceId db mint = .ok next ∧ SameTables db next := by
  rcases taken with ⟨row, row_mem, transactionHash, transactionHash_eq, position_eq⟩
  rcases hashed with ⟨blockHash, blockHash_eq⟩
  refine ⟨{ db with nextId := db.nextId + 1 }, ?_, rfl, rfl, rfl, rfl, rfl⟩
  simp only [SqlAlchemyMintBatchConsumer.storeMint, blockHash_eq, transactionHash_eq, ok_bind]
  rw [insertOrIgnore_of_conflict ⟨row, row_mem, position_eq⟩]

/-- A stored log is stored again without any change. -/
theorem storeLog_again (storable : IsStorable primitives log)
    (stored : LogStored primitives db log) :
    ∃ next, consumer.storeLog primitives db log = .ok next ∧ SameTables db next := by
  rcases storable.transactionHash with ⟨transactionHash, hash_eq⟩
  rcases storable.mints with ⟨mints, decodes, hashed⟩
  have inserted : SameTables db (consumer.insertEvidence primitives transactionHash log db) := by
    refine ⟨rfl, rfl, rfl, ?_, rfl⟩
    rcases stored.evidence with ⟨evidence, evidence_mem, same⟩
    exact insertOrIgnore_of_conflict ⟨evidence, evidence_mem, same⟩
  cases found : lookup RawEvidence.contentHash (contentHash primitives (evidencePayload log))
      (consumer.insertEvidence primitives transactionHash log db).rawEvidence with
  | none =>
      rcases (inserted.logStored stored).evidence with ⟨evidence, evidence_mem, same⟩
      exact absurd same (lookup_eq_none_iff.mp found evidence evidence_mem)
  | some created =>
      have step : ∀ mint ∈ mints, ∀ before, SameTables db before →
          ∃ after, consumer.storeMint created.id before mint = .ok after ∧ SameTables db after := by
        intro mint mint_mem before same
        have taken := (same.logStored stored).mints mint ⟨mints, decodes, mint_mem⟩
        rcases storeMint_again created.id taken (hashed mint mint_mem) with
          ⟨after, stepped, kept⟩
        exact ⟨after, stepped, same.trans kept⟩
      rcases exists_foldlM_invariant (SameTables db) step inserted with ⟨next, looped, same⟩
      refine ⟨next, ?_, same⟩
      simp only [SqlAlchemyMintBatchConsumer.storeLog, bind_eq_ok_iff]
      refine ⟨transactionHash, hash_eq, ?_⟩
      simp only [found, bind_eq_ok_iff]
      exact ⟨mints, decodes, looped⟩

theorem ScanCheckpoint.moveTo_moveTo (endBlock : ℕ) (endBlockHash : Bytes)
    (stored : ScanCheckpoint) :
    (stored.moveTo endBlock endBlockHash).moveTo endBlock endBlockHash =
      stored.moveTo endBlock endBlockHash := by
  by_cases advances : stored.lastCommittedBlockNumber ≤ endBlock
  · simp [moveTo, advances]
  · simp [moveTo, advances]

/-- A checkpoint that was moved is moved again without any change. -/
theorem moveCheckpoint_again (endBlock : ℕ) (endBlockHash : Bytes) {moved : Database}
    (same : moved.scanCheckpoints =
      (consumer.moveCheckpoint endBlock endBlockHash db).scanCheckpoints) :
    (consumer.moveCheckpoint endBlock endBlockHash moved).scanCheckpoints =
      moved.scanCheckpoints := by
  have reached : ∀ row ∈ moved.scanCheckpoints,
      row.key = (consumer.collectionId, consumer.scanVersion) →
      row.moveTo endBlock endBlockHash = row := by
    intro row row_mem row_key
    simp only [same, SqlAlchemyMintBatchConsumer.moveCheckpoint] at row_mem
    split at row_mem
    · rename_i absent
      rcases List.mem_append.mp row_mem with old | new
      · exact absurd row_key (lookup_eq_none_iff.mp absent row old)
      · rw [List.mem_singleton.mp new]
        simp [ScanCheckpoint.moveTo]
    · rcases mem_updateWhere.mp row_mem with ⟨stored, _, rfl⟩
      split_ifs at row_key ⊢ with selected
      · exact stored.moveTo_moveTo endBlock endBlockHash
      · simp [row_key] at selected
  simp only [SqlAlchemyMintBatchConsumer.moveCheckpoint]
  cases found : lookup ScanCheckpoint.key (consumer.collectionId, consumer.scanVersion)
      moved.scanCheckpoints with
  | none =>
      have present := consumer.committedBlock_moveCheckpoint endBlock endBlockHash db
      simp only [Database.committedBlock, Database.checkpoint, ← same, found] at present
      cases present
  | some stored =>
      exact updateWhere_eq_self fun row row_mem selected =>
        reached row row_mem (by simpa using selected)

end Repetition

/--
A successful commit leaves every row of evidence and every mint as it is, and adds rows
for those logs only that were not stored. The commit of the same batch, by any
provider, then succeeds again and changes no table.
-/
theorem commit_neverRewrites {batch : ScanBatch}
    (committed : consumer.commit primitives batch db = .ok next) :
    AddsRows primitives consumer (fun log => log ∈ batch.logs ∧ ¬LogStored primitives db log)
      db next ∧
    ∀ providerAlias, ∃ again,
      { consumer with providerAlias }.commit primitives batch next = .ok again ∧
        SameTables next again := by
  rcases bind_eq_ok_iff.mp committed with ⟨stored, looped, built⟩
  rcases bind_eq_ok_iff.mp built with ⟨endBlockHash, hash_eq, built⟩
  cases built
  rcases storeLogs_addsRows looped with ⟨adds, storable⟩
  have logsStored := (SqlAlchemyMintBatchConsumer.storeLogs_extends looped).2
  refine ⟨⟨adds.unstored.rawEvidence, adds.unstored.mintEvents⟩, fun providerAlias => ?_⟩
  have step : ∀ log ∈ batch.logs, ∀ before,
      SameTables (consumer.moveCheckpoint batch.endBlock endBlockHash stored) before →
      ∃ after, { consumer with providerAlias }.storeLog primitives before log = .ok after ∧
        SameTables (consumer.moveCheckpoint batch.endBlock endBlockHash stored) after := by
    intro log log_mem before same
    have kept : LogStored primitives
        (consumer.moveCheckpoint batch.endBlock endBlockHash stored) log := by
      refine (logsStored log log_mem).mono ?_ ?_
      · exact fun _ => id
      · exact fun _ => id
    rcases storeLog_again (storable log log_mem) (same.logStored kept) with ⟨after, stepped, same'⟩
    exact ⟨after, stepped, same.trans same'⟩
  rcases exists_foldlM_invariant _ step (SameTables.refl _) with ⟨again, repeated, same⟩
  refine ⟨consumer.moveCheckpoint batch.endBlock endBlockHash again, ?_, same.trans ?_⟩
  · simp only [SqlAlchemyMintBatchConsumer.commit, bind_eq_ok_iff]
    exact ⟨again, repeated, endBlockHash, hash_eq, rfl⟩
  · have moved := moveCheckpoint_again batch.endBlock endBlockHash same.scanCheckpoints
    exact ⟨rfl, rfl, moved, rfl, rfl⟩

section Samples

/-- The reference primitives with the digest of the evidence of the batch of tokens. -/
def rescanPrimitives : Primitives :=
  { referencePrimitives with
    sha256 := digestOf
      [(evidencePayload batchLog,
        ⟨[0xd9, 0xfe, 0xd0, 0x17, 0x34, 0x3e, 0x83, 0x25, 0x3c, 0x8e, 0x9a, 0xd0,
          0x9b, 0xe3, 0xf4, 0xa7, 0x38, 0x79, 0x41, 0x9b, 0x95, 0xdd, 0x81, 0x8c,
          0x75, 0xcc, 0xbf, 0xb9, 0xa7, 0xd9, 0x41, 0x57], rfl⟩)] }

/-- The first of the three tokens, stored and enriched before under other evidence. -/
def enrichedMint : MintEvent where
  id := 3
  chainId := 1
  collectionId := 1
  rawEvidenceId := 2
  blockNumber := 7
  blockHash := word 3
  transactionHash := word 5
  logIndex := 0
  subIndex := 0
  tokenStandard := .erc1155
  tokenId := 8
  quantity := 1
  recipient := marker ++ hex sampleAddress.val
  transactionSender := some (marker ++ hex sampleAddress.val)
  operator := some (marker ++ hex sampleAddress.val)
  payer := some (marker ++ hex sampleAddress.val)
  probableInitiator := some (marker ++ hex sampleAddress.val)
  identityConfidence := 85
  identityReasonCode := "direct_transaction_sender"
  route := .direct
  classification := .unknownMint
  classificationReasonCode := "sale_state_evidence_missing"
  finality := .finalized
  canonical := true

/-- A database with one enriched mint. -/
def enrichedDatabase : Database := ⟨[], [], [], [], [enrichedMint], 4⟩

/-- The batch of that mint once more. -/
def rescan : ScanBatch := ⟨7, 7, batchLog.blockHash, [batchLog]⟩

end Samples

/-- The enriched mint stays as it is, although its log is stored under new evidence. -/
theorem enrichedMint_neverRewritten :
    ∃ next, SqlAlchemyMintBatchConsumer.commit rescanPrimitives ⟨1, 1, "fallback"⟩ rescan
        enrichedDatabase = .ok next ∧
      (∃ added, next.mintEvents = enrichedMint :: added) ∧
      ∃ again, SqlAlchemyMintBatchConsumer.commit rescanPrimitives ⟨1, 1, "primary"⟩ rescan
        next = .ok again ∧ SameTables next again := by
  have succeeds : (SqlAlchemyMintBatchConsumer.commit rescanPrimitives ⟨1, 1, "fallback"⟩ rescan
      enrichedDatabase).toBool = true := by
    decide +kernel
  cases committed : SqlAlchemyMintBatchConsumer.commit rescanPrimitives ⟨1, 1, "fallback"⟩ rescan
      enrichedDatabase with
  | error raised =>
      rw [committed] at succeeds
      cases succeeds
  | ok next =>
      have kept := commit_neverRewrites committed
      rcases kept.1.mintEvents with ⟨added, mints_eq, _⟩
      exact ⟨next, rfl, ⟨added, mints_eq⟩, kept.2 "primary"⟩

end CopyMint
