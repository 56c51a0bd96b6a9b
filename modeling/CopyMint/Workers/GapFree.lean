import CopyMint.Ethereum.WireBatches
import CopyMint.Workers.ScanCoverage

/-!
# Scans without gaps or duplicates

Runs of any number of executions keep the coverage invariant. For a chain whose
logs have pairwise distinct positions this says that the rows of the collection
correspond one to one to the mints of the logs up to the checkpoint.
-/

namespace CopyMint

open Hexadecimal Relational Interleaving

variable {primitives : Primitives} {collectionId : ℕ} {chain : List EvmLog}

/-- The invariants of the database and of every execution. -/
def ScanWorld (primitives : Primitives) (collectionId : ℕ) (chain : List EvmLog)
    (world : World Database ScanExecution) : Prop :=
  ScanInvariant primitives collectionId chain world.store ∧
    ∀ index, (world.process index).collectionId = collectionId ∧
      PhaseInvariant collectionId world.store (world.process index).phase

theorem Unscanned.scanInvariant {db : Database} (unscanned : Unscanned collectionId chain db) :
    ScanInvariant primitives collectionId chain db where
  wellFormed := unscanned.wellFormed
  range := by simp [Database.jobRange, unscanned.job]
  checkpoint := by simp [unscanned.checkpoint]
  completed := by simp [unscanned.job]
  sound := by
    rintro row row_mem (own | ⟨log, log_mem, same⟩)
    · exact absurd own (unscanned.rows row row_mem).1
    · exact absurd same ((unscanned.rows row row_mem).2 log log_mem)
  complete := by
    rintro log _ ⟨_, _, _, impossible, _⟩
    simp [Database.jobRange, unscanned.job] at impossible

theorem scanWorld_uniform {db : Database} (unscanned : Unscanned collectionId chain db) :
    ScanWorld primitives collectionId chain (World.uniform db ⟨collectionId, .idle⟩) :=
  ⟨unscanned.scanInvariant, fun _ => ⟨rfl, trivial⟩⟩

/-- One action of any execution keeps the invariants and makes progress. -/
theorem ScanWorld.act {world next : World Database ScanExecution} {index : ℕ} {event : ScanEvent}
    (holds : ScanWorld primitives collectionId chain world)
    (answers : AnswersExactly chain world index event)
    (acted : (scanProgram primitives).act world index event = some next) :
    ScanWorld primitives collectionId chain next ∧
      Progresses collectionId world.store next.store := by
  rcases holds.2 index with ⟨own, relies⟩
  have preserves : ∀ {store state},
      (scanProgram primitives).step world.store (world.process index) event = some (store, state) →
      ScanInvariant primitives collectionId chain store ∧
        (state.collectionId = collectionId ∧ PhaseInvariant collectionId store state.phase) ∧
        Progresses collectionId world.store store := by
    intro store state stepped
    rcases scanTransition_of_step stepped with ⟨same, moved⟩
    rw [own] at moved
    rcases moved.preserves holds.1 relies answers with ⟨shared, owned, progresses⟩
    exact ⟨shared, ⟨same.trans own, owned⟩, progresses⟩
  constructor
  · exact Program.act_local _ _ acted
      (fun stepped => ⟨(preserves stepped).1, (preserves stepped).2.1⟩)
      (fun stepped other => ⟨other.1, (preserves stepped).2.2.phaseInvariant other.2⟩) holds.2
  · rcases Program.act_eq_some_iff.mp acted with ⟨store, state, stepped, rfl⟩
    exact (preserves stepped).2.2

theorem ScanWorld.run {start finish : World Database ScanExecution}
    (holds : ScanWorld primitives collectionId chain start)
    (run : (scanProgram primitives).Reaches (AnswersExactly chain) start finish) :
    ScanWorld primitives collectionId chain finish ∧
      Progresses collectionId start.store finish.store :=
  run.relates Progresses.refl Progresses.trans (fun holds answers acted => holds.act answers acted)
    holds

/-- The mints of one log are determined by their positions. -/
theorem IsMintOf.eq_of_subIndex_eq {log : EvmLog} {first second : DecodedMint}
    (first_mint : IsMintOf primitives log first) (second_mint : IsMintOf primitives log second)
    (same : first.subIndex = second.subIndex) : first = second := by
  rcases first_mint with ⟨mints, decodes, first_mem⟩
  rcases second_mint with ⟨others, decodesOthers, second_mem⟩
  cases decodes.symm.trans decodesOthers
  exact (decodeMintLog_expands decodes).eq_of_subIndex_eq first_mem second_mem same

theorem IsMintOf.isFrom {log : EvmLog} {mint : DecodedMint}
    (isMint : IsMintOf primitives log mint) : mint.IsFrom log := by
  rcases isMint with ⟨mints, decodes, mint_mem⟩
  exact (decodeMintLog_expands decodes).isFrom mint mint_mem

theorem hexBytes_eq_ok {value : Text} {length : ℕ} {bytes : Bytes}
    (returned : hexBytes value length = .ok bytes) :
    fromhex (removePrefix marker value) = some bytes ∧ bytes.length = length := by
  simp only [hexBytes] at returned
  split at returned
  · cases returned
  · split_ifs at returned with otherLength
    cases returned
    exact ⟨‹_›, not_not.mp otherLength⟩

/-- A row that records a mint of a log is at the log's position. -/
theorem MintEvent.Records.identity_eq {row : MintEvent} {log : EvmLog} {mint : DecodedMint}
    (records : row.Records collectionId mint) (isMint : IsMintOf primitives log mint) :
    row.identity = log.identity := by
  have isFrom := isMint.isFrom
  have hash := (hexBytes_eq_ok records.transactionHash).1
  rw [isFrom.transactionHash] at hash
  rw [MintEvent.identity, EvmLog.identity, hash, records.logIndex, isFrom.logIndex]

/-- What a scan without gaps or duplicates has stored up to a checkpoint. -/
structure GapFree (primitives : Primitives) (collectionId : ℕ) (chain : List EvmLog)
    (db : Database) (job : ScanJob) (checkpoint : ℕ) : Prop where
  started : job.startBlock ≤ checkpoint
  bounded : checkpoint ≤ job.endBlock
  completed : job.status = .completed → checkpoint = job.endBlock
  /-- No two rows share a position, nor two pieces of evidence a content hash. -/
  wellFormed : db.WellFormed
  /-- Every mint has exactly one row. -/
  recorded : ∀ log ∈ chain, job.startBlock ≤ log.blockNumber → log.blockNumber ≤ checkpoint →
    ∀ mint, IsMintOf primitives log mint →
      ∃! row, row ∈ db.mintEvents ∧ row.Records collectionId mint
  /-- Every row of the collection is that of exactly one mint. -/
  recordsMint : ∀ row ∈ db.mintEvents, row.collectionId = collectionId →
    ∃! source : EvmLog × DecodedMint, source.1 ∈ chain ∧
      (job.startBlock ≤ source.1.blockNumber ∧ source.1.blockNumber ≤ checkpoint) ∧
      IsMintOf primitives source.1 source.2 ∧ row.Records collectionId source.2
  /-- Every log has exactly one piece of evidence, to which its rows point. -/
  evidence : ∀ log ∈ chain, job.startBlock ≤ log.blockNumber → log.blockNumber ≤ checkpoint →
    ∃! evidence, evidence ∈ db.rawEvidence ∧
      evidence.contentHash = evidenceHash primitives log ∧
      ∀ row ∈ db.mintEvents, ∀ mint, IsMintOf primitives log mint →
        row.Records collectionId mint → row.rawEvidenceId = evidence.id

/-- The invariant gives a scan without gaps or duplicates at every checkpoint. -/
theorem ScanInvariant.gapFree {db : Database} {job : ScanJob} {checkpoint : ℕ}
    (holds : ScanInvariant primitives collectionId chain db)
    (distinct : (chain.map EvmLog.identity).Nodup) (job_eq : db.job collectionId = some job)
    (committed : db.committedBlock collectionId 1 = some checkpoint) :
    GapFree primitives collectionId chain db job checkpoint := by
  have range : db.jobRange collectionId = some (job.startBlock, job.endBlock) := by
    simp [Database.jobRange, job_eq]
  have covered_iff : ∀ block, Covered collectionId db block ↔
      job.startBlock ≤ block ∧ block ≤ checkpoint := by
    intro block
    simp [Covered, range, committed]
  have same_log : ∀ {first second : EvmLog}, first ∈ chain → second ∈ chain →
      first.identity = second.identity → first = second :=
    fun first_mem second_mem same => List.inj_on_of_nodup_map distinct first_mem second_mem same
  -- Whatever row records a mint of a chain log comes from that very log and points to its evidence.
  have points : ∀ {row log mint}, row ∈ db.mintEvents → log ∈ chain →
      IsMintOf primitives log mint → row.Records collectionId mint →
      PointsTo primitives db row log := by
    intro row log mint row_mem log_mem isMint records
    rcases holds.sound row row_mem (Or.inl records.collectionId) with
      ⟨other, other_mem, _, otherMint, isOther, otherRecords, points⟩
    have same := same_log log_mem other_mem
      ((records.identity_eq isMint).symm.trans (otherRecords.identity_eq isOther))
    exact same ▸ points
  rcases holds.checkpoint committed with ⟨_, _, same, started, bounded⟩
  cases range.symm.trans same
  refine ⟨started, bounded, ?_, holds.wellFormed, ?_, ?_, ?_⟩
  · intro completed
    exact Option.some.inj (committed.symm.trans (holds.completed job_eq completed))
  · intro log log_mem start_le le_checkpoint mint isMint
    have stored := holds.complete log log_mem ((covered_iff _).mpr ⟨start_le, le_checkpoint⟩)
    rcases stored.mints mint isMint with ⟨row, row_mem, transactionHash, hash_eq, position⟩
    simp only [MintEvent.position, Prod.mk.injEq] at position
    have isFrom := isMint.isFrom
    have identity : row.identity = log.identity := by
      rw [MintEvent.identity, EvmLog.identity, position.2.1, position.2.2.1, isFrom.logIndex,
        ← isFrom.transactionHash, (hexBytes_eq_ok hash_eq).1]
    rcases holds.sound row row_mem (Or.inr ⟨log, log_mem, identity⟩) with
      ⟨other, other_mem, _, otherMint, isOther, records, _⟩
    have same := same_log log_mem other_mem (identity.symm.trans (records.identity_eq isOther))
    subst same
    have sameMint : otherMint = mint :=
      isOther.eq_of_subIndex_eq isMint (records.subIndex.symm.trans position.2.2.2)
    subst sameMint
    refine ⟨row, ⟨row_mem, records⟩, ?_⟩
    rintro candidate ⟨candidate_mem, candidate_records⟩
    refine holds.wellFormed.position_unique.eq_of_key_eq candidate_mem row_mem ?_
    have sameHash := candidate_records.transactionHash.symm.trans records.transactionHash
    simp only [Except.ok.injEq] at sameHash
    simp only [MintEvent.position, candidate_records.chainId, records.chainId,
      candidate_records.logIndex, records.logIndex, candidate_records.subIndex, records.subIndex,
      sameHash]
  · intro row row_mem own
    rcases holds.sound row row_mem (Or.inl own) with
      ⟨log, log_mem, covered, mint, isMint, records, _⟩
    refine ⟨(log, mint), ⟨log_mem, (covered_iff _).mp covered, isMint, records⟩, ?_⟩
    rintro ⟨other, otherMint⟩ ⟨other_mem, _, isOther, otherRecords⟩
    have sameLog := same_log other_mem log_mem
      ((otherRecords.identity_eq isOther).symm.trans (records.identity_eq isMint))
    simp only at sameLog
    subst sameLog
    have sameMint : otherMint = mint :=
      isOther.eq_of_subIndex_eq isMint (otherRecords.subIndex.symm.trans records.subIndex)
    rw [sameMint]
  · intro log log_mem start_le le_checkpoint
    rcases (holds.complete log log_mem
      ((covered_iff _).mpr ⟨start_le, le_checkpoint⟩)).evidence with
      ⟨evidence, evidence_mem, hash_eq⟩
    refine ⟨evidence, ⟨evidence_mem, hash_eq, ?_⟩, ?_⟩
    · intro row row_mem mint isMint records
      rcases points row_mem log_mem isMint records with ⟨other, other_mem, other_hash, id_eq⟩
      rw [id_eq, holds.wellFormed.evidence_unique.eq_of_key_eq other_mem evidence_mem
        (other_hash.trans hash_eq.symm)]
    · rintro other ⟨other_mem, other_hash, _⟩
      exact holds.wellFormed.evidence_unique.eq_of_key_eq other_mem evidence_mem
        (other_hash.trans hash_eq.symm)

/--
In every run of executions of one collection, whatever their interleaving, the
database is free of gaps and duplicates at its checkpoint, and the checkpoint
never decreases afterwards.
-/
theorem scan_gapFree {db : Database} {world : World Database ScanExecution} {checkpoint : ℕ}
    (distinct : (chain.map EvmLog.identity).Nodup) (unscanned : Unscanned collectionId chain db)
    (run : (scanProgram primitives).Reaches (AnswersExactly chain)
      (World.uniform db ⟨collectionId, .idle⟩) world)
    (committed : world.store.committedBlock collectionId 1 = some checkpoint) :
    (∃ job, world.store.job collectionId = some job ∧
      GapFree primitives collectionId chain world.store job checkpoint) ∧
      ∀ later, (scanProgram primitives).Reaches (AnswersExactly chain) world later →
        ∃ laterCheckpoint, later.store.committedBlock collectionId 1 = some laterCheckpoint ∧
          checkpoint ≤ laterCheckpoint := by
  have holds := ((scanWorld_uniform unscanned).run run).1
  constructor
  · rcases holds.1.checkpoint committed with ⟨startBlock, endBlock, range, _⟩
    rcases Option.map_eq_some_iff.mp range with ⟨job, job_eq, _⟩
    exact ⟨job, job_eq, holds.1.gapFree distinct job_eq committed⟩
  · intro later onward
    exact (holds.run onward).2.checkpoint committed

section Samples

/-- The transfer of the wire samples with the decoder's own constant as topic 0. -/
def unmarkedTransferLog : EvmLog :=
  { transferLog with
    topics := erc721TransferTopic sampleHashes :: transferLog.topics.tail }

/-- The transaction that the transfer belongs to, a direct call of the collection. -/
def sampleTransaction : EvmTransaction where
  transactionHash := unmarkedTransferLog.transactionHash
  sender := marker ++ hex sampleAddress.val
  recipient := some (marker ++ hex sampleAddress.val)
  valueWei := 0
  inputData := marker
  blockNumber := 7

/-- The receipt of the sample transaction. -/
def sampleReceipt : EvmReceipt where
  transactionHash := unmarkedTransferLog.transactionHash
  blockNumber := 7
  blockHash := unmarkedTransferLog.blockHash
  status := 1
  gasUsed := 50000
  effectiveGasPrice := none

/-- The sample hashes with the digests of the evidence of that transfer. -/
def scanHashes : Primitives :=
  { sampleHashes with
    sha256 := digestOf
      [(evidencePayload unmarkedTransferLog,
        ⟨[0x39, 0xd0, 0x0f, 0xad, 0x04, 0xc4, 0xff, 0x0c, 0x61, 0x5e, 0x3a, 0x30,
          0x1e, 0x38, 0x19, 0xde, 0xe5, 0xa2, 0x2f, 0x1e, 0xb9, 0x8b, 0xd3, 0xb1,
          0x3a, 0x8c, 0x4f, 0x59, 0x45, 0x42, 0xb0, 0x31], rfl⟩),
      (evidenceDocument .transaction (transactionPayload sampleTransaction),
        ⟨[0x8b, 0xe0, 0xa6, 0x05, 0x0e, 0x78, 0x1d, 0x0d, 0xe1, 0xb3, 0x9e, 0x40,
          0xf6, 0x23, 0x29, 0xe9, 0x85, 0x0d, 0x96, 0x4c, 0x83, 0xee, 0x02, 0xe0,
          0xa9, 0x3d, 0xd8, 0xd2, 0xad, 0x5d, 0x66, 0x95], rfl⟩),
      (evidenceDocument .receipt (receiptPayload sampleReceipt),
        ⟨[0xee, 0xcd, 0x6a, 0x39, 0xd7, 0xcb, 0xe8, 0x81, 0xd3, 0x4b, 0xd8, 0xc0,
          0x68, 0xec, 0x14, 0x90, 0x4e, 0x3c, 0xf7, 0x37, 0xbc, 0x06, 0xa2, 0x0c,
          0x31, 0xde, 0xe0, 0xab, 0x5d, 0x6e, 0x91, 0x29], rfl⟩)] }

/-- The chunk sizes of the configuration. -/
def sampleSettings : WorkerSettings where
  indexerInitialChunk := 2000
  indexerMaxChunk := 5000
  positive := by decide
  ordered := by decide
  bounded := by decide

/-- The block of the sample transfer. -/
def sampleBlock : BlockReference := ⟨7, marker ++ List.replicate 64 '3'⟩

/-- An execution opens the job of one block and commits the block's only log. -/
def commitSchedule : List (ℕ × ScanEvent) :=
  [(0, .load sampleSettings), (0, .finalized sampleBlock), (0, .openJob),
    (0, .batch [unmarkedTransferLog] sampleBlock)]

/-- No execution has begun. -/
def sampleWorld : World Database ScanExecution := World.uniform sampleDatabase ⟨1, .idle⟩

theorem unscanned_sampleDatabase : Unscanned 1 [unmarkedTransferLog] sampleDatabase where
  wellFormed := ⟨unique_nil, unique_nil⟩
  job := rfl
  checkpoint := rfl
  rows := by simp [sampleDatabase]

end Samples

theorem sampleScan_gapFree :
    ∃ world, (scanProgram scanHashes).Reaches (AnswersExactly [unmarkedTransferLog]) sampleWorld
        world ∧
      ∃ job, world.store.job 1 = some job ∧
        GapFree scanHashes 1 [unmarkedTransferLog] world.store job 7 := by
  have committed : ((scanProgram scanHashes).execute sampleWorld commitSchedule).bind
      (fun world => world.store.committedBlock 1 1) = some 7 := by decide +kernel
  rcases Option.bind_eq_some_iff.mp committed with ⟨world, executed, committed⟩
  have meets : (scanProgram scanHashes).Meets (AnswersExactly [unmarkedTransferLog]) sampleWorld
      commitSchedule := by decide +kernel
  have run := Program.reaches_of_execute executed meets
  exact ⟨world, run, (scan_gapFree (by simp) unscanned_sampleDatabase run committed).1⟩

end CopyMint
