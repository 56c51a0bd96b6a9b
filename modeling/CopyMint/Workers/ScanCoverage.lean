import CopyMint.Workers.Collections

/-!
# Coverage of resumable scans

The invariant behind resumable scans: every log between the start of the job and
the checkpoint is stored, every row of the collection comes from such a log, and
every block below the cursor of an execution is committed. Executions may
overlap in any way, because a commit stores its batch before it moves the
checkpoint, and because the checkpoint never moves backwards.
-/

namespace CopyMint

open Hexadecimal Relational Interleaving

/-- The position of a log on the chain: its transaction, as bytes, and its index. -/
def EvmLog.identity (log : EvmLog) : Option Bytes × ℕ :=
  (fromhex (removePrefix marker log.transactionHash), log.logIndex)

/-- The position of the log that a row belongs to. -/
def MintEvent.identity (row : MintEvent) : Option Bytes × ℕ :=
  (some row.transactionHash, row.logIndex)

theorem MintEvent.SameFacts.identity_eq {before after : MintEvent}
    (same : before.SameFacts after) : after.identity = before.identity := by
  rcases same with rfl | ⟨enriched, rfl⟩ <;> rfl

/-- An answer to a log request consists of exactly the logs of the range, in any order. -/
def isExactAnswer (chain : List EvmLog) : ScanPhase → ScanEvent → Bool
  | .scanning _ slice cursor chunk, .batch logs boundary =>
      logs.isPerm (chain.filter fun log => cursor ≤ log.blockNumber ∧
        log.blockNumber ≤ (scanBatch slice cursor chunk logs boundary).endBlock)
  | _, _ => true

/-- The provider answers every log request of every execution exactly. -/
def AnswersExactly (chain : List EvmLog) : Condition Database ScanExecution ScanEvent :=
  fun world index event => isExactAnswer chain (world.process index).phase event = true

instance (chain : List EvmLog) (world : World Database ScanExecution) (index : ℕ)
    (event : ScanEvent) : Decidable (AnswersExactly chain world index event) :=
  inferInstanceAs (Decidable (_ = true))

/-- A collection that has not been scanned, and rows that are not of its logs. -/
structure Unscanned (collectionId : ℕ) (chain : List EvmLog) (db : Database) : Prop where
  wellFormed : db.WellFormed
  job : db.job collectionId = none
  checkpoint : db.committedBlock collectionId 1 = none
  rows : ∀ row ∈ db.mintEvents, row.collectionId ≠ collectionId ∧
    ∀ log ∈ chain, row.identity ≠ log.identity

variable (primitives : Primitives) (collectionId : ℕ) (chain : List EvmLog)

/-- A block lies between the start of the job and the checkpoint. -/
def Covered (db : Database) (block : ℕ) : Prop :=
  ∃ startBlock endBlock committed, db.jobRange collectionId = some (startBlock, endBlock) ∧
    db.committedBlock collectionId 1 = some committed ∧ startBlock ≤ block ∧ block ≤ committed

/-- The row is one of the collection's, or takes the place of one. -/
def Claims (row : MintEvent) : Prop :=
  row.collectionId = collectionId ∨ ∃ log ∈ chain, row.identity = log.identity

/-- What holds of the database at all times. -/
structure ScanInvariant (db : Database) : Prop where
  wellFormed : db.WellFormed
  range : ∀ {startBlock endBlock}, db.jobRange collectionId = some (startBlock, endBlock) →
    startBlock ≤ endBlock
  checkpoint : ∀ {committed}, db.committedBlock collectionId 1 = some committed →
    ∃ startBlock endBlock, db.jobRange collectionId = some (startBlock, endBlock) ∧
      startBlock ≤ committed ∧ committed ≤ endBlock
  completed : ∀ {job}, db.job collectionId = some job → job.status = .completed →
    db.committedBlock collectionId 1 = some job.endBlock
  sound : ∀ row ∈ db.mintEvents, Claims collectionId chain row →
    ∃ log ∈ chain, Covered collectionId db log.blockNumber ∧
      IsRowOf primitives collectionId db log row
  complete : ∀ log ∈ chain, Covered collectionId db log.blockNumber → LogStored primitives db log

/-- The range of the job has a block, and the checkpoint lies in it. -/
structure RangeInvariant (db : Database) : Prop where
  range : ∀ {startBlock endBlock}, db.jobRange collectionId = some (startBlock, endBlock) →
    startBlock ≤ endBlock
  checkpoint : ∀ {committed}, db.committedBlock collectionId 1 = some committed →
    ∃ startBlock endBlock, db.jobRange collectionId = some (startBlock, endBlock) ∧
      startBlock ≤ committed ∧ committed ≤ endBlock

/-- Every block of the job below a cursor is committed. -/
def CommittedBelow (db : Database) (startBlock cursor : ℕ) : Prop :=
  ∀ block, startBlock ≤ block → block < cursor →
    ∃ committed, db.committedBlock collectionId 1 = some committed ∧ block ≤ committed

/-- What an execution relies on in a phase. -/
def PhaseInvariant (db : Database) : ScanPhase → Prop
  | .scanning _ slice cursor chunk =>
      1 ≤ chunk ∧ cursor ≤ slice.sliceEnd ∧ slice.sliceEnd ≤ slice.fixedEnd ∧
        ∃ startBlock, db.jobRange collectionId = some (startBlock, slice.fixedEnd) ∧
          startBlock ≤ cursor ∧ CommittedBelow collectionId db startBlock cursor
  | .selecting slice | .enriching slice _ _ _ | .merging slice _ =>
      ∃ startBlock, db.jobRange collectionId = some (startBlock, slice.fixedEnd) ∧
        CommittedBelow collectionId db startBlock (slice.sliceEnd + 1)
  | .finishing =>
      ∃ startBlock endBlock, db.jobRange collectionId = some (startBlock, endBlock) ∧
        CommittedBelow collectionId db startBlock (endBlock + 1)
  | .idle | .loaded _ _ | .probing _ _ _ | .opening _ _ _ _ | .ended => True

/-- The job keeps its range and the checkpoint does not move backwards. -/
structure Progresses (before after : Database) : Prop where
  range : ∀ {startBlock endBlock}, before.jobRange collectionId = some (startBlock, endBlock) →
    after.jobRange collectionId = some (startBlock, endBlock)
  checkpoint : ∀ {committed}, before.committedBlock collectionId 1 = some committed →
    ∃ later, after.committedBlock collectionId 1 = some later ∧ committed ≤ later

variable {primitives collectionId chain}

namespace Progresses

theorem refl (db : Database) : Progresses collectionId db db :=
  ⟨id, fun committed => ⟨_, committed, le_rfl⟩⟩

theorem trans {first second third : Database} (before : Progresses collectionId first second)
    (after : Progresses collectionId second third) : Progresses collectionId first third where
  range := after.range ∘ before.range
  checkpoint := by
    intro committed found
    rcases before.checkpoint found with ⟨middle, found, first_le⟩
    rcases after.checkpoint found with ⟨later, found, second_le⟩
    exact ⟨later, found, first_le.trans second_le⟩

theorem of_eq {before after : Database}
    (range : after.jobRange collectionId = before.jobRange collectionId)
    (checkpoint : after.committedBlock collectionId 1 = before.committedBlock collectionId 1) :
    Progresses collectionId before after :=
  ⟨fun found => range.trans found, fun found => ⟨_, checkpoint.trans found, le_rfl⟩⟩

variable {before after : Database}

theorem covered (progresses : Progresses collectionId before after) {block : ℕ}
    (covered : Covered collectionId before block) : Covered collectionId after block := by
  rcases covered with ⟨startBlock, endBlock, committed, range, found, start_le, le_committed⟩
  rcases progresses.checkpoint found with ⟨later, found, committed_le⟩
  exact ⟨startBlock, endBlock, later, progresses.range range, found, start_le,
    le_committed.trans committed_le⟩

theorem committedBelow (progresses : Progresses collectionId before after) {startBlock cursor : ℕ}
    (below : CommittedBelow collectionId before startBlock cursor) :
    CommittedBelow collectionId after startBlock cursor := by
  intro block start_le block_lt
  rcases below block start_le block_lt with ⟨committed, found, le_committed⟩
  rcases progresses.checkpoint found with ⟨later, found, committed_le⟩
  exact ⟨later, found, le_committed.trans committed_le⟩

/-- What an execution relies on is not disturbed by the progress of the others. -/
theorem phaseInvariant (progresses : Progresses collectionId before after) {phase : ScanPhase}
    (holds : PhaseInvariant collectionId before phase) :
    PhaseInvariant collectionId after phase := by
  cases phase with
  | scanning settings slice cursor chunk =>
      rcases holds with ⟨chunk_pos, cursor_le, end_le, startBlock, range, start_le, below⟩
      exact ⟨chunk_pos, cursor_le, end_le, startBlock, progresses.range range, start_le,
        progresses.committedBelow below⟩
  | selecting slice =>
      rcases holds with ⟨startBlock, range, below⟩
      exact ⟨startBlock, progresses.range range, progresses.committedBelow below⟩
  | enriching slice address hashes warnings =>
      rcases holds with ⟨startBlock, range, below⟩
      exact ⟨startBlock, progresses.range range, progresses.committedBelow below⟩
  | merging slice warnings =>
      rcases holds with ⟨startBlock, range, below⟩
      exact ⟨startBlock, progresses.range range, progresses.committedBelow below⟩
  | finishing =>
      rcases holds with ⟨startBlock, endBlock, range, below⟩
      exact ⟨startBlock, endBlock, progresses.range range, progresses.committedBelow below⟩
  | idle => trivial
  | loaded settings collection => trivial
  | probing settings collection finalized => trivial
  | opening settings collection finalized startBlock => trivial
  | ended => trivial

end Progresses

section Transactions

variable {before after : Database}

theorem resumeCursor_eq (startBlock : ℕ) (db : Database) :
    resumeCursor collectionId startBlock db =
      match db.committedBlock collectionId 1 with
      | none => startBlock
      | some committed => committed + 1 := by
  simp only [resumeCursor, Database.committedBlock]
  cases db.checkpoint collectionId 1 <;> rfl

theorem recordProbe_eq_ok {probe : CollectionProbe}
    (recorded : recordProbe collectionId probe before = .ok (some after)) :
    ∃ change : Collection → Collection, (∀ row, (change row).id = row.id) ∧
      after = before.updateCollection collectionId change := by
  simp only [recordProbe] at recorded
  split at recorded
  · cases recorded
  · rcases Fallible.bind_eq_ok_iff.mp recorded with ⟨hash, _, built⟩
    cases built
    refine ⟨_, ?_, rfl⟩
    exact fun _ => rfl

theorem openJob_rows {startBlock finalized : ℕ} {resumed : Option (ℕ × ℕ)}
    (opened : openJob collectionId startBlock finalized before = .ok (after, resumed)) :
    after.rawEvidence = before.rawEvidence ∧ after.mintEvents = before.mintEvents ∧
      after.scanCheckpoints = before.scanCheckpoints ∧
      after.collections = before.collections := by
  simp only [openJob] at opened
  split at opened <;> split_ifs at opened <;> cases opened <;> exact ⟨rfl, rfl, rfl, rfl⟩

/-- Opening a job creates it or leaves its range alone, and resumes at the checkpoint. -/
theorem openJob_eq_ok {startBlock finalized : ℕ} {resumed : Option (ℕ × ℕ)}
    (opened : openJob collectionId startBlock finalized before = .ok (after, resumed)) :
    (before.jobRange collectionId = none ∧ startBlock ≤ finalized ∧
        after.jobRange collectionId = some (startBlock, finalized) ∧
        (∀ job, after.job collectionId = some job → job.status = .running) ∧
        resumed = some (resumeCursor collectionId startBlock before, finalized)) ∨
      (∃ job, before.job collectionId = some job ∧
        ((job.status = .completed ∧ after = before ∧ resumed = none) ∨
          (after.jobRange collectionId = before.jobRange collectionId ∧
            (∀ job, after.job collectionId = some job → job.status = .running) ∧
            resumed = some (resumeCursor collectionId job.startBlock before, job.endBlock)))) := by
  simp only [openJob] at opened
  split at opened
  · rename_i absent
    split_ifs at opened with unordered
    cases opened
    refine Or.inl ⟨by simp [Database.jobRange, absent], Nat.le_of_not_lt unordered, ?_, ?_, rfl⟩
    · simp only [Database.job] at absent
      simp [Database.jobRange, Database.job, lookup_append, absent, lookup_singleton, ScanJob.key]
    · intro job found
      simp only [Database.job] at absent
      simp only [Database.job, lookup_append, absent, lookup_singleton, ScanJob.key,
        Option.none_or, if_pos, Option.some.injEq] at found
      exact found ▸ rfl
  · rename_i job found
    refine Or.inr ⟨job, found, ?_⟩
    split_ifs at opened with completed
    · cases opened
      exact Or.inl ⟨completed, rfl, rfl⟩
    · cases opened
      refine Or.inr ⟨before.jobRange_updateJob collectionId (fun _ => rfl) fun _ => ⟨rfl, rfl⟩,
        ?_, rfl⟩
      intro job found
      rw [before.job_updateJob collectionId ScanJob.restarted fun _ => rfl] at found
      rcases Option.map_eq_some_iff.mp found with ⟨_, _, rfl⟩
      rfl

/-- The invariant carries over where rows, job range and checkpoint are kept. -/
theorem ScanInvariant.frame (holds : ScanInvariant primitives collectionId chain before)
    (wellFormed : after.WellFormed) (kept : RowsKept before after)
    (range : after.jobRange collectionId = before.jobRange collectionId)
    (checkpoint : after.committedBlock collectionId 1 = before.committedBlock collectionId 1)
    (completed : ∀ {job}, after.job collectionId = some job → job.status = .completed →
      after.committedBlock collectionId 1 = some job.endBlock) :
    ScanInvariant primitives collectionId chain after := by
  have covered_iff : ∀ block, Covered collectionId after block ↔
      Covered collectionId before block := by
    intro block
    simp only [Covered, range, checkpoint]
  refine ⟨wellFormed, fun found => holds.range (range ▸ found), ?_, completed, ?_, ?_⟩
  · intro committed found
    rw [checkpoint] at found
    rw [range]
    exact holds.checkpoint found
  · intro row row_mem claims
    rcases kept.backward row row_mem with ⟨old, old_mem, same⟩
    have claims_old : Claims collectionId chain old := by
      rcases claims with own | ⟨log, log_mem, identity⟩
      · exact Or.inl (same.collectionId_eq ▸ own)
      · exact Or.inr ⟨log, log_mem, same.identity_eq ▸ identity⟩
    rcases holds.sound old old_mem claims_old with ⟨log, log_mem, covered, mint, isMint, records,
      evidence, evidence_mem, hash_eq, points⟩
    exact ⟨log, log_mem, (covered_iff _).mpr covered, mint, isMint, records.of_sameFacts same,
      evidence, kept.evidence evidence_mem, hash_eq, same.rawEvidenceId_eq ▸ points⟩
  · intro log log_mem covered
    have stored := holds.complete log log_mem ((covered_iff _).mp covered)
    constructor
    · rcases stored.evidence with ⟨evidence, evidence_mem, same⟩
      exact ⟨evidence, kept.evidence evidence_mem, same⟩
    · intro mint isMint
      rcases stored.mints mint isMint with ⟨old, old_mem, transactionHash, hash_eq, position⟩
      rcases kept.forward old old_mem with ⟨row, row_mem, same⟩
      exact ⟨row, row_mem, transactionHash, hash_eq, same.position_eq.trans position⟩

/-- The checkpoint after a commit. -/
theorem committedBlock_commit {batch : ScanBatch}
    (committed : (batchConsumer collectionId).commit primitives batch before = .ok after) :
    after.committedBlock collectionId 1 =
      some (max batch.endBlock ((before.committedBlock collectionId 1).getD 0)) := by
  rcases SqlAlchemyMintBatchConsumer.commit_eq_ok committed with
    ⟨stored, endBlockHash, extended, _, _, rfl⟩
  have moved := (batchConsumer collectionId).committedBlock_moveCheckpoint batch.endBlock
    endBlockHash stored
  have same : stored.committedBlock collectionId 1 = before.committedBlock collectionId 1 := by
    simp only [Database.committedBlock, Database.checkpoint, extended.scanCheckpoints]
  rw [← same]
  exact moved

theorem collections_commit {batch : ScanBatch}
    (committed : (batchConsumer collectionId).commit primitives batch before = .ok after) :
    after.collections = before.collections ∧ after.scanJobs = before.scanJobs := by
  rcases SqlAlchemyMintBatchConsumer.commit_eq_ok committed with
    ⟨stored, endBlockHash, extended, _, _, rfl⟩
  exact ⟨extended.collections, extended.scanJobs⟩

theorem job_commit {batch : ScanBatch}
    (committed : (batchConsumer collectionId).commit primitives batch before = .ok after) :
    after.job collectionId = before.job collectionId :=
  Database.job_congr (collections_commit committed).2 collectionId

theorem progresses_commit {batch : ScanBatch}
    (committed : (batchConsumer collectionId).commit primitives batch before = .ok after) :
    Progresses collectionId before after := by
  refine ⟨fun found => ?_, fun {earlier} found => ?_⟩
  · simpa only [Database.jobRange, job_commit committed] using found
  · refine ⟨_, committedBlock_commit committed, ?_⟩
    simp [found]

/--
A commit of exactly the logs of its range keeps the invariant, if everything
below the range is committed.
-/
theorem ScanInvariant.commit (holds : ScanInvariant primitives collectionId chain before)
    {batch : ScanBatch} {startBlock endBlock : ℕ}
    (range : before.jobRange collectionId = some (startBlock, endBlock))
    (start_le : startBlock ≤ batch.startBlock) (ordered : batch.startBlock ≤ batch.endBlock)
    (end_le : batch.endBlock ≤ endBlock)
    (below : CommittedBelow collectionId before startBlock batch.startBlock)
    (answers : batch.logs.Perm (chain.filter fun log =>
      batch.startBlock ≤ log.blockNumber ∧ log.blockNumber ≤ batch.endBlock))
    (committed : (batchConsumer collectionId).commit primitives batch before = .ok after) :
    ScanInvariant primitives collectionId chain after := by
  have progresses := progresses_commit committed
  have checkpoint := committedBlock_commit committed
  have sameJob := job_commit committed
  have range_after := progresses.range range
  have in_batch : ∀ log, log ∈ batch.logs ↔
      log ∈ chain ∧ batch.startBlock ≤ log.blockNumber ∧ log.blockNumber ≤ batch.endBlock := by
    intro log
    simp [answers.mem_iff]
  rcases SqlAlchemyMintBatchConsumer.commit_eq_ok committed with
    ⟨stored, endBlockHash, extended, logsStored, _, rfl⟩
  have wellFormed := extended.wellFormed holds.wellFormed
  refine ⟨⟨wellFormed.evidence_unique, wellFormed.position_unique⟩, ?_, ?_, ?_, ?_, ?_⟩
  · intro otherStart otherEnd found
    cases range_after.symm.trans found
    exact holds.range range
  · intro last found
    cases checkpoint.symm.trans found
    refine ⟨startBlock, endBlock, range_after, ?_, ?_⟩
    · exact (start_le.trans ordered).trans (le_max_left _ _)
    · cases earlier : before.committedBlock collectionId 1 with
      | none => simpa using end_le
      | some last =>
          rcases holds.checkpoint earlier with ⟨_, _, same, _, last_le⟩
          cases range.symm.trans same
          simpa using ⟨end_le, last_le⟩
  · intro job found completed
    rw [sameJob] at found
    have atEnd := holds.completed found completed
    have jobEnd : job.endBlock = endBlock := by
      simp only [Database.jobRange, found, Option.map_some, Option.some.injEq,
        Prod.mk.injEq] at range
      exact range.2
    rw [checkpoint, atEnd, Option.getD_some, max_eq_right (jobEnd ▸ end_le)]
  · intro row row_mem claims
    rcases extended.mints_new row row_mem with old | ⟨log, log_mem, isRow⟩
    · rcases holds.sound row old claims with ⟨log, log_mem, covered, isRow⟩
      exact ⟨log, log_mem, progresses.covered covered, isRow.mono extended.evidence_kept⟩
    · rcases (in_batch log).mp log_mem with ⟨log_chain, cursor_le, le_end⟩
      exact ⟨log, log_chain, ⟨startBlock, endBlock, _, range_after, checkpoint,
        start_le.trans cursor_le, le_end.trans (le_max_left _ _)⟩, isRow⟩
  · rintro log log_mem ⟨coveredStart, coveredEnd, last, found, last_eq, start_le_log, log_le⟩
    cases range_after.symm.trans found
    cases checkpoint.symm.trans last_eq
    have logStored : LogStored primitives stored log := by
      -- A log of the batch was stored now; any other one lies below an earlier checkpoint.
      by_cases new : batch.startBlock ≤ log.blockNumber ∧ log.blockNumber ≤ batch.endBlock
      · exact logsStored log ((in_batch log).mpr ⟨log_mem, new⟩)
      · have covered : Covered collectionId before log.blockNumber := by
          by_cases earlier : log.blockNumber < batch.startBlock
          · rcases below log.blockNumber start_le_log earlier with ⟨last, found, le_last⟩
            exact ⟨startBlock, endBlock, last, range, found, start_le_log, le_last⟩
          · cases found : before.committedBlock collectionId 1 with
            | none =>
                simp only [found, Option.getD_none] at log_le
                omega
            | some last =>
                simp only [found, Option.getD_some] at log_le
                exact ⟨startBlock, endBlock, last, range, found, start_le_log, by omega⟩
        exact (holds.complete log log_mem covered).mono extended.evidence_kept extended.mints_kept
    exact ⟨logStored.evidence, logStored.mints⟩

theorem ScanInvariant.rangeInvariant (holds : ScanInvariant primitives collectionId chain before) :
    RangeInvariant collectionId before :=
  ⟨holds.range, holds.checkpoint⟩

theorem RangeInvariant.of_eq (holds : RangeInvariant collectionId before)
    (range : after.jobRange collectionId = before.jobRange collectionId)
    (checkpoint : after.committedBlock collectionId 1 = before.committedBlock collectionId 1) :
    RangeInvariant collectionId after := by
  constructor
  · intro startBlock endBlock found
    exact holds.range (range ▸ found)
  · intro committed found
    rw [range]
    exact holds.checkpoint (checkpoint ▸ found)

/-- A checkpoint does not exist before the job. -/
theorem RangeInvariant.committedBlock_eq_none (holds : RangeInvariant collectionId before)
    (absent : before.jobRange collectionId = none) :
    before.committedBlock collectionId 1 = none := by
  cases found : before.committedBlock collectionId 1 with
  | none => rfl
  | some last =>
      rcases holds.checkpoint found with ⟨_, _, impossible, _⟩
      cases absent.symm.trans impossible

theorem committedBlock_openJob {startBlock finalized : ℕ} {resumed : Option (ℕ × ℕ)}
    (opened : openJob collectionId startBlock finalized before = .ok (after, resumed)) :
    after.committedBlock collectionId 1 = before.committedBlock collectionId 1 := by
  simp only [Database.committedBlock, Database.checkpoint, (openJob_rows opened).2.2.1]

/-- Opening a job keeps the range and establishes what the execution goes on with. -/
theorem RangeInvariant.openJob (holds : RangeInvariant collectionId before)
    {startBlock finalized : ℕ} {resumed : Option (ℕ × ℕ)}
    (opened : openJob collectionId startBlock finalized before = .ok (after, resumed)) :
    RangeInvariant collectionId after ∧ Progresses collectionId before after ∧
      ∀ {cursor fixedEnd}, resumed = some (cursor, fixedEnd) →
        ∃ startBlock, after.jobRange collectionId = some (startBlock, fixedEnd) ∧
          startBlock ≤ cursor ∧ CommittedBelow collectionId after startBlock cursor := by
  have sameCheckpoint := committedBlock_openJob opened
  have resumes : ∀ first {cursor}, resumeCursor collectionId first before = cursor →
      (∀ last, before.committedBlock collectionId 1 = some last → first ≤ last) →
      first ≤ cursor ∧ CommittedBelow collectionId after first cursor := by
    intro first cursor same bound
    rw [resumeCursor_eq] at same
    cases found : before.committedBlock collectionId 1 with
    | none =>
        simp only [found] at same
        subst same
        exact ⟨le_rfl, fun block first_le block_lt => by omega⟩
    | some last =>
        simp only [found] at same
        subst same
        refine ⟨(bound last found).trans (Nat.le_succ last), fun block _ block_lt => ?_⟩
        exact ⟨last, sameCheckpoint.trans found, Nat.le_of_lt_succ block_lt⟩
  rcases openJob_eq_ok opened with ⟨absent, ordered, range, running, rfl⟩ |
    ⟨job, found, ⟨_, rfl, rfl⟩ | ⟨range, running, rfl⟩⟩
  · have unscanned := holds.committedBlock_eq_none absent
    refine ⟨⟨?_, ?_⟩, ⟨?_, ?_⟩, ?_⟩
    · intro otherStart otherEnd found
      cases range.symm.trans found
      exact ordered
    · intro last found
      cases (sameCheckpoint.trans unscanned).symm.trans found
    · intro otherStart otherEnd found
      cases absent.symm.trans found
    · intro last found
      cases unscanned.symm.trans found
    · intro cursor fixedEnd same
      cases same
      rcases resumes startBlock rfl (by simp [unscanned]) with ⟨start_le, below⟩
      exact ⟨startBlock, range, start_le, below⟩
  · exact ⟨holds, .refl _, fun impossible => by cases impossible⟩
  · refine ⟨holds.of_eq range sameCheckpoint, .of_eq range sameCheckpoint, ?_⟩
    intro cursor fixedEnd same
    cases same
    have jobRange : before.jobRange collectionId = some (job.startBlock, job.endBlock) := by
      simp [Database.jobRange, found]
    rcases resumes job.startBlock rfl (by
      intro last found
      rcases holds.checkpoint found with ⟨_, _, same, start_le, _⟩
      cases jobRange.symm.trans same
      exact start_le) with ⟨start_le, below⟩
    exact ⟨job.startBlock, range.trans jobRange, start_le, below⟩

/-- Opening a job keeps the invariant. -/
theorem ScanInvariant.openJob (holds : ScanInvariant primitives collectionId chain before)
    {startBlock finalized : ℕ} {resumed : Option (ℕ × ℕ)}
    (opened : openJob collectionId startBlock finalized before = .ok (after, resumed)) :
    ScanInvariant primitives collectionId chain after := by
  have sameRows := openJob_rows opened
  have sameCheckpoint := committedBlock_openJob opened
  have ranges := (holds.rangeInvariant.openJob opened).1
  have wellFormed : after.WellFormed :=
    ⟨sameRows.1 ▸ holds.wellFormed.evidence_unique, sameRows.2.1 ▸ holds.wellFormed.position_unique⟩
  rcases openJob_eq_ok opened with ⟨absent, _, _, running, rfl⟩ |
    ⟨job, found, ⟨_, rfl, rfl⟩ | ⟨range, running, rfl⟩⟩
  · have unscanned := holds.rangeInvariant.committedBlock_eq_none absent
    have uncovered : ∀ {db block}, db.committedBlock collectionId 1 = none →
        ¬Covered collectionId db block := by
      rintro db block none_eq ⟨_, _, _, _, impossible, _⟩
      cases none_eq.symm.trans impossible
    refine ⟨wellFormed, ranges.range, ranges.checkpoint, ?_, ?_, ?_⟩
    · intro job found completed
      cases (running job found).symm.trans completed
    · intro row row_mem claims
      rcases holds.sound row (sameRows.2.1 ▸ row_mem) claims with ⟨_, _, covered, _⟩
      exact absurd covered (uncovered unscanned)
    · intro log _ covered
      exact absurd covered (uncovered (sameCheckpoint.trans unscanned))
  · exact holds
  · refine holds.frame wellFormed (.of_eq sameRows.1 sameRows.2.1) range sameCheckpoint ?_
    intro job found completed
    cases (running job found).symm.trans completed

end Transactions

section Phases

variable {db : Database} {slice : ScanSlice}

theorem phaseInvariant_afterWarnings
    (scanned : PhaseInvariant collectionId db (.selecting slice)) :
    PhaseInvariant collectionId db slice.afterWarnings := by
  rcases scanned with ⟨startBlock, range, below⟩
  simp only [ScanSlice.afterWarnings]
  split
  · rename_i reached
    exact ⟨startBlock, slice.fixedEnd, range, fun block start_le block_lt =>
      below block start_le (by omega)⟩
  · trivial

theorem phaseInvariant_afterEnrichment
    (scanned : PhaseInvariant collectionId db (.selecting slice)) (warnings : List String) :
    PhaseInvariant collectionId db (slice.afterEnrichment warnings) := by
  simp only [ScanSlice.afterEnrichment]
  split
  · exact phaseInvariant_afterWarnings scanned
  · exact scanned

theorem phaseInvariant_enrichNext
    (scanned : PhaseInvariant collectionId db (.selecting slice)) (collectionAddress : Text)
    (hashes : List Bytes) (warnings : List String) :
    PhaseInvariant collectionId db (slice.enrichNext collectionAddress hashes warnings) := by
  cases hashes with
  | nil => exact phaseInvariant_afterEnrichment scanned _
  | cons hash hashes => exact scanned

theorem phaseInvariant_scanNext {settings : WorkerSettings} {startBlock cursor chunk : ℕ}
    (chunk_pos : 1 ≤ chunk) (end_le : slice.sliceEnd ≤ slice.fixedEnd)
    (range : db.jobRange collectionId = some (startBlock, slice.fixedEnd))
    (start_le : startBlock ≤ cursor) (below : CommittedBelow collectionId db startBlock cursor) :
    PhaseInvariant collectionId db (slice.scanNext settings cursor chunk) := by
  simp only [ScanSlice.scanNext]
  split
  · rename_i cursor_le
    exact ⟨chunk_pos, cursor_le, end_le, startBlock, range, start_le, below⟩
  · exact ⟨startBlock, range, fun block start_le block_lt => below block start_le (by omega)⟩

theorem phaseInvariant_afterOpening {startBlock cursor fixedEnd : ℕ} (settings : WorkerSettings)
    (range : db.jobRange collectionId = some (startBlock, fixedEnd))
    (start_le : startBlock ≤ cursor) (below : CommittedBelow collectionId db startBlock cursor) :
    PhaseInvariant collectionId db (afterOpening settings cursor fixedEnd) := by
  simp only [afterOpening]
  split
  · rename_i cursor_le
    refine ⟨settings.scanner.positive, ?_, min_le_right _ _, startBlock, range, start_le, below⟩
    simp only [scanSliceBlocks]
    omega
  · exact ⟨startBlock, fixedEnd, range, fun block start_le block_lt =>
      below block start_le (by omega)⟩

end Phases

/-- One transition provides for its execution and makes progress, whatever the answers are. -/
theorem ScanTransition.advances {before after : Database} {phase next : ScanPhase}
    {event : ScanEvent}
    (moved : ScanTransition primitives collectionId before phase event after next)
    (holds : RangeInvariant collectionId before)
    (relies : PhaseInvariant collectionId before phase) :
    RangeInvariant collectionId after ∧ PhaseInvariant collectionId after next ∧
      Progresses collectionId before after := by
  cases moved with
  | absent => exact ⟨holds, trivial, .refl _⟩
  | load => exact ⟨holds, trivial, .refl _⟩
  | unknown => exact ⟨holds, trivial, .refl _⟩
  | known => exact ⟨holds, trivial, .refl _⟩
  | gone => exact ⟨holds, trivial, .refl _⟩
  | probe recorded =>
      rcases recordProbe_eq_ok recorded with ⟨change, _, rfl⟩
      exact ⟨holds.of_eq rfl rfl, trivial, .of_eq rfl rfl⟩
  | completed opened =>
      rcases holds.openJob opened with ⟨ranges, progresses, _⟩
      exact ⟨ranges, trivial, progresses⟩
  | openJob opened =>
      rcases holds.openJob opened with ⟨ranges, progresses, resumed⟩
      rcases resumed rfl with ⟨startBlock, range, start_le, below⟩
      exact ⟨ranges, phaseInvariant_afterOpening _ range start_le below, progresses⟩
  | split halved =>
      rcases relies with ⟨_, scanning⟩
      exact ⟨holds, ⟨AdaptiveHistoricalScanner.chunkAfterError_pos halved, scanning⟩, .refl _⟩
  | @batch settings slice cursor chunk logs boundary _ committed =>
      rcases relies with ⟨chunk_pos, cursor_le, end_le, startBlock, range, start_le, below⟩
      have ordered := AdaptiveHistoricalScanner.cursor_le_batchEnd chunk_pos cursor_le
      have bounded := AdaptiveHistoricalScanner.batchEnd_le cursor chunk slice.sliceEnd
      have progresses := progresses_commit committed
      have checkpoint := committedBlock_commit committed
      refine ⟨⟨?_, ?_⟩, ?_, progresses⟩
      · intro otherStart otherEnd found
        cases (progresses.range range).symm.trans found
        exact holds.range range
      · intro last found
        refine ⟨startBlock, slice.fixedEnd, progresses.range range, ?_⟩
        cases checkpoint.symm.trans found
        refine ⟨(start_le.trans ordered).trans (le_max_left _ _),
          max_le (bounded.trans end_le) ?_⟩
        cases earlier : before.committedBlock collectionId 1 with
        | none => exact Nat.zero_le _
        | some last =>
            rcases holds.checkpoint earlier with ⟨_, _, same, _, last_le⟩
            cases range.symm.trans same
            exact last_le
      · refine phaseInvariant_scanNext
          (AdaptiveHistoricalScanner.chunkAfterLogs_pos _ _ chunk_pos) end_le
          (progresses.range range) ((start_le.trans ordered).trans (Nat.le_succ _)) ?_
        intro block _ block_lt
        exact ⟨_, checkpoint, (Nat.le_of_lt_succ block_lt).trans (le_max_left _ _)⟩
  | vanished missing => exact ⟨holds, phaseInvariant_afterEnrichment relies _, .refl _⟩
  | select found selected => exact ⟨holds, phaseInvariant_enrichNext relies _ _ _, .refl _⟩
  | @enrich slice address hash hashes warnings responses _ enriched =>
      have enriches := enrichTransaction_eq_ok enriched
      have range : after.jobRange collectionId = before.jobRange collectionId := by
        simp only [Database.jobRange, Database.job_congr enriches.scanJobs collectionId]
      have checkpoint : after.committedBlock collectionId 1 =
          before.committedBlock collectionId 1 := by
        simp only [Database.committedBlock, Database.checkpoint, enriches.scanCheckpoints]
      have progresses : Progresses collectionId before after := .of_eq range checkpoint
      have scanned : PhaseInvariant collectionId before (.selecting slice) := relies
      exact ⟨holds.of_eq range checkpoint,
        phaseInvariant_enrichNext (progresses.phaseInvariant scanned) _ _ _, progresses⟩
  | @merge slice warnings =>
      have range : (mergeWarnings collectionId warnings before).jobRange collectionId =
          before.jobRange collectionId :=
        before.jobRange_updateJob collectionId (fun _ => rfl) fun _ => ⟨rfl, rfl⟩
      have progresses : Progresses collectionId before
          (mergeWarnings collectionId warnings before) := .of_eq range rfl
      have scanned : PhaseInvariant collectionId before (.selecting slice) := relies
      exact ⟨holds.of_eq range rfl,
        phaseInvariant_afterWarnings (progresses.phaseInvariant scanned), progresses⟩
  | finish =>
      have range : (finishJob collectionId before).jobRange collectionId =
          before.jobRange collectionId :=
        before.jobRange_updateJob collectionId (fun _ => rfl) fun _ => ⟨rfl, rfl⟩
      exact ⟨holds.of_eq range rfl, trivial, .of_eq range rfl⟩
  | stop => exact ⟨holds, trivial, .refl _⟩

/-- One transition keeps the invariant, provides for its execution, and makes progress. -/
theorem ScanTransition.preserves {before after : Database} {phase next : ScanPhase}
    {event : ScanEvent}
    (moved : ScanTransition primitives collectionId before phase event after next)
    (holds : ScanInvariant primitives collectionId chain before)
    (relies : PhaseInvariant collectionId before phase)
    (answers : isExactAnswer chain phase event = true) :
    ScanInvariant primitives collectionId chain after ∧ PhaseInvariant collectionId after next ∧
      Progresses collectionId before after := by
  refine ⟨?_, (moved.advances holds.rangeInvariant relies).2⟩
  cases moved with
  | probe recorded =>
      rcases recordProbe_eq_ok recorded with ⟨change, _, rfl⟩
      exact holds.frame ⟨holds.wellFormed.1, holds.wellFormed.2⟩ (.of_eq rfl rfl) rfl rfl
        holds.completed
  | completed opened | openJob opened => exact holds.openJob opened
  | @batch settings slice cursor chunk logs boundary _ committed =>
      rcases relies with ⟨chunk_pos, cursor_le, end_le, startBlock, range, start_le, below⟩
      have ordered := AdaptiveHistoricalScanner.cursor_le_batchEnd chunk_pos cursor_le
      have bounded := AdaptiveHistoricalScanner.batchEnd_le cursor chunk slice.sliceEnd
      have exactly : logs.Perm (chain.filter fun log => cursor ≤ log.blockNumber ∧
          log.blockNumber ≤ (scanBatch slice cursor chunk logs boundary).endBlock) :=
        List.isPerm_iff.mp answers
      exact holds.commit range start_le ordered (bounded.trans end_le) below exactly committed
  | @enrich slice address hash hashes warnings responses _ enriched =>
      have enriches := enrichTransaction_eq_ok enriched
      have sameJob : after.job collectionId = before.job collectionId :=
        Database.job_congr enriches.scanJobs collectionId
      have range : after.jobRange collectionId = before.jobRange collectionId := by
        simp only [Database.jobRange, sameJob]
      have checkpoint : after.committedBlock collectionId 1 =
          before.committedBlock collectionId 1 := by
        simp only [Database.committedBlock, Database.checkpoint, enriches.scanCheckpoints]
      apply holds.frame (enriches.wellFormed holds.wellFormed) enriches.rowsKept range checkpoint
      intro job found completed
      exact checkpoint.trans (holds.completed (sameJob ▸ found) completed)
  | @merge slice warnings =>
      have range : (mergeWarnings collectionId warnings before).jobRange collectionId =
          before.jobRange collectionId :=
        before.jobRange_updateJob collectionId (fun _ => rfl) fun _ => ⟨rfl, rfl⟩
      refine holds.frame ⟨holds.wellFormed.1, holds.wellFormed.2⟩ (.of_eq rfl rfl) range rfl ?_
      intro job found completed
      have updated := before.job_updateJob collectionId (ScanJob.withWarnings warnings)
        fun _ => rfl
      rw [mergeWarnings, updated] at found
      rcases Option.map_eq_some_iff.mp found with ⟨old, old_found, rfl⟩
      have atEnd := holds.completed old_found completed
      exact atEnd
  | finish =>
      rcases relies with ⟨startBlock, endBlock, jobRange, below⟩
      have range : (finishJob collectionId before).jobRange collectionId =
          before.jobRange collectionId :=
        before.jobRange_updateJob collectionId (fun _ => rfl) fun _ => ⟨rfl, rfl⟩
      refine holds.frame ⟨holds.wellFormed.1, holds.wellFormed.2⟩ (.of_eq rfl rfl) range rfl ?_
      intro job found _
      have jobEnd : job.endBlock = endBlock := by
        have sameRange := range.trans jobRange
        simp only [Database.jobRange, found, Option.map_some, Option.some.injEq,
          Prod.mk.injEq] at sameRange
        exact sameRange.2
      rcases below endBlock (holds.range jobRange) (Nat.lt_succ_self endBlock) with
        ⟨last, last_found, end_le⟩
      rcases holds.checkpoint last_found with ⟨_, _, same, _, last_le⟩
      cases jobRange.symm.trans same
      rw [jobEnd, ← le_antisymm last_le end_le]
      exact last_found
  | absent | load | unknown | known | gone | split | vanished | select | stop => exact holds

end CopyMint
