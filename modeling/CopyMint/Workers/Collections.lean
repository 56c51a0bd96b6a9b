import CopyMint.Ethereum.Discovery
import CopyMint.Ethereum.Enricher
import CopyMint.Library.Interleaving
import Mathlib.Data.List.Sort
import Mathlib.Data.String.Basic

/-!
# Resumable historical scans

An execution of the scan task is a sequence of database transactions with
provider requests in between. It loads the collection, asks for the finalized
head, finds the deployment block if it is not known, opens the job at the block
after the checkpoint, scans one slice in batches, enriches the mints of that
slice, merges quality warnings and, at the end of the job's range, completes the
job. What an execution carries from one transaction to the next is its phase.

Every answer of the provider is part of an event, so nothing is assumed of it
here. A transaction that raises is rolled back and ends the execution: then no
event but `stop` is possible. `stop` is also what a crash at any point does.
-/

namespace CopyMint

open Hexadecimal Relational Interleaving

/-- `SCAN_SLICE_BLOCKS`. -/
def scanSliceBlocks : ℕ := 100

/-- The settings of the indexer, with the bounds that are validated when they are read. -/
structure WorkerSettings where
  indexerInitialChunk : ℕ
  indexerMaxChunk : ℕ
  positive : 1 ≤ indexerInitialChunk
  ordered : indexerInitialChunk ≤ indexerMaxChunk
  bounded : indexerMaxChunk ≤ 5000

/-- The scanner of an execution, whose chunks never exceed a slice. -/
def WorkerSettings.scanner (settings : WorkerSettings) : AdaptiveHistoricalScanner where
  initialChunk := min settings.indexerInitialChunk scanSliceBlocks
  maximumChunk := min settings.indexerMaxChunk scanSliceBlocks
  positive := le_min settings.positive (by decide)
  ordered := min_le_min_right _ settings.ordered

/-- The alias of the JSON-RPC provider. -/
def providerAlias : String := "chainstack-primary"

/-- A job that is taken up again. -/
def ScanJob.restarted (job : ScanJob) : ScanJob :=
  { job with status := .running, attemptCount := job.attemptCount + 1 }

/-- Add the warnings that a job does not have yet. -/
def ScanJob.withWarnings (warnings : List String) (job : ScanJob) : ScanJob :=
  { job with
    qualityWarnings :=
      job.qualityWarnings ++ warnings.filter fun warning => warning ∉ job.qualityWarnings }

/-- A job that is completed. -/
def ScanJob.finished (job : ScanJob) : ScanJob := { job with status := .completed }

section Transactions

variable (collectionId : ℕ)

/-- Store the deployment block of a collection, unless the collection is gone. -/
def recordProbe (probe : CollectionProbe) (db : Database) : Except Raised (Option Database) :=
  match db.collection collectionId with
  | none => .ok none
  | some _ => do
      let deploymentBlockHash ← bytesFromhex probe.deploymentBlockHash
      .ok (some (db.updateCollection collectionId fun current =>
        { current with
          deploymentBlockNumber := some probe.deploymentBlockNumber
          deploymentBlockHash := some deploymentBlockHash
          deploymentConfidence := probe.deploymentConfidence
          deploymentConfidenceValue := probe.deploymentConfidenceValue
          scanStatus := .scanning }))

/-- The first block that is not committed yet. -/
def resumeCursor (startBlock : ℕ) (db : Database) : ℕ :=
  match db.checkpoint collectionId 1 with
  | none => startBlock
  | some checkpoint => checkpoint.lastCommittedBlockNumber + 1

/-- Create or resume the job. The result is the cursor and the end of the job's range, or
`none` where the job is completed. -/
def openJob (startBlock finalized : ℕ) (db : Database) :
    Except Raised (Database × Option (ℕ × ℕ)) :=
  match db.job collectionId with
  | none =>
      if finalized < startBlock then .error (.integrityError "valid_block_range")
      else
        let job : ScanJob :=
          { id := db.nextId
            collectionId
            scanVersion := 1
            startBlock
            endBlock := finalized
            status := .running
            attemptCount := 1
            qualityWarnings := [] }
        .ok ({ db with scanJobs := db.scanJobs ++ [job], nextId := db.nextId + 1 },
          some (resumeCursor collectionId startBlock db, finalized))
  | some job =>
      if job.status = .completed then .ok (db, none)
      else
        .ok (db.updateJob collectionId ScanJob.restarted,
          some (resumeCursor collectionId job.startBlock db, job.endBlock))

/-- Merge warnings into the job, one transaction. -/
def mergeWarnings (warnings : List String) (db : Database) : Database :=
  db.updateJob collectionId (ScanJob.withWarnings warnings)

/-- Complete the job, and the collection with it. -/
def finishJob (db : Database) : Database :=
  let warned :=
    match db.job collectionId with
    | none => false
    | some job => !job.qualityWarnings.isEmpty
  let db := db.updateJob collectionId ScanJob.finished
  db.updateCollection collectionId fun current =>
    { current with scanStatus := if warned then .qualityWarning else .complete }

end Transactions

/-- The part of the job's range that one execution scans. -/
structure ScanSlice where
  startBlock : ℕ
  sliceEnd : ℕ
  fixedEnd : ℕ
  deriving DecidableEq

/-- How far an execution has come, with what it carries to its next transaction. -/
inductive ScanPhase where
  | idle
  | loaded (settings : WorkerSettings) (collection : Collection)
  | probing (settings : WorkerSettings) (collection : Collection) (finalized : BlockReference)
  | opening (settings : WorkerSettings) (collection : Collection) (finalized : BlockReference)
      (startBlock : ℕ)
  | scanning (settings : WorkerSettings) (slice : ScanSlice) (cursor chunk : ℕ)
  | selecting (slice : ScanSlice)
  | enriching (slice : ScanSlice) (collectionAddress : Text) (hashes : List Bytes)
      (warnings : List String)
  | merging (slice : ScanSlice) (warnings : List String)
  | finishing
  | ended

/-- One execution of the scan task for a collection. -/
structure ScanExecution where
  collectionId : ℕ
  phase : ScanPhase

/-- What an execution does next, with the answers of the provider. -/
inductive ScanEvent where
  | load (settings : WorkerSettings)
  | finalized (block : BlockReference)
  | probe (probe : CollectionProbe)
  | openJob
  | split (error : ProviderError)
  | batch (logs : List EvmLog) (boundary : BlockReference)
  | select (hashes : List Bytes)
  | enrich (answers : TransactionAnswers)
  | merge
  | finish
  | stop

/-- The phase after the warnings of a slice are settled. -/
def ScanSlice.afterWarnings (slice : ScanSlice) : ScanPhase :=
  if slice.fixedEnd ≤ slice.sliceEnd then .finishing else .ended

/-- The phase after the enrichment of a slice. -/
def ScanSlice.afterEnrichment (slice : ScanSlice) (warnings : List String) : ScanPhase :=
  if warnings = [] then slice.afterWarnings else .merging slice warnings

/-- The phase before the next transaction hash of a slice. -/
def ScanSlice.enrichNext (slice : ScanSlice) (collectionAddress : Text) (hashes : List Bytes)
    (warnings : List String) : ScanPhase :=
  match hashes with
  | [] => slice.afterEnrichment (warnings.dedup.insertionSort (· ≤ ·))
  | _ :: _ => .enriching slice collectionAddress hashes warnings

/-- The phase before the next batch of a slice. -/
def ScanSlice.scanNext (slice : ScanSlice) (settings : WorkerSettings) (cursor chunk : ℕ) :
    ScanPhase :=
  if cursor ≤ slice.sliceEnd then .scanning settings slice cursor chunk else .selecting slice

/-- The phase after the job is opened. -/
def afterOpening (settings : WorkerSettings) (cursor fixedEnd : ℕ) : ScanPhase :=
  if cursor ≤ fixedEnd then
    let slice := ⟨cursor, min (cursor + scanSliceBlocks - 1) fixedEnd, fixedEnd⟩
    .scanning settings slice cursor settings.scanner.initialChunk
  else .finishing

/-- The consumer of an execution's batches. -/
def batchConsumer (collectionId : ℕ) : SqlAlchemyMintBatchConsumer :=
  ⟨collectionId, 1, providerAlias⟩

/-- The batch that a scanner hands to its consumer. -/
def scanBatch (slice : ScanSlice) (cursor chunk : ℕ) (logs : List EvmLog)
    (boundary : BlockReference) : ScanBatch where
  startBlock := cursor
  endBlock := AdaptiveHistoricalScanner.batchEnd cursor chunk slice.sliceEnd
  endBlockHash := boundary.blockHash
  logs

variable (primitives : Primitives)

/-- One action of an execution. -/
def scanStep (collectionId : ℕ) (db : Database) :
    ScanPhase → ScanEvent → Option (Database × ScanPhase)
  | .idle, .load settings =>
      match db.collection collectionId with
      | none => some (db, .ended)
      | some collection => some (db, .loaded settings collection)
  | .loaded settings collection, .finalized block =>
      match collection.deploymentBlockNumber with
      | none => some (db, .probing settings collection block)
      | some startBlock => some (db, .opening settings collection block startBlock)
  | .probing settings collection block, .probe probe =>
      match recordProbe collectionId probe db with
      | .error _ => none
      | .ok none => some (db, .ended)
      | .ok (some next) =>
          some (next, .opening settings collection block probe.deploymentBlockNumber)
  | .opening settings _ block startBlock, .openJob =>
      match openJob collectionId startBlock block.number db with
      | .error _ => none
      | .ok (next, none) => some (next, .ended)
      | .ok (next, some (cursor, fixedEnd)) => some (next, afterOpening settings cursor fixedEnd)
  | .scanning settings slice cursor chunk, .split error =>
      match AdaptiveHistoricalScanner.chunkAfterError error chunk with
      | none => none
      | some chunk => some (db, .scanning settings slice cursor chunk)
  | .scanning settings slice cursor chunk, .batch logs boundary =>
      let batch := scanBatch slice cursor chunk logs boundary
      if boundary.number ≠ batch.endBlock then none
      else
        match (batchConsumer collectionId).commit primitives batch db with
        | .error _ => none
        | .ok next =>
            some (next, slice.scanNext settings (batch.endBlock + 1)
              (settings.scanner.chunkAfterLogs logs.length chunk))
  | .selecting slice, .select hashes =>
      match db.collection collectionId with
      | none => some (db, slice.afterEnrichment ["collection_not_found"])
      | some collection =>
          if hashes.isPerm (pendingHashes collectionId slice.startBlock slice.sliceEnd db) then
            some (db, slice.enrichNext collection.checksumAddress hashes [])
          else none
  | .enriching slice address hashes warnings, .enrich answers =>
      match hashes with
      | [] => none
      | hash :: hashes =>
          match enrichTransaction primitives collectionId address providerAlias hash answers db with
          | .error _ => none
          | .ok next =>
              some (next, slice.enrichNext address hashes (warnings ++ traceWarning answers))
  | .merging slice warnings, .merge =>
      some (mergeWarnings collectionId warnings db, slice.afterWarnings)
  | .finishing, .finish => some (finishJob collectionId db, .ended)
  | _, .stop => some (db, .ended)
  | _, _ => none

/-- The scan task as a program of processes over one database. -/
def scanProgram : Program Database ScanExecution ScanEvent where
  step db execution event :=
    (scanStep primitives execution.collectionId db execution.phase event).map fun result =>
      (result.1, ⟨execution.collectionId, result.2⟩)

/-- What one action of an execution can do, with the conditions under which it does. -/
inductive ScanTransition (collectionId : ℕ) (db : Database) :
    ScanPhase → ScanEvent → Database → ScanPhase → Prop
  | absent {settings} (missing : db.collection collectionId = none) :
      ScanTransition collectionId db .idle (.load settings) db .ended
  | load {settings collection} (found : db.collection collectionId = some collection) :
      ScanTransition collectionId db .idle (.load settings) db (.loaded settings collection)
  | unknown {settings collection block} (unknown : collection.deploymentBlockNumber = none) :
      ScanTransition collectionId db (.loaded settings collection) (.finalized block) db
        (.probing settings collection block)
  | known {settings collection block startBlock}
      (known : collection.deploymentBlockNumber = some startBlock) :
      ScanTransition collectionId db (.loaded settings collection) (.finalized block) db
        (.opening settings collection block startBlock)
  | gone {settings collection block probe}
      (recorded : recordProbe collectionId probe db = .ok none) :
      ScanTransition collectionId db (.probing settings collection block) (.probe probe) db .ended
  | probe {settings collection block probe next}
      (recorded : recordProbe collectionId probe db = .ok (some next)) :
      ScanTransition collectionId db (.probing settings collection block) (.probe probe) next
        (.opening settings collection block probe.deploymentBlockNumber)
  | completed {settings collection block startBlock next}
      (opened : openJob collectionId startBlock block.number db = .ok (next, none)) :
      ScanTransition collectionId db (.opening settings collection block startBlock) .openJob next
        .ended
  | openJob {settings collection block startBlock next cursor fixedEnd}
      (opened : openJob collectionId startBlock block.number db =
        .ok (next, some (cursor, fixedEnd))) :
      ScanTransition collectionId db (.opening settings collection block startBlock) .openJob next
        (afterOpening settings cursor fixedEnd)
  | split {settings slice cursor chunk error smaller}
      (halved : AdaptiveHistoricalScanner.chunkAfterError error chunk = some smaller) :
      ScanTransition collectionId db (.scanning settings slice cursor chunk) (.split error) db
        (.scanning settings slice cursor smaller)
  | batch {settings slice cursor chunk logs boundary next}
      (committed : (batchConsumer collectionId).commit primitives
        (scanBatch slice cursor chunk logs boundary) db = .ok next) :
      ScanTransition collectionId db (.scanning settings slice cursor chunk)
        (.batch logs boundary) next
        (slice.scanNext settings ((scanBatch slice cursor chunk logs boundary).endBlock + 1)
          (settings.scanner.chunkAfterLogs logs.length chunk))
  | vanished {slice hashes} (missing : db.collection collectionId = none) :
      ScanTransition collectionId db (.selecting slice) (.select hashes) db
        (slice.afterEnrichment ["collection_not_found"])
  | select {slice hashes collection} (found : db.collection collectionId = some collection)
      (selected : hashes.Perm (pendingHashes collectionId slice.startBlock slice.sliceEnd db)) :
      ScanTransition collectionId db (.selecting slice) (.select hashes) db
        (slice.enrichNext collection.checksumAddress hashes [])
  | enrich {slice address hash hashes warnings answers next}
      (enriched : enrichTransaction primitives collectionId address providerAlias hash answers db =
        .ok next) :
      ScanTransition collectionId db (.enriching slice address (hash :: hashes) warnings)
        (.enrich answers) next
        (slice.enrichNext address hashes (warnings ++ traceWarning answers))
  | merge {slice warnings} :
      ScanTransition collectionId db (.merging slice warnings) .merge
        (mergeWarnings collectionId warnings db) slice.afterWarnings
  | finish :
      ScanTransition collectionId db .finishing .finish (finishJob collectionId db) .ended
  | stop {phase} : ScanTransition collectionId db phase .stop db .ended

variable {primitives}

theorem scanTransition_of_scanStep {collectionId : ℕ} {db next : Database} {phase after : ScanPhase}
    {event : ScanEvent}
    (stepped : scanStep primitives collectionId db phase event = some (next, after)) :
    ScanTransition primitives collectionId db phase event next after := by
  cases event with
  | stop =>
      have equal : some (db, ScanPhase.ended) = some (next, after) := by
        cases phase <;> exact stepped
      cases equal
      exact .stop
  | load settings =>
      cases phase <;> simp only [scanStep, reduceCtorEq] at stepped
      split at stepped <;> cases stepped
      · exact .absent ‹_›
      · exact .load ‹_›
  | finalized block =>
      cases phase <;> simp only [scanStep, reduceCtorEq] at stepped
      split at stepped <;> cases stepped
      · exact .unknown ‹_›
      · exact .known ‹_›
  | probe probe =>
      cases phase <;> simp only [scanStep, reduceCtorEq] at stepped
      split at stepped <;> cases stepped
      · exact .gone ‹_›
      · exact .probe ‹_›
  | openJob =>
      cases phase <;> simp only [scanStep, reduceCtorEq] at stepped
      split at stepped <;> cases stepped
      · exact .completed ‹_›
      · exact .openJob ‹_›
  | split error =>
      cases phase <;> simp only [scanStep, reduceCtorEq] at stepped
      split at stepped <;> cases stepped
      exact .split ‹_›
  | batch logs boundary =>
      cases phase <;> simp only [scanStep, reduceCtorEq] at stepped
      split at stepped
      · cases stepped
      · split at stepped <;> cases stepped
        exact .batch ‹_›
  | select hashes =>
      cases phase <;> simp only [scanStep, reduceCtorEq] at stepped
      split at stepped
      · cases stepped
        exact .vanished ‹_›
      · split at stepped <;> cases stepped
        exact .select ‹_› (List.isPerm_iff.mp ‹_›)
  | enrich answers =>
      cases phase <;> simp only [scanStep, reduceCtorEq] at stepped
      split at stepped
      · cases stepped
      · split at stepped <;> cases stepped
        exact .enrich ‹_›
  | merge =>
      cases phase <;> simp only [scanStep, reduceCtorEq] at stepped
      cases stepped
      exact .merge
  | finish =>
      cases phase <;> simp only [scanStep, reduceCtorEq] at stepped
      cases stepped
      exact .finish

/-- An action of the program is a transition of one execution, which keeps its collection. -/
theorem scanTransition_of_step {db next : Database} {execution after : ScanExecution}
    {event : ScanEvent}
    (stepped : (scanProgram primitives).step db execution event = some (next, after)) :
    after.collectionId = execution.collectionId ∧
      ScanTransition primitives execution.collectionId db execution.phase event next
        after.phase := by
  rcases Option.map_eq_some_iff.mp stepped with ⟨⟨store, phase⟩, moved, equal⟩
  cases equal
  exact ⟨rfl, scanTransition_of_scanStep moved⟩

end CopyMint
