import CopyMint.Domain.Enums
import CopyMint.Ethereum.Ports
import CopyMint.Library.Json
import CopyMint.Library.Relational

/-!
# Ethereum observations and scan state

The tables that historical scans read and write, with the columns that they use.
A table is the list of its rows, its unique constraints are functions on rows,
and identifiers are drawn from a counter of the database. Row timestamps are
left out, since nothing that is modelled reads them.
-/

namespace CopyMint

open Hexadecimal Relational

/-- A row of `collections`, as far as scans use it. -/
structure Collection where
  id : ℕ
  checksumAddress : Text
  deploymentBlockNumber : Option ℕ
  deploymentBlockHash : Option Bytes
  deploymentConfidence : DeploymentConfidence
  deploymentConfidenceValue : ℕ
  scanStatus : CollectionScanStatus
  deriving DecidableEq

/-- A row of `scan_jobs`. -/
structure ScanJob where
  id : ℕ
  collectionId : ℕ
  scanVersion : ℕ
  startBlock : ℕ
  endBlock : ℕ
  status : ScanJobStatus
  attemptCount : ℕ
  qualityWarnings : List String
  deriving DecidableEq

/-- A row of `scan_checkpoints`. -/
structure ScanCheckpoint where
  id : ℕ
  collectionId : ℕ
  scanVersion : ℕ
  lastCommittedBlockNumber : ℕ
  lastCommittedBlockHash : Bytes
  deriving DecidableEq

/-- A row of `raw_evidence`. -/
structure RawEvidence where
  id : ℕ
  chainId : ℕ
  kind : EvidenceKind
  contentHash : BytesOf 32
  providerAlias : String
  blockNumber : Option ℕ
  transactionHash : Option Bytes
  payload : Json
  retentionStatus : EvidenceRetentionStatus

/-- A row of `mint_events`. -/
structure MintEvent where
  id : ℕ
  chainId : ℕ
  collectionId : ℕ
  rawEvidenceId : ℕ
  blockNumber : ℕ
  blockHash : Bytes
  transactionHash : Bytes
  logIndex : ℕ
  subIndex : ℕ
  tokenStandard : TokenStandard
  tokenId : ℕ
  quantity : ℕ
  recipient : Text
  transactionSender : Option Text
  operator : Option Text
  payer : Option Text
  probableInitiator : Option Text
  identityConfidence : ℕ
  identityReasonCode : String
  route : MintRoute
  classification : MintClassification
  classificationReasonCode : String
  finality : FinalityStatus
  canonical : Bool
  deriving DecidableEq

/-- The unique constraint of scan jobs. -/
def ScanJob.key (job : ScanJob) : ℕ × ℕ := (job.collectionId, job.scanVersion)

/-- The unique constraint of scan checkpoints. -/
def ScanCheckpoint.key (checkpoint : ScanCheckpoint) : ℕ × ℕ :=
  (checkpoint.collectionId, checkpoint.scanVersion)

/-- The unique constraint of mint events. -/
def MintEvent.position (event : MintEvent) : ℕ × Bytes × ℕ × ℕ :=
  (event.chainId, event.transactionHash, event.logIndex, event.subIndex)

/-- The tables that scans read and write. -/
structure Database where
  collections : List Collection
  scanJobs : List ScanJob
  scanCheckpoints : List ScanCheckpoint
  rawEvidence : List RawEvidence
  mintEvents : List MintEvent
  /-- The next identifier that `uuid7` draws. -/
  nextId : ℕ

namespace Database

/-- The row of a collection. -/
def collection (db : Database) (collectionId : ℕ) : Option Collection :=
  lookup Collection.id collectionId db.collections

/-- The job of a collection for scan version 1. -/
def job (db : Database) (collectionId : ℕ) : Option ScanJob :=
  lookup ScanJob.key (collectionId, 1) db.scanJobs

/-- The checkpoint of a collection and a scan version. -/
def checkpoint (db : Database) (collectionId scanVersion : ℕ) : Option ScanCheckpoint :=
  lookup ScanCheckpoint.key (collectionId, scanVersion) db.scanCheckpoints

/-- The last committed block of a scan. -/
def committedBlock (db : Database) (collectionId scanVersion : ℕ) : Option ℕ :=
  (db.checkpoint collectionId scanVersion).map ScanCheckpoint.lastCommittedBlockNumber

/-- Rewrite the row of a collection. -/
def updateCollection (db : Database) (collectionId : ℕ) (change : Collection → Collection) :
    Database :=
  { db with collections := updateWhere (fun row => row.id = collectionId) change db.collections }

/-- Rewrite the job of a collection for scan version 1. -/
def updateJob (db : Database) (collectionId : ℕ) (change : ScanJob → ScanJob) : Database :=
  { db with scanJobs := updateWhere (fun row => row.key = (collectionId, 1)) change db.scanJobs }

/-- The status of the job of a collection. -/
def jobStatus (db : Database) (collectionId : ℕ) : Option ScanJobStatus :=
  (db.job collectionId).map ScanJob.status

/-- The scan status of a collection. -/
def scanStatus (db : Database) (collectionId : ℕ) : Option CollectionScanStatus :=
  (db.collection collectionId).map Collection.scanStatus

/-- The quality warnings of a job, none where there is no job. -/
def qualityWarnings (db : Database) (collectionId : ℕ) : List String :=
  match db.job collectionId with
  | none => []
  | some job => job.qualityWarnings

/-- The block range of a job. -/
def jobRange (db : Database) (collectionId : ℕ) : Option (ℕ × ℕ) :=
  (db.job collectionId).map fun job => (job.startBlock, job.endBlock)

/-- A job is found as before where the table is the same. -/
theorem job_congr {before after : Database} (same : after.scanJobs = before.scanJobs)
    (collectionId : ℕ) : after.job collectionId = before.job collectionId := by
  simp only [job, same]

theorem collection_congr {before after : Database} (same : after.collections = before.collections)
    (collectionId : ℕ) : after.collection collectionId = before.collection collectionId := by
  simp only [collection, same]

section Rewriting

variable (db : Database) (collectionId : ℕ)

/-- A rewritten job is read as the rewriting of the job. -/
theorem job_updateJob (change : ScanJob → ScanJob) (kept : ∀ job, (change job).key = job.key) :
    (db.updateJob collectionId change).job collectionId = (db.job collectionId).map change := by
  simp only [job, updateJob, lookup_updateWhere kept]
  cases found : lookup ScanJob.key (collectionId, 1) db.scanJobs with
  | none => rfl
  | some job => simp [(lookup_eq_some_mem found).2]

theorem jobRange_updateJob {change : ScanJob → ScanJob} (kept : ∀ job, (change job).key = job.key)
    (sameRange : ∀ job, (change job).startBlock = job.startBlock ∧
      (change job).endBlock = job.endBlock) :
    (db.updateJob collectionId change).jobRange collectionId = db.jobRange collectionId := by
  simp only [jobRange, job_updateJob db collectionId change kept, Option.map_map, Function.comp_def,
    sameRange]

@[simp]
theorem checkpoint_updateJob (change : ScanJob → ScanJob) (scanVersion : ℕ) :
    (db.updateJob collectionId change).checkpoint collectionId scanVersion =
      db.checkpoint collectionId scanVersion := rfl

@[simp]
theorem job_updateCollection (change : Collection → Collection) (other : ℕ) :
    (db.updateCollection collectionId change).job other = db.job other := rfl

@[simp]
theorem collection_updateJob (change : ScanJob → ScanJob) (other : ℕ) :
    (db.updateJob collectionId change).collection other = db.collection other := rfl

theorem collection_updateCollection {change : Collection → Collection}
    (kept : ∀ row, (change row).id = row.id) :
    (db.updateCollection collectionId change).collection collectionId =
      (db.collection collectionId).map change := by
  simp only [collection, updateCollection, lookup_updateWhere kept]
  cases found : lookup Collection.id collectionId db.collections with
  | none => rfl
  | some row => simp [(lookup_eq_some_mem found).2]

variable {collectionId} {other : ℕ}

theorem job_updateJob_of_ne (different : other ≠ collectionId) {change : ScanJob → ScanJob}
    (kept : ∀ job, (change job).key = job.key) :
    (db.updateJob collectionId change).job other = db.job other := by
  apply lookup_updateWhere_of_unselected kept
  intro job same
  simp [same, different]

theorem collection_updateCollection_of_ne (different : other ≠ collectionId)
    {change : Collection → Collection} (kept : ∀ row, (change row).id = row.id) :
    (db.updateCollection collectionId change).collection other = db.collection other := by
  apply lookup_updateWhere_of_unselected kept
  intro row same
  simp [same, different]

end Rewriting

/-- The unique constraints that the scans rely on. -/
structure WellFormed (db : Database) : Prop where
  evidence_unique : Unique RawEvidence.contentHash db.rawEvidence
  position_unique : Unique MintEvent.position db.mintEvents

end Database

end CopyMint
