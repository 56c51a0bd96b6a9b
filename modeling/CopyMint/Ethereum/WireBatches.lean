import CopyMint.Ethereum.MintBatch
import CopyMint.Ethereum.WireFormat

/-!
# Commits of batches that come over the wire

On logs from the wire a commit always succeeds: every hash is well formed and no
log reaches a rejecting branch of a decoder, because none is recognised. For the
same reason none of their mints is stored. What the mints of such a log are is
said by `standardMints`, which recognises an event by the bytes that topic 0
stands for and then decodes it as the code does.

A log that is recognised but not decodable, on the other hand, makes every commit
of a batch with it fail, whatever the database holds.
-/

namespace CopyMint

open Hexadecimal Relational Fallible AbiEncoding

variable (primitives : Primitives)

/--
The mints that a log stands for. This is the abstract reading that the decoder is
compared with: topic 0 is read as the hash that it denotes.
-/
def standardMints (log : EvmLog) (maxErc2309Range : ℕ := 5000) :
    Except Raised (List DecodedMint) :=
  match log.removed, log.topics with
  | true, _ => .ok []
  | false, [] => .ok []
  | false, topic :: _ =>
      if Denotes topic (primitives.keccak erc721TransferSignature.toList).val then
        decodeErc721 primitives log
      else if Denotes topic (primitives.keccak erc1155SingleSignature.toList).val then
        decodeErc1155Single primitives log
      else if Denotes topic (primitives.keccak erc1155BatchSignature.toList).val then
        decodeErc1155Batch primitives log
      else if Denotes topic (primitives.keccak erc2309ConsecutiveSignature.toList).val then
        decodeErc2309 primitives log maxErc2309Range
      else .ok []

/-- A decodable log stands for a mint among others. -/
def IsStandardMintOf (log : EvmLog) (mint : DecodedMint) : Prop :=
  ∃ mints, standardMints primitives log = .ok mints ∧ mint ∈ mints

/-- The mints of the decodable logs of a batch have their rows. -/
def MintsStored (collectionId : ℕ) (batch : ScanBatch) (db : Database) : Prop :=
  ∀ log ∈ batch.logs, ∀ mint, IsStandardMintOf primitives log mint →
    ∃ row ∈ db.mintEvents, row.Records collectionId mint

/-- A commit succeeds, with the evidence, the mints and the checkpoint of its batch stored. -/
def CommitsCompletely (consumer : SqlAlchemyMintBatchConsumer) (batch : ScanBatch)
    (db : Database) : Prop :=
  ∃ next, consumer.commit primitives batch db = .ok next ∧
    (∀ log ∈ batch.logs, EvidenceStored primitives next log) ∧
    MintsStored primitives consumer.collectionId batch next ∧
    ∃ checkpoint,
      next.committedBlock consumer.collectionId consumer.scanVersion = some checkpoint ∧
        batch.endBlock ≤ checkpoint

/-- A batch of logs from the wire, with the hash of its last block. -/
structure IsWireBatch (batch : ScanBatch) : Prop where
  logs : ∀ log ∈ batch.logs, IsWireLog log
  endBlockHash : IsMarkedHex 32 batch.endBlockHash

variable {primitives} {consumer : SqlAlchemyMintBatchConsumer} {batch : ScanBatch}
  {db next : Database}

theorem hexBytes_of_isMarkedHex {length : ℕ} {text : Text} (marked : IsMarkedHex length text) :
    ∃ bytes, hexBytes text length = .ok bytes := by
  rcases marked.denotes with ⟨bytes, denotes, length_eq⟩
  refine ⟨bytes, ?_⟩
  simp only [Denotes] at denotes
  simp [hexBytes, denotes, length_eq]

/-- Storing a log from the wire succeeds and leaves the mints alone. -/
theorem storeLog_of_isWireLog {log : EvmLog} (wire : IsWireLog log) (db : Database) :
    ∃ next, consumer.storeLog primitives db log = .ok next ∧ next.mintEvents = db.mintEvents := by
  rcases hexBytes_of_isMarkedHex wire.transactionHash with ⟨transactionHash, hash_eq⟩
  rcases exists_mem_insertOrIgnore RawEvidence.contentHash
      (evidenceRow primitives consumer.providerAlias db.nextId transactionHash log)
      db.rawEvidence with ⟨stored, stored_mem, same⟩
  cases found : lookup RawEvidence.contentHash (contentHash primitives (evidencePayload log))
      (consumer.insertEvidence primitives transactionHash log db).rawEvidence with
  | none => exact absurd same (lookup_eq_none_iff.mp found stored stored_mem)
  | some created =>
      refine ⟨consumer.insertEvidence primitives transactionHash log db, ?_, rfl⟩
      simp only [SqlAlchemyMintBatchConsumer.storeLog, bind_eq_ok_iff]
      refine ⟨transactionHash, hash_eq, ?_⟩
      simp only [found, bind_eq_ok_iff]
      exact ⟨[], decodeMintLog_of_isWireLog wire 5000, rfl⟩

variable (primitives consumer) in
/-- A commit of logs from the wire succeeds and leaves the mints alone. -/
theorem commit_of_isWireBatch (wire : IsWireBatch batch) (db : Database) :
    ∃ next, consumer.commit primitives batch db = .ok next ∧ next.mintEvents = db.mintEvents := by
  rcases hexBytes_of_isMarkedHex wire.endBlockHash with ⟨endBlockHash, hash_eq⟩
  have step : ∀ {log}, log ∈ batch.logs → ∀ before,
      ∃ after, consumer.storeLog primitives before log = .ok after ∧
        after.mintEvents = before.mintEvents :=
    fun log_mem before => storeLog_of_isWireLog (wire.logs _ log_mem) before
  rcases exists_foldlM_eq_ok (fun log log_mem before =>
      (step log_mem before).imp fun _ facts => facts.1) db with ⟨stored, looped⟩
  have mints_eq : stored.mintEvents = db.mintEvents := by
    refine foldlM_invariant (fun state => state.mintEvents = db.mintEvents)
      (fun {before log after} log_mem same stepped => ?_) looped rfl
    rcases step log_mem before with ⟨other, stepped_other, kept⟩
    cases stepped.symm.trans stepped_other
    exact kept.trans same
  refine ⟨consumer.moveCheckpoint batch.endBlock endBlockHash stored, ?_, mints_eq⟩
  simp only [SqlAlchemyMintBatchConsumer.commit, bind_eq_ok_iff]
  exact ⟨stored, looped, endBlockHash, hash_eq, rfl⟩

/--
On batches from the wire a commit does all that it should exactly if the mints of
the batch are stored already: it fails on none, and stores no mint of any.
-/
theorem commitsCompletely_iff (wire : IsWireBatch batch) :
    CommitsCompletely primitives consumer batch db ↔
      MintsStored primitives consumer.collectionId batch db := by
  rcases commit_of_isWireBatch primitives consumer wire db with
    ⟨next, committed, mints_eq⟩
  have same : MintsStored primitives consumer.collectionId batch next ↔
      MintsStored primitives consumer.collectionId batch db := by
    simp only [MintsStored, mints_eq]
  constructor
  · rintro ⟨other, committed_other, _, mintsStored, _⟩
    cases committed.symm.trans committed_other
    exact same.mp mintsStored
  · intro mintsStored
    rcases SqlAlchemyMintBatchConsumer.commit_eq_ok committed with
      ⟨stored, endBlockHash, _, logsStored, _, rfl⟩
    refine ⟨_, committed, fun log log_mem => (logsStored log log_mem).evidence,
      same.mpr mintsStored, _,
      consumer.committedBlock_moveCheckpoint batch.endBlock endBlockHash stored,
      le_max_left _ _⟩

/-- Every log of a committed batch is decodable, so that one which is not blocks its range. -/
theorem decodes_of_commit_eq_ok (committed : consumer.commit primitives batch db = .ok next)
    {log : EvmLog} (log_mem : log ∈ batch.logs) :
    ∃ mints, decodeMintLog primitives log = .ok mints := by
  rcases bind_eq_ok_iff.mp committed with ⟨stored, looped, _⟩
  refine foldlM_establishes (fun _ => True)
    (fun log _ => ∃ mints, decodeMintLog primitives log = .ok mints)
    (fun _ _ _ => trivial) (fun {before other after} _ _ stepped => ?_)
    (fun _ _ _ already => already)
    looped trivial log log_mem
  rcases bind_eq_ok_iff.mp stepped with ⟨_, _, stepped⟩
  simp only at stepped
  split at stepped
  · cases stepped
  · rcases bind_eq_ok_iff.mp stepped with ⟨mints, decodes, _⟩
    exact ⟨mints, decodes⟩

section Samples

/-- The digests of the documents of a table. -/
def digestOf (known : List (Json × BytesOf 32)) (data : Bytes) : BytesOf 32 :=
  match known.find? fun entry => Json.utf8 entry.1.dumps = data with
  | some entry => entry.2
  | none => zeroHash

/-- The sample hashes with the digest of the evidence of the transfer from the wire. -/
def wireHashes : Primitives :=
  { sampleHashes with
    sha256 := digestOf
      [(evidencePayload transferLog,
        ⟨[0xe5, 0xd6, 0x65, 0x2b, 0x51, 0xcf, 0x60, 0x5b, 0x83, 0x4c, 0x2b, 0x5e,
          0x41, 0xc7, 0x18, 0x4b, 0x10, 0x73, 0x0b, 0x4a, 0x0b, 0xce, 0x47, 0xb5,
          0x92, 0xa1, 0x8b, 0x27, 0x83, 0x3c, 0xf7, 0xf3], rfl⟩)] }

/-- The batch of the block of the transfer. -/
def transferBatch : ScanBatch := ⟨7, 7, transferLog.blockHash, [transferLog]⟩

/-- A collection with a known deployment block, and nothing else. -/
def sampleDatabase : Database where
  collections :=
    [{ id := 1
       checksumAddress := marker ++ hex sampleAddress.val
       deploymentBlockNumber := some 7
       deploymentBlockHash := some (List.replicate 32 3)
       deploymentConfidence := .exact
       deploymentConfidenceValue := 100
       scanStatus := .scanning }]
  scanJobs := []
  scanCheckpoints := []
  rawEvidence := []
  mintEvents := []
  nextId := 2

/-- The mint that the transfer stands for. -/
def transferMint : DecodedMint where
  collectionAddress := marker ++ hex sampleAddress.val
  tokenStandard := .erc721
  tokenId := 1
  quantity := 1
  recipient := marker ++ hex sampleAddress.val
  operator := none
  blockNumber := 7
  blockHash := transferLog.blockHash
  transactionHash := transferLog.transactionHash
  logIndex := 0
  subIndex := 0

/-- The collection with the evidence of the transfer and the row of its mint. -/
def mintedDatabase : Database :=
  { sampleDatabase with
    rawEvidence := [evidenceRow wireHashes "chainstack-primary" 2 (word 5) transferLog]
    mintEvents := [mintRow 1 2 3 (word 3) (word 5) transferMint]
    nextId := 4 }

theorem isWireBatch_transferBatch : IsWireBatch transferBatch where
  logs := by simpa [transferBatch] using isWireLog_transferLog
  endBlockHash := isWireLog_transferLog.blockHash

theorem standardMints_transferLog :
    standardMints wireHashes transferLog = .ok [transferMint] := by
  rfl

theorem records_transferMint :
    (mintRow 1 2 3 (word 3) (word 5) transferMint).Records 1 transferMint := by
  constructor <;> rfl

end Samples

/-- The batch of the transfer is committed, but its mint is not stored. -/
theorem transferBatch_notCompletely :
    ¬∀ (batch : ScanBatch) (db : Database), IsWireBatch batch →
      CommitsCompletely wireHashes ⟨1, 1, "chainstack-primary"⟩ batch db := by
  intro completely
  rcases completely transferBatch sampleDatabase isWireBatch_transferBatch with
    ⟨next, committed, _, mintsStored, _⟩
  rcases commit_of_isWireBatch _ _ isWireBatch_transferBatch sampleDatabase with
    ⟨other, committed_other, mints_eq⟩
  cases committed.symm.trans committed_other
  rcases mintsStored transferLog (List.mem_singleton_self _) transferMint
    ⟨_, standardMints_transferLog, List.mem_singleton_self _⟩ with ⟨row, row_mem, _⟩
  simp [mints_eq, sampleDatabase] at row_mem

/-- Where the mint has its row, a commit of the batch leaves nothing to store. -/
theorem transferBatch_commitsCompletely :
    CommitsCompletely wireHashes ⟨1, 1, "chainstack-primary"⟩ transferBatch mintedDatabase := by
  refine (commitsCompletely_iff isWireBatch_transferBatch).mpr ?_
  intro log log_mem mint isMint
  cases List.mem_singleton.mp log_mem
  rcases isMint with ⟨mints, decoded, mint_mem⟩
  cases decoded.symm.trans standardMints_transferLog
  cases List.mem_singleton.mp mint_mem
  exact ⟨_, List.mem_singleton_self _, records_transferMint⟩

end CopyMint
