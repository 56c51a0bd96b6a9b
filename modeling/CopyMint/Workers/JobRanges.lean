import CopyMint.Workers.Collections

/-!
# The range of a scan's job

The first execution for a collection asks for the finalized head, and then probes the
deployment block, which asks for the head again. It stores the block that the probe has
found, and opens the job from that block to the head that was asked for first. Where the
head has moved in between and the contract is found behind the first one, the range of
the job is empty and the database rejects it, after the block and the status of the
collection have been committed.
-/

namespace CopyMint

open Hexadecimal Interleaving

section Execution

variable {World : Type} (primitives : Primitives) (discovery : EthereumCollectionDiscovery)
  (ports : DiscoveryPorts World) (settings : WorkerSettings) (collectionId : ℕ)

/-- The transaction that creates or resumes the job. -/
def openScan (startBlock : ℕ) (finalized : BlockReference) (db : Database) :
    Except DiscoveryFailure ScanPhase × Database :=
  match openJob collectionId startBlock finalized.number db with
  | .error raised => (.error (.raised raised), db)
  | .ok (next, none) => (.ok .ended, next)
  | .ok (next, some (cursor, fixedEnd)) => (.ok (afterOpening settings cursor fixedEnd), next)

/-- `_scan_collection` up to its job, as far as it comes in a number of rounds of the bisection. -/
def beginScan (rounds : ℕ) (db : Database) (world : World) :
    Option ((Except DiscoveryFailure ScanPhase × Database) × World) :=
  match db.collection collectionId with
  | none => some ((.ok .ended, db), world)
  | some collection =>
      match ports.block .finalized world with
      | (.error raised, world) => some ((.error (.raised raised), db), world)
      | (.ok finalized, world) =>
          match collection.deploymentBlockNumber with
          | some startBlock => some (openScan settings collectionId startBlock finalized db, world)
          | none =>
              match discovery.probe primitives ports rounds collection.checksumAddress world with
              | none => none
              | some (.error failure, world) => some ((.error failure, db), world)
              | some (.ok probe, world) =>
                  match recordProbe collectionId probe db with
                  | .error raised => some ((.error (.raised raised), db), world)
                  | .ok none => some ((.ok .ended, db), world)
                  | .ok (some db) =>
                      some (openScan settings collectionId probe.deploymentBlockNumber finalized db,
                        world)

end Execution

/-- An execution takes one action after another. -/
inductive ScanSteps (primitives : Primitives) (collectionId : ℕ) :
    Database → ScanPhase → Database → ScanPhase → Prop
  | refl (db : Database) (phase : ScanPhase) : ScanSteps primitives collectionId db phase db phase
  | head {db middle next : Database} {phase reached after : ScanPhase} {event : ScanEvent}
      (stepped : scanStep primitives collectionId db phase event = some (middle, reached))
      (later : ScanSteps primitives collectionId middle reached next after) :
      ScanSteps primitives collectionId db phase next after

section Steps

variable {World : Type} {primitives : Primitives} {discovery : EthereumCollectionDiscovery}
  {ports : DiscoveryPorts World} {settings : WorkerSettings} {collectionId rounds : ℕ}
  {db next : Database} {phase after : ScanPhase}

theorem scanSteps_of_openScan {startBlock : ℕ} {finalized : BlockReference}
    {collection : Collection}
    (opened : openScan settings collectionId startBlock finalized db = (.ok phase, next)) :
    ScanSteps primitives collectionId db (.opening settings collection finalized startBlock) next
      phase := by
  simp only [openScan] at opened
  split at opened
  · cases opened
  · rename_i done
    cases opened
    exact .head (show scanStep primitives collectionId db _ .openJob = _ by
      simp only [scanStep, done]) (.refl _ _)
  · rename_i begun
    cases opened
    exact .head (show scanStep primitives collectionId db _ .openJob = _ by
      simp only [scanStep, begun]) (.refl _ _)

/-- What the task does up to its job are steps of its program. -/
theorem scanSteps_of_beginScan {world finish : World}
    (begun : beginScan primitives discovery ports settings collectionId rounds db world =
      some ((.ok phase, next), finish)) :
    ScanSteps primitives collectionId db .idle next phase := by
  simp only [beginScan] at begun
  split at begun
  · rename_i absent
    cases begun
    exact .head (show scanStep primitives collectionId db _ (.load settings) = _ by
      simp only [scanStep, absent]) (.refl _ _)
  rename_i collection found
  have loaded : scanStep primitives collectionId db .idle (.load settings) =
      some (db, .loaded settings collection) := by
    simp only [scanStep, found]
  refine .head loaded ?_
  split at begun
  · cases begun
  rename_i finalized _ _
  split at begun
  · rename_i startBlock known
    have answered : scanStep primitives collectionId db (.loaded settings collection)
        (.finalized finalized) = some (db, .opening settings collection finalized startBlock) := by
      simp only [scanStep, known]
    have opened := congrArg Prod.fst (Option.some.inj begun)
    exact .head answered (scanSteps_of_openScan opened)
  rename_i unknown
  have answered : scanStep primitives collectionId db (.loaded settings collection)
      (.finalized finalized) = some (db, .probing settings collection finalized) := by
    simp only [scanStep, unknown]
  refine .head answered ?_
  split at begun
  · cases begun
  · cases begun
  rename_i probe _ _
  split at begun
  · cases begun
  · rename_i gone
    cases begun
    exact .head (show scanStep primitives collectionId db _ (.probe probe) = _ by
      simp only [scanStep, gone]) (.refl _ _)
  · rename_i middle recorded
    have stored : scanStep primitives collectionId db (.probing settings collection finalized)
        (.probe probe) = some (middle, .opening settings collection finalized
          probe.deploymentBlockNumber) := by
      simp only [scanStep, recorded]
    have opened := congrArg Prod.fst (Option.some.inj begun)
    exact .head stored (scanSteps_of_openScan opened)

end Steps

/-- The execution has opened a job with blocks in its range. -/
def InsertsJob (collectionId : ℕ) (result : Except DiscoveryFailure ScanPhase × Database) : Prop :=
  (∃ phase, result.1 = .ok phase) ∧
    ∃ job, result.2.job collectionId = some job ∧ job.startBlock ≤ job.endBlock

/-- The deployment block is committed, but the job of the collection has been rejected. -/
structure Stranded (collectionId : ℕ) (result : Except DiscoveryFailure ScanPhase × Database) :
    Prop where
  rejected : result.1 = .error (.raised (.integrityError "valid_block_range"))
  unscanned : result.2.job collectionId = none
  probed : ∃ collection, result.2.collection collectionId = some collection ∧
    collection.deploymentBlockNumber.isSome ∧ collection.scanStatus = .scanning

open EthereumCollectionDiscovery

/-- A bisection up to the second head cannot end at a block behind the first one. -/
def EndsBy (history : ℕ → Bytes) (first second : ℕ) : Prop :=
  ∀ target, first < target → target ≤ second →
    ∃ block, LooksAt target 0 second block ∧ ¬(history block ≠ [] ↔ target ≤ block)

section Ranges

variable {World : Type} {primitives : Primitives} {discovery : EthereumCollectionDiscovery}
  {ports : DiscoveryPorts World} {settings : WorkerSettings} {collectionId rounds : ℕ}
  {db next : Database} {history : ℕ → Bytes} {first second found : ℕ} {asked : List ℕ}

theorem EthereumCollectionDiscovery.Finds.le_iff_endsBy
    (finds : Finds history second found asked) :
    found ≤ first ↔ EndsBy history first second := by
  constructor
  · intro found_le target target_gt target_le
    rcases exists_looksAt_between (Nat.zero_le found) (found_le.trans_lt target_gt) target_le with
      ⟨block, toFound, toTarget, found_le_block, block_lt⟩
    refine ⟨block, toTarget, fun agrees => ?_⟩
    have code := (finds.seen block toFound).mpr found_le_block
    exact absurd (agrees.mp code) (Nat.not_le_of_lt block_lt)
  · intro ends
    by_contra behind
    rcases ends found (Nat.lt_of_not_le behind) finds.le with ⟨block, looks, disagrees⟩
    exact disagrees (finds.seen block looks)

/-- Where code stays once it is there, it has to be there at the first head. -/
theorem EthereumCollectionDiscovery.Finds.endsBy_iff_of_stays
    (finds : Finds history second found asked)
    (ordered : first ≤ second)
    (stays : ∀ earlier later, earlier ≤ later → later ≤ second → history earlier ≠ [] →
      history later ≠ []) : EndsBy history first second ↔ history first ≠ [] := by
  rw [← finds.le_iff_endsBy]
  constructor
  · intro found_le
    exact stays found first found_le ordered finds.present
  · intro code
    by_contra behind
    have first_lt := Nat.lt_of_not_le behind
    have found_le := finds.le
    exact stays first (found - 1) (by omega) (by omega) code (finds.absent (by omega))

theorem openJob_of_unscanned {startBlock finalized : ℕ} (unscanned : db.job collectionId = none) :
    (finalized < startBlock ∧ openJob collectionId startBlock finalized db =
        .error (.integrityError "valid_block_range")) ∨
      startBlock ≤ finalized ∧ ∃ next cursor,
        openJob collectionId startBlock finalized db = .ok (next, some (cursor, finalized)) ∧
          next.jobRange collectionId = some (startBlock, finalized) := by
  simp only [openJob, unscanned]
  split_ifs with empty
  · exact .inl ⟨empty, rfl⟩
  · refine .inr ⟨Nat.le_of_not_lt empty, _, _, rfl, ?_⟩
    let job : ScanJob := ⟨db.nextId, collectionId, 1, startBlock, finalized, .running, 1, []⟩
    have stored : Relational.lookup ScanJob.key job.key (db.scanJobs ++ [job]) = some job :=
      Relational.lookup_append_new rfl unscanned
    exact Option.map_eq_some_iff.mpr ⟨job, stored, rfl⟩

/-- What becomes of the job depends only on where the probe has ended. -/
theorem openScan_of_unscanned {startBlock : ℕ} {finalized : BlockReference}
    (unscanned : db.job collectionId = none)
    (probed : ∃ collection, db.collection collectionId = some collection ∧
      collection.deploymentBlockNumber.isSome ∧ collection.scanStatus = .scanning) :
    (startBlock ≤ finalized.number ∧
        InsertsJob collectionId (openScan settings collectionId startBlock finalized db)) ∨
      finalized.number < startBlock ∧
        Stranded collectionId (openScan settings collectionId startBlock finalized db) := by
  rcases openJob_of_unscanned unscanned with
    ⟨empty, raised⟩ | ⟨ordered, next, cursor, opened, range⟩
  · refine .inr ⟨empty, ?_⟩
    simp only [openScan, raised]
    exact ⟨rfl, unscanned, probed⟩
  · refine .inl ⟨ordered, ?_⟩
    simp only [openScan, opened]
    rcases Option.map_eq_some_iff.mp range with ⟨job, stored, equal⟩
    rcases Prod.mk.inj equal with ⟨start_eq, end_eq⟩
    exact ⟨⟨_, rfl⟩, job, stored, by rw [start_eq, end_eq]; exact ordered⟩

theorem not_stranded_of_insertsJob {result : Except DiscoveryFailure ScanPhase × Database}
    (inserts : InsertsJob collectionId result) : ¬Stranded collectionId result := by
  intro stranded
  rcases inserts.1 with ⟨phase, returned⟩
  cases returned.symm.trans stranded.rejected

/-- A probe is stored with the status of the collection. -/
theorem exists_recordProbe {collection : Collection} {probe : CollectionProbe} {hash : Bytes}
    (found : db.collection collectionId = some collection)
    (decoded : bytesFromhex probe.deploymentBlockHash = .ok hash) :
    ∃ next, recordProbe collectionId probe db = .ok (some next) ∧
      next.job collectionId = db.job collectionId ∧
      ∃ current, next.collection collectionId = some current ∧
        current.deploymentBlockNumber.isSome ∧ current.scanStatus = .scanning := by
  simp only [recordProbe, found, decoded]
  refine ⟨_, rfl, rfl, ?_⟩
  rw [Database.collection_updateCollection db collectionId (by exact fun _ => rfl), found]
  exact ⟨_, rfl, rfl, rfl⟩

/-- The world of a provider when a probe asks for the finalized head. -/
def DiscoveryPorts.probeWorld (ports : DiscoveryPorts World) (world : World) : World :=
  (ports.chainId (ports.block .finalized world).2).2

/--
The first execution for a collection opens a job with blocks in its range, and never
leaves the collection without one, exactly if the bisection of the probe cannot end behind
the head that was asked for first; where code stays once it is there, exactly if the
contract has code at that head. In all other cases the collection is left without a job.
-/
theorem job_inserted_iff {head : World → ℕ} {checksum : Text} {collection : Collection}
    (answers : ports.AnswersAt checksum discovery.chainId head history)
    (hashes : ∀ tag world reference, (ports.block tag world).1 = .ok reference →
      ∃ hash, bytesFromhex reference.blockHash = .ok hash)
    (found : db.collection collectionId = some collection)
    (unprobed : collection.deploymentBlockNumber = none)
    (unscanned : db.job collectionId = none)
    (valid : primitives.isAddress collection.checksumAddress = true)
    (normalized : primitives.toChecksumAddress collection.checksumAddress = .ok checksum)
    (world : World) (deployed : history (head (ports.probeWorld world)) ≠ []) :
    ∃ result finish,
      (∀ rounds > Nat.clog 2 (head (ports.probeWorld world) + 1),
        beginScan primitives discovery ports settings collectionId rounds db world =
          some (result, finish)) ∧
      (InsertsJob collectionId result ∧ ¬Stranded collectionId result ↔
        EndsBy history (head world) (head (ports.probeWorld world))) ∧
      (¬EndsBy history (head world) (head (ports.probeWorld world)) →
        Stranded collectionId result) ∧
      (head world ≤ head (ports.probeWorld world) →
        (∀ earlier later, earlier ≤ later → later ≤ head (ports.probeWorld world) →
          history earlier ≠ [] → history later ≠ []) →
        (EndsBy history (head world) (head (ports.probeWorld world)) ↔
          history (head world) ≠ [])) := by
  rcases answers.finalized world with ⟨finalizedHash, finalized_eq⟩
  rcases exists_probe_at answers valid normalized (ports.block .finalized world).2 deployed with
    ⟨block, blockHash, before, finish, asked, probed, finds, reference_eq⟩
  rcases hashes _ _ _ reference_eq with ⟨hash, decoded⟩
  let probe : CollectionProbe := ⟨lower checksum, checksum, block, blockHash, .exact, 100⟩
  have decoded_probe : bytesFromhex probe.deploymentBlockHash = .ok hash := decoded
  rcases exists_recordProbe found decoded_probe with ⟨next, recorded, job_eq, current⟩
  let finalized : BlockReference := ⟨head world, finalizedHash⟩
  have ends : block ≤ head world ↔ EndsBy history (head world) (head (ports.probeWorld world)) :=
    finds.le_iff_endsBy
  have outcome : block ≤ head world ∧
      InsertsJob collectionId (openScan settings collectionId block finalized next) ∨
        head world < block ∧
          Stranded collectionId (openScan settings collectionId block finalized next) :=
    @openScan_of_unscanned settings collectionId next block finalized (job_eq.trans unscanned)
      current
  refine ⟨openScan settings collectionId block finalized next, finish, fun rounds many => ?_, ?_,
    ?_, finds.endsBy_iff_of_stays⟩
  · have played : discovery.probe primitives ports rounds collection.checksumAddress
        (ports.block .finalized world).2 = some (.ok probe, finish) := by
      rw [probe_recorded rounds _ _ [], probed rounds many]
      rfl
    have asked : ports.block .finalized world =
        (.ok finalized, (ports.block .finalized world).2) := Prod.ext finalized_eq rfl
    simp only [beginScan, found, unprobed]
    rw [asked]
    simp only [played, recorded]
    rfl
  · rw [← ends]
    rcases outcome with ⟨ordered, inserts⟩ | ⟨behind, stranded⟩
    · exact iff_of_true ⟨inserts, not_stranded_of_insertsJob inserts⟩ ordered
    · exact iff_of_false (fun holds => holds.2 stranded) (Nat.not_le_of_lt behind)
  · rw [← ends]
    rcases outcome with ⟨ordered, _⟩ | ⟨_, stranded⟩
    · exact fun disordered => absurd ordered disordered
    · exact fun _ => stranded

section Samples

/-- A provider whose finalized head moves from call to call. -/
def advancingPorts (history : ℕ → Bytes) (head : ℕ → ℕ) : DiscoveryPorts ℕ where
  chainId calls := (.ok 1, calls + 1)
  block tag calls :=
    match tag with
    | .number number => (.ok ⟨number, marker ++ hex (AbiEncoding.word number)⟩, calls + 1)
    | .finalized =>
        (.ok ⟨head calls, marker ++ hex (AbiEncoding.word (head calls))⟩, calls + 1)
  code _ number calls := (.ok (history number), calls + 1)

theorem answersAt_advancingPorts (checksum : Text) (history : ℕ → Bytes) (head : ℕ → ℕ) :
    (advancingPorts history head).AnswersAt checksum 1 head history where
  chainId _ := rfl
  finalized _ := ⟨_, rfl⟩
  block _ _ := ⟨_, rfl⟩
  code _ _ := rfl

theorem hashes_advancingPorts (history : ℕ → Bytes) (head : ℕ → ℕ) (tag : BlockTag) (calls : ℕ)
    (reference : BlockReference)
    (answered : ((advancingPorts history head).block tag calls).1 = .ok reference) :
    ∃ hash, bytesFromhex reference.blockHash = .ok hash := by
  have decoded : ∀ bytes : Bytes, bytesFromhex (marker ++ hex bytes) = .ok bytes := by
    intro bytes
    simp only [bytesFromhex, removePrefix_append, fromhex_hex]
  cases tag <;>
    · cases answered
      exact ⟨_, decoded _⟩

/-- A collection that has been added and not been probed. -/
def addedCollection : Collection :=
  ⟨11, contractText, none, none, .unknown, 0, .pending⟩

/-- A database with the added collection alone. -/
def addedDatabase : Database where
  collections := [addedCollection]
  scanJobs := []
  scanCheckpoints := []
  rawEvidence := []
  mintEvents := []
  nextId := 12

/-- Chunks of one block. -/
def smallestSettings : WorkerSettings where
  indexerInitialChunk := 1
  indexerMaxChunk := 1
  positive := Nat.le_refl 1
  ordered := Nat.le_refl 1
  bounded := Nat.le_of_ble_eq_true rfl

/-- A head of 6 at the first call, and of 8 from then on. -/
def movingHead (calls : ℕ) : ℕ := if calls = 0 then 6 else 8

end Samples

/-- A contract is deployed at block 7, between two readings of the finalized head. -/
theorem movingHead_strands :
    ¬∀ (history : ℕ → Bytes) (head : ℕ → ℕ), Monotone head →
      ∀ (db : Database) (collectionId : ℕ) (collection : Collection),
        db.collection collectionId = some collection →
        collection.deploymentBlockNumber = none → db.job collectionId = none →
        sampleHashes.isAddress collection.checksumAddress = true →
        history (head ((advancingPorts history head).probeWorld 0)) ≠ [] →
        ∀ rounds result finish,
          beginScan sampleHashes mainnet (advancingPorts history head) smallestSettings
              collectionId rounds db 0 = some (result, finish) →
            InsertsJob collectionId result ∧ ¬Stranded collectionId result := by
  intro claimed
  have monotone : Monotone movingHead := by
    intro earlier later ordered
    simp only [movingHead]
    split_ifs <;> omega
  have begun : ∃ next finish, beginScan sampleHashes mainnet
      (advancingPorts deployedHistory movingHead) smallestSettings 11 5 addedDatabase 0 =
        some ((.error (.raised (.integrityError "valid_block_range")), next), finish) :=
    ⟨_, _, rfl⟩
  rcases begun with ⟨next, finish, begun⟩
  have inserts := (claimed deployedHistory movingHead monotone addedDatabase 11 addedCollection rfl
    rfl rfl isAddress_contractText (by decide) 5 _ _ begun).1
  rcases inserts.1 with ⟨phase, returned⟩
  cases returned

/-- The contract of block 7 gets its job if the head is past it at the first call. -/
theorem settledHead_inserts :
    ∃ result finish, beginScan sampleHashes mainnet
        (advancingPorts deployedHistory (8 + ·)) smallestSettings 11 6 addedDatabase 0 =
          some (result, finish) ∧ InsertsJob 11 result := by
  rcases job_inserted_iff (answersAt_advancingPorts contractText deployedHistory (8 + ·))
      (hashes_advancingPorts _ _) (rfl : addedDatabase.collection 11 = some addedCollection) rfl rfl
      isAddress_contractText checksum_contractText 0 (by decide) with
    ⟨result, finish, begun, inserts_iff, _, ends_iff⟩
  have ends := (ends_iff (by decide) fun _ _ ordered _ => deployedHistory_stays ordered).mpr
    (by decide)
  exact ⟨result, finish, begun 6 (by decide), (inserts_iff.mpr ends).1⟩

end Ranges

end CopyMint
