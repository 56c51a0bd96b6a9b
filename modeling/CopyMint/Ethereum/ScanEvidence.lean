import CopyMint.Ethereum.ScanRanges

/-!
# Batches and their boundary blocks

The logs of a batch and its boundary block are the answers to two calls. The scanner
compares the number of the block with the end of the range and nothing else, so a
batch is as consistent as the two answers are.
-/

namespace CopyMint

open Hexadecimal Loops

/-- The logs of a batch lie in its range, and those of its last block belong to that block. -/
structure ScanBatch.IsConsistent (batch : ScanBatch) : Prop where
  inRange : ∀ log ∈ batch.logs,
    batch.startBlock ≤ log.blockNumber ∧ log.blockNumber ≤ batch.endBlock
  sameBlock : ∀ log ∈ batch.logs, log.blockNumber = batch.endBlock →
    lower log.blockHash = lower batch.endBlockHash

/-- What the provider has answered in one round. -/
structure RoundAnswers where
  startBlock : ℕ
  endBlock : ℕ
  logs : List EvmLog
  boundary : BlockReference

/-- The answers of the rounds in which both calls were answered, the last round first. -/
def roundAnswers : List ScanCall → List RoundAnswers
  | [] => []
  | .block _ (.ok boundary) :: .logs startBlock endBlock (.ok logs) :: calls =>
      ⟨startBlock, endBlock, logs, boundary⟩ :: roundAnswers calls
  | _ :: calls => roundAnswers calls

/-- The logs are those of the range that was asked for, on the chain of the boundary block. -/
structure RoundAnswers.Agree (answers : RoundAnswers) : Prop where
  asked : ∀ log ∈ answers.logs,
    answers.startBlock ≤ log.blockNumber ∧ log.blockNumber ≤ answers.endBlock
  sameChain : ∀ log ∈ answers.logs, log.blockNumber = answers.boundary.number →
    lower log.blockHash = lower answers.boundary.blockHash

/-- The batch of a round whose boundary block passes the check. -/
def RoundAnswers.batch (answers : RoundAnswers) : Option ScanBatch :=
  if answers.boundary.number = answers.endBlock then
    some ⟨answers.startBlock, answers.endBlock, answers.boundary.blockHash, answers.logs⟩
  else none

namespace AdaptiveHistoricalScanner

variable {World : Type} {scanner : AdaptiveHistoricalScanner} {ports : ScanPorts World}
  {address : Text} {topics : List (Option Text)} {startBlock endBlock : ℕ}
  {calls : List ScanCall}

/-- The batches handed over are those of the rounds that pass the check. -/
def HandsAnswers (calls : List ScanCall) : Prop :=
  handed calls = (roundAnswers calls).filterMap RoundAnswers.batch

theorem HandsAnswers.hand (hands : HandsAnswers calls) (batch : ScanBatch)
    (answer : Except Raised Unit) :
    HandsAnswers (.commit batch answer ::
      .block batch.endBlock (.ok ⟨batch.endBlock, batch.endBlockHash⟩) ::
        .logs batch.startBlock batch.endBlock (.ok batch.logs) :: calls) := by
  simp only [HandsAnswers, handed, roundAnswers, List.filterMap_cons, RoundAnswers.batch, if_pos]
  rw [hands]

/-- A round adds to both sides alike. -/
theorem handsAnswers_round {state : ScanState (World × List ScanCall)}
    (hands : HandsAnswers state.world.2) :
    (∀ {after}, scanner.scanRound ports.recorded address topics endBlock state = .next after →
        HandsAnswers after.world.2) ∧
      ∀ {result}, scanner.scanRound ports.recorded address topics endBlock state = .exit result →
        HandsAnswers result.2.2 := by
  have moved := roundPlayed scanner ports address topics endBlock state
  constructor
  · intro after played
    rw [played] at moved
    cases moved with
    | splits => exact hands
    | commits => exact hands.hand _ _
  · intro result played
    rw [played] at moved
    cases moved with
    | returns => exact hands
    | logsFail => exact hands
    | blockFails => exact hands
    | mismatches ready other =>
        simp only [HandsAnswers, handed, roundAnswers, List.filterMap_cons, RoundAnswers.batch,
          if_neg other]
        exact hands
    | refuses => exact hands.hand _ _

theorem batch_isConsistent_iff {answers : RoundAnswers} {batch : ScanBatch}
    (passed : answers.batch = some batch) : batch.IsConsistent ↔ answers.Agree := by
  simp only [RoundAnswers.batch] at passed
  split_ifs at passed with checked
  cases passed
  constructor
  · rintro ⟨inRange, sameBlock⟩
    exact ⟨inRange, fun log log_mem same => sameBlock log log_mem (same.trans checked)⟩
  · rintro ⟨asked, sameChain⟩
    exact ⟨asked, fun log log_mem same => sameChain log log_mem (same.trans checked.symm)⟩

/--
Every batch that a scan hands over is consistent exactly if the answers agree in every
round whose boundary block has the number asked for.
-/
theorem scan_isConsistent_iff (scanner : AdaptiveHistoricalScanner) (ports : ScanPorts World)
    (address : Text) (topics : List (Option Text)) (ordered : startBlock ≤ endBlock)
    (world : World) :
    ∃ result finish calls,
      (∀ rounds > scanner.mostQueries startBlock endBlock,
        scanner.scan ports.recorded address topics rounds startBlock endBlock (world, []) =
          some (result, finish, calls)) ∧
      ((∀ batch ∈ handed calls, batch.IsConsistent) ↔
        ∀ answers ∈ roundAnswers calls, answers.boundary.number = answers.endBlock →
          answers.Agree) := by
  rcases exists_scan scanner ports address topics ordered world with
    ⟨result, finish, calls, scanned⟩
  have ran := scanned _ (Nat.lt_succ_self _)
  rw [scan_of_ordered ordered] at ran
  have hands : HandsAnswers calls := run_invariant
    (fun state : ScanState (World × List ScanCall) => HandsAnswers state.world.2)
    (fun result => HandsAnswers result.2.2)
    (fun hands played => (handsAnswers_round hands).1 played)
    (fun hands played => (handsAnswers_round hands).2 played) ran rfl
  refine ⟨result, finish, calls, scanned, ?_⟩
  rw [hands]
  constructor
  · intro consistent answers answers_mem checked
    have passed : answers.batch = some _ := if_pos checked
    exact (batch_isConsistent_iff passed).mp
      (consistent _ (List.mem_filterMap.mpr ⟨answers, answers_mem, passed⟩))
  · intro agree batch batch_mem
    rcases List.mem_filterMap.mp batch_mem with ⟨answers, answers_mem, passed⟩
    have checked : answers.boundary.number = answers.endBlock := by
      by_contra other
      rw [RoundAnswers.batch, if_neg other] at passed
      cases passed
    exact (batch_isConsistent_iff passed).mpr (agree answers answers_mem checked)

section Samples

/-- A log of block 7, as a node on one fork knows it. -/
def forkedLog : EvmLog where
  address := marker ++ hex (AbiEncoding.word 1)
  topics := []
  data := marker
  blockNumber := 7
  blockHash := marker ++ hex (AbiEncoding.word 3)
  transactionHash := marker ++ hex (AbiEncoding.word 5)
  logIndex := 0
  removed := false

/-- The logs come from a node on one fork and the block from a node on another. -/
def forkedPorts : ScanPorts Unit where
  logs _ _ _ _ _ := (.ok [forkedLog], ())
  block number _ := (.ok ⟨number, marker ++ hex (AbiEncoding.word 4)⟩, ())
  commit _ _ := (.ok (), ())

/-- The calls of a scan of block 7. -/
def forkedCalls : List ScanCall :=
  let batch : ScanBatch := ⟨7, 7, marker ++ hex (AbiEncoding.word 4), [forkedLog]⟩
  [.commit batch (.ok ()), .block 7 (.ok ⟨7, marker ++ hex (AbiEncoding.word 4)⟩),
    .logs 7 7 (.ok [forkedLog])]

end Samples

theorem forkedScan (rounds : ℕ) :
    wideScanner.scan forkedPorts.recorded [] [] (rounds + 2) 7 7 ((), []) =
      some (.ok (), (), forkedCalls) := rfl

/-- A batch is handed over with a log of another fork at its last block. -/
theorem forkedScan_notConsistent :
    ¬∀ (scanner : AdaptiveHistoricalScanner) (ports : ScanPorts Unit) (startBlock endBlock : ℕ)
      (_ : startBlock ≤ endBlock) (rounds : ℕ) (result : Except Raised Unit) (finish : Unit)
      (calls : List ScanCall),
      scanner.scan ports.recorded [] [] rounds startBlock endBlock ((), []) =
          some (result, finish, calls) →
        ∀ batch ∈ handed calls, batch.IsConsistent := by
  intro claimed
  have consistent := claimed wideScanner forkedPorts 7 7 le_rfl 2 _ _ forkedCalls (forkedScan 0) _
    List.mem_cons_self
  have same := consistent.sameBlock forkedLog List.mem_cons_self rfl
  exact absurd same (by decide +kernel)

/-- The answers of the two nodes do not agree. -/
theorem forkedScan_isConsistent_iff :
    ((∀ batch ∈ handed forkedCalls, batch.IsConsistent) ↔
        ∀ answers ∈ roundAnswers forkedCalls, answers.boundary.number = answers.endBlock →
          answers.Agree) ∧
      ∃ answers ∈ roundAnswers forkedCalls, answers.boundary.number = answers.endBlock := by
  rcases wideScanner.scan_isConsistent_iff forkedPorts [] [] (le_refl 7) () with
    ⟨result, finish, calls, scanned, consistent_iff⟩
  have scanned := scanned (wideScanner.mostQueries 7 7 + 2) (by omega)
  rw [show ((7 : ℕ) : ℤ) = 7 from rfl, forkedScan] at scanned
  cases scanned
  exact ⟨consistent_iff, _, List.mem_cons_self, rfl⟩

end AdaptiveHistoricalScanner

end CopyMint
