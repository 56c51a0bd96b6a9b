import CopyMint.Ethereum.Scanner
import CopyMint.Library.Loops

/-!
# The loop of the scanner

The scanner calls a provider for logs and blocks and a consumer that commits its
batches. Both are ports on a world that they may change in any way, so that every
answer may depend on everything before it. The loop commits the blocks of its range
one batch after another, and it ends whatever the ports do, since a round either
moves the cursor or halves the chunk.
-/

namespace CopyMint

open Hexadecimal Loops

/-- The provider and the consumer of a scan. -/
structure ScanPorts (World : Type) where
  logs : Text → ℕ → ℕ → List (Option Text) → World → Except Raised (List EvmLog) × World
  block : ℕ → World → Except Raised BlockReference × World
  commit : ScanBatch → World → Except Raised Unit × World

/-- Where a scan is and how large its next chunk is. -/
structure ScanState (World : Type) where
  cursor : ℕ
  chunk : ℕ
  world : World

namespace AdaptiveHistoricalScanner

variable {World : Type} (scanner : AdaptiveHistoricalScanner) (ports : ScanPorts World)
  (address : Text) (topics : List (Option Text))

/-- The part of a round behind the answer to the log request. -/
def commitRound (cursor batchEnd chunk : ℕ) (logs : List EvmLog) (world : World) :
    Round (ScanState World) (Except Raised Unit × World) :=
  match ports.block batchEnd world with
  | (.error raised, world) => .exit (.error raised, world)
  | (.ok boundary, world) =>
      if boundary.number ≠ batchEnd then
        .exit (.error (.providerError ⟨"block_boundary_mismatch", true, false⟩), world)
      else
        match ports.commit ⟨cursor, batchEnd, boundary.blockHash, logs⟩ world with
        | (.error raised, world) => .exit (.error raised, world)
        | (.ok (), world) =>
            .next ⟨batchEnd + 1, scanner.chunkAfterLogs logs.length chunk, world⟩

/-- A round of the loop of `scan`. -/
def scanRound (endBlock : ℕ) (state : ScanState World) :
    Round (ScanState World) (Except Raised Unit × World) :=
  if endBlock < state.cursor then .exit (.ok (), state.world)
  else
    let batchEnd := batchEnd state.cursor state.chunk endBlock
    match ports.logs address state.cursor batchEnd topics state.world with
    | (.error (.providerError error), world) =>
        match chunkAfterError error state.chunk with
        | none => .exit (.error (.providerError error), world)
        | some chunk => .next ⟨state.cursor, chunk, world⟩
    | (.error raised, world) => .exit (.error raised, world)
    | (.ok logs, world) => scanner.commitRound ports state.cursor batchEnd state.chunk logs world

/-- `scan`, as far as it comes in a number of rounds. -/
def scan (rounds : ℕ) (startBlock endBlock : ℤ) (world : World) :
    Option (Except Raised Unit × World) :=
  if startBlock < 0 ∨ endBlock < startBlock then
    some (.error (.valueError "invalid scan range"), world)
  else
    run (scanner.scanRound ports address topics endBlock.toNat) rounds
      ⟨startBlock.toNat, scanner.initialChunk, world⟩

end AdaptiveHistoricalScanner

section Record

/-- A call of a port with its answer. -/
inductive ScanCall where
  | logs (startBlock endBlock : ℕ) (answer : Except Raised (List EvmLog))
  | block (number : ℕ) (answer : Except Raised BlockReference)
  | commit (batch : ScanBatch) (answer : Except Raised Unit)

variable {World : Type}

/-- Write the call and its answer down before the calls that were made earlier. -/
def note {Answer : Type} (call : Except Raised Answer → ScanCall) (calls : List ScanCall)
    (answered : Except Raised Answer × World) : Except Raised Answer × World × List ScanCall :=
  (answered.1, answered.2, call answered.1 :: calls)

/-- The same ports with a record of their calls, the last one first. -/
def ScanPorts.recorded (ports : ScanPorts World) : ScanPorts (World × List ScanCall) where
  logs address startBlock endBlock topics world :=
    note (.logs startBlock endBlock) world.2
      (ports.logs address startBlock endBlock topics world.1)
  block number world := note (.block number) world.2 (ports.block number world.1)
  commit batch world := note (.commit batch) world.2 (ports.commit batch world.1)

/-- The batches that were handed to the consumer, the last one first. -/
def handed : List ScanCall → List ScanBatch
  | [] => []
  | .commit batch _ :: calls => batch :: handed calls
  | .logs _ _ _ :: calls | .block _ _ :: calls => handed calls

/-- The number of log queries. -/
def logQueries : List ScanCall → ℕ
  | [] => 0
  | .logs _ _ _ :: calls => logQueries calls + 1
  | .block _ _ :: calls | .commit _ _ :: calls => logQueries calls

/-- The blocks of a batch in order. -/
def ScanBatch.blocks (batch : ScanBatch) : List ℕ :=
  List.range' batch.startBlock (batch.endBlock + 1 - batch.startBlock)

end Record

namespace AdaptiveHistoricalScanner

variable {World : Type} {scanner : AdaptiveHistoricalScanner} {ports : ScanPorts World}
  {address : Text} {topics : List (Option Text)}

/-- What a round does from a cursor and a chunk, by the calls that it makes. -/
inductive RoundPlayed (scanner : AdaptiveHistoricalScanner) (endBlock cursor chunk : ℕ)
    (calls : List ScanCall) :
    Round (ScanState (World × List ScanCall)) (Except Raised Unit × World × List ScanCall) → Prop
  | returns {world : World} (finished : endBlock < cursor) :
      RoundPlayed scanner endBlock cursor chunk calls (.exit (.ok (), world, calls))
  | splits {world : World} {error : ProviderError} {smaller : ℕ} (ready : cursor ≤ endBlock)
      (halved : chunkAfterError error chunk = some smaller) :
      RoundPlayed scanner endBlock cursor chunk calls
        (.next ⟨cursor, smaller, world,
          .logs cursor (batchEnd cursor chunk endBlock) (.error (.providerError error)) :: calls⟩)
  | logsFail {world : World} {raised : Raised} (ready : cursor ≤ endBlock) :
      RoundPlayed scanner endBlock cursor chunk calls
        (.exit (.error raised, world,
          .logs cursor (batchEnd cursor chunk endBlock) (.error raised) :: calls))
  | blockFails {world : World} {raised : Raised} {logs : List EvmLog} (ready : cursor ≤ endBlock) :
      RoundPlayed scanner endBlock cursor chunk calls
        (.exit (.error raised, world,
          .block (batchEnd cursor chunk endBlock) (.error raised) ::
            .logs cursor (batchEnd cursor chunk endBlock) (.ok logs) :: calls))
  | mismatches {world : World} {raised : Raised} {logs : List EvmLog} {boundary : BlockReference}
      (ready : cursor ≤ endBlock) (other : boundary.number ≠ batchEnd cursor chunk endBlock) :
      RoundPlayed scanner endBlock cursor chunk calls
        (.exit (.error raised, world,
          .block (batchEnd cursor chunk endBlock) (.ok boundary) ::
            .logs cursor (batchEnd cursor chunk endBlock) (.ok logs) :: calls))
  | refuses {world : World} {raised : Raised} {batch : ScanBatch} (ready : cursor ≤ endBlock)
      (start_eq : batch.startBlock = cursor)
      (end_eq : batch.endBlock = batchEnd cursor chunk endBlock) :
      RoundPlayed scanner endBlock cursor chunk calls
        (.exit (.error raised, world, .commit batch (.error raised) ::
          .block batch.endBlock (.ok ⟨batch.endBlock, batch.endBlockHash⟩) ::
            .logs batch.startBlock batch.endBlock (.ok batch.logs) :: calls))
  | commits {world : World} {batch : ScanBatch} (ready : cursor ≤ endBlock)
      (start_eq : batch.startBlock = cursor)
      (end_eq : batch.endBlock = batchEnd cursor chunk endBlock) :
      RoundPlayed scanner endBlock cursor chunk calls
        (.next ⟨batch.endBlock + 1, scanner.chunkAfterLogs batch.logs.length chunk, world,
          .commit batch (.ok ()) ::
            .block batch.endBlock (.ok ⟨batch.endBlock, batch.endBlockHash⟩) ::
              .logs batch.startBlock batch.endBlock (.ok batch.logs) :: calls⟩)

theorem commitRound_played {endBlock cursor chunk : ℕ} {calls : List ScanCall} (world : World)
    (logs : List EvmLog) (ready : cursor ≤ endBlock) :
    RoundPlayed scanner endBlock cursor chunk calls
      (scanner.commitRound ports.recorded cursor (batchEnd cursor chunk endBlock) chunk logs
        (world, .logs cursor (batchEnd cursor chunk endBlock) (.ok logs) :: calls)) := by
  simp only [commitRound, ScanPorts.recorded]
  generalize ports.block (batchEnd cursor chunk endBlock) world = answered
  rcases answered with ⟨raised | ⟨number, blockHash⟩, afterBlock⟩
  · exact .blockFails ready
  simp only [note]
  split_ifs with other
  · exact .mismatches ready other
  cases not_not.mp other
  let batch : ScanBatch := ⟨cursor, batchEnd cursor chunk endBlock, blockHash, logs⟩
  generalize ports.commit batch afterBlock = answered
  rcases answered with ⟨raised | ⟨⟩, afterCommit⟩
  · exact @RoundPlayed.refuses World scanner endBlock cursor chunk calls afterCommit raised batch
      ready rfl rfl
  · exact @RoundPlayed.commits World scanner endBlock cursor chunk calls afterCommit batch
      ready rfl rfl

theorem roundPlayed (scanner : AdaptiveHistoricalScanner) (ports : ScanPorts World)
    (address : Text) (topics : List (Option Text)) (endBlock : ℕ)
    (state : ScanState (World × List ScanCall)) :
    RoundPlayed scanner endBlock state.cursor state.chunk state.world.2
      (scanner.scanRound ports.recorded address topics endBlock state) := by
  rcases state with ⟨cursor, chunk, world, calls⟩
  simp only [scanRound]
  split_ifs with finished
  · exact .returns finished
  have ready : cursor ≤ endBlock := Nat.le_of_not_lt finished
  simp only [ScanPorts.recorded]
  generalize ports.logs address cursor (batchEnd cursor chunk endBlock) topics world = answered
  rcases answered with ⟨raised | logs, afterLogs⟩
  · cases raised with
    | providerError error =>
        simp only [note]
        cases halved : chunkAfterError error chunk with
        | none => exact .logsFail ready
        | some smaller => exact .splits ready halved
    | _ => exact .logsFail ready
  · exact commitRound_played afterLogs logs ready

section Erasure

/-- A state without the record. -/
def forget (state : ScanState (World × List ScanCall)) : ScanState World :=
  ⟨state.cursor, state.chunk, state.world.1⟩

/-- What a scan returns without its requests. -/
def forgetResult (result : Except Raised Unit × World × List ScanCall) :
    Except Raised Unit × World :=
  (result.1, result.2.1)

theorem commitRound_forget (cursor batchEnd chunk : ℕ) (logs : List EvmLog)
    (world : World × List ScanCall) :
    scanner.commitRound ports cursor batchEnd chunk logs world.1 =
      (scanner.commitRound ports.recorded cursor batchEnd chunk logs world).map forget
        forgetResult := by
  simp only [commitRound, ScanPorts.recorded]
  generalize ports.block batchEnd world.1 = answered
  rcases answered with ⟨raised | boundary, afterBlock⟩
  · rfl
  simp only [note]
  split_ifs
  · rfl
  generalize ports.commit ⟨cursor, batchEnd, boundary.blockHash, logs⟩ afterBlock = answered
  rcases answered with ⟨raised | ⟨⟩, afterCommit⟩ <;> rfl

theorem scanRound_forget (endBlock : ℕ) (state : ScanState (World × List ScanCall)) :
    scanner.scanRound ports address topics endBlock (forget state) =
      (scanner.scanRound ports.recorded address topics endBlock state).map forget
        forgetResult := by
  rcases state with ⟨cursor, chunk, world⟩
  have forgotten : forget ⟨cursor, chunk, world⟩ = ⟨cursor, chunk, world.1⟩ := rfl
  rw [forgotten]
  simp only [scanRound, ScanPorts.recorded]
  split_ifs
  · rfl
  generalize ports.logs address cursor (batchEnd cursor chunk endBlock) topics world.1 = answered
  rcases answered with ⟨raised | logs, afterLogs⟩
  · cases raised with
    | providerError error =>
        simp only [note]
        cases chunkAfterError error chunk <;> rfl
    | _ => rfl
  · exact commitRound_forget cursor _ chunk logs (afterLogs, _)

/-- Keeping a record changes nothing. -/
theorem scan_recorded (rounds : ℕ) (startBlock endBlock : ℤ) (world : World)
    (calls : List ScanCall) :
    scanner.scan ports address topics rounds startBlock endBlock world =
      (scanner.scan ports.recorded address topics rounds startBlock endBlock (world, calls)).map
        forgetResult := by
  simp only [scan]
  split_ifs
  · rfl
  · exact run_map forget forgetResult (scanRound_forget endBlock.toNat) rounds
      ⟨startBlock.toNat, scanner.initialChunk, world, calls⟩

end Erasure

end AdaptiveHistoricalScanner

end CopyMint
