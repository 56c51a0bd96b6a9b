import CopyMint.Ethereum.ScanLoop
import CopyMint.Library.AbiEncoding

/-!
# The ranges of a scan

A scan of a valid range ends after a number of log queries that its size bounds:
between two batches the chunk is only halved, and every batch moves the cursor. The
batches that it hands over follow one another without a gap from the start of the
range on, and reach its end if the scan returns.
-/

namespace CopyMint

open Hexadecimal Loops

namespace AdaptiveHistoricalScanner

variable {World : Type} {scanner : AdaptiveHistoricalScanner} {ports : ScanPorts World}
  {address : Text} {topics : List (Option Text)} {startBlock endBlock cursor chunk : ℕ}
  {calls : List ScanCall}

section Queries

/-- A bound on the log queries of a scan. -/
def mostQueries (scanner : AdaptiveHistoricalScanner) (startBlock endBlock : ℕ) : ℕ :=
  (endBlock + 1 - startBlock) * (1 + Nat.log 2 scanner.maximumChunk)

/-- A bound on the log queries that are still to come. -/
def queriesLeft (scanner : AdaptiveHistoricalScanner) (endBlock cursor chunk : ℕ) : ℕ :=
  if cursor ≤ endBlock then
    (endBlock - cursor) * (1 + Nat.log 2 scanner.maximumChunk) + Nat.log 2 chunk + 1
  else 0

/-- The chunk of a state is within its bounds. -/
def InBounds (scanner : AdaptiveHistoricalScanner) (chunk : ℕ) : Prop :=
  1 ≤ chunk ∧ chunk ≤ scanner.maximumChunk

theorem inBounds_initialChunk (scanner : AdaptiveHistoricalScanner) :
    scanner.InBounds scanner.initialChunk :=
  ⟨scanner.positive, scanner.ordered⟩

theorem InBounds.chunkAfterError (bounds : scanner.InBounds chunk) {error : ProviderError}
    {smaller : ℕ} (halved : chunkAfterError error chunk = some smaller) :
    scanner.InBounds smaller :=
  ⟨chunkAfterError_pos halved, (chunkAfterError_le bounds.1 halved).trans bounds.2⟩

theorem InBounds.chunkAfterLogs (bounds : scanner.InBounds chunk) (logs : ℕ) :
    scanner.InBounds (scanner.chunkAfterLogs logs chunk) :=
  ⟨scanner.chunkAfterLogs_pos logs bounds.1, scanner.chunkAfterLogs_le logs bounds.2⟩

theorem queriesLeft_initial (ordered : startBlock ≤ endBlock) :
    scanner.queriesLeft endBlock startBlock scanner.initialChunk ≤
      scanner.mostQueries startBlock endBlock := by
  have logs : Nat.log 2 scanner.initialChunk ≤ Nat.log 2 scanner.maximumChunk :=
    Nat.log_mono_right scanner.ordered
  have blocks : endBlock + 1 - startBlock = endBlock - startBlock + 1 := by omega
  rw [queriesLeft, if_pos ordered, mostQueries, blocks, Nat.succ_mul]
  omega

theorem queriesLeft_pos (scanner : AdaptiveHistoricalScanner) (chunk : ℕ)
    (ready : cursor ≤ endBlock) :
    0 < scanner.queriesLeft endBlock cursor chunk := by
  rw [queriesLeft, if_pos ready]
  omega

theorem queriesLeft_chunkAfterError (bounds : scanner.InBounds chunk) {error : ProviderError}
    {smaller : ℕ} (ready : cursor ≤ endBlock)
    (halved : chunkAfterError error chunk = some smaller) :
    scanner.queriesLeft endBlock cursor smaller + 1 =
      scanner.queriesLeft endBlock cursor chunk := by
  have logs := log_chunkAfterError bounds.1 halved
  simp only [queriesLeft, if_pos ready]
  omega

/-- A batch of at least one block makes up for the growth of the chunk. -/
theorem queriesLeft_advance (chunk : ℕ) {later larger : ℕ} (bounds : scanner.InBounds larger)
    (ready : cursor ≤ endBlock) (moved : cursor < later) :
    scanner.queriesLeft endBlock later larger + 1 ≤ scanner.queriesLeft endBlock cursor chunk := by
  have logs : Nat.log 2 larger ≤ Nat.log 2 scanner.maximumChunk := Nat.log_mono_right bounds.2
  simp only [queriesLeft, if_pos ready]
  split_ifs with left
  · have fewer : endBlock - later + 1 ≤ endBlock - cursor := by omega
    have product := Nat.mul_le_mul_right (1 + Nat.log 2 scanner.maximumChunk) fewer
    rw [Nat.succ_mul] at product
    omega
  · omega

end Queries

section Rounds

/-- What holds between two rounds: the queries made and the queries left keep within a bound. -/
structure WithinQueries (scanner : AdaptiveHistoricalScanner) (endBlock most : ℕ)
    (state : ScanState (World × List ScanCall)) : Prop where
  bounds : scanner.InBounds state.chunk
  queries : logQueries state.world.2 +
    scanner.queriesLeft endBlock state.cursor state.chunk ≤ most

variable {most : ℕ} {state after : ScanState (World × List ScanCall)}

theorem cursor_lt_of_endBlock_eq {batch : ScanBatch} (bounds : scanner.InBounds chunk)
    (ready : cursor ≤ endBlock) (end_eq : batch.endBlock = batchEnd cursor chunk endBlock) :
    cursor < batch.endBlock + 1 := by
  rw [end_eq]
  exact Nat.lt_succ_iff.mpr (cursor_le_batchEnd bounds.1 ready)

theorem WithinQueries.next (holds : WithinQueries scanner endBlock most state)
    (played : scanner.scanRound ports.recorded address topics endBlock state = .next after) :
    WithinQueries scanner endBlock most after ∧
      scanner.queriesLeft endBlock after.cursor after.chunk <
        scanner.queriesLeft endBlock state.cursor state.chunk := by
  have moved := roundPlayed scanner ports address topics endBlock state
  rw [played] at moved
  rcases holds with ⟨bounds, queries⟩
  cases moved with
  | splits ready halved =>
      have left := queriesLeft_chunkAfterError bounds ready halved
      refine ⟨⟨bounds.chunkAfterError halved, ?_⟩, Nat.lt_of_succ_le left.le⟩
      simp only [logQueries]
      omega
  | @commits world batch ready start_eq end_eq =>
      have larger := bounds.chunkAfterLogs batch.logs.length
      have left := queriesLeft_advance state.chunk larger ready
        (cursor_lt_of_endBlock_eq bounds ready end_eq)
      refine ⟨⟨larger, ?_⟩, Nat.lt_of_succ_le left⟩
      simp only [logQueries]
      omega

theorem WithinQueries.exit (holds : WithinQueries scanner endBlock most state)
    {result : Except Raised Unit × World × List ScanCall}
    (played : scanner.scanRound ports.recorded address topics endBlock state = .exit result) :
    logQueries result.2.2 ≤ most := by
  have moved := roundPlayed scanner ports address topics endBlock state
  rw [played] at moved
  have queries := holds.queries
  cases moved with
  | returns => exact (Nat.le_add_right _ _).trans queries
  | logsFail ready | blockFails ready | mismatches ready | refuses ready =>
      have left := scanner.queriesLeft_pos state.chunk ready
      simp only [logQueries]
      omega

end Rounds

section Samples

/-- A provider that answers queries for at most three blocks, and never with a log. -/
def rangeLimitedPorts : ScanPorts Unit where
  logs _ startBlock endBlock _ _ :=
    if 3 < endBlock + 1 - startBlock then
      (.error (.providerError ⟨"rpc_-32005", true, true⟩), ())
    else (.ok [], ())
  block number _ := (.ok ⟨number, marker ++ hex (AbiEncoding.word number)⟩, ())
  commit _ _ := (.ok (), ())

/-- A scanner with chunks of eight blocks. -/
def wideScanner : AdaptiveHistoricalScanner where
  initialChunk := 8
  maximumChunk := 8
  denseLogThreshold := 100
  positive := by decide
  ordered := by decide

end Samples

section Ending

theorem scan_of_ordered (ordered : startBlock ≤ endBlock) (rounds : ℕ) (world : World) :
    scanner.scan ports address topics rounds startBlock endBlock world =
      run (scanner.scanRound ports address topics endBlock) rounds
        ⟨startBlock, scanner.initialChunk, world⟩ := by
  have valid : ¬((startBlock : ℤ) < 0 ∨ (endBlock : ℤ) < startBlock) := by omega
  simp only [scan, if_neg valid, Int.toNat_natCast]

theorem withinQueries_initial (scanner : AdaptiveHistoricalScanner)
    (ordered : startBlock ≤ endBlock) (world : World) :
    WithinQueries scanner endBlock (scanner.mostQueries startBlock endBlock)
      ⟨startBlock, scanner.initialChunk, world, []⟩ := by
  refine ⟨scanner.inBounds_initialChunk, ?_⟩
  simpa only [logQueries, Nat.zero_add] using queriesLeft_initial ordered

/-- A scan of a valid range ends. -/
theorem exists_scan (scanner : AdaptiveHistoricalScanner) (ports : ScanPorts World)
    (address : Text) (topics : List (Option Text)) (ordered : startBlock ≤ endBlock)
    (world : World) :
    ∃ result finish calls, ∀ rounds > scanner.mostQueries startBlock endBlock,
      scanner.scan ports.recorded address topics rounds startBlock endBlock (world, []) =
        some (result, finish, calls) := by
  have initially := withinQueries_initial scanner ordered world
  have enough : scanner.queriesLeft endBlock startBlock scanner.initialChunk <
      scanner.mostQueries startBlock endBlock + 1 :=
    Nat.lt_succ_iff.mpr (queriesLeft_initial ordered)
  rcases exists_run_eq_some (WithinQueries scanner endBlock _)
    (fun state => scanner.queriesLeft endBlock state.cursor state.chunk)
    (fun holds played => holds.next played) initially enough with ⟨⟨result, finish, calls⟩, ran⟩
  refine ⟨result, finish, calls, fun rounds many => ?_⟩
  rw [scan_of_ordered ordered]
  exact run_mono ran many

/--
Whatever the provider answers and the consumer does, a scan of a valid range returns or
raises, after at most one log query for every block of the range and every halving of
the largest chunk.
-/
theorem scan_ends (scanner : AdaptiveHistoricalScanner) (ports : ScanPorts World)
    (address : Text) (topics : List (Option Text)) (ordered : startBlock ≤ endBlock)
    (world : World) :
    ∃ result finish calls,
      (∀ rounds > scanner.mostQueries startBlock endBlock,
        scanner.scan ports address topics rounds startBlock endBlock world =
            some (result, finish) ∧
          scanner.scan ports.recorded address topics rounds startBlock endBlock (world, []) =
            some (result, finish, calls)) ∧
      logQueries calls ≤
        (endBlock + 1 - startBlock) * (1 + Nat.log 2 scanner.maximumChunk) := by
  rcases exists_scan scanner ports address topics ordered world with
    ⟨result, finish, calls, scanned⟩
  refine ⟨result, finish, calls, fun rounds many => ⟨?_, scanned rounds many⟩, ?_⟩
  · rw [scan_recorded rounds startBlock endBlock world [], scanned rounds many]
    rfl
  · have ran := scanned _ (Nat.lt_succ_self _)
    rw [scan_of_ordered ordered] at ran
    exact run_invariant (WithinQueries scanner endBlock _)
      (fun result => logQueries result.2.2 ≤ scanner.mostQueries startBlock endBlock)
      (fun holds played => (holds.next played).1) (fun holds played => holds.exit played) ran
      (withinQueries_initial scanner ordered world)

/-- Nine blocks take at most 36 queries. -/
theorem rangeLimitedScan_ends :
    ∃ result finish calls,
      (∀ rounds > 36, wideScanner.scan rangeLimitedPorts [] [] rounds 10 18 () =
          some (result, finish) ∧
        wideScanner.scan rangeLimitedPorts.recorded [] [] rounds 10 18 ((), []) =
          some (result, finish, calls)) ∧
      logQueries calls ≤ 36 := by
  have most : wideScanner.mostQueries 10 18 = 36 := by decide
  rcases wideScanner.scan_ends rangeLimitedPorts [] [] (show 10 ≤ 18 by decide) () with
    ⟨result, finish, calls, scanned, queries⟩
  rw [most] at scanned
  exact ⟨result, finish, calls, scanned, queries.trans (by decide)⟩

end Ending

section Coverage

/-- The batches that were handed over divide the blocks from the start of a range up to a block. -/
structure Partitions (scanner : AdaptiveHistoricalScanner) (startBlock endBlock reached : ℕ)
    (calls : List ScanCall) : Prop where
  start_le : startBlock ≤ reached
  le_end : reached ≤ endBlock + 1
  /-- One batch after another holds the blocks in order, without gaps and repetitions. -/
  blocks : (handed calls).reverse.flatMap ScanBatch.blocks =
    List.range' startBlock (reached - startBlock)
  ranges : ∀ batch ∈ handed calls, startBlock ≤ batch.startBlock ∧
    batch.startBlock ≤ batch.endBlock ∧ batch.endBlock ≤ endBlock
  widths : ∀ batch ∈ handed calls,
    batch.endBlock + 1 - batch.startBlock ≤ scanner.maximumChunk
  /-- The logs of a batch are the answer to a query for its range, made just before. -/
  answered : ∀ batch ∈ handed calls, ∃ answer,
    [.commit batch answer, .block batch.endBlock (.ok ⟨batch.endBlock, batch.endBlockHash⟩),
      .logs batch.startBlock batch.endBlock (.ok batch.logs)] <:+: calls

variable {reached : ℕ}

theorem partitions_nil (ordered : startBlock ≤ endBlock) :
    Partitions scanner startBlock endBlock startBlock [] := by
  refine ⟨le_rfl, Nat.le_succ_of_le ordered, ?_, ?_, ?_, ?_⟩
  · simp [handed]
  · simp [handed]
  · simp [handed]
  · simp [handed]

namespace Partitions

variable (partitions : Partitions scanner startBlock endBlock reached calls)

include partitions in
/-- Calls of the provider leave the batches as they are. -/
theorem quiet {call : ScanCall} (quiet : handed (call :: calls) = handed calls) :
    Partitions scanner startBlock endBlock reached (call :: calls) := by
  rcases partitions with ⟨start_le, le_end, blocks, ranges, widths, answered⟩
  refine ⟨start_le, le_end, ?_, ?_, ?_, ?_⟩
  · rw [quiet, blocks]
  · rw [quiet]
    exact ranges
  · rw [quiet]
    exact widths
  · rw [quiet]
    intro batch batch_mem
    rcases answered batch batch_mem with ⟨answer, made⟩
    exact ⟨answer, List.infix_cons made⟩

include partitions in
/-- A batch from the cursor on moves the cursor behind its end. -/
theorem hand {batch : ScanBatch} (start_eq : batch.startBlock = reached)
    (ordered : batch.startBlock ≤ batch.endBlock) (inside : batch.endBlock ≤ endBlock)
    (narrow : batch.endBlock + 1 - batch.startBlock ≤ scanner.maximumChunk)
    (answer : Except Raised Unit) :
    Partitions scanner startBlock endBlock (batch.endBlock + 1)
      (.commit batch answer :: .block batch.endBlock (.ok ⟨batch.endBlock, batch.endBlockHash⟩) ::
        .logs batch.startBlock batch.endBlock (.ok batch.logs) :: calls) := by
  rcases partitions with ⟨start_le, le_end, blocks, ranges, widths, answered⟩
  refine ⟨by omega, by omega, ?_, ?_, ?_, ?_⟩
  · have reached_eq : reached = startBlock + (reached - startBlock) := by omega
    have length : batch.endBlock + 1 - startBlock =
        reached - startBlock + (batch.endBlock + 1 - reached) := by omega
    simp only [handed, List.reverse_cons, List.flatMap_append, blocks, List.flatMap_singleton,
      ScanBatch.blocks, start_eq]
    rw [length, ← List.range'_append_1, ← reached_eq]
  · intro other other_mem
    rcases List.mem_cons.mp other_mem with rfl | earlier
    · exact ⟨start_eq ▸ start_le, ordered, inside⟩
    · exact ranges other earlier
  · intro other other_mem
    rcases List.mem_cons.mp other_mem with rfl | earlier
    · exact narrow
    · exact widths other earlier
  · intro other other_mem
    rcases List.mem_cons.mp other_mem with rfl | earlier
    · exact ⟨answer, List.prefix_append _ calls |>.isInfix⟩
    · rcases answered other earlier with ⟨previous, made⟩
      exact ⟨previous, List.infix_cons (List.infix_cons (List.infix_cons made))⟩

end Partitions

/-- What holds between two rounds. -/
structure Progress (scanner : AdaptiveHistoricalScanner) (startBlock endBlock : ℕ)
    (state : ScanState (World × List ScanCall)) : Prop where
  bounds : scanner.InBounds state.chunk
  partitions : Partitions scanner startBlock endBlock state.cursor state.world.2

/-- What holds of a result. -/
def Ended (scanner : AdaptiveHistoricalScanner) (startBlock endBlock : ℕ)
    (result : Except Raised Unit × World × List ScanCall) : Prop :=
  ∃ reached, Partitions scanner startBlock endBlock reached result.2.2 ∧
    (result.1 = .ok () → reached = endBlock + 1)

variable {state after : ScanState (World × List ScanCall)} {batch : ScanBatch}

theorem Progress.hand (holds : Progress scanner startBlock endBlock state)
    (ready : state.cursor ≤ endBlock) (start_eq : batch.startBlock = state.cursor)
    (end_eq : batch.endBlock = batchEnd state.cursor state.chunk endBlock)
    (answer : Except Raised Unit) :
    Partitions scanner startBlock endBlock (batch.endBlock + 1)
      (.commit batch answer :: .block batch.endBlock (.ok ⟨batch.endBlock, batch.endBlockHash⟩) ::
        .logs batch.startBlock batch.endBlock (.ok batch.logs) :: state.world.2) := by
  rcases holds with ⟨bounds, partitions⟩
  refine partitions.hand start_eq ?_ ?_ ?_ answer
  · rw [start_eq, end_eq]
    exact cursor_le_batchEnd bounds.1 ready
  · rw [end_eq]
    exact batchEnd_le _ _ _
  · have narrow : batch.endBlock ≤ state.cursor + state.chunk - 1 := by
      rw [end_eq]
      exact min_le_left _ _
    have positive := bounds.1
    have chunk_le := bounds.2
    omega

theorem Progress.next (holds : Progress scanner startBlock endBlock state)
    (played : scanner.scanRound ports.recorded address topics endBlock state = .next after) :
    Progress scanner startBlock endBlock after := by
  have moved := roundPlayed scanner ports address topics endBlock state
  rw [played] at moved
  cases moved with
  | splits ready halved =>
      exact ⟨holds.bounds.chunkAfterError halved, holds.partitions.quiet rfl⟩
  | @commits world batch ready start_eq end_eq =>
      exact ⟨holds.bounds.chunkAfterLogs batch.logs.length, holds.hand ready start_eq end_eq _⟩

theorem Progress.exit (holds : Progress scanner startBlock endBlock state)
    {result : Except Raised Unit × World × List ScanCall}
    (played : scanner.scanRound ports.recorded address topics endBlock state = .exit result) :
    Ended scanner startBlock endBlock result := by
  have moved := roundPlayed scanner ports address topics endBlock state
  rw [played] at moved
  have partitions := holds.partitions
  cases moved with
  | returns finished =>
      refine ⟨state.cursor, partitions, fun _ => ?_⟩
      exact le_antisymm partitions.le_end finished
  | logsFail =>
      refine ⟨state.cursor, partitions.quiet rfl, fun returned => ?_⟩
      cases returned
  | blockFails | mismatches =>
      refine ⟨state.cursor, (partitions.quiet rfl).quiet rfl, fun returned => ?_⟩
      cases returned
  | @refuses world raised batch ready start_eq end_eq =>
      refine ⟨batch.endBlock + 1, holds.hand ready start_eq end_eq _, fun returned => ?_⟩
      cases returned

/--
A scan of a valid range ends, and the batches it has handed over divide the blocks from
the start of the range up to some block, each with the logs answered for its range; if
the scan returns, they divide the whole range.
-/
theorem scan_partitionsRange (scanner : AdaptiveHistoricalScanner) (ports : ScanPorts World)
    (address : Text) (topics : List (Option Text)) (ordered : startBlock ≤ endBlock)
    (world : World) :
    ∃ result finish calls reached,
      (∀ rounds > scanner.mostQueries startBlock endBlock,
        scanner.scan ports.recorded address topics rounds startBlock endBlock (world, []) =
          some (result, finish, calls)) ∧
      Partitions scanner startBlock endBlock reached calls ∧
      (result = .ok () → reached = endBlock + 1) := by
  rcases exists_scan scanner ports address topics ordered world with
    ⟨result, finish, calls, scanned⟩
  have ran := scanned _ (Nat.lt_succ_self _)
  rw [scan_of_ordered ordered] at ran
  rcases run_invariant (Progress scanner startBlock endBlock)
    (Ended scanner startBlock endBlock)
    (fun holds played => holds.next played) (fun holds played => holds.exit played) ran
    ⟨scanner.inBounds_initialChunk, partitions_nil ordered⟩ with ⟨reached, partitions, whole⟩
  exact ⟨result, finish, calls, reached, scanned, partitions, whole⟩

/-- Queries are halved until they are answered, and the batches divide the range. -/
theorem rangeLimitedScan_partitionsRange :
    ∃ calls, wideScanner.scan rangeLimitedPorts.recorded [] [] 37 10 18 ((), []) =
        some (.ok (), (), calls) ∧
      (handed calls).reverse.map (fun batch => (batch.startBlock, batch.endBlock)) =
        [(10, 11), (12, 13), (14, 15), (16, 18)] ∧
      Partitions wideScanner 10 18 19 calls := by
  have executed : (wideScanner.scan rangeLimitedPorts.recorded [] [] 37 10 18 ((), [])).map
      (fun result => (result.1.toBool, (handed result.2.2).reverse.map
        fun batch => (batch.startBlock, batch.endBlock))) =
      some (true, [(10, 11), (12, 13), (14, 15), (16, 18)]) := by
    decide +kernel
  rcases wideScanner.scan_partitionsRange rangeLimitedPorts [] [] (show 10 ≤ 18 by decide) () with
    ⟨result, ⟨⟩, calls, reached, scanned, partitions, whole⟩
  have scanned : wideScanner.scan rangeLimitedPorts.recorded [] [] 37 10 18 ((), []) =
      some (result, (), calls) := scanned 37 (by decide)
  rw [scanned, Option.map_some, Option.some.injEq, Prod.mk.injEq] at executed
  cases result with
  | error raised => cases executed.1
  | ok returned =>
      cases returned
      cases whole rfl
      exact ⟨calls, scanned, executed.2, partitions⟩

end Coverage

end AdaptiveHistoricalScanner

end CopyMint
