import CopyMint.Ethereum.Proxies
import CopyMint.Ethereum.ScanRanges
import CopyMint.Library.Json
import CopyMint.Library.Sorting
import CopyMint.Library.Timeline
import Mathlib.Data.Prod.Lex

/-!
# The history of a proxy's implementation

The history is told by the `Upgraded` events of a range of blocks, on top of the
implementation in storage right before the range, and it is checked against storage at
the end of the range. Events are read block by block; the last event of a block counts.
-/

namespace CopyMint

open Hexadecimal Fallible Loops Sorting Timeline

/-- `EIP1967_IMPLEMENTATION_SLOT`. -/
def eip1967ImplementationSlot : Text :=
  "0x360894a13ba1a3210667c828492db98dca3e2076cc3735a920a3ca505d382bbc".toList

/-- `ImplementationInterval`. -/
structure ImplementationInterval where
  implementationAddress : Text
  effectiveFromBlock : ℤ
  effectiveToBlock : Option ℤ
  evidence : Json

/-- The provider of a history. -/
structure ProxyPorts (World : Type) where
  logs : Text → ℕ → ℕ → List (Option Text) → World → Except Raised (List EvmLog) × World
  block : ℕ → World → Except Raised BlockReference × World
  code : Text → ℕ → World → Except Raised Bytes × World
  storageAt : Text → Text → ℕ → World → Except Raised Bytes × World

variable {World : Type}

/-- A scan that collects the logs of its batches. -/
def ProxyPorts.collecting (ports : ProxyPorts World) : ScanPorts (World × List EvmLog) where
  logs address startBlock endBlock topics state :=
    let answered := ports.logs address startBlock endBlock topics state.1
    (answered.1, answered.2, state.2)
  block number state :=
    let answered := ports.block number state.1
    (answered.1, answered.2, state.2)
  commit batch state := (.ok (), state.1, state.2 ++ batch.logs)

/-- Go on with the answer of a call, unless it raises. -/
def followedBy {Answer Result : Type} (answered : Except Raised Answer × World)
    (next : Answer → World → Except Raised Result × World) : Except Raised Result × World :=
  match answered with
  | (.error raised, world) => (.error raised, world)
  | (.ok answer, world) => next answer world

/-- The place of a log on the chain. -/
def EvmLog.position (log : EvmLog) : Lex (ℕ × ℕ) := toLex (log.blockNumber, log.logIndex)

/-- The implementations by the block of their last event, with the event. -/
abbrev Upgrades := List (ℕ × Text × EvmLog)

/-- The variables of the loop over the upgrades. -/
structure HistoryState where
  intervals : List ImplementationInterval
  activeAddress : Option Text
  activeFrom : ℤ
  activeEvidence : Json

/-- A resolver whose chunk bounds passed the scanner's check. -/
structure Eip1967ImplementationResolver where
  initialChunk : ℕ := 100
  maximumChunk : ℕ := 5000
  positive : 1 ≤ initialChunk
  ordered : initialChunk ≤ maximumChunk

namespace Eip1967ImplementationResolver

/-- The chunk sizes of the resolver, as those of a scanner. -/
def scanner (resolver : Eip1967ImplementationResolver) : AdaptiveHistoricalScanner where
  initialChunk := resolver.initialChunk
  maximumChunk := resolver.maximumChunk
  positive := resolver.positive
  ordered := resolver.ordered

section Evidence

/-- The evidence of what was read from the storage. -/
def storageEvidence (baselineBlock : ℤ) : Json :=
  .obj
    [("kind".toList, .str "eip1967_storage".toList),
      ("observed_at_block".toList, .int baselineBlock)]

/-- The evidence of an upgrade. -/
def upgradeEvidence (log : EvmLog) : Json :=
  .obj
    [("kind".toList, .str "eip1967_upgraded_event".toList),
      ("block_hash".toList, .str log.blockHash),
      ("transaction_hash".toList, .str log.transactionHash),
      ("log_index".toList, .int log.logIndex)]

end Evidence

variable (primitives : Primitives) (resolver : Eip1967ImplementationResolver)
  (ports : ProxyPorts World)

/-- `implementation_at`. -/
def implementationAt (address : Text) (block : ℤ) (world : World) :
    Except Raised (Option Text) × World :=
  if block < 0 then (.error (.valueError "implementation block cannot be negative"), world)
  else
    followedBy (ports.storageAt address eip1967ImplementationSlot block.toNat world)
      fun word world => (implementationFromWord primitives word, world)

/-- The loop over the logs, which checks the code of every implementation. -/
def readUpgrades : List EvmLog → Upgrades → World → Except Raised Upgrades × World
  | [], upgrades, world => (.ok upgrades, world)
  | log :: logs, upgrades, world =>
      match implementationFromUpgrade primitives log with
      | .error raised => (.error raised, world)
      | .ok implementation =>
          followedBy (ports.code implementation log.blockNumber world) fun code world =>
            if code = [] then
              (.error (.invalidProxyEvidence "Upgraded implementation has no contract code"), world)
            else readUpgrades logs (assign log.blockNumber (implementation, log) upgrades) world

/-- A round of the loop over the upgrades. -/
def changeImplementation (state : HistoryState) (upgrade : ℕ × Text × EvmLog) : HistoryState :=
  let (blockNumber, implementation, log) := upgrade
  let changed : HistoryState :=
    { state with
      activeAddress := some implementation
      activeFrom := blockNumber
      activeEvidence := upgradeEvidence log }
  match state.activeAddress with
  | none => changed
  | some active =>
      if lower active ≠ lower implementation then
        { changed with
          intervals := state.intervals ++
            [⟨active, state.activeFrom, some (blockNumber - 1), state.activeEvidence⟩] }
      else state

/-- The end of `history`: the implementation in storage has the last word. -/
def finish (state : HistoryState) (finalImplementation : Option Text) :
    Except Raised (List ImplementationInterval) :=
  match finalImplementation, state.activeAddress with
  | none, none => .ok []
  | none, some _ =>
      .error (.invalidProxyEvidence "implementation disappeared without upgrade evidence")
  | some _, none =>
      .error (.invalidProxyEvidence "implementation history does not match finalized storage")
  | some final, some active =>
      if lower active ≠ lower final then
        .error (.invalidProxyEvidence "implementation history does not match finalized storage")
      else
        .ok (state.intervals ++ [⟨active, state.activeFrom, none, state.activeEvidence⟩])

/-- The block before a range, if there is one. -/
def baselineBlock (startBlock : ℤ) : ℤ := if 0 < startBlock then startBlock - 1 else startBlock

/-- The part of `history` behind the scan. -/
def intervals (checksum : Text) (startBlock endBlock : ℤ) (logs : List EvmLog) (world : World) :
    Except Raised (List ImplementationInterval) × World :=
  followedBy (readUpgrades primitives ports (sortBy EvmLog.position logs) [] world)
    fun upgrades world =>
  followedBy (implementationAt primitives ports checksum (baselineBlock startBlock) world)
    fun baseline world =>
      let state := (sortBy Prod.fst upgrades).foldl changeImplementation
        ⟨[], baseline, startBlock, storageEvidence (baselineBlock startBlock)⟩
  followedBy (implementationAt primitives ports checksum endBlock world)
    fun finalImplementation world => (finish state finalImplementation, world)

/-- `history`, as far as it comes in a number of rounds of the scan. -/
def history (rounds : ℕ) (address : Text) (startBlock endBlock : ℤ) (world : World) :
    Option (Except Raised (List ImplementationInterval) × World) :=
  if startBlock < 0 ∨ endBlock < startBlock then
    some (.error (.valueError "invalid proxy history range"), world)
  else
    match primitives.toChecksumAddress address with
    | .error raised => some (.error raised, world)
    | .ok checksum =>
        match resolver.scanner.scan ports.collecting checksum [some (upgradedTopic primitives)]
          rounds startBlock endBlock (world, []) with
        | none => none
        | some (.error raised, world, _) => some (.error raised, world)
        | some (.ok (), world, logs) =>
            some (intervals primitives ports checksum startBlock endBlock logs world)

end Eip1967ImplementationResolver

namespace Eip1967ImplementationResolver

variable {primitives : Primitives} {ports : ProxyPorts World}

section Reading

variable (primitives) in
/-- The implementation that an event announces. -/
def target (log : EvmLog) : Text :=
  (implementationFromUpgrade primitives log).toOption.getD []

variable (primitives) in
/-- What the loop over the logs sets for a log. -/
def upgradeEntry (log : EvmLog) : ℕ × Text × EvmLog :=
  (log.blockNumber, target primitives log, log)

variable (primitives) in
/-- An event that announces an implementation. -/
def IsReadable (log : EvmLog) : Prop :=
  ∃ implementation, implementationFromUpgrade primitives log = .ok implementation

theorem implementationFromUpgrade_of_isReadable {log : EvmLog}
    (readable : IsReadable primitives log) :
    implementationFromUpgrade primitives log = .ok (target primitives log) := by
  rcases readable with ⟨implementation, read⟩
  simp [target, read, Except.toOption]

variable {logs : List EvmLog} {upgrades : Upgrades} {world : World}

theorem followedBy_eq_ok {Answer Result : Type} {answered : Except Raised Answer × World}
    {next : Answer → World → Except Raised Result × World} {result : Result} {finish : World}
    (returned : followedBy answered next = (.ok result, finish)) :
    ∃ answer, answered.1 = .ok answer ∧ next answer answered.2 = (.ok result, finish) := by
  rcases answered with ⟨raised | answer, world⟩
  · cases returned
  · exact ⟨answer, rfl, returned⟩

/-- The upgrades that were read are the entries of the logs. -/
theorem readUpgrades_eq_ok {result : Upgrades} {finish : World}
    (returned : readUpgrades primitives ports logs upgrades world = (.ok result, finish)) :
    (∀ log ∈ logs, IsReadable primitives log) ∧
      result = (logs.map (upgradeEntry primitives)).foldl
        (fun dictionary entry => assign entry.1 entry.2 dictionary) upgrades := by
  induction logs generalizing upgrades world with
  | nil =>
      cases returned
      exact ⟨by simp, rfl⟩
  | cons log logs ih =>
      rw [readUpgrades] at returned
      cases read : implementationFromUpgrade primitives log with
      | error raised =>
          rw [read] at returned
          cases returned
      | ok implementation =>
          rw [read] at returned
          rcases followedBy_eq_ok returned with ⟨code, _, continued⟩
          split_ifs at continued with empty
          · cases continued
          · rcases ih continued with ⟨readable, rfl⟩
            have entry : upgradeEntry primitives log = (log.blockNumber, implementation, log) := by
              simp [upgradeEntry, target, read, Except.toOption]
            refine ⟨?_, ?_⟩
            · intro other other_mem
              rcases List.mem_cons.mp other_mem with rfl | later
              · exact ⟨implementation, read⟩
              · exact readable other later
            · rw [List.map_cons, List.foldl_cons, entry]

end Reading

section Folding

/-- The address of an interval without its letter case. -/
def addressKey (implementation : Text × Json) : Text := lower implementation.1

/-- A span of the timeline as an interval. -/
def spanInterval (span : Span (Text × Json)) : ImplementationInterval :=
  ⟨span.value.1, span.start, span.stop, span.value.2⟩

/-- A change of the implementation together with its evidence. -/
def upgradeChange (upgrade : ℕ × Text × EvmLog) : ℤ × Text × Json :=
  (upgrade.1, upgrade.2.1, upgradeEvidence upgrade.2.2)

/-- The active implementation with its evidence. -/
def active (state : HistoryState) : Option (Text × Json) :=
  state.activeAddress.map fun address => (address, state.activeEvidence)

/-- The intervals of a state, if it lasts. -/
def told (state : HistoryState) : List ImplementationInterval :=
  state.intervals ++ state.activeAddress.toList.map fun address =>
    ⟨address, state.activeFrom, none, state.activeEvidence⟩

/-- The loop over the upgrades tells the spans of the implementation. -/
theorem told_foldl (upgrades : Upgrades) (state : HistoryState) :
    told (upgrades.foldl changeImplementation state) =
      state.intervals ++ (spans addressKey (active state) state.activeFrom
        (upgrades.map upgradeChange)).map spanInterval := by
  induction upgrades generalizing state with
  | nil =>
      rcases state with ⟨intervals, _ | address, since, evidence⟩
      · rfl
      · rfl
  | cons upgrade upgrades ih =>
      rcases upgrade with ⟨blockNumber, implementation, log⟩
      rcases state with ⟨intervals, _ | address, since, evidence⟩
      · exact ih _
      · rw [List.foldl_cons, ih]
        by_cases same : lower address = lower implementation
        · simp [changeImplementation, active, upgradeChange, spans, addressKey, same]
        · simp [changeImplementation, active, upgradeChange, spans, addressKey, same, spanInterval]

/-- The active implementation is the one of the last upgrade. -/
theorem activeAddress_foldl (upgrades : Upgrades) (state : HistoryState) :
    (upgrades.foldl changeImplementation state).activeAddress.map lower =
      ((upgrades.getLast?.map fun upgrade => upgrade.2.1).or state.activeAddress).map lower := by
  induction upgrades using List.reverseRecOn with
  | nil => rfl
  | append_singleton upgrades upgrade ih =>
      rcases upgrade with ⟨blockNumber, implementation, log⟩
      rw [List.foldl_append, List.foldl_cons, List.foldl_nil]
      generalize upgrades.foldl changeImplementation state = before
      rcases before with ⟨intervals, _ | address, since, evidence⟩
      · simp [changeImplementation]
      · simp only [changeImplementation]
        split_ifs with different
        · simp
        · simp [not_not.mp different]

variable {state : HistoryState} {finalImplementation : Option Text}

theorem finish_of_same (same : state.activeAddress.map lower = finalImplementation.map lower)
    (nothing : state.activeAddress = none → state.intervals = []) :
    finish state finalImplementation = .ok (told state) := by
  rcases state with ⟨intervals, _ | address, since, evidence⟩
  · cases finalImplementation with
    | none =>
        cases nothing rfl
        rfl
    | some final => cases same
  · cases finalImplementation with
    | none => cases same
    | some final => simp [finish, told, Option.some.inj same]

theorem finish_of_ne
    (different : state.activeAddress.map lower ≠ finalImplementation.map lower) :
    ∃ message, finish state finalImplementation = .error (.invalidProxyEvidence message) := by
  rcases state with ⟨intervals, _ | address, since, evidence⟩
  · cases finalImplementation with
    | none => exact absurd rfl different
    | some final => exact ⟨_, rfl⟩
  · cases finalImplementation with
    | none => exact ⟨_, rfl⟩
    | some final =>
        have letters : lower address ≠ lower final := fun same => different (congrArg some same)
        exact ⟨_, if_pos letters⟩

end Folding

end Eip1967ImplementationResolver

section Collecting

open AdaptiveHistoricalScanner (batchEnd chunkAfterError batchEnd_le cursor_le_batchEnd)

/-- What a round of a collecting scan does, by the answers of the provider. -/
inductive CollectPlayed (scanner : AdaptiveHistoricalScanner) (ports : ProxyPorts World)
    (address : Text) (topics : List (Option Text)) (endBlock : ℕ)
    (state : ScanState (World × List EvmLog)) :
    Round (ScanState (World × List EvmLog)) (Except Raised Unit × World × List EvmLog) → Prop
  | returns (finished : endBlock < state.cursor) :
      CollectPlayed scanner ports address topics endBlock state (.exit (.ok (), state.world))
  | splits {world : World} {error : ProviderError} {smaller : ℕ} (ready : state.cursor ≤ endBlock)
      (halved : chunkAfterError error state.chunk = some smaller) :
      CollectPlayed scanner ports address topics endBlock state
        (.next ⟨state.cursor, smaller, world, state.world.2⟩)
  | logsFail {world : World} {raised : Raised} (ready : state.cursor ≤ endBlock)
      (answered : (ports.logs address state.cursor (batchEnd state.cursor state.chunk endBlock)
        topics state.world.1).1 = .error raised)
      (fatal : ∀ error, raised = .providerError error →
        chunkAfterError error state.chunk = none) :
      CollectPlayed scanner ports address topics endBlock state
        (.exit (.error raised, world, state.world.2))
  | blockFails {world before : World} {raised : Raised} (ready : state.cursor ≤ endBlock)
      (answered : ∀ boundary,
        (ports.block (batchEnd state.cursor state.chunk endBlock) before).1 = .ok boundary →
          boundary.number ≠ batchEnd state.cursor state.chunk endBlock) :
      CollectPlayed scanner ports address topics endBlock state
        (.exit (.error raised, world, state.world.2))
  | collects {world : World} {answer : List EvmLog} (ready : state.cursor ≤ endBlock)
      (answered : (ports.logs address state.cursor
        (batchEnd state.cursor state.chunk endBlock) topics
        state.world.1).1 = .ok answer) :
      CollectPlayed scanner ports address topics endBlock state
        (.next ⟨batchEnd state.cursor state.chunk endBlock + 1,
          scanner.chunkAfterLogs answer.length state.chunk, world, state.world.2 ++ answer⟩)

theorem collectPlayed (scanner : AdaptiveHistoricalScanner) (ports : ProxyPorts World)
    (address : Text) (topics : List (Option Text)) (endBlock : ℕ)
    (state : ScanState (World × List EvmLog)) :
    CollectPlayed scanner ports address topics endBlock state
      (scanner.scanRound ports.collecting address topics endBlock state) := by
  simp only [AdaptiveHistoricalScanner.scanRound]
  split_ifs with finished
  · exact .returns finished
  have ready : state.cursor ≤ endBlock := Nat.le_of_not_lt finished
  generalize last_eq : batchEnd state.cursor state.chunk endBlock = last
  simp only [ProxyPorts.collecting]
  rcases asked : ports.logs address state.cursor last topics state.world.1 with
    ⟨raised | answer, afterLogs⟩
  · cases raised with
    | providerError error =>
        simp only
        cases halved : chunkAfterError error state.chunk with
        | none =>
            refine .logsFail ready (last_eq ▸ congrArg Prod.fst asked) fun other same => ?_
            cases same
            exact halved
        | some smaller => exact .splits ready halved
    | _ =>
        refine .logsFail ready (last_eq ▸ congrArg Prod.fst asked) fun _ impossible => ?_
        cases impossible
  · simp only [AdaptiveHistoricalScanner.commitRound]
    rcases reached : ports.block last afterLogs with ⟨raised | boundary, afterBlock⟩
    · refine @CollectPlayed.blockFails _ _ _ _ _ _ _ _ afterLogs _ ready fun boundary same => ?_
      rw [last_eq, reached] at same
      cases same
    · simp only
      split_ifs with other
      · refine @CollectPlayed.blockFails _ _ _ _ _ _ _ _ afterLogs _ ready fun boundary same => ?_
        rw [last_eq, reached] at same
        cases same
        rwa [last_eq]
      · subst last_eq
        exact .collects ready (congrArg Prod.fst asked)

/-- The same logs, with those of one position in the same order. -/
def SameLogs (first second : List EvmLog) : Prop :=
  ∀ position, first.filter (fun log => log.position = position) =
    second.filter fun log => log.position = position

/-- The logs of a range of blocks. -/
def within (logs : List EvmLog) (startBlock endBlock : ℕ) : List EvmLog :=
  logs.filter fun log => startBlock ≤ log.blockNumber ∧ log.blockNumber ≤ endBlock

/--
A provider that answers, unless it raises, with the logs of a chain in any order and from
a history of the implementation slot.
-/
structure ProxyPorts.Reports (ports : ProxyPorts World) (address : Text)
    (topics : List (Option Text)) (logs : List EvmLog) (storage : ℕ → Bytes) : Prop where
  logs : ∀ {startBlock endBlock world answer},
    (ports.logs address startBlock endBlock topics world).1 = .ok answer →
      SameLogs answer (within logs startBlock endBlock)
  storage : ∀ {block world word},
    (ports.storageAt address eip1967ImplementationSlot block world).1 = .ok word →
      word = storage block

variable {scanner : AdaptiveHistoricalScanner} {ports : ProxyPorts World} {address : Text}
  {topics : List (Option Text)} {logs : List EvmLog} {storage : ℕ → Bytes}
  {startBlock endBlock : ℕ} {state : ScanState (World × List EvmLog)}

/-- The blocks that are selected have all logs of a position or none. -/
theorem filter_blocks_position (blocks : ℕ → Prop) [DecidablePred blocks] (logs : List EvmLog)
    (position : Lex (ℕ × ℕ)) :
    (logs.filter fun log => blocks log.blockNumber).filter (fun log => log.position = position) =
      if blocks (ofLex position).1 then logs.filter fun log => log.position = position else [] := by
  rw [List.filter_filter]
  split_ifs with selected
  · refine List.filter_congr fun log _ => ?_
    by_cases same : log.position = position
    · subst same
      have chosen : blocks log.blockNumber := selected
      simp [chosen]
    · simp [same]
  · rw [List.filter_eq_nil_iff]
    intro log _ chosen
    simp only [Bool.and_eq_true, decide_eq_true_eq] at chosen
    rcases chosen with ⟨rfl, chosen⟩
    exact selected chosen

/-- A list of logs up to a block and the logs of the blocks behind it. -/
theorem SameLogs.append {before answer : List EvmLog} {cursor last : ℕ}
    (same : SameLogs before (logs.filter fun log =>
      startBlock ≤ log.blockNumber ∧ log.blockNumber < cursor))
    (answered : SameLogs answer (within logs cursor last)) (start_le : startBlock ≤ cursor)
    (cursor_le : cursor ≤ last) :
    SameLogs (before ++ answer) (logs.filter fun log =>
      startBlock ≤ log.blockNumber ∧ log.blockNumber < last + 1) := by
  intro position
  rw [List.filter_append, same, answered, within,
    filter_blocks_position (fun block => startBlock ≤ block ∧ block < cursor),
    filter_blocks_position (fun block => cursor ≤ block ∧ block ≤ last),
    filter_blocks_position (fun block => startBlock ≤ block ∧ block < last + 1)]
  split_ifs
  all_goals first | omega | simp

/-- What holds between two rounds: the logs below the cursor were collected. -/
structure Collected (scanner : AdaptiveHistoricalScanner) (logs : List EvmLog)
    (startBlock endBlock : ℕ) (state : ScanState (World × List EvmLog)) : Prop where
  bounds : scanner.InBounds state.chunk
  start_le : startBlock ≤ state.cursor
  le_end : state.cursor ≤ endBlock + 1
  same : SameLogs state.world.2
    (logs.filter fun log => startBlock ≤ log.blockNumber ∧ log.blockNumber < state.cursor)

theorem collected_initial (scanner : AdaptiveHistoricalScanner) (logs : List EvmLog)
    (ordered : startBlock ≤ endBlock) (world : World) :
    Collected scanner logs startBlock endBlock ⟨startBlock, scanner.initialChunk, world, []⟩ := by
  refine ⟨scanner.inBounds_initialChunk, le_rfl, Nat.le_succ_of_le ordered, fun position => ?_⟩
  have empty : logs.filter (fun log => startBlock ≤ log.blockNumber ∧
      log.blockNumber < startBlock) = [] := by
    rw [List.filter_eq_nil_iff]
    intro log _ between
    have between := of_decide_eq_true between
    omega
  rw [empty]

theorem Collected.next (reports : ports.Reports address topics logs storage)
    (holds : Collected scanner logs startBlock endBlock state)
    {after : ScanState (World × List EvmLog)}
    (played : scanner.scanRound ports.collecting address topics endBlock state = .next after) :
    Collected scanner logs startBlock endBlock after := by
  have moved := collectPlayed scanner ports address topics endBlock state
  rw [played] at moved
  rcases holds with ⟨bounds, start_le, le_end, same⟩
  cases moved with
  | splits ready halved => exact ⟨bounds.chunkAfterError halved, start_le, le_end, same⟩
  | collects ready answered =>
      have cursor_le := cursor_le_batchEnd bounds.1 ready
      have last_le := batchEnd_le state.cursor state.chunk endBlock
      refine ⟨bounds.chunkAfterLogs _, ?_, Nat.succ_le_succ last_le, ?_⟩
      · exact start_le.trans (cursor_le.trans (Nat.le_succ _))
      · exact same.append (reports.logs answered) start_le cursor_le

theorem Collected.exit (holds : Collected scanner logs startBlock endBlock state)
    {result : Except Raised Unit × World × List EvmLog}
    (played : scanner.scanRound ports.collecting address topics endBlock state = .exit result)
    (returned : result.1 = .ok ()) : SameLogs result.2.2 (within logs startBlock endBlock) := by
  have moved := collectPlayed scanner ports address topics endBlock state
  rw [played] at moved
  cases moved with
  | returns finished =>
      have reached : state.cursor = endBlock + 1 := le_antisymm holds.le_end finished
      have same := holds.same
      rw [reached] at same
      simpa only [within, Nat.lt_succ_iff] using same
  | logsFail | blockFails => cases returned

/-- A scan that returns has collected the logs of its range. -/
theorem sameLogs_of_scan (reports : ports.Reports address topics logs storage)
    (ordered : startBlock ≤ endBlock) {rounds : ℕ} {world finish : World}
    {collected : List EvmLog}
    (scanned : scanner.scan ports.collecting address topics rounds startBlock endBlock (world, []) =
      some (.ok (), finish, collected)) : SameLogs collected (within logs startBlock endBlock) := by
  rw [AdaptiveHistoricalScanner.scan_of_ordered ordered] at scanned
  exact run_invariant (Collected scanner logs startBlock endBlock)
    (fun result => result.1 = .ok () → SameLogs result.2.2 (within logs startBlock endBlock))
    (fun holds played => holds.next reports played) (fun holds played => holds.exit played)
    scanned (collected_initial scanner logs ordered world) rfl

end Collecting

end CopyMint
