import CopyMint.Ethereum.ProxyHistory
import CopyMint.Ethereum.WireFormat

/-!
# The intervals of a proxy's history

The intervals are the spans of a timeline: its first value is the implementation in
storage right before the range, and it changes at every block with an `Upgraded` event,
to the implementation of the last event of the block. They are well formed unless the
implementation changes in the first block of the range.
-/

namespace CopyMint

open Hexadecimal Fallible Loops Sorting Timeline

namespace Eip1967ImplementationResolver

variable {World : Type} {primitives : Primitives} {resolver : Eip1967ImplementationResolver}
  {ports : ProxyPorts World} {address checksum : Text} {logs : List EvmLog} {storage : ℕ → Bytes}
  {startBlock endBlock block : ℕ}

section Changes

theorem blockNumber_le_of_position_le {first second : EvmLog}
    (ordered : first.position ≤ second.position) : first.blockNumber ≤ second.blockNumber := by
  rcases (Prod.Lex.le_iff).mp ordered with earlier | ⟨same, _⟩
  · exact earlier.le
  · exact same.le

variable (primitives) in
/-- The entries of the dictionary of upgrades. -/
def entries (logs : List EvmLog) : Upgrades :=
  assigned ((sortBy EvmLog.position logs).map (upgradeEntry primitives))

/-- The last event, by block and log index, at or before a block. -/
def lastUpgrade (logs : List EvmLog) (block : ℕ) : Option EvmLog :=
  (sortBy EvmLog.position (logs.filter fun log => log.blockNumber ≤ block)).getLast?

variable (primitives) in
theorem ascending_upgradeEntries (logs : List EvmLog) :
    ((sortBy EvmLog.position logs).map (upgradeEntry primitives)).Pairwise
      fun first second => first.1 ≤ second.1 := by
  have ascending : Ascending EvmLog.position (sortBy EvmLog.position logs) := ascending_sortBy logs
  rw [List.pairwise_map]
  exact ascending.imp fun ordered => blockNumber_le_of_position_le ordered

variable (primitives) in
theorem ordered_entries (logs : List EvmLog) : Ordered (entries primitives logs) :=
  (assigned_spec (ascending_upgradeEntries primitives logs)).1

theorem sortBy_entries (logs : List EvmLog) :
    sortBy Prod.fst (entries primitives logs) = entries primitives logs :=
  sortBy_of_ascending ((ordered_entries primitives logs).imp le_of_lt)

variable (primitives) in
theorem latest_entries (logs : List EvmLog) (block : ℕ) :
    latest (entries primitives logs) block =
      (lastUpgrade logs block).map (upgradeEntry primitives) := by
  rw [entries, (assigned_spec (ascending_upgradeEntries primitives logs)).2.2, latest,
    List.filter_map, List.getLast?_map, lastUpgrade, ← filter_sortBy]
  rfl

variable (primitives) in
/-- The changes of the implementation with their evidence. -/
def changes (logs : List EvmLog) : List (ℤ × Text × Json) :=
  (entries primitives logs).map upgradeChange

variable (primitives) in
theorem ordered_changes (logs : List EvmLog) : Ordered (changes primitives logs) := by
  rw [Ordered, changes, List.pairwise_map]
  exact (ordered_entries primitives logs).imp fun ordered => Int.ofNat_lt.mpr ordered

theorem latest_changes (logs : List EvmLog) (block : ℕ) :
    latest (changes primitives logs) block =
      (lastUpgrade logs block).map fun log => upgradeChange (upgradeEntry primitives log) := by
  have upTo : ((fun entry : ℤ × Text × Json => decide (entry.1 ≤ block)) ∘ upgradeChange) =
      fun entry => decide (entry.1 ≤ block) := by
    funext entry
    exact decide_eq_decide.mpr Int.ofNat_le
  rw [latest, changes, List.filter_map, upTo, List.getLast?_map]
  have entries := latest_entries primitives logs block
  rw [latest] at entries
  rw [entries, Option.map_map]
  rfl

theorem le_of_mem_changes {change : ℤ × Text × Json}
    (change_mem : change ∈ changes primitives (within logs startBlock endBlock)) :
    (startBlock : ℤ) ≤ change.1 := by
  rcases List.mem_map.mp change_mem with ⟨entry, entry_mem, rfl⟩
  have found := (assigned_spec (ascending_upgradeEntries primitives _)).2.1 entry entry_mem
  rcases List.mem_map.mp found with ⟨log, log_mem, rfl⟩
  have between := (List.mem_filter.mp (mem_sortBy.mp log_mem)).2
  exact Int.ofNat_le.mpr (of_decide_eq_true between).1

end Changes

section Returning

variable {rounds : ℕ} {world final : World} {result : List ImplementationInterval}
  {topics : List (Option Text)}

theorem baselineBlock_natCast (startBlock : ℕ) :
    baselineBlock startBlock = ((startBlock - 1 : ℕ) : ℤ) := by
  simp only [baselineBlock]
  split_ifs <;> omega

theorem implementationAt_eq_ok (reports : ports.Reports address topics logs storage)
    {implementation : Option Text}
    (returned : implementationAt primitives ports address block world =
      (.ok implementation, final)) :
    implementationFromWord primitives (storage block) = .ok implementation := by
  rw [implementationAt, if_neg (by omega)] at returned
  rcases followedBy_eq_ok returned with ⟨word, asked, read⟩
  rw [Int.toNat_natCast] at asked
  rw [← reports.storage asked]
  exact congrArg Prod.fst read

variable (primitives) in
/-- The state of `history` behind the loop over the upgrades. -/
def replayed (startBlock : ℕ) (baseline : Option Text) (logs : List EvmLog) : HistoryState :=
  (entries primitives logs).foldl changeImplementation
    ⟨[], baseline, startBlock, storageEvidence (startBlock - 1 : ℕ)⟩

variable (primitives) in
/-- The spans of the implementation from a block on. -/
def historySpans (startBlock : ℕ) (baseline : Option Text) (logs : List EvmLog) :
    List (Span (Text × Json)) :=
  spans addressKey
    (baseline.map fun implementation => (implementation, storageEvidence (startBlock - 1 : ℕ)))
    startBlock (changes primitives logs)

theorem told_replayed (startBlock : ℕ) (baseline : Option Text) (logs : List EvmLog) :
    told (replayed primitives startBlock baseline logs) =
      (historySpans primitives startBlock baseline logs).map spanInterval := by
  rw [replayed, told_foldl]
  rfl

/-- Without an active implementation there was none at any time. -/
theorem intervals_replayed (startBlock : ℕ) (baseline : Option Text) (logs : List EvmLog)
    (nothing : (replayed primitives startBlock baseline logs).activeAddress = none) :
    (replayed primitives startBlock baseline logs).intervals = [] := by
  have last := activeAddress_foldl (entries primitives logs)
    ⟨[], baseline, startBlock, storageEvidence (startBlock - 1 : ℕ)⟩
  rw [← replayed, nothing] at last
  cases found : (entries primitives logs).getLast? with
  | none =>
      rw [replayed, List.getLast?_eq_none_iff.mp found]
      rfl
  | some entry =>
      rw [found] at last
      cases last

/-- What `history` has read when it returns, and that it tells the spans of it. -/
structure Returned (primitives : Primitives) (logs : List EvmLog) (storage : ℕ → Bytes)
    (startBlock endBlock : ℕ) (baseline : Option Text)
    (result : List ImplementationInterval) : Prop where
  readable : ∀ log ∈ within logs startBlock endBlock, IsReadable primitives log
  before : implementationFromWord primitives (storage (startBlock - 1)) = .ok baseline
  after : ∃ implementation,
    implementationFromWord primitives (storage endBlock) = .ok implementation ∧
      (replayed primitives startBlock baseline
        (within logs startBlock endBlock)).activeAddress.map lower = implementation.map lower
  result_eq : result = (historySpans primitives startBlock baseline
    (within logs startBlock endBlock)).map spanInterval

theorem returned_of_finish {upgrades : Upgrades} {baseline implementation : Option Text}
    (read : (readUpgrades primitives ports
      (sortBy EvmLog.position (within logs startBlock endBlock)) [] world).1 = .ok upgrades)
    (before : implementationFromWord primitives (storage (startBlock - 1)) = .ok baseline)
    (after : implementationFromWord primitives (storage endBlock) = .ok implementation)
    (finished : finish ((sortBy Prod.fst upgrades).foldl changeImplementation
      ⟨[], baseline, startBlock, storageEvidence (startBlock - 1 : ℕ)⟩) implementation =
        .ok result) :
    Returned primitives logs storage startBlock endBlock baseline result := by
  rcases readUpgrades_eq_ok (Prod.ext read rfl) with ⟨readable, entries_eq⟩
  have upgrades_eq : sortBy Prod.fst upgrades =
      entries primitives (within logs startBlock endBlock) := by
    rw [entries_eq]
    exact sortBy_entries _
  rw [upgrades_eq, ← replayed] at finished
  have agree : (replayed primitives startBlock baseline
      (within logs startBlock endBlock)).activeAddress.map lower = implementation.map lower := by
    by_contra different
    rcases finish_of_ne different with ⟨message, refused⟩
    rw [refused] at finished
    cases finished
  refine ⟨fun log log_mem => readable log (mem_sortBy.mpr log_mem), before,
    ⟨implementation, after, agree⟩, ?_⟩
  rw [finish_of_same agree (intervals_replayed startBlock baseline _)] at finished
  cases finished
  exact told_replayed startBlock baseline _

theorem intervals_eq_ok (reports : ports.Reports address topics logs storage)
    {collected : List EvmLog} (same : SameLogs collected (within logs startBlock endBlock))
    (returned : intervals primitives ports address startBlock endBlock collected world =
      (.ok result, final)) :
    ∃ baseline, Returned primitives logs storage startBlock endBlock baseline result := by
  rcases followedBy_eq_ok returned with ⟨upgrades, read, returned⟩
  rcases followedBy_eq_ok returned with ⟨baseline, before, returned⟩
  rcases followedBy_eq_ok returned with ⟨implementation, after, returned⟩
  rw [sortBy_congr same] at read
  rw [baselineBlock_natCast] at before returned
  exact ⟨baseline, returned_of_finish read (implementationAt_eq_ok reports (Prod.ext before rfl))
    (implementationAt_eq_ok reports (Prod.ext after rfl)) (congrArg Prod.fst returned)⟩

theorem history_eq_ok (reports : ports.Reports checksum [some (upgradedTopic primitives)] logs
      storage)
    (checksummed : primitives.toChecksumAddress address = .ok checksum)
    (returned : resolver.history primitives ports rounds address startBlock endBlock world =
      some (.ok result, final)) :
    ∃ baseline, Returned primitives logs storage startBlock endBlock baseline result := by
  rw [history] at returned
  split_ifs at returned with invalid
  · cases returned
  · have ordered : startBlock ≤ endBlock := by omega
    simp only [checksummed] at returned
    cases scanned : resolver.scanner.scan ports.collecting checksum
      [some (upgradedTopic primitives)] rounds startBlock endBlock (world, []) with
    | none =>
        rw [scanned] at returned
        cases returned
    | some ended =>
        rcases ended with ⟨raised | ⟨⟩, afterScan, collected⟩
        · rw [scanned] at returned
          cases returned
        · rw [scanned] at returned
          have same := sameLogs_of_scan reports ordered scanned
          exact intervals_eq_ok reports same (Option.some.inj returned)

end Returning

section WellFormed

/-- Intervals follow one another without a gap, none is empty, and only the last is open. -/
structure WellFormed (startBlock : ℕ) (intervals : List ImplementationInterval) : Prop where
  start_le : ∀ first ∈ intervals.head?, (startBlock : ℤ) ≤ first.effectiveFromBlock
  nonEmpty : ∀ interval ∈ intervals, ∀ effectiveToBlock ∈ interval.effectiveToBlock,
    interval.effectiveFromBlock ≤ effectiveToBlock
  distinct : (intervals.map ImplementationInterval.effectiveFromBlock).Nodup
  adjacent : intervals.IsChain fun earlier later =>
    earlier.effectiveToBlock = some (later.effectiveFromBlock - 1)
  open_iff_last : ∀ init last, intervals = init ++ [last] →
    last.effectiveToBlock = none ∧ ∀ interval ∈ init, interval.effectiveToBlock ≠ none
  different : intervals.IsChain fun earlier later =>
    earlier.implementationAddress ≠ later.implementationAddress

/--
The slot holds an implementation right before the range, and the last event of the first
block announces another one.
-/
def UpgradesAtStart (primitives : Primitives) (logs : List EvmLog) (storage : ℕ → Bytes)
    (startBlock : ℕ) : Prop :=
  ∃ active log implementation,
    implementationFromWord primitives (storage (startBlock - 1)) = .ok (some active) ∧
    (sortBy EvmLog.position (logs.filter fun log => log.blockNumber = startBlock)).getLast? =
      some log ∧
    implementationFromUpgrade primitives log = .ok implementation ∧
    lower active ≠ lower implementation

/-- Intervals that are told by spans are well formed exactly if no span is empty. -/
theorem wellFormed_map_spanInterval_iff (baseline : Option Text) (logs : List EvmLog) :
    WellFormed startBlock ((historySpans primitives startBlock baseline
        (within logs startBlock endBlock)).map spanInterval) ↔
      NonEmpty (historySpans primitives startBlock baseline (within logs startBlock endBlock)) := by
  have ordered := ordered_changes primitives (within logs startBlock endBlock)
  constructor
  · intro wellFormed span span_mem stop stop_mem
    exact wellFormed.nonEmpty (spanInterval span) (List.mem_map_of_mem span_mem) stop stop_mem
  · intro nonEmpty
    have chain := isChain_spans addressKey (baseline.map fun implementation =>
      (implementation, storageEvidence (startBlock - 1 : ℕ))) startBlock
      (changes primitives (within logs startBlock endBlock))
    refine ⟨?_, ?_, ?_, ?_, ?_, ?_⟩
    · intro first first_mem
      rcases List.mem_map.mp (List.mem_of_mem_head? first_mem) with ⟨span, span_mem, rfl⟩
      exact le_start_of_mem_spans ordered (fun _ => le_of_mem_changes) span_mem
    · intro interval interval_mem
      rcases List.mem_map.mp interval_mem with ⟨span, span_mem, rfl⟩
      exact nonEmpty span span_mem
    · have starts := pairwise_start_of_nonEmpty (chain.imp fun _ _ => And.left) nonEmpty
      rw [List.map_map, List.Nodup, List.pairwise_map]
      exact starts.imp fun lower => ne_of_lt lower
    · exact List.isChain_map_of_isChain spanInterval (fun _ _ => And.left) chain
    · intro init last split
      rcases List.map_eq_append_iff.mp split with ⟨closed, rest, spans_eq, rfl, rest_eq⟩
      rcases List.map_eq_singleton_iff.mp rest_eq with ⟨span, rfl, rfl⟩
      rcases stop_of_spans_eq_append spans_eq with ⟨open_, stops⟩
      refine ⟨open_, fun interval interval_mem => ?_⟩
      rcases List.mem_map.mp interval_mem with ⟨span, span_mem, rfl⟩
      exact stops span span_mem
    · refine List.isChain_map_of_isChain spanInterval (fun earlier later adjacent same => ?_) chain
      exact adjacent.2 (congrArg lower same)

theorem lastUpgrade_within_start (logs : List EvmLog) (ordered : startBlock ≤ endBlock) :
    lastUpgrade (within logs startBlock endBlock) startBlock =
      (sortBy EvmLog.position (logs.filter fun log => log.blockNumber = startBlock)).getLast? := by
  rw [lastUpgrade, within, List.filter_filter]
  congr 2
  refine List.filter_congr fun log _ => ?_
  rw [Bool.eq_iff_iff]
  simp only [Bool.and_eq_true, decide_eq_true_eq]
  omega

theorem addressKey_upgradeEntry {log : EvmLog} {implementation : Text}
    (read : implementationFromUpgrade primitives log = .ok implementation) :
    addressKey (upgradeChange (upgradeEntry primitives log)).2 = lower implementation := by
  have readable := implementationFromUpgrade_of_isReadable ⟨implementation, read⟩
  rw [read] at readable
  cases readable
  rfl

/-- The timeline changes at its start exactly if the slot does. -/
theorem changesAtStart_iff {baseline : Option Text} {result : List ImplementationInterval}
    (returned : Returned primitives logs storage startBlock endBlock baseline result)
    (ordered : startBlock ≤ endBlock) :
    ChangesAtStart addressKey
        (baseline.map fun implementation => (implementation, storageEvidence (startBlock - 1 : ℕ)))
        startBlock (changes primitives (within logs startBlock endBlock)) ↔
      UpgradesAtStart primitives logs storage startBlock := by
  have last := lastUpgrade_within_start logs ordered
  constructor
  · rintro ⟨_, _, active_eq, changed, different⟩
    rcases Option.map_eq_some_iff.mp active_eq with ⟨active, rfl, rfl⟩
    rw [latest_changes] at changed
    rcases Option.map_eq_some_iff.mp changed with ⟨log, log_eq, rfl⟩
    have log_mem : log ∈ within logs startBlock endBlock :=
      List.mem_of_mem_filter (mem_sortBy.mp (List.mem_of_getLast? log_eq))
    rcases returned.readable log log_mem with ⟨implementation, read⟩
    rw [addressKey_upgradeEntry read] at different
    exact ⟨active, log, implementation, returned.before, last ▸ log_eq, read, different⟩
  · rintro ⟨active, log, implementation, before, log_eq, read, different⟩
    have baseline_eq := returned.before
    rw [before] at baseline_eq
    cases baseline_eq
    refine ⟨_, upgradeChange (upgradeEntry primitives log), rfl, ?_, ?_⟩
    · rw [latest_changes, last, log_eq]
      rfl
    · rw [addressKey_upgradeEntry read]
      exact different

/--
The intervals that `history` returns are well formed exactly if the implementation does
not change in the first block of the range.
-/
theorem history_wellFormed_iff {rounds : ℕ} {world final : World}
    {result : List ImplementationInterval}
    (reports : ports.Reports checksum [some (upgradedTopic primitives)] logs storage)
    (checksummed : primitives.toChecksumAddress address = .ok checksum)
    (returned : resolver.history primitives ports rounds address startBlock endBlock world =
      some (.ok result, final)) :
    WellFormed startBlock result ↔ ¬UpgradesAtStart primitives logs storage startBlock := by
  have ordered : startBlock ≤ endBlock := by
    rw [history] at returned
    split_ifs at returned with invalid
    · cases returned
    · omega
  rcases history_eq_ok reports checksummed returned with ⟨baseline, facts⟩
  rw [facts.result_eq, wellFormed_map_spanInterval_iff, ← changesAtStart_iff facts ordered]
  exact nonEmpty_spans_iff (ordered_changes primitives _) fun _ => le_of_mem_changes

section Samples

/-- The sample hashes with those of two implementations. -/
def implementationHashes : Primitives :=
  sampleHashes.withKeccak fun text =>
    if text = List.replicate 40 '2' then
      ⟨[0xd9, 0xc3, 0xd0, 0x7f, 0xe8, 0xd6, 0x5e, 0x53, 0x43, 0x0f, 0x88, 0x5e,
        0x4b, 0xa4, 0x7e, 0xa1, 0xd6, 0xe5, 0x87, 0x40, 0x7f, 0x9c, 0xd6, 0x01,
        0x6c, 0x0d, 0x60, 0xfd, 0xc1, 0x44, 0x1f, 0x8c], rfl⟩
    else if text = List.replicate 40 '3' then
      ⟨[0x67, 0x6b, 0x12, 0x95, 0xd2, 0x8a, 0x7a, 0x1c, 0xdd, 0x66, 0xd9, 0x6c,
        0xb2, 0x69, 0x85, 0xbf, 0xb5, 0x9c, 0x0a, 0xe7, 0xf0, 0x90, 0x46, 0x51,
        0x8c, 0x51, 0xfa, 0xe3, 0xc8, 0xf2, 0xb4, 0x7e], rfl⟩
    else sampleHashes.keccak text

/-- The sample proxy. -/
def proxyText : Text := marker ++ hex sampleAddress.val

/-- The word of an implementation with the same byte everywhere. -/
def implementationWord (byte : UInt8) : Bytes := List.replicate 12 0 ++ List.replicate 20 byte

/-- An upgrade of the sample proxy. -/
def upgradedLog (byte : UInt8) (blockNumber logIndex : ℕ) : EvmLog where
  address := proxyText
  topics := [upgradedTopic implementationHashes, marker ++ hex (implementationWord byte)]
  data := marker
  blockNumber := blockNumber
  blockHash := marker ++ hex (AbiEncoding.word blockNumber)
  transactionHash := marker ++ hex (AbiEncoding.word 5)
  logIndex := logIndex
  removed := false

/-- A provider that answers from a chain with logs and a history of the slot. -/
def chainPorts (logs : List EvmLog) (storage : ℕ → Bytes) : ProxyPorts Unit where
  logs _ startBlock endBlock _ _ := (.ok (within logs startBlock endBlock), ())
  block number _ := (.ok ⟨number, marker ++ hex (AbiEncoding.word number)⟩, ())
  code _ _ _ := (.ok [0x60, 0x00], ())
  storageAt _ _ block _ := (.ok (storage block), ())

theorem reports_chainPorts (address : Text) (topics : List (Option Text)) (logs : List EvmLog)
    (storage : ℕ → Bytes) : (chainPorts logs storage).Reports address topics logs storage where
  logs answered := by
    cases answered
    exact fun _ => rfl
  storage answered := by
    cases answered
    rfl

/-- The slot of a proxy that is upgraded in a block. -/
def upgradedStorage (upgradeBlock block : ℕ) : Bytes :=
  if block < upgradeBlock then implementationWord 0x22 else implementationWord 0x33

/-- The resolver with its default chunk sizes. -/
def standardResolver : Eip1967ImplementationResolver where
  positive := by decide
  ordered := by decide

/-- The history of blocks 10 to 20 of a proxy that is upgraded in a block. -/
def upgradedHistory (upgradeBlock : ℕ) :
    Option (Except Raised (List ImplementationInterval) × Unit) :=
  standardResolver.history implementationHashes
    (chainPorts [upgradedLog 0x33 upgradeBlock 3] (upgradedStorage upgradeBlock)) 30 proxyText
    (10 : ℕ) (20 : ℕ) ()

/-- The bounds of the intervals that a history returns. -/
def boundsOf : Option (Except Raised (List ImplementationInterval) × Unit) →
    Option (List (ℤ × Option ℤ))
  | some (.ok result, _) =>
      some (result.map fun interval => (interval.effectiveFromBlock, interval.effectiveToBlock))
  | _ => none

theorem exists_of_boundsOf {ended : Option (Except Raised (List ImplementationInterval) × Unit)}
    {bounds : List (ℤ × Option ℤ)} (told : boundsOf ended = some bounds) :
    ∃ result, ended = some (.ok result, ()) ∧
      result.map (fun interval => (interval.effectiveFromBlock, interval.effectiveToBlock)) =
        bounds := by
  match ended, told with
  | some (.ok result, ()), told => exact ⟨result, rfl, Option.some.inj told⟩

end Samples

/-- An upgrade in the first block gives the former implementation an interval that ends before. -/
theorem upgradedAtStart_notWellFormed :
    ¬∀ (resolver : Eip1967ImplementationResolver) (primitives : Primitives)
      (ports : ProxyPorts Unit) (address checksum : Text) (logs : List EvmLog)
      (storage : ℕ → Bytes) (startBlock endBlock rounds : ℕ)
      (result : List ImplementationInterval),
      ports.Reports checksum [some (upgradedTopic primitives)] logs storage →
      primitives.toChecksumAddress address = .ok checksum →
      resolver.history primitives ports rounds address startBlock endBlock () =
          some (.ok result, ()) →
        WellFormed startBlock result := by
  intro claimed
  have told : boundsOf (upgradedHistory 10) = some [(10, some 9), (10, none)] := by
    decide +kernel
  rcases exists_of_boundsOf told with ⟨result, returned, bounds⟩
  have wellFormed := claimed standardResolver implementationHashes _ proxyText proxyText _ _ 10 20
    30 result (reports_chainPorts proxyText _ [upgradedLog 0x33 10 3] (upgradedStorage 10)) rfl
    returned
  have starts : result.map ImplementationInterval.effectiveFromBlock = [10, 10] := by
    have first := congrArg (List.map Prod.fst) bounds
    rwa [List.map_map] at first
  have distinct := wellFormed.distinct
  rw [starts] at distinct
  exact absurd distinct (by decide)

/-- An upgrade in the middle of the range is told by two intervals that are well formed. -/
theorem upgradedLater_wellFormed_iff :
    ∃ result, upgradedHistory 15 = some (.ok result, ()) ∧
      result.map (fun interval => (interval.effectiveFromBlock, interval.effectiveToBlock)) =
        [(10, some 14), (15, none)] ∧
      (WellFormed 10 result ↔ ¬UpgradesAtStart implementationHashes [upgradedLog 0x33 15 3]
        (upgradedStorage 15) 10) := by
  have told : boundsOf (upgradedHistory 15) = some [(10, some 14), (15, none)] := by
    decide +kernel
  rcases exists_of_boundsOf told with ⟨result, returned, bounds⟩
  exact ⟨result, returned, bounds, history_wellFormed_iff (reports_chainPorts _ _ _ _)
    (show implementationHashes.toChecksumAddress proxyText = .ok proxyText from rfl) returned⟩

end WellFormed

end Eip1967ImplementationResolver

end CopyMint
