import CopyMint.Ethereum.ProxyIntervals

/-!
# The history of a proxy against its storage

The implementation slot changes with every `Upgraded` event. If the slot holds the
target of the last event at every block, the intervals that are told by the events tell
the implementation in storage at every block of the range. If it does not at the end of
the range, the history is refused.
-/

namespace CopyMint

open Hexadecimal Fallible Loops Sorting Timeline

open AdaptiveHistoricalScanner (mostQueries)

/--
A provider that answers every call from a chain, but may ask for a smaller range of
blocks as long as there are at least two.
-/
structure ProxyPorts.Answers {World : Type} (ports : ProxyPorts World) (address : Text)
    (topics : List (Option Text)) (logs : List EvmLog) (storage : ℕ → Bytes)
    (codes : Text → ℕ → Bytes) : Prop where
  reports : ports.Reports address topics logs storage
  logsOrSmaller : ∀ {startBlock endBlock} world, startBlock ≤ endBlock →
    (∃ answer, (ports.logs address startBlock endBlock topics world).1 = .ok answer) ∨
      ∃ error, (ports.logs address startBlock endBlock topics world).1 =
          .error (.providerError error) ∧
        error.splitRange = true ∧ startBlock < endBlock
  block : ∀ number world, ∃ blockHash, (ports.block number world).1 = .ok ⟨number, blockHash⟩
  code : ∀ implementation number world,
    (ports.code implementation number world).1 = .ok (codes implementation number)
  slot : ∀ number world, (ports.storageAt address eip1967ImplementationSlot number world).1 =
    .ok (storage number)

namespace Eip1967ImplementationResolver

variable {World : Type} {primitives : Primitives} {resolver : Eip1967ImplementationResolver}
  {ports : ProxyPorts World} {address checksum : Text} {topics : List (Option Text)}
  {logs : List EvmLog} {storage : ℕ → Bytes} {codes : Text → ℕ → Bytes}
  {startBlock endBlock block : ℕ}

section Scanning

variable {scanner : AdaptiveHistoricalScanner}

/-- A scan of a provider that answers every call does not raise. -/
theorem ok_of_exit (answers : ports.Answers address topics logs storage codes)
    {state : ScanState (World × List EvmLog)} (bounds : scanner.InBounds state.chunk)
    {result : Except Raised Unit × World × List EvmLog}
    (played : scanner.scanRound ports.collecting address topics endBlock state = .exit result) :
    result.1 = .ok () := by
  have moved := collectPlayed scanner ports address topics endBlock state
  rw [played] at moved
  cases moved with
  | returns => rfl
  | logsFail ready answered fatal =>
      have cursor_le := AdaptiveHistoricalScanner.cursor_le_batchEnd bounds.1 ready
      rcases answers.logsOrSmaller state.world.1 cursor_le with ⟨answer, ok⟩ | ⟨error, raised, split⟩
      · rw [ok] at answered
        cases answered
      · rw [raised] at answered
        cases answered
        have many : state.chunk ≠ 1 := by
          have last := split.2
          simp only [AdaptiveHistoricalScanner.batchEnd] at last
          omega
        have halves := fatal error rfl
        simp [AdaptiveHistoricalScanner.chunkAfterError, split.1, many] at halves
  | @blockFails _ before _ ready answered =>
      rcases answers.block (AdaptiveHistoricalScanner.batchEnd state.cursor state.chunk endBlock)
        before with ⟨blockHash, ok⟩
      exact absurd rfl (answered _ ok)

theorem exists_collecting_scan (scanner : AdaptiveHistoricalScanner)
    (answers : ports.Answers address topics logs storage codes) (ordered : startBlock ≤ endBlock)
    (world : World) :
    ∃ finish collected, SameLogs collected (within logs startBlock endBlock) ∧
      ∀ rounds > scanner.mostQueries startBlock endBlock,
        scanner.scan ports.collecting address topics rounds startBlock endBlock (world, []) =
          some (.ok (), finish, collected) := by
  rcases scanner.scan_ends ports.collecting address topics ordered (world, []) with
    ⟨result, ⟨finish, collected⟩, calls, scanned, _⟩
  have scanned := fun rounds many => (scanned rounds many).1
  have ran := scanned _ (Nat.lt_succ_self _)
  rw [AdaptiveHistoricalScanner.scan_of_ordered ordered] at ran
  have returned := run_invariant
    (Collected scanner logs startBlock endBlock) (fun result => result.1 = .ok ())
    (fun holds played => holds.next answers.reports played)
    (fun holds played => ok_of_exit answers holds.bounds played) ran
    (collected_initial scanner logs ordered world)
  cases returned
  exact ⟨finish, collected,
    sameLogs_of_scan answers.reports ordered (scanned _ (Nat.lt_succ_self _)), scanned⟩

end Scanning

section Slot

/-- The word that the target of an event fills the slot with. -/
def upgradedWord (log : EvmLog) : Bytes :=
  match log.topics with
  | [_, implementation] => (fromhex (removePrefix marker implementation)).getD []
  | _ => []

/-- The slot at the end of a block, by the events and the word that it has without any. -/
def slotAfter (logs : List EvmLog) (initial : Bytes) (block : ℕ) : Bytes :=
  match lastUpgrade logs block with
  | some log => upgradedWord log
  | none => initial

theorem implementationFromWord_upgradedWord {log : EvmLog} {implementation : Text}
    (read : implementationFromUpgrade primitives log = .ok implementation) :
    implementationFromWord primitives (upgradedWord log) = .ok (some implementation) := by
  simp only [implementationFromUpgrade] at read
  split at read
  · rename_i signature topic topics
    split_ifs at read
    simp only [upgradedWord, topics]
    cases value_eq : fromhex (removePrefix marker topic) with
    | none =>
        rw [value_eq] at read
        cases read
    | some value =>
        rw [value_eq] at read
        rcases bind_eq_ok_iff.mp read with ⟨found, word, continued⟩
        cases found with
        | none => cases continued
        | some address =>
            cases continued
            exact word
  · cases read

/-- The events up to a block are those before a range and those of the range. -/
theorem lastUpgrade_split (logs : List EvmLog) (positive : 0 < startBlock)
    (start_le : startBlock ≤ block) (le_end : block ≤ endBlock) :
    lastUpgrade logs block =
      (lastUpgrade (within logs startBlock endBlock) block).or
        (lastUpgrade logs (startBlock - 1)) := by
  have ascending : Ascending EvmLog.position
      (sortBy EvmLog.position (logs.filter fun log => log.blockNumber ≤ block)) :=
    ascending_sortBy _
  have parts := filter_append_filter_not ascending (fun log => log.blockNumber < startBlock)
    fun first second ordered early => by
      have blocks := blockNumber_le_of_position_le ordered
      simp only [decide_eq_true_eq] at early ⊢
      omega
  rw [filter_sortBy, filter_sortBy, List.filter_filter, List.filter_filter] at parts
  have before : logs.filter (fun log => decide (log.blockNumber < startBlock) &&
      decide (log.blockNumber ≤ block)) = logs.filter fun log => log.blockNumber ≤ startBlock - 1 := by
    refine List.filter_congr fun log _ => ?_
    rw [Bool.eq_iff_iff]
    simp only [Bool.and_eq_true, decide_eq_true_eq]
    omega
  have inside : logs.filter (fun log => !decide (log.blockNumber < startBlock) &&
      decide (log.blockNumber ≤ block)) =
      (within logs startBlock endBlock).filter fun log => log.blockNumber ≤ block := by
    rw [within, List.filter_filter]
    refine List.filter_congr fun log _ => ?_
    rw [Bool.eq_iff_iff]
    simp only [Bool.and_eq_true, Bool.not_eq_true', decide_eq_true_eq, decide_eq_false_iff_not]
    omega
  rw [before, inside] at parts
  rw [lastUpgrade, ← parts, List.getLast?_append]
  rfl

/-- The slot before a range decides it where no event of the range does. -/
theorem slotAfter_split (logs : List EvmLog) (initial : Bytes) (positive : 0 < startBlock)
    (start_le : startBlock ≤ block) (le_end : block ≤ endBlock) :
    slotAfter logs initial block =
      slotAfter (within logs startBlock endBlock) (slotAfter logs initial (startBlock - 1))
        block := by
  simp only [slotAfter, lastUpgrade_split logs positive start_le le_end]
  cases lastUpgrade (within logs startBlock endBlock) block with
  | none => rfl
  | some log => rfl

theorem mem_of_lastUpgrade {log : EvmLog} (found : lastUpgrade logs block = some log) :
    log ∈ logs :=
  List.mem_of_mem_filter (mem_sortBy.mp (List.mem_of_getLast? found))

/-- The slot after events that announce implementations holds an implementation. -/
theorem exists_implementation_slotAfter (readable : ∀ log ∈ logs, IsReadable primitives log)
    {initial : Bytes} {before : Option Text}
    (read : implementationFromWord primitives initial = .ok before) :
    implementationFromWord primitives (slotAfter logs initial block) =
      .ok (((lastUpgrade logs block).map (target primitives)).or before) := by
  rw [slotAfter]
  cases found : lastUpgrade logs block with
  | none => exact read
  | some log =>
      exact implementationFromWord_upgradedWord
        (implementationFromUpgrade_of_isReadable (readable log (mem_of_lastUpgrade found)))

end Slot

section Answering

variable {world : World}

/-- The evidence of the proxy is refused. -/
def IsEvidenceFailure (raised : Raised) : Prop := ∃ message, raised = .invalidProxyEvidence message

theorem followedBy_fst {Answer Result : Type} (answered : Except Raised Answer × World)
    (next : Answer → World → Except Raised Result × World) :
    (followedBy answered next).1 = answered.1 >>= fun answer => (next answer answered.2).1 := by
  rcases answered with ⟨raised | answer, world⟩ <;> rfl

theorem implementationAt_fst (answers : ports.Answers address topics logs storage codes)
    (number : ℕ) (world : World) :
    (implementationAt primitives ports address number world).1 =
      implementationFromWord primitives (storage number) := by
  rw [implementationAt, if_neg (by omega), followedBy_fst, Int.toNat_natCast, answers.slot]
  rfl

variable (primitives) in
theorem implementationFromUpgrade_failsOnly (log : EvmLog) :
    FailsOnly IsEvidenceFailure (implementationFromUpgrade primitives log) := by
  simp only [implementationFromUpgrade]
  split
  · split_ifs
    · exact failsOnly_error_iff.mpr ⟨_, rfl⟩
    · split
      · exact failsOnly_error_iff.mpr ⟨_, rfl⟩
      · refine (implementationFromWord_failsOnly _).bind fun found _ => ?_
        cases found with
        | none => exact failsOnly_error_iff.mpr ⟨_, rfl⟩
        | some address => exact failsOnly_ok address
  · exact failsOnly_error_iff.mpr ⟨_, rfl⟩

theorem readUpgrades_failsOnly (answers : ports.Answers address topics logs storage codes)
    (upgradeLogs : List EvmLog) (upgrades : Upgrades) (world : World) :
    FailsOnly IsEvidenceFailure (readUpgrades primitives ports upgradeLogs upgrades world).1 := by
  induction upgradeLogs generalizing upgrades world with
  | nil => exact failsOnly_ok upgrades
  | cons log upgradeLogs ih =>
      have fails := implementationFromUpgrade_failsOnly primitives log
      rw [readUpgrades]
      cases read : implementationFromUpgrade primitives log with
      | error raised => exact failsOnly_error_iff.mpr (fails raised read)
      | ok implementation =>
          rw [followedBy_fst, answers.code]
          refine (failsOnly_ok _).bind fun code _ => ?_
          split_ifs
          · exact failsOnly_error_iff.mpr ⟨_, rfl⟩
          · exact ih _ _

/-- Events that announce implementations with code are all read. -/
theorem readUpgrades_of_readable (answers : ports.Answers address topics logs storage codes)
    {upgradeLogs : List EvmLog}
    (targets : ∀ log ∈ upgradeLogs, ∃ implementation,
      implementationFromUpgrade primitives log = .ok implementation ∧
        codes implementation log.blockNumber ≠ [])
    (upgrades : Upgrades) (world : World) :
    (readUpgrades primitives ports upgradeLogs upgrades world).1 =
      .ok ((upgradeLogs.map (upgradeEntry primitives)).foldl
        (fun dictionary entry => assign entry.1 entry.2 dictionary) upgrades) := by
  induction upgradeLogs generalizing upgrades world with
  | nil => rfl
  | cons log upgradeLogs ih =>
      rcases targets log List.mem_cons_self with ⟨implementation, read, code⟩
      have entry : upgradeEntry primitives log = (log.blockNumber, implementation, log) := by
        simp [upgradeEntry, target, read, Except.toOption]
      rw [readUpgrades, read]
      simp only [followedBy_fst, answers.code, ok_bind, if_neg code]
      rw [ih fun other other_mem => targets other (List.mem_cons_of_mem _ other_mem), List.map_cons,
        List.foldl_cons, entry]

variable (primitives ports) in
/-- What `history` returns or raises behind the scan. -/
def outcome (logs : List EvmLog) (storage : ℕ → Bytes) (startBlock endBlock : ℕ) (world : World) :
    Except Raised (List ImplementationInterval) := do
  let upgrades ← (readUpgrades primitives ports
    (sortBy EvmLog.position (within logs startBlock endBlock)) [] world).1
  let baseline ← implementationFromWord primitives (storage (startBlock - 1))
  let finalImplementation ← implementationFromWord primitives (storage endBlock)
  finish ((sortBy Prod.fst upgrades).foldl changeImplementation
    ⟨[], baseline, startBlock, storageEvidence (startBlock - 1 : ℕ)⟩) finalImplementation

theorem intervals_fst (answers : ports.Answers address topics logs storage codes)
    {collected : List EvmLog} (same : SameLogs collected (within logs startBlock endBlock))
    (world : World) :
    (intervals primitives ports address startBlock endBlock collected world).1 =
      outcome primitives ports logs storage startBlock endBlock world := by
  rw [intervals, followedBy_fst, sortBy_congr same, outcome]
  congr 1
  funext upgrades
  rw [followedBy_fst, baselineBlock_natCast, implementationAt_fst answers]
  congr 1
  funext baseline
  rw [followedBy_fst, implementationAt_fst answers]

/-- A history of a provider that answers every call comes to an outcome. -/
theorem exists_history (resolver : Eip1967ImplementationResolver)
    (answers : ports.Answers checksum [some (upgradedTopic primitives)] logs storage codes)
    (checksummed : primitives.toChecksumAddress address = .ok checksum)
    (ordered : startBlock ≤ endBlock) (world : World) :
    ∃ scanned final, ∀ rounds > resolver.scanner.mostQueries startBlock endBlock,
      resolver.history primitives ports rounds address startBlock endBlock world =
        some (outcome primitives ports logs storage startBlock endBlock scanned, final) := by
  rcases exists_collecting_scan resolver.scanner answers ordered world with
    ⟨scanned, collected, same, ran⟩
  refine ⟨scanned, (intervals primitives ports checksum startBlock endBlock collected scanned).2,
    fun rounds many => ?_⟩
  have valid : ¬((startBlock : ℤ) < 0 ∨ (endBlock : ℤ) < startBlock) := by omega
  rw [history, if_neg valid]
  simp only [checksummed, ran rounds many, ← intervals_fst answers same]

end Answering

section Agreement

/-- The active implementation at the end is the one of the last event, or the one before. -/
theorem activeAddress_replayed (baseline : Option Text) :
    (replayed primitives startBlock baseline
        (within logs startBlock endBlock)).activeAddress.map lower =
      (((lastUpgrade (within logs startBlock endBlock) endBlock).map
        (target primitives)).or baseline).map lower := by
  have all_early : (entries primitives (within logs startBlock endBlock)).filter
      (fun entry => entry.1 ≤ endBlock) = entries primitives (within logs startBlock endBlock) := by
    rw [List.filter_eq_self]
    intro entry entry_mem
    have found := (assigned_spec (ascending_upgradeEntries primitives _)).2.1 entry entry_mem
    rcases List.mem_map.mp found with ⟨log, log_mem, rfl⟩
    have between := of_decide_eq_true (List.mem_filter.mp (mem_sortBy.mp log_mem)).2
    exact decide_eq_true between.2
  have last := latest_entries primitives (within logs startBlock endBlock) endBlock
  rw [latest, all_early] at last
  rw [replayed, activeAddress_foldl, last, Option.map_map]
  rfl

/-- The timeline has the implementation of the last event, or the one before. -/
theorem map_valueAt_changes (baseline : Option Text) (events : List EvmLog) (block : ℕ) :
    (valueAt (baseline.map fun implementation =>
        (implementation, storageEvidence (startBlock - 1 : ℕ)))
        (changes primitives events) block).map addressKey =
      (((lastUpgrade events block).map (target primitives)).or baseline).map lower := by
  rw [valueAt, latest_changes]
  cases lastUpgrade events block with
  | none => cases baseline <;> rfl
  | some log => rfl

/-- Implementations that differ in letter case at most are in the same word. -/
theorem eq_of_map_lower_eq {first second : Bytes} {implementation other : Option Text}
    (read : implementationFromWord primitives first = .ok implementation)
    (other_read : implementationFromWord primitives second = .ok other)
    (same : implementation.map lower = other.map lower) : first = second := by
  cases implementation with
  | none =>
      cases other with
      | none =>
          rw [eq_replicate_of_implementationFromWord read,
            eq_replicate_of_implementationFromWord other_read]
      | some other => cases same
  | some implementation =>
      cases other with
      | none => cases same
      | some other => exact eq_of_implementationFromWord read other_read (Option.some.inj same)

/-- An interval is in effect at a block. -/
def InEffect (interval : ImplementationInterval) (block : ℕ) : Prop :=
  interval.effectiveFromBlock ≤ block ∧
    ∀ effectiveToBlock ∈ interval.effectiveToBlock, (block : ℤ) ≤ effectiveToBlock

/-- Exactly the interval that is in effect at a block has an implementation. -/
def TellsAt (intervals : List ImplementationInterval) (block : ℕ)
    (implementation : Option Text) : Prop :=
  (∀ interval ∈ intervals, InEffect interval block →
    implementation = some interval.implementationAddress) ∧
  ((∀ interval ∈ intervals, ¬InEffect interval block) ↔ implementation = none)

/--
The slot holds at every block the target of the last event up to it, or an initial word,
and the targets are implementations with code.
-/
structure FollowsUpgrades (primitives : Primitives) (logs : List EvmLog) (storage : ℕ → Bytes)
    (codes : Text → ℕ → Bytes) (initial : Bytes) : Prop where
  targets : ∀ log ∈ logs, ∃ implementation,
    implementationFromUpgrade primitives log = .ok implementation ∧
      codes implementation log.blockNumber ≠ []
  slot : ∀ block, storage block = slotAfter logs initial block

/-- The word is zero or an address. -/
def IsImplementationWord (primitives : Primitives) (word : Bytes) : Prop :=
  ∃ implementation, implementationFromWord primitives word = .ok implementation

variable {initial : Bytes} {world : World}

theorem FollowsUpgrades.isReadable (follows : FollowsUpgrades primitives logs storage codes initial)
    {log : EvmLog} (log_mem : log ∈ logs) : IsReadable primitives log :=
  (follows.targets log log_mem).imp fun _ facts => facts.1

theorem FollowsUpgrades.isImplementationWord
    (follows : FollowsUpgrades primitives logs storage codes initial)
    (begins : IsImplementationWord primitives initial) (block : ℕ) :
    IsImplementationWord primitives (storage block) := by
  rcases begins with ⟨before, read⟩
  rw [follows.slot]
  exact ⟨_, exists_implementation_slotAfter (fun _ => follows.isReadable) read⟩

/-- What the slot holds at a block of the range, by the events of the range. -/
theorem FollowsUpgrades.implementationFromWord_eq
    (follows : FollowsUpgrades primitives logs storage codes initial)
    {baseline : Option Text}
    (before : implementationFromWord primitives (storage (startBlock - 1)) = .ok baseline)
    (positive : 0 < startBlock) (start_le : startBlock ≤ block) (le_end : block ≤ endBlock) :
    implementationFromWord primitives (storage block) =
      .ok (((lastUpgrade (within logs startBlock endBlock) block).map
        (target primitives)).or baseline) := by
  rw [follows.slot, slotAfter_split logs initial positive start_le le_end, ← follows.slot]
  exact exists_implementation_slotAfter
    (fun _ log_mem => follows.isReadable (List.mem_of_mem_filter log_mem)) before

theorem outcome_of_followsUpgrades
    (answers : ports.Answers checksum topics logs storage codes)
    (follows : FollowsUpgrades primitives logs storage codes initial) {baseline : Option Text}
    (before : implementationFromWord primitives (storage (startBlock - 1)) = .ok baseline)
    (positive : 0 < startBlock) (ordered : startBlock ≤ endBlock) (world : World) :
    outcome primitives ports logs storage startBlock endBlock world =
      .ok ((historySpans primitives startBlock baseline
        (within logs startBlock endBlock)).map spanInterval) := by
  have targets : ∀ log ∈ sortBy EvmLog.position (within logs startBlock endBlock),
      ∃ implementation, implementationFromUpgrade primitives log = .ok implementation ∧
        codes implementation log.blockNumber ≠ [] :=
    fun log log_mem => follows.targets log (List.mem_of_mem_filter (mem_sortBy.mp log_mem))
  have after := follows.implementationFromWord_eq before positive ordered (le_refl endBlock)
  have read := readUpgrades_of_readable answers targets [] world
  have replayed_eq : (sortBy Prod.fst (entries primitives (within logs startBlock endBlock))).foldl
      changeImplementation ⟨[], baseline, startBlock, storageEvidence (startBlock - 1 : ℕ)⟩ =
      replayed primitives startBlock baseline (within logs startBlock endBlock) := by
    rw [sortBy_entries, replayed]
  rw [outcome, read, before, after]
  simp only [ok_bind]
  rw [← told_replayed]
  refine Eq.trans (congrArg (finish · _) replayed_eq) ?_
  exact finish_of_same (activeAddress_replayed baseline) (intervals_replayed startBlock baseline _)

/-- The intervals have implementations that are read from words. -/
theorem exists_word_of_mem_historySpans {baseline : Option Text} {events : List EvmLog}
    {word : Bytes} (before : implementationFromWord primitives word = .ok baseline)
    (readable : ∀ log ∈ events, IsReadable primitives log) {span : Span (Text × Json)}
    (span_mem : span ∈ historySpans primitives startBlock baseline events) :
    ∃ found, implementationFromWord primitives found = .ok (some span.value.1) := by
  rcases value_of_mem_spans span_mem with first | ⟨change, change_mem, value_eq⟩
  · rcases Option.map_eq_some_iff.mp first with ⟨implementation, rfl, value_eq⟩
    rw [← value_eq]
    exact ⟨word, before⟩
  · rcases List.mem_map.mp change_mem with ⟨entry, entry_mem, rfl⟩
    have found := (assigned_spec (ascending_upgradeEntries primitives events)).2.1 entry entry_mem
    rcases List.mem_map.mp found with ⟨log, log_mem, rfl⟩
    rw [← value_eq]
    exact ⟨upgradedWord log, implementationFromWord_upgradedWord
      (implementationFromUpgrade_of_isReadable (readable log (mem_sortBy.mp log_mem)))⟩

/-- The intervals that are told by the events of a range tell what the slot holds. -/
theorem tellsAt_of_followsUpgrades
    (follows : FollowsUpgrades primitives logs storage codes initial) {baseline : Option Text}
    (before : implementationFromWord primitives (storage (startBlock - 1)) = .ok baseline)
    (positive : 0 < startBlock) (start_le : startBlock ≤ block) (le_end : block ≤ endBlock)
    {implementation : Option Text}
    (holds : implementationFromWord primitives (storage block) = .ok implementation) :
    TellsAt ((historySpans primitives startBlock baseline
      (within logs startBlock endBlock)).map spanInterval) block implementation := by
  have holds_eq := follows.implementationFromWord_eq before positive start_le le_end
  rw [holds, Except.ok.injEq] at holds_eq
  have contains_iff : ∀ letters,
      (∃ span ∈ historySpans primitives startBlock baseline (within logs startBlock endBlock),
        span.Contains block ∧ addressKey span.value = letters) ↔
        implementation.map lower = some letters := by
    intro letters
    rw [historySpans, exists_contains_iff (ordered_changes primitives _)
      (fun _ => le_of_mem_changes) (Int.ofNat_le.mpr start_le), map_valueAt_changes, ← holds_eq]
  constructor
  · intro interval interval_mem inEffect
    rcases List.mem_map.mp interval_mem with ⟨span, span_mem, rfl⟩
    have letters := (contains_iff _).mp ⟨span, span_mem, inEffect, rfl⟩
    rcases Option.map_eq_some_iff.mp letters with ⟨active, rfl, same⟩
    rcases exists_word_of_mem_historySpans before
      (fun _ log_mem => follows.isReadable (List.mem_of_mem_filter log_mem)) span_mem with
      ⟨word, found⟩
    rw [← eq_of_implementationFromWord holds found same, holds] at found
    exact Except.ok.inj found
  · constructor
    · intro none_inEffect
      cases implementation with
      | none => rfl
      | some active =>
          rcases (contains_iff (lower active)).mpr rfl with ⟨span, span_mem, contains, _⟩
          exact absurd contains (none_inEffect _ (List.mem_map_of_mem span_mem))
    · rintro rfl interval interval_mem inEffect
      rcases List.mem_map.mp interval_mem with ⟨span, span_mem, rfl⟩
      have impossible := (contains_iff _).mp ⟨span, span_mem, inEffect, rfl⟩
      cases impossible

theorem finish_failsOnly (state : HistoryState) (finalImplementation : Option Text) :
    FailsOnly IsEvidenceFailure (finish state finalImplementation) := by
  simp only [finish]
  split
  · exact failsOnly_ok []
  · exact failsOnly_error_iff.mpr ⟨_, rfl⟩
  · exact failsOnly_error_iff.mpr ⟨_, rfl⟩
  · split_ifs
    · exact failsOnly_error_iff.mpr ⟨_, rfl⟩
    · exact failsOnly_ok _

theorem outcome_failsOnly (answers : ports.Answers checksum topics logs storage codes)
    (world : World) :
    FailsOnly IsEvidenceFailure
      (outcome primitives ports logs storage startBlock endBlock world) := by
  refine (readUpgrades_failsOnly answers _ _ _).bind fun upgrades _ => ?_
  refine (implementationFromWord_failsOnly _).bind fun baseline _ => ?_
  exact (implementationFromWord_failsOnly _).bind fun _ _ => finish_failsOnly _ _

/-- A history that returns has predicted the slot at the end of its range. -/
theorem slot_of_outcome {world : World} {result : List ImplementationInterval}
    (returned : outcome primitives ports logs storage startBlock endBlock world = .ok result) :
    storage endBlock =
      slotAfter (within logs startBlock endBlock) (storage (startBlock - 1)) endBlock := by
  rcases bind_eq_ok_iff.mp returned with ⟨upgrades, read, returned⟩
  rcases bind_eq_ok_iff.mp returned with ⟨baseline, before, returned⟩
  rcases bind_eq_ok_iff.mp returned with ⟨implementation, after, finished⟩
  have facts := returned_of_finish read before after finished
  have predicted : implementationFromWord primitives
      (slotAfter (within logs startBlock endBlock) (storage (startBlock - 1)) endBlock) = _ :=
    exists_implementation_slotAfter facts.readable before
  rcases facts.after with ⟨final, after, agree⟩
  rw [activeAddress_replayed] at agree
  exact eq_of_map_lower_eq after predicted agree.symm

end Agreement

/--
If the slot follows the events, the history of a range behind block 0 tells the
implementation in storage at every block of it. If the slot at the end of the range is
not what the events of the range and the slot before it predict, the history is refused.
-/
theorem history_agreesWithStorage (resolver : Eip1967ImplementationResolver)
    (answers : ports.Answers checksum [some (upgradedTopic primitives)] logs storage codes)
    (checksummed : primitives.toChecksumAddress address = .ok checksum)
    (positive : 0 < startBlock) (ordered : startBlock ≤ endBlock) (world : World) :
    (∀ initial, FollowsUpgrades primitives logs storage codes initial →
      IsImplementationWord primitives initial →
      ∃ result final,
        (∀ rounds > resolver.scanner.mostQueries startBlock endBlock,
          resolver.history primitives ports rounds address startBlock endBlock world =
            some (.ok result, final)) ∧
        ∀ block, startBlock ≤ block → block ≤ endBlock → ∃ implementation,
          (∀ later, (implementationAt primitives ports checksum block later).1 =
            .ok implementation) ∧
          TellsAt result block implementation) ∧
    (storage endBlock ≠
        slotAfter (within logs startBlock endBlock) (storage (startBlock - 1)) endBlock →
      ∃ message final, ∀ rounds > resolver.scanner.mostQueries startBlock endBlock,
        resolver.history primitives ports rounds address startBlock endBlock world =
          some (.error (.invalidProxyEvidence message), final)) := by
  rcases exists_history resolver answers checksummed ordered world with ⟨scanned, final, ran⟩
  constructor
  · intro initial follows begins
    rcases follows.isImplementationWord begins (startBlock - 1) with ⟨baseline, before⟩
    have returned := outcome_of_followsUpgrades answers follows before positive ordered scanned
    refine ⟨(historySpans primitives startBlock baseline
      (within logs startBlock endBlock)).map spanInterval, final, fun rounds many => ?_,
      fun block start_le le_end => ?_⟩
    · rw [ran rounds many, returned]
    · rcases follows.isImplementationWord begins block with ⟨implementation, holds⟩
      refine ⟨implementation, fun later => ?_, ?_⟩
      · rw [implementationAt_fst answers, holds]
      · exact tellsAt_of_followsUpgrades follows before positive start_le le_end holds
  · intro unpredicted
    cases came : outcome primitives ports logs storage startBlock endBlock scanned with
    | ok result => exact absurd (slot_of_outcome came) unpredicted
    | error raised =>
        rcases outcome_failsOnly answers scanned raised came with ⟨message, rfl⟩
        refine ⟨message, final, fun rounds many => ?_⟩
        rw [ran rounds many, came]

section Samples

theorem answers_chainPorts (address : Text) (topics : List (Option Text)) (logs : List EvmLog)
    (storage : ℕ → Bytes) :
    (chainPorts logs storage).Answers address topics logs storage fun _ _ => [0x60, 0x00] where
  reports := reports_chainPorts address topics logs storage
  logsOrSmaller _ _ := .inl ⟨_, rfl⟩
  block _ _ := ⟨_, rfl⟩
  code _ _ _ := rfl
  slot _ _ := rfl

/-- A proxy that is upgraded twice in one block, and back later. -/
def upgradedLogs : List EvmLog :=
  [upgradedLog 0x22 15 7, upgradedLog 0x33 15 3, upgradedLog 0x33 18 1]

theorem followsUpgrades_upgradedLogs :
    FollowsUpgrades implementationHashes upgradedLogs
      (slotAfter upgradedLogs (implementationWord 0x22)) (fun _ _ => [0x60, 0x00])
      (implementationWord 0x22) where
  targets log log_mem := by
    simp only [upgradedLogs, List.mem_cons, List.not_mem_nil, or_false] at log_mem
    rcases log_mem with rfl | rfl | rfl <;> exact ⟨_, rfl, List.cons_ne_nil _ _⟩
  slot _ := rfl

/-- The slot of the same proxy, with an upgrade in block 20 that no event announces. -/
def silentStorage (block : ℕ) : Bytes :=
  if block = 20 then implementationWord 0x22
  else slotAfter upgradedLogs (implementationWord 0x22) block

end Samples

/-- Upgrades there and back are told, and an upgrade without an event is refused. -/
theorem upgradedProxy_agreesWithStorage :
    (∃ result final,
      (∀ rounds > 143, standardResolver.history implementationHashes
        (chainPorts upgradedLogs (slotAfter upgradedLogs (implementationWord 0x22))) rounds
          proxyText (10 : ℕ) (20 : ℕ) () = some (.ok result, final)) ∧
      ∃ implementation, TellsAt result 16 implementation) ∧
    ∃ message final, ∀ rounds > 143, standardResolver.history implementationHashes
      (chainPorts upgradedLogs silentStorage) rounds proxyText (10 : ℕ) (20 : ℕ) () =
        some (.error (.invalidProxyEvidence message), final) := by
  have most : standardResolver.scanner.mostQueries 10 20 = 143 := by decide
  have checksummed : implementationHashes.toChecksumAddress proxyText = .ok proxyText := rfl
  have told := (history_agreesWithStorage standardResolver (answers_chainPorts proxyText
    [some (upgradedTopic implementationHashes)] upgradedLogs
    (slotAfter upgradedLogs (implementationWord 0x22))) checksummed (show 0 < 10 by decide)
    (show 10 ≤ 20 by decide) ()).1 _ followsUpgrades_upgradedLogs ⟨_, rfl⟩
  have refused := (history_agreesWithStorage standardResolver (answers_chainPorts proxyText
    [some (upgradedTopic implementationHashes)] upgradedLogs silentStorage) checksummed
    (show 0 < 10 by decide) (show 10 ≤ 20 by decide) ()).2 (by decide +kernel)
  rw [most] at told refused
  rcases told with ⟨result, final, returned, tells⟩
  rcases tells 16 (by decide) (by decide) with ⟨implementation, _, tells⟩
  exact ⟨⟨result, final, returned, implementation, tells⟩, refused⟩

/-- A slot that begins with a word that is no address is refused, although it agrees with it. -/
theorem foreignWord_isRefused :
    ¬∀ (resolver : Eip1967ImplementationResolver) (primitives : Primitives)
      (ports : ProxyPorts Unit) (address checksum : Text) (logs : List EvmLog)
      (storage : ℕ → Bytes) (codes : Text → ℕ → Bytes) (startBlock endBlock : ℕ)
      (initial : Bytes),
      ports.Answers checksum [some (upgradedTopic primitives)] logs storage codes →
      primitives.toChecksumAddress address = .ok checksum → 0 < startBlock →
      startBlock ≤ endBlock → initial.length = 32 →
      FollowsUpgrades primitives logs storage codes initial →
      ∃ rounds result final,
        resolver.history primitives ports rounds address startBlock endBlock () =
          some (.ok result, final) := by
  intro claimed
  let foreign : Bytes := List.replicate 32 0xff
  rcases claimed standardResolver implementationHashes (chainPorts [] fun _ => foreign) proxyText
    proxyText [] (fun _ => foreign) (fun _ _ => [0x60, 0x00]) 10 20 foreign
    (answers_chainPorts _ _ _ _) rfl (by decide) (by decide) rfl
    ⟨fun _ impossible => absurd impossible List.not_mem_nil, fun _ => rfl⟩ with
    ⟨rounds, result, final, returned⟩
  rcases history_eq_ok (reports_chainPorts proxyText _ [] fun _ => foreign)
    (show implementationHashes.toChecksumAddress proxyText = .ok proxyText from rfl) returned with
    ⟨baseline, facts⟩
  have read := facts.before
  cases read

end Eip1967ImplementationResolver

end CopyMint
