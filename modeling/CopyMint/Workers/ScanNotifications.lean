import CopyMint.Access.Database
import CopyMint.Ethereum.Subscriptions
import CopyMint.Library.Interleaving

/-!
# Scan notifications

A tracker reads the scan of a collection, stores the report that it is going to make
of it as the last one, commits, and only then sends its message. Trackers of the same
subscription read without a lock, and a report that was once stored is not made
again by those who read it.

A report is therefore lost when its message is, and it is made twice when two trackers
have read the one before it, or when the scan comes back to it. In the runs in which the
scan comes back to no state, trackers do not overtake each other and messages arrive,
every stored report is delivered exactly once.
-/

namespace CopyMint

open Hexadecimal Relational Interleaving

/-- The value of a status in the database and in messages. -/
def CollectionScanStatus.value : CollectionScanStatus → Text
  | .pending => "pending".toList
  | .scanning => "scanning".toList
  | .complete => "complete".toList
  | .failed => "failed".toList
  | .qualityWarning => "quality_warning".toList

/-- The row of the join that a tracker reads. -/
structure TrackedScan where
  subscription : WorkspaceCollection
  collection : Collection
  job : Option ScanJob
  checkpoint : Option ScanCheckpoint
  destination : NotificationDestination

namespace TrackedScan

variable (row : TrackedScan)

/-- How much of the range is committed. -/
def percent : ℤ :=
  match row.job with
  | none => 0
  | some job =>
      let position : ℤ :=
        match row.checkpoint with
        | some checkpoint => checkpoint.lastCommittedBlockNumber
        | none => job.startBlock - 1
      let span : ℤ := max 1 (job.endBlock - job.startBlock + 1)
      min 100 (max 0 (position - job.startBlock + 1) * 100 / span)

/-- The warnings of the job, if there is one. -/
def warnings : List String :=
  match row.job with
  | none => []
  | some job => job.qualityWarnings

/-- The scan has come to its end. -/
def terminal : Bool := row.collection.scanStatus.isTerminal

/-- The report about a scan. -/
def report : ScanReport where
  milestone := if row.terminal then 100 else row.percent / 25 * 25
  status := row.collection.scanStatus
  warnings := row.warnings

/-- The label behind the address. -/
def labelText : Text :=
  match row.subscription.label with
  | some (first :: rest) => " (".toList ++ (first :: rest) ++ ")".toList
  | _ => []

/-- The text of a message. -/
def message : Text :=
  let progress := "Collection scan ".toList ++ row.collection.scanStatus.value ++ ": ".toList ++
    row.collection.checksumAddress ++ row.labelText ++ "\nProgress: ".toList ++
    Json.decimal row.report.milestone ++ "%".toList
  if row.warnings.isEmpty then progress
  else progress ++ "\nQuality warning: ".toList ++ (String.intercalate ", " row.warnings).toList

end TrackedScan

/-- A report that is to be made to a destination. -/
structure ReportDelivery where
  report : ScanReport
  destination : NotificationDestination
  message : Text
  deriving DecidableEq

/--
The tables, the states in which trackers have found the scan so far, each once and in the
order in which it was found first, the reports that have been stored as the last one, and
the messages that have reached their chats.
-/
structure NotificationStore where
  db : Database
  subscriptions : List WorkspaceCollection
  destinations : List NotificationDestination
  observed : List ScanReport
  reports : List ScanReport
  deliveries : List ReportDelivery

variable (workspaceId collectionId : ℕ)

/-- An enabled private destination of the workspace. -/
def NotificationDestination.isEligible (destination : NotificationDestination) : Bool :=
  destination.workspaceId = workspaceId && destination.enabled &&
    destination.chatType = "private".toList

/-- The rows of the join, one for each destination. -/
def NotificationStore.trackedScans (store : NotificationStore) : List TrackedScan :=
  match lookup WorkspaceCollection.key (workspaceId, collectionId) store.subscriptions,
      store.db.collection collectionId with
  | some subscription, some collection =>
      if subscription.active then
        (store.destinations.filter fun row => row.isEligible workspaceId).map fun destination =>
          { subscription
            collection
            job := store.db.job collectionId
            checkpoint := store.db.checkpoint collectionId 1
            destination }
      else []
  | _, _ => []

/-- A tracker finds the scan in a state. -/
def NotificationStore.observe (store : NotificationStore) (report : ScanReport) :
    NotificationStore :=
  if report ∈ store.observed then store
  else { store with observed := store.observed ++ [report] }

/-- The report that the subscription holds as the last one. -/
def NotificationStore.lastReport (store : NotificationStore) : Option ScanReport :=
  (lookup WorkspaceCollection.key (workspaceId, collectionId) store.subscriptions).bind
    fun row => row.notificationSettings.lastScanReport

/-- Store a report as the last one, next to the settings that have been read. -/
def NotificationStore.storeReport (store : NotificationStore) (settings : NotificationSettings)
    (report : ScanReport) : NotificationStore :=
  { store with
    subscriptions := updateWhere (fun row => row.key = (workspaceId, collectionId))
      (fun row => { row with notificationSettings := { settings with lastScanReport := some report } })
      store.subscriptions
    reports := store.reports ++ [report] }

/-- How far an execution of `track_scan` has come. -/
inductive TrackPhase where
  | idle
  | storing (settings : NotificationSettings) (delivery : ReportDelivery) (terminal : Bool)
  | sending (delivery : ReportDelivery) (terminal : Bool)
  | returned (terminal : Bool)
  | failed
  deriving DecidableEq

/-- What a tracker or its surroundings do next. -/
inductive TrackEvent where
  /-- The scan, the destinations and the labels are changed by others. -/
  | environment (db : Database) (destinations : List NotificationDestination)
  /-- The query returns the first of its rows, in an order that it leaves open. -/
  | read (position : ℕ)
  | commit
  /-- Telegram delivers the message or not, and its answer may get lost. -/
  | send (delivered answered : Bool)
  | stop

/-- An action of a tracker. One that has returned no final state is run again later. -/
def trackStep (store : NotificationStore) :
    TrackPhase → TrackEvent → Option (NotificationStore × TrackPhase)
  | .idle, .environment db destinations => some ({ store with db, destinations }, .idle)
  | .idle, .read position =>
      match store.trackedScans workspaceId collectionId with
      | [] => some (store, .returned true)
      | first :: others =>
          match (first :: others)[position]? with
          | none => none
          | some row =>
              let store := store.observe row.report
              if row.subscription.notificationSettings.lastScanReport = some row.report then
                some (store, .returned row.terminal)
              else
                some (store, .storing row.subscription.notificationSettings
                  ⟨row.report, row.destination, row.message⟩ row.terminal)
  | .storing settings delivery terminal, .commit =>
      some (store.storeReport workspaceId collectionId settings delivery.report,
        .sending delivery terminal)
  | .sending delivery terminal, .send delivered answered =>
      let deliveries := if delivered then store.deliveries ++ [delivery] else store.deliveries
      some ({ store with deliveries }, if answered then .returned terminal else .failed)
  | .storing _ _ _, .stop | .sending _ _, .stop => some (store, .failed)
  | _, _ => none

/-- Trackers of one subscription as a program. -/
def trackProgram : Program NotificationStore TrackPhase TrackEvent where
  step := trackStep workspaceId collectionId

/-- The tracker has read a scan and has not come to its end. -/
def TrackPhase.isRunning : TrackPhase → Bool
  | .storing _ _ _ | .sending _ _ => true
  | _ => false

/-- No report has been made of the scan yet, and no tracker is running. -/
def untracked (db : Database) (subscriptions : List WorkspaceCollection)
    (destinations : List NotificationDestination) : World NotificationStore TrackPhase :=
  World.uniform
    { db
      subscriptions
      destinations
      observed := []
      reports := []
      deliveries := [] } .idle

/-- How often a report has been delivered. -/
def NotificationStore.deliveryCount (store : NotificationStore) (report : ScanReport) : ℕ :=
  store.deliveries.countP fun delivery => delivery.report = report

/-- What a transition of a tracker does. -/
inductive TrackTransition (store : NotificationStore) :
    TrackPhase → TrackEvent → NotificationStore → TrackPhase → Prop
  | changes {db : Database} {destinations : List NotificationDestination} :
      TrackTransition store .idle (.environment db destinations)
        { store with db, destinations } .idle
  | absent {position : ℕ} :
      TrackTransition store .idle (.read position) store (.returned true)
  | known {row : TrackedScan} {position : ℕ}
      (found : (store.trackedScans workspaceId collectionId)[position]? = some row) :
      TrackTransition store .idle (.read position) (store.observe row.report)
        (.returned row.terminal)
  | reads {row : TrackedScan} {position : ℕ}
      (found : (store.trackedScans workspaceId collectionId)[position]? = some row)
      (different : row.subscription.notificationSettings.lastScanReport ≠ some row.report) :
      TrackTransition store .idle (.read position) (store.observe row.report)
        (.storing row.subscription.notificationSettings
          ⟨row.report, row.destination, row.message⟩ row.terminal)
  | commits {settings : NotificationSettings} {delivery : ReportDelivery} {terminal : Bool} :
      TrackTransition store (.storing settings delivery terminal) .commit
        (store.storeReport workspaceId collectionId settings delivery.report)
        (.sending delivery terminal)
  | sends {delivery : ReportDelivery} {terminal delivered answered : Bool} {next : TrackPhase}
      (ended : next.isRunning = false) :
      TrackTransition store (.sending delivery terminal) (.send delivered answered)
        { store with
          deliveries := if delivered then store.deliveries ++ [delivery] else store.deliveries }
        next
  | stops {phase : TrackPhase} (running : phase.isRunning = true) :
      TrackTransition store phase .stop store .failed

variable {workspaceId collectionId}

/-- A row of the join has the subscription, and goes to an eligible destination. -/
theorem subscribed_of_mem_trackedScans {store : NotificationStore} {row : TrackedScan}
    (row_mem : row ∈ store.trackedScans workspaceId collectionId) :
    lookup WorkspaceCollection.key (workspaceId, collectionId) store.subscriptions =
        some row.subscription ∧ row.destination.isEligible workspaceId = true := by
  unfold NotificationStore.trackedScans at row_mem
  split at row_mem
  · rename_i found _
    split_ifs at row_mem
    · rcases List.mem_map.mp row_mem with ⟨destination, destination_mem, rfl⟩
      exact ⟨found, (List.mem_filter.mp destination_mem).2⟩
    · exact absurd row_mem List.not_mem_nil
  · exact absurd row_mem List.not_mem_nil

theorem trackTransition_of_step {store after : NotificationStore} {phase next : TrackPhase}
    {event : TrackEvent}
    (stepped : trackStep workspaceId collectionId store phase event = some (after, next)) :
    TrackTransition workspaceId collectionId store phase event after next := by
  unfold trackStep at stepped
  split at stepped
  · cases stepped
    exact .changes
  · split at stepped
    · cases stepped
      exact .absent
    · rename_i first others rows
      split at stepped
      · cases stepped
      · rename_i row found
        rw [← rows] at found
        dsimp only at stepped
        split_ifs at stepped with same
        · cases stepped
          exact .known found
        · cases stepped
          exact .reads found same
  · cases stepped
    exact .commits
  · cases stepped
    refine .sends ?_
    split_ifs <;> rfl
  · cases stepped
    exact .stops rfl
  · cases stepped
    exact .stops rfl
  · cases stepped

variable (workspaceId collectionId) in
/--
The circumstances that trackers rely on. A tracker finds the scan in a state in which no
tracker has found it before, or else in the one that was found last; no other tracker has
committed since it read the last report when it commits its own; and once it has committed,
its message arrives.
-/
def relied (store : NotificationStore) : TrackPhase → TrackEvent → Bool
  | .idle, .read position =>
      ((store.trackedScans workspaceId collectionId)[position]?).all fun row =>
        row.report ∉ store.observed || store.observed.getLast? = some row.report
  | .storing settings _ _, .commit =>
      store.lastReport workspaceId collectionId = settings.lastScanReport
  | .sending _ _, .send delivered _ => delivered
  | .sending _ _, _ => false
  | _, _ => true

variable (workspaceId collectionId) in
/-- The circumstances under which no report is lost and none is repeated. -/
def Relied : Condition NotificationStore TrackPhase TrackEvent :=
  fun world index event =>
    relied workspaceId collectionId world.store (world.process index) event = true

instance (world : World NotificationStore TrackPhase) (index : ℕ) (event : TrackEvent) :
    Decidable (Relied workspaceId collectionId world index event) :=
  inferInstanceAs (Decidable (_ = true))

/-- The tracker is about to send the message of a report. -/
def TrackPhase.Sends (report : ScanReport) : TrackPhase → Prop
  | .sending delivery _ => delivery.report = report
  | _ => False

/-- A tracker makes its report to an enabled private destination of the workspace. -/
def TrackPhase.Eligible (workspaceId : ℕ) : TrackPhase → Prop
  | .storing _ delivery _ | .sending delivery _ =>
      delivery.destination.isEligible workspaceId = true
  | _ => True

/-- A stored report has been delivered once, or else is being sent by one tracker. -/
structure Tracked (workspaceId : ℕ) (world : World NotificationStore TrackPhase) : Prop where
  eligible : ∀ index, (world.process index).Eligible workspaceId
  delivered : ∀ delivery ∈ world.store.deliveries,
    delivery.destination.isEligible workspaceId = true
  recorded : ∀ report ∈ world.store.reports,
    world.store.deliveryCount report = 1 ∨ ∃ index, (world.process index).Sends report
  unrecorded : ∀ report, report ∉ world.store.reports → world.store.deliveryCount report = 0
  inFlight : ∀ index report, (world.process index).Sends report →
    report ∈ world.store.reports ∧ world.store.deliveryCount report = 0
  exclusive : ∀ first second report, (world.process first).Sends report →
    (world.process second).Sends report → first = second

section Order

/--
The reports that have been stored, in the order in which the scan was found in their states:
the last one that was stored is the newest of them.
-/
structure InOrder (workspaceId collectionId : ℕ) (store : NotificationStore) : Prop where
  distinct : store.observed.Nodup
  observed : store.reports ⊆ store.observed
  stored : ∀ report, store.lastReport workspaceId collectionId = some report →
    report ∈ store.reports
  newest : ∀ report ∈ store.reports, ∃ last,
    store.lastReport workspaceId collectionId = some last ∧
      store.observed.idxOf report ≤ store.observed.idxOf last

/-- The report of a tracker is newer than the last one, as long as that is the one it has read. -/
def TrackPhase.Ahead (workspaceId collectionId : ℕ) (store : NotificationStore) :
    TrackPhase → Prop
  | .storing settings delivery _ =>
      (lookup WorkspaceCollection.key (workspaceId, collectionId) store.subscriptions).isSome ∧
        delivery.report ∈ store.observed ∧
          (∀ report, settings.lastScanReport = some report → report ∈ store.reports) ∧
            (store.lastReport workspaceId collectionId = settings.lastScanReport →
              ∀ last, settings.lastScanReport = some last →
                store.observed.idxOf last < store.observed.idxOf delivery.report)
  | _ => True

/-- What has been read of the scan comes in its order, for the store and every tracker. -/
def Orderly (workspaceId collectionId : ℕ) (world : World NotificationStore TrackPhase) : Prop :=
  InOrder workspaceId collectionId world.store ∧
    ∀ index, (world.process index).Ahead workspaceId collectionId world.store

variable {store : NotificationStore} {report : ScanReport}

theorem reports_observe (report : ScanReport) : (store.observe report).reports = store.reports := by
  rw [NotificationStore.observe]
  split_ifs <;> rfl

theorem deliveries_observe (report : ScanReport) :
    (store.observe report).deliveries = store.deliveries := by
  rw [NotificationStore.observe]
  split_ifs <;> rfl

theorem db_observe (report : ScanReport) : (store.observe report).db = store.db := by
  rw [NotificationStore.observe]
  split_ifs <;> rfl

theorem subscriptions_observe (report : ScanReport) :
    (store.observe report).subscriptions = store.subscriptions := by
  rw [NotificationStore.observe]
  split_ifs <;> rfl

theorem lastReport_observe (report : ScanReport) :
    (store.observe report).lastReport workspaceId collectionId =
      store.lastReport workspaceId collectionId := by
  rw [NotificationStore.lastReport, subscriptions_observe, NotificationStore.lastReport]

/-- What has been found keeps its place, and what is found has one. -/
theorem observed_observe (report : ScanReport) :
    store.observed <+: (store.observe report).observed ∧
      report ∈ (store.observe report).observed := by
  rw [NotificationStore.observe]
  split_ifs with found
  · exact ⟨List.prefix_refl _, found⟩
  · exact ⟨List.prefix_append _ _, List.mem_append_right _ (List.mem_singleton_self report)⟩

theorem nodup_observe (distinct : store.observed.Nodup) (report : ScanReport) :
    (store.observe report).observed.Nodup := by
  rw [NotificationStore.observe]
  split_ifs with found
  · exact distinct
  · simpa [List.nodup_append] using
      ⟨distinct, fun other other_mem => ne_of_mem_of_not_mem other_mem found⟩

theorem idxOf_observe {other : ScanReport} (other_mem : other ∈ store.observed) :
    (store.observe report).observed.idxOf other = store.observed.idxOf other := by
  have kept : store.observed <+: (store.observe report).observed := (observed_observe report).1
  rcases kept with ⟨rest, whole⟩
  rw [← whole, List.idxOf_append_of_mem other_mem]

/-- A state that the scan is found in now is newer than every other. -/
theorem idxOf_lt_observe {other : ScanReport} (distinct : store.observed.Nodup)
    (current : report ∉ store.observed ∨ store.observed.getLast? = some report)
    (other_mem : other ∈ store.observed) (different : other ≠ report) :
    (store.observe report).observed.idxOf other < (store.observe report).observed.idxOf report := by
  rw [idxOf_observe other_mem]
  have other_lt := List.idxOf_lt_length_of_mem other_mem
  rcases current with new | last
  · have place : (store.observe report).observed.idxOf report = store.observed.length := by
      rw [NotificationStore.observe, if_neg new, List.idxOf_append_of_notMem new]
      simp
    rw [place]
    exact other_lt
  · have report_mem := List.mem_of_getLast? last
    rw [idxOf_observe report_mem]
    have place : store.observed.idxOf report = store.observed.length - 1 := by
      rw [List.getLast?_eq_getElem?, List.getElem?_eq_some_iff] at last
      rcases last with ⟨bound, rfl⟩
      exact distinct.idxOf_getElem _ bound
    have apart : store.observed.idxOf other ≠ store.observed.idxOf report :=
      fun same => different ((List.idxOf_inj other_mem).mp same)
    omega

/-- Commits of other trackers aside, what a tracker is going to store was never stored. -/
theorem InOrder.new (inOrder : InOrder workspaceId collectionId store)
    {settings : NotificationSettings} {delivery : ReportDelivery} {terminal : Bool}
    (ahead : (TrackPhase.storing settings delivery terminal).Ahead workspaceId collectionId store)
    (unchanged : store.lastReport workspaceId collectionId = settings.lastScanReport) :
    delivery.report ∉ store.reports := by
  intro stored
  rcases inOrder.newest _ stored with ⟨last, last_eq, le⟩
  have lt := ahead.2.2.2 unchanged last (unchanged.symm.trans last_eq)
  omega

theorem InOrder.observe (inOrder : InOrder workspaceId collectionId store) (report : ScanReport) :
    InOrder workspaceId collectionId (store.observe report) where
  distinct := nodup_observe inOrder.distinct report
  observed := by
    rw [reports_observe]
    exact List.Subset.trans inOrder.observed (observed_observe report).1.subset
  stored := by
    simpa only [lastReport_observe, reports_observe] using inOrder.stored
  newest := by
    intro other other_mem
    rw [reports_observe] at other_mem
    rcases inOrder.newest other other_mem with ⟨last, last_eq, le⟩
    refine ⟨last, (lastReport_observe report).trans last_eq, ?_⟩
    rwa [idxOf_observe (inOrder.observed other_mem),
      idxOf_observe (inOrder.observed (inOrder.stored last last_eq))]

/-- A report that has been committed is the last one. -/
theorem lastReport_storeReport (settings : NotificationSettings)
    (subscribed : (lookup WorkspaceCollection.key (workspaceId, collectionId)
      store.subscriptions).isSome) (report : ScanReport) :
    (store.storeReport workspaceId collectionId settings report).lastReport workspaceId
      collectionId = some report := by
  rcases Option.isSome_iff_exists.mp subscribed with ⟨row, found⟩
  have selected : decide (row.key = (workspaceId, collectionId)) = true :=
    decide_eq_true (lookup_eq_some_mem found).2
  rw [NotificationStore.lastReport, NotificationStore.storeReport,
    lookup_updateWhere_selected ?kept found selected]
  · rfl
  · exact fun _ => rfl

theorem InOrder.commit (inOrder : InOrder workspaceId collectionId store)
    {settings : NotificationSettings} {delivery : ReportDelivery} {terminal : Bool}
    (ahead : (TrackPhase.storing settings delivery terminal).Ahead workspaceId collectionId store)
    (unchanged : store.lastReport workspaceId collectionId = settings.lastScanReport) :
    InOrder workspaceId collectionId
      (store.storeReport workspaceId collectionId settings delivery.report) := by
  have last_eq := lastReport_storeReport settings ahead.1 delivery.report
  refine ⟨inOrder.distinct, ?_, ?_, ?_⟩
  · refine List.append_subset.mpr ⟨inOrder.observed, ?_⟩
    exact List.cons_subset.mpr ⟨ahead.2.1, List.nil_subset _⟩
  · intro report same
    cases last_eq.symm.trans same
    exact List.mem_append_right _ (List.mem_singleton_self _)
  · intro report report_mem
    refine ⟨_, last_eq, ?_⟩
    rcases List.mem_append.mp report_mem with old | new
    · rcases inOrder.newest report old with ⟨last, found, le⟩
      exact le.trans (ahead.2.2.2 unchanged last (unchanged.symm.trans found)).le
    · rw [List.mem_singleton.mp new]

/-- What one action of a tracker does, and what the other trackers are left with. -/
theorem TrackTransition.orderly {after : NotificationStore} {phase next : TrackPhase}
    {event : TrackEvent}
    (moved : TrackTransition workspaceId collectionId store phase event after next)
    (inOrder : InOrder workspaceId collectionId store)
    (ahead : phase.Ahead workspaceId collectionId store)
    (relies : relied workspaceId collectionId store phase event = true) :
    InOrder workspaceId collectionId after ∧ next.Ahead workspaceId collectionId after ∧
      ∀ other : TrackPhase, other.Ahead workspaceId collectionId store →
        other.Ahead workspaceId collectionId after := by
  have observed : ∀ report, ∀ other : TrackPhase, other.Ahead workspaceId collectionId store →
      other.Ahead workspaceId collectionId (store.observe report) := by
    intro report other holds
    cases other with
    | storing settings delivery terminal =>
        rcases holds with ⟨subscribed, found, read, newer⟩
        refine ⟨?_, (observed_observe report).1.subset found, ?_, ?_⟩
        · rwa [subscriptions_observe]
        · rwa [reports_observe]
        · intro unchanged last last_eq
          rw [lastReport_observe] at unchanged
          rw [idxOf_observe found, idxOf_observe (inOrder.observed (read last last_eq))]
          exact newer unchanged last last_eq
    | _ => trivial
  cases moved with
  | changes => exact ⟨⟨inOrder.1, inOrder.2, inOrder.3, inOrder.4⟩, trivial, fun _ holds => holds⟩
  | absent => exact ⟨inOrder, trivial, fun _ holds => holds⟩
  | known => exact ⟨inOrder.observe _, trivial, observed _⟩
  | @reads row position found different =>
      have subscribed := (subscribed_of_mem_trackedScans (List.mem_of_getElem? found)).1
      have last_eq : store.lastReport workspaceId collectionId =
          row.subscription.notificationSettings.lastScanReport := by
        rw [NotificationStore.lastReport, subscribed]
        rfl
      have current : row.report ∉ store.observed ∨ store.observed.getLast? = some row.report := by
        simpa [relied, found] using relies
      refine ⟨inOrder.observe _, ⟨?_, (observed_observe row.report).2, ?_, ?_⟩, observed _⟩
      · rw [subscriptions_observe, subscribed]
        rfl
      · intro report read
        rw [reports_observe]
        exact inOrder.stored report (last_eq.trans read)
      · intro _ last read
        refine idxOf_lt_observe inOrder.distinct current
          (inOrder.observed (inOrder.stored last (last_eq.trans read))) ?_
        rintro rfl
        exact different read
  | @commits settings delivery terminal =>
      have unchanged := of_decide_eq_true relies
      have new := inOrder.new ahead unchanged
      have last_eq := lastReport_storeReport settings ahead.1 delivery.report
      refine ⟨inOrder.commit ahead unchanged, trivial, fun other holds => ?_⟩
      cases other with
      | storing others otherDelivery _ =>
          rcases holds with ⟨subscribed, found, read, newer⟩
          refine ⟨?_, found, fun report same => List.mem_append_left _ (read report same), ?_⟩
          · rw [NotificationStore.storeReport, lookup_updateWhere, Option.isSome_map]
            · exact subscribed
            · exact fun _ => rfl
          · intro same last read_eq
            -- The other tracker has read a report that was stored before this one.
            cases last_eq.symm.trans (same.trans read_eq)
            exact absurd (read _ read_eq) new
      | _ => trivial
  | sends ended =>
      refine ⟨⟨inOrder.1, inOrder.2, inOrder.3, inOrder.4⟩, ?_, fun _ holds => holds⟩
      cases next with
      | storing => cases ended
      | _ => trivial
  | stops => exact ⟨inOrder, trivial, fun _ holds => holds⟩

theorem Orderly.act {world next : World NotificationStore TrackPhase} {index : ℕ}
    {event : TrackEvent} (orderly : Orderly workspaceId collectionId world)
    (meets : Relied workspaceId collectionId world index event)
    (acted : (trackProgram workspaceId collectionId).act world index event = some next) :
    Orderly workspaceId collectionId next := by
  have moves : ∀ {store : NotificationStore} {phase : TrackPhase},
      (trackProgram workspaceId collectionId).step world.store (world.process index) event =
        some (store, phase) →
      InOrder workspaceId collectionId store ∧ phase.Ahead workspaceId collectionId store ∧
        ∀ other : TrackPhase, other.Ahead workspaceId collectionId world.store →
          other.Ahead workspaceId collectionId store :=
    fun stepped => (trackTransition_of_step stepped).orderly orderly.1 (orderly.2 index) meets
  exact Program.act_local (InOrder workspaceId collectionId)
    (fun store phase => phase.Ahead workspaceId collectionId store) acted
    (fun stepped => ⟨(moves stepped).1, (moves stepped).2.1⟩)
    (fun stepped holds => (moves stepped).2.2 _ holds) orderly.2

end Order

section Preservation

variable {world : World NotificationStore TrackPhase} {index : ℕ}
  {store after : NotificationStore} {next : TrackPhase} {event : TrackEvent}

@[simp]
theorem deliveryCount_concat (deliveries : List ReportDelivery) (delivery : ReportDelivery)
    (report : ScanReport) :
    NotificationStore.deliveryCount { store with deliveries := deliveries ++ [delivery] } report =
      NotificationStore.deliveryCount { store with deliveries } report +
        if delivery.report = report then 1 else 0 := by
  simp [NotificationStore.deliveryCount, List.countP_append, List.countP_singleton]

/-- A tracker that starts or ends without sending leaves what is stored and sent alone. -/
theorem Tracked.quiet (tracked : Tracked workspaceId world)
    (reports : after.reports = world.store.reports)
    (deliveries : after.deliveries = world.store.deliveries)
    (eligible : next.Eligible workspaceId)
    (before : ∀ report, ¬(world.process index).Sends report)
    (silent : ∀ report, ¬next.Sends report) :
    Tracked workspaceId ⟨after, Function.update world.process index next⟩ := by
  have count : ∀ report, after.deliveryCount report = world.store.deliveryCount report := by
    intro report
    simp only [NotificationStore.deliveryCount, deliveries]
  have sends : ∀ other report,
      (Function.update world.process index next other).Sends report ↔
        (world.process other).Sends report := by
    intro other report
    by_cases same : other = index
    · subst same
      simp only [Function.update_self, before report, silent report]
    · rw [Function.update_of_ne same]
  constructor
  · intro other
    by_cases same : other = index
    · subst same
      simpa using eligible
    · simpa [Function.update_of_ne same] using tracked.eligible other
  · simpa only [deliveries] using tracked.delivered
  · simpa only [reports, count, sends] using tracked.recorded
  · simpa only [reports, count] using tracked.unrecorded
  · simpa only [reports, count, sends] using tracked.inFlight
  · simpa only [sends] using tracked.exclusive

/-- A report that was never stored before is now stored, and is being sent by one tracker. -/
theorem Tracked.commit (tracked : Tracked workspaceId world) {settings : NotificationSettings}
    {delivery : ReportDelivery} {terminal : Bool}
    (storing : world.process index = .storing settings delivery terminal)
    (new : delivery.report ∉ world.store.reports) :
    Tracked workspaceId
      ⟨world.store.storeReport workspaceId collectionId settings delivery.report,
        Function.update world.process index (.sending delivery terminal)⟩ := by
  have eligible := tracked.eligible index
  simp only [storing, TrackPhase.Eligible] at eligible
  have unsent : ∀ other, ¬(world.process other).Sends delivery.report := by
    intro other sends
    exact new (tracked.inFlight other _ sends).1
  constructor
  · intro other
    by_cases same : other = index
    · subst same
      simpa [TrackPhase.Eligible] using eligible
    · simpa [Function.update_of_ne same] using tracked.eligible other
  · exact tracked.delivered
  · intro report report_mem
    rcases List.mem_append.mp report_mem with old | added
    · rcases tracked.recorded report old with delivered | ⟨other, sends⟩
      · exact .inl delivered
      · right
        refine ⟨other, ?_⟩
        have different : other ≠ index := by
          rintro rfl
          rw [storing] at sends
          exact sends
        simpa [Function.update_of_ne different] using sends
    · rw [List.mem_singleton] at added
      right
      exact ⟨index, by simp [TrackPhase.Sends, added]⟩
  · intro report absent
    exact tracked.unrecorded report fun old => absent (List.mem_append_left _ old)
  · intro other report sends
    by_cases same : other = index
    · subst same
      simp only [Function.update_self, TrackPhase.Sends] at sends
      subst sends
      exact ⟨by simp [NotificationStore.storeReport], tracked.unrecorded _ new⟩
    · simp only [Function.update_of_ne same] at sends
      have earlier := tracked.inFlight other report sends
      exact ⟨List.mem_append_left _ earlier.1, earlier.2⟩
  · intro first second report firstSends secondSends
    refine exclusive_update (fun left right => left.Sends report ∧ right.Sends report)
      And.symm world.process ?_ ?_ ⟨firstSends, secondSends⟩
    · rintro other - ⟨sends, otherSends⟩
      simp only [TrackPhase.Sends] at sends
      exact unsent other (sends ▸ otherSends)
    · rintro left right ⟨leftSends, rightSends⟩
      exact tracked.exclusive left right report leftSends rightSends

/-- The message of a stored report has arrived, and nobody else is going to send it. -/
theorem Tracked.send (tracked : Tracked workspaceId world) {delivery : ReportDelivery}
    {terminal : Bool} (sending : world.process index = .sending delivery terminal)
    (ended : next.isRunning = false) :
    Tracked workspaceId
      ⟨{ world.store with deliveries := world.store.deliveries ++ [delivery] },
        Function.update world.process index next⟩ := by
  have sends : (world.process index).Sends delivery.report := by
    rw [sending]
    rfl
  have inFlight := tracked.inFlight index _ sends
  have silent : ∀ report, ¬next.Sends report := by
    intro report nextSends
    cases next with
    | sending => cases ended
    | _ => exact nextSends
  have others : ∀ other report,
      (Function.update world.process index next other).Sends report →
        other ≠ index ∧ (world.process other).Sends report ∧ delivery.report ≠ report := by
    intro other report otherSends
    have different : other ≠ index := by
      rintro rfl
      rw [Function.update_self] at otherSends
      exact silent report otherSends
    rw [Function.update_of_ne different] at otherSends
    refine ⟨different, otherSends, ?_⟩
    rintro rfl
    exact different (tracked.exclusive other index _ otherSends sends)
  constructor
  · intro other
    by_cases same : other = index
    · subst same
      simp only [Function.update_self]
      cases next with
      | storing | sending => cases ended
      | _ => trivial
    · simpa [Function.update_of_ne same] using tracked.eligible other
  · intro sent sent_mem
    rcases List.mem_append.mp sent_mem with old | new
    · exact tracked.delivered sent old
    · rw [List.mem_singleton] at new
      have eligible := tracked.eligible index
      rw [sending] at eligible
      exact new ▸ eligible
  · intro report report_mem
    rw [deliveryCount_concat]
    split_ifs with same
    · left
      rw [← same]
      exact congrArg (· + 1) inFlight.2
    · rcases tracked.recorded report report_mem with delivered | ⟨other, otherSends⟩
      · exact .inl delivered
      · right
        have different : other ≠ index := by
          rintro rfl
          rw [sending] at otherSends
          exact same otherSends
        exact ⟨other, by simpa [Function.update_of_ne different] using otherSends⟩
  · intro report absent
    have different : delivery.report ≠ report := by
      rintro rfl
      exact absent inFlight.1
    rw [deliveryCount_concat, if_neg different]
    exact tracked.unrecorded report absent
  · intro other report otherSends
    rcases others other report otherSends with ⟨_, before, different⟩
    rw [deliveryCount_concat, if_neg different]
    exact tracked.inFlight other report before
  · intro first second report firstSends secondSends
    exact tracked.exclusive first second report (others first report firstSends).2.1
      (others second report secondSends).2.1

theorem Tracked.act {world next : World NotificationStore TrackPhase} {index : ℕ}
    {event : TrackEvent} (tracked : Tracked workspaceId world)
    (orderly : Orderly workspaceId collectionId world)
    (meets : Relied workspaceId collectionId world index event)
    (acted : (trackProgram workspaceId collectionId).act world index event = some next) :
    Tracked workspaceId next := by
  rcases Program.act_eq_some_iff.mp acted with ⟨store, phase, stepped, rfl⟩
  have moved := trackTransition_of_step stepped
  have ahead := orderly.2 index
  simp only [Relied] at meets
  generalize own : world.process index = before at moved meets ahead
  cases moved with
  | changes | absent =>
      exact tracked.quiet rfl rfl trivial (by simp [own, TrackPhase.Sends])
        (by simp [TrackPhase.Sends])
  | known =>
      exact tracked.quiet (reports_observe _) (deliveries_observe _) trivial
        (by simp [own, TrackPhase.Sends]) (by simp [TrackPhase.Sends])
  | reads found =>
      exact tracked.quiet (reports_observe _) (deliveries_observe _)
        (subscribed_of_mem_trackedScans (List.mem_of_getElem? found)).2
        (by simp [own, TrackPhase.Sends]) (by simp [TrackPhase.Sends])
  | commits => exact tracked.commit own (orderly.1.new ahead (of_decide_eq_true meets))
  | @sends delivery terminal delivered answered _ ended =>
      have arrives : delivered = true := meets
      subst arrives
      exact tracked.send own ended
  | stops running =>
      refine tracked.quiet rfl rfl trivial ?_ (by simp [TrackPhase.Sends])
      intro report sends
      rw [own] at sends
      cases before with
      | sending => cases meets
      | _ => exact sends

end Preservation

section Runs

variable {db : Database} {subscriptions : List WorkspaceCollection}
  {destinations : List NotificationDestination}

theorem tracked_untracked :
    Tracked workspaceId (untracked db subscriptions destinations) where
  eligible := fun _ => trivial
  delivered := by simp [untracked]
  recorded := by simp [untracked]
  unrecorded := by simp [untracked, NotificationStore.deliveryCount]
  inFlight := by simp [untracked, TrackPhase.Sends]
  exclusive := by simp [untracked, TrackPhase.Sends]

theorem orderly_untracked
    (fresh : (untracked db subscriptions destinations).store.lastReport workspaceId
      collectionId = none) :
    Orderly workspaceId collectionId (untracked db subscriptions destinations) := by
  refine ⟨⟨List.nodup_nil, fun _ report_mem => absurd report_mem List.not_mem_nil, ?_, ?_⟩,
    fun _ => trivial⟩
  · intro report last
    cases fresh.symm.trans last
  · exact fun _ report_mem => absurd report_mem List.not_mem_nil

/--
In every run in which the scan comes back to no state, trackers do not overtake each other
and messages arrive, the reports that are stored when no tracker is running have been
delivered exactly once.
-/
theorem reports_deliveredOnce {world : World NotificationStore TrackPhase}
    (fresh : (untracked db subscriptions destinations).store.lastReport workspaceId
      collectionId = none)
    (run : (trackProgram workspaceId collectionId).Reaches (Relied workspaceId collectionId)
      (untracked db subscriptions destinations) world)
    (quiet : ∀ index, (world.process index).isRunning = false) :
    (∀ report ∈ world.store.reports, world.store.deliveryCount report = 1) ∧
      ∀ delivery ∈ world.store.deliveries, delivery.report ∈ world.store.reports ∧
        delivery.destination.isEligible workspaceId = true := by
  have holds : Orderly workspaceId collectionId world ∧ Tracked workspaceId world :=
    run.invariant (fun world => Orderly workspaceId collectionId world ∧ Tracked workspaceId world)
      (fun holds meets acted => ⟨holds.1.act meets acted, holds.2.act holds.1 meets acted⟩)
      ⟨orderly_untracked fresh, tracked_untracked⟩
  have tracked := holds.2
  constructor
  · intro report report_mem
    rcases tracked.recorded report report_mem with delivered | ⟨index, sends⟩
    · exact delivered
    · have idle := quiet index
      cases phase : world.process index with
      | sending => simp [phase, TrackPhase.isRunning] at idle
      | _ => simp [phase, TrackPhase.Sends] at sends
  · intro delivery delivery_mem
    refine ⟨?_, tracked.delivered delivery delivery_mem⟩
    by_contra absent
    have none := tracked.unrecorded _ absent
    rw [NotificationStore.deliveryCount, List.countP_eq_zero] at none
    simpa using none delivery delivery_mem

end Runs

section Samples

/-- The sample collection with a status. -/
def sampleCollection (scanStatus : CollectionScanStatus) : Collection where
  id := 5
  checksumAddress := "0x00".toList
  deploymentBlockNumber := none
  deploymentBlockHash := none
  deploymentConfidence := .unknown
  deploymentConfidenceValue := 0
  scanStatus

/-- The scan of the sample collection, without a job. -/
def sampleScan (scanStatus : CollectionScanStatus) : Database :=
  ⟨[sampleCollection scanStatus], [], [], [], [], 0⟩

/-- The subscription of the first workspace. -/
def sampleSubscription : WorkspaceCollection where
  id := 6
  workspaceId := 1
  collectionId := 5
  label := none
  addedByUserId := 7
  notificationSettings := {}
  active := true

/-- The private chat of the user. -/
def sampleDestination : NotificationDestination := ⟨8, 1, 1001, "private".toList, true⟩

/-- Nobody tracks the scan yet. -/
def sampleTracking : World NotificationStore TrackPhase :=
  untracked (sampleScan .pending) [sampleSubscription] [sampleDestination]

/-- A tracker whose message fails after its report was stored, and the one that is run later. -/
def failedMessage : List (ℕ × TrackEvent) :=
  [(0, .read 0), (0, .commit), (0, .send false false), (1, .read 0)]

/-- The same scan is reported before and after it completes. -/
def reportedScan : List (ℕ × TrackEvent) :=
  [(0, .read 0), (0, .commit), (0, .send true true), (1, .read 0),
    (2, .environment (sampleScan .complete) [sampleDestination]), (2, .read 0), (2, .commit),
    (2, .send true true)]

end Samples

theorem reportedScan_deliveredOnce :
    ∃ world, (trackProgram 1 5).Reaches (Relied 1 5) sampleTracking world ∧
      world.store.reports.length = 2 ∧
      ∀ report ∈ world.store.reports, world.store.deliveryCount report = 1 := by
  have finished : ((trackProgram 1 5).execute sampleTracking reportedScan).map
      (fun world => (world.store.reports.length, decide (∀ index ∈ reportedScan.map Prod.fst,
        (world.process index).isRunning = false))) = some (2, true) := by
    decide +kernel
  have meets : (trackProgram 1 5).Meets (Relied 1 5) sampleTracking reportedScan := by
    decide +kernel
  rcases Option.map_eq_some_iff.mp finished with ⟨world, executed, facts⟩
  rw [Prod.mk.injEq, decide_eq_true_iff] at facts
  have run := Program.reaches_of_execute executed meets
  refine ⟨world, run, facts.1, (reports_deliveredOnce rfl run ?_).1⟩
  exact Program.forall_process_of_execute (fun phase => phase.isRunning = false) executed
    (fun _ => rfl) facts.2

/-- A report whose message fails is never made. -/
theorem failedMessage_losesReport :
    ¬∀ world, (trackProgram 1 5).Reaches Unrestricted sampleTracking world →
      (∀ index, (world.process index).isRunning = false) →
      ∀ report ∈ world.store.reports, world.store.deliveryCount report = 1 := by
  intro claimed
  have finished : ((trackProgram 1 5).execute sampleTracking failedMessage).map
      (fun world => (world.store.reports.map world.store.deliveryCount,
        decide (∀ index ∈ failedMessage.map Prod.fst,
          (world.process index).isRunning = false))) = some ([0], true) := by
    decide +kernel
  rcases Option.map_eq_some_iff.mp finished with ⟨world, executed, facts⟩
  rw [Prod.mk.injEq, decide_eq_true_iff] at facts
  rcases List.map_eq_singleton_iff.mp facts.1 with ⟨report, stored, undelivered⟩
  have quiet := Program.forall_process_of_execute (fun phase => phase.isRunning = false) executed
    (fun _ => rfl) facts.2
  have once := claimed world (Program.reaches_of_execute executed
    (Program.meets_unrestricted _ _)) quiet report (by simp [stored])
  rw [undelivered] at once
  exact absurd once (by decide)

end CopyMint
