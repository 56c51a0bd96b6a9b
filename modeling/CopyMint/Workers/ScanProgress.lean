import CopyMint.Bot.Listings
import CopyMint.Workers.ScanStatus

/-!
# The progress of scans

The percentage of a scan is computed for notifications and for listings. Both say the same
where there is a checkpoint, and a hundred only at the end of the range. A notification
says a hundred also where the status of the collection is final. As long as nothing but
the scans sets the status, the batches that have been committed by then cover the range.
-/

namespace CopyMint

open Hexadecimal Relational Interleaving

/-- The percentage that a notification is made of. -/
def notifiedPercent (startBlock endBlock position : ℤ) : ℤ :=
  let span := max 1 (endBlock - startBlock + 1)
  min 100 (max 0 (position - startBlock + 1) * 100 / span)

/-- What the percentages of a range tell of a checkpoint that is not before it. -/
structure TellsProgress (startBlock endBlock : ℤ) : Prop where
  agree : ∀ checkpoint, startBlock - 1 ≤ checkpoint →
    notifiedPercent startBlock endBlock checkpoint = listedPercent startBlock endBlock checkpoint
  bounds : ∀ checkpoint, startBlock - 1 ≤ checkpoint →
    0 ≤ listedPercent startBlock endBlock checkpoint ∧
      listedPercent startBlock endBlock checkpoint ≤ 100
  increases : ∀ checkpoint later, startBlock - 1 ≤ checkpoint → checkpoint ≤ later →
    listedPercent startBlock endBlock checkpoint ≤ listedPercent startBlock endBlock later
  complete : ∀ checkpoint, startBlock - 1 ≤ checkpoint →
    (listedPercent startBlock endBlock checkpoint = 100 ↔ endBlock ≤ checkpoint)

section Percentages

variable {startBlock endBlock : ℤ}

theorem listedPercent_mono {checkpoint later : ℤ} (le : checkpoint ≤ later) :
    listedPercent startBlock endBlock checkpoint ≤ listedPercent startBlock endBlock later := by
  apply min_le_min_left
  apply Int.ediv_le_ediv
  · exact lt_of_lt_of_le zero_lt_one (le_max_left 1 _)
  · apply mul_le_mul_of_nonneg_right _ (by omega)
    apply max_le_max_left
    omega

theorem listedPercent_eq_hundred_iff (ordered : startBlock ≤ endBlock) {checkpoint : ℤ} :
    listedPercent startBlock endBlock checkpoint = 100 ↔ endBlock ≤ checkpoint := by
  have span : max 1 (endBlock - startBlock + 1) = endBlock - startBlock + 1 := by omega
  have positive : 0 < endBlock - startBlock + 1 := by omega
  simp only [listedPercent, span]
  rw [min_eq_left_iff, Int.le_ediv_iff_mul_le positive]
  omega

theorem tellsProgress (ordered : startBlock ≤ endBlock) : TellsProgress startBlock endBlock where
  agree := fun _ _ => rfl
  bounds := fun _ _ => ⟨listedPercent_nonneg _ _ _, min_le_left _ _⟩
  increases := fun _ _ _ le => listedPercent_mono le
  complete := fun _ _ => listedPercent_eq_hundred_iff ordered

/-- The percentage of a tracked scan that has a job. -/
theorem TrackedScan.percent_eq {row : TrackedScan} {job : ScanJob} (found : row.job = some job) :
    row.percent = notifiedPercent job.startBlock job.endBlock
      (row.checkpoint.elim (job.startBlock - 1) fun checkpoint =>
        checkpoint.lastCommittedBlockNumber) := by
  simp only [percent, found]
  cases row.checkpoint <;> rfl

/-- A tracker reads the job, the checkpoint and the collection together. -/
theorem rows_of_mem_trackedScans {store : NotificationStore} {workspaceId collectionId : ℕ}
    {row : TrackedScan} (row_mem : row ∈ store.trackedScans workspaceId collectionId) :
    row.job = store.db.job collectionId ∧ row.checkpoint = store.db.checkpoint collectionId 1 ∧
      store.db.collection collectionId = some row.collection := by
  unfold NotificationStore.trackedScans at row_mem
  split at row_mem
  · split_ifs at row_mem
    · rcases List.mem_map.mp row_mem with ⟨destination, _, rfl⟩
      exact ⟨rfl, rfl, ‹_›⟩
    · exact absurd row_mem List.not_mem_nil
  · exact absurd row_mem List.not_mem_nil

/-- What a listing says of a collection is the percentage that its tracker has. -/
theorem progressText_of_mem_listScannedCollections {registry : RegistryStore}
    {subscribedAt : ℕ → ℤ} {store : NotificationStore} {workspaceId tracked : ℕ}
    {record : WorkspaceCollectionRecord}
    (listed : record ∈ registry.listScannedCollections subscribedAt store.db workspaceId)
    {row : TrackedScan} (row_mem : row ∈ store.trackedScans tracked record.collectionId)
    {job : ScanJob} (hasJob : row.job = some job) {checkpoint : ScanCheckpoint}
    (hasCheckpoint : row.checkpoint = some checkpoint) :
    record.progressText = " (".toList ++ Json.decimal row.percent ++ "%)".toList := by
  rcases List.mem_map.mp listed with ⟨plain, _, rfl⟩
  rcases rows_of_mem_trackedScans row_mem with ⟨job_eq, checkpoint_eq, _⟩
  have job_found : store.db.job plain.collectionId = some job := job_eq.symm.trans hasJob
  have checkpoint_found : store.db.checkpoint plain.collectionId 1 = some checkpoint :=
    checkpoint_eq.symm.trans hasCheckpoint
  simp only [WorkspaceCollectionRecord.progressText, job_found, Database.committedBlock,
    checkpoint_found, Option.map_some]
  rw [TrackedScan.percent_eq hasJob, hasCheckpoint]
  rfl

end Percentages

section Runs

variable (primitives : Primitives) (collectionId : ℕ)

/-- The tables and notifications, and the ranges of the batches that have been committed. -/
structure ProgressStore where
  notifications : NotificationStore
  batches : List (ℕ × ℕ)

/-- The database that scans and trackers share. -/
def ProgressStore.db (store : ProgressStore) : Database := store.notifications.db

/-- An execution of the scan of the collection, or of the tracker of a workspace. -/
inductive ProgressProcess where
  | scan (phase : ScanPhase)
  | track (workspaceId : ℕ) (phase : TrackPhase)

/-- What an execution or a tracker does next. -/
inductive ProgressEvent where
  | scan (event : ScanEvent)
  | track (event : TrackEvent)

/-- The range of the batch that an execution commits. -/
def committedBatch : ScanPhase → ScanEvent → List (ℕ × ℕ)
  | .scanning _ slice cursor chunk, .batch logs boundary =>
      [(cursor, (scanBatch slice cursor chunk logs boundary).endBlock)]
  | _, _ => []

/-- One action of an execution or a tracker. -/
def progressStep (store : ProgressStore) :
    ProgressProcess → ProgressEvent → Option (ProgressStore × ProgressProcess)
  | .scan phase, .scan event =>
      (scanStep primitives collectionId store.db phase event).map fun (db, next) =>
        (⟨{ store.notifications with db }, store.batches ++ committedBatch phase event⟩,
          .scan next)
  | .track workspaceId phase, .track event =>
      (trackStep workspaceId collectionId store.notifications phase event).map
        fun (notifications, next) => (⟨notifications, store.batches⟩, .track workspaceId next)
  | _, _ => none

/-- Executions and trackers of one collection as a program. -/
def progressProgram : Program ProgressStore ProgressProcess ProgressEvent where
  step := progressStep primitives collectionId

/-- Others leave the scan of the collection alone, apart from adding the collection. -/
structure LeavesScan (before after : Database) : Prop where
  range : after.jobRange collectionId = before.jobRange collectionId
  checkpoint : after.committedBlock collectionId 1 = before.committedBlock collectionId 1
  status : after.scanStatus collectionId = before.scanStatus collectionId ∨
    before.scanStatus collectionId = none ∧ after.scanStatus collectionId = some .pending

/-- The status of the collection is set by its scans only. -/
def StatusFromScans : Condition ProgressStore ProgressProcess ProgressEvent :=
  fun world _ event =>
    match event with
    | .track (.environment db _) => LeavesScan collectionId world.store.db db
    | _ => True

/-- The collection has not been scanned, nothing has been notified, and no process has begun. -/
structure NotBegun (world : World ProgressStore ProgressProcess) : Prop where
  job : world.store.db.job collectionId = none
  checkpoint : world.store.db.committedBlock collectionId 1 = none
  status : ∀ status, world.store.db.scanStatus collectionId = some status →
    status.isTerminal = false
  batches : world.store.batches = []
  deliveries : world.store.notifications.deliveries = []
  processes : ∀ index, world.process index = .scan .idle ∨
    ∃ workspaceId, world.process index = .track workspaceId .idle

/-- Every block of the job's range is in a batch that has been committed. -/
def EveryBlockCommitted (store : ProgressStore) : Prop :=
  ∃ startBlock endBlock, store.db.jobRange collectionId = some (startBlock, endBlock) ∧
    ∀ block, startBlock ≤ block → block ≤ endBlock →
      ∃ batch ∈ store.batches, batch.1 ≤ block ∧ block ≤ batch.2

/-- The report whose message a tracker has made. -/
def TrackPhase.delivery : TrackPhase → Option ReportDelivery
  | .storing _ delivery _ | .sending delivery _ => some delivery
  | .idle | .returned _ | .failed => none

/-- A notification that has been made, whether or not it has been sent. -/
def IsNotification (world : World ProgressStore ProgressProcess) (delivery : ReportDelivery) :
    Prop :=
  delivery ∈ world.store.notifications.deliveries ∨
    ∃ index workspaceId phase, world.process index = .track workspaceId phase ∧
      phase.delivery = some delivery

/-- A notification is made of a row, and says a hundred only when every block is committed. -/
structure IsHonest (store : ProgressStore) (delivery : ReportDelivery) : Prop where
  made : ∃ row : TrackedScan, delivery.report = row.report ∧ delivery.message = row.message
  complete : delivery.report.milestone = 100 → EveryBlockCommitted collectionId store

/-- Every block of the job up to the checkpoint is in a batch. -/
def BatchesCover (db : Database) (batches : List (ℕ × ℕ)) : Prop :=
  ∀ startBlock endBlock committed, db.jobRange collectionId = some (startBlock, endBlock) →
    db.committedBlock collectionId 1 = some committed →
      ∀ block, startBlock ≤ block → block ≤ committed →
        ∃ batch ∈ batches, batch.1 ≤ block ∧ block ≤ batch.2

/-- What holds of the store at all times. -/
structure ProgressInvariant (store : ProgressStore) : Prop where
  ranges : RangeInvariant collectionId store.db
  batches : BatchesCover collectionId store.db store.batches
  terminal : ∀ {status}, store.db.scanStatus collectionId = some status →
    status.isTerminal = true → PhaseInvariant collectionId store.db .finishing
  honest : ∀ delivery ∈ store.notifications.deliveries, IsHonest collectionId store delivery

/-- What a process relies on. -/
def ProgressProcess.Relies (store : ProgressStore) : ProgressProcess → Prop
  | .scan phase => PhaseInvariant collectionId store.db phase
  | .track _ phase => ∀ delivery, phase.delivery = some delivery →
      IsHonest collectionId store delivery

/-- The scan makes progress and no batch is taken back. -/
structure Advances (before after : ProgressStore) : Prop where
  progresses : Progresses collectionId before.db after.db
  batches : before.batches ⊆ after.batches

variable {primitives collectionId}

namespace Advances

variable {before after : ProgressStore} {delivery : ReportDelivery}

theorem refl (store : ProgressStore) : Advances collectionId store store :=
  ⟨.refl _, List.Subset.refl _⟩

theorem everyBlockCommitted (advances : Advances collectionId before after)
    (committed : EveryBlockCommitted collectionId before) :
    EveryBlockCommitted collectionId after := by
  rcases committed with ⟨startBlock, endBlock, range, covered⟩
  refine ⟨startBlock, endBlock, advances.progresses.range range, ?_⟩
  intro block start_le le_end
  rcases covered block start_le le_end with ⟨batch, batch_mem, inside⟩
  exact ⟨batch, advances.batches batch_mem, inside⟩

theorem isHonest (advances : Advances collectionId before after)
    (honest : IsHonest collectionId before delivery) : IsHonest collectionId after delivery :=
  ⟨honest.made, fun complete => advances.everyBlockCommitted (honest.complete complete)⟩

theorem relies (advances : Advances collectionId before after) {process : ProgressProcess}
    (holds : process.Relies collectionId before) : process.Relies collectionId after := by
  cases process with
  | scan phase => exact advances.progresses.phaseInvariant holds
  | track workspaceId phase => exact fun delivery held => advances.isHonest (holds delivery held)

end Advances

section Reading

variable {workspaceId : ℕ}

/-- What is said to be complete is committed up to the end of the range. -/
theorem ProgressInvariant.everyBlockCommitted {store : ProgressStore}
    (holds : ProgressInvariant collectionId store)
    (finishing : PhaseInvariant collectionId store.db .finishing) :
    EveryBlockCommitted collectionId store := by
  rcases finishing with ⟨startBlock, endBlock, range, below⟩
  refine ⟨startBlock, endBlock, range, ?_⟩
  intro block start_le le_end
  rcases below block start_le (Nat.lt_succ_of_le le_end) with ⟨committed, found, le_committed⟩
  exact holds.batches _ _ _ range found block start_le le_committed

theorem TrackedScan.percent_le_hundred (row : TrackedScan) : row.percent ≤ 100 := by
  cases found : row.job with
  | none =>
      simp only [percent, found]
      omega
  | some job =>
      rw [percent_eq found]
      exact min_le_left _ _

/-- A percentage of a hundred means that the checkpoint is at the end of the range. -/
theorem ProgressInvariant.finishing_of_percent {store : ProgressStore}
    (holds : ProgressInvariant collectionId store) {row : TrackedScan}
    (job_eq : row.job = store.db.job collectionId)
    (checkpoint_eq : row.checkpoint = store.db.checkpoint collectionId 1)
    (hundred : row.percent = 100) : PhaseInvariant collectionId store.db .finishing := by
  cases found : row.job with
  | none =>
      rw [TrackedScan.percent, found] at hundred
      cases hundred
  | some job =>
      have range : store.db.jobRange collectionId = some (job.startBlock, job.endBlock) := by
        rw [Database.jobRange, ← job_eq, found]
        rfl
      have ordered : (job.startBlock : ℤ) ≤ job.endBlock :=
        Int.ofNat_le.mpr (holds.ranges.range range)
      have reached := (listedPercent_eq_hundred_iff ordered).mp
        ((TrackedScan.percent_eq found).symm.trans hundred)
      refine ⟨job.startBlock, job.endBlock, range, ?_⟩
      intro block _ block_lt
      cases checkpoint : row.checkpoint with
      | none =>
          rw [checkpoint, Option.elim_none] at reached
          omega
      | some last =>
          rw [checkpoint, Option.elim_some] at reached
          refine ⟨last.lastCommittedBlockNumber, ?_, by omega⟩
          rw [Database.committedBlock, ← checkpoint_eq, checkpoint]
          rfl

/-- What a tracker makes of a row that it reads is honest. -/
theorem ProgressInvariant.isHonest {store : ProgressStore}
    (holds : ProgressInvariant collectionId store) {row : TrackedScan}
    (row_mem : row ∈ store.notifications.trackedScans workspaceId collectionId) :
    IsHonest collectionId store ⟨row.report, row.destination, row.message⟩ := by
  rcases rows_of_mem_trackedScans row_mem with ⟨job_eq, checkpoint_eq, collection_eq⟩
  refine ⟨⟨row, rfl, rfl⟩, ?_⟩
  intro complete
  apply holds.everyBlockCommitted
  by_cases terminal : row.terminal = true
  · have status : store.db.scanStatus collectionId = some row.collection.scanStatus := by
      rw [Database.scanStatus, show store.db.collection collectionId = _ from collection_eq]
      rfl
    exact holds.terminal status terminal
  · simp only [TrackedScan.report, if_neg terminal] at complete
    have bound := row.percent_le_hundred
    exact holds.finishing_of_percent job_eq checkpoint_eq (by omega)

/-- Where the notifications after an action of a tracker come from. -/
theorem notifications_of_trackStep {store after : NotificationStore} {phase next : TrackPhase}
    {event : TrackEvent}
    (stepped : trackStep workspaceId collectionId store phase event = some (after, next)) :
    (∀ delivery ∈ after.deliveries,
      delivery ∈ store.deliveries ∨ phase.delivery = some delivery) ∧
    (∀ delivery, next.delivery = some delivery → phase.delivery = some delivery ∨
      ∃ row ∈ store.trackedScans workspaceId collectionId,
        delivery = ⟨row.report, row.destination, row.message⟩) ∧
    (after.db = store.db ∨ ∃ destinations, event = .environment after.db destinations) := by
  cases trackTransition_of_step stepped with
  | changes => exact ⟨fun _ => .inl, fun _ held => (by cases held), .inr ⟨_, rfl⟩⟩
  | absent => exact ⟨fun _ => .inl, fun _ held => (by cases held), .inl rfl⟩
  | known =>
      rw [deliveries_observe]
      exact ⟨fun _ => .inl, fun _ held => (by cases held), .inl (db_observe _)⟩
  | @reads row _ found =>
      rw [deliveries_observe]
      refine ⟨fun _ => .inl, fun delivery held => .inr ⟨row, List.mem_of_getElem? found, ?_⟩,
        .inl (db_observe _)⟩
      cases held
      rfl
  | commits => exact ⟨fun _ => .inl, fun _ => .inl, .inl rfl⟩
  | sends ended =>
      refine ⟨?_, ?_, .inl rfl⟩
      · intro delivery delivery_mem
        dsimp only at delivery_mem
        split_ifs at delivery_mem
        · rcases List.mem_append.mp delivery_mem with earlier | new
          · exact .inl earlier
          · exact .inr (congrArg some (List.mem_singleton.mp new).symm)
        · exact .inl delivery_mem
      · intro delivery held
        cases next with
        | storing | sending => cases ended
        | _ => cases held
  | stops => exact ⟨fun _ => .inl, fun _ held => (by cases held), .inl rfl⟩

end Reading

section Scanning

variable {before after : Database} {phase next : ScanPhase} {event : ScanEvent}

namespace ScanTransition

/-- Only the commit of a batch moves the checkpoint. -/
theorem committedBlock_eq
    (moved : ScanTransition primitives collectionId before phase event after next)
    (quiet : committedBatch phase event = []) :
    after.committedBlock collectionId 1 = before.committedBlock collectionId 1 := by
  cases moved with
  | probe recorded =>
      rcases recordProbe_eq_ok recorded with ⟨change, _, rfl⟩
      rfl
  | completed opened | openJob opened => exact committedBlock_openJob opened
  | batch => exact absurd quiet (List.cons_ne_nil _ _)
  | enrich enriched =>
      have enriches := enrichTransaction_eq_ok enriched
      simp only [Database.committedBlock, Database.checkpoint, enriches.scanCheckpoints]
  | absent | load | unknown | known | gone | split | vanished | select | merge | finish | stop =>
      rfl

/-- A batch covers what it moves the checkpoint over. -/
theorem batchesCover
    (moved : ScanTransition primitives collectionId before phase event after next)
    (ranges : RangeInvariant collectionId before)
    (relies : PhaseInvariant collectionId before phase)
    {batches : List (ℕ × ℕ)} (covers : BatchesCover collectionId before batches) :
    BatchesCover collectionId after (batches ++ committedBatch phase event) := by
  have progresses := (moved.advances ranges relies).2.2
  intro startBlock endBlock committed range found block start_le le_committed
  by_cases quiet : committedBatch phase event = []
  · rw [moved.committedBlock_eq quiet] at found
    rw [quiet, List.append_nil]
    rcases ranges.checkpoint found with ⟨_, _, earlier, _⟩
    cases (progresses.range earlier).symm.trans range
    exact covers _ _ _ earlier found block start_le le_committed
  · cases moved with
    | @batch settings slice cursor chunk logs boundary _ stored =>
        rcases relies with ⟨_, _, _, firstBlock, earlier, _, below⟩
        cases (progresses.range earlier).symm.trans range
        have old : ∀ last, before.committedBlock collectionId 1 = some last → block ≤ last →
            ∃ batch ∈ batches ++ committedBatch (.scanning settings slice cursor chunk)
              (.batch logs boundary), batch.1 ≤ block ∧ block ≤ batch.2 := by
          intro last last_found le_last
          rcases covers _ _ _ earlier last_found block start_le le_last with
            ⟨batch, batch_mem, inside⟩
          exact ⟨batch, List.mem_append_left _ batch_mem, inside⟩
        by_cases lt_cursor : block < cursor
        · rcases below block start_le lt_cursor with ⟨last, last_found, le_last⟩
          exact old last last_found le_last
        · by_cases le_end : block ≤ (scanBatch slice cursor chunk logs boundary).endBlock
          · refine ⟨_, List.mem_append_right _ (List.mem_singleton_self _), ?_, le_end⟩
            exact Nat.le_of_not_lt lt_cursor
          · cases (committedBlock_commit stored).symm.trans found
            cases last_found : before.committedBlock collectionId 1 with
            | none =>
                rw [last_found, Option.getD_none] at le_committed
                omega
            | some last =>
                rw [last_found, Option.getD_some] at le_committed
                exact old last last_found (by omega)
    | absent | load | unknown | known | gone | probe | completed | openJob | split | vanished
    | select | enrich | merge | finish => exact absurd rfl quiet
    | stop => cases phase <;> exact absurd rfl quiet

theorem phase_of_finish
    (moved : ScanTransition primitives collectionId before phase .finish after next) :
    phase = .finishing := by
  cases moved
  rfl

/-- A status is made final only when everything is committed. -/
theorem finishing_of_isTerminal
    (moved : ScanTransition primitives collectionId before phase event after next)
    (ranges : RangeInvariant collectionId before)
    (relies : PhaseInvariant collectionId before phase)
    (terminal : ∀ {status}, before.scanStatus collectionId = some status →
      status.isTerminal = true → PhaseInvariant collectionId before .finishing)
    {status : CollectionScanStatus} (found : after.scanStatus collectionId = some status)
    (isTerminal : status.isTerminal = true) : PhaseInvariant collectionId after .finishing := by
  have progresses := (moved.advances ranges relies).2.2
  apply progresses.phaseInvariant
  cases moved.statusEffect with
  | kept _ collection | opened _ _ _ collection | merged _ _ _ collection =>
      rw [Database.scanStatus, collection] at found
      exact terminal found isTerminal
  | probed _ _ _ scanning =>
      cases scanning.symm.trans found
      cases isTerminal
  | finished isFinish =>
      subst isFinish
      rw [moved.phase_of_finish] at relies
      exact relies

end ScanTransition

/-- A scan keeps the invariant and takes nothing back. -/
theorem ProgressInvariant.scan {store : ProgressStore}
    (holds : ProgressInvariant collectionId store)
    (relies : PhaseInvariant collectionId store.db phase)
    (moved : ScanTransition primitives collectionId store.db phase event after next) :
    let result : ProgressStore :=
      ⟨{ store.notifications with db := after }, store.batches ++ committedBatch phase event⟩
    ProgressInvariant collectionId result ∧ PhaseInvariant collectionId after next ∧
      Advances collectionId store result := by
  rcases moved.advances holds.ranges relies with ⟨ranges, provides, progresses⟩
  have advances : Advances collectionId store
      ⟨{ store.notifications with db := after }, store.batches ++ committedBatch phase event⟩ :=
    ⟨progresses, List.subset_append_left _ _⟩
  refine ⟨⟨ranges, moved.batchesCover holds.ranges relies holds.batches, ?_, ?_⟩, provides,
    advances⟩
  · intro status found terminal
    exact moved.finishing_of_isTerminal holds.ranges relies holds.terminal found terminal
  · intro delivery delivery_mem
    exact advances.isHonest (holds.honest delivery delivery_mem)

end Scanning

section Tracking

variable {workspaceId : ℕ}

theorem LeavesScan.refl (db : Database) : LeavesScan collectionId db db := ⟨rfl, rfl, .inl rfl⟩

theorem LeavesScan.progresses {before after : Database}
    (leaves : LeavesScan collectionId before after) : Progresses collectionId before after :=
  .of_eq leaves.range leaves.checkpoint

/-- A tracker keeps the invariant, and the message that it makes is honest. -/
theorem ProgressInvariant.track {store : ProgressStore}
    (holds : ProgressInvariant collectionId store) {after : NotificationStore}
    {phase next : TrackPhase} {event : TrackEvent}
    (relies : (ProgressProcess.track workspaceId phase).Relies collectionId store)
    (stepped : trackStep workspaceId collectionId store.notifications phase event =
      some (after, next))
    (leaves : LeavesScan collectionId store.db after.db) :
    let result : ProgressStore := ⟨after, store.batches⟩
    ProgressInvariant collectionId result ∧
      (ProgressProcess.track workspaceId next).Relies collectionId result ∧
        Advances collectionId store result := by
  rcases notifications_of_trackStep stepped with ⟨delivered, made, _⟩
  have advances : Advances collectionId store ⟨after, store.batches⟩ :=
    ⟨leaves.progresses, List.Subset.refl _⟩
  refine ⟨⟨holds.ranges.of_eq leaves.range leaves.checkpoint, ?_, ?_, ?_⟩, ?_, advances⟩
  · intro startBlock endBlock committed range found
    exact holds.batches _ _ _ (leaves.range.symm.trans range) (leaves.checkpoint.symm.trans found)
  · intro status found terminal
    apply leaves.progresses.phaseInvariant
    rcases leaves.status with same | ⟨_, pending⟩
    · exact holds.terminal (same.symm.trans found) terminal
    · cases pending.symm.trans found
      cases terminal
  · intro delivery delivery_mem
    rcases delivered delivery delivery_mem with earlier | held
    · exact advances.isHonest (holds.honest delivery earlier)
    · exact advances.isHonest (relies delivery held)
  · intro delivery held
    rcases made delivery held with earlier | ⟨row, row_mem, rfl⟩
    · exact advances.isHonest (relies delivery earlier)
    · exact advances.isHonest (holds.isHonest row_mem)

end Tracking

/-- One action keeps the invariant, and provides for the process that takes it. -/
theorem ProgressInvariant.step {store after : ProgressStore} {process next : ProgressProcess}
    {event : ProgressEvent} (holds : ProgressInvariant collectionId store)
    (relies : process.Relies collectionId store)
    (others : ∀ db destinations, event = .track (.environment db destinations) →
      LeavesScan collectionId store.db db)
    (stepped : progressStep primitives collectionId store process event = some (after, next)) :
    ProgressInvariant collectionId after ∧ next.Relies collectionId after ∧
      Advances collectionId store after := by
  unfold progressStep at stepped
  split at stepped
  · rcases Option.map_eq_some_iff.mp stepped with ⟨⟨db, phase⟩, scanned, same⟩
    cases same
    exact holds.scan relies (scanTransition_of_scanStep scanned)
  · rcases Option.map_eq_some_iff.mp stepped with ⟨⟨notifications, phase⟩, tracked, same⟩
    cases same
    apply holds.track relies tracked
    rcases (notifications_of_trackStep tracked).2.2 with same | ⟨destinations, rfl⟩
    · rw [same]
      exact .refl _
    · exact others _ _ rfl
  · cases stepped

variable (collectionId) in
/-- What holds of the store and of every process. -/
def ProgressWorld (world : World ProgressStore ProgressProcess) : Prop :=
  ProgressInvariant collectionId world.store ∧
    ∀ index, (world.process index).Relies collectionId world.store

theorem ProgressWorld.act {world after : World ProgressStore ProgressProcess} {index : ℕ}
    {event : ProgressEvent} (holds : ProgressWorld collectionId world)
    (meets : StatusFromScans collectionId world index event)
    (acted : (progressProgram primitives collectionId).act world index event = some after) :
    ProgressWorld collectionId after := by
  have others : ∀ db destinations, event = .track (.environment db destinations) →
      LeavesScan collectionId world.store.db db := by
    rintro db destinations rfl
    exact meets
  apply Program.act_local (ProgressInvariant collectionId)
    (fun store process => process.Relies collectionId store) acted
  · intro store process stepped
    rcases holds.1.step (holds.2 index) others stepped with ⟨kept, provides, _⟩
    exact ⟨kept, provides⟩
  · intro store process other stepped relies
    exact (holds.1.step (holds.2 index) others stepped).2.2.relies relies
  · exact holds.2

theorem NotBegun.progressWorld {world : World ProgressStore ProgressProcess}
    (fresh : NotBegun collectionId world) : ProgressWorld collectionId world := by
  refine ⟨⟨⟨?_, ?_⟩, ?_, ?_, ?_⟩, ?_⟩
  · intro startBlock endBlock found
    rw [Database.jobRange, fresh.job] at found
    cases found
  · intro committed found
    cases fresh.checkpoint.symm.trans found
  · intro startBlock endBlock committed _ found
    cases fresh.checkpoint.symm.trans found
  · intro status found terminal
    cases (fresh.status status found).symm.trans terminal
  · rw [fresh.deliveries]
    exact fun _ impossible => absurd impossible List.not_mem_nil
  · intro index
    rcases fresh.processes index with idle | ⟨workspaceId, idle⟩
    · rw [idle]
      trivial
    · rw [idle]
      exact fun _ impossible => by cases impossible

theorem ProgressWorld.isHonest {world : World ProgressStore ProgressProcess}
    (holds : ProgressWorld collectionId world) {delivery : ReportDelivery}
    (made : IsNotification world delivery) : IsHonest collectionId world.store delivery := by
  rcases made with delivered | ⟨index, workspaceId, phase, process, held⟩
  · exact holds.1.honest delivery delivered
  · have relies := holds.2 index
    rw [process] at relies
    exact relies delivery held

/--
Notifications and listings compute the same percentage, which tells how far the checkpoint
is, and in every run in which nothing but the scans sets the status, a notification says a
hundred only when every block of the range has been committed.
-/
theorem progress_isHonest {start world : World ProgressStore ProgressProcess}
    (fresh : NotBegun collectionId start)
    (run : (progressProgram primitives collectionId).Reaches (StatusFromScans collectionId) start
      world) :
    (∀ startBlock endBlock : ℤ, 0 ≤ startBlock → startBlock ≤ endBlock →
      TellsProgress startBlock endBlock) ∧
    (∀ registry subscribedAt workspaceId tracked record row job checkpoint,
      record ∈ RegistryStore.listScannedCollections registry subscribedAt world.store.db
        workspaceId →
      row ∈ world.store.notifications.trackedScans tracked record.collectionId →
      row.job = some job → row.checkpoint = some checkpoint →
        row.percent = notifiedPercent job.startBlock job.endBlock
          checkpoint.lastCommittedBlockNumber ∧
        record.progressText = " (".toList ++ Json.decimal row.percent ++ "%)".toList) ∧
    ∀ delivery, IsNotification world delivery → IsHonest collectionId world.store delivery := by
  refine ⟨fun _ _ _ ordered => tellsProgress ordered, ?_, ?_⟩
  · intro registry subscribedAt workspaceId tracked record row job checkpoint listed row_mem hasJob
      hasCheckpoint
    refine ⟨?_, progressText_of_mem_listScannedCollections listed row_mem hasJob hasCheckpoint⟩
    rw [TrackedScan.percent_eq hasJob, hasCheckpoint]
    rfl
  · intro delivery made
    exact (run.invariant (ProgressWorld collectionId)
      (fun holds meets acted => holds.act meets acted) fresh.progressWorld).isHonest made

end Runs

section Samples

/-- A workspace tracks a collection that has not been scanned. -/
def trackedWorld : World ProgressStore ProgressProcess where
  store :=
    { notifications :=
        ⟨unprobedDatabase, [{ sampleSubscription with collectionId := 1 }], [sampleDestination],
          [], [], []⟩
      batches := [] }
  process index := if index = 0 then .scan .idle else .track 1 .idle

/-- A scan of one block, and a message about it before and after. -/
def trackedSchedule : List (ℕ × ProgressEvent) :=
  [(1, .track (.read 0)), (1, .track .commit), (1, .track (.send true true))] ++
    probedSchedule.map (fun (index, event) => (index, .scan event)) ++
    [(2, .track (.read 0)), (2, .track .commit), (2, .track (.send true true))]

/-- The event stands for what others do. -/
def ProgressEvent.isEnvironment : ProgressEvent → Bool
  | .track (.environment _ _) => true
  | _ => false

theorem statusFromScans_of_isEnvironment {world : World ProgressStore ProgressProcess}
    {index collectionId : ℕ} {event : ProgressEvent} (own : event.isEnvironment = false) :
    StatusFromScans collectionId world index event := by
  unfold StatusFromScans
  split
  · cases own
  · trivial

end Samples

theorem trackedSchedule_isHonest :
    ∃ world : World ProgressStore ProgressProcess,
      (progressProgram scanHashes 1).Reaches (StatusFromScans 1) trackedWorld world ∧
        world.store.notifications.deliveries.map (fun delivery => delivery.report.milestone) =
          [0, 100] ∧ EveryBlockCommitted 1 world.store := by
  have executed : ((progressProgram scanHashes 1).execute trackedWorld trackedSchedule).any
      (fun world => world.store.notifications.deliveries.map
        (fun delivery => delivery.report.milestone) = [0, 100]) = true := by
    decide +kernel
  rcases (Option.any_eq_true _ _).mp executed with ⟨world, executed, milestones⟩
  have milestones := of_decide_eq_true milestones
  have fresh : NotBegun 1 trackedWorld := by
    refine ⟨rfl, rfl, ?_, rfl, rfl, ?_⟩
    · intro status found
      cases found
      rfl
    · intro index
      by_cases scans : index = 0
      · exact .inl (if_pos scans)
      · exact .inr ⟨1, if_neg scans⟩
  have run : (progressProgram scanHashes 1).Reaches (StatusFromScans 1) trackedWorld world :=
    (Program.reaches_of_execute executed (Program.meets_of_events
      (fun event => event.isEnvironment = false) (by decide) trackedWorld)).mono
        statusFromScans_of_isEnvironment
  have honest := (progress_isHonest fresh run).2.2
  refine ⟨world, run, milestones, ?_⟩
  have last_mem : (100 : ℤ) ∈ world.store.notifications.deliveries.map
      (fun delivery => delivery.report.milestone) := by
    rw [milestones]
    exact List.mem_cons_of_mem _ (List.mem_singleton_self _)
  rcases List.mem_map.mp last_mem with ⟨delivery, delivery_mem, hundred⟩
  exact (honest delivery (.inl delivery_mem)).complete hundred

end CopyMint
