import CopyMint.Workers.GapFree

/-!
# The status of finished scans

The tracker of a scan ends its notifications once the status of the collection is
final, and the last transaction of a scan makes it so together with completing
the job. Only the transaction that stores a deployment probe moves the status
back: it belongs to an execution that once read the deployment block as missing,
and it does not look whether others have run the whole scan since.
-/

namespace CopyMint

open Hexadecimal Relational Interleaving

/-- The statuses that a completed scan leaves behind. -/
def CollectionScanStatus.isFinished : CollectionScanStatus → Bool
  | .complete | .qualityWarning => true
  | _ => false

/-- The result of a probe is stored. -/
def ScanEvent.isProbe : ScanEvent → Bool
  | .probe _ => true
  | _ => false

variable {primitives : Primitives} (collectionId : ℕ)

/-- The collection of a completed job has the status of a finished scan. -/
def FinishedSoundly (db : Database) : Prop :=
  db.jobStatus collectionId = some .completed →
    ∃ status, db.scanStatus collectionId = some status ∧ status.isFinished = true

/-- What a transition does to the job and the row of its collection. -/
inductive StatusEffect (before : Database) (event : ScanEvent) (after : Database) : Prop
  | kept (job : after.job collectionId = before.job collectionId)
      (collection : after.collection collectionId = before.collection collectionId)
  | probed (isProbe : event.isProbe = true) (found : (before.collection collectionId).isSome)
      (job : after.job collectionId = before.job collectionId)
      (status : after.scanStatus collectionId = some .scanning)
  | opened (unfinished : before.jobStatus collectionId ≠ some .completed)
      (running : after.jobStatus collectionId = some .running)
      (warnings : after.qualityWarnings collectionId = before.qualityWarnings collectionId)
      (collection : after.collection collectionId = before.collection collectionId)
  | merged (isMerge : event = .merge) (warnings : List String)
      (job : after.job collectionId =
        (before.job collectionId).map (ScanJob.withWarnings warnings))
      (collection : after.collection collectionId = before.collection collectionId)
  | finished (isFinish : event = .finish)
      (job : after.job collectionId = (before.job collectionId).map ScanJob.finished)
      (status : after.scanStatus collectionId = (before.scanStatus collectionId).map fun _ =>
        if (before.qualityWarnings collectionId).isEmpty then .complete else .qualityWarning)

/-- The rows that an execution has seen by the time it is in a phase. -/
def RowsSeen (db : Database) : ScanPhase → Prop
  | .idle | .ended => True
  | .loaded _ _ | .probing _ _ _ | .opening _ _ _ _ => (db.collection collectionId).isSome
  | .scanning _ _ _ _ | .selecting _ | .enriching _ _ _ _ | .merging _ _ | .finishing =>
      (db.collection collectionId).isSome ∧ (db.job collectionId).isSome

/-- The collection and its job are not deleted. -/
structure RowsRemain (before after : Database) : Prop where
  collection : (before.collection collectionId).isSome → (after.collection collectionId).isSome
  job : (before.job collectionId).isSome → (after.job collectionId).isSome

variable {collectionId} {before after : Database} {event : ScanEvent} {phase next : ScanPhase}

theorem RowsRemain.rowsSeen (remain : RowsRemain collectionId before after)
    (seen : RowsSeen collectionId before phase) : RowsSeen collectionId after phase := by
  cases phase with
  | idle | ended => trivial
  | loaded | probing | opening => exact remain.collection seen
  | scanning | selecting | enriching | merging | finishing =>
      exact ⟨remain.collection seen.1, remain.job seen.2⟩

/-- A stored probe finds the collection and sets its status to scanning. -/
theorem scanStatus_recordProbe {probe : CollectionProbe}
    (recorded : recordProbe collectionId probe before = .ok (some after)) :
    (before.collection collectionId).isSome ∧ after.scanStatus collectionId = some .scanning ∧
      after.scanJobs = before.scanJobs := by
  simp only [recordProbe] at recorded
  split at recorded
  · cases recorded
  · rename_i row found
    rcases Fallible.bind_eq_ok_iff.mp recorded with ⟨hash, _, built⟩
    cases built
    refine ⟨by simp [found], ?_, rfl⟩
    rw [Database.scanStatus, Database.collection_updateCollection, found]
    · rfl
    · intro row
      rfl

theorem openJob_status {startBlock finalized : ℕ} {resumed : Option (ℕ × ℕ)}
    (opened : openJob collectionId startBlock finalized before = .ok (after, resumed)) :
    (after = before ∧ resumed = none) ∨
      (before.jobStatus collectionId ≠ some .completed ∧
        after.jobStatus collectionId = some .running ∧
        after.qualityWarnings collectionId = before.qualityWarnings collectionId) := by
  simp only [openJob] at opened
  split at opened
  · rename_i absent
    split_ifs at opened with unordered
    cases opened
    right
    simp only [Database.jobStatus, Database.qualityWarnings, absent]
    simp only [Database.job] at absent
    simp [Database.job, lookup_append, absent, lookup_singleton, ScanJob.key]
  · rename_i job found
    split_ifs at opened with completed <;> cases opened
    · exact .inl ⟨rfl, rfl⟩
    · right
      have updated := before.job_updateJob collectionId ScanJob.restarted fun _ => rfl
      simp only [Database.jobStatus, Database.qualityWarnings, updated, found]
      simpa [ScanJob.restarted] using completed

theorem openJob_elsewhere {startBlock finalized other : ℕ} {resumed : Option (ℕ × ℕ)}
    (opened : openJob collectionId startBlock finalized before = .ok (after, resumed))
    (different : other ≠ collectionId) : after.job other = before.job other := by
  simp only [openJob] at opened
  split at opened <;> split_ifs at opened <;> cases opened
  · simp [Database.job, lookup_append, lookup_singleton, ScanJob.key, Ne.symm different]
  · rfl
  · exact before.job_updateJob_of_ne different fun _ => rfl

theorem scanStatus_finishJob (db : Database) :
    (finishJob collectionId db).scanStatus collectionId =
      (db.scanStatus collectionId).map fun _ =>
        if (db.qualityWarnings collectionId).isEmpty then .complete else .qualityWarning := by
  simp only [finishJob, Database.scanStatus]
  rw [Database.collection_updateCollection, Database.collection_updateJob, Option.map_map,
    Option.map_map]
  · cases found : db.job collectionId with
    | none => simp [Database.qualityWarnings, found, Function.comp_def]
    | some job =>
        cases warnings : job.qualityWarnings <;>
          simp [Database.qualityWarnings, found, warnings, Function.comp_def]
  · intro row
    rfl

namespace ScanTransition

/-- Every transition has one of the effects on the status of its collection. -/
theorem statusEffect
    (moved : ScanTransition primitives collectionId before phase event after next) :
    StatusEffect collectionId before event after := by
  cases moved with
  | probe recorded =>
      rcases scanStatus_recordProbe recorded with ⟨found, scanning, sameJobs⟩
      exact .probed rfl found (Database.job_congr sameJobs _) scanning
  | completed opened | openJob opened =>
      rcases openJob_status opened with ⟨rfl, _⟩ | ⟨unfinished, running, warnings⟩
      · exact .kept rfl rfl
      · exact .opened unfinished running warnings
          (Database.collection_congr (openJob_rows opened).2.2.2 _)
  | batch committed =>
      have same := collections_commit committed
      exact .kept (Database.job_congr same.2 _) (Database.collection_congr same.1 _)
  | enrich enriched =>
      have enriches := enrichTransaction_eq_ok enriched
      exact .kept (Database.job_congr enriches.scanJobs _)
        (Database.collection_congr enriches.collections _)
  | @merge slice warnings =>
      exact .merged rfl warnings
        (before.job_updateJob collectionId (ScanJob.withWarnings warnings) fun _ => rfl) rfl
  | finish =>
      refine .finished rfl ?_ (scanStatus_finishJob before)
      rw [finishJob, Database.job_updateCollection]
      exact before.job_updateJob collectionId ScanJob.finished fun _ => rfl
  | absent | load | unknown | known | gone | split | vanished | select | stop => exact .kept rfl rfl

/-- A transition leaves the job and the row of every other collection alone. -/
theorem elsewhere (moved : ScanTransition primitives collectionId before phase event after next)
    {other : ℕ} (different : other ≠ collectionId) :
    after.job other = before.job other ∧ after.collection other = before.collection other := by
  cases moved with
  | probe recorded =>
      rcases recordProbe_eq_ok recorded with ⟨change, kept, rfl⟩
      exact ⟨rfl, before.collection_updateCollection_of_ne different kept⟩
  | completed opened | openJob opened =>
      exact ⟨openJob_elsewhere opened different,
        Database.collection_congr (openJob_rows opened).2.2.2 _⟩
  | batch committed =>
      have same := collections_commit committed
      exact ⟨Database.job_congr same.2 _, Database.collection_congr same.1 _⟩
  | enrich enriched =>
      have enriches := enrichTransaction_eq_ok enriched
      exact ⟨Database.job_congr enriches.scanJobs _,
        Database.collection_congr enriches.collections _⟩
  | merge => exact ⟨before.job_updateJob_of_ne different fun _ => rfl, rfl⟩
  | finish =>
      constructor
      · rw [finishJob, Database.job_updateCollection]
        exact before.job_updateJob_of_ne different fun _ => rfl
      · rw [finishJob, Database.collection_updateCollection_of_ne _ different]
        · rfl
        · exact fun _ => rfl
  | absent | load | unknown | known | gone | split | vanished | select | stop => exact ⟨rfl, rfl⟩

end ScanTransition

namespace StatusEffect

theorem rowsRemain (effect : StatusEffect collectionId before event after) :
    RowsRemain collectionId before after := by
  cases effect with
  | kept job collection => exact ⟨fun found => collection ▸ found, fun found => job ▸ found⟩
  | probed _ _ job status =>
      refine ⟨fun _ => ?_, fun found => job ▸ found⟩
      rcases Option.map_eq_some_iff.mp status with ⟨row, found, _⟩
      simp [found]
  | opened _ running _ collection =>
      refine ⟨fun found => collection ▸ found, fun _ => ?_⟩
      rcases Option.map_eq_some_iff.mp running with ⟨job, found, _⟩
      simp [found]
  | merged _ warnings job collection =>
      exact ⟨fun found => collection ▸ found, fun found => by simpa [job] using found⟩
  | finished _ job status =>
      refine ⟨fun found => ?_, fun found => by simpa [job] using found⟩
      have same := congrArg Option.isSome status
      simp only [Database.scanStatus, Option.isSome_map] at same
      exact same.trans found

theorem jobStatus_completed (effect : StatusEffect collectionId before event after)
    (completed : before.jobStatus collectionId = some .completed) :
    after.jobStatus collectionId = some .completed := by
  cases effect with
  | kept job => simpa only [Database.jobStatus, job] using completed
  | probed _ _ job => simpa only [Database.jobStatus, job] using completed
  | opened unfinished => exact absurd completed unfinished
  | merged _ warnings job =>
      rcases Option.map_eq_some_iff.mp completed with ⟨row, found, status⟩
      simpa [Database.jobStatus, job, found, ScanJob.withWarnings] using status
  | finished _ job =>
      rcases Option.map_eq_some_iff.mp completed with ⟨row, found, _⟩
      simp [Database.jobStatus, job, found, ScanJob.finished]

/-- A transition keeps finished scans sound unless it stores a probe of one. -/
theorem finishedSoundly (effect : StatusEffect collectionId before event after)
    (sound : FinishedSoundly collectionId before)
    (found : event = .finish → (before.collection collectionId).isSome)
    (early : event.isProbe = true → (before.collection collectionId).isSome →
      before.jobStatus collectionId ≠ some .completed) :
    FinishedSoundly collectionId after := by
  intro completed
  cases effect with
  | kept job collection =>
      rw [Database.jobStatus, job] at completed
      simpa only [Database.scanStatus, collection] using sound completed
  | probed isProbe present job =>
      rw [Database.jobStatus, job] at completed
      exact absurd completed (early isProbe present)
  | opened _ running => cases running.symm.trans completed
  | merged _ warnings job collection =>
      rw [Database.jobStatus, job, Option.map_map] at completed
      simpa only [Database.scanStatus, collection] using sound completed
  | finished isFinish _ status =>
      rcases Option.isSome_iff_exists.mp (found isFinish) with ⟨row, row_eq⟩
      refine ⟨_, by rw [status, Database.scanStatus, row_eq]; rfl, ?_⟩
      split <;> rfl

end StatusEffect

/-- A probe that is stored after completion leaves a completed job without a final status. -/
theorem storedProbe_unfinishes {probe : CollectionProbe}
    (recorded : recordProbe collectionId probe before = .ok (some after))
    (completed : before.jobStatus collectionId = some .completed) :
    ¬FinishedSoundly collectionId after := by
  intro sound
  rcases scanStatus_recordProbe recorded with ⟨_, scanning, sameJobs⟩
  have still : after.jobStatus collectionId = some .completed := by
    simpa only [Database.jobStatus, Database.job_congr sameJobs] using completed
  rcases sound still with ⟨status, found, finished⟩
  cases scanning.symm.trans found
  cases finished

theorem rowsSeen_afterWarnings {slice : ScanSlice} {db : Database}
    (seen : RowsSeen collectionId db .finishing) :
    RowsSeen collectionId db slice.afterWarnings := by
  simp only [ScanSlice.afterWarnings]
  split
  · exact seen
  · trivial

theorem rowsSeen_afterEnrichment {slice : ScanSlice} {db : Database}
    (seen : RowsSeen collectionId db .finishing) (warnings : List String) :
    RowsSeen collectionId db (slice.afterEnrichment warnings) := by
  simp only [ScanSlice.afterEnrichment]
  split
  · exact rowsSeen_afterWarnings seen
  · exact seen

theorem rowsSeen_enrichNext {slice : ScanSlice} {db : Database}
    (seen : RowsSeen collectionId db .finishing) (collectionAddress : Text)
    (hashes : List Bytes) (warnings : List String) :
    RowsSeen collectionId db (slice.enrichNext collectionAddress hashes warnings) := by
  cases hashes with
  | nil => exact rowsSeen_afterEnrichment seen _
  | cons hash hashes => exact seen

/-- An execution has seen the rows that its next phase relies on. -/
theorem ScanTransition.rowsSeen
    (moved : ScanTransition primitives collectionId before phase event after next)
    (seen : RowsSeen collectionId before phase) : RowsSeen collectionId after next := by
  have remain := moved.statusEffect.rowsRemain
  cases moved with
  | absent | gone | completed | finish | stop => trivial
  | load found => exact Option.isSome_iff_exists.mpr ⟨_, found⟩
  | unknown | known => exact seen
  | probe => exact remain.collection seen
  | openJob opened =>
      have found : (after.job collectionId).isSome := by
        rcases openJob_status opened with ⟨_, impossible⟩ | ⟨_, running, _⟩
        · cases impossible
        · rcases Option.map_eq_some_iff.mp running with ⟨job, found, _⟩
          simp [found]
      simp only [afterOpening]
      split <;> exact ⟨remain.collection seen, found⟩
  | split => exact seen
  | batch =>
      simp only [ScanSlice.scanNext]
      split <;> exact ⟨remain.collection seen.1, remain.job seen.2⟩
  | vanished => exact rowsSeen_afterEnrichment seen _
  | select => exact rowsSeen_enrichNext seen _ _ _
  | enrich =>
      exact rowsSeen_enrichNext ⟨remain.collection seen.1, remain.job seen.2⟩ _ _ _
  | merge => exact rowsSeen_afterWarnings ⟨remain.collection seen.1, remain.job seen.2⟩

theorem ScanTransition.collection_of_finish
    (moved : ScanTransition primitives collectionId before phase event after next)
    (seen : RowsSeen collectionId before phase) (isFinish : event = .finish) :
    (before.collection collectionId).isSome := by
  cases moved with
  | finish => exact seen.1
  | _ => cases isFinish

variable (collectionId)

/-- Deployment probes are stored only while the job is not completed. -/
def ProbesBeforeCompletion : Condition Database ScanExecution ScanEvent :=
  fun world _ event => event.isProbe = true → (world.store.collection collectionId).isSome →
    world.store.jobStatus collectionId ≠ some .completed

instance (world : World Database ScanExecution) (index : ℕ) (event : ScanEvent) :
    Decidable (ProbesBeforeCompletion collectionId world index event) :=
  inferInstanceAs (Decidable (_ → _ → _ ≠ _))

/-- A completed job stays completed. -/
def StaysCompleted (before after : Database) : Prop :=
  before.jobStatus collectionId = some .completed → after.jobStatus collectionId = some .completed

/-- Finished scans are sound, and every execution has seen the rows of its phase. -/
def StatusWorld (world : World Database ScanExecution) : Prop :=
  FinishedSoundly collectionId world.store ∧
    ∀ index, (world.process index).collectionId = collectionId ∧
      RowsSeen collectionId world.store (world.process index).phase

variable {collectionId}

theorem StatusWorld.act {world after : World Database ScanExecution} {index : ℕ}
    {event : ScanEvent} (holds : StatusWorld collectionId world)
    (early : ProbesBeforeCompletion collectionId world index event)
    (acted : (scanProgram primitives).act world index event = some after) :
    StatusWorld collectionId after ∧ StaysCompleted collectionId world.store after.store := by
  rcases holds.2 index with ⟨own, seen⟩
  have moves : ∀ {store state},
      (scanProgram primitives).step world.store (world.process index) event = some (store, state) →
      state.collectionId = collectionId ∧
        ScanTransition primitives collectionId world.store (world.process index).phase event store
          state.phase := by
    intro store state stepped
    rcases scanTransition_of_step stepped with ⟨same, moved⟩
    rw [own] at same moved
    exact ⟨same, moved⟩
  constructor
  · apply Program.act_local (FinishedSoundly collectionId)
      (fun store state => state.collectionId = collectionId ∧
        RowsSeen collectionId store state.phase) acted
    · intro store state stepped
      rcases moves stepped with ⟨same, moved⟩
      refine ⟨?_, same, moved.rowsSeen seen⟩
      exact moved.statusEffect.finishedSoundly holds.1 (moved.collection_of_finish seen) early
    · intro store state other stepped relies
      exact ⟨relies.1, (moves stepped).2.statusEffect.rowsRemain.rowsSeen relies.2⟩
    · exact holds.2
  · rcases Program.act_eq_some_iff.mp acted with ⟨store, state, stepped, rfl⟩
    exact (moves stepped).2.statusEffect.jobStatus_completed

theorem StatusWorld.run {start finish : World Database ScanExecution}
    (holds : StatusWorld collectionId start)
    (run : (scanProgram primitives).Reaches (ProbesBeforeCompletion collectionId) start finish) :
    StatusWorld collectionId finish ∧ StaysCompleted collectionId start.store finish.store := by
  have reflexive : ∀ db, StaysCompleted collectionId db db := fun _ => id
  have transitive : ∀ {first second third}, StaysCompleted collectionId first second →
      StaysCompleted collectionId second third → StaysCompleted collectionId first third :=
    fun before after completed => after (before completed)
  exact run.relates reflexive transitive (fun holds early acted => holds.act early acted) holds

/--
In every run of executions of one collection whose probes are stored before the
job is completed, a completed job has a finished status, now and ever after.
-/
theorem scan_staysFinished {db : Database} {world : World Database ScanExecution}
    (sound : FinishedSoundly collectionId db)
    (run : (scanProgram primitives).Reaches (ProbesBeforeCompletion collectionId)
      (World.uniform db ⟨collectionId, .idle⟩) world) :
    FinishedSoundly collectionId world.store ∧
      (world.store.jobStatus collectionId = some .completed →
        ∀ later, (scanProgram primitives).Reaches (ProbesBeforeCompletion collectionId) world
          later →
          later.store.jobStatus collectionId = some .completed ∧
            ∃ status, later.store.scanStatus collectionId = some status ∧
              status.isFinished = true) := by
  have initially : StatusWorld collectionId (World.uniform db ⟨collectionId, .idle⟩) :=
    ⟨sound, fun _ => ⟨rfl, trivial⟩⟩
  have holds := (initially.run run).1
  refine ⟨holds.1, fun completed later further => ?_⟩
  rcases holds.run further with ⟨finish, keeps⟩
  exact ⟨keeps completed, finish.1 (keeps completed)⟩

section Samples

/-- A collection that has not been probed, and nothing else. -/
def unprobedDatabase : Database :=
  { sampleDatabase with
    collections :=
      [{ id := 1
         checksumAddress := marker ++ hex sampleAddress.val
         deploymentBlockNumber := none
         deploymentBlockHash := none
         deploymentConfidence := .unknown
         deploymentConfidenceValue := 0
         scanStatus := .pending }] }

/-- What a probe of the sample contract finds. -/
def sampleProbe : CollectionProbe where
  normalizedAddress := marker ++ hex sampleAddress.val
  checksumAddress := marker ++ hex sampleAddress.val
  deploymentBlockNumber := 7
  deploymentBlockHash := sampleBlock.blockHash
  deploymentConfidence := .exact
  deploymentConfidenceValue := 100

/-- An execution probes the collection, scans its one block and completes the job. -/
def probedSchedule : List (ℕ × ScanEvent) :=
  [(0, .load sampleSettings), (0, .finalized sampleBlock), (0, .probe sampleProbe),
    (0, .openJob), (0, .batch [] sampleBlock), (0, .select []), (0, .finish)]

/-- Another execution has read the deployment block as missing before all that. -/
def lateProbeSchedule : List (ℕ × ScanEvent) :=
  (1, .load sampleSettings) :: (1, .finalized sampleBlock) :: probedSchedule ++
    [(1, .probe sampleProbe)]

/-- Two executions store what they have probed and open the job, which the first completes. -/
def overlappingSchedule : List (ℕ × ScanEvent) :=
  [(0, .load sampleSettings), (1, .load sampleSettings), (0, .finalized sampleBlock),
    (1, .finalized sampleBlock), (0, .probe sampleProbe), (1, .probe sampleProbe), (0, .openJob),
    (1, .openJob), (0, .batch [] sampleBlock), (0, .select []), (0, .finish)]

/-- The second one scans the same block after that. -/
def resumedSchedule : List (ℕ × ScanEvent) :=
  [(1, .batch [] sampleBlock), (1, .select []), (1, .finish)]

/-- No execution has begun. -/
def unprobedWorld : World Database ScanExecution := World.uniform unprobedDatabase ⟨1, .idle⟩

/-- The execution has come to its end. -/
def ScanPhase.isEnded : ScanPhase → Bool
  | .ended => true
  | _ => false

theorem phase_eq_ended {phase : ScanPhase} (ended : phase.isEnded = true) : phase = .ended := by
  cases phase with
  | ended => rfl
  | _ => cases ended

end Samples

/-- A probe stored after completion moves the status of a completed scan back to scanning. -/
theorem lateProbe_unfinishes :
    ¬∀ world, (scanProgram scanHashes).Reaches Unrestricted unprobedWorld world →
      FinishedSoundly 1 world.store := by
  intro everSound
  have reached : ((scanProgram scanHashes).execute unprobedWorld lateProbeSchedule).any
      (fun world => world.store.jobStatus 1 = some .completed ∧
        world.store.scanStatus 1 = some .scanning) = true := by decide +kernel
  rcases (Option.any_eq_true _ _).mp reached with ⟨world, executed, facts⟩
  rcases of_decide_eq_true facts with ⟨completed, scanning⟩
  have run := Program.reaches_of_execute executed (Program.meets_unrestricted _ _)
  rcases everSound world run completed with ⟨status, found, finished⟩
  cases scanning.symm.trans found
  cases finished

theorem sampleScan_staysFinished :
    ∃ world later : World Database ScanExecution,
      (scanProgram scanHashes).Reaches (ProbesBeforeCompletion 1) unprobedWorld world ∧
        FinishedSoundly 1 world.store ∧
          (scanProgram scanHashes).Reaches (ProbesBeforeCompletion 1) world later ∧
            (later.process 1).phase = .ended ∧ later.store.jobStatus 1 = some .completed ∧
              ∃ status, later.store.scanStatus 1 = some status ∧ status.isFinished = true := by
  have resumed : ((scanProgram scanHashes).execute unprobedWorld overlappingSchedule).any
      (fun world => world.store.jobStatus 1 = some .completed &&
        ((scanProgram scanHashes).execute world resumedSchedule).any
          (fun later => (later.process 1).phase.isEnded)) = true := by
    decide +kernel
  rcases (Option.any_eq_true _ _).mp resumed with ⟨world, executed, facts⟩
  rcases Bool.and_eq_true_iff.mp facts with ⟨completed, resumed⟩
  rcases (Option.any_eq_true _ _).mp resumed with ⟨later, executed_later, ended⟩
  have meets : (scanProgram scanHashes).Meets (ProbesBeforeCompletion 1) unprobedWorld
      overlappingSchedule := by decide +kernel
  have run := Program.reaches_of_execute executed meets
  have probeless : (scanProgram scanHashes).Meets (fun _ _ event => event.isProbe = false) world
      resumedSchedule :=
    Program.meets_of_events (fun event : ScanEvent => event.isProbe = false) (by decide) world
  have further : (scanProgram scanHashes).Reaches (ProbesBeforeCompletion 1) world later :=
    (Program.reaches_of_execute executed_later probeless).mono fun other probe => by
      simp [other] at probe
  have sound : FinishedSoundly 1 unprobedDatabase := fun impossible => by cases impossible
  have holds := scan_staysFinished sound run
  exact ⟨world, later, run, holds.1, further, phase_eq_ended ended,
    holds.2 (of_decide_eq_true completed) later further⟩

end CopyMint
