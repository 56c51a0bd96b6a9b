import CopyMint.Workers.ScanStatus

/-!
# How many executions a scan takes

An execution that is not interrupted either completes the job or leaves at least one
slice more of its blocks committed than it has found, whatever the answers of the
provider are and whatever other executions of the collection do meanwhile. Executions
that follow one another therefore complete the job once their slices cover its range.

The blocks that earlier executions have committed are the first of the job, so that a
number tells how many they are. An execution keeps to that number from the transaction
that opens its slice, and it hands on one slice more when it ends.
-/

namespace CopyMint

open Hexadecimal Relational Interleaving

variable (primitives : Primitives) (collectionId : ℕ)

/-- The job is completed, or that many of its first blocks are committed and they are not all. -/
def ScannedTo (count : ℕ) (db : Database) : Prop :=
  ∃ startBlock endBlock, db.jobRange collectionId = some (startBlock, endBlock) ∧
    (db.jobStatus collectionId = some .completed ∨
      startBlock + count ≤ endBlock ∧ ∃ committed,
        db.committedBlock collectionId 1 = some committed ∧ startBlock + count ≤ committed + 1)

/-- The slice ends with the job, or one slice behind the blocks that were committed before. -/
def ScanSlice.Extends (slice : ScanSlice) (count : ℕ) (db : Database) : Prop :=
  ∃ startBlock, db.jobRange collectionId = some (startBlock, slice.fixedEnd) ∧
    (slice.fixedEnd ≤ slice.sliceEnd ∨
      startBlock + (count + scanSliceBlocks) ≤ slice.sliceEnd + 1)

/-- What an execution has achieved in a phase, beyond the blocks committed before it. -/
def Achieves (count : ℕ) (db : Database) : ScanPhase → Prop
  | .scanning _ slice _ _ | .selecting slice | .enriching slice _ _ _ | .merging slice _ =>
      slice.Extends collectionId count db
  | .ended => ScannedTo collectionId (count + scanSliceBlocks) db
  | .idle | .loaded _ _ | .probing _ _ _ | .opening _ _ _ _ | .finishing => True

/-- The process takes no action that stops it. -/
def Uninterrupted (index : ℕ) : Condition Database ScanExecution ScanEvent :=
  fun _ other event => other = index → event ≠ .stop

/-- One process has run from its beginning to its end. -/
def Executes (start finish : World Database ScanExecution) : Prop :=
  ∃ index, (start.process index).phase = .idle ∧ (finish.process index).phase = .ended ∧
    (scanProgram primitives).Reaches (Uninterrupted index) start finish

/-- That many executions have followed one another. -/
inductive Executions : ℕ → World Database ScanExecution → World Database ScanExecution → Prop
  | none (world : World Database ScanExecution) : Executions 0 world world
  | next {count : ℕ} {start middle finish : World Database ScanExecution}
      (earlier : Executions count start middle) (executes : Executes primitives middle finish) :
      Executions (count + 1) start finish

/-- What every execution relies on. -/
structure ScanningWorld (world : World Database ScanExecution) : Prop where
  present : (world.store.collection collectionId).isSome
  ranges : RangeInvariant collectionId world.store
  processes : ∀ index, (world.process index).collectionId = collectionId ∧
    PhaseInvariant collectionId world.store (world.process index).phase

variable {primitives collectionId} {before after : Database} {phase next : ScanPhase}
  {event : ScanEvent} {slice : ScanSlice} {count : ℕ}

section Progress

variable (progresses : Progresses collectionId before after)
  (stays : StaysCompleted collectionId before after)

include progresses stays in
/-- Blocks stay committed, and a completed job stays completed. -/
theorem ScannedTo.mono (scanned : ScannedTo collectionId count before) :
    ScannedTo collectionId count after := by
  rcases scanned with ⟨startBlock, endBlock, range, completed | ⟨within, committed, found, enough⟩⟩
  · exact ⟨startBlock, endBlock, progresses.range range, .inl (stays completed)⟩
  · rcases progresses.checkpoint found with ⟨later, found, committed_le⟩
    exact ⟨startBlock, endBlock, progresses.range range, .inr ⟨within, later, found, by omega⟩⟩

include progresses in
theorem ScanSlice.Extends.mono (carries : slice.Extends collectionId count before) :
    slice.Extends collectionId count after := by
  rcases carries with ⟨startBlock, range, reaches⟩
  exact ⟨startBlock, progresses.range range, reaches⟩

include progresses stays in
theorem Achieves.mono (achieves : Achieves collectionId count before phase) :
    Achieves collectionId count after phase := by
  cases phase with
  | scanning | selecting | enriching | merging => exact ScanSlice.Extends.mono progresses achieves
  | ended => exact ScannedTo.mono progresses stays achieves
  | idle | loaded | probing | opening | finishing => trivial

end Progress

section Phases

/-- The end of a slice that is not the last one leaves its blocks committed. -/
theorem achieves_afterWarnings (scanned : PhaseInvariant collectionId before (.selecting slice))
    (carries : slice.Extends collectionId count before) :
    Achieves collectionId count before slice.afterWarnings := by
  rcases scanned with ⟨startBlock, range, below⟩
  rcases carries with ⟨_, same, reaches⟩
  cases range.symm.trans same
  simp only [ScanSlice.afterWarnings]
  split_ifs with last
  · trivial
  · have behind := reaches.resolve_left last
    simp only [scanSliceBlocks] at behind
    rcases below slice.sliceEnd (by omega) (Nat.lt_succ_self _) with ⟨committed, found, reached⟩
    refine ⟨startBlock, slice.fixedEnd, range, .inr ⟨?_, committed, found, ?_⟩⟩
    · simp only [scanSliceBlocks]
      omega
    · simp only [scanSliceBlocks]
      omega

theorem achieves_afterEnrichment (scanned : PhaseInvariant collectionId before (.selecting slice))
    (carries : slice.Extends collectionId count before) (warnings : List String) :
    Achieves collectionId count before (slice.afterEnrichment warnings) := by
  simp only [ScanSlice.afterEnrichment]
  split_ifs
  · exact achieves_afterWarnings scanned carries
  · exact carries

theorem achieves_enrichNext (scanned : PhaseInvariant collectionId before (.selecting slice))
    (carries : slice.Extends collectionId count before) (collectionAddress : Text)
    (hashes : List Bytes) (warnings : List String) :
    Achieves collectionId count before (slice.enrichNext collectionAddress hashes warnings) := by
  cases hashes with
  | nil => exact achieves_afterEnrichment scanned carries _
  | cons hash hashes => exact carries

theorem achieves_scanNext (carries : slice.Extends collectionId count before)
    (settings : WorkerSettings) (cursor chunk : ℕ) :
    Achieves collectionId count before (slice.scanNext settings cursor chunk) := by
  simp only [ScanSlice.scanNext]
  split_ifs
  · exact carries
  · exact carries

/-- The slice that is opened at a cursor is one slice long, or the last one. -/
theorem achieves_afterOpening (settings : WorkerSettings) {startBlock cursor fixedEnd : ℕ}
    (range : before.jobRange collectionId = some (startBlock, fixedEnd))
    (resumed : startBlock + count ≤ cursor) :
    Achieves collectionId count before (afterOpening settings cursor fixedEnd) := by
  simp only [afterOpening]
  split_ifs with more
  · refine ⟨startBlock, range, ?_⟩
    simp only [scanSliceBlocks]
    omega
  · trivial

/-- An execution resumes behind all the blocks that were committed before it. -/
theorem achieves_openJob (holds : RangeInvariant collectionId before)
    (scanned : count = 0 ∨ ScannedTo collectionId count before) (settings : WorkerSettings)
    {startBlock finalized cursor fixedEnd : ℕ}
    (opened : openJob collectionId startBlock finalized before =
      .ok (after, some (cursor, fixedEnd))) :
    Achieves collectionId count after (afterOpening settings cursor fixedEnd) := by
  rcases holds.openJob opened with ⟨_, progresses, resumes⟩
  rcases resumes rfl with ⟨first, range, first_le, _⟩
  refine achieves_afterOpening settings range ?_
  rcases scanned with rfl | ⟨other, endBlock, held, completed | ⟨_, committed, found, enough⟩⟩
  · exact first_le
  · rcases openJob_status opened with ⟨_, impossible⟩ | ⟨unfinished, _⟩
    · cases impossible
    · exact absurd completed unfinished
  · cases range.symm.trans (progresses.range held)
    have cursor_eq : ∀ block, resumeCursor collectionId block before = committed + 1 := by
      intro block
      rw [resumeCursor_eq, found]
    rcases openJob_eq_ok opened with ⟨_, _, _, _, same⟩ |
      ⟨job, _, ⟨_, _, impossible⟩ | ⟨_, _, same⟩⟩
    · cases same
      rw [cursor_eq]
      exact enough
    · cases impossible
    · cases same
      rw [cursor_eq]
      exact enough

end Phases

theorem jobStatus_finishJob {range : ℕ × ℕ} (held : before.jobRange collectionId = some range) :
    (finishJob collectionId before).jobStatus collectionId = some .completed := by
  rcases Option.map_eq_some_iff.mp held with ⟨job, found, _⟩
  rw [Database.jobStatus, finishJob, Database.job_updateCollection,
    before.job_updateJob collectionId ScanJob.finished fun _ => rfl, found]
  rfl

/-- What an uninterrupted action achieves, if the collection is there. -/
theorem ScanTransition.achieves
    (moved : ScanTransition primitives collectionId before phase event after next)
    (going : event ≠ .stop) (present : (before.collection collectionId).isSome)
    (holds : RangeInvariant collectionId before) (relies : PhaseInvariant collectionId before phase)
    (scanned : count = 0 ∨ ScannedTo collectionId count before)
    (achieves : Achieves collectionId count before phase) :
    Achieves collectionId count after next := by
  have advanced := moved.advances holds relies
  have stays := moved.statusEffect.jobStatus_completed
  have absent : before.collection collectionId ≠ none := Option.isSome_iff_ne_none.mp present
  cases moved with
  | absent missing | vanished missing => exact absurd missing absent
  | load | unknown | known | probe => trivial
  | gone recorded =>
      simp only [recordProbe] at recorded
      split at recorded
      · rename_i missing
        exact absurd missing absent
      · rcases Fallible.bind_eq_ok_iff.mp recorded with ⟨_, _, impossible⟩
        cases impossible
  | completed opened =>
      rcases openJob_eq_ok opened with ⟨_, _, _, _, impossible⟩ |
        ⟨job, found, ⟨status, rfl, _⟩ | ⟨_, _, impossible⟩⟩
      · cases impossible
      · refine ⟨job.startBlock, job.endBlock, ?_, .inl ?_⟩
        · simp [Database.jobRange, found]
        · simp [Database.jobStatus, found, status]
      · cases impossible
  | openJob opened => exact achieves_openJob holds scanned _ opened
  | split => exact achieves
  | batch => exact achieves_scanNext (ScanSlice.Extends.mono advanced.2.2 achieves) _ _ _
  | select => exact achieves_enrichNext relies achieves _ _ _
  | @enrich slice address hash hashes warnings answers _ enriched =>
      have selecting : PhaseInvariant collectionId before (.selecting slice) := relies
      exact achieves_enrichNext (advanced.2.2.phaseInvariant selecting)
        (ScanSlice.Extends.mono advanced.2.2 achieves) _ _ _
  | @merge slice warnings =>
      have selecting : PhaseInvariant collectionId before (.selecting slice) := relies
      exact achieves_afterWarnings (advanced.2.2.phaseInvariant selecting)
        (ScanSlice.Extends.mono advanced.2.2 achieves)
  | finish =>
      rcases relies with ⟨startBlock, endBlock, range, _⟩
      exact ⟨startBlock, endBlock, advanced.2.2.range range, .inl (jobStatus_finishJob range)⟩
  | stop => exact absurd rfl going

namespace ScanningWorld

variable {world finish : World Database ScanExecution} {index : ℕ}

/-- Any action of any execution is progress of the scan. -/
theorem act (holds : ScanningWorld collectionId world)
    (acted : (scanProgram primitives).act world index event = some finish) :
    ScanningWorld collectionId finish ∧ Progresses collectionId world.store finish.store ∧
      StaysCompleted collectionId world.store finish.store := by
  rcases holds.processes index with ⟨own, relies⟩
  have moves : ∀ {store state},
      (scanProgram primitives).step world.store (world.process index) event = some (store, state) →
      state.collectionId = collectionId ∧
        ScanTransition primitives collectionId world.store (world.process index).phase event store
          state.phase := by
    intro store state stepped
    rcases scanTransition_of_step stepped with ⟨same, moved⟩
    rw [own] at same moved
    exact ⟨same, moved⟩
  rcases Program.act_eq_some_iff.mp acted with ⟨store, state, stepped, rfl⟩
  have moved := (moves stepped).2
  rcases moved.advances holds.ranges relies with ⟨ranges, owned, progresses⟩
  refine ⟨⟨moved.statusEffect.rowsRemain.collection holds.present, ranges, fun other => ?_⟩,
    progresses, moved.statusEffect.jobStatus_completed⟩
  by_cases same : other = index
  · subst same
    simpa using ⟨(moves stepped).1, owned⟩
  · rcases holds.processes other with ⟨others, relied⟩
    simpa [Function.update_of_ne same] using ⟨others, progresses.phaseInvariant relied⟩

end ScanningWorld

section Runs

variable {start finish : World Database ScanExecution}

/-- An execution hands on one slice more than was committed before it. -/
theorem Executes.scannedTo (executes : Executes primitives start finish)
    (holds : ScanningWorld collectionId start)
    (scanned : count = 0 ∨ ScannedTo collectionId count start.store) :
    ScanningWorld collectionId finish ∧
      ScannedTo collectionId (count + scanSliceBlocks) finish.store := by
  rcases executes with ⟨index, idle, ended, run⟩
  have achieved := run.invariant
    (fun world => ScanningWorld collectionId world ∧
      (count = 0 ∨ ScannedTo collectionId count world.store) ∧
      Achieves collectionId count world.store (world.process index).phase) ?_
    ⟨holds, scanned, by rw [idle]; trivial⟩
  · refine ⟨achieved.1, ?_⟩
    have achieves := achieved.2.2
    rw [ended] at achieves
    exact achieves
  · rintro world next other event ⟨holds, scanned, achieves⟩ going acted
    rcases holds.act acted with ⟨holds_next, progresses, stays⟩
    refine ⟨holds_next, scanned.imp_right (ScannedTo.mono progresses stays), ?_⟩
    by_cases same : other = index
    · subst same
      rcases Program.act_eq_some_iff.mp acted with ⟨store, state, stepped, rfl⟩
      rcases scanTransition_of_step stepped with ⟨_, moved⟩
      rcases holds.processes other with ⟨own, relies⟩
      rw [own] at moved
      simpa using moved.achieves (going rfl) holds.present holds.ranges relies scanned achieves
    · rcases Program.act_eq_some_iff.mp acted with ⟨store, state, stepped, rfl⟩
      simpa [Function.update_of_ne (Ne.symm same)] using Achieves.mono progresses stays achieves

theorem Executions.scannedTo {executions : ℕ}
    (executed : Executions primitives executions start finish)
    (holds : ScanningWorld collectionId start) :
    ScanningWorld collectionId finish ∧ (executions = 0 ∨
      ScannedTo collectionId (scanSliceBlocks * executions) finish.store) := by
  induction executed with
  | none => exact ⟨holds, .inl rfl⟩
  | @next count start middle finish earlier executes ih =>
      rcases ih holds with ⟨holds_middle, scanned⟩
      have before : scanSliceBlocks * count = 0 ∨
          ScannedTo collectionId (scanSliceBlocks * count) middle.store := by
        rcases scanned with rfl | scanned
        · exact .inl (Nat.mul_zero _)
        · exact .inr scanned
      rcases executes.scannedTo holds_middle before with ⟨holds_finish, scanned_finish⟩
      exact ⟨holds_finish, .inr (by rwa [Nat.mul_succ])⟩

/--
Executions that follow one another without being interrupted, whatever the provider
answers and whatever else runs meanwhile, complete the job as soon as their slices cover
its range; until then the first blocks of the range are committed, a slice for each.
-/
theorem executions_completeScan {db : Database} {executions : ℕ}
    (present : (db.collection collectionId).isSome) (ranges : RangeInvariant collectionId db)
    (positive : 0 < executions)
    (executed : Executions primitives executions (World.uniform db ⟨collectionId, .idle⟩)
      finish) :
    ∃ startBlock endBlock, finish.store.jobRange collectionId = some (startBlock, endBlock) ∧
      (endBlock < startBlock + scanSliceBlocks * executions →
        finish.store.jobStatus collectionId = some .completed) ∧
      (finish.store.jobStatus collectionId ≠ some .completed →
        ∃ committed, finish.store.committedBlock collectionId 1 = some committed ∧
          startBlock + scanSliceBlocks * executions ≤ committed + 1) := by
  have holds : ScanningWorld collectionId (World.uniform db ⟨collectionId, .idle⟩) :=
    ⟨present, ranges, fun _ => ⟨rfl, trivial⟩⟩
  rcases (executed.scannedTo holds).2 with none | scanned
  · exact absurd none (Nat.ne_of_gt positive)
  · rcases scanned with ⟨startBlock, endBlock, range, completed | ⟨within, committed⟩⟩
    · exact ⟨startBlock, endBlock, range, fun _ => completed, absurd completed⟩
    · refine ⟨startBlock, endBlock, range, fun covered => ?_, fun _ => committed⟩
      exact absurd within (Nat.not_le_of_lt covered)

end Runs

section Samples

/-- The end of a job of 150 blocks, or of its first slice. -/
def sampleHead (number : ℕ) : BlockReference := ⟨number, marker ++ List.replicate 64 '3'⟩

/-- An execution scans the first slice of a job that begins with block 7. -/
def firstSlice : List (ℕ × ScanEvent) :=
  [(0, .load sampleSettings), (0, .finalized (sampleHead 156)), (0, .openJob),
    (0, .batch [] (sampleHead 106)), (0, .select [])]

/-- Another execution scans the rest and completes the job. -/
def secondSlice : List (ℕ × ScanEvent) :=
  [(1, .load sampleSettings), (1, .finalized (sampleHead 200)), (1, .openJob),
    (1, .batch [] (sampleHead 156)), (1, .select []), (1, .finish)]

theorem executes_of_execute {start finish : World Database ScanExecution} {index : ℕ}
    {schedule : List (ℕ × ScanEvent)} (idle : (start.process index).phase = .idle)
    (executed : (scanProgram primitives).execute start schedule = some finish)
    (ended : (finish.process index).phase = .ended)
    (going : ∀ action ∈ schedule, action.2 ≠ .stop) : Executes primitives start finish := by
  have meets := (scanProgram primitives).meets_of_events (fun event => event ≠ .stop) going start
  refine ⟨index, idle, ended, (Program.reaches_of_execute executed meets).mono ?_⟩
  intro world other event going _
  exact going

end Samples

/-- Two executions complete the job of 150 blocks. -/
theorem sampleScan_completed :
    ∃ world, Executions scanHashes 2 sampleWorld world ∧
      ∃ startBlock endBlock, world.store.jobRange 1 = some (startBlock, endBlock) ∧
        (endBlock < startBlock + scanSliceBlocks * 2 →
          world.store.jobStatus 1 = some .completed) := by
  have ends : ((scanProgram scanHashes).execute sampleWorld firstSlice).bind (fun middle =>
      ((scanProgram scanHashes).execute middle secondSlice).map fun world =>
        (middle.process 0).phase.isEnded && (world.process 1).phase.isEnded) = some true := by
    decide +kernel
  rcases Option.bind_eq_some_iff.mp ends with ⟨middle, first, ends⟩
  rcases Option.map_eq_some_iff.mp ends with ⟨world, second, ended⟩
  rcases Bool.and_eq_true_iff.mp ended with ⟨firstEnded, secondEnded⟩
  have untouched := Program.execute_process_of_notMem first (show 1 ∉ [0, 0, 0, 0, 0] by decide)
  have earlier := executes_of_execute rfl first (phase_eq_ended firstEnded) (by simp [firstSlice])
  have later := executes_of_execute (by rw [untouched]; rfl) second (phase_eq_ended secondEnded)
    (by simp [secondSlice])
  have ranges : RangeInvariant 1 sampleDatabase := by
    constructor
    · intro startBlock endBlock impossible
      cases impossible
    · intro committed impossible
      cases impossible
  have executed : Executions scanHashes 2 sampleWorld world := .next (.next (.none _) earlier) later
  rcases executions_completeScan (by decide) ranges (by decide) executed with
    ⟨startBlock, endBlock, range, completes, _⟩
  exact ⟨world, executed, startBlock, endBlock, range, completes⟩

end CopyMint
