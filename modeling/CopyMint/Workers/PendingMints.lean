import CopyMint.Workers.GapFree
import Mathlib.Data.List.Dedup

/-!
# Mints left behind by enrichment

A batch commits its mints and moves the checkpoint before the mints are enriched.
An execution that stops in between leaves them to nobody: the next one resumes
after the checkpoint and enriches only its own slice. In a sequence of executions
that never stop while a mint of the collection is pending, the pending mints are
always those of the slice at hand, and none is left when the job is completed.
-/

namespace CopyMint

open Hexadecimal Relational Interleaving

/-- The phase is between the start and the end of an execution. -/
def ScanPhase.isActive : ScanPhase → Bool
  | .idle | .ended => false
  | _ => true

/-- An execution begins. -/
def ScanEvent.isLoad : ScanEvent → Bool
  | .load _ => true
  | _ => false

/-- An execution stops. -/
def ScanEvent.isStop : ScanEvent → Bool
  | .stop => true
  | _ => false

/-- An execution starts only when no other one is under way. -/
def Sequential : Condition Database ScanExecution ScanEvent :=
  fun world index event => event.isLoad = true →
    ∀ other, other ≠ index → (world.process other).phase.isActive = false

/-- The answer to a log request has no log outside the range. -/
def isWithinRange : ScanPhase → ScanEvent → Bool
  | .scanning _ slice cursor chunk, .batch logs boundary =>
      logs.all fun log => cursor ≤ log.blockNumber ∧
        log.blockNumber ≤ (scanBatch slice cursor chunk logs boundary).endBlock
  | _, _ => true

variable (collectionId : ℕ)

/-- No mint of the collection waits for enrichment. -/
def Settled (db : Database) : Prop :=
  ∀ row ∈ db.mintEvents, row.collectionId = collectionId → row.isPending = false

/--
Executions follow one another, log requests are answered within their ranges, and
an execution stops early only while no mint of the collection is pending.
-/
structure StopsSettled (world : World Database ScanExecution) (index : ℕ) (event : ScanEvent) :
    Prop where
  sequential : Sequential world index event
  answers : isWithinRange (world.process index).phase event = true
  settled : event.isStop = true → Settled collectionId world.store

/-- No mint in the range of a completed job is left without enrichment. -/
def NoMintLeftBehind (db : Database) : Prop :=
  ∀ job, db.job collectionId = some job → job.status = .completed →
    ∀ row ∈ db.mintEvents, row.collectionId = collectionId → job.startBlock ≤ row.blockNumber →
      row.blockNumber ≤ job.endBlock → row.identityReasonCode ≠ "not_enriched"

/-- The mints that wait for enrichment are those that the current execution will enrich. -/
def PendingInvariant (db : Database) : ScanPhase → Prop
  | .scanning _ slice cursor _ =>
      (db.collection collectionId).isSome ∧
        (∀ job, db.job collectionId = some job → job.status = .running) ∧
        slice.startBlock ≤ cursor ∧
        ∀ row ∈ db.mintEvents, row.collectionId = collectionId → row.isPending = true →
          slice.startBlock ≤ row.blockNumber ∧ row.blockNumber ≤ slice.sliceEnd
  | .selecting slice =>
      (db.collection collectionId).isSome ∧
        (∀ job, db.job collectionId = some job → job.status = .running) ∧
        ∀ row ∈ db.mintEvents, row.collectionId = collectionId → row.isPending = true →
          slice.startBlock ≤ row.blockNumber ∧ row.blockNumber ≤ slice.sliceEnd
  | .enriching _ _ hashes _ =>
      (db.collection collectionId).isSome ∧
        (∀ job, db.job collectionId = some job → job.status = .running) ∧
        ∀ row ∈ db.mintEvents, row.collectionId = collectionId → row.isPending = true →
          row.transactionHash ∈ hashes
  | .loaded _ _ | .probing _ _ _ | .opening _ _ _ _ | .merging _ _ | .finishing =>
      (db.collection collectionId).isSome ∧ Settled collectionId db
  | .idle | .ended => Settled collectionId db

variable {collectionId} {primitives : Primitives} {db : Database} {slice : ScanSlice}

theorem pendingInvariant_afterWarnings (found : (db.collection collectionId).isSome)
    (settled : Settled collectionId db) :
    PendingInvariant collectionId db slice.afterWarnings := by
  simp only [ScanSlice.afterWarnings]
  split
  · exact ⟨found, settled⟩
  · exact settled

theorem pendingInvariant_afterEnrichment (found : (db.collection collectionId).isSome)
    (settled : Settled collectionId db) (warnings : List String) :
    PendingInvariant collectionId db (slice.afterEnrichment warnings) := by
  simp only [ScanSlice.afterEnrichment]
  split
  · exact pendingInvariant_afterWarnings found settled
  · exact ⟨found, settled⟩

/-- Once no hash is left, no mint is pending. -/
theorem pendingInvariant_enrichNext (found : (db.collection collectionId).isSome)
    (running : ∀ job, db.job collectionId = some job → job.status = .running)
    {hashes : List Bytes}
    (pending : ∀ row ∈ db.mintEvents, row.collectionId = collectionId → row.isPending = true →
      row.transactionHash ∈ hashes) (collectionAddress : Text) (warnings : List String) :
    PendingInvariant collectionId db (slice.enrichNext collectionAddress hashes warnings) := by
  cases hashes with
  | nil =>
      refine pendingInvariant_afterEnrichment found (fun row row_mem own => ?_) _
      cases waits : row.isPending with
      | false => rfl
      | true => simpa using pending row row_mem own waits
  | cons hash hashes => exact ⟨found, running, pending⟩

/-- A batch adds pending mints of its own range only. -/
theorem commit_pending {before after : Database} {batch : ScanBatch}
    (committed : (batchConsumer collectionId).commit primitives batch before = .ok after)
    (within : ∀ log ∈ batch.logs, batch.startBlock ≤ log.blockNumber ∧
      log.blockNumber ≤ batch.endBlock)
    {row : MintEvent} (row_mem : row ∈ after.mintEvents) :
    row ∈ before.mintEvents ∨
      (batch.startBlock ≤ row.blockNumber ∧ row.blockNumber ≤ batch.endBlock) := by
  rcases SqlAlchemyMintBatchConsumer.commit_eq_ok committed with
    ⟨stored, endBlockHash, extended, _, _, rfl⟩
  rcases extended.mints_new row row_mem with old | ⟨log, log_mem, mint, isMint, records, _⟩
  · exact Or.inl old
  · right
    rw [records.blockNumber, isMint.isFrom.blockNumber]
    exact within log log_mem

/-- A mint that waits after an enrichment has waited before, and for another transaction. -/
theorem waits_of_enrichTransaction {before after : Database} {hash : Bytes}
    (enriches : EnrichesTransaction collectionId hash before after) {row : MintEvent}
    (row_mem : row ∈ after.mintEvents) (own : row.collectionId = collectionId)
    (waits : row.isPending = true) : row ∈ before.mintEvents ∧ row.transactionHash ≠ hash := by
  rcases Fallible.exists_left_of_forall₂ enriches.mints row_mem with ⟨old, old_mem, enrichedAt⟩
  cases selected : old.awaits collectionId hash with
  | true => cases (enrichedAt.settled selected).symm.trans waits
  | false =>
      cases enrichedAt.untouched selected
      refine ⟨old_mem, fun this_hash => ?_⟩
      simp [MintEvent.awaits, own, this_hash, waits] at selected

/-- One transition of the current execution keeps track of the pending mints. -/
theorem ScanTransition.pending {before after : Database} {phase next : ScanPhase}
    {event : ScanEvent}
    (moved : ScanTransition primitives collectionId before phase event after next)
    (holds : PendingInvariant collectionId before phase)
    (answers : isWithinRange phase event = true)
    (settled : event.isStop = true → Settled collectionId before) :
    PendingInvariant collectionId after next := by
  cases moved with
  | absent => exact holds
  | load found => exact ⟨Option.isSome_iff_exists.mpr ⟨_, found⟩, holds⟩
  | unknown => exact holds
  | known => exact holds
  | gone => exact holds.2
  | probe recorded =>
      rcases recordProbe_eq_ok recorded with ⟨change, kept, rfl⟩
      refine ⟨?_, holds.2⟩
      simp only [Database.collection, Database.updateCollection, lookup_updateWhere kept,
        Option.isSome_map]
      exact holds.1
  | completed opened =>
      have same := openJob_rows opened
      intro row row_mem
      exact holds.2 row (same.2.1 ▸ row_mem)
  | @openJob settings collection block startBlock _ cursor fixedEnd opened =>
      have same := openJob_rows opened
      have found : (after.collection collectionId).isSome := by
        rw [Database.collection_congr same.2.2.2]
        exact holds.1
      have none_pending : Settled collectionId after := by
        intro row row_mem
        exact holds.2 row (same.2.1 ▸ row_mem)
      have running : ∀ job, after.job collectionId = some job → job.status = .running := by
        rcases openJob_eq_ok opened with ⟨_, _, _, running, _⟩ | ⟨_, _, ⟨_, _, impossible⟩ |
          ⟨_, running, _⟩⟩
        · exact running
        · cases impossible
        · exact running
      simp only [afterOpening]
      split
      · refine ⟨found, running, le_rfl, fun row row_mem own waits => ?_⟩
        cases (none_pending row row_mem own).symm.trans waits
      · exact ⟨found, none_pending⟩
  | split halved => exact holds
  | @batch settings slice cursor chunk logs boundary _ committed =>
      rcases holds with ⟨found, running, start_le, pending⟩
      have within : ∀ log ∈ logs, cursor ≤ log.blockNumber ∧
          log.blockNumber ≤ (scanBatch slice cursor chunk logs boundary).endBlock := by
        simpa [isWithinRange] using answers
      have bounded := AdaptiveHistoricalScanner.batchEnd_le cursor chunk slice.sliceEnd
      have pending_after : ∀ row ∈ after.mintEvents, row.collectionId = collectionId →
          row.isPending = true →
          slice.startBlock ≤ row.blockNumber ∧ row.blockNumber ≤ slice.sliceEnd := by
        intro row row_mem own waits
        rcases commit_pending committed within row_mem with old | ⟨cursor_le, le_end⟩
        · exact pending row old own waits
        · exact ⟨start_le.trans cursor_le, le_end.trans bounded⟩
      have found_after : (after.collection collectionId).isSome := by
        rw [Database.collection_congr (collections_commit committed).1]
        exact found
      have running_after : ∀ job, after.job collectionId = some job → job.status = .running := by
        rw [job_commit committed]
        exact running
      simp only [ScanSlice.scanNext]
      split
      · rename_i more
        refine ⟨found_after, running_after, ?_, pending_after⟩
        simp only [scanBatch, AdaptiveHistoricalScanner.batchEnd] at more ⊢
        omega
      · exact ⟨found_after, running_after, pending_after⟩
  | vanished missing => simp [PendingInvariant, missing] at holds
  | @select slice hashes collection found selected =>
      rcases holds with ⟨exists_, running, pending⟩
      refine pendingInvariant_enrichNext exists_ running (fun row row_mem own waits => ?_) _ _
      refine selected.mem_iff.mpr ?_
      simp only [pendingHashes, List.mem_dedup, List.mem_map, List.mem_filter]
      exact ⟨row, ⟨row_mem, by simp [own, waits, pending row row_mem own waits]⟩, rfl⟩
  | @enrich slice address hash hashes warnings responses _ enriched =>
      rcases holds with ⟨found, running, pending⟩
      have enriches := enrichTransaction_eq_ok enriched
      refine pendingInvariant_enrichNext ?_ ?_ (fun row row_mem own waits => ?_) _ _
      · rw [Database.collection_congr enriches.collections]
        exact found
      · rw [Database.job_congr enriches.scanJobs]
        exact running
      · rcases waits_of_enrichTransaction enriches row_mem own waits with ⟨old_mem, different⟩
        exact (List.mem_cons.mp (pending row old_mem own waits)).resolve_left different
  | merge => exact pendingInvariant_afterWarnings holds.1 holds.2
  | finish => exact holds.2
  | stop => exact settled rfl

/-- One execution is the current one, and all others are over or have not started. -/
def PendingWorld (collectionId : ℕ) (world : World Database ScanExecution) : Prop :=
  (∀ index, (world.process index).collectionId = collectionId) ∧
    ∃ current, PendingInvariant collectionId world.store (world.process current).phase ∧
      ∀ other, other ≠ current → (world.process other).phase.isActive = false

theorem PendingWorld.act {world next : World Database ScanExecution} {index : ℕ}
    {event : ScanEvent} (holds : PendingWorld collectionId world)
    (meets : StopsSettled collectionId world index event)
    (acted : (scanProgram primitives).act world index event = some next) :
    PendingWorld collectionId next := by
  rcases holds with ⟨own, current, pending, inactive⟩
  rcases Program.act_eq_some_iff.mp acted with ⟨store, ⟨ownId, after⟩, stepped, rfl⟩
  rcases scanTransition_of_step stepped with ⟨same, moved⟩
  simp only [own index] at moved same
  have own_after : ∀ other,
      (Function.update world.process index ⟨ownId, after⟩ other).collectionId = collectionId := by
    intro other
    by_cases equal : other = index
    · subst equal
      simpa using same
    · simpa [Function.update_of_ne equal] using own other
  refine ⟨own_after, ?_⟩
  by_cases isCurrent : index = current
  · subst isCurrent
    refine ⟨index, ?_, fun other different => ?_⟩
    · simpa using moved.pending pending meets.answers meets.settled
    · simpa [Function.update_of_ne different] using inactive other different
  · -- Only starting and stopping are possible where another execution is the current one.
    have inactiveBefore := inactive index isCurrent
    generalize (world.process index).phase = phase at moved inactiveBefore
    cases moved with
    | @load settings collection found =>
        have others := meets.sequential rfl
        have currentOver := others current (Ne.symm isCurrent)
        have settled : Settled collectionId world.store := by
          generalize (world.process current).phase = currentPhase at pending currentOver
          cases currentPhase <;> first | exact pending | cases currentOver
        refine ⟨index, ?_, fun other different => ?_⟩
        · simpa using ⟨Option.isSome_iff_exists.mpr ⟨_, found⟩, settled⟩
        · simpa [Function.update_of_ne different] using others other different
    | absent | stop =>
        refine ⟨current, by simpa [Function.update_of_ne (Ne.symm isCurrent)] using pending,
          fun other different => ?_⟩
        by_cases equal : other = index
        · subst equal
          simp [ScanPhase.isActive]
        · simpa [Function.update_of_ne equal] using inactive other different
    | _ => cases inactiveBefore

theorem PendingInvariant.noMintLeftBehind {phase : ScanPhase}
    (holds : PendingInvariant collectionId db phase) : NoMintLeftBehind collectionId db := by
  intro job job_eq completed row row_mem own _ _
  have settled : Settled collectionId db := by
    cases phase with
    | idle | ended => exact holds
    | loaded | probing | opening | merging | finishing => exact holds.2
    | scanning | selecting | enriching => cases (holds.2.1 job job_eq).symm.trans completed
  exact of_decide_eq_false (settled row row_mem own)

/--
In every sequence of executions that never stop while a mint is pending, no mint
in the range of a completed job is left behind.
-/
theorem scan_leavesNoMintBehind {world : World Database ScanExecution}
    (settled : Settled collectionId db)
    (run : (scanProgram primitives).Reaches (StopsSettled collectionId)
      (World.uniform db ⟨collectionId, .idle⟩) world) :
    NoMintLeftBehind collectionId world.store := by
  have holds : PendingWorld collectionId world :=
    run.invariant (PendingWorld collectionId) (fun before meets acted => before.act meets acted)
      ⟨fun _ => rfl, 0, settled, fun _ _ => rfl⟩
  rcases holds with ⟨_, current, pending, _⟩
  exact pending.noMintLeftBehind

section Samples

/-- The rest of an execution after its batch: enrichment, warnings and completion. -/
def enrichSchedule : List (ℕ × ScanEvent) :=
  [(0, .select [AbiEncoding.word 5]),
    (0, .enrich ⟨sampleTransaction, sampleReceipt, .error ⟨"rpc_-32601", false, false⟩⟩),
    (0, .merge), (0, .finish)]

/-- A second execution, which finds the job's range committed. -/
def resumeSchedule : List (ℕ × ScanEvent) :=
  [(1, .finalized sampleBlock), (1, .openJob), (1, .finish)]

/-- Executions start one after another among the first processes. -/
def SequentialBelow (bound : ℕ) : Condition Database ScanExecution ScanEvent :=
  fun world index event => event.isLoad = true →
    ∀ other < bound, other ≠ index → (world.process other).phase.isActive = false

instance (bound : ℕ) (world : World Database ScanExecution) (index : ℕ) (event : ScanEvent) :
    Decidable (SequentialBelow bound world index event) :=
  inferInstanceAs (Decidable (_ → _))

/-- Beyond the processes that a schedule names, every one is inactive anyway. -/
theorem meets_sequential {extra : Condition Database ScanExecution ScanEvent} (bound : ℕ)
    {world : World Database ScanExecution} {schedule : List (ℕ × ScanEvent)}
    (named : ∀ action ∈ schedule, action.1 < bound)
    (beyond : ∀ other, bound ≤ other → (world.process other).phase.isActive = false)
    (meets : (scanProgram primitives).Meets
      (fun world index event => SequentialBelow bound world index event ∧ extra world index event)
      world schedule) :
    (scanProgram primitives).Meets
      (fun world index event => Sequential world index event ∧ extra world index event)
      world schedule := by
  induction schedule generalizing world with
  | nil => trivial
  | cons action schedule ih =>
      rcases action with ⟨index, event⟩
      refine ⟨⟨fun starts other different => ?_, meets.1.2⟩, fun next acted => ?_⟩
      · by_cases below : other < bound
        · exact meets.1.1 starts other below different
        · exact beyond other (Nat.le_of_not_lt below)
      · refine ih (fun action action_mem => named action (List.mem_cons_of_mem _ action_mem))
          (fun other above => ?_) (meets.2 next acted)
        have different : other ≠ index := by
          have index_lt : index < bound := named (index, event) List.mem_cons_self
          omega
        rcases Program.act_eq_some_iff.mp acted with ⟨store, state, _, rfl⟩
        simpa [Function.update_of_ne different] using beyond other above

end Samples

/-- A batch is committed and its mint left behind by a stop before the enrichment. -/
theorem stoppedScan_leavesMintBehind :
    ¬∀ world, (scanProgram scanHashes).Reaches Sequential sampleWorld world →
      NoMintLeftBehind 1 world.store := by
  intro noneLeft
  let schedule := commitSchedule ++ (0, .stop) :: (1, .load sampleSettings) :: resumeSchedule
  have reached : ((scanProgram scanHashes).execute sampleWorld schedule).any
      (fun world => (world.store.job 1).any fun job => job.status = .completed &&
        world.store.mintEvents.any fun row => row.collectionId = 1 ∧
          (job.startBlock ≤ row.blockNumber ∧ row.blockNumber ≤ job.endBlock) ∧
          row.identityReasonCode = "not_enriched") = true := by decide +kernel
  rcases (Option.any_eq_true _ _).mp reached with ⟨world, executed, facts⟩
  rcases (Option.any_eq_true _ _).mp facts with ⟨job, job_eq, facts⟩
  simp only [Bool.and_eq_true, decide_eq_true_eq, List.any_eq_true] at facts
  rcases facts with ⟨completed, row, row_mem, own, ⟨start_le, le_end⟩, waits⟩
  have meets : (scanProgram scanHashes).Meets (fun world index event =>
      Sequential world index event ∧ Unrestricted world index event) sampleWorld schedule :=
    meets_sequential 2 (by decide) (fun _ _ => rfl) (by decide +kernel)
  have run := (Program.reaches_of_execute executed meets).mono fun allowed => allowed.1
  exact noneLeft world run job job_eq completed row row_mem own start_le le_end waits

theorem sampleScan_leavesNoMintBehind :
    ∃ world : World Database ScanExecution,
      (scanProgram scanHashes).Reaches (StopsSettled 1) sampleWorld world ∧
        (∃ row ∈ world.store.mintEvents, row.collectionId = 1) ∧
          (world.store.job 1).map ScanJob.status = some .completed ∧
            NoMintLeftBehind 1 world.store := by
  have finished : ((scanProgram scanHashes).execute sampleWorld
      (commitSchedule ++ enrichSchedule)).any
      (fun world => world.store.mintEvents.any (fun row => row.collectionId = 1) &&
        (world.store.job 1).map ScanJob.status = some .completed) = true := by
    decide +kernel
  rcases (Option.any_eq_true _ _).mp finished with ⟨world, executed, facts⟩
  simp only [Bool.and_eq_true, List.any_eq_true, decide_eq_true_eq] at facts
  have meets : (scanProgram scanHashes).Meets (fun world index event =>
      Sequential world index event ∧ isWithinRange (world.process index).phase event = true ∧
        event.isStop = false) sampleWorld (commitSchedule ++ enrichSchedule) :=
    meets_sequential 1 (by decide) (fun _ _ => rfl) (by decide +kernel)
  have run : (scanProgram scanHashes).Reaches (StopsSettled 1) sampleWorld world := by
    refine (Program.reaches_of_execute executed meets).mono fun allowed => ?_
    exact ⟨allowed.1, allowed.2.1, fun stops => by simp [allowed.2.2] at stops⟩
  refine ⟨world, run, facts.1, facts.2, scan_leavesNoMintBehind ?_ run⟩
  simp [Settled, sampleDatabase]

end CopyMint
