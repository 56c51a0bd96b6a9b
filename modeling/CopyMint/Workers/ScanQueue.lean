import CopyMint.Workers.PendingMints
import CopyMint.Workers.ScanStatus

/-!
# The queue of the indexer

A scan goes on by messages: each holds the id of a collection, and an execution
that has more to scan sends the next one before its own is acknowledged. The
message of a killed worker is delivered again. The message of an execution that
raises is acknowledged like any other, and nothing records the failure, so that
the scan is forgotten unless another message of the collection is around.
-/

namespace CopyMint

open Hexadecimal Relational Interleaving

theorem CollectionScanStatus.isTerminal_of_isFinished {status : CollectionScanStatus}
    (finished : status.isFinished = true) : status.isTerminal = true := by
  cases status <;> first | rfl | cases finished

/-- Whether the slice is the last one, for an execution that returns from a phase. -/
def ScanPhase.completes : ScanPhase → Bool
  | .selecting _ | .enriching _ _ _ _ | .merging _ _ => false
  | _ => true

/-- A worker of the indexer, with the message that it has not acknowledged yet. -/
inductive IndexerWorker where
  | waiting
  | running (execution : ScanExecution)
  | returned (collectionId : ℕ) (completed : Bool)
  | continued (collectionId : ℕ)

/-- The message that a worker has not acknowledged. -/
def IndexerWorker.message : IndexerWorker → Option ℕ
  | .waiting => none
  | .running execution => some execution.collectionId
  | .returned collectionId _ | .continued collectionId => some collectionId

/-- The worker after a transaction of its execution. -/
def ScanExecution.advance (execution : ScanExecution) : ScanPhase → IndexerWorker
  | .ended => .returned execution.collectionId execution.phase.completes
  | phase => .running ⟨execution.collectionId, phase⟩

/-- The database and the broker, with the requests that have been made so far. -/
structure Indexer where
  db : Database
  messages : List ℕ
  requested : List ℕ

/-- Put a message in the queue. -/
def Indexer.sendTask (indexer : Indexer) (collectionId : ℕ) : Indexer :=
  { indexer with messages := indexer.messages ++ [collectionId] }

/-- What users, the broker and workers do next. -/
inductive IndexerEvent where
  | addCollection (collection : Collection)
  | requestScan (collectionId : ℕ)
  | deliver (collectionId : ℕ)
  | scan (event : ScanEvent)
  | sendTask
  | acknowledge
  | raise
  | kill

variable (primitives : Primitives)

/-- One action of a worker, or of the service that adds collections and requests their scans. -/
def indexerStep (indexer : Indexer) (worker : IndexerWorker) :
    IndexerEvent → Option (Indexer × IndexerWorker)
  | .addCollection collection =>
      if indexer.db.collection collection.id = none ∧ indexer.db.job collection.id = none then
        let collections := indexer.db.collections ++ [collection]
        some ({ indexer with db := { indexer.db with collections } }, worker)
      else none
  | .requestScan collectionId =>
      if (indexer.db.collection collectionId).isSome then
        some ({ indexer.sendTask collectionId with
          requested := indexer.requested ++ [collectionId] }, worker)
      else none
  | .deliver collectionId =>
      match worker with
      | .waiting =>
          if collectionId ∈ indexer.messages then
            some ({ indexer with messages := indexer.messages.erase collectionId },
              .running ⟨collectionId, .idle⟩)
          else none
      | _ => none
  | .scan event =>
      match worker with
      | .running execution =>
          if event.isStop then none
          else
            (scanStep primitives execution.collectionId indexer.db execution.phase event).map
              fun result => ({ indexer with db := result.1 }, execution.advance result.2)
      | _ => none
  | .sendTask =>
      match worker with
      | .returned collectionId false =>
          some (indexer.sendTask collectionId, .continued collectionId)
      | _ => none
  | .acknowledge =>
      match worker with
      | .returned _ true | .continued _ => some (indexer, .waiting)
      | _ => none
  | .raise => worker.message.map fun _ => (indexer, .waiting)
  | .kill => worker.message.map fun collectionId => (indexer.sendTask collectionId, .waiting)

/-- The queue and its workers as a program. -/
def indexerProgram : Program Indexer IndexerWorker IndexerEvent where
  step := indexerStep primitives

/-- What one action can do, with the conditions under which it does. -/
inductive IndexerTransition (indexer : Indexer) :
    IndexerWorker → IndexerEvent → Indexer → IndexerWorker → Prop
  | addCollection {worker collection} (fresh : indexer.db.collection collection.id = none)
      (unscanned : indexer.db.job collection.id = none) :
      IndexerTransition indexer worker (.addCollection collection)
        { indexer with
          db := { indexer.db with collections := indexer.db.collections ++ [collection] } } worker
  | requestScan {worker collectionId} (found : (indexer.db.collection collectionId).isSome) :
      IndexerTransition indexer worker (.requestScan collectionId)
        { indexer.sendTask collectionId with
          requested := indexer.requested ++ [collectionId] } worker
  | deliver {collectionId} (queued : collectionId ∈ indexer.messages) :
      IndexerTransition indexer .waiting (.deliver collectionId)
        { indexer with messages := indexer.messages.erase collectionId }
        (.running ⟨collectionId, .idle⟩)
  | scan {execution event db phase} (runs : event ≠ .stop)
      (moved : ScanTransition primitives execution.collectionId indexer.db execution.phase event db
        phase) :
      IndexerTransition indexer (.running execution) (.scan event) { indexer with db }
        (execution.advance phase)
  | sendTask {collectionId} :
      IndexerTransition indexer (.returned collectionId false) .sendTask
        (indexer.sendTask collectionId) (.continued collectionId)
  | completed {collectionId} :
      IndexerTransition indexer (.returned collectionId true) .acknowledge indexer .waiting
  | continued {collectionId} :
      IndexerTransition indexer (.continued collectionId) .acknowledge indexer .waiting
  | raise {worker collectionId} (held : worker.message = some collectionId) :
      IndexerTransition indexer worker .raise indexer .waiting
  | kill {worker collectionId} (held : worker.message = some collectionId) :
      IndexerTransition indexer worker .kill (indexer.sendTask collectionId) .waiting

variable {primitives}

theorem indexerTransition_of_step {indexer next : Indexer} {worker after : IndexerWorker}
    {event : IndexerEvent}
    (stepped : (indexerProgram primitives).step indexer worker event = some (next, after)) :
    IndexerTransition primitives indexer worker event next after := by
  simp only [indexerProgram] at stepped
  cases event with
  | addCollection collection =>
      simp only [indexerStep] at stepped
      split_ifs at stepped with fresh
      cases stepped
      exact .addCollection fresh.1 fresh.2
  | requestScan collectionId =>
      simp only [indexerStep] at stepped
      split_ifs at stepped with found
      cases stepped
      exact .requestScan found
  | deliver collectionId =>
      cases worker <;> simp only [indexerStep, reduceCtorEq] at stepped
      split_ifs at stepped with queued
      cases stepped
      exact .deliver queued
  | scan event =>
      cases worker <;> simp only [indexerStep, reduceCtorEq] at stepped
      split_ifs at stepped with stops
      rcases Option.map_eq_some_iff.mp stepped with ⟨⟨db, phase⟩, moved, equal⟩
      cases equal
      refine .scan ?_ (scanTransition_of_scanStep moved)
      rintro rfl
      exact stops rfl
  | sendTask =>
      cases worker with
      | returned collectionId completed =>
          cases completed <;> cases stepped
          exact .sendTask
      | _ => cases stepped
  | acknowledge =>
      cases worker with
      | returned collectionId completed =>
          cases completed <;> cases stepped
          exact .completed
      | continued collectionId =>
          cases stepped
          exact .continued
      | _ => cases stepped
  | raise =>
      rcases Option.map_eq_some_iff.mp stepped with ⟨collectionId, held, equal⟩
      cases equal
      exact .raise held
  | kill =>
      rcases Option.map_eq_some_iff.mp stepped with ⟨collectionId, held, equal⟩
      cases equal
      exact .kill held

/-- The scan of a collection has come to an end. -/
def Terminal (collectionId : ℕ) (db : Database) : Prop :=
  ∃ status, db.scanStatus collectionId = some status ∧ status.isTerminal = true

/-- No requested scan is without a message before it has come to an end. -/
def NoOrphanedScan (world : World Indexer IndexerWorker) : Prop :=
  ∀ collectionId ∈ world.store.requested, collectionId ∈ world.store.messages ∨
    (∃ index, (world.process index).message = some collectionId) ∨
      Terminal collectionId world.store.db

/-- The execution of a worker has yet to send the next message of the scan. -/
def IndexerWorker.Carries (collectionId : ℕ) : IndexerWorker → Prop
  | .running execution => execution.collectionId = collectionId
  | .returned held _ => held = collectionId
  | .waiting | .continued _ => False

/-- What a worker relies on. -/
def IndexerWorker.Relies (db : Database) : IndexerWorker → Prop
  | .waiting => True
  | .running execution =>
      (db.collection execution.collectionId).isSome ∧
        RowsSeen execution.collectionId db execution.phase
  | .returned collectionId completed =>
      (db.collection collectionId).isSome ∧
        (completed = true → db.jobStatus collectionId = some .completed)
  | .continued collectionId => (db.collection collectionId).isSome

/-- Scans are only ever carried on. -/
structure ScansRemain (before after : Database) : Prop where
  rows : ∀ collectionId, RowsRemain collectionId before after
  completed : ∀ collectionId, before.jobStatus collectionId = some .completed →
    after.jobStatus collectionId = some .completed

theorem ScansRemain.refl (db : Database) : ScansRemain db db :=
  ⟨fun _ => ⟨id, id⟩, fun _ => id⟩

theorem ScanTransition.scansRemain {collectionId : ℕ} {before after : Database}
    {phase next : ScanPhase} {event : ScanEvent}
    (moved : ScanTransition primitives collectionId before phase event after next) :
    ScansRemain before after := by
  constructor
  · intro other
    by_cases own : other = collectionId
    · exact own ▸ moved.statusEffect.rowsRemain
    · rcases moved.elsewhere own with ⟨job, collection⟩
      exact ⟨fun found => collection ▸ found, fun found => job ▸ found⟩
  · intro other completed
    by_cases own : other = collectionId
    · rw [own] at completed ⊢
      exact moved.statusEffect.jobStatus_completed completed
    · simpa only [Database.jobStatus, (moved.elsewhere own).1] using completed

theorem IndexerWorker.Relies.mono {before after : Database} {worker : IndexerWorker}
    (remain : ScansRemain before after) (relies : worker.Relies before) : worker.Relies after := by
  cases worker with
  | running execution =>
      exact ⟨(remain.rows _).collection relies.1, (remain.rows _).rowsSeen relies.2⟩
  | returned collectionId completed =>
      exact ⟨(remain.rows _).collection relies.1,
        fun isLast => remain.completed _ (relies.2 isLast)⟩
  | continued collectionId => exact (remain.rows _).collection relies
  | waiting => trivial

theorem IndexerWorker.Relies.collection {db : Database} {worker : IndexerWorker}
    (relies : worker.Relies db) {collectionId : ℕ} (held : worker.message = some collectionId) :
    (db.collection collectionId).isSome := by
  cases worker with
  | waiting => cases held
  | running | returned =>
      cases held
      exact relies.1
  | continued =>
      cases held
      exact relies

/-- An execution that reports completion leaves a completed job. -/
theorem ScanTransition.jobStatus_of_completes {collectionId : ℕ} {before after : Database}
    {phase next : ScanPhase} {event : ScanEvent}
    (moved : ScanTransition primitives collectionId before phase event after next)
    (runs : event ≠ .stop) (found : (before.collection collectionId).isSome)
    (seen : RowsSeen collectionId before phase) (ended : next = .ended)
    (completes : phase.completes = true) : after.jobStatus collectionId = some .completed := by
  cases moved with
  | absent missing => simp [missing] at found
  | gone recorded =>
      rcases Option.isSome_iff_exists.mp found with ⟨row, row_eq⟩
      simp only [recordProbe, row_eq] at recorded
      rcases Fallible.bind_eq_ok_iff.mp recorded with ⟨hash, _, impossible⟩
      cases impossible
  | completed opened =>
      rcases openJob_eq_ok opened with ⟨_, _, _, _, impossible⟩ |
        ⟨job, job_eq, ⟨status, rfl, _⟩ | ⟨_, _, impossible⟩⟩
      · cases impossible
      · simp [Database.jobStatus, job_eq, status]
      · cases impossible
  | openJob =>
      simp only [afterOpening] at ended
      split at ended <;> cases ended
  | batch =>
      simp only [ScanSlice.scanNext] at ended
      split at ended <;> cases ended
  | finish =>
      have job := before.job_updateJob collectionId ScanJob.finished fun _ => rfl
      rcases Option.isSome_iff_exists.mp seen.2 with ⟨row, row_eq⟩
      simp [Database.jobStatus, finishJob, job, row_eq, ScanJob.finished]
  | stop => exact absurd rfl runs
  | load | unknown | known | probe | split => cases ended
  | vanished | select | enrich | merge => cases completes

theorem ScanExecution.carries_advance (execution : ScanExecution) (phase : ScanPhase) :
    (execution.advance phase).Carries execution.collectionId := by
  cases phase <;> rfl

theorem ScanExecution.relies_advance {execution : ScanExecution} {phase : ScanPhase}
    {db : Database} (found : (db.collection execution.collectionId).isSome)
    (seen : RowsSeen execution.collectionId db phase)
    (completed : phase = .ended → execution.phase.completes = true →
      db.jobStatus execution.collectionId = some .completed) :
    (execution.advance phase).Relies db := by
  cases phase with
  | ended => exact ⟨found, completed rfl⟩
  | _ => exact ⟨found, seen⟩

theorem collection_append {db : Database} {collection : Collection}
    (fresh : db.collection collection.id = none) (collectionId : ℕ) :
    ({ db with collections := db.collections ++ [collection] } : Database).collection collectionId =
      if collection.id = collectionId then some collection else db.collection collectionId := by
  simp only [Database.collection, lookup_append, lookup_singleton]
  split
  · rename_i same
    simp only [Database.collection] at fresh
    simp [← same, fresh]
  · simp

/-- A message of the collection is queued or carried by the worker, or its scan is over. -/
def CarriedOn (indexer : Indexer) (worker : IndexerWorker) (collectionId : ℕ) : Prop :=
  collectionId ∈ indexer.messages ∨ worker.Carries collectionId ∨ Terminal collectionId indexer.db

namespace IndexerTransition

variable {indexer next : Indexer} {worker after : IndexerWorker} {event : IndexerEvent}

theorem scansRemain (moved : IndexerTransition primitives indexer worker event next after) :
    ScansRemain indexer.db next.db := by
  cases moved with
  | addCollection fresh =>
      refine ⟨fun collectionId => ⟨fun found => ?_, id⟩, fun _ => id⟩
      rw [collection_append fresh]
      split
      · rfl
      · exact found
  | scan _ moved => exact moved.scansRemain
  | requestScan | deliver | sendTask | completed | continued | raise | kill => exact .refl _

/-- Finished scans stay sound if no probe of one is stored. -/
theorem finishedSoundly (moved : IndexerTransition primitives indexer worker event next after)
    (relies : worker.Relies indexer.db)
    (early : ∀ {execution probe}, worker = .running execution → event = .scan (.probe probe) →
      indexer.db.jobStatus execution.collectionId ≠ some .completed) {collectionId : ℕ}
    (sound : FinishedSoundly collectionId indexer.db) : FinishedSoundly collectionId next.db := by
  cases moved with
  | @addCollection _ collection fresh unscanned =>
      intro completed
      have completedBefore : indexer.db.jobStatus collectionId = some .completed := completed
      rw [Database.scanStatus, collection_append fresh]
      split
      · rename_i same
        subst same
        simp [Database.jobStatus, unscanned] at completedBefore
      · exact sound completedBefore
  | @scan execution event db phase _ moved =>
      by_cases own : collectionId = execution.collectionId
      · subst own
        refine moved.statusEffect.finishedSoundly sound (moved.collection_of_finish relies.2) ?_
        intro isProbe _
        cases event with
        | probe probe => exact early rfl rfl
        | _ => cases isProbe
      · rcases moved.elsewhere own with ⟨job, collection⟩
        simpa only [FinishedSoundly, Database.jobStatus, Database.scanStatus, job, collection]
          using sound
  | requestScan | deliver | sendTask | completed | continued | raise | kill => exact sound

/-- Messages are those of stored collections. -/
theorem known (moved : IndexerTransition primitives indexer worker event next after)
    (relies : worker.Relies indexer.db)
    (known : ∀ collectionId ∈ indexer.messages, (indexer.db.collection collectionId).isSome) :
    ∀ collectionId ∈ next.messages, (next.db.collection collectionId).isSome := by
  have remain := moved.scansRemain
  have sent : ∀ {sentId}, (indexer.db.collection sentId).isSome →
      ∀ collectionId ∈ (indexer.sendTask sentId).messages,
        (indexer.db.collection collectionId).isSome := by
    intro sentId found collectionId queued
    rcases List.mem_append.mp queued with old | new
    · exact known collectionId old
    · exact List.mem_singleton.mp new ▸ found
  intro collectionId queued
  cases moved with
  | addCollection => exact (remain.rows _).collection (known collectionId queued)
  | requestScan found => exact sent found collectionId queued
  | deliver => exact known collectionId (List.mem_of_mem_erase queued)
  | scan => exact (remain.rows _).collection (known collectionId queued)
  | sendTask => exact sent (relies.collection rfl) collectionId queued
  | kill held => exact sent (relies.collection held) collectionId queued
  | completed | continued | raise => exact known collectionId queued

/-- A worker can rely on what its action has left behind. -/
theorem relies (moved : IndexerTransition primitives indexer worker event next after)
    (relies : worker.Relies indexer.db)
    (known : ∀ collectionId ∈ indexer.messages, (indexer.db.collection collectionId).isSome) :
    after.Relies next.db := by
  have remain := moved.scansRemain
  cases moved with
  | addCollection => exact relies.mono remain
  | requestScan => exact relies
  | deliver queued => exact ⟨known _ queued, trivial⟩
  | @scan execution event db phase runs moved =>
      apply ScanExecution.relies_advance
      · exact (remain.rows _).collection relies.1
      · exact moved.rowsSeen relies.2
      · intro ended completes
        exact moved.jobStatus_of_completes runs relies.1 relies.2 ended completes
  | sendTask => exact relies.1
  | completed | continued | raise | kill => trivial

/-- A worker carries a scan on by every action but failing. -/
theorem carriedOn (moved : IndexerTransition primitives indexer worker event next after)
    (relies : worker.Relies indexer.db) {collectionId : ℕ}
    (sound : FinishedSoundly collectionId indexer.db)
    (carried : CarriedOn indexer worker collectionId)
    (failing : event = .raise →
      collectionId ∈ indexer.messages ∨ Terminal collectionId indexer.db) :
    CarriedOn next after collectionId := by
  have sent : ∀ {sentId worker},
      collectionId ∈ indexer.messages ∨ sentId = collectionId ∨ Terminal collectionId indexer.db →
      CarriedOn (indexer.sendTask sentId) worker collectionId := by
    rintro sentId worker (queued | rfl | terminal)
    · exact .inl (List.mem_append_left _ queued)
    · exact .inl (List.mem_append_right _ (List.mem_singleton_self _))
    · exact .inr (.inr terminal)
  cases moved with
  | addCollection fresh =>
      refine carried.imp_right (.imp_right ?_)
      rintro ⟨status, found, terminal⟩
      rcases Option.map_eq_some_iff.mp found with ⟨row, row_eq, rfl⟩
      refine ⟨row.scanStatus, ?_, terminal⟩
      rw [Database.scanStatus, collection_append fresh, row_eq]
      split
      · rename_i same
        rw [same, row_eq] at fresh
        cases fresh
      · rfl
  | requestScan =>
      rcases carried with queued | carries | terminal
      · exact .inl (List.mem_append_left _ queued)
      · exact .inr (.inl carries)
      · exact .inr (.inr terminal)
  | @deliver deliveredId _ =>
      rcases carried with queued | carries | terminal
      · by_cases same : collectionId = deliveredId
        · exact .inr (.inl same.symm)
        · exact .inl ((List.mem_erase_of_ne same).mpr queued)
      · cases carries
      · exact .inr (.inr terminal)
  | @scan execution event db phase _ moved =>
      by_cases own : collectionId = execution.collectionId
      · subst own
        exact .inr (.inl (execution.carries_advance phase))
      · rcases carried with queued | carries | terminal
        · exact .inl queued
        · exact absurd carries.symm own
        · refine .inr (.inr ?_)
          simpa only [Terminal, Database.scanStatus, (moved.elsewhere own).2] using terminal
  | sendTask => exact sent carried
  | completed =>
      rcases carried with queued | rfl | terminal
      · exact .inl queued
      · rcases sound (relies.2 rfl) with ⟨status, found, finished⟩
        exact .inr (.inr ⟨status, found, CollectionScanStatus.isTerminal_of_isFinished finished⟩)
      · exact .inr (.inr terminal)
  | continued =>
      rcases carried with queued | carries | terminal
      · exact .inl queued
      · cases carries
      · exact .inr (.inr terminal)
  | raise => exact (failing rfl).imp_right .inr
  | @kill worker heldId held =>
      apply sent
      refine carried.imp_right (.imp_left fun carries => ?_)
      cases worker with
      | waiting | continued => cases carries
      | running | returned => exact Option.some.inj (held.symm.trans (congrArg some carries))

/-- What has been requested was requested before or is queued now. -/
theorem requested_or_queued (moved : IndexerTransition primitives indexer worker event next after)
    {collectionId : ℕ} (requested : collectionId ∈ next.requested) :
    collectionId ∈ indexer.requested ∨ collectionId ∈ next.messages := by
  cases moved with
  | requestScan =>
      apply (List.mem_append.mp requested).imp_right
      exact fun new => List.mem_append_right _ new
  | _ => exact .inl requested

end IndexerTransition

/-- An execution fails, and a probe is stored, only while the scan does not depend on it. -/
structure FailsSafely (world : World Indexer IndexerWorker) (index : ℕ) (event : IndexerEvent) :
    Prop where
  raise : event = .raise → ∀ collectionId, (world.process index).Carries collectionId →
    ∃ other, other ≠ index ∧ CarriedOn world.store (world.process other) collectionId
  probe : ∀ {execution probe}, world.process index = .running execution →
    event = .scan (.probe probe) →
    world.store.db.jobStatus execution.collectionId ≠ some .completed

/-- What holds of the queue, the database and every worker at all times. -/
structure IndexerWorld (world : World Indexer IndexerWorker) : Prop where
  sound : ∀ collectionId, FinishedSoundly collectionId world.store.db
  known : ∀ collectionId ∈ world.store.messages, (world.store.db.collection collectionId).isSome
  relies : ∀ index, (world.process index).Relies world.store.db
  carried : ∀ collectionId ∈ world.store.requested,
    ∃ index, CarriedOn world.store (world.process index) collectionId

theorem IndexerWorld.act {world next : World Indexer IndexerWorker} {index : ℕ}
    {event : IndexerEvent} (holds : IndexerWorld world) (safely : FailsSafely world index event)
    (acted : (indexerProgram primitives).act world index event = some next) :
    IndexerWorld next := by
  rcases Program.act_eq_some_iff.mp acted with ⟨store, worker, stepped, rfl⟩
  have moved := indexerTransition_of_step stepped
  have relies := holds.relies index
  constructor
  · intro collectionId
    exact moved.finishedSoundly relies safely.probe (holds.sound collectionId)
  · exact moved.known relies holds.known
  · intro other
    by_cases acting : other = index
    · subst acting
      simpa using moved.relies relies holds.known
    · simpa [Function.update_of_ne acting] using (holds.relies other).mono moved.scansRemain
  · -- Whoever carries the scan, the acting worker leaves it queued, carried or at its end.
    intro collectionId requested
    have onward : ∀ other, CarriedOn world.store (world.process other) collectionId →
        (other = index → event ≠ .raise) →
        ∃ other, CarriedOn store (Function.update world.process index worker other)
          collectionId := by
      intro other carried notFailing
      by_cases acting : other = index
      · subst acting
        refine ⟨other, ?_⟩
        rw [Function.update_self]
        exact moved.carriedOn relies (holds.sound _) carried fun fails =>
          absurd fails (notFailing rfl)
      · rcases carried with queued | carries | terminal
        · refine ⟨index, ?_⟩
          rw [Function.update_self]
          exact moved.carriedOn relies (holds.sound _) (.inl queued) fun _ => .inl queued
        · refine ⟨other, .inr (.inl ?_)⟩
          rwa [Function.update_of_ne acting]
        · refine ⟨index, ?_⟩
          rw [Function.update_self]
          exact moved.carriedOn relies (holds.sound _) (.inr (.inr terminal)) fun _ => .inr terminal
    rcases moved.requested_or_queued requested with earlier | queued
    · rcases holds.carried collectionId earlier with ⟨other, carried⟩
      by_cases fails : other = index ∧ event = .raise
      · rcases fails with ⟨rfl, rfl⟩
        rcases carried with queued | carries | terminal
        · exact onward (other + 1) (.inl queued) fun same => by omega
        · rcases safely.raise rfl collectionId carries with ⟨another, different, carried⟩
          exact onward another carried fun same => absurd same different
        · exact onward (other + 1) (.inr (.inr terminal)) fun same => by omega
      · exact onward other carried fun same raised => fails ⟨same, raised⟩
    · exact ⟨index, .inl queued⟩

theorem IndexerWorker.message_of_carries {worker : IndexerWorker} {collectionId : ℕ}
    (carries : worker.Carries collectionId) : worker.message = some collectionId := by
  cases worker with
  | waiting | continued => cases carries
  | running | returned => exact congrArg some carries

/--
In every run whose executions fail, and whose probes are stored, only while the
scan does not depend on them, no requested scan is orphaned.
-/
theorem requestedScans_notOrphaned {db : Database} {world : World Indexer IndexerWorker}
    (sound : ∀ collectionId, FinishedSoundly collectionId db)
    (run : (indexerProgram primitives).Reaches FailsSafely
      (World.uniform ⟨db, [], []⟩ .waiting) world) : NoOrphanedScan world := by
  have initially : IndexerWorld (World.uniform ⟨db, [], []⟩ .waiting) := by
    constructor
    · exact sound
    · simp
    · exact fun _ => trivial
    · simp
  have holds := run.invariant IndexerWorld (fun holds safely acted => holds.act safely acted)
    initially
  intro collectionId requested
  rcases holds.carried collectionId requested with ⟨index, queued | carries | terminal⟩
  · exact .inl queued
  · exact .inr (.inl ⟨index, IndexerWorker.message_of_carries carries⟩)
  · exact .inr (.inr terminal)

section Samples

/-- A queue without messages. -/
def sampleIndexer : World Indexer IndexerWorker := World.uniform ⟨sampleDatabase, [], []⟩ .waiting

/-- The first provider request of a scan fails. -/
def raiseSchedule : List (ℕ × IndexerEvent) :=
  [(0, .requestScan 1), (0, .deliver 1), (0, .scan (.load sampleSettings)), (0, .raise)]

/-- A worker is killed, and the next one finishes the scan. -/
def killSchedule : List (ℕ × IndexerEvent) :=
  [(0, .requestScan 1), (0, .deliver 1), (0, .scan (.load sampleSettings)), (0, .kill),
    (1, .deliver 1), (1, .scan (.load sampleSettings)), (1, .scan (.finalized sampleBlock)),
    (1, .scan .openJob), (1, .scan (.batch [] sampleBlock)), (1, .scan (.select [])),
    (1, .scan .finish), (1, .acknowledge)]

/-- The event is neither a failure nor a probe. -/
def IndexerEvent.isSafe : IndexerEvent → Bool
  | .raise => false
  | .scan event => !event.isProbe
  | _ => true

end Samples

/-- An execution that raises leaves a requested scan behind that nobody carries on. -/
theorem raisedScan_isOrphaned :
    ¬∀ world, (indexerProgram scanHashes).Reaches Unrestricted sampleIndexer world →
      NoOrphanedScan world := by
  intro noneOrphaned
  have reached : ((indexerProgram scanHashes).execute sampleIndexer raiseSchedule).any
      (fun world => world.store.requested = [1] ∧ world.store.messages = [] ∧
        world.store.db.scanStatus 1 = some .scanning ∧ (world.process 0).message = none) =
      true := by
    decide +kernel
  rcases (Option.any_eq_true _ _).mp reached with ⟨world, executed, facts⟩
  rcases of_decide_eq_true facts with ⟨requested, messages, scanning, idle⟩
  have noMessage := Program.forall_process_of_execute (fun worker => worker.message = none)
    executed (fun _ => rfl) (by simpa [raiseSchedule] using idle)
  have run := Program.reaches_of_execute executed (Program.meets_unrestricted _ _)
  have requested_mem : 1 ∈ world.store.requested := by simp [requested]
  rcases noneOrphaned world run 1 requested_mem with queued | ⟨index, held⟩ |
    ⟨status, found, terminal⟩
  · simp [messages] at queued
  · cases (noMessage index).symm.trans held
  · cases scanning.symm.trans found
    cases terminal

theorem sampleScan_notOrphaned :
    ∃ world : World Indexer IndexerWorker,
      (indexerProgram scanHashes).Reaches FailsSafely sampleIndexer world ∧
        world.store.requested = [1] ∧ world.store.messages = [] ∧ NoOrphanedScan world := by
  have finished : ((indexerProgram scanHashes).execute sampleIndexer killSchedule).any
      (fun world => world.store.requested = [1] ∧ world.store.messages = []) = true := by
    decide +kernel
  rcases (Option.any_eq_true _ _).mp finished with ⟨world, executed, facts⟩
  rcases of_decide_eq_true facts with ⟨requested, messages⟩
  have meets : (indexerProgram scanHashes).Meets (fun _ _ event => event.isSafe = true)
      sampleIndexer killSchedule :=
    Program.meets_of_events (fun event : IndexerEvent => event.isSafe = true) (by decide)
      sampleIndexer
  have run : (indexerProgram scanHashes).Reaches FailsSafely sampleIndexer world := by
    refine (Program.reaches_of_execute executed meets).mono fun safe => ⟨?_, ?_⟩
    · rintro rfl
      cases safe
    · rintro execution probe _ rfl
      cases safe
  have sound : ∀ collectionId, FinishedSoundly collectionId sampleDatabase :=
    fun _ impossible => by cases impossible
  exact ⟨world, run, requested, messages, requestedScans_notOrphaned sound run⟩

end CopyMint
