import CopyMint.Workers.ScanStatus
import Mathlib.Data.List.Dedup

/-!
# Quality warnings of concurrent scans

The merge of warnings reads the job and later writes a whole new list, and the
last transaction reads the job and later writes the status; neither locks the
row. So both are split here into their reads and their writes, as any other
transaction may commit in between. A column that is assigned the value that was
read is not written at all. The transaction that opens the job and the one that
stores a probe do not touch the warnings, and stay whole.
-/

namespace CopyMint

open Hexadecimal Relational Interleaving

/-- The database, with the codes that committed merges have tried to add. -/
structure WarningStore where
  db : Database
  attempted : List String

/-- How far an execution has come, with what it has read in an open transaction. -/
inductive WarningPhase where
  | scan (phase : ScanPhase)
  | merging (slice : ScanSlice) (warnings : List String) (existing : Option (List String))
  | finishing (existing : Option (List String))
  | completing (existing : Option (List String)) (status : Option CollectionScanStatus)

/-- What an execution does next, with its transactions split into reading and writing. -/
inductive WarningEvent where
  | scan (event : ScanEvent)
  | readWarnings
  | writeWarnings
  | readJob
  | readCollection
  | complete
  | stop

/-- The events of the whole program that are split. -/
def ScanEvent.isSplit : ScanEvent → Bool
  | .merge | .finish => true
  | _ => false

/-- The list that a merge writes. -/
def withNew (warnings existing : List String) : List String :=
  existing ++ warnings.filter fun warning => warning ∉ existing

/-- The final status of a collection whose job has been read. -/
def finalStatus : Option (List String) → CollectionScanStatus
  | none | some [] => .complete
  | some (_ :: _) => .qualityWarning

theorem eq_nil_of_finalStatus {existing : Option (List String)}
    (final : finalStatus existing = .complete) : existing.getD [] = [] := by
  cases existing with
  | none => rfl
  | some codes =>
      cases codes with
      | nil => rfl
      | cons code codes => cases final

section Transactions

variable (collectionId : ℕ)

/-- Write the merged list, unless it is the one that was read. -/
def setWarnings (warnings existing : List String) (db : Database) : Database :=
  let qualityWarnings := withNew warnings existing
  if qualityWarnings = existing then db
  else db.updateJob collectionId fun job => { job with qualityWarnings }

/-- The write of a merge, for a job that was found. -/
def WarningStore.merge (warnings : List String) (existing : Option (List String))
    (store : WarningStore) : WarningStore :=
  match existing with
  | none => store
  | some existing =>
      { db := setWarnings collectionId warnings existing store.db
        attempted := store.attempted ++ warnings }

/-- Complete the job, if it was read. -/
def completeJob (existing : Option (List String)) (db : Database) : Database :=
  match existing with
  | none => db
  | some _ => db.updateJob collectionId ScanJob.finished

/-- Write the status, unless it is the one that was read. -/
def setStatus (scanStatus : CollectionScanStatus) (status : Option CollectionScanStatus)
    (db : Database) : Database :=
  match status with
  | none => db
  | some current =>
      if scanStatus = current then db
      else db.updateCollection collectionId fun row => { row with scanStatus }

/-- The writes of the last transaction. -/
def WarningStore.complete (existing : Option (List String))
    (status : Option CollectionScanStatus) (store : WarningStore) : WarningStore :=
  { store with
    db := setStatus collectionId (finalStatus existing) status
      (completeJob collectionId existing store.db) }

/-- The list of the job, if there is one. -/
def Database.readWarnings (db : Database) : Option (List String) :=
  (db.job collectionId).map ScanJob.qualityWarnings

end Transactions

variable (primitives : Primitives) (collectionId : ℕ)

/-- One action of an execution whose merges and last transaction are split. -/
def warningStep (store : WarningStore) :
    WarningPhase → WarningEvent → Option (WarningStore × WarningPhase)
  | .scan phase, .scan event =>
      if event.isSplit then none
      else
        (scanStep primitives collectionId store.db phase event).map fun result =>
          ({ store with db := result.1 }, .scan result.2)
  | .scan (.merging slice warnings), .readWarnings =>
      some (store, .merging slice warnings (store.db.readWarnings collectionId))
  | .merging slice warnings existing, .writeWarnings =>
      some (store.merge collectionId warnings existing, .scan slice.afterWarnings)
  | .scan .finishing, .readJob => some (store, .finishing (store.db.readWarnings collectionId))
  | .finishing existing, .readCollection =>
      some (store, .completing existing (store.db.scanStatus collectionId))
  | .completing existing status, .complete =>
      some (store.complete collectionId existing status, .scan .ended)
  | _, .stop => some (store, .scan .ended)
  | _, _ => none

/-- Executions of one collection as a program. -/
def warningProgram : Program WarningStore WarningPhase WarningEvent where
  step := warningStep primitives collectionId

/-- What one action can do. -/
inductive WarningTransition (store : WarningStore) :
    WarningPhase → WarningEvent → WarningStore → WarningPhase → Prop
  | scan {phase event db next} (whole : event.isSplit = false)
      (moved : ScanTransition primitives collectionId store.db phase event db next) :
      WarningTransition store (.scan phase) (.scan event) { store with db } (.scan next)
  | readWarnings {slice warnings} :
      WarningTransition store (.scan (.merging slice warnings)) .readWarnings store
        (.merging slice warnings (store.db.readWarnings collectionId))
  | writeWarnings {slice warnings existing} :
      WarningTransition store (.merging slice warnings existing) .writeWarnings
        (store.merge collectionId warnings existing) (.scan slice.afterWarnings)
  | readJob :
      WarningTransition store (.scan .finishing) .readJob store
        (.finishing (store.db.readWarnings collectionId))
  | readCollection {existing} :
      WarningTransition store (.finishing existing) .readCollection store
        (.completing existing (store.db.scanStatus collectionId))
  | complete {existing status} :
      WarningTransition store (.completing existing status) .complete
        (store.complete collectionId existing status) (.scan .ended)
  | stop {phase} : WarningTransition store phase .stop store (.scan .ended)

variable {primitives collectionId}

theorem warningTransition_of_step {store next : WarningStore} {phase after : WarningPhase}
    {event : WarningEvent}
    (stepped : (warningProgram primitives collectionId).step store phase event =
      some (next, after)) :
    WarningTransition primitives collectionId store phase event next after := by
  simp only [warningProgram] at stepped
  cases event with
  | scan event =>
      cases phase <;> simp only [warningStep, reduceCtorEq] at stepped
      split_ifs at stepped with split
      rcases Option.map_eq_some_iff.mp stepped with ⟨⟨db, phase⟩, moved, equal⟩
      cases equal
      exact .scan (Bool.not_eq_true _ ▸ split) (scanTransition_of_scanStep moved)
  | readWarnings =>
      cases phase with
      | scan phase =>
          cases phase <;> cases stepped
          exact .readWarnings
      | _ => cases stepped
  | writeWarnings =>
      cases phase <;> cases stepped
      exact .writeWarnings
  | readJob =>
      cases phase with
      | scan phase =>
          cases phase <;> cases stepped
          exact .readJob
      | _ => cases stepped
  | readCollection =>
      cases phase <;> cases stepped
      exact .readCollection
  | complete =>
      cases phase <;> cases stepped
      exact .complete
  | stop =>
      have equal : some (store, WarningPhase.scan .ended) = some (next, after) := by
        rw [← stepped]
        cases phase with
        | scan phase => cases phase <;> rfl
        | _ => rfl
      cases equal
      exact .stop

section Writes

variable {db : Database} {warnings codes : List String}

theorem subset_withNew (warnings codes : List String) :
    codes ⊆ withNew warnings codes ∧ warnings ⊆ withNew warnings codes := by
  constructor
  · exact List.subset_append_left codes _
  · intro warning warning_mem
    by_cases old : warning ∈ codes
    · exact List.mem_append_left _ old
    · exact List.mem_append_right _ (List.mem_filter.mpr ⟨warning_mem, by simpa using old⟩)

/-- A merge that finds all its codes adds nothing. -/
theorem withNew_eq_self (known : ∀ warning ∈ warnings, warning ∈ codes) :
    withNew warnings codes = codes := by
  rw [withNew, List.filter_eq_nil_iff.mpr, List.append_nil]
  intro warning warning_mem
  simpa using known warning warning_mem

theorem nodup_withNew (distinct : codes.Nodup) (new : warnings.Nodup) :
    (withNew warnings codes).Nodup := by
  apply List.nodup_append.mpr
  refine ⟨distinct, new.filter _, ?_⟩
  rintro code code_mem _ other_mem rfl
  simpa [code_mem] using (List.mem_filter.mp other_mem).2

theorem qualityWarnings_setWarnings (warnings codes : List String)
    (found : (db.job collectionId).isSome) :
    (setWarnings collectionId warnings codes db).qualityWarnings collectionId =
      if withNew warnings codes = codes then db.qualityWarnings collectionId
      else withNew warnings codes := by
  simp only [setWarnings]
  split
  · rfl
  · rcases Option.isSome_iff_exists.mp found with ⟨job, job_eq⟩
    simp only [Database.qualityWarnings]
    rw [Database.job_updateJob, job_eq]
    · rfl
    · exact fun _ => rfl

theorem job_setWarnings_isSome (found : (db.job collectionId).isSome) :
    ((setWarnings collectionId warnings codes db).job collectionId).isSome := by
  simp only [setWarnings]
  split
  · exact found
  · rw [Database.job_updateJob]
    · simpa using found
    · exact fun _ => rfl

theorem scanStatus_setWarnings (warnings codes : List String) (db : Database) :
    (setWarnings collectionId warnings codes db).scanStatus collectionId =
      db.scanStatus collectionId := by
  simp only [setWarnings]
  split <;> rfl

/-- Completing the job keeps its warnings. -/
theorem readWarnings_completeJob (existing : Option (List String)) :
    (completeJob collectionId existing db).readWarnings collectionId =
      db.readWarnings collectionId := by
  cases existing with
  | none => rfl
  | some codes =>
      have updated := db.job_updateJob collectionId ScanJob.finished fun _ => rfl
      simp only [completeJob, Database.readWarnings, updated, Option.map_map]
      rfl

theorem qualityWarnings_eq (db : Database) :
    db.qualityWarnings collectionId = (db.readWarnings collectionId).getD [] := by
  simp only [Database.qualityWarnings, Database.readWarnings]
  cases db.job collectionId <;> rfl

theorem readWarnings_setStatus (scanStatus : CollectionScanStatus)
    (status : Option CollectionScanStatus) :
    (setStatus collectionId scanStatus status db).readWarnings collectionId =
      db.readWarnings collectionId := by
  cases status with
  | none => rfl
  | some current =>
      simp only [setStatus]
      split <;> rfl

theorem scanStatus_setStatus (collectionId : ℕ) (scanStatus : CollectionScanStatus)
    (status : Option CollectionScanStatus) (db : Database) :
    (setStatus collectionId scanStatus status db).scanStatus collectionId =
        db.scanStatus collectionId ∨
      ∃ current, status = some current ∧ scanStatus ≠ current ∧
        (setStatus collectionId scanStatus status db).scanStatus collectionId =
          (db.scanStatus collectionId).map fun _ => scanStatus := by
  cases status with
  | none => exact .inl rfl
  | some current =>
      simp only [setStatus]
      split
      · exact .inl rfl
      · rename_i different
        refine .inr ⟨current, rfl, different, ?_⟩
        rw [Database.scanStatus, Database.collection_updateCollection, Option.map_map,
          Database.scanStatus, Option.map_map]
        · rfl
        · exact fun _ => rfl

end Writes

/-- A merge that nothing comes in between is the merge of the whole program. -/
theorem readWarnings_merge {store : WarningStore} (warnings : List String) :
    (store.merge collectionId warnings
        (store.db.readWarnings collectionId)).db.readWarnings collectionId =
      (mergeWarnings collectionId warnings store.db).readWarnings collectionId := by
  have merged := store.db.job_updateJob collectionId (ScanJob.withWarnings warnings) fun _ => rfl
  simp only [Database.readWarnings, mergeWarnings, merged]
  cases found : store.db.job collectionId with
  | none => simp [WarningStore.merge, found]
  | some job =>
      simp only [WarningStore.merge, Option.map_some, setWarnings]
      split
      · rename_i same
        rw [found, Option.map_some]
        exact congrArg some same.symm
      · rw [Database.job_updateJob, found]
        · rfl
        · exact fun _ => rfl

/-- The split of the last transaction does what the whole one does. -/
theorem scanStatus_complete {store : WarningStore} :
    (store.complete collectionId (store.db.readWarnings collectionId)
        (store.db.scanStatus collectionId)).db.scanStatus collectionId =
      (finishJob collectionId store.db).scanStatus collectionId := by
  have same : (completeJob collectionId (store.db.readWarnings collectionId)
      store.db).scanStatus collectionId = store.db.scanStatus collectionId := by
    cases store.db.readWarnings collectionId <;> rfl
  have final : finalStatus (store.db.readWarnings collectionId) =
      if (store.db.qualityWarnings collectionId).isEmpty then .complete else .qualityWarning := by
    rw [qualityWarnings_eq]
    cases store.db.readWarnings collectionId with
    | none => rfl
    | some codes => cases codes <;> rfl
  rw [scanStatus_finishJob, ← final]
  simp only [WarningStore.complete]
  cases found : store.db.scanStatus collectionId with
  | none =>
      simp only [setStatus]
      exact same.trans found
  | some current =>
      simp only [setStatus]
      split
      · rename_i unchanged
        rw [same, found, unchanged]
        rfl
      · rcases Option.map_eq_some_iff.mp (same.trans found) with ⟨row, row_eq, _⟩
        rw [Database.scanStatus, Database.collection_updateCollection, row_eq]
        · rfl
        · exact fun _ => rfl

variable (collectionId)

/--
What may come between a read and the write that follows from it. A merge that has found a code
missing writes while the job's list is the one that it has read, and before the scan is
complete; the last transaction writes while the list is the one that it has read.
-/
def undisturbed (db : Database) : WarningPhase → WarningEvent → Bool
  | .merging _ warnings (some existing), .writeWarnings =>
      warnings.all (· ∈ existing) ||
        db.readWarnings collectionId = some existing && db.scanStatus collectionId ≠ some .complete
  | .completing existing _, .complete => db.readWarnings collectionId = existing
  | _, _ => true

/-- Every write finds the list that its transaction has read, unless it loses nothing. -/
def Undisturbed : Condition WarningStore WarningPhase WarningEvent :=
  fun world index event =>
    undisturbed collectionId world.store.db (world.process index) event = true

instance (world : World WarningStore WarningPhase) (index : ℕ) (event : WarningEvent) :
    Decidable (Undisturbed collectionId world index event) :=
  inferInstanceAs (Decidable (_ = true))

/-- The list has every code that was added, each once, and is empty for a complete scan. -/
structure SoundWarnings (store : WarningStore) : Prop where
  attempted : store.attempted ⊆ store.db.qualityWarnings collectionId
  distinct : (store.db.qualityWarnings collectionId).Nodup
  complete : store.db.scanStatus collectionId = some .complete →
    store.db.qualityWarnings collectionId = []

/-- The job remains, and so do its warnings. -/
structure WarningsGrow (before after : WarningStore) : Prop where
  job : (before.db.job collectionId).isSome → (after.db.job collectionId).isSome
  warnings : before.db.qualityWarnings collectionId ⊆ after.db.qualityWarnings collectionId

/-- Warnings that wait for their merge are distinct. -/
def MergesDistinct : ScanPhase → Prop
  | .merging _ warnings => warnings.Nodup
  | _ => True

/-- What an execution relies on. -/
def WarningPhase.Relies (db : Database) : WarningPhase → Prop
  | .scan phase => MergesDistinct phase
  | .merging _ warnings existing =>
      warnings.Nodup ∧ ∀ codes, existing = some codes →
        (db.job collectionId).isSome ∧ codes.Nodup ∧ codes ⊆ db.qualityWarnings collectionId
  | .finishing _ | .completing _ _ => True

variable {collectionId}

namespace WarningsGrow

variable {before after : WarningStore}

theorem refl (store : WarningStore) : WarningsGrow collectionId store store :=
  ⟨id, List.Subset.refl _⟩

theorem trans {first second third : WarningStore} (before : WarningsGrow collectionId first second)
    (after : WarningsGrow collectionId second third) : WarningsGrow collectionId first third :=
  ⟨after.job ∘ before.job, List.Subset.trans before.warnings after.warnings⟩

theorem of_readWarnings_eq
    (same : after.db.readWarnings collectionId = before.db.readWarnings collectionId) :
    WarningsGrow collectionId before after := by
  constructor
  · intro found
    have jobs := congrArg Option.isSome same
    simp only [Database.readWarnings, Option.isSome_map] at jobs
    exact jobs.trans found
  · rw [qualityWarnings_eq, qualityWarnings_eq, same]
    exact List.Subset.refl _

theorem relies (grow : WarningsGrow collectionId before after) {phase : WarningPhase}
    (relies : phase.Relies collectionId before.db) : phase.Relies collectionId after.db := by
  cases phase with
  | merging slice warnings existing =>
      refine ⟨relies.1, fun codes read => ?_⟩
      rcases relies.2 codes read with ⟨found, distinct, subset⟩
      exact ⟨grow.job found, distinct, List.Subset.trans subset grow.warnings⟩
  | scan | finishing | completing => exact relies

end WarningsGrow

variable {before after : Database}

theorem mergesDistinct_afterWarnings (slice : ScanSlice) : MergesDistinct slice.afterWarnings := by
  simp only [ScanSlice.afterWarnings]
  split <;> trivial

theorem mergesDistinct_afterEnrichment (slice : ScanSlice) {warnings : List String}
    (distinct : warnings.Nodup) : MergesDistinct (slice.afterEnrichment warnings) := by
  simp only [ScanSlice.afterEnrichment]
  split
  · exact mergesDistinct_afterWarnings slice
  · exact distinct

theorem mergesDistinct_enrichNext (slice : ScanSlice) (collectionAddress : Text)
    (hashes : List Bytes) (warnings : List String) :
    MergesDistinct (slice.enrichNext collectionAddress hashes warnings) := by
  cases hashes with
  | nil =>
      apply mergesDistinct_afterEnrichment
      exact (List.perm_insertionSort _ _).nodup_iff.mpr (List.nodup_dedup warnings)
  | cons hash hashes => trivial

/-- The warnings of a slice are collected without duplicates. -/
theorem ScanTransition.mergesDistinct {phase next : ScanPhase} {event : ScanEvent}
    (moved : ScanTransition primitives collectionId before phase event after next)
    (distinct : MergesDistinct phase) : MergesDistinct next := by
  cases moved with
  | absent | load | unknown | known | gone | probe | completed | split | finish | stop => trivial
  | openJob =>
      simp only [afterOpening]
      split <;> trivial
  | batch =>
      simp only [ScanSlice.scanNext]
      split <;> trivial
  | vanished => exact mergesDistinct_afterEnrichment _ (List.nodup_singleton _)
  | select | enrich => exact mergesDistinct_enrichNext _ _ _ _
  | merge => exact mergesDistinct_afterWarnings _

/-- A transition that is not split keeps the warnings and never completes the scan. -/
theorem ScanTransition.keepsWarnings {phase next : ScanPhase} {event : ScanEvent}
    (moved : ScanTransition primitives collectionId before phase event after next)
    (whole : event.isSplit = false) :
    RowsRemain collectionId before after ∧
      after.qualityWarnings collectionId = before.qualityWarnings collectionId ∧
      (after.scanStatus collectionId = some .complete →
        before.scanStatus collectionId = some .complete) := by
  have effect := moved.statusEffect
  have same : after.qualityWarnings collectionId = before.qualityWarnings collectionId := by
    cases effect with
    | kept job | probed _ _ job => simp only [Database.qualityWarnings, job]
    | opened _ _ warnings => exact warnings
    | merged isMerge => cases isMerge ▸ whole
    | finished isFinish => cases isFinish ▸ whole
  refine ⟨effect.rowsRemain, same, fun complete => ?_⟩
  cases effect with
  | kept _ collection | opened _ _ _ collection =>
      simpa only [Database.scanStatus, collection] using complete
  | probed _ _ _ scanning => cases scanning.symm.trans complete
  | merged isMerge => cases isMerge ▸ whole
  | finished isFinish => cases isFinish ▸ whole

/-- An undisturbed merge adds its warnings and drops none. -/
theorem SoundWarnings.merge {store : WarningStore} (sound : SoundWarnings collectionId store)
    {slice : ScanSlice} {warnings : List String} {existing : Option (List String)}
    (relies : (WarningPhase.merging slice warnings existing).Relies collectionId store.db)
    (alone : undisturbed collectionId store.db (.merging slice warnings existing)
      .writeWarnings = true) :
    SoundWarnings collectionId (store.merge collectionId warnings existing) ∧
      WarningsGrow collectionId store (store.merge collectionId warnings existing) := by
  cases existing with
  | none => exact ⟨sound, .refl _⟩
  | some codes =>
      rcases relies with ⟨new, read⟩
      rcases read codes rfl with ⟨found, distinct, kept⟩
      have listed := qualityWarnings_setWarnings warnings codes found
      have status : (setWarnings collectionId warnings codes store.db).scanStatus collectionId =
          store.db.scanStatus collectionId := scanStatus_setWarnings warnings codes store.db
      simp only [undisturbed, Bool.or_eq_true, Bool.and_eq_true, decide_eq_true_eq,
        List.all_eq_true] at alone
      rcases alone with known | ⟨same, incomplete⟩
      · -- Nothing is missing in the list that was read, so that it is not written.
        rw [if_pos (withNew_eq_self known)] at listed
        refine ⟨⟨?_, ?_, ?_⟩, job_setWarnings_isSome, ?_⟩
        · intro code attempted
          simp only [WarningStore.merge, listed]
          rcases List.mem_append.mp attempted with earlier | now
          · exact sound.attempted earlier
          · exact kept (known code now)
        · simpa only [WarningStore.merge, listed] using sound.distinct
        · simpa only [WarningStore.merge, listed, status] using sound.complete
        · simp only [WarningStore.merge, listed]
          exact List.Subset.refl _
      · have stored : store.db.qualityWarnings collectionId = codes := by
          rw [qualityWarnings_eq, same, Option.getD_some]
        have written : (setWarnings collectionId warnings codes store.db).qualityWarnings
            collectionId = withNew warnings codes := by
          rw [listed, stored]
          split_ifs with unchanged
          · exact unchanged.symm
          · rfl
        have attempted_codes : store.attempted ⊆ codes := stored ▸ sound.attempted
        refine ⟨⟨?_, ?_, ?_⟩, job_setWarnings_isSome, ?_⟩
        · simp only [WarningStore.merge, written]
          exact List.append_subset.mpr
            ⟨List.Subset.trans attempted_codes (subset_withNew warnings codes).1,
              (subset_withNew warnings codes).2⟩
        · simpa only [WarningStore.merge, written] using nodup_withNew distinct new
        · intro complete
          simp only [WarningStore.merge, status] at complete
          exact absurd complete incomplete
        · simp only [WarningStore.merge, written, stored]
          exact (subset_withNew warnings codes).1

theorem SoundWarnings.completed {store : WarningStore} (sound : SoundWarnings collectionId store)
    {existing : Option (List String)} {status : Option CollectionScanStatus}
    (alone : undisturbed collectionId store.db (.completing existing status) .complete = true) :
    SoundWarnings collectionId (store.complete collectionId existing status) ∧
      WarningsGrow collectionId store (store.complete collectionId existing status) := by
  have same : (store.complete collectionId existing status).db.readWarnings collectionId =
      store.db.readWarnings collectionId := by
    rw [WarningStore.complete, readWarnings_setStatus, readWarnings_completeJob]
  have listed : (store.complete collectionId existing status).db.qualityWarnings collectionId =
      store.db.qualityWarnings collectionId := by
    rw [qualityWarnings_eq, qualityWarnings_eq, same]
  refine ⟨⟨?_, ?_, ?_⟩, .of_readWarnings_eq same⟩
  · rw [listed]
    exact sound.attempted
  · rw [listed]
    exact sound.distinct
  · intro complete
    rw [listed]
    have before : (completeJob collectionId existing store.db).scanStatus collectionId =
        store.db.scanStatus collectionId := by
      cases existing <;> rfl
    have written := scanStatus_setStatus collectionId (finalStatus existing) status
      (completeJob collectionId existing store.db)
    rcases written with kept | ⟨current, rfl, different, written⟩
    · exact sound.complete ((kept.trans before).symm.trans complete)
    · have final : finalStatus existing = .complete := by
        rcases Option.map_eq_some_iff.mp (written.symm.trans complete) with ⟨_, _, final⟩
        exact final
      have read : store.db.readWarnings collectionId = existing := of_decide_eq_true alone
      rw [qualityWarnings_eq, read]
      exact eq_nil_of_finalStatus final

theorem WarningTransition.preserves {store next : WarningStore} {phase after : WarningPhase}
    {event : WarningEvent}
    (moved : WarningTransition primitives collectionId store phase event next after)
    (sound : SoundWarnings collectionId store) (relies : phase.Relies collectionId store.db)
    (alone : undisturbed collectionId store.db phase event = true) :
    SoundWarnings collectionId next ∧ after.Relies collectionId next.db ∧
      WarningsGrow collectionId store next := by
  cases moved with
  | scan whole moved =>
      rcases moved.keepsWarnings whole with ⟨remain, same, incomplete⟩
      refine ⟨⟨?_, ?_, ?_⟩, moved.mergesDistinct relies, remain.job, same ▸ List.Subset.refl _⟩
      · exact same ▸ sound.attempted
      · exact same ▸ sound.distinct
      · exact fun complete => same ▸ sound.complete (incomplete complete)
  | readWarnings =>
      refine ⟨sound, ⟨relies, fun codes read => ?_⟩, .refl _⟩
      have listed : store.db.qualityWarnings collectionId = codes := by
        rw [qualityWarnings_eq, read, Option.getD_some]
      rcases Option.map_eq_some_iff.mp read with ⟨job, found, _⟩
      exact ⟨by simp [found], listed ▸ sound.distinct, listed ▸ List.Subset.refl _⟩
  | writeWarnings =>
      rcases sound.merge relies alone with ⟨merged, grow⟩
      exact ⟨merged, mergesDistinct_afterWarnings _, grow⟩
  | readJob | readCollection => exact ⟨sound, trivial, .refl _⟩
  | complete =>
      rcases sound.completed alone with ⟨completed, grow⟩
      exact ⟨completed, trivial, grow⟩
  | stop => exact ⟨sound, trivial, .refl _⟩

variable (collectionId) in
/-- The warnings are sound, and every execution can rely on what it has read. -/
def WarningWorld (world : World WarningStore WarningPhase) : Prop :=
  SoundWarnings collectionId world.store ∧
    ∀ index, (world.process index).Relies collectionId world.store.db

theorem WarningWorld.act {world next : World WarningStore WarningPhase} {index : ℕ}
    {event : WarningEvent} (holds : WarningWorld collectionId world)
    (alone : Undisturbed collectionId world index event)
    (acted : (warningProgram primitives collectionId).act world index event = some next) :
    WarningWorld collectionId next ∧ WarningsGrow collectionId world.store next.store := by
  have preserves : ∀ {store phase},
      (warningProgram primitives collectionId).step world.store (world.process index) event =
        some (store, phase) →
      SoundWarnings collectionId store ∧ phase.Relies collectionId store.db ∧
        WarningsGrow collectionId world.store store :=
    fun stepped => (warningTransition_of_step stepped).preserves holds.1 (holds.2 index) alone
  constructor
  · apply Program.act_local (SoundWarnings collectionId)
      (fun store phase => phase.Relies collectionId store.db) acted
    · intro store phase stepped
      exact ⟨(preserves stepped).1, (preserves stepped).2.1⟩
    · intro store phase other stepped relies
      exact (preserves stepped).2.2.relies relies
    · exact holds.2
  · rcases Program.act_eq_some_iff.mp acted with ⟨store, phase, stepped, rfl⟩
    exact (preserves stepped).2.2

theorem WarningWorld.run {start finish : World WarningStore WarningPhase}
    (holds : WarningWorld collectionId start)
    (run : (warningProgram primitives collectionId).Reaches (Undisturbed collectionId) start
      finish) :
    WarningWorld collectionId finish ∧ WarningsGrow collectionId start.store finish.store :=
  run.relates WarningsGrow.refl WarningsGrow.trans
    (fun holds alone acted => holds.act alone acted) holds

/--
In every run of executions of one collection whose reads and writes of the list are
undisturbed, the job's list has every code that was added, each once, loses none, and is
empty for a complete scan.
-/
theorem qualityWarnings_notLost {db : Database} {world : World WarningStore WarningPhase}
    (distinct : (db.qualityWarnings collectionId).Nodup)
    (complete : db.scanStatus collectionId = some .complete →
      db.qualityWarnings collectionId = [])
    (run : (warningProgram primitives collectionId).Reaches (Undisturbed collectionId)
      (World.uniform ⟨db, []⟩ (.scan .idle)) world) :
    SoundWarnings collectionId world.store ∧
      ∀ later, (warningProgram primitives collectionId).Reaches (Undisturbed collectionId) world
        later →
        world.store.db.qualityWarnings collectionId ⊆
          later.store.db.qualityWarnings collectionId := by
  have initially : WarningWorld collectionId (World.uniform ⟨db, []⟩ (.scan .idle)) :=
    ⟨⟨by simp, distinct, complete⟩, fun _ => trivial⟩
  have holds := (initially.run run).1
  refine ⟨holds.1, fun later further => ?_⟩
  exact (holds.run further).2.warnings

section Samples

/-- No execution has begun. -/
def warningWorld : World WarningStore WarningPhase :=
  World.uniform ⟨sampleDatabase, []⟩ (.scan .idle)

/-- The answers about the sample mint where the provider has no trace of it. -/
def untraced (error : ProviderError) : WarningEvent :=
  .scan (.enrich ⟨sampleTransaction, sampleReceipt, .error error⟩)

/-- Two executions of one slice, which fail to trace its mint for different reasons. -/
def concurrentSlices : List (ℕ × WarningEvent) :=
  [(0, .scan (.load sampleSettings)), (0, .scan (.finalized sampleBlock)),
    (1, .scan (.load sampleSettings)), (1, .scan (.finalized sampleBlock)),
    (0, .scan .openJob), (1, .scan .openJob),
    (0, .scan (.batch [unmarkedTransferLog] sampleBlock)),
    (1, .scan (.batch [unmarkedTransferLog] sampleBlock)),
    (0, .scan (.select [AbiEncoding.word 5])), (1, .scan (.select [AbiEncoding.word 5])),
    (0, untraced ⟨"rpc_-32601", false, false⟩), (1, untraced ⟨"transport", true, false⟩)]

/-- Both read the list before either writes it. -/
def concurrentMerges : List (ℕ × WarningEvent) :=
  [(0, .readWarnings), (1, .readWarnings), (0, .writeWarnings), (1, .writeWarnings)]

/-- One merge after the other, and completion. -/
def successiveMerges : List (ℕ × WarningEvent) :=
  [(0, .readWarnings), (0, .writeWarnings), (1, .readWarnings), (1, .writeWarnings),
    (0, .readJob), (0, .readCollection), (0, .complete)]

end Samples

/-- The second of two concurrent merges overwrites the warning of the first. -/
theorem concurrentMerges_loseWarning :
    ¬∀ world, (warningProgram scanHashes 1).Reaches Unrestricted warningWorld world →
      SoundWarnings 1 world.store := by
  intro everSound
  have reached : ((warningProgram scanHashes 1).execute warningWorld
      (concurrentSlices ++ concurrentMerges)).any (fun world =>
        "trace_unavailable:rpc_-32601" ∈ world.store.attempted ∧
          world.store.db.qualityWarnings 1 = ["trace_unavailable:transport"]) = true := by
    decide +kernel
  rcases (Option.any_eq_true _ _).mp reached with ⟨world, executed, facts⟩
  rcases of_decide_eq_true facts with ⟨attempted, remaining⟩
  have run := Program.reaches_of_execute executed (Program.meets_unrestricted _ _)
  have lost := (everSound world run).attempted attempted
  rw [remaining] at lost
  exact absurd lost (by decide)

/-- One merge after the other keeps the warnings of both. -/
theorem successiveMerges_notLost :
    ∃ world : World WarningStore WarningPhase,
      (warningProgram scanHashes 1).Reaches (Undisturbed 1) warningWorld world ∧
        world.store.db.qualityWarnings 1 =
          ["trace_unavailable:rpc_-32601", "trace_unavailable:transport"] ∧
        world.store.db.scanStatus 1 = some .qualityWarning ∧ SoundWarnings 1 world.store := by
  have reached : ((warningProgram scanHashes 1).execute warningWorld
      (concurrentSlices ++ successiveMerges)).any (fun world =>
        world.store.db.qualityWarnings 1 =
            ["trace_unavailable:rpc_-32601", "trace_unavailable:transport"] ∧
          world.store.db.scanStatus 1 = some .qualityWarning) = true := by
    decide +kernel
  rcases (Option.any_eq_true _ _).mp reached with ⟨world, executed, facts⟩
  have meets : (warningProgram scanHashes 1).Meets (Undisturbed 1) warningWorld
      (concurrentSlices ++ successiveMerges) := by decide +kernel
  have run := Program.reaches_of_execute executed meets
  rcases of_decide_eq_true facts with ⟨listed, status⟩
  exact ⟨world, run, listed, status, (qualityWarnings_notLost (by decide) (by decide) run).1⟩

end CopyMint
