import CopyMint.Ethereum.Provenance
import CopyMint.Library.Interleaving
import Mathlib.Data.List.Sort
import Mathlib.Data.String.Basic

/-!
# Commits and enrichments in any order

Any number of processes commit batches and enrich ranges of blocks, of any
collections, over one database. An action is one database transaction: a commit,
the selection of the transaction hashes of a range, or the enrichment of the next
hash with what the provider answered about it. A transaction that raises leaves
the database as it was and ends the call, as a failed request does.

The store also keeps which enrichments have committed, with the answers they
stored. No action reads this history.
-/

namespace CopyMint

open Hexadecimal Relational Interleaving

/-- The enricher, with the provider that it names in evidence. -/
structure SqlAlchemyMintEnricher where
  providerAlias : String
  deriving DecidableEq

/-- One call of `enrich_range`, by how far it has come. -/
inductive EnrichmentPhase where
  | idle
  | enriching (enricher : SqlAlchemyMintEnricher) (collectionId : ℕ) (collectionAddress : Text)
      (hashes : List Bytes) (warnings : List String)
  | returned (warnings : List String)
  | raised (error : Raised)
  deriving DecidableEq

/-- A committed enrichment. -/
structure EnrichedTransaction where
  transactionHash : Bytes
  answers : TransactionAnswers

/-- The database, and what has been enriched so far. -/
structure ObservationStore where
  db : Database
  enriched : List EnrichedTransaction

/-- What a process does next. -/
inductive ObservationEvent where
  | commit (consumer : SqlAlchemyMintBatchConsumer) (batch : ScanBatch)
  | select (enricher : SqlAlchemyMintEnricher) (collectionId startBlock endBlock : ℕ)
      (hashes : List Bytes)
  | enrich (answers : TransactionAnswers)
  | requestFails (error : ProviderError)

/-- The phase before the next transaction hash. -/
def SqlAlchemyMintEnricher.enrichNext (enricher : SqlAlchemyMintEnricher) (collectionId : ℕ)
    (collectionAddress : Text) (hashes : List Bytes) (warnings : List String) : EnrichmentPhase :=
  match hashes with
  | [] => .returned (warnings.dedup.insertionSort (· ≤ ·))
  | _ :: _ => .enriching enricher collectionId collectionAddress hashes warnings

variable (primitives : Primitives)

/-- One database transaction of a call. -/
def observationStep (store : ObservationStore) :
    EnrichmentPhase → ObservationEvent → Option (ObservationStore × EnrichmentPhase)
  | .idle, .commit consumer batch =>
      match consumer.commit primitives batch store.db with
      | .error error => some (store, .raised error)
      | .ok db => some ({ store with db }, .idle)
  | .idle, .select enricher collectionId startBlock endBlock hashes =>
      match store.db.collection collectionId with
      | none => some (store, .returned ["collection_not_found"])
      | some collection =>
          if hashes.isPerm (pendingHashes collectionId startBlock endBlock store.db) then
            some (store,
              enricher.enrichNext collectionId collection.checksumAddress hashes [])
          else none
  | .enriching enricher collectionId address (hash :: hashes) warnings, .enrich answers =>
      match enrichTransaction primitives collectionId address enricher.providerAlias hash answers
          store.db with
      | .error error => some (store, .raised error)
      | .ok db =>
          some (⟨db, ⟨hash, answers⟩ :: store.enriched⟩,
            enricher.enrichNext collectionId address hashes (warnings ++ traceWarning answers))
  | .enriching _ _ _ _ _, .requestFails error => some (store, .raised (.providerError error))
  | _, _ => none

/-- Commits and enrichments as a program. -/
def observationProgram : Program ObservationStore EnrichmentPhase ObservationEvent :=
  ⟨observationStep primitives⟩

/-- The actions of a call, with what each of them does to the store. -/
inductive ObservationTransition (before : ObservationStore) :
    EnrichmentPhase → ObservationEvent → ObservationStore → EnrichmentPhase → Prop
  | commit {consumer : SqlAlchemyMintBatchConsumer} {batch : ScanBatch} {db : Database}
      (committed : consumer.commit primitives batch before.db = .ok db) :
      ObservationTransition before .idle (.commit consumer batch) { before with db } .idle
  | select {enricher : SqlAlchemyMintEnricher} {collectionId startBlock endBlock : ℕ}
      {hashes : List Bytes} {collection : Collection}
      (found : before.db.collection collectionId = some collection) :
      ObservationTransition before .idle
        (.select enricher collectionId startBlock endBlock hashes) before
        (enricher.enrichNext collectionId collection.checksumAddress hashes [])
  | enrich {enricher : SqlAlchemyMintEnricher} {collectionId : ℕ} {address : Text} {hash : Bytes}
      {hashes : List Bytes} {warnings : List String} {answers : TransactionAnswers} {db : Database}
      (enriched : enrichTransaction primitives collectionId address enricher.providerAlias hash
        answers before.db = .ok db) :
      ObservationTransition before
        (.enriching enricher collectionId address (hash :: hashes) warnings) (.enrich answers)
        ⟨db, ⟨hash, answers⟩ :: before.enriched⟩
        (enricher.enrichNext collectionId address hashes (warnings ++ traceWarning answers))
  | returned {phase : EnrichmentPhase} {event : ObservationEvent} (warnings : List String) :
      ObservationTransition before phase event before (.returned warnings)
  | raised {phase : EnrichmentPhase} {event : ObservationEvent} (error : Raised) :
      ObservationTransition before phase event before (.raised error)

/-- The texts that an action hands to the hash function. -/
def ObservationEvent.messages : ObservationEvent → List Bytes
  | .commit _ batch => batch.logs.map fun log => Json.utf8 (evidencePayload log).dumps
  | .enrich answers =>
      answers.evidence.map fun entry => Json.utf8 (evidenceDocument entry.1 entry.2).dumps
  | .select _ _ _ _ _ | .requestFails _ => []

/-- Only texts among some messages are hashed. -/
def HashesWithin (messages : Set Bytes) :
    Condition ObservationStore EnrichmentPhase ObservationEvent :=
  fun _ _ event => ∀ message ∈ event.messages, message ∈ messages

/-- The collection of a call is the one whose address it has read. -/
def EnrichmentPhase.IsAddressed (db : Database) : EnrichmentPhase → Prop
  | .enriching _ collectionId address _ _ =>
      ∃ collection, db.collection collectionId = some collection ∧
        collection.checksumAddress = address
  | _ => True

variable {primitives} {store next : ObservationStore} {phase after : EnrichmentPhase}
  {event : ObservationEvent}

theorem observationTransition_of_step
    (stepped : observationStep primitives store phase event = some (next, after)) :
    ObservationTransition primitives store phase event next after := by
  simp only [observationStep] at stepped
  split at stepped
  · split at stepped
    · cases stepped
      exact .raised _
    · rename_i committed
      cases stepped
      exact .commit committed
  · split at stepped
    · cases stepped
      exact .returned _
    · rename_i found
      split_ifs at stepped
      cases stepped
      exact .select found
  · split at stepped
    · cases stepped
      exact .raised _
    · rename_i enriched
      cases stepped
      exact .enrich enriched
  · cases stepped
    exact .raised _
  · cases stepped

theorem isAddressed_enrichNext {db : Database} {collectionId : ℕ} {collection : Collection}
    (found : db.collection collectionId = some collection) (enricher : SqlAlchemyMintEnricher)
    (hashes : List Bytes) (warnings : List String) :
    (enricher.enrichNext collectionId collection.checksumAddress hashes warnings).IsAddressed
      db := by
  cases hashes with
  | nil => trivial
  | cons hash hashes => exact ⟨collection, found, rfl⟩

/-- Commits and enrichments only add evidence, and never touch a collection. -/
theorem ObservationTransition.kept
    (moved : ObservationTransition primitives store phase event next after) :
    next.db.collections = store.db.collections ∧
      store.db.rawEvidence ⊆ next.db.rawEvidence := by
  cases moved with
  | commit committed =>
      rcases SqlAlchemyMintBatchConsumer.commit_eq_ok committed with
        ⟨stored, endBlockHash, extended, _, _, rfl⟩
      exact ⟨extended.collections, extended.evidence_kept⟩
  | enrich enriched =>
      have enriches := enrichTransaction_eq_ok enriched
      exact ⟨enriches.collections, enriches.evidence_kept⟩
  | select | returned | raised => exact ⟨rfl, fun _ => id⟩

/-- What is stored is genuine, if what is hashed is among the messages. -/
theorem ObservationTransition.isGenuine {messages : Set Bytes}
    (moved : ObservationTransition primitives store phase event next after)
    (hashed : ∀ message ∈ event.messages, message ∈ messages)
    (genuine : ∀ row ∈ store.db.rawEvidence, row.IsGenuine primitives messages) :
    ∀ row ∈ next.db.rawEvidence, row.IsGenuine primitives messages := by
  cases moved with
  | @commit consumer batch db committed =>
      have fromLogs : ∀ log ∈ batch.logs, ∀ id transactionHash,
          (evidenceRow primitives consumer.providerAlias id transactionHash log).IsGenuine
            primitives messages := by
        intro log log_mem id transactionHash
        exact RawEvidence.isGenuine_evidenceRow (hashed _ (List.mem_map_of_mem log_mem)) _ id _
      exact (commit_preserves fromLogs (fun _ _ => trivial) committed
        ⟨genuine, fun _ _ => trivial⟩).1
  | @enrich enricher collectionId address hash hashes warnings answers db enriched =>
      rcases (enrichTransaction_rows enriched).1 with ⟨rows, rows_hold, stored⟩
      intro row row_mem
      rw [stored] at row_mem
      exact insertAllOrIgnore_isGenuine
        (fun entry entry_mem => hashed _ (List.mem_map_of_mem entry_mem)) rows_hold genuine row_mem
  | select | returned | raised => exact genuine

theorem ObservationTransition.isAddressed
    (moved : ObservationTransition primitives store phase event next after)
    (addressed : phase.IsAddressed store.db) : after.IsAddressed next.db := by
  cases moved with
  | commit committed => trivial
  | select found => exact isAddressed_enrichNext found _ _ _
  | enrich enriched =>
      rcases addressed with ⟨collection, found, rfl⟩
      apply isAddressed_enrichNext
      exact (Database.collection_congr (enrichTransaction_eq_ok enriched).collections _).trans found
  | returned | raised => trivial

theorem EnrichmentPhase.IsAddressed.congr {before after : Database}
    (same : after.collections = before.collections) {phase : EnrichmentPhase}
    (addressed : phase.IsAddressed before) : phase.IsAddressed after := by
  cases phase with
  | enriching =>
      rcases addressed with ⟨collection, found, address_eq⟩
      exact ⟨collection, (Database.collection_congr same _).trans found, address_eq⟩
  | idle | returned | raised => trivial

end CopyMint
