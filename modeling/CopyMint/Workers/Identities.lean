import CopyMint.Workers.Enrichments
import CopyMint.Workers.GapFree

/-!
# Stored identities are facts

The identity columns of a mint either say nothing, or they are derived from a
transaction and a receipt that are stored as evidence and belong to the mint.
This holds of every row after any sequence of commits and enrichments, whatever
the provider answers, as long as the texts that are hashed do not collide.
-/

namespace CopyMint

open Hexadecimal Relational Interleaving

/-- A transaction is a direct call of a collection. -/
def EvmTransaction.IsSentTo (transaction : EvmTransaction) (collection : Collection) : Prop :=
  ∃ recipient, transaction.recipient = some recipient ∧
    lower recipient = lower collection.checksumAddress

variable (primitives : Primitives)

/-- The identity columns of a row are those of a stored transaction of the row. -/
structure MintEvent.IsIdentifiedBy (db : Database) (row : MintEvent) (collection : Collection)
    (transaction : EvmTransaction) (receipt : EvmReceipt) (sender : Text) : Prop where
  found : db.collection row.collectionId = some collection
  transactionStored : StoresPayload db .transaction (transactionPayload transaction)
  receiptStored : StoresPayload db .receipt (receiptPayload receipt)
  transactionHash : lower transaction.transactionHash = lower (marker ++ hex row.transactionHash)
  receiptHash : lower receipt.transactionHash = lower (marker ++ hex row.transactionHash)
  succeeded : receipt.status = 1
  blockNumber : receipt.blockNumber = row.blockNumber
  blockHash : lower receipt.blockHash = lower (marker ++ hex row.blockHash)
  checksummed : primitives.toChecksumAddress transaction.sender = .ok sender
  transactionSender : row.transactionSender = some sender
  payer : row.payer = if 0 < transaction.valueWei then some sender else none
  initiator_iff : row.probableInitiator.isSome ↔ row.identityConfidence = 85
  confidence_iff : row.identityConfidence = 85 ↔ transaction.IsSentTo collection
  initiator : transaction.IsSentTo collection → row.probableInitiator = some sender
  unknown : ¬transaction.IsSentTo collection → row.identityConfidence = 0

/-- The identity columns of a row are derived from stored evidence. -/
def MintEvent.IsIdentified (db : Database) (row : MintEvent) : Prop :=
  ∃ collection transaction receipt sender,
    row.IsIdentifiedBy primitives db collection transaction receipt sender

/-- Evidence is genuine, and every row says nothing about its identity or derives it. -/
structure IdentityInvariant (messages : Set Bytes) (db : Database) : Prop where
  evidence : ∀ row ∈ db.rawEvidence, row.IsGenuine primitives messages
  mints : ∀ row ∈ db.mintEvents, row.IsUnidentified ∨ row.IsIdentified primitives db

variable {primitives} {messages : Set Bytes} {before after : Database}

/-- An identity that is derived from stored evidence stays so. -/
theorem MintEvent.IsIdentified.mono {row : MintEvent}
    (collections : after.collections = before.collections)
    (kept : before.rawEvidence ⊆ after.rawEvidence)
    (identified : row.IsIdentified primitives before) : row.IsIdentified primitives after := by
  rcases identified with ⟨collection, transaction, receipt, sender, by_⟩
  refine ⟨collection, transaction, receipt, sender, ?_⟩
  exact
    { by_ with
      found := by simpa only [Database.collection, collections] using by_.found
      transactionStored := by_.transactionStored.mono kept
      receiptStored := by_.receiptStored.mono kept }

theorem isDirect_iff (event : MintEvent) (collection : Collection) (transactionHash : Text)
    (transaction : EvmTransaction) :
    isDirect (event.toMint collection.checksumAddress transactionHash) transaction = true ↔
      transaction.IsSentTo collection := by
  cases recipient : transaction.recipient with
  | none => simp [isDirect, EvmTransaction.IsSentTo, recipient]
  | some address =>
      simp only [isDirect, EvmTransaction.IsSentTo, recipient, decide_eq_true_eq]
      simp [MintEvent.toMint]

/-- A row takes over its identity from the stored transaction that contains it. -/
theorem IdentifiedFrom.isIdentified {collection : Collection} {rawHash : Bytes}
    {answers : TransactionAnswers} {old row : MintEvent} {collectionId : ℕ}
    (from_ : IdentifiedFrom primitives collectionId collection.checksumAddress rawHash answers old
      row)
    (found : after.collection collectionId = some collection)
    (transactionStored :
      StoresPayload after .transaction (transactionPayload answers.transaction))
    (receiptStored : StoresPayload after .receipt (receiptPayload answers.receipt)) :
    row.IsIdentified primitives after := by
  rcases from_ with ⟨rfl, rfl, identity, succeeded, rfl⟩
  rcases enrichMint_eq_ok succeeded with ⟨matching, sender, checksummed, rfl⟩
  have direct_iff := isDirect_iff old collection (marker ++ hex old.transactionHash)
    answers.transaction
  refine ⟨collection, answers.transaction, answers.receipt, sender, ?_⟩
  constructor
  · exact found
  · exact transactionStored
  · exact receiptStored
  · exact matching.transactionHash
  · exact matching.receiptHash
  · exact matching.succeeded
  · exact matching.receiptBlock
  · exact matching.blockHash
  · exact checksummed
  · rfl
  · rfl
  all_goals
    simp only [← direct_iff, MintEvent.withIdentity, enrichedBy]
    cases isDirect (old.toMint collection.checksumAddress (marker ++ hex old.transactionHash))
      answers.transaction <;> simp

/-- One action keeps every identity derived from stored evidence. -/
theorem ObservationTransition.identity {store next : ObservationStore}
    {phase nextPhase : EnrichmentPhase} {event : ObservationEvent}
    (moved : ObservationTransition primitives store phase event next nextPhase)
    (collisionFree : Set.InjOn primitives.sha256 messages)
    (hashed : ∀ message ∈ event.messages, message ∈ messages)
    (addressed : phase.IsAddressed store.db)
    (holds : IdentityInvariant primitives messages store.db) :
    IdentityInvariant primitives messages next.db := by
  have kept := moved.kept
  have genuine := moved.isGenuine hashed holds.evidence
  have mints_kept : ∀ row ∈ store.db.mintEvents,
      row.IsUnidentified ∨ row.IsIdentified primitives next.db :=
    fun row row_mem => (holds.mints row row_mem).imp_right (.mono kept.1 kept.2)
  refine ⟨genuine, ?_⟩
  cases moved with
  | commit committed =>
      exact (commit_preserves (fun _ _ _ _ => trivial) (fun row unidentified => Or.inl unidentified)
        committed ⟨fun _ _ => trivial, mints_kept⟩).2
  | @enrich enricher collectionId address hash hashes warnings answers db enriched =>
      rcases enrichTransaction_rows enriched with ⟨⟨rows, rows_hold, stored⟩, mints⟩
      have storesText : ∀ {kind payload}, (kind, payload) ∈ answers.evidence →
          StoresText db kind payload :=
        insertAllOrIgnore_storesText collisionFree
          (fun entry entry_mem => hashed _ (List.mem_map_of_mem entry_mem)) rows_hold stored genuine
      intro row row_mem
      rcases mints row row_mem with old | ⟨old, _, from_⟩
      · exact mints_kept row old
      · right
        rcases addressed with ⟨collection, found, rfl⟩
        apply from_.isIdentified
        · have collections : db.collections = store.db.collections := kept.1
          simpa only [Database.collection, collections] using found
        · exact (storesText (answers.mem_evidence.mpr (Or.inl rfl))).transaction genuine
        · exact (storesText (answers.mem_evidence.mpr (Or.inr (Or.inl rfl)))).receipt genuine
  | select | returned | raised => exact mints_kept

/--
After any run of commits and enrichments from empty tables of evidence and mints,
the identity columns of every row say nothing or are derived from a stored
transaction and a stored receipt of that row.
-/
theorem identities_derived {db : Database} {world : World ObservationStore EnrichmentPhase}
    (collisionFree : Set.InjOn primitives.sha256 messages) (evidence : db.rawEvidence = [])
    (mints : db.mintEvents = [])
    (run : (observationProgram primitives).Reaches (HashesWithin messages)
      (World.uniform ⟨db, []⟩ .idle) world) :
    ∀ row ∈ world.store.db.mintEvents,
      row.IsUnidentified ∨ row.IsIdentified primitives world.store.db := by
  have holds := run.invariant
    (fun world => IdentityInvariant primitives messages world.store.db ∧
      ∀ index, (world.process index).IsAddressed world.store.db) ?_ ?_
  · exact holds.1.mints
  · rintro world next index event ⟨invariant, addressed⟩ hashed acted
    refine Program.act_local (fun store => IdentityInvariant primitives messages store.db)
      (fun store phase => phase.IsAddressed store.db) acted (fun stepped => ?_)
      (fun stepped other => ?_) addressed
    · have moved := observationTransition_of_step stepped
      exact ⟨moved.identity collisionFree hashed (addressed index) invariant,
        moved.isAddressed (addressed index)⟩
    · exact other.congr (observationTransition_of_step stepped).kept.1
  · exact ⟨⟨by simp [evidence], by simp [mints]⟩, fun _ => trivial⟩

section Samples

/-- A process commits the sample transfer, and another one enriches it. -/
def observationSchedule : List (ℕ × ObservationEvent) :=
  [(0, .commit (batchConsumer 1) ⟨7, 7, sampleBlock.blockHash, [unmarkedTransferLog]⟩),
    (1, .select ⟨providerAlias⟩ 1 7 7 [AbiEncoding.word 5]),
    (1, .enrich ⟨sampleTransaction, sampleReceipt, .error ⟨"rpc_-32601", false, false⟩⟩)]

/-- The texts that are hashed in that schedule. -/
def observationMessages : List Bytes :=
  observationSchedule.flatMap fun action => action.2.messages

end Samples

theorem observedTransfer_identityDerived :
    ∃ world : World ObservationStore EnrichmentPhase,
      (observationProgram scanHashes).Reaches
          (HashesWithin {message | message ∈ observationMessages})
          (World.uniform ⟨sampleDatabase, []⟩ .idle) world ∧
        (∃ row ∈ world.store.db.mintEvents, row.identityConfidence = 85) ∧
          ∀ row ∈ world.store.db.mintEvents,
            row.IsUnidentified ∨ row.IsIdentified scanHashes world.store.db := by
  have enriched : ((observationProgram scanHashes).execute
      (World.uniform ⟨sampleDatabase, []⟩ .idle) observationSchedule).any
      (fun world => world.store.db.mintEvents.any fun row => row.identityConfidence = 85) =
        true := by
    decide +kernel
  rcases (Option.any_eq_true _ _).mp enriched with ⟨world, executed, identified⟩
  have apart : ∀ first ∈ observationMessages, ∀ second ∈ observationMessages,
      scanHashes.sha256 first = scanHashes.sha256 second → first = second := by
    decide +kernel
  have collisionFree : Set.InjOn scanHashes.sha256 {message | message ∈ observationMessages} :=
    fun first first_mem second second_mem same => apart first first_mem second second_mem same
  have run : (observationProgram scanHashes).Reaches
      (HashesWithin {message | message ∈ observationMessages})
      (World.uniform ⟨sampleDatabase, []⟩ .idle) world := by
    apply Program.reaches_of_execute executed
    apply Program.meets_of_events
    intro action action_mem message message_mem
    exact List.mem_flatMap.mpr ⟨action, action_mem, message_mem⟩
  exact ⟨world, run, by simpa using identified, identities_derived collisionFree rfl rfl run⟩

end CopyMint
