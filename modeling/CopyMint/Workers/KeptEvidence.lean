import CopyMint.Workers.Identities

/-!
# Evidence that is shared by transactions

Evidence is identified by its kind and payload, and looked up by the hash of its
transaction. The payloads of a transaction and of a receipt name the transaction,
but a call trace does not: where two transactions have equal traces, only the
first of them keeps a trace. An enrichment keeps its own evidence exactly if
whatever it stores is not stored yet, or is stored for its own transaction too.
-/

namespace CopyMint

open Hexadecimal Relational Interleaving

/-- Evidence of some kind is stored for a transaction. -/
def HasEvidence (db : Database) (kind : EvidenceKind) (transactionHash : Bytes) : Prop :=
  ∃ row ∈ db.rawEvidence, row.kind = kind ∧ row.transactionHash = some transactionHash

instance (db : Database) (kind : EvidenceKind) (transactionHash : Bytes) :
    Decidable (HasEvidence db kind transactionHash) :=
  inferInstanceAs (Decidable (∃ row ∈ db.rawEvidence, _))

instance (db : Database) (kind : EvidenceKind) (payload : Json) :
    Decidable (StoresText db kind payload) :=
  inferInstanceAs (Decidable (∃ row ∈ db.rawEvidence, _))

/-- A transaction has evidence of itself, of its receipt and of the trace that was returned. -/
structure EnrichedTransaction.KeepsEvidence (db : Database) (enriched : EnrichedTransaction) :
    Prop where
  transaction : HasEvidence db .transaction enriched.transactionHash
  receipt : HasEvidence db .receipt enriched.transactionHash
  trace : ∀ trace, enriched.answers.trace = .ok trace →
    HasEvidence db .trace enriched.transactionHash

/-- What is stored already of the evidence of a transaction is stored for that transaction. -/
def EnrichedTransaction.SharesNothing (db : Database) (enriched : EnrichedTransaction) : Prop :=
  ∀ entry ∈ enriched.answers.evidence, StoresText db entry.1 entry.2 →
    HasEvidence db entry.1 enriched.transactionHash

instance (db : Database) (enriched : EnrichedTransaction) :
    Decidable (enriched.SharesNothing db) :=
  inferInstanceAs (Decidable (∀ entry ∈ enriched.answers.evidence, _))

/-- The enrichment that an action commits, if it commits one. -/
def committedEnrichment : EnrichmentPhase → ObservationEvent → Option EnrichedTransaction
  | .enriching _ _ _ (hash :: _) _, .enrich answers => some ⟨hash, answers⟩
  | _, _ => none

/-- An enrichment commits only where none of its evidence is stored for other transactions only. -/
def StoresOwnEvidence : Condition ObservationStore EnrichmentPhase ObservationEvent :=
  fun world index event =>
    ∀ enriched ∈ committedEnrichment (world.process index) event,
      enriched.SharesNothing world.store.db

instance (world : World ObservationStore EnrichmentPhase) (index : ℕ) (event : ObservationEvent) :
    Decidable (StoresOwnEvidence world index event) :=
  inferInstanceAs (Decidable (∀ enriched ∈ committedEnrichment _ _, _))

variable {primitives : Primitives} {messages : Set Bytes}

theorem HasEvidence.mono {before after : Database} {kind : EvidenceKind} {transactionHash : Bytes}
    (kept : before.rawEvidence ⊆ after.rawEvidence)
    (stored : HasEvidence before kind transactionHash) :
    HasEvidence after kind transactionHash := by
  rcases stored with ⟨row, row_mem, facts⟩
  exact ⟨row, kept row_mem, facts⟩

namespace EnrichedTransaction

variable {enriched : EnrichedTransaction} {before after db : Database}

theorem KeepsEvidence.mono (kept : before.rawEvidence ⊆ after.rawEvidence)
    (keeps : enriched.KeepsEvidence before) : enriched.KeepsEvidence after where
  transaction := keeps.transaction.mono kept
  receipt := keeps.receipt.mono kept
  trace := fun trace traced => (keeps.trace trace traced).mono kept

theorem keepsEvidence_iff :
    enriched.KeepsEvidence db ↔
      ∀ entry ∈ enriched.answers.evidence, HasEvidence db entry.1 enriched.transactionHash := by
  constructor
  · intro keeps entry entry_mem
    rcases TransactionAnswers.mem_evidence.mp entry_mem with rfl | rfl | ⟨trace, traced, rfl⟩
    · exact keeps.transaction
    · exact keeps.receipt
    · exact keeps.trace trace traced
  · intro stored
    refine ⟨?_, ?_, fun trace traced => ?_⟩
    · exact stored _ (TransactionAnswers.mem_evidence.mpr (Or.inl rfl))
    · exact stored _ (TransactionAnswers.mem_evidence.mpr (Or.inr (Or.inl rfl)))
    · exact stored _ (TransactionAnswers.mem_evidence.mpr (Or.inr (Or.inr ⟨trace, traced, rfl⟩)))

/-- An enrichment keeps its evidence exactly if it shares none with other transactions only. -/
theorem keepsEvidence_iff_sharesNothing {collectionId : ℕ} {collectionAddress : Text}
    {providerAlias : String} (collisionFree : Set.InjOn primitives.sha256 messages)
    (hashed : ∀ entry ∈ enriched.answers.evidence,
      Json.utf8 (evidenceDocument entry.1 entry.2).dumps ∈ messages)
    (genuine : ∀ row ∈ before.rawEvidence, row.IsGenuine primitives messages)
    (committed : enrichTransaction primitives collectionId collectionAddress providerAlias
      enriched.transactionHash enriched.answers before = .ok after) :
    enriched.KeepsEvidence after ↔ enriched.SharesNothing before := by
  rcases (enrichTransaction_rows committed).1 with ⟨rows, holds, stored⟩
  have distinct := contentHash_pairwise collisionFree enriched.answers.evidence_pairwise hashed
    holds
  have conflict_iff : ∀ entry ∈ enriched.answers.evidence,
      (∃ row ∈ before.rawEvidence, row.contentHash =
        contentHash primitives (evidenceDocument entry.1 entry.2)) ↔
        StoresText before entry.1 entry.2 := by
    intro entry entry_mem
    have row_iff := fun row row_mem => (genuine row row_mem).contentHash_eq_iff collisionFree
      (TransactionAnswers.kind_ne_log entry_mem) (hashed entry entry_mem)
    constructor
    · rintro ⟨row, row_mem, same⟩
      exact ⟨row, row_mem, (row_iff row row_mem).mp same⟩
    · rintro ⟨row, row_mem, same⟩
      exact ⟨row, row_mem, (row_iff row row_mem).mpr same⟩
  rw [keepsEvidence_iff]
  refine forall₂_congr fun entry entry_mem => ?_
  rw [← conflict_iff entry entry_mem]
  constructor
  · -- The row found afterwards was there before, or it was inserted because none conflicts.
    rintro ⟨row, row_mem, kind_eq, hash_eq⟩ ⟨existing, existing_mem, conflict⟩
    rw [stored, mem_insertAllOrIgnore distinct] at row_mem
    rcases row_mem with old | ⟨new, absent⟩
    · exact ⟨row, old, kind_eq, hash_eq⟩
    · rcases Fallible.exists_left_of_forall₂ holds new with ⟨other, other_mem, row_holds⟩
      have kinds : (enriched.answers.evidence.map Prod.fst).Nodup :=
        List.pairwise_map.mpr enriched.answers.evidence_pairwise
      have same : other = entry :=
        List.inj_on_of_nodup_map kinds other_mem entry_mem (row_holds.kind.symm.trans kind_eq)
      rw [same] at row_holds
      exact absurd (conflict.trans row_holds.contentHash.symm) (absent existing existing_mem)
  · intro own
    by_cases conflict : ∃ row ∈ before.rawEvidence, row.contentHash =
        contentHash primitives (evidenceDocument entry.1 entry.2)
    · exact (own conflict).mono (stored ▸ fun _ => mem_insertAllOrIgnore_of_mem rows)
    · rcases Fallible.exists_right_of_forall₂ holds entry_mem with ⟨row, row_mem, row_holds⟩
      refine ⟨row, ?_, row_holds.kind, row_holds.transactionHash⟩
      rw [stored, mem_insertAllOrIgnore distinct]
      refine Or.inr ⟨row_mem, fun existing existing_mem same => ?_⟩
      exact conflict ⟨existing, existing_mem, same.trans row_holds.contentHash⟩

end EnrichedTransaction

/-- Evidence is genuine, and every committed enrichment keeps its own. -/
structure KeptInvariant (primitives : Primitives) (messages : Set Bytes)
    (store : ObservationStore) : Prop where
  evidence : ∀ row ∈ store.db.rawEvidence, row.IsGenuine primitives messages
  kept : ∀ enriched ∈ store.enriched, enriched.KeepsEvidence store.db

theorem ObservationTransition.keepsEvidence {store next : ObservationStore}
    {phase nextPhase : EnrichmentPhase} {event : ObservationEvent}
    (moved : ObservationTransition primitives store phase event next nextPhase)
    (collisionFree : Set.InjOn primitives.sha256 messages)
    (hashed : ∀ message ∈ event.messages, message ∈ messages)
    (own : ∀ enriched ∈ committedEnrichment phase event, enriched.SharesNothing store.db)
    (holds : KeptInvariant primitives messages store) :
    KeptInvariant primitives messages next := by
  have kept_before : ∀ enriched ∈ store.enriched, enriched.KeepsEvidence next.db :=
    fun enriched enriched_mem => (holds.kept enriched enriched_mem).mono moved.kept.2
  refine ⟨moved.isGenuine hashed holds.evidence, ?_⟩
  cases moved with
  | @enrich enricher collectionId address hash hashes warnings answers db committed =>
      intro enriched enriched_mem
      rcases List.mem_cons.mp enriched_mem with rfl | earlier
      · have entries_hashed : ∀ entry ∈ answers.evidence,
            Json.utf8 (evidenceDocument entry.1 entry.2).dumps ∈ messages :=
          fun entry entry_mem => hashed _ (List.mem_map_of_mem entry_mem)
        apply (EnrichedTransaction.keepsEvidence_iff_sharesNothing collisionFree entries_hashed
          holds.evidence committed).mpr
        exact own _ rfl
      · exact kept_before enriched earlier
  | commit | select | returned | raised => exact kept_before

/--
In every run whose enrichments commit only where none of their evidence is stored
for other transactions only, every enriched transaction keeps its own evidence.
-/
theorem enrichments_keepEvidence {db : Database} {world : World ObservationStore EnrichmentPhase}
    (collisionFree : Set.InjOn primitives.sha256 messages) (evidence : db.rawEvidence = [])
    (run : (observationProgram primitives).Reaches
      (fun world index event => HashesWithin messages world index event ∧
        StoresOwnEvidence world index event) (World.uniform ⟨db, []⟩ .idle) world) :
    ∀ enriched ∈ world.store.enriched, enriched.KeepsEvidence world.store.db := by
  have holds := run.invariant (fun world => KeptInvariant primitives messages world.store) ?_ ?_
  · exact holds.kept
  · rintro world next index event invariant ⟨hashed, own⟩ acted
    rcases Program.act_eq_some_iff.mp acted with ⟨store, phase, stepped, rfl⟩
    exact (observationTransition_of_step stepped).keepsEvidence collisionFree hashed own invariant
  · exact ⟨by simp [evidence], by simp⟩

section Samples

/-- A transfer of another token, in another transaction of the same block. -/
def secondTransferLog : EvmLog :=
  { unmarkedTransferLog with
    topics := unmarkedTransferLog.topics.take 3 ++ [marker ++ hex (AbiEncoding.word 2)]
    transactionHash := marker ++ hex (AbiEncoding.word 6)
    logIndex := 1 }

/-- The same call as the sample transaction, sent once more. -/
def secondTransaction : EvmTransaction :=
  { sampleTransaction with transactionHash := secondTransferLog.transactionHash }

/-- The receipt of the second call. -/
def secondReceipt : EvmReceipt :=
  { sampleReceipt with transactionHash := secondTransferLog.transactionHash }

/-- What the call tracer returns about each of the two calls. -/
def callTrace : Json :=
  .obj
    [("type".toList, .str "CALL".toList), ("from".toList, .str sampleTransaction.sender),
      ("to".toList, .str sampleTransaction.sender), ("gasUsed".toList, .str "0xc350".toList),
      ("input".toList, .str "0x1249c58b".toList)]

/-- The digests of the evidence of the second transfer and of the trace. -/
def tracedDigests : List (Json × BytesOf 32) :=
  [(evidencePayload secondTransferLog,
      ⟨[0x6e, 0x9c, 0xc9, 0xc0, 0xa6, 0x20, 0xd3, 0xa7, 0x4c, 0x34, 0xed, 0xad,
          0x25, 0x5a, 0xac, 0xe5, 0x73, 0xcb, 0x76, 0x99, 0x42, 0xc5, 0x2b, 0x36,
          0x05, 0xe2, 0xb5, 0xea, 0x16, 0x12, 0x56, 0x17], rfl⟩),
    (evidenceDocument .transaction (transactionPayload secondTransaction),
      ⟨[0xb0, 0xda, 0x35, 0xc4, 0x83, 0xdf, 0xae, 0x2f, 0xa3, 0xab, 0x40, 0xed,
          0x78, 0xce, 0x3d, 0x82, 0xd0, 0x1d, 0x01, 0xc8, 0x33, 0x96, 0x24, 0x94,
          0x42, 0x9b, 0x67, 0x9b, 0xd2, 0xac, 0x8d, 0xfe], rfl⟩),
    (evidenceDocument .receipt (receiptPayload secondReceipt),
      ⟨[0x5a, 0x47, 0xbd, 0x4a, 0x92, 0xec, 0x27, 0x1f, 0x9d, 0x53, 0xf9, 0x0d,
          0xcb, 0xb7, 0xc9, 0x60, 0x1b, 0x48, 0xf5, 0xb1, 0xe9, 0xfd, 0xe6, 0x3b,
          0x4c, 0x3c, 0xb2, 0xcb, 0x91, 0xb2, 0xa4, 0x4a], rfl⟩),
    (evidenceDocument .trace callTrace,
      ⟨[0x80, 0x5f, 0x8c, 0xa9, 0x37, 0x51, 0x24, 0x0e, 0x02, 0x07, 0x6f, 0x21,
          0xc6, 0x3b, 0x37, 0xbb, 0xf5, 0x11, 0x8f, 0x48, 0x70, 0xd9, 0x94, 0xd5,
          0x48, 0xb8, 0x34, 0x3f, 0x60, 0xad, 0x94, 0x43], rfl⟩)]

/-- The hashes of the scan samples with the digests of the second transfer and of the trace. -/
def tracedHashes : Primitives :=
  { scanHashes with
    sha256 := fun data =>
      match tracedDigests.find? fun entry => Json.utf8 entry.1.dumps = data with
      | some entry => entry.2
      | none => scanHashes.sha256 data }

/-- Both transfers are committed and enriched. -/
def tracedSchedule : List (ℕ × ObservationEvent) :=
  [(0, .commit (batchConsumer 1)
      ⟨7, 7, sampleBlock.blockHash, [unmarkedTransferLog, secondTransferLog]⟩),
    (1, .select ⟨providerAlias⟩ 1 7 7 [AbiEncoding.word 5, AbiEncoding.word 6]),
    (1, .enrich ⟨sampleTransaction, sampleReceipt, .ok callTrace⟩),
    (1, .enrich ⟨secondTransaction, secondReceipt, .ok callTrace⟩)]

/-- The second call is enriched from a node that does not trace calls. -/
def untracedEnrichment : ℕ × ObservationEvent :=
  (1, .enrich ⟨secondTransaction, secondReceipt, .error ⟨"rpc_-32601", false, false⟩⟩)

/-- Both transfers are committed and enriched, only the first one with its trace. -/
def untracedSchedule : List (ℕ × ObservationEvent) := tracedSchedule.take 3 ++ [untracedEnrichment]

/-- The documents whose texts are hashed in these schedules. -/
def tracedDocuments : List Json :=
  [evidencePayload unmarkedTransferLog, evidencePayload secondTransferLog,
    evidenceDocument .transaction (transactionPayload sampleTransaction),
    evidenceDocument .receipt (receiptPayload sampleReceipt),
    evidenceDocument .transaction (transactionPayload secondTransaction),
    evidenceDocument .receipt (receiptPayload secondReceipt), evidenceDocument .trace callTrace]

/-- The texts of these documents. -/
def tracedMessages : Set Bytes :=
  {message | ∃ document ∈ tracedDocuments, Json.utf8 document.dumps = message}

theorem tracedHashes_injOn : Set.InjOn tracedHashes.sha256 tracedMessages := by
  have apart : (tracedDocuments.map (contentHash tracedHashes)).Nodup := by decide +kernel
  rintro _ ⟨first, first_mem, rfl⟩ _ ⟨second, second_mem, rfl⟩ same
  rw [List.inj_on_of_nodup_map apart first_mem second_mem same]

/-- Schedules of these two transfers hash no other texts. -/
theorem hashesWithin_tracedSchedule {schedule : List (ℕ × ObservationEvent)}
    (part : schedule ⊆ untracedEnrichment :: tracedSchedule)
    (world : World ObservationStore EnrichmentPhase) :
    (observationProgram tracedHashes).Meets (HashesWithin tracedMessages) world schedule := by
  refine Program.meets_of_events
    (fun event : ObservationEvent => ∀ message ∈ event.messages, message ∈ tracedMessages) ?_ world
  intro action action_mem message message_mem
  have in_schedule := part action_mem
  simp only [tracedSchedule, untracedEnrichment, List.mem_cons, List.not_mem_nil, or_false]
    at in_schedule
  rcases in_schedule with rfl | rfl | rfl | rfl | rfl
  all_goals
    simp only [ObservationEvent.messages, TransactionAnswers.evidence,
      TransactionAnswers.traceEvidence, List.map_cons, List.map_nil, List.mem_cons,
      List.not_mem_nil, or_false] at message_mem
  · rcases message_mem with rfl | rfl <;> exact ⟨_, by simp [tracedDocuments], rfl⟩
  · rcases message_mem with rfl | rfl <;> exact ⟨_, by simp [tracedDocuments], rfl⟩
  · rcases message_mem with rfl | rfl | rfl <;> exact ⟨_, by simp [tracedDocuments], rfl⟩
  · rcases message_mem with rfl | rfl | rfl <;> exact ⟨_, by simp [tracedDocuments], rfl⟩

end Samples

/-- Two calls with equal traces: the trace of the second one is not stored for it. -/
theorem equalTraces_loseEvidence :
    ¬∀ (primitives : Primitives) (messages : Set Bytes) (db : Database)
      (world : World ObservationStore EnrichmentPhase),
      Set.InjOn primitives.sha256 messages → db.rawEvidence = [] →
      (observationProgram primitives).Reaches (HashesWithin messages)
        (World.uniform ⟨db, []⟩ .idle) world →
      ∀ enriched ∈ world.store.enriched, enriched.KeepsEvidence world.store.db := by
  intro kept
  have reached : ((observationProgram tracedHashes).execute
      (World.uniform ⟨sampleDatabase, []⟩ .idle) tracedSchedule).any
      (fun world => world.store.enriched.any fun enriched => enriched.answers.trace.isOk &&
        ¬HasEvidence world.store.db .trace enriched.transactionHash) = true := by
    decide +kernel
  rcases (Option.any_eq_true _ _).mp reached with ⟨world, executed, facts⟩
  simp only [List.any_eq_true, Bool.and_eq_true, decide_eq_true_eq] at facts
  rcases facts with ⟨enriched, enriched_mem, traced, lost⟩
  have run := Program.reaches_of_execute executed
    (hashesWithin_tracedSchedule (List.subset_cons_self _ _) _)
  have keeps := kept tracedHashes _ sampleDatabase world tracedHashes_injOn rfl run enriched
    enriched_mem
  cases answered : enriched.answers.trace with
  | error failure => simp [answered, Except.isOk, Except.toBool] at traced
  | ok trace => exact lost (keeps.trace trace answered)

theorem tracedTransfer_keepsEvidence :
    ∃ world : World ObservationStore EnrichmentPhase,
      (observationProgram tracedHashes).Reaches
          (fun world index event => HashesWithin tracedMessages world index event ∧
            StoresOwnEvidence world index event) (World.uniform ⟨sampleDatabase, []⟩ .idle) world ∧
        world.store.enriched.length = 2 ∧
          ∀ enriched ∈ world.store.enriched, enriched.KeepsEvidence world.store.db := by
  have enriched : ((observationProgram tracedHashes).execute
      (World.uniform ⟨sampleDatabase, []⟩ .idle) untracedSchedule).any
      (fun world => world.store.enriched.length = 2) = true := by
    decide +kernel
  rcases (Option.any_eq_true _ _).mp enriched with ⟨world, executed, both⟩
  have own : (observationProgram tracedHashes).Meets StoresOwnEvidence
      (World.uniform ⟨sampleDatabase, []⟩ .idle) untracedSchedule := by
    decide +kernel
  have within : (observationProgram tracedHashes).Meets (HashesWithin tracedMessages)
      (World.uniform ⟨sampleDatabase, []⟩ .idle) untracedSchedule :=
    hashesWithin_tracedSchedule (by simp [untracedSchedule, tracedSchedule]) _
  have run := Program.reaches_of_execute executed (Program.meets_and within own)
  exact ⟨world, run, of_decide_eq_true both,
    enrichments_keepEvidence tracedHashes_injOn rfl run⟩

end CopyMint
