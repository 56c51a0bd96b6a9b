import CopyMint.Library.JsonText
import CopyMint.Workers.KeptEvidence

/-!
# Evidence that gives way to stored evidence

Evidence is inserted unless a row has its content hash. The texts that are hashed
determine the kind and the payload of evidence, up to the order of the members of
objects. Without collisions a row in the way is therefore one of the same evidence, in
whatever order commits and enrichments have stored it.
-/

namespace CopyMint

open Hexadecimal Relational Interleaving

/-- The payload of a log, or a payload of another kind with valid JSON values. -/
structure Evidence where
  kind : EvidenceKind
  payload : Json
  isEvidence : (kind = .log ∧ ∃ log, payload = evidencePayload log) ∨
    (kind ∈ [.transaction, .receipt, .trace] ∧ payload.IsValid)

namespace Evidence

/-- The document whose text is hashed. -/
def document (evidence : Evidence) : Json :=
  if evidence.kind = .log then evidence.payload
  else evidenceDocument evidence.kind evidence.payload

/-- The bytes that are hashed. -/
def hashed (evidence : Evidence) : Bytes := Json.utf8 evidence.document.dumps

/-- The same kind, and payloads that differ in the order of members only. -/
def Identical (first second : Evidence) : Prop :=
  first.kind = second.kind ∧ first.payload.Equal second.payload

end Evidence

section Payloads

theorem isValid_evidencePayload (log : EvmLog) : (evidencePayload log).IsValid := by
  refine .obj fun entry entry_mem => ?_
  simp only [List.mem_cons, List.not_mem_nil, or_false] at entry_mem
  rcases entry_mem with rfl | rfl | rfl | rfl | rfl | rfl | rfl | rfl
  · exact .str _
  · refine .arr fun item item_mem => ?_
    rcases List.mem_map.mp item_mem with ⟨topic, _, rfl⟩
    exact .str topic
  · exact .str _
  · exact .int _
  · exact .str _
  · exact .str _
  · exact .int _
  · exact .bool _

theorem isValid_optionalText (text : Option Text) : (optionalText text).IsValid := by
  cases text with
  | none => exact .null
  | some text => exact .str text

theorem isValid_optionalInt (value : Option ℕ) : (optionalInt value).IsValid := by
  cases value with
  | none => exact .null
  | some value => exact .int value

theorem isValid_transactionPayload (transaction : EvmTransaction) :
    (transactionPayload transaction).IsValid := by
  refine .obj fun entry entry_mem => ?_
  simp only [List.mem_cons, List.not_mem_nil, or_false] at entry_mem
  rcases entry_mem with rfl | rfl | rfl | rfl | rfl | rfl
  · exact .str _
  · exact .str _
  · exact isValid_optionalText _
  · exact .int _
  · exact .str _
  · exact .int _

theorem isValid_receiptPayload (receipt : EvmReceipt) : (receiptPayload receipt).IsValid := by
  refine .obj fun entry entry_mem => ?_
  simp only [List.mem_cons, List.not_mem_nil, or_false] at entry_mem
  rcases entry_mem with rfl | rfl | rfl | rfl | rfl | rfl
  · exact .str _
  · exact .int _
  · exact .str _
  · exact .int _
  · exact .int _
  · exact isValid_optionalInt _

end Payloads

/-- The document of a log is its payload, and that of other evidence names its kind. -/
theorem Evidence.document_cases (evidence : Evidence) :
    (evidence.kind = .log ∧ ∃ log, evidence.payload = evidencePayload log ∧
      evidence.document = evidencePayload log) ∨
    (evidence.payload.IsValid ∧
      evidence.document = evidenceDocument evidence.kind evidence.payload) := by
  rcases evidence.isEvidence with ⟨isLog, log, payload_eq⟩ | ⟨listed, valid⟩
  · refine .inl ⟨isLog, log, payload_eq, ?_⟩
    rw [document, if_pos isLog, payload_eq]
  · have notLog : evidence.kind ≠ .log := by
      intro isLog
      rw [isLog] at listed
      simp at listed
    exact .inr ⟨valid, if_neg notLog⟩

/-- Evidence of which the same bytes are hashed is identical. -/
theorem Evidence.identical_of_hashed {first second : Evidence}
    (same : first.hashed = second.hashed) : first.Identical second := by
  have texts : first.document.dumps = second.document.dumps := Json.utf8_injective same
  rcases first.document_cases with ⟨first_kind, log, first_eq, document_eq⟩ | ⟨valid, document_eq⟩
  · rcases second.document_cases with ⟨second_kind, other, second_eq, other_eq⟩ | ⟨_, other_eq⟩
    · rw [document_eq, other_eq] at texts
      refine ⟨first_kind.trans second_kind.symm, ?_⟩
      rw [first_eq, second_eq]
      exact Json.dumps_injective (isValid_evidencePayload log) (isValid_evidencePayload other) texts
    · rw [document_eq, other_eq] at texts
      exact absurd texts (dumps_evidencePayload_ne log _ _)
  · rcases second.document_cases with ⟨_, other, _, other_eq⟩ | ⟨other_valid, other_eq⟩
    · rw [document_eq, other_eq] at texts
      exact absurd texts.symm (dumps_evidencePayload_ne other _ _)
    · rw [document_eq, other_eq] at texts
      rcases evidenceDocument_inj texts with ⟨kinds, payloads⟩
      exact ⟨kinds, Json.dumps_injective valid other_valid payloads⟩

/-- The traces that a provider returns are valid. -/
def HasValidTraces : Condition ObservationStore EnrichmentPhase ObservationEvent :=
  fun _ _ event => ∀ answers, event = .enrich answers →
    ∀ trace, answers.trace = .ok trace → trace.IsValid

/-- Only texts among some messages are hashed, and traces are valid. -/
def HashesValid (messages : Set Bytes) :
    Condition ObservationStore EnrichmentPhase ObservationEvent :=
  fun world index event =>
    HashesWithin messages world index event ∧ HasValidTraces world index event

variable {primitives : Primitives} {messages : Set Bytes}

section Rows

/-- A row holds evidence under the hash of its bytes. -/
structure RawEvidence.Files (primitives : Primitives) (messages : Set Bytes) (evidence : Evidence)
    (row : RawEvidence) : Prop where
  kind : row.kind = evidence.kind
  payload : row.payload = evidence.payload
  contentHash : row.contentHash = primitives.sha256 evidence.hashed
  hashed : evidence.hashed ∈ messages

/-- A genuine row with a valid payload holds evidence. -/
theorem RawEvidence.IsGenuine.exists_files {row : RawEvidence}
    (genuine : row.IsGenuine primitives messages) (valid : row.payload.IsValid) :
    ∃ evidence, row.Files primitives messages evidence := by
  have isEvidence : (row.kind = .log ∧ ∃ log, row.payload = evidencePayload log) ∨
      (row.kind ∈ [.transaction, .receipt, .trace] ∧ row.payload.IsValid) := by
    have built := genuine.payload
    cases kind : row.kind with
    | block =>
        rw [kind] at built
        cases built
    | log =>
        rw [kind] at built
        exact .inl ⟨rfl, built⟩
    | transaction => exact .inr ⟨by simp, valid⟩
    | receipt => exact .inr ⟨by simp, valid⟩
    | trace => exact .inr ⟨by simp, valid⟩
  exact ⟨⟨row.kind, row.payload, isEvidence⟩, rfl, rfl, genuine.contentHash, genuine.hashed⟩

/-- One action keeps every payload valid. -/
theorem ObservationTransition.isValid {store next : ObservationStore}
    {phase after : EnrichmentPhase} {event : ObservationEvent}
    (moved : ObservationTransition primitives store phase event next after)
    (traces : ∀ answers, event = .enrich answers →
      ∀ trace, answers.trace = .ok trace → trace.IsValid)
    (valid : ∀ row ∈ store.db.rawEvidence, row.payload.IsValid) :
    ∀ row ∈ next.db.rawEvidence, row.payload.IsValid := by
  cases moved with
  | commit committed =>
      exact (commit_preserves (fun log _ _ _ => isValid_evidencePayload log) (fun _ _ => trivial)
        committed ⟨valid, fun _ _ => trivial⟩).1
  | @enrich enricher collectionId address hash hashes warnings answers db enriched =>
      rcases (enrichTransaction_rows enriched).1 with ⟨rows, rows_hold, stored⟩
      intro row row_mem
      rw [stored] at row_mem
      rcases mem_or_mem_of_mem_insertAllOrIgnore row_mem with old | new
      · exact valid row old
      · rcases Fallible.exists_left_of_forall₂ rows_hold new with ⟨entry, entry_mem, holds⟩
        rw [holds.payload]
        rcases TransactionAnswers.mem_evidence.mp entry_mem with rfl | rfl | ⟨trace, traced, rfl⟩
        · exact isValid_transactionPayload _
        · exact isValid_receiptPayload _
        · exact traces answers rfl trace traced
  | select | returned | raised => exact valid

/-- Every row of a run holds evidence. -/
theorem files_of_reaches {db : Database} {world : World ObservationStore EnrichmentPhase}
    (evidence : db.rawEvidence = [])
    (run : (observationProgram primitives).Reaches (HashesValid messages)
      (World.uniform ⟨db, []⟩ .idle) world) :
    ∀ row ∈ world.store.db.rawEvidence, ∃ evidence, row.Files primitives messages evidence := by
  have holds := run.invariant (fun world =>
    (∀ row ∈ world.store.db.rawEvidence, row.IsGenuine primitives messages) ∧
      ∀ row ∈ world.store.db.rawEvidence, row.payload.IsValid) ?_ ?_
  · exact fun row row_mem => (holds.1 row row_mem).exists_files (holds.2 row row_mem)
  · rintro world next index event ⟨genuine, valid⟩ ⟨hashed, traces⟩ acted
    rcases Program.act_eq_some_iff.mp acted with ⟨store, phase, stepped, rfl⟩
    have moved := observationTransition_of_step stepped
    exact ⟨moved.isGenuine hashed genuine, moved.isValid traces valid⟩
  · simp [evidence]

end Rows

/--
The bytes that are hashed determine evidence. In any run from an empty table, where
hashing has no collisions, a row that new evidence conflicts with holds identical
evidence, so that no other is dropped.
-/
theorem evidence_mergedIfIdentical :
    (∀ first second : Evidence, first.hashed = second.hashed → first.Identical second) ∧
    ∀ (primitives : Primitives) (messages : Set Bytes) (db : Database)
      (world : World ObservationStore EnrichmentPhase),
      Set.InjOn primitives.sha256 messages → db.rawEvidence = [] →
      (observationProgram primitives).Reaches (HashesValid messages)
        (World.uniform ⟨db, []⟩ .idle) world →
      ∀ row ∈ world.store.db.rawEvidence, ∀ new : Evidence, new.hashed ∈ messages →
        row.contentHash = primitives.sha256 new.hashed →
        row.kind = new.kind ∧ row.payload.Equal new.payload := by
  refine ⟨fun first second => Evidence.identical_of_hashed, ?_⟩
  intro primitives messages db world collisionFree evidence run row row_mem new new_hashed conflict
  rcases files_of_reaches evidence run row row_mem with ⟨stored, files⟩
  have same : stored.hashed = new.hashed :=
    collisionFree files.hashed new_hashed (files.contentHash.symm.trans conflict)
  rw [files.kind, files.payload]
  exact Evidence.identical_of_hashed same

section Samples

theorem isValid_callTrace : callTrace.IsValid := by
  refine .obj fun entry entry_mem => ?_
  simp only [List.mem_cons, List.not_mem_nil, or_false] at entry_mem
  rcases entry_mem with rfl | rfl | rfl | rfl | rfl <;> exact .str _

/-- The trace that both calls of the schedule return. -/
def traceEvidence : Evidence := ⟨.trace, callTrace, .inr ⟨by simp, isValid_callTrace⟩⟩

/-- The traces of these two transfers are valid. -/
theorem hasValidTraces_tracedSchedule (world : World ObservationStore EnrichmentPhase) :
    (observationProgram tracedHashes).Meets HasValidTraces world tracedSchedule := by
  refine Program.meets_of_events (fun event : ObservationEvent => ∀ answers,
    event = .enrich answers → ∀ trace, answers.trace = .ok trace → trace.IsValid) ?_ world
  intro action action_mem answers event_eq trace traced
  simp only [tracedSchedule, List.mem_cons, List.not_mem_nil, or_false] at action_mem
  rcases action_mem with rfl | rfl | rfl | rfl
  · cases event_eq
  · cases event_eq
  · cases event_eq
    cases traced
    exact isValid_callTrace
  · cases event_eq
    cases traced
    exact isValid_callTrace

end Samples

/-- The trace of the second call conflicts with the row of the first one, which holds it. -/
theorem equalTraces_merged :
    traceEvidence.Identical traceEvidence ∧
    ∃ world : World ObservationStore EnrichmentPhase,
      (observationProgram tracedHashes).Reaches (HashesValid tracedMessages)
          (World.uniform ⟨sampleDatabase, []⟩ .idle) world ∧
        ∃ row ∈ world.store.db.rawEvidence,
          row.contentHash = tracedHashes.sha256 traceEvidence.hashed ∧ row.kind = .trace ∧
            row.payload.Equal callTrace := by
  have conflicts : ((observationProgram tracedHashes).execute
      (World.uniform ⟨sampleDatabase, []⟩ .idle) tracedSchedule).any
      (fun world => world.store.db.rawEvidence.any fun row =>
        row.contentHash = tracedHashes.sha256 traceEvidence.hashed) = true := by
    decide +kernel
  rcases (Option.any_eq_true _ _).mp conflicts with ⟨world, executed, found⟩
  rcases List.any_eq_true.mp found with ⟨row, row_mem, conflict⟩
  have run : (observationProgram tracedHashes).Reaches (HashesValid tracedMessages)
      (World.uniform ⟨sampleDatabase, []⟩ .idle) world :=
    Program.reaches_of_execute executed
      (Program.meets_and (hashesWithin_tracedSchedule (List.subset_cons_self _ _) _)
        (hasValidTraces_tracedSchedule _))
  have among : traceEvidence.hashed ∈ tracedMessages :=
    ⟨evidenceDocument .trace callTrace, by simp [tracedDocuments], rfl⟩
  refine ⟨evidence_mergedIfIdentical.1 _ _ rfl, world, run, row, row_mem, by simpa using conflict,
    ?_⟩
  exact evidence_mergedIfIdentical.2 tracedHashes tracedMessages sampleDatabase world
    tracedHashes_injOn rfl run row row_mem traceEvidence among (by simpa using conflict)

end CopyMint
