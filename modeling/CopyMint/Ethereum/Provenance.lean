import CopyMint.Ethereum.EvidenceText
import Mathlib.Data.Set.Function

/-!
# What stored rows are derived from

Every row of evidence is the log, the answer of the provider or the trace whose
text was hashed for it. As long as hashing has no collisions, evidence that gives
way to a stored row gives way to one of the same kind and text. The identity
columns of a mint are those of a transaction and a receipt that are stored in the
same database transaction.
-/

namespace CopyMint

open Hexadecimal Relational Fallible

variable (primitives : Primitives)

/-- The document whose hash is the content hash of a row. -/
def RawEvidence.document (row : RawEvidence) : Json :=
  if row.kind = .log then row.payload else evidenceDocument row.kind row.payload

/-- A payload of some kind is one that the application builds or, for a trace, receives. -/
def IsPayload : EvidenceKind → Json → Prop
  | .block, _ => False
  | .log, payload => ∃ log, payload = evidencePayload log
  | .transaction, payload => ∃ transaction, payload = transactionPayload transaction
  | .receipt, payload => ∃ receipt, payload = receiptPayload receipt
  | .trace, _ => True

/-- A row is stored under the hash of its document, whose text is among some messages. -/
structure RawEvidence.IsGenuine (messages : Set Bytes) (row : RawEvidence) : Prop where
  contentHash : row.contentHash = CopyMint.contentHash primitives row.document
  hashed : Json.utf8 row.document.dumps ∈ messages
  payload : IsPayload row.kind row.payload

/-- The evidence of a trace, where the provider has one. -/
def TransactionAnswers.traceEvidence (answers : TransactionAnswers) : List (EvidenceKind × Json) :=
  match answers.trace with
  | .ok trace => [(.trace, trace)]
  | .error _ => []

/-- The kinds and payloads of the evidence of an enrichment, in the order of their insertion. -/
def TransactionAnswers.evidence (answers : TransactionAnswers) : List (EvidenceKind × Json) :=
  (.transaction, transactionPayload answers.transaction) ::
    (.receipt, receiptPayload answers.receipt) :: answers.traceEvidence

/-- The row inserted for a piece of evidence of a transaction. -/
structure RawEvidence.Holds (transactionHash : Bytes) (entry : EvidenceKind × Json)
    (row : RawEvidence) : Prop where
  kind : row.kind = entry.1
  payload : row.payload = entry.2
  contentHash : row.contentHash = CopyMint.contentHash primitives (evidenceDocument entry.1 entry.2)
  transactionHash : row.transactionHash = some transactionHash

/-- Evidence of some kind is stored with a payload of the same text. -/
def StoresText (db : Database) (kind : EvidenceKind) (payload : Json) : Prop :=
  ∃ row ∈ db.rawEvidence, row.kind = kind ∧ row.payload.dumps = payload.dumps

/-- Evidence of some kind is stored with a payload. -/
def StoresPayload (db : Database) (kind : EvidenceKind) (payload : Json) : Prop :=
  ∃ row ∈ db.rawEvidence, row.kind = kind ∧ row.payload = payload

variable {primitives} {messages : Set Bytes}

theorem StoresPayload.mono {before after : Database} {kind : EvidenceKind} {payload : Json}
    (kept : before.rawEvidence ⊆ after.rawEvidence) (stored : StoresPayload before kind payload) :
    StoresPayload after kind payload := by
  rcases stored with ⟨row, row_mem, facts⟩
  exact ⟨row, kept row_mem, facts⟩

/-- Without collisions, the hash of a document determines its text. -/
theorem contentHash_inj (collisionFree : Set.InjOn primitives.sha256 messages)
    {first second : Json} (first_hashed : Json.utf8 first.dumps ∈ messages)
    (second_hashed : Json.utf8 second.dumps ∈ messages)
    (same : contentHash primitives first = contentHash primitives second) :
    first.dumps = second.dumps :=
  Json.utf8_injective (collisionFree first_hashed second_hashed same)

namespace RawEvidence

variable {row : RawEvidence} {kind : EvidenceKind} {payload : Json}

/-- A stored row has the content hash of a document exactly if it has its kind and text. -/
theorem IsGenuine.contentHash_eq_iff (genuine : row.IsGenuine primitives messages)
    (collisionFree : Set.InjOn primitives.sha256 messages) (notLog : kind ≠ .log)
    (hashed : Json.utf8 (evidenceDocument kind payload).dumps ∈ messages) :
    row.contentHash = CopyMint.contentHash primitives (evidenceDocument kind payload) ↔
      row.kind = kind ∧ row.payload.dumps = payload.dumps := by
  constructor
  · intro same
    have texts := contentHash_inj collisionFree genuine.hashed hashed
      (genuine.contentHash.symm.trans same)
    simp only [document] at texts
    split_ifs at texts with isLog
    · have logged := genuine.payload
      rw [isLog] at logged
      rcases logged with ⟨log, payload_eq⟩
      exact absurd (payload_eq ▸ texts) (dumps_evidencePayload_ne log kind payload)
    · exact evidenceDocument_inj texts
  · rintro ⟨rfl, texts⟩
    rw [genuine.contentHash, document, if_neg notLog]
    simp only [CopyMint.contentHash, dumps_evidenceDocument, texts]

theorem Holds.document_eq {transactionHash : Bytes}
    (holds : row.Holds primitives transactionHash (kind, payload)) (notLog : kind ≠ .log) :
    row.document = evidenceDocument kind payload := by
  have kind_eq : row.kind = kind := holds.kind
  have payload_eq : row.payload = payload := holds.payload
  rw [document, kind_eq, payload_eq, if_neg notLog]

theorem Holds.isGenuine {transactionHash : Bytes}
    (holds : row.Holds primitives transactionHash (kind, payload)) (notLog : kind ≠ .log)
    (hashed : Json.utf8 (evidenceDocument kind payload).dumps ∈ messages)
    (built : IsPayload kind payload) : row.IsGenuine primitives messages where
  contentHash := by rw [holds.document_eq notLog, holds.contentHash]
  hashed := by rwa [holds.document_eq notLog]
  payload := by
    have kind_eq : row.kind = kind := holds.kind
    have payload_eq : row.payload = payload := holds.payload
    rwa [kind_eq, payload_eq]

theorem isGenuine_evidenceRow {log : EvmLog}
    (hashed : Json.utf8 (evidencePayload log).dumps ∈ messages) (providerAlias : String) (id : ℕ)
    (transactionHash : Bytes) :
    (evidenceRow primitives providerAlias id transactionHash log).IsGenuine primitives
      messages where
  contentHash := rfl
  hashed := hashed
  payload := ⟨log, rfl⟩

end RawEvidence

section Enrichment

variable {collectionId : ℕ} {collectionAddress : Text} {providerAlias : String} {rawHash : Bytes}
  {answers : TransactionAnswers} {db next : Database}

theorem TransactionAnswers.mem_evidence {entry : EvidenceKind × Json} :
    entry ∈ answers.evidence ↔
      entry = (.transaction, transactionPayload answers.transaction) ∨
        entry = (.receipt, receiptPayload answers.receipt) ∨
        ∃ trace, answers.trace = .ok trace ∧ entry = (.trace, trace) := by
  cases traced : answers.trace <;> simp [evidence, traceEvidence, traced]

theorem TransactionAnswers.kind_ne_log {entry : EvidenceKind × Json}
    (entry_mem : entry ∈ answers.evidence) : entry.1 ≠ .log := by
  rcases mem_evidence.mp entry_mem with rfl | rfl | ⟨trace, _, rfl⟩ <;> simp

theorem TransactionAnswers.isPayload {entry : EvidenceKind × Json}
    (entry_mem : entry ∈ answers.evidence) : IsPayload entry.1 entry.2 := by
  rcases mem_evidence.mp entry_mem with rfl | rfl | ⟨trace, _, rfl⟩
  · exact ⟨answers.transaction, rfl⟩
  · exact ⟨answers.receipt, rfl⟩
  · trivial

/-- The pieces of evidence of one enrichment are of different kinds. -/
theorem TransactionAnswers.evidence_pairwise (answers : TransactionAnswers) :
    answers.evidence.Pairwise fun first second => first.1 ≠ second.1 := by
  cases traced : answers.trace <;> simp [evidence, traceEvidence, traced]

theorem hexBytes_hex {bytes result : Bytes} {length : ℕ}
    (read : hexBytes (marker ++ hex bytes) length = .ok result) : result = bytes := by
  simp only [hexBytes, removePrefix_append, fromhex_hex] at read
  split_ifs at read
  exact (Except.ok.inj read).symm

theorem appendEvidence_eq_ok {kind : EvidenceKind} {blockNumber : ℕ} {payload : Json}
    (appended : appendEvidence primitives kind providerAlias blockNumber (marker ++ hex rawHash)
      payload db = .ok next) :
    ∃ row : RawEvidence, row.Holds primitives rawHash (kind, payload) ∧
      next.rawEvidence = insertOrIgnore RawEvidence.contentHash row db.rawEvidence ∧
      next.mintEvents = db.mintEvents := by
  rcases bind_eq_ok_iff.mp appended with ⟨raw, read, built⟩
  cases built
  cases hexBytes_hex read
  exact ⟨_, ⟨rfl, rfl, rfl, rfl⟩, rfl, rfl⟩

theorem appendTrace_eq_ok
    (appended : appendTrace primitives providerAlias (marker ++ hex rawHash) answers db =
      .ok next) :
    ∃ rows, List.Forall₂ (RawEvidence.Holds primitives rawHash) answers.traceEvidence rows ∧
      next.rawEvidence = insertAllOrIgnore RawEvidence.contentHash rows db.rawEvidence ∧
      next.mintEvents = db.mintEvents := by
  cases traced : answers.trace with
  | ok trace =>
      simp only [appendTrace, traced] at appended
      rcases appendEvidence_eq_ok appended with ⟨row, holds, rows_eq, mints_eq⟩
      simp only [TransactionAnswers.traceEvidence, traced]
      exact ⟨[row], .cons holds .nil, rows_eq, mints_eq⟩
  | error failure =>
      simp only [appendTrace, traced] at appended
      cases appended
      refine ⟨[], ?_, rfl, rfl⟩
      simp [TransactionAnswers.traceEvidence, traced]

/-- A row of a transaction with its identity taken over from the transaction. -/
def IdentifiedFrom (primitives : Primitives) (collectionId : ℕ) (collectionAddress : Text)
    (rawHash : Bytes) (answers : TransactionAnswers) (old row : MintEvent) : Prop :=
  old.collectionId = collectionId ∧ old.transactionHash = rawHash ∧
    ∃ enriched, enrichMint primitives (old.toMint collectionAddress (marker ++ hex rawHash))
      answers.transaction answers.receipt = .ok enriched ∧ row = old.withIdentity enriched

/-- An enrichment inserts its evidence and identifies some of the rows of the transaction. -/
theorem enrichTransaction_rows
    (enriched : enrichTransaction primitives collectionId collectionAddress providerAlias rawHash
      answers db = .ok next) :
    (∃ rows, List.Forall₂ (RawEvidence.Holds primitives rawHash) answers.evidence rows ∧
      next.rawEvidence = insertAllOrIgnore RawEvidence.contentHash rows db.rawEvidence) ∧
      ∀ row ∈ next.mintEvents, row ∈ db.mintEvents ∨ ∃ old ∈ db.mintEvents,
        IdentifiedFrom primitives collectionId collectionAddress rawHash answers old row := by
  simp only [enrichTransaction, bind_eq_ok_iff] at enriched
  rcases enriched with ⟨withTransaction, first, withReceipt, second, withTrace, third, mintEvents,
    mapped, built⟩
  cases built
  rcases appendEvidence_eq_ok first with ⟨transactionRow, transactionHolds, first_eq, first_mints⟩
  rcases appendEvidence_eq_ok second with ⟨receiptRow, receiptHolds, second_eq, second_mints⟩
  rcases appendTrace_eq_ok third with ⟨rows, traceHolds, third_eq, third_mints⟩
  refine ⟨⟨transactionRow :: receiptRow :: rows,
    .cons transactionHolds (.cons receiptHolds traceHolds), ?_⟩, ?_⟩
  · simp only [third_eq, second_eq, first_eq, insertAllOrIgnore_cons]
  · intro row row_mem
    rw [third_mints, second_mints, first_mints] at mapped
    rcases exists_left_of_forall₂ (mapM_eq_ok_iff.mp mapped) row_mem with ⟨old, old_mem, returned⟩
    split_ifs at returned with awaiting
    · simp only [MintEvent.awaits, Bool.and_eq_true, decide_eq_true_eq] at awaiting
      rcases bind_eq_ok_iff.mp returned with ⟨identity, succeeded, built⟩
      cases built
      exact Or.inr ⟨old, old_mem, awaiting.1.1, awaiting.1.2, identity, succeeded, rfl⟩
    · cases returned
      exact Or.inl old_mem

section Inserted

variable {rows : List RawEvidence}

/-- Rows for evidence of different kinds have content hashes of their own. -/
theorem contentHash_pairwise (collisionFree : Set.InjOn primitives.sha256 messages)
    {entries : List (EvidenceKind × Json)}
    (kinds : entries.Pairwise fun first second => first.1 ≠ second.1)
    (hashed : ∀ entry ∈ entries, Json.utf8 (evidenceDocument entry.1 entry.2).dumps ∈ messages)
    (holds : List.Forall₂ (RawEvidence.Holds primitives rawHash) entries rows) :
    rows.Pairwise fun first second => first.contentHash ≠ second.contentHash := by
  induction holds with
  | nil => simp
  | @cons entry row entries rows first later ih =>
      rcases List.pairwise_cons.mp kinds with ⟨apart, kinds⟩
      rcases List.forall_mem_cons.mp hashed with ⟨entry_hashed, hashed⟩
      refine List.pairwise_cons.mpr ⟨fun other other_mem same => ?_, ih kinds hashed⟩
      rcases exists_left_of_forall₂ later other_mem with ⟨second, second_mem, second_holds⟩
      rw [first.contentHash, second_holds.contentHash] at same
      have texts := contentHash_inj collisionFree entry_hashed (hashed second second_mem) same
      exact apart second second_mem (evidenceDocument_inj texts).1

theorem insertAllOrIgnore_isGenuine (hashed : ∀ entry ∈ answers.evidence,
      Json.utf8 (evidenceDocument entry.1 entry.2).dumps ∈ messages)
    (holds : List.Forall₂ (RawEvidence.Holds primitives rawHash) answers.evidence rows)
    (genuine : ∀ row ∈ db.rawEvidence, row.IsGenuine primitives messages) {row : RawEvidence}
    (row_mem : row ∈ insertAllOrIgnore RawEvidence.contentHash rows db.rawEvidence) :
    row.IsGenuine primitives messages := by
  rcases mem_or_mem_of_mem_insertAllOrIgnore row_mem with old | new
  · exact genuine row old
  · rcases exists_left_of_forall₂ holds new with ⟨entry, entry_mem, row_holds⟩
    exact row_holds.isGenuine (TransactionAnswers.kind_ne_log entry_mem) (hashed entry entry_mem)
      (TransactionAnswers.isPayload entry_mem)

/-- Whatever an enrichment finds stored already, its evidence is stored afterwards. -/
theorem insertAllOrIgnore_storesText (collisionFree : Set.InjOn primitives.sha256 messages)
    (hashed : ∀ entry ∈ answers.evidence,
      Json.utf8 (evidenceDocument entry.1 entry.2).dumps ∈ messages)
    (holds : List.Forall₂ (RawEvidence.Holds primitives rawHash) answers.evidence rows)
    (stored : next.rawEvidence = insertAllOrIgnore RawEvidence.contentHash rows db.rawEvidence)
    (genuine : ∀ row ∈ next.rawEvidence, row.IsGenuine primitives messages)
    {kind : EvidenceKind} {payload : Json} (entry_mem : (kind, payload) ∈ answers.evidence) :
    StoresText next kind payload := by
  rcases exists_right_of_forall₂ holds entry_mem with ⟨row, row_mem, row_holds⟩
  have inserted : ∃ existing ∈ insertAllOrIgnore RawEvidence.contentHash rows db.rawEvidence,
      existing.contentHash = row.contentHash := exists_mem_insertAllOrIgnore row_mem _
  rcases inserted with ⟨existing, existing_mem, same⟩
  rw [row_holds.contentHash] at same
  rw [← stored] at existing_mem
  have facts := ((genuine existing existing_mem).contentHash_eq_iff collisionFree
    (TransactionAnswers.kind_ne_log entry_mem) (hashed _ entry_mem)).mp same
  exact ⟨existing, existing_mem, facts⟩

end Inserted

theorem StoresText.transaction {transaction : EvmTransaction}
    (stored : StoresText db .transaction (transactionPayload transaction))
    (genuine : ∀ row ∈ db.rawEvidence, row.IsGenuine primitives messages) :
    StoresPayload db .transaction (transactionPayload transaction) := by
  rcases stored with ⟨row, row_mem, kind_eq, texts⟩
  have built := (genuine row row_mem).payload
  rw [kind_eq] at built
  rcases built with ⟨other, payload_eq⟩
  rw [payload_eq] at texts
  exact ⟨row, row_mem, kind_eq, payload_eq.trans (by rw [transactionPayload_injective texts])⟩

theorem StoresText.receipt {receipt : EvmReceipt}
    (stored : StoresText db .receipt (receiptPayload receipt))
    (genuine : ∀ row ∈ db.rawEvidence, row.IsGenuine primitives messages) :
    StoresPayload db .receipt (receiptPayload receipt) := by
  rcases stored with ⟨row, row_mem, kind_eq, texts⟩
  have built := (genuine row row_mem).payload
  rw [kind_eq] at built
  rcases built with ⟨other, payload_eq⟩
  rw [payload_eq] at texts
  exact ⟨row, row_mem, kind_eq, payload_eq.trans (by rw [receiptPayload_injective texts])⟩

end Enrichment

section Commit

variable {consumer : SqlAlchemyMintBatchConsumer} {batch : ScanBatch} {db next : Database}
  {log : EvmLog} {ofEvidence : RawEvidence → Prop} {ofMint : MintEvent → Prop}

theorem storeLog_preserves
    (fromLog : ∀ id transactionHash,
      ofEvidence (evidenceRow primitives consumer.providerAlias id transactionHash log))
    (unidentified : ∀ row, row.IsUnidentified → ofMint row)
    (stored : consumer.storeLog primitives db log = .ok next)
    (holds : (∀ row ∈ db.rawEvidence, ofEvidence row) ∧ ∀ row ∈ db.mintEvents, ofMint row) :
    (∀ row ∈ next.rawEvidence, ofEvidence row) ∧ ∀ row ∈ next.mintEvents, ofMint row := by
  simp only [SqlAlchemyMintBatchConsumer.storeLog, bind_eq_ok_iff] at stored
  rcases stored with ⟨transactionHash, _, stored⟩
  split at stored
  · cases stored
  rename_i created _
  rcases bind_eq_ok_iff.mp stored with ⟨mints, _, looped⟩
  refine foldlM_invariant
    (fun state =>
      (∀ row ∈ state.rawEvidence, ofEvidence row) ∧ ∀ row ∈ state.mintEvents, ofMint row)
    ?_ looped ⟨?_, holds.2⟩
  · intro before mint after _ before_holds stepped
    rcases SqlAlchemyMintBatchConsumer.storeMint_eq_ok stepped with
      ⟨row, _, _, row_unidentified, rfl⟩
    refine ⟨before_holds.1, fun candidate candidate_mem => ?_⟩
    rcases mem_insertOrIgnore.mp candidate_mem with old | ⟨rfl, _⟩
    · exact before_holds.2 candidate old
    · exact unidentified candidate row_unidentified
  · intro candidate candidate_mem
    rcases mem_insertOrIgnore.mp candidate_mem with old | ⟨rfl, _⟩
    · exact holds.1 candidate old
    · exact fromLog _ _

/-- A commit adds evidence of its logs and mints without an identity. -/
theorem commit_preserves
    (fromLogs : ∀ log ∈ batch.logs, ∀ id transactionHash,
      ofEvidence (evidenceRow primitives consumer.providerAlias id transactionHash log))
    (unidentified : ∀ row, row.IsUnidentified → ofMint row)
    (committed : consumer.commit primitives batch db = .ok next)
    (holds : (∀ row ∈ db.rawEvidence, ofEvidence row) ∧ ∀ row ∈ db.mintEvents, ofMint row) :
    (∀ row ∈ next.rawEvidence, ofEvidence row) ∧ ∀ row ∈ next.mintEvents, ofMint row := by
  simp only [SqlAlchemyMintBatchConsumer.commit, bind_eq_ok_iff] at committed
  rcases committed with ⟨stored, looped, _, _, built⟩
  cases built
  exact foldlM_invariant
    (fun state =>
      (∀ row ∈ state.rawEvidence, ofEvidence row) ∧ ∀ row ∈ state.mintEvents, ofMint row)
    (fun log_mem before_holds stepped =>
      storeLog_preserves (fromLogs _ log_mem) unidentified stepped before_holds)
    looped holds

end Commit

end CopyMint
