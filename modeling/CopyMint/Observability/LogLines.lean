import CopyMint.Library.JsonLines
import CopyMint.Observability.Redaction

/-!
# Log lines

A record is redacted, formatted as a document, and written with a line break behind it. Whatever
text it carries, it takes one line, and the lines tell what was logged: no record passes for
another one, or for two.
-/

namespace CopyMint

open Hexadecimal

/-- What `json.dumps` makes of a value that is neither text nor a container. -/
inductive Leaf where
  | int (value : ℤ)
  | real (literal : {literal : Text // Json.IsFloat literal})
  /-- Any other object, by `default=str`. -/
  | object (text : Text)

mutual

/-- The document of a value, in which tuples are arrays. -/
def Value.document : Value Leaf → Json
  | .scalar .none => .null
  | .scalar (.bool value) => .bool value
  | .scalar (.number (.int value)) => .int value
  | .scalar (.number (.real literal)) => .real literal.val
  | .scalar (.number (.object text)) => .str text
  | .text value => .str value
  | .list items => .arr (documents items)
  | .tuple items => .arr (documents items)
  | .mapping members => .obj (memberDocuments members)

/-- The documents of items. -/
def documents : List (Value Leaf) → List Json
  | [] => []
  | item :: items => item.document :: documents items

/-- The documents of members. -/
def memberDocuments : List (Text × Value Leaf) → List (Text × Json)
  | [] => []
  | (key, item) :: members => (key, item.document) :: memberDocuments members

end

/-- What the formatter reads of a record. -/
structure LogRecord where
  /-- The time of creation, in the notation of ISO 8601. -/
  created : Text
  levelname : Text
  name : Text
  msg : Value Leaf
  args : Value Leaf
  /-- The attributes that a call of the logger has added. -/
  extra : List (Text × Value Leaf)
  /-- The text of the traceback. -/
  exception : Option Text

/-- `_CONTEXT_FIELDS`. -/
def contextFields : List Text :=
  ["event".toList, "correlation_id".toList, "workspace_id".toList, "user_id".toList,
    "task_id".toList, "chain_id".toList]

variable (tables : CharacterTables) (getMessage : Value Leaf → Value Leaf → Option Text)

/-- `RedactingFilter.filter`, where arguments that are neither a tuple nor a mapping remain. -/
def RedactingFilter.filter (record : LogRecord) : LogRecord :=
  { record with
    msg := redact tables none record.msg
    args :=
      match record.args with
      | .mapping _ | .tuple _ => redact tables none record.args
      | other => other }

namespace JsonFormatter

/-- The fields of the context that a record has, redacted. -/
def context (record : LogRecord) : List (Text × Json) :=
  contextFields.filterMap fun field =>
    (record.extra.lookup field).map fun value =>
      (field, (redact tables (some field) value).document)

/-- What is formatted, unless the message cannot be put together. -/
def payload (record : LogRecord) : Option Json :=
  (getMessage record.msg record.args).map fun message =>
    .obj <|
      [("timestamp".toList, .str record.created), ("level".toList, .str record.levelname),
        ("logger".toList, .str record.name),
        ("message".toList, .str (redactText tables message))] ++
      context tables record ++
      record.exception.toList.map fun exception =>
        ("exception".toList, .str (redactText tables exception))

/-- `JsonFormatter.format`, where the message can be formed. -/
def format (record : LogRecord) : Option Text := (payload tables getMessage record).map Json.write

end JsonFormatter

/-- What one handler writes for records, one after the other. -/
def logStream (records : List LogRecord) : Option Text :=
  (records.mapM fun record =>
    JsonFormatter.format tables getMessage (RedactingFilter.filter tables record)).map lines

section Documents

mutual

theorem isValid_document : (value : Value Leaf) → Json.IsValid value.document
  | .scalar .none => .null
  | .scalar (.bool value) => .bool value
  | .scalar (.number (.int value)) => .int value
  | .scalar (.number (.real literal)) => .real literal.property
  | .scalar (.number (.object text)) => .str text
  | .text value => .str value
  | .list items => .arr (isValid_documents items)
  | .tuple items => .arr (isValid_documents items)
  | .mapping members => .obj (isValid_memberDocuments members)

theorem isValid_documents : (items : List (Value Leaf)) →
    ∀ item ∈ documents items, Json.IsValid item
  | [] => List.forall_mem_nil _
  | item :: items => List.forall_mem_cons.mpr ⟨isValid_document item, isValid_documents items⟩

theorem isValid_memberDocuments : (members : List (Text × Value Leaf)) →
    ∀ entry ∈ memberDocuments members, Json.IsValid entry.2
  | [] => List.forall_mem_nil _
  | (_, item) :: members =>
      List.forall_mem_cons.mpr ⟨isValid_document item, isValid_memberDocuments members⟩

end

variable {tables : CharacterTables} {getMessage : Value Leaf → Value Leaf → Option Text}

theorem isValid_context (record : LogRecord) :
    ∀ entry ∈ JsonFormatter.context tables record, Json.IsValid entry.2 := by
  intro entry entry_mem
  rcases List.mem_filterMap.mp entry_mem with ⟨field, _, found⟩
  rcases Option.map_eq_some_iff.mp found with ⟨value, _, rfl⟩
  exact isValid_document _

theorem isValid_payload {record : LogRecord} {document : Json}
    (formatted : JsonFormatter.payload tables getMessage record = some document) :
    Json.IsValid document := by
  rcases Option.map_eq_some_iff.mp formatted with ⟨message, _, rfl⟩
  refine .obj fun entry entry_mem => ?_
  rcases List.mem_append.mp entry_mem with front | exception
  · rcases List.mem_append.mp front with fixed | context
    · simp only [List.mem_cons, List.not_mem_nil, or_false] at fixed
      rcases fixed with rfl | rfl | rfl | rfl <;> exact .str _
    · exact isValid_context record entry context
  · rcases List.mem_map.mp exception with ⟨text, _, rfl⟩
    exact .str _

end Documents

section Streams

variable {tables : CharacterTables} {getMessage : Value Leaf → Value Leaf → Option Text}

/-- The document that is logged for a record. -/
def logged (tables : CharacterTables) (getMessage : Value Leaf → Value Leaf → Option Text)
    (record : LogRecord) : Option Json :=
  JsonFormatter.payload tables getMessage (RedactingFilter.filter tables record)

/-- A stream has the document of every record on a line of its own. -/
theorem exists_logged {records : List LogRecord} {stream : Text}
    (written : logStream tables getMessage records = some stream) :
    ∃ documents, records.mapM (logged tables getMessage) = some documents ∧
      (∀ document ∈ documents, Json.IsValid document) ∧
      stream = lines (documents.map Json.write) := by
  rcases Option.map_eq_some_iff.mp written with ⟨texts, formatted, rfl⟩
  suffices found : ∃ documents, records.mapM (logged tables getMessage) = some documents ∧
      (∀ document ∈ documents, Json.IsValid document) ∧ texts = documents.map Json.write by
    rcases found with ⟨documents, logs, valid, rfl⟩
    exact ⟨documents, logs, valid, rfl⟩
  clear written
  induction records generalizing texts with
  | nil =>
      cases formatted
      exact ⟨[], rfl, List.forall_mem_nil _, rfl⟩
  | cons record records ih =>
      rw [List.mapM_cons, Option.bind_eq_bind, Option.bind_eq_some_iff] at formatted
      rcases formatted with ⟨text, text_eq, rest⟩
      rcases Option.bind_eq_some_iff.mp rest with ⟨later, later_eq, same⟩
      cases same
      rcases Option.map_eq_some_iff.mp text_eq with ⟨document, payload_eq, rfl⟩
      rcases ih later later_eq with ⟨documents, logs, valid, rfl⟩
      have first : logged tables getMessage record = some document := payload_eq
      refine ⟨document :: documents, ?_,
        List.forall_mem_cons.mpr ⟨isValid_payload first, valid⟩, rfl⟩
      rw [List.mapM_cons, first, logs]
      rfl

/-- The text of a document is on one line. -/
theorem newline_notMem_write {documents : List Json}
    (valid : ∀ document ∈ documents, Json.IsValid document) :
    ∀ text ∈ documents.map Json.write, '\n' ∉ text := by
  intro text text_mem newline_mem
  rcases List.mem_map.mp text_mem with ⟨document, document_mem, rfl⟩
  have printable := Json.isPrintable_write document (valid document document_mem) '\n' newline_mem
  exact absurd printable (by decide)

/--
One record, one line: whatever text the records of a stream carry, there is a line of printable
ASCII for each of them, in their order, between the line breaks, and no other records have the same
stream unless the same is logged for them, one by one.
-/
theorem logStream_faithful {records : List LogRecord} {stream : Text}
    (written : logStream tables getMessage records = some stream) :
    (∃ documents, records.mapM (logged tables getMessage) = some documents ∧
      stream.splitOn '\n' = documents.map Json.write ++ [[]] ∧
      ∀ document ∈ documents, Json.IsPrintable document.write) ∧
    ∀ others, logStream tables getMessage others = some stream →
      others.mapM (logged tables getMessage) = records.mapM (logged tables getMessage) := by
  rcases exists_logged written with ⟨documents, logs, valid, rfl⟩
  refine ⟨⟨documents, logs, splitOn_lines (newline_notMem_write valid), ?_⟩, ?_⟩
  · exact fun document document_mem =>
      Json.isPrintable_write document (valid document document_mem)
  · intro others same
    rcases exists_logged same with ⟨otherDocuments, otherLogs, otherValid, same⟩
    have texts := lines_injective (newline_notMem_write valid)
      (newline_notMem_write otherValid) same
    rw [logs, otherLogs, Json.map_write_injective valid otherValid texts]

end Streams

section Samples

/-- A message that looks like two records. -/
def forgedRecord : LogRecord where
  created := "2026-01-01T00:00:00+00:00".toList
  levelname := "INFO".toList
  name := "test".toList
  msg := .text "denied\n\x7b\"level\":\"INFO\",\"message\":\"granted\"\x7d".toList
  args := .scalar .none
  extra := [("chain_id".toList, .scalar (.number (.int 1)))]
  exception := none

/-- The message without arguments. -/
def plainMessage : Value Leaf → Value Leaf → Option Text
  | .text message, .scalar .none => some message
  | _, _ => none

end Samples

/-- The forged record takes one line, and nothing follows it. -/
theorem forgedRecord_faithful :
    ∃ stream line, logStream asciiTables plainMessage [forgedRecord] = some stream ∧
      stream.splitOn '\n' = [line, []] := by
  have formatted : (logStream asciiTables plainMessage [forgedRecord]).isSome = true := rfl
  rcases Option.isSome_iff_exists.mp formatted with ⟨stream, written⟩
  rcases (logStream_faithful written).1 with ⟨documents, logs, split, _⟩
  have single : documents.length = 1 := by
    rcases documents with _ | ⟨document, _ | ⟨other, documents⟩⟩
    · cases logs
    · rfl
    · cases logs
  rcases List.length_eq_one_iff.mp single with ⟨document, rfl⟩
  exact ⟨stream, document.write, written, split⟩

end CopyMint
