import CopyMint.Migrations.Schema

/-!
# The operations of a migration

What a migration does to the schema and to the rows, one operation after another and in one
transaction, so that a refused operation refuses the whole. A new constraint is validated
against the rows that there are. Whatever is done, the schema stays well formed and its
constraints hold.
-/

namespace CopyMint

open Hexadecimal Relational

/-- A schema and the rows of its tables. -/
structure SchemaState where
  catalog : List SchemaObject
  rows : Contents

/-- One operation of a migration. -/
inductive MigrationOperation where
  | create (objects : List SchemaObject)
  | drop (key : ObjectKey)
  | dropIfExists (key : ObjectKey)
  | insert (table : TableName) (row : TableRow)

/-- `op.create_table`; the constraints belong to the same statement. -/
def createTable (table : TableName) (columns : List SqlColumn)
    (constraints : List TableConstraint) : MigrationOperation :=
  .create (.table table columns :: constraints.map (.constraint table))

/-- `op.drop_table`. -/
def dropTable (table : TableName) : MigrationOperation := .drop (.table table)

/-- `op.create_index` of an index that is not unique. -/
def createIndex (name : String) (table : TableName) (columns : List String) : MigrationOperation :=
  .create [.index table name columns]

/-- `op.drop_index`. -/
def dropIndex (name : String) : MigrationOperation := .drop (.index name)

/-- `op.create_check_constraint`. -/
def createCheckConstraint (name : String) (table : TableName) (expression : CheckExpression) :
    MigrationOperation :=
  .create [.constraint table (.check name expression)]

/-- `op.drop_constraint` of a check. -/
def dropConstraint (name : String) (table : TableName) : MigrationOperation :=
  .drop (.constraint table (.check name))

/-- `ENABLE` and `FORCE ROW LEVEL SECURITY`. -/
def enableRowSecurity (table : TableName) : List MigrationOperation :=
  [.create [.rowSecurity table], .create [.forcedRowSecurity table]]

/-- `CREATE POLICY`. -/
def createPolicy (name : String) (table : TableName) : MigrationOperation :=
  .create [.policy table name]

/-- `DROP POLICY IF EXISTS`. -/
def dropPolicyIfExists (name : String) (table : TableName) : MigrationOperation :=
  .dropIfExists (.policy table name)

/-- The rows are gone with their table. -/
def Contents.erase (rows : Contents) (key : ObjectKey) : Contents := fun table =>
  if key = .table table then [] else rows table

/-- A row more in a table. -/
def Contents.insert (rows : Contents) (table : TableName) (row : TableRow) : Contents :=
  Function.update rows table (rows table ++ [row])

namespace MigrationOperation

/-- What an operation does to the schema, unless an object is missing, present or in use. -/
def alter : MigrationOperation → List SchemaObject → Option (List SchemaObject)
  | create objects, catalog => schemaDependencies.createAll objects catalog
  | drop key, catalog => schemaDependencies.drop key catalog
  | dropIfExists key, catalog =>
      if key ∈ catalog.map SchemaObject.key then schemaDependencies.drop key catalog
      else some catalog
  | insert _ _, catalog => some catalog

/-- The rows admit the operation. -/
def Admits (state : SchemaState) : MigrationOperation → Prop
  | create objects => ∀ object ∈ objects, object.holds state.rows = true
  | insert table row => .table table ∈ state.catalog.map SchemaObject.key ∧
      ∀ object ∈ state.catalog, object.ownTable = some table →
        object.holds (state.rows.insert table row) = true
  | drop _ | dropIfExists _ => True

/-- What an operation does to the rows. -/
def rowsAfter (rows : Contents) : MigrationOperation → Contents
  | create _ => rows
  | drop key | dropIfExists key => rows.erase key
  | insert table row => rows.insert table row

instance (state : SchemaState) : ∀ operation : MigrationOperation,
    Decidable (operation.Admits state)
  | create objects =>
      inferInstanceAs (Decidable (∀ object ∈ objects, object.holds state.rows = true))
  | insert table row =>
      inferInstanceAs (Decidable (ObjectKey.table table ∈ state.catalog.map SchemaObject.key ∧
        ∀ object ∈ state.catalog, object.ownTable = some table →
          object.holds (state.rows.insert table row) = true))
  | drop _ | dropIfExists _ => .isTrue trivial

/-- One operation, refused where the rows or the schema do not admit it. -/
def run (operation : MigrationOperation) (state : SchemaState) : Option SchemaState :=
  if operation.Admits state then
    (operation.alter state.catalog).map fun catalog => ⟨catalog, operation.rowsAfter state.rows⟩
  else none

end MigrationOperation

/-- What operations do to the schema, one after the other. -/
def alterAll : List MigrationOperation → List SchemaObject → Option (List SchemaObject)
  | [], catalog => some catalog
  | operation :: operations, catalog => (operation.alter catalog).bind (alterAll operations)

/-- Run the operations of a migration in a transaction. -/
def runAll : List MigrationOperation → SchemaState → Option SchemaState
  | [], state => some state
  | operation :: operations, state => (operation.run state).bind (runAll operations)

section Invariants

variable {catalog after : List SchemaObject} {rows : Contents} {operation : MigrationOperation}

/-- An object holds of other rows if its own table has the same and no other table has fewer. -/
theorem SchemaObject.holds_of_agree {object : SchemaObject} {before later : Contents}
    (holds : object.holds before = true)
    (own : ∀ table, object.ownTable = some table → later table = before table)
    (referred : ∀ table, .table table ∈ object.uses → before table ⊆ later table) :
    object.holds later = true := by
  cases object with
  | table name columns =>
      rw [SchemaObject.holds, own name rfl]
      exact holds
  | uniqueIndex parent name columns condition =>
      rw [SchemaObject.holds, own parent rfl]
      exact holds
  | constraint parent body =>
      cases body with
      | primaryKey | unique | check =>
          rw [SchemaObject.holds, TableConstraint.holds, own parent rfl]
          exact holds
      | foreignKey column target targetColumn =>
          rw [SchemaObject.holds, TableConstraint.holds, own parent rfl, List.all_eq_true]
          intro row row_mem
          rcases Bool.or_eq_true_iff.mp (List.all_eq_true.mp holds row row_mem) with null | found
          · exact Bool.or_eq_true_iff.mpr (.inl null)
          · rcases List.any_eq_true.mp found with ⟨other, other_mem, same⟩
            exact Bool.or_eq_true_iff.mpr (.inr (List.any_eq_true.mpr
              ⟨other, referred target (List.mem_singleton_self _) other_mem, same⟩))
  | index | rowSecurity | forcedRowSecurity | policy | function | trigger => rfl

theorem ownTable_key {object : SchemaObject} {table : TableName}
    (own : object.ownTable = some table) :
    object.key = .table table ∨ .table table ∈ object.owners := by
  cases object with
  | table name columns =>
      cases own
      exact .inl rfl
  | function => cases own
  | constraint | index | uniqueIndex | rowSecurity | forcedRowSecurity | policy | trigger =>
      right
      exact List.mem_map_of_mem (Option.mem_toList.mpr own)

/-- A drop leaves the rows alone that what is kept is about. -/
theorem IsContent.drop (content : IsContent catalog rows) {key : ObjectKey}
    (wellFormed : schemaDependencies.WellFormed catalog)
    (dropped : schemaDependencies.drop key catalog = some after) :
    IsContent after (rows.erase key) := by
  rcases Dependencies.drop_eq_some_iff.mp dropped with ⟨⟨_, unblocked⟩, rfl⟩
  constructor
  · intro object kept
    rcases List.mem_filter.mp kept with ⟨object_mem, stays⟩
    have remains : ¬schemaDependencies.isDropped key object = true := by
      intro goes
      rw [goes] at stays
      cases stays
    apply SchemaObject.holds_of_agree (content.holds object object_mem)
    · intro table own
      refine if_neg ?_
      rintro rfl
      apply remains
      rcases ownTable_key own with same | owned
      · exact Bool.or_eq_true_iff.mpr (.inl (decide_eq_true same))
      · exact Bool.or_eq_true_iff.mpr (.inr (List.contains_iff_mem.mpr owned))
    · intro table used
      rw [Contents.erase, if_neg]
      · exact List.Subset.refl _
      · rintro rfl
        rcases List.mem_map.mp (wellFormed.closed object object_mem _
          (List.mem_append_right _ used)) with ⟨target, target_mem, same⟩
        have blocking : schemaDependencies.isBlocking catalog (.table table) object = true := by
          refine List.any_eq_true.mpr ⟨target, target_mem, Bool.and_eq_true_iff.mpr ⟨?_, ?_⟩⟩
          · exact Bool.or_eq_true_iff.mpr (.inl (decide_eq_true same))
          · rw [same]
            exact List.contains_iff_mem.mpr used
        cases blocking.symm.trans (unblocked object kept)
  · intro table absent
    by_cases erased : key = .table table
    · exact if_pos erased
    · refine (if_neg erased).trans (content.absent table ?_)
      intro present
      rcases List.mem_map.mp present with ⟨object, object_mem, same⟩
      refine absent (List.mem_map.mpr ⟨object, List.mem_filter.mpr ⟨object_mem, ?_⟩, same⟩)
      have noOwners : schemaDependencies.owners object = [] :=
        SchemaObject.owners_eq_nil_of_key same
      have other : schemaDependencies.key object ≠ key := fun impossible =>
        erased (impossible.symm.trans same)
      rw [Dependencies.isDropped, noOwners, decide_eq_false other]
      rfl

theorem IsContent.create (content : IsContent catalog rows) {objects : List SchemaObject}
    (created : schemaDependencies.createAll objects catalog = some after)
    (holds : ∀ object ∈ objects, object.holds rows = true) : IsContent after rows := by
  rw [Dependencies.createAll_eq_append created]
  constructor
  · intro object object_mem
    rcases List.mem_append.mp object_mem with old | new
    · exact content.holds object old
    · exact holds object new
  · intro table absent
    apply content.absent table
    rw [List.map_append] at absent
    exact fun present => absent (List.mem_append_left _ present)

theorem IsContent.insert (content : IsContent catalog rows) {table : TableName} {row : TableRow}
    (found : .table table ∈ catalog.map SchemaObject.key)
    (holds : ∀ object ∈ catalog, object.ownTable = some table →
      object.holds (rows.insert table row) = true) :
    IsContent catalog (rows.insert table row) := by
  have other : ∀ {name}, name ≠ table → rows.insert table row name = rows name :=
    fun different => Function.update_of_ne different _ _
  constructor
  · intro object object_mem
    by_cases own : object.ownTable = some table
    · exact holds object object_mem own
    · apply SchemaObject.holds_of_agree (content.holds object object_mem)
      · intro name same
        apply other
        rintro rfl
        exact own same
      · intro name _
        by_cases same : name = table
        · subst same
          rw [Contents.insert, Function.update_self]
          exact List.subset_append_left _ _
        · rw [other same]
          exact List.Subset.refl _
  · intro name absent
    have different : name ≠ table := by
      rintro rfl
      exact absent found
    exact (other different).trans (content.absent name absent)

/-- An operation keeps the schema well formed. -/
theorem MigrationOperation.wellFormed_alter (wellFormed : schemaDependencies.WellFormed catalog)
    (altered : operation.alter catalog = some after) : schemaDependencies.WellFormed after := by
  cases operation with
  | create objects => exact wellFormed.createAll altered
  | drop key => exact wellFormed.drop altered
  | dropIfExists key =>
      rw [alter] at altered
      split_ifs at altered
      · exact wellFormed.drop altered
      · cases altered
        exact wellFormed
  | insert table row =>
      cases altered
      exact wellFormed

/-- An operation keeps the rows admitted. -/
theorem MigrationOperation.isContent_run {state result : SchemaState}
    (wellFormed : schemaDependencies.WellFormed state.catalog)
    (content : IsContent state.catalog state.rows) (ran : operation.run state = some result) :
    operation.alter state.catalog = some result.catalog ∧ IsContent result.catalog result.rows := by
  rw [run, Option.ite_none_right_eq_some] at ran
  rcases ran with ⟨admits, ran⟩
  rcases Option.map_eq_some_iff.mp ran with ⟨catalog, altered, rfl⟩
  refine ⟨altered, ?_⟩
  cases operation with
  | create objects => exact content.create altered admits
  | drop key => exact content.drop wellFormed altered
  | dropIfExists key =>
      rw [alter] at altered
      split_ifs at altered with present
      · exact content.drop wellFormed altered
      · cases altered
        have unchanged : state.rows.erase key = state.rows := by
          funext table
          by_cases same : key = .table table
          · exact (if_pos same).trans (content.absent table (same ▸ present)).symm
          · exact if_neg same
        rw [rowsAfter, unchanged]
        exact content
  | insert table row =>
      cases altered
      exact content.insert admits.1 admits.2

end Invariants

section Runs

variable {base added catalog after : List SchemaObject} {operation : MigrationOperation}
  {operations : List MigrationOperation} {state result : SchemaState}

namespace MigrationOperation

/-- What an operation drops. -/
def dropKey : MigrationOperation → Option ObjectKey
  | drop key | dropIfExists key => some key
  | create _ | insert _ _ => none

/-- What an operation creates. -/
def created : MigrationOperation → List SchemaObject
  | create objects => objects
  | drop _ | dropIfExists _ | insert _ _ => []

/-- Dropping what is new is the same with and without the schema below it. -/
theorem alter_append {key : ObjectKey} (isDrop : operation.dropKey = some key)
    (wellFormed : schemaDependencies.WellFormed base)
    (new : ∀ object ∈ added, object.key ∉ base.map SchemaObject.key)
    (foreign : key ∉ base.map SchemaObject.key) :
    operation.alter (base ++ added) = (operation.alter added).map (base ++ ·) := by
  have dropped := wellFormed.drop_append new foreign
  cases operation with
  | create | insert => cases isDrop
  | drop =>
      cases isDrop
      exact dropped
  | dropIfExists =>
      cases isDrop
      simp only [alter, List.map_append, List.mem_append, foreign, false_or, dropped]
      split_ifs <;> rfl

theorem subset_of_drop {key : ObjectKey} (isDrop : operation.dropKey = some key)
    (altered : operation.alter catalog = some after) : after ⊆ catalog := by
  have subset : schemaDependencies.drop key catalog = some after → after ⊆ catalog := by
    intro dropped
    rw [← (Dependencies.drop_eq_some_iff.mp dropped).2]
    exact List.filter_sublist.subset
  cases operation with
  | create | insert => cases isDrop
  | drop =>
      cases isDrop
      exact subset altered
  | dropIfExists =>
      cases isDrop
      rw [alter] at altered
      split_ifs at altered
      · exact subset altered
      · cases altered
        exact List.Subset.refl _

theorem run_of_drop {key : ObjectKey} (isDrop : operation.dropKey = some key) :
    operation.run state =
      (operation.alter state.catalog).map fun catalog => ⟨catalog, state.rows.erase key⟩ := by
  cases operation with
  | create | insert => cases isDrop
  | drop | dropIfExists =>
      cases isDrop
      exact if_pos trivial

end MigrationOperation

/-- The operations drop objects that a schema does not have. -/
def DropsElsewhere (base : List SchemaObject) (operations : List MigrationOperation) : Prop :=
  ∀ operation ∈ operations, ∃ key, operation.dropKey = some key ∧
    key ∉ base.map SchemaObject.key

theorem dropsElsewhere_of_all (all : (operations.all fun operation =>
    operation.dropKey.any fun key => key ∉ base.map SchemaObject.key) = true) :
    DropsElsewhere base operations := by
  intro operation operation_mem
  rcases (Option.any_eq_true _ _).mp (List.all_eq_true.mp all operation operation_mem) with
    ⟨key, isDrop, foreign⟩
  exact ⟨key, isDrop, of_decide_eq_true foreign⟩

theorem alterAll_append (wellFormed : schemaDependencies.WellFormed base)
    (new : ∀ object ∈ added, object.key ∉ base.map SchemaObject.key)
    (drops : DropsElsewhere base operations) :
    alterAll operations (base ++ added) = (alterAll operations added).map (base ++ ·) := by
  induction operations generalizing added with
  | nil => rfl
  | cons operation operations ih =>
      rcases drops operation List.mem_cons_self with ⟨key, isDrop, foreign⟩
      rw [alterAll, alterAll, operation.alter_append isDrop wellFormed new foreign]
      cases altered : operation.alter added with
      | none => rfl
      | some kept =>
          apply ih
          · intro object object_mem
            exact new object (operation.subset_of_drop isDrop altered object_mem)
          · exact fun other other_mem => drops other (List.mem_cons_of_mem _ other_mem)

/-- What is run is refused exactly if the schema does not allow it, where objects are dropped. -/
theorem map_catalog_runAll (drops : DropsElsewhere base operations) :
    (runAll operations state).map SchemaState.catalog = alterAll operations state.catalog := by
  induction operations generalizing state with
  | nil => rfl
  | cons operation operations ih =>
      rcases drops operation List.mem_cons_self with ⟨key, isDrop, _⟩
      rw [runAll, alterAll, operation.run_of_drop isDrop]
      cases operation.alter state.catalog with
      | none => rfl
      | some kept => exact ih fun other other_mem => drops other (List.mem_cons_of_mem _ other_mem)

/-- Dropping exactly what is on top of a schema succeeds and leaves the schema. -/
theorem exists_runAll_of_gone {rows : Contents} (wellFormed : schemaDependencies.WellFormed base)
    (whole : schemaDependencies.WellFormed (base ++ added))
    (drops : DropsElsewhere base operations)
    (gone : (alterAll operations added).any List.isEmpty = true) :
    ∃ restored, runAll operations ⟨base ++ added, rows⟩ = some restored ∧
      restored.catalog = base := by
  rcases (Option.any_eq_true _ _).mp gone with ⟨kept, altered, empty⟩
  have ran : (runAll operations ⟨base ++ added, rows⟩).map SchemaState.catalog = _ :=
    map_catalog_runAll drops
  rw [alterAll_append wellFormed whole.new_of_append drops, altered,
    List.isEmpty_iff.mp empty] at ran
  rcases Option.map_eq_some_iff.mp ran with ⟨restored, ran, catalog⟩
  exact ⟨restored, ran, catalog.trans (List.append_nil base)⟩

/-- The rows of a table of the schema remain where other objects are dropped. -/
theorem rows_of_runAll (drops : DropsElsewhere base operations) {table : TableName}
    (table_mem : .table table ∈ base.map SchemaObject.key)
    (ran : runAll operations state = some result) : result.rows table = state.rows table := by
  induction operations generalizing state with
  | nil =>
      cases ran
      rfl
  | cons operation operations ih =>
      rcases drops operation List.mem_cons_self with ⟨key, isDrop, foreign⟩
      rw [runAll, operation.run_of_drop isDrop] at ran
      rcases Option.bind_eq_some_iff.mp ran with ⟨middle, first, rest⟩
      rcases Option.map_eq_some_iff.mp first with ⟨kept, _, rfl⟩
      rw [ih (fun other other_mem => drops other (List.mem_cons_of_mem _ other_mem)) rest]
      refine if_neg ?_
      rintro rfl
      exact foreign table_mem

theorem runAll_append (first second : List MigrationOperation) (state : SchemaState) :
    runAll (first ++ second) state = (runAll first state).bind (runAll second) := by
  induction first generalizing state with
  | nil => rfl
  | cons operation first ih =>
      rw [List.cons_append, runAll, runAll, Option.bind_assoc]
      exact Option.bind_congr fun middle _ => ih middle

/-- Operations that drop nothing put what they create on top of the schema. -/
theorem eq_append_of_alterAll (dropsNone : ∀ operation ∈ operations, operation.dropKey = none)
    (altered : alterAll operations catalog = some after) :
    after = catalog ++ operations.flatMap MigrationOperation.created := by
  induction operations generalizing catalog with
  | nil =>
      cases altered
      exact (List.append_nil after).symm
  | cons operation operations ih =>
      rcases Option.bind_eq_some_iff.mp altered with ⟨middle, first, rest⟩
      rw [ih (fun other other_mem => dropsNone other (List.mem_cons_of_mem _ other_mem)) rest,
        List.flatMap_cons, ← List.append_assoc]
      have dropsNone := dropsNone operation List.mem_cons_self
      cases operation with
      | create objects => rw [Dependencies.createAll_eq_append first, MigrationOperation.created]
      | insert table row =>
          cases first
          rw [MigrationOperation.created, List.append_nil]
      | drop | dropIfExists => cases dropsNone

theorem alterAll_eq_append (dropsNone : ∀ operation ∈ operations, operation.dropKey = none)
    (accepted : (alterAll operations catalog).isSome = true) :
    alterAll operations catalog =
      some (catalog ++ operations.flatMap MigrationOperation.created) := by
  rcases Option.isSome_iff_exists.mp accepted with ⟨after, altered⟩
  rw [altered, eq_append_of_alterAll dropsNone altered]

theorem wellFormed_alterAll (wellFormed : schemaDependencies.WellFormed catalog)
    (altered : alterAll operations catalog = some after) : schemaDependencies.WellFormed after := by
  induction operations generalizing catalog with
  | nil =>
      cases altered
      exact wellFormed
  | cons operation operations ih =>
      rcases Option.bind_eq_some_iff.mp altered with ⟨middle, first, rest⟩
      exact ih (operation.wellFormed_alter wellFormed first) rest

theorem isContent_runAll (wellFormed : schemaDependencies.WellFormed state.catalog)
    (content : IsContent state.catalog state.rows) (ran : runAll operations state = some result) :
    alterAll operations state.catalog = some result.catalog ∧
      IsContent result.catalog result.rows := by
  induction operations generalizing state with
  | nil =>
      cases ran
      exact ⟨rfl, content⟩
  | cons operation operations ih =>
      rcases Option.bind_eq_some_iff.mp ran with ⟨middle, first, rest⟩
      rcases operation.isContent_run wellFormed content first with ⟨altered, content⟩
      rcases ih (operation.wellFormed_alter wellFormed altered) content rest with ⟨later, content⟩
      exact ⟨Option.bind_eq_some_iff.mpr ⟨_, altered, later⟩, content⟩

end Runs

end CopyMint
