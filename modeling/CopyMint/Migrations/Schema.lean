import CopyMint.Library.Dependencies
import CopyMint.Library.Hexadecimal

/-!
# The schema of the database

The objects that migrations create and drop, what each of them depends on, and what the rows
of a table have to be like for its constraints to hold. The type and the default of a column
play no role for that and are left out, and so are the clauses of a policy.
-/

namespace CopyMint

open Hexadecimal Relational

/-- The tables of the migrations. -/
inductive TableName where
  | platformUsers | accessRequests | workspaces | workspaceMemberships
  | notificationDestinations | workspaceStrategies | callbackChallenges | telegramUpdates
  | auditLogs | executionWallets | chains | chainCursors | collections | rawEvidence
  | collectionImplementations | mintEvents | scanCheckpoints | scanJobs | workspaceCollections
  deriving DecidableEq

section Rows

/-- Identifiers, times and other values that no constraint looks into are numbers or texts. -/
inductive SqlValue where
  | null
  | number (value : ℤ)
  | text (value : Text)
  | bytes (value : Bytes)
  deriving DecidableEq

/-- The value that a row has in each column. -/
abbrev TableRow := String → SqlValue

/-- The rows of every table. -/
abbrev Contents := TableName → List TableRow

/-- A term in a check. -/
inductive SqlTerm where
  | column (name : String)
  | number (value : ℤ)
  | length (term : SqlTerm)
  | octetLength (term : SqlTerm)
  | lower (term : SqlTerm)

/-- The value of a term in a row, null where a part of it is. -/
def SqlTerm.eval (row : TableRow) : SqlTerm → SqlValue
  | column name => row name
  | number value => .number value
  | length term =>
      match term.eval row with
      | .text value => .number value.length
      | _ => .null
  | octetLength term =>
      match term.eval row with
      | .bytes value => .number value.length
      | _ => .null
  | lower term =>
      match term.eval row with
      | .text value => .text (value.map Char.toLower)
      | value => value

/-- The condition of a check. -/
inductive CheckExpression where
  | isIn (column : String) (values : List String)
  | equal (left right : SqlTerm)
  | less (left right : SqlTerm)
  | atMost (left right : SqlTerm)
  | isNull (column : String)
  | both (left right : CheckExpression)
  | either (left right : CheckExpression)

namespace CheckExpression

/-- The value of an expression, or `none` where it is unknown because of a null. -/
def eval (row : TableRow) : CheckExpression → Option Bool
  | isIn column values =>
      match row column with
      | .null => none
      | .text value => some (values.any fun other => other.toList = value)
      | _ => some false
  | equal left right =>
      match left.eval row, right.eval row with
      | .null, _ | _, .null => none
      | left, right => some (left = right)
  | less left right =>
      match left.eval row, right.eval row with
      | .number left, .number right => some (left < right)
      | _, _ => none
  | atMost left right =>
      match left.eval row, right.eval row with
      | .number left, .number right => some (left ≤ right)
      | _, _ => none
  | isNull column => some (row column = .null)
  | both left right =>
      match left.eval row, right.eval row with
      | some false, _ | _, some false => some false
      | some true, some true => some true
      | _, _ => none
  | either left right =>
      match left.eval row, right.eval row with
      | some true, _ | _, some true => some true
      | some false, some false => some false
      | _, _ => none

/-- A check only fails where its expression is known to be false. -/
def passes (expression : CheckExpression) (row : TableRow) : Bool :=
  expression.eval row ≠ some false

/-- `BETWEEN`. -/
def between (column : String) (lowest highest : ℤ) : CheckExpression :=
  both (atMost (.number lowest) (.column column)) (atMost (.column column) (.number highest))

end CheckExpression

/-- No two rows have the same values in the columns, except for nulls. -/
def distinctIn (columns : List String) (rows : List TableRow) : Bool :=
  ((rows.map columns.map).filter fun values => !values.contains .null).Nodup

end Rows

section Objects

/-- A column and whether it may be null. -/
structure SqlColumn where
  name : String
  nullable : Bool

/-- A column with `NOT NULL`. -/
def SqlColumn.required (name : String) : SqlColumn := ⟨name, false⟩

/-- A column that may be null. -/
def SqlColumn.optional (name : String) : SqlColumn := ⟨name, true⟩

/-- A constraint of a table. -/
inductive TableConstraint where
  | primaryKey (columns : List String)
  | unique (columns : List String)
  | foreignKey (column : String) (referred : TableName) (referredColumn : String)
  | check (name : String) (expression : CheckExpression)

/-- What a schema consists of. -/
inductive SchemaObject where
  | table (name : TableName) (columns : List SqlColumn)
  | constraint (table : TableName) (constraint : TableConstraint)
  | index (table : TableName) (name : String) (columns : List String)
  | uniqueIndex (table : TableName) (name : String) (columns : List String)
      (condition : CheckExpression)
  | rowSecurity (table : TableName)
  | forcedRowSecurity (table : TableName)
  | policy (table : TableName) (name : String)
  | function (name : String)
  | trigger (table : TableName) (name : String) (function : String)

/-- The name of a constraint, less the name of its table, by the naming convention. -/
inductive ConstraintName where
  | primaryKey
  | unique (column : Option String)
  | foreignKey (column : String) (referred : TableName)
  | check (name : String)
  deriving DecidableEq

/-- What names an object in a statement. -/
inductive ObjectKey where
  | table (name : TableName)
  | constraint (table : TableName) (name : ConstraintName)
  | index (name : String)
  | rowSecurity (table : TableName)
  | forcedRowSecurity (table : TableName)
  | policy (table : TableName) (name : String)
  | function (name : String)
  | trigger (table : TableName) (name : String)
  deriving DecidableEq

/-- The name of a constraint, given or derived. -/
def TableConstraint.name : TableConstraint → ConstraintName
  | primaryKey _ => .primaryKey
  | unique columns => .unique columns.head?
  | foreignKey column referred _ => .foreignKey column referred
  | check name _ => .check name

namespace SchemaObject

/-- The name of an object. -/
def key : SchemaObject → ObjectKey
  | table name _ => .table name
  | constraint parent body => .constraint parent body.name
  | index _ name _ | uniqueIndex _ name _ _ => .index name
  | rowSecurity parent => .rowSecurity parent
  | forcedRowSecurity parent => .forcedRowSecurity parent
  | policy parent name => .policy parent name
  | function name => .function name
  | trigger parent name _ => .trigger parent name

/-- The table that an object is a part of. -/
def partOf : SchemaObject → Option TableName
  | table _ _ | function _ => none
  | constraint parent _ | index parent _ _ | uniqueIndex parent _ _ _ | rowSecurity parent
  | forcedRowSecurity parent | policy parent _ | trigger parent _ _ => some parent

/-- The table whose rows an object is about. -/
def ownTable : SchemaObject → Option TableName
  | table name _ => some name
  | object => object.partOf

/-- The objects with which an object goes. -/
def owners (object : SchemaObject) : List ObjectKey := object.partOf.toList.map .table

/-- A foreign key uses the table that it refers to, and a trigger its function. -/
def uses : SchemaObject → List ObjectKey
  | constraint _ (.foreignKey _ referred _) => [.table referred]
  | trigger _ _ executed => [.function executed]
  | _ => []

theorem owners_eq_nil_of_key {object : SchemaObject} {table : TableName}
    (key : object.key = .table table) : object.owners = [] := by
  cases object with
  | table | function => rfl
  | constraint | index | uniqueIndex | rowSecurity | forcedRowSecurity | policy | trigger =>
      cases key

end SchemaObject

/-- The parts of a table are dropped with it, and nothing is part of a part. -/
def schemaDependencies : Dependencies SchemaObject ObjectKey where
  key := SchemaObject.key
  owners := SchemaObject.owners
  uses := SchemaObject.uses
  owners_trans := by
    intro object owner owner_mem
    rcases List.mem_map.mp owner_mem with ⟨table, _, same⟩
    rw [SchemaObject.owners_eq_nil_of_key same.symm]
    exact List.nil_subset _

end Objects

section Constraints

/-- A constraint holds of the rows of its table, and of those that it refers to. -/
def TableConstraint.holds (rows : Contents) (table : TableName) : TableConstraint → Bool
  | primaryKey columns =>
      distinctIn columns (rows table) &&
        (rows table).all fun row => columns.all fun column => row column ≠ .null
  | unique columns => distinctIn columns (rows table)
  | foreignKey column referred referredColumn =>
      (rows table).all fun row => row column = .null ||
        (rows referred).any fun other => other referredColumn = row column
  | check _ expression => (rows table).all expression.passes

/-- What an object demands of the rows. -/
def SchemaObject.holds (rows : Contents) : SchemaObject → Bool
  | table name columns =>
      (rows name).all fun row =>
        columns.all fun column => column.nullable || row column.name ≠ .null
  | constraint parent body => body.holds rows parent
  | uniqueIndex parent _ columns condition =>
      distinctIn columns ((rows parent).filter fun row => condition.eval row = some true)
  | index _ _ _ | rowSecurity _ | forcedRowSecurity _ | policy _ _ | function _
  | trigger _ _ _ => true

/-- Rows that every object of a schema admits, in the tables that there are. -/
structure IsContent (catalog : List SchemaObject) (rows : Contents) : Prop where
  holds : ∀ object ∈ catalog, object.holds rows = true
  absent : ∀ table, ObjectKey.table table ∉ catalog.map SchemaObject.key → rows table = []

end Constraints

end CopyMint
