import DataCopilot.Library.Text
import DataCopilot.Library.Dict
import DataCopilot.Sql.Policy

/-! The catalog of the business database, the policy made from it, and the tables that a
model reports as used. -/
namespace DataCopilot.Sql

structure ColumnMetadata where
  name : String
  ordinalPosition : Int
  dataType : String
  nullable : Bool
  comment : Option String := none
deriving DecidableEq, Repr

structure PrimaryKeyMetadata where
  name : String
  columns : List String
deriving DecidableEq, Repr

structure ForeignKeyMetadata where
  name : String
  columns : List String
  referencedSchema : String
  referencedTable : String
  referencedColumns : List String
deriving DecidableEq, Repr

structure TableMetadata where
  name : String
  comment : Option String := none
  columns : List ColumnMetadata
  primaryKey : Option PrimaryKeyMetadata := none
  foreignKeys : List ForeignKeyMetadata := []
deriving DecidableEq, Repr

structure SchemaSnapshot where
  formatVersion : String := "1.0"
  sourceId : String
  schemaName : String
  schemaVersion : String
  datasetVersion : String
  tables : List TableMetadata
deriving DecidableEq, Repr

/-- `str.isalnum` after the underscores have been replaced by letters. -/
def simpleIdentifier (isalnum : Char → Bool) (name : String) : Bool :=
  name ≠ "" && name.toList.all fun c => c == '_' || isalnum c

/-- `None` is the validation error. -/
def QueryPolicy.fromSnapshot (isalnum : Char → Bool) (s : SchemaSnapshot) (maxTotalCost : ℚ)
    (maxPlanRows : Nat) : Option QueryPolicy :=
  let columns := s.tables.map fun t => (t.name, (t.columns.map ColumnMetadata.name).toFinset)
  let names := s.tables.map TableMetadata.name ++
    s.tables.flatMap fun t => t.columns.map ColumnMetadata.name
  if h : lowerIdentifier s.schemaName = true ∧ s.tables ≠ [] ∧ 0 < maxTotalCost ∧ 1 ≤ maxPlanRows then
    if names.all (simpleIdentifier isalnum) then
      some {
        allowedSchema := s.schemaName
        allowedTables := (s.tables.map TableMetadata.name).toFinset
        allowedColumns := Dict.entries columns
        maxTotalCost := maxTotalCost
        maxPlanRows := maxPlanRows
        schema_ok := h.1
        tables_ok := (List.toFinset_nonempty_iff _).mpr (by simpa using h.2.1)
        cost_ok := h.2.2.1
        planRows_ok := h.2.2.2 }
    else none
  else none

/-- `policy.allowed_columns.get(table, frozenset())`. -/
def QueryPolicy.columnsOf (p : QueryPolicy) (table : String) : Finset String :=
  (p.allowedColumns.lookup table).getD ∅

/-- `None` is the SchemaSelectionError. -/
def normalizeReportedTable (allowedSchema value : String) : Option String :=
  match Text.splitOn (· == '.') value with
  | [table] => if table = "" then none else some table
  | [schema, table] => if schema = allowedSchema ∧ table ≠ "" then some table else none
  | _ => none

def normalizeReportedTables (allowedSchema : String) (tables : List String) :
    Option (List String) := do
  let normalized ← tables.mapM (normalizeReportedTable allowedSchema)
  if normalized.Nodup then some normalized else none

end DataCopilot.Sql
