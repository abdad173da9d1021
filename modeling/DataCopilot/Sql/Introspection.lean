import DataCopilot.Library.Canonical
import DataCopilot.Library.Grouping
import DataCopilot.Sql.Metadata

/-! The snapshot of a schema, made from the rows of the catalog queries, and the fingerprint
of its tables. -/
namespace DataCopilot.Sql

structure ColumnRow where
  tableName : String
  tableComment : Option String
  columnName : String
  ordinalPosition : Int
  dataType : String
  nullable : Bool
  columnComment : Option String

structure PrimaryKeyRow where
  tableName : String
  constraintName : String
  columns : List String

structure ForeignKeyRow where
  tableName : String
  constraintName : String
  columns : List String
  referencedSchema : String
  referencedTable : String
  referencedColumns : List String

/-- What the three catalog queries have fetched. -/
structure CatalogRows where
  columnRows : List ColumnRow
  primaryKeyRows : List PrimaryKeyRow
  foreignKeyRows : List ForeignKeyRow

def ColumnRow.metadata (row : ColumnRow) : ColumnMetadata where
  name := row.columnName
  ordinalPosition := row.ordinalPosition
  dataType := row.dataType
  nullable := row.nullable
  comment := row.columnComment

def PrimaryKeyRow.metadata (row : PrimaryKeyRow) : PrimaryKeyMetadata where
  name := row.constraintName
  columns := row.columns

def ForeignKeyRow.metadata (row : ForeignKeyRow) : ForeignKeyMetadata where
  name := row.constraintName
  columns := row.columns
  referencedSchema := row.referencedSchema
  referencedTable := row.referencedTable
  referencedColumns := row.referencedColumns

/-! `model_dump(mode="json")`. -/

def optional (s : Option String) : Json := (s.map Json.string).getD .null

def texts (columns : List String) : Json := .array (columns.map Json.string)

def ColumnMetadata.modelDump (c : ColumnMetadata) : Json := .object [
  ("name", .string c.name),
  ("ordinal_position", .number (toString c.ordinalPosition)),
  ("data_type", .string c.dataType),
  ("nullable", .bool c.nullable),
  ("comment", optional c.comment)]

def PrimaryKeyMetadata.modelDump (k : PrimaryKeyMetadata) : Json := .object [
  ("name", .string k.name),
  ("columns", texts k.columns)]

def ForeignKeyMetadata.modelDump (k : ForeignKeyMetadata) : Json := .object [
  ("name", .string k.name),
  ("columns", texts k.columns),
  ("referenced_schema", .string k.referencedSchema),
  ("referenced_table", .string k.referencedTable),
  ("referenced_columns", texts k.referencedColumns)]

def TableMetadata.modelDump (t : TableMetadata) : Json := .object [
  ("name", .string t.name),
  ("comment", optional t.comment),
  ("columns", .array (t.columns.map ColumnMetadata.modelDump)),
  ("primary_key", (t.primaryKey.map PrimaryKeyMetadata.modelDump).getD .null),
  ("foreign_keys", .array (t.foreignKeys.map ForeignKeyMetadata.modelDump))]

def versionPayload (tables : List TableMetadata) : String :=
  (Json.array (tables.map TableMetadata.modelDump)).sortKeys.dumpsCompact

namespace CatalogRows
variable (rows : CatalogRows)

/-- The tables that have a column, sorted by their names. -/
def tables : List TableMetadata :=
  let columnsByTable := Dict.grouped (rows.columnRows.map fun row => (row.tableName, row.metadata))
  -- set together with the columns
  let commentsByTable := Dict.entries (rows.columnRows.map fun row => (row.tableName, row.tableComment))
  let primaryKeys := Dict.entries (rows.primaryKeyRows.map fun row => (row.tableName, row.metadata))
  let foreignKeys := Dict.grouped (rows.foreignKeyRows.map fun row => (row.tableName, row.metadata))
  ((columnsByTable.map Prod.fst).insertionSort (· ≤ ·)).map fun tableName => {
    name := tableName
    comment := (Dict.get? commentsByTable tableName).getD none
    columns := (Dict.get? columnsByTable tableName).getD []
    primaryKey := Dict.get? primaryKeys tableName
    foreignKeys := (Dict.get? foreignKeys tableName).getD [] }

/-! What the rows say of one table. -/

def columnsOf (table : String) : List ColumnMetadata :=
  Dict.under (rows.columnRows.map fun row => (row.tableName, row.metadata)) table

def commentOf (table : String) : Option (Option String) :=
  (Dict.under (rows.columnRows.map fun row => (row.tableName, row.tableComment)) table).getLast?

def primaryKeyOf (table : String) : Option PrimaryKeyMetadata :=
  (Dict.under (rows.primaryKeyRows.map fun row => (row.tableName, row.metadata)) table).getLast?

def foreignKeysOf (table : String) : List ForeignKeyMetadata :=
  Dict.under (rows.foreignKeyRows.map fun row => (row.tableName, row.metadata)) table

end CatalogRows

/-- The hash is the one of the text of the tables, as lower-case hexadecimal digits. -/
def buildSnapshot (sha256 : String → String) (sourceId schemaName datasetVersion : String)
    (rows : CatalogRows) : SchemaSnapshot where
  sourceId := sourceId
  schemaName := schemaName
  schemaVersion := "sha256:" ++ sha256 (versionPayload rows.tables)
  datasetVersion := datasetVersion
  tables := rows.tables

end DataCopilot.Sql
