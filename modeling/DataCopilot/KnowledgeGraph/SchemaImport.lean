import DataCopilot.KnowledgeGraph.GraphRuns
import DataCopilot.KnowledgeGraph.Prompts

/-! The import of a schema as a graph, which quotes names from the JSON text of its snapshot. -/
namespace DataCopilot.KnowledgeGraph
open Agent Sql

section Dump

def columnDump (c : ColumnMetadata) : Json := .object [
  ("name", .string c.name),
  ("ordinal_position", .number (toString c.ordinalPosition)),
  ("data_type", .string c.dataType),
  ("nullable", .bool c.nullable),
  ("comment", jsonOptional c.comment)]

def primaryKeyDump : Option PrimaryKeyMetadata → Json
  | none => .null
  | some key => .object [("name", .string key.name), ("columns", jsonStrings key.columns)]

def foreignKeyDump (key : ForeignKeyMetadata) : Json := .object [
  ("name", .string key.name),
  ("columns", jsonStrings key.columns),
  ("referenced_schema", .string key.referencedSchema),
  ("referenced_table", .string key.referencedTable),
  ("referenced_columns", jsonStrings key.referencedColumns)]

def tableDump (t : TableMetadata) : Json := .object [
  ("name", .string t.name),
  ("comment", jsonOptional t.comment),
  ("columns", .array (t.columns.map columnDump)),
  ("primary_key", primaryKeyDump t.primaryKey),
  ("foreign_keys", .array (t.foreignKeys.map foreignKeyDump))]

/-- `snapshot.model_dump(mode="json")`. -/
def modelDump (snapshot : SchemaSnapshot) : Json := .object [
  ("format_version", .string snapshot.formatVersion),
  ("source_id", .string snapshot.sourceId),
  ("schema_name", .string snapshot.schemaName),
  ("schema_version", .string snapshot.schemaVersion),
  ("dataset_version", .string snapshot.datasetVersion),
  ("tables", .array (snapshot.tables.map tableDump))]

/-- `json.dumps(data, ensure_ascii=False)`. -/
def snapshotText (snapshot : SchemaSnapshot) : String := dumpsUnicode (modelDump snapshot)

end Dump

/-- `f'"name": "{name}"'`. -/
def nameEvidence (name : String) : String := "\"name\": \"" ++ name ++ "\""

/-- `table_ids`. -/
def tableIds (snapshot : SchemaSnapshot) : String → Option String :=
  Dict.ofPairs (snapshot.tables.zipIdx.map fun p => (p.1.name, "table_" ++ toString p.2))

/-- `table_ids[name]`. -/
def tableIdOf (ids : String → Option String) (name : String) : Except PersistError String :=
  match ids name with
  | some id => .ok id
  | none => .error (.key name)

/-- One round of the loop over the tables: what it appends to the entities and to the relations. -/
def importTable (ids : String → Option String) (table : TableMetadata) :
    Except PersistError (List EntityDraft × List RelationDraft) := do
  let tableId ← tableIdOf ids table.name
  let columns := table.columns.zipIdx.map fun p => (tableId ++ "_column_" ++ toString p.2, p.1.name)
  let entities := ⟨tableId, table.name, .table, table.name, 1⟩ ::
    columns.map fun c => ⟨c.1, table.name ++ "." ++ c.2, .column, nameEvidence c.2, 1⟩
  let relations := ⟨tableId, "source", .belongsTo, nameEvidence table.name, 1⟩ ::
    columns.map fun c => ⟨c.1, tableId, .belongsTo, nameEvidence c.2, 1⟩
  -- A key to a table outside of the snapshot is left out.
  let joins := table.foreignKeys.filterMap fun key => (ids key.referencedTable).map fun target =>
    ⟨tableId, target, .joinsWith, dumpsUnicode (foreignKeyDump key), 1⟩
  .ok (entities, relations ++ joins)

def ExtractRequest.modelValidate (sourceId : UUID) (sourceName text : String) :
    Except ValidationError ExtractRequest :=
  if h : bounded sourceName 255 = true ∧ bounded text 20000 = true then
    .ok {
      sourceId := sourceId
      sourceName := sourceName
      text := text
      sourceName_ok := by simpa [bounded] using h.1
      text_ok := by simpa [bounded] using h.2 }
  else
    .error (.fields ((refusedFields [("source_name", bounded sourceName 255),
      ("text", bounded text 20000)]).map fun f => [f]))

def validated {α : Type} : Except ValidationError α → Except PersistError α
  | .ok a => .ok a
  | .error e => .error (.validation e)

def metadataExtraction (uuid5 : UUID → String → UUID) (casefold : String → String)
    (snapshot : SchemaSnapshot) (tenantId : UUID) :
    Except PersistError (ExtractRequest × Extraction casefold) := do
  let text := snapshotText snapshot
  if 20000 < text.length then .error (.value "split large schema catalogs before importing")
  else
    let parts ← snapshot.tables.mapM (importTable (tableIds snapshot))
    let source : EntityDraft := ⟨"source", snapshot.sourceId, .dataSource, snapshot.sourceId, 1⟩
    let request ← validated (ExtractRequest.modelValidate (uuid5 tenantId ("schema:" ++ snapshot.sourceId))
      (snapshot.sourceId ++ "-metadata.json") text)
    let extraction ← validated (Extraction.modelValidate casefold
      ⟨source :: parts.flatMap Prod.fst, parts.flatMap Prod.snd⟩)
    .ok (request, extraction)

end DataCopilot.KnowledgeGraph
