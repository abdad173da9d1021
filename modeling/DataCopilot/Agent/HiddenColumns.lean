import DataCopilot.Agent.Prompts
import DataCopilot.Library.Result

/-! What the generation prompt shows of a schema. A column that is not allowed leaves no trace in it, nor does a
table that is not selected. -/
namespace DataCopilot.Agent
open Sql

/-- The allowed columns. A column's position counts the columns that are gone, so it goes as well. -/
def restrictColumns (allowed : Finset String) (columns : List ColumnMetadata) : List ColumnMetadata :=
  (columns.filter fun c => c.name ∈ allowed).map fun c => { c with ordinalPosition := 0 }

/-- The allowed columns of the key, without its name. A key that has none of them is gone. -/
def restrictKey (allowed : Finset String) (key : Option PrimaryKeyMetadata) : Option PrimaryKeyMetadata :=
  match ((key.map PrimaryKeyMetadata.columns).getD []).filter (· ∈ allowed) with
  | [] => none
  | columns => some ⟨"", columns⟩

/-- The foreign keys to a selected table whose columns are allowed on both sides, without their names. -/
def restrictForeignKeys (policy : QueryPolicy) (selectedTables : List String) (name : String)
    (keys : List ForeignKeyMetadata) : List ForeignKeyMetadata :=
  (keys.filter fun k => k.referencedTable ∈ selectedTables && k.columns.all (· ∈ policy.columnsOf name) &&
    k.referencedColumns.all (· ∈ policy.columnsOf k.referencedTable)).map
      fun k => { k with name := "", referencedSchema := "" }

/-- The table without the columns that are not allowed, in its keys as well. -/
def restrictTable (policy : QueryPolicy) (selectedTables : List String) (t : TableMetadata) : TableMetadata :=
  { t with
    columns := restrictColumns (policy.columnsOf t.name) t.columns
    primaryKey := restrictKey (policy.columnsOf t.name) t.primaryKey
    foreignKeys := restrictForeignKeys policy selectedTables t.name t.foreignKeys }

/-- The table of a name, which is the last one. -/
def tableOf (snapshot : SchemaSnapshot) (name : String) : Option TableMetadata :=
  snapshot.tables.reverse.find? (·.name = name)

/-- The snapshots agree on the selected tables, without what is not allowed. -/
def AgreeOn (policy : QueryPolicy) (selectedTables : List String) (s s' : SchemaSnapshot) : Prop :=
  ∀ name ∈ selectedTables, (tableOf s name).map (restrictTable policy selectedTables) =
    (tableOf s' name).map (restrictTable policy selectedTables)

/-- The selected tables of the snapshot and nothing else, without what is not allowed. -/
def restrictSnapshot (policy : QueryPolicy) (selectedTables : List String) (s : SchemaSnapshot) : SchemaSnapshot :=
  { s with tables := (s.tables.filter fun t => t.name ∈ selectedTables).map (restrictTable policy selectedTables) }

variable {policy : QueryPolicy} {selectedTables : List String} {s s' : SchemaSnapshot} {t t' : TableMetadata}
variable {selected : List TableMetadata} {name question : String}

theorem restrictKey_columns (allowed : Finset String) (key : Option PrimaryKeyMetadata) :
    ((restrictKey allowed key).map PrimaryKeyMetadata.columns).getD [] =
      ((key.map PrimaryKeyMetadata.columns).getD []).filter (· ∈ allowed) := by
  rw [restrictKey]
  cases ((key.map PrimaryKeyMetadata.columns).getD []).filter (· ∈ allowed) with
  | nil => rfl
  | cons column rest => rfl

/-- What the prompt has of a table, if all selected tables are there, it has of the restricted table. -/
theorem tablePayload_restrict (h : ∀ name, (selected.any (·.name = name)) = decide (name ∈ selectedTables)) :
    tablePayload t selected policy = Json.object [
      ("name", .string (restrictTable policy selectedTables t).name),
      ("description", jsonOptional (restrictTable policy selectedTables t).comment),
      ("columns", .array ((restrictTable policy selectedTables t).columns.map fun c => .object [
        ("name", .string c.name),
        ("type", .string c.dataType),
        ("nullable", .bool c.nullable),
        ("description", jsonOptional c.comment)])),
      ("primary_key", jsonStrings (((restrictTable policy selectedTables t).primaryKey.map
        PrimaryKeyMetadata.columns).getD [])),
      ("foreign_keys", .array ((restrictTable policy selectedTables t).foreignKeys.map fun k => .object [
        ("columns", jsonStrings k.columns),
        ("referenced_table", .string k.referencedTable),
        ("referenced_columns", jsonStrings k.referencedColumns)]))] := by
  rw [tablePayload]
  simp only [restrictTable, restrictColumns, restrictKey_columns, restrictForeignKeys, h, List.map_map]
  cases t.primaryKey with
  | none => rfl
  | some key => rfl

def selectedOf (s : SchemaSnapshot) (selectedTables : List String) : List TableMetadata :=
  s.tables.filter fun t => t.name ∈ selectedTables

theorem find_selected (h : name ∈ selectedTables) :
    (selectedOf s selectedTables).reverse.find? (·.name = name) = tableOf s name := by
  rw [selectedOf, tableOf, ← List.filter_reverse, List.find?_filter]
  congr 1
  funext t
  by_cases ht : t.name = name
  · simp [ht, h]
  · simp [ht]

theorem selected_names (hall : ∀ name ∈ selectedTables, ∃ t, tableOf s name = some t) (name : String) :
    ((selectedOf s selectedTables).any (·.name = name)) = decide (name ∈ selectedTables) := by
  rw [Bool.eq_iff_iff, List.any_eq_true, decide_eq_true_eq]
  constructor
  · intro h
    obtain ⟨t, ht, hname⟩ := h
    rw [selectedOf, List.mem_filter] at ht
    rw [← of_decide_eq_true hname]
    exact of_decide_eq_true ht.2
  · intro h
    obtain ⟨t, ht⟩ := hall name h
    rw [← find_selected h] at ht
    have hname := List.find?_some ht
    exact ⟨t, List.mem_reverse.mp (List.mem_of_find?_eq_some ht), hname⟩

/-- What the prompt has under a selected name. -/
def payloadOf (s : SchemaSnapshot) (selectedTables : List String) (policy : QueryPolicy) (name : String) :
    Except Failure Json :=
  match tableOf s name with
  | some t => .ok (tablePayload t (selectedOf s selectedTables) policy)
  | none => .error (keyError name)

theorem generationMessages_eq : generationMessages question s selectedTables policy = (do
    let context ← selectedTables.mapM (payloadOf s selectedTables policy)
    pure [(.system, generationSystem), (.user, Json.dumpsCompact (.object [
      ("question", .string question),
      ("allowed_schema", .string policy.allowedSchema),
      ("schema", .array context)]))]) := by
  have hpayload : selectedTables.mapM (payloadOf s selectedTables policy) = selectedTables.mapM fun name =>
      match (selectedOf s selectedTables).reverse.find? (·.name = name) with
      | some t => .ok (tablePayload t (selectedOf s selectedTables) policy)
      | none => .error (keyError name) := by
    apply Result.mapM_congr_mem
    intro name hname
    rw [payloadOf, find_selected hname]
  rw [hpayload]
  rfl

/-- The prompt is the same for schemas that agree on what it may show. -/
theorem payloads_of_agree (h : AgreeOn policy selectedTables s s') :
    selectedTables.mapM (payloadOf s selectedTables policy) =
      selectedTables.mapM (payloadOf s' selectedTables policy) := by
  by_cases hall : ∀ name ∈ selectedTables, ∃ t, tableOf s name = some t
  · have hall' : ∀ name ∈ selectedTables, ∃ t, tableOf s' name = some t := by
      intro name hname
      obtain ⟨t, ht⟩ := hall name hname
      have hagree := h name hname
      rw [ht, Option.map_some] at hagree
      obtain ⟨t', ht', -⟩ := Option.map_eq_some_iff.mp hagree.symm
      exact ⟨t', ht'⟩
    apply Result.mapM_congr_mem
    intro name hname
    obtain ⟨t, ht⟩ := hall name hname
    obtain ⟨t', ht'⟩ := hall' name hname
    have hagree := h name hname
    rw [ht, ht', Option.map_some, Option.map_some, Option.some.injEq] at hagree
    rw [payloadOf, payloadOf, ht, ht']
    simp only [tablePayload_restrict (selected_names hall), tablePayload_restrict (selected_names hall'), hagree]
  · have hmissing : ∃ name ∈ selectedTables, tableOf s name = none := by
      by_contra hnone
      refine hall fun name hname => ?_
      cases ht : tableOf s name with
      | none => exact absurd ⟨name, hname, ht⟩ hnone
      | some t => exact ⟨t, rfl⟩
    apply Result.mapM_of_failure
    · intro name hname
      have hagree := h name hname
      rw [payloadOf, payloadOf]
      cases ht : tableOf s name with
      | none =>
        rw [ht, Option.map_none] at hagree
        rw [Option.map_eq_none_iff.mp hagree.symm]
        exact .inl ⟨_, rfl, rfl⟩
      | some t =>
        rw [ht, Option.map_some] at hagree
        obtain ⟨t', ht', -⟩ := Option.map_eq_some_iff.mp hagree.symm
        rw [ht']
        exact .inr ⟨_, _, rfl, rfl⟩
    · obtain ⟨name, hname, ht⟩ := hmissing
      refine ⟨name, hname, keyError name, ?_⟩
      rw [payloadOf, ht]

theorem restrictColumns_twice (allowed : Finset String) (columns : List ColumnMetadata) :
    restrictColumns allowed (restrictColumns allowed columns) = restrictColumns allowed columns := by
  rw [restrictColumns, restrictColumns, List.filter_map, List.map_map, Function.comp_def, Function.comp_def,
    List.filter_filter]
  simp only [Bool.and_self]

theorem restrictKey_twice (allowed : Finset String) (key : Option PrimaryKeyMetadata) :
    restrictKey allowed (restrictKey allowed key) = restrictKey allowed key := by
  rw [restrictKey, restrictKey_columns, List.filter_filter]
  simp only [Bool.and_self]
  rfl

theorem restrictForeignKeys_twice (name : String) (keys : List ForeignKeyMetadata) :
    restrictForeignKeys policy selectedTables name (restrictForeignKeys policy selectedTables name keys) =
      restrictForeignKeys policy selectedTables name keys := by
  rw [restrictForeignKeys, restrictForeignKeys, List.filter_map, List.map_map, Function.comp_def,
    Function.comp_def, List.filter_filter]
  simp only [Bool.and_self]

theorem restrictTable_twice : restrictTable policy selectedTables (restrictTable policy selectedTables t) =
    restrictTable policy selectedTables t := by
  simp only [restrictTable, restrictColumns_twice, restrictKey_twice, restrictForeignKeys_twice]

/-- A snapshot agrees with what is left of it when all is removed that the prompt may not show. -/
theorem agreeOn_restrict : AgreeOn policy selectedTables s (restrictSnapshot policy selectedTables s) := by
  intro name hname
  have hof : tableOf (restrictSnapshot policy selectedTables s) name =
      (tableOf s name).map (restrictTable policy selectedTables) := by
    have hselected := find_selected (s := s) hname
    rw [tableOf, restrictSnapshot, ← List.map_reverse, List.find?_map, ← hselected]
    rfl
  rw [hof, Option.map_map]
  cases tableOf s name with
  | none => rfl
  | some t => exact congrArg some restrictTable_twice.symm

/-- The generation prompt is the same for schemas that agree on the allowed columns of the selected tables, and the
same as for a schema that has nothing else. -/
theorem generation_prompt_hides (s s' : SchemaSnapshot) (policy : QueryPolicy) (selectedTables : List String)
    (h : AgreeOn policy selectedTables s s') (question : String) :
    generationMessages question s selectedTables policy = generationMessages question s' selectedTables policy ∧
      generationMessages question s selectedTables policy =
        generationMessages question (restrictSnapshot policy selectedTables s) selectedTables policy := by
  rw [generationMessages_eq, generationMessages_eq, generationMessages_eq, payloads_of_agree h]
  exact ⟨rfl, by rw [← payloads_of_agree h, payloads_of_agree agreeOn_restrict]⟩

/-- Orders with the name of a contact that the policy does not allow, and without it. It is the whole key. -/
def contactSchema : SchemaSnapshot where
  sourceId := "northwind"
  schemaName := "northwind"
  schemaVersion := "1"
  datasetVersion := "1"
  tables := [{
    name := "orders"
    columns := [⟨"contact_name", 1, "text", true, some "Personal"⟩, ⟨"order_id", 2, "integer", false, none⟩]
    primaryKey := some ⟨"pk_orders", ["contact_name"]⟩
    foreignKeys := [⟨"fk_contact", ["contact_name"], "northwind", "orders", ["contact_name"]⟩] }]

def plainSchema : SchemaSnapshot where
  sourceId := "northwind"
  schemaName := "northwind"
  schemaVersion := "2"
  datasetVersion := "1"
  tables := [
    { name := "contacts", columns := [⟨"contact_name", 1, "text", true, none⟩] },
    { name := "orders", columns := [⟨"order_id", 1, "integer", false, none⟩] }]

def orderIdPolicy : QueryPolicy where
  allowedSchema := "northwind"
  allowedTables := ["orders"].toFinset
  allowedColumns := [("orders", ["order_id"].toFinset)]
  tables_ok := by decide

theorem contact_hidden : contactSchema ≠ plainSchema ∧
    generationMessages "Who ordered?" contactSchema ["orders"] orderIdPolicy =
      generationMessages "Who ordered?" plainSchema ["orders"] orderIdPolicy := by
  have hagree : AgreeOn orderIdPolicy ["orders"] contactSchema plainSchema := by
    intro name hname
    rw [List.mem_singleton.mp hname]
    rfl
  exact ⟨by decide, (generation_prompt_hides contactSchema plainSchema orderIdPolicy ["orders"] hagree "Who ordered?").1⟩

end DataCopilot.Agent
