import DataCopilot.Sql.Introspection

/-! The version of a schema changes just when its tables do: when the rows say something else
of one of the tables that have a column. -/
namespace DataCopilot.Sql
open Json (WellFormed)

section Dumps

theorem optional_inj (a b : Option String) (h : (optional a).sortKeys = (optional b).sortKeys) : a = b := by
  cases a with
  | none =>
    cases b with
    | none => rfl
    | some b => cases h
  | some a =>
    cases b with
    | none => cases h
    | some b =>
      injection h with h
      rw [h]

theorem texts_inj (a b : List String) (h : (texts a).sortKeys = (texts b).sortKeys) : a = b := by
  refine Json.sortKeys_array (fun s t hst => ?_) h
  injection hst

theorem ColumnMetadata.modelDump_inj (a b : ColumnMetadata)
    (h : a.modelDump.sortKeys = b.modelDump.sortKeys) : a = b := by
  have hf := Json.sortKeys_object h rfl (by simp)
  simp only [List.forall₂_cons, Json.sortKeys, Json.string.injEq, Json.number.injEq, Json.bool.injEq] at hf
  obtain ⟨hname, hposition, htype, hnullable, hcomment, -⟩ := hf
  cases a
  cases b
  simp only [mk.injEq]
  exact ⟨hname, Numerals.toString_int_inj hposition, htype, hnullable, optional_inj _ _ hcomment⟩

theorem PrimaryKeyMetadata.modelDump_inj (a b : PrimaryKeyMetadata)
    (h : a.modelDump.sortKeys = b.modelDump.sortKeys) : a = b := by
  have hf := Json.sortKeys_object h rfl (by simp)
  simp only [List.forall₂_cons, Json.sortKeys, Json.string.injEq] at hf
  obtain ⟨hname, hcolumns, -⟩ := hf
  cases a
  cases b
  simp only [mk.injEq]
  exact ⟨hname, texts_inj _ _ hcolumns⟩

theorem ForeignKeyMetadata.modelDump_inj (a b : ForeignKeyMetadata)
    (h : a.modelDump.sortKeys = b.modelDump.sortKeys) : a = b := by
  have hf := Json.sortKeys_object h rfl (by simp)
  simp only [List.forall₂_cons, Json.sortKeys, Json.string.injEq] at hf
  obtain ⟨hname, hcolumns, hschema, htable, hreferenced, -⟩ := hf
  cases a
  cases b
  simp only [mk.injEq]
  exact ⟨hname, texts_inj _ _ hcolumns, hschema, htable, texts_inj _ _ hreferenced⟩

theorem primaryKey_inj (a b : Option PrimaryKeyMetadata)
    (h : ((a.map PrimaryKeyMetadata.modelDump).getD .null).sortKeys =
      ((b.map PrimaryKeyMetadata.modelDump).getD .null).sortKeys) : a = b := by
  cases a with
  | none =>
    cases b with
    | none => rfl
    | some b => cases h
  | some a =>
    cases b with
    | none => cases h
    | some b => rw [PrimaryKeyMetadata.modelDump_inj a b h]

theorem TableMetadata.modelDump_inj (a b : TableMetadata)
    (h : a.modelDump.sortKeys = b.modelDump.sortKeys) : a = b := by
  have hf := Json.sortKeys_object h rfl (by simp)
  simp only [List.forall₂_cons] at hf
  obtain ⟨hname, hcomment, hcolumns, hprimary, hforeign, -⟩ := hf
  simp only [Json.sortKeys, Json.string.injEq] at hname
  have hcolumns := Json.sortKeys_array ColumnMetadata.modelDump_inj hcolumns
  have hforeign := Json.sortKeys_array ForeignKeyMetadata.modelDump_inj hforeign
  cases a
  cases b
  simp only [mk.injEq]
  exact ⟨hname, optional_inj _ _ hcomment, hcolumns, primaryKey_inj _ _ hprimary, hforeign⟩

theorem wellFormed_map {α : Type} {f : α → Json} (h : ∀ a, (f a).WellFormed) (l : List α) :
    (Json.array (l.map f)).WellFormed := by
  refine .array fun j hj => ?_
  obtain ⟨a, _, ha⟩ := List.mem_map.mp hj
  rw [← ha]
  exact h a

theorem optional_wellFormed (a : Option String) : (optional a).WellFormed := by
  cases a with
  | none => exact .null
  | some a => exact .string a

theorem texts_wellFormed (l : List String) : (texts l).WellFormed := wellFormed_map .string l

theorem ColumnMetadata.modelDump_wellFormed (c : ColumnMetadata) : c.modelDump.WellFormed := by
  refine .object ?_
  simp only [List.forall_mem_cons]
  exact ⟨.string _, Json.wellFormed_int _, .string _, .bool _, optional_wellFormed _, fun _ h => (nomatch h)⟩

theorem PrimaryKeyMetadata.modelDump_wellFormed (k : PrimaryKeyMetadata) : k.modelDump.WellFormed := by
  refine .object ?_
  simp only [List.forall_mem_cons]
  exact ⟨.string _, texts_wellFormed _, fun _ h => (nomatch h)⟩

theorem ForeignKeyMetadata.modelDump_wellFormed (k : ForeignKeyMetadata) : k.modelDump.WellFormed := by
  refine .object ?_
  simp only [List.forall_mem_cons]
  exact ⟨.string _, texts_wellFormed _, .string _, .string _, texts_wellFormed _, fun _ h => (nomatch h)⟩

theorem TableMetadata.modelDump_wellFormed (t : TableMetadata) : t.modelDump.WellFormed := by
  have hprimary : ((t.primaryKey.map PrimaryKeyMetadata.modelDump).getD .null).WellFormed := by
    cases t.primaryKey with
    | none => exact .null
    | some k => exact k.modelDump_wellFormed
  refine .object ?_
  simp only [List.forall_mem_cons]
  exact ⟨.string _, optional_wellFormed _, wellFormed_map ColumnMetadata.modelDump_wellFormed _, hprimary,
    wellFormed_map ForeignKeyMetadata.modelDump_wellFormed _, fun _ h => (nomatch h)⟩

/-- The text that is hashed tells the tables. -/
theorem versionPayload_inj {a b : List TableMetadata} (h : versionPayload a = versionPayload b) : a = b := by
  have hwell : ∀ l : List TableMetadata, (Json.array (l.map TableMetadata.modelDump)).sortKeys.WellFormed :=
    fun l => (wellFormed_map TableMetadata.modelDump_wellFormed l).sortKeys
  exact Json.sortKeys_array TableMetadata.modelDump_inj (Json.dumpsCompact_inj (hwell a) (hwell b) h)

end Dumps

namespace CatalogRows
variable {rows other : CatalogRows} {table : String}

/-- The table as the rows describe it. -/
def tableOf (rows : CatalogRows) (table : String) : TableMetadata where
  name := table
  comment := (rows.commentOf table).getD none
  columns := rows.columnsOf table
  primaryKey := rows.primaryKeyOf table
  foreignKeys := rows.foreignKeysOf table

def names (rows : CatalogRows) : List String :=
  (Dict.grouped (rows.columnRows.map fun row => (row.tableName, row.metadata))).map Prod.fst

theorem tables_eq (rows : CatalogRows) :
    rows.tables = (rows.names.insertionSort (· ≤ ·)).map rows.tableOf := by
  simp only [tables, Dict.get?_grouped, Dict.get?_entries]
  rfl

theorem mem_names : table ∈ rows.names ↔ rows.columnsOf table ≠ [] := by
  rw [names, Dict.mem_keys_grouped, columnsOf, ne_eq, Dict.under_eq_nil, not_not]

theorem nodup_names (rows : CatalogRows) : rows.names.Nodup := Dict.nodup_keys_grouped _

/-- The rows say the same of every table that has a column, whatever the order of the tables, and
whatever is said of keys of other tables. -/
structure Same (rows other : CatalogRows) : Prop where
  columns : ∀ table, rows.columnsOf table = other.columnsOf table
  comment : ∀ table, rows.columnsOf table ≠ [] → rows.commentOf table = other.commentOf table
  primaryKey : ∀ table, rows.columnsOf table ≠ [] → rows.primaryKeyOf table = other.primaryKeyOf table
  foreignKeys : ∀ table, rows.columnsOf table ≠ [] → rows.foreignKeysOf table = other.foreignKeysOf table

theorem commentOf_some (h : rows.columnsOf table ≠ []) : ∃ comment, rows.commentOf table = some comment := by
  rw [columnsOf, ne_eq, Dict.under_eq_nil, not_not, List.map_map] at h
  have hne : Dict.under (rows.columnRows.map fun row => (row.tableName, row.tableComment)) table ≠ [] := by
    rw [ne_eq, Dict.under_eq_nil, not_not, List.map_map]
    exact h
  exact ⟨_, List.getLast?_eq_some_getLast hne⟩

theorem tables_eq_iff : rows.tables = other.tables ↔ Same rows other := by
  rw [tables_eq, tables_eq]
  constructor
  · intro h
    have hnames : rows.names.insertionSort (· ≤ ·) = other.names.insertionSort (· ≤ ·) := by
      have hmap := congrArg (List.map TableMetadata.name) h
      rw [List.map_map, List.map_map] at hmap
      exact (List.map_id _).symm.trans (hmap.trans (List.map_id _))
    have hmem : ∀ table, rows.columnsOf table ≠ [] ↔ other.columnsOf table ≠ [] := by
      intro table
      rw [← mem_names, ← mem_names, ← List.mem_insertionSort (· ≤ ·), hnames, List.mem_insertionSort]
    have htable : ∀ table, rows.columnsOf table ≠ [] → rows.tableOf table = other.tableOf table := by
      intro table ht
      rw [hnames] at h
      refine List.map_inj_left.mp h table ?_
      rw [← hnames, List.mem_insertionSort, mem_names]
      exact ht
    constructor
    · intro table
      by_cases ht : rows.columnsOf table = []
      · have ho : other.columnsOf table = [] := by
          by_contra hne
          exact (hmem table).mpr hne ht
        rw [ht, ho]
      · exact congrArg TableMetadata.columns (htable table ht)
    · intro table ht
      obtain ⟨a, ha⟩ := commentOf_some ht
      obtain ⟨b, hb⟩ := commentOf_some ((hmem table).mp ht)
      have hc := congrArg TableMetadata.comment (htable table ht)
      simp only [tableOf, ha, hb, Option.getD_some] at hc
      rw [ha, hb, hc]
    · exact fun table ht => congrArg TableMetadata.primaryKey (htable table ht)
    · exact fun table ht => congrArg TableMetadata.foreignKeys (htable table ht)
  · intro h
    have hnames : rows.names.insertionSort (· ≤ ·) = other.names.insertionSort (· ≤ ·) := by
      apply Dict.sorted_keys_eq rows.nodup_names other.nodup_names
      intro table
      rw [mem_names, mem_names, h.columns]
    rw [← hnames]
    apply List.map_congr_left
    intro table ht
    rw [List.mem_insertionSort, mem_names] at ht
    rw [tableOf, tableOf, h.columns, h.comment table ht, h.primaryKey table ht, h.foreignKeys table ht]

end CatalogRows

/-- Of two introspections, of whatever sources, the schema versions are equal just when the rows say the
same of every table, unless the hash collides on the two texts. -/
theorem schema_version_iff {sha256 : String → String} {rows other : CatalogRows}
    (sourceId sourceId' schemaName schemaName' datasetVersion datasetVersion' : String)
    (hinj : Set.InjOn sha256 {versionPayload rows.tables, versionPayload other.tables}) :
    (buildSnapshot sha256 sourceId schemaName datasetVersion rows).schemaVersion =
      (buildSnapshot sha256 sourceId' schemaName' datasetVersion' other).schemaVersion ↔ rows.Same other := by
  rw [← CatalogRows.tables_eq_iff]
  constructor
  · intro h
    have hhash : sha256 (versionPayload rows.tables) = sha256 (versionPayload other.tables) :=
      String.append_right_inj _ |>.mp h
    exact versionPayload_inj (hinj (by simp) (by simp) hhash)
  · intro h
    simp only [buildSnapshot, h]

section Shop

def column (table name dataType : String) (position : Int) (comment : Option String := none) : ColumnRow :=
  ⟨table, none, name, position, dataType, false, comment⟩

def orderKeys : List ForeignKeyRow :=
  [⟨"orders", "orders_customer_id_fkey", ["customer_id"], "northwind", "customers", ["id"]⟩]

def shopRows : CatalogRows where
  columnRows := [column "customers" "id" "integer" 1, column "orders" "id" "integer" 1,
    column "orders" "customer_id" "integer" 2]
  primaryKeyRows := [⟨"customers", "customers_pkey", ["id"]⟩, ⟨"orders", "orders_pkey", ["id"]⟩]
  foreignKeyRows := orderKeys

/-- The same rows, table after table in another order, with a key of a table that has no column. -/
def shuffledRows : CatalogRows where
  columnRows := [column "orders" "id" "integer" 1, column "customers" "id" "integer" 1,
    column "orders" "customer_id" "integer" 2]
  primaryKeyRows := [⟨"orders", "orders_pkey", ["id"]⟩, ⟨"customers", "customers_pkey", ["id"]⟩]
  foreignKeyRows := ⟨"dataset_manifest", "dataset_fkey", ["name"], "northwind", "datasets", ["name"]⟩ :: orderKeys

def commentedRows : CatalogRows where
  columnRows := [column "customers" "id" "integer" 1, column "orders" "id" "integer" 1,
    column "orders" "customer_id" "integer" 2 (some "Who ordered.")]
  primaryKeyRows := shopRows.primaryKeyRows
  foreignKeyRows := orderKeys

/-- The hash on the texts of the two. -/
def shopHash (text : String) : String :=
  if text = versionPayload shopRows.tables then "721d23665546e73d0b0ff2f99ebd36283b8d0870f763b2f10bf63fef35174ed2"
  else "17336a399c6e5ccba0221d3d3b0bbfb1ca434dbfb74ed63188f122abd0cd61b0"

/-- The order of the tables is not seen in the version, a comment is. -/
theorem shop_versions :
    (buildSnapshot shopHash "shop" "northwind" "1" shopRows).schemaVersion =
        (buildSnapshot shopHash "copy" "northwind" "unknown" shuffledRows).schemaVersion ∧
      (buildSnapshot shopHash "shop" "northwind" "1" shopRows).schemaVersion ≠
        (buildSnapshot shopHash "shop" "northwind" "1" commentedRows).schemaVersion := by
  have hshuffled : shopRows.tables = shuffledRows.tables := by decide +kernel
  have hcommented : shopRows.tables ≠ commentedRows.tables := by decide +kernel
  have hone : Set.InjOn shopHash {versionPayload shopRows.tables, versionPayload shuffledRows.tables} := by
    rw [← hshuffled, Set.pair_eq_singleton]
    exact Set.injOn_singleton _ _
  have htwo : Set.InjOn shopHash {versionPayload shopRows.tables, versionPayload commentedRows.tables} := by
    rw [Set.injOn_pair]
    intro h
    have hne : versionPayload commentedRows.tables ≠ versionPayload shopRows.tables :=
      fun he => hcommented (versionPayload_inj he.symm)
    rw [shopHash, shopHash, if_pos rfl, if_neg hne] at h
    exact absurd h (by decide)
  constructor
  · exact (schema_version_iff "shop" "copy" "northwind" "northwind" "1" "unknown" hone).mpr
      (CatalogRows.tables_eq_iff.mp hshuffled)
  · intro h
    exact hcommented (CatalogRows.tables_eq_iff.mpr
      ((schema_version_iff "shop" "shop" "northwind" "northwind" "1" "1" htwo).mp h))

end Shop

end DataCopilot.Sql
