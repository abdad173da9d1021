import DataCopilot.KnowledgeGraph.SchemaImport

/-! Which schema imports pass the check of the quotes: a name is quoted as it is, while the text has
it as JSON writes it. -/
namespace DataCopilot.KnowledgeGraph
open Agent Sql

section Text
variable {snapshot : SchemaSnapshot} {t : TableMetadata} {c : ColumnMetadata} {key : ForeignKeyMetadata}
variable {name : String}

/-- The style of `json.dumps(value, ensure_ascii=False)`. -/
def unicodeStyle : Json.Style := ⟨false, [',', ' '], [':', ' ']⟩

theorem snapshotText_toList : (snapshotText snapshot).toList = Json.render unicodeStyle (modelDump snapshot) := by
  rw [snapshotText, dumpsUnicode, String.toList_ofList]
  rfl

theorem table_within (h : t ∈ snapshot.tables) :
    Json.render unicodeStyle (tableDump t) <:+: (snapshotText snapshot).toList := by
  have htables : Json.render unicodeStyle (tableDump t) <:+:
      Json.render unicodeStyle (.array (snapshot.tables.map tableDump)) :=
    Json.render_infix_array (List.mem_map_of_mem h)
  rw [snapshotText_toList, modelDump]
  exact htables.trans (Json.value_infix_object (k := "tables") (by simp))

theorem column_within (h : t ∈ snapshot.tables) (hc : c ∈ t.columns) :
    Json.render unicodeStyle (columnDump c) <:+: (snapshotText snapshot).toList := by
  have hcolumns : Json.render unicodeStyle (columnDump c) <:+:
      Json.render unicodeStyle (.array (t.columns.map columnDump)) :=
    Json.render_infix_array (List.mem_map_of_mem hc)
  have htable : Json.render unicodeStyle (.array (t.columns.map columnDump)) <:+:
      Json.render unicodeStyle (tableDump t) := Json.value_infix_object (k := "columns") (by simp)
  exact (hcolumns.trans htable).trans (table_within h)

theorem foreignKey_within (h : t ∈ snapshot.tables) (hk : key ∈ t.foreignKeys) :
    Json.render unicodeStyle (foreignKeyDump key) <:+: (snapshotText snapshot).toList := by
  have hkeys : Json.render unicodeStyle (foreignKeyDump key) <:+:
      Json.render unicodeStyle (.array (t.foreignKeys.map foreignKeyDump)) :=
    Json.render_infix_array (List.mem_map_of_mem hk)
  have htable : Json.render unicodeStyle (.array (t.foreignKeys.map foreignKeyDump)) <:+:
      Json.render unicodeStyle (tableDump t) := Json.value_infix_object (k := "foreign_keys") (by simp)
  exact (hkeys.trans htable).trans (table_within h)

theorem contains_foreignKey (h : t ∈ snapshot.tables) (hk : key ∈ t.foreignKeys) :
    Text.contains (snapshotText snapshot) (dumpsUnicode (foreignKeyDump key)) = true := by
  apply Text.contains_iff.mpr
  rw [dumpsUnicode, String.toList_ofList]
  exact foreignKey_within h hk

theorem nameEvidence_plain (h : Json.Plain name) : (nameEvidence name).toList =
    Json.quote unicodeStyle.ascii "name" ++ unicodeStyle.key ++ Json.render unicodeStyle (.string name) := by
  have hquote := Json.quote_plain h
  rw [nameEvidence, String.toList_append, String.toList_append, Json.render]
  simp only [unicodeStyle, hquote]
  rfl

theorem name_within (name : String) : name.toList <:+: (nameEvidence name).toList := by
  rw [nameEvidence, String.toList_append, String.toList_append]
  exact ⟨_, _, rfl⟩

theorem contains_of_plain_table (h : t ∈ snapshot.tables) (hplain : Json.Plain t.name) :
    Text.contains (snapshotText snapshot) (nameEvidence t.name) = true := by
  have hfield : Json.quote unicodeStyle.ascii "name" ++ unicodeStyle.key ++
      Json.render unicodeStyle (.string t.name) <:+: Json.render unicodeStyle (tableDump t) :=
    Json.field_infix_object List.mem_cons_self
  rw [Text.contains_iff, nameEvidence_plain hplain]
  exact hfield.trans (table_within h)

theorem contains_of_plain_column (h : t ∈ snapshot.tables) (hc : c ∈ t.columns) (hplain : Json.Plain c.name) :
    Text.contains (snapshotText snapshot) (nameEvidence c.name) = true := by
  have hfield : Json.quote unicodeStyle.ascii "name" ++ unicodeStyle.key ++
      Json.render unicodeStyle (.string c.name) <:+: Json.render unicodeStyle (columnDump c) :=
    Json.field_infix_object List.mem_cons_self
  rw [Text.contains_iff, nameEvidence_plain hplain]
  exact hfield.trans (column_within h hc)

theorem contains_of_plain_source (hplain : Json.Plain snapshot.sourceId) :
    Text.contains (snapshotText snapshot) snapshot.sourceId = true := by
  have hvalue : Json.render unicodeStyle (.string snapshot.sourceId) <:+: (snapshotText snapshot).toList := by
    rw [snapshotText_toList, modelDump]
    exact Json.value_infix_object (k := "source_id") (by simp)
  rw [Json.render, unicodeStyle, Json.quote_plain hplain] at hvalue
  have hname : snapshot.sourceId.toList <:+:
      Char.ofNat 34 :: snapshot.sourceId.toList ++ [Char.ofNat 34] := ⟨[Char.ofNat 34], [Char.ofNat 34], rfl⟩
  exact Text.contains_iff.mpr (hname.trans hvalue)

end Text

/-- Each name of the source, its tables and its columns is written in the text as it is quoted: JSON
escapes no character of it, or its quote stands in the text all the same. -/
def Quotable (snapshot : SchemaSnapshot) : Prop :=
  (Json.Plain snapshot.sourceId ∨ Text.contains (snapshotText snapshot) snapshot.sourceId = true) ∧
  ∀ name ∈ snapshot.tables.flatMap (fun t => t.name :: t.columns.map (·.name)),
    Json.Plain name ∨ Text.contains (snapshotText snapshot) (nameEvidence name) = true

instance (snapshot : SchemaSnapshot) : Decidable (Quotable snapshot) :=
  inferInstanceAs (Decidable (_ ∧ ∀ name ∈ _, _))

section Import
variable {uuid5 : UUID → String → UUID} {casefold : String → String} {snapshot : SchemaSnapshot}
variable {tenantId : UUID} {request : ExtractRequest} {x : Extraction casefold}

/-- What the extraction of a snapshot quotes. -/
structure Quotes (snapshot : SchemaSnapshot) (request : ExtractRequest) (x : Extraction casefold) : Prop where
  text : request.text = snapshotText snapshot
  source : ∃ e ∈ x.entities, e.evidence = snapshot.sourceId
  tables : ∀ t ∈ snapshot.tables, ∃ r ∈ x.relations, r.evidence = nameEvidence t.name
  columns : ∀ t ∈ snapshot.tables, ∀ c ∈ t.columns, ∃ r ∈ x.relations, r.evidence = nameEvidence c.name
  entity : ∀ e ∈ x.entities, e.evidence = snapshot.sourceId ∨ ∃ t ∈ snapshot.tables,
    e.evidence = t.name ∨ ∃ c ∈ t.columns, e.evidence = nameEvidence c.name
  relation : ∀ r ∈ x.relations, ∃ t ∈ snapshot.tables, r.evidence = nameEvidence t.name ∨
    (∃ c ∈ t.columns, r.evidence = nameEvidence c.name) ∨
    ∃ key ∈ t.foreignKeys, r.evidence = dumpsUnicode (foreignKeyDump key)

theorem validated_ok {α : Type} {r : Except ValidationError α} {a : α} (h : validated r = .ok a) : r = .ok a := by
  cases r with
  | error e => cases h
  | ok b =>
    cases h
    rfl

theorem entities_of_modelValidate {dump : ExtractionDump}
    (h : Extraction.modelValidate casefold dump = .ok x) : x.entities = dump.entities ∧ x.relations = dump.relations := by
  rw [Extraction.modelValidate] at h
  split at h
  · split at h
    · split at h
      · split at h
        · cases h
          exact ⟨rfl, rfl⟩
        · cases h
      · cases h
    · cases h
  · cases h

/-- The quotes of one round of the loop. -/
theorem importTable_quotes {ids : String → Option String} {t : TableMetadata}
    {part : List EntityDraft × List RelationDraft} (h : importTable ids t = .ok part) :
    (∃ r ∈ part.2, r.evidence = nameEvidence t.name) ∧
    (∀ c ∈ t.columns, ∃ r ∈ part.2, r.evidence = nameEvidence c.name) ∧
    (∀ e ∈ part.1, e.evidence = t.name ∨ ∃ c ∈ t.columns, e.evidence = nameEvidence c.name) ∧
    ∀ r ∈ part.2, r.evidence = nameEvidence t.name ∨ (∃ c ∈ t.columns, r.evidence = nameEvidence c.name) ∨
      ∃ key ∈ t.foreignKeys, r.evidence = dumpsUnicode (foreignKeyDump key) := by
  rw [importTable] at h
  obtain ⟨tableId, _, hpart⟩ := Result.bind_eq_ok.mp h
  have hcolumn : ∀ p ∈ t.columns.zipIdx.map fun p => (tableId ++ "_column_" ++ toString p.2, p.1.name),
      ∃ c ∈ t.columns, p.2 = c.name := by
    intro p hp
    obtain ⟨q, hq, he⟩ := List.mem_map.mp hp
    exact ⟨q.1, List.fst_mem_of_mem_zipIdx hq, by rw [← he]⟩
  cases hpart
  refine ⟨⟨_, List.mem_append_left _ List.mem_cons_self, rfl⟩, ?_, ?_, ?_⟩
  · intro c hc
    obtain ⟨i, hi, hget⟩ := List.getElem_of_mem hc
    have hzip : (c, i) ∈ t.columns.zipIdx := by
      rw [List.mem_zipIdx_iff_getElem?, List.getElem?_eq_getElem hi, hget]
    refine ⟨_, List.mem_append_left _ (List.mem_cons_of_mem _ (List.mem_map_of_mem (List.mem_map_of_mem hzip))), rfl⟩
  · intro e he
    cases List.mem_cons.mp he with
    | inl he =>
      rw [he]
      exact .inl rfl
    | inr he =>
      obtain ⟨p, hp, hpe⟩ := List.mem_map.mp he
      obtain ⟨c, hc, hname⟩ := hcolumn p hp
      rw [← hpe]
      exact .inr ⟨c, hc, congrArg nameEvidence hname⟩
  · intro r hr
    cases List.mem_append.mp hr with
    | inl hr =>
      cases List.mem_cons.mp hr with
      | inl hr =>
        rw [hr]
        exact .inl rfl
      | inr hr =>
        obtain ⟨p, hp, hpr⟩ := List.mem_map.mp hr
        obtain ⟨c, hc, hname⟩ := hcolumn p hp
        rw [← hpr]
        exact .inr (.inl ⟨c, hc, congrArg nameEvidence hname⟩)
    | inr hr =>
      obtain ⟨key, hkey, hsome⟩ := List.mem_filterMap.mp hr
      obtain ⟨target, _, hpr⟩ := Option.map_eq_some_iff.mp hsome
      rw [← hpr]
      exact .inr (.inr ⟨key, hkey, rfl⟩)

theorem metadataExtraction_quotes (h : metadataExtraction uuid5 casefold snapshot tenantId = .ok (request, x)) :
    Quotes snapshot request x := by
  rw [metadataExtraction] at h
  split at h
  · cases h
  · obtain ⟨parts, hparts, h⟩ := Result.bind_eq_ok.mp h
    obtain ⟨request', hrequest, h⟩ := Result.bind_eq_ok.mp h
    obtain ⟨x', hx, h⟩ := Result.bind_eq_ok.mp h
    cases h
    have hlists := entities_of_modelValidate (validated_ok hx)
    have htext : request.text = snapshotText snapshot := by
      have hvalid := validated_ok hrequest
      rw [ExtractRequest.modelValidate] at hvalid
      split at hvalid
      · cases hvalid
        rfl
      · cases hvalid
    have hforth : ∀ t ∈ snapshot.tables, ∃ part ∈ parts, importTable (tableIds snapshot) t = .ok part :=
      Result.ok_of_mapM hparts
    have hback : ∀ part ∈ parts, ∃ t ∈ snapshot.tables, importTable (tableIds snapshot) t = .ok part :=
      fun part hpart => Result.mem_of_mapM hparts hpart
    constructor
    · exact htext
    · rw [hlists.1]
      exact ⟨_, List.mem_cons_self, rfl⟩
    · intro t ht
      obtain ⟨part, hpart, hok⟩ := hforth t ht
      obtain ⟨r, hr, he⟩ := (importTable_quotes hok).1
      rw [hlists.2]
      exact ⟨r, List.mem_flatMap.mpr ⟨part, hpart, hr⟩, he⟩
    · intro t ht c hc
      obtain ⟨part, hpart, hok⟩ := hforth t ht
      obtain ⟨r, hr, he⟩ := (importTable_quotes hok).2.1 c hc
      rw [hlists.2]
      exact ⟨r, List.mem_flatMap.mpr ⟨part, hpart, hr⟩, he⟩
    · intro e he
      rw [hlists.1] at he
      cases List.mem_cons.mp he with
      | inl he =>
        rw [he]
        exact .inl rfl
      | inr he =>
        obtain ⟨part, hpart, he⟩ := List.mem_flatMap.mp he
        obtain ⟨t, ht, hok⟩ := hback part hpart
        exact .inr ⟨t, ht, (importTable_quotes hok).2.2.1 e he⟩
    · intro r hr
      rw [hlists.2] at hr
      obtain ⟨part, hpart, hr⟩ := List.mem_flatMap.mp hr
      obtain ⟨t, ht, hok⟩ := hback part hpart
      exact ⟨t, ht, (importTable_quotes hok).2.2.2 r hr⟩

theorem dump_modelValidate (x : Extraction casefold) :
    Extraction.modelValidate casefold ⟨x.entities, x.relations⟩ = .ok x := by
  have hfields : refusedItems "entities" 100 EntityDraft.refused x.entities ++
      refusedItems "relations" 200 RelationDraft.refused x.relations = [] := by
    rw [refusedItems_eq_nil.mpr x.entities_ok, refusedItems_eq_nil.mpr x.relations_ok, List.nil_append]
  have hids : (x.entities.map (·.id)).length = (x.entities.map (·.id)).dedup.length := by
    rw [x.ids.dedup]
  have hnames : (x.entities.map fun e => (e.kind, casefold e.name)).length =
      (x.entities.map fun e => (e.kind, casefold e.name)).dedup.length := by
    rw [x.names.dedup]
  rw [Extraction.modelValidate, dif_pos hfields, dif_pos hids, dif_pos hnames, dif_pos x.references]

/-- The call that hands the extraction of a snapshot on. -/
def importCall (tenantId : UUID) (request : ExtractRequest) (x : Extraction casefold) (now : Nat) : Call where
  tenantId := tenantId
  request := request
  extraction := ⟨x.entities, x.relations⟩
  now := now

theorem quoted_iff {call : Call} : KnowledgeGraphService.quoted casefold call x = true ↔
    (∀ e ∈ x.entities, Text.contains call.request.text e.evidence = true) ∧
      ∀ r ∈ x.relations, Text.contains call.request.text r.evidence = true := by
  constructor
  · exact KnowledgeGraphService.contains_of_quoted
  · intro h
    rw [KnowledgeGraphService.quoted, List.all_eq_true]
    intro evidence hmem
    cases List.mem_append.mp hmem with
    | inl hmem =>
      obtain ⟨e, he, hev⟩ := List.mem_map.mp hmem
      exact hev ▸ h.1 e he
    | inr hmem =>
      obtain ⟨r, hr, hev⟩ := List.mem_map.mp hmem
      exact hev ▸ h.2 r hr

/-- Whatever the store holds, an import passes just when all it quotes stands in the text. -/
theorem persist_ok_iff {now : Nat} {store : MemoryGraphStore} :
    (∃ g, (KnowledgeGraphService.persist uuid5 casefold store (importCall tenantId request x now)).1 = .ok g) ↔
      KnowledgeGraphService.quoted casefold (importCall tenantId request x now) x = true := by
  rw [KnowledgeGraphService.persist]
  constructor
  · intro h
    obtain ⟨g, hg⟩ := h
    cases hb : KnowledgeGraphService.build uuid5 casefold (importCall tenantId request x now) with
    | error e =>
      rw [hb] at hg
      cases hg
    | ok g' =>
      obtain ⟨y, hy, hq, _⟩ := KnowledgeGraphService.build_eq_ok.mp hb
      have hsame := (dump_modelValidate x).symm.trans hy
      cases hsame
      exact hq
  · intro hq
    have hbuilt : ∃ g, KnowledgeGraphService.build uuid5 casefold (importCall tenantId request x now) = .ok g :=
      ⟨_, KnowledgeGraphService.build_eq_ok.mpr ⟨x, dump_modelValidate x, hq, rfl⟩⟩
    obtain ⟨g, hg⟩ := hbuilt
    rw [hg]
    exact ⟨g, rfl⟩

theorem quoted_iff_quotable (h : Quotes snapshot request x) {now : Nat} :
    KnowledgeGraphService.quoted casefold (importCall tenantId request x now) x = true ↔ Quotable snapshot := by
  rw [quoted_iff]
  simp only [importCall, h.text]
  constructor
  · intro hall
    constructor
    · obtain ⟨e, he, hev⟩ := h.source
      exact .inr (hev ▸ hall.1 e he)
    · intro name hname
      obtain ⟨t, ht, hname⟩ := List.mem_flatMap.mp hname
      cases List.mem_cons.mp hname with
      | inl hname =>
        obtain ⟨r, hr, hev⟩ := h.tables t ht
        exact .inr (hname ▸ hev ▸ hall.2 r hr)
      | inr hname =>
        obtain ⟨c, hc, hname⟩ := List.mem_map.mp hname
        obtain ⟨r, hr, hev⟩ := h.columns t ht c hc
        exact .inr (hname ▸ hev ▸ hall.2 r hr)
  · intro hquotable
    have hsource : Text.contains (snapshotText snapshot) snapshot.sourceId = true :=
      hquotable.1.elim contains_of_plain_source id
    have htable : ∀ t ∈ snapshot.tables, Text.contains (snapshotText snapshot) (nameEvidence t.name) = true := by
      intro t ht
      have hname := hquotable.2 t.name (List.mem_flatMap.mpr ⟨t, ht, List.mem_cons_self⟩)
      exact hname.elim (contains_of_plain_table ht) id
    have hcolumn : ∀ t ∈ snapshot.tables, ∀ c ∈ t.columns,
        Text.contains (snapshotText snapshot) (nameEvidence c.name) = true := by
      intro t ht c hc
      have hname := hquotable.2 c.name
        (List.mem_flatMap.mpr ⟨t, ht, List.mem_cons_of_mem _ (List.mem_map_of_mem hc)⟩)
      exact hname.elim (contains_of_plain_column ht hc) id
    constructor
    · intro e he
      rcases h.entity e he with hev | ⟨t, ht, hev | ⟨c, hc, hev⟩⟩
      · exact hev ▸ hsource
      · exact hev ▸ Text.contains_trans (htable t ht) (name_within t.name)
      · exact hev ▸ hcolumn t ht c hc
    · intro r hr
      rcases h.relation r hr with ⟨t, ht, hev | ⟨c, hc, hev⟩ | ⟨key, hkey, hev⟩⟩
      · exact hev ▸ htable t ht
      · exact hev ▸ hcolumn t ht c hc
      · exact hev ▸ contains_foreignKey ht hkey

/-- The entities and relations of the snapshot, if they are an extraction. -/
def drafts (casefold : String → String) (snapshot : SchemaSnapshot) : Except PersistError (Extraction casefold) := do
  let parts ← snapshot.tables.mapM (importTable (tableIds snapshot))
  validated (Extraction.modelValidate casefold
    ⟨⟨"source", snapshot.sourceId, .dataSource, snapshot.sourceId, 1⟩ :: parts.flatMap Prod.fst,
      parts.flatMap Prod.snd⟩)

/-- The text is never empty, so only its size and the length of the names can stand in the way. -/
theorem metadataExtraction_of_drafts (hlength : (snapshotText snapshot).length ≤ 20000)
    (hname : bounded (snapshot.sourceId ++ "-metadata.json") 255 = true) (hx : drafts casefold snapshot = .ok x) :
    ∃ request, metadataExtraction uuid5 casefold snapshot tenantId = .ok (request, x) := by
  have hpos : 1 ≤ (snapshotText snapshot).length := by
    rw [← String.length_toList, snapshotText_toList, modelDump, Json.render]
    exact Nat.succ_le_succ (Nat.zero_le _)
  have htext : bounded (snapshotText snapshot) 20000 = true := by
    rw [bounded, decide_eq_true hpos, decide_eq_true hlength, Bool.and_self]
  obtain ⟨parts, hparts, hx⟩ := Result.bind_eq_ok.mp hx
  rw [metadataExtraction, if_neg (Nat.not_lt.mpr hlength), hparts, ExtractRequest.modelValidate,
    dif_pos ⟨hname, htext⟩]
  exact ⟨_, Result.bind_eq_ok.mpr ⟨parts, rfl, Result.bind_eq_ok.mpr ⟨_, rfl, Result.bind_eq_ok.mpr ⟨x, hx, rfl⟩⟩⟩⟩

/-- The import is accepted, and what it quotes is in the text. -/
def Accepted (uuid5 : UUID → String → UUID) (casefold : String → String) (snapshot : SchemaSnapshot)
    (tenantId : UUID) (request : ExtractRequest) (x : Extraction casefold) : Prop :=
  (∀ store now, ∃ g,
    (KnowledgeGraphService.persist uuid5 casefold store (importCall tenantId request x now)).1 = .ok g) ∧
  (∀ e ∈ x.entities, Text.contains (snapshotText snapshot) e.evidence = true) ∧
  ∀ r ∈ x.relations, Text.contains (snapshotText snapshot) r.evidence = true

theorem accepted_of_quotable (h : metadataExtraction uuid5 casefold snapshot tenantId = .ok (request, x))
    (hquotable : Quotable snapshot) : Accepted uuid5 casefold snapshot tenantId request x := by
  have hquotes := metadataExtraction_quotes h
  have hquoted : ∀ now, KnowledgeGraphService.quoted casefold (importCall tenantId request x now) x = true :=
    fun _ => (quoted_iff_quotable hquotes).mpr hquotable
  have hparts := quoted_iff.mp (hquoted 0)
  simp only [importCall, hquotes.text] at hparts
  exact ⟨fun _ now => persist_ok_iff.mpr (hquoted now), hparts⟩

theorem accepted_of_plain (h : metadataExtraction uuid5 casefold snapshot tenantId = .ok (request, x))
    (hsource : Json.Plain snapshot.sourceId)
    (htables : ∀ t ∈ snapshot.tables, Json.Plain t.name ∧ ∀ c ∈ t.columns, Json.Plain c.name) :
    Accepted uuid5 casefold snapshot tenantId request x := by
  refine accepted_of_quotable h ⟨.inl hsource, fun name hname => .inl ?_⟩
  obtain ⟨t, ht, hname⟩ := List.mem_flatMap.mp hname
  cases List.mem_cons.mp hname with
  | inl hname => exact hname ▸ (htables t ht).1
  | inr hname =>
    obtain ⟨c, hc, rfl⟩ := List.mem_map.mp hname
    exact (htables t ht).2 c hc

theorem import_accepted_iff (h : metadataExtraction uuid5 casefold snapshot tenantId = .ok (request, x)) :
    Accepted uuid5 casefold snapshot tenantId request x ↔ Quotable snapshot := by
  have hquotes := metadataExtraction_quotes h
  constructor
  · intro haccepted
    have hquoted := persist_ok_iff.mp (haccepted.1 {} 0)
    exact (quoted_iff_quotable hquotes).mp hquoted
  · intro hquotable
    exact accepted_of_quotable h hquotable

end Import

section Priced

/-- A table with one column. -/
def priced (column : String) : SchemaSnapshot where
  sourceId := "shop"
  schemaName := "sales"
  schemaVersion := "1"
  datasetVersion := "1"
  tables := [{ name := "orders", columns := [⟨column, 1, "numeric", false, none⟩] }]

def constantId (_ : UUID) (_ : String) : UUID := KnowledgeGraphService.shop

theorem imported (column : String)
    (hlength : (Json.render unicodeStyle (modelDump (priced column))).length ≤ 20000)
    (hvalid : (drafts Text.lower (priced column)).toOption.isSome = true) : ∃ request x,
      metadataExtraction constantId Text.lower (priced column) KnowledgeGraphService.shop = .ok (request, x) := by
  rw [← snapshotText_toList, String.length_toList] at hlength
  have hname : bounded "shop-metadata.json" 255 = true := by decide
  cases hx : drafts Text.lower (priced column) with
  | error e =>
    rw [hx] at hvalid
    cases hvalid
  | ok x =>
    obtain ⟨request, hrequest⟩ := metadataExtraction_of_drafts hlength hname hx
    exact ⟨request, x, hrequest⟩

theorem import_refused : ∃ request x,
    metadataExtraction constantId Text.lower (priced "net\"price") KnowledgeGraphService.shop = .ok (request, x) ∧
    ¬ Accepted constantId Text.lower (priced "net\"price") KnowledgeGraphService.shop request x := by
  obtain ⟨request, x, hx⟩ := imported "net\"price" (by decide +kernel) (by decide +kernel)
  refine ⟨request, x, hx, ?_⟩
  intro h
  have hquoted := persist_ok_iff.mp (h.1 {} 0)
  have hquotable := (quoted_iff_quotable (metadataExtraction_quotes hx)).mp hquoted
  cases hquotable.2 "net\"price" (by decide) with
  | inl hplain => exact absurd hplain (by decide)
  | inr hcontains =>
    rw [Text.contains, snapshotText_toList] at hcontains
    exact absurd hcontains (by decide +kernel)

theorem import_accepted_price : ∃ request x,
    metadataExtraction constantId Text.lower (priced "price") KnowledgeGraphService.shop = .ok (request, x) ∧
    Accepted constantId Text.lower (priced "price") KnowledgeGraphService.shop request x := by
  obtain ⟨request, x, hx⟩ := imported "price" (by decide +kernel) (by decide +kernel)
  exact ⟨request, x, hx, (import_accepted_iff hx).mpr (by decide +kernel)⟩

end Priced
end DataCopilot.KnowledgeGraph
