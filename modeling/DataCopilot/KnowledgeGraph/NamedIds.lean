import DataCopilot.KnowledgeGraph.Persist

/-! The names behind the ids: a name gives back the source and what it was built from, so that
without a collision of `uuid5` an id does so too. -/
namespace DataCopilot.KnowledgeGraph

theorem colon_not_mem_uuid (u : UUID) : ':' ∉ u.text.toList := by
  intro h
  have hchar := u.chars ':' h
  have hcolon : ':'.toNat = 58 := by decide
  omega

theorem colon_not_mem_entityKind (kind : EntityKind) : ':' ∉ kind.text.toList := by
  cases kind with
  | metric => decide
  | table => decide
  | column => decide
  | businessTerm => decide
  | document => decide
  | dataSource => decide

theorem colon_not_mem_relationKind (kind : RelationKind) : ':' ∉ kind.text.toList := by
  cases kind with
  | definedIn => decide
  | derivedFrom => decide
  | usesColumn => decide
  | belongsTo => decide
  | relatedTo => decide
  | joinsWith => decide

theorem entityKind_text_injective : Function.Injective EntityKind.text := by
  intro a b h
  cases a <;> cases b <;> first | rfl | exact absurd h (by decide)

theorem relationKind_text_injective : Function.Injective RelationKind.text := by
  intro a b h
  cases a <;> cases b <;> first | rfl | exact absurd h (by decide)

theorem colon_inj {a a' b b' : String} (ha : ':' ∉ a.toList) (ha' : ':' ∉ a'.toList)
    (h : a ++ (":" ++ b) = a' ++ (":" ++ b')) : a = a' ∧ b = b' := by
  have hlist := congrArg String.toList h
  rw [String.toList_append, String.toList_append, String.toList_append, String.toList_append] at hlist
  have hparts := Text.eq_of_append_cons ha ha' hlist
  exact ⟨String.toList_inj.mp hparts.1, String.toList_inj.mp hparts.2⟩

section Names
variable {sourceId sourceId' : UUID}

theorem entityName_inj {kind kind' : EntityKind} {folded folded' : String}
    (h : entityName sourceId kind folded = entityName sourceId kind' folded') :
    kind = kind' ∧ folded = folded' := by
  simp only [entityName, String.append_assoc] at h
  have hrest := (colon_inj (colon_not_mem_uuid _) (colon_not_mem_uuid _) h).2
  have hparts := colon_inj (colon_not_mem_entityKind _) (colon_not_mem_entityKind _) hrest
  exact ⟨entityKind_text_injective hparts.1, hparts.2⟩

theorem relationName_inj {source source' target target' : UUID} {kind kind' : RelationKind}
    (h : relationName sourceId source kind target = relationName sourceId source' kind' target') :
    source = source' ∧ kind = kind' ∧ target = target' := by
  simp only [relationName, String.append_assoc] at h
  have hrest := (colon_inj (colon_not_mem_uuid _) (colon_not_mem_uuid _) h).2
  have hsource := colon_inj (colon_not_mem_uuid _) (colon_not_mem_uuid _) hrest
  have hkind := colon_inj (colon_not_mem_relationKind _) (colon_not_mem_relationKind _) hsource.2
  exact ⟨UUID.ext hsource.1, relationKind_text_injective hkind.1, UUID.ext hkind.2⟩

/-- Every name starts with the source it belongs to. -/
def NamedUnder (sourceId : UUID) (name : String) : Prop :=
  ∃ rest, name = sourceId.text ++ (":" ++ rest)

theorem namedUnder_entityName (kind : EntityKind) (folded : String) :
    NamedUnder sourceId (entityName sourceId kind folded) :=
  ⟨kind.text ++ (":" ++ folded), by simp only [entityName, String.append_assoc]⟩

theorem namedUnder_relationName (source : UUID) (kind : RelationKind) (target : UUID) :
    NamedUnder sourceId (relationName sourceId source kind target) :=
  ⟨source.text ++ (":" ++ (kind.text ++ (":" ++ target.text))), by
    simp only [relationName, String.append_assoc]⟩

theorem source_of_namedUnder {name : String} (h : NamedUnder sourceId name)
    (h' : NamedUnder sourceId' name) : sourceId = sourceId' := by
  obtain ⟨rest, he⟩ := h
  obtain ⟨rest', he'⟩ := h'
  rw [he] at he'
  exact UUID.ext (colon_inj (colon_not_mem_uuid _) (colon_not_mem_uuid _) he').1

end Names

namespace KnowledgeGraphService
variable {uuid5 : UUID → String → UUID} {casefold : String → String} {call : Call}
variable {x : Extraction casefold}

theorem lookup_ids {e : EntityDraft} (h : e ∈ x.entities) :
    (ids uuid5 casefold call x).lookup e.id = some (entityId uuid5 casefold call e) := by
  have hkeys : ((x.entities.map fun e => (e.id, entityId uuid5 casefold call e)).map Prod.fst).Nodup := by
    rw [List.map_map]
    exact x.ids
  have hmem : (e.id, entityId uuid5 casefold call e) ∈ ids uuid5 casefold call x := by
    rw [ids, Dict.entries_of_nodup hkeys]
    exact List.mem_map.mpr ⟨e, h, rfl⟩
  have hnodup : ((ids uuid5 casefold call x).map Prod.fst).Nodup := Dict.nodup_keys_entries _
  exact Dict.lookup_of_mem hnodup hmem

/-- The id under which the graph has the entity of a local id. -/
def idOf (uuid5 : UUID → String → UUID) (casefold : String → String) (call : Call)
    (x : Extraction casefold) (key : String) : UUID :=
  ((ids uuid5 casefold call x).lookup key).getD call.tenantId

theorem idOf_entity {e : EntityDraft} (h : e ∈ x.entities) :
    idOf uuid5 casefold call x e.id = entityId uuid5 casefold call e := by
  rw [idOf, lookup_ids h, Option.getD_some]

theorem lookup_of_mem_ids {key : String} (h : key ∈ x.entities.map (·.id)) :
    (ids uuid5 casefold call x).lookup key = some (idOf uuid5 casefold call x key) := by
  obtain ⟨e, he, hid⟩ := List.mem_map.mp h
  rw [← hid, idOf_entity he]
  exact lookup_ids he

theorem getItem_ids {key : String} (h : key ∈ x.entities.map (·.id)) :
    getItem (ids uuid5 casefold call x) key = .ok (idOf uuid5 casefold call x key) := by
  rw [getItem, lookup_of_mem_ids h]

/-- The node of an entity. -/
def nodeOf (uuid5 : UUID → String → UUID) (casefold : String → String) (call : Call) (e : EntityDraft) :
    GraphNode where
  id := entityId uuid5 casefold call e
  name := e.name
  kind := e.kind
  evidence := e.evidence
  confidence := e.confidence
  sourceId := call.request.sourceId
  sourceName := call.request.sourceName
  extractedAt := call.now

/-- The edge of a relation. -/
def edgeOf (uuid5 : UUID → String → UUID) (casefold : String → String) (call : Call)
    (x : Extraction casefold) (r : RelationDraft) : GraphEdge where
  id := uuid5 call.tenantId (relationName call.request.sourceId (idOf uuid5 casefold call x r.source)
    r.kind (idOf uuid5 casefold call x r.target))
  source := idOf uuid5 casefold call x r.source
  target := idOf uuid5 casefold call x r.target
  kind := r.kind
  evidence := r.evidence
  confidence := r.confidence
  sourceId := call.request.sourceId
  sourceName := call.request.sourceName
  extractedAt := call.now

theorem node_eq {e : EntityDraft} (h : e ∈ x.entities) :
    node call (ids uuid5 casefold call x) e = .ok (nodeOf uuid5 casefold call e) := by
  rw [node, getItem_ids (List.mem_map_of_mem h), idOf_entity h]
  rfl

theorem edge_eq {r : RelationDraft} (h : r ∈ x.relations) :
    edge uuid5 call (ids uuid5 casefold call x) r = .ok (edgeOf uuid5 casefold call x r) := by
  have hends := x.references r h
  rw [edge, getItem_ids hends.1, getItem_ids hends.2]
  rfl

/-- The graph of a validated extraction; no key is missing on the way. -/
theorem build_eq_ok {g : Subgraph} : build uuid5 casefold call = .ok g ↔
    ∃ x, Extraction.modelValidate casefold call.extraction = .ok x ∧ quoted casefold call x = true ∧
      g = { nodes := x.entities.map (nodeOf uuid5 casefold call)
            edges := Dict.valuesBy (·.id) (x.relations.map (edgeOf uuid5 casefold call x)) } := by
  rw [build]
  cases hv : Extraction.modelValidate casefold call.extraction with
  | error e =>
    constructor
    · intro h
      cases h
    · intro h
      obtain ⟨_, hx, _⟩ := h
      cases hx
  | ok x =>
    have hnodes : x.entities.mapM (node call (ids uuid5 casefold call x)) =
        .ok (x.entities.map (nodeOf uuid5 casefold call)) := by
      rw [Result.mapM_eq_ok_iff, List.forall₂_map_right_iff]
      exact List.forall₂_same.mpr fun e he => node_eq he
    have hedges : x.relations.mapM (edge uuid5 call (ids uuid5 casefold call x)) =
        .ok (x.relations.map (edgeOf uuid5 casefold call x)) := by
      rw [Result.mapM_eq_ok_iff, List.forall₂_map_right_iff]
      exact List.forall₂_same.mpr fun r hr => edge_eq hr
    by_cases hq : quoted casefold call x = true
    · simp only [hq, if_true, hnodes, hedges]
      constructor
      · intro h
        cases h
        exact ⟨x, rfl, hq, rfl⟩
      · intro h
        obtain ⟨y, hy, _, hg⟩ := h
        cases hy
        rw [hg]
        rfl
    · simp only [hq]
      constructor
      · intro h
        cases h
      · intro h
        obtain ⟨y, hy, hqy, _⟩ := h
        cases hy
        exact absurd hqy hq

end KnowledgeGraphService
end DataCopilot.KnowledgeGraph
