import DataCopilot.KnowledgeGraph.NamedIds

/-! The graph that `persist` stores is well formed, and over any sequence of calls it takes the
place of the graph of its source and of no other. -/
namespace DataCopilot.KnowledgeGraph

def RelationDraft.triple (r : RelationDraft) : String × RelationKind × String := (r.source, r.kind, r.target)

def GraphEdge.triple (e : GraphEdge) : UUID × RelationKind × UUID := (e.source, e.kind, e.target)

/-- The triple over the ids of the graph. -/
def renamed (idOf : String → UUID) (t : String × RelationKind × String) : UUID × RelationKind × UUID :=
  (idOf t.1, t.2.1, idOf t.2.2)

def Subgraph.ids (g : Subgraph) : List UUID := g.nodes.map (·.id) ++ g.edges.map (·.id)

/-- The graph has the extraction, with the local ids replaced by `idOf`. -/
structure WellFormed {casefold : String → String} (idOf : String → UUID) (request : ExtractRequest)
    (x : Extraction casefold) (g : Subgraph) : Prop where
  nodes : List.Forall₂ (fun e n => n.id = idOf e.id ∧ n.name = e.name ∧ n.kind = e.kind ∧
    n.evidence = e.evidence ∧ n.confidence = e.confidence ∧ n.sourceId = request.sourceId) x.entities g.nodes
  node_ids : (g.nodes.map (·.id)).Nodup
  edge_ids : (g.edges.map (·.id)).Nodup
  edges : (g.edges.map (·.triple)).Perm ((x.relations.map (·.triple)).dedup.map (renamed idOf))
  relation : ∀ edge ∈ g.edges, ∃ r ∈ x.relations, edge.triple = renamed idOf r.triple ∧
    edge.evidence = r.evidence ∧ edge.confidence = r.confidence ∧ edge.sourceId = request.sourceId
  endpoints : ∀ edge ∈ g.edges, edge.source ∈ g.nodes.map (·.id) ∧ edge.target ∈ g.nodes.map (·.id)
  node_quoted : ∀ n ∈ g.nodes, Text.contains request.text n.evidence = true
  edge_quoted : ∀ edge ∈ g.edges, Text.contains request.text edge.evidence = true

/-- What both graphs have keeps its id. -/
structure KeepsIds (casefold : String → String) (g g' : Subgraph) : Prop where
  nodes : ∀ n ∈ g.nodes, ∀ n' ∈ g'.nodes, n.kind = n'.kind → casefold n.name = casefold n'.name → n.id = n'.id
  edges : ∀ e ∈ g.edges, ∀ e' ∈ g'.edges, e.triple = e'.triple → e.id = e'.id

theorem GraphEdge.triple_eq {e e' : GraphEdge} :
    e.triple = e'.triple ↔ e.source = e'.source ∧ e.kind = e'.kind ∧ e.target = e'.target := by
  simp only [triple, Prod.mk.injEq]

theorem nodup_map_of {α β γ : Type} {key : α → β} {id : α → γ} {l : List α} (h : (l.map key).Nodup)
    (hid : ∀ a ∈ l, ∀ b ∈ l, id a = id b → key a = key b) : (l.map id).Nodup := by
  have hkeys : l.Pairwise fun a b => key a ≠ key b := List.pairwise_map.mp h
  apply List.pairwise_map.mpr
  apply hkeys.imp_of_mem
  intro a b ha hb hne he
  exact hne (hid a ha b hb he)

namespace KnowledgeGraphService
variable {uuid5 : UUID → String → UUID} {casefold : String → String} {call : Call}
variable {x : Extraction casefold} {g : Subgraph}

section Hashed
variable (hx : Extraction.modelValidate casefold call.extraction = .ok x)
include hx

theorem entity_hashed {e : EntityDraft} (h : e ∈ x.entities) :
    (call.tenantId, entityName call.request.sourceId e.kind (casefold e.name)) ∈
      hashed uuid5 casefold call := by
  simp only [hashed, hx]
  apply List.mem_append_left
  exact List.mem_map.mpr ⟨e, h, rfl⟩

theorem relation_hashed {r : RelationDraft} (h : r ∈ x.relations) :
    (call.tenantId, relationName call.request.sourceId (idOf uuid5 casefold call x r.source) r.kind
      (idOf uuid5 casefold call x r.target)) ∈ hashed uuid5 casefold call := by
  have hends := x.references r h
  simp only [hashed, hx]
  apply List.mem_append_right
  apply List.mem_filterMap.mpr
  refine ⟨r, h, ?_⟩
  rw [lookup_of_mem_ids hends.1, lookup_of_mem_ids hends.2]
  rfl

end Hashed

/-- The id of an edge is a matter of its triple. -/
theorem edgeOf_id_of_triple {r r' : RelationDraft}
    (h : (edgeOf uuid5 casefold call x r).triple = (edgeOf uuid5 casefold call x r').triple) :
    (edgeOf uuid5 casefold call x r).id = (edgeOf uuid5 casefold call x r').id := by
  have hparts := GraphEdge.triple_eq.mp h
  simp only [edgeOf] at hparts ⊢
  rw [hparts.1, hparts.2.1, hparts.2.2]

section Built
variable (hx : Extraction.modelValidate casefold call.extraction = .ok x)
variable (hfree : NoCollision uuid5 casefold [call])
include hfree

theorem eq_of_uuid5 {p q : UUID × String} (hp : p ∈ hashed uuid5 casefold call)
    (hq : q ∈ hashed uuid5 casefold call) (h : uuid5 p.1 p.2 = uuid5 q.1 q.2) : p = q := by
  have hone : [call].flatMap (hashed uuid5 casefold) = hashed uuid5 casefold call := by
    rw [List.flatMap_cons, List.flatMap_nil, List.append_nil]
  rw [NoCollision, hone] at hfree
  exact hfree p hp q hq h

include hx

theorem entityId_inj {e e' : EntityDraft} (he : e ∈ x.entities) (he' : e' ∈ x.entities)
    (h : entityId uuid5 casefold call e = entityId uuid5 casefold call e') :
    (e.kind, casefold e.name) = (e'.kind, casefold e'.name) := by
  have hpair := eq_of_uuid5 hfree (entity_hashed hx he) (entity_hashed hx he') h
  have hname := entityName_inj (Prod.ext_iff.mp hpair).2
  rw [hname.1, hname.2]

theorem nodup_entityIds : (x.entities.map (entityId uuid5 casefold call)).Nodup :=
  nodup_map_of x.names fun _ he _ he' h => entityId_inj hx hfree he he' h

/-- Two local ids with one id of the graph are one. -/
theorem idOf_inj {a b : String} (ha : a ∈ x.entities.map (·.id)) (hb : b ∈ x.entities.map (·.id))
    (h : idOf uuid5 casefold call x a = idOf uuid5 casefold call x b) : a = b := by
  obtain ⟨e, he, hea⟩ := List.mem_map.mp ha
  obtain ⟨e', he', heb⟩ := List.mem_map.mp hb
  rw [← hea, ← heb, idOf_entity he, idOf_entity he'] at h
  have hsame : e = e' := List.inj_on_of_nodup_map (nodup_entityIds hx hfree) he he' h
  rw [← hea, ← heb, hsame]

theorem edgeOf_id_inj {r r' : RelationDraft} (hr : r ∈ x.relations) (hr' : r' ∈ x.relations)
    (h : (edgeOf uuid5 casefold call x r).id = (edgeOf uuid5 casefold call x r').id) :
    r.triple = r'.triple := by
  have hpair := eq_of_uuid5 hfree (relation_hashed hx hr) (relation_hashed hx hr') h
  have hname := relationName_inj (Prod.ext_iff.mp hpair).2
  have hsource := idOf_inj hx hfree (x.references r hr).1 (x.references r' hr').1 hname.1
  have htarget := idOf_inj hx hfree (x.references r hr).2 (x.references r' hr').2 hname.2.2
  rw [RelationDraft.triple, RelationDraft.triple, hsource, hname.2.1, htarget]

theorem nodup_renamed :
    ((x.relations.map (·.triple)).dedup.map (renamed (idOf uuid5 casefold call x))).Nodup := by
  apply List.Nodup.map_on _ (List.nodup_dedup _)
  intro t ht t' ht' h
  obtain ⟨r, hr, hrt⟩ := List.mem_map.mp (List.mem_dedup.mp ht)
  obtain ⟨r', hr', hrt'⟩ := List.mem_map.mp (List.mem_dedup.mp ht')
  rw [← hrt, ← hrt'] at h ⊢
  apply edgeOf_id_inj hx hfree hr hr'
  exact edgeOf_id_of_triple h

/-- The edges that a dictionary by id keeps are one for each triple of the relations. -/
theorem edges_perm :
    ((Dict.valuesBy (·.id) (x.relations.map (edgeOf uuid5 casefold call x))).map (·.triple)).Perm
      ((x.relations.map (·.triple)).dedup.map (renamed (idOf uuid5 casefold call x))) := by
  have hnodup : ((Dict.valuesBy (·.id) (x.relations.map (edgeOf uuid5 casefold call x))).map
      (·.triple)).Nodup := by
    apply nodup_map_of (Dict.nodup_key_valuesBy GraphEdge.id _)
    intro a ha b hb h
    obtain ⟨r, _, hra⟩ := List.mem_map.mp (Dict.mem_of_mem_valuesBy ha)
    obtain ⟨r', _, hrb⟩ := List.mem_map.mp (Dict.mem_of_mem_valuesBy hb)
    rw [← hra, ← hrb] at h ⊢
    exact edgeOf_id_of_triple h
  rw [List.perm_ext_iff_of_nodup hnodup (nodup_renamed hx hfree)]
  intro t
  constructor
  · intro h
    obtain ⟨edge, hedge, ht⟩ := List.mem_map.mp h
    obtain ⟨r, hr, hre⟩ := List.mem_map.mp (Dict.mem_of_mem_valuesBy hedge)
    rw [← ht, ← hre]
    exact List.mem_map_of_mem (List.mem_dedup.mpr (List.mem_map_of_mem hr))
  · intro h
    obtain ⟨triple, htriple, ht⟩ := List.mem_map.mp h
    obtain ⟨r, hr, hrt⟩ := List.mem_map.mp (List.mem_dedup.mp htriple)
    have hmem : edgeOf uuid5 casefold call x r ∈ x.relations.map (edgeOf uuid5 casefold call x) :=
      List.mem_map_of_mem hr
    have hkept : ∃ edge ∈ Dict.valuesBy GraphEdge.id (x.relations.map (edgeOf uuid5 casefold call x)),
        edge.id = (edgeOf uuid5 casefold call x r).id := Dict.exists_mem_valuesBy hmem
    obtain ⟨edge, hedge, hid⟩ := hkept
    obtain ⟨r', hr', hre⟩ := List.mem_map.mp (Dict.mem_of_mem_valuesBy hedge)
    rw [← hre] at hid
    have hsame := edgeOf_id_inj hx hfree hr' hr hid
    rw [← ht, ← hrt, ← hsame]
    exact List.mem_map.mpr ⟨edge, hedge, by rw [← hre]; rfl⟩

end Built

theorem contains_of_quoted (h : quoted casefold call x = true) :
    (∀ e ∈ x.entities, Text.contains call.request.text e.evidence = true) ∧
      ∀ r ∈ x.relations, Text.contains call.request.text r.evidence = true := by
  rw [quoted, List.all_eq_true] at h
  constructor
  · intro e he
    exact h e.evidence (List.mem_append_left _ (List.mem_map_of_mem he))
  · intro r hr
    exact h r.evidence (List.mem_append_right _ (List.mem_map_of_mem hr))

theorem mem_nodes_of_key {key : String} (h : key ∈ x.entities.map (·.id)) :
    idOf uuid5 casefold call x key ∈ (x.entities.map (nodeOf uuid5 casefold call)).map (·.id) := by
  obtain ⟨e, he, hid⟩ := List.mem_map.mp h
  rw [← hid, idOf_entity he, List.map_map]
  exact List.mem_map.mpr ⟨e, he, rfl⟩

theorem build_endpoints (h : build uuid5 casefold call = .ok g) : ∀ edge ∈ g.edges,
    edge.source ∈ g.nodes.map (·.id) ∧ edge.target ∈ g.nodes.map (·.id) := by
  obtain ⟨x, _, _, hg⟩ := build_eq_ok.mp h
  intro edge hmem
  rw [hg] at hmem
  obtain ⟨r, hr, hre⟩ := List.mem_map.mp (Dict.mem_of_mem_valuesBy hmem)
  have hends := x.references r hr
  rw [← hre, hg]
  exact ⟨mem_nodes_of_key hends.1, mem_nodes_of_key hends.2⟩

theorem build_wellFormed (hfree : NoCollision uuid5 casefold [call])
    (h : build uuid5 casefold call = .ok g) :
    ∃ x, Extraction.modelValidate casefold call.extraction = .ok x ∧
      WellFormed (idOf uuid5 casefold call x) call.request x g := by
  obtain ⟨x, hx, hq, hg⟩ := build_eq_ok.mp h
  have hquoted := contains_of_quoted hq
  have hedge : ∀ edge ∈ g.edges, ∃ r ∈ x.relations, edgeOf uuid5 casefold call x r = edge := by
    intro edge hedge
    rw [hg] at hedge
    exact List.mem_map.mp (Dict.mem_of_mem_valuesBy hedge)
  refine ⟨x, hx, ?_, ?_, ?_, ?_, ?_, ?_, ?_, ?_⟩
  · rw [hg, List.forall₂_map_right_iff]
    apply List.forall₂_same.mpr
    intro e he
    exact ⟨(idOf_entity he).symm, rfl, rfl, rfl, rfl, rfl⟩
  · rw [hg, List.map_map]
    exact nodup_entityIds hx hfree
  · rw [hg]
    exact Dict.nodup_key_valuesBy GraphEdge.id _
  · rw [hg]
    exact edges_perm hx hfree
  · intro edge hmem
    obtain ⟨r, hr, hre⟩ := hedge edge hmem
    rw [← hre]
    exact ⟨r, hr, rfl, rfl, rfl, rfl⟩
  · exact build_endpoints h
  · intro n hn
    rw [hg] at hn
    obtain ⟨e, he, hen⟩ := List.mem_map.mp hn
    rw [← hen]
    exact hquoted.1 e he
  · intro edge hmem
    obtain ⟨r, hr, hre⟩ := hedge edge hmem
    rw [← hre]
    exact hquoted.2 r hr

theorem node_id (h : build uuid5 casefold call = .ok g) : ∀ n ∈ g.nodes,
    n.id = uuid5 call.tenantId (entityName call.request.sourceId n.kind (casefold n.name)) := by
  obtain ⟨x, _, _, hg⟩ := build_eq_ok.mp h
  intro n hn
  rw [hg] at hn
  obtain ⟨e, _, hen⟩ := List.mem_map.mp hn
  rw [← hen]
  rfl

theorem edge_id (h : build uuid5 casefold call = .ok g) : ∀ e ∈ g.edges,
    e.id = uuid5 call.tenantId (relationName call.request.sourceId e.source e.kind e.target) := by
  obtain ⟨x, _, _, hg⟩ := build_eq_ok.mp h
  intro e he
  rw [hg] at he
  obtain ⟨r, _, hre⟩ := List.mem_map.mp (Dict.mem_of_mem_valuesBy he)
  rw [← hre]
  rfl

theorem build_keepsIds {call' : Call} {g' : Subgraph} (ht : call'.tenantId = call.tenantId)
    (hs : call'.request.sourceId = call.request.sourceId) (h : build uuid5 casefold call' = .ok g')
    (hg : build uuid5 casefold call = .ok g) : KeepsIds casefold g' g := by
  constructor
  · intro n hn n' hn' hkind hname
    rw [node_id h n hn, node_id hg n' hn', ht, hs, hkind, hname]
  · intro e he e' he' htriple
    have hparts := GraphEdge.triple_eq.mp htriple
    rw [edge_id h e he, edge_id hg e' he', ht, hs, hparts.1, hparts.2.1, hparts.2.2]

/-- Every id of a graph comes from a name under its source. -/
theorem id_hashed (h : build uuid5 casefold call = .ok g) {id : UUID} (hid : id ∈ g.ids) :
    ∃ name, (call.tenantId, name) ∈ hashed uuid5 casefold call ∧ id = uuid5 call.tenantId name ∧
      NamedUnder call.request.sourceId name := by
  obtain ⟨x, hx, _, hg⟩ := build_eq_ok.mp h
  rw [hg, Subgraph.ids] at hid
  cases List.mem_append.mp hid with
  | inl hnode =>
    rw [List.map_map] at hnode
    obtain ⟨e, he, hen⟩ := List.mem_map.mp hnode
    exact ⟨_, entity_hashed hx he, hen.symm, namedUnder_entityName _ _⟩
  | inr hedge =>
    obtain ⟨edge, hmem, heid⟩ := List.mem_map.mp hedge
    obtain ⟨r, hr, hre⟩ := List.mem_map.mp (Dict.mem_of_mem_valuesBy hmem)
    rw [← heid, ← hre]
    exact ⟨_, relation_hashed hx hr, rfl, namedUnder_relationName _ _ _⟩

theorem ids_disjoint {calls : List Call} {call' : Call} {g' : Subgraph} (hfree : NoCollision uuid5 casefold calls)
    (hc : call ∈ calls) (hc' : call' ∈ calls) (hg : build uuid5 casefold call = .ok g)
    (hg' : build uuid5 casefold call' = .ok g')
    (hkey : (call'.tenantId, call'.request.sourceId) ≠ (call.tenantId, call.request.sourceId)) :
    g'.ids.Disjoint g.ids := by
  intro id hid' hid
  obtain ⟨name, hname, he, hunder⟩ := id_hashed hg hid
  obtain ⟨name', hname', he', hunder'⟩ := id_hashed hg' hid'
  have hpair := hfree _ (List.mem_flatMap.mpr ⟨call', hc', hname'⟩) _ (List.mem_flatMap.mpr ⟨call, hc, hname⟩)
    (he'.symm.trans he)
  have htenant := (Prod.ext_iff.mp hpair).1
  have hsame : name' = name := (Prod.ext_iff.mp hpair).2
  rw [hsame] at hunder'
  exact hkey (Prod.ext htenant (source_of_namedUnder hunder' hunder))

theorem noCollision_of_mem {calls : List Call} (h : NoCollision uuid5 casefold calls) (hc : call ∈ calls) :
    NoCollision uuid5 casefold [call] := by
  intro p hp q hq he
  have hmem : ∀ r ∈ [call].flatMap (hashed uuid5 casefold), r ∈ calls.flatMap (hashed uuid5 casefold) := by
    intro r hr
    rw [List.flatMap_cons, List.flatMap_nil, List.append_nil] at hr
    exact List.mem_flatMap.mpr ⟨call, hc, hr⟩
  exact h p (hmem p hp) q (hmem q hq) he

theorem run_concat (calls : List Call) (call : Call) : run uuid5 casefold (calls ++ [call]) =
    (persist uuid5 casefold (run uuid5 casefold calls) call).2 := by
  rw [run, List.foldl_append]
  rfl

theorem run_get {calls : List Call} {key : UUID × UUID} (h : (run uuid5 casefold calls).get key = some g) :
    ∃ call ∈ calls, (call.tenantId, call.request.sourceId) = key ∧ build uuid5 casefold call = .ok g := by
  induction calls using List.reverseRecOn with
  | nil => cases h
  | append_singleton calls call ih =>
    have hearlier : (run uuid5 casefold calls).get key = some g → ∃ c ∈ calls ++ [call],
        (c.tenantId, c.request.sourceId) = key ∧ build uuid5 casefold c = .ok g := by
      intro hget
      obtain ⟨c, hc, hrest⟩ := ih hget
      exact ⟨c, List.mem_append_left _ hc, hrest⟩
    rw [run_concat, persist] at h
    cases hb : build uuid5 casefold call with
    | error e =>
      rw [hb] at h
      exact hearlier h
    | ok graph =>
      rw [hb, MemoryGraphStore.get_replace] at h
      by_cases hk : key = (call.tenantId, call.request.sourceId)
      · rw [if_pos hk] at h
        exact ⟨call, List.mem_append_right _ (List.mem_singleton.mpr rfl), hk.symm, by rw [hb, Option.some.inj h]⟩
      · rw [if_neg hk] at h
        exact hearlier h

/-- After any calls one more raises and leaves the store as it was, or the store has under its key
a well formed graph that keeps the ids of the graphs before it, with every other graph as it was
and apart from it. -/
theorem persist_replaces (calls : List Call) (call : Call) (hfree : NoCollision uuid5 casefold (calls ++ [call])) :
    (∃ e, persist uuid5 casefold (run uuid5 casefold calls) call = (.error e, run uuid5 casefold calls)) ∨
    ∃ g x after idOf, persist uuid5 casefold (run uuid5 casefold calls) call = (.ok g, after) ∧
      Extraction.modelValidate casefold call.extraction = .ok x ∧ WellFormed idOf call.request x g ∧
      after.get (call.tenantId, call.request.sourceId) = some g ∧
      (∀ tenantId ≠ call.tenantId, after.all tenantId = (run uuid5 casefold calls).all tenantId) ∧
      (∀ key ≠ (call.tenantId, call.request.sourceId), after.get key = (run uuid5 casefold calls).get key ∧
        ∀ other, after.get key = some other → other.ids.Disjoint g.ids) ∧
      ∀ earlier ∈ calls, earlier.tenantId = call.tenantId → earlier.request.sourceId = call.request.sourceId →
        ∀ store g', (persist uuid5 casefold store earlier).1 = .ok g' → KeepsIds casefold g' g := by
  have hmem : call ∈ calls ++ [call] := List.mem_append_right _ (List.mem_singleton.mpr rfl)
  cases hb : build uuid5 casefold call with
  | error e =>
    apply Or.inl
    exact ⟨e, by rw [persist, hb]⟩
  | ok g =>
    apply Or.inr
    obtain ⟨x, hx, hwell⟩ := build_wellFormed (noCollision_of_mem hfree hmem) hb
    refine ⟨g, x, (run uuid5 casefold calls).replace call.tenantId call.request.sourceId g, _,
      by rw [persist, hb], hx, hwell, ?_, ?_, ?_, ?_⟩
    · rw [MemoryGraphStore.get_replace, if_pos rfl]
    · intro tenantId hne
      exact MemoryGraphStore.all_replace _ _ _ hne
    · intro key hne
      have hget := MemoryGraphStore.get_replace (run uuid5 casefold calls) call.tenantId call.request.sourceId g key
      rw [if_neg hne] at hget
      refine ⟨hget, fun other hother => ?_⟩
      rw [hget] at hother
      obtain ⟨c, hc, hkey, hbuilt⟩ := run_get hother
      rw [← hkey] at hne
      exact ids_disjoint hfree hmem (List.mem_append_left _ hc) hb hbuilt hne
    · intro earlier _ ht hs store g' hp
      have hbuilt : build uuid5 casefold earlier = .ok g' := by
        cases he : build uuid5 casefold earlier with
        | error e =>
          rw [persist, he] at hp
          cases hp
        | ok g'' =>
          rw [persist, he] at hp
          exact hp
      exact build_keepsIds ht hs hbuilt hb

section Revised

def shop : UUID := ⟨"6f1c2a9e-3b7d-4c58-9a10-2d4e6f8a0b1c", by decide⟩
def handbook : UUID := ⟨"0b9d8c7a-6e5f-4a3b-8c2d-1e0f9a8b7c6d", by decide⟩
def glossary : UUID := ⟨"5a4b3c2d-1e0f-4d9c-8b7a-6f5e4d3c2b1a", by decide⟩

/-- `uuid5` of the names that the calls below use. -/
def shopId (_ : UUID) (name : String) : UUID :=
  if name = "0b9d8c7a-6e5f-4a3b-8c2d-1e0f9a8b7c6d:Metric:revenue" then
    ⟨"746fdaa1-0b17-51d1-9b99-d892271ee9b1", by decide⟩
  else if name = "0b9d8c7a-6e5f-4a3b-8c2d-1e0f9a8b7c6d:Table:orders" then
    ⟨"fcc798bd-f0a6-546f-8fc4-4c40fc2c7f69", by decide⟩
  else if name = "5a4b3c2d-1e0f-4d9c-8b7a-6f5e4d3c2b1a:Metric:revenue" then
    ⟨"b70138d0-7b24-5e25-ae0d-7eb968d80de2", by decide⟩
  else ⟨"b95e74d0-0743-5d64-a816-9cf1c340a730", by decide⟩

def askedOf (source : UUID) : ExtractRequest where
  sourceId := source
  sourceName := "metrics.md"
  text := "Revenue is the sum over orders."
  sourceName_ok := by decide
  text_ok := by decide

def revenueOf (source : UUID) (name : String) : Call where
  tenantId := shop
  request := askedOf source
  extraction := ⟨[⟨"m", name, .metric, "Revenue", 1⟩], []⟩
  now := 0

/-- The relation comes twice, and the entities have other local ids than before. -/
def revised : Call where
  tenantId := shop
  request := askedOf handbook
  extraction := ⟨[⟨"a", "Orders", .table, "orders", 1⟩, ⟨"b", "revenue", .metric, "Revenue", 1⟩],
    [⟨"b", "a", .derivedFrom, "sum over orders", 1⟩, ⟨"b", "a", .derivedFrom, "Revenue is", 1⟩]⟩
  now := 1

theorem persist_replaces_revised : ∃ g x idOf,
    (persist shopId Text.lower (run shopId Text.lower [revenueOf glossary "Revenue", revenueOf handbook "REVENUE"])
      revised).1 = .ok g ∧
    Extraction.modelValidate Text.lower revised.extraction = .ok x ∧ WellFormed idOf revised.request x g := by
  have hbuilt : (build shopId Text.lower revised).toOption.isSome = true := by decide +kernel
  have hfree : NoCollision shopId Text.lower
      ([revenueOf glossary "Revenue", revenueOf handbook "REVENUE"] ++ [revised]) := by decide +kernel
  have hcases := persist_replaces [revenueOf glossary "Revenue", revenueOf handbook "REVENUE"] revised hfree
  cases hcases with
  | inl h =>
    obtain ⟨e, he⟩ := h
    cases hb : build shopId Text.lower revised with
    | error e' =>
      rw [hb] at hbuilt
      cases hbuilt
    | ok g =>
      rw [persist, hb] at he
      cases he
  | inr h =>
    obtain ⟨g, x, after, idOf, hp, hx, hwell, _⟩ := h
    exact ⟨g, x, idOf, by rw [hp], hx, hwell⟩

end Revised
end KnowledgeGraphService
end DataCopilot.KnowledgeGraph
