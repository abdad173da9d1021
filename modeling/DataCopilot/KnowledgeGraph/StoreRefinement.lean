import DataCopilot.KnowledgeGraph.GraphRuns
import DataCopilot.KnowledgeGraph.Repository

/-! `persist` over the store in Neo4j: without a collision of `uuid5` no constraint refuses it, and the two stores
have the same graphs. -/
namespace DataCopilot.KnowledgeGraph

inductive GraphFailure where
  | persist (e : PersistError)
  | store (e : GraphError)
deriving DecidableEq, Repr

namespace Neo4jGraphStore

def persist (uuid5 : UUID → String → UUID) (casefold : String → String) (store : Neo4jGraphStore) (call : Call) :
    Except GraphFailure Subgraph × Neo4jGraphStore :=
  match KnowledgeGraphService.build uuid5 casefold call with
  | .error e => (.error (.persist e), store)
  | .ok graph =>
    match store.replace call.tenantId call.request.sourceId graph with
    | .error e => (.error (.store e), store)
    | .ok after => (.ok graph, after)

/-- The store after the calls, from an empty one. -/
def run (uuid5 : UUID → String → UUID) (casefold : String → String) (calls : List Call) : Neo4jGraphStore :=
  calls.foldl (fun store call => (persist uuid5 casefold store call).2) {}

end Neo4jGraphStore

namespace MemoryGraphStore

/-- Every node with its tenant. -/
def nodesOfAll (graphs : List ((UUID × UUID) × Subgraph)) : List (UUID × GraphNode) :=
  graphs.flatMap fun item => item.2.nodes.map fun n => (item.1.1, n)

def edgesOfAll (graphs : List ((UUID × UUID) × Subgraph)) : List (UUID × GraphEdge) :=
  graphs.flatMap fun item => item.2.edges.map fun e => (item.1.1, e)

end MemoryGraphStore

open MemoryGraphStore KnowledgeGraphService

/-- The two stores have the same. -/
structure Agree (neo4j : Neo4jGraphStore) (memory : MemoryGraphStore) : Prop where
  nodes : neo4j.nodes.Perm (nodesOfAll memory.graphs)
  relations : neo4j.relations.Perm (edgesOfAll memory.graphs)

section Lists
variable {α β : Type}

/-- A condition on the images that tells the sources apart. -/
theorem filter_flatMap_of {l : List α} {f : α → List β} {p : β → Bool} {q : α → Bool}
    (hkept : ∀ x ∈ l, q x = true → ∀ y ∈ f x, p y = true) (hgone : ∀ x ∈ l, q x = false → ∀ y ∈ f x, p y = false) :
    (l.flatMap f).filter p = (l.filter q).flatMap f := by
  induction l with
  | nil => rfl
  | cons x rest ih =>
    have hrest := ih (fun y hy => hkept y (List.mem_cons_of_mem x hy)) fun y hy => hgone y (List.mem_cons_of_mem x hy)
    rw [List.flatMap_cons, List.filter_append, hrest]
    cases hq : q x with
    | true => rw [List.filter_cons_of_pos hq, List.flatMap_cons, List.filter_eq_self.mpr (hkept x List.mem_cons_self hq)]
    | false =>
      have hnil : (f x).filter p = [] := by
        rw [List.filter_eq_nil_iff]
        intro y hy
        simp [hgone x List.mem_cons_self hq y hy]
      rw [List.filter_cons_of_neg (by simp [hq]), hnil, List.nil_append]

theorem map_snd_filter_flatMap {graphs : List ((UUID × UUID) × Subgraph)} {f : Subgraph → List α} {tenantId : UUID} :
    ((graphs.flatMap fun item => (f item.2).map fun x => (item.1.1, x)).filter fun x => x.1 = tenantId).map Prod.snd =
      ((graphs.filter fun item => item.1.1 = tenantId).map Prod.snd).flatMap f := by
  rw [filter_flatMap_of (q := fun item => decide (item.1.1 = tenantId)), List.map_flatMap, List.flatMap_map]
  · congr 1
    funext item
    rw [List.map_map]
    exact List.map_id _
  · intro item _ hq y hy
    obtain ⟨x, -, rfl⟩ := List.mem_map.mp hy
    exact hq
  · intro item _ hq y hy
    obtain ⟨x, -, rfl⟩ := List.mem_map.mp hy
    exact hq

end Lists

theorem Agree.tenant {neo4j : Neo4jGraphStore} {memory : MemoryGraphStore} (h : Agree neo4j memory) (tenantId : UUID) :
    (neo4j.tenantNodes tenantId).Perm (memory.all tenantId).1 ∧
      (neo4j.tenantEdges tenantId).Perm (memory.all tenantId).2 := by
  constructor
  · have hp := (h.nodes.filter fun n => n.1 = tenantId).map Prod.snd
    rw [nodesOfAll, map_snd_filter_flatMap (f := Subgraph.nodes)] at hp
    exact hp
  · have hp := (h.relations.filter fun r => r.1 = tenantId).map Prod.snd
    rw [edgesOfAll, map_snd_filter_flatMap (f := Subgraph.edges)] at hp
    exact hp

/-- The graphs of a store were built by calls, each for its key. -/
def BuiltBy (uuid5 : UUID → String → UUID) (casefold : String → String) (calls : List Call)
    (graphs : List ((UUID × UUID) × Subgraph)) : Prop :=
  ∀ item ∈ graphs, ∃ call ∈ calls, (call.tenantId, call.request.sourceId) = item.1 ∧
    build uuid5 casefold call = .ok item.2

section Step
variable {uuid5 : UUID → String → UUID} {casefold : String → String} {calls : List Call} {call : Call} {g : Subgraph}
variable {graphs : List ((UUID × UUID) × Subgraph)} {item other : (UUID × UUID) × Subgraph}

theorem node_source (h : build uuid5 casefold call = .ok g) : ∀ n ∈ g.nodes, n.sourceId = call.request.sourceId := by
  obtain ⟨x, -, -, hg⟩ := build_eq_ok.mp h
  intro n hn
  rw [hg] at hn
  obtain ⟨e, -, hen⟩ := List.mem_map.mp hn
  rw [← hen]
  rfl

theorem BuiltBy.source (h : BuiltBy uuid5 casefold calls graphs) (hi : item ∈ graphs) :
    ∀ n ∈ item.2.nodes, n.sourceId = item.1.2 := by
  obtain ⟨call, -, hkey, hb⟩ := h item hi
  intro n hn
  rw [node_source hb n hn, ← hkey]

theorem BuiltBy.ends (h : BuiltBy uuid5 casefold calls graphs) (hi : item ∈ graphs) : ∀ e ∈ item.2.edges,
    (item.1.1, e.source) ∈ (item.2.nodes.map fun n => (item.1.1, n)).map (fun n => (n.1, n.2.id)) ∧
      (item.1.1, e.target) ∈ (item.2.nodes.map fun n => (item.1.1, n)).map fun n => (n.1, n.2.id) := by
  obtain ⟨call, -, -, hb⟩ := h item hi
  intro e he
  obtain ⟨hs, ht⟩ := build_endpoints hb e he
  have hmem : ∀ id, id ∈ item.2.nodes.map (·.id) →
      (item.1.1, id) ∈ (item.2.nodes.map fun n => (item.1.1, n)).map fun n => (n.1, n.2.id) := by
    intro id hid
    obtain ⟨n, hn, rfl⟩ := List.mem_map.mp hid
    rw [List.map_map]
    exact List.mem_map.mpr ⟨n, hn, rfl⟩
  exact ⟨hmem _ hs, hmem _ ht⟩

theorem mem_keys {id : UUID × UUID} (h : id ∈ (item.2.nodes.map fun n => (item.1.1, n)).map fun n => (n.1, n.2.id)) :
    id.1 = item.1.1 ∧ id.2 ∈ item.2.ids := by
  rw [List.map_map] at h
  obtain ⟨n, hn, rfl⟩ := List.mem_map.mp h
  exact ⟨rfl, List.mem_append_left _ (List.mem_map_of_mem hn)⟩

/-- No node of one graph has the id of a node of another. -/
theorem BuiltBy.disjoint (h : BuiltBy uuid5 casefold calls graphs) (hfree : NoCollision uuid5 casefold calls)
    (hi : item ∈ graphs) (ho : other ∈ graphs) (hne : item.1 ≠ other.1) :
    List.Disjoint ((item.2.nodes.map fun n => (item.1.1, n)).map fun n => (n.1, n.2.id))
      ((other.2.nodes.map fun n => (other.1.1, n)).map fun n => (n.1, n.2.id)) := by
  obtain ⟨call, hc, hkey, hb⟩ := h item hi
  obtain ⟨call', hc', hkey', hb'⟩ := h other ho
  intro id hid hid'
  have hne' : (call.tenantId, call.request.sourceId) ≠ (call'.tenantId, call'.request.sourceId) := by
    rw [hkey, hkey']
    exact hne
  exact ids_disjoint hfree hc' hc hb' hb hne' (mem_keys hid).2 (mem_keys hid').2

theorem BuiltBy.nodup (h : BuiltBy uuid5 casefold calls graphs) (hfree : NoCollision uuid5 casefold calls)
    (hkeys : (graphs.map Prod.fst).Nodup) : ((nodesOfAll graphs).map fun n => (n.1, n.2.id)).Nodup := by
  rw [nodesOfAll, List.map_flatMap, List.nodup_flatMap]
  constructor
  · intro item hi
    obtain ⟨call, hc, -, hb⟩ := h item hi
    obtain ⟨x, -, hwell⟩ := build_wellFormed (noCollision_of_mem hfree hc) hb
    rw [List.map_map]
    have hids : ((item.2.nodes.map (·.id)).map fun id => (item.1.1, id)).Nodup :=
      hwell.node_ids.map fun a b hab => (Prod.ext_iff.mp hab).2
    rw [List.map_map] at hids
    exact hids
  · rw [List.nodup_iff_pairwise_ne, List.pairwise_map] at hkeys
    exact hkeys.imp_of_mem fun hi ho hne => h.disjoint hfree hi ho hne

theorem mem_nodesOfAll {id : UUID × UUID} : id ∈ (nodesOfAll graphs).map (fun n => (n.1, n.2.id)) ↔
    ∃ item ∈ graphs, id ∈ (item.2.nodes.map fun n => (item.1.1, n)).map fun n => (n.1, n.2.id) := by
  rw [nodesOfAll, List.map_flatMap, List.mem_flatMap]

/-- The nodes that a source leaves when it goes are those of the other graphs. -/
theorem BuiltBy.filter_nodes (h : BuiltBy uuid5 casefold calls graphs) (key : UUID × UUID) :
    (nodesOfAll graphs).filter (fun n => ¬ (n.1 = key.1 ∧ n.2.sourceId = key.2)) =
      nodesOfAll (graphs.filter fun item => item.1 ≠ key) := by
  refine filter_flatMap_of (fun item hi hq y hy => ?_) fun item hi hq y hy => ?_
  · obtain ⟨n, hn, rfl⟩ := List.mem_map.mp hy
    have hne : item.1 ≠ key := of_decide_eq_true hq
    refine decide_eq_true fun hk => hne (Prod.ext hk.1 ?_)
    rw [← h.source hi n hn]
    exact hk.2
  · obtain ⟨n, hn, rfl⟩ := List.mem_map.mp hy
    have he : item.1 = key := not_not.mp (of_decide_eq_false hq)
    refine decide_eq_false (not_not.mpr ⟨congrArg Prod.fst he, ?_⟩)
    exact (h.source hi n hn).trans (congrArg Prod.snd he)

/-- An edge stays when its nodes stay, and they do so when it is of another graph. -/
theorem BuiltBy.filter_edges (h : BuiltBy uuid5 casefold calls graphs) (hfree : NoCollision uuid5 casefold calls)
    (key : UUID × UUID) {kept : List (UUID × UUID)} (hk : ∀ id, id ∈ kept ↔
      id ∈ (nodesOfAll (graphs.filter fun item => item.1 ≠ key)).map fun n => (n.1, n.2.id)) :
    (edgesOfAll graphs).filter (fun r => (r.1, r.2.source) ∈ kept ∧ (r.1, r.2.target) ∈ kept) =
      edgesOfAll (graphs.filter fun item => item.1 ≠ key) := by
  refine filter_flatMap_of (fun item hi hq y hy => ?_) fun item hi hq y hy => ?_
  · obtain ⟨e, he, rfl⟩ := List.mem_map.mp hy
    obtain ⟨hs, ht⟩ := h.ends hi e he
    have hin : item ∈ graphs.filter fun item => item.1 ≠ key := List.mem_filter.mpr ⟨hi, hq⟩
    exact decide_eq_true ⟨(hk _).mpr (mem_nodesOfAll.mpr ⟨item, hin, hs⟩),
      (hk _).mpr (mem_nodesOfAll.mpr ⟨item, hin, ht⟩)⟩
  · obtain ⟨e, he, rfl⟩ := List.mem_map.mp hy
    have hkey : item.1 = key := not_not.mp (of_decide_eq_false hq)
    refine decide_eq_false fun hin => ?_
    obtain ⟨other, ho, hs⟩ := mem_nodesOfAll.mp ((hk _).mp hin.1)
    obtain ⟨ho, hne⟩ := List.mem_filter.mp ho
    have hne : other.1 ≠ key := of_decide_eq_true hne
    exact h.disjoint hfree hi ho (fun he => hne (he.symm.trans hkey)) (h.ends hi e he).1 hs

theorem builtBy_run (uuid5 : UUID → String → UUID) (casefold : String → String) (calls : List Call) :
    BuiltBy uuid5 casefold calls (run uuid5 casefold calls).graphs :=
  fun _ hi => run_get (Dict.lookup_of_mem (run uuid5 casefold calls).keys_nodup hi)

theorem nodesOfAll_snoc (key : UUID × UUID) :
    nodesOfAll (graphs ++ [(key, g)]) = nodesOfAll graphs ++ g.nodes.map fun n => (key.1, n) := by
  rw [nodesOfAll, List.flatMap_append, List.flatMap_singleton, nodesOfAll]

theorem edgesOfAll_snoc (key : UUID × UUID) :
    edgesOfAll (graphs ++ [(key, g)]) = edgesOfAll graphs ++ g.edges.map fun e => (key.1, e) := by
  rw [edgesOfAll, List.flatMap_append, List.flatMap_singleton, edgesOfAll]

variable {neo4j : Neo4jGraphStore}

theorem replace_agrees (h : Agree neo4j (run uuid5 casefold calls))
    (hfree : NoCollision uuid5 casefold (calls ++ [call])) (hb : build uuid5 casefold call = .ok g) :
    ∃ after, neo4j.replace call.tenantId call.request.sourceId g = .ok after ∧
      Agree after ((run uuid5 casefold calls).replace call.tenantId call.request.sourceId g) := by
  have hbuilt : BuiltBy uuid5 casefold (calls ++ [call]) (run uuid5 casefold calls).graphs := by
    intro item hi
    obtain ⟨c, hc, hrest⟩ := builtBy_run uuid5 casefold calls item hi
    exact ⟨c, List.mem_append_left _ hc, hrest⟩
  have hafter := builtBy_run uuid5 casefold (calls ++ [call])
  rw [run_concat, persist, hb] at hafter
  have hset : ((run uuid5 casefold calls).replace call.tenantId call.request.sourceId g).graphs.Perm
      ((run uuid5 casefold calls).graphs.filter (fun item => item.1 ≠ (call.tenantId, call.request.sourceId)) ++
        [((call.tenantId, call.request.sourceId), g)]) := Dict.setItem_perm (run uuid5 casefold calls).keys_nodup
  -- the nodes that stay, and those that come
  have hstay := h.nodes.filter fun n => ¬ (n.1 = call.tenantId ∧ n.2.sourceId = call.request.sourceId)
  rw [hbuilt.filter_nodes (call.tenantId, call.request.sourceId)] at hstay
  have hnodes := hset.flatMap_right fun item => item.2.nodes.map fun n => (item.1.1, n)
  change (nodesOfAll _).Perm (nodesOfAll _) at hnodes
  rw [nodesOfAll_snoc] at hnodes
  have hall := (hstay.append_right (g.nodes.map fun n => (call.tenantId, n))).trans hnodes.symm
  have hnodup := (hall.map fun n => (n.1, n.2.id)).nodup_iff.mpr
    (hafter.nodup hfree ((run uuid5 casefold calls).replace _ _ g).keys_nodup)
  -- the edges
  have hedges := hset.flatMap_right fun item => item.2.edges.map fun e => (item.1.1, e)
  change (edgesOfAll _).Perm (edgesOfAll _) at hedges
  rw [edgesOfAll_snoc] at hedges
  have hkept := hbuilt.filter_edges hfree (call.tenantId, call.request.sourceId)
    (fun id => (hstay.map fun n => (n.1, n.2.id)).mem_iff (a := id))
  have hrelations := h.relations.filter fun r =>
    (r.1, r.2.source) ∈ (neo4j.nodes.filter fun n => ¬ (n.1 = call.tenantId ∧ n.2.sourceId = call.request.sourceId)).map
      (fun n => (n.1, n.2.id)) ∧
    (r.1, r.2.target) ∈ (neo4j.nodes.filter fun n => ¬ (n.1 = call.tenantId ∧ n.2.sourceId = call.request.sourceId)).map
      fun n => (n.1, n.2.id)
  rw [hkept] at hrelations
  have hnew : ∀ r ∈ g.edges.map (fun e => (call.tenantId, e)), ∀ nodes : List (UUID × GraphNode),
      (r.1, r.2.source) ∈ (nodes ++ g.nodes.map fun n => (call.tenantId, n)).map (fun n => (n.1, n.2.id)) ∧
        (r.1, r.2.target) ∈ (nodes ++ g.nodes.map fun n => (call.tenantId, n)).map fun n => (n.1, n.2.id) := by
    intro r hr nodes
    obtain ⟨e, he, rfl⟩ := List.mem_map.mp hr
    have hmem := (List.mem_append_right _ (List.mem_singleton_self ((call.tenantId, call.request.sourceId), g)) :
      _ ∈ (run uuid5 casefold calls).graphs.filter (fun item => item.1 ≠ (call.tenantId, call.request.sourceId)) ++ _)
    obtain ⟨hs, ht⟩ := hafter.ends (hset.mem_iff.mpr hmem) e he
    rw [List.map_append]
    exact ⟨List.mem_append_right _ hs, List.mem_append_right _ ht⟩
  refine ⟨_, dif_pos hnodup, hall, ?_⟩
  change (_ ++ (g.edges.map fun e => (call.tenantId, e)).filter _).Perm _
  rw [List.filter_eq_self.mpr fun r hr => decide_eq_true (hnew r hr _)]
  exact (hrelations.append_right _).trans hedges.symm

end Step

theorem KnowledgeGraphService.NoCollision.before {uuid5 : UUID → String → UUID} {casefold : String → String}
    {calls later : List Call} (h : NoCollision uuid5 casefold (calls ++ later)) : NoCollision uuid5 casefold calls := by
  intro p hp q hq he
  rw [NoCollision, List.flatMap_append] at h
  exact h p (List.mem_append_left _ hp) q (List.mem_append_left _ hq) he

theorem Neo4jGraphStore.run_concat (uuid5 : UUID → String → UUID) (casefold : String → String) (calls : List Call)
    (call : Call) : Neo4jGraphStore.run uuid5 casefold (calls ++ [call]) =
      (Neo4jGraphStore.persist uuid5 casefold (Neo4jGraphStore.run uuid5 casefold calls) call).2 := by
  rw [Neo4jGraphStore.run, List.foldl_append]
  rfl

theorem agree_run {uuid5 : UUID → String → UUID} {casefold : String → String} (calls : List Call)
    (hfree : NoCollision uuid5 casefold calls) :
    Agree (Neo4jGraphStore.run uuid5 casefold calls) (run uuid5 casefold calls) := by
  induction calls using List.reverseRecOn with
  | nil => exact ⟨List.Perm.refl [], List.Perm.refl []⟩
  | append_singleton calls call ih =>
    have h := ih hfree.before
    rw [Neo4jGraphStore.run_concat, Neo4jGraphStore.persist, run_concat, persist]
    cases hb : build uuid5 casefold call with
    | error e => exact h
    | ok g =>
      obtain ⟨after, hreplace, hafter⟩ := replace_agrees h hfree hb
      simp only [hreplace]
      exact hafter

/-- After any calls the two stores answer a call alike, and have the same nodes and edges of every tenant. -/
theorem stores_agree {uuid5 : UUID → String → UUID} {casefold : String → String} (calls : List Call) (call : Call)
    (hfree : NoCollision uuid5 casefold (calls ++ [call])) :
    (Neo4jGraphStore.persist uuid5 casefold (Neo4jGraphStore.run uuid5 casefold calls) call).1 =
        (persist uuid5 casefold (run uuid5 casefold calls) call).1.mapError .persist ∧
      ∀ tenantId,
        ((Neo4jGraphStore.run uuid5 casefold (calls ++ [call])).tenantNodes tenantId).Perm
            ((run uuid5 casefold (calls ++ [call])).all tenantId).1 ∧
          ((Neo4jGraphStore.run uuid5 casefold (calls ++ [call])).tenantEdges tenantId).Perm
            ((run uuid5 casefold (calls ++ [call])).all tenantId).2 := by
  refine ⟨?_, (agree_run _ hfree).tenant⟩
  rw [Neo4jGraphStore.persist, persist]
  cases hb : build uuid5 casefold call with
  | error e => rfl
  | ok g =>
    obtain ⟨after, hreplace, -⟩ := replace_agrees (agree_run calls hfree.before) hfree hb
    simp only [hreplace]
    rfl

/-- The two sources of a shop, and one of them anew. -/
theorem stores_agree_revised :
    (Neo4jGraphStore.persist shopId Text.lower (Neo4jGraphStore.run shopId Text.lower
        [revenueOf glossary "Revenue", revenueOf handbook "REVENUE"]) revised).1 =
      (persist shopId Text.lower (run shopId Text.lower [revenueOf glossary "Revenue", revenueOf handbook "REVENUE"])
        revised).1.mapError .persist ∧
    ((Neo4jGraphStore.run shopId Text.lower
      ([revenueOf glossary "Revenue", revenueOf handbook "REVENUE"] ++ [revised])).tenantNodes shop).length = 3 := by
  have hfree : NoCollision shopId Text.lower
      ([revenueOf glossary "Revenue", revenueOf handbook "REVENUE"] ++ [revised]) := by decide +kernel
  have hagree := stores_agree [revenueOf glossary "Revenue", revenueOf handbook "REVENUE"] revised hfree
  have hthree : ((run shopId Text.lower
      ([revenueOf glossary "Revenue", revenueOf handbook "REVENUE"] ++ [revised])).all shop).1.length = 3 := by
    decide +kernel
  exact ⟨hagree.1, (hagree.2 shop).1.length_eq.trans hthree⟩

end DataCopilot.KnowledgeGraph
