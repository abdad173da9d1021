import DataCopilot.KnowledgeGraph.GraphRuns
import DataCopilot.KnowledgeGraph.Repository

/-! The search for a path in the graph of a tenant ends, with a shortest path where there is one. -/
namespace DataCopilot.KnowledgeGraph

/-- The subgraph is a simple path of least length, with the nodes on it. -/
def IsShortestPath (nodes : List GraphNode) (edges : List GraphEdge) (source target : String) (depth : Nat)
    (g : Subgraph) : Prop :=
  ∃ vs, Walk GraphEdge.ends edges source g.edges vs target ∧ vs.Nodup ∧ g.edges.length ≤ depth ∧
    (∀ es ws, Walk GraphEdge.ends edges source es ws target → g.edges.length ≤ es.length) ∧
    (g.nodes.map (·.id.text)).Perm vs ∧ ∀ n ∈ g.nodes, n ∈ nodes

/-- Both ids are nodes, and a path of at most `depth` edges is between them. -/
def Connected (nodes : List GraphNode) (edges : List GraphEdge) (source target : String) (depth : Nat) : Prop :=
  source ∈ nodes.map (·.id.text) ∧ target ∈ nodes.map (·.id.text) ∧
    Within GraphEdge.ends edges depth source target

namespace MemoryGraphStore
variable {nodes : List GraphNode} {edges : List GraphEdge} {key : String}

theorem mem_of_lookup {n : GraphNode} (h : lookup nodes key = some n) : n ∈ nodes ∧ n.id.text = key := by
  obtain ⟨before, after, he, _⟩ := Dict.ofPairs_eq_some.mp h
  have hmem : (key, n) ∈ nodes.map fun n => (n.id.text, n) := by
    rw [he]
    exact List.mem_append_right before List.mem_cons_self
  obtain ⟨n', hn', hpair⟩ := List.mem_map.mp hmem
  cases hpair
  exact ⟨hn', rfl⟩

theorem lookup_eq_none : lookup nodes key = none ↔ key ∉ nodes.map (·.id.text) := by
  rw [lookup, Dict.ofPairs_eq_none]
  simp only [List.mem_map, forall_exists_index, and_imp, forall_apply_eq_imp_iff₂, not_exists, not_and]

/-- Under each of the ids there is one of the nodes. -/
theorem nodesOf_ok {visited : List String} (h : ∀ key ∈ visited, key ∈ nodes.map (·.id.text)) :
    ∃ found, nodesOf nodes visited = .ok found ∧ (found.map (·.id.text)).Perm visited ∧
      ∀ n ∈ found, n ∈ nodes := by
  have hsorted := List.perm_insertionSort (· ≤ ·) visited
  obtain ⟨found, hr⟩ : ∃ found, nodesOf nodes visited = .ok found := by
    apply Result.exists_mapM
    intro key hkey
    have hmem := h key (hsorted.mem_iff.mp hkey)
    cases hl : lookup nodes key with
    | none => exact absurd hmem (lookup_eq_none.mp hl)
    | some n => exact ⟨n, rfl⟩
  have heach : List.Forall₂ (fun key n => n ∈ nodes ∧ n.id.text = key) (visited.insertionSort (· ≤ ·)) found := by
    apply Result.forall₂_of_mem (Result.mapM_eq_ok_iff.mp hr)
    intro key n _ hn
    cases hl : lookup nodes key with
    | none =>
      rw [hl] at hn
      cases hn
    | some n' =>
      rw [hl] at hn
      cases hn
      exact mem_of_lookup hl
  have hids : found.map (·.id.text) = visited.insertionSort (· ≤ ·) := by
    rw [← List.forall₂_eq_eq_eq, List.forall₂_map_left_iff]
    exact (heach.imp fun _ _ h => h.2).flip
  refine ⟨found, hr, hids ▸ hsorted, ?_⟩
  intro n hn
  obtain ⟨key, _, hkey⟩ := Result.mem_of_forall₂ heach.flip n hn
  exact hkey.1

/-- In a graph whose edges join its nodes the search ends, and finds a shortest path. -/
theorem path_total (store : MemoryGraphStore) (tenantId : UUID) (source target : String) (depth : Nat)
    (hends : ∀ e ∈ (store.all tenantId).2, e.source.text ∈ (store.all tenantId).1.map (·.id.text) ∧
      e.target.text ∈ (store.all tenantId).1.map (·.id.text)) :
    ∃ g, (∀ fuel, ((store.all tenantId).2.length + 1) ^ (depth + 1) < fuel →
        store.path tenantId source target depth fuel = some (.ok g)) ∧
      (Connected (store.all tenantId).1 (store.all tenantId).2 source target depth ∧
          IsShortestPath (store.all tenantId).1 (store.all tenantId).2 source target depth g ∨
        ¬ Connected (store.all tenantId).1 (store.all tenantId).2 source target depth ∧ g = {}) := by
  by_cases hnodes : lookup (store.all tenantId).1 source = none ∨ lookup (store.all tenantId).1 target = none
  · refine ⟨{}, fun fuel _ => by simp only [path, if_pos hnodes], .inr ⟨?_, rfl⟩⟩
    rw [lookup_eq_none, lookup_eq_none] at hnodes
    intro h
    cases hnodes with
    | inl hs => exact hs h.1
    | inr ht => exact ht h.2.1
  · have hboth := not_or.mp hnodes
    rw [lookup_eq_none, lookup_eq_none, not_not, not_not] at hboth
    obtain ⟨r, hr, hrun⟩ := RouteSearch.search_total GraphEdge.ends (store.all tenantId).2 source target depth
    cases r with
    | none =>
      refine ⟨{}, ?_, .inr ⟨fun h => hr h.2.2, rfl⟩⟩
      intro fuel hfuel
      simp only [path, if_neg hnodes, hrun fuel hfuel]
    | some x =>
      obtain ⟨hnode, hpath, hleast⟩ := hr
      obtain ⟨found, hok, hperm, hmem⟩ := nodesOf_ok (hpath.walk.vertices_of hboth.1 hends)
      have hwalk := hnode ▸ hpath.walk
      refine ⟨{ nodes := found, edges := x.route }, ?_, .inl ⟨?_, ?_⟩⟩
      · intro fuel hfuel
        simp only [path, if_neg hnodes, hrun fuel hfuel, hok]
        rfl
      · exact ⟨hboth.1, hboth.2, x.route, x.visited, hwalk, hpath.length⟩
      · exact ⟨x.visited, hwalk, hpath.nodup, hpath.length, hleast, hperm, hmem⟩

end MemoryGraphStore

namespace KnowledgeGraphService
variable {uuid5 : UUID → String → UUID} {casefold : String → String}

/-- Every edge of a tenant joins two of its nodes. -/
theorem run_ends (calls : List Call) (tenantId : UUID) :
    ∀ e ∈ ((run uuid5 casefold calls).all tenantId).2,
      e.source.text ∈ ((run uuid5 casefold calls).all tenantId).1.map (·.id.text) ∧
      e.target.text ∈ ((run uuid5 casefold calls).all tenantId).1.map (·.id.text) := by
  intro e he
  simp only [MemoryGraphStore.all] at he ⊢
  obtain ⟨g, hg, he⟩ := List.mem_flatMap.mp he
  obtain ⟨item, hitem, hsnd⟩ := List.mem_map.mp hg
  have hget : (run uuid5 casefold calls).get item.1 = some item.2 :=
    Dict.lookup_of_mem (run uuid5 casefold calls).keys_nodup (List.mem_filter.mp hitem).1
  rw [hsnd] at hget
  obtain ⟨call, _, _, hbuilt⟩ := run_get hget
  have hends := build_endpoints hbuilt e he
  have hmem : ∀ id ∈ g.nodes.map (·.id), id.text ∈
      ((((run uuid5 casefold calls).graphs.filter fun item => item.1.1 = tenantId).map Prod.snd).flatMap
        (·.nodes)).map (·.id.text) := by
    intro id hid
    obtain ⟨n, hn, hnid⟩ := List.mem_map.mp hid
    rw [← hnid]
    exact List.mem_map_of_mem (List.mem_flatMap.mpr ⟨g, hg, hn⟩)
  exact ⟨hmem _ hends.1, hmem _ hends.2⟩

/-- Over the graph that any calls have stored the search for a path ends, and gives a subgraph with
nodes just when there is a path within the depth, which then is a shortest one. -/
theorem path_shortest (calls : List Call) (tenantId : UUID) (source target : String) (depth : Nat) :
    let nodes := ((run uuid5 casefold calls).all tenantId).1
    let edges := ((run uuid5 casefold calls).all tenantId).2
    ∃ g enough, (∀ fuel, enough < fuel →
        (run uuid5 casefold calls).path tenantId source target depth fuel = some (.ok g)) ∧
      (g.nodes ≠ [] ↔ Connected nodes edges source target depth) ∧
      (g.nodes ≠ [] → IsShortestPath nodes edges source target depth g) ∧ (g.nodes = [] → g = {}) := by
  intro nodes edges
  obtain ⟨g, hrun, hcases⟩ := MemoryGraphStore.path_total (run uuid5 casefold calls) tenantId source target depth
    (run_ends calls tenantId)
  refine ⟨g, _, hrun, ?_⟩
  cases hcases with
  | inl h =>
    have hne : g.nodes ≠ [] := by
      obtain ⟨vs, hwalk, _, _, _, hperm, _⟩ := h.2
      intro hnil
      rw [hnil, List.map_nil] at hperm
      have hstart := hperm.mem_iff.mpr hwalk.start_mem
      cases hstart
    exact ⟨⟨fun _ => h.1, fun _ => hne⟩, fun _ => h.2, fun hnil => absurd hnil hne⟩
  | inr h =>
    have hnil : g.nodes = [] := by rw [h.2]
    exact ⟨⟨fun hne => absurd hnil hne, fun hc => absurd hc h.1⟩, fun hne => absurd hnil hne, fun _ => h.2⟩

end KnowledgeGraphService
end DataCopilot.KnowledgeGraph
