import Mathlib.Data.List.Sort
import DataCopilot.Library.RouteSearch
import DataCopilot.KnowledgeGraph.Persist

/-! What the two graph stores give of a tenant's graph around a query: the one in memory from its
dictionary, the one in Neo4j from two Cypher queries. -/
namespace DataCopilot.KnowledgeGraph

/-- The ids at the ends of the edge. -/
def GraphEdge.ends (e : GraphEdge) : String × String := (e.source.text, e.target.text)

/-- `_matches`. -/
def nameMatches (casefold : String → String) (name query : String) : Bool :=
  Text.contains (casefold query) (casefold name) || Text.contains (casefold name) (casefold query)

/-- The edges between the nodes of these ids. -/
def edgesAmong (chosen : List String) (edges : List GraphEdge) : List GraphEdge :=
  edges.filter fun e => e.source.text ∈ chosen ∧ e.target.text ∈ chosen

inductive GraphError where
  | value (message : String)
  | constraint (name : String)
  | key (key : String)
deriving DecidableEq, Repr

namespace MemoryGraphStore

/-- One round of the loop: the other ends of the edges at selected ids. -/
def adjacent (edges : List GraphEdge) (selected : List String) : List String :=
  ((edges.filter fun e => e.source.text ∈ selected).map fun e => e.target.text) ∪
    ((edges.filter fun e => e.target.text ∈ selected).map fun e => e.source.text)

def selected (edges : List GraphEdge) (seeds : List String) : Nat → List String
  | 0 => seeds
  | depth + 1 => selected edges seeds depth ∪ adjacent edges (selected edges seeds depth)

def subgraph (casefold : String → String) (store : MemoryGraphStore) (tenantId : UUID) (query : String)
    (depth limit : Nat) : Subgraph :=
  let (nodes, edges) := store.all tenantId
  let seeds := ((nodes.filter fun n => query = "" ∨ nameMatches casefold n.name query).map
    (·.id.text)).take (limit + 1)
  let selected := selected edges seeds depth
  let found := nodes.filter fun n => n.id.text ∈ selected
  let chosen := (found.take limit).map (·.id.text)
  { nodes := found.take limit
    edges := (edgesAmong chosen edges).take 200
    truncated := limit < found.length }

/-- `lookup`: the last node of each id. -/
def lookup (nodes : List GraphNode) (key : String) : Option GraphNode :=
  Dict.ofPairs (nodes.map fun n => (n.id.text, n)) key

/-- `[lookup[key] for key in sorted(visited)]`. -/
def nodesOf (nodes : List GraphNode) (visited : List String) : Except GraphError (List GraphNode) :=
  (visited.insertionSort (· ≤ ·)).mapM fun key =>
    match lookup nodes key with
    | some n => .ok n
    | none => .error (.key key)

/-- `path` with at most `fuel` passes of its loop. -/
def path (store : MemoryGraphStore) (tenantId : UUID) (source target : String) (depth fuel : Nat) :
    Option (Except GraphError Subgraph) :=
  let (nodes, edges) := store.all tenantId
  if lookup nodes source = none ∨ lookup nodes target = none then some (.ok {})
  else
    match Loop.run (RouteSearch.pass GraphEdge.ends edges target depth) fuel [⟨source, [], [source]⟩] with
    | none => none
    | some none => some (.ok {})
    | some (some x) => some do
      let nodes ← nodesOf nodes x.visited
      .ok { nodes := nodes, edges := x.route }

end MemoryGraphStore

/-- The entities and relationships of every tenant. A node is known by its tenant and id, which
the constraint `entity_identity` keeps unique; a relationship joins two nodes of its tenant. -/
structure Neo4jGraphStore where
  nodes : List (UUID × GraphNode) := []
  relations : List (UUID × GraphEdge) := []
  entity_identity : (nodes.map fun n => (n.1, n.2.id)).Nodup := by simp
  joined : ∀ r ∈ relations, (r.1, r.2.source) ∈ nodes.map (fun n => (n.1, n.2.id)) ∧
    (r.1, r.2.target) ∈ nodes.map (fun n => (n.1, n.2.id)) := by simp

namespace Neo4jGraphStore

/-- The transaction of `replace`, which a broken constraint rolls back. -/
def replace (store : Neo4jGraphStore) (tenantId sourceId : UUID) (graph : Subgraph) :
    Except GraphError Neo4jGraphStore :=
  let nodes := (store.nodes.filter fun n => ¬ (n.1 = tenantId ∧ n.2.sourceId = sourceId)) ++
    graph.nodes.map fun n => (tenantId, n)
  let keys := nodes.map fun n => (n.1, n.2.id)
  -- A deleted node takes its relationships with it, and an edge without both of its nodes is not created.
  let kept := (store.nodes.filter fun n => ¬ (n.1 = tenantId ∧ n.2.sourceId = sourceId)).map
    fun n => (n.1, n.2.id)
  let relations :=
    (store.relations.filter fun r => (r.1, r.2.source) ∈ kept ∧ (r.1, r.2.target) ∈ kept) ++
    ((graph.edges.map fun e => (tenantId, e)).filter fun r =>
      (r.1, r.2.source) ∈ keys ∧ (r.1, r.2.target) ∈ keys)
  if h : keys.Nodup then
    .ok {
      nodes := nodes
      relations := relations
      entity_identity := h
      joined := by
        intro r hr
        cases List.mem_append.mp hr with
        | inl hr =>
          have hkept := of_decide_eq_true (List.mem_filter.mp hr).2
          have hsub : kept ⊆ keys := List.map_subset _ (List.subset_append_left _ _)
          exact ⟨hsub hkept.1, hsub hkept.2⟩
        | inr hr => exact of_decide_eq_true (List.mem_filter.mp hr).2 }
  else .error (.constraint "entity_identity")

def tenantNodes (store : Neo4jGraphStore) (tenantId : UUID) : List GraphNode :=
  (store.nodes.filter fun n => n.1 = tenantId).map Prod.snd

def tenantEdges (store : Neo4jGraphStore) (tenantId : UUID) : List GraphEdge :=
  (store.relations.filter fun r => r.1 = tenantId).map Prod.snd

/-- `$q = '' OR toLower(seed.name) CONTAINS $q OR $q CONTAINS toLower(seed.name)`. -/
def seedMatches (toLower : String → String) (q name : String) : Bool :=
  q = "" || Text.contains (toLower name) q || Text.contains q (toLower name)

/-- The seeds in the order of their ids, as many as the query lets through. -/
def seeds (casefold toLower : String → String) (nodes : List GraphNode) (query : String) (limit : Nat) :
    List GraphNode :=
  ((nodes.filter fun n => seedMatches toLower (casefold query) n.name).insertionSort
    fun a b => a.id.text ≤ b.id.text).take (if query = "" then limit + 1 else min 10 (limit + 1))

/-- The nodes at the end of a path from a seed. Relationships are told apart by their place in the
store, and none comes twice in a path. -/
def expand (nodes : List GraphNode) (edges : List GraphEdge) (depth : Nat) (seed : GraphNode) :
    List GraphNode :=
  (trailEnds (fun r => r.1.ends) edges.zipIdx depth [] seed.id.text).flatMap fun key =>
    nodes.filter fun n => n.id.text = key

def subgraph (casefold toLower : String → String) (store : Neo4jGraphStore) (tenantId : UUID)
    (query : String) (depth limit : Nat) : Except GraphError Subgraph :=
  if depth ≤ 3 ∧ 1 ≤ limit ∧ limit ≤ 100 then
    let all := store.tenantNodes tenantId
    let found := (seeds casefold toLower all query limit).flatMap
      (expand all (store.tenantEdges tenantId) depth)
    let nodes := (found.dedup.insertionSort fun a b => a.id.text ≤ b.id.text).take (limit + 1)
    let ids := (nodes.take limit).map (·.id.text)
    let edges := ((edgesAmong ids (store.tenantEdges tenantId)).insertionSort
      fun a b => a.id.text ≤ b.id.text).take 201
    .ok {
      nodes := nodes.take limit
      edges := edges.take 200
      truncated := decide (limit < nodes.length) || decide (200 < edges.length) }
  else .error (.value "invalid graph bounds")

end Neo4jGraphStore
end DataCopilot.KnowledgeGraph
