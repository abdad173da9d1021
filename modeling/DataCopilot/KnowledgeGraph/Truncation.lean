import DataCopilot.KnowledgeGraph.Repository

/-! When a subgraph that is not marked as truncated is all there is around the matches. -/
namespace DataCopilot.KnowledgeGraph
open scoped List

section Honest
variable (casefold : String → String) (nodes : List GraphNode) (edges : List GraphEdge)

/-- The entities whose name matches the query. -/
def matching (query : String) : List GraphNode :=
  nodes.filter fun n => query = "" ∨ nameMatches casefold n.name query

/-- The entities within `depth` undirected steps of one of the seeds. -/
def around (depth : Nat) (seeds : List GraphNode) : List GraphNode :=
  nodes.filter fun n => ∃ s ∈ seeds, Within GraphEdge.ends edges depth s.id.text n.id.text

/-- Unless it is marked as truncated, the subgraph has every entity near a match and every relation
between its entities. -/
def Honest (query : String) (depth : Nat) (sub : Subgraph) : Prop :=
  sub.truncated = false →
    sub.nodes.Perm (around nodes edges depth (matching casefold nodes query)) ∧
    sub.edges.Perm (edgesAmong (sub.nodes.map (·.id.text)) edges)

end Honest

section Lists
variable {nodes : List GraphNode} {edges : List GraphEdge} {seeds found : List GraphNode} {depth : Nat}

theorem mem_around {n : GraphNode} : n ∈ around nodes edges depth seeds ↔
    n ∈ nodes ∧ ∃ s ∈ seeds, Within GraphEdge.ends edges depth s.id.text n.id.text := by
  rw [around, List.mem_filter, decide_eq_true_iff]

/-- A seed is near itself. -/
theorem sublist_around (h : seeds <+ nodes) : seeds <+ around nodes edges depth seeds := by
  have hseeds : seeds.filter (fun n =>
      decide (∃ s ∈ seeds, Within GraphEdge.ends edges depth s.id.text n.id.text)) = seeds := by
    apply List.filter_eq_self.mpr
    intro s hs
    exact decide_eq_true ⟨s, hs, Within.refl depth _⟩
  have hfilter := h.filter fun n =>
    decide (∃ s ∈ seeds, Within GraphEdge.ends edges depth s.id.text n.id.text)
  rw [hseeds] at hfilter
  exact hfilter

theorem edgesAmong_perm (h : seeds.Perm found) : edgesAmong (seeds.map (·.id.text)) edges =
    edgesAmong (found.map (·.id.text)) edges := by
  have hmem : ∀ key, key ∈ seeds.map (·.id.text) ↔ key ∈ found.map (·.id.text) := by
    intro key
    exact (h.map _).mem_iff
  simp only [edgesAmong, hmem]

end Lists

/-- Two choices from one list that are a permutation of each other are the same. -/
theorem eq_of_filter_perm {α : Type} {l : List α} {p q : α → Bool} (h : (l.filter p).Perm (l.filter q)) :
    l.filter p = l.filter q := by
  apply List.filter_congr
  intro x hx
  have hmem := h.mem_iff (a := x)
  rw [List.mem_filter, List.mem_filter] at hmem
  rw [Bool.eq_iff_iff]
  exact ⟨fun hp => (hmem.mp ⟨hx, hp⟩).2, fun hq => (hmem.mpr ⟨hx, hq⟩).2⟩

section Fetched
variable {α : Type} {l : List α} {n : Nat}

/-- One more is fetched than is shown. -/
theorem take_fetched : (l.take (n + 1)).take n = l.take n := by
  rw [List.take_take, Nat.min_eq_left (Nat.le_succ n)]

theorem over_fetched : decide (n < (l.take (n + 1)).length) = false ↔ l.length ≤ n := by
  rw [decide_eq_false_iff_not, List.length_take]
  omega

end Fetched

namespace MemoryGraphStore
variable {edges : List GraphEdge} {nodes seeds : List GraphNode} {depth : Nat}

theorem mem_adjacent {selected : List String} {key : String} :
    key ∈ adjacent edges selected ↔ ∃ a ∈ selected, ∃ e ∈ edges, Joins e.ends a key := by
  simp only [adjacent, List.mem_union_iff, List.mem_map, List.mem_filter, decide_eq_true_eq, Joins,
    GraphEdge.ends, Prod.mk.injEq]
  constructor
  · intro h
    cases h with
    | inl h =>
      obtain ⟨e, ⟨he, hs⟩, ht⟩ := h
      exact ⟨_, hs, e, he, .inl ⟨rfl, ht⟩⟩
    | inr h =>
      obtain ⟨e, ⟨he, ht⟩, hs⟩ := h
      exact ⟨_, ht, e, he, .inr ⟨hs, rfl⟩⟩
  · intro h
    obtain ⟨a, ha, e, he, hends⟩ := h
    cases hends with
    | inl hends => exact .inl ⟨e, ⟨he, hends.1 ▸ ha⟩, hends.2⟩
    | inr hends => exact .inr ⟨e, ⟨he, hends.2 ▸ ha⟩, hends.1⟩

/-- The rounds of the loop select what is within as many steps. -/
theorem mem_selected {seeds : List String} {key : String} : key ∈ selected edges seeds depth ↔
    ∃ s ∈ seeds, Within GraphEdge.ends edges depth s key := by
  induction depth generalizing key with
  | zero => simp only [selected, Within.zero_iff, exists_eq_right]
  | succ depth ih =>
    simp only [selected, List.mem_union_iff, mem_adjacent, ih, Within.succ_iff]
    constructor
    · intro h
      cases h with
      | inl h =>
        obtain ⟨s, hs, hwithin⟩ := h
        exact ⟨s, hs, .inl hwithin⟩
      | inr h =>
        obtain ⟨a, ⟨s, hs, hwithin⟩, hedge⟩ := h
        exact ⟨s, hs, .inr ⟨a, hwithin, hedge⟩⟩
    · intro h
      obtain ⟨s, hs, hwithin⟩ := h
      cases hwithin with
      | inl hwithin => exact .inl ⟨s, hs, hwithin⟩
      | inr hwithin =>
        obtain ⟨a, hwithin, hedge⟩ := hwithin
        exact .inr ⟨a, ⟨s, hs, hwithin⟩, hedge⟩

theorem filter_selected : nodes.filter (fun n => decide (n.id.text ∈ selected edges (seeds.map (·.id.text)) depth)) =
    around nodes edges depth seeds := by
  apply List.filter_congr
  intro n _
  rw [decide_eq_decide, mem_selected]
  simp only [List.mem_map, exists_exists_and_eq_and]

/-- Seeds that are cut show: with as many of them the subgraph is over the limit. -/
theorem around_take {limit : Nat} (h : seeds <+ nodes)
    (hlimit : (around nodes edges depth (seeds.take (limit + 1))).length ≤ limit) :
    seeds.take (limit + 1) = seeds := by
  apply List.take_of_length_le
  have hle : (seeds.take (limit + 1)).length ≤
      (around nodes edges depth (seeds.take (limit + 1))).length :=
    (sublist_around ((List.take_sublist (limit + 1) seeds).trans h)).length_le
  rw [List.length_take] at hle
  omega

theorem subgraph_eq (casefold : String → String) (store : MemoryGraphStore) (tenantId : UUID)
    (query : String) (limit : Nat) : store.subgraph casefold tenantId query depth limit =
      let found := around (store.all tenantId).1 (store.all tenantId).2 depth
        ((matching casefold (store.all tenantId).1 query).take (limit + 1))
      { nodes := found.take limit
        edges := (edgesAmong ((found.take limit).map (·.id.text)) (store.all tenantId).2).take 200
        truncated := limit < found.length } := by
  simp only [subgraph, ← List.map_take, filter_selected]
  rfl

/-- Only the cut of the edges is not shown. -/
theorem subgraph_honest_iff (casefold : String → String) (store : MemoryGraphStore) (tenantId : UUID)
    (query : String) (limit : Nat) :
    let near := around (store.all tenantId).1 (store.all tenantId).2 depth
      (matching casefold (store.all tenantId).1 query)
    Honest casefold (store.all tenantId).1 (store.all tenantId).2 query depth
        (store.subgraph casefold tenantId query depth limit) ↔
      (near.length ≤ limit → (edgesAmong (near.map (·.id.text)) (store.all tenantId).2).length ≤ 200) := by
  intro near
  have hmatching : matching casefold (store.all tenantId).1 query <+ (store.all tenantId).1 :=
    List.filter_sublist
  have hnear : near.length ≤ limit →
      (matching casefold (store.all tenantId).1 query).take (limit + 1) =
        matching casefold (store.all tenantId).1 query := by
    intro hlength
    apply List.take_of_length_le
    have hle : (matching casefold (store.all tenantId).1 query).length ≤ near.length :=
      (sublist_around hmatching).length_le
    exact (hle.trans hlength).trans (Nat.le_succ limit)
  rw [subgraph_eq, Honest]
  simp only [decide_eq_false_iff_not, Nat.not_lt]
  constructor
  · intro h hlength
    rw [hnear hlength] at h
    have hparts := h hlength
    rw [List.take_of_length_le hlength] at hparts
    have hcount := hparts.2.length_eq
    rw [List.length_take] at hcount
    omega
  · intro h hlength
    have hall := around_take hmatching hlength
    rw [hall] at hlength ⊢
    rw [List.take_of_length_le hlength, List.take_of_length_le (h hlength)]
    exact ⟨.rfl, .rfl⟩

end MemoryGraphStore

namespace Neo4jGraphStore
variable {store : Neo4jGraphStore} {tenantId : UUID} {nodes : List GraphNode} {edges : List GraphEdge}
variable {depth : Nat}

theorem nodup_tenantNodes : (store.tenantNodes tenantId).Nodup := by
  have hnodup := (List.Nodup.of_map _ store.entity_identity).filter fun n => n.1 = tenantId
  apply List.Nodup.map_on _ hnodup
  intro n hn n' hn' h
  have ht := of_decide_eq_true (List.mem_filter.mp hn).2
  have ht' := of_decide_eq_true (List.mem_filter.mp hn').2
  exact Prod.ext (ht.trans ht'.symm) h

theorem within_zipIdx {a b : String} :
    Within (fun r => r.1.ends) edges.zipIdx depth a b ↔ Within GraphEdge.ends edges depth a b := by
  have hmap : Within (fun r : GraphEdge × Nat => r.1.ends) edges.zipIdx depth a b ↔
      Within GraphEdge.ends (edges.zipIdx.map Prod.fst) depth a b := Within.map_iff
  rw [hmap, List.zipIdx_map_fst]

theorem mem_expand {seed n : GraphNode} : n ∈ expand nodes edges depth seed ↔
    n ∈ nodes ∧ Within GraphEdge.ends edges depth seed.id.text n.id.text := by
  simp only [expand, List.mem_flatMap, mem_trailEnds_nil, within_zipIdx, List.mem_filter,
    decide_eq_true_eq]
  constructor
  · intro h
    obtain ⟨key, hkey, hn, he⟩ := h
    exact ⟨hn, he ▸ hkey⟩
  · intro h
    exact ⟨_, h.2, h.1, rfl⟩

/-- The rows of the first query are the entities around the seeds that were taken. -/
theorem rows_perm {seeds : List GraphNode} (h : nodes.Nodup) :
    (seeds.flatMap (expand nodes edges depth)).dedup.Perm (around nodes edges depth seeds) := by
  have haround : (around nodes edges depth seeds).Nodup := h.filter _
  rw [List.perm_ext_iff_of_nodup (List.nodup_dedup _) haround]
  intro n
  rw [List.mem_dedup, List.mem_flatMap, mem_around]
  simp only [mem_expand]
  constructor
  · intro h
    obtain ⟨s, hs, hn, hwithin⟩ := h
    exact ⟨hn, s, hs, hwithin⟩
  · intro h
    obtain ⟨hn, s, hs, hwithin⟩ := h
    exact ⟨s, hs, hn, hwithin⟩

theorem subgraph_ok (casefold toLower : String → String) (store : Neo4jGraphStore) (tenantId : UUID)
    (query : String) {limit : Nat} (hdepth : depth ≤ 3) (hlow : 1 ≤ limit) (hhigh : limit ≤ 100) :
    ∃ sub, store.subgraph casefold toLower tenantId query depth limit = .ok sub := by
  rw [subgraph, if_pos ⟨hdepth, hlow, hhigh⟩]
  exact ⟨_, rfl⟩

/-- The flag shows the cut of the nodes and that of the edges, but not that of the seeds, and the
seeds are those of the query's own comparison. -/
theorem subgraph_honest_iff (casefold toLower : String → String) (query : String) {limit : Nat} {sub : Subgraph}
    (h : store.subgraph casefold toLower tenantId query depth limit = .ok sub) :
    let taken := seeds casefold toLower (store.tenantNodes tenantId) query limit
    let reached := around (store.tenantNodes tenantId) (store.tenantEdges tenantId) depth taken
    Honest casefold (store.tenantNodes tenantId) (store.tenantEdges tenantId) query depth sub ↔
      (reached.length ≤ limit →
        (edgesAmong (reached.map (·.id.text)) (store.tenantEdges tenantId)).length ≤ 200 →
        reached = around (store.tenantNodes tenantId) (store.tenantEdges tenantId) depth
          (matching casefold (store.tenantNodes tenantId) query)) := by
  intro taken reached
  rw [subgraph] at h
  split at h
  · cases h
    have hrows : (taken.flatMap (expand (store.tenantNodes tenantId) (store.tenantEdges tenantId)
        depth)).dedup.Perm reached := rows_perm nodup_tenantNodes
    have hsorted := (List.perm_insertionSort (fun a b : GraphNode => a.id.text ≤ b.id.text) _).trans hrows
    have hids := @edgesAmong_perm (store.tenantEdges tenantId) _ _ hsorted
    have hedges := List.perm_insertionSort (fun a b : GraphEdge => a.id.text ≤ b.id.text)
      (edgesAmong (reached.map (·.id.text)) (store.tenantEdges tenantId))
    generalize ((taken.flatMap (expand (store.tenantNodes tenantId) (store.tenantEdges tenantId) depth)).dedup).insertionSort
      (fun a b : GraphNode => a.id.text ≤ b.id.text) = rows at hsorted hids ⊢
    rw [Honest]
    simp only [take_fetched, Bool.or_eq_false_iff, over_fetched]
    constructor
    · intro h hlength hcount
      rw [← hsorted.length_eq] at hlength
      rw [List.take_of_length_le hlength, hids, hedges.length_eq] at h
      have hnear := hsorted.symm.trans (h ⟨hlength, hcount⟩).1
      exact eq_of_filter_perm hnear
    · intro h hshown
      obtain ⟨hlength, hcount⟩ := hshown
      rw [List.take_of_length_le hlength, hids] at hcount ⊢
      rw [List.take_of_length_le hcount]
      rw [hedges.length_eq] at hcount
      rw [hsorted.length_eq] at hlength
      rw [← h hlength hcount]
      exact ⟨hsorted, hedges⟩
  · cases h

/-- With a comparison that agrees with the query's own, a subgraph around at most ten matches is honest, and so is
one around all entities. -/
theorem honest_of_few (casefold toLower : String → String) (query : String) {limit : Nat} {sub : Subgraph}
    (h : store.subgraph casefold toLower tenantId query depth limit = .ok sub)
    (hsame : ∀ n ∈ store.tenantNodes tenantId, seedMatches toLower (casefold query) n.name = true ↔
      query = "" ∨ nameMatches casefold n.name query = true)
    (hfew : query = "" ∨ (matching casefold (store.tenantNodes tenantId) query).length ≤ min 10 (limit + 1)) :
    Honest casefold (store.tenantNodes tenantId) (store.tenantEdges tenantId) query depth sub := by
  refine (subgraph_honest_iff casefold toLower query h).mpr fun hreached _ => ?_
  have hmatching : (store.tenantNodes tenantId).filter (fun n => seedMatches toLower (casefold query) n.name) =
      matching casefold (store.tenantNodes tenantId) query := by
    apply List.filter_congr
    intro n hn
    rw [Bool.eq_iff_iff, decide_eq_true_iff]
    exact hsame n hn
  rw [seeds, hmatching] at hreached ⊢
  have hsorted := List.perm_insertionSort (fun a b : GraphNode => a.id.text ≤ b.id.text)
    (matching casefold (store.tenantNodes tenantId) query)
  generalize (matching casefold (store.tenantNodes tenantId) query).insertionSort
    (fun a b => a.id.text ≤ b.id.text) = sorted at hsorted hreached ⊢
  have hall : sorted.take (if query = "" then limit + 1 else min 10 (limit + 1)) = sorted := by
    apply List.take_of_length_le
    by_cases hq : query = ""
    · -- Each seed is reached, so that not all places were taken.
      rw [if_pos hq] at hreached ⊢
      have hnodup : (sorted.take (limit + 1)).Nodup :=
        (hsorted.nodup_iff.mpr (nodup_tenantNodes.filter _)).sublist (List.take_sublist _ _)
      have hsub : sorted.take (limit + 1) ⊆ around (store.tenantNodes tenantId) (store.tenantEdges tenantId) depth
          (sorted.take (limit + 1)) := by
        intro n hn
        have hnode : n ∈ store.tenantNodes tenantId :=
          (List.mem_filter.mp (hsorted.mem_iff.mp (List.mem_of_mem_take hn))).1
        exact mem_around.mpr ⟨hnode, n, hn, Within.refl depth _⟩
      have hlength := hnodup.length_le_of_subset hsub
      rw [List.length_take] at hlength
      omega
    · rw [if_neg hq, hsorted.length_eq]
      exact hfew.resolve_left hq
  rw [hall]
  apply List.filter_congr
  intro n _
  simp only [hsorted.mem_iff]

end Neo4jGraphStore

/-- Which of the subgraphs that are not marked as truncated are complete. -/
theorem truncated_honest_iff (casefold toLower : String → String) (memory : MemoryGraphStore)
    (neo4j : Neo4jGraphStore) (tenantId : UUID) (query : String) {depth limit : Nat} (hdepth : depth ≤ 3)
    (hlow : 1 ≤ limit) (hhigh : limit ≤ 100) :
    (let nodes := (memory.all tenantId).1
      let edges := (memory.all tenantId).2
      let near := around nodes edges depth (matching casefold nodes query)
      Honest casefold nodes edges query depth (memory.subgraph casefold tenantId query depth limit) ↔
        (near.length ≤ limit → (edgesAmong (near.map (·.id.text)) edges).length ≤ 200)) ∧
    (let nodes := neo4j.tenantNodes tenantId
      let edges := neo4j.tenantEdges tenantId
      let reached := around nodes edges depth (Neo4jGraphStore.seeds casefold toLower nodes query limit)
      ∃ sub, neo4j.subgraph casefold toLower tenantId query depth limit = .ok sub ∧
        (Honest casefold nodes edges query depth sub ↔
          (reached.length ≤ limit → (edgesAmong (reached.map (·.id.text)) edges).length ≤ 200 →
            reached = around nodes edges depth (matching casefold nodes query)))) := by
  constructor
  · exact MemoryGraphStore.subgraph_honest_iff casefold memory tenantId query limit
  · obtain ⟨sub, hsub⟩ := neo4j.subgraph_ok casefold toLower tenantId query hdepth hlow hhigh
    exact ⟨sub, hsub, Neo4jGraphStore.subgraph_honest_iff casefold toLower query hsub⟩

section Dense

/-- An id with the digits of the number at its front. -/
def numbered (n : Nat) : UUID :=
  let text := String.ofList [Nat.digitChar (n % 16), Nat.digitChar (n / 16 % 16), Nat.digitChar (n / 256)] ++
    "00000-0000-4000-8000-000000000000"
  if h : isCanonical text = true then ⟨text, h⟩ else ⟨"00000000-0000-4000-8000-000000000000", by decide⟩

def nodeNumbered (sourceId : UUID) (name : String) (n : Nat) : GraphNode where
  id := numbered n
  name := name
  kind := .column
  sourceId := sourceId
  sourceName := "metrics.md"
  evidence := "amount"
  confidence := 1
  extractedAt := 0

/-- Six columns with three relations from each to each. -/
def dense (s : Nat) : Subgraph where
  nodes := (List.range 6).map fun i => nodeNumbered (numbered s) "amount" (6 * s + i)
  edges := (List.range 6).flatMap fun i => (List.range 6).flatMap fun j =>
    [RelationKind.derivedFrom, RelationKind.usesColumn, RelationKind.relatedTo].zipIdx.map fun k => {
      id := numbered (108 * s + 18 * i + 3 * j + k.2)
      source := numbered (6 * s + i)
      target := numbered (6 * s + j)
      kind := k.1
      sourceId := numbered s
      sourceName := "metrics.md"
      evidence := "amount"
      confidence := 1
      extractedAt := 0 }

def twoSources : MemoryGraphStore :=
  (({} : MemoryGraphStore).replace (numbered 0) (numbered 1) (dense 1)).replace (numbered 0) (numbered 2) (dense 2)

def elevenColumns : Neo4jGraphStore where
  nodes := (List.range 11).map fun i => (numbered 0, nodeNumbered (numbered 1) "amount" (i + 1))
  entity_identity := by decide +kernel

/-- In memory 216 relations are cut to 200, and in Neo4j eleven matches to ten, without the flag. -/
theorem truncated_dishonest :
    ¬ Honest Text.lower (twoSources.all (numbered 0)).1 (twoSources.all (numbered 0)).2 "" 0
      (twoSources.subgraph Text.lower (numbered 0) "" 0 100) ∧
    ∃ sub, elevenColumns.subgraph Text.lower Text.lower (numbered 0) "amount" 0 100 = .ok sub ∧
      ¬ Honest Text.lower (elevenColumns.tenantNodes (numbered 0)) (elevenColumns.tenantEdges (numbered 0))
        "amount" 0 sub := by
  constructor
  · intro h
    have hshown := (MemoryGraphStore.subgraph_honest_iff Text.lower twoSources (numbered 0) "" 100).mp h
    exact absurd hshown (by decide +kernel)
  · have hbounds : 0 ≤ 3 ∧ 1 ≤ 100 ∧ 100 ≤ 100 := by decide
    obtain ⟨sub, hsub⟩ := elevenColumns.subgraph_ok Text.lower Text.lower (numbered 0) "amount" hbounds.1
      hbounds.2.1 hbounds.2.2
    refine ⟨sub, hsub, ?_⟩
    intro h
    have hshown := (Neo4jGraphStore.subgraph_honest_iff Text.lower Text.lower "amount" hsub).mp h
    exact absurd hshown (by decide +kernel)

/-- One of two columns matches, and a relation leads to the other. -/
def pair : Subgraph where
  nodes := [nodeNumbered (numbered 1) "amount" 1, nodeNumbered (numbered 1) "price" 2]
  edges := [⟨numbered 3, numbered 1, numbered 2, .derivedFrom, numbered 1, "metrics.md", "amount", 1, 0⟩]

def pairInMemory : MemoryGraphStore := ({} : MemoryGraphStore).replace (numbered 0) (numbered 1) pair

def pairInNeo4j : Neo4jGraphStore where
  nodes := pair.nodes.map fun n => (numbered 0, n)
  relations := pair.edges.map fun e => (numbered 0, e)
  entity_identity := by decide +kernel
  joined := by decide +kernel

theorem truncated_honest_pair :
    (Honest Text.lower (pairInMemory.all (numbered 0)).1 (pairInMemory.all (numbered 0)).2 "amount" 1
      (pairInMemory.subgraph Text.lower (numbered 0) "amount" 1 5)) ∧
    ∃ sub, pairInNeo4j.subgraph Text.lower Text.lower (numbered 0) "amount" 1 5 = .ok sub ∧
      Honest Text.lower (pairInNeo4j.tenantNodes (numbered 0)) (pairInNeo4j.tenantEdges (numbered 0))
        "amount" 1 sub := by
  have hboth := truncated_honest_iff Text.lower Text.lower pairInMemory pairInNeo4j (numbered 0) "amount"
    (show 1 ≤ 3 by decide) (show 1 ≤ 5 by decide) (by decide)
  obtain ⟨sub, hsub, hiff⟩ := hboth.2
  exact ⟨hboth.1.mpr (by decide +kernel), sub, hsub, hiff.mpr (by decide +kernel)⟩

end Dense
end DataCopilot.KnowledgeGraph
