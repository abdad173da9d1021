import DataCopilot.Library.Dict
import DataCopilot.Library.Result
import DataCopilot.Library.Text
import DataCopilot.KnowledgeGraph.Extraction

/-! `KnowledgeGraphService.persist` over the graphs that a store keeps in memory, one for each
source of a tenant. -/
namespace DataCopilot.KnowledgeGraph

/-- The arguments of `persist`, with the time it reads. -/
structure Call where
  tenantId : UUID
  request : ExtractRequest
  extraction : ExtractionDump
  now : Nat

inductive PersistError where
  | validation (e : ValidationError)
  | value (message : String)
  | key (key : String)
deriving DecidableEq, Repr

theorem nodup_noKeys : (([] : List ((UUID × UUID) × Subgraph)).map Prod.fst).Nodup := List.nodup_nil

structure MemoryGraphStore where
  graphs : List ((UUID × UUID) × Subgraph) := []
  keys_nodup : (graphs.map Prod.fst).Nodup := by exact nodup_noKeys

namespace MemoryGraphStore

def replace (store : MemoryGraphStore) (tenantId sourceId : UUID) (graph : Subgraph) :
    MemoryGraphStore where
  graphs := Dict.setItem store.graphs ((tenantId, sourceId), graph)
  keys_nodup := Dict.nodup_keys_setItem store.keys_nodup

/-- `graphs.get((tenant_id, source_id))`. -/
def get (store : MemoryGraphStore) (key : UUID × UUID) : Option Subgraph := Dict.get? store.graphs key

/-- `_all`: the nodes and the edges of a tenant. -/
def all (store : MemoryGraphStore) (tenantId : UUID) : List GraphNode × List GraphEdge :=
  let graphs := (store.graphs.filter fun item => item.1.1 = tenantId).map Prod.snd
  (graphs.flatMap (·.nodes), graphs.flatMap (·.edges))

theorem get_replace (store : MemoryGraphStore) (tenantId sourceId : UUID) (graph : Subgraph)
    (key : UUID × UUID) : (store.replace tenantId sourceId graph).get key =
      if key = (tenantId, sourceId) then some graph else store.get key := by
  rw [get, replace, Dict.get?_setItem, get]

theorem all_replace (store : MemoryGraphStore) {tenantId other : UUID} (sourceId : UUID)
    (graph : Subgraph) (h : other ≠ tenantId) :
    (store.replace tenantId sourceId graph).all other = store.all other := by
  have hfilter : (Dict.setItem store.graphs ((tenantId, sourceId), graph)).filter
      (fun item => decide (item.1.1 = other)) = store.graphs.filter fun item => decide (item.1.1 = other) :=
    @Dict.filter_setItem _ _ _ store.graphs ((tenantId, sourceId), graph)
      (fun key => decide (key.1 = other)) (decide_eq_false (Ne.symm h))
  rw [all, all, replace, hfilter]

end MemoryGraphStore

/-- The name of a node under the tenant. -/
def entityName (sourceId : UUID) (kind : EntityKind) (folded : String) : String :=
  sourceId.text ++ ":" ++ kind.text ++ ":" ++ folded

/-- The name of an edge under the tenant. -/
def relationName (sourceId source : UUID) (kind : RelationKind) (target : UUID) : String :=
  sourceId.text ++ ":" ++ source.text ++ ":" ++ kind.text ++ ":" ++ target.text

/-- `ids[key]`. -/
def getItem (ids : List (String × UUID)) (key : String) : Except PersistError UUID :=
  match ids.lookup key with
  | some id => .ok id
  | none => .error (.key key)

namespace KnowledgeGraphService
variable (uuid5 : UUID → String → UUID) (casefold : String → String)

def entityId (call : Call) (e : EntityDraft) : UUID :=
  uuid5 call.tenantId (entityName call.request.sourceId e.kind (casefold e.name))

/-- The ids of the nodes by the local ids of the extraction. -/
def ids (call : Call) (extraction : Extraction casefold) : List (String × UUID) :=
  Dict.entries (extraction.entities.map fun e => (e.id, entityId uuid5 casefold call e))

def node (call : Call) (ids : List (String × UUID)) (e : EntityDraft) : Except PersistError GraphNode := do
  let id ← getItem ids e.id
  pure {
    id := id
    name := e.name
    kind := e.kind
    evidence := e.evidence
    confidence := e.confidence
    sourceId := call.request.sourceId
    sourceName := call.request.sourceName
    extractedAt := call.now }

def edge (call : Call) (ids : List (String × UUID)) (r : RelationDraft) : Except PersistError GraphEdge := do
  let source ← getItem ids r.source
  let target ← getItem ids r.target
  pure {
    id := uuid5 call.tenantId (relationName call.request.sourceId source r.kind target)
    source := source
    target := target
    kind := r.kind
    evidence := r.evidence
    confidence := r.confidence
    sourceId := call.request.sourceId
    sourceName := call.request.sourceName
    extractedAt := call.now }

/-- Every evidence is a part of the text. -/
def quoted (call : Call) (extraction : Extraction casefold) : Bool :=
  (extraction.entities.map (·.evidence) ++ extraction.relations.map (·.evidence)).all
    fun evidence => Text.contains call.request.text evidence

def build (call : Call) : Except PersistError Subgraph :=
  match Extraction.modelValidate casefold call.extraction with
  | .error e => .error (.validation e)
  | .ok extraction =>
    if quoted casefold call extraction then do
      let ids := ids uuid5 casefold call extraction
      let nodes ← extraction.entities.mapM (node call ids)
      let edges ← extraction.relations.mapM (edge uuid5 call ids)
      -- Deduplicate repeated relationships before persistence.
      pure { nodes := nodes, edges := Dict.valuesBy (·.id) edges }
    else .error (.value "extracted evidence is not an exact quote from source")

def persist (store : MemoryGraphStore) (call : Call) : Except PersistError Subgraph × MemoryGraphStore :=
  match build uuid5 casefold call with
  | .error e => (.error e, store)
  | .ok graph => (.ok graph, store.replace call.tenantId call.request.sourceId graph)

/-- The store after the calls, from an empty one. -/
def run (calls : List Call) : MemoryGraphStore :=
  calls.foldl (fun store call => (persist uuid5 casefold store call).2) {}

/-- What a call hands to `uuid5`. -/
def hashed (call : Call) : List (UUID × String) :=
  match Extraction.modelValidate casefold call.extraction with
  | .error _ => []
  | .ok extraction =>
    let ids := ids uuid5 casefold call extraction
    extraction.entities.map (fun e =>
      (call.tenantId, entityName call.request.sourceId e.kind (casefold e.name))) ++
    extraction.relations.filterMap fun r => do
      let source ← ids.lookup r.source
      let target ← ids.lookup r.target
      pure (call.tenantId, relationName call.request.sourceId source r.kind target)

/-- `uuid5` is injective on what the calls hand to it. -/
def NoCollision (calls : List Call) : Prop :=
  ∀ p ∈ calls.flatMap (hashed uuid5 casefold), ∀ q ∈ calls.flatMap (hashed uuid5 casefold),
    uuid5 p.1 p.2 = uuid5 q.1 q.2 → p = q

instance (calls : List Call) : Decidable (NoCollision uuid5 casefold calls) :=
  inferInstanceAs (Decidable (∀ p ∈ _, ∀ q ∈ _, _ → _))

end KnowledgeGraphService
end DataCopilot.KnowledgeGraph
