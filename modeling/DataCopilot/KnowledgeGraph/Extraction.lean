import Mathlib.Data.List.Dedup
import DataCopilot.KnowledgeGraph.Models

/-! What a model extracts from a text, and the checks that `Extraction.model_validate` makes of it. -/
namespace DataCopilot.KnowledgeGraph

structure EntityDraft where
  id : String
  name : String
  kind : EntityKind
  evidence : String
  confidence : ℚ
deriving DecidableEq

structure RelationDraft where
  source : String
  target : String
  kind : RelationKind
  evidence : String
  confidence : ℚ
deriving DecidableEq

/-- `extraction.model_dump()`, where no bound is checked. -/
structure ExtractionDump where
  entities : List EntityDraft
  relations : List RelationDraft

/-- `Field(min_length=1, max_length=limit)`. -/
def bounded (text : String) (limit : Nat) : Bool := 1 ≤ text.length && text.length ≤ limit

/-- `Field(ge=0, le=1)`. -/
def isConfidence (x : ℚ) : Bool := 0 ≤ x && x ≤ 1

/-- The fields whose check fails. -/
def refusedFields (fields : List (String × Bool)) : List String :=
  (fields.filter fun f => !f.2).map Prod.fst

def EntityDraft.refused (e : EntityDraft) : List String :=
  refusedFields [("id", bounded e.id 80), ("name", bounded e.name 160),
    ("evidence", bounded e.evidence 1000), ("confidence", isConfidence e.confidence)]

def RelationDraft.refused (r : RelationDraft) : List String :=
  refusedFields [("source", bounded r.source 80), ("target", bounded r.target 80),
    ("evidence", bounded r.evidence 1000), ("confidence", isConfidence r.confidence)]

/-- The field paths under a list of at most `limit` items. -/
def refusedItems {α : Type} (field : String) (limit : Nat) (refused : α → List String)
    (items : List α) : List (List String) :=
  if limit < items.length then [[field]]
  else items.zipIdx.flatMap fun p => (refused p.1).map fun f => [field, toString p.2, f]

theorem refusedItems_eq_nil {α : Type} {field : String} {limit : Nat} {refused : α → List String}
    {items : List α} : refusedItems field limit refused items = [] ↔
      items.length ≤ limit ∧ ∀ item ∈ items, refused item = [] := by
  rw [refusedItems]
  by_cases h : limit < items.length
  · rw [if_pos h]
    constructor
    · intro hn
      cases hn
    · intro hn
      omega
  · rw [if_neg h, List.flatMap_eq_nil_iff]
    constructor
    · intro hn
      refine ⟨by omega, fun item hitem => ?_⟩
      obtain ⟨i, hi, hget⟩ := List.getElem_of_mem hitem
      have hmem : (item, i) ∈ items.zipIdx := by
        rw [List.mem_zipIdx_iff_getElem?, List.getElem?_eq_getElem hi, hget]
      exact List.map_eq_nil_iff.mp (hn (item, i) hmem)
    · intro hn p hp
      rw [hn.2 p.1 (List.fst_mem_of_mem_zipIdx hp), List.map_nil]

inductive ValidationError where
  | fields (locs : List (List String))
  | value (message : String)
deriving DecidableEq, Repr

/-- An extraction that was validated: names are told apart by their case folding. -/
structure Extraction (casefold : String → String) where
  entities : List EntityDraft
  relations : List RelationDraft
  entities_ok : entities.length ≤ 100 ∧ ∀ e ∈ entities, e.refused = []
  relations_ok : relations.length ≤ 200 ∧ ∀ r ∈ relations, r.refused = []
  ids : (entities.map (·.id)).Nodup
  names : (entities.map fun e => (e.kind, casefold e.name)).Nodup
  references : ∀ r ∈ relations, r.source ∈ entities.map (·.id) ∧ r.target ∈ entities.map (·.id)

/-- `len(l) == len(set(l))`. -/
theorem nodup_of_length_dedup {α : Type} [DecidableEq α] {l : List α}
    (h : l.length = l.dedup.length) : l.Nodup := by
  have he : l.dedup = l := (List.dedup_sublist l).eq_of_length h.symm
  rw [← he]
  exact List.nodup_dedup l

/-- `Extraction.model_validate`: the bounds of the fields, then `validate_references`. -/
def Extraction.modelValidate (casefold : String → String) (dump : ExtractionDump) :
    Except ValidationError (Extraction casefold) :=
  let refused := refusedItems "entities" 100 EntityDraft.refused dump.entities ++
    refusedItems "relations" 200 RelationDraft.refused dump.relations
  let ids := dump.entities.map (·.id)
  let names := dump.entities.map fun e => (e.kind, casefold e.name)
  if hfields : refused = [] then
    if hids : ids.length = ids.dedup.length then
      if hnames : names.length = names.dedup.length then
        if hrelations : ∀ r ∈ dump.relations, r.source ∈ ids ∧ r.target ∈ ids then
          .ok {
            entities := dump.entities
            relations := dump.relations
            entities_ok := refusedItems_eq_nil.mp (List.append_eq_nil_iff.mp hfields).1
            relations_ok := refusedItems_eq_nil.mp (List.append_eq_nil_iff.mp hfields).2
            ids := nodup_of_length_dedup hids
            names := nodup_of_length_dedup hnames
            references := hrelations }
        else .error (.value "relation refers to unknown entity")
      else .error (.value "duplicate entity name and kind")
    else .error (.value "duplicate entity id")
  else .error (.fields refused)

end DataCopilot.KnowledgeGraph
