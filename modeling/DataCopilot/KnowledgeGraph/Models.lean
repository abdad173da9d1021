import Mathlib.Data.Rat.Defs
import DataCopilot.Library.Uuid

/-! The nodes and edges of the knowledge graph, with the evidence they rest on. -/
namespace DataCopilot.KnowledgeGraph

inductive EntityKind where
  | metric | table | column | businessTerm | document | dataSource
deriving DecidableEq, Repr

inductive RelationKind where
  | definedIn | derivedFrom | usesColumn | belongsTo | relatedTo | joinsWith
deriving DecidableEq, Repr

/-- The text of the literal. -/
def EntityKind.text : EntityKind → String
  | metric => "Metric"
  | table => "Table"
  | column => "Column"
  | businessTerm => "BusinessTerm"
  | document => "Document"
  | dataSource => "DataSource"

/-- The text of the literal. -/
def RelationKind.text : RelationKind → String
  | definedIn => "DEFINED_IN"
  | derivedFrom => "DERIVED_FROM"
  | usesColumn => "USES_COLUMN"
  | belongsTo => "BELONGS_TO"
  | relatedTo => "RELATED_TO"
  | joinsWith => "JOINS_WITH"

/-- A stored node; its id is the text of a `uuid5`. -/
structure GraphNode where
  id : UUID
  name : String
  kind : EntityKind
  sourceId : UUID
  sourceName : String
  evidence : String
  confidence : ℚ
  extractedAt : Nat
deriving DecidableEq

structure GraphEdge where
  id : UUID
  source : UUID
  target : UUID
  kind : RelationKind
  sourceId : UUID
  sourceName : String
  evidence : String
  confidence : ℚ
  extractedAt : Nat
deriving DecidableEq

structure Subgraph where
  nodes : List GraphNode := []
  edges : List GraphEdge := []
  truncated : Bool := false

structure ExtractRequest where
  sourceId : UUID
  sourceName : String
  text : String
  sourceName_ok : 1 ≤ sourceName.length ∧ sourceName.length ≤ 255
  text_ok : 1 ≤ text.length ∧ text.length ≤ 20000

end DataCopilot.KnowledgeGraph
