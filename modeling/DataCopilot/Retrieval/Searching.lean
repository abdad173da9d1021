import DataCopilot.Retrieval.Revisions

/-! The searches of the two repositories, over what a repository has for a tenant. Those of PostgreSQL are
the ones in exact mode, which choose the rows of the tenant before they order them. -/
namespace DataCopilot.Retrieval
open Text

namespace InMemoryRepository

/-- `lexical_tokens`, `_cosine_counts` and `cosine_similarity`, the scores as rational numbers. -/
structure Similarity where
  lower : String → String
  lexicalTokens : String → List String
  cosineCounts : List String → List String → ℚ
  cosineSimilarity : List ℚ → List ℚ → ℚ

/-- The key `(-item.score, item.chunk.ordinal, str(item.chunk.id))`. -/
def itemLe (a b : RankedChunk) : Bool :=
  b.score < a.score || a.score = b.score && (a.chunk.ordinal < b.chunk.ordinal ||
    a.chunk.ordinal = b.chunk.ordinal && a.chunk.id.text ≤ b.chunk.id.text)

def ranked (score : MetricChunk → ℚ) (chunks : List MetricChunk) (limit : Nat) : List RankedChunk :=
  let items := (chunks.map fun chunk => ⟨chunk, score chunk⟩).filter fun item : RankedChunk => 0 < item.score
  (items.mergeSort itemLe).take limit

variable (m : Similarity)

/-- The score of a chunk whose section title is not blank. -/
def lexicalScore (query : String) (chunk : MetricChunk) : ℚ :=
  let document := chunk.documentTitle ++ " " ++ chunk.sectionTitle ++ " " ++ chunk.content
  let score := m.cosineCounts (m.lexicalTokens query) (m.lexicalTokens document)
  let primaryLabel := m.lower ((words chunk.sectionTitle).headD "")
  if primaryLabel ≠ "" ∧ contains (m.lower query) primaryLabel then score + 1 else score

def searches : Searches (List MetricChunk) where
  lexicalSearch chunks query := ranked (lexicalScore m query) chunks
  vectorSearch chunks embedding := ranked (fun chunk => m.cosineSimilarity embedding chunk.embedding) chunks

end InMemoryRepository

namespace MetricTables

/-- What PostgreSQL computes of a row: `ts_rank_cd` where it matches the query, and `<=>`. -/
structure Operators where
  rankCd : MetricChunkRow → String → Option ℚ
  distance : List ℚ → List ℚ → ℚ

/-- The order of both searches. Rows that tie stay in the order of the table. -/
def rowLe (a b : RankedChunk) : Bool :=
  b.score < a.score || a.score = b.score && a.chunk.ordinal ≤ b.chunk.ordinal

def metricChunk (title : String) (row : MetricChunkRow) : MetricChunk where
  id := row.id
  tenantId := row.tenantId
  documentId := row.documentId
  documentTitle := title
  documentVersion := row.documentVersion
  sectionKey := row.chunk.sectionKey
  sectionTitle := row.chunk.sectionTitle
  sourceLocator := row.chunk.sourceLocator
  ordinal := row.chunk.ordinal
  content := row.chunk.content
  embedding := row.chunk.embedding

def selected (score : MetricChunkRow → Option ℚ) (rows : List (String × MetricChunkRow)) (limit : Nat) :
    List RankedChunk :=
  let items := rows.filterMap fun row => (score row.2).map (RankedChunk.mk (metricChunk row.1 row.2))
  (items.mergeSort rowLe).take limit

variable (o : Operators) (embeddingProfile : String)

/-- The score of a row among the candidates of the search. -/
def vectorScore (embedding : List ℚ) (row : MetricChunkRow) : Option ℚ :=
  if row.embeddingProfile = embeddingProfile ∧ row.chunk.embedding.length = embedding.length then
    some (1 - o.distance row.chunk.embedding embedding)
  else none

/-- What the searches give where they give something: over chunks of two profiles `vector_search` raises. -/
def exactSearches : Searches (List (String × MetricChunkRow)) where
  lexicalSearch rows query := selected (fun row => o.rankCd row query) rows
  vectorSearch rows embedding := selected (vectorScore o embeddingProfile embedding) rows

end MetricTables
end DataCopilot.Retrieval
