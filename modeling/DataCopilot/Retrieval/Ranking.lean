import Mathlib.Algebra.Order.Ring.Rat
import DataCopilot.Library.Dict
import DataCopilot.Library.Text
import DataCopilot.Retrieval.Repository

/-! From the rankings of the two searches to the result of `retrieve`. Scores are rational numbers. -/
namespace DataCopilot.Retrieval
open Text

inductive RetrievalMode where
  | lexical
  | vector
  | hybrid
  | hybridRerank
deriving DecidableEq, Repr

/-- `mode in ("lexical", "hybrid", "hybrid_rerank")`. -/
def RetrievalMode.hasLexical : RetrievalMode → Bool
  | .lexical | .hybrid | .hybridRerank => true
  | .vector => false

/-- `mode in ("vector", "hybrid", "hybrid_rerank")`. -/
def RetrievalMode.hasVector : RetrievalMode → Bool
  | .vector | .hybrid | .hybridRerank => true
  | .lexical => false

structure MetricChunk where
  id : UUID
  tenantId : UUID
  documentId : UUID
  documentTitle : String
  documentVersion : Nat
  sectionKey : String
  sectionTitle : String
  sourceLocator : String
  ordinal : Nat
  content : String
  embedding : List ℚ
deriving DecidableEq

structure RankedChunk where
  chunk : MetricChunk
  score : ℚ
deriving DecidableEq

structure Citation where
  documentId : UUID
  documentTitle : String
  documentVersion : Nat
  sectionKey : String
  sectionTitle : String
  sourceLocator : String
deriving DecidableEq

structure RetrievalHit where
  content : String
  citation : Citation
  lexicalScore : Option ℚ
  vectorScore : Option ℚ
  fusedScore : ℚ
  rerankScore : Option ℚ := none
deriving DecidableEq

structure RetrievalResult where
  query : String
  mode : RetrievalMode
  corpusRevision : String
  hits : List RetrievalHit
  citations : List Citation
  shouldAnswer : Bool
deriving DecidableEq

/-- What `retrieve` goes on with after its checks. -/
structure RetrieveArguments where
  tenantId : UUID
  query : String
  mode : RetrievalMode
  limit : Nat
deriving DecidableEq

/-- The searches of a repository, as functions of what it has for a tenant. -/
structure Searches (χ : Type) where
  lexicalSearch : χ → String → Nat → List RankedChunk
  vectorSearch : χ → List ℚ → Nat → List RankedChunk

theorem defaultRrfK_ok : 0 < 60 := by decide

theorem defaultLimit_ok : 1 ≤ 5 ∧ 5 ≤ 20 := by decide

structure MetricRetrievalService where
  embed : String → List ℚ
  reranker : Option (String → List RetrievalHit → List RetrievalHit) := none
  defaultLimit : Nat := 5
  rrfK : Nat := 60
  minLexicalScore : ℚ := 8 / 100
  minVectorScore : ℚ := 26 / 100
  rrfK_ok : 0 < rrfK := by first | exact defaultRrfK_ok | decide
  defaultLimit_ok : 1 ≤ defaultLimit ∧ defaultLimit ≤ 20 := by
    first | exact Retrieval.defaultLimit_ok | decide

def MetricChunk.citation (c : MetricChunk) : Citation where
  documentId := c.documentId
  documentTitle := c.documentTitle
  documentVersion := c.documentVersion
  sectionKey := c.sectionKey
  sectionTitle := c.sectionTitle
  sourceLocator := c.sourceLocator

/-- `fused[id] = fused.get(id, 0.0) + amount`. -/
def addScore (fused : List (UUID × ℚ)) (id : UUID) (amount : ℚ) : List (UUID × ℚ) :=
  Dict.setItem fused (id, (fused.lookup id).getD 0 + amount)

/-- The item of a fused score: a higher score first, then the id. -/
def fusedLe (a b : UUID × ℚ) : Bool := b.2 < a.2 || a.2 = b.2 && a.1.text ≤ b.1.text

namespace MetricRetrievalService
variable (S : MetricRetrievalService)

/-- The arguments of `retrieve`, or the text of its `ValueError`. -/
def arguments (tenantId : UUID) (query : String) (mode : RetrievalMode) (limit : Option Int) :
    Except String RetrieveArguments :=
  let normalizedQuery := joinWith " " (words query)
  if normalizedQuery = "" ∨ 4000 < normalizedQuery.length then
    .error "query must contain between 1 and 4000 characters"
  else
    let limit := limit.getD S.defaultLimit
    if 1 ≤ limit ∧ limit ≤ 20 then .ok ⟨tenantId, normalizedQuery, mode, limit.toNat⟩
    else .error "limit must be between 1 and 20"

/-- The scores that one ranking adds, the first rank being 1. -/
def fuse (weight : ℚ) : List RankedChunk → Nat → List (UUID × ℚ) → List (UUID × ℚ)
  | [], _, fused => fused
  | item :: rest, rank, fused =>
    fuse weight rest (rank + 1) (addScore fused item.chunk.id (weight / ((S.rrfK : ℚ) + rank)))

/-- `order`. -/
def order (lexical vector : List RankedChunk) : RetrievalMode → List (UUID × ℚ)
  | .lexical => lexical.map fun item => (item.chunk.id, max 0 item.score)
  | .vector => vector.map fun item => (item.chunk.id, max 0 item.score)
  | .hybrid | .hybridRerank => (S.fuse 1 vector 1 (S.fuse 3 lexical 1 [])).mergeSort fusedLe

/-- `_rank`. -/
def rank (lexical vector : List RankedChunk) (mode : RetrievalMode) : List RetrievalHit :=
  let lexicalById := Dict.ofPairs (lexical.map fun item => (item.chunk.id, item))
  let vectorById := Dict.ofPairs (vector.map fun item => (item.chunk.id, item))
  (S.order lexical vector mode).filterMap fun (id, fusedScore) =>
    (lexicalById id <|> vectorById id).map fun item => {
      content := item.chunk.content
      citation := item.chunk.citation
      lexicalScore := (lexicalById id).map RankedChunk.score
      vectorScore := (vectorById id).map RankedChunk.score
      fusedScore := fusedScore }

/-- `_has_evidence`. A vector score of 0 counts as none, which is -1. -/
def hasEvidence (hits : List RetrievalHit) (mode : RetrievalMode) : Bool :=
  if hits = [] then false
  else if mode.hasLexical && hits.any fun hit => S.minLexicalScore ≤ hit.lexicalScore.getD 0 then true
  else mode.hasVector && hits.any fun hit =>
    S.minVectorScore ≤ if hit.vectorScore.getD 0 = 0 then -1 else hit.vectorScore.getD 0

def candidateLimit (limit : Nat) : Nat := min 100 (max (limit * 4) 20)

/-- What `retrieve` makes of the two rankings. `none` is the `ValueError` of a mode that has no reranker. -/
def result (a : RetrieveArguments) (revision : String) (lexical vector : List RankedChunk) :
    Option RetrievalResult :=
  let hits := S.rank lexical vector a.mode
  let reranked := if a.mode = .hybridRerank then S.reranker.map fun rerank => rerank a.query hits else some hits
  reranked.map fun hits =>
    let hits := hits.take a.limit
    { query := a.query
      mode := a.mode
      corpusRevision := revision
      hits := hits
      citations := hits.map RetrievalHit.citation
      shouldAnswer := S.hasEvidence hits a.mode }

variable {χ : Type} (Q : Searches χ)

def lexical (corpus : χ) (a : RetrieveArguments) : List RankedChunk :=
  if a.mode.hasLexical then Q.lexicalSearch corpus a.query (candidateLimit a.limit) else []

def vector (corpus : χ) (a : RetrieveArguments) : List RankedChunk :=
  if a.mode.hasVector then Q.vectorSearch corpus (S.embed a.query) (candidateLimit a.limit) else []

/-- `retrieve` past the cache, on one corpus and its revision. -/
def uncached (corpus : χ) (revision : String) (a : RetrieveArguments) : Option RetrievalResult :=
  S.result a revision (lexical Q corpus a) (S.vector Q corpus a)

end MetricRetrievalService

variable {S : MetricRetrievalService} {a : RetrieveArguments} {revision : String}
variable {lexical vector : List RankedChunk} {result : RetrievalResult}

/-- A result names the query, the mode and the revision that it was computed for. -/
theorem MetricRetrievalService.result_key (h : S.result a revision lexical vector = some result) :
    result.query = a.query ∧ result.mode = a.mode ∧ result.corpusRevision = revision := by
  rw [MetricRetrievalService.result, Option.map_eq_some_iff] at h
  obtain ⟨hits, -, hr⟩ := h
  rw [← hr]
  exact ⟨rfl, rfl, rfl⟩

end DataCopilot.Retrieval
