import DataCopilot.Library.Binary64
import DataCopilot.Retrieval.Ranking

/-! The HTTP adapters for embeddings and reranking. What they read of a response is whatever JSON the provider
wrote; the counters that nothing reads are left out. -/
namespace DataCopilot.Retrieval
open Py

/-- What leaves an adapter. -/
inductive ProviderFailure where
  | retrievalProviderError
  | python (e : PyError)
deriving DecidableEq, Repr

/-- How one POST ends. `response.json()` of an `invalidBody` is a `ValueError`, and that of a body
`tooDeep` for the recursion limit a `RecursionError`. -/
inductive HttpReply where
  | transportError
  | otherError
  | status (code : Nat)
  | invalidBody
  | tooDeep
  | json (v : Value)

namespace HttpReply

def transient : HttpReply → Bool
  | transportError => true
  | status code => code = 429 || 500 ≤ code
  | _ => false

end HttpReply

/-- The attempts of `post_json` that are left, the next one being `attempt`. -/
def postJson (replies : Nat → HttpReply) : Nat → Nat → Except ProviderFailure (List (String × Value))
  | 0, _ => .error .retrievalProviderError
  | left + 1, attempt =>
    match replies attempt with
    | .json (.dict fields) => .ok fields
    | .tooDeep => .error (.python .recursionError)
    | reply =>
      if !reply.transient || left = 0 then .error .retrievalProviderError
      else postJson replies left (attempt + 1)

/-- The first reply that is not tried again nests too deeply. -/
def TooDeep (replies : Nat → HttpReply) (attempts : Nat) : Prop :=
  ∃ k < attempts, replies k = .tooDeep ∧ ∀ j < k, (replies j).transient = true

section Attempts
variable {replies : Nat → HttpReply} {attempts attempt left : Nat}

theorem postJson_retry (h : (replies attempt).transient = true) (hl : left ≠ 0) :
    postJson replies (left + 1) attempt = postJson replies left (attempt + 1) := by
  rw [postJson]
  cases hr : replies attempt with
  | transportError => simp [HttpReply.transient, hl]
  | status code =>
    rw [hr] at h
    simp [h, hl]
  | _ =>
    rw [hr] at h
    cases h

theorem postJson_error {e : ProviderFailure} (h : postJson replies attempts attempt = .error e) :
    e = .retrievalProviderError ∨ e = .python .recursionError := by
  induction attempts generalizing attempt with
  | zero =>
    cases h
    exact .inl rfl
  | succ left ih =>
    rw [postJson] at h
    split at h
    · cases h
    · cases h
      exact .inr rfl
    · split at h
      · cases h
        exact .inl rfl
      · exact ih h

theorem postJson_ok {fields : List (String × Value)} (h : postJson replies attempts attempt = .ok fields) :
    ∃ k, replies k = .json (.dict fields) := by
  induction attempts generalizing attempt with
  | zero => cases h
  | succ left ih =>
    rw [postJson] at h
    split at h
    · cases h
      exact ⟨attempt, ‹_›⟩
    · cases h
    · split at h
      · cases h
      · exact ih h

theorem postJson_recursion : postJson replies attempts attempt = .error (.python .recursionError) ↔
    ∃ k < attempts, replies (attempt + k) = .tooDeep ∧
      ∀ j < k, (replies (attempt + j)).transient = true := by
  induction attempts generalizing attempt with
  | zero =>
    constructor
    · intro h
      cases h
    · rintro ⟨k, hk, -⟩
      exact absurd hk (Nat.not_lt_zero k)
  | succ left ih =>
    have hshift : ∀ k, attempt + 1 + k = attempt + (k + 1) := fun k => by omega
    constructor
    · intro h
      rw [postJson] at h
      split at h
      · cases h
      · exact ⟨0, Nat.succ_pos left, ‹_›, fun j hj => absurd hj (Nat.not_lt_zero j)⟩
      · split at h
        · cases h
        · rename_i hretry
          rw [Bool.or_eq_true, not_or, Bool.not_eq_true, Bool.not_eq_false'] at hretry
          obtain ⟨k, hk, hdeep, hbefore⟩ := ih.mp h
          refine ⟨k + 1, by omega, by rw [← hshift]; exact hdeep, fun j hj => ?_⟩
          cases j with
          | zero => exact hretry.1
          | succ j =>
            rw [← hshift]
            exact hbefore j (by omega)
    · rintro ⟨k, hk, hdeep, hbefore⟩
      cases k with
      | zero =>
        rw [Nat.add_zero] at hdeep
        rw [postJson, hdeep]
      | succ k =>
        have hretry : (replies attempt).transient = true := hbefore 0 (Nat.succ_pos k)
        rw [postJson_retry hretry (by omega)]
        refine ih.mpr ⟨k, by omega, by rw [hshift]; exact hdeep, fun j hj => ?_⟩
        rw [hshift]
        exact hbefore (j + 1) (by omega)

theorem postJson_tooDeep : postJson replies attempts 0 = .error (.python .recursionError) ↔
    TooDeep replies attempts := by
  rw [postJson_recursion, TooDeep]
  simp only [Nat.zero_add]

end Attempts

structure HTTPEmbeddingProvider where
  dimensions : Nat
  attempts : Nat
  numerals : Numerals

namespace HTTPEmbeddingProvider
variable (P : HTTPEmbeddingProvider)

/-- `[float(value) for value in item["embedding"]]`, if there are as many as there are dimensions and all
are finite. -/
def components (item : Value) : Except PyError (List ℚ) := do
  let embedding ← item.getItem "embedding"
  let values ← embedding.iter
  let vector ← values.mapM (Value.toFloat P.numerals)
  if vector.length ≠ P.dimensions then throw .valueError
  match vector.mapM PyFloat.finite? with
  | none => throw .valueError
  | some vector => pure vector

def vectorOf (item : Value) : Except PyError (List PyFloat) := do
  let vector ← P.components item
  let norm ← PyFloat.norm vector
  if norm = .finite 0 then throw .valueError
  pure (vector.map fun v => PyFloat.divide v norm)

/-- `item["index"]` as the key of `sorted`, where it is a number. -/
def indexKey (item : Value) : ℚ :=
  match item.getItem "index" with
  | .ok v => v.number.getD 0
  | .error _ => 0

/-- `item["index"]` as a member of a set. -/
def indexOf (item : Value) : Except PyError Value := do
  let index ← item.getItem "index"
  index.hashed

/-- The items of a response for `n` texts, if their indexes are those of the texts. -/
def indexedItems (n : Nat) (response : List (String × Value)) : Except PyError (List Value) := do
  let data ← Value.getItem "data" (.dict response)
  let length ← data.len
  if length ≠ n then throw .valueError
  let items ← data.iter
  let indexes ← items.mapM indexOf
  if !sameAsRange indexes n then throw .valueError
  pure items

/-- The vectors that a response has for a batch of `n` texts. -/
def vectorsOf (n : Nat) (response : List (String × Value)) : Except PyError (List (List PyFloat)) := do
  let items ← indexedItems n response
  (items.mergeSort fun a b => indexKey a ≤ indexKey b).mapM P.vectorOf

/-- `int(usage.get("prompt_tokens", 0))`, and before it what tells whether the usage is known. -/
def promptTokens (response : List (String × Value)) : Except PyError (Bool × Int) := do
  let usage := (response.lookup "usage").getD (.dict [])
  let known ← usage.contains "prompt_tokens"
  let tokens ← usage.get "prompt_tokens" (.int 0)
  let count ← tokens.toInt P.numerals
  pure (known, count)

/-- The `try` block of one batch. -/
def readBatch (n : Nat) (response : List (String × Value)) : Except PyError (List (List PyFloat)) := do
  let vectors ← P.vectorsOf n response
  let _ ← P.promptTokens response
  pure vectors

/-- `texts[start : start + 32]` for `start` in `range(0, len(texts), 32)`. -/
def batches (texts : List String) : List (List String) :=
  (List.range ((texts.length + 31) / 32)).map fun b => (texts.drop (32 * b)).take 32

/-- The response for a batch: `provider b` answers the attempts of the batch `b`. -/
def respond (provider : Nat → Nat → HttpReply) (b : Nat) : Except ProviderFailure (List (String × Value)) :=
  postJson (provider b) P.attempts 0

def embedBatch (provider : Nat → Nat → HttpReply) (b n : Nat) : Except ProviderFailure (List (List PyFloat)) := do
  let response ← P.respond provider b
  tryExcept [.keyError, .typeError, .valueError, .overflowError] .retrievalProviderError .python
    (P.readBatch n response)

/-- The batches from `b` on. -/
def embedFrom (provider : Nat → Nat → HttpReply) : Nat → List (List String) →
    Except ProviderFailure (List (List PyFloat))
  | _, [] => .ok []
  | b, batch :: rest => do
    let vectors ← P.embedBatch provider b batch.length
    let later ← embedFrom provider (b + 1) rest
    pure (vectors ++ later)

def embed (provider : Nat → Nat → HttpReply) (texts : List String) : Except ProviderFailure (List (List PyFloat)) :=
  P.embedFrom provider 0 (batches texts)

end HTTPEmbeddingProvider

structure HTTPReranker where
  attempts : Nat
  numerals : Numerals

namespace HTTPReranker
variable (R : HTTPReranker)

/-- `float(item["relevance_score"])`. -/
def score (item : Value) : Except PyError PyFloat := do
  let score ← item.getItem "relevance_score"
  score.toFloat R.numerals

/-- The score of an item as the key of `sorted`, where it is finite. -/
def scoreKey (item : Value) : ℚ :=
  match R.score item with
  | .ok (.finite q) => q
  | _ => 0

/-- `not math.isfinite(float(item["relevance_score"]))` is a `ValueError`. -/
def checkScore (item : Value) : Except PyError Unit := do
  match ← R.score item with
  | .finite _ => pure ()
  | _ => throw .valueError

/-- `hits[index]`. A negative index counts from the end. -/
def hitAt (hits : List RetrievalHit) : Value → Except PyError RetrievalHit
  | .int i =>
    match hits[(if 0 ≤ i then i else hits.length + i).toNat]? with
    | some hit => if -hits.length ≤ i then .ok hit else .error .indexError
    | none => .error .indexError
  | _ => .error .typeError

def rescored (hits : List RetrievalHit) (item : Value) : Except PyError RetrievalHit := do
  let index ← item.getItem "index"
  let hit ← hitAt hits index
  pure { hit with rerankScore := some (R.scoreKey item) }

/-- The items of a response for `n` hits, if their indices are those of the hits. -/
def indexedItems (n : Nat) (response : List (String × Value)) : Except PyError (List Value) := do
  let results ← Value.getItem "results" (.dict response)
  let length ← results.len
  if length ≠ n then throw .valueError
  let items ← results.iter
  let indices ← items.mapM (Value.getItem "index")
  if indices.any (fun i => !i.isInt) || !sameAsRange indices n then throw .valueError
  pure items

/-- The `try` block. -/
def readRanking (hits : List RetrievalHit) (response : List (String × Value)) :
    Except PyError (List RetrievalHit) := do
  let items ← indexedItems hits.length response
  items.forM R.checkScore
  (items.mergeSort fun a b => R.scoreKey b ≤ R.scoreKey a).mapM (R.rescored hits)

def rerank (replies : Nat → HttpReply) (hits : List RetrievalHit) : Except ProviderFailure (List RetrievalHit) :=
  if hits = [] then .ok []
  else do
    let response ← postJson replies R.attempts 0
    tryExcept [.keyError, .typeError, .valueError, .indexError] .retrievalProviderError .python
      (R.readRanking hits response)

end HTTPReranker
end DataCopilot.Retrieval
