import DataCopilot.Library.Revision
import DataCopilot.Library.Transition
import DataCopilot.Retrieval.Cache

/-! Processes that retrieve from one store and put documents into it, each with a cache of its own: the
steps of `retrieve` and of `ingest`, in any order. A call is `raised` by an error of the store, of the embedding
or of the reranker. -/
namespace DataCopilot.Retrieval

/-- Where a call of `retrieve` stands. `read` is the store as it was when the call read the revision, of which
it knows the revision alone; `saw` is the store as it was for each of its searches. -/
inductive RetrievePhase (σ : Type) where
  | reading
  | looking (read : σ)
  | missed (read : σ)
  | searched (read : σ) (lexical : List RankedChunk) (saw : List σ)
  | storing (read : σ) (result : RetrievalResult) (saw : List σ)
  | answered (read : σ) (cached : Bool) (result : RetrievalResult)
  | raised

structure RetrieveCall (σ : Type) where
  process : Nat
  arguments : RetrieveArguments
  phase : RetrievePhase σ

inductive RetrieveMove (υ : Type) where
  | retrieve (i process : Nat) (tenantId : UUID) (query : String) (mode : RetrievalMode) (limit : Option Int)
  | corpusRevision (i : Nat)
  | get (i : Nat)
  | lexicalSearch (i : Nat)
  | vectorSearch (i : Nat)
  | put (i : Nat)
  | raise (i : Nat)
  | replaceDocument (k process : Nat) (update : υ)
  | invalidateTenant (k : Nat)
  | tick (process : Nat) (now : ℚ)

/-- `past` are the states that the store has been in before. `ingests` are the calls of `ingest` that have
replaced a document and not yet invalidated the cache. -/
structure Retrieving (σ : Type) where
  store : σ
  past : List σ := []
  caches : Nat → RetrievalCache := fun _ => {}
  clocks : Nat → ℚ := fun _ => 0
  calls : Nat → Option (RetrieveCall σ) := fun _ => none
  ingests : Nat → Option (Nat × UUID) := fun _ => none

namespace Retrieving
variable {σ υ χ : Type} (R : Revision.Store σ υ UUID χ String) (Q : Searches χ) (S : MetricRetrievalService)
variable (s : Retrieving σ) (i p : Nat) (a : RetrieveArguments)

def put (phase : RetrievePhase σ) : Retrieving σ :=
  { s with calls := Function.update s.calls i (some ⟨p, a, phase⟩) }

def setCache (cache : RetrievalCache) : Retrieving σ :=
  { s with caches := Function.update s.caches p cache }

def keyOf (read : σ) : CacheKey := a.key (R.revision read a.tenantId)

def get (read : σ) : Retrieving σ :=
  let found := (s.caches p).get (s.clocks p) (keyOf R a read)
  (s.setCache p found.1).put i p a <|
    match found.2 with
    | some result => .answered read true result
    | none => .missed read

def lexicalSearch (read : σ) : Retrieving σ :=
  s.put i p a <| .searched read (MetricRetrievalService.lexical Q (R.content s.store a.tenantId) a)
    (if a.mode.hasLexical then [s.store] else [])

def vectorSearch (read : σ) (lexical : List RankedChunk) (saw : List σ) : Retrieving σ :=
  let vector := S.vector Q (R.content s.store a.tenantId) a
  s.put i p a <|
    match S.result a (R.revision read a.tenantId) lexical vector with
    | some result => .storing read result (if a.mode.hasVector then s.store :: saw else saw)
    | none => .raised

def answer (read : σ) (result : RetrievalResult) : Retrieving σ :=
  (s.setCache p ((s.caches p).put (s.clocks p) a.tenantId result a.limit)).put i p a
    (.answered read false result)

def replaceDocument (k : Nat) (u : υ) : Retrieving σ :=
  { s with
    store := R.update s.store u
    past := s.store :: s.past
    ingests := Function.update s.ingests k (some (p, R.owner u)) }

def invalidateTenant (k : Nat) (tenantId : UUID) : Retrieving σ :=
  { s.setCache p ((s.caches p).invalidateTenant tenantId) with ingests := Function.update s.ingests k none }

def next : RetrieveMove υ → Option (Retrieving σ)
  | .retrieve i p tenantId query mode limit =>
    match s.calls i with
    | some _ => none
    | none =>
      match S.arguments tenantId query mode limit with
      | .ok a => some (s.put i p a .reading)
      | .error _ => some s
  | .corpusRevision i =>
    match s.calls i with
    | some ⟨p, a, .reading⟩ => some (s.put i p a (.looking s.store))
    | _ => none
  | .get i =>
    match s.calls i with
    | some ⟨p, a, .looking read⟩ => some (s.get R i p a read)
    | _ => none
  | .lexicalSearch i =>
    match s.calls i with
    | some ⟨p, a, .missed read⟩ => some (s.lexicalSearch R Q i p a read)
    | _ => none
  | .vectorSearch i =>
    match s.calls i with
    | some ⟨p, a, .searched read lexical saw⟩ => some (s.vectorSearch R Q S i p a read lexical saw)
    | _ => none
  | .put i =>
    match s.calls i with
    | some ⟨p, a, .storing read result _⟩ => some (s.answer i p a read result)
    | _ => none
  | .raise i =>
    match s.calls i with
    | some ⟨_, _, .answered ..⟩ => none
    | some ⟨p, a, _⟩ => some (s.put i p a .raised)
    | none => none
  | .replaceDocument k p u =>
    match s.ingests k with
    | some _ => none
    | none => some (s.replaceDocument R p k u)
  | .invalidateTenant k =>
    match s.ingests k with
    | some (p, tenantId) => some (s.invalidateTenant p k tenantId)
    | none => none
  | .tick p now =>
    if s.clocks p ≤ now then some { s with clocks := Function.update s.clocks p now } else none

/-- An id that `replace_document` draws is new. -/
def Allowed (s : Retrieving σ) : RetrieveMove υ → Prop
  | .replaceDocument _ _ u => R.ok s.store u
  | _ => True

structure Initial (s : Retrieving σ) : Prop where
  store : R.init s.store
  past : s.past = []
  caches : ∀ p key, (s.caches p).entries key = none
  calls : ∀ i, s.calls i = none
  ingests : ∀ k, s.ingests k = none

def system : Transition.System (Retrieving σ) (RetrieveMove υ) where
  init := Initial R
  step s m t := Allowed R s m ∧ s.next R Q S m = some t

/-- A call puts a result under its revision though one of its searches has seen another revision, and a call of
the same process with the same arguments has read that revision and still to look it up. -/
def Misfiles (s : Retrieving σ) : RetrieveMove υ → Prop
  | .put i => ∃ p a read result saw j read', s.calls i = some ⟨p, a, .storing read result saw⟩ ∧
      (∃ seen ∈ saw, R.revision seen a.tenantId ≠ R.revision read a.tenantId) ∧
      s.calls j = some ⟨p, a, .looking read'⟩ ∧ R.revision read' a.tenantId = R.revision read a.tenantId
  | _ => False

/-- What `retrieve` answers from the cache is what it computes on the corpus of the revision it has read. -/
def Transparent (s : Retrieving σ) : Prop :=
  ∀ i p a read result, s.calls i = some ⟨p, a, .answered read true result⟩ →
    S.uncached Q (R.content read a.tenantId) (R.revision read a.tenantId) a = some result

def RevisionsNew (s : Retrieving σ) : Prop :=
  ∀ u, R.ok s.store u → ∀ earlier ∈ s.store :: s.past,
    R.revision (R.update s.store u) (R.owner u) ≠ R.revision earlier (R.owner u)

end Retrieving
end DataCopilot.Retrieval
