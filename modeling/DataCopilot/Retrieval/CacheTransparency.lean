import DataCopilot.Retrieval.Overtaking
import DataCopilot.Retrieval.Revisions
import DataCopilot.Retrieval.Transparency

/-! The cache of `retrieve` over the two repositories. -/
namespace DataCopilot.Retrieval.Retrieving
open Transition

/-- Runs in which no call misfiles a result are transparent, and in all runs revisions are new. -/
def CacheTransparent {σ υ χ : Type} (R : Revision.Store σ υ UUID χ String) (Q : Searches χ)
    (S : MetricRetrievalService) : Prop :=
  (∀ s, ((system R Q S).restrict fun s m _ => ¬ Misfiles R s m).Reachable s → Transparent R Q S s) ∧
    ∀ s, (system R Q S).Reachable s → RevisionsNew R s

theorem cache_transparent {sha256 : String → String} (hsha : Function.Injective sha256)
    (timestamptz : Nat → String) (S : MetricRetrievalService) (memory : Searches (List MetricChunk))
    (postgres : Searches (List (String × MetricChunkRow))) :
    CacheTransparent InMemoryRepository.repository memory S ∧
      CacheTransparent (MetricTables.repository sha256 timestamptz) postgres S := by
  have hmemory := InMemoryRepository.lawful
  have hpostgres : (MetricTables.repository sha256 timestamptz).Lawful _ _ := MetricTables.lawful hsha
  refine ⟨⟨?_, ?_⟩, ?_, ?_⟩
  · intro s h
    exact transparent_reachable hmemory h
  · intro s h
    exact revisionsNew_reachable hmemory h
  · intro s h
    exact transparent_reachable hpostgres h
  · intro s h
    exact revisionsNew_reachable hpostgres h

def lexicalService : MetricRetrievalService where
  embed _ := []

/-- What `lexical_search` finds for "Revenue" in the handbook. -/
def revenueSearches : Searches (List MetricChunk) where
  lexicalSearch corpus _ limit := (corpus.map fun chunk => ⟨chunk, 5 / 3⟩).take limit
  vectorSearch _ _ _ := []

def revenueArguments : RetrieveArguments := ⟨Replacing.knowledgeTenant, "Revenue", .lexical, 5⟩

def citedVersions (result : RetrievalResult) : List Nat := result.citations.map Citation.documentVersion

/-- Calls 1 and 2 read the revision of the handbook, and call 1 finds nothing in the cache. -/
def readingMoves : List (RetrieveMove ReplaceCall) :=
  [.replaceDocument 0 0 (Replacing.handbook 0), .invalidateTenant 0,
    .retrieve 1 0 Replacing.knowledgeTenant " Revenue" .lexical none, .corpusRevision 1,
    .retrieve 2 0 Replacing.knowledgeTenant "Revenue " .lexical none, .corpusRevision 2, .get 1]

theorem step_of_next {m : RetrieveMove ReplaceCall} {s t : Retrieving InMemoryRepository}
    (h : s.next InMemoryRepository.repository revenueSearches lexicalService m = some t) :
    (system InMemoryRepository.repository revenueSearches lexicalService).step s m t := by
  refine ⟨?_, h⟩
  cases m <;> trivial

theorem initial_memory : Initial InMemoryRepository.repository { store := {} } :=
  ⟨rfl, rfl, fun _ _ => rfl, fun _ => rfl, fun _ => rfl⟩

/-- The moves that store nothing. -/
def nextUnstored (s : Retrieving InMemoryRepository) : RetrieveMove ReplaceCall → Option (Retrieving InMemoryRepository)
  | .put _ => none
  | m => s.next InMemoryRepository.repository revenueSearches lexicalService m

theorem step_of_nextUnstored {m : RetrieveMove ReplaceCall} {s t : Retrieving InMemoryRepository}
    (h : nextUnstored s m = some t) :
    ((system InMemoryRepository.repository revenueSearches lexicalService).restrict
      fun s m _ => ¬ Misfiles InMemoryRepository.repository s m).step s m t := by
  cases m with
  | put i => cases h
  | _ => exact ⟨step_of_next h, fun hm => hm⟩

/-- Call 2 answers from the cache what call 1 has stored. -/
theorem second_retrieve_cached : ∃ s : Retrieving InMemoryRepository, ∃ read result,
    s.calls 2 = some ⟨0, revenueArguments, .answered read true result⟩ ∧ citedVersions result = [1] ∧
      Transparent InMemoryRepository.repository revenueSearches lexicalService s := by
  obtain ⟨s, read, result, read', hs, h1, h2, hr, hstore, hcited⟩ : ∃ s read result read',
      (readingMoves ++ [RetrieveMove.lexicalSearch 1, RetrieveMove.vectorSearch 1]).foldlM nextUnstored
        { store := {} } = some s ∧
      s.calls 1 = some ⟨0, revenueArguments, .storing read result [s.store]⟩ ∧
      s.calls 2 = some ⟨0, revenueArguments, .looking read'⟩ ∧
      read'.corpusRevision Replacing.knowledgeTenant = read.corpusRevision Replacing.knowledgeTenant ∧
      s.store.corpusRevision Replacing.knowledgeTenant = read.corpusRevision Replacing.knowledgeTenant ∧
      citedVersions result = [1] :=
    ⟨_, _, _, _, rfl, rfl, rfl, rfl, rfl, rfl⟩
  have hreach := (System.Reachable.start initial_memory).foldlM (fun _ _ _ => step_of_nextUnstored) hs
  obtain ⟨t, u, ht, hu, hanswer⟩ := put_answered hreach.of_restrict h1 h2 hr
  have hput : ¬ Misfiles InMemoryRepository.repository s (.put 1) := by
    rintro ⟨p, a, read₁, result₁, saw, j, read₂, hi, ⟨seen, hseen, hne⟩, -, -⟩
    rw [h1] at hi
    cases hi
    rw [List.mem_singleton.mp hseen] at hne
    exact hne hstore
  have hcached := (hreach.step ⟨step_of_next ht, hput⟩).step ⟨step_of_next hu, fun hm => hm⟩
  have htransparent := cache_transparent Function.injective_id (fun _ => "") lexicalService revenueSearches
    ⟨fun _ _ _ => [], fun _ _ _ => []⟩
  exact ⟨u, read', result, hanswer, hcited, htransparent.1.1 u hcached⟩

/-- Once it has looked, call 1 finds the handbook replaced: call 2 has read version 1 and answers version 2. -/
theorem newer_corpus_served : ¬ ∀ s,
    (system InMemoryRepository.repository revenueSearches lexicalService).Reachable s →
    Transparent InMemoryRepository.repository revenueSearches lexicalService s := by
  intro h
  obtain ⟨s, read, result, saw, read', hs, h1, h2, hr, hnew, hold⟩ : ∃ s read result saw read',
      (readingMoves ++ [RetrieveMove.replaceDocument 3 0 (Replacing.handbook 1), RetrieveMove.invalidateTenant 3,
        RetrieveMove.lexicalSearch 1, RetrieveMove.vectorSearch 1]).foldlM
        (next InMemoryRepository.repository revenueSearches lexicalService) { store := {} } = some s ∧
      s.calls 1 = some ⟨0, revenueArguments, .storing read result saw⟩ ∧
      s.calls 2 = some ⟨0, revenueArguments, .looking read'⟩ ∧
      read'.corpusRevision Replacing.knowledgeTenant = read.corpusRevision Replacing.knowledgeTenant ∧
      citedVersions result = [2] ∧
      (lexicalService.uncached revenueSearches (read'.tenantChunks Replacing.knowledgeTenant)
        (read'.corpusRevision Replacing.knowledgeTenant) revenueArguments).map citedVersions = some [1] :=
    ⟨_, _, _, _, _, rfl, rfl, rfl, rfl, rfl, rfl⟩
  have hreach := (System.Reachable.start initial_memory).foldlM (fun _ _ _ => step_of_next) hs
  obtain ⟨t, u, ht, hu, hanswer⟩ := put_answered hreach h1 h2 hr
  have hright := h u ((hreach.step (step_of_next ht)).step (step_of_next hu)) 2 0 revenueArguments read' result hanswer
  have hcited := congrArg (Option.map citedVersions) hright
  rw [Option.map_some, hnew] at hcited
  have he : some [1] = some [2] := hold.symm.trans hcited
  cases he

end DataCopilot.Retrieval.Retrieving
