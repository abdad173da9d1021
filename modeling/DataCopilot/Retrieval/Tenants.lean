import DataCopilot.Retrieval.Isolation
import DataCopilot.Retrieval.Searching

/-! What the two repositories keep apart for a tenant, and `retrieve` over them. -/
namespace DataCopilot.Retrieval

namespace InMemoryRepository

/-- The repository has the same for the tenant. -/
structure SameTo (tenantId : UUID) (r r' : InMemoryRepository) : Prop where
  entries : r.entries.filter (fun e => e.1.1 = tenantId) = r'.entries.filter fun e => e.1.1 = tenantId
  revisions : r.revisions tenantId = r'.revisions tenantId

theorem separate : repository.Separate SameTo := by
  refine ⟨fun _ _ _ => ⟨rfl, rfl⟩, ?_, ?_, ?_, ?_⟩
  · intro r r' a h
    change r.tenantChunks a = r'.tenantChunks a
    rw [tenantChunks, h.entries, tenantChunks]
  · intro r r' a h
    change r.corpusRevision a = r'.corpusRevision a
    rw [corpusRevision, h.revisions, corpusRevision]
  · intro r r' c a h _ hne
    have hp : decide (c.key.1 = a) = false := decide_eq_false fun he => hne he.symm
    refine ⟨?_, ?_⟩
    · rw [← h.entries]
      exact Dict.filter_setItem (p := fun key : UUID × String => decide (key.1 = a)) hp
    · rw [← h.revisions]
      exact Function.update_of_ne hne _ _
  · intro r r' c a h _ ha
    have hp : decide (c.key.1 = a) = true := decide_eq_true ha.symm
    have hlookup : r.entries.lookup c.key = r'.entries.lookup c.key := by
      rw [← Dict.lookup_filter (p := fun key : UUID × String => decide (key.1 = a)) hp, h.entries,
        Dict.lookup_filter (p := fun key : UUID × String => decide (key.1 = a)) hp]
    refine ⟨trivial, ?_, ?_⟩
    · change (r.replaceDocument c).entries.filter _ = (r'.replaceDocument c).entries.filter _
      simp only [replaceDocument, hlookup]
      rw [Dict.filter_setItem_self (p := fun key : UUID × String => decide (key.1 = a)) hp, h.entries,
        Dict.filter_setItem_self (p := fun key : UUID × String => decide (key.1 = a)) hp]
    · change (r.replaceDocument c).revisions a = (r'.replaceDocument c).revisions a
      have htenant : a = c.tenantId := ha
      simp only [replaceDocument, ← htenant, Function.update_self, h.revisions]

end InMemoryRepository

namespace MetricTables
variable {t t' : MetricTables} {c : ReplaceCall} {tenantId : UUID} {d : MetricDocument} {now : Nat} {id : UUID}

/-- The tables have the same rows of the tenant. -/
structure SameTo (tenantId : UUID) (t t' : MetricTables) : Prop where
  documents : t.documents.filter (fun d => d.tenantId = tenantId) =
    t'.documents.filter fun d => d.tenantId = tenantId
  chunks : t.chunks.filter (fun chunk => chunk.tenantId = tenantId) =
    t'.chunks.filter fun chunk => chunk.tenantId = tenantId
  sound : t.Ordered ∧ t.Owned
  sound' : t'.Ordered ∧ t'.Owned
  /-- An id that is new to the one is new to the other. -/
  ids : ∀ d ∈ t'.documents, d.id ∈ t.documents.map MetricDocument.id

/-- The chunks of a tenant are those of its own documents. -/
theorem corpus_filter (ho : t.Owned) : t.corpus tenantId =
    (t.chunks.filter fun chunk => chunk.tenantId = tenantId).flatMap
      (joined tenantId (t.documents.filter fun d => d.tenantId = tenantId)) := by
  rw [corpus, ← flatMap_filter_of_nil (p := fun chunk => decide (chunk.tenantId = tenantId))]
  · rw [List.flatMap_def, List.flatMap_def]
    congr 1
    apply List.map_congr_left
    intro chunk hchunk
    obtain ⟨hm, ht⟩ := List.mem_filter.mp hchunk
    have ht : chunk.tenantId = tenantId := of_decide_eq_true ht
    rw [joined, joined, if_pos ht, if_pos ht, List.filter_filter]
    congr 1
    apply List.filter_congr
    intro d hd
    by_cases hid : d.id = chunk.documentId
    · simp [hid, (ho chunk hm d hd hid).trans ht]
    · simp [hid]
  · intro chunk _ hp
    exact joined_of_ne (of_decide_eq_false hp)

theorem superseded_tenantId : (superseded now id d).tenantId = d.tenantId := by
  rw [superseded]
  by_cases h : d.id = id
  · rw [if_pos h]
  · rw [if_neg h]

theorem filter_tenant_superseded {ds : List MetricDocument} :
    (ds.map (superseded now id)).filter (fun d => d.tenantId = tenantId) =
      (ds.filter fun d => d.tenantId = tenantId).map (superseded now id) := by
  rw [List.filter_map]
  congr 1
  apply List.filter_congr
  intro d _
  simp [superseded_tenantId]

/-- The document that a call replaces is looked for among those of its tenant. -/
theorem active_filter (key : UUID × String) : t.active key =
    (t.documents.filter fun d => d.tenantId = key.1).find? fun d => d.key = key ∧ d.status = .active := by
  rw [active, List.find?_filter]
  congr 1
  funext d
  by_cases hk : d.key = key
  · have ht : d.tenantId = key.1 := congrArg Prod.fst hk
    simp [hk, ht]
  · simp [hk]

theorem ids_replaceDocument : (t.replaceDocument c).1.documents.map MetricDocument.id =
    c.documentId :: t.documents.map MetricDocument.id := ids_write

namespace SameTo

theorem others (h : SameTo tenantId t t') (hid : c.documentId ∉ t.documents.map MetricDocument.id)
    (hne : tenantId ≠ c.tenantId) : SameTo tenantId (t.replaceDocument c).1 t' := by
  obtain ⟨hordered, howned⟩ := h.sound
  refine ⟨?_, ?_, ⟨hordered.replaceDocument hid, owned_replaceDocument hordered howned hid⟩, h.sound', ?_⟩
  · rw [← h.documents]
    have hnew : ∀ version, (c.document version).tenantId ≠ tenantId := fun version he => hne he.symm
    change (t.write c (t.active c.key)).documents.filter _ = _
    cases hc : t.active c.key with
    | none =>
      change (c.document 1 :: t.documents).filter _ = _
      rw [List.filter_cons_of_neg (by simp [hnew])]
    | some d =>
      obtain ⟨hd, hkey, -, -⟩ := hordered.active_some hc
      have hdt : d.tenantId ≠ tenantId := fun he => hne (he.symm.trans (congrArg Prod.fst hkey))
      change (c.document (d.version + 1) :: t.documents.map (superseded c.now d.id)).filter _ = _
      rw [List.filter_cons_of_neg (by simp [hnew])]
      apply filter_superseded
      intro e he heid
      rw [superseded_tenantId, List.inj_on_of_nodup_map hordered.ids he hd heid]
      simp [hdt]
  · rw [← h.chunks]
    have hnew : ∀ version, (c.chunkRows version).filter (fun chunk => chunk.tenantId = tenantId) = [] := by
      intro version
      rw [List.filter_eq_nil_iff]
      intro row hrow
      obtain ⟨chunk, -, rfl⟩ := List.mem_map.mp hrow
      simp [Ne.symm hne]
    change (t.write c (t.active c.key)).chunks.filter _ = _
    cases hc : t.active c.key with
    | none =>
      change (c.chunkRows 1 ++ t.chunks).filter _ = _
      rw [List.filter_append, hnew, List.nil_append]
    | some d =>
      obtain ⟨hd, hkey, -, -⟩ := hordered.active_some hc
      change (c.chunkRows (d.version + 1) ++ t.chunks.filter _).filter _ = _
      rw [List.filter_append, hnew, List.nil_append, List.filter_filter]
      apply List.filter_congr
      intro chunk hchunk
      by_cases ht : chunk.tenantId = tenantId
      · have hdoc : chunk.documentId ≠ d.id := by
          intro he
          have howner := howned chunk hchunk d hd he.symm
          exact hne (ht.symm.trans (howner.symm.trans (congrArg Prod.fst hkey)))
        simp [ht, hdoc]
      · simp [ht]
  · intro d hd
    rw [ids_replaceDocument]
    exact List.mem_cons_of_mem _ (h.ids d hd)

theorem own (h : SameTo tenantId t t') (hid : c.documentId ∉ t.documents.map MetricDocument.id)
    (he : tenantId = c.tenantId) : c.documentId ∉ t'.documents.map MetricDocument.id ∧
      SameTo tenantId (t.replaceDocument c).1 (t'.replaceDocument c).1 := by
  have hid' : c.documentId ∉ t'.documents.map MetricDocument.id := by
    intro hm
    obtain ⟨d, hd, hdid⟩ := List.mem_map.mp hm
    exact hid (hdid ▸ h.ids d hd)
  have hactive : t.active c.key = t'.active c.key := by
    have hkey : c.key.1 = tenantId := he.symm
    rw [active_filter, active_filter, hkey, h.documents]
  obtain ⟨hordered, howned⟩ := h.sound
  obtain ⟨hordered', howned'⟩ := h.sound'
  refine ⟨hid', ?_, ?_, ⟨hordered.replaceDocument hid, owned_replaceDocument hordered howned hid⟩,
    ⟨hordered'.replaceDocument hid', owned_replaceDocument hordered' howned' hid'⟩, ?_⟩
  · change (t.write c (t.active c.key)).documents.filter _ = (t'.write c (t'.active c.key)).documents.filter _
    rw [hactive]
    cases t'.active c.key with
    | none =>
      change (c.document 1 :: t.documents).filter _ = (c.document 1 :: t'.documents).filter _
      rw [List.filter_cons, List.filter_cons, h.documents]
    | some d =>
      change (c.document (d.version + 1) :: t.documents.map (superseded c.now d.id)).filter _ =
        (c.document (d.version + 1) :: t'.documents.map (superseded c.now d.id)).filter _
      rw [List.filter_cons, List.filter_cons, filter_tenant_superseded, filter_tenant_superseded, h.documents]
  · change (t.write c (t.active c.key)).chunks.filter _ = (t'.write c (t'.active c.key)).chunks.filter _
    rw [hactive]
    cases t'.active c.key with
    | none =>
      change (c.chunkRows 1 ++ t.chunks).filter _ = (c.chunkRows 1 ++ t'.chunks).filter _
      rw [List.filter_append, List.filter_append, h.chunks]
    | some d =>
      change (c.chunkRows (d.version + 1) ++ t.chunks.filter fun chunk => chunk.documentId ≠ d.id).filter _ =
        (c.chunkRows (d.version + 1) ++ t'.chunks.filter fun chunk => chunk.documentId ≠ d.id).filter _
      rw [List.filter_append, List.filter_append, List.filter_comm, h.chunks, List.filter_comm]
  · intro d hd
    rw [ids_replaceDocument]
    have hm := List.mem_map_of_mem (f := MetricDocument.id) hd
    rw [ids_replaceDocument] at hm
    cases List.mem_cons.mp hm with
    | inl hnew =>
      rw [hnew]
      exact List.mem_cons_self
    | inr hold =>
      obtain ⟨e, hem, heid⟩ := List.mem_map.mp hold
      exact List.mem_cons_of_mem _ (heid ▸ h.ids e hem)

end SameTo

theorem separate {sha256 : String → String} {timestamptz : Nat → String} :
    (repository sha256 timestamptz).Separate SameTo := by
  refine ⟨?_, ?_, ?_, fun t t' c a h hid hne => h.others hid hne, fun t t' c a h hid he => h.own hid he⟩
  · intro t a ht
    have hsound : t.Ordered ∧ t.Owned := by
      rw [ht]
      exact ⟨ordered_empty, fun chunk hchunk => by cases hchunk⟩
    exact ⟨rfl, rfl, hsound, hsound, fun d hd => List.mem_map_of_mem hd⟩
  · intro t t' a h
    change t.corpus a = t'.corpus a
    rw [corpus_filter h.sound.2, corpus_filter h.sound'.2, h.documents, h.chunks]
  · intro t t' a h
    have hactive : t.documents.filter (activeOf a) = t'.documents.filter (activeOf a) := by
      have hfilter : ∀ ds : List MetricDocument, ds.filter (activeOf a) =
          (ds.filter fun d => d.tenantId = a).filter fun d => d.status = .active := by
        intro ds
        rw [List.filter_filter]
        apply List.filter_congr
        intro d _
        simp [activeOf, Bool.and_comm]
      rw [hfilter, h.documents, ← hfilter]
    change t.corpusRevision a sha256 timestamptz = t'.corpusRevision a sha256 timestamptz
    rw [corpusRevision, revisionMaterial, versions, hactive]
    rfl

end MetricTables

namespace Retrieving
open Transition

/-- What the calls of the tenant answer in the two states is the same. -/
def AnswersAlike {σ τ : Type} (tenantId : UUID) (s : Retrieving σ) (u : Retrieving τ) : Prop :=
  ∀ i p a cached result, a.tenantId = tenantId →
    ((∃ read, s.calls i = some ⟨p, a, .answered read cached result⟩) ↔
      ∃ read, u.calls i = some ⟨p, a, .answered read cached result⟩)

section
variable {σ υ χ : Type} {R : Revision.Store σ υ UUID χ String} {Q : Searches χ} {S : MetricRetrievalService}
variable {same : UUID → σ → σ → Prop} {tenantId : UUID} {s u : Retrieving σ}

theorem Alike.answers (h : Alike same tenantId s u) : AnswersAlike tenantId s u := by
  intro i p a cached result ha
  have hi := h.calls i
  constructor
  · rintro ⟨read, hs⟩
    obtain ⟨_, hu, hp⟩ := h.own hs ha
    cases hp with
    | answered => exact ⟨_, hu⟩
  · rintro ⟨read, hu⟩
    rw [hu] at hi
    generalize hs : s.calls i = call at hi
    cases hi with
    | own _ hp =>
      cases hp with
      | answered => exact ⟨_, rfl⟩

/-- In every run the calls of a tenant answer what they answer in the run that is left without the calls of
the others. -/
def TenantIsolated (R : Revision.Store σ υ UUID χ String) (Q : Searches χ) (S : MetricRetrievalService) : Prop :=
  ∀ tenantId w s, (system R Q S).Run w s → ∃ v u, (system R Q S).Part (Concerns R tenantId) w v s ∧
    ((system R Q S).restrict fun s m _ => Concerns R tenantId s m).Run v u ∧ AnswersAlike tenantId s u

theorem tenantIsolated_of (hR : R.Separate same) : TenantIsolated R Q S := by
  intro tenantId w s h
  obtain ⟨v, hv⟩ := h.part (Concerns R tenantId)
  obtain ⟨u, hu, halike⟩ := (isolated hR).alone hv
  exact ⟨v, u, hv, hu, halike.answers⟩

end

end Retrieving
end DataCopilot.Retrieval
