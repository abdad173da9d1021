import Mathlib.Algebra.GroupWithZero.Nat
import DataCopilot.Library.Revision
import DataCopilot.Retrieval.Ranking

/-! What the two repositories have for a tenant, and the revision that they give of it: both are raised by
`replace_document`, and neither comes back. -/
namespace DataCopilot.Retrieval

structure DocumentEntry where
  document : StoredMetricDocument
  chunks : List MetricChunk

/-- `InMemoryMetricKnowledgeRepository`. -/
structure InMemoryRepository where
  entries : List ((UUID × String) × DocumentEntry) := []
  revisions : UUID → Nat := fun _ => 0

namespace InMemoryRepository
variable (r : InMemoryRepository) (c : ReplaceCall) (tenantId : UUID)

def storedChunks (version : Nat) : List MetricChunk :=
  c.chunks.map fun chunk => {
    id := chunk.1
    tenantId := c.tenantId
    documentId := c.documentId
    documentTitle := c.title
    documentVersion := version
    sectionKey := chunk.2.sectionKey
    sectionTitle := chunk.2.sectionTitle
    sourceLocator := chunk.2.sourceLocator
    ordinal := chunk.2.ordinal
    content := chunk.2.content
    embedding := chunk.2.embedding }

def replaceDocument : InMemoryRepository :=
  let version := match r.entries.lookup c.key with
    | none => 1
    | some previous => previous.document.version + 1
  { entries := Dict.setItem r.entries (c.key, ⟨c.stored version, storedChunks c version⟩)
    revisions := Function.update r.revisions c.tenantId (r.revisions c.tenantId + 1) }

/-- `_tenant_chunks`. -/
def tenantChunks : List MetricChunk :=
  (r.entries.filter fun e => e.1.1 = tenantId).flatMap fun e => e.2.chunks

def corpusRevision : String := "memory:" ++ toString (r.revisions tenantId)

def repository : Revision.Store InMemoryRepository ReplaceCall UUID (List MetricChunk) String where
  init r := r = {}
  ok _ _ := True
  owner := ReplaceCall.tenantId
  update := replaceDocument
  content := tenantChunks
  revision := corpusRevision

/-- The counter of the tenant is its rank. -/
theorem lawful : repository.Lawful (fun r => r.revisions) fun _ => True := by
  refine ⟨fun _ _ => trivial, fun _ _ _ _ => trivial, ?_, ?_, ?_, ?_, ?_⟩
  · intro r c _ _
    exact Function.update_self ..
  · intro r r' a _ _ h
    exact Text.toString_nat_inj ((String.append_right_inj _).mp h)
  · intro r c a _ _ ha
    exact Function.update_of_ne ha _ _
  · intro r c a _ _ ha
    change (r.replaceDocument c).tenantChunks a = r.tenantChunks a
    have hp : decide (c.key.1 = a) = false := decide_eq_false fun he => ha he.symm
    rw [tenantChunks, replaceDocument,
      Dict.filter_setItem (p := fun key : UUID × String => decide (key.1 = a)) hp, tenantChunks]
  · intro r c a _ _ ha
    change "memory:" ++ toString ((r.replaceDocument c).revisions a) = r.corpusRevision a
    have hr : (r.replaceDocument c).revisions a = r.revisions a := Function.update_of_ne ha _ _
    rw [hr, corpusRevision]

end InMemoryRepository

namespace MetricTables
variable (t : MetricTables) (tenantId : UUID)

def activeOf (d : MetricDocument) : Bool := d.tenantId = tenantId ∧ d.status = .active

/-- A chunk with the titles of its active documents. -/
def joined (ds : List MetricDocument) (chunk : MetricChunkRow) : List (String × MetricChunkRow) :=
  if chunk.tenantId = tenantId then
    (ds.filter fun d => d.id = chunk.documentId ∧ d.status = .active).map fun d => (d.title, chunk)
  else []

/-- The rows of `lexical_search` and `vector_search` before their conditions on the query. -/
def corpus : List (String × MetricChunkRow) := t.chunks.flatMap (joined tenantId t.documents)

def versions (ds : List MetricDocument) : Nat := ((ds.filter (activeOf tenantId)).map MetricDocument.version).sum

/-- `timestamptz` is the text that the database gives of a time. -/
def revisionMaterial (timestamptz : Nat → String) : String :=
  let active := t.documents.filter (activeOf tenantId)
  let updated := ((active.map MetricDocument.updatedAt).max?.map timestamptz).getD ""
  toString active.length ++ ":" ++ toString (versions tenantId t.documents) ++ ":" ++ updated

def corpusRevision (sha256 : String → String) (timestamptz : Nat → String) : String :=
  "sha256:" ++ sha256 (t.revisionMaterial tenantId timestamptz)

def repository (sha256 : String → String) (timestamptz : Nat → String) :
    Revision.Store MetricTables ReplaceCall UUID (List (String × MetricChunkRow)) String where
  init t := t = {}
  ok t c := c.documentId ∉ t.documents.map MetricDocument.id
  owner := ReplaceCall.tenantId
  update t c := (t.replaceDocument c).1
  content := corpus
  revision t tenantId := t.corpusRevision tenantId sha256 timestamptz

variable {t tenantId} {sha256 : String → String} {timestamptz : Nat → String}
variable {c : ReplaceCall} {d : MetricDocument} {ds : List MetricDocument} {now : Nat} {t' : MetricTables}

theorem revisionMaterial_versions
    (h : t.revisionMaterial tenantId timestamptz = t'.revisionMaterial tenantId timestamptz) :
    versions tenantId t.documents = versions tenantId t'.documents := by
  have hl := congrArg String.toList h
  simp only [revisionMaterial, String.toList_append, List.append_assoc] at hl
  have hcount := Text.eq_of_append_cons (Text.not_mem_toString rfl) (Text.not_mem_toString rfl) hl
  have hversions := Text.eq_of_append_cons (Text.not_mem_toString rfl) (Text.not_mem_toString rfl) hcount.2
  exact Text.toString_nat_inj (String.toList_inj.mp hversions.1)

/-- Chunks belong to the tenant of their document. -/
def Owned (t : MetricTables) : Prop :=
  ∀ chunk ∈ t.chunks, ∀ d ∈ t.documents, d.id = chunk.documentId → d.tenantId = chunk.tenantId

theorem filter_superseded {id : UUID} {p : MetricDocument → Bool}
    (h : ∀ d ∈ ds, d.id = id → p d = false ∧ p (superseded now id d) = false) :
    (ds.map (superseded now id)).filter p = ds.filter p := by
  induction ds with
  | nil => rfl
  | cons d rest ih =>
    have hrest := ih fun e he => h e (List.mem_cons_of_mem _ he)
    rw [List.map_cons]
    by_cases hd : d.id = id
    · obtain ⟨hp, hp'⟩ := h d List.mem_cons_self hd
      rw [List.filter_cons_of_neg (by simp [hp']), List.filter_cons_of_neg (by simp [hp]), hrest]
    · rw [superseded, if_neg hd, List.filter_cons, List.filter_cons, hrest]

/-- The row that is superseded takes its version out of the sum. -/
theorem versions_superseded (hn : (ds.map MetricDocument.id).Nodup) (hd : d ∈ ds)
    (ha : activeOf tenantId d = true) :
    versions tenantId (ds.map (superseded now d.id)) + d.version = versions tenantId ds := by
  induction ds with
  | nil => cases hd
  | cons e rest ih =>
    have hn' := List.nodup_cons.mp hn
    by_cases he : e.id = d.id
    · have hed : d = e := List.inj_on_of_nodup_map hn hd List.mem_cons_self he.symm
      have hrest : ∀ f ∈ rest, f.id ≠ d.id := by
        intro f hf hid
        rw [← he] at hid
        exact hn'.1 (hid ▸ List.mem_map_of_mem hf)
      have hgone : activeOf tenantId (superseded now d.id e) = false := by
        rw [superseded, if_pos he]
        simp [activeOf]
      rw [versions, versions, List.map_cons, List.filter_cons_of_neg (by simp [hgone]),
        map_superseded_of_ne hrest, ← hed, List.filter_cons_of_pos ha, List.map_cons, List.sum_cons]
      omega
    · have hm : d ∈ rest := by
        cases List.mem_cons.mp hd with
        | inl h =>
          rw [h] at he
          exact absurd rfl he
        | inr h => exact h
      have hrest := ih hn'.2 hm
      rw [versions, versions] at hrest
      rw [versions, versions, List.map_cons, superseded, if_neg he, List.filter_cons, List.filter_cons]
      split
      · rw [List.map_cons, List.map_cons, List.sum_cons, List.sum_cons]
        omega
      · exact hrest

/-- A call raises the sum of the active versions of its tenant by one. -/
theorem versions_replaceDocument (h : t.Ordered) :
    versions c.tenantId (t.replaceDocument c).1.documents = versions c.tenantId t.documents + 1 := by
  change versions c.tenantId (t.write c (t.active c.key)).documents = _
  cases hc : t.active c.key with
  | none =>
    have hnew : activeOf c.tenantId (c.document 1) = true := by simp [activeOf, ReplaceCall.document]
    change versions c.tenantId (c.document 1 :: t.documents) = _
    rw [versions, List.filter_cons_of_pos hnew, List.map_cons, List.sum_cons, versions]
    change 1 + _ = _
    omega
  | some d =>
    obtain ⟨hd, hkey, hactive, -⟩ := h.active_some hc
    have htenant : d.tenantId = c.tenantId := congrArg Prod.fst hkey
    have ha : activeOf c.tenantId d = true := by simp [activeOf, htenant, hactive]
    have hnew : activeOf c.tenantId (c.document (d.version + 1)) = true := by
      simp [activeOf, ReplaceCall.document]
    have hsum : versions c.tenantId (t.documents.map (superseded c.now d.id)) + d.version =
        versions c.tenantId t.documents := versions_superseded h.ids hd ha
    change versions c.tenantId (c.document (d.version + 1) :: t.documents.map (superseded c.now d.id)) = _
    rw [versions, List.filter_cons_of_pos hnew, List.map_cons, List.sum_cons, ← hsum, versions]
    change d.version + 1 + _ = _
    omega

/-- The active documents of the other tenants stay as they are. -/
theorem active_spared (h : t.Ordered) (hne : tenantId ≠ c.tenantId) :
    (t.replaceDocument c).1.documents.filter (activeOf tenantId) = t.documents.filter (activeOf tenantId) := by
  change (t.write c (t.active c.key)).documents.filter (activeOf tenantId) = _
  have hnew : ∀ version, activeOf tenantId (c.document version) = false := by
    intro version
    simp [activeOf, ReplaceCall.document, Ne.symm hne]
  cases hc : t.active c.key with
  | none =>
    change (c.document 1 :: t.documents).filter (activeOf tenantId) = _
    rw [List.filter_cons_of_neg (by simp [hnew])]
  | some d =>
    obtain ⟨hd, hkey, -, -⟩ := h.active_some hc
    change (c.document (d.version + 1) :: t.documents.map (superseded c.now d.id)).filter (activeOf tenantId) = _
    rw [List.filter_cons_of_neg (by simp [hnew])]
    apply filter_superseded
    intro e he hid
    have hed : e = d := List.inj_on_of_nodup_map h.ids he hd hid
    have htenant : e.tenantId ≠ tenantId := by
      intro hte
      rw [hed] at hte
      exact hne (hte.symm.trans (congrArg Prod.fst hkey))
    rw [superseded, if_pos hid]
    simp [activeOf, htenant]

/-- What has no image does not count. -/
theorem flatMap_filter_of_nil {α β : Type} {l : List α} {f : α → List β} {p : α → Bool}
    (h : ∀ x ∈ l, p x = false → f x = []) : (l.filter p).flatMap f = l.flatMap f := by
  induction l with
  | nil => rfl
  | cons x rest ih =>
    have hrest := ih fun y hy => h y (List.mem_cons_of_mem _ hy)
    cases hp : p x with
    | true => rw [List.filter_cons_of_pos hp, List.flatMap_cons, List.flatMap_cons, hrest]
    | false =>
      rw [List.filter_cons_of_neg (by simp [hp]), List.flatMap_cons, h x List.mem_cons_self hp, hrest]
      rfl

theorem joined_of_ne {chunk : MetricChunkRow} (h : chunk.tenantId ≠ tenantId) : joined tenantId ds chunk = [] := by
  rw [joined, if_neg h]

/-- A call for another tenant touches no document that a chunk of this one is of. -/
theorem joined_spared (h : t.Ordered) (ho : t.Owned) (hid : c.documentId ∉ t.documents.map MetricDocument.id)
    (hne : tenantId ≠ c.tenantId) {chunk : MetricChunkRow} (hchunk : chunk ∈ t.chunks) :
    joined tenantId (t.replaceDocument c).1.documents chunk = joined tenantId t.documents chunk := by
  by_cases ht : chunk.tenantId = tenantId
  · have hnew : ∀ version, (c.document version).id ≠ chunk.documentId := by
      intro version he
      obtain ⟨e, hm, heid, -⟩ := h.chunks chunk hchunk
      have hmem := List.mem_map_of_mem (f := MetricDocument.id) hm
      rw [heid, ← he] at hmem
      exact hid hmem
    rw [joined, joined, if_pos ht, if_pos ht]
    congr 1
    change (t.write c (t.active c.key)).documents.filter _ = _
    cases hc : t.active c.key with
    | none =>
      change (c.document 1 :: t.documents).filter _ = _
      rw [List.filter_cons_of_neg (by simp [hnew])]
    | some d =>
      obtain ⟨hd, hkey, -, -⟩ := h.active_some hc
      change (c.document (d.version + 1) :: t.documents.map (superseded c.now d.id)).filter _ = _
      rw [List.filter_cons_of_neg (by simp [hnew])]
      apply filter_superseded
      intro e he heid
      have hother : e.id ≠ chunk.documentId := by
        intro hec
        have hed : e = d := List.inj_on_of_nodup_map h.ids he hd heid
        have htenant := ho chunk hchunk e he hec
        rw [hed, ht] at htenant
        exact hne (htenant.symm.trans (congrArg Prod.fst hkey))
      simp [superseded_id, hother]
  · rw [joined_of_ne ht, joined_of_ne ht]

/-- The chunks that a call deletes are of its own tenant. -/
theorem corpus_spared (h : t.Ordered) (ho : t.Owned) (hid : c.documentId ∉ t.documents.map MetricDocument.id)
    (hne : tenantId ≠ c.tenantId) : (t.replaceDocument c).1.corpus tenantId = t.corpus tenantId := by
  have hrows : ∀ ds version, (c.chunkRows version).flatMap (joined tenantId ds) = [] := by
    intro ds version
    rw [List.flatMap_eq_nil_iff]
    intro row hrow
    obtain ⟨chunk, -, rfl⟩ := List.mem_map.mp hrow
    exact joined_of_ne hne.symm
  have hsame : t.chunks.flatMap (joined tenantId (t.replaceDocument c).1.documents) = t.corpus tenantId := by
    rw [corpus, List.flatMap_def, List.flatMap_def]
    congr 1
    exact List.map_congr_left fun chunk hchunk => joined_spared h ho hid hne hchunk
  rw [← hsame, corpus]
  generalize hds : (t.replaceDocument c).1.documents = ds at hsame ⊢
  change (t.write c (t.active c.key)).chunks.flatMap _ = _
  cases hc : t.active c.key with
  | none =>
    change (c.chunkRows 1 ++ t.chunks).flatMap _ = _
    rw [List.flatMap_append, hrows, List.nil_append]
  | some d =>
    obtain ⟨hd, hkey, -, -⟩ := h.active_some hc
    change (c.chunkRows (d.version + 1) ++ t.chunks.filter _).flatMap _ = _
    rw [List.flatMap_append, hrows, List.nil_append]
    apply flatMap_filter_of_nil
    intro chunk hchunk hdeleted
    have hdoc : d.id = chunk.documentId := by
      simp only [decide_eq_false_iff_not, ne_eq, not_not] at hdeleted
      exact hdeleted.symm
    apply joined_of_ne
    rw [← ho chunk hchunk d hd hdoc]
    intro htenant
    exact hne (htenant.symm.trans (congrArg Prod.fst hkey))

theorem owned_replaceDocument (h : t.Ordered) (ho : t.Owned)
    (hid : c.documentId ∉ t.documents.map MetricDocument.id) : (t.replaceDocument c).1.Owned := by
  intro chunk hchunk e he hec
  change chunk ∈ (t.write c (t.active c.key)).chunks at hchunk
  change e ∈ (t.write c (t.active c.key)).documents at he
  have hold : chunk ∈ t.chunks → e.tenantId = chunk.tenantId := by
    intro hm
    cases mem_write he with
    | inl hnew =>
      obtain ⟨f, hf, hfid, -⟩ := h.chunks chunk hm
      have hmem := List.mem_map_of_mem (f := MetricDocument.id) hf
      rw [hfid, ← hec, hnew] at hmem
      exact absurd hmem hid
    | inr hwas =>
      obtain ⟨f, hf, hfid, hfkey, -⟩ := hwas
      have htenant : f.tenantId = e.tenantId := congrArg Prod.fst hfkey
      rw [← htenant]
      exact ho chunk hm f hf (hfid.trans hec)
  have hnew : ∀ version, chunk ∈ c.chunkRows version → e.tenantId = chunk.tenantId := by
    intro version hm
    obtain ⟨row, -, rfl⟩ := List.mem_map.mp hm
    cases mem_write he with
    | inl hown =>
      rw [hown]
      rfl
    | inr hwas =>
      obtain ⟨f, hf, hfid, -⟩ := hwas
      have hmem := List.mem_map_of_mem (f := MetricDocument.id) hf
      rw [hfid, hec] at hmem
      exact absurd hmem hid
  cases hc : t.active c.key with
  | none =>
    rw [hc] at hchunk
    cases List.mem_append.mp hchunk with
    | inl hm => exact hnew _ hm
    | inr hm => exact hold hm
  | some d =>
    rw [hc] at hchunk
    cases List.mem_append.mp hchunk with
    | inl hm => exact hnew _ hm
    | inr hm => exact hold (List.mem_of_mem_filter hm)

theorem lawful (hsha : Function.Injective sha256) : (repository sha256 timestamptz).Lawful
    (fun t tenantId => versions tenantId t.documents) fun t => t.Ordered ∧ t.Owned := by
  refine ⟨?_, ?_, ?_, ?_, ?_, ?_, ?_⟩
  · intro t ht
    rw [ht]
    exact ⟨ordered_empty, fun chunk hchunk => by cases hchunk⟩
  · intro t c ht hid
    exact ⟨ht.1.replaceDocument hid, owned_replaceDocument ht.1 ht.2 hid⟩
  · intro t c ht _
    exact versions_replaceDocument ht.1
  · intro t t' tenantId _ _ h
    exact revisionMaterial_versions (hsha ((String.append_right_inj _).mp h))
  · intro t c tenantId ht _ hne
    change versions tenantId (t.replaceDocument c).1.documents = _
    rw [versions, active_spared ht.1 hne, versions]
  · intro t c tenantId ht hid hne
    exact corpus_spared ht.1 ht.2 hid hne
  · intro t c tenantId ht _ hne
    change (t.replaceDocument c).1.corpusRevision tenantId sha256 timestamptz = _
    rw [corpusRevision, revisionMaterial, versions, active_spared ht.1 hne]
    rfl

end MetricTables
end DataCopilot.Retrieval
