import Mathlib.Data.List.Nodup
import Mathlib.Data.Rat.Defs
import DataCopilot.Library.Uuid

/-! The tables of `PostgresMetricKnowledgeRepository`, the statements of `replace_document`, and the
tables that calls leave one after the other: of every title one version is active, the last. -/
namespace DataCopilot.Retrieval

inductive DocumentSource where
  | markdown
  | pdf
deriving DecidableEq, Repr

inductive DocumentStatus where
  | active
  | superseded
deriving DecidableEq, Repr

structure PendingMetricChunk where
  sectionKey : String
  sectionTitle : String
  sourceLocator : String
  ordinal : Nat
  content : String
  embedding : List ℚ
deriving DecidableEq

/-- A row of `metric_documents`. -/
structure MetricDocument where
  id : UUID
  tenantId : UUID
  title : String
  version : Nat
  status : DocumentStatus
  sourceType : DocumentSource
  sourceName : String
  contentSha256 : String
  createdBy : Option UUID
  createdAt : Nat
  updatedAt : Nat
deriving DecidableEq

/-- A row of `metric_chunks`. -/
structure MetricChunkRow where
  id : UUID
  tenantId : UUID
  documentId : UUID
  documentVersion : Nat
  chunk : PendingMetricChunk
  createdAt : Nat
  embeddingProfile : String
deriving DecidableEq

structure StoredMetricDocument where
  id : UUID
  tenantId : UUID
  title : String
  version : Nat
  status : DocumentStatus
  sourceType : DocumentSource
  sourceName : String
  contentSha256 : String
  chunkCount : Nat
  createdAt : Nat
  updatedAt : Nat
deriving DecidableEq

/-- The arguments of `replace_document` that pass its check, with the ids and the time that it draws. -/
structure ReplaceCall where
  tenantId : UUID
  title : String
  sourceType : DocumentSource
  sourceName : String
  contentSha256 : String
  chunks : List (UUID × PendingMetricChunk)
  createdBy : Option UUID
  embeddingProfile : String
  documentId : UUID
  now : Nat
  chunks_ok : chunks ≠ []
deriving DecidableEq

def MetricDocument.key (d : MetricDocument) : UUID × String := (d.tenantId, d.title)

namespace ReplaceCall
variable (c : ReplaceCall)

def key : UUID × String := (c.tenantId, c.title)

def document (version : Nat) : MetricDocument where
  id := c.documentId
  tenantId := c.tenantId
  title := c.title
  version := version
  status := .active
  sourceType := c.sourceType
  sourceName := c.sourceName
  contentSha256 := c.contentSha256
  createdBy := c.createdBy
  createdAt := c.now
  updatedAt := c.now

def chunkRows (version : Nat) : List MetricChunkRow :=
  c.chunks.map fun chunk => {
    id := chunk.1
    tenantId := c.tenantId
    documentId := c.documentId
    documentVersion := version
    chunk := chunk.2
    createdAt := c.now
    embeddingProfile := c.embeddingProfile }

def stored (version : Nat) : StoredMetricDocument where
  id := c.documentId
  tenantId := c.tenantId
  title := c.title
  version := version
  status := .active
  sourceType := c.sourceType
  sourceName := c.sourceName
  contentSha256 := c.contentSha256
  chunkCount := c.chunks.length
  createdAt := c.now
  updatedAt := c.now

end ReplaceCall

/-- `version = 1 if current is None else int(current["version"]) + 1`. -/
def nextVersion : Option MetricDocument → Nat
  | none => 1
  | some current => current.version + 1

structure MetricTables where
  documents : List MetricDocument := []
  chunks : List MetricChunkRow := []

namespace MetricTables
variable (t : MetricTables) (c : ReplaceCall) (key : UUID × String) (id : UUID) (now : Nat)

/-- `WHERE tenant_id = %s AND title = %s AND status = 'ACTIVE'`. -/
def active : Option MetricDocument := t.documents.find? fun d => d.key = key ∧ d.status = .active

def superseded (now : Nat) (id : UUID) (d : MetricDocument) : MetricDocument :=
  if d.id = id then { d with status := .superseded, updatedAt := now } else d

def supersede : MetricTables := { t with documents := t.documents.map (superseded now id) }

def deleteChunks : MetricTables := { t with chunks := t.chunks.filter fun chunk => chunk.documentId ≠ id }

def insertDocument (d : MetricDocument) : MetricTables := { t with documents := d :: t.documents }

def insertChunks (rows : List MetricChunkRow) : MetricTables := { t with chunks := rows ++ t.chunks }

/-- The writes of a call, for the row that its `SELECT` has returned. -/
def write (current : Option MetricDocument) : MetricTables :=
  let version := nextVersion current
  let t := match current with
    | none => t
    | some d => (t.supersede d.id c.now).deleteChunks d.id
  (t.insertDocument (c.document version)).insertChunks (c.chunkRows version)

/-- A call of `replace_document` that nothing runs beside. -/
def replaceDocument : MetricTables × StoredMetricDocument :=
  let current := t.active c.key
  (t.write c current, c.stored (nextVersion current))

end MetricTables

/-- The tables after calls one after the other, the last one first. -/
def serial : List ReplaceCall → MetricTables
  | [] => {}
  | c :: calls => ((serial calls).replaceDocument c).1

/-- The documents of one title, the last version first: versions go down to 1, and the last one alone is
active. -/
def Ladder : List MetricDocument → Prop
  | [] => True
  | d :: rest => d.version = rest.length + 1 ∧ Ladder rest

structure TitleHistory (ds : List MetricDocument) : Prop where
  versions : Ladder ds
  last : ∀ d ∈ ds.head?, d.status = .active
  older : ∀ d ∈ ds.tail, d.status = .superseded

def MetricTables.titled (t : MetricTables) (key : UUID × String) : List MetricDocument :=
  t.documents.filter fun d => d.key = key

/-- What holds of the tables between calls. -/
structure MetricTables.Ordered (t : MetricTables) : Prop where
  ids : (t.documents.map MetricDocument.id).Nodup
  history : ∀ key, TitleHistory (t.titled key)
  chunks : ∀ chunk ∈ t.chunks, ∃ d ∈ t.documents, d.id = chunk.documentId ∧ d.status = .active

section Ladder
variable {ds rest : List MetricDocument} {d e : MetricDocument} {id : UUID} {now : Nat}

theorem Ladder.le (h : Ladder ds) (hd : d ∈ ds) : 1 ≤ d.version ∧ d.version ≤ ds.length := by
  induction ds with
  | nil => cases hd
  | cons e rest ih =>
    obtain ⟨hv, hrest⟩ := h
    rw [List.length_cons]
    cases List.mem_cons.mp hd with
    | inl he =>
      rw [he]
      omega
    | inr hm =>
      have hle := ih hrest hm
      omega

theorem Ladder.first (h : Ladder ds) (hne : ds ≠ []) : ∃ d ∈ ds, d.version = 1 := by
  induction ds with
  | nil => exact absurd rfl hne
  | cons d rest ih =>
    cases rest with
    | nil => exact ⟨d, List.mem_cons_self, h.1⟩
    | cons e rest =>
      obtain ⟨f, hf, hv⟩ := ih h.2 (by simp)
      exact ⟨f, List.mem_cons_of_mem d hf, hv⟩

theorem superseded_key : (MetricTables.superseded now id d).key = d.key := by
  rw [MetricTables.superseded]
  by_cases h : d.id = id
  · rw [if_pos h]
    rfl
  · rw [if_neg h]

theorem superseded_id : (MetricTables.superseded now id d).id = d.id := by
  rw [MetricTables.superseded]
  by_cases h : d.id = id
  · rw [if_pos h]
  · rw [if_neg h]

theorem map_superseded_of_ne (h : ∀ d ∈ ds, d.id ≠ id) : ds.map (MetricTables.superseded now id) = ds := by
  rw [List.map_congr_left (g := fun d => d), List.map_id']
  intro d hd
  rw [MetricTables.superseded, if_neg (h d hd)]

end Ladder

namespace MetricTables
variable {t : MetricTables} {c : ReplaceCall} {key : UUID × String} {d : MetricDocument}

theorem mem_titled : d ∈ t.titled key ↔ d ∈ t.documents ∧ d.key = key := by
  rw [titled, List.mem_filter, decide_eq_true_eq]

theorem active_eq : t.active key = (t.titled key).find? fun d => d.status = .active := by
  rw [active, titled, List.find?_filter]
  congr
  funext d
  simp

/-- The active document of a title is its last version. -/
theorem Ordered.active_head (h : t.Ordered) : t.active key = (t.titled key).head? := by
  have hh := h.history key
  rw [active_eq]
  cases hd : t.titled key with
  | nil => rfl
  | cons d rest =>
    rw [hd] at hh
    have ha : d.status = .active := hh.last d rfl
    simp [ha]

theorem Ordered.active_some (h : t.Ordered) (ha : t.active key = some d) :
    d ∈ t.documents ∧ d.key = key ∧ d.status = .active ∧ d.version = (t.titled key).length := by
  have hh := h.history key
  rw [h.active_head] at ha
  cases hd : t.titled key with
  | nil =>
    rw [hd] at ha
    cases ha
  | cons e rest =>
    rw [hd] at ha hh
    injection ha with ha
    rw [← ha]
    have hm := mem_titled.mp (hd ▸ List.mem_cons_self : e ∈ t.titled key)
    exact ⟨hm.1, hm.2, hh.last e rfl, hh.versions.1⟩

theorem Ordered.active_none (h : t.Ordered) : t.active key = none ↔ t.titled key = [] := by
  rw [h.active_head, List.head?_eq_none_iff]

theorem Ordered.active_unique (h : t.Ordered) (hd : d ∈ t.documents) (ha : d.status = .active) :
    t.active d.key = some d := by
  have hh := h.history d.key
  have hm : d ∈ t.titled d.key := mem_titled.mpr ⟨hd, rfl⟩
  rw [h.active_head]
  cases hl : t.titled d.key with
  | nil =>
    rw [hl] at hm
    cases hm
  | cons e rest =>
    rw [hl] at hm hh
    cases List.mem_cons.mp hm with
    | inl he =>
      rw [he]
      rfl
    | inr hrest =>
      have hs := hh.older d hrest
      rw [ha] at hs
      cases hs

theorem ordered_empty : Ordered {} := by
  refine ⟨List.nodup_nil, fun key => ⟨trivial, ?_, ?_⟩, ?_⟩
  · intro d hd
    cases hd
  · intro d hd
    cases hd
  · intro chunk hchunk
    cases hchunk

/-- The documents of a title after a call: a new one before the old ones, of which the last is active no
more. -/
theorem Ordered.titled_write (h : t.Ordered) :
    (t.write c (t.active c.key)).titled key =
      if key = c.key then
        c.document ((t.titled key).length + 1) :: match t.titled key with
          | [] => []
          | d :: rest => { d with status := .superseded, updatedAt := c.now } :: rest
      else t.titled key := by
  cases ha : t.active c.key with
  | none =>
    have hnil := h.active_none.mp ha
    by_cases hk : key = c.key
    · rw [if_pos hk, hk, hnil]
      have hdocs : (t.write c none).titled c.key = c.document 1 :: t.titled c.key := by
        simp [write, titled, insertDocument, insertChunks, ReplaceCall.document, MetricDocument.key,
          ReplaceCall.key, nextVersion]
      rw [hdocs, hnil]
      rfl
    · rw [if_neg hk]
      have hne : ¬ (c.document 1).key = key := fun he => hk he.symm
      simp [write, titled, insertDocument, insertChunks, nextVersion, hne]
  | some d =>
    obtain ⟨hd, hkey, hactive, hversion⟩ := h.active_some ha
    have hdocs : (t.write c (some d)).titled key =
        (if c.key = key then [c.document (d.version + 1)] else []) ++
          (t.titled key).map (superseded c.now d.id) := by
      have hf : ((t.documents.map (superseded c.now d.id)).filter fun e => e.key = key) =
          (t.documents.filter fun e => e.key = key).map (superseded c.now d.id) := by
        rw [List.filter_map]
        congr 1
        apply List.filter_congr
        intro e _
        simp [superseded_key]
      have hnew : (c.document (d.version + 1)).key = c.key := rfl
      rw [titled, titled, ← hf]
      by_cases hk : c.key = key
      · simp [write, supersede, deleteChunks, insertDocument, insertChunks, nextVersion, hnew, hk]
      · simp [write, supersede, deleteChunks, insertDocument, insertChunks, nextVersion, hnew, hk]
    rw [hdocs]
    have hinj : ∀ e ∈ t.documents, e.id = d.id → e = d := fun e he hid =>
      List.inj_on_of_nodup_map h.ids he hd hid
    by_cases hk : key = c.key
    · rw [if_pos hk, if_pos hk.symm, hk]
      have hhead : t.active c.key = (t.titled c.key).head? := h.active_head
      rw [ha] at hhead
      cases hl : t.titled c.key with
      | nil =>
        rw [hl] at hhead
        cases hhead
      | cons e rest =>
        rw [hl] at hhead hversion
        injection hhead with he
        rw [← he] at hl ⊢
        have hrest : ∀ f ∈ rest, f.id ≠ d.id := by
          intro f hf hid
          have hfm := mem_titled.mp (hl ▸ List.mem_cons_of_mem d hf : f ∈ t.titled c.key)
          have hfd := hinj f hfm.1 hid
          have hnodup : (t.titled c.key).Nodup := (h.ids.of_map _).filter _
          rw [hl] at hnodup
          exact (List.nodup_cons.mp hnodup).1 (hfd ▸ hf)
        have hlength : (d :: rest).length + 1 = d.version + 1 := by
          rw [hversion]
          rfl
        rw [List.map_cons, map_superseded_of_ne hrest, superseded, if_pos rfl, hlength]
        rfl
    · rw [if_neg hk, if_neg fun he => hk he.symm, List.nil_append]
      apply map_superseded_of_ne
      intro e he hid
      have hem := mem_titled.mp he
      have hed := hinj e hem.1 hid
      rw [hed, hkey] at hem
      exact hk hem.2.symm

theorem mem_write {current : Option MetricDocument} (hd : d ∈ (t.write c current).documents) :
    d = c.document (nextVersion current) ∨ ∃ e ∈ t.documents, e.id = d.id ∧ e.key = d.key ∧
      (d.status = .active → e = d) := by
  cases current with
  | none =>
    cases List.mem_cons.mp hd with
    | inl he => exact .inl he
    | inr hm => exact .inr ⟨d, hm, rfl, rfl, fun _ => rfl⟩
  | some current =>
    cases List.mem_cons.mp hd with
    | inl he => exact .inl he
    | inr hm =>
      obtain ⟨e, he, rfl⟩ := List.mem_map.mp hm
      refine .inr ⟨e, he, superseded_id.symm, superseded_key.symm, ?_⟩
      intro ha
      rw [superseded] at ha ⊢
      by_cases hid : e.id = current.id
      · rw [if_pos hid] at ha
        cases ha
      · rw [if_neg hid]

theorem ids_write {current : Option MetricDocument} :
    (t.write c current).documents.map MetricDocument.id = c.documentId :: t.documents.map MetricDocument.id := by
  cases current with
  | none => rfl
  | some d =>
    change c.documentId :: ((t.documents.map (superseded c.now d.id)).map MetricDocument.id) = _
    rw [List.map_map]
    congr 1
    apply List.map_congr_left
    intro e _
    exact superseded_id

theorem mem_write_of_ne {current : Option MetricDocument} (hd : d ∈ t.documents)
    (hne : ∀ e, current = some e → e.id ≠ d.id) : d ∈ (t.write c current).documents := by
  cases current with
  | none => exact List.mem_cons_of_mem _ hd
  | some e =>
    refine List.mem_cons_of_mem _ (List.mem_map.mpr ⟨d, hd, ?_⟩)
    rw [superseded, if_neg fun hid => hne e rfl hid.symm]

/-- A call leaves the tables as it found them: in order. -/
theorem Ordered.replaceDocument (h : t.Ordered) (hid : c.documentId ∉ t.documents.map MetricDocument.id) :
    (t.replaceDocument c).1.Ordered := by
  change (t.write c (t.active c.key)).Ordered
  refine ⟨?_, ?_, ?_⟩
  · rw [ids_write]
    exact List.nodup_cons.mpr ⟨hid, h.ids⟩
  · intro key
    rw [h.titled_write]
    have hh := h.history key
    by_cases hk : key = c.key
    · rw [if_pos hk]
      cases hl : t.titled key with
      | nil =>
        refine ⟨⟨rfl, trivial⟩, ?_, ?_⟩
        · intro d hd
          cases hd
          rfl
        · intro d hd
          cases hd
      | cons d rest =>
        rw [hl] at hh
        refine ⟨⟨rfl, hh.versions⟩, ?_, ?_⟩
        · intro e he
          cases he
          rfl
        · intro e he
          cases List.mem_cons.mp he with
          | inl he =>
            rw [he]
          | inr hm => exact hh.older e hm
    · rw [if_neg hk]
      exact hh
  · intro chunk hchunk
    have hnew : ∀ current : Option MetricDocument, chunk ∈ c.chunkRows (nextVersion current) →
        ∃ d ∈ (t.write c current).documents, d.id = chunk.documentId ∧ d.status = .active := by
      intro current hm
      obtain ⟨pending, -, rfl⟩ := List.mem_map.mp hm
      exact ⟨c.document (nextVersion current), List.mem_cons_self, rfl, rfl⟩
    cases ha : t.active c.key with
    | none =>
      rw [ha] at hchunk
      cases List.mem_append.mp hchunk with
      | inl hm => exact hnew none hm
      | inr hm =>
        obtain ⟨d, hd, hdid, hactive⟩ := h.chunks chunk hm
        exact ⟨d, List.mem_cons_of_mem _ hd, hdid, hactive⟩
    | some e =>
      rw [ha] at hchunk
      cases List.mem_append.mp hchunk with
      | inl hm => exact hnew (some e) hm
      | inr hm =>
        obtain ⟨hm, hne⟩ := List.mem_filter.mp hm
        obtain ⟨d, hd, hdid, hactive⟩ := h.chunks chunk hm
        have hde : e.id ≠ d.id := by
          intro he
          rw [he, hdid] at hne
          simp at hne
        refine ⟨d, mem_write_of_ne hd ?_, hdid, hactive⟩
        intro f hf
        cases hf
        exact hde

end MetricTables

theorem serial_ids {calls : List ReplaceCall} :
    (serial calls).documents.map MetricDocument.id = calls.map ReplaceCall.documentId := by
  induction calls with
  | nil => rfl
  | cons c calls ih =>
    rw [List.map_cons, ← ih]
    exact MetricTables.ids_write

theorem serial_ordered {calls : List ReplaceCall} (h : (calls.map ReplaceCall.documentId).Nodup) :
    (serial calls).Ordered := by
  induction calls with
  | nil => exact MetricTables.ordered_empty
  | cons c calls ih =>
    have hn := List.nodup_cons.mp h
    refine (ih hn.2).replaceDocument ?_
    rw [serial_ids]
    exact hn.1

end DataCopilot.Retrieval
