import DataCopilot.KnowledgeGraph.PromptBounds
import DataCopilot.KnowledgeGraph.StoreRefinement

/-! `KnowledgeGraphService.answer`: how it ends. What it cites was quoted from the texts of the tenant's sources
as they were last extracted, or found by the retrieval. -/
namespace DataCopilot.KnowledgeGraph
open Agent KnowledgeGraphService

structure GraphAnswerDraft where
  answer : String
  citationIds : List String
  answer_ok : 1 ≤ answer.length ∧ answer.length ≤ 8000
  citations_ok : citationIds.length ≤ 30

structure GraphAnswer where
  answer : String
  citations : List Json
  graph : Subgraph
  shouldAnswer : Bool

/-- `list(dict.fromkeys(keys))`. -/
def fromKeys (keys : List String) : List String := (Dict.entries (keys.map fun key => (key, ()))).map Prod.fst

def boundedEvidence (graph : Subgraph) (retrieval : RetrievalResult) : Except Failure (List Evidence) := do
  let evidence ← evidenceOf graph retrieval
  .ok (withinBudget 0 (evidence.mergeSort evidenceLe))

/-- `{"id": key, **evidence[key]}`. -/
def citation (evidence : List Evidence) (key : String) : Except Failure Json :=
  match evidence.lookup key with
  | some (.object fields) => .ok (.object (("id", .string key) :: fields))
  | _ => .error (keyError key)

def cite (graph : Subgraph) (evidence : List Evidence) (draft : GraphAnswerDraft) : Except Failure GraphAnswer :=
  if draft.citationIds.any fun key => key ∉ evidence.map Prod.fst then
    .error (valueError "answer refers to unknown evidence")
  else do
    let cited := fromKeys draft.citationIds
    let citations ← cited.mapM (citation evidence)
    .ok {
      answer := draft.answer
      citations := citations
      graph := graph
      shouldAnswer := !cited.isEmpty }

/-- `subgraph` and `retrieve` are what the store and the retrieval come to, and `generate` is the structured call
of the model. -/
def answer (query : String) (subgraph : Except Failure Subgraph) (retrieve : Except Failure RetrievalResult)
    (generate : List LLMMessage → Except Failure GraphAnswerDraft) : Except Failure GraphAnswer := do
  let graph ← subgraph
  let retrieval ← retrieve
  let evidence ← boundedEvidence graph retrieval
  match ← answerMessages query graph retrieval with
  | none => .ok ⟨"知识库中没有足够证据回答这个问题。", [], graph, false⟩
  | some prompts => do
    let sent ← messages prompts
    let draft ← generate sent
    cite graph evidence draft

/-- Where the fields of a citation come from: an entity or a relation of the graph that the tenant's source was last
extracted to, quoted from its text, or a document that was found. The names are those in the graph that was read. -/
inductive Origin (uuid5 : UUID → String → UUID) (casefold : String → String) (calls : List Call) (tenantId : UUID)
    (graph : Subgraph) (retrieval : RetrievalResult) : String → List (String × Json) → Prop
  | node {call : Call} {g : Subgraph} {n : GraphNode} : call ∈ calls → call.tenantId = tenantId →
      (run uuid5 casefold calls).get (tenantId, call.request.sourceId) = some g → build uuid5 casefold call = .ok g →
      n ∈ g.nodes → Text.contains call.request.text n.evidence = true →
      Origin uuid5 casefold calls tenantId graph retrieval ("node:" ++ n.id.text) [
        ("text", .string n.evidence),
        ("name", .string n.name),
        ("source_name", .string call.request.sourceName),
        ("source_id", .string call.request.sourceId.text)]
  | edge {call : Call} {g : Subgraph} {e : GraphEdge} {source target : String} : call ∈ calls →
      call.tenantId = tenantId → (run uuid5 casefold calls).get (tenantId, call.request.sourceId) = some g →
      build uuid5 casefold call = .ok g → e ∈ g.edges → Text.contains call.request.text e.evidence = true →
      nodeName graph e.source = .ok source → nodeName graph e.target = .ok target →
      Origin uuid5 casefold calls tenantId graph retrieval ("edge:" ++ e.id.text) [
        ("text", .string e.evidence),
        ("relation", .string (source ++ " " ++ e.kind.text ++ " " ++ target)),
        ("source_name", .string call.request.sourceName),
        ("source_id", .string call.request.sourceId.text)]
  | document {index : Nat} {hit : RetrievalHit} {fields : List (String × Json)} : retrieval.shouldAnswer = true →
      retrieval.hits[index]? = some hit → (hitEvidence index hit).2 = .object fields →
      Origin uuid5 casefold calls tenantId graph retrieval ("document:" ++ toString index) fields

/-- A graph of nodes of the tenant, whose edges join them. -/
structure Drawn (memory : MemoryGraphStore) (tenantId : UUID) (graph : Subgraph) : Prop where
  nodes : ∀ n ∈ graph.nodes, n ∈ (memory.all tenantId).1
  edges : ∀ e ∈ graph.edges, e ∈ (memory.all tenantId).2
  ends : ∀ e ∈ graph.edges, e.source.text ∈ graph.nodes.map (·.id.text) ∧ e.target.text ∈ graph.nodes.map (·.id.text)

section Drawn
variable {memory : MemoryGraphStore} {neo4j : Neo4jGraphStore} {tenantId : UUID} {graph : Subgraph}
variable {casefold toLower : String → String} {query : String} {depth limit : Nat}

theorem mem_of_fetched {α : Type} {le : α → α → Prop} [DecidableRel le] {l : List α} {x : α} {m n : Nat}
    (h : x ∈ ((l.insertionSort le).take m).take n) : x ∈ l :=
  (List.mem_insertionSort _).mp (List.mem_of_mem_take (List.mem_of_mem_take h))

theorem mem_edgesAmong {chosen : List String} {edges : List GraphEdge} {e : GraphEdge} :
    e ∈ edgesAmong chosen edges ↔ e ∈ edges ∧ e.source.text ∈ chosen ∧ e.target.text ∈ chosen := by
  rw [edgesAmong, List.mem_filter, decide_eq_true_eq]

theorem MemoryGraphStore.drawn : Drawn memory tenantId (memory.subgraph casefold tenantId query depth limit) := by
  refine ⟨fun n hn => ?_, fun e he => ?_, fun e he => ?_⟩
  · exact (List.mem_filter.mp (List.mem_of_mem_take hn)).1
  · exact (mem_edgesAmong.mp (List.mem_of_mem_take he)).1
  · exact (mem_edgesAmong.mp (List.mem_of_mem_take he)).2

theorem Neo4jGraphStore.drawn (h : Agree neo4j memory)
    (hg : neo4j.subgraph casefold toLower tenantId query depth limit = .ok graph) : Drawn memory tenantId graph := by
  obtain ⟨hnodes, hedges⟩ := h.tenant tenantId
  rw [Neo4jGraphStore.subgraph] at hg
  split at hg
  next =>
    injection hg with hg
    rw [← hg]
    refine ⟨fun n hn => ?_, fun e he => ?_, fun e he => ?_⟩
    · obtain ⟨seed, -, hexpand⟩ := List.mem_flatMap.mp (List.mem_dedup.mp (mem_of_fetched hn))
      obtain ⟨key, -, hkey⟩ := List.mem_flatMap.mp hexpand
      exact hnodes.mem_iff.mp (List.mem_filter.mp hkey).1
    · exact hedges.mem_iff.mp (mem_edgesAmong.mp (mem_of_fetched he)).1
    · exact (mem_edgesAmong.mp (mem_of_fetched he)).2
  next => cases hg

end Drawn

theorem within_budget_sublist (used : Nat) (evidence : List Evidence) :
    (withinBudget used evidence).Sublist evidence := by
  induction evidence generalizing used with
  | nil => exact List.Sublist.refl []
  | cons e rest ih =>
    rw [withinBudget]
    split
    · exact (ih used).cons e
    · exact (ih (used + evidenceSize e)).cons_cons e

section Evidence
variable {uuid5 : UUID → String → UUID} {casefold : String → String} {calls : List Call} {tenantId : UUID}
variable {graph : Subgraph} {retrieval : RetrievalResult} {evidence : List Evidence}

/-- No name of an edge is missing. -/
theorem evidenceOf_ok (retrieval : RetrievalResult) (h : ∀ e ∈ graph.edges, e.source.text ∈ graph.nodes.map (·.id.text) ∧
    e.target.text ∈ graph.nodes.map (·.id.text)) : ∃ evidence, evidenceOf graph retrieval = .ok evidence := by
  have hname : ∀ id : UUID, id.text ∈ graph.nodes.map (·.id.text) → ∃ name, nodeName graph id = .ok name := by
    intro id hid
    rw [nodeName]
    cases hl : Dict.ofPairs (graph.nodes.map fun n => (n.id.text, n.name)) id.text with
    | some name => exact ⟨name, rfl⟩
    | none =>
      obtain ⟨n, hn, he⟩ := List.mem_map.mp hid
      exact absurd he (Dict.ofPairs_eq_none.mp hl (n.id.text, n.name) (List.mem_map.mpr ⟨n, hn, rfl⟩))
  have hedges : ∃ edges, graph.edges.mapM (edgeEvidence graph) = .ok edges := by
    apply Result.exists_mapM
    intro e he
    obtain ⟨hs, ht⟩ := h e he
    obtain ⟨source, hsource⟩ := hname e.source hs
    obtain ⟨target, htarget⟩ := hname e.target ht
    rw [edgeEvidence, hsource, htarget]
    exact ⟨_, rfl⟩
  obtain ⟨edges, hedges⟩ := hedges
  rw [evidenceOf, hedges]
  exact ⟨_, rfl⟩

/-- A graph of the store is what its source was last extracted to. -/
theorem of_mem_graphs {item : (UUID × UUID) × Subgraph} (hi : item ∈ (run uuid5 casefold calls).graphs)
    (ht : item.1.1 = tenantId) : ∃ call ∈ calls, call.tenantId = tenantId ∧
      (run uuid5 casefold calls).get (tenantId, call.request.sourceId) = some item.2 ∧
      build uuid5 casefold call = .ok item.2 := by
  obtain ⟨call, hc, hkey, hb⟩ := builtBy_run uuid5 casefold calls item hi
  have hlookup := Dict.lookup_of_mem (run uuid5 casefold calls).keys_nodup hi
  have hcall : call.tenantId = tenantId := (congrArg Prod.fst hkey).trans ht
  refine ⟨call, hc, hcall, ?_, hb⟩
  rw [← hcall, hkey]
  exact hlookup

theorem node_origin {n : GraphNode} (h : n ∈ ((run uuid5 casefold calls).all tenantId).1) :
    ∃ fields, (nodeEvidence n).2 = .object fields ∧
      Origin uuid5 casefold calls tenantId graph retrieval (nodeEvidence n).1 fields := by
  obtain ⟨graph, hg, hn⟩ := List.mem_flatMap.mp h
  obtain ⟨item, hi, rfl⟩ := List.mem_map.mp hg
  obtain ⟨hi, ht⟩ := List.mem_filter.mp hi
  obtain ⟨call, hc, hcall, hget, hb⟩ := of_mem_graphs hi (of_decide_eq_true ht)
  obtain ⟨x, -, hq, hbuilt⟩ := build_eq_ok.mp hb
  have hnodes := hn
  rw [hbuilt] at hnodes
  obtain ⟨e, he, hen⟩ := List.mem_map.mp hnodes
  have hquoted : Text.contains call.request.text n.evidence = true := by
    rw [← hen]
    exact (contains_of_quoted hq).1 e he
  refine ⟨_, rfl, ?_⟩
  have hname : n.sourceName = call.request.sourceName := by rw [← hen]; rfl
  have hsource : n.sourceId = call.request.sourceId := by rw [← hen]; rfl
  rw [hname, hsource]
  exact .node hc hcall hget hb hn hquoted

theorem edge_origin {e : GraphEdge} {shown : Evidence} (h : e ∈ ((run uuid5 casefold calls).all tenantId).2)
    (hs : edgeEvidence graph e = .ok shown) : ∃ fields, shown.2 = .object fields ∧
      Origin uuid5 casefold calls tenantId graph retrieval shown.1 fields := by
  obtain ⟨g, hg, hmem⟩ := List.mem_flatMap.mp h
  obtain ⟨item, hi, rfl⟩ := List.mem_map.mp hg
  obtain ⟨hi, ht⟩ := List.mem_filter.mp hi
  obtain ⟨call, hc, hcall, hget, hb⟩ := of_mem_graphs hi (of_decide_eq_true ht)
  obtain ⟨x, -, hq, hbuilt⟩ := build_eq_ok.mp hb
  have hedges := hmem
  rw [hbuilt] at hedges
  obtain ⟨r, hr, hre⟩ := List.mem_map.mp (Dict.mem_of_mem_valuesBy hedges)
  have hquoted : Text.contains call.request.text e.evidence = true := by
    rw [← hre]
    exact (contains_of_quoted hq).2 r hr
  obtain ⟨source, hsource', hs⟩ := Result.bind_eq_ok.mp hs
  obtain ⟨target, htarget, hs⟩ := Result.bind_eq_ok.mp hs
  injection hs with hs
  rw [← hs]
  refine ⟨_, rfl, ?_⟩
  have hname : e.sourceName = call.request.sourceName := by rw [← hre]; rfl
  have hsource : e.sourceId = call.request.sourceId := by rw [← hre]; rfl
  rw [hname, hsource]
  exact .edge hc hcall hget hb hmem hquoted hsource' htarget

theorem evidence_origin (hd : Drawn (run uuid5 casefold calls) tenantId graph)
    (he : evidenceOf graph retrieval = .ok evidence) : ∀ shown ∈ evidence, ∃ fields, shown.2 = .object fields ∧
      Origin uuid5 casefold calls tenantId graph retrieval shown.1 fields := by
  obtain ⟨edges, hedges, he⟩ := Result.bind_eq_ok.mp he
  injection he with he
  rw [← he]
  intro shown hm
  have hm := Dict.mem_of_mem_entries hm
  rcases List.mem_append.mp hm with hm | hm
  · rcases List.mem_append.mp hm with hm | hm
    · obtain ⟨n, hn, rfl⟩ := List.mem_map.mp hm
      exact node_origin (hd.nodes n hn)
    · obtain ⟨e, hmem, hshown⟩ := Result.mem_of_mapM hedges hm
      exact edge_origin (hd.edges e hmem) hshown
  · by_cases hs : retrieval.shouldAnswer = true
    · rw [if_pos hs] at hm
      obtain ⟨⟨hit, index⟩, hp, rfl⟩ := List.mem_map.mp hm
      have hget := List.mem_zipIdx_iff_getElem?.mp hp
      exact ⟨_, rfl, .document hs hget rfl⟩
    · rw [if_neg hs] at hm
      cases hm

/-- What is shown to the model keeps the keys apart. -/
theorem boundedEvidence_ok (h : boundedEvidence graph retrieval = .ok evidence) : ∃ all,
    evidenceOf graph retrieval = .ok all ∧ (∀ e ∈ evidence, e ∈ all) ∧ (evidence.map Prod.fst).Nodup := by
  obtain ⟨all, hall, h⟩ := Result.bind_eq_ok.mp h
  injection h with h
  refine ⟨all, hall, fun e he => ?_, ?_⟩
  · rw [← h] at he
    exact List.mem_mergeSort.mp (mem_of_within_budget he)
  · obtain ⟨edges, -, he⟩ := Result.bind_eq_ok.mp hall
    injection he with he
    have hnodup : (all.map Prod.fst).Nodup := he ▸ Dict.nodup_keys_entries _
    rw [← h]
    have hsorted := ((List.mergeSort_perm all evidenceLe).map Prod.fst).nodup_iff.mpr hnodup
    exact hsorted.sublist ((within_budget_sublist 0 _).map Prod.fst)

theorem mem_fromKeys {keys : List String} {key : String} : key ∈ fromKeys keys ↔ key ∈ keys := by
  rw [fromKeys, Dict.mem_keys_entries, List.map_map]
  simp

theorem citation_ok {key : String} {c : Json} (hc : citation evidence key = .ok c) : ∃ fields,
    (key, .object fields) ∈ evidence ∧ c = .object (("id", .string key) :: fields) := by
  rw [citation] at hc
  split at hc
  next fields hl =>
    injection hc with hc
    obtain ⟨before, after, he, -⟩ := List.lookup_eq_some_iff.mp hl
    exact ⟨fields, he ▸ List.mem_append_right _ List.mem_cons_self, hc.symm⟩
  next => cases hc

/-- Citing raises for a key that the model was not shown, and for nothing else. -/
theorem cite_cases (graph : Subgraph) (hn : (evidence.map Prod.fst).Nodup) (ho : ∀ e ∈ evidence, ∃ fields, e.2 = .object fields)
    (draft : GraphAnswerDraft) :
    (∃ key ∈ draft.citationIds, key ∉ evidence.map Prod.fst) ∧
      cite graph evidence draft = .error (valueError "answer refers to unknown evidence") ∨
    (∀ key ∈ draft.citationIds, key ∈ evidence.map Prod.fst) ∧
      ∃ citations, (fromKeys draft.citationIds).mapM (citation evidence) = .ok citations ∧
        cite graph evidence draft =
          .ok ⟨draft.answer, citations, graph, !(fromKeys draft.citationIds).isEmpty⟩ := by
  rw [cite]
  split
  next hunknown =>
    obtain ⟨key, hkey, hnot⟩ := List.any_eq_true.mp hunknown
    exact .inl ⟨⟨key, hkey, of_decide_eq_true hnot⟩, rfl⟩
  next hknown =>
    have hshown : ∀ key ∈ draft.citationIds, key ∈ evidence.map Prod.fst := by
      intro key hkey
      by_contra hnot
      exact hknown (List.any_eq_true.mpr ⟨key, hkey, decide_eq_true hnot⟩)
    have hkeys : ∀ key ∈ fromKeys draft.citationIds, ∃ c, citation evidence key = .ok c := by
      intro key hkey
      obtain ⟨e, he, rfl⟩ := List.mem_map.mp (hshown key (mem_fromKeys.mp hkey))
      obtain ⟨fields, hfields⟩ := ho e he
      rw [citation, Dict.lookup_of_mem hn he, hfields]
      exact ⟨_, rfl⟩
    obtain ⟨citations, hcitations⟩ := Result.exists_mapM hkeys
    refine .inr ⟨hshown, citations, hcitations, ?_⟩
    simp only [hcitations]
    rfl

end Evidence

/-- The distinct keys of a list in the order of their first uses. -/
structure FirstUses (named keys : List String) : Prop where
  same : ∀ key, key ∈ keys ↔ key ∈ named
  ordered : keys.Pairwise fun a b => named.idxOf a < named.idxOf b

theorem firstUses_fromKeys (named : List String) : FirstUses named (fromKeys named) := by
  refine ⟨fun key => mem_fromKeys, ?_⟩
  have h := Dict.pairwise_keys_entries (named.map fun key => (key, ()))
  rw [List.map_map, show (Prod.fst ∘ fun key : String => (key, ())) = id from rfl, List.map_id] at h
  exact h

/-- What the model is shown: evidence from the graph that was read, or from the retrieval. -/
def Shown (graph : Subgraph) (retrieval : RetrievalResult) (key : String) : Prop :=
  ∃ evidence, boundedEvidence graph retrieval = .ok evidence ∧ key ∈ evidence.map Prod.fst

/-- The messages that are sent for a question. -/
def Asked (query : String) (graph : Subgraph) (retrieval : RetrievalResult) (sent : List LLMMessage) : Prop :=
  ∃ prompts, answerMessages query graph retrieval = .ok (some prompts) ∧ messages prompts = .ok sent

/-- How a call of `answer` ends. -/
inductive Ends (uuid5 : UUID → String → UUID) (casefold : String → String) (calls : List Call) (tenantId : UUID)
    (query : String) (subgraph : Except Failure Subgraph) (retrieve : Except Failure RetrievalResult)
    (generate : List LLMMessage → Except Failure GraphAnswerDraft) : Except Failure GraphAnswer → Prop
  | unread {e : Failure} : subgraph = .error e → Ends uuid5 casefold calls tenantId query subgraph retrieve generate (.error e)
  | unretrieved {graph : Subgraph} {e : Failure} : subgraph = .ok graph → retrieve = .error e →
      Ends uuid5 casefold calls tenantId query subgraph retrieve generate (.error e)
  /-- There is nothing to answer from, and the model is not asked. -/
  | unasked {graph : Subgraph} {retrieval : RetrievalResult} : subgraph = .ok graph → retrieve = .ok retrieval →
      (∀ key, ¬ Shown graph retrieval key) → Ends uuid5 casefold calls tenantId query subgraph retrieve generate
        (.ok ⟨"知识库中没有足够证据回答这个问题。", [], graph, false⟩)
  /-- The question is too wide for a message. -/
  | unsent {graph : Subgraph} {retrieval : RetrievalResult} : subgraph = .ok graph → retrieve = .ok retrieval →
      17974 < Json.width false query →
      Ends uuid5 casefold calls tenantId query subgraph retrieve generate (.error validationError)
  | unanswered {graph : Subgraph} {retrieval : RetrievalResult} {sent : List LLMMessage} {e : Failure} :
      subgraph = .ok graph → retrieve = .ok retrieval → Asked query graph retrieval sent → generate sent = .error e →
      Ends uuid5 casefold calls tenantId query subgraph retrieve generate (.error e)
  /-- The model names a key that it was not shown. -/
  | refused {graph : Subgraph} {retrieval : RetrievalResult} {sent : List LLMMessage} {draft : GraphAnswerDraft}
      {key : String} : subgraph = .ok graph → retrieve = .ok retrieval → Asked query graph retrieval sent →
      generate sent = .ok draft → key ∈ draft.citationIds → ¬ Shown graph retrieval key →
      Ends uuid5 casefold calls tenantId query subgraph retrieve generate
        (.error (valueError "answer refers to unknown evidence"))
  | cited {graph : Subgraph} {retrieval : RetrievalResult} {sent : List LLMMessage} {draft : GraphAnswerDraft}
      {keys : List String} {citations : List Json} : subgraph = .ok graph → retrieve = .ok retrieval →
      Asked query graph retrieval sent → generate sent = .ok draft →
      (∀ key ∈ draft.citationIds, Shown graph retrieval key) →
      FirstUses draft.citationIds keys →
      List.Forall₂ (fun key c => ∃ fields, c = .object (("id", .string key) :: fields) ∧
        Origin uuid5 casefold calls tenantId graph retrieval key fields) keys citations →
      Ends uuid5 casefold calls tenantId query subgraph retrieve generate
        (.ok ⟨draft.answer, citations, graph, !keys.isEmpty⟩)

/-- A graph that is read is what one of the two stores answers. -/
def Reads (uuid5 : UUID → String → UUID) (casefold toLower : String → String) (calls : List Call) (tenantId : UUID)
    (query : String) (subgraph : Except Failure Subgraph) : Prop :=
  ∀ graph, subgraph = .ok graph → graph = (run uuid5 casefold calls).subgraph casefold tenantId query 2 60 ∨
    (Neo4jGraphStore.run uuid5 casefold calls).subgraph casefold toLower tenantId query 2 60 = .ok graph

section Answer
variable {uuid5 : UUID → String → UUID} {casefold toLower : String → String} {calls : List Call} {tenantId : UUID}
variable {query : String} {graph : Subgraph} {retrieval : RetrievalResult}
variable {subgraph : Except Failure Subgraph} {retrieve : Except Failure RetrievalResult}
variable {generate : List LLMMessage → Except Failure GraphAnswerDraft}

theorem answer_unasked {evidence : List Evidence} (hb : boundedEvidence graph retrieval = .ok evidence)
    (hm : answerMessages query graph retrieval = .ok none) : answer query (.ok graph) (.ok retrieval) generate =
      .ok ⟨"知识库中没有足够证据回答这个问题。", [], graph, false⟩ := by
  change (boundedEvidence graph retrieval >>= _) = _
  rw [hb]
  change (answerMessages query graph retrieval >>= _) = _
  rw [hm]
  rfl

theorem answer_asked {evidence : List Evidence} {prompts : List Prompt}
    (hb : boundedEvidence graph retrieval = .ok evidence)
    (hm : answerMessages query graph retrieval = .ok (some prompts)) :
    answer query (.ok graph) (.ok retrieval) generate =
      messages prompts >>= fun sent => generate sent >>= cite graph evidence := by
  change (boundedEvidence graph retrieval >>= _) = _
  rw [hb]
  change (answerMessages query graph retrieval >>= _) = _
  rw [hm]
  rfl

theorem answerMessages_eq (query : String) {all : List Evidence} (hall : evidenceOf graph retrieval = .ok all) :
    answerMessages query graph retrieval = .ok none ∧ withinBudget 0 (all.mergeSort evidenceLe) = [] ∨
      ∃ prompts, answerMessages query graph retrieval = .ok (some prompts) := by
  rw [answerMessages, hall]
  by_cases hn : withinBudget 0 (all.mergeSort evidenceLe) = []
  · exact .inl ⟨if_pos hn, hn⟩
  · exact .inr ⟨_, if_neg hn⟩

/-- Prompts that cannot be sent carry a question that is too wide. -/
theorem wide_of_unsent {prompts : List Prompt} {e : Failure}
    (hm : answerMessages query graph retrieval = .ok (some prompts)) (he : messages prompts = .error e) :
    e = validationError ∧ 17974 < Json.width false query := by
  refine ⟨messages_error he, ?_⟩
  by_contra hw
  obtain ⟨sent, hsent⟩ := answer_sendable (not_lt.mp hw) hm
  rw [hsent] at he
  cases he

theorem drawn_of_reads (hfree : NoCollision uuid5 casefold calls)
    (hr : Reads uuid5 casefold toLower calls tenantId query subgraph) (hg : subgraph = .ok graph) :
    Drawn (run uuid5 casefold calls) tenantId graph := by
  cases hr graph hg with
  | inl h => exact h ▸ MemoryGraphStore.drawn
  | inr h => exact Neo4jGraphStore.drawn (agree_run calls hfree) h

theorem ends_cite {evidence : List Evidence} {sent : List LLMMessage} {draft : GraphAnswerDraft}
    (hd : Drawn (run uuid5 casefold calls) tenantId graph) (hg : subgraph = .ok graph)
    (hr : retrieve = .ok retrieval) (hb : boundedEvidence graph retrieval = .ok evidence)
    (hasked : Asked query graph retrieval sent) (hdraft : generate sent = .ok draft) :
    Ends uuid5 casefold calls tenantId query subgraph retrieve generate (cite graph evidence draft) := by
  obtain ⟨all, hall, hsub, hnodup⟩ := boundedEvidence_ok hb
  have horigin := evidence_origin hd hall
  have hobject : ∀ e ∈ evidence, ∃ fields, e.2 = .object fields := by
    intro e he
    obtain ⟨fields, hfields, -⟩ := horigin e (hsub e he)
    exact ⟨fields, hfields⟩
  have hshown {key : String} : Shown graph retrieval key ↔ key ∈ evidence.map Prod.fst := by
    constructor
    · rintro ⟨evidence', hb', hkey⟩
      rw [hb] at hb'
      injection hb' with hb'
      exact hb' ▸ hkey
    · intro hkey
      exact ⟨evidence, hb, hkey⟩
  rcases cite_cases graph hnodup hobject draft with
    ⟨⟨key, hkey, hnot⟩, hcite⟩ | ⟨hknown, citations, hcitations, hcite⟩
  · rw [hcite]
    exact .refused hg hr hasked hdraft hkey fun hs => hnot (hshown.mp hs)
  · rw [hcite]
    refine .cited hg hr hasked hdraft (fun key hkey => hshown.mpr (hknown key hkey)) (firstUses_fromKeys _) ?_
    refine (Result.mapM_eq_ok_iff.mp hcitations).imp fun key c hc => ?_
    obtain ⟨fields, hmem, he⟩ := citation_ok hc
    obtain ⟨fields', hfields, ho⟩ := horigin _ (hsub _ hmem)
    injection hfields with hfields
    exact ⟨fields, he, hfields ▸ ho⟩

/-- Over either store every call ends so. -/
theorem answer_ends (query : String) (retrieve : Except Failure RetrievalResult)
    (generate : List LLMMessage → Except Failure GraphAnswerDraft) (hfree : NoCollision uuid5 casefold calls)
    (hreads : Reads uuid5 casefold toLower calls tenantId query subgraph) :
    Ends uuid5 casefold calls tenantId query subgraph retrieve generate
      (answer query subgraph retrieve generate) := by
  cases subgraph with
  | error e => exact .unread rfl
  | ok graph =>
    cases retrieve with
    | error e => exact .unretrieved rfl rfl
    | ok retrieval =>
      have hd := drawn_of_reads hfree hreads rfl
      obtain ⟨all, hall⟩ := evidenceOf_ok retrieval hd.ends
      have hb : boundedEvidence graph retrieval = .ok (withinBudget 0 (all.mergeSort evidenceLe)) := by
        rw [boundedEvidence, hall]
        rfl
      rcases answerMessages_eq query hall with ⟨hm, hnil⟩ | ⟨prompts, hm⟩
      · rw [answer_unasked hb hm]
        refine .unasked rfl rfl ?_
        rintro key ⟨evidence, hb', hkey⟩
        rw [hb, hnil] at hb'
        injection hb' with hb'
        rw [← hb'] at hkey
        cases hkey
      · rw [answer_asked hb hm]
        cases hs : messages prompts with
        | error e =>
          obtain ⟨rfl, hw⟩ := wide_of_unsent hm hs
          exact .unsent rfl rfl hw
        | ok sent =>
          change Ends uuid5 casefold calls tenantId query _ _ generate (generate sent >>= _)
          cases hdraft : generate sent with
          | error e => exact .unanswered rfl rfl ⟨prompts, hm, hs⟩ hdraft
          | ok draft => exact ends_cite hd rfl rfl hb ⟨prompts, hm, hs⟩ hdraft

end Answer

def shopCalls : List Call := [revenueOf glossary "Revenue", revenueOf handbook "REVENUE", revised]

def shopDraft : GraphAnswerDraft where
  answer := "Revenue is the sum over orders."
  citationIds := ["edge:b95e74d0-0743-5d64-a816-9cf1c340a730", "edge:b95e74d0-0743-5d64-a816-9cf1c340a730"]
  answer_ok := by decide
  citations_ok := by decide

def shopGraph : Subgraph := (run shopId Text.lower shopCalls).subgraph Text.lower shop "revenue" 2 60

/-- An answer about the sources of the shop. -/
theorem shop_answer_ends : Ends shopId Text.lower shopCalls shop "revenue" (.ok shopGraph) (.ok ⟨[], [], false⟩)
    (fun _ => .ok shopDraft) (answer "revenue" (.ok shopGraph) (.ok ⟨[], [], false⟩) fun _ => .ok shopDraft) := by
  have hfree : NoCollision shopId Text.lower shopCalls := by decide +kernel
  have hreads : Reads shopId Text.lower Text.lower shopCalls shop "revenue" (.ok shopGraph) := by
    rintro graph ⟨⟩
    exact .inl rfl
  exact answer_ends "revenue" (.ok ⟨[], [], false⟩) (fun _ => .ok shopDraft) hfree hreads

end DataCopilot.KnowledgeGraph
