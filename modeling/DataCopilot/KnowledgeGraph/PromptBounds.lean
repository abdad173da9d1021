import DataCopilot.Library.Result
import DataCopilot.KnowledgeGraph.Prompts

/-! Which texts fit into the messages once they are written as JSON: the bounds of the inputs are
not those of the prompts. -/
namespace DataCopilot.KnowledgeGraph
open Agent Json

/-- The messages can be constructed. -/
def Sendable (prompts : List Prompt) : Prop := ∃ sent, messages prompts = .ok sent

theorem sendable_iff {prompts : List Prompt} :
    Sendable prompts ↔ ∀ m ∈ prompts, 1 ≤ m.2.length ∧ m.2.length ≤ 50000 := by
  constructor
  · intro ⟨sent, h⟩
    induction prompts generalizing sent with
    | nil => exact fun m hm => by cases hm
    | cons p rest ih =>
      rw [messages, List.mapM_cons] at h
      by_cases hp : 1 ≤ p.2.length ∧ p.2.length ≤ 50000
      · rw [dif_pos hp] at h
        obtain ⟨first, -, h⟩ := Result.bind_eq_ok.mp h
        obtain ⟨later, hl, -⟩ := Result.bind_eq_ok.mp h
        intro m hm
        cases List.mem_cons.mp hm with
        | inl he => exact he ▸ hp
        | inr hm => exact ih later hl m hm
      · rw [dif_neg hp] at h
        cases h
  · exact messages_ok

theorem sendable_append {a b : List Prompt} : Sendable (a ++ b) ↔ Sendable a ∧ Sendable b := by
  simp only [sendable_iff, List.forall_mem_append]

theorem sendable_pair {m n : Prompt} :
    Sendable [m, n] ↔ (1 ≤ m.2.length ∧ m.2.length ≤ 50000) ∧ 1 ≤ n.2.length ∧ n.2.length ≤ 50000 := by
  rw [sendable_iff, List.forall_mem_cons, List.forall_mem_singleton]

theorem extract_length (request : ExtractRequest) :
    (Json.dumps (.object [("source_text", .string request.text)])).length = width true request.text + 19 := by
  have hk : (quote true "source_text").length = 13 := by decide
  rw [dumps_length]
  simp only [render, renderFields, List.length_append, List.length_cons, List.length_nil, quote_length,
    hk]
  omega

theorem repair_length (previousSql safeErrorCode : String) :
    (Json.dumpsCompact (.object [("previous_sql", .string previousSql),
      ("safe_error_code", .string safeErrorCode),
      ("instruction", .string "Return a corrected structured draft using the same selected schema.")])).length
      = width false previousSql + width false safeErrorCode + 124 := by
  have h1 : (quote false "previous_sql").length = 14 := by decide
  have h2 : (quote false "safe_error_code").length = 17 := by decide
  have h3 : (quote false "instruction").length = 13 := by decide
  have h4 : (quote false "Return a corrected structured draft using the same selected schema.").length = 69 := by
    decide
  rw [dumpsCompact_length]
  simp only [render, renderFields, List.length_append, List.length_cons, List.length_nil, h1, h2, h3, h4]
  simp only [quote_length]
  omega

theorem answer_length (query : String) (evidence : List Evidence) :
    (dumpsUnicode (.object [("question", .string query), ("evidence", .object evidence)])).length =
      width false query + (renderFields ⟨false, [',', ' '], [':', ' ']⟩ evidence).length + 32 := by
  have h1 : (quote false "question").length = 10 := by decide
  have h2 : (quote false "evidence").length = 10 := by decide
  rw [dumpsUnicode, String.length_ofList]
  simp only [render, renderFields, List.length_append, List.length_cons, List.length_nil, h1, h2]
  simp only [quote_length]
  omega

section Budget

/-- The key of the evidence is its own JSON form. -/
def PlainKey (e : Evidence) : Prop := width false e.1 = e.1.length

def totalSize (evidence : List Evidence) : Nat := (evidence.map evidenceSize).sum

theorem within_budget_le (used : Nat) (hu : used ≤ 32000) (evidence : List Evidence) :
    used + totalSize (withinBudget used evidence) ≤ 32000 := by
  induction evidence generalizing used with
  | nil => exact hu
  | cons e rest ih =>
    rw [withinBudget]
    by_cases h : 32000 < used + evidenceSize e
    · rw [if_pos h]
      exact ih used hu
    · rw [if_neg h, totalSize, List.map_cons, List.sum_cons]
      have hr := ih (used + evidenceSize e) (by omega)
      rw [totalSize] at hr
      omega

theorem mem_of_within_budget {used : Nat} {evidence : List Evidence} {e : Evidence}
    (h : e ∈ withinBudget used evidence) : e ∈ evidence := by
  induction evidence generalizing used with
  | nil => exact h
  | cons first rest ih =>
    rw [withinBudget] at h
    by_cases hb : 32000 < used + evidenceSize first
    · rw [if_pos hb] at h
      exact List.mem_cons_of_mem first (ih h)
    · rw [if_neg hb] at h
      cases List.mem_cons.mp h with
      | inl he => exact he ▸ List.mem_cons_self
      | inr hm => exact List.mem_cons_of_mem first (ih hm)

/-- The text of some items is shorter than the budget counts, by four characters an item. -/
theorem fields_length {evidence : List Evidence} (hk : ∀ e ∈ evidence, PlainKey e) (hne : evidence ≠ []) :
    (renderFields ⟨false, [',', ' '], [':', ' ']⟩ evidence).length + 4 * evidence.length + 2 =
      totalSize evidence := by
  induction evidence with
  | nil => exact absurd rfl hne
  | cons e rest ih =>
    have he : width false e.1 = e.1.length := hk e List.mem_cons_self
    rw [totalSize, List.map_cons, List.sum_cons, evidenceSize, dumpsUnicode, String.length_ofList]
    cases rest with
    | nil =>
      simp only [renderFields, List.length_append, quote_length, he, List.length_cons, List.length_nil,
        List.map_nil, List.sum_nil]
      omega
    | cons next rest =>
      have hr := ih (fun e h => hk e (List.mem_cons_of_mem _ h)) (List.cons_ne_nil _ _)
      rw [totalSize] at hr
      rw [renderFields]
      · simp only [List.length_append, quote_length, he, List.length_cons, List.length_nil] at hr ⊢
        omega
      · exact fun hn => by cases hn

end Budget

section Keys
variable {graph : Subgraph} {retrieval : RetrievalResult}

theorem plain_key {first : String} {rest : String} {value : Json}
    (hf : (first.toList.all fun c => decide (45 ≤ c.toNat ∧ c.toNat ≠ 92)) = true)
    (hr : ∀ c ∈ rest.toList, 45 ≤ c.toNat ∧ c.toNat ≠ 92) : PlainKey (first ++ rest, value) := by
  apply width_plain
  intro c hc
  rw [String.toList_append] at hc
  have hc : 45 ≤ c.toNat ∧ c.toNat ≠ 92 := by
    cases List.mem_append.mp hc with
    | inl h => exact of_decide_eq_true (List.all_eq_true.mp hf c h)
    | inr h => exact hr c h
  omega

theorem uuid_plain (u : UUID) : ∀ c ∈ u.text.toList, 45 ≤ c.toNat ∧ c.toNat ≠ 92 := by
  intro c hc
  have := u.chars c hc
  omega

theorem index_plain (n : Nat) : ∀ c ∈ (toString n).toList, 45 ≤ c.toNat ∧ c.toNat ≠ 92 := by
  intro c hc
  have hh : isHexDigit c = true := by
    rw [isHexDigit, Text.isDigit_of_mem_toString hc]
    rfl
  have := isHexDigit_toNat hh
  omega

theorem evidence_keys_plain {evidence : List Evidence} (h : evidenceOf graph retrieval = .ok evidence) :
    ∀ e ∈ evidence, PlainKey e := by
  obtain ⟨edges, hedges, he⟩ := Result.bind_eq_ok.mp h
  cases he
  intro e hm
  have hm := Dict.mem_of_mem_entries hm
  simp only [List.mem_append, List.mem_map] at hm
  obtain (⟨node, -, rfl⟩ | hm) | hm := hm
  · exact plain_key (by decide +kernel) (uuid_plain node.id)
  · obtain ⟨edge, -, hedge⟩ := Result.mem_of_mapM hedges hm
    obtain ⟨source, -, hedge⟩ := Result.bind_eq_ok.mp hedge
    obtain ⟨target, -, hedge⟩ := Result.bind_eq_ok.mp hedge
    cases hedge
    exact plain_key (by decide +kernel) (uuid_plain edge.id)
  · by_cases hs : retrieval.shouldAnswer
    · rw [if_pos hs] at hm
      obtain ⟨p, -, rfl⟩ := List.mem_map.mp hm
      exact plain_key (by decide +kernel) (index_plain p.2)
    · rw [if_neg hs] at hm
      cases hm

end Keys

theorem length_of_size {s : String} (hne : s ≠ "") (hs : s.utf8ByteSize ≤ 50000) :
    1 ≤ s.length ∧ s.length ≤ 50000 := by
  have hle := Text.length_le_utf8ByteSize s
  have hpos : s.length ≠ 0 := fun hz => hne (String.length_eq_zero_iff.mp hz)
  omega

theorem extract_system_length : 1 ≤ extractSystem.length ∧ extractSystem.length ≤ 50000 := by
  have hne : extractSystem ≠ "" :=
    Text.append_ne_empty _ (Text.append_ne_empty _ (Text.append_ne_empty _ (by decide)))
  exact length_of_size hne (by decide +kernel)

theorem answer_system_length : 1 ≤ answerSystem.length ∧ answerSystem.length ≤ 50000 := by
  have hne : answerSystem ≠ "" :=
    Text.append_ne_empty _ (Text.append_ne_empty _ (Text.append_ne_empty _ (by decide)))
  exact length_of_size hne (by decide +kernel)

theorem extract_sendable_iff (request : ExtractRequest) :
    Sendable (extractMessages request) ↔ width true request.text ≤ 49981 := by
  have hs := extract_system_length
  rw [extractMessages, sendable_pair]
  simp only [extract_length]
  omega

theorem repair_sendable_iff {base : List Prompt} (hbase : Sendable base) (draft : NL2SQLDraft)
    (safeErrorCode : String) :
    Sendable (repairMessages base draft.sql safeErrorCode) ↔
      width false draft.sql + width false safeErrorCode ≤ 49876 := by
  have hd := draft.sql_ok
  rw [repairMessages, sendable_append, sendable_pair]
  simp only [repair_length]
  constructor
  · intro h
    omega
  · intro h
    exact ⟨hbase, hd, by omega⟩

/-- With the whole budget used by one item the text of the evidence is as long as it can be. -/
theorem answer_sendable {query : String} {graph : Subgraph} {retrieval : RetrievalResult}
    {prompts : List Prompt} (hw : width false query ≤ 17974)
    (h : answerMessages query graph retrieval = .ok (some prompts)) : Sendable prompts := by
  obtain ⟨evidence, he, h⟩ := Result.bind_eq_ok.mp h
  by_cases hne : withinBudget 0 (evidence.mergeSort evidenceLe) = []
  · rw [if_pos hne] at h
    cases h
  · rw [if_neg hne] at h
    cases h
    have hkeys : ∀ e ∈ withinBudget 0 (evidence.mergeSort evidenceLe), PlainKey e := by
      intro e hm
      exact evidence_keys_plain he e (List.mem_mergeSort.mp (mem_of_within_budget hm))
    have hlen := fields_length hkeys hne
    have hpos := List.length_pos_of_ne_nil hne
    have hbudget := within_budget_le 0 (Nat.zero_le _) (evidence.mergeSort evidenceLe)
    have hs := answer_system_length
    rw [sendable_pair]
    simp only [answer_length]
    omega

def netCitation : Citation where
  documentId := "00000000-0000-0000-0000-000000000001"
  documentTitle := "Metrics"
  documentVersion := 1
  sectionKey := "metrics.md#net"
  sectionTitle := "Net"
  sourceLocator := "lines=1-3"

/-- A hit whose content is `controls` control characters and `letters` letters. -/
def controlHit (controls letters : Nat) : RetrievalHit where
  content := String.ofList (List.replicate controls (Char.ofNat 1) ++ List.replicate letters 'x')
  citation := netCitation

theorem control_width (controls letters : Nat) :
    width false (controlHit controls letters).content = 6 * controls + letters := by
  have h1 : escapedWidth false (Char.ofNat 1) = 6 := by decide
  have h2 : escapedWidth false 'x' = 1 := by decide
  simp only [controlHit, width, String.toList_ofList, List.map_append, List.map_replicate, h1, h2,
    List.sum_append, List.sum_replicate_nat]
  omega

theorem hit_size (controls letters : Nat) :
    evidenceSize (hitEvidence 0 (controlHit controls letters)) = 6 * controls + letters + 227 := by
  have hrest : (renderFields ⟨false, [',', ' '], [':', ' ']⟩ [
      ("document_id", .string netCitation.documentId),
      ("document_title", .string netCitation.documentTitle),
      ("document_version", .number (toString netCitation.documentVersion)),
      ("section_key", .string netCitation.sectionKey),
      ("section_title", .string netCitation.sectionTitle),
      ("source_locator", .string netCitation.sourceLocator)]).length = 193 := by decide +kernel
  have htext : (quote false "text").length = 6 := by decide
  have hkey : ("document:" ++ toString 0).length = 10 := by decide
  have hcontent := control_width controls letters
  have hcitation : (controlHit controls letters).citation = netCitation := rfl
  rw [evidenceSize, hitEvidence, dumpsUnicode, String.length_ofList, render, renderFields, render]
  · simp only [List.length_append, List.length_cons, List.length_nil, htext, hkey, quote_length, hcontent,
      hcitation, hrest]
    omega
  · exact fun hn => by cases hn

/-- A question that needs more than the budget leaves does not fit beside an item that uses the whole
budget. -/
theorem answer_unsendable {query : String} (hw : 17974 < width false query) {hit : RetrievalHit}
    (hsize : evidenceSize (hitEvidence 0 hit) = 32000) :
    ∃ graph retrieval prompts, answerMessages query graph retrieval = .ok (some prompts) ∧
      ¬ Sendable prompts := by
  have hkept : withinBudget 0 [hitEvidence 0 hit] = [hitEvidence 0 hit] := by
    rw [withinBudget, if_neg (by omega), withinBudget]
  have hevidence : evidenceOf {} ⟨[hit], [hit.citation], true⟩ = .ok [hitEvidence 0 hit] := rfl
  have hplain : ∀ e ∈ [hitEvidence 0 hit], PlainKey e := evidence_keys_plain hevidence
  have hlen := fields_length hplain (List.cons_ne_nil _ _)
  have htotal : totalSize [hitEvidence 0 hit] = 32000 := by
    rw [totalSize, List.map_singleton, List.sum_singleton, hsize]
  refine ⟨{}, ⟨[hit], [hit.citation], true⟩, [(.system, answerSystem), (.user, dumpsUnicode
    (.object [("question", .string query), ("evidence", .object [hitEvidence 0 hit])]))], ?_, ?_⟩
  · rw [answerMessages, hevidence]
    simp only [bind, Except.bind, List.mergeSort_singleton, hkept]
    rfl
  · rw [sendable_pair]
    simp only [answer_length, htotal, List.length_singleton] at hlen ⊢
    omega

/-- When the messages of the three prompts can be constructed: for an answer, whatever the evidence
is. -/
theorem prompts_sendable_iff (request : ExtractRequest) (query : String) (base : List Prompt)
    (draft : NL2SQLDraft) (safeErrorCode : String) :
    (Sendable (extractMessages request) ↔ width true request.text ≤ 49981) ∧
    ((∀ graph retrieval prompts, answerMessages query graph retrieval = .ok (some prompts) →
      Sendable prompts) ↔ width false query ≤ 17974) ∧
    (Sendable base → (Sendable (repairMessages base draft.sql safeErrorCode) ↔
      width false draft.sql + width false safeErrorCode ≤ 49876)) := by
  refine ⟨extract_sendable_iff request, ?_, fun hb => repair_sendable_iff hb draft safeErrorCode⟩
  constructor
  · intro h
    by_contra hw
    obtain ⟨graph, retrieval, prompts, ha, hn⟩ := answer_unsendable (Nat.lt_of_not_le hw)
      (hit_size 5200 573)
    exact hn (h graph retrieval prompts ha)
  · intro hw graph retrieval prompts ha
    exact answer_sendable hw ha

theorem longName_ok : 1 ≤ "metrics.md".length ∧ "metrics.md".length ≤ 255 := by decide

/-- A source text of 10000 Chinese characters. -/
def longRequest : ExtractRequest where
  sourceId := ⟨"00000000-0000-0000-0000-000000000001", Eq.refl true⟩
  sourceName := "metrics.md"
  text := String.ofList (List.replicate 10000 '税')
  sourceName_ok := longName_ok
  text_ok := by
    rw [String.length_ofList, List.length_replicate]
    omega

theorem long_request_unsendable : ¬ Sendable (extractMessages longRequest) := by
  have hc : escapedWidth true '税' = 6 := by decide
  have hw : width true longRequest.text = 60000 := by
    rw [longRequest, width, String.toList_ofList, List.map_replicate, hc, List.sum_replicate_nat]
  rw [extract_sendable_iff, hw]
  omega

end DataCopilot.KnowledgeGraph
