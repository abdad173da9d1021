import DataCopilot.Agent.Steps
import DataCopilot.Sql.ColumnScope

/-! The actions of the workflow nodes. The guard is injected, as in the source; the
question guard answers with the normalised question or the reason it refuses. -/
namespace DataCopilot.Agent
open Sql Effects AgentState

structure NorthwindAgentActions where
  py : Python
  libraries : Libraries
  questionGuard : String → Except String String
  guard : String → QueryPolicy → Except GuardError GuardedQuery
  maxTotalCost : ℚ := 10000
  maxPlanRows : Nat := 100000
  minimumConfidence : ℚ := 65 / 100
  controlledColumns : Finset String :=
    {"customers.contact_name", "employees.first_name", "employees.last_name"}

def orFail {α : Type} (f : Failure) : Option α → Effect Call Stop α
  | some a => pure a
  | none => fail f

@[simp] theorem orFail_result {α : Type} {f : Failure} {o : Option α} {a : α} :
    (orFail f o).result = .ok a ↔ o = some a := by
  cases o <;> simp [orFail]

@[simp] theorem orFail_calls {α : Type} {f : Failure} {o : Option α} : (orFail f o).calls = [] := by
  cases o <;> rfl

namespace NorthwindAgentActions
variable (A : NorthwindAgentActions) (w : World) (state : AgentState)

def knowledgeMarkers : List String := ["定义", "口径", "什么是", "how is", "definition"]

def block (reason : String) : AgentState where
  sqlRisk := some .blocked
  riskReasons := some [reason]
  errorCode := some (some reason)

def classify : Effect Call Stop AgentState := do
  let question ← need (get "question" state.question)
  match A.questionGuard question with
  | .error reason => pure (block reason)
  | .ok normalized =>
    let intent : Intent :=
      if knowledgeMarkers.any (Text.contains (A.py.lower normalized)) then .knowledge else .hybrid
    pure { intent := some intent, errorCode := some none }

/-- The `UUID` made of the tenant id is part of the retrieval's answer here. -/
def retrieveMetrics : Effect Call Stop AgentState := do
  let tenantId ← need (get "tenant_id" state.tenantId)
  let question ← need (get "question" state.question)
  let result ← ask (.retrieve tenantId question) (w.retrieve tenantId question)
  pure {
    metricContext := some (result.hits.map fun hit => ⟨hit.content, hit.citation⟩)
    citations := some result.citations
    errorCode := some (
      if state.intent = some .knowledge ∧ result.shouldAnswer = false then
        some "RAG_INSUFFICIENT_EVIDENCE" else none) }

/-- What `catalog_selection_model` lets the model choose from. -/
def catalogNames (policy : QueryPolicy) : List String :=
  sorted (policy.allowedTables ∪
    policy.allowedTables.image fun name => policy.allowedSchema ++ "." ++ name)

def invalidResponseAsSelection : Stop → Effect Call Stop ConfidentTableSelection
  | .failure f =>
    if f.className = "LLMInvalidResponseError" then fail schemaSelectionError else fail f
  | stop => .raise stop

def validSelection (policy : QueryPolicy) (reported : List String) : Option (List String) := do
  let selected ← normalizeReportedTables policy.allowedSchema reported
  if selected ≠ [] ∧ ∀ name ∈ selected, name ∈ policy.allowedTables then some selected else none

/-- A structurally valid response can still name invalid tables: one correction is allowed,
and every attempt is checked against the same catalog. -/
def selectTables (policy : QueryPolicy) :
    Nat → List Prompt → Effect Call Stop (ConfidentTableSelection × List String)
  | 0, _ => fail schemaSelectionError
  | remaining + 1, prompts => do
    let items ← need (messages prompts)
    let request := ask (.select items (catalogNames policy)) (w.select items (catalogNames policy))
    let result ← request.handle invalidResponseAsSelection
    match validSelection policy result.tables with
    | some selected => pure (result, selected)
    | none => selectTables policy remaining (prompts ++ [correctionMessage])

def selectionPrompts (question : String) (snapshot : SchemaSnapshot) : List Prompt :=
  match selectionMessages question snapshot with
  | (role, content) :: rest => (role, content ++ confidenceRequest) :: rest
  | [] => []

def selectSchema : Effect Call Stop AgentState := do
  let snapshot ← ask .introspect w.introspect
  let policy ← orFail validationError
    (QueryPolicy.fromSnapshot A.py.isalnum snapshot A.maxTotalCost A.maxPlanRows)
  let question ← need (get "question" state.question)
  let selection ← selectTables w policy 2 (selectionPrompts question snapshot)
  let restricted ← orFail (valueError "selected tables must be a non-empty subset of the policy")
    (policy.restrictToTables selection.2.toFinset)
  pure {
    candidateTables := some selection.2
    selectionConfidence := some selection.1.confidence
    schemaSnapshot := some snapshot
    queryPolicy := some restricted }

def generationPrompts (base : List Prompt) : List Prompt :=
  if truthy state.sql && truthy state.error then
    repairMessages base (state.sql.getD "") (state.error.getD "")
  else base

def generateSql : Effect Call Stop AgentState := do
  let snapshot ← need (get "schema_snapshot" state.schemaSnapshot)
  let policy ← need (get "query_policy" state.queryPolicy)
  let question ← need (get "question" state.question)
  let candidates ← need (get "candidate_tables" state.candidateTables)
  let base ← need (generationMessages question snapshot candidates policy)
  let items ← need (messages (generationPrompts state base))
  let draft ← ask (.draft items) (w.draft items)
  let reported ← orFail schemaSelectionError
    (normalizeReportedTables policy.allowedSchema draft.tablesUsed)
  if reported.all (· ∈ candidates) then
    pure {
      sql := some draft.sql
      analysisPlan := some draft.analysisPlan
      attempts := some (state.attempt + 1)
      errorCode := some none }
  else fail schemaSelectionError

def parseFailure : ParseFailure → Failure
  | .parseError => { className := "ParseError", kind := .validation }
  | .tokenError => { className := "TokenError", kind := .validation }
  | .uncaught name => { className := name }

/-- `_controlled_references`. -/
def controlledReferences (sql : String) : Except Failure (Finset String) :=
  match Sql.controlledReferences A.libraries A.controlledColumns sql with
  | .ok found => .ok found
  | .error e => .error (parseFailure e)

def riskReasons (policy : QueryPolicy) (estimate : QueryCostEstimate) (controlled : Finset String)
    (confidence : Option ℚ) : List String :=
  (if policy.maxTotalCost < estimate.totalCost then ["TOTAL_COST_LIMIT_EXCEEDED"] else []) ++
  (if policy.maxPlanRows < estimate.planRows then ["PLAN_ROWS_LIMIT_EXCEEDED"] else []) ++
  (if controlled.Nonempty then ["CONTROLLED_SENSITIVE_COLUMN"] else []) ++
  (if confidence.getD 1 < A.minimumConfidence then ["LOW_MODEL_CONFIDENCE"] else [])

def refusal (reason : PolicyReason) : AgentState where
  sqlRisk := some .repair
  riskReasons := some [reason.code]
  errorCode := some (some reason.code)

def ruling (g : GuardedQuery) (reasons : List String) : AgentState where
  sqlRisk := some (if reasons = [] then .safe else .approval)
  riskReasons := some reasons
  sqlFingerprint := some g.queryFingerprint
  guardedQuery := some g
  errorCode := some none

def rule (policy : QueryPolicy) (g : GuardedQuery) : Effect Call Stop AgentState := do
  let controlled ← need (A.controlledReferences g.normalizedSql)
  let estimate ← ask (.estimate g) (w.estimate g)
  pure (ruling g (A.riskReasons policy estimate controlled state.selectionConfidence))

def guardSql : Effect Call Stop AgentState := do
  let policy ← need (get "query_policy" state.queryPolicy)
  let sql ← need (get "sql" state.sql)
  let verdict := A.guard sql policy
  ask (.inspect sql policy verdict) (.ok ())
  match verdict with
  | .error (.policyViolation reason) => pure (refusal reason)
  | .error (.uncaught name) => fail { className := name }
  | .ok g => A.rule w state policy g

def executeSql : Effect Call Stop AgentState := do
  let g ← need (get "guarded_query" state.guardedQuery)
  let policy ← need (get "query_policy" state.queryPolicy)
  let result ← ask (.execute g policy) (w.execute g policy)
  pure {
    columns := some result.columns
    rows := some result.rows
    resultTruncated := some result.truncated
    errorCode := some none }

def expectedColumns : List String := (state.analysisPlan.map AnalysisPlan.expectedColumns).getD []

def columnsMismatch : Bool :=
  expectedColumns state ≠ [] && !(expectedColumns state).all (· ∈ state.columns.getD [])

def verify : Effect Call Stop AgentState :=
  if columnsMismatch state then pure { errorCode := some (some "RESULT_COLUMNS_MISMATCH") }
  else pure { errorCode := some none }

def insufficientEvidence : String :=
  "The metric knowledge base does not contain enough evidence to answer."

/-- The exception of an arithmetic result that is too large. -/
def decimalOverflow : Failure where
  className := "Overflow"

def composedAnswer : Option String :=
  if state.intent = some .knowledge then
    match state.metricContext.getD [] with
    | [] => some ""
    | evidence :: _ => some evidence.content
  else
    Answering.describeSqlResult A.py (state.columns.getD []) (state.rows.getD [])
      (state.resultTruncated.getD false)

def compose : Effect Call Stop AgentState :=
  if state.error = some "RAG_INSUFFICIENT_EVIDENCE" then
    pure { answer := some insufficientEvidence, errorCode := some none }
  else if truthy state.error then pure { answer := some "" }
  else do
    let answer ← orFail decimalOverflow (A.composedAnswer state)
    let chart ← orFail validationError
      (Charting.buildChartSpec A.py (state.columns.getD []) (state.rows.getD []))
    pure { answer := some answer, chartSpec := some chart }

/-! What a node returns when it does not fail. -/
section Updates
variable {A w state} {u : AgentState}

theorem classify_ok (h : (A.classify state).result = .ok u) :
    (∃ reason, u = block reason) ∨
      ∃ intent : Intent, u = { intent := some intent, errorCode := some none } := by
  simp only [classify, Effect.bind_result, need_result, get_eq_ok] at h
  obtain ⟨question, _, hu⟩ := h
  cases hg : A.questionGuard question with
  | error reason =>
    simp only [hg, Effect.pure_result, Except.ok.injEq] at hu
    exact .inl ⟨reason, hu.symm⟩
  | ok normalized =>
    simp only [hg, Effect.pure_result, Except.ok.injEq] at hu
    exact .inr ⟨_, hu.symm⟩

theorem retrieveMetrics_ok (h : (retrieveMetrics w state).result = .ok u) :
    ∃ tenantId question result, state.tenantId = some tenantId ∧ state.question = some question ∧
      w.retrieve tenantId question = .ok result ∧
      u = {
        metricContext := some (result.hits.map fun hit => ⟨hit.content, hit.citation⟩)
        citations := some result.citations
        errorCode := some (
          if state.intent = some .knowledge ∧ result.shouldAnswer = false then
            some "RAG_INSUFFICIENT_EVIDENCE" else none) } := by
  simp only [retrieveMetrics, Effect.bind_result, need_result, get_eq_ok, ask_result,
    Effect.pure_result, Except.ok.injEq] at h
  obtain ⟨tenantId, ht, question, hq, result, hr, hu⟩ := h
  exact ⟨tenantId, question, result, ht, hq, hr, hu.symm⟩

theorem selectSchema_ok (h : (A.selectSchema w state).result = .ok u) :
    ∃ selected confidence snapshot restricted, u = {
      candidateTables := some selected
      selectionConfidence := some confidence
      schemaSnapshot := some snapshot
      queryPolicy := some restricted } := by
  unfold selectSchema at h
  obtain ⟨snapshot, _, h⟩ := Effect.bind_result.mp h
  obtain ⟨policy, _, h⟩ := Effect.bind_result.mp h
  obtain ⟨question, _, h⟩ := Effect.bind_result.mp h
  obtain ⟨selection, _, h⟩ := Effect.bind_result.mp h
  obtain ⟨restricted, _, h⟩ := Effect.bind_result.mp h
  exact ⟨_, _, _, _, (Except.ok.inj h).symm⟩

theorem generateSql_ok (h : (generateSql w state).result = .ok u) :
    ∃ draft : NL2SQLDraft, u = {
      sql := some draft.sql
      analysisPlan := some draft.analysisPlan
      attempts := some (state.attempt + 1)
      errorCode := some none } := by
  simp only [generateSql, Effect.bind_result, need_result, ask_result, orFail_result,
    get_eq_ok] at h
  obtain ⟨_, _, _, _, _, _, candidates, _, _, _, _, _, draft, _, reported, _, hu⟩ := h
  by_cases hr : reported.all (· ∈ candidates) = true
  · rw [if_pos hr, Effect.pure_result, Except.ok.injEq] at hu
    exact ⟨draft, hu.symm⟩
  · rw [if_neg hr] at hu
    exact absurd hu fail_result

/-- A first valid answer of the model is enough. -/
theorem selectSchema_of {snapshot : SchemaSnapshot} {policy restricted : QueryPolicy}
    {question : String} {items : List LLMMessage} {result : ConfidentTableSelection}
    {selected : List String} (hs : w.introspect = .ok snapshot)
    (hp : QueryPolicy.fromSnapshot A.py.isalnum snapshot A.maxTotalCost A.maxPlanRows = some policy)
    (hq : state.question = some question)
    (hm : messages (selectionPrompts question snapshot) = .ok items)
    (ha : w.select items (catalogNames policy) = .ok result)
    (hv : validSelection policy result.tables = some selected)
    (hr : policy.restrictToTables selected.toFinset = some restricted) :
    (A.selectSchema w state).result = .ok {
      candidateTables := some selected
      selectionConfidence := some result.confidence
      schemaSnapshot := some snapshot
      queryPolicy := some restricted } := by
  have htables : (selectTables w policy 2 (selectionPrompts question snapshot)).result =
      .ok (result, selected) := by
    simp [selectTables, hm, ha, hv]
  refine Effect.bind_result.mpr ⟨snapshot, ask_result.mpr hs, ?_⟩
  refine Effect.bind_result.mpr ⟨policy, orFail_result.mpr hp, ?_⟩
  refine Effect.bind_result.mpr ⟨question, need_result.mpr (get_eq_ok.mpr hq), ?_⟩
  refine Effect.bind_result.mpr ⟨(result, selected), htables, ?_⟩
  exact Effect.bind_result.mpr ⟨restricted, orFail_result.mpr hr, rfl⟩

theorem generateSql_of {snapshot : SchemaSnapshot} {policy : QueryPolicy} {question : String}
    {candidates reported : List String} {base : List Prompt} {items : List LLMMessage}
    {draft : NL2SQLDraft} (hs : state.schemaSnapshot = some snapshot)
    (hp : state.queryPolicy = some policy) (hq : state.question = some question)
    (hc : state.candidateTables = some candidates)
    (hb : generationMessages question snapshot candidates policy = .ok base)
    (hm : messages (generationPrompts state base) = .ok items) (hd : w.draft items = .ok draft)
    (hn : normalizeReportedTables policy.allowedSchema draft.tablesUsed = some reported)
    (hr : reported.all (· ∈ candidates) = true) :
    (generateSql w state).result = .ok {
      sql := some draft.sql
      analysisPlan := some draft.analysisPlan
      attempts := some (state.attempt + 1)
      errorCode := some none } := by
  refine Effect.bind_result.mpr ⟨snapshot, need_result.mpr (get_eq_ok.mpr hs), ?_⟩
  refine Effect.bind_result.mpr ⟨policy, need_result.mpr (get_eq_ok.mpr hp), ?_⟩
  refine Effect.bind_result.mpr ⟨question, need_result.mpr (get_eq_ok.mpr hq), ?_⟩
  refine Effect.bind_result.mpr ⟨candidates, need_result.mpr (get_eq_ok.mpr hc), ?_⟩
  refine Effect.bind_result.mpr ⟨base, need_result.mpr hb, ?_⟩
  refine Effect.bind_result.mpr ⟨items, need_result.mpr hm, ?_⟩
  refine Effect.bind_result.mpr ⟨draft, ask_result.mpr hd, ?_⟩
  refine Effect.bind_result.mpr ⟨reported, orFail_result.mpr hn, ?_⟩
  rw [if_pos hr]
  rfl

theorem rule_ok {policy : QueryPolicy} {g : GuardedQuery}
    (h : (A.rule w state policy g).result = .ok u) :
    ∃ controlled estimate, A.controlledReferences g.normalizedSql = .ok controlled ∧
      w.estimate g = .ok estimate ∧
      u = ruling g (A.riskReasons policy estimate controlled state.selectionConfidence) := by
  simp only [rule, Effect.bind_result, need_result, ask_result, Effect.pure_result,
    Except.ok.injEq] at h
  obtain ⟨controlled, hc, estimate, he, hu⟩ := h
  exact ⟨controlled, estimate, hc, he, hu.symm⟩

theorem guardSql_ok (h : (A.guardSql w state).result = .ok u) :
    ∃ policy sql, state.queryPolicy = some policy ∧ state.sql = some sql ∧
      ((∃ reason, A.guard sql policy = .error (.policyViolation reason) ∧ u = refusal reason) ∨
        ∃ g, A.guard sql policy = .ok g ∧ (A.rule w state policy g).result = .ok u) := by
  simp only [guardSql, Effect.bind_result, need_result, ask_result, get_eq_ok] at h
  obtain ⟨policy, hp, sql, hs, _, _, hu⟩ := h
  refine ⟨policy, sql, hp, hs, ?_⟩
  cases hv : A.guard sql policy with
  | ok g =>
    simp only [hv] at hu
    exact .inr ⟨g, rfl, hu⟩
  | error e =>
    cases e with
    | policyViolation reason =>
      simp only [hv, Effect.pure_result, Except.ok.injEq] at hu
      exact .inl ⟨reason, rfl, hu.symm⟩
    | uncaught name =>
      simp only [hv] at hu
      exact absurd hu fail_result

theorem guardSql_of {policy : QueryPolicy} {sql : String} {g : GuardedQuery}
    {controlled : Finset String} {estimate : QueryCostEstimate}
    (hp : state.queryPolicy = some policy) (hs : state.sql = some sql)
    (hg : A.guard sql policy = .ok g) (hc : A.controlledReferences g.normalizedSql = .ok controlled)
    (he : w.estimate g = .ok estimate) :
    (A.guardSql w state).result =
      .ok (ruling g (A.riskReasons policy estimate controlled state.selectionConfidence)) := by
  refine Effect.bind_result.mpr ⟨policy, need_result.mpr (get_eq_ok.mpr hp), ?_⟩
  refine Effect.bind_result.mpr ⟨sql, need_result.mpr (get_eq_ok.mpr hs), ?_⟩
  refine Effect.bind_result.mpr ⟨(), rfl, ?_⟩
  rw [hg]
  refine Effect.bind_result.mpr ⟨controlled, need_result.mpr hc, ?_⟩
  exact Effect.bind_result.mpr ⟨estimate, ask_result.mpr he, rfl⟩

theorem executeSql_ok (h : (executeSql w state).result = .ok u) :
    ∃ g policy result, state.guardedQuery = some g ∧ state.queryPolicy = some policy ∧
      w.execute g policy = .ok result ∧
      u = {
        columns := some result.columns
        rows := some result.rows
        resultTruncated := some result.truncated
        errorCode := some none } := by
  simp only [executeSql, Effect.bind_result, need_result, ask_result, get_eq_ok,
    Effect.pure_result, Except.ok.injEq] at h
  obtain ⟨g, hg, policy, hp, result, hr, hu⟩ := h
  exact ⟨g, policy, result, hg, hp, hr, hu.symm⟩

theorem executeSql_of {g : GuardedQuery} {policy : QueryPolicy} {result : QueryExecutionResult}
    (hg : state.guardedQuery = some g) (hp : state.queryPolicy = some policy)
    (hr : w.execute g policy = .ok result) :
    (executeSql w state).result = .ok {
      columns := some result.columns
      rows := some result.rows
      resultTruncated := some result.truncated
      errorCode := some none } := by
  simp [executeSql, hg, hp, hr]

theorem verify_ok (h : (verify state).result = .ok u) :
    u = { errorCode := some (
      if columnsMismatch state then some "RESULT_COLUMNS_MISMATCH" else none) } := by
  unfold verify at h
  by_cases hm : columnsMismatch state = true
  · rw [if_pos hm, Effect.pure_result, Except.ok.injEq] at h
    rw [if_pos hm, h]
  · rw [if_neg hm, Effect.pure_result, Except.ok.injEq] at h
    rw [if_neg hm, h]

theorem compose_ok (h : (A.compose state).result = .ok u) :
    (state.error = some "RAG_INSUFFICIENT_EVIDENCE" ∧
      u = { answer := some insufficientEvidence, errorCode := some none }) ∨
    (truthy state.error = true ∧ u = { answer := some "" }) ∨
    (truthy state.error = false ∧ ∃ answer chart, A.composedAnswer state = some answer ∧
      u = { answer := some answer, chartSpec := some chart }) := by
  unfold compose at h
  by_cases hr : state.error = some "RAG_INSUFFICIENT_EVIDENCE"
  · rw [if_pos hr, Effect.pure_result, Except.ok.injEq] at h
    exact .inl ⟨hr, h.symm⟩
  · rw [if_neg hr] at h
    by_cases ht : truthy state.error = true
    · rw [if_pos ht, Effect.pure_result, Except.ok.injEq] at h
      exact .inr (.inl ⟨ht, h.symm⟩)
    · rw [if_neg ht] at h
      simp only [Effect.bind_result, orFail_result, Effect.pure_result, Except.ok.injEq] at h
      obtain ⟨answer, ha, chart, _, hu⟩ := h
      exact .inr (.inr ⟨by simpa using ht, answer, chart, ha, hu.symm⟩)

end Updates

/-! What each node asks of the outside. -/
section Calls
variable {A w state} {c : Call}

theorem classify_calls : c ∉ (A.classify state).calls := by
  simp only [classify, Effect.mem_bind_calls, need_calls, List.not_mem_nil, or_false, not_exists,
    not_and]
  intro question _
  cases A.questionGuard question with
  | error reason => simp
  | ok normalized => simp

theorem retrieveMetrics_calls (h : c ∈ (retrieveMetrics w state).calls) :
    ∃ tenantId query, c = .retrieve tenantId query := by
  simp only [retrieveMetrics, Effect.mem_bind_calls, need_calls, ask_calls, Effect.pure_calls,
    List.not_mem_nil, List.mem_singleton, and_false, exists_false, false_or, or_false] at h
  obtain ⟨tenantId, _, question, _, hc⟩ := h
  exact ⟨tenantId, question, hc⟩

theorem selectTables_calls {policy : QueryPolicy} {n : Nat} {prompts : List Prompt}
    (h : c ∈ (selectTables w policy n prompts).calls) : ∃ items names, c = .select items names := by
  induction n generalizing prompts with
  | zero => simp [selectTables] at h
  | succ n ih =>
    simp only [selectTables, Effect.mem_bind_calls, Effect.mem_handle_calls, need_calls, ask_calls,
      List.not_mem_nil, List.mem_singleton, or_false] at h
    obtain ⟨items, _, ⟨result, _, hc⟩ | ⟨e, _, hc⟩ | hc⟩ := h
    · cases hv : validSelection policy result.tables with
      | some selected => simp [hv] at hc
      | none => exact ih (by simpa [hv] using hc)
    · cases e with
      | interrupt p => simp [invalidResponseAsSelection] at hc
      | failure f =>
        by_cases hf : f.className = "LLMInvalidResponseError"
        · simp [invalidResponseAsSelection, hf] at hc
        · simp [invalidResponseAsSelection, hf] at hc
    · exact ⟨items, _, hc⟩

theorem selectSchema_calls (h : c ∈ (A.selectSchema w state).calls) :
    c = .introspect ∨ ∃ items names, c = .select items names := by
  simp only [selectSchema, Effect.mem_bind_calls, need_calls, ask_calls, orFail_calls,
    Effect.pure_calls, List.not_mem_nil, List.mem_singleton, and_false, exists_false, false_or,
    or_false] at h
  obtain ⟨snapshot, _, policy, _, question, _, hc⟩ | hc := h
  · exact .inr (selectTables_calls hc)
  · exact .inl hc

theorem generateSql_calls (h : c ∈ (generateSql w state).calls) : ∃ items, c = .draft items := by
  simp only [generateSql, Effect.mem_bind_calls, need_calls, ask_calls, orFail_calls,
    List.not_mem_nil, List.mem_singleton, or_false] at h
  obtain ⟨_, _, _, _, _, _, candidates, _, _, _, items, _, ⟨draft, _, reported, _, hc⟩ | hc⟩ := h
  · by_cases hr : reported.all (· ∈ candidates) = true
    · simp [hr] at hc
    · simp [hr] at hc
  · exact ⟨items, hc⟩

theorem guardSql_calls (h : c ∈ (A.guardSql w state).calls) :
    (∃ policy sql, state.queryPolicy = some policy ∧ state.sql = some sql ∧
      c = .inspect sql policy (A.guard sql policy)) ∨ ∃ g, c = .estimate g := by
  simp only [guardSql, Effect.mem_bind_calls, need_calls, ask_calls, need_result, get_eq_ok,
    List.not_mem_nil, List.mem_singleton, or_false] at h
  obtain ⟨policy, hp, sql, hs, ⟨_, _, hc⟩ | hc⟩ := h
  · cases hv : A.guard sql policy with
    | error e =>
      cases e with
      | policyViolation reason => simp [hv] at hc
      | uncaught name => simp [hv] at hc
    | ok g =>
      simp only [hv, rule, Effect.mem_bind_calls, need_calls, ask_calls, Effect.pure_calls,
        List.not_mem_nil, List.mem_singleton, and_false, exists_false, false_or, or_false] at hc
      obtain ⟨_, _, hc⟩ := hc
      exact .inr ⟨g, hc⟩
  · exact .inl ⟨policy, sql, hp, hs, hc⟩

/-- The guard has been asked whenever the node returns. -/
theorem guardSql_inspects {u : AgentState} (h : (A.guardSql w state).result = .ok u) :
    ∃ policy sql, state.queryPolicy = some policy ∧ state.sql = some sql ∧
      .inspect sql policy (A.guard sql policy) ∈ (A.guardSql w state).calls := by
  obtain ⟨policy, sql, hp, hs, _⟩ := guardSql_ok h
  refine ⟨policy, sql, hp, hs, ?_⟩
  simp [guardSql, hp, hs, AgentState.get]

theorem executeSql_calls (h : c ∈ (executeSql w state).calls) :
    ∃ g policy, state.guardedQuery = some g ∧ state.queryPolicy = some policy ∧
      c = .execute g policy := by
  simp only [executeSql, Effect.mem_bind_calls, need_calls, ask_calls, need_result, get_eq_ok,
    Effect.pure_calls, List.not_mem_nil, List.mem_singleton, and_false, exists_false, false_or,
    or_false] at h
  obtain ⟨g, hg, policy, hp, hc⟩ := h
  exact ⟨g, policy, hg, hp, hc⟩

theorem executeSql_executes {g : GuardedQuery} {policy : QueryPolicy}
    (hg : state.guardedQuery = some g) (hp : state.queryPolicy = some policy) :
    .execute g policy ∈ (executeSql w state).calls := by
  simp [executeSql, hg, hp]

theorem verify_calls : c ∉ (verify state).calls := by
  unfold verify
  by_cases hm : columnsMismatch state = true
  · simp [hm]
  · simp [hm]

theorem compose_calls : c ∉ (A.compose state).calls := by
  unfold compose
  by_cases hr : state.error = some "RAG_INSUFFICIENT_EVIDENCE"
  · simp [hr]
  · by_cases ht : truthy state.error = true
    · simp [hr, ht]
    · simp [hr, ht]

end Calls

/-! None of these nodes interrupts the run. -/
section Uninterrupted
variable {A w state}

theorem orFail_uninterrupted {α : Type} {f : Failure} {o : Option α} :
    Uninterrupted (orFail f o) := by
  cases o with
  | none => exact .fail f
  | some a => exact .pure a

theorem classify_uninterrupted : Uninterrupted (A.classify state) := by
  refine .bind (.need _) fun question => ?_
  cases A.questionGuard question with
  | error reason => exact .pure _
  | ok normalized => exact .pure _

theorem retrieveMetrics_uninterrupted : Uninterrupted (retrieveMetrics w state) :=
  .bind (.need _) fun _ => .bind (.need _) fun _ => .bind (.ask _ _) fun _ => .pure _

theorem selectTables_uninterrupted {policy : QueryPolicy} {n : Nat} {prompts : List Prompt} :
    Uninterrupted (selectTables w policy n prompts) := by
  induction n generalizing prompts with
  | zero => exact .fail _
  | succ n ih =>
    refine .bind (.need _) fun items => .bind (.handle (.ask _ _) fun f => ?_) fun result => ?_
    · simp only [invalidResponseAsSelection]
      by_cases hf : f.className = "LLMInvalidResponseError"
      · rw [if_pos hf]
        exact .fail _
      · rw [if_neg hf]
        exact .fail _
    · cases validSelection policy result.tables with
      | some selected => exact .pure _
      | none => exact ih

theorem selectSchema_uninterrupted : Uninterrupted (A.selectSchema w state) :=
  .bind (.ask _ _) fun _ => .bind orFail_uninterrupted fun _ => .bind (.need _) fun _ =>
    .bind selectTables_uninterrupted fun _ => .bind orFail_uninterrupted fun _ => .pure _

theorem generateSql_uninterrupted : Uninterrupted (generateSql w state) := by
  refine .bind (.need _) fun _ => .bind (.need _) fun _ => .bind (.need _) fun _ =>
    .bind (.need _) fun candidates => .bind (.need _) fun _ => .bind (.need _) fun _ =>
    .bind (.ask _ _) fun _ => .bind orFail_uninterrupted fun reported => ?_
  by_cases hr : reported.all (· ∈ candidates) = true
  · rw [if_pos hr]
    exact .pure _
  · rw [if_neg hr]
    exact .fail _

theorem guardSql_uninterrupted : Uninterrupted (A.guardSql w state) := by
  refine .bind (.need _) fun policy => .bind (.need _) fun sql => .bind (.ask _ _) fun _ => ?_
  cases A.guard sql policy with
  | error e =>
    cases e with
    | policyViolation reason => exact .pure _
    | uncaught name => exact .fail _
  | ok g => exact .bind (.need _) fun _ => .bind (.ask _ _) fun _ => .pure _

theorem executeSql_uninterrupted : Uninterrupted (executeSql w state) :=
  .bind (.need _) fun _ => .bind (.need _) fun _ => .bind (.ask _ _) fun _ => .pure _

theorem verify_uninterrupted : Uninterrupted (verify state) := by
  unfold verify
  by_cases hm : columnsMismatch state = true
  · rw [if_pos hm]
    exact .pure _
  · rw [if_neg hm]
    exact .pure _

theorem compose_uninterrupted : Uninterrupted (A.compose state) := by
  unfold compose
  by_cases hr : state.error = some "RAG_INSUFFICIENT_EVIDENCE"
  · rw [if_pos hr]
    exact .pure _
  · rw [if_neg hr]
    by_cases ht : truthy state.error = true
    · rw [if_pos ht]
      exact .pure _
    · rw [if_neg ht]
      exact .bind orFail_uninterrupted fun _ => .bind orFail_uninterrupted fun _ => .pure _

end Uninterrupted

end NorthwindAgentActions
end DataCopilot.Agent
