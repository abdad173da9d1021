import DataCopilot.Agent.Actions

/-! The workflow graph: its nodes, the edges between them, and one superstep of a run. -/
namespace DataCopilot.Agent
open Sql Effects AgentState NorthwindAgentActions

structure AgentGraph where
  actions : NorthwindAgentActions
  maxRepairs : Nat := 2
  repairs_ok : maxRepairs ≤ 2 := by decide

/-- What `request_approval` returns for a decision. -/
def decided : ApprovalDecision → AgentState
  | .approved => { approvalDecision := some .approved, errorCode := some none }
  | .rejected => { approvalDecision := some .rejected, errorCode := some (some "APPROVAL_REJECTED") }

/-- The node runs from its start again when it is resumed. A resume payload is validated
before it gets here, so no other decision has to be refused. -/
def pause (py : Python) (w : World) (resume : Option ApprovalResume) (current : AgentState) :
    Effect Call Stop AgentState := do
  let runId ← need (get "run_id" current.runId)
  let _ ← need (get "trace_id" current.traceId)
  ask (.ensurePending runId (current.riskReasons.getD []) current.sqlFingerprint) w.ensurePending
  recordStep py w .requestApproval current .waiting
    (.waiting current.sqlFingerprint ((current.riskReasons.getD []).take 5)) none
  match resume with
  | none => .raise (.interrupt {
      runId := runId
      sqlFingerprint := current.sqlFingerprint
      reasonCodes := current.riskReasons.getD [] })
  | some r => pure (decided r.decision)

namespace AgentGraph
variable (G : AgentGraph) (w : World) (resume : Option ApprovalResume)

def operation : StepName → AgentState → Effect Call Stop AgentState
  | .classify => G.actions.classify
  | .retrieveMetrics => retrieveMetrics w
  | .selectSchema => G.actions.selectSchema w
  | .generateSql => generateSql w
  | .guardSql => G.actions.guardSql w
  | .requestApproval => pause G.actions.py w resume
  | .executeSql => executeSql w
  | .verify => verify
  | .compose => G.actions.compose

def attemptsLeft (s : AgentState) : Bool := s.attempt < G.maxRepairs + 1

def afterGuard (s : AgentState) : SqlRisk → Option StepName
  | .safe => some .executeSql
  | .approval => some .requestApproval
  | .blocked => none
  | .repair => if G.attemptsLeft s then some .generateSql else none

/-- The edges. `none` is END. -/
def route : StepName → AgentState → Except Failure (Option StepName)
  | .classify, s => .ok (if s.sqlRisk = some .blocked then none else some .retrieveMetrics)
  | .retrieveMetrics, s => do
    let intent ← get "intent" s.intent
    pure (if intent = .knowledge then some .compose else some .selectSchema)
  | .selectSchema, _ => .ok (some .generateSql)
  | .generateSql, _ => .ok (some .guardSql)
  | .guardSql, s => do
    let risk ← get "sql_risk" s.sqlRisk
    pure (G.afterGuard s risk)
  | .requestApproval, s => do
    let decision ← get "approval_decision" s.approvalDecision
    pure (if decision = .approved then some .executeSql else none)
  | .executeSql, _ => .ok (some .verify)
  | .verify, s =>
    .ok (if truthy s.error && G.attemptsLeft s then some .generateSql else some .compose)
  | .compose, _ => .ok none

section Edges
variable {s : AgentState} {next : Option StepName}

theorem route_retrieveMetrics : G.route .retrieveMetrics s = .ok next ↔
    ∃ intent, s.intent = some intent ∧
      (if intent = .knowledge then some .compose else some .selectSchema) = next := by
  simp only [route, Result.bind_eq_ok, Result.pure_eq_ok, get_eq_ok]

theorem route_guardSql : G.route .guardSql s = .ok next ↔
    ∃ risk, s.sqlRisk = some risk ∧ G.afterGuard s risk = next := by
  simp only [route, Result.bind_eq_ok, Result.pure_eq_ok, get_eq_ok]

theorem route_refusal (reason : PolicyReason) : G.route .guardSql (s.merge (refusal reason)) =
    .ok (if G.attemptsLeft s then some .generateSql else none) := rfl

theorem route_requestApproval : G.route .requestApproval s = .ok next ↔
    ∃ decision, s.approvalDecision = some decision ∧
      (if decision = .approved then some .executeSql else none) = next := by
  simp only [route, Result.bind_eq_ok, Result.pure_eq_ok, get_eq_ok]

end Edges

/-- One superstep: the node runs, its update is merged, and its edge is evaluated. -/
def superstep (step : StepName) (s : AgentState) :
    Effect Call Stop (AgentState × Option StepName) := do
  let update ← timedStep G.actions.py w step s (G.operation w resume step)
  let next ← need (G.route step (s.merge update))
  pure (update, next)

variable {G w resume} {step : StepName} {s u : AgentState} {next : Option StepName} {c : Call}

theorem superstep_ok (h : (G.superstep w resume step s).result = .ok (u, next)) :
    (G.operation w resume step s).result = .ok u ∧ G.route step (s.merge u) = .ok next := by
  simp only [superstep, Effect.bind_result, need_result, Effect.pure_result, Except.ok.injEq,
    Prod.mk.injEq] at h
  obtain ⟨_, hu, _, hn, rfl, rfl⟩ := h
  exact ⟨timedStep_result hu, hn⟩

/-- A node whose operation returns completes when its step can be recorded. -/
theorem superstep_of {runId traceId : String} (hu : (G.operation w resume step s).result = .ok u)
    (ht : s.traceId = some traceId) (hr : s.runId = some runId) (hw : ∀ status, w.record status = .ok ())
    (hn : G.route step (s.merge u) = .ok next) :
    (G.superstep w resume step s).result = .ok (u, next) := by
  simp [superstep, timedStep, succeed, recordStep, record, hu, ht, hr, hw, hn]

theorem superstep_calls_of (h : (G.superstep w resume step s).result = .ok (u, next))
    (hc : c ∈ (G.operation w resume step s).calls) : c ∈ (G.superstep w resume step s).calls := by
  obtain ⟨_, hv, _⟩ := Effect.bind_result.mp h
  exact Effect.mem_bind_calls.mpr (.inr (timedStep_calls_of hv hc))

theorem superstep_calls (h : c ∈ (G.superstep w resume step s).calls) :
    c ∈ (G.operation w resume step s).calls ∨ ∃ r, c = .record r := by
  simp only [superstep, Effect.mem_bind_calls, need_calls, Effect.pure_calls, List.not_mem_nil,
    and_false, exists_false, or_false, false_or] at h
  exact timedStep_calls h

theorem pause_ok (h : (pause G.actions.py w resume s).result = .ok u) :
    ∃ r, resume = some r ∧ u = decided r.decision := by
  simp only [pause, Effect.bind_result, need_result, ask_result] at h
  obtain ⟨_, _, _, _, _, _, _, _, hu⟩ := h
  cases resume with
  | none => simp at hu
  | some r =>
    simp only [Effect.pure_result, Except.ok.injEq] at hu
    exact ⟨r, rfl, hu.symm⟩

/-- The approval node returns what was decided, and goes on only with an approval. -/
theorem requestApproval_ok (h : (G.superstep w resume .requestApproval s).result = .ok (u, next)) :
    ∃ r, resume = some r ∧ u = decided r.decision ∧
      next = if r.decision = .approved then some .executeSql else none := by
  obtain ⟨hu, hn⟩ := superstep_ok h
  obtain ⟨r, hr, rfl⟩ := pause_ok hu
  obtain ⟨decision, hd, hnext⟩ := G.route_requestApproval.mp hn
  refine ⟨r, hr, rfl, ?_⟩
  cases hdec : r.decision with
  | approved =>
    obtain rfl : .approved = decision := by simpa [decided, hdec] using hd
    exact hnext.symm
  | rejected =>
    obtain rfl : .rejected = decision := by simpa [decided, hdec] using hd
    exact hnext.symm

/-- What the update of a node leaves as it was: the intent is set by one node and the rows by another, and
one node counts the attempts. -/
structure UpdateFrame (step : StepName) (v u : AgentState) : Prop where
  intent : step ≠ .classify → (v.merge u).intent = v.intent
  columns : step ≠ .executeSql → (v.merge u).columns = v.columns
  attempt : (v.merge u).attempt = if step = .generateSql then v.attempt + 1 else v.attempt

theorem superstep_frame (h : (G.superstep w resume step s).result = .ok (u, next)) : UpdateFrame step s u := by
  obtain ⟨hu, _⟩ := superstep_ok h
  cases step with
  | classify =>
    obtain ⟨_, rfl⟩ | ⟨_, rfl⟩ := classify_ok hu
    · exact ⟨fun hne => absurd rfl hne, fun _ => rfl, rfl⟩
    · exact ⟨fun hne => absurd rfl hne, fun _ => rfl, rfl⟩
  | retrieveMetrics =>
    obtain ⟨_, _, _, _, _, _, rfl⟩ := retrieveMetrics_ok hu
    exact ⟨fun _ => rfl, fun _ => rfl, rfl⟩
  | selectSchema =>
    obtain ⟨_, _, _, _, rfl⟩ := selectSchema_ok hu
    exact ⟨fun _ => rfl, fun _ => rfl, rfl⟩
  | generateSql =>
    obtain ⟨_, rfl⟩ := generateSql_ok hu
    exact ⟨fun _ => rfl, fun _ => rfl, rfl⟩
  | guardSql =>
    obtain ⟨_, _, _, _, ⟨_, _, rfl⟩ | ⟨_, _, hrule⟩⟩ := guardSql_ok hu
    · exact ⟨fun _ => rfl, fun _ => rfl, rfl⟩
    · obtain ⟨_, _, _, _, rfl⟩ := rule_ok hrule
      exact ⟨fun _ => rfl, fun _ => rfl, rfl⟩
  | requestApproval =>
    obtain ⟨r, _, rfl, _⟩ := requestApproval_ok h
    cases r.decision with
    | approved => exact ⟨fun _ => rfl, fun _ => rfl, rfl⟩
    | rejected => exact ⟨fun _ => rfl, fun _ => rfl, rfl⟩
  | executeSql =>
    obtain ⟨_, _, _, _, _, _, rfl⟩ := executeSql_ok hu
    exact ⟨fun _ => rfl, fun hne => absurd rfl hne, rfl⟩
  | verify =>
    rw [verify_ok hu]
    exact ⟨fun _ => rfl, fun _ => rfl, rfl⟩
  | compose =>
    obtain ⟨_, rfl⟩ | ⟨_, rfl⟩ | ⟨_, _, _, _, rfl⟩ := compose_ok hu
    · exact ⟨fun _ => rfl, fun _ => rfl, rfl⟩
    · exact ⟨fun _ => rfl, fun _ => rfl, rfl⟩
    · exact ⟨fun _ => rfl, fun _ => rfl, rfl⟩

theorem pause_calls (h : c ∈ (pause G.actions.py w resume s).calls) : c.decisive = false := by
  simp only [pause, Effect.mem_bind_calls, need_calls, ask_calls, List.not_mem_nil,
    List.mem_singleton, or_false] at h
  obtain ⟨_, _, _, _, ⟨_, _, ⟨_, _, hc⟩ | hc⟩ | rfl⟩ := h
  · cases resume with
    | none => simp at hc
    | some r => simp at hc
  · obtain ⟨r, rfl⟩ := recordStep_calls hc
    rfl
  · rfl

/-- Only the guard node consults the guard, and only the execute node the executor. -/
theorem superstep_decisive (h : c ∈ (G.superstep w resume step s).calls) (hd : c.decisive = true) :
    (step = .guardSql ∧ ∃ policy sql, s.queryPolicy = some policy ∧ s.sql = some sql ∧
      c = .inspect sql policy (G.actions.guard sql policy)) ∨
    (step = .executeSql ∧ ∃ g policy, s.guardedQuery = some g ∧ s.queryPolicy = some policy ∧
      c = .execute g policy) := by
  obtain hc | ⟨r, rfl⟩ := superstep_calls h
  · cases step with
    | classify => exact absurd hc classify_calls
    | retrieveMetrics =>
      obtain ⟨_, _, rfl⟩ := retrieveMetrics_calls hc
      cases hd
    | selectSchema =>
      obtain rfl | ⟨_, _, rfl⟩ := selectSchema_calls hc
      · cases hd
      · cases hd
    | generateSql =>
      obtain ⟨_, rfl⟩ := generateSql_calls hc
      cases hd
    | guardSql =>
      obtain hi | ⟨_, rfl⟩ := guardSql_calls hc
      · exact .inl ⟨rfl, hi⟩
      · cases hd
    | requestApproval => simp [pause_calls hc] at hd
    | executeSql => exact .inr ⟨rfl, executeSql_calls hc⟩
    | verify => exact absurd hc verify_calls
    | compose => exact absurd hc compose_calls
  · cases hd

/-- Apart from `timed_step`, only the approval node records a step. -/
theorem operation_records {r : AgentStepRecord} (h : .record r ∈ (G.operation w resume step s).calls) :
    step = .requestApproval := by
  cases step with
  | requestApproval => rfl
  | classify => exact absurd h classify_calls
  | retrieveMetrics =>
    obtain ⟨_, _, hc⟩ := retrieveMetrics_calls h
    cases hc
  | selectSchema =>
    obtain hc | ⟨_, _, hc⟩ := selectSchema_calls h
    · cases hc
    · cases hc
  | generateSql =>
    obtain ⟨_, hc⟩ := generateSql_calls h
    cases hc
  | guardSql =>
    obtain ⟨_, _, _, _, hc⟩ | ⟨_, hc⟩ := guardSql_calls h
    · cases hc
    · cases hc
  | executeSql =>
    obtain ⟨_, _, _, _, hc⟩ := executeSql_calls h
    cases hc
  | verify => exact absurd h verify_calls
  | compose => exact absurd h compose_calls

/-- Once the guard node has returned, its verdict is on record. -/
theorem superstep_inspects (h : (G.superstep w resume .guardSql s).result = .ok (u, next)) :
    ∃ policy sql, s.queryPolicy = some policy ∧ s.sql = some sql ∧
      .inspect sql policy (G.actions.guard sql policy) ∈ (G.superstep w resume .guardSql s).calls := by
  obtain ⟨policy, sql, hp, hs, hc⟩ := guardSql_inspects (superstep_ok h).1
  exact ⟨policy, sql, hp, hs, superstep_calls_of h hc⟩

theorem pause_interrupt {p : InterruptPayload}
    (h : (pause G.actions.py w resume s).result = .error (.interrupt p)) :
    resume = none ∧ p.sqlFingerprint = s.sqlFingerprint ∧ s.runId = some p.runId := by
  obtain h | ⟨runId, hr, h⟩ := Effect.bind_error.mp h
  · exact absurd h (Uninterrupted.need _ p)
  obtain h | ⟨_, _, h⟩ := Effect.bind_error.mp h
  · exact absurd h (Uninterrupted.need _ p)
  obtain h | ⟨_, _, h⟩ := Effect.bind_error.mp h
  · exact absurd h (Uninterrupted.ask _ _ p)
  obtain h | ⟨_, _, h⟩ := Effect.bind_error.mp h
  · exact absurd h (Uninterrupted.recordStep p)
  cases resume with
  | some r => cases h
  | none =>
    cases h
    exact ⟨rfl, rfl, by simpa using hr⟩

/-- Only the approval node interrupts, and only where it holds no decision yet. -/
theorem superstep_interrupt {p : InterruptPayload}
    (h : (G.superstep w resume step s).result = .error (.interrupt p)) :
    step = .requestApproval ∧ resume = none ∧ p.sqlFingerprint = s.sqlFingerprint := by
  obtain h | ⟨update, _, h⟩ := Effect.bind_error.mp h
  · have ho := timedStep_interrupt h
    cases step with
    | requestApproval =>
      obtain ⟨hr, hp, _⟩ := pause_interrupt ho
      exact ⟨rfl, hr, hp⟩
    | classify => exact absurd ho (classify_uninterrupted p)
    | retrieveMetrics => exact absurd ho (retrieveMetrics_uninterrupted p)
    | selectSchema => exact absurd ho (selectSchema_uninterrupted p)
    | generateSql => exact absurd ho (generateSql_uninterrupted p)
    | guardSql => exact absurd ho (guardSql_uninterrupted p)
    | executeSql => exact absurd ho (executeSql_uninterrupted p)
    | verify => exact absurd ho (verify_uninterrupted p)
    | compose => exact absurd ho (compose_uninterrupted p)
  · exact absurd h (Uninterrupted.bind (.need _) (fun _ => .pure _) p)

/-- The approval node asks the platform first, and then waits. -/
theorem superstep_waits {runId traceId : String} (ht : s.traceId = some traceId)
    (hr : s.runId = some runId) (hp : w.ensurePending = .ok ()) (hw : ∀ status, w.record status = .ok ()) :
    (G.superstep w none .requestApproval s).result =
      .error (.interrupt ⟨runId, s.sqlFingerprint, s.riskReasons.getD []⟩) := by
  have hpause : (pause G.actions.py w none s).result =
      .error (.interrupt ⟨runId, s.sqlFingerprint, s.riskReasons.getD []⟩) := by
    refine Effect.bind_error.mpr (.inr ⟨runId, need_result.mpr (get_eq_ok.mpr hr), ?_⟩)
    refine Effect.bind_error.mpr (.inr ⟨traceId, need_result.mpr (get_eq_ok.mpr ht), ?_⟩)
    refine Effect.bind_error.mpr (.inr ⟨(), ask_result.mpr hp, ?_⟩)
    refine Effect.bind_error.mpr (.inr ⟨(), ?_, rfl⟩)
    simp [recordStep, record, hr, hw]
  have hop : G.operation w none .requestApproval s = pause G.actions.py w none s := rfl
  refine Effect.bind_error.mpr (.inl ?_)
  refine Effect.bind_error.mpr (.inr ⟨traceId, need_result.mpr (get_eq_ok.mpr ht), ?_⟩)
  refine Effect.handle_error.mpr ⟨.interrupt ⟨runId, s.sqlFingerprint, s.riskReasons.getD []⟩, ?_, rfl⟩
  exact Effect.bind_error.mpr (.inl (by rw [hop, hpause]))

theorem superstep_resumes {runId traceId : String} (ht : s.traceId = some traceId)
    (hr : s.runId = some runId) (hp : w.ensurePending = .ok ()) (hw : ∀ status, w.record status = .ok ())
    (r : ApprovalResume) :
    (G.superstep w (some r) .requestApproval s).result =
      .ok (decided r.decision, if r.decision = .approved then some .executeSql else none) := by
  have hpause : (pause G.actions.py w (some r) s).result = .ok (decided r.decision) := by
    refine Effect.bind_result.mpr ⟨runId, need_result.mpr (get_eq_ok.mpr hr), ?_⟩
    refine Effect.bind_result.mpr ⟨traceId, need_result.mpr (get_eq_ok.mpr ht), ?_⟩
    refine Effect.bind_result.mpr ⟨(), ask_result.mpr hp, ?_⟩
    refine Effect.bind_result.mpr ⟨(), ?_, rfl⟩
    simp [recordStep, record, hr, hw]
  have hop : G.operation w (some r) .requestApproval s = pause G.actions.py w (some r) s := rfl
  have hroute : G.route .requestApproval (s.merge (decided r.decision)) =
      .ok (if r.decision = .approved then some .executeSql else none) := by
    cases r.decision with
    | approved => rfl
    | rejected => rfl
  exact superstep_of (by rw [hop, hpause]) ht hr hw hroute

end AgentGraph
end DataCopilot.Agent
