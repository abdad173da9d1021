import DataCopilot.Library.Effect
import DataCopilot.Agent.Prompts
import DataCopilot.Agent.State

/-! The calls a workflow node makes, the redacted record of each step, and `timed_step`,
which runs a node and records how it ended. -/
namespace DataCopilot.Agent
open Sql Effects

inductive StepName where
  | classify | retrieveMetrics | selectSchema | generateSql | guardSql | requestApproval
  | executeSql | verify | compose
deriving DecidableEq, Repr

def StepName.text : StepName → String
  | .classify => "classify"
  | .retrieveMetrics => "retrieve_metrics"
  | .selectSchema => "select_schema"
  | .generateSql => "generate_sql"
  | .guardSql => "guard_sql"
  | .requestApproval => "request_approval"
  | .executeSql => "execute_sql"
  | .verify => "verify"
  | .compose => "compose"

inductive StepStatus where
  | waiting | succeeded | failed
deriving DecidableEq, Repr

/-- The allow-listed part of a state. Keys whose value is `None` are left out. -/
structure StateSummary where
  intent : Option Intent
  candidateTableCount : Nat
  metricContextCount : Nat
  attempts : Nat
  sqlRisk : Option SqlRisk
  riskReasons : List String
  rowCount : Nat
  columnCount : Nat
  citationCount : Nat
  errorCode : Option String
  sqlFingerprint : Option String
deriving DecidableEq

def stateSummary (py : Python) (s : AgentState) : StateSummary where
  intent := s.intent
  candidateTableCount := (s.candidateTables.getD []).length
  metricContextCount := (s.metricContext.getD []).length
  attempts := s.attempt
  sqlRisk := s.sqlRisk
  riskReasons := (s.riskReasons.getD []).take 5
  rowCount := (s.rows.getD []).length
  columnCount := (s.columns.getD []).length
  citationCount := (s.citations.getD []).length
  errorCode := s.error
  sqlFingerprint := (s.sql.filter (· ≠ "")).map fun sql => "sha256:" ++ py.sha256 sql

structure ErrorClass where
  category : String
  retryable : Bool
deriving DecidableEq, Repr

def classifyError (f : Failure) : ErrorClass :=
  match f.kind with
  | .llm retryable => ⟨"model", retryable⟩
  | .timeout => ⟨"timeout", true⟩
  | .transport => ⟨"transport", true⟩
  | .validation => ⟨"validation", false⟩
  | .other =>
    let code := f.code.getD ""
    if Text.contains code "POLICY" || Text.contains code "REJECT" then ⟨"policy", false⟩
    else if Text.contains code "STORE" then ⟨"storage", false⟩
    else ⟨"internal", false⟩

inductive OutputSummary where
  | state (summary : StateSummary)
  | error (cls : ErrorClass)
  | waiting (sqlFingerprint : Option String) (riskReasons : List String)
deriving DecidableEq

structure AgentStepRecord where
  runId : String
  stepName : StepName
  status : StepStatus
  attempt : Nat
  inputSummary : StateSummary
  outputSummary : OutputSummary
  errorCode : Option String := none
deriving DecidableEq

/-- What a node asks of the outside. -/
inductive Call where
  | retrieve (tenantId query : String)
  | introspect
  | select (messages : List LLMMessage) (names : List String)
  | draft (messages : List LLMMessage)
  | inspect (sql : String) (policy : QueryPolicy) (verdict : Except GuardError GuardedQuery)
  | estimate (g : GuardedQuery)
  | execute (g : GuardedQuery) (policy : QueryPolicy)
  | ensurePending (runId : String) (reasonCodes : List String) (sqlFingerprint : Option String)
  | record (step : AgentStepRecord)

def Call.executes : Call → Bool
  | .execute _ _ => true
  | _ => false

/-- The calls that decide what is run against the business database. -/
def Call.decisive : Call → Bool
  | .inspect _ _ _ | .execute _ _ => true
  | _ => false

/-- What the services outside answer while one node runs. -/
structure World where
  retrieve : String → String → Except Failure RetrievalResult
  introspect : Except Failure SchemaSnapshot
  select : List LLMMessage → List String → Except Failure ConfidentTableSelection
  draft : List LLMMessage → Except Failure NL2SQLDraft
  estimate : GuardedQuery → Except Failure QueryCostEstimate
  execute : GuardedQuery → QueryPolicy → Except Failure QueryExecutionResult
  ensurePending : Except Failure Unit
  record : StepStatus → Except Failure Unit

/-- How a node ends without an update. -/
inductive Stop where
  | failure (f : Failure)
  | interrupt (payload : InterruptPayload)

variable {α : Type}

def orStop (r : Except Failure α) : Except Stop α :=
  match r with
  | .ok a => .ok a
  | .error f => .error (.failure f)

@[simp] theorem orStop_eq_ok {r : Except Failure α} {a : α} : orStop r = .ok a ↔ r = .ok a := by
  cases r <;> simp [orStop]

@[simp] theorem orStop_ne_interrupt {r : Except Failure α} {p : InterruptPayload} :
    orStop r ≠ .error (.interrupt p) := by
  cases r <;> simp [orStop]

def need (r : Except Failure α) : Effect Call Stop α := .lift (orStop r)

def ask (c : Call) (answer : Except Failure α) : Effect Call Stop α := .call c (orStop answer)

def fail (f : Failure) : Effect Call Stop α := .raise (.failure f)

@[simp] theorem need_result {r : Except Failure α} {a : α} :
    (need r).result = .ok a ↔ r = .ok a := by simp [need]
@[simp] theorem need_calls {r : Except Failure α} : (need r).calls = [] := rfl
@[simp] theorem ask_result {c : Call} {r : Except Failure α} {a : α} :
    (ask c r).result = .ok a ↔ r = .ok a := by simp [ask]
@[simp] theorem ask_calls {c : Call} {r : Except Failure α} : (ask c r).calls = [c] := rfl
@[simp] theorem fail_result {f : Failure} {a : α} : (fail f).result ≠ .ok a := by simp [fail]
@[simp] theorem fail_calls {f : Failure} : (fail f : Effect Call Stop α).calls = [] := rfl

/-- A computation that no interrupt ends. -/
def Uninterrupted (x : Effect Call Stop α) : Prop := ∀ p, x.result ≠ .error (.interrupt p)

namespace Uninterrupted
variable {β : Type} {x : Effect Call Stop α} {f : α → Effect Call Stop β}

@[simp] theorem pure (a : α) : Uninterrupted (Pure.pure a : Effect Call Stop α) :=
  fun p h => by simp at h

@[simp] theorem need (r : Except Failure α) : Uninterrupted (need r) :=
  fun p h => by simp [Agent.need] at h

@[simp] theorem ask (c : Call) (r : Except Failure α) : Uninterrupted (ask c r) :=
  fun p h => by simp [Agent.ask] at h

@[simp] theorem fail (g : Failure) : Uninterrupted (fail g : Effect Call Stop α) :=
  fun p h => by simp [Agent.fail] at h

theorem bind (hx : Uninterrupted x) (hf : ∀ a, Uninterrupted (f a)) : Uninterrupted (x >>= f) := by
  intro p h
  obtain h | ⟨a, _, h⟩ := Effect.bind_error.mp h
  · exact hx p h
  · exact hf a p h

theorem handle {h : Stop → Effect Call Stop α} (hx : Uninterrupted x)
    (hf : ∀ g, Uninterrupted (h (.failure g))) : Uninterrupted (x.handle h) := by
  intro p he
  obtain ⟨stop, hs, he⟩ := Effect.handle_error.mp he
  cases stop with
  | interrupt q => exact hx q hs
  | failure g => exact hf g p he

end Uninterrupted

variable (py : Python) (w : World)

def record (step : AgentStepRecord) : Effect Call Stop Unit := ask (.record step) (w.record step.status)

variable (stepName : StepName) (state : AgentState)

def recordStep (status : StepStatus) (output : OutputSummary) (code : Option String) :
    Effect Call Stop Unit := do
  let runId ← need (AgentState.get "run_id" state.runId)
  record w {
    runId := runId
    stepName := stepName
    status := status
    attempt := state.attempt
    inputSummary := stateSummary py state
    outputSummary := output
    errorCode := code }

def succeed (operation : AgentState → Effect Call Stop AgentState) : Effect Call Stop AgentState := do
  let update ← operation state
  recordStep py w stepName state .succeeded (.state (stateSummary py (state.merge update))) none
  pure update

/-- An interrupt is expected control flow and leaves no record of its own. -/
def giveUp : Stop → Effect Call Stop AgentState
  | .interrupt p => .raise (.interrupt p)
  | .failure f => do
    recordStep py w stepName state .failed (.error (classifyError f)) (some (f.stableCode py.upper))
    .raise (.failure f)

def timedStep (operation : AgentState → Effect Call Stop AgentState) : Effect Call Stop AgentState := do
  let _ ← need (AgentState.get "trace_id" state.traceId)
  (succeed py w stepName state operation).handle (giveUp py w stepName state)

variable {py w stepName state} {operation : AgentState → Effect Call Stop AgentState} {c : Call}

theorem recordStep_calls {status : StepStatus} {output : OutputSummary} {code : Option String}
    (h : c ∈ (recordStep py w stepName state status output code).calls) :
    ∃ step, c = .record step := by
  simp only [recordStep, record, Effect.mem_bind_calls, ask_calls, need_calls, List.mem_singleton,
    List.not_mem_nil, or_false] at h
  obtain ⟨_, _, hc⟩ := h
  exact ⟨_, hc⟩

theorem Uninterrupted.recordStep {status : StepStatus} {output : OutputSummary}
    {code : Option String} : Uninterrupted (recordStep py w stepName state status output code) :=
  .bind (.need _) fun _ => .ask _ _

theorem giveUp_result (stop : Stop) (u : AgentState) :
    (giveUp py w stepName state stop).result ≠ .ok u := by
  cases stop with
  | interrupt p => simp [giveUp]
  | failure f => simp [giveUp]

theorem giveUp_calls {stop : Stop} (h : c ∈ (giveUp py w stepName state stop).calls) :
    ∃ step, c = .record step := by
  cases stop with
  | interrupt p => simp [giveUp] at h
  | failure f =>
    simp only [giveUp, Effect.mem_bind_calls, Effect.raise_calls, List.not_mem_nil, and_false,
      exists_false, false_or] at h
    exact recordStep_calls h

/-- A step ends with an update only when its operation does, and with that same update. -/
theorem timedStep_result {u : AgentState}
    (h : (timedStep py w stepName state operation).result = .ok u) :
    (operation state).result = .ok u := by
  simp only [timedStep, Effect.bind_result, Effect.handle_result, giveUp_result, and_false,
    exists_false, or_false, succeed, Effect.pure_result, Except.ok.injEq] at h
  obtain ⟨_, _, update, hu, _, _, rfl⟩ := h
  exact hu

/-- A step is interrupted only where its operation is. -/
theorem timedStep_interrupt {p : InterruptPayload}
    (h : (timedStep py w stepName state operation).result = .error (.interrupt p)) :
    (operation state).result = .error (.interrupt p) := by
  obtain h | ⟨_, _, h⟩ := Effect.bind_error.mp h
  · exact absurd h (Uninterrupted.need _ p)
  obtain ⟨stop, hs, h⟩ := Effect.handle_error.mp h
  cases stop with
  | failure f =>
    obtain h | ⟨_, _, h⟩ := Effect.bind_error.mp h
    · exact absurd h (Uninterrupted.recordStep p)
    · cases h
  | interrupt q =>
    cases h
    obtain hs | ⟨update, _, hs⟩ := Effect.bind_error.mp hs
    · exact hs
    · exact absurd hs (Uninterrupted.recordStep.bind (fun _ => .pure _) p)

/-- The calls of the operation are made when the step runs to its end. -/
theorem timedStep_calls_of {u : AgentState}
    (h : (timedStep py w stepName state operation).result = .ok u) (hc : c ∈ (operation state).calls) :
    c ∈ (timedStep py w stepName state operation).calls := by
  obtain ⟨traceId, ht, _⟩ := Effect.bind_result.mp h
  simp only [timedStep, Effect.mem_bind_calls, Effect.mem_handle_calls, succeed]
  exact .inl ⟨traceId, ht, .inr (.inr hc)⟩

/-- Apart from its record, a step makes the calls of its operation. -/
theorem timedStep_calls (h : c ∈ (timedStep py w stepName state operation).calls) :
    c ∈ (operation state).calls ∨ ∃ step, c = .record step := by
  simp only [timedStep, Effect.mem_bind_calls, Effect.mem_handle_calls, succeed, need_calls,
    Effect.pure_calls, List.not_mem_nil, and_false, exists_false, false_or, or_false] at h
  obtain ⟨_, _, ⟨_, _, hc⟩ | ⟨_, _, hc⟩ | hc⟩ := h
  · exact .inr (giveUp_calls hc)
  · exact .inr (recordStep_calls hc)
  · exact .inl hc

end DataCopilot.Agent
