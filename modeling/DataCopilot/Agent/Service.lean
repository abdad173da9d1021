import DataCopilot.Agent.Workflow

/-! `AgentWorkflowService`: what start, resume and inspect report of a run. -/
namespace DataCopilot.Agent

inductive RunStatus where
  | planning | waitingApproval | completed | rejected | failed
deriving DecidableEq, Repr

def RunStatus.text : RunStatus → String
  | .planning => "PLANNING"
  | .waitingApproval => "WAITING_APPROVAL"
  | .completed => "COMPLETED"
  | .rejected => "REJECTED"
  | .failed => "FAILED"

/-- The outcomes that the platform keeps as final. -/
def RunStatus.terminal : RunStatus → Bool
  | .completed | .rejected | .failed => true
  | .planning | .waitingApproval => false

structure WorkflowResult where
  runId : String
  status : RunStatus
  state : AgentState
  interrupt : Option InterruptPayload := none

inductive ServiceError where
  | workflowConflict (message : String)
  | workflowIdentity (message : String)
  | keyError (runId : String)
  | node (f : Failure)

/-- How `invoke` ended. A raised exception leaves a snapshot behind. -/
inductive Invocation where
  | returned (values : AgentState) (interrupts : List InterruptPayload)
  | raised (f : Failure) (snapshot : Snapshot)

namespace AgentWorkflowService

def errorCodes : List (String × String) := [
  ("SchemaSelectionError", "NL2SQL_SCHEMA_SELECTION_FAILED"),
  ("NL2SQLRepairExhaustedError", "NL2SQL_REPAIR_EXHAUSTED"),
  ("NL2SQLPolicyError", "NL2SQL_QUESTION_REJECTED"),
  ("LLMAuthenticationError", "LLM_AUTHENTICATION_ERROR"),
  ("LLMConfigurationError", "LLM_CONFIGURATION_ERROR"),
  ("LLMInvalidResponseError", "LLM_INVALID_RESPONSE"),
  ("LLMRateLimitError", "LLM_RATE_LIMITED"),
  ("LLMRequestRejectedError", "LLM_REQUEST_REJECTED"),
  ("LLMTimeoutError", "LLM_TIMEOUT"),
  ("LLMUnavailableError", "LLM_UNAVAILABLE")]

/-- `str(task.error).partition("(")[0]`. -/
def errorName (error : String) : String := String.ofList (error.toList.takeWhile (· ≠ '('))

def errorCode (error : String) : String :=
  (errorCodes.lookup (errorName error)).getD "AGENT_WORKFLOW_FAILED"

def snapshotErrorCode (s : Snapshot) : Option String :=
  (s.tasks.find? fun t => truthy t.error).map fun t => errorCode (t.error.getD "")

def status (state : AgentState) (interrupted : Bool) : RunStatus :=
  if interrupted then .waitingApproval
  else if state.error = some "APPROVAL_REJECTED" ∨ state.sqlRisk = some .blocked then .rejected
  else if truthy state.error then .failed
  else if truthy state.answer then .completed
  else .planning

def reportedState (s : Snapshot) : AgentState :=
  match snapshotErrorCode s with
  | some code => { s.values with errorCode := some (some code) }
  | none => s.values

def snapshotResult (runId : String) (s : Snapshot) : WorkflowResult :=
  let interrupts := s.tasks.flatMap Task.interrupts
  { runId := runId
    status := status (reportedState s) (interrupts ≠ [])
    state := reportedState s
    interrupt := interrupts.head? }

def result (runId : String) (values : AgentState) (interrupts : List InterruptPayload) :
    WorkflowResult where
  runId := runId
  status := status values (interrupts ≠ [])
  state := values
  interrupt := interrupts.head?

/-- A thread without checkpoint has no snapshot. -/
def inspect (runId : String) : Option Snapshot → Except ServiceError WorkflowResult
  | none => .error (.keyError runId)
  | some s => .ok (snapshotResult runId s)

/-- The values belong to the same request. -/
def sameIdentity (r : StartRun) (v : AgentState) : Prop :=
  v.tenantId = some r.tenantId ∧ v.userId = some r.userId ∧
    v.dataSourceId = some r.dataSourceId ∧ v.question = some (Text.strip r.question)

instance (r : StartRun) (v : AgentState) : Decidable (sameIdentity r v) :=
  inferInstanceAs (Decidable (_ ∧ _))

/-- `invocation` is what invoking the graph leads to, for a thread that has no checkpoint. -/
def start (r : StartRun) (snapshot : Option Snapshot) (invocation : Invocation) :
    Except ServiceError WorkflowResult :=
  match snapshot with
  | some s =>
    if sameIdentity r s.values then inspect r.runId (some s)
    else .error (.workflowConflict "the run id belongs to a different request")
  | none =>
    match invocation with
    | .returned values interrupts => .ok (result r.runId values interrupts)
    | .raised f left =>
      if (snapshotErrorCode left).isSome then .ok (snapshotResult r.runId left)
      else .error (.node f)

/-- Unlike start, resume lets the exception of a node escape. -/
def resume (runId tenantId : String) (snapshot : Option Snapshot) (invocation : Invocation) :
    Except ServiceError WorkflowResult :=
  let s := snapshot.getD ⟨{}, []⟩
  if s.interrupted = false then
    .error (.workflowConflict "the workflow is not waiting for approval")
  else if s.values.runId ≠ some runId ∨ s.values.tenantId ≠ some tenantId then
    .error (.workflowIdentity "the workflow identity does not match")
  else
    match invocation with
    | .returned values interrupts => .ok (result runId values interrupts)
    | .raised f _ => .error (.node f)

/-- What decides the outcome of a checkpoint whose only task is pending. -/
theorem snapshotResult_pending {runId : String} {v : AgentState} {task : Task}
    (he : task.error = none) (hi : task.interrupts = []) :
    (snapshotResult runId ⟨v, [task]⟩).status.terminal =
      (decide (v.sqlRisk = some .blocked) || truthy v.error || truthy v.answer) := by
  have hc : snapshotErrorCode ⟨v, [task]⟩ = none := by simp [snapshotErrorCode, he]
  simp only [snapshotResult, reportedState, hc, List.flatMap_cons, List.flatMap_nil, hi,
    List.append_nil, status]
  by_cases hr : v.error = some "APPROVAL_REJECTED"
  · simp [hr, truthy, RunStatus.terminal]
  · by_cases hb : v.sqlRisk = some .blocked
    · simp [hb, RunStatus.terminal]
    · by_cases ht : truthy v.error = true
      · simp [hr, hb, ht, RunStatus.terminal]
      · by_cases ha : truthy v.answer = true
        · simp [hr, hb, ht, ha, RunStatus.terminal]
        · simp [hr, hb, ht, ha, RunStatus.terminal]

/-- A checkpoint with an interrupt is never reported as an outcome. -/
theorem snapshotResult_waiting {runId : String} {v : AgentState} {task : Task}
    (hi : task.interrupts ≠ []) :
    (snapshotResult runId ⟨v, [task]⟩).status = .waitingApproval := by
  simp [snapshotResult, status, hi]

end AgentWorkflowService
end DataCopilot.Agent
