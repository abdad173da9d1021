import Mathlib.Logic.Relation
import DataCopilot.Library.Result

/-! The analysis job of the platform: its states, the transitions between them, and the
columns that a transaction may write. -/
namespace DataCopilot.Platform

inductive AnalysisJobStatus where
  | created | planning | validating | waitingApproval | running | completed | rejected | failed
  | cancelled
deriving DecidableEq, Repr

def AnalysisJobStatus.text : AnalysisJobStatus → String
  | .created => "CREATED"
  | .planning => "PLANNING"
  | .validating => "VALIDATING"
  | .waitingApproval => "WAITING_APPROVAL"
  | .running => "RUNNING"
  | .completed => "COMPLETED"
  | .rejected => "REJECTED"
  | .failed => "FAILED"
  | .cancelled => "CANCELLED"

def AnalysisJobStatus.values : List AnalysisJobStatus :=
  [.created, .planning, .validating, .waitingApproval, .running, .completed, .rejected, .failed,
    .cancelled]

/-- The exceptions of the modelled code. -/
inductive PlatformError where
  | invalidJobTransition (current target : AnalysisJobStatus)
  | noEnumConstant (name : String)
  | emptyResponse
  | dataSourceMismatch
  | noValuePresent
  | approvalAlreadyDecided
  | invalidDecision
deriving DecidableEq, Repr

def AnalysisJobStatus.valueOf (name : String) : Except PlatformError AnalysisJobStatus :=
  match values.find? fun status => status.text = name with
  | some status => .ok status
  | none => .error (.noEnumConstant name)

theorem AnalysisJobStatus.text_of_valueOf {name : String} {status : AnalysisJobStatus}
    (h : valueOf name = .ok status) : status.text = name := by
  unfold valueOf at h
  cases hf : values.find? fun status => status.text = name with
  | none =>
    rw [hf] at h
    cases h
  | some found =>
    rw [hf] at h
    cases h
    simpa using List.find?_some hf

namespace AnalysisJobStateMachine

def terminalStates : List AnalysisJobStatus := [.completed, .rejected, .failed, .cancelled]

def allowedTransitions : AnalysisJobStatus → List AnalysisJobStatus
  | .created => [.planning, .failed, .cancelled]
  | .planning => [.validating, .failed, .cancelled]
  | .validating => [.running, .waitingApproval, .rejected, .failed, .cancelled]
  | .waitingApproval => [.running, .rejected, .failed, .cancelled]
  | .running => [.completed, .failed, .cancelled]
  | _ => []

/-- Replayed status updates are treated as idempotent no-ops. -/
def canTransition (current target : AnalysisJobStatus) : Bool :=
  current = target || target ∈ allowedTransitions current

def transition (current target : AnalysisJobStatus) : Except PlatformError AnalysisJobStatus :=
  if canTransition current target then .ok target
  else .error (.invalidJobTransition current target)

def isTerminal (status : AnalysisJobStatus) : Bool := status ∈ terminalStates

/-- One edge of the declared state machine. -/
def Edge (current target : AnalysisJobStatus) : Prop := target ∈ allowedTransitions current

/-- A chain of edges. -/
def Chain : AnalysisJobStatus → AnalysisJobStatus → Prop := Relation.ReflTransGen Edge

theorem transition_ok {current target status : AnalysisJobStatus}
    (h : transition current target = .ok status) :
    status = target ∧ (current = target ∨ Edge current target) := by
  unfold transition at h
  by_cases hc : canTransition current target = true
  · rw [if_pos hc] at h
    cases h
    exact ⟨rfl, by simpa [canTransition, Edge] using hc⟩
  · rw [if_neg hc] at h
    cases h

/-- No edge leaves a terminal state. -/
theorem terminal_final {current target : AnalysisJobStatus} (ht : isTerminal current = true)
    (h : Edge current target) : False := by
  cases current <;> simp [isTerminal, terminalStates, Edge, allowedTransitions] at ht h

theorem Chain.of_terminal {current target : AnalysisJobStatus} (ht : isTerminal current = true)
    (h : Chain current target) : target = current := by
  obtain rfl | ⟨next, he, _⟩ := Relation.ReflTransGen.cases_head h
  · rfl
  · exact (terminal_final ht he).elim

end AnalysisJobStateMachine

/-- The columns that the modelled transactions read or write. -/
structure AnalysisJob where
  id : String
  createdBy : String
  status : AnalysisJobStatus := .created
  finishedAt : Option Nat := none
  workflowThreadId : Option String := none
  generatedSql : Option String := none
  answer : Option String := none
  errorCode : Option String := none
  resultColumnsJson : Option String := none
  resultRowsJson : Option String := none
  resultTruncated : Bool := false
  chartSpecJson : Option String := none
  citationsJson : Option String := none
deriving DecidableEq, Repr

/-- The fields of the agent's state that the platform stores, as `nodeText`, `nodeJson` and
`nodeBoolean` read them. -/
structure AgentRunState where
  sql : Option String := none
  answer : Option String := none
  errorCode : Option String := none
  columns : Option String := none
  rows : Option String := none
  resultTruncated : Bool := false
  chartSpec : Option String := none
  citations : Option String := none
deriving DecidableEq, Repr

structure AgentRunResult where
  runId : String
  status : String
  state : Option AgentRunState := none
deriving DecidableEq, Repr

namespace AnalysisJob

/-- `now` is what `Instant.now()` answers. -/
def transitionTo (now : Nat) (job : AnalysisJob) (target : AnalysisJobStatus) :
    Except PlatformError AnalysisJob := do
  let status ← AnalysisJobStateMachine.transition job.status target
  let finishedAt := if AnalysisJobStateMachine.isTerminal target then some now else job.finishedAt
  pure { job with status := status, finishedAt := finishedAt }

def attachWorkflowThread (job : AnalysisJob) (threadId : String) : AnalysisJob :=
  { job with workflowThreadId := some threadId }

def storeAgentResult (job : AnalysisJob) (state : AgentRunState) : AnalysisJob :=
  { job with
    generatedSql := state.sql
    answer := state.answer
    errorCode := state.errorCode
    resultColumnsJson := state.columns
    resultRowsJson := state.rows
    resultTruncated := state.resultTruncated
    chartSpecJson := state.chartSpec
    citationsJson := state.citations }

@[simp] theorem attachWorkflowThread_status (job : AnalysisJob) (threadId : String) :
    (job.attachWorkflowThread threadId).status = job.status := rfl
@[simp] theorem storeAgentResult_status (job : AnalysisJob) (state : AgentRunState) :
    (job.storeAgentResult state).status = job.status := rfl

theorem transitionTo_ok {now : Nat} {job next : AnalysisJob} {target : AnalysisJobStatus}
    (h : job.transitionTo now target = .ok next) :
    next.status = target ∧ (job.status = target ∨ AnalysisJobStateMachine.Edge job.status target) := by
  simp only [transitionTo, Result.bind_eq_ok, Result.pure_eq_ok] at h
  obtain ⟨status, hs, rfl⟩ := h
  exact AnalysisJobStateMachine.transition_ok hs

theorem transitionTo_chain {now : Nat} {job next : AnalysisJob} {target : AnalysisJobStatus}
    (h : job.transitionTo now target = .ok next) :
    AnalysisJobStateMachine.Chain job.status next.status := by
  obtain ⟨hn, he | he⟩ := transitionTo_ok h
  · rw [hn, he]
    exact .refl
  · rw [hn]
    exact .single he

theorem transitionTo_of {now : Nat} {job : AnalysisJob} {target : AnalysisJobStatus}
    (h : AnalysisJobStateMachine.canTransition job.status target = true) :
    ∃ next, job.transitionTo now target = .ok next ∧ next.status = target := by
  have ht : AnalysisJobStateMachine.transition job.status target = .ok target := if_pos h
  exact ⟨_, Result.bind_eq_ok.mpr ⟨target, ht, rfl⟩, rfl⟩

end AnalysisJob
end DataCopilot.Platform
