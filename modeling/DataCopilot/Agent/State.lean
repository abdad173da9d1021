import DataCopilot.Agent.Models
import DataCopilot.Sql.Guard

/-! `AgentState` is a dictionary with a fixed set of keys, each present or not. A node
returns the keys it sets, and these replace the old ones. -/
namespace DataCopilot.Agent
open Sql

inductive Intent where
  | sql | knowledge | hybrid
deriving DecidableEq, Repr

inductive SqlRisk where
  | safe | approval | blocked | repair
deriving DecidableEq, Repr

inductive ApprovalDecision where
  | approved | rejected
deriving DecidableEq, Repr

structure MetricContext where
  content : String
  citation : Citation
deriving DecidableEq, Repr

/-- `None` outside is an absent key. The key `error_code` may also be set to `None`. -/
structure AgentState where
  runId : Option String := none
  tenantId : Option String := none
  userId : Option String := none
  role : Option String := none
  dataSourceId : Option String := none
  traceId : Option String := none
  question : Option String := none
  intent : Option Intent := none
  candidateTables : Option (List String) := none
  selectionConfidence : Option ℚ := none
  schemaSnapshot : Option SchemaSnapshot := none
  queryPolicy : Option QueryPolicy := none
  metricContext : Option (List MetricContext) := none
  analysisPlan : Option AnalysisPlan := none
  sql : Option String := none
  sqlFingerprint : Option String := none
  guardedQuery : Option GuardedQuery := none
  sqlRisk : Option SqlRisk := none
  riskReasons : Option (List String) := none
  approvalDecision : Option ApprovalDecision := none
  rows : Option (List Row) := none
  columns : Option (List String) := none
  resultTruncated : Option Bool := none
  attempts : Option Nat := none
  answer : Option String := none
  citations : Option (List Citation) := none
  chartSpec : Option ChartSpec := none
  errorCode : Option (Option String) := none

/-- `if state.get(key)` for a key that holds a text. -/
def truthy (value : Option String) : Bool := value.getD "" ≠ ""

@[simp] theorem truthy_none : truthy none = false := rfl

theorem truthy_some {s : String} : truthy (some s) = true ↔ s ≠ "" := by simp [truthy]

namespace AgentState

/-- `state[key]`. -/
def get {α : Type} (key : String) : Option α → Except Failure α
  | some a => .ok a
  | none => .error (keyError key)

@[simp] theorem get_eq_ok {α : Type} {key : String} {o : Option α} {a : α} :
    get key o = .ok a ↔ o = some a := by
  cases o <;> simp [get]

/-- `state.get("error_code")`. -/
def error (s : AgentState) : Option String := s.errorCode.join

/-- `state.get("attempts", 0)`. -/
def attempt (s : AgentState) : Nat := s.attempts.getD 0

def merge (s u : AgentState) : AgentState where
  runId := u.runId <|> s.runId
  tenantId := u.tenantId <|> s.tenantId
  userId := u.userId <|> s.userId
  role := u.role <|> s.role
  dataSourceId := u.dataSourceId <|> s.dataSourceId
  traceId := u.traceId <|> s.traceId
  question := u.question <|> s.question
  intent := u.intent <|> s.intent
  candidateTables := u.candidateTables <|> s.candidateTables
  selectionConfidence := u.selectionConfidence <|> s.selectionConfidence
  schemaSnapshot := u.schemaSnapshot <|> s.schemaSnapshot
  queryPolicy := u.queryPolicy <|> s.queryPolicy
  metricContext := u.metricContext <|> s.metricContext
  analysisPlan := u.analysisPlan <|> s.analysisPlan
  sql := u.sql <|> s.sql
  sqlFingerprint := u.sqlFingerprint <|> s.sqlFingerprint
  guardedQuery := u.guardedQuery <|> s.guardedQuery
  sqlRisk := u.sqlRisk <|> s.sqlRisk
  riskReasons := u.riskReasons <|> s.riskReasons
  approvalDecision := u.approvalDecision <|> s.approvalDecision
  rows := u.rows <|> s.rows
  columns := u.columns <|> s.columns
  resultTruncated := u.resultTruncated <|> s.resultTruncated
  attempts := u.attempts <|> s.attempts
  answer := u.answer <|> s.answer
  citations := u.citations <|> s.citations
  chartSpec := u.chartSpec <|> s.chartSpec
  errorCode := u.errorCode <|> s.errorCode

@[simp] theorem merge_runId (s u : AgentState) : (s.merge u).runId = (u.runId <|> s.runId) := rfl
@[simp] theorem merge_tenantId (s u : AgentState) : (s.merge u).tenantId = (u.tenantId <|> s.tenantId) := rfl
@[simp] theorem merge_traceId (s u : AgentState) : (s.merge u).traceId = (u.traceId <|> s.traceId) := rfl
@[simp] theorem merge_question (s u : AgentState) : (s.merge u).question = (u.question <|> s.question) := rfl
@[simp] theorem merge_intent (s u : AgentState) : (s.merge u).intent = (u.intent <|> s.intent) := rfl
@[simp] theorem merge_queryPolicy (s u : AgentState) : (s.merge u).queryPolicy = (u.queryPolicy <|> s.queryPolicy) := rfl
@[simp] theorem merge_sql (s u : AgentState) : (s.merge u).sql = (u.sql <|> s.sql) := rfl
@[simp] theorem merge_sqlFingerprint (s u : AgentState) : (s.merge u).sqlFingerprint = (u.sqlFingerprint <|> s.sqlFingerprint) := rfl
@[simp] theorem merge_guardedQuery (s u : AgentState) : (s.merge u).guardedQuery = (u.guardedQuery <|> s.guardedQuery) := rfl
@[simp] theorem merge_sqlRisk (s u : AgentState) : (s.merge u).sqlRisk = (u.sqlRisk <|> s.sqlRisk) := rfl
@[simp] theorem merge_riskReasons (s u : AgentState) : (s.merge u).riskReasons = (u.riskReasons <|> s.riskReasons) := rfl
@[simp] theorem merge_approvalDecision (s u : AgentState) : (s.merge u).approvalDecision = (u.approvalDecision <|> s.approvalDecision) := rfl
@[simp] theorem merge_columns (s u : AgentState) : (s.merge u).columns = (u.columns <|> s.columns) := rfl
@[simp] theorem merge_attempts (s u : AgentState) : (s.merge u).attempts = (u.attempts <|> s.attempts) := rfl
@[simp] theorem merge_answer (s u : AgentState) : (s.merge u).answer = (u.answer <|> s.answer) := rfl
@[simp] theorem merge_errorCode (s u : AgentState) : (s.merge u).errorCode = (u.errorCode <|> s.errorCode) := rfl

theorem merge_empty (s : AgentState) : s.merge {} = s := by
  cases s
  simp [merge]

end AgentState

structure StartRun where
  runId : String
  tenantId : String
  userId : String
  role : String
  dataSourceId : String
  traceId : String
  question : String

def StartRun.initialState (r : StartRun) : AgentState where
  runId := some r.runId
  tenantId := some r.tenantId
  userId := some r.userId
  role := some r.role
  dataSourceId := some r.dataSourceId
  traceId := some r.traceId
  question := some (Text.strip r.question)
  attempts := some 0
  riskReasons := some []
  metricContext := some []
  candidateTables := some []
  citations := some []
  rows := some []
  columns := some []
  resultTruncated := some false
  errorCode := some none

structure ApprovalResume where
  approvalId : String
  decision : ApprovalDecision
  decidedBy : String
  comment : Option String := none
deriving DecidableEq, Repr

/-- What the interrupt hands to the platform. -/
structure InterruptPayload where
  runId : String
  sqlFingerprint : Option String
  reasonCodes : List String
deriving DecidableEq, Repr

end DataCopilot.Agent
