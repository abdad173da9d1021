import DataCopilot.Query.Scripted

/-! `evaluate_p10` in the mode `scripted_gold_replay`. All cases are answered out of one queue of responses, two of
which are scripted for each case. Latencies are left out. -/
namespace DataCopilot.Evaluation
open Sql Agent Effects Query Script

/-- The fields of `NL2SQLGoldCase` that the runner reads. -/
structure NL2SQLGoldCase where
  id : String
  question : String
  goldSql : String
  expectedColumns : List String
  question_ok : 1 ≤ question.length ∧ question.length ≤ 4000
  sql_ok : 1 ≤ goldSql.length ∧ goldSql.length ≤ 50000
  columns_ok : 1 ≤ expectedColumns.length ∧ expectedColumns.length ≤ 50 ∧ expectedColumns.Nodup

structure DangerousQuestionCase where
  id : String
  question : String
  expectedReasonCode : String

inductive FailureCategory where
  | dataset | model | schemaSelection | safety | execution | resultMismatch | unknown
deriving DecidableEq, Repr

inductive CaseKind where
  | nl2sql | dangerous
deriving DecidableEq, Repr

structure EvaluationCaseResult where
  caseId : String
  kind : CaseKind
  passed : Bool
  executionCorrect : Option Bool := none
  safeQueryPassed : Option Bool := none
  blocked : Option Bool := none
  firstPass : Option Bool := none
  repairCount : Option Nat := none
  inputTokens : Option Nat := none
  outputTokens : Option Nat := none
  totalTokens : Option Nat := none
  estimatedCostUsd : Option ℚ := none
  failureCategory : Option FailureCategory := none
  failureCode : Option String := none
deriving DecidableEq, Repr

/-- The ids that `_context` draws. -/
structure ContextIds where
  tenantId : String
  userId : String
  jobId : String
  dataSourceId : String

/-- What `evaluate_p10` is given, and what it asks of its collaborators: the guard of questions, the two response
models, the planner and the database, and the arithmetic of the costs. Two values of the database may be the same
to Python. -/
structure Runner where
  snapshot : SchemaSnapshot
  inputCostPerMillion : Option ℚ := none
  outputCostPerMillion : Option ℚ := none
  py : Python
  libraries : Libraries
  questionGuard : String → Except String String
  selection : List String → String → Except (List String) TableSelection
  draft : String → Except (List String) NL2SQLDraft
  estimate : GuardedQuery → Except Raised QueryCostEstimate
  execute : GuardedQuery → QueryPolicy → Except Raised QueryExecutionResult
  ids : String → ContextIds
  stamp : String → Nat → Stamp
  cost : Nat → Nat → ℚ → ℚ → ℚ
  sameValue : Cell → Cell → Bool

/-- A case with the two responses that are scripted for it. -/
structure ScriptedCase where
  case : NL2SQLGoldCase
  selection : ScriptedResponse
  draft : ScriptedResponse

def ScriptedCase.responses (s : ScriptedCase) : List ScriptedResponse := [s.selection, s.draft]

/-- `_selected_tables`. -/
def selectedTables (L : Libraries) (sql : String) : Except ParseFailure (List String) := do
  let statement ← L.parseOne sql
  let cteNames := (L.findCtes statement).map Identifier.text
  .ok (((L.findTables statement).map Table.name).filter (· ∉ cteNames)).eraseDups

def selectionResponse (tables : List String) : String := Json.dumps (.object [("tables", jsonStrings tables)])

def draftResponse (case : NL2SQLGoldCase) (tables : List String) : String :=
  Json.dumps (.object [
    ("analysis_plan", .object [
      ("summary", .string "Execute the deterministic P10 gold replay."),
      ("steps", jsonStrings ["Read approved tables", "Return the expected result"]),
      ("expected_columns", jsonStrings case.expectedColumns)]),
    ("tables_used", jsonStrings tables),
    ("sql", .string case.goldSql)])

/-- `_scripted_responses` from the place `first` of the script on. -/
def scriptedCases (L : Libraries) : Nat → List NL2SQLGoldCase → Except ParseFailure (List ScriptedCase)
  | _, [] => .ok []
  | first, case :: later => do
    let tables ← selectedTables L case.goldSql
    let rest ← scriptedCases L (first + 2) later
    .ok (⟨case, ⟨first, selectionResponse tables⟩, ⟨first + 1, draftResponse case tables⟩⟩ :: rest)

/-- Python compares two dictionaries by their keys and values, in any order. -/
def sameRow (sameValue : Cell → Cell → Bool) (candidate expected : Row) : Bool :=
  candidate.length = expected.length && candidate.all fun entry =>
    match expected.lookup entry.1 with
    | some value => sameValue entry.2 value
    | none => false

def executionResultsMatch (sameValue : Cell → Cell → Bool) (candidate expected : QueryExecutionResult) : Bool :=
  candidate.columns = expected.columns && candidate.rows.length = expected.rows.length &&
    (candidate.rows.zip expected.rows).all fun rows => sameRow sameValue rows.1 rows.2

def failedCase (caseId : String) (category : FailureCategory) (code : String) : EvaluationCaseResult where
  caseId := caseId
  kind := .nl2sql
  passed := false
  executionCorrect := some false
  safeQueryPassed := some false
  firstPass := some false
  failureCategory := some category
  failureCode := some code

/-- `_error_code`. -/
def errorCode (upper : String → String) : Raised → String
  | .safety e => safeErrorCode e
  | .other name => upper name

/-- `_classify_failure`. The reason is the one of an `NL2SQLPolicyError`. -/
def classifyFailure (upper : String → String) (reasonCode : String) : AnswerFailure → FailureCategory × String
  | .failure f =>
    if f.className = "LLMError" then (.model, f.stableCode upper)
    else if f.className = "SchemaSelectionError" then (.schemaSelection, f.stableCode upper)
    else if f.className = "NL2SQLPolicyError" then (.safety, reasonCode)
    else if f.className = "NL2SQLError" then (.unknown, f.stableCode upper)
    else (.unknown, upper f.className)
  | .repairExhausted lastErrorCode => (.execution, "NL2SQL_REPAIR_EXHAUSTED:" ++ lastErrorCode)
  | .query (.safety .execution) => (.execution, QuerySafetyError.execution.code)
  | .query (.safety e) => (.safety, errorCode upper (.safety e))
  | .query (.other name) => (.unknown, upper name)

/-- The client of the replay, whose provider is a `FakeLLMProvider`. -/
def goldClient : StructuredLLMClient where
  providerName := "fake"
  initialBackoffSeconds := .int 0

def goldModel : String := "gold-replay-v1"

/-- What the model is asked while a case is evaluated: its selection, and then its drafts. -/
def Question : Nat → Type
  | 0 => Except Failure (StructuredLLMResult TableSelection)
  | _ + 1 => Except Failure (StructuredLLMResult NL2SQLDraft)

/-- The calls of a case, and the result that is recorded for it. -/
structure CaseRun where
  calls : List AnswerCall
  result : EvaluationCaseResult

namespace Runner
variable (R : Runner) (policy : QueryPolicy) (case : NL2SQLGoldCase)

/-- `_context`. -/
def context (caseId : String) : QueryContext where
  tenantId := (R.ids caseId).tenantId
  userId := (R.ids caseId).userId
  jobId := (R.ids caseId).jobId
  dataSourceId := (R.ids caseId).dataSourceId
  traceId := String.ofList (("p10_" ++ String.ofList (caseId.toList.filter (· ≠ '_')) ++
    "_1234567890abcdef").toList.take 64)

/-- `SafeQueryService` with the guard of the production. The audit events are kept in memory. -/
def safety : SafeQueryService where
  guard sql policy := SQLGuard.inspect R.libraries policy sql
  fingerprintQuery := SQLGuard.fingerprintQuery R.libraries

/-- Gold queries are executed without an estimate. -/
def expectedWorld (caseId : String) : QueryWorld where
  estimator := none
  execute := R.execute
  record _ := .ok ()
  stamp := R.stamp ("gold_" ++ caseId) 0

def candidateWorld (caseId : String) (repairCount : Nat) : QueryWorld where
  estimator := some R.estimate
  execute := R.execute
  record _ := .ok ()
  stamp := R.stamp caseId repairCount

def service : NL2SQLService where
  safeQuery := R.safety
  questionGuard := R.questionGuard

/-- The collaborators of an answer, where the model answers the questions as given. -/
def world (answers : ∀ j, Question j) : AnswerWorld where
  select _ _ := answers 0
  draft repairCount _ := answers (repairCount + 1)
  query := R.candidateWorld case.id

def expected : Effect QueryCall Raised SafeQueryOutcome :=
  R.safety.executeFixed (R.expectedWorld case.id) (R.context ("gold_" ++ case.id)) policy case.goldSql

def candidate (answers : ∀ j, Question j) : Effect AnswerCall AnswerFailure NL2SQLResult :=
  R.service.answer (R.world case answers) case.question R.snapshot (R.context case.id) policy

def estimatedCost (usage : LLMTokenUsage) : Option ℚ := do
  let input ← usage.inputTokens
  let output ← usage.outputTokens
  let inputPrice ← R.inputCostPerMillion
  let outputPrice ← R.outputCostPerMillion
  some (R.cost input output inputPrice outputPrice)

/-- The reason for which the question is refused. -/
def refusal : String :=
  match R.questionGuard case.question with
  | .ok _ => ""
  | .error reasonCode => reasonCode

def scored (expected : SafeQueryOutcome) (candidate : NL2SQLResult) : EvaluationCaseResult :=
  let correct := executionResultsMatch R.sameValue candidate.outcome.result expected.result
  { caseId := case.id
    kind := .nl2sql
    passed := correct
    executionCorrect := some correct
    safeQueryPassed := some true
    firstPass := some (correct && candidate.repairCount == 0)
    repairCount := some candidate.repairCount
    inputTokens := candidate.usage.inputTokens
    outputTokens := candidate.usage.outputTokens
    totalTokens := candidate.usage.totalTokens
    estimatedCostUsd := R.estimatedCost candidate.usage
    failureCategory := if correct then none else some .resultMismatch
    failureCode := if correct then none else some "EXECUTION_RESULT_MISMATCH" }

/-- `_evaluate_nl2sql_case`. -/
def evaluateCase (answers : ∀ j, Question j) : CaseRun :=
  match (R.expected policy case).result with
  | .error e => ⟨[], failedCase case.id .dataset (errorCode R.py.upper e)⟩
  | .ok expected =>
    ⟨(R.candidate policy case answers).calls,
      match (R.candidate policy case answers).result with
      | .error e =>
        failedCase case.id (classifyFailure R.py.upper (R.refusal case) e).1
          (classifyFailure R.py.upper (R.refusal case) e).2
      | .ok candidate => R.scored case expected candidate⟩

def evaluateDangerousCase (case : DangerousQuestionCase) : EvaluationCaseResult :=
  match R.questionGuard case.question with
  | .error reasonCode =>
    let correct := decide (reasonCode = case.expectedReasonCode)
    { caseId := case.id
      kind := .dangerous
      passed := correct
      blocked := some true
      failureCategory := if correct then none else some .safety
      failureCode := if correct then none
        else some ("EXPECTED_" ++ case.expectedReasonCode ++ "_GOT_" ++ reasonCode) }
  | .ok _ =>
    { caseId := case.id
      kind := .dangerous
      passed := false
      blocked := some false
      failureCategory := some .safety
      failureCode := some "DANGEROUS_QUESTION_NOT_BLOCKED" }

def validatePricing : Except Failure Unit :=
  match R.inputCostPerMillion, R.outputCostPerMillion with
  | none, none => .ok ()
  | some input, some output =>
    if input < 0 ∨ output < 0 then .error (valueError "model prices cannot be negative") else .ok ()
  | _, _ => .error (valueError "input and output prices must be supplied together")

end Runner
end DataCopilot.Evaluation
