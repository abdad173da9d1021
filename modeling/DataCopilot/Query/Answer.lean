import DataCopilot.Agent.Prompts
import DataCopilot.Query.SafeQuery

/-! `NL2SQLService`: the model selects tables and drafts a query, the safe query service runs
it, and a failure of that service is answered by another draft, up to the limit. -/
namespace DataCopilot.Query
open Sql Agent Effects

structure LLMTokenUsage where
  inputTokens : Option Nat
  outputTokens : Option Nat
  totalTokens : Option Nat

def addTokens : Option Nat → Option Nat → Option Nat
  | none, none => none
  | first, second => some (first.getD 0 + second.getD 0)

def LLMTokenUsage.add (left right : LLMTokenUsage) : LLMTokenUsage where
  inputTokens := addTokens left.inputTokens right.inputTokens
  outputTokens := addTokens left.outputTokens right.outputTokens
  totalTokens := addTokens left.totalTokens right.totalTokens

structure StructuredLLMResult (α : Type) where
  output : α
  provider : String
  model : String
  attempts : Nat
  usage : LLMTokenUsage

structure TableSelection where
  tables : List String
  tables_ok : 1 ≤ tables.length ∧ tables.length ≤ 6

structure NL2SQLResult where
  analysisPlan : AnalysisPlan
  selectedTables : List String
  sql : String
  repairCount : Nat
  modelCalls : Nat
  provider : String
  model : String
  usage : LLMTokenUsage
  outcome : SafeQueryOutcome

inductive AnswerCall where
  | select (messages : List LLMMessage) (names : List String)
  | draft (messages : List LLMMessage)
  | query (c : QueryCall)

/-- How `answer` ends without a result. -/
inductive AnswerFailure where
  | failure (f : Failure)
  | query (raised : Raised)
  | repairExhausted (lastErrorCode : String)

theorem defaultMaxSelectedTables_ok : 1 ≤ 6 ∧ 6 ≤ 6 := by decide

theorem defaultMaxRepairs_ok : 2 ≤ 2 := by decide

/-- The question guard answers with the normalised question or the reason it refuses. -/
structure NL2SQLService where
  safeQuery : SafeQueryService
  questionGuard : String → Except String String
  maxSelectedTables : Nat := 6
  maxRepairs : Nat := 2
  tables_ok : 1 ≤ maxSelectedTables ∧ maxSelectedTables ≤ 6 := by
    first | exact defaultMaxSelectedTables_ok | decide
  repairs_ok : maxRepairs ≤ 2 := by first | exact defaultMaxRepairs_ok | decide

/-- What the model and the collaborators of the safe query service answer. Drafts and queries
are numbered by the repairs before them. -/
structure AnswerWorld where
  select : List LLMMessage → List String → Except Failure (StructuredLLMResult TableSelection)
  draft : Nat → List LLMMessage → Except Failure (StructuredLLMResult NL2SQLDraft)
  query : Nat → QueryWorld

def nl2sqlPolicyError : Failure where
  className := "NL2SQLPolicyError"
  code := some "NL2SQL_QUESTION_REJECTED"

/-- `_safe_error_code`. -/
def safeErrorCode (e : QuerySafetyError) : String :=
  if (e.reasonCode.getD "") ≠ "" then e.reasonCode.getD "" else e.code

def require {α : Type} : Except Failure α → Effect AnswerCall AnswerFailure α
  | .ok a => pure a
  | .error f => .raise (.failure f)

def requireSome {α : Type} (f : Failure) : Option α → Effect AnswerCall AnswerFailure α
  | some a => pure a
  | none => .raise (.failure f)

def askModel {α : Type} (c : AnswerCall) (answer : Except Failure α) : Effect AnswerCall AnswerFailure α :=
  .call c (match answer with
    | .ok a => .ok a
    | .error f => .error (.failure f))

/-- A query as the loop sees it: an error that asks for an approval, or is no
`QuerySafetyError`, leaves the loop, and every other error is a value. -/
def caught (x : Effect QueryCall Raised SafeQueryOutcome) :
    Effect AnswerCall AnswerFailure (Except QuerySafetyError SafeQueryOutcome) where
  log := x.calls.map .query
  outcome := match x.result with
    | .ok outcome => .ok (.ok outcome)
    | .error (.other name) => .error (.query (.other name))
    | .error (.safety (.approvalRequired reason estimate)) =>
      .error (.query (.safety (.approvalRequired reason estimate)))
    | .error (.safety e) => .ok (.error e)

/-- What is settled before the first draft. -/
structure Prepared where
  selected : List String
  restricted : QueryPolicy
  base : List Prompt
  modelCalls : Nat
  usage : LLMTokenUsage

/-- One turn of the loop, up to the answer of the query service. -/
structure Tried where
  draft : NL2SQLDraft
  provider : String
  model : String
  modelCalls : Nat
  usage : LLMTokenUsage
  answer : Except QuerySafetyError SafeQueryOutcome

namespace NL2SQLService
variable (S : NL2SQLService) (w : AnswerWorld) (question : String) (snapshot : SchemaSnapshot)
  (context : QueryContext) (policy : QueryPolicy)

/-- The tables a selection may name, also with the schema in front. -/
def catalogNames (allowedSchema : String) (allowed : Finset String) : List String :=
  sorted (allowed ∪ allowed.image fun name => allowedSchema ++ "." ++ name)

def validateSelection (selection : TableSelection) : Option (List String) := do
  let tables ← normalizeReportedTables policy.allowedSchema selection.tables
  let known := (snapshot.tables.map TableMetadata.name).toFinset
  if tables.length = selection.tables.length ∧ tables.length ≤ S.maxSelectedTables ∧
      ∀ name ∈ tables, name ∈ known ∩ policy.allowedTables then some tables
  else none

def validateDraftTables (draft : NL2SQLDraft) (selected : List String) : Option Unit := do
  let reported ← normalizeReportedTables policy.allowedSchema draft.tablesUsed
  if reported.all (· ∈ selected) then some () else none

def prepare : Effect AnswerCall AnswerFailure Prepared := do
  let safeQuestion ← require (match S.questionGuard question with
    | .ok normalized => .ok normalized
    | .error _ => .error nl2sqlPolicyError)
  let items ← require (messages (selectionMessages safeQuestion snapshot))
  let allowed := policy.allowedTables ∩ (snapshot.tables.map TableMetadata.name).toFinset
  requireSome schemaSelectionError (if allowed.Nonempty then some () else none)
  let names := catalogNames policy.allowedSchema allowed
  let selection ← askModel (.select items names) (w.select items names)
  let selected ← requireSome schemaSelectionError
    (S.validateSelection snapshot policy selection.output)
  let restricted ← requireSome
    (valueError "selected tables must be a non-empty subset of the policy")
    (policy.restrictToTables selected.toFinset)
  let base ← require (generationMessages safeQuestion snapshot selected restricted)
  pure ⟨selected, restricted, base, selection.attempts, selection.usage⟩

def attempt (p : Prepared) (repairCount : Nat) (prompts : List Prompt) (modelCalls : Nat)
    (usage : LLMTokenUsage) : Effect AnswerCall AnswerFailure Tried := do
  let items ← require (messages prompts)
  let drafted ← askModel (.draft items) (w.draft repairCount items)
  requireSome schemaSelectionError (validateDraftTables policy drafted.output p.selected)
  let answer ← caught (S.safeQuery.executeGenerated (w.query repairCount) context p.restricted
    drafted.output.sql)
  pure ⟨drafted.output, drafted.provider, drafted.model, modelCalls + drafted.attempts,
    usage.add drafted.usage, answer⟩

/-- The repair loop, where `remaining` repairs are still allowed. -/
def repairLoop (p : Prepared) : Nat → Nat → List Prompt → Nat → LLMTokenUsage →
    Effect AnswerCall AnswerFailure NL2SQLResult
  | remaining, repairCount, prompts, modelCalls, usage => do
    let tried ← S.attempt w context policy p repairCount prompts modelCalls usage
    match tried.answer with
    | .ok outcome => pure {
        analysisPlan := tried.draft.analysisPlan
        selectedTables := p.selected
        sql := tried.draft.sql
        repairCount := repairCount
        modelCalls := tried.modelCalls
        provider := tried.provider
        model := tried.model
        usage := tried.usage
        outcome := outcome }
    | .error e =>
      match remaining with
      | 0 => .raise (.repairExhausted (safeErrorCode e))
      | rest + 1 =>
        repairLoop p rest (repairCount + 1)
          (repairMessages p.base tried.draft.sql (safeErrorCode e)) tried.modelCalls tried.usage

def answer : Effect AnswerCall AnswerFailure NL2SQLResult := do
  let p ← S.prepare w question snapshot policy
  S.repairLoop w context policy p S.maxRepairs 0 p.base p.modelCalls p.usage

end NL2SQLService
end DataCopilot.Query
