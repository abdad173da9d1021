import DataCopilot.Library.Binary64
import DataCopilot.Query.Answer

/-! `StructuredLLMClient.generate`: one loop over the attempts, with a budget of its own for replies that the
response model refuses. -/
namespace DataCopilot.Query
open Effects Py

inductive LLMErrorKind where
  | base
  | configuration
  | authentication
  | requestRejected
  | rateLimit
  | timeout
  | unavailable
  | invalidResponse
deriving DecidableEq, Repr

namespace LLMErrorKind

def code : LLMErrorKind → String
  | base => "LLM_ERROR"
  | configuration => "LLM_CONFIGURATION_ERROR"
  | authentication => "LLM_AUTHENTICATION_ERROR"
  | requestRejected => "LLM_REQUEST_REJECTED"
  | rateLimit => "LLM_RATE_LIMITED"
  | timeout => "LLM_TIMEOUT"
  | unavailable => "LLM_UNAVAILABLE"
  | invalidResponse => "LLM_INVALID_RESPONSE"

def retryable : LLMErrorKind → Bool
  | rateLimit | timeout | unavailable | invalidResponse => true
  | _ => false

end LLMErrorKind

structure LLMError where
  kind : LLMErrorKind
  validationIssues : List String := []
deriving DecidableEq, Repr

structure LLMCompletion where
  content : String
  model : String
  usage : LLMTokenUsage

/-- How a call of the provider ends. -/
inductive ProviderOutcome where
  | completion (c : LLMCompletion)
  | timeout
  | error (e : LLMError)

/-- A number of seconds, as it was given. -/
inductive Seconds where
  | int (n : Int)
  | float (x : PyFloat)
deriving DecidableEq

namespace Seconds

/-- `seconds * n` for `0 < n`. A float takes the integer as a float too, if there is one that is large enough. -/
def times (n : Nat) : Seconds → Except PyError Seconds
  | int m => .ok (.int (m * n))
  | float x =>
    match floatOfInt n with
    | none => .error .overflowError
    | some p =>
      match x with
      | .finite q => .ok (.float (rounded (q * p)))
      | x => .ok (.float x)

def value : Seconds → PyFloat
  | int n => .finite n
  | float x => x

/-- `min(a, b)`. -/
def min (a b : Seconds) : Seconds := if b.value.less a.value then b else a

end Seconds

inductive GenerateCall where
  | complete (attempt : Nat)
  | sleep (delay : Seconds)
deriving DecidableEq

inductive GenerateFailure where
  | llm (e : LLMError)
  | assertion (message : String)
  | python (e : PyError)

theorem defaultMaxAttempts_ok : 1 ≤ 3 := by decide

theorem defaultInvalidResponseRetries_ok : 1 ≤ 1 := by decide

structure StructuredLLMClient where
  providerName : String
  maxAttempts : Nat := 3
  invalidResponseRetries : Nat := 1
  initialBackoffSeconds : Seconds := .float (.finite (1 / 4))
  maxBackoffSeconds : Seconds := .int 2
  attempts_ok : 1 ≤ maxAttempts := by first | exact defaultMaxAttempts_ok | decide
  retries_ok : invalidResponseRetries ≤ 1 := by first | exact defaultInvalidResponseRetries_ok | decide

namespace StructuredLLMClient
variable (C : StructuredLLMClient) {α : Type}

/-- How long `_schedule_retry` sleeps. -/
def delay (attempt : Nat) : Except PyError Seconds := do
  let backoff ← C.initialBackoffSeconds.times (2 ^ (attempt - 1))
  pure (backoff.min C.maxBackoffSeconds)

/-- `_schedule_retry`. -/
def scheduleRetry (attempt : Nat) : Effect GenerateCall GenerateFailure Unit :=
  match C.delay attempt with
  | .error e => .raise (.python e)
  | .ok d => .call (.sleep d) (.ok ())

/-- `_retry`. -/
def retry (error : LLMError) (attempt : Nat) : Effect GenerateCall GenerateFailure Bool :=
  if !error.kind.retryable || C.maxAttempts ≤ attempt then pure false
  else do
    C.scheduleRetry attempt
    pure true

/-- The loop from `attempt` on, where `left` attempts are left. `validate` is `model_validate_json` of the response
model, with the issues of its `ValidationError`. -/
def generateFrom (validate : String → Except (List String) α) (outcomes : Nat → ProviderOutcome) :
    Nat → Nat → Nat → Effect GenerateCall GenerateFailure (StructuredLLMResult α)
  | 0, _, _ => .raise (.assertion "The retry loop ended without a result or a classified error.")
  | left + 1, attempt, invalidRetriesUsed => do
    let outcome ← .call (.complete attempt) (.ok (outcomes attempt))
    match outcome with
    | .timeout =>
      let again ← C.retry { kind := .timeout } attempt
      if again then generateFrom validate outcomes left (attempt + 1) invalidRetriesUsed
      else .raise (.llm { kind := .timeout })
    | .error error =>
      let again ← C.retry error attempt
      if again then generateFrom validate outcomes left (attempt + 1) invalidRetriesUsed
      else .raise (.llm error)
    | .completion completion =>
      match validate completion.content with
      | .error issues =>
        if invalidRetriesUsed < C.invalidResponseRetries ∧ attempt < C.maxAttempts then
          let _ ← C.scheduleRetry attempt
          generateFrom validate outcomes left (attempt + 1) (invalidRetriesUsed + 1)
        else .raise (.llm ⟨.invalidResponse, issues⟩)
      | .ok output => pure {
          output := output
          provider := C.providerName
          model := completion.model
          attempts := attempt
          usage := completion.usage }

def generate (validate : String → Except (List String) α) (outcomes : Nat → ProviderOutcome) :
    Effect GenerateCall GenerateFailure (StructuredLLMResult α) :=
  C.generateFrom validate outcomes C.maxAttempts 1 0

end StructuredLLMClient
end DataCopilot.Query
