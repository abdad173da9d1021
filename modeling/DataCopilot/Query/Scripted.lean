import DataCopilot.Library.Script
import DataCopilot.Query.Accounting

/-! `FakeLLMProvider` under `generate`: each call of the provider takes the next of the scripted responses, whatever
it is asked. -/
namespace DataCopilot.Query
open Agent Effects Script

/-- A response of the script and its place there, which tells it from another with the same text. -/
structure ScriptedResponse where
  place : Nat
  content : String
deriving DecidableEq, Repr

/-- What the provider raises when no response is left. It is no `LLMError`, and is not retried. -/
def scriptExhausted : Failure where
  className := "AssertionError"

namespace StructuredLLMClient
variable (C : StructuredLLMClient) (model : String) {α : Type} (validate : String → Except (List String) α)

/-- The loop of `generate` from `attempt` on, with the responses that the provider still has. -/
def scriptedFrom : Nat → Nat → Nat → Reader ScriptedResponse (Except Failure (StructuredLLMResult α))
  | 0, _, _, q =>
    ⟨.error (GenerateFailure.assertion "The retry loop ended without a result or a classified error.").failure, q,
      false⟩
  | _ + 1, _, _, [] => ⟨.error scriptExhausted, [], true⟩
  | left + 1, attempt, invalidRetriesUsed, r :: q =>
    match validate r.content with
    | .error issues =>
      if invalidRetriesUsed < C.invalidResponseRetries ∧ attempt < C.maxAttempts then
        scriptedFrom left (attempt + 1) (invalidRetriesUsed + 1) q
      else ⟨.error (GenerateFailure.llm ⟨.invalidResponse, issues⟩).failure, q, false⟩
    | .ok output =>
      ⟨.ok {
        output := output
        provider := C.providerName
        model := model
        attempts := attempt
        usage := noUsage }, q, false⟩

def scripted : Reader ScriptedResponse (Except Failure (StructuredLLMResult α)) :=
  C.scriptedFrom model validate C.maxAttempts 1 0

variable {C model validate} {left attempt used : Nat}

theorem scriptedFrom_reads : Reads (C.scriptedFrom model validate left attempt used) := by
  induction left generalizing attempt used with
  | zero => exact ⟨fun q _ => ⟨[], rfl, fun more => rfl⟩, fun q hd => by cases hd⟩
  | succ left ih =>
    constructor
    · intro q hdry
      cases q with
      | nil => cases hdry
      | cons r q =>
        simp only [scriptedFrom] at hdry ⊢
        cases hv : validate r.content with
        | ok output => exact ⟨[r], rfl, fun more => by simp [scriptedFrom, hv]⟩
        | error issues =>
          rw [hv] at hdry
          by_cases hagain : used < C.invalidResponseRetries ∧ attempt < C.maxAttempts
          · simp only [if_pos hagain] at hdry ⊢
            obtain ⟨p, hp, hmore⟩ := ih.settled q hdry
            refine ⟨r :: p, by rw [List.cons_append, ← hp], fun more => ?_⟩
            simpa only [List.cons_append, scriptedFrom, hv, if_pos hagain] using hmore more
          · simp only [if_neg hagain]
            exact ⟨[r], rfl, fun more => by simp [scriptedFrom, hv, hagain]⟩
    · intro q hdry
      cases q with
      | nil =>
        refine ⟨rfl, fun r more => ?_⟩
        simp only [List.nil_append, scriptedFrom]
        cases hv : validate r.content with
        | ok output => exact Nat.le_refl _
        | error issues =>
          by_cases hagain : used < C.invalidResponseRetries ∧ attempt < C.maxAttempts
          · simp only [if_pos hagain]
            exact ih.rest_le more
          · simp only [if_neg hagain]
            exact Nat.le_refl _
      | cons r q =>
        simp only [scriptedFrom, List.cons_append] at hdry ⊢
        cases hv : validate r.content with
        | ok output =>
          rw [hv] at hdry
          cases hdry
        | error issues =>
          rw [hv] at hdry
          by_cases hagain : used < C.invalidResponseRetries ∧ attempt < C.maxAttempts
          · simp only [if_pos hagain] at hdry ⊢
            exact ih.parched q hdry
          · simp only [if_neg hagain] at hdry
            cases hdry

theorem scripted_reads : Reads (C.scripted model validate) := scriptedFrom_reads

/-- Where the responses last, the loop is the one over the outcomes of the provider. -/
theorem scriptedFrom_generate {outcomes : Nat → ProviderOutcome} {q : List ScriptedResponse}
    (hattempt : attempt ≤ used + 1)
    (hq : ∀ i r, q[i]? = some r → outcomes (attempt + i) = .completion ⟨r.content, model, noUsage⟩)
    (hdry : (C.scriptedFrom model validate left attempt used q).dry = false) :
    (C.scriptedFrom model validate left attempt used q).value =
      (C.generateFrom validate outcomes left attempt used).result.mapError GenerateFailure.failure := by
  induction left generalizing attempt used q with
  | zero => rfl
  | succ left ih =>
    cases q with
    | nil => cases hdry
    | cons r q =>
      have hr : outcomes attempt = .completion ⟨r.content, model, noUsage⟩ := hq 0 r rfl
      have hcall : (.call (.complete attempt) (.ok (outcomes attempt)) :
          Effect GenerateCall GenerateFailure ProviderOutcome).result = .ok (outcomes attempt) := rfl
      rw [generateFrom, (Effect.bind_of_ok hcall).2, hr]
      simp only [scriptedFrom] at hdry ⊢
      cases hv : validate r.content with
      | ok output => rfl
      | error issues =>
        rw [hv] at hdry
        by_cases hagain : used < C.invalidResponseRetries ∧ attempt < C.maxAttempts
        · simp only [if_pos hagain] at hdry ⊢
          have hearly := C.retries_ok
          rw [(Effect.bind_of_ok (scheduleRetry_early (C := C) (by omega : attempt ≤ 1024))).2]
          refine ih (Nat.succ_le_succ hattempt) (fun i r' hi => ?_) hdry
          rw [Nat.add_assoc, Nat.add_comm 1 i]
          exact hq (i + 1) r' hi
        · simp only [if_neg hagain]
          rfl

theorem scripted_generate {outcomes : Nat → ProviderOutcome} {q : List ScriptedResponse}
    (hq : ∀ i r, q[i]? = some r → outcomes (1 + i) = .completion ⟨r.content, model, noUsage⟩)
    (hdry : (C.scripted model validate q).dry = false) :
    (C.scripted model validate q).value = (C.generate validate outcomes).result.mapError GenerateFailure.failure :=
  scriptedFrom_generate (Nat.le_refl 1) hq hdry

end StructuredLLMClient
end DataCopilot.Query
