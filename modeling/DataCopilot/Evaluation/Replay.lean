import DataCopilot.Evaluation.Runner
import DataCopilot.Query.Asking

/-! The gold replay: the cases read their responses from one script, one case after the other. -/
namespace DataCopilot.Evaluation
open Sql Agent Effects Query Script

def parseFailure : ParseFailure → Failure
  | .parseError => { className := "ParseError" }
  | .tokenError => { className := "TokenError" }
  | .uncaught className => { className := className }

/-- What is settled before the first case. -/
structure Setting where
  scripted : List ScriptedCase
  policy : QueryPolicy

namespace Runner
variable (R : Runner) (policy : QueryPolicy) (case : NL2SQLGoldCase)

/-- The questions of a case, each answered out of the responses that are left. -/
def rounds : ∀ j, Reader ScriptedResponse (Question j)
  | 0 => goldClient.scripted goldModel (R.selection (NL2SQLService.selectable R.snapshot policy))
  | _ + 1 => goldClient.scripted goldModel R.draft

theorem rounds_reads (j : Nat) : Reads (R.rounds policy j) := by
  cases j with
  | zero => exact StructuredLLMClient.scripted_reads
  | succ k => exact StructuredLLMClient.scripted_reads

/-- How many of the questions the case puts. -/
def asked (answers : ∀ j, Question j) : Nat := modelCalls (R.evaluateCase policy case answers).calls

theorem evaluateCase_congr (a a' : ∀ j, Question j) (h : ∀ j < R.asked policy case a, a j = a' j) :
    R.evaluateCase policy case a = R.evaluateCase policy case a' := by
  unfold asked evaluateCase at h
  unfold evaluateCase
  cases hx : (R.expected policy case).result with
  | error e => rfl
  | ok expected =>
    rw [hx] at h
    have hsame : R.candidate policy case a = R.candidate policy case a' := by
      unfold candidate
      refine NL2SQLService.answer_congr rfl fun j hj => ?_
      have haj := h j hj
      cases j with
      | zero => exact fun _ => haj
      | succ k => exact fun _ => haj
    rw [hsame]

def interview : Interview Question EvaluationCaseResult where
  outcome answers := (R.evaluateCase policy case answers).result
  asked := R.asked policy case
  congr a a' h := by
    have hsame := R.evaluateCase_congr policy case a a' h
    exact ⟨congrArg CaseRun.result hsame, congrArg (fun run : CaseRun => modelCalls run.calls) hsame⟩

theorem interview_asked : (R.interview policy case).asked = R.asked policy case := by
  rw [interview]

/-- A case with the responses that the provider still has. -/
def reader : Reader ScriptedResponse EvaluationCaseResult := (R.interview policy case).reader (R.rounds policy)

section Value
variable {R policy case} {answers : ∀ j, Question j} {expected : SafeQueryOutcome}

theorem reader_value (q : List ScriptedResponse) :
    (R.reader policy case q).value = (R.evaluateCase policy case (answer (R.rounds policy) q)).result := by
  unfold reader interview
  rfl

theorem evaluateCase_error {e : AnswerFailure} (hx : (R.expected policy case).result = .ok expected)
    (h : (R.candidate policy case answers).result = .error e) : (R.evaluateCase policy case answers).result =
      failedCase case.id (classifyFailure R.py.upper (R.refusal case) e).1
        (classifyFailure R.py.upper (R.refusal case) e).2 := by
  unfold evaluateCase
  simp only [hx, h]

theorem evaluateCase_ok {candidate : NL2SQLResult} (hx : (R.expected policy case).result = .ok expected)
    (h : (R.candidate policy case answers).result = .ok candidate) :
    (R.evaluateCase policy case answers).result = R.scored case expected candidate := by
  unfold evaluateCase
  simp only [hx, h]

end Value

def setUp (cases : List NL2SQLGoldCase) : Except Failure Setting := do
  R.validatePricing
  let scripted ← (scriptedCases R.libraries 0 cases).mapError parseFailure
  match QueryPolicy.fromSnapshot R.py.isalnum R.snapshot 10000 100000 with
  | none => .error validationError
  | some policy => .ok ⟨scripted, policy⟩

/-- The loop over the cases, with the responses that each of them takes. -/
def replay (s : Setting) : List (Share ScriptedResponse EvaluationCaseResult) :=
  play (s.scripted.map fun c => R.reader s.policy c.case) (s.scripted.flatMap ScriptedCase.responses)

/-- `evaluate_p10`, up to the results that it reports. -/
def evaluateP10 (cases : List NL2SQLGoldCase) (dangerousCases : List DangerousQuestionCase) :
    Except Failure (List EvaluationCaseResult) := do
  let s ← R.setUp cases
  .ok ((R.replay s).map Share.value ++ dangerousCases.map R.evaluateDangerousCase)

/-- A case that is evaluated with its own two responses and no others. -/
def alone (c : ScriptedCase) : Share ScriptedResponse EvaluationCaseResult :=
  share (R.reader policy c.case) c.responses

theorem alone_value (c : ScriptedCase) : (R.alone policy c).value = (R.reader policy c.case c.responses).value := rfl

/-- Each case is scored as it is alone, and takes the responses that it takes alone. -/
def ScoresAlone (cases : List NL2SQLGoldCase) (dangerousCases : List DangerousQuestionCase) : Prop :=
  ∀ s, R.setUp cases = .ok s →
    R.evaluateP10 cases dangerousCases = .ok ((s.scripted.map fun c => (R.alone s.policy c).value) ++
      dangerousCases.map R.evaluateDangerousCase) ∧
    (R.replay s).map Share.received = s.scripted.map fun c => (R.alone s.policy c).received

/-- How many responses a case asks for. It is refused before the first, or its selection is, which may cost the
draft as well; or it comes to a draft, and a draft that is refused or to be mended costs a third. -/
def demand (c : ScriptedCase) : Nat :=
  match (R.expected policy c.case).result, R.service.opening c.case.question R.snapshot policy with
  | .error _, _ | _, none => 0
  | .ok _, some safeQuestion =>
    match R.selection (NL2SQLService.selectable R.snapshot policy) c.selection.content with
    | .ok selection =>
      match R.service.drafting R.snapshot policy safeQuestion selection with
      | none => 1
      | some (selected, restricted, base) =>
        match R.draft c.draft.content with
        | .error _ => 3
        | .ok draft =>
          if R.service.mends (R.context c.case.id) policy (R.candidateWorld c.case.id 0) selected restricted base draft
          then 3 else 2
    | .error _ =>
      match R.selection (NL2SQLService.selectable R.snapshot policy) c.draft.content with
      | .error _ => 2
      | .ok selection => if (R.service.drafting R.snapshot policy safeQuestion selection).isSome then 3 else 2

/-- A case and its responses, as one of the readers of the script. -/
def part (c : ScriptedCase) : Part ScriptedResponse EvaluationCaseResult where
  reader := R.reader policy c.case
  own := c.responses
  reads := (R.interview policy c.case).reads (R.rounds_reads policy)
  own_ne := List.cons_ne_nil _ _

section Demand
variable {R policy} {c : ScriptedCase}

theorem demand_of_dry {j : Nat}
    (hlt : j < R.asked policy c.case (answer (R.rounds policy) c.responses))
    (hdry : (R.rounds policy j (before (R.rounds policy) c.responses j)).dry = true) :
    (R.part policy c).demand = 3 := by
  have hreader : (R.part policy c).reader = (R.interview policy c.case).reader (R.rounds policy) := rfl
  rw [← interview_asked] at hlt
  have hdemand := Interview.demand_of_dry hreader hlt hdry
  exact hdemand

theorem demand_of_settled {n : Nat}
    (hn : R.asked policy c.case (answer (R.rounds policy) c.responses) = n)
    (hdry : ∀ j < n, (R.rounds policy j (before (R.rounds policy) c.responses j)).dry = false) :
    (R.part policy c).demand = 2 - (before (R.rounds policy) c.responses n).length := by
  have hreader : (R.part policy c).reader = (R.interview policy c.case).reader (R.rounds policy) := rfl
  rw [← interview_asked] at hn
  have hdemand := Interview.demand_of_settled hreader hn hdry
  exact hdemand

end Demand
end Runner
end DataCopilot.Evaluation
