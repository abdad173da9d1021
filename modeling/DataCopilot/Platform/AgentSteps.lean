import DataCopilot.Library.Replays
import DataCopilot.Library.Uuid
import DataCopilot.Platform.Job

/-! `AgentStepService`: the steps that the agent reports of a job. A step that is reported
again, with the same attempt and status, is answered with the row it has. -/
namespace DataCopilot.Platform
open Replays

/-- `Summary` is what the two JSON objects of a report hold. -/
structure RecordAgentStepRequest (Summary : Type) where
  stepName : String
  status : String
  attempt : Nat
  inputSummary : Summary
  outputSummary : Summary
  durationMs : Nat
  errorCode : Option String

structure AgentStep where
  id : UUID
  tenantId : String
  analysisJobId : String
  stepName : String
  status : String
  attempt : Nat
  inputSummaryJson : String
  outputSummaryJson : String
  durationMs : Nat
  errorCode : Option String

/-- The columns of `uq_agent_steps_replay`. -/
def AgentStep.key (step : AgentStep) : String × String × Nat × String :=
  (step.analysisJobId, step.stepName, step.attempt, step.status)

/-- The columns of a job that its steps take over. -/
structure StepJob where
  tenantId : String
  traceId : String
  status : AnalysisJobStatus

inductive PayloadValue where
  | text (value : String)
  | number (value : Nat)
deriving DecidableEq

structure StepSignal where
  jobId : String
  tenantId : String
  traceId : String
  type : String
  status : AnalysisJobStatus
  payload : List (String × PayloadValue)

/-- The table, and what has been announced. -/
structure StepStore where
  rows : List AgentStep := []
  signals : List StepSignal := []

inductive StepError where
  | resourceNotFound (message : String)

variable {Summary : Type}

/-- A report as it arrives: its job is found, and an id is drawn for it. -/
structure StepReport (Summary : Type) where
  job : StepJob
  newId : UUID
  jobId : String
  request : RecordAgentStepRequest Summary

namespace StepReport

def key (r : StepReport Summary) : String × String × Nat × String :=
  (r.jobId, r.request.stepName, r.request.attempt, r.request.status)

def row (writeValueAsString : Summary → String) (r : StepReport Summary) : AgentStep where
  id := r.newId
  tenantId := r.job.tenantId
  analysisJobId := r.jobId
  stepName := r.request.stepName
  status := r.request.status
  attempt := r.request.attempt
  inputSummaryJson := writeValueAsString r.request.inputSummary
  outputSummaryJson := writeValueAsString r.request.outputSummary
  durationMs := r.request.durationMs
  errorCode := r.request.errorCode

def signal (r : StepReport Summary) : StepSignal where
  jobId := r.jobId
  tenantId := r.job.tenantId
  traceId := r.job.traceId
  type := "AGENT_STEP"
  status := r.job.status
  payload := [("step_name", .text r.request.stepName), ("step_status", .text r.request.status),
    ("attempt", .number r.request.attempt)] ++
    (r.request.errorCode.map fun code => ("error_code", PayloadValue.text code)).toList

end StepReport

namespace AgentStepService
variable (writeValueAsString : Summary → String)

def record (s : StepStore) (job : Option StepJob) (newId : UUID) (jobId : String)
    (request : RecordAgentStepRequest Summary) : Except StepError (AgentStep × StepStore) :=
  match job with
  | none => .error (.resourceNotFound "The analysis job was not found.")
  | some job =>
    let report : StepReport Summary := ⟨job, newId, jobId, request⟩
    match s.rows.find? fun step => step.key = report.key with
    | some existing => .ok (existing, s)
    | none =>
      let step := report.row writeValueAsString
      .ok (step, ⟨s.rows ++ [step], s.signals ++ [report.signal]⟩)

/-- Reports that arrive one after another. -/
def recordAll (s : StepStore) : List (StepReport Summary) → Except StepError StepStore
  | [] => .ok s
  | r :: rest => do
    let (_, t) ← record writeValueAsString s (some r.job) r.newId r.jobId r.request
    recordAll t rest

variable {writeValueAsString} {s : StepStore} {r : StepReport Summary} {reports : List (StepReport Summary)}

/-- The store after these reports, for a job that had no steps. -/
def kept (writeValueAsString : Summary → String) (reports : List (StepReport Summary)) : StepStore where
  rows := (firsts StepReport.key reports).map (StepReport.row writeValueAsString)
  signals := (firsts StepReport.key reports).map StepReport.signal

theorem record_kept : ∃ step, record writeValueAsString (kept writeValueAsString reports) (some r.job)
    r.newId r.jobId r.request = .ok (step, kept writeValueAsString (reports ++ [r])) := by
  have hfind : (kept writeValueAsString reports).rows.find? (fun step => step.key = r.key) =
      ((firsts StepReport.key reports).find? fun a => a.key = r.key).map (StepReport.row writeValueAsString) := by
    rw [kept, List.find?_map]
    rfl
  have hrecord : record writeValueAsString (kept writeValueAsString reports) (some r.job) r.newId r.jobId
      r.request = match ((firsts StepReport.key reports).find? fun a => a.key = r.key).map
        (StepReport.row writeValueAsString) with
      | some existing => .ok (existing, kept writeValueAsString reports)
      | none => .ok (r.row writeValueAsString,
        ⟨(kept writeValueAsString reports).rows ++ [r.row writeValueAsString],
          (kept writeValueAsString reports).signals ++ [r.signal]⟩) := by
    rw [← hfind]
    rfl
  rw [hrecord]
  cases hf : (firsts StepReport.key reports).find? fun a => a.key = r.key with
  | some a =>
    have hkey : a.key = r.key := by simpa using List.find?_some hf
    have hold : ∃ a ∈ firsts StepReport.key reports, a.key = r.key := ⟨a, List.mem_of_find?_eq_some hf, hkey⟩
    refine ⟨a.row writeValueAsString, ?_⟩
    simp only [Option.map_some, kept, firsts_concat, if_pos hold]
  | none =>
    have hnew : ¬ ∃ a ∈ firsts StepReport.key reports, a.key = r.key := by
      rintro ⟨a, ha, he⟩
      have hno := List.find?_eq_none.mp hf a ha
      simp [he] at hno
    refine ⟨r.row writeValueAsString, ?_⟩
    simp only [Option.map_none, kept, firsts_concat, if_neg hnew, List.map_append, List.map_cons,
      List.map_nil]

/-- A job keeps and announces the first report of each key, in the order in which they came. -/
theorem recordAll_eq : recordAll writeValueAsString {} reports = .ok (kept writeValueAsString reports) := by
  have hall (before : List (StepReport Summary)) :
      recordAll writeValueAsString (kept writeValueAsString before) reports =
        .ok (kept writeValueAsString (before ++ reports)) := by
    induction reports generalizing before with
    | nil => rw [List.append_nil, recordAll]
    | cons r rest ih =>
      obtain ⟨step, hstep⟩ := @record_kept _ writeValueAsString r before
      rw [recordAll, hstep, List.append_cons before r rest]
      exact ih (before ++ [r])
  exact hall []

end AgentStepService
end DataCopilot.Platform
