import DataCopilot.Agent.Graph

/-! The step records that one run of a node sends, and the place of a node in the run. -/
namespace DataCopilot.Agent
open Sql Effects AgentGraph NorthwindAgentActions

def StepStatus.text : StepStatus → String
  | .waiting => "WAITING"
  | .succeeded => "SUCCEEDED"
  | .failed => "FAILED"

theorem StepStatus.text_injective : Function.Injective text := by
  intro p q h
  cases p <;> cases q <;> first | rfl | exact absurd h (by decide)

theorem StepName.text_injective : Function.Injective text := by
  intro p q h
  cases p <;> cases q <;> first | rfl | exact absurd h (by decide)

/-- What a step is known by, beside its job. -/
def AgentStepRecord.key (r : AgentStepRecord) : StepName × Nat × StepStatus :=
  (r.stepName, r.attempt, r.status)

def Call.recorded : Call → Option AgentStepRecord
  | .record step => some step
  | _ => none

variable {α β : Type}

/-- Newest first. -/
def records (x : Effect Call Stop α) : List AgentStepRecord := x.calls.filterMap Call.recorded

theorem mem_records {x : Effect Call Stop α} {r : AgentStepRecord} :
    r ∈ records x ↔ Call.record r ∈ x.calls := by
  rw [records, List.mem_filterMap]
  constructor
  · rintro ⟨c, hc, he⟩
    cases c with
    | record step =>
      cases he
      exact hc
    | _ => cases he
  · intro h
    exact ⟨.record r, h, rfl⟩

/-- The records are those of this node, one at most of each status that is listed. -/
structure Sends (stepName : StepName) (state : AgentState) (statuses : List StepStatus)
    (rs : List AgentStepRecord) : Prop where
  runId : ∀ r ∈ rs, state.runId = some r.runId
  stepName : ∀ r ∈ rs, r.stepName = stepName
  attempt : ∀ r ∈ rs, r.attempt = state.attempt
  statuses : (rs.map AgentStepRecord.status).Sublist statuses

namespace Sends
variable {stepName : StepName} {state : AgentState} {statuses newer older : List StepStatus}
  {rs : List AgentStepRecord} {x : Effect Call Stop α} {f : α → Effect Call Stop β}

theorem nil : Sends stepName state statuses [] where
  runId := by simp
  stepName := by simp
  attempt := by simp
  statuses := List.nil_sublist statuses

theorem append {late early : List AgentStepRecord} (hl : Sends stepName state newer late)
    (he : Sends stepName state older early) : Sends stepName state (newer ++ older) (late ++ early) where
  runId := List.forall_mem_append.mpr ⟨hl.runId, he.runId⟩
  stepName := List.forall_mem_append.mpr ⟨hl.stepName, he.stepName⟩
  attempt := List.forall_mem_append.mpr ⟨hl.attempt, he.attempt⟩
  statuses := by
    rw [List.map_append]
    exact hl.statuses.append he.statuses

theorem mono (h : Sends stepName state older rs) (hs : older.Sublist newer) :
    Sends stepName state newer rs where
  runId := h.runId
  stepName := h.stepName
  attempt := h.attempt
  statuses := h.statuses.trans hs

/-- No two of them have the same key. -/
theorem distinct (h : Sends stepName state statuses rs) (hs : statuses.Nodup) :
    rs.Pairwise fun later earlier => later.key ≠ earlier.key := by
  have hstatus : rs.Pairwise fun later earlier => later.status ≠ earlier.status :=
    List.pairwise_map.mp (hs.sublist h.statuses)
  refine hstatus.imp fun hne he => hne ?_
  exact congrArg (fun key => key.2.2) he

theorem silent (h : ∀ c ∈ x.calls, c.recorded = none) : Sends stepName state statuses (records x) := by
  have hnone : records x = [] := List.filterMap_eq_nil_iff.mpr h
  rw [hnone]
  exact nil

theorem need {r : Except Failure α} : Sends stepName state [] (records (need r)) := nil

theorem pure (a : α) : Sends stepName state [] (records (Pure.pure a : Effect Call Stop α)) := nil

theorem bind (newer : List StepStatus) (hx : Sends stepName state older (records x))
    (hf : ∀ a, Sends stepName state newer (records (f a))) :
    Sends stepName state (newer ++ older) (records (x >>= f)) := by
  cases hr : x.result with
  | ok a =>
    rw [records, (Effect.bind_of_ok hr).1, List.filterMap_append]
    exact (hf a).append hx
  | error stop =>
    rw [records, (Effect.bind_of_error hr).1]
    exact hx.mono (List.sublist_append_right _ _)

theorem handle {h : Stop → Effect Call Stop α} (hx : Sends stepName state older (records x))
    (hh : ∀ stop, Sends stepName state newer (records (h stop))) :
    Sends stepName state (newer ++ older) (records (x.handle h)) := by
  cases hr : x.result with
  | ok a =>
    rw [records, (Effect.handle_of_ok hr).1]
    exact hx.mono (List.sublist_append_right _ _)
  | error stop =>
    rw [records, (Effect.handle_of_error hr).1, List.filterMap_append]
    exact (hh stop).append hx

variable {py : Python} {w : World} {operation : AgentState → Effect Call Stop AgentState}

theorem recordStep {status : StepStatus} {output : OutputSummary} {code : Option String} :
    Sends stepName state [status] (records (recordStep py w stepName state status output code)) := by
  cases hr : state.runId with
  | none =>
    have hcalls : (Agent.recordStep py w stepName state status output code).calls = [] := by
      rw [Agent.recordStep, hr]
      rfl
    rw [records, hcalls]
    exact nil
  | some runId =>
    have hcalls : (Agent.recordStep py w stepName state status output code).calls = [.record {
        runId := runId, stepName := stepName, status := status, attempt := state.attempt,
        inputSummary := stateSummary py state, outputSummary := output, errorCode := code }] := by
      rw [Agent.recordStep, hr]
      rfl
    rw [records, hcalls]
    constructor
    · simp [Call.recorded, hr]
    · simp [Call.recorded]
    · simp [Call.recorded]
    · simp [Call.recorded]

/-- A step that fails while its success is recorded is recorded twice. -/
theorem timedStep (ho : Sends stepName state statuses (records (operation state))) :
    Sends stepName state ([.failed, .succeeded] ++ statuses)
      (records (timedStep py w stepName state operation)) := by
  have hsucceed : Sends stepName state ([.succeeded] ++ statuses)
      (records (succeed py w stepName state operation)) := by
    refine ho.bind [.succeeded] fun update => ?_
    exact (recordStep.bind [] fun _ => pure update)
  have hgive (stop : Stop) : Sends stepName state [.failed] (records (giveUp py w stepName state stop)) := by
    cases stop with
    | interrupt p => exact nil
    | failure f => exact recordStep.bind [] fun _ => nil
  have hall := (need (r := AgentState.get "trace_id" state.traceId)).bind _ fun _ => hsucceed.handle hgive
  rw [Agent.timedStep]
  simpa using hall

end Sends

namespace AgentGraph
variable {G : AgentGraph} {w : World} {resume : Option ApprovalResume} {step next : StepName}
  {v u : AgentState}

theorem pause_sends : Sends .requestApproval v [.waiting] (records (pause G.actions.py w resume v)) := by
  refine Sends.need.bind [.waiting] fun runId => ?_
  refine Sends.need.bind [.waiting] fun _ => ?_
  have hask : Sends .requestApproval v [] (records (ask
      (.ensurePending runId (v.riskReasons.getD []) v.sqlFingerprint) w.ensurePending)) := .nil
  refine hask.bind [.waiting] fun _ => ?_
  refine Sends.recordStep.bind [] fun _ => ?_
  cases resume with
  | none => exact .nil
  | some r => exact .nil

theorem operation_sends : Sends step v [.waiting] (records (G.operation w resume step v)) := by
  by_cases hs : step = .requestApproval
  · subst hs
    exact pause_sends
  · refine .silent fun c hc => ?_
    cases c with
    | record r => exact absurd (operation_records hc) hs
    | _ => rfl

theorem superstep_sends :
    Sends step v [.failed, .succeeded, .waiting] (records (G.superstep w resume step v)) := by
  have htimed : Sends step v ([.failed, .succeeded] ++ [.waiting])
      (records (timedStep G.actions.py w step v (G.operation w resume step))) := operation_sends.timedStep
  refine htimed.bind [] fun update => ?_
  exact Sends.need.bind [] fun next => .pure (update, next)

/-- A node that is interrupted has recorded nothing but that it waits. -/
theorem superstep_interrupted {p : InterruptPayload}
    (h : (G.superstep w resume step v).result = .error (.interrupt p)) :
    ∀ r ∈ records (G.superstep w resume step v), r.status = .waiting := by
  have hop : ∀ r ∈ records (G.operation w resume step v), r.status = .waiting := by
    intro r hr
    have hmem : r.status ∈ [.waiting] := operation_sends.statuses.subset (List.mem_map_of_mem hr)
    simpa using hmem
  have htimed : (timedStep G.actions.py w step v (G.operation w resume step)).result =
      .error (.interrupt p) := by
    obtain h | ⟨update, _, h⟩ := Effect.bind_error.mp h
    · exact h
    · exact absurd h (Uninterrupted.bind (.need _) (fun _ => .pure _) p)
  have hsame : records (G.superstep w resume step v) = records (G.operation w resume step v) := by
    rw [records, superstep, (Effect.bind_of_error htimed).1]
    obtain h | ⟨traceId, ht, h⟩ := Effect.bind_error.mp htimed
    · exact absurd h (Uninterrupted.need _ p)
    obtain ⟨stop, hs, h⟩ := Effect.handle_error.mp h
    have hstop : stop = .interrupt p := by
      cases stop with
      | interrupt q =>
        cases h
        rfl
      | failure f =>
        obtain h | ⟨_, _, h⟩ := Effect.bind_error.mp h
        · exact absurd h (Uninterrupted.recordStep p)
        · cases h
    rw [hstop] at hs
    rw [timedStep, (Effect.bind_of_ok ht).1, (Effect.handle_of_error hs).1]
    obtain ho | ⟨update, _, ho⟩ := Effect.bind_error.mp hs
    · rw [succeed, (Effect.bind_of_error ho).1]
      simp [giveUp, records]
    · exact absurd ho (Uninterrupted.recordStep.bind (fun _ => .pure _) p)
  rw [hsame]
  exact hop

end AgentGraph
end DataCopilot.Agent
