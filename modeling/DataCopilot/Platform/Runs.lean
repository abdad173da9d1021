import DataCopilot.Agent.Replay
import DataCopilot.Platform.Finality

/-! The workflow of the agent, as the platform sees it: the phases of its run, and what the
statuses it reports say about them. -/
namespace DataCopilot.Platform
open Agent AgentGraph AgentWorkflowService

def phase (s : Workflow) : RunPhase :=
  match s.snapshot, s.driving with
  | some snapshot, none =>
    if snapshot.tasks = [] then .over else if snapshot.interrupted then .waiting else .underway
  | _, _ => .underway

/-- Only a resume is a step of the platform. -/
def seen : Agent.Move → Step
  | .resume _ => .platform (.send 0)
  | _ => .run

variable {G : AgentGraph} {s t : Workflow}

theorem phase_driven {resume : Option ApprovalResume} (h : s.driving = some resume) :
    phase s = .underway := by
  unfold phase
  rw [h]
  cases s.snapshot <;> rfl

theorem phase_absent (h : s.snapshot = none) : phase s = .underway := by
  unfold phase
  rw [h]

theorem phase_interrupted {snapshot : Snapshot} (hs : s.snapshot = some snapshot)
    (hd : s.driving = none) (hi : snapshot.interrupted = true) : phase s = .waiting := by
  have hne : snapshot.tasks ≠ [] := by
    intro he
    simp [Snapshot.interrupted, he] at hi
  simp [phase, hs, hd, hne, hi]

/-- The workflow refines the phases: it accepts a resume only while it waits, and once it is
over it stays over. -/
theorem workflow_refines_phases (G : AgentGraph) :
    G.system.Refines RunPhase.system phase seen where
  init _ _ := trivial
  step s m t _ hs := by
    obtain ⟨r, rfl, hn, rfl⟩ | ⟨w, keeps, v, task, resume, rfl, hsnap, hd, rfl⟩ |
      ⟨r, snapshot, rfl, hsnap, hd, hi, rfl⟩ | ⟨resume, rfl, hd, rfl⟩ := next_cases hs
    · exact phase_absent hn
    · exact phase_driven hd
    · exact ⟨phase_interrupted hsnap hd hi, phase_driven rfl⟩
    · exact phase_driven hd

/-- A call ends with the last node. -/
theorem idle_of_done (h : G.system.Reachable s) :
    ∀ snapshot, s.snapshot = some snapshot → snapshot.tasks = [] → s.driving = none := by
  refine h.invariant (P := fun s : Workflow => ∀ snapshot, s.snapshot = some snapshot →
    snapshot.tasks = [] → s.driving = none) (fun s hi => ?_) fun s m t _ ih hs => ?_
  · cases hi
    simp
  · intro snapshot he hnil
    obtain ⟨r, rfl, hn, rfl⟩ | ⟨w, keeps, v, task, resume, rfl, hsnap, hd, rfl⟩ |
      ⟨r, snap, rfl, hsnap, hd, hi, rfl⟩ | ⟨resume, rfl, hd, rfl⟩ := next_cases hs
    · cases he
      cases hnil
    · obtain ⟨u, next, hr, hdrive⟩ | ⟨p, hr, hdrive⟩ | ⟨f, hr, hdrive⟩ := G.drive_cases
      · rw [hdrive] at he ⊢
        cases he
        cases next with
        | none => rfl
        | some step => cases hnil
      · rw [hdrive] at he
        cases he
        cases hnil
      · rw [hdrive] at he
        cases he
        cases hnil
    · rw [hsnap] at he
      cases he
      simp [Snapshot.interrupted, hnil] at hi
    · rfl

theorem phase_over (h : G.system.Reachable s) {snapshot : Snapshot}
    (hs : s.snapshot = some snapshot) (hn : snapshot.tasks = []) : phase s = .over := by
  have hd := idle_of_done h snapshot hs hn
  simp [phase, hs, hd, hn]

/-- No failed task is reported as a rejection. -/
theorem errorCode_ne_rejected (error : String) : errorCode error ≠ "APPROVAL_REJECTED" := by
  unfold errorCode
  cases h : errorCodes.lookup (errorName error) with
  | none => decide
  | some code =>
    obtain ⟨before, after, he, _⟩ := List.lookup_eq_some_iff.mp h
    have hm : (errorName error, code) ∈ errorCodes := by simp [he]
    have hall : ∀ entry ∈ errorCodes, entry.2 ≠ "APPROVAL_REJECTED" := by decide
    exact hall _ hm

theorem rejected_over (h : G.system.Reachable s) {snapshot : Snapshot} {runId : String}
    (hs : s.snapshot = some snapshot)
    (hr : (snapshotResult runId snapshot).status = .rejected) : phase s = .over := by
  obtain ⟨v, tasks⟩ := snapshot
  cases htasks : tasks with
  | nil =>
    subst htasks
    exact phase_over h hs rfl
  | cons task rest =>
    have hlen := (audited h).single _ hs
    obtain rfl : rest = [] := by
      rw [htasks] at hlen
      simpa using hlen
    subst htasks
    exfalso
    have hv := underway h v task hs
    by_cases hi : task.interrupts = []
    · have hstate : (reportedState ⟨v, [task]⟩).sqlRisk = v.sqlRisk := by
        unfold reportedState
        cases snapshotErrorCode ⟨v, [task]⟩ <;> rfl
      have herror : (reportedState ⟨v, [task]⟩).error ≠ some "APPROVAL_REJECTED" := by
        unfold reportedState
        cases hc : snapshotErrorCode ⟨v, [task]⟩ with
        | none => exact hv.unrejected
        | some code =>
          simp only [snapshotErrorCode, Option.map_eq_some_iff] at hc
          obtain ⟨failed, _, rfl⟩ := hc
          simpa [AgentState.error] using errorCode_ne_rejected _
      have hb : (reportedState ⟨v, [task]⟩).sqlRisk ≠ some .blocked := by
        rw [hstate]
        exact hv.unblocked
      simp only [snapshotResult, List.flatMap_cons, List.flatMap_nil, hi, List.append_nil, status,
        herror, hb, or_self, ne_eq, not_true_eq_false, decide_false, Bool.false_eq_true,
        if_false] at hr
      split at hr
      · cases hr
      · split at hr
        · cases hr
        · cases hr
    · rw [snapshotResult_waiting hi] at hr
      cases hr

end DataCopilot.Platform
