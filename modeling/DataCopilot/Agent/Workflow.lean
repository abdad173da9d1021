import DataCopilot.Library.Transition
import DataCopilot.Agent.Graph

/-! Runs of the graph on one thread: the last checkpoint, whether a call is driving the
graph, and the history of what has happened, newest first. -/
namespace DataCopilot.Agent
open Sql Effects

/-- A node that a checkpoint still has to run. -/
structure Task where
  step : StepName
  error : Option String := none
  interrupts : List InterruptPayload := []
deriving DecidableEq

/-- What `get_state` returns. -/
structure Snapshot where
  values : AgentState
  tasks : List Task

def Snapshot.pending (values : AgentState) (next : Option StepName) : Snapshot :=
  ⟨values, (next.map fun step => { step := step }).toList⟩

def Snapshot.interrupted (s : Snapshot) : Bool := s.tasks.any fun t => t.interrupts ≠ []

inductive Event where
  | started (r : StartRun)
  | called (c : Call)
  | completed (step : StepName) (update : AgentState)
  | interrupted (payload : InterruptPayload)
  | failed (step : StepName) (f : Failure)
  | resumed (r : ApprovalResume)
  | crashed

/-- `driving` is set while a call of start or resume runs the graph. It then holds the
decision of the resume, until the node that asked for it has run. -/
structure Workflow where
  snapshot : Option Snapshot := none
  driving : Option (Option ApprovalResume) := none
  history : List Event := []

/-- `keeps` tells whether a task that fails after a resume goes on listing its interrupt. -/
inductive Move where
  | start (r : StartRun)
  | node (w : World) (keeps : Bool)
  | resume (r : ApprovalResume)
  | crash

namespace AgentGraph
variable (G : AgentGraph)

/-- The workflow after a task has run. Interrupts and failures end the call. -/
def drive (w : World) (keeps : Bool) (values : AgentState) (task : Task)
    (resume : Option ApprovalResume) (history : List Event) : Workflow :=
  let run := G.superstep w resume task.step values
  let seen := run.calls.map Event.called ++ history
  match run.result with
  | .ok (u, next) => {
      snapshot := some (.pending (values.merge u) next)
      driving := next.map fun _ => none
      history := .completed task.step u :: seen }
  | .error (.interrupt p) => {
      snapshot := some ⟨values, [{ step := task.step, interrupts := [p] }]⟩
      driving := none
      history := .interrupted p :: seen }
  | .error (.failure f) => {
      snapshot := some ⟨values, [{
        step := task.step
        error := some f.repr
        interrupts := if keeps then task.interrupts else [] }]⟩
      driving := none
      history := .failed task.step f :: seen }

def next (s : Workflow) : Move → Option Workflow
  | .start r =>
    match s.snapshot with
    | some _ => none
    | none => some {
        snapshot := some (.pending r.initialState (some .classify))
        driving := some none
        history := .started r :: s.history }
  | .node w keeps =>
    match s.snapshot, s.driving with
    | some ⟨values, [task]⟩, some resume => some (G.drive w keeps values task resume s.history)
    | _, _ => none
  | .resume r =>
    match s.snapshot, s.driving with
    | some snapshot, none =>
      if snapshot.interrupted then
        some { s with driving := some (some r), history := .resumed r :: s.history }
      else none
    | _, _ => none
  | .crash =>
    match s.driving with
    | some _ => some { s with driving := none, history := .crashed :: s.history }
    | none => none

def system : Transition.System Workflow Move where
  init s := s = {}
  step s m t := G.next s m = some t

variable {G} {s t : Workflow}

/-- Everything a running task can lead to. -/
theorem drive_cases {w : World} {keeps : Bool} {values : AgentState} {task : Task}
    {resume : Option ApprovalResume} {history : List Event} :
    (∃ u next, (G.superstep w resume task.step values).result = .ok (u, next) ∧
      G.drive w keeps values task resume history =
        ⟨some (.pending (values.merge u) next), next.map fun _ => none, .completed task.step u ::
          (G.superstep w resume task.step values).calls.map .called ++ history⟩) ∨
    (∃ p, (G.superstep w resume task.step values).result = .error (.interrupt p) ∧
      G.drive w keeps values task resume history =
        ⟨some ⟨values, [⟨task.step, none, [p]⟩]⟩, none, .interrupted p ::
          (G.superstep w resume task.step values).calls.map .called ++ history⟩) ∨
    (∃ f, (G.superstep w resume task.step values).result = .error (.failure f) ∧
      G.drive w keeps values task resume history =
        ⟨some ⟨values, [⟨task.step, some f.repr, if keeps then task.interrupts else []⟩]⟩, none,
          .failed task.step f ::
          (G.superstep w resume task.step values).calls.map .called ++ history⟩) := by
  cases hr : (G.superstep w resume task.step values).result with
  | ok p => exact .inl ⟨p.1, p.2, rfl, by simp [drive, hr]⟩
  | error stop =>
    cases stop with
    | interrupt p => exact .inr (.inl ⟨p, rfl, by simp [drive, hr]⟩)
    | failure f => exact .inr (.inr ⟨f, rfl, by simp [drive, hr]⟩)

/-- Everything one move can do. -/
theorem next_cases {m : Move} (h : G.next s m = some t) :
    (∃ r, m = .start r ∧ s.snapshot = none ∧
      t = ⟨some (.pending r.initialState (some .classify)), some none, .started r :: s.history⟩) ∨
    (∃ w keeps values task resume, m = .node w keeps ∧ s.snapshot = some ⟨values, [task]⟩ ∧
      s.driving = some resume ∧ t = G.drive w keeps values task resume s.history) ∨
    (∃ r snapshot, m = .resume r ∧ s.snapshot = some snapshot ∧ s.driving = none ∧
      snapshot.interrupted = true ∧ t = ⟨s.snapshot, some (some r), .resumed r :: s.history⟩) ∨
    (∃ resume, m = .crash ∧ s.driving = some resume ∧
      t = ⟨s.snapshot, none, .crashed :: s.history⟩) := by
  cases m with
  | start r =>
    simp only [next] at h
    cases hs : s.snapshot with
    | some snapshot => simp [hs] at h
    | none =>
      simp only [hs, Option.some.injEq] at h
      exact .inl ⟨r, rfl, rfl, h.symm⟩
  | node w keeps =>
    simp only [next] at h
    split at h
    · rename_i values task resume hs hd
      exact .inr (.inl ⟨w, keeps, values, task, resume, rfl, hs, hd, (Option.some.inj h).symm⟩)
    · cases h
  | resume r =>
    simp only [next] at h
    split at h
    · rename_i snapshot hs hd
      by_cases hi : snapshot.interrupted = true
      · rw [if_pos hi, Option.some.injEq] at h
        exact .inr (.inr (.inl ⟨r, snapshot, rfl, hs, hd, hi, h.symm⟩))
      · rw [if_neg hi] at h
        cases h
    · cases h
  | crash =>
    simp only [next] at h
    cases hd : s.driving with
    | none => simp [hd] at h
    | some resume =>
      simp only [hd, Option.some.injEq] at h
      exact .inr (.inr (.inr ⟨resume, rfl, rfl, h.symm⟩))

/-- The run rule for checkpoints: what holds of the values before `classify` and is kept by
every node that completes holds of all values, with the node that comes next. -/
theorem checkpoint_invariant {P : Option StepName → AgentState → Prop}
    (start : ∀ r : StartRun, P (some .classify) r.initialState)
    (completed : ∀ (w : World) resume step v u next, P (some step) v →
      (G.superstep w resume step v).result = .ok (u, next) → P next (v.merge u))
    (h : G.system.Reachable s) :
    ∀ snapshot, s.snapshot = some snapshot → P (snapshot.tasks.head?.map Task.step) snapshot.values := by
  refine h.invariant (P := fun s : Workflow => ∀ snapshot, s.snapshot = some snapshot →
    P (snapshot.tasks.head?.map Task.step) snapshot.values) (fun s hi => ?_) fun s m t _ ih hs => ?_
  · cases hi
    intro snapshot he
    cases he
  · obtain ⟨r, rfl, hn, rfl⟩ | ⟨w, keeps, v, task, resume, rfl, hsnap, hd, rfl⟩ |
      ⟨r, snapshot, rfl, hsnap, hd, hi, rfl⟩ | ⟨resume, rfl, hd, rfl⟩ := next_cases hs
    · intro snapshot he
      cases he
      exact start r
    · have hv : P (some task.step) v := ih _ hsnap
      intro snapshot he
      have hcases := @drive_cases G w keeps v task resume s.history
      obtain ⟨u, next, hr, hdrive⟩ | ⟨p, _, hdrive⟩ | ⟨f, _, hdrive⟩ := hcases
      · rw [hdrive] at he
        cases he
        have hnext := completed w resume task.step v u next hv hr
        cases next with
        | none => exact hnext
        | some step => exact hnext
      · rw [hdrive] at he
        cases he
        exact hv
      · rw [hdrive] at he
        cases he
        exact hv
    · exact ih
    · exact ih

/-- What a run of this request does by itself, before it asks for an approval. -/
def Alone (request : StartRun) (s : Workflow) : Move → Prop
  | .start r => r = request
  | .node _ _ => ∀ v task, s.snapshot = some ⟨v, [task]⟩ → task.step ≠ .requestApproval
  | _ => False

/-- A run of this request may stand before this node with these values. -/
def Before (G : AgentGraph) (request : StartRun) (step : StepName) (v : AgentState) : Prop :=
  ∃ history, (G.system.restrict fun s m _ => Alone request s m).Reachable
    ⟨some (.pending v (some step)), some none, history⟩

variable {request : StartRun}

theorem Before.start (r : StartRun) : G.Before r .classify r.initialState := by
  have hs : G.next {} (.start r) =
      some ⟨some (.pending r.initialState (some .classify)), some none, [.started r]⟩ := rfl
  have h0 : (G.system.restrict fun s m _ => Alone r s m).Reachable {} := .start rfl
  exact ⟨_, h0.step ⟨hs, rfl⟩⟩

theorem Before.reachable {step : StepName} {v : AgentState} (h : G.Before request step v) :
    ∃ history, G.system.Reachable ⟨some (.pending v (some step)), some none, history⟩ := by
  obtain ⟨history, hr⟩ := h
  exact ⟨history, hr.of_restrict⟩

variable {w : World} {step step' : StepName} {v u : AgentState}

theorem next_of_ok {keeps : Bool} {resume : Option ApprovalResume} {next : Option StepName}
    {history : List Event} {task : Task} (hr : (G.superstep w resume task.step v).result = .ok (u, next)) :
    G.next ⟨some ⟨v, [task]⟩, some resume, history⟩ (.node w keeps) =
      some ⟨some (.pending (v.merge u) next), next.map fun _ => none, .completed task.step u ::
        (G.superstep w resume task.step v).calls.map .called ++ history⟩ := by
  simp [AgentGraph.next, drive, hr]

theorem next_of_interrupt {keeps : Bool} {resume : Option ApprovalResume} {p : InterruptPayload}
    {history : List Event} {task : Task}
    (hr : (G.superstep w resume task.step v).result = .error (.interrupt p)) :
    G.next ⟨some ⟨v, [task]⟩, some resume, history⟩ (.node w keeps) =
      some ⟨some ⟨v, [⟨task.step, none, [p]⟩]⟩, none, .interrupted p ::
        (G.superstep w resume task.step v).calls.map .called ++ history⟩ := by
  simp [AgentGraph.next, drive, hr]

theorem next_of_failure {keeps : Bool} {resume : Option ApprovalResume} {f : Failure}
    {history : List Event} {task : Task}
    (hr : (G.superstep w resume task.step v).result = .error (.failure f)) :
    G.next ⟨some ⟨v, [task]⟩, some resume, history⟩ (.node w keeps) =
      some ⟨some ⟨v, [⟨task.step, some f.repr, if keeps then task.interrupts else []⟩]⟩, none,
        .failed task.step f :: (G.superstep w resume task.step v).calls.map .called ++ history⟩ := by
  simp [AgentGraph.next, drive, hr]

theorem next_of_resume {snapshot : Snapshot} {history : List Event} (r : ApprovalResume)
    (hi : snapshot.interrupted = true) : G.next ⟨some snapshot, none, history⟩ (.resume r) =
      some ⟨some snapshot, some (some r), .resumed r :: history⟩ := by
  simp [AgentGraph.next, hi]

theorem Before.completed (h : G.Before request step v) (hne : step ≠ .requestApproval)
    (hr : (G.superstep w none step v).result = .ok (u, some step')) :
    G.Before request step' (v.merge u) := by
  obtain ⟨history, hreach⟩ := h
  have hs : G.next ⟨some (.pending v (some step)), some none, history⟩ (.node w false) = some _ :=
    next_of_ok hr
  refine ⟨_, hreach.step ⟨hs, fun v' task he => ?_⟩⟩
  cases he
  exact hne

end AgentGraph
end DataCopilot.Agent
