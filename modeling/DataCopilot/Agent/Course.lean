import Mathlib.Algebra.Order.BigOperators.Group.List
import DataCopilot.Agent.Authorisation

/-! How long a run can get, whatever its actions return. Only two things are known of them
here: that `generate_sql` counts one attempt, and that no other node counts any. -/
namespace DataCopilot.Agent
open Sql Effects AgentGraph NorthwindAgentActions

/-- What is left to see of a run: the calls that drive it, and how its nodes ended. -/
inductive Mark where
  | called
  | completed (step : StepName)
  | stopped
deriving DecidableEq

/-- `position` holds the values and the node that comes next. -/
structure Course where
  position : Option (AgentState × Option StepName) := none
  driving : Bool := false
  marks : List Mark := []

inductive Turn where
  | start | node | resume | crash
deriving DecidableEq

/-- The update counts the attempts as it should. -/
def Counts (step : StepName) (v u : AgentState) : Prop :=
  (v.merge u).attempt = if step = .generateSql then v.attempt + 1 else v.attempt

/-- One turn of a run: a node may return any update that counts the attempts as it should,
or fail, or interrupt the run. -/
inductive Course.Step (G : AgentGraph) : Course → Turn → Course → Prop
  | start {marks : List Mark} (r : StartRun) :
    Step G ⟨none, false, marks⟩ .start ⟨some (r.initialState, some .classify), true, .called :: marks⟩
  | completed {v u : AgentState} {step : StepName} {next : Option StepName} {marks : List Mark}
    (counts : Counts step v u) (edge : G.route step (v.merge u) = .ok next) :
    Step G ⟨some (v, some step), true, marks⟩ .node
      ⟨some (v.merge u, next), next.isSome, .completed step :: marks⟩
  | stopped {v : AgentState} {step : StepName} {marks : List Mark} :
    Step G ⟨some (v, some step), true, marks⟩ .node ⟨some (v, some step), false, .stopped :: marks⟩
  | resume {v : AgentState} {step : StepName} {marks : List Mark} :
    Step G ⟨some (v, some step), false, marks⟩ .resume ⟨some (v, some step), true, .called :: marks⟩
  | crash {position : Option (AgentState × Option StepName)} {marks : List Mark} :
    Step G ⟨position, true, marks⟩ .crash ⟨position, false, marks⟩

def AgentGraph.course (G : AgentGraph) : Transition.System Course Turn where
  init c := c = {}
  step := Course.Step G

namespace StepName

def all : List StepName :=
  [classify, retrieveMetrics, selectSchema, generateSql, guardSql, requestApproval, executeSql,
    verify, compose]

/-- The order of the nodes, apart from the two ways back to `generate_sql`. -/
def stage : StepName → Nat
  | classify => 0
  | retrieveMetrics => 1
  | selectSchema => 2
  | generateSql => 3
  | guardSql => 4
  | requestApproval => 5
  | executeSql => 6
  | verify => 7
  | compose => 8

/-- The nodes of an attempt. -/
def repeats (step : StepName) : Prop := generateSql.stage ≤ step.stage ∧ step.stage ≤ verify.stage

instance (step : StepName) : Decidable step.repeats := inferInstanceAs (Decidable (_ ∧ _))

theorem stage_injective : Function.Injective stage := by
  intro p q h
  cases p <;> cases q <;> first | rfl | cases h

end StepName

variable {G : AgentGraph} {step next : StepName} {v u : AgentState} {c d : Course}

/-- An edge goes on to a later node, into the attempts only at their first node; or it goes
back to the next attempt, while one is left. -/
theorem route_stage (h : G.route step v = .ok (some next)) :
    (step.stage < next.stage ∧ (step.stage < StepName.generateSql.stage →
      next.stage ≤ StepName.generateSql.stage ∨ StepName.verify.stage < next.stage)) ∨
    (next = .generateSql ∧ StepName.generateSql.stage < step.stage ∧
      step.stage ≤ StepName.verify.stage ∧ v.attempt ≤ G.maxRepairs) := by
  have hleft (hl : G.attemptsLeft v = true) : v.attempt ≤ G.maxRepairs := by
    simp only [attemptsLeft, decide_eq_true_eq] at hl
    omega
  cases step with
  | classify =>
    simp only [route, Except.ok.injEq] at h
    split at h
    · cases h
    · cases h
      exact .inl (by decide)
  | retrieveMetrics =>
    obtain ⟨intent, _, hnext⟩ := G.route_retrieveMetrics.mp h
    left
    split at hnext
    · cases hnext
      decide
    · cases hnext
      decide
  | selectSchema =>
    cases h
    exact .inl (by decide)
  | generateSql =>
    cases h
    exact .inl (by decide)
  | guardSql =>
    obtain ⟨risk, _, hafter⟩ := G.route_guardSql.mp h
    cases risk with
    | safe =>
      cases hafter
      exact .inl (by decide)
    | approval =>
      cases hafter
      exact .inl (by decide)
    | blocked => cases hafter
    | repair =>
      simp only [afterGuard] at hafter
      split at hafter
      · rename_i hl
        cases hafter
        exact .inr ⟨rfl, by decide, by decide, hleft hl⟩
      · cases hafter
  | requestApproval =>
    obtain ⟨decision, _, hnext⟩ := G.route_requestApproval.mp h
    split at hnext
    · cases hnext
      exact .inl (by decide)
    · cases hnext
  | executeSql =>
    cases h
    exact .inl (by decide)
  | verify =>
    simp only [route, Except.ok.injEq] at h
    split at h
    · rename_i hl
      cases h
      rw [Bool.and_eq_true] at hl
      exact .inr ⟨rfl, by decide, by decide, hleft hl.2⟩
    · cases h
      exact .inl (by decide)
  | compose => cases h

/-- How often a node may complete in one run. -/
def AgentGraph.limit (G : AgentGraph) (step : StepName) : Nat :=
  if step.repeats then G.maxRepairs + 1 else 1

/-- How often it may still do so, where a run stands before `next`. -/
def AgentGraph.left (G : AgentGraph) (step next : StepName) (v : AgentState) : Nat :=
  if step.repeats then
    (G.maxRepairs + 1 - v.attempt) +
      if StepName.generateSql.stage < next.stage ∧ next.stage ≤ step.stage then 1 else 0
  else if next.stage ≤ step.stage then 1 else 0

namespace Course

def remaining (G : AgentGraph) (c : Course) (step : StepName) : Nat :=
  match c.position with
  | none => G.limit step
  | some (_, none) => 0
  | some (v, some next) => G.left step next v

/-- All completions, of whichever node. -/
def completions (marks : List Mark) : Nat :=
  (StepName.all.map fun step => marks.count (.completed step)).sum

/-- The nodes that ran in the last call, whether they completed or not. -/
def executions : List Mark → Nat
  | [] => 0
  | .called :: _ => 0
  | .completed _ :: marks => executions marks + 1
  | .stopped :: marks => executions marks + 1

/-- An attempt is left wherever one is still to be made. -/
def Attemptable (G : AgentGraph) (c : Course) : Prop :=
  ∀ v next, c.position = some (v, some next) → next.stage ≤ StepName.generateSql.stage →
    v.attempt ≤ G.maxRepairs

theorem attemptable (h : G.course.Reachable c) : c.Attemptable G := by
  refine h.invariant (fun c hi => ?_) fun c turn d _ ih hs => ?_
  · cases hi
    intro v next he
    cases he
  · cases hs with
    | start r =>
      intro v next he _
      cases he
      exact Nat.zero_le _
    | @completed v u step after marks counts edge =>
      intro v' next he hn
      cases he
      obtain ⟨hforward, _⟩ | ⟨rfl, _, _, hleft⟩ := route_stage edge
      · have hne : step ≠ .generateSql := by
          rintro rfl
          omega
        rw [counts, if_neg hne]
        exact ih v step rfl (by omega)
      · exact hleft
    | stopped => exact ih
    | resume => exact ih
    | crash => exact ih

/-- A completed node has one completion less left, and no other node has more. -/
theorem left_completed (hstep : step.stage ≤ StepName.generateSql.stage → v.attempt ≤ G.maxRepairs)
    (counts : Counts step v u) (edge : G.route step (v.merge u) = .ok (some next)) (q : StepName) :
    (if step = q then 1 else 0) + G.left q next (v.merge u) ≤ G.left q step v := by
  have hg : StepName.generateSql.stage = 3 := rfl
  have hv : StepName.verify.stage = 7 := rfl
  have hroute := route_stage edge
  rw [Counts] at counts
  simp only [← StepName.stage_injective.eq_iff, AgentGraph.left, StepName.repeats, hg, hv] at *
  obtain ⟨hforward, hfirst⟩ | ⟨hback, hlate, hattempt, hleft⟩ := hroute
  · by_cases hd : step.stage = 3
    · rw [if_pos hd] at counts
      split_ifs <;> omega
    · rw [if_neg hd] at counts
      split_ifs <;> omega
  · rw [if_neg (by omega)] at counts
    split_ifs <;> omega

theorem left_last (hstep : step.stage ≤ StepName.generateSql.stage → v.attempt ≤ G.maxRepairs)
    (q : StepName) : (if step = q then 1 else 0) ≤ G.left q step v := by
  by_cases hq : step = q
  · subst hq
    simp only [if_true, AgentGraph.left, StepName.repeats, le_refl, and_true]
    split_ifs <;> omega
  · rw [if_neg hq]
    exact Nat.zero_le _

/-- The step lemma: what completes is taken from what was left. -/
theorem remaining_step {turn : Turn} (ha : c.Attemptable G) (hs : Step G c turn d) (q : StepName) :
    d.marks.count (.completed q) + d.remaining G q ≤ c.marks.count (.completed q) + c.remaining G q := by
  cases hs with
  | start r =>
    have h0 : G.left q .classify r.initialState ≤ G.limit q := by
      simp [AgentGraph.left, AgentGraph.limit, StepName.stage, StartRun.initialState,
        AgentState.attempt]
    rw [List.count_cons_of_ne (by simp)]
    exact Nat.add_le_add_left h0 _
  | @completed v u step after marks counts edge =>
    have hmark : (Mark.completed step == Mark.completed q) = decide (step = q) := by
      simp [BEq.beq]
    simp only [List.count_cons, hmark, decide_eq_true_eq, remaining]
    cases after with
    | none =>
      have hleft := left_last (ha v step rfl) q
      simp only
      omega
    | some next =>
      have hleft := left_completed (ha v step rfl) counts edge q
      simp only
      omega
  | stopped => rw [List.count_cons_of_ne (by simp)]; exact le_refl _
  | resume => rw [List.count_cons_of_ne (by simp)]; exact le_refl _
  | crash => exact le_refl _

theorem completed_le (h : G.course.Reachable c) (q : StepName) :
    c.marks.count (.completed q) + c.remaining G q ≤ G.limit q := by
  refine h.invariant (P := fun c : Course =>
    c.marks.count (.completed q) + c.remaining G q ≤ G.limit q) (fun c hi => ?_)
    fun c turn d hr ih hs => ?_
  · cases hi
    exact (Nat.zero_add _).le
  · exact (remaining_step (attemptable hr) hs q).trans ih

theorem completions_le (h : G.course.Reachable c) : completions c.marks ≤ 4 + 5 * (G.maxRepairs + 1) := by
  have hle (step : StepName) : c.marks.count (.completed step) ≤ G.limit step :=
    (Nat.le_add_right _ _).trans (completed_le h step)
  have hsum : completions c.marks ≤ (StepName.all.map G.limit).sum := by
    unfold completions
    exact List.sum_le_sum fun step _ => hle step
  have hlimits : (StepName.all.map G.limit).sum = 4 + 5 * (G.maxRepairs + 1) := by
    simp [StepName.all, AgentGraph.limit, StepName.repeats, StepName.stage]
    omega
  exact hsum.trans hlimits.le

theorem completions_completed (step : StepName) (marks : List Mark) :
    completions (.completed step :: marks) = completions marks + 1 := by
  cases step <;> simp [completions, StepName.all, List.count_cons] <;> omega

theorem completions_cons {m : Mark} (h : ∀ step, m ≠ .completed step) (marks : List Mark) :
    completions (m :: marks) = completions marks := by
  unfold completions
  congr 1
  refine List.map_congr_left fun step _ => ?_
  exact List.count_cons_of_ne (h step)

/-- One node may be running in a call beside those that have completed. -/
theorem executions_le (h : G.course.Reachable c) :
    executions c.marks ≤ completions c.marks + if c.driving then 0 else 1 := by
  refine h.invariant (P := fun c : Course =>
    executions c.marks ≤ completions c.marks + if c.driving then 0 else 1) (fun c hi => ?_)
    fun c turn d _ ih hs => ?_
  · cases hi
    exact Nat.zero_le _
  · cases hs with
    | start r => exact Nat.zero_le _
    | @completed v u step next marks counts edge =>
      have hrun : executions marks ≤ completions marks := ih
      have hmark := completions_completed step marks
      simp only [executions]
      omega
    | @stopped v step marks =>
      have hrun : executions marks ≤ completions marks := ih
      have hmark := completions_cons (m := .stopped) (by simp) marks
      simp only [executions]
      rw [hmark]
      exact Nat.succ_le_succ hrun
    | resume => exact Nat.zero_le _
    | crash => exact ih.trans (Nat.le_succ _)

theorem executions_path {w : List Turn} (hp : G.course.Path c w d) (hw : ∀ turn ∈ w, turn = .node) :
    executions d.marks = executions c.marks + w.length := by
  induction hp with
  | refl => rfl
  | step _ hs ih =>
    rw [List.forall_mem_cons] at hw
    obtain ⟨rfl, hrest⟩ := hw
    have hprev := ih hrest
    cases hs with
    | completed counts edge =>
      simp only [executions, List.length_cons] at *
      omega
    | stopped =>
      simp only [executions, List.length_cons] at *
      omega

theorem executions_lt (h : G.course.Reachable c) : executions c.marks < 25 := by
  have hrun := executions_le h
  have hall := completions_le h
  have hrepairs := G.repairs_ok
  split_ifs at hrun <;> omega

end Course

open Course in
/-- The graph bounds every run: its completions node by node, all of them together, and the
nodes that run in one call, so that a call left to itself comes to its end. -/
theorem workflow_bounded (h : G.course.Reachable c) :
    (∀ step, c.marks.count (.completed step) ≤ G.limit step) ∧
      completions c.marks ≤ 4 + 5 * (G.maxRepairs + 1) ∧ executions c.marks < 25 ∧
      ∀ w d, G.course.Path c w d → (∀ turn ∈ w, turn = .node) → w.length < 25 := by
  refine ⟨fun step => ?_, completions_le h, executions_lt h, fun w d hp hw => ?_⟩
  · exact (Nat.le_add_right _ _).trans (completed_le h step)
  · have hall := executions_lt (h.path hp)
    rw [executions_path hp hw] at hall
    omega

/-- A run of the list of orders: the guard refuses its first statement, and the second is generated. -/
def repairedUpdates : List (StepName × AgentState) :=
  [(.generateSql, { attempts := some 2 }), (.guardSql, refusal .tableNotAllowed),
    (.generateSql, { attempts := some 1 }), (.selectSchema, {}), (.retrieveMetrics, {}),
    (.classify, { intent := some .hybrid })]

/-- The values after updates, the last one first. -/
def updated (v : AgentState) (updates : List (StepName × AgentState)) : AgentState :=
  updates.foldr (fun p v => v.merge p.2) v

def repairedOrders : Course :=
  ⟨some (updated ordersRun.initialState repairedUpdates, some .guardSql), true,
    repairedUpdates.map (fun p => .completed p.1) ++ [.called]⟩

theorem repairedOrders_reachable : ordersGraph.course.Reachable repairedOrders := by
  have hstart : ordersGraph.course.Reachable _ := .step (.start rfl) (.start ordersRun)
  have hclassify := hstart.step (Course.Step.completed (u := { intent := some .hybrid }) rfl rfl)
  have hretrieve := hclassify.step (Course.Step.completed (u := {}) rfl rfl)
  have hselect := hretrieve.step (Course.Step.completed (u := {}) rfl rfl)
  have hgenerate := hselect.step (Course.Step.completed (u := { attempts := some 1 }) rfl rfl)
  have hguard := hgenerate.step (Course.Step.completed (u := refusal .tableNotAllowed) rfl rfl)
  exact hguard.step (Course.Step.completed (u := { attempts := some 2 }) rfl rfl)

theorem orders_bounded :
    (∀ step, repairedOrders.marks.count (.completed step) ≤ ordersGraph.limit step) ∧
      Course.completions repairedOrders.marks ≤ 4 + 5 * (ordersGraph.maxRepairs + 1) ∧
      Course.executions repairedOrders.marks < 25 ∧
      ∀ w d, ordersGraph.course.Path repairedOrders w d → (∀ turn ∈ w, turn = .node) → w.length < 25 :=
  workflow_bounded repairedOrders_reachable

/-! The actions of the agent are among those that were left open here. -/
section Agent
variable {w : World} {resume : Option ApprovalResume} {s : Workflow}

theorem completed_counts {after : Option StepName}
    (hr : (G.superstep w resume step v).result = .ok (u, after)) : Counts step v u :=
  (superstep_frame hr).attempt

def Event.mark : Event → Option Mark
  | .started _ | .resumed _ => some .called
  | .completed step _ => some (.completed step)
  | .interrupted _ | .failed _ _ => some .stopped
  | .called _ | .crashed => none

def Workflow.course (s : Workflow) : Course where
  position := s.snapshot.map fun snapshot => (snapshot.values, snapshot.tasks.head?.map Task.step)
  driving := s.driving.isSome
  marks := s.history.filterMap Event.mark

def Move.turn : Move → Turn
  | .start _ => .start
  | .node _ _ => .node
  | .resume _ => .resume
  | .crash => .crash

theorem marks_called (calls : List Call) (history : List Event) :
    (calls.map Event.called ++ history).filterMap Event.mark = history.filterMap Event.mark := by
  induction calls with
  | nil => rfl
  | cons c calls ih => exact ih

theorem workflow_refines_course (G : AgentGraph) :
    G.system.Refines G.course Workflow.course Move.turn where
  init s hi := by
    cases hi
    rfl
  step s m t hr hs := by
    obtain ⟨r, rfl, hn, rfl⟩ | ⟨w, keeps, v, task, resume, rfl, hsnap, hd, rfl⟩ |
      ⟨r, snapshot, rfl, hsnap, hd, hi, rfl⟩ | ⟨resume, rfl, hd, rfl⟩ := next_cases hs
    · obtain ⟨snapshot, driving, history⟩ := s
      obtain rfl : snapshot = none := hn
      obtain ⟨_, hd⟩ := (audited hr).fresh rfl
      obtain rfl : driving = none := hd
      exact .start r
    · obtain ⟨snapshot, driving, history⟩ := s
      obtain rfl : snapshot = _ := hsnap
      obtain rfl : driving = _ := hd
      have hcases := @drive_cases G w keeps v task resume history
      obtain ⟨u, next, hr, hdrive⟩ | ⟨p, _, hdrive⟩ | ⟨f, _, hdrive⟩ := hcases
      · have hstep := @Course.Step.completed G v u task.step next (history.filterMap Event.mark)
          (completed_counts hr) (superstep_ok hr).2
        rw [hdrive]
        simp only [Workflow.course, List.cons_append, List.filterMap_cons, Event.mark, marks_called]
        cases next with
        | none => exact hstep
        | some step => exact hstep
      · rw [hdrive]
        simp only [Workflow.course, List.cons_append, List.filterMap_cons, Event.mark, marks_called]
        exact .stopped
      · rw [hdrive]
        simp only [Workflow.course, List.cons_append, List.filterMap_cons, Event.mark, marks_called]
        exact .stopped
    · obtain ⟨snap, driving, history⟩ := s
      obtain rfl : snap = _ := hsnap
      obtain rfl : driving = _ := hd
      obtain ⟨v, tasks⟩ := snapshot
      cases tasks with
      | nil => cases hi
      | cons task rest => exact .resume
    · obtain ⟨snapshot, driving, history⟩ := s
      obtain rfl : driving = _ := hd
      exact .crash

theorem agent_bounded (h : G.system.Reachable s) :
    (∀ step, (s.history.filterMap Event.mark).count (.completed step) ≤ G.limit step) ∧
      Course.executions (s.history.filterMap Event.mark) < 25 := by
  have hcourse := (workflow_refines_course G).reachable h
  obtain ⟨hlimit, _, hrun, _⟩ := workflow_bounded hcourse
  exact ⟨hlimit, hrun⟩

end Agent
end DataCopilot.Agent
