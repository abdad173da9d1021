import DataCopilot.Agent.Replay

/-! The pass that a decision resumes: which nodes it runs, and how it can end. -/
namespace DataCopilot.Agent
open Sql Effects AgentGraph NorthwindAgentActions AgentWorkflowService

/-- The nodes of the data path, where no knowledge question gets. -/
def StepName.onDataPath : StepName → Bool
  | .classify | .retrieveMetrics | .compose => false
  | _ => true

/-- The nodes that may follow an approval. -/
def StepName.afterApproval : StepName → Bool
  | .classify | .retrieveMetrics | .selectSchema => false
  | _ => true

variable {G : AgentGraph} {w : World} {resume : Option ApprovalResume} {v u : AgentState}
  {step step' : StepName} {s t : Workflow}

theorem completed_dataPath (h : step.onDataPath = true → v.intent ≠ some .knowledge)
    (hr : (G.superstep w resume step v).result = .ok (u, some step'))
    (hs : step'.onDataPath = true) : (v.merge u).intent ≠ some .knowledge := by
  by_cases hd : step.onDataPath = true
  · rw [(superstep_frame hr).intent (by rintro rfl; cases hd)]
    exact h hd
  · obtain ⟨hu, hn⟩ := superstep_ok hr
    cases step with
    | classify =>
      simp only [route, Except.ok.injEq] at hn
      split at hn
      · cases hn
      · cases hn
        cases hs
    | retrieveMetrics =>
      obtain ⟨intent, hi, hnext⟩ := G.route_retrieveMetrics.mp hn
      by_cases hk : intent = .knowledge
      · rw [if_pos hk] at hnext
        cases hnext
        cases hs
      · rw [hi]
        simpa using hk
    | compose => cases hn
    | _ => exact absurd rfl hd

theorem dataPath (h : G.system.Reachable s) : ∀ v task, s.snapshot = some ⟨v, [task]⟩ →
    task.step.onDataPath = true → v.intent ≠ some .knowledge := by
  have hall := checkpoint_invariant (P := fun next v => ∀ step, next = some step →
    step.onDataPath = true → v.intent ≠ some .knowledge) ?_ ?_ h
  · intro v task hs
    exact hall _ hs task.step rfl
  · intro r step he hpath
    cases he
    cases hpath
  · intro w resume step v u next hv hr step' he hpath
    subst he
    exact completed_dataPath (hv step rfl) hr hpath

/-- Where an approved pass stands. -/
structure InPass (step : StepName) (v : AgentState) : Prop extends Underway step v where
  after : step.afterApproval = true
  notKnowledge : v.intent ≠ some .knowledge

namespace InPass

theorem completed (h : InPass step v)
    (hr : (G.superstep w none step v).result = .ok (u, some step')) : InPass step' (v.merge u) := by
  have hne : step ≠ .classify := by
    rintro rfl
    cases h.after
  refine ⟨h.toUnderway.completed hr, ?_, by rw [(superstep_frame hr).intent hne]; exact h.notKnowledge⟩
  obtain ⟨hu, hn⟩ := superstep_ok hr
  cases step with
  | classify => cases h.after
  | retrieveMetrics => cases h.after
  | selectSchema => cases h.after
  | generateSql =>
    cases hn
    rfl
  | guardSql =>
    obtain ⟨risk, _, hafter⟩ := G.route_guardSql.mp hn
    cases risk with
    | safe =>
      cases hafter
      rfl
    | approval =>
      cases hafter
      rfl
    | blocked => cases hafter
    | repair =>
      simp only [afterGuard] at hafter
      split at hafter
      · cases hafter
        rfl
      · cases hafter
  | requestApproval =>
    obtain ⟨r, hnone, _⟩ := requestApproval_ok hr
    cases hnone
  | executeSql =>
    cases hn
    rfl
  | verify =>
    simp only [route, Except.ok.injEq] at hn
    split at hn
    · cases hn
      rfl
    · cases hn
      rfl
  | compose => cases hn

/-- An approved pass that ends without another interrupt has an outcome. -/
theorem done (h : InPass step v) (hr : (G.superstep w none step v).result = .ok (u, none)) :
    status (v.merge u) false = .completed ∨ status (v.merge u) false = .failed := by
  obtain ⟨hu, hn⟩ := superstep_ok hr
  have hb := h.unblocked
  have hrej := h.unrejected
  cases step with
  | classify => cases h.after
  | retrieveMetrics => cases h.after
  | selectSchema => cases h.after
  | generateSql => cases hn
  | guardSql =>
    obtain ⟨policy, sql, _, _, ⟨reason, _, rfl⟩ | ⟨g, _, hrule⟩⟩ := guardSql_ok hu
    · have hne := reason.code_ne_empty
      have hnr := reason.code_ne_rejected
      right
      simp [status, refusal, AgentState.error, truthy, hne, hnr]
    · obtain ⟨controlled, estimate, _, _, rfl⟩ := rule_ok hrule
      obtain ⟨risk, hrisk, hafter⟩ := G.route_guardSql.mp hn
      simp only [ruling, AgentState.merge_sqlRisk] at hrisk
      split at hrisk
      · cases hrisk
        cases hafter
      · cases hrisk
        cases hafter
  | requestApproval =>
    obtain ⟨r, hnone, _⟩ := requestApproval_ok hr
    cases hnone
  | executeSql => cases hn
  | verify =>
    simp only [route, Except.ok.injEq] at hn
    split at hn
    · cases hn
    · cases hn
  | compose =>
    obtain ⟨_, rfl⟩ | ⟨ht, rfl⟩ | ⟨ht, answer, chart, hanswer, rfl⟩ := compose_ok hu
    · left
      have ha : insufficientEvidence ≠ "" := by decide
      simp [status, AgentState.error, hb, truthy, ha]
    · right
      have hsame : (v.merge { answer := some "" }).error = v.error := rfl
      simp [status, hsame, hb, hrej, ht]
    · left
      have hsame : (v.merge { answer := some answer, chartSpec := some chart }).error = v.error := rfl
      have ha : truthy (some answer) = true := by
        rw [composedAnswer, if_neg h.notKnowledge] at hanswer
        rw [truthy_some]
        exact Answering.describeSqlResult_ne _ hanswer
      simp [status, hsame, hb, hrej, ht, ha]

/-- An approval sends the pass to the execution. -/
theorem approved {r : ApprovalResume} {next : Option StepName} (h : Underway .requestApproval v)
    (hi : v.intent ≠ some .knowledge) (hd : r.decision = .approved)
    (hr : (G.superstep w (some r) .requestApproval v).result = .ok (u, next)) :
    next = some .executeSql ∧ InPass .executeSql (v.merge u) := by
  obtain ⟨r', he, rfl, hnext⟩ := requestApproval_ok hr
  cases he
  rw [if_pos hd] at hnext
  subst hnext
  exact ⟨rfl, h.completed hr, rfl, by rw [(superstep_frame hr).intent (by simp)]; exact hi⟩

/-- A rejection ends the run. -/
theorem rejected {r : ApprovalResume} {next : Option StepName} (hd : r.decision = .rejected)
    (hr : (G.superstep w (some r) .requestApproval v).result = .ok (u, next)) :
    next = none ∧ status (v.merge u) false = .rejected := by
  obtain ⟨r', he, rfl, hnext⟩ := requestApproval_ok hr
  cases he
  rw [hd] at hnext
  exact ⟨hnext, by simp [status, decided, hd, AgentState.error]⟩

end InPass

/-- A call of resume has returned, and not raised. -/
def Returned : List Event → Prop
  | .completed _ _ :: _ | .interrupted _ :: _ => True
  | _ => False

/-- The outcomes of a pass that was resumed with a decision. -/
def Outcome : ApprovalDecision → RunStatus → Prop
  | .approved, status => status = .completed ∨ status = .failed
  | .rejected, status => status = .rejected

/-- How far a pass has come that was resumed with `d`. -/
inductive Pass (d : ApprovalDecision) (s : Workflow) : Prop
  | asked {r : ApprovalResume} {v : AgentState} {task : Task}
    (snapshot : s.snapshot = some ⟨v, [task]⟩) (driving : s.driving = some (some r))
    (decision : r.decision = d) (step : task.step = .requestApproval)
  | running {v : AgentState} {task : Task} (snapshot : s.snapshot = some ⟨v, [task]⟩)
    (driving : s.driving = some none) (approved : d = .approved) (inPass : InPass task.step v)
  | stopped (snapshot : s.snapshot ≠ none) (driving : s.driving = none)
    (raised : ¬ Returned s.history)
  | done {v : AgentState} (snapshot : s.snapshot = some ⟨v, []⟩) (driving : s.driving = none)
    (outcome : Outcome d (status v false))

/-- A node that runs in the middle of a pass asks for an approval again. -/
def InterruptsAgain (G : AgentGraph) (s : Workflow) : Move → Prop
  | .node w _ => ∃ v task p, s.snapshot = some ⟨v, [task]⟩ ∧ s.driving = some none ∧
      (G.superstep w none task.step v).result = .error (.interrupt p)
  | _ => False

/-- The step lemma of a pass. -/
theorem Pass.kept {d : ApprovalDecision} {m : Move} (h : Pass d s) (hreach : G.system.Reachable s)
    (hs : G.next s m = some t) (hm : ∀ r, m ≠ .resume r) (hno : ¬ InterruptsAgain G s m) :
    Pass d t := by
  obtain ⟨r, rfl, hn, rfl⟩ | ⟨w, keeps, v, task, resume, rfl, hsnap, hd, rfl⟩ |
    ⟨r, snapshot, rfl, hsnap, hd, hi, rfl⟩ | ⟨resume, rfl, hd, rfl⟩ := next_cases hs
  · cases h with
    | asked snapshot => rw [hn] at snapshot; cases snapshot
    | running snapshot => rw [hn] at snapshot; cases snapshot
    | stopped snapshot => exact absurd hn snapshot
    | done snapshot => rw [hn] at snapshot; cases snapshot
  · cases h with
    | @asked r v' task' snapshot driving decision step =>
      rw [hsnap] at snapshot
      cases snapshot
      rw [hd] at driving
      cases driving
      have hv := underway hreach v task hsnap
      have hi := dataPath hreach v task hsnap (by rw [step]; rfl)
      rw [step] at hv
      obtain ⟨u, next, hr, hdrive⟩ | ⟨p, hr, hdrive⟩ | ⟨f, hr, hdrive⟩ := G.drive_cases
      · rw [hdrive]
        rw [step] at hr
        cases hdec : r.decision with
        | approved =>
          obtain ⟨rfl, hpass⟩ := InPass.approved hv hi hdec hr
          exact .running rfl rfl (decision.symm.trans hdec) hpass
        | rejected =>
          obtain ⟨rfl, hstatus⟩ := InPass.rejected hdec hr
          rw [← decision, hdec]
          exact .done rfl rfl hstatus
      · have hnone := (superstep_interrupt hr).2.1
        cases hnone
      · rw [hdrive]
        exact .stopped (by simp) rfl id
    | @running v' task' snapshot driving approved inPass =>
      rw [hsnap] at snapshot
      cases snapshot
      rw [hd] at driving
      cases driving
      obtain ⟨u, next, hr, hdrive⟩ | ⟨p, hr, hdrive⟩ | ⟨f, hr, hdrive⟩ := G.drive_cases
      · rw [hdrive]
        cases next with
        | none =>
          rw [approved]
          exact .done rfl rfl (inPass.done hr)
        | some step' => exact .running rfl rfl approved (inPass.completed hr)
      · exact absurd ⟨v, task, p, hsnap, hd, hr⟩ hno
      · rw [hdrive]
        exact .stopped (by simp) rfl id
    | stopped _ driving => rw [hd] at driving; cases driving
    | done _ driving => rw [hd] at driving; cases driving
  · exact absurd rfl (hm r)
  · cases h with
    | asked snapshot => exact .stopped (by rw [snapshot]; simp) rfl id
    | running snapshot => exact .stopped (by rw [snapshot]; simp) rfl id
    | stopped _ driving => rw [hd] at driving; cases driving
    | done _ driving => rw [hd] at driving; cases driving

/-- What resume returns of a pass that has returned. -/
theorem Pass.returned {d : ApprovalDecision} (h : Pass d s) (hd : s.driving = none)
    (hr : Returned s.history) :
    ∃ v, s.snapshot = some ⟨v, []⟩ ∧ Outcome d (status v false) := by
  cases h with
  | asked _ driving => rw [hd] at driving; cases driving
  | running _ driving => rw [hd] at driving; cases driving
  | stopped _ _ raised => exact absurd hr raised
  | done snapshot _ outcome => exact ⟨_, snapshot, outcome⟩

end DataCopilot.Agent
