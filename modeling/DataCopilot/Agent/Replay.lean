import DataCopilot.Agent.Authorisation
import DataCopilot.Agent.Service

/-! What a replayed start and `inspect` report of a checkpoint from which the run goes on.
The status is read off the values, and some values mean something else on the way. -/
namespace DataCopilot.Agent
open Sql Effects AgentGraph NorthwindAgentActions AgentWorkflowService

/-- No node is left to run, or a task has failed. -/
def Snapshot.Settled (s : Snapshot) : Prop := s.tasks = [] ∨ ∃ task ∈ s.tasks, task.error ≠ none

/-- Outcomes are reported of settled checkpoints only. -/
structure Honest (s : Snapshot) : Prop where
  inspect : ∀ {runId result}, inspect runId (some s) = .ok result →
    result.status.terminal = true → s.Settled
  start : ∀ {r invocation result}, sameIdentity r s.values →
    start r (some s) invocation = .ok result → result.status.terminal = true → s.Settled

theorem honest_iff {s : Snapshot} :
    Honest s ↔ ∀ runId, (snapshotResult runId s).status.terminal = true → s.Settled := by
  constructor
  · intro h runId ht
    exact h.inspect rfl ht
  · intro h
    refine ⟨fun he ht => ?_, fun {r _ _} hid he ht => ?_⟩
    · cases he
      exact h _ ht
    · rw [AgentWorkflowService.start, if_pos hid] at he
      cases he
      exact h _ ht

theorem Snapshot.Settled.honest {s : Snapshot} (h : s.Settled) : Honest s :=
  honest_iff.mpr fun _ _ => h

theorem honest_waiting {v : AgentState} {task : Task} (hi : task.interrupts ≠ []) :
    Honest ⟨v, [task]⟩ := by
  refine honest_iff.mpr fun runId ht => ?_
  rw [snapshotResult_waiting hi] at ht
  cases ht

theorem honest_pending {v : AgentState} {step : StepName} :
    Honest (.pending v (some step)) ↔
      v.sqlRisk ≠ some .blocked ∧ truthy v.error = false ∧ truthy v.answer = false := by
  have ht (runId : String) : (snapshotResult runId (.pending v (some step))).status.terminal =
      (decide (v.sqlRisk = some .blocked) || truthy v.error || truthy v.answer) :=
    snapshotResult_pending rfl rfl
  have hs : ¬ (Snapshot.pending v (some step)).Settled := by
    simp [Snapshot.Settled, Snapshot.pending]
  rw [honest_iff]
  simp only [ht, hs, imp_false, Bool.not_eq_true, Bool.or_eq_false_iff, decide_eq_false_iff_not,
    forall_const, and_assoc]

/-- The nodes whose update carries an error code although the run goes on. -/
def Unsettling (G : AgentGraph) (w : World) (v : AgentState) : StepName → Prop
  | .retrieveMetrics => v.intent = some .knowledge ∧
      ∃ tenantId question result, v.tenantId = some tenantId ∧ v.question = some question ∧
        w.retrieve tenantId question = .ok result ∧ result.shouldAnswer = false
  | .guardSql => G.attemptsLeft v = true ∧
      ∃ policy sql reason, v.queryPolicy = some policy ∧ v.sql = some sql ∧
        G.actions.guard sql policy = .error (.policyViolation reason)
  | .verify => columnsMismatch v = true
  | _ => False

/-- Such a node completes. -/
def Provisional (G : AgentGraph) (s : Workflow) : Move → Prop
  | .node w _ => ∃ v task resume done, s.snapshot = some ⟨v, [task]⟩ ∧ s.driving = some resume ∧
      (G.superstep w resume task.step v).result = .ok done ∧ Unsettling G w v task.step
  | _ => False

/-- Which keys may be set where a node is about to run. -/
structure Underway (step : StepName) (v : AgentState) : Prop where
  unblocked : v.sqlRisk ≠ some .blocked
  unrejected : v.error ≠ some "APPROVAL_REJECTED"
  unanswered : truthy v.answer = false
  clear : step ≠ .generateSql → step ≠ .compose → truthy v.error = false

namespace Underway
variable {G : AgentGraph} {w : World} {resume : Option ApprovalResume} {v u : AgentState}
  {step step' : StepName}

theorem start (r : StartRun) : Underway .classify r.initialState :=
  ⟨by simp [StartRun.initialState], by simp [StartRun.initialState, AgentState.error], rfl,
    fun _ _ => rfl⟩

/-- An error code is left behind by the unsettling nodes and by no others. -/
theorem completed_error (h : Underway step v)
    (hr : (G.superstep w resume step v).result = .ok (u, some step')) :
    truthy (v.merge u).error = true ↔ Unsettling G w v step := by
  obtain ⟨hu, hn⟩ := superstep_ok hr
  cases step with
  | classify =>
    obtain ⟨reason, rfl⟩ | ⟨intent, rfl⟩ := classify_ok hu
    · simp [route, block] at hn
    · simp [Unsettling, AgentState.error]
  | retrieveMetrics =>
    obtain ⟨tenantId, question, result, ht, hq, ha, rfl⟩ := retrieveMetrics_ok hu
    have he : Unsettling G w v .retrieveMetrics ↔
        v.intent = some .knowledge ∧ result.shouldAnswer = false := by
      simp [Unsettling, ht, hq, ha]
    rw [he]
    by_cases hi : v.intent = some .knowledge ∧ result.shouldAnswer = false
    · simp [AgentState.error, hi, truthy]
    · simp [AgentState.error, hi]
  | selectSchema =>
    obtain ⟨selected, confidence, snapshot, restricted, rfl⟩ := selectSchema_ok hu
    have hc := h.clear (by simp) (by simp)
    simpa [Unsettling, AgentState.error] using hc
  | generateSql =>
    obtain ⟨draft, rfl⟩ := generateSql_ok hu
    simp [Unsettling, AgentState.error]
  | guardSql =>
    obtain ⟨policy, sql, hp, hs, hcase⟩ := guardSql_ok hu
    obtain ⟨reason, hg, rfl⟩ | ⟨g, hg, hrule⟩ := hcase
    · have hleft : G.attemptsLeft v = true := by
        by_contra hno
        rw [G.route_refusal, if_neg hno] at hn
        cases hn
      have hcode := reason.code_ne_empty
      simp [Unsettling, hp, hs, hg, hleft, AgentState.error, refusal, truthy, hcode]
    · obtain ⟨controlled, estimate, _, _, rfl⟩ := rule_ok hrule
      simp [Unsettling, hp, hs, hg, AgentState.error, ruling]
  | requestApproval =>
    obtain ⟨r, rfl, rfl⟩ := pause_ok hu
    cases hd : r.decision with
    | approved => simp [Unsettling, decided, AgentState.error]
    | rejected =>
      obtain ⟨decision, hdec, hnext⟩ := G.route_requestApproval.mp hn
      obtain rfl : .rejected = decision := by simpa [decided, hd] using hdec
      simp at hnext
  | executeSql =>
    obtain ⟨_, _, result, _, _, _, rfl⟩ := executeSql_ok hu
    simp [Unsettling, AgentState.error]
  | verify =>
    rw [verify_ok hu]
    by_cases hm : columnsMismatch v = true
    · simp [Unsettling, AgentState.error, hm, truthy]
    · simp [Unsettling, AgentState.error, hm]
  | compose => cases hn

/-- Nothing is blocked, rejected or answered where another node follows. -/
theorem completed_open (h : Underway step v)
    (hr : (G.superstep w resume step v).result = .ok (u, some step')) :
    (v.merge u).sqlRisk ≠ some .blocked ∧ (v.merge u).error ≠ some "APPROVAL_REJECTED" ∧
      truthy (v.merge u).answer = false := by
  obtain ⟨hu, hn⟩ := superstep_ok hr
  obtain ⟨hb, hrej, ha, _⟩ := h
  have hclear : (v.merge { errorCode := some none }).error ≠ some "APPROVAL_REJECTED" := by
    simp [AgentState.error]
  cases step with
  | classify =>
    obtain ⟨reason, rfl⟩ | ⟨intent, rfl⟩ := classify_ok hu
    · simp [route, block] at hn
    · exact ⟨hb, hclear, ha⟩
  | retrieveMetrics =>
    obtain ⟨_, _, result, _, _, _, rfl⟩ := retrieveMetrics_ok hu
    refine ⟨hb, ?_, ha⟩
    by_cases hi : v.intent = some .knowledge ∧ result.shouldAnswer = false
    · simp [AgentState.error, hi]
    · simp [AgentState.error, hi]
  | selectSchema =>
    obtain ⟨_, _, _, _, rfl⟩ := selectSchema_ok hu
    exact ⟨hb, hrej, ha⟩
  | generateSql =>
    obtain ⟨draft, rfl⟩ := generateSql_ok hu
    exact ⟨hb, hclear, ha⟩
  | guardSql =>
    obtain ⟨policy, sql, _, _, ⟨reason, _, rfl⟩ | ⟨g, _, hrule⟩⟩ := guardSql_ok hu
    · have hcode := reason.code_ne_rejected
      exact ⟨by simp [refusal], by simpa [AgentState.error, refusal] using hcode, ha⟩
    · obtain ⟨controlled, estimate, _, _, rfl⟩ := rule_ok hrule
      refine ⟨?_, hclear, ha⟩
      simp only [AgentState.merge_sqlRisk, ruling]
      split <;> simp
  | requestApproval =>
    obtain ⟨r, rfl, rfl⟩ := pause_ok hu
    cases hd : r.decision with
    | approved => exact ⟨hb, hclear, ha⟩
    | rejected =>
      obtain ⟨decision, hdec, hnext⟩ := G.route_requestApproval.mp hn
      obtain rfl : .rejected = decision := by simpa [decided, hd] using hdec
      simp at hnext
  | executeSql =>
    obtain ⟨_, _, _, _, _, _, rfl⟩ := executeSql_ok hu
    exact ⟨hb, hclear, ha⟩
  | verify =>
    rw [verify_ok hu]
    refine ⟨hb, ?_, ha⟩
    by_cases hm : columnsMismatch v = true
    · simp [AgentState.error, hm]
    · simp [AgentState.error, hm]
  | compose => cases hn

/-- After an unsettling node the run goes to a node that expects its error code. -/
theorem unsettling_next {next : Option StepName}
    (hr : (G.superstep w resume step v).result = .ok (u, next)) (hs : Unsettling G w v step) :
    next = some .generateSql ∨ next = some .compose := by
  obtain ⟨hu, hn⟩ := superstep_ok hr
  cases step with
  | retrieveMetrics =>
    obtain ⟨_, _, result, _, _, _, rfl⟩ := retrieveMetrics_ok hu
    obtain ⟨intent, hi, hnext⟩ := G.route_retrieveMetrics.mp hn
    obtain rfl : .knowledge = intent := by simpa [hs.1] using hi
    exact .inr hnext.symm
  | guardSql =>
    obtain ⟨hleft, policy, sql, reason, hp, hsql, hg⟩ := hs
    obtain ⟨policy', sql', hp', hsql', hcase⟩ := guardSql_ok hu
    obtain rfl : policy = policy' := by simpa [hp] using hp'
    obtain rfl : sql = sql' := by simpa [hsql] using hsql'
    obtain ⟨_, _, rfl⟩ | ⟨g, hg', _⟩ := hcase
    · rw [G.route_refusal, if_pos hleft, Except.ok.injEq] at hn
      exact .inl hn.symm
    · rw [hg] at hg'
      cases hg'
  | verify =>
    simp only [route, Except.ok.injEq] at hn
    split at hn
    · exact .inl hn.symm
    · exact .inr hn.symm
  | _ => exact hs.elim

theorem completed (h : Underway step v)
    (hr : (G.superstep w resume step v).result = .ok (u, some step')) :
    Underway step' (v.merge u) := by
  obtain ⟨hb, hrej, ha⟩ := h.completed_open hr
  refine ⟨hb, hrej, ha, fun hg hc => ?_⟩
  by_contra ht
  obtain hg' | hc' := unsettling_next hr ((h.completed_error hr).mp (by simpa using ht))
  · exact hg (Option.some.inj hg')
  · exact hc (Option.some.inj hc')

end Underway

variable {G : AgentGraph} {s t : Workflow}

/-- In every run, the values fit the node that is about to run. -/
theorem underway (h : G.system.Reachable s) :
    ∀ v task, s.snapshot = some ⟨v, [task]⟩ → Underway task.step v := by
  have hall := checkpoint_invariant
    (P := fun next v => ∀ step, next = some step → Underway step v) ?_ ?_ h
  · intro v task hs
    exact hall _ hs task.step rfl
  · intro r step he
    cases he
    exact .start r
  · intro w resume step v u next hv hr step' he
    subst he
    exact (hv step rfl).completed hr

/-- The checkpoint that a node leaves behind is honest unless the node is unsettling. -/
theorem node_honest_iff {w : World} {keeps : Bool} (h : G.system.Reachable s)
    (hs : G.next s (.node w keeps) = some t) :
    (∀ snapshot, t.snapshot = some snapshot → Honest snapshot) ↔
      ¬ Provisional G s (.node w keeps) := by
  obtain ⟨r, hm, _⟩ | ⟨w', keeps', v, task, resume, hm, hsnap, hd, rfl⟩ | ⟨r, _, hm, _⟩ |
    ⟨_, hm, _⟩ := next_cases hs
  · cases hm
  · cases hm
    have hv := underway h v task hsnap
    have hp : Provisional G s (.node w keeps) ↔
        ∃ done, (G.superstep w resume task.step v).result = .ok done ∧
          Unsettling G w v task.step := by
      simp [Provisional, hsnap, hd]
    rw [hp]
    obtain ⟨u, next, hr, hdrive⟩ | ⟨p, hr, hdrive⟩ | ⟨f, hr, hdrive⟩ := G.drive_cases
    · rw [hdrive]
      simp only [Option.some.injEq, forall_eq', hr, Except.ok.injEq, exists_eq_left']
      cases next with
      | none =>
        have hu : ¬ Unsettling G w v task.step := fun hu => by
          simpa using Underway.unsettling_next hr hu
        have hset : (Snapshot.pending (v.merge u) none).Settled := .inl rfl
        exact ⟨fun _ => hu, fun _ => hset.honest⟩
      | some step' =>
        obtain ⟨hb, _, ha⟩ := hv.completed_open hr
        rw [honest_pending, ← hv.completed_error hr, Bool.not_eq_true]
        exact ⟨fun hh => hh.2.1, fun he => ⟨hb, he, ha⟩⟩
    · rw [hdrive]
      have hh : Honest ⟨v, [⟨task.step, none, [p]⟩]⟩ := honest_waiting (by simp)
      simpa [hr] using hh
    · rw [hdrive]
      have hset : Snapshot.Settled
          ⟨v, [⟨task.step, some f.repr, if keeps then task.interrupts else []⟩]⟩ :=
        .inr ⟨_, List.mem_singleton_self _, by simp⟩
      simpa [hr] using hset.honest
  · cases hm
  · cases hm

/-- Without unsettling nodes every checkpoint of a run is honest. -/
theorem restricted_honest
    (h : (G.system.restrict fun s m _ => ¬ Provisional G s m).Reachable s) :
    ∀ snapshot, s.snapshot = some snapshot → Honest snapshot := by
  refine h.invariant
    (P := fun s : Workflow => ∀ snapshot, s.snapshot = some snapshot → Honest snapshot)
    (fun s hi => ?_) fun s m t hreach ih hs => ?_
  · cases hi
    simp
  · obtain ⟨hs, hprov⟩ := hs
    cases m with
    | start r =>
      obtain ⟨r', _, _, rfl⟩ | ⟨_, _, _, _, _, hm, _⟩ | ⟨_, _, hm, _⟩ | ⟨_, hm, _⟩ := next_cases hs
      · intro snapshot he
        cases he
        exact honest_pending.mpr ⟨by simp [StartRun.initialState], rfl, rfl⟩
      · cases hm
      · cases hm
      · cases hm
    | node w keeps => exact (node_honest_iff hreach.of_restrict hs).mpr hprov
    | resume r =>
      obtain ⟨_, hm, _⟩ | ⟨_, _, _, _, _, hm, _⟩ | ⟨_, _, _, _, _, _, rfl⟩ | ⟨_, hm, _⟩ := next_cases hs
      · cases hm
      · cases hm
      · exact ih
      · cases hm
    | crash =>
      obtain ⟨_, hm, _⟩ | ⟨_, _, _, _, _, hm, _⟩ | ⟨_, _, hm, _⟩ | ⟨_, _, _, rfl⟩ := next_cases hs
      · cases hm
      · cases hm
      · cases hm
      · exact ih

/-- Which checkpoints are reported honestly: all those of a run without unsettling nodes,
and of any run exactly those that another node left behind. -/
theorem replay_honest_iff (G : AgentGraph) :
    (∀ s, (G.system.restrict fun s m _ => ¬ Provisional G s m).Reachable s →
      ∀ snapshot, s.snapshot = some snapshot → Honest snapshot) ∧
    ∀ s w keeps t, G.system.Reachable s → G.next s (.node w keeps) = some t →
      ((∀ snapshot, t.snapshot = some snapshot → Honest snapshot) ↔
        ¬ Provisional G s (.node w keeps)) :=
  ⟨fun _ => restricted_honest, fun _ _ _ _ => node_honest_iff⟩

/-! A question about a definition for which the knowledge base has no evidence. -/

def definitionRun : StartRun := { ordersRun with question := "Definition of revenue" }

def definitionState : AgentState :=
  definitionRun.initialState.merge { intent := some .knowledge, errorCode := some none }

theorem definition_classify :
    (ordersGraph.superstep (ordersWorld 1 []) none .classify definitionRun.initialState).result =
      .ok ({ intent := some .knowledge, errorCode := some none }, some .retrieveMetrics) :=
  superstep_of rfl rfl rfl (fun _ => rfl) rfl

/-- The checkpoint after `classify` is honest. -/
theorem classify_replay_honest : Honest (.pending definitionState (some .retrieveMetrics)) := by
  let w := ordersWorld 1 []
  have hb : ordersGraph.Before definitionRun .classify definitionRun.initialState := .start definitionRun
  obtain ⟨history, hreach⟩ := hb.reachable
  have hs : ordersGraph.next ⟨some (.pending definitionRun.initialState (some .classify)),
      some none, history⟩ (.node w false) = some _ := next_of_ok definition_classify
  refine ((replay_honest_iff ordersGraph).2 _ w false _ hreach hs).mpr ?_ _ rfl
  intro hp
  obtain ⟨v, task, resume, done, hsnap, _, _, hu⟩ := hp
  cases hsnap
  exact hu

def unanswerable : AgentState where
  metricContext := some []
  citations := some []
  errorCode := some (some "RAG_INSUFFICIENT_EVIDENCE")

/-- After the retrieval `compose` is still to run and will answer, but the run is reported
as failed. -/
theorem insufficient_evidence_misreported :
    ¬ ∀ s, ordersGraph.system.Reachable s →
      ∀ snapshot, s.snapshot = some snapshot → Honest snapshot := by
  intro hall
  let w := ordersWorld 1 []
  have hb : ordersGraph.Before definitionRun .retrieveMetrics definitionState :=
    (Before.start definitionRun).completed (by simp) definition_classify
  have hr : (ordersGraph.superstep w none .retrieveMetrics definitionState).result =
      .ok (unanswerable, some .compose) := superstep_of rfl rfl rfl (fun _ => rfl) rfl
  obtain ⟨history, hreach⟩ := (hb.completed (by simp) hr).reachable
  let reported := snapshotResult "run-1" (.pending (definitionState.merge unanswerable) (some .compose))
  have hi : inspect "run-1" (some (.pending (definitionState.merge unanswerable) (some .compose))) =
      .ok reported := rfl
  have hset := (hall _ hreach _ rfl).inspect hi rfl
  simp [Snapshot.Settled, Snapshot.pending] at hset

end DataCopilot.Agent
