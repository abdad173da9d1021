import DataCopilot.Agent.Course
import DataCopilot.Agent.Service

/-! Which SQL the rows in a state came from. A repair replaces the SQL and keeps the rows of
the attempt before, so the two belong together only in some runs. -/
namespace DataCopilot.Agent
open Sql Effects AgentGraph NorthwindAgentActions AgentWorkflowService

/-- What the execution node makes of a result. -/
def outcome (result : QueryExecutionResult) : AgentState where
  columns := some result.columns
  rows := some result.rows
  resultTruncated := some result.truncated
  errorCode := some none

/-- The execution node had `g` executed under `policy`, and completed with this result. -/
def Executed (history : List Event) (g : GuardedQuery) (policy : QueryPolicy)
    (result : QueryExecutionResult) : Prop :=
  ∃ (later earlier : List Event) (calls : List Call),
    history = later ++ .completed .executeSql (outcome result) :: calls.map .called ++ earlier ∧
      .execute g policy ∈ calls

/-- The result in this state came of executing `g`, the guarded form of the SQL in it. -/
structure CameOf (G : AgentGraph) (history : List Event) (v : AgentState) (g : GuardedQuery) :
    Prop where
  guarded : ∃ sql policy, v.sql = some sql ∧ v.queryPolicy = some policy ∧
    G.actions.guard sql policy = .ok g
  executed : ∃ policy result, v.queryPolicy = some policy ∧ Executed history g policy result ∧
    v.columns = some result.columns ∧ v.rows = some result.rows ∧
    v.resultTruncated = some result.truncated

/-- A result belongs to the SQL it stands beside. -/
def Belongs (G : AgentGraph) (history : List Event) (v : AgentState) : Prop :=
  v.columns.getD [] ≠ [] → ∃ g, CameOf G history v g

/-- How the graph leaves a call that ends here. -/
def Leaves (s : Workflow) : Invocation → Prop
  | .returned values _ => ∃ snapshot, s.snapshot = some snapshot ∧ values = snapshot.values
  | .raised _ snapshot => s.snapshot = some snapshot

/-- What start, resume and inspect return of a run that stands here. -/
inductive Reports (s : Workflow) (result : WorkflowResult) : Prop
  | inspect {runId : String} (returned : inspect runId s.snapshot = .ok result)
  | replay {r : StartRun} {invocation : Invocation}
    (returned : start r s.snapshot invocation = .ok result) (checkpoint : s.snapshot ≠ none)
  | start {r : StartRun} {invocation : Invocation} (leaves : Leaves s invocation)
    (returned : start r none invocation = .ok result)
  | resume {runId tenantId : String} {before : Option Snapshot} {invocation : Invocation}
    (leaves : Leaves s invocation) (returned : resume runId tenantId before invocation = .ok result)

/-- A draft takes the place of an SQL whose result is there, and has another guarded form. -/
def Swaps (G : AgentGraph) (s : Workflow) : Move → Prop
  | .node w _ => ∃ v task resume u next, s.snapshot = some ⟨v, [task]⟩ ∧ s.driving = some resume ∧
      task.step = .generateSql ∧ (G.superstep w resume .generateSql v).result = .ok (u, next) ∧
      v.columns.getD [] ≠ [] ∧
      ∀ g policy sql, v.guardedQuery = some g → v.queryPolicy = some policy → u.sql = some sql →
        G.actions.guard sql policy ≠ .ok g
  | _ => False

variable {G : AgentGraph} {s t : Workflow} {w : World} {resume : Option ApprovalResume}
  {step step' : StepName} {v u : AgentState} {g : GuardedQuery} {history : List Event}

section Reports

/-- The error code apart, a report shows the values of the checkpoint. -/
theorem reportedState_cases (snapshot : Snapshot) :
    ∃ code, reportedState snapshot = snapshot.values.merge { errorCode := code } := by
  unfold reportedState
  cases snapshotErrorCode snapshot with
  | none => exact ⟨none, (AgentState.merge_empty _).symm⟩
  | some code => exact ⟨some (some code), rfl⟩

theorem Reports.state {result : WorkflowResult} (h : Reports s result) :
    ∃ snapshot code, s.snapshot = some snapshot ∧
      result.state = snapshot.values.merge { errorCode := code } := by
  have hsnap (runId : String) (snapshot : Snapshot) :
      ∃ code, (snapshotResult runId snapshot).state = snapshot.values.merge { errorCode := code } :=
    reportedState_cases snapshot
  have hvalues (snapshot : Snapshot) : snapshot.values = snapshot.values.merge { errorCode := none } :=
    (AgentState.merge_empty _).symm
  cases h with
  | @inspect runId returned =>
    cases hs : s.snapshot with
    | none => simp [hs, AgentWorkflowService.inspect] at returned
    | some snapshot =>
      rw [hs] at returned
      cases returned
      obtain ⟨code, hcode⟩ := hsnap runId snapshot
      exact ⟨snapshot, code, rfl, hcode⟩
  | @replay r invocation returned checkpoint =>
    cases hs : s.snapshot with
    | none => exact absurd hs checkpoint
    | some snapshot =>
      simp only [hs, AgentWorkflowService.start] at returned
      split at returned
      · cases returned
        obtain ⟨code, hcode⟩ := hsnap r.runId snapshot
        exact ⟨snapshot, code, rfl, hcode⟩
      · cases returned
  | @start r invocation leaves returned =>
    cases invocation with
    | returned values interrupts =>
      obtain ⟨snapshot, hs, rfl⟩ := leaves
      cases returned
      exact ⟨snapshot, none, hs, hvalues snapshot⟩
    | raised f snapshot =>
      simp only [AgentWorkflowService.start] at returned
      split at returned
      · cases returned
        obtain ⟨code, hcode⟩ := hsnap r.runId snapshot
        exact ⟨snapshot, code, leaves, hcode⟩
      · cases returned
  | @resume runId tenantId before invocation leaves returned =>
    simp only [AgentWorkflowService.resume] at returned
    split at returned
    · cases returned
    split at returned
    · cases returned
    cases invocation with
    | returned values interrupts =>
      obtain ⟨snapshot, hs, rfl⟩ := leaves
      cases returned
      exact ⟨snapshot, none, hs, hvalues snapshot⟩
    | raised f snapshot => cases returned

end Reports

section Kept

theorem Executed.later {policy : QueryPolicy} {result : QueryExecutionResult}
    (h : Executed history g policy result) (newer : List Event) :
    Executed (newer ++ history) g policy result := by
  obtain ⟨later, earlier, calls, rfl, hc⟩ := h
  exact ⟨newer ++ later, earlier, calls, by simp, hc⟩

/-- An update that leaves alone what a result and its SQL are made of. -/
structure Untouched (u : AgentState) : Prop where
  sql : u.sql = none := by rfl
  policy : u.queryPolicy = none := by rfl
  columns : u.columns = none := by rfl
  rows : u.rows = none := by rfl
  truncated : u.resultTruncated = none := by rfl

theorem CameOf.later (h : CameOf G history v g) (newer : List Event) :
    CameOf G (newer ++ history) v g := by
  obtain ⟨hguarded, policy, result, hp, he, hresult⟩ := h
  exact ⟨hguarded, policy, result, hp, he.later newer, hresult⟩

theorem CameOf.merge (h : CameOf G history v g) (hu : Untouched u) :
    CameOf G history (v.merge u) g := by
  obtain ⟨hsql, hpolicy, hcolumns, hrows, htruncated⟩ := hu
  obtain ⟨hguarded, hexecuted⟩ := h
  constructor
  · simpa [AgentState.merge, hsql, hpolicy] using hguarded
  · simpa [AgentState.merge, hpolicy, hcolumns, hrows, htruncated] using hexecuted

/-- The guarded query in the state is the guarded form of the SQL in it. -/
def Guarded (G : AgentGraph) (v : AgentState) : Prop :=
  ∃ sql policy g, v.sql = some sql ∧ v.queryPolicy = some policy ∧ v.guardedQuery = some g ∧
    G.actions.guard sql policy = .ok g

/-- What a node may rely on: no result before the schema is selected, and a guarded query
that fits its SQL where it is to be executed. -/
def Prepared (G : AgentGraph) (v : AgentState) : StepName → Prop
  | .classify | .retrieveMetrics | .selectSchema => v.columns.getD [] = []
  | .requestApproval | .executeSql => Guarded G v
  | _ => True

/-- A result in the state came of the guarded query in the state. -/
def Attached (G : AgentGraph) (history : List Event) (v : AgentState) : Prop :=
  v.columns.getD [] ≠ [] → ∃ g, v.guardedQuery = some g ∧ CameOf G history v g

theorem Attached.later (h : Attached G history v) (newer : List Event) :
    Attached G (newer ++ history) v := by
  intro hc
  obtain ⟨g, hg, hcame⟩ := h hc
  exact ⟨g, hg, hcame.later newer⟩

theorem Attached.merge (h : Attached G history v) (hu : Untouched u) (hg : u.guardedQuery = none) :
    Attached G history (v.merge u) := by
  intro hc
  have hcolumns : (v.merge u).columns = v.columns := by
    rw [AgentState.merge_columns, hu.columns]
    rfl
  rw [hcolumns] at hc
  obtain ⟨g, hq, hcame⟩ := h hc
  exact ⟨g, by simpa [hg] using hq, hcame.merge hu⟩

theorem Attached.of_empty (h : v.columns.getD [] = []) : Attached G history v :=
  fun hc => absurd h hc

end Kept

section Completed

/-- The calls of a node, and its completion on top of them. -/
def doneEvents (G : AgentGraph) (w : World) (resume : Option ApprovalResume) (step : StepName)
    (v u : AgentState) : List Event :=
  .completed step u :: (G.superstep w resume step v).calls.map .called

/-- The step lemma of the nodes: but for a swap, what is attached stays attached. -/
theorem Attached.completed {next : Option StepName} (h : Attached G history v)
    (hp : Prepared G v step) (hr : (G.superstep w resume step v).result = .ok (u, next))
    (hno : step = .generateSql → v.columns.getD [] ≠ [] → ∃ g policy sql,
      v.guardedQuery = some g ∧ v.queryPolicy = some policy ∧ u.sql = some sql ∧
        G.actions.guard sql policy = .ok g) :
    Attached G (doneEvents G w resume step v u ++ history) (v.merge u) := by
  obtain ⟨hu, _⟩ := superstep_ok hr
  cases step with
  | classify =>
    refine .of_empty ?_
    obtain ⟨_, rfl⟩ | ⟨_, rfl⟩ := classify_ok hu
    · exact hp
    · exact hp
  | retrieveMetrics =>
    obtain ⟨_, _, _, _, _, _, rfl⟩ := retrieveMetrics_ok hu
    exact .of_empty hp
  | selectSchema =>
    obtain ⟨_, _, _, _, rfl⟩ := selectSchema_ok hu
    exact .of_empty hp
  | generateSql =>
    obtain ⟨draft, rfl⟩ := generateSql_ok hu
    intro hc
    obtain ⟨g, policy, sql, hg, hpolicy, hsql, hguard⟩ := hno rfl hc
    obtain ⟨g', hg', _, hexecuted⟩ := h hc
    obtain rfl : g = g' := Option.some.inj (hg.symm.trans hg')
    obtain ⟨policy', result, hp', he, hcols, hrows, htrunc⟩ := hexecuted
    exact ⟨g, hg, ⟨sql, policy, hsql, hpolicy, hguard⟩, policy', result, hp',
      he.later _, hcols, hrows, htrunc⟩
  | guardSql =>
    obtain ⟨policy, sql, hpolicy, hsql, ⟨reason, _, rfl⟩ | ⟨g, hg, hrule⟩⟩ := guardSql_ok hu
    · exact (h.merge {} rfl).later _
    · obtain ⟨_, _, _, _, rfl⟩ := rule_ok hrule
      intro hc
      -- the SQL is that of the result, so this is the query that was executed
      obtain ⟨g', _, hcame⟩ := h hc
      obtain ⟨sql', policy', hs', hp', hguard⟩ := hcame.guarded
      obtain rfl : sql = sql' := Option.some.inj (hsql.symm.trans hs')
      obtain rfl : policy = policy' := Option.some.inj (hpolicy.symm.trans hp')
      obtain rfl : g = g' := Except.ok.inj (hg.symm.trans hguard)
      exact ⟨g, rfl, (hcame.merge {}).later _⟩
  | requestApproval =>
    obtain ⟨r, _, rfl, _⟩ := requestApproval_ok hr
    cases r.decision with
    | approved => exact (h.merge {} rfl).later _
    | rejected => exact (h.merge {} rfl).later _
  | executeSql =>
    obtain ⟨g, policy, result, hg, hpolicy, _, rfl⟩ := executeSql_ok hu
    obtain ⟨sql, policy', g', hs, hp', hg', hguard⟩ := hp
    obtain rfl : g = g' := Option.some.inj (hg.symm.trans hg')
    have hcall : .execute g policy ∈ (G.superstep w resume .executeSql v).calls :=
      superstep_calls_of hr (executeSql_executes hg hpolicy)
    intro _
    exact ⟨g, hg, ⟨sql, policy', hs, hp', hguard⟩, policy, result, hpolicy,
      ⟨[], history, _, rfl, hcall⟩, rfl, rfl, rfl⟩
  | verify =>
    rw [verify_ok hu]
    exact (h.merge {} rfl).later _
  | compose =>
    obtain ⟨_, rfl⟩ | ⟨_, rfl⟩ | ⟨_, _, _, _, rfl⟩ := compose_ok hu
    · exact (h.merge {} rfl).later _
    · exact (h.merge {} rfl).later _
    · exact (h.merge {} rfl).later _

theorem Prepared.completed (hp : Prepared G v step)
    (hr : (G.superstep w resume step v).result = .ok (u, some step')) :
    Prepared G (v.merge u) step' := by
  obtain ⟨hu, hn⟩ := superstep_ok hr
  cases step with
  | classify =>
    simp only [route, Except.ok.injEq] at hn
    split at hn
    · cases hn
    · cases hn
      obtain ⟨_, rfl⟩ | ⟨_, rfl⟩ := classify_ok hu
      · exact hp
      · exact hp
  | retrieveMetrics =>
    obtain ⟨intent, _, hnext⟩ := G.route_retrieveMetrics.mp hn
    obtain ⟨_, _, _, _, _, _, rfl⟩ := retrieveMetrics_ok hu
    split at hnext
    · cases hnext
      trivial
    · cases hnext
      exact hp
  | selectSchema =>
    cases hn
    trivial
  | generateSql =>
    cases hn
    trivial
  | guardSql =>
    obtain ⟨policy, sql, hpolicy, hsql, ⟨reason, _, rfl⟩ | ⟨g, hg, hrule⟩⟩ := guardSql_ok hu
    · rw [G.route_refusal] at hn
      split at hn
      · cases hn
        trivial
      · cases hn
    · obtain ⟨_, _, _, _, rfl⟩ := rule_ok hrule
      have hguarded (reasons : List String) : Guarded G (v.merge (ruling g reasons)) :=
        ⟨sql, policy, g, hsql, hpolicy, rfl, hg⟩
      obtain ⟨risk, hrisk, hafter⟩ := G.route_guardSql.mp hn
      simp only [ruling, AgentState.merge_sqlRisk] at hrisk
      split at hrisk
      · cases hrisk
        cases hafter
        exact hguarded _
      · cases hrisk
        cases hafter
        exact hguarded _
  | requestApproval =>
    obtain ⟨r, _, rfl, hnext⟩ := requestApproval_ok hr
    split at hnext
    · cases hnext
      cases r.decision with
      | approved => exact hp
      | rejected => exact hp
    · cases hnext
  | executeSql =>
    cases hn
    trivial
  | verify =>
    simp only [route, Except.ok.injEq] at hn
    split at hn
    · cases hn
      trivial
    · cases hn
      trivial
  | compose => cases hn

end Completed

section Run

/-- What every checkpoint keeps. -/
structure Traced (G : AgentGraph) (s : Workflow) : Prop where
  attached : ∀ snapshot, s.snapshot = some snapshot → Attached G s.history snapshot.values
  prepared : ∀ v task, s.snapshot = some ⟨v, [task]⟩ → Prepared G v task.step

/-- No node runs while the checkpoint is only read or the call breaks off. -/
theorem Traced.same (h : Traced G s) (newer : List Event) {driving : Option (Option ApprovalResume)} :
    Traced G ⟨s.snapshot, driving, newer ++ s.history⟩ where
  attached snapshot hs := (h.attached snapshot hs).later newer
  prepared := h.prepared

theorem traced (h : (G.system.restrict fun s m _ => ¬ Swaps G s m).Reachable s) : Traced G s := by
  refine h.invariant (P := Traced G) (fun s hi => ?_) fun s m t _ ih hs => ?_
  · cases hi
    constructor
    · intro snapshot he
      cases he
    · intro v task he
      cases he
  · obtain ⟨hs, hno⟩ := hs
    obtain ⟨r, rfl, hn, rfl⟩ | ⟨w, keeps, v, task, resume, rfl, hsnap, hd, rfl⟩ |
      ⟨r, snapshot, rfl, hsnap, hd, hi, rfl⟩ | ⟨resume, rfl, hd, rfl⟩ := next_cases hs
    · refine ⟨fun snapshot he => ?_, fun v task he => ?_⟩
      · cases he
        exact .of_empty rfl
      · cases he
        rfl
    · have ha := ih.attached _ hsnap
      have hp := ih.prepared v task hsnap
      have hcases := @drive_cases G w keeps v task resume s.history
      obtain ⟨u, next, hr, hdrive⟩ | ⟨p, _, hdrive⟩ | ⟨f, _, hdrive⟩ := hcases
      · rw [hdrive]
        refine ⟨fun snapshot he => ?_, fun v' task' he => ?_⟩
        · cases he
          refine ha.completed hp hr fun hstep hc => ?_
          by_contra hnone
          refine hno ⟨v, task, resume, u, next, hsnap, hd, hstep, hstep ▸ hr, hc, ?_⟩
          intro g policy sql hg hpolicy hsql hguard
          exact hnone ⟨g, policy, sql, hg, hpolicy, hsql, hguard⟩
        · obtain ⟨step, rfl, rfl, rfl⟩ := Audited.pending_single (Option.some.inj he)
          exact hp.completed hr
      · rw [hdrive]
        refine ⟨fun snapshot he => ?_, fun v' task' he => ?_⟩
        · cases he
          exact ha.later _
        · cases he
          exact hp
      · rw [hdrive]
        refine ⟨fun snapshot he => ?_, fun v' task' he => ?_⟩
        · cases he
          exact ha.later _
        · cases he
          exact hp
    · exact ih.same [.resumed r]
    · exact ih.same [.crashed]

/-- In a run without swaps, every report pairs its result with the SQL it came of. -/
theorem result_belongs (h : (G.system.restrict fun s m _ => ¬ Swaps G s m).Reachable s)
    {result : WorkflowResult} (hr : Reports s result) : Belongs G s.history result.state := by
  obtain ⟨snapshot, code, hs, hstate⟩ := hr.state
  intro hc
  rw [hstate] at hc ⊢
  obtain ⟨g, _, hcame⟩ := (traced h).attached snapshot hs hc
  exact ⟨g, hcame.merge {}⟩

end Run

/-! Swaps belong to repairs: in its first attempt a run has none. -/
section FirstAttempt

/-- A result, and the nodes after the draft, come with an attempt that is counted. -/
structure Tried (next : Option StepName) (v : AgentState) : Prop where
  node : ∀ step, next = some step → StepName.generateSql.stage < step.stage →
    step.stage ≤ StepName.verify.stage → 1 ≤ v.attempt
  result : v.columns.getD [] ≠ [] → 1 ≤ v.attempt

/-- Attempts are never taken back. -/
theorem Counts.le (h : Counts step v u) : v.attempt ≤ (v.merge u).attempt := by
  rw [h]
  split_ifs with hs
  · exact Nat.le_succ _
  · exact le_refl _

theorem Tried.completed {next : Option StepName} (h : Tried (some step) v)
    (hr : (G.superstep w resume step v).result = .ok (u, next)) : Tried next (v.merge u) := by
  have hcounts := completed_counts hr
  constructor
  · intro step' he hlate hloop
    subst he
    have hroute := route_stage (superstep_ok hr).2
    by_cases hg : step = .generateSql
    · rw [hcounts, if_pos hg]
      omega
    · have hne : step.stage ≠ StepName.generateSql.stage := fun h => hg (StepName.stage_injective h)
      have hattempt : 1 ≤ v.attempt := h.node step rfl (by omega) (by omega)
      exact hattempt.trans hcounts.le
  · intro hc
    have hattempt : 1 ≤ v.attempt := by
      by_cases hx : step = .executeSql
      · exact h.node step rfl (by rw [hx]; decide) (by rw [hx]; decide)
      · rw [(superstep_frame hr).columns hx] at hc
        exact h.result hc
    exact hattempt.trans hcounts.le

theorem tried (h : G.system.Reachable s) :
    ∀ snapshot, s.snapshot = some snapshot →
      Tried (snapshot.tasks.head?.map Task.step) snapshot.values := by
  refine checkpoint_invariant (fun r => ?_) (fun _ _ _ _ _ _ hv hr => hv.completed hr) h
  constructor
  · intro step he hlate
    cases he
    exact absurd hlate (by decide)
  · intro hc
    exact absurd rfl hc

theorem first_attempt (h : G.system.Reachable s) :
    (G.system.restrict fun s m _ => ¬ Swaps G s m).Reachable s ∨
      ∃ snapshot, s.snapshot = some snapshot ∧ 2 ≤ snapshot.values.attempt := by
  refine h.invariant (P := fun s => (G.system.restrict fun s m _ => ¬ Swaps G s m).Reachable s ∨
      ∃ snapshot, s.snapshot = some snapshot ∧ 2 ≤ snapshot.values.attempt) (fun s hi => ?_)
    fun s m t hreach ih hs => ?_
  · exact .inl (.start hi)
  · obtain ih | ⟨snapshot, hsnap, htwo⟩ := ih
    · by_cases hno : Swaps G s m
      · right
        cases m with
        | node w keeps =>
          obtain ⟨v, task, resume, u, next, hsnap, hd, hstep, hr, hc, _⟩ := hno
          have hone := (tried hreach _ hsnap).result hc
          have hcounts := completed_counts hr
          obtain ⟨step, error, interrupts⟩ := task
          obtain rfl : step = .generateSql := hstep
          obtain ⟨checkpoint, driving, history⟩ := s
          obtain rfl : checkpoint = _ := hsnap
          obtain rfl : driving = _ := hd
          have hnext : G.next ⟨some ⟨v, [⟨.generateSql, error, interrupts⟩]⟩, some resume, history⟩
              (.node w keeps) = some _ := next_of_ok hr
          obtain rfl := Option.some.inj (hnext.symm.trans hs)
          refine ⟨_, rfl, ?_⟩
          rw [Snapshot.pending, hcounts, if_pos rfl]
          exact Nat.succ_le_succ hone
        | start r => exact hno.elim
        | resume r => exact hno.elim
        | crash => exact hno.elim
      · exact .inl (ih.step ⟨hs, hno⟩)
    · right
      obtain ⟨r, rfl, hn, rfl⟩ | ⟨w, keeps, v, task, resume, rfl, hs', hd, rfl⟩ |
        ⟨r, snap, rfl, hs', hd, hi, rfl⟩ | ⟨resume, rfl, hd, rfl⟩ := next_cases hs
      · rw [hn] at hsnap
        cases hsnap
      · rw [hsnap] at hs'
        cases hs'
        have hcases := @drive_cases G w keeps v task resume s.history
        obtain ⟨u, next, hr, hdrive⟩ | ⟨p, _, hdrive⟩ | ⟨f, _, hdrive⟩ := hcases
        · rw [hdrive]
          exact ⟨_, rfl, htwo.trans (completed_counts hr).le⟩
        · rw [hdrive]
          exact ⟨_, rfl, htwo⟩
        · rw [hdrive]
          exact ⟨_, rfl, htwo⟩
      · exact ⟨snapshot, hsnap, htwo⟩
      · exact ⟨snapshot, hsnap, htwo⟩

end FirstAttempt

/-! The list of orders: executed once, and repaired by a draft that does not parse. -/
section Orders

theorem orders_executed_columns (columns : List String) :
    ∃ v, ordersGraph.Before ordersRun .verify v ∧ Drafted 1 v ∧ v.columns = some columns := by
  obtain ⟨v, hb, hv, hg⟩ := orders_cleared
  have hr : (ordersGraph.superstep (ordersWorld 1 columns) none .executeSql v).result =
      .ok (_, some .verify) :=
    superstep_of (executeSql_of hg hv.queryPolicy rfl) hv.traceId hv.runId (fun _ => rfl) rfl
  obtain ⟨⟨hrun, htenant, htrace, hq, hc, hconf, hs, hp⟩, hsql, hplan, ha⟩ := hv
  exact ⟨_, hb.completed (by simp) hr,
    ⟨⟨hrun, htenant, htrace, hq, hc, hconf, hs, hp⟩, hsql, hplan, ha⟩, rfl⟩

/-- The rows of the first attempt belong to its SQL. -/
theorem orders_belong : ∃ history v, v.columns = some ["order_id"] ∧
    Belongs ordersGraph history (snapshotResult "run-1" (.pending v (some .verify))).state := by
  obtain ⟨v, hb, hv, hc⟩ := orders_executed_columns ["order_id"]
  obtain ⟨history, hreach⟩ := hb.reachable
  have hsteady : (ordersGraph.system.restrict fun s m _ => ¬ Swaps ordersGraph s m).Reachable
      ⟨some (.pending v (some .verify)), some none, history⟩ := by
    obtain h | ⟨snapshot, he, htwo⟩ := first_attempt hreach
    · exact h
    · cases he
      simp [Snapshot.pending, AgentState.attempt, hv.attempts] at htwo
  exact ⟨history, v, hc, result_belongs hsteady (.inspect rfl)⟩

def brokenText : String := "SELECT order_id FROM northwind.orders WHERE"

def brokenDraft : NL2SQLDraft where
  analysisPlan := ordersDraft.analysisPlan
  tablesUsed := ["orders"]
  sql := brokenText
  tables_ok := orders_selectable
  sql_ok := by decide

def brokenWorld : World := { ordersWorld 1 ["total"] with draft := fun _ => .ok brokenDraft }

/-- The second draft replaces the SQL and nothing of the first result. -/
theorem broken_drafted : ∃ v, ordersGraph.Before ordersRun .guardSql v ∧ Selected v ∧
    v.sql = some brokenText ∧ v.attempts = some 2 ∧ v.columns = some ["total"] := by
  obtain ⟨v, hb, hv, hc⟩ := orders_executed_columns ["total"]
  have hverify := orders_mismatched (w := brokenWorld) hv hc (by decide) (fun _ => rfl)
  have hb' := hb.completed (by simp) hverify
  obtain ⟨⟨hrun, htenant, htrace, hq, htables, hconf, hs, hp⟩, hsql, hplan, ha⟩ := hv
  obtain ⟨base, sent, hbase, hsent⟩ := orders_prompts
    (v := v.merge { errorCode := some (some "RESULT_COLUMNS_MISMATCH") }) (.inr ⟨hsql, rfl⟩)
  have hdraft : (ordersGraph.superstep brokenWorld none .generateSql
      (v.merge { errorCode := some (some "RESULT_COLUMNS_MISMATCH") })).result =
      .ok (_, some .guardSql) :=
    superstep_of (generateSql_of hs hp hq htables hbase hsent rfl rfl rfl) htrace hrun (fun _ => rfl) rfl
  refine ⟨_, hb'.completed (by simp) hdraft, ⟨hrun, htenant, htrace, hq, htables, hconf, hs, hp⟩,
    rfl, ?_, hc⟩
  simp [AgentState.attempt, ha]

/-- The guard refuses it, and asks for a third. -/
theorem broken_refused : ∃ v, ordersGraph.Before ordersRun .generateSql v ∧ Selected v ∧
    v.sql = some brokenText ∧ v.columns = some ["total"] := by
  obtain ⟨v, hb, hv, hsql, ha, hc⟩ := broken_drafted
  have hguard : ordersGraph.actions.guard brokenText catalogPolicy =
      .error (.policyViolation .sqlParseError) := rfl
  have hu : (ordersGraph.actions.guardSql brokenWorld v).result = .ok (refusal .sqlParseError) := by
    simp [guardSql, hv.queryPolicy, hsql, hguard]
  have hroute : ordersGraph.route .guardSql (v.merge (refusal .sqlParseError)) =
      .ok (some .generateSql) := by
    rw [ordersGraph.route_refusal, attemptsLeft, AgentState.attempt, ha]
    rfl
  have hr : (ordersGraph.superstep brokenWorld none .guardSql v).result =
      .ok (refusal .sqlParseError, some .generateSql) :=
    superstep_of hu hv.traceId hv.runId (fun _ => rfl) hroute
  obtain ⟨hrun, htenant, htrace, hq, htables, hconf, hs, hp⟩ := hv
  exact ⟨_, hb.completed (by simp) hr, ⟨hrun, htenant, htrace, hq, htables, hconf, hs, hp⟩, hsql, hc⟩

def llmTimeout : Failure where
  className := "LLMTimeoutError"
  code := some "LLM_TIMEOUT"
  kind := .llm true

def timeoutWorld : World := { ordersWorld 1 ["total"] with draft := fun _ => .error llmTimeout }

/-- Without a draft there is no update. -/
theorem timeout_fails : ∃ f, (ordersGraph.superstep timeoutWorld none .generateSql v).result =
    .error (.failure f) := by
  cases hr : (ordersGraph.superstep timeoutWorld none .generateSql v).result with
  | ok done =>
    obtain ⟨hu, _⟩ := superstep_ok hr
    simp only [AgentGraph.operation, generateSql, Effect.bind_result, ask_result] at hu
    obtain ⟨_, _, _, _, _, _, _, _, _, _, _, _, _, hd, _⟩ := hu
    cases hd
  | error stop =>
    cases stop with
    | failure f => exact ⟨f, rfl⟩
    | interrupt p =>
      obtain ⟨hstep, _⟩ := superstep_interrupt hr
      cases hstep

/-- The third draft fails. The run is then reported with the rows of its first draft beside the
SQL of its second, which was never executed. -/
theorem repair_keeps_rows : ¬ ∀ (s : Workflow) (result : WorkflowResult),
    ordersGraph.system.Reachable s → Reports s result →
      Belongs ordersGraph s.history result.state := by
  intro hall
  obtain ⟨v, hb, hv, hsql, hc⟩ := broken_refused
  obtain ⟨history, hreach⟩ := hb.reachable
  obtain ⟨f, hr⟩ := timeout_fails (v := v)
  have hs : ordersGraph.next ⟨some (.pending v (some .generateSql)), some none, history⟩
      (.node timeoutWorld false) =
      some ⟨some ⟨v, [⟨.generateSql, some f.repr, []⟩]⟩, none, .failed .generateSql f ::
        (ordersGraph.superstep timeoutWorld none .generateSql v).calls.map .called ++ history⟩ := by
    simp [AgentGraph.next, drive, Snapshot.pending, hr]
  have hcode : snapshotErrorCode ⟨v, [⟨.generateSql, some f.repr, []⟩]⟩ = some (errorCode f.repr) := by
    simp [snapshotErrorCode, truthy, f.repr_ne]
  let left : Snapshot := ⟨v, [⟨.generateSql, some f.repr, []⟩]⟩
  have hstart : start ordersRun none (.raised f left) = .ok (snapshotResult "run-1" left) := by
    simp [AgentWorkflowService.start, left, hcode, ordersRun]
  have hstate : (snapshotResult "run-1" left).state =
      v.merge { errorCode := some (some (errorCode f.repr)) } := by
    simp only [snapshotResult, reportedState, left, hcode]
    rfl
  have hbelongs := hall _ _ (hreach.step hs) 
    (@Reports.start _ _ _ (.raised f left) rfl hstart)
  rw [hstate] at hbelongs
  obtain ⟨g, ⟨sql, policy, hs', hp', hguard⟩, _⟩ := hbelongs (by simp [hc])
  have hbroken : ordersGraph.actions.guard brokenText catalogPolicy =
      .error (.policyViolation .sqlParseError) := rfl
  obtain rfl : brokenText = sql := Option.some.inj (hsql.symm.trans hs')
  obtain rfl : catalogPolicy = policy := Option.some.inj (hv.queryPolicy.symm.trans hp')
  rw [hbroken] at hguard
  cases hguard

end Orders
end DataCopilot.Agent
