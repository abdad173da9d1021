import DataCopilot.Agent.Replay

/-! What the entry points report of a run in which a node has failed: start reads the failure off the
snapshot, and so do later calls; resume lets the exception go. -/
namespace DataCopilot.Agent
open Sql Effects AgentGraph NorthwindAgentActions AgentWorkflowService

/-- A call that drives the graph. `found` is the snapshot that resume has read. -/
inductive EntryCall where
  | start (r : StartRun)
  | resume (runId tenantId : String) (found : Option Snapshot)

/-- What its caller gets once the graph has been invoked. -/
def EntryCall.answer (invocation : Invocation) : EntryCall → Except ServiceError WorkflowResult
  | .start r => AgentWorkflowService.start r none invocation
  | .resume runId tenantId found => AgentWorkflowService.resume runId tenantId found invocation

/-- The graph is driven by the last call of the history. -/
def EntryCall.Drives (call : EntryCall) : List Event → Prop
  | [] => False
  | .started r :: _ => call = .start r
  | .resumed _ :: _ => ∃ runId tenantId found, call = .resume runId tenantId found
  | _ :: history => call.Drives history

def WorkflowResult.Shows (result : WorkflowResult) (f : Failure) : Prop :=
  result.status = .failed ∧ result.state.error = some (errorCode f.repr)

/-- The failure is the result of the call that drove the graph, and of every later start and `inspect`
of the run. -/
structure ReportedAlike (G : AgentGraph) (call : EntryCall) (f : Failure) (t : Workflow) : Prop where
  returned : ∃ left result, t.snapshot = some left ∧ call.answer (.raised f left) = .ok result ∧
    result.Shows f
  inspected : ∀ {moves u}, G.system.Path t moves u → ∀ runId, ∃ result,
    inspect runId u.snapshot = .ok result ∧ result.Shows f
  started : ∀ {moves u}, G.system.Path t moves u → ∀ r, .started r ∈ t.history → ∀ invocation,
    ∃ result, start r u.snapshot invocation = .ok result ∧ result.Shows f

variable {G : AgentGraph} {s t u : Workflow} {w : World} {v update : AgentState} {step : StepName}
  {resume : Option ApprovalResume} {f : Failure} {r : StartRun} {runId : String}

theorem errorCode_mem (error : String) :
    errorCode error ∈ "AGENT_WORKFLOW_FAILED" :: errorCodes.map Prod.snd := by
  rw [errorCode]
  cases h : errorCodes.lookup (errorName error) with
  | none => exact List.mem_cons_self
  | some code =>
    obtain ⟨before, after, hl, -⟩ := List.lookup_eq_some_iff.mp h
    apply List.mem_cons_of_mem
    rw [hl, List.map_append, List.map_cons]
    exact List.mem_append_right _ List.mem_cons_self

/-- No class of exceptions has the code of a rejection. -/
theorem errorCode_fails (error : String) :
    errorCode error ≠ "APPROVAL_REJECTED" ∧ truthy (some (errorCode error)) = true := by
  have hall : ∀ code ∈ "AGENT_WORKFLOW_FAILED" :: errorCodes.map Prod.snd,
      code ≠ "APPROVAL_REJECTED" ∧ truthy (some code) = true := by decide
  exact hall _ (errorCode_mem error)

theorem snapshotErrorCode_failed {task : Task} (he : task.error = some f.repr) :
    snapshotErrorCode ⟨v, [task]⟩ = some (errorCode f.repr) := by
  have ht : truthy (some f.repr) = true := truthy_some.mpr f.repr_ne
  simp [snapshotErrorCode, he, ht]

theorem snapshotResult_failed {task : Task} (he : task.error = some f.repr) (hi : task.interrupts = [])
    (hb : v.sqlRisk ≠ some .blocked) : (snapshotResult runId ⟨v, [task]⟩).Shows f := by
  have hcode := errorCode_fails f.repr
  have hstate : reportedState ⟨v, [task]⟩ = { v with errorCode := some (some (errorCode f.repr)) } := by
    rw [reportedState, snapshotErrorCode_failed he]
  have herror : (reportedState ⟨v, [task]⟩).error = some (errorCode f.repr) := by
    rw [hstate]
    rfl
  refine ⟨?_, herror⟩
  have hrisk : (reportedState ⟨v, [task]⟩).sqlRisk = v.sqlRisk := by rw [hstate]
  simp [snapshotResult, status, hi, herror, hrisk, hcode.1, hcode.2, hb]

/-- No node touches the keys that identify the request. -/
theorem identity_kept {next : Option StepName}
    (hr : (G.superstep w resume step v).result = .ok (update, next)) :
    update.runId = none ∧ update.tenantId = none ∧ update.userId = none ∧ update.dataSourceId = none ∧
      update.question = none := by
  obtain ⟨hu, -⟩ := superstep_ok hr
  cases step with
  | classify =>
    obtain ⟨reason, rfl⟩ | ⟨intent, rfl⟩ := classify_ok hu
    · exact ⟨rfl, rfl, rfl, rfl, rfl⟩
    · exact ⟨rfl, rfl, rfl, rfl, rfl⟩
  | retrieveMetrics =>
    obtain ⟨_, _, _, _, _, _, rfl⟩ := retrieveMetrics_ok hu
    exact ⟨rfl, rfl, rfl, rfl, rfl⟩
  | selectSchema =>
    obtain ⟨_, _, _, _, rfl⟩ := selectSchema_ok hu
    exact ⟨rfl, rfl, rfl, rfl, rfl⟩
  | generateSql =>
    obtain ⟨_, rfl⟩ := generateSql_ok hu
    exact ⟨rfl, rfl, rfl, rfl, rfl⟩
  | guardSql =>
    obtain ⟨_, _, _, _, ⟨_, _, rfl⟩ | ⟨_, _, hrule⟩⟩ := guardSql_ok hu
    · exact ⟨rfl, rfl, rfl, rfl, rfl⟩
    · obtain ⟨_, _, _, _, rfl⟩ := rule_ok hrule
      exact ⟨rfl, rfl, rfl, rfl, rfl⟩
  | requestApproval =>
    obtain ⟨r, _, rfl⟩ := pause_ok hu
    cases hd : r.decision with
    | approved => simp [decided]
    | rejected => simp [decided]
  | executeSql =>
    obtain ⟨_, _, _, _, _, _, rfl⟩ := executeSql_ok hu
    exact ⟨rfl, rfl, rfl, rfl, rfl⟩
  | verify =>
    rw [verify_ok hu]
    exact ⟨rfl, rfl, rfl, rfl, rfl⟩
  | compose =>
    obtain ⟨_, rfl⟩ | ⟨_, rfl⟩ | ⟨_, _, _, _, rfl⟩ := compose_ok hu
    · exact ⟨rfl, rfl, rfl, rfl, rfl⟩
    · exact ⟨rfl, rfl, rfl, rfl, rfl⟩
    · exact ⟨rfl, rfl, rfl, rfl, rfl⟩

/-- The checkpoint belongs to the request that the run was started with. -/
def Identified (s : Workflow) : Prop :=
  (s.snapshot = none → ∀ r, .started r ∉ s.history) ∧
    ∀ snapshot r, s.snapshot = some snapshot → .started r ∈ s.history → sameIdentity r snapshot.values

theorem identified (h : G.system.Reachable s) : Identified s := by
  apply h.invariant
  · intro s hi
    rw [hi]
    refine ⟨fun _ r hm => (by cases hm), ?_⟩
    intro snapshot r hs
    cases hs
  · intro s m t _ ih hs
    obtain ⟨request, -, hn, rfl⟩ | ⟨w, keeps, v, task, resume, -, hsnap, -, rfl⟩ |
      ⟨resume, _, -, -, -, -, rfl⟩ | ⟨_, -, -, rfl⟩ := next_cases hs
    · refine ⟨fun hc => (by cases hc), ?_⟩
      intro snapshot r he hm
      cases he
      have hr : r = request := by
        cases List.mem_cons.mp hm with
        | inl h =>
          injection h
        | inr h => exact absurd h (ih.1 hn r)
      rw [hr]
      exact ⟨rfl, rfl, rfl, rfl⟩
    · have hid : ∀ r, .started r ∈ s.history → sameIdentity r v := fun r hm => ih.2 _ r hsnap hm
      obtain ⟨u, next, hr, hdrive⟩ | ⟨p, -, hdrive⟩ | ⟨f, -, hdrive⟩ :=
        @drive_cases G w keeps v task resume s.history
      · rw [hdrive]
        refine ⟨fun hc => (by cases hc), ?_⟩
        intro snapshot r he hm
        cases he
        have hm' : .started r ∈ s.history := by simpa using hm
        obtain ⟨ht, hu, hd, hq⟩ := hid r hm'
        obtain ⟨-, hnt, hnu, hnd, hnq⟩ := identity_kept hr
        refine ⟨?_, ?_, ?_, ?_⟩
        · simpa [Snapshot.pending, AgentState.merge, hnt] using ht
        · simpa [Snapshot.pending, AgentState.merge, hnu] using hu
        · simpa [Snapshot.pending, AgentState.merge, hnd] using hd
        · simpa [Snapshot.pending, AgentState.merge, hnq] using hq
      · rw [hdrive]
        refine ⟨fun hc => (by cases hc), ?_⟩
        intro snapshot r he hm
        cases he
        exact hid r (by simpa using hm)
      · rw [hdrive]
        refine ⟨fun hc => (by cases hc), ?_⟩
        intro snapshot r he hm
        cases he
        exact hid r (by simpa using hm)
    · have hm : ∀ r, .started r ∈ s.history ↔ .started r ∈ Event.resumed resume :: s.history := by simp
      exact ⟨fun hc r h => ih.1 hc r ((hm r).mpr h), fun snapshot r he h => ih.2 snapshot r he ((hm r).mpr h)⟩
    · have hm : ∀ r, .started r ∈ s.history ↔ .started r ∈ Event.crashed :: s.history := by simp
      exact ⟨fun hc r h => ih.1 hc r ((hm r).mpr h), fun snapshot r he h => ih.2 snapshot r he ((hm r).mpr h)⟩

/-- A task that start has to run has not been interrupted. -/
theorem uninterrupted (h : G.system.Reachable s) : ∀ v task decision, s.snapshot = some ⟨v, [task]⟩ →
    s.driving = some decision → (EntryCall.start r).Drives s.history → task.interrupts = [] := by
  apply h.invariant (P := fun s : Workflow => ∀ v task decision, s.snapshot = some ⟨v, [task]⟩ →
    s.driving = some decision → (EntryCall.start r).Drives s.history → task.interrupts = [])
  · intro s hi
    rw [hi]
    intro v task decision hs
    cases hs
  · intro s m t _ ih hs
    obtain ⟨request, -, -, rfl⟩ | ⟨w, keeps, v, task, resume, -, -, -, rfl⟩ |
      ⟨_, _, -, -, -, -, rfl⟩ | ⟨_, -, -, rfl⟩ := next_cases hs
    · intro v task decision hs hd hc
      cases hs
      rfl
    · obtain ⟨u, next, -, hdrive⟩ | ⟨p, -, hdrive⟩ | ⟨f, -, hdrive⟩ :=
        @drive_cases G w keeps v task resume s.history
      · rw [hdrive]
        intro v' task' decision hs hd _
        cases next with
        | none => cases hd
        | some step =>
          cases hs
          rfl
      · rw [hdrive]
        intro _ _ _ _ hd
        cases hd
      · rw [hdrive]
        intro _ _ _ _ hd
        cases hd
    · intro v task decision hs hd hc
      obtain ⟨_, _, _, hc⟩ := hc
      cases hc
    · intro v task decision hs hd
      cases hd

/-- A run that waits for nothing and is driven by nobody stays as it is. -/
theorem path_settled {snapshot : Snapshot} {moves : List Move} (hs : t.snapshot = some snapshot)
    (hi : snapshot.interrupted = false) (hd : t.driving = none) (h : G.system.Path t moves u) : u = t := by
  induction h with
  | refl => rfl
  | step _ hm ih =>
    obtain rfl := ih hs hd
    obtain ⟨_, -, hn, -⟩ | ⟨_, _, _, _, _, -, -, hn, -⟩ | ⟨_, _, -, hn, -, hw, -⟩ | ⟨_, -, hn, -⟩ :=
      next_cases hm
    · rw [hs] at hn
      cases hn
    · rw [hd] at hn
      cases hn
    · rw [hs] at hn
      cases hn
      rw [hi] at hw
      cases hw
    · rw [hd] at hn
      cases hn

/-- What a node that fails leaves behind. -/
theorem node_failed {keeps : Bool} (hm : G.next s (.node w keeps) = some t)
    (hf : t.history.head? = some (.failed step f)) :
    ∃ v task resume, s.snapshot = some ⟨v, [task]⟩ ∧ s.driving = some resume ∧
      t.snapshot = some ⟨v, [⟨task.step, some f.repr, if keeps then task.interrupts else []⟩]⟩ ∧
      t.driving = none ∧ ∀ r, .started r ∈ t.history ↔ .started r ∈ s.history := by
  obtain ⟨_, h, -⟩ | ⟨w', keeps', v, task, resume, h, hsnap, hd, rfl⟩ | ⟨_, _, h, -⟩ | ⟨_, h, -⟩ :=
    next_cases hm
  · cases h
  · cases h
    obtain ⟨u, next, -, hdrive⟩ | ⟨p, -, hdrive⟩ | ⟨f', -, hdrive⟩ :=
      @drive_cases G w keeps v task resume s.history
    · rw [hdrive] at hf
      cases hf
    · rw [hdrive] at hf
      cases hf
    · rw [hdrive] at hf ⊢
      cases hf
      exact ⟨v, task, resume, hsnap, hd, rfl, rfl, fun r => by simp⟩
  · cases h
  · cases h

theorem resume_escapes {tenantId : String} {found : Option Snapshot} {left : Snapshot}
    {result : WorkflowResult}
    (h : AgentWorkflowService.resume runId tenantId found (.raised f left) = .ok result) : False := by
  simp only [AgentWorkflowService.resume] at h
  split at h
  · cases h
  · split at h
    · cases h
    · cases h

theorem start_reports {left : Snapshot} (hcode : snapshotErrorCode left = some (errorCode f.repr)) :
    start r none (.raised f left) = .ok (snapshotResult r.runId left) := by
  simp [AgentWorkflowService.start, hcode]

/-- A node fails as its operation does when the failure can be recorded. -/
theorem superstep_fails {runId traceId : String}
    (hu : (G.operation w resume step v).result = .error (.failure f)) (ht : v.traceId = some traceId)
    (hr : v.runId = some runId) (hw : ∀ status, w.record status = .ok ()) :
    (G.superstep w resume step v).result = .error (.failure f) := by
  have hgive : (giveUp G.actions.py w step v (.failure f)).result = .error (.failure f) := by
    apply Effect.bind_error.mpr
    right
    refine ⟨(), ?_, rfl⟩
    simp [recordStep, record, hr, hw]
  have htimed : (timedStep G.actions.py w step v (G.operation w resume step)).result =
      .error (.failure f) := by
    apply Effect.bind_error.mpr
    right
    refine ⟨traceId, by simp [ht], ?_⟩
    apply Effect.handle_error.mpr
    exact ⟨.failure f, Effect.bind_error.mpr (.inl hu), hgive⟩
  exact Effect.bind_error.mpr (.inl htimed)

/-- A failure is reported alike exactly if start was driving the graph. -/
theorem failure_reported_iff {keeps : Bool} {call : EntryCall} (h : G.system.Reachable s)
    (hc : call.Drives s.history) (hm : G.next s (.node w keeps) = some t)
    (hf : t.history.head? = some (.failed step f)) :
    ReportedAlike G call f t ↔ ∃ r, call = .start r := by
  obtain ⟨v, task, decision, hs, hd, ht, htd, hstarted⟩ := node_failed hm hf
  constructor
  · intro hr
    cases call with
    | start r => exact ⟨r, rfl⟩
    | resume runId tenantId found =>
      obtain ⟨left, result, -, ha, -⟩ := hr.returned
      have he : AgentWorkflowService.resume runId tenantId found (.raised f left) = .ok result := ha
      exact (resume_escapes he).elim
  · rintro ⟨r, rfl⟩
    have hi : task.interrupts = [] := uninterrupted h v task decision hs hd hc
    have hb : v.sqlRisk ≠ some .blocked := (underway h v task hs).unblocked
    rw [hi, ite_self] at ht
    have hshows : ∀ runId, (snapshotResult runId ⟨v, [⟨task.step, some f.repr, []⟩]⟩).Shows f :=
      fun runId => snapshotResult_failed rfl rfl hb
    have hstays : ∀ {moves u}, G.system.Path t moves u → u.snapshot = t.snapshot := by
      intro moves u hp
      rw [path_settled ht (by simp [Snapshot.interrupted]) htd hp]
    refine ⟨⟨_, _, ht, start_reports (snapshotErrorCode_failed rfl), hshows r.runId⟩, ?_, ?_⟩
    · intro moves u hp runId
      rw [hstays hp, ht]
      exact ⟨_, rfl, hshows runId⟩
    · intro moves u hp r' hm' invocation
      rw [hstays hp, ht]
      have hid : sameIdentity r' v := (identified h).2 _ r' hs ((hstarted r').mp hm')
      refine ⟨snapshotResult r'.runId ⟨v, [⟨task.step, some f.repr, []⟩]⟩, ?_, hshows r'.runId⟩
      rw [AgentWorkflowService.start, if_pos hid]
      rfl

/-! The list of orders, once with a knowledge base that fails, and once at a cost that needs an approval. -/

def unavailable : Failure where
  className := "LLMUnavailableError"
  code := some "LLM_UNAVAILABLE"
  kind := .llm true

def downWorld : World :=
  { ordersWorld 1 [] with retrieve := fun _ _ => .error unavailable, ensurePending := .error unavailable }

theorem retrieval_fails :
    (ordersGraph.superstep downWorld none .retrieveMetrics definitionState).result =
      .error (.failure unavailable) := rfl

theorem approval_waits {v : AgentState} {runId traceId : String} {w : World} (hr : v.runId = some runId)
    (ht : v.traceId = some traceId) (hp : w.ensurePending = .ok ())
    (hw : ∀ status, w.record status = .ok ()) :
    ∃ p, (ordersGraph.superstep w none .requestApproval v).result = .error (.interrupt p) := by
  refine ⟨⟨runId, v.sqlFingerprint, v.riskReasons.getD []⟩, ?_⟩
  simp only [superstep, operation, pause, timedStep, succeed, recordStep, record, hr, ht, hp, hw]
  rfl

theorem approval_fails {v : AgentState} {runId traceId : String} {decision : Option ApprovalResume}
    (hr : v.runId = some runId) (ht : v.traceId = some traceId) :
    (ordersGraph.superstep downWorld decision .requestApproval v).result =
      .error (.failure unavailable) := by
  have hpause : (pause ordersGraph.actions.py downWorld decision v).result =
      .error (.failure unavailable) := by
    simp only [pause, hr, ht]
    rfl
  exact superstep_fails hpause ht hr fun _ => rfl

theorem orders_awaiting : ∃ v, ordersGraph.Before ordersRun .requestApproval v ∧ Drafted 1 v ∧
    v.guardedQuery = some ordersGuarded := by
  have hrisk : ordersGraph.actions.riskReasons catalogPolicy ⟨1000000, 1⟩ ∅ (some 1) =
      ["TOTAL_COST_LIMIT_EXCEEDED"] := by decide +kernel
  obtain ⟨v, hb, hv⟩ := orders_drafted 1000000 ["order_id"]
  have hu := orders_ruling hv 1000000 ["order_id"]
  rw [hrisk] at hu
  have hr : (ordersGraph.superstep (ordersWorld 1000000 ["order_id"]) none .guardSql v).result =
      .ok (_, some .requestApproval) := superstep_of hu hv.traceId hv.runId (fun _ => rfl) rfl
  obtain ⟨⟨hrun, htenant, htrace, hq, hc, hconf, hs, hp⟩, hsql, hplan, ha⟩ := hv
  exact ⟨_, hb.completed (by simp) hr, ⟨⟨hrun, htenant, htrace, hq, hc, hconf, hs, hp⟩, hsql, hplan, ha⟩, rfl⟩

/-- The knowledge base fails while start drives the graph. -/
theorem retrieval_failure_reported : ∃ t, ReportedAlike ordersGraph (.start definitionRun) unavailable t := by
  let started : Workflow :=
    ⟨some (.pending definitionRun.initialState (some .classify)), some none, [.started definitionRun]⟩
  have h0 : ordersGraph.system.Reachable started :=
    (Transition.System.Reachable.start rfl).step (show ordersGraph.next {} (.start definitionRun) = _ from rfl)
  have hclassified : ordersGraph.next started (.node (ordersWorld 1 []) false) = some _ :=
    next_of_ok definition_classify
  have hr : (ordersGraph.superstep downWorld none (Task.mk .retrieveMetrics none []).step
      definitionState).result = .error (.failure unavailable) := retrieval_fails
  have hfails : ∀ history, ordersGraph.next ⟨some (.pending definitionState (some .retrieveMetrics)),
      some none, history⟩ (.node downWorld false) = some _ := fun history => next_of_failure hr
  exact ⟨_, (failure_reported_iff (h0.step hclassified) rfl (hfails _) rfl).mpr ⟨_, rfl⟩⟩

/-- The approval is stored no more while resume drives the graph. -/
theorem resumed_failure_escapes : ¬ ∀ s t call, ordersGraph.system.Reachable s →
    EntryCall.Drives call s.history → ordersGraph.next s (.node downWorld false) = some t →
    t.history.head? = some (.failed .requestApproval unavailable) →
    ReportedAlike ordersGraph call unavailable t := by
  intro hall
  obtain ⟨v, hb, hv, _⟩ := orders_awaiting
  have hrun := hv.runId
  have htrace := hv.traceId
  obtain ⟨history, hreach⟩ := hb.reachable
  obtain ⟨p, hp⟩ := approval_waits (w := ordersWorld 1 []) hrun htrace rfl fun _ => rfl
  have hpaused : ordersGraph.next ⟨some (.pending v (some .requestApproval)), some none, history⟩
      (.node (ordersWorld 1 []) false) = some _ := next_of_interrupt hp
  let approval : ApprovalResume := ⟨"approval-1", .approved, "user-2", none⟩
  have hreach := (hreach.step hpaused).step (next_of_resume approval rfl)
  have hr : (ordersGraph.superstep downWorld (some approval) (Task.mk .requestApproval none [p]).step v).result =
      .error (.failure unavailable) := approval_fails hrun htrace
  have hreported := hall _ _ (.resume "run-1" "tenant-1" none) hreach ⟨_, _, _, rfl⟩ (next_of_failure hr) rfl
  obtain ⟨left, result, -, ha, -⟩ := hreported.returned
  have he : AgentWorkflowService.resume "run-1" "tenant-1" none (.raised unavailable left) = .ok result := ha
  exact resume_escapes he

/-- A rejection is lost when the node fails that asked for it: the next decision is taken instead. -/
theorem lost_rejection_executes : ¬ ∀ (s : Workflow) (newer older : List Event) (g : GuardedQuery)
    (policy : QueryPolicy), ordersGraph.system.Reachable s →
    s.history = newer ++ .called (.execute g policy) :: older →
    Ledger.Authorised (Ledger.of older) g policy ∧ ∀ r, Event.resumed r ∈ older → r.decision ≠ .rejected := by
  intro hall
  obtain ⟨v, hb, hv, hg⟩ := orders_awaiting
  obtain ⟨history, hreach⟩ := hb.reachable
  obtain ⟨p, hp⟩ := approval_waits (w := ordersWorld 1 []) hv.runId hv.traceId rfl fun _ => rfl
  have hpaused : ordersGraph.next ⟨some (.pending v (some .requestApproval)), some none, history⟩
      (.node (ordersWorld 1 []) false) = some _ := next_of_interrupt hp
  let rejection : ApprovalResume := ⟨"approval-1", .rejected, "user-2", none⟩
  let approval : ApprovalResume := ⟨"approval-1", .approved, "user-2", none⟩
  have hfails : (ordersGraph.superstep downWorld (some rejection) (Task.mk .requestApproval none [p]).step v).result =
      .error (.failure unavailable) := approval_fails hv.runId hv.traceId
  -- the task goes on listing its interrupt
  have hlost := ((hreach.step hpaused).step (next_of_resume rejection rfl)).step
    (@next_of_failure _ _ _ true _ _ _ _ hfails)
  have hasked := hlost.step (next_of_resume approval rfl)
  have htaken : (ordersGraph.superstep (ordersWorld 1 []) (some approval)
      (Task.mk .requestApproval (some unavailable.repr) [p]).step v).result =
      .ok (decided .approved, some .executeSql) :=
    superstep_resumes hv.traceId hv.runId rfl (fun _ => rfl) approval
  obtain ⟨tail, hgo, hrejected⟩ : ∃ tail, ordersGraph.system.Reachable
      ⟨some (.pending (v.merge (decided .approved)) (some .executeSql)), some none, tail⟩ ∧
      .resumed rejection ∈ tail :=
    ⟨_, hasked.step (show ordersGraph.next _ (.node (ordersWorld 1 []) false) = some _ from next_of_ok htaken),
      by simp⟩
  have hrows : (executeSql (ordersWorld 1 []) (v.merge (decided .approved))).result = .ok _ :=
    executeSql_of hg hv.queryPolicy rfl
  obtain ⟨u, hdone⟩ : ∃ u, (ordersGraph.superstep (ordersWorld 1 []) none .executeSql
      (v.merge (decided .approved))).result = .ok (u, some .verify) :=
    ⟨_, superstep_of hrows hv.traceId hv.runId (fun _ => rfl) rfl⟩
  have hexecutes : .execute ordersGuarded catalogPolicy ∈
      (executeSql (ordersWorld 1 []) (v.merge (decided .approved))).calls := executeSql_executes hg hv.queryPolicy
  have hcall := superstep_calls_of hdone hexecutes
  have hexecuted := hgo.step (show ordersGraph.next _ (.node (ordersWorld 1 []) false) = some _ from next_of_ok hdone)
  obtain ⟨newer, older, he⟩ := List.append_of_mem (List.mem_map_of_mem (f := Event.called) hcall)
  refine (hall _ (.completed .executeSql u :: newer) (older ++ tail) ordersGuarded catalogPolicy hexecuted ?_).2
    rejection (List.mem_append_right older hrejected) rfl
  simp only [he, List.cons_append, List.append_assoc]

end DataCopilot.Agent
