import DataCopilot.Platform.Joint
import DataCopilot.Platform.Runs

/-! What a committed decision leaves behind: a job that has ended with its run. -/
namespace DataCopilot.Platform
open Versioned AnalysisJobStateMachine Agent AgentGraph AgentWorkflowService NorthwindAgentActions
  Store

/-- The open decisions and the run they have resumed. -/
structure Attended (s : Joint) : Prop where
  sent : ∀ id read decision reviewerId comment,
    s.store.opened id = some ⟨read, .decide decision reviewerId comment .sent⟩ →
    Pass (command decision) s.agent
  answered : ∀ id read decision reviewerId comment result,
    s.store.opened id = some ⟨read, .decide decision reviewerId comment (.answered result)⟩ →
    (∃ v, s.agent.snapshot = some ⟨v, []⟩) ∧ s.agent.driving = none ∧
      ∃ status, Outcome (command decision) status ∧ result.status = status.text

variable {G : AgentGraph} {s t : Joint} {l : JointMove}

/-- A run that is over does not move. -/
theorem over_stuck {w : Workflow} {v : AgentState} (hs : w.snapshot = some ⟨v, []⟩)
    (hd : w.driving = none) (m : Agent.Move) : G.next w m = none := by
  cases m with
  | start r => simp [AgentGraph.next, hs]
  | node world keeps => simp [AgentGraph.next, hs, hd]
  | resume r => simp [AgentGraph.next, hs, hd, Snapshot.interrupted]
  | crash => simp [AgentGraph.next, hd]

/-- A resume is accepted at the interrupt of the approval node. -/
theorem resumed_pass {w w' : Workflow} {r : ApprovalResume} (h : G.system.Reachable w)
    (hs : G.next w (.resume r) = some w') : Pass r.decision w' := by
  obtain ⟨_, hm, _⟩ | ⟨_, _, _, _, _, hm, _⟩ | ⟨r', snapshot, hm, hsnap, hd, hi, rfl⟩ |
    ⟨_, hm, _⟩ := next_cases hs
  · cases hm
  · cases hm
  · cases hm
    obtain ⟨v, tasks⟩ := snapshot
    obtain ⟨task, hmem, hne⟩ := List.any_eq_true.mp hi
    have hlen := (audited h).single _ hsnap
    obtain rfl : tasks = [task] := by
      cases tasks with
      | nil => cases hmem
      | cons first rest =>
        obtain rfl : rest = [] := by simpa using hlen
        rw [List.mem_singleton.mp hmem]
    have hstep := (audited h).interrupts v task hsnap (by simpa using hne)
    exact .asked hsnap rfl rfl hstep
  · cases hm

theorem resume_returned {runId tenantId : String} {snapshot : Option Snapshot} {v : AgentState}
    {interrupts : List InterruptPayload} {reply : WorkflowResult}
    (h : AgentWorkflowService.resume runId tenantId snapshot (.returned v interrupts) = .ok reply) :
    reply.status = status v (interrupts ≠ []) := by
  simp only [AgentWorkflowService.resume] at h
  split at h
  · cases h
  · split at h
    · cases h
    · cases h
      rfl

/-- The answer to a decision is the outcome of its pass. -/
theorem pass_answered {d : ApprovalDecision} {w : Workflow} {result : AgentRunResult}
    (h : Pass d w) (ha : Answers w result) :
    (∃ v, w.snapshot = some ⟨v, []⟩) ∧ w.driving = none ∧
      ∃ status, Outcome d status ∧ result.status = status.text := by
  obtain ⟨hd, hret, snapshot, before, tenantId, reply, hsnap, hreply, hstatus⟩ := ha
  obtain ⟨v, hv, hout⟩ := h.returned hd hret
  rw [hsnap] at hv
  cases hv
  refine ⟨⟨v, hsnap⟩, hd, _, hout, ?_⟩
  rw [hstatus, resume_returned hreply]
  rfl

/-- The step lemma. -/
theorem Attended.kept (h : Attended s) (hr : (Joint.system G).Reachable s)
    (hs : (Joint.system G).step s l t) (hno : ¬ Relapses G s l) : Attended t := by
  have hwf := wellFormed (Joint.reachable_store hr)
  have hagent := Joint.reachable_agent hr
  cases l with
  | agent m =>
    obtain ⟨he, hs, hc⟩ := hs
    refine ⟨fun id read d r c ho => ?_, fun id read d r c result ho => ?_⟩
    · rw [he] at ho
      refine (h.sent id read d r c ho).kept hagent hs ?_ fun hi => hno ⟨⟨id, read, d, r, c, ho⟩, hi⟩
      rintro r rfl
      exact hc
    · rw [he] at ho
      obtain ⟨⟨v, hv⟩, hd, _⟩ := h.answered id read d r c result ho
      rw [over_stuck hv hd] at hs
      cases hs
  | platform m =>
    obtain ⟨hs, hserve⟩ := hs
    -- nothing is resumed while a decision waits for its answer or has it
    have hsame {id : Nat} {read : Cell AnalysisJob} {d : ApprovalStatus} {r : String}
        {c : Option String} {stage : Resume}
        (ho : s.store.opened id = some ⟨read, .decide d r c stage⟩) (hne : stage ≠ .unsent) :
        t.agent = s.agent := by
      refine hserve.same fun id' he => ?_
      subst he
      obtain ⟨read', d', r', c', _, ho', _⟩ := hserve
      have hlock := hwf.locked id _ ho rfl
      rw [hwf.locked id' _ ho' rfl, Option.some.injEq] at hlock
      subst hlock
      rw [ho] at ho'
      cases ho'
      exact hne rfl
    refine ⟨fun id read d r c ho => ?_, fun id read d r c result ho => ?_⟩
    · obtain hold | ⟨_, rfl, hst, he⟩ | ⟨read', d', r', c', rfl, hold, he⟩ |
        ⟨_, _, _, _, _, _, _, he⟩ := opened_cases hs ho
      · rw [hsame hold (by simp)]
        exact h.sent id read d r c hold
      · cases he
        obtain ⟨_, _, _, _, _, _, _, hbody⟩ := hst.decide rfl
        cases hbody
      · cases he
        obtain ⟨_, d'', r'', c'', approval, ho', _, hresume⟩ := hserve
        rw [hold] at ho'
        cases ho'
        exact resumed_pass hagent hresume
      · cases he
    · obtain hold | ⟨_, rfl, hst, he⟩ | ⟨_, _, _, _, _, _, he⟩ |
        ⟨read', d', r', c', result', rfl, hold, he⟩ := opened_cases hs ho
      · rw [hsame hold (by simp)]
        exact h.answered id read d r c result hold
      · cases he
        obtain ⟨_, _, _, _, _, _, _, hbody⟩ := hst.decide rfl
        cases hbody
      · cases he
      · cases he
        obtain ⟨he, ha⟩ := hserve
        rw [he]
        exact pass_answered (h.sent id _ _ _ _ hold) ha

/-- The run lemma. -/
theorem attended (h : ((Joint.system G).restrict fun s l _ => ¬ Relapses G s l).Reachable s) :
    Attended s := by
  refine h.invariant (fun s hi => ?_) fun s l t hr ha hs => ?_
  · obtain ⟨⟨id, createdBy, he⟩, _⟩ := hi
    refine ⟨?_, ?_⟩
    · rw [he]
      simp
    · rw [he]
      simp
  · obtain ⟨hs, hno⟩ := hs
    exact ha.kept hr.of_restrict hs hno

/-- What a job comes to when a decision with such an answer commits. -/
theorem settle_terminal {now : Nat} {decision : ApprovalStatus} {result : AgentRunResult}
    {job settled : AnalysisJob} {status : RunStatus} (hd : decision ≠ .pending)
    (ho : Outcome (command decision) status) (hr : result.status = status.text)
    (h : ApprovalService.settle now decision result job = .ok settled) :
    isTerminal settled.status = true := by
  cases decision with
  | pending => exact absurd rfl hd
  | rejected =>
    rw [(ApprovalService.settle_rejected h).1]
    rfl
  | approved =>
    obtain ⟨_, hs⟩ := ApprovalService.settle_approved (by simp) h
    obtain rfl | rfl : status = .completed ∨ status = .failed := ho
    · rw [hs, hr]
      rfl
    · rw [hs, hr]
      rfl

/-- Unless a resumed run asks for an approval again, a decision that commits leaves no
orphan: a waiting run has its pending approval and its waiting job, a run that is over has
a terminal job, and no job is left running. -/
theorem decision_leaves_no_orphan {id now : Nat} {o : OpenTransaction}
    (h : ((Joint.system G).restrict fun s l _ => ¬ Relapses G s l).Reachable s)
    (hs : (Joint.system G).step s (.platform (.commit id now)) t)
    (hc : s.store.Commits id now o t.store) (hd : o.body.decides = true) :
    (phase t.agent = .waiting →
      (∃ approval, t.store.approval = some approval ∧ approval.status = .pending) ∧
        t.store.job.value.status = .waitingApproval) ∧
    (phase t.agent = .over → isTerminal t.store.job.value.status = true) ∧
    t.store.job.value.status ≠ .running := by
  have hagent : t.agent = s.agent := hs.2.same (by simp)
  have hread := (wellFormed (Joint.reachable_store h.of_restrict)).reads id o hc.opened
  have hfinal := read_terminal (Joint.reachable_store h.of_restrict) id o hc.opened
  obtain ⟨hopen, hready, ⟨job, hb, hcommit⟩, _, _⟩ := hc
  obtain ⟨read, body⟩ := o
  have hw := Transaction.body_writes hb
  cases body with
  | decide decision reviewerId comment stage =>
    cases stage with
    | unsent => cases hready
    | sent => cases hready
    | answered result =>
      obtain ⟨⟨v, hv⟩, hdriving, status, hout, hstatus⟩ :=
        (attended h).answered id read decision reviewerId comment result hopen
      have hphase : phase t.agent = .over := by simp [hagent, phase, hv, hdriving]
      have hterm : isTerminal t.store.job.value.status = true := by
        cases hw with
        | same _ _ hbody => cases hbody
        | decided _ _ _ hne _ hsettle hnext =>
          have hjob : isTerminal job.status = true := by
            rw [hnext]
            exact settle_terminal hne hout hstatus hsettle
          obtain ⟨hsame, he⟩ | ⟨_, _, he⟩ := Cell.commit_cases hread hcommit
          · rw [hsame] at hjob
            rw [he, hfinal hjob]
            exact hjob
          · rw [he]
            exact hjob
      refine ⟨fun hwait => ?_, fun _ => hterm, fun hrun => ?_⟩
      · rw [hphase] at hwait
        cases hwait
      · rw [hrun] at hterm
        cases hterm
  | _ => cases hd

/-! The list of orders, rejected; and approved, with a result that lacks its column. -/
section CostlyOrders

def decidedStore (d : ApprovalStatus) (result : AgentRunResult) : Store :=
  (decidingStore d (.answered result)).commit 1 2
    ⟨requestedStore.job, decideCall d (.answered result)⟩

/-- What a resumed run answers when its call has returned. -/
theorem costly_answers {w : Workflow} {v before : AgentState} {tasks : List Task} {n : Nat}
    (hb : Costly n before) (hs : w.snapshot = some ⟨v, tasks⟩) (hd : w.driving = none)
    (hr : Returned w.history) :
    Answers w ⟨"run-1", (status v (tasks.flatMap Task.interrupts ≠ [])).text, none⟩ := by
  have hresume : AgentWorkflowService.resume "run-1" "tenant-1" (some (waitingSnapshot before))
      (.returned v (tasks.flatMap Task.interrupts)) =
        .ok (AgentWorkflowService.result "run-1" v (tasks.flatMap Task.interrupts)) := by
    simp [AgentWorkflowService.resume, waitingSnapshot, Snapshot.interrupted, hb.runId, hb.tenantId]
  exact ⟨hd, hr, ⟨v, tasks⟩, some (waitingSnapshot before), "tenant-1", _, hs, hresume, rfl⟩

/-- The rejection ends the run and the job. -/
theorem rejection_leaves_no_orphan : ∃ t : Joint,
    phase t.agent = .over ∧ isTerminal t.store.job.value.status = true := by
  obtain ⟨v, history, hv, hr⟩ := costly_sent ["order_id"] (d := .rejected) (by simp)
  have hstop := superstep_resumes (G := ordersGraph) (w := ordersWorld 20000 ["order_id"])
    hv.traceId hv.runId rfl (fun _ => rfl) (costlyResume .rejected)
  obtain ⟨older, hr⟩ := Joint.completed hr requested_present hstop
  let w : Workflow := ⟨some (.pending (v.merge (decided .rejected)) none), none,
    .completed .requestApproval (decided .rejected) :: older⟩
  let result : AgentRunResult := ⟨"run-1", "REJECTED", none⟩
  have hanswers : Answers w result := costly_answers (w := w) hv rfl rfl trivial
  have h1 : (orderly ordersGraph).step ⟨decidingStore .rejected .sent, w⟩
      (.platform (.answer 1 result)) ⟨decidingStore .rejected (.answered result), w⟩ := by
    rw [← deciding_answered]
    exact ⟨⟨rfl, rfl, hanswers⟩, id, id⟩
  have hreach := (hr.step h1).weaken (D := fun s l _ => ¬ Relapses ordersGraph s l)
    fun _ _ _ hno => hno.2
  have h2 : (Joint.system ordersGraph).step ⟨decidingStore .rejected (.answered result), w⟩
      (.platform (.commit 1 2)) ⟨decidedStore .rejected result, w⟩ := ⟨rfl, rfl⟩
  have hc : (decidingStore .rejected (.answered result)).Commits 1 2
      ⟨requestedStore.job, decideCall .rejected (.answered result)⟩ (decidedStore .rejected result) :=
    ⟨rfl, rfl, ⟨_, rfl, rfl⟩, rfl, rfl⟩
  have hover : phase w = .over := rfl
  exact ⟨⟨decidedStore .rejected result, w⟩, hover,
    (decision_leaves_no_orphan hreach h2 hc rfl).2.1 hover⟩

/-- A run before this node, while the answer to its approval is awaited. -/
def Continued (step : StepName) (v : AgentState) : Prop :=
  ∃ history, (orderly ordersGraph).Reachable
    ⟨decidingStore .approved .sent, ⟨some (.pending v (some step)), some none, history⟩⟩

theorem Continued.completed {w : World} {step step' : StepName} {v u : AgentState}
    (h : Continued step v) (hr : (ordersGraph.superstep w none step v).result = .ok (u, some step')) :
    Continued step' (v.merge u) := by
  obtain ⟨history, h⟩ := h
  obtain ⟨_, h⟩ := Joint.completed h requested_present hr
  exact ⟨_, h⟩

theorem costly_executed : ∃ v, Continued .verify v ∧ Drafted 1 v ∧ v.columns = some [] := by
  obtain ⟨v, history, hv, hr⟩ := costly_sent [] (d := .approved) (by simp)
  have hgo := superstep_resumes (G := ordersGraph) (w := ordersWorld 20000 [])
    hv.traceId hv.runId rfl (fun _ => rfl) (costlyResume .approved)
  obtain ⟨_, hr⟩ := Joint.completed hr requested_present hgo
  have hc : Continued .executeSql (v.merge (decided .approved)) := ⟨_, hr⟩
  have hrows : (executeSql (ordersWorld 20000 []) (v.merge (decided .approved))).result = .ok _ :=
    executeSql_of hv.guardedQuery hv.queryPolicy rfl
  have hexecute : (ordersGraph.superstep (ordersWorld 20000 []) none .executeSql
      (v.merge (decided .approved))).result = .ok (_, some .verify) :=
    superstep_of hrows hv.traceId hv.runId (fun _ => rfl) rfl
  obtain ⟨⟨⟨hrun, htenant, htrace, hq, htables, hconf, hs, hp⟩, hsql, hplan, ha⟩, _⟩ := hv
  exact ⟨_, hc.completed hexecute,
    ⟨⟨hrun, htenant, htrace, hq, htables, hconf, hs, hp⟩, hsql, hplan, ha⟩, rfl⟩

/-- The missing column sends the run back to the draft. -/
theorem costly_mismatched : ∃ v, Continued .generateSql v ∧ Drafted 1 v ∧
    v.error = some "RESULT_COLUMNS_MISMATCH" := by
  obtain ⟨v, hc, hv, hcolumns⟩ := costly_executed
  have hr := orders_mismatched (w := ordersWorld 20000 []) hv hcolumns (by simp) (fun _ => rfl)
  obtain ⟨⟨hrun, htenant, htrace, hq, htables, hconf, hs, hp⟩, hsql, hplan, ha⟩ := hv
  exact ⟨_, hc.completed hr,
    ⟨⟨hrun, htenant, htrace, hq, htables, hconf, hs, hp⟩, hsql, hplan, ha⟩, rfl⟩

/-- The guard asks for an approval of the second draft. -/
theorem costly_reasked : ∃ v, Continued .requestApproval v ∧ Costly 2 v := by
  obtain ⟨v, hc, hv, herror⟩ := costly_mismatched
  have hdraft := orders_draft hv.toSelected (.inr ⟨hv.sql, herror⟩) 20000 []
  rw [show v.attempt + 1 = 2 by rw [AgentState.attempt, hv.attempts]; rfl] at hdraft
  obtain ⟨u, hguarded, hv'⟩ := costly_guarded (hv.toSelected.drafted 2) []
  exact ⟨_, (hc.completed hdraft).completed hguarded, hv'⟩

/-- The answer is then a second request, which the platform does not keep: the job runs, its
approval is decided, and the run waits. -/
theorem reapproval_orphaned : ¬ ∀ (s t : Joint) (id now : Nat) (o : OpenTransaction),
    (Joint.system ordersGraph).Reachable s →
    (Joint.system ordersGraph).step s (.platform (.commit id now)) t →
    s.store.Commits id now o t.store → o.body.decides = true →
    (phase t.agent = .waiting →
      (∃ approval, t.store.approval = some approval ∧ approval.status = .pending) ∧
        t.store.job.value.status = .waitingApproval) ∧
    (phase t.agent = .over → isTerminal t.store.job.value.status = true) ∧
    t.store.job.value.status ≠ .running := by
  intro hall
  obtain ⟨v, ⟨history, hr⟩, hv⟩ := costly_reasked
  have hpause := costly_paused hv []
  let w : Workflow := ⟨some (waitingSnapshot v), none, .interrupted costlyPayload ::
    ((ordersGraph.superstep (ordersWorld 20000 []) none .requestApproval v).calls.map .called ++
      history)⟩
  let result : AgentRunResult := ⟨"run-1", "WAITING_APPROVAL", none⟩
  have h1 : (Joint.system ordersGraph).step
      ⟨decidingStore .approved .sent, ⟨some (.pending v (some .requestApproval)), some none, history⟩⟩
      (.agent (.node (ordersWorld 20000 []) false)) ⟨decidingStore .approved .sent, w⟩ :=
    ⟨rfl, next_of_interrupt hpause, fun _ _ => requested_present⟩
  have hanswers : Answers w result := costly_answers (w := w) hv rfl rfl trivial
  have h2 : (Joint.system ordersGraph).step ⟨decidingStore .approved .sent, w⟩
      (.platform (.answer 1 result)) ⟨decidingStore .approved (.answered result), w⟩ := by
    rw [← deciding_answered]
    exact ⟨rfl, rfl, hanswers⟩
  have h3 : (Joint.system ordersGraph).step ⟨decidingStore .approved (.answered result), w⟩
      (.platform (.commit 1 2)) ⟨decidedStore .approved result, w⟩ := ⟨rfl, rfl⟩
  have hc : (decidingStore .approved (.answered result)).Commits 1 2
      ⟨requestedStore.job, decideCall .approved (.answered result)⟩ (decidedStore .approved result) :=
    ⟨rfl, rfl, ⟨_, rfl, rfl⟩, rfl, rfl⟩
  have hrun := (hall _ _ 1 2 _ ((hr.of_restrict.step h1).step h2) h3 hc rfl).2.2
  exact hrun rfl

end CostlyOrders

end DataCopilot.Platform
