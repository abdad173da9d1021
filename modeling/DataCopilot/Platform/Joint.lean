import DataCopilot.Agent.Pass
import DataCopilot.Platform.Consistency

/-! The platform and the agent together: the committed rows, the open transactions, and the
checkpointed run. A decision resumes the run before it commits; a request for an approval
comes from the node that will wait for it. -/
namespace DataCopilot.Platform
open Agent AgentGraph

structure Joint where
  store : Store
  agent : Workflow

inductive JointMove where
  | platform (m : Move)
  | agent (m : Agent.Move)

/-- The text that is sent for a decision. -/
def command (decision : ApprovalStatus) : ApprovalDecision :=
  if decision = .approved then .approved else .rejected

/-- A call runs the node that asks for the approval. -/
def AtApproval (s : Workflow) : Prop :=
  ∃ v task resume, s.snapshot = some ⟨v, [task]⟩ ∧ task.step = .requestApproval ∧
    s.driving = some resume

/-- The call of resume has ended, and `result` is what it returned. -/
def Answers (s : Workflow) (result : AgentRunResult) : Prop :=
  s.driving = none ∧ Returned s.history ∧ ∃ snapshot before tenantId reply,
    s.snapshot = some snapshot ∧
    AgentWorkflowService.resume result.runId tenantId before
      (.returned snapshot.values (snapshot.tasks.flatMap Task.interrupts)) = .ok reply ∧
    result.status = reply.status.text

namespace Joint
variable (G : AgentGraph)

/-- What the agent does when the platform moves. A resume that it refuses, or that raises, is
a rollback of the decision that sent it. -/
def Serves (s : Joint) (w : Workflow) : Move → Prop
  | .send id => ∃ read decision reviewerId comment approval,
      s.store.opened id = some ⟨read, .decide decision reviewerId comment .unsent⟩ ∧
      s.store.approval = some approval ∧
      G.next s.agent (.resume
        ⟨approval.id, command decision, reviewerId, some (comment.getD "")⟩) = some w
  | .answer _ result => w = s.agent ∧ Answers s.agent result
  | .start _ (.request _ _) => w = s.agent ∧ AtApproval s.agent
  | _ => w = s.agent

/-- What the agent may do by itself. Its node gets an answer from the platform only once the
approval is there. -/
def Calls (s : Joint) : Agent.Move → Prop
  | .resume _ => False
  | .node w _ => AtApproval s.agent → w.ensurePending = .ok () → s.store.approval ≠ none
  | _ => True

def system : Transition.System Joint JointMove where
  init s := Store.system.init s.store ∧ s.agent = {}
  step s l t :=
    match l with
    | .platform m => s.store.next m = some t.store ∧ Serves G s t.agent m
    | .agent m => t.store = s.store ∧ G.next s.agent m = some t.agent ∧ Calls s m

variable {G} {s t : Joint} {m : Move}

/-- Apart from a resume the agent stays where it is. -/
theorem Serves.same {w : Workflow} (h : Serves G s w m) (hm : ∀ id, m ≠ .send id) :
    w = s.agent := by
  cases m with
  | send id => exact absurd rfl (hm id)
  | answer id result => exact h.1
  | start id body =>
    cases body with
    | request approvalId reasonCodes => exact h.1
    | _ => exact h
  | _ => exact h

theorem reachable_store (h : (system G).Reachable s) : Store.system.Reachable s.store := by
  refine h.invariant (P := fun s : Joint => Store.system.Reachable s.store)
    (fun s hi => ?_) fun s l t _ ih hs => ?_
  · obtain ⟨hi, _⟩ := hi
    exact .start hi
  · cases l with
    | platform m =>
      obtain ⟨hs, _⟩ := hs
      exact ih.step hs
    | agent m =>
      obtain ⟨he, _⟩ := hs
      rw [he]
      exact ih

theorem reachable_agent (h : (system G).Reachable s) : G.system.Reachable s.agent := by
  refine h.invariant (P := fun s : Joint => G.system.Reachable s.agent)
    (fun s hi => ?_) fun s l t _ ih hs => ?_
  · obtain ⟨_, hi⟩ := hi
    exact .start hi
  · cases l with
    | agent m =>
      obtain ⟨_, hs, _⟩ := hs
      exact ih.step hs
    | platform m =>
      obtain ⟨_, hs⟩ := hs
      by_cases hm : ∃ id, m = .send id
      · obtain ⟨id, rfl⟩ := hm
        obtain ⟨_, _, _, _, _, _, _, hs⟩ := hs
        exact ih.step hs
      · rw [hs.same fun id he => hm ⟨id, he⟩]
        exact ih

end Joint

/-! What can go wrong between the two. -/
section Faults

/-- A decision whose resume has been sent. -/
def Transaction.sent : Transaction → Bool
  | .decide _ _ _ .unsent => false
  | .decide _ _ _ _ => true
  | _ => false

def Store.InFlight (s : Store) : Prop := ∃ id o, s.opened id = some o ∧ o.body.sent = true

/-- A decision waits for the answer to its resume. -/
def Store.Awaited (s : Store) : Prop :=
  ∃ id read decision reviewerId comment,
    s.opened id = some ⟨read, .decide decision reviewerId comment .sent⟩

def Store.Undecided (s : Store) : Prop :=
  ∃ approval, s.approval = some approval ∧ approval.status = .pending

/-- A call without a decision runs the approval node. -/
def Asking (w : Workflow) : Prop :=
  ∃ v task, w.snapshot = some ⟨v, [task]⟩ ∧ task.step = .requestApproval ∧ w.driving = some none

/-- A call crashes, or its node fails. -/
def Breaks (G : AgentGraph) (w : Workflow) : Agent.Move → Prop
  | .node world _ => ∃ v task resume f, w.snapshot = some ⟨v, [task]⟩ ∧ w.driving = some resume ∧
      (G.superstep world resume task.step v).result = .error (.failure f)
  | .crash => True
  | _ => False

/-- A decision is sent for a job that was not waiting when it was read. A decision that was
sent is rolled back, or comes to commit after its row has changed. An approval is inserted
when its node does not run any more; or that node breaks before it has interrupted. -/
def Tears (G : AgentGraph) (s : Joint) : JointMove → Prop
  | .platform (.send id) => ∃ o, s.store.opened id = some o ∧ o.read.value.status ≠ .waitingApproval
  | .platform (.rollback id) => ∃ o, s.store.opened id = some o ∧ o.body.sent = true
  | .platform (.commit id _) => ∃ o, s.store.opened id = some o ∧
      (o.body.sent = true ∧ o.read.version ≠ s.store.job.version ∨
        o.body.requests = true ∧ s.store.approval = none ∧ ¬ Asking s.agent)
  | .platform _ => False
  | .agent m => s.store.Undecided ∧ ¬ s.store.InFlight ∧ Breaks G s.agent m

/-- While a decision waits for its answer, the run it resumed asks for an approval again. -/
def Relapses (G : AgentGraph) (s : Joint) : JointMove → Prop
  | .agent m => s.store.Awaited ∧ InterruptsAgain G s.agent m
  | .platform _ => False

/-- The runs in which neither happens. -/
def orderly (G : AgentGraph) : Transition.System Joint JointMove :=
  (Joint.system G).restrict fun s l _ => ¬ Tears G s l ∧ ¬ Relapses G s l

end Faults

namespace Joint
variable {G : AgentGraph} {store : Store} {w : World} {v u : AgentState} {task : Task}
  {resume : Option ApprovalResume} {history : List Event}

/-- A run by itself is a run beside a platform where nothing has happened yet. -/
theorem lift (hi : Store.system.init store) {request : StartRun} {w : Workflow}
    (h : (G.system.restrict fun s m _ => Alone request s m).Reachable w) :
    (orderly G).Reachable ⟨store, w⟩ := by
  have hnone : store.approval = none ∧ ∀ id, store.opened id = none := by
    obtain ⟨id, createdBy, rfl⟩ := hi
    exact ⟨rfl, fun _ => rfl⟩
  refine h.invariant (P := fun w : Workflow => (orderly G).Reachable ⟨store, w⟩)
    (fun w hw => .start ⟨hi, hw⟩) fun w m w' _ ih hs => ?_
  obtain ⟨hs, halone⟩ := hs
  have hcalls : Calls ⟨store, w⟩ m := by
    cases m with
    | resume r => exact halone
    | node world keeps =>
      intro hat
      obtain ⟨v, task, resume, hsnap, hstep, _⟩ := hat
      exact absurd hstep (halone v task hsnap)
    | _ => trivial
  have hstep : (orderly G).step ⟨store, w⟩ (.agent m) ⟨store, w'⟩ := by
    refine ⟨⟨rfl, hs, hcalls⟩, fun ht => ?_, fun ht => ?_⟩
    · obtain ⟨⟨approval, ha, _⟩, _⟩ := ht
      rw [hnone.1] at ha
      cases ha
    · obtain ⟨⟨id, read, d, r, c, ho⟩, _⟩ := ht
      rw [hnone.2] at ho
      cases ho
  exact ih.step hstep

/-- A node completes beside a platform that stays as it is. -/
theorem completed {next : Option StepName}
    (h : (orderly G).Reachable ⟨store, ⟨some ⟨v, [task]⟩, some resume, history⟩⟩)
    (ha : store.approval ≠ none)
    (hr : (G.superstep w resume task.step v).result = .ok (u, next)) :
    ∃ history', (orderly G).Reachable ⟨store, ⟨some (.pending (v.merge u) next),
      next.map fun _ => none, .completed task.step u :: history'⟩⟩ := by
  let seen := (G.superstep w resume task.step v).calls.map Event.called
  have hs : (orderly G).step ⟨store, ⟨some ⟨v, [task]⟩, some resume, history⟩⟩
      (.agent (.node w false))
      ⟨store, ⟨some (.pending (v.merge u) next), next.map fun _ => none,
        .completed task.step u :: seen ++ history⟩⟩ := by
    refine ⟨⟨rfl, next_of_ok hr, fun _ _ => ha⟩, fun ht => ?_, fun ht => ?_⟩
    · obtain ⟨_, _, v', task', resume', f, hsnap, hd, hf⟩ := ht
      cases hsnap
      cases hd
      rw [hr] at hf
      cases hf
    · obtain ⟨_, v', task', p, hsnap, hd, hp⟩ := ht
      cases hsnap
      cases hd
      rw [hr] at hp
      cases hp
  exact ⟨_, h.step hs⟩

/-- It interrupts, and the call ends. -/
theorem interrupted {p : InterruptPayload}
    (h : (orderly G).Reachable ⟨store, ⟨some ⟨v, [task]⟩, some resume, history⟩⟩)
    (ha : store.approval ≠ none) (hno : ¬ store.Awaited)
    (hr : (G.superstep w resume task.step v).result = .error (.interrupt p)) :
    ∃ history', (orderly G).Reachable
      ⟨store, ⟨some ⟨v, [⟨task.step, none, [p]⟩]⟩, none, .interrupted p :: history'⟩⟩ := by
  let seen := (G.superstep w resume task.step v).calls.map Event.called
  have hs : (orderly G).step ⟨store, ⟨some ⟨v, [task]⟩, some resume, history⟩⟩
      (.agent (.node w false))
      ⟨store, ⟨some ⟨v, [⟨task.step, none, [p]⟩]⟩, none,
        .interrupted p :: seen ++ history⟩⟩ := by
    refine ⟨⟨rfl, next_of_interrupt hr, fun _ _ => ha⟩, fun ht => ?_, fun ht => hno ht.1⟩
    obtain ⟨_, _, v', task', resume', f, hsnap, hd, hf⟩ := ht
    cases hsnap
    cases hd
    rw [hr] at hf
    cases hf
  exact ⟨_, h.step hs⟩

end Joint

/-! The list of orders at a cost that needs an approval. -/
section CostlyOrders

def costlyReasons : List String := ["TOTAL_COST_LIMIT_EXCEEDED"]

theorem costly_reasons : ordersGraph.actions.riskReasons catalogPolicy ⟨20000, 1⟩ ∅ (some 1) =
    costlyReasons := by decide +kernel

/-- An administrator decides. -/
def decideCall (decision : ApprovalStatus) (resume : Resume) : Transaction :=
  .decide decision "admin-1" none resume

def decidingStore (decision : ApprovalStatus) (resume : Resume) : Store :=
  { requestedStore.put 1 ⟨requestedStore.job, decideCall decision resume⟩ with lock := some 1 }

def costlyPayload : InterruptPayload :=
  ⟨"run-1", some ordersGuarded.queryFingerprint, costlyReasons⟩

def costlyResume (decision : ApprovalStatus) : ApprovalResume :=
  ⟨"approval-1", command decision, "admin-1", some ""⟩

def costlyApproval : Approval :=
  { id := "approval-1", requestedBy := "user-1", reason := "TOTAL_COST_LIMIT_EXCEEDED" }

theorem requested_approval : requestedStore.approval = some costlyApproval := rfl

theorem requested_opened (id : Nat) : requestedStore.opened id = none := by
  have hopened : requestedStore.opened =
      ((freshStore.put 0 ⟨freshStore.job, requestCall⟩).close 0).opened := rfl
  rw [hopened, Store.close_opened, Store.put_opened]
  by_cases hid : id = 0
  · rw [if_pos hid]
  · rw [if_neg hid, if_neg hid]
    rfl

theorem requested_present : requestedStore.approval ≠ none := by
  rw [requested_approval]
  simp

/-- The keys that the approval node finds. -/
structure Costly (attempts : Nat) (v : AgentState) : Prop extends Drafted attempts v where
  fingerprint : v.sqlFingerprint = some ordersGuarded.queryFingerprint
  riskReasons : v.riskReasons = some costlyReasons
  guardedQuery : v.guardedQuery = some ordersGuarded

/-- The guard asks for an approval of every draft. -/
theorem costly_guarded {v : AgentState} {n : Nat} (hv : Drafted n v) (columns : List String) :
    ∃ u, (ordersGraph.superstep (ordersWorld 20000 columns) none .guardSql v).result =
      .ok (u, some .requestApproval) ∧ Costly n (v.merge u) := by
  have hu := orders_ruling hv 20000 columns
  rw [costly_reasons] at hu
  have hr : (ordersGraph.superstep (ordersWorld 20000 columns) none .guardSql v).result =
      .ok (_, some .requestApproval) := superstep_of hu hv.traceId hv.runId (fun _ => rfl) rfl
  obtain ⟨⟨hrun, htenant, htrace, hq, hc, hconf, hs, hp⟩, hsql, hplan, ha⟩ := hv
  exact ⟨_, hr, ⟨⟨hrun, htenant, htrace, hq, hc, hconf, hs, hp⟩, hsql, hplan, ha⟩, rfl, rfl, rfl⟩

theorem costly_paused {v : AgentState} {n : Nat} (hv : Costly n v) (columns : List String) :
    (ordersGraph.superstep (ordersWorld 20000 columns) none .requestApproval v).result =
      .error (.interrupt costlyPayload) := by
  rw [superstep_waits hv.traceId hv.runId rfl fun _ => rfl, hv.fingerprint, hv.riskReasons]
  rfl

/-- The values and the task of a run that waits for the approval. -/
def waitingSnapshot (v : AgentState) : Snapshot :=
  ⟨v, [⟨.requestApproval, none, [costlyPayload]⟩]⟩

/-- The approval is asked for and committed, and the run waits for it. -/
theorem costly_waiting (columns : List String) : ∃ v history, Costly 1 v ∧
    (orderly ordersGraph).Reachable ⟨requestedStore, ⟨some (waitingSnapshot v), none, history⟩⟩ := by
  obtain ⟨v, hb, hv⟩ := orders_drafted 20000 columns
  obtain ⟨u, hu, hv⟩ := costly_guarded hv columns
  obtain ⟨history, hr⟩ := hb.completed (by simp) hu
  let asking : Workflow := ⟨some (.pending (v.merge u) (some .requestApproval)), some none, history⟩
  let asked : Store := freshStore.put 0 ⟨freshStore.job, requestCall⟩
  have hasking : Asking asking := ⟨v.merge u, _, rfl, rfl, rfl⟩
  have h0 : (orderly ordersGraph).Reachable ⟨freshStore, asking⟩ := Joint.lift ⟨_, _, rfl⟩ hr
  have h1 : (orderly ordersGraph).step ⟨freshStore, asking⟩ (.platform (.start 0 requestCall))
      ⟨asked, asking⟩ := ⟨⟨rfl, rfl, v.merge u, _, none, rfl, rfl, rfl⟩, id, id⟩
  have h2 : (orderly ordersGraph).step ⟨asked, asking⟩ (.platform (.commit 0 1))
      ⟨requestedStore, asking⟩ := by
    refine ⟨⟨rfl, rfl⟩, fun ht => ?_, id⟩
    obtain ⟨o, ho, ⟨hsent, _⟩ | ⟨_, _, hno⟩⟩ := ht
    · cases ho
      cases hsent
    · exact hno hasking
  have hno : ¬ requestedStore.Awaited := by
    intro hawaited
    obtain ⟨id, read, d, r, c, ho⟩ := hawaited
    rw [requested_opened] at ho
    cases ho
  obtain ⟨history', h⟩ :=
    Joint.interrupted ((h0.step h1).step h2) requested_present hno (costly_paused hv columns)
  exact ⟨v.merge u, _, hv, h⟩

theorem deciding_sent (d : ApprovalStatus) :
    (decidingStore d .unsent).put 1 ⟨requestedStore.job, decideCall d .sent⟩ =
      decidingStore d .sent := by
  simp [decidingStore, Store.put]

theorem deciding_answered (d : ApprovalStatus) (result : AgentRunResult) :
    (decidingStore d .sent).put 1 ⟨requestedStore.job, decideCall d (.answered result)⟩ =
      decidingStore d (.answered result) := by
  simp [decidingStore, Store.put]

theorem costly_sent (columns : List String) {d : ApprovalStatus} (hd : d ≠ .pending) :
    ∃ v history, Costly 1 v ∧ (orderly ordersGraph).Reachable ⟨decidingStore d .sent,
      ⟨some (waitingSnapshot v), some (some (costlyResume d)), history⟩⟩ := by
  obtain ⟨v, history, hv, hr⟩ := costly_waiting columns
  have h1 : (orderly ordersGraph).step ⟨requestedStore, ⟨some (waitingSnapshot v), none, history⟩⟩
      (.platform (.start 1 (decideCall d .unsent)))
      ⟨decidingStore d .unsent, ⟨some (waitingSnapshot v), none, history⟩⟩ := by
    refine ⟨?_, id, id⟩
    cases d with
    | pending => exact absurd rfl hd
    | approved => exact ⟨rfl, rfl⟩
    | rejected => exact ⟨rfl, rfl⟩
  have h2 : (orderly ordersGraph).step
      ⟨decidingStore d .unsent, ⟨some (waitingSnapshot v), none, history⟩⟩ (.platform (.send 1))
      ⟨decidingStore d .sent, ⟨some (waitingSnapshot v), some (some (costlyResume d)),
        .resumed (costlyResume d) :: history⟩⟩ := by
    rw [← deciding_sent]
    refine ⟨⟨rfl, _, _, _, _, _, rfl, rfl, rfl⟩, fun ht => ?_, id⟩
    obtain ⟨o, ho, hne⟩ := ht
    cases ho
    exact hne rfl
  exact ⟨v, _, hv, (hr.step h1).step h2⟩

end CostlyOrders
end DataCopilot.Platform
