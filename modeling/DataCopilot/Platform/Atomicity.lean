import DataCopilot.Platform.Joint

/-! A decision is made on both sides or on none: while an approval is pending, the run still
waits for it. -/
namespace DataCopilot.Platform
open Versioned AnalysisJobStateMachine Agent AgentGraph Store

/-- The run is at the interrupt of the approval node. -/
def Waiting (w : Workflow) : Prop :=
  ∃ v task, w.snapshot = some ⟨v, [task]⟩ ∧ task.step = .requestApproval ∧
    task.interrupts ≠ [] ∧ w.driving = none

/-- It is there, or on the way from its request to its interrupt. -/
def Awaits (w : Workflow) : Prop := Asking w ∨ Waiting w

variable {G : AgentGraph} {s t : Joint} {l : JointMove} {w w' : Workflow}

/-- A run that waits takes any decision. -/
theorem Waiting.resumes (h : Waiting w) (r : ApprovalResume) : ∃ w', G.next w (.resume r) = some w' := by
  obtain ⟨v, task, hsnap, _, hi, hd⟩ := h
  have hinterrupted : Snapshot.interrupted ⟨v, [task]⟩ = true := by
    simpa [Snapshot.interrupted] using hi
  refine ⟨{ w with driving := some (some r), history := .resumed r :: w.history }, ?_⟩
  simp [AgentGraph.next, hsnap, hd, hinterrupted]

/-- Only a resume or a break ends the wait. -/
theorem Awaits.kept {m : Agent.Move} (h : Awaits w) (hs : G.next w m = some w')
    (hm : ∀ r, m ≠ .resume r) (hb : ¬ Breaks G w m) : Awaits w' := by
  have hsnap : ∃ v task, w.snapshot = some ⟨v, [task]⟩ ∧ task.step = .requestApproval := by
    obtain ⟨v, task, hsnap, hstep, _⟩ | ⟨v, task, hsnap, hstep, _⟩ := h
    · exact ⟨v, task, hsnap, hstep⟩
    · exact ⟨v, task, hsnap, hstep⟩
  have hdriving (resume : Option ApprovalResume) (hd : w.driving = some resume) : resume = none := by
    obtain ⟨_, _, _, _, hasking⟩ | ⟨_, _, _, _, _, hidle⟩ := h
    · rw [hasking] at hd
      cases hd
      rfl
    · rw [hidle] at hd
      cases hd
  obtain ⟨v, task, hsnap, hstep⟩ := hsnap
  obtain ⟨r, rfl, hn, rfl⟩ | ⟨world, keeps, v', task', resume, rfl, hsnap', hd, rfl⟩ |
    ⟨r, snapshot, rfl, _⟩ | ⟨resume, rfl, _⟩ := next_cases hs
  · rw [hsnap] at hn
    cases hn
  · rw [hsnap] at hsnap'
    cases hsnap'
    obtain rfl := hdriving resume hd
    have hcases := @drive_cases G world keeps v task none w.history
    obtain ⟨u, next, hr, _⟩ | ⟨p, hr, he⟩ | ⟨f, hr, _⟩ := hcases
    · rw [hstep] at hr
      obtain ⟨r, hnone, _⟩ := requestApproval_ok hr
      cases hnone
    · rw [he]
      exact .inr ⟨v, _, rfl, hstep, by simp, rfl⟩
    · exact absurd ⟨v, task, none, f, hsnap, hd, hr⟩ hb
  · exact absurd rfl (hm r)
  · exact absurd trivial hb

/-- A pending approval that no decision has sent yet is awaited, and what was sent was sent
for a waiting job. -/
structure Bound (s : Joint) : Prop where
  awaited : s.store.Undecided → ¬ s.store.InFlight → Awaits s.agent
  sent : ∀ id o, s.store.opened id = some o → o.body.sent = true →
    o.read.value.status = .waitingApproval

/-- The end of a transaction that has sent nothing. -/
theorem inFlight_close {s t : Store} {id : Nat} {o : OpenTransaction} (ho : s.opened id = some o)
    (hsent : o.body.sent = false) (ht : t.opened = (s.close id).opened) (h : s.InFlight) :
    t.InFlight := by
  obtain ⟨i, o', ho', hs'⟩ := h
  refine ⟨i, o', ?_, hs'⟩
  rw [ht, close_opened, if_neg, ho']
  rintro rfl
  rw [ho] at ho'
  cases ho'
  rw [hsent] at hs'
  cases hs'

/-- What was sent for a waiting job, and comes to commit on the row that was read, commits. -/
theorem sent_commits {s : Store} {id now : Nat} {o : OpenTransaction} (hwf : s.WellFormed)
    (href : s.Refused id now o) (hsent : o.body.sent = true)
    (hread : o.read.value.status = .waitingApproval) : o.read.version ≠ s.job.version := by
  obtain ⟨hopen, hready, hstale⟩ := href
  obtain ⟨read, body⟩ := o
  cases body with
  | decide decision reviewerId comment stage =>
    cases stage with
    | unsent => cases hsent
    | sent => cases hready
    | answered result =>
      have hlock := hwf.locked id _ hopen rfl
      obtain ⟨approval, ha, hp⟩ := hwf.pending (by rw [hlock]; simp)
      have hne : decision ≠ .pending := by
        simpa [Transaction.pends] using hwf.decisions id _ hopen
      obtain ⟨written, hw⟩ :=
        ApprovalService.decide_waiting now reviewerId comment result hp hne hread
      have hbody : (Transaction.decide decision reviewerId comment (.answered result)).body now
          s.approval read.value = .ok (written.1, some written.2) := by
        rw [ha]
        exact Result.bind_eq_ok.mpr ⟨written, hw, rfl⟩
      have hnone := hstale _ _ hbody
      intro hv
      simp only [Cell.commit] at hnone
      split at hnone
      · cases hnone
      · cases hnone
  | _ => cases hsent

/-- The step lemma. -/
theorem Bound.kept (h : Bound s) (hr : (Joint.system G).Reachable s)
    (hs : (Joint.system G).step s l t) (hno : ¬ Tears G s l) : Bound t := by
  have hwf := wellFormed (Joint.reachable_store hr)
  cases l with
  | agent m =>
    obtain ⟨he, hs, hc⟩ := hs
    have hm (r : ApprovalResume) : m ≠ .resume r := by
      rintro rfl
      exact hc
    refine ⟨fun hu hf => ?_, by rw [he]; exact h.sent⟩
    rw [he] at hu hf
    have hbreak : ¬ Breaks G s.agent m := fun hb => hno ⟨hu, hf, hb⟩
    exact (h.awaited hu hf).kept hs hm hbreak
  | platform m =>
    obtain ⟨hs, hserve⟩ := hs
    refine ⟨fun hu hf => ?_, fun id o ho hsent => ?_⟩
    · -- the agent stays, and the wait was there before
      have hstays (hm : ∀ id, m ≠ .send id) (ha : t.store.approval = s.store.approval)
          (hflight : s.store.InFlight → t.store.InFlight) : Awaits t.agent := by
        rw [hserve.same hm]
        refine h.awaited ?_ fun hin => hf (hflight hin)
        obtain ⟨approval, happ, hp⟩ := hu
        exact ⟨approval, ha ▸ happ, hp⟩
      obtain ⟨id, body, rfl, hst⟩ | ⟨id, read, d, r, c, rfl, ho, he⟩ |
        ⟨id, read, d, r, c, result, rfl, ho, he⟩ | ⟨id, now, o, rfl, hc⟩ |
        ⟨id, now, o, rfl, href, he⟩ | ⟨id, o, rfl, ho, he⟩ := next_cases hs
      · refine hstays (by simp) hst.approval fun hin => ?_
        obtain ⟨i, o, ho, hsent⟩ := hin
        refine ⟨i, o, ?_, hsent⟩
        rw [hst.opened, put_opened, if_neg, ho]
        rintro rfl
        rw [hst.free] at ho
        cases ho
      · have hin : t.store.InFlight := by
          rw [he]
          exact ⟨id, _, by rw [put_opened, if_pos rfl], rfl⟩
        exact absurd hin hf
      · have hin : t.store.InFlight := by
          rw [he]
          exact ⟨id, _, by rw [put_opened, if_pos rfl], rfl⟩
        exact absurd hin hf
      · obtain ⟨job, hb, _⟩ := hc.written
        have hw := Transaction.body_writes hb
        have hclose (hsent : o.body.sent = false) (ha : t.store.approval = s.store.approval) :
            Awaits t.agent :=
          hstays (by simp) ha (inFlight_close hc.opened hsent hc.closed)
        obtain ⟨hopen, hready, _, _, _⟩ := hc
        obtain ⟨read, body⟩ := o
        cases hw with
        | same _ happ hsettles =>
          refine hclose ?_ happ
          cases body with
          | decide decision reviewerId comment stage =>
            cases stage with
            | unsent => rfl
            | sent => cases hready
            | answered result => cases hsettles
          | _ => rfl
        | prepared happ => exact hclose rfl happ
        | persisted happ => exact hclose rfl happ
        | failed happ => exact hclose rfl happ
        | requested hnone =>
          rw [hserve.same (by simp)]
          by_contra hawaits
          exact hno ⟨_, hopen, .inr ⟨rfl, hnone, fun hasking => hawaits (.inl hasking)⟩⟩
        | decided _ _ happ hne hwritten =>
          obtain ⟨approval, ha, hp⟩ := hu
          rw [happ] at ha
          cases ha
          exact absurd (hwritten.symm.trans hp) hne
      · by_cases hsent : o.body.sent = true
        · have hread := h.sent id o href.opened hsent
          have hstale := sent_commits hwf href hsent hread
          exact absurd ⟨o, href.opened, .inl ⟨hsent, hstale⟩⟩ hno
        · refine hstays (by simp) (by rw [he]; rfl) ?_
          exact inFlight_close href.opened (by simpa using hsent) (by rw [he])
      · by_cases hsent : o.body.sent = true
        · exact absurd ⟨o, ho, hsent⟩ hno
        · refine hstays (by simp) (by rw [he]; rfl) ?_
          exact inFlight_close ho (by simpa using hsent) (by rw [he])
    · obtain hold | ⟨body, rfl, hst, he⟩ | ⟨read, d, r, c, rfl, hold, he⟩ |
        ⟨read, d, r, c, result, rfl, hold, he⟩ := opened_cases hs ho
      · exact h.sent id o hold hsent
      · subst he
        by_cases hd : body.decides = true
        · obtain ⟨_, _, _, _, _, _, _, rfl⟩ := hst.decide hd
          cases hsent
        · cases body with
          | decide => exact absurd rfl hd
          | _ => cases hsent
      · subst he
        by_contra hwait
        exact hno ⟨_, hold, hwait⟩
      · subst he
        have hread := h.sent id _ hold rfl
        exact hread

/-- The run lemma. -/
theorem bound (h : ((Joint.system G).restrict fun s l _ => ¬ Tears G s l).Reachable s) : Bound s := by
  refine h.invariant (fun s hi => ?_) fun s l t hr hb hs => ?_
  · obtain ⟨⟨id, createdBy, he⟩, _⟩ := hi
    refine ⟨fun hu => ?_, ?_⟩
    · obtain ⟨approval, ha, _⟩ := hu
      rw [he] at ha
      cases ha
    · rw [he]
      simp
  · obtain ⟨hs, hno⟩ := hs
    exact hb.kept hr.of_restrict hs hno

/-- Unless a step tears the two sides apart, a pending approval that no decision is open for
is that of a run at its approval node: once its call has returned, the run waits at the
interrupt, and takes any later decision. -/
theorem decision_atomic (h : ((Joint.system G).restrict fun s l _ => ¬ Tears G s l).Reachable s)
    (hopen : ∀ id o, s.store.opened id = some o → o.body.decides = false) {approval : Approval}
    (ha : s.store.approval = some approval) (hp : approval.status = .pending) :
    Awaits s.agent ∧ (s.agent.driving = none → Waiting s.agent ∧
      ∀ r, ∃ w, G.next s.agent (.resume r) = some w) := by
  have hidle : ¬ s.store.InFlight := by
    intro hin
    obtain ⟨id, o, ho, hsent⟩ := hin
    have hdecides := hopen id o ho
    obtain ⟨read, body⟩ := o
    cases body with
    | decide => cases hdecides
    | _ => cases hsent
  have hawaits := (bound h).awaited ⟨approval, ha, hp⟩ hidle
  refine ⟨hawaits, fun hd => ?_⟩
  obtain ⟨_, _, _, _, hasking⟩ | hwaiting := hawaits
  · rw [hd] at hasking
    cases hasking
  · exact ⟨hwaiting, hwaiting.resumes⟩

/-! The list of orders: its approval waits; and an approval whose response is lost. -/
section CostlyOrders

theorem costly_decision_atomic : ∃ w, Waiting w ∧ ∀ r, ∃ w', ordersGraph.next w (.resume r) = some w' := by
  obtain ⟨v, history, _, hr⟩ := costly_waiting ["order_id"]
  have hreach := hr.weaken (D := fun s l _ => ¬ Tears ordersGraph s l) fun _ _ _ hno => hno.1
  have hopen (id : Nat) (o : OpenTransaction) (ho : requestedStore.opened id = some o) :
      o.body.decides = false := by
    rw [requested_opened] at ho
    cases ho
  exact ⟨_, (decision_atomic hreach hopen requested_approval rfl).2 rfl⟩

def lostStore : Store := (decidingStore .rejected .sent).close 1

theorem lost_opened (id : Nat) : lostStore.opened id = none := by
  have hopened : (decidingStore .rejected .sent).opened =
      (requestedStore.put 1 ⟨requestedStore.job, decideCall .rejected .sent⟩).opened := rfl
  rw [lostStore, close_opened, hopened, put_opened]
  by_cases hid : id = 1
  · rw [if_pos hid]
  · rw [if_neg hid, if_neg hid]
    exact requested_opened id

/-- A rejection is rolled back when the response to its resume is lost: the approval is
pending, and the run is over. -/
theorem lost_response_tears : ¬ ∀ s : Joint, (Joint.system ordersGraph).Reachable s →
    (∀ id o, s.store.opened id = some o → o.body.decides = false) →
    ∀ approval, s.store.approval = some approval → approval.status = .pending →
      Awaits s.agent ∧ (s.agent.driving = none → Waiting s.agent ∧
        ∀ r, ∃ w, ordersGraph.next s.agent (.resume r) = some w) := by
  intro hall
  obtain ⟨v, history, hv, hr⟩ := costly_sent ["order_id"] (d := .rejected) (by simp)
  have hstop := superstep_resumes (G := ordersGraph) (w := ordersWorld 20000 ["order_id"])
    hv.traceId hv.runId rfl (fun _ => rfl) (costlyResume .rejected)
  obtain ⟨older, hr⟩ := Joint.completed hr requested_present hstop
  let w : Workflow := ⟨some (.pending (v.merge (decided .rejected)) none), none,
    .completed .requestApproval (decided .rejected) :: older⟩
  have h1 : (Joint.system ordersGraph).step ⟨decidingStore .rejected .sent, w⟩
      (.platform (.rollback 1)) ⟨lostStore, w⟩ := ⟨rfl, rfl⟩
  have hopen (id : Nat) (o : OpenTransaction) (ho : lostStore.opened id = some o) :
      o.body.decides = false := by
    rw [lost_opened] at ho
    cases ho
  obtain ⟨_, hwaiting⟩ := hall _ (hr.of_restrict.step h1) hopen _ requested_approval rfl
  obtain ⟨⟨_, _, hsnap, _⟩, _⟩ := hwaiting rfl
  cases hsnap

end CostlyOrders
end DataCopilot.Platform
