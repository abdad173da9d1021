import DataCopilot.Agent.Course
import DataCopilot.Agent.Failing
import DataCopilot.Agent.StepRecords
import DataCopilot.Platform.AgentSteps

/-! The keys of the step records of a run, as the platform tells them apart: step, attempt and
status. The attempt is read before the node runs, and only one node advances it. -/
namespace DataCopilot.Agent
open Sql Effects AgentGraph NorthwindAgentActions

/-- How a node has ended. -/
inductive Ending where
  | completed | interrupted | failed
deriving DecidableEq

def Event.ending : Event → Option Ending
  | .completed _ _ => some .completed
  | .interrupted _ => some .interrupted
  | .failed _ _ => some .failed
  | _ => none

def endings (history : List Event) : List Ending := history.filterMap Event.ending

/-- A record that was sent, with what had ended before. -/
structure Sent where
  before : List Ending
  record : AgentStepRecord

def sent : List Event → List Sent
  | [] => []
  | .called (.record r) :: older => ⟨endings older, r⟩ :: sent older
  | _ :: older => sent older

/-- The later record comes from another execution of the approval node, with no node completed in
between. Unless it says that the run waits, an execution has failed in between. -/
structure SamePause (earlier later : Sent) : Prop where
  step : later.record.stepName = .requestApproval
  pause : later.before.count .completed = earlier.before.count .completed
  again : earlier.before.length < later.before.length
  status : later.record.status = .waiting ∨ earlier.before.count .failed < later.before.count .failed

namespace StepName

/-- The order of the nodes between two drafts. -/
def order : StepName → Nat
  | classify => 0
  | retrieveMetrics => 1
  | selectSchema => 2
  | guardSql => 3
  | requestApproval => 4
  | executeSql => 5
  | verify => 6
  | generateSql => 7
  | compose => 8

def clock (step : StepName) (attempt : Nat) : Nat := 9 * attempt + step.order

theorem order_lt (step : StepName) : step.order < 9 := by cases step <;> decide

theorem order_of_stage {p q : StepName} (hp : p ≠ generateSql) (h : p.stage < q.stage)
    (hfirst : p.stage < generateSql.stage → q.stage ≤ generateSql.stage ∨ verify.stage < q.stage) :
    p.order < q.order := by
  revert hp h hfirst
  cases p <;> cases q <;> decide

end StepName

variable {G : AgentGraph} {w : World} {resume : Option ApprovalResume} {step next : StepName}
  {v u : AgentState} {task : Task} {s t : Workflow} {history : List Event} {calls : List Call}

/-- Every edge goes on in this order, and into the next attempt from its draft. -/
theorem clock_lt (counts : Counts step v u) (edge : G.route step (v.merge u) = .ok (some next)) :
    step.clock v.attempt < next.clock (v.merge u).attempt := by
  have hlt := step.order_lt
  rw [Counts] at counts
  rw [counts, StepName.clock, StepName.clock]
  obtain ⟨hforward, hfirst⟩ | ⟨rfl, hlate, hearly, _⟩ := route_stage edge
  · by_cases hg : step = .generateSql
    · rw [if_pos hg]
      omega
    · have horder := StepName.order_of_stage hg hforward hfirst
      rw [if_neg hg]
      omega
  · have hg : step ≠ .generateSql := by
      rintro rfl
      omega
    have horder : step.order < StepName.generateSql.order := by
      revert hlate hearly
      cases step <;> decide
    rw [if_neg hg]
    omega

theorem attempt_le (h : G.system.Reachable s) : ∀ snapshot, s.snapshot = some snapshot →
    snapshot.values.attempt ≤ G.maxRepairs + 1 := by
  have hall := checkpoint_invariant (P := fun next v => v.attempt ≤ G.maxRepairs + 1 ∧
    ∀ step, next = some step → step.stage ≤ StepName.generateSql.stage → v.attempt ≤ G.maxRepairs) ?_ ?_ h
  · exact fun snapshot hs => (hall snapshot hs).1
  · intro r
    exact ⟨Nat.zero_le _, fun _ _ _ => Nat.zero_le _⟩
  · intro w resume step v u next ⟨hv, hleft⟩ hr
    have hcounts := completed_counts hr
    rw [Counts] at hcounts
    constructor
    · by_cases hg : step = .generateSql
      · rw [hcounts, if_pos hg]
        exact Nat.succ_le_succ (hleft step rfl (by rw [hg]))
      · rw [hcounts, if_neg hg]
        exact hv
    · rintro next rfl hstage
      obtain ⟨hforward, _⟩ | ⟨_, _, _, hback⟩ := route_stage (superstep_ok hr).2
      · have hg : step ≠ .generateSql := by
          rintro rfl
          omega
        rw [hcounts, if_neg hg]
        exact hleft step rfl (by omega)
      · exact hback

theorem endings_called : endings (calls.map Event.called ++ history) = endings history := by
  induction calls with
  | nil => rfl
  | cons c calls ih => exact ih

theorem sent_called : sent (calls.map Event.called ++ history) =
    (calls.filterMap Call.recorded).map (Sent.mk (endings history)) ++ sent history := by
  induction calls with
  | nil => rfl
  | cons c calls ih =>
    cases c with
    | record r =>
      simp only [List.map_cons, List.cons_append, sent, endings_called, ih]
      rfl
    | _ => exact ih

/-- A record of the node at which the run has stopped. -/
structure Stopped (history : List Event) (v : AgentState) (task : Task) (x : Sent) : Prop where
  step : x.record.stepName = task.step
  attempt : x.record.attempt = v.attempt
  pause : (endings history).count .completed = x.before.count .completed
  again : x.before.length < (endings history).length
  status : x.record.status = .waiting ∨ x.before.count .failed < (endings history).count .failed

/-- The records of a run lie behind it, but for those of a node that is to run again. -/
structure Keyed (s : Workflow) : Prop where
  distinct : (sent s.history).Pairwise fun later earlier =>
    later.record.key = earlier.record.key → SamePause earlier later
  behind : ∀ v task, s.snapshot = some ⟨v, [task]⟩ → ∀ x ∈ sent s.history,
    x.record.stepName.clock x.record.attempt < task.step.clock v.attempt ∨
      (s.driving ≠ some none ∧ Stopped s.history v task x)
  resumed : ∀ v task r, s.snapshot = some ⟨v, [task]⟩ → s.driving = some (some r) →
    task.step = .requestApproval

namespace Keyed

/-- The records of the node that runs, before those that were sent earlier. -/
def fresh (G : AgentGraph) (w : World) (resume : Option ApprovalResume) (v : AgentState) (task : Task)
    (history : List Event) : List Sent :=
  (records (G.superstep w resume task.step v)).map (Sent.mk (endings history))

theorem fresh_cases {x : Sent} (hx : x ∈ fresh G w resume v task history) :
    x.before = endings history ∧ x.record ∈ records (G.superstep w resume task.step v) ∧
      x.record.stepName = task.step ∧ x.record.attempt = v.attempt := by
  obtain ⟨r, hr, rfl⟩ := List.mem_map.mp hx
  exact ⟨rfl, hr, superstep_sends.stepName r hr, superstep_sends.attempt r hr⟩

theorem behind_le (h : Keyed s) (hsnap : s.snapshot = some ⟨v, [task]⟩) {x : Sent}
    (hx : x ∈ fresh G w resume v task s.history ++ sent s.history) :
    x.record.stepName.clock x.record.attempt ≤ task.step.clock v.attempt := by
  obtain hx | hx := List.mem_append.mp hx
  · obtain ⟨_, _, hstep, hattempt⟩ := fresh_cases hx
    rw [hstep, hattempt]
  · obtain hlt | ⟨_, hstop⟩ := h.behind v task hsnap x hx
    · exact hlt.le
    · rw [hstop.step, hstop.attempt]

/-- Where a new record repeats the key of an earlier one, the approval node runs again. -/
theorem drive_distinct (h : Keyed s) (hsnap : s.snapshot = some ⟨v, [task]⟩)
    (hd : s.driving = some resume) :
    (fresh G w resume v task s.history ++ sent s.history).Pairwise fun later earlier =>
      later.record.key = earlier.record.key → SamePause earlier later := by
  have hnew : (fresh G w resume v task s.history).Pairwise fun later earlier =>
      later.record.key = earlier.record.key → SamePause earlier later := by
    refine List.pairwise_map.mpr ((superstep_sends.distinct (by decide)).imp fun hne he => ?_)
    exact absurd he hne
  refine List.pairwise_append.mpr ⟨hnew, h.distinct, fun later hl earlier he hkey => ?_⟩
  obtain ⟨hbefore, _, hstep, hattempt⟩ := fresh_cases hl
  obtain ⟨hname, hnumber, hstatus⟩ : later.record.stepName = earlier.record.stepName ∧
      later.record.attempt = earlier.record.attempt ∧ later.record.status = earlier.record.status := by
    simpa only [AgentStepRecord.key, Prod.mk.injEq] using hkey
  obtain hlt | ⟨hdriving, hstop⟩ := h.behind v task hsnap earlier he
  · rw [← hname, ← hnumber, hstep, hattempt] at hlt
    exact absurd hlt (lt_irrefl _)
  · cases resume with
    | none => exact absurd hd hdriving
    | some r =>
      have hpause := h.resumed v task r hsnap hd
      constructor
      · rw [hstep, hpause]
      · rw [hbefore]
        exact hstop.pause
      · rw [hbefore]
        exact hstop.again
      · rw [hbefore, hstatus]
        exact hstop.status

/-- A node that completes leaves its records behind. -/
theorem completed {after : Option StepName} (h : Keyed s) (hsnap : s.snapshot = some ⟨v, [task]⟩)
    (hd : s.driving = some resume) (hr : (G.superstep w resume task.step v).result = .ok (u, after)) :
    Keyed ⟨some (.pending (v.merge u) after), after.map fun _ => none, .completed task.step u ::
      ((G.superstep w resume task.step v).calls.map .called ++ s.history)⟩ := by
  have hsent : sent (.completed task.step u :: ((G.superstep w resume task.step v).calls.map .called ++
      s.history)) = fresh G w resume v task s.history ++ sent s.history := sent_called
  refine ⟨?_, ?_, ?_⟩
  · rw [hsent]
    exact h.drive_distinct hsnap hd
  · intro v' task' he x hx
    rw [hsent] at hx
    cases after with
    | none => cases he
    | some next =>
      cases he
      have hclock := clock_lt (completed_counts hr) (superstep_ok hr).2
      exact .inl ((h.behind_le hsnap hx).trans_lt hclock)
  · intro v' task' r _ hdrive
    cases after with
    | none => cases hdrive
    | some next => cases hdrive

/-- The records of a node that stops stay at its place. -/
theorem stopped {e : Event} {ending : Ending} {task' : Task} (h : Keyed s)
    (hsnap : s.snapshot = some ⟨v, [task]⟩) (hd : s.driving = some resume) (htask : task'.step = task.step)
    (he : e.ending = some ending) (hne : ending ≠ .completed)
    (hwaits : ending ≠ .failed → ∀ r ∈ records (G.superstep w resume task.step v), r.status = .waiting) :
    Keyed ⟨some ⟨v, [task']⟩, none, e :: ((G.superstep w resume task.step v).calls.map .called ++ s.history)⟩ := by
  have hsent : sent (e :: ((G.superstep w resume task.step v).calls.map .called ++ s.history)) =
      fresh G w resume v task s.history ++ sent s.history := by
    cases e with
    | called c => cases he
    | _ => exact sent_called
  have hendings : endings (e :: ((G.superstep w resume task.step v).calls.map .called ++ s.history)) =
      ending :: endings s.history := by
    rw [endings, List.filterMap_cons, he]
    exact congrArg (List.cons ending) endings_called
  have hcompleted : (endings (e :: ((G.superstep w resume task.step v).calls.map .called ++
      s.history))).count .completed = (endings s.history).count .completed := by
    rw [hendings]
    exact List.count_cons_of_ne hne
  have hfailed (n : Nat) (hn : n < (endings s.history).count .failed ∨
      (ending = .failed ∧ n = (endings s.history).count .failed)) :
      n < (endings (e :: ((G.superstep w resume task.step v).calls.map .called ++
        s.history))).count .failed := by
    rw [hendings, List.count_cons]
    obtain hn | ⟨rfl, rfl⟩ := hn
    · exact Nat.lt_add_right _ hn
    · exact Nat.lt_succ_self _
  refine ⟨?_, ?_, ?_⟩
  · rw [hsent]
    exact h.drive_distinct hsnap hd
  · intro v' task'' hsnap' x hx
    cases hsnap'
    rw [hsent] at hx
    obtain hx | hx := List.mem_append.mp hx
    · obtain ⟨hbefore, hrecord, hstep, hattempt⟩ := fresh_cases hx
      refine .inr ⟨by simp, hstep.trans htask.symm, hattempt, ?_, ?_, ?_⟩
      · rw [hcompleted, hbefore]
      · rw [hendings, hbefore]
        exact Nat.lt_succ_self _
      · by_cases hf : ending = .failed
        · exact .inr (hfailed _ (.inr ⟨hf, by rw [hbefore]⟩))
        · exact .inl (hwaits hf _ hrecord)
    · obtain hlt | ⟨_, hstop⟩ := h.behind v task hsnap x hx
      · rw [← htask] at hlt
        exact .inl hlt
      · refine .inr ⟨by simp, hstop.step.trans htask.symm, hstop.attempt, ?_, ?_, ?_⟩
        · rw [hcompleted]
          exact hstop.pause
        · rw [hendings]
          exact Nat.lt_succ_of_lt hstop.again
        · exact hstop.status.imp_right fun hlt => hfailed _ (.inl hlt)
  · intro _ _ _ _ hdrive
    cases hdrive

/-- Calls and crashes send nothing. -/
theorem quiet {e : Event} {driving : Option (Option ApprovalResume)} (h : Keyed s)
    (he : e.ending = none) (hc : ∀ c, e ≠ .called c) (hd : driving ≠ some none)
    (hr : ∀ v task r, s.snapshot = some ⟨v, [task]⟩ → driving = some (some r) →
      task.step = .requestApproval) : Keyed ⟨s.snapshot, driving, e :: s.history⟩ := by
  have hsent : sent (e :: s.history) = sent s.history := by
    cases e with
    | called c => exact absurd rfl (hc c)
    | _ => rfl
  have hendings : endings (e :: s.history) = endings s.history := by
    rw [endings, List.filterMap_cons, he]
    rfl
  refine ⟨by rw [hsent]; exact h.distinct, ?_, hr⟩
  intro v task hsnap x hx
  rw [hsent] at hx
  refine (h.behind v task hsnap x hx).imp_right fun ⟨_, hstop⟩ => ⟨hd, hstop.step, hstop.attempt, ?_, ?_, ?_⟩
  · rw [hendings]
    exact hstop.pause
  · rw [hendings]
    exact hstop.again
  · rw [hendings]
    exact hstop.status

/-- The step lemma. -/
theorem kept {m : Move} (h : Keyed s) (hreach : G.system.Reachable s) (hs : G.next s m = some t) :
    Keyed t := by
  obtain ⟨r, rfl, hn, rfl⟩ | ⟨w, keeps, v, task, resume, rfl, hsnap, hd, rfl⟩ |
    ⟨r, snapshot, rfl, hsnap, hd, hi, rfl⟩ | ⟨resume, rfl, hd, rfl⟩ := next_cases hs
  · rw [((audited hreach).fresh hn).1]
    refine ⟨List.Pairwise.nil, ?_, ?_⟩
    · intro v task _ x hx
      cases hx
    · intro v task r' _ hdrive
      cases hdrive
  · obtain ⟨u, next, hr, hdrive⟩ | ⟨p, hr, hdrive⟩ | ⟨f, hr, hdrive⟩ :=
      @drive_cases G w keeps v task resume s.history
    · rw [hdrive]
      exact h.completed hsnap hd hr
    · rw [hdrive]
      exact h.stopped hsnap hd rfl rfl (by decide) fun _ => superstep_interrupted hr
    · rw [hdrive]
      exact h.stopped hsnap hd rfl rfl (by decide) fun hf => absurd rfl hf
  · refine h.quiet rfl (by simp) (by simp) fun v task r' hsnap' _ => ?_
    rw [hsnap'] at hsnap
    cases hsnap
    exact (audited hreach).interrupts v task hsnap' (by simpa [Snapshot.interrupted] using hi)
  · exact h.quiet rfl (by simp) (by simp) fun v task r' _ hdrive => by cases hdrive

end Keyed

theorem keyed (h : G.system.Reachable s) : Keyed s := by
  refine h.invariant (fun s hi => ?_) fun s m t hr hk hs => hk.kept hr hs
  cases hi
  exact ⟨List.Pairwise.nil, by simp, by simp⟩

theorem sent_next {m : Move} (hs : G.next s m = some t) :
    sent t.history = sent s.history ∨ ∃ w v task resume, s.snapshot = some ⟨v, [task]⟩ ∧
      sent t.history = Keyed.fresh G w resume v task s.history ++ sent s.history := by
  obtain ⟨r, rfl, hn, rfl⟩ | ⟨w, keeps, v, task, resume, rfl, hsnap, hd, rfl⟩ |
    ⟨r, snapshot, rfl, hsnap, hd, hi, rfl⟩ | ⟨resume, rfl, hd, rfl⟩ := next_cases hs
  · exact .inl rfl
  · refine .inr ⟨w, v, task, resume, hsnap, ?_⟩
    obtain ⟨u, next, _, hdrive⟩ | ⟨p, _, hdrive⟩ | ⟨f, _, hdrive⟩ :=
      @drive_cases G w keeps v task resume s.history
    · rw [hdrive]
      exact sent_called
    · rw [hdrive]
      exact sent_called
    · rw [hdrive]
      exact sent_called
  · exact .inl rfl
  · exact .inl rfl

theorem sent_attempt (h : G.system.Reachable s) :
    ∀ x ∈ sent s.history, x.record.attempt ≤ G.maxRepairs + 1 := by
  refine h.invariant (P := fun s : Workflow => ∀ x ∈ sent s.history, x.record.attempt ≤ G.maxRepairs + 1)
    (fun s hi => ?_) fun s m t hr ih hs => ?_
  · cases hi
    simp [sent]
  · obtain hsame | ⟨w, v, task, resume, hsnap, hnew⟩ := sent_next hs
    · rw [hsame]
      exact ih
    · rw [hnew]
      refine List.forall_mem_append.mpr ⟨fun x hx => ?_, ih⟩
      rw [(Keyed.fresh_cases hx).2.2.2]
      exact attempt_le hr _ hsnap

/-- The run works for the job that it was started for. -/
structure Owned (s : Workflow) (r : StartRun) : Prop where
  values : ∀ snapshot, s.snapshot = some snapshot → snapshot.values.runId = some r.runId
  sent : ∀ x ∈ sent s.history, x.record.runId = r.runId

theorem owned (h : G.system.Reachable s) : ∀ r, .started r ∈ s.history → Owned s r := by
  refine h.invariant (P := fun s : Workflow => ∀ r, .started r ∈ s.history → Owned s r)
    (fun s hi => ?_) fun s m t hreach ih hs => ?_
  · cases hi
    intro r hm
    cases hm
  · obtain ⟨r, rfl, hn, rfl⟩ | ⟨w, keeps, v, task, resume, rfl, hsnap, hd, rfl⟩ |
      ⟨r, snapshot, rfl, hsnap, hd, hi, rfl⟩ | ⟨resume, rfl, hd, rfl⟩ := next_cases hs
    · intro r' hm
      rw [((audited hreach).fresh hn).1, List.mem_singleton] at hm
      cases hm
      constructor
      · intro snapshot he
        cases he
        rfl
      · rw [((audited hreach).fresh hn).1]
        simp [Agent.sent]
    · have hsent (r : StartRun) (ho : Owned s r) :
          ∀ x ∈ Keyed.fresh G w resume v task s.history ++ Agent.sent s.history, x.record.runId = r.runId := by
        refine List.forall_mem_append.mpr ⟨fun x hx => ?_, ho.sent⟩
        have hrun := superstep_sends.runId x.record (Keyed.fresh_cases hx).2.1
        rw [ho.values _ hsnap] at hrun
        exact (Option.some.inj hrun).symm
      obtain ⟨u, next, hr, hdrive⟩ | ⟨p, _, hdrive⟩ | ⟨f, _, hdrive⟩ :=
        @drive_cases G w keeps v task resume s.history
      · rw [hdrive]
        intro r hm
        have ho := ih r (by simpa using hm)
        refine ⟨fun snapshot he => ?_, sent_called ▸ hsent r ho⟩
        cases he
        have hnone := (identity_kept hr).1
        simpa [Snapshot.pending, hnone] using ho.values _ hsnap
      · rw [hdrive]
        intro r hm
        have ho := ih r (by simpa using hm)
        have hv : v.runId = some r.runId := ho.values _ hsnap
        refine ⟨fun snapshot he => ?_, sent_called ▸ hsent r ho⟩
        cases he
        exact hv
      · rw [hdrive]
        intro r hm
        have ho := ih r (by simpa using hm)
        have hv : v.runId = some r.runId := ho.values _ hsnap
        refine ⟨fun snapshot he => ?_, sent_called ▸ hsent r ho⟩
        cases he
        exact hv
    · intro r' hm
      have ho := ih r' (by simpa using hm)
      exact ⟨ho.values, ho.sent⟩
    · intro r' hm
      have ho := ih r' (by simpa using hm)
      exact ⟨ho.values, ho.sent⟩

/-! The same records at the platform. -/

/-- A record as it arrives there. -/
structure Delivery where
  sent : Sent
  job : Platform.StepJob
  newId : UUID
  durationMs : Nat

def PlatformAgentStepSink.request (r : AgentStepRecord) (durationMs : Nat) :
    Platform.RecordAgentStepRequest OutputSummary where
  stepName := r.stepName.text
  status := r.status.text
  attempt := r.attempt
  inputSummary := .state r.inputSummary
  outputSummary := r.outputSummary
  durationMs := durationMs
  errorCode := r.errorCode

def Delivery.report (d : Delivery) : Platform.StepReport OutputSummary :=
  ⟨d.job, d.newId, d.sent.record.runId, PlatformAgentStepSink.request d.sent.record d.durationMs⟩

/-- Some of the deliveries, all with keys of their own, are stored and announced once each; the others
repeat the record of a pause that is stored. -/
def StoredOnce (writeValueAsString : OutputSummary → String) (deliveries : List Delivery)
    (store : Platform.StepStore) : Prop :=
  ∃ firsts : List Delivery, firsts.Sublist deliveries ∧ (firsts.map fun d => d.report.key).Nodup ∧
    (∀ d ∈ deliveries, d ∈ firsts ∨
      ∃ first ∈ firsts, first.sent.record.key = d.sent.record.key ∧ SamePause first.sent d.sent) ∧
    store.rows = firsts.map (fun d => d.report.row writeValueAsString) ∧
    store.signals = firsts.map fun d => d.report.signal

theorem key_of_report {d e : Delivery} (h : d.report.key = e.report.key) :
    d.sent.record.key = e.sent.record.key := by
  simp only [Delivery.report, Platform.StepReport.key, PlatformAgentStepSink.request, Prod.mk.injEq] at h
  obtain ⟨_, hstep, hattempt, hstatus⟩ := h
  rw [AgentStepRecord.key, AgentStepRecord.key, StepName.text_injective hstep, hattempt,
    StepStatus.text_injective hstatus]

open Platform.AgentStepService Replays in
/-- Whichever records arrive, in the order in which they were sent. -/
theorem stored_once {writeValueAsString : OutputSummary → String} {deliveries : List Delivery}
    (h : G.system.Reachable s)
    (hd : (deliveries.map Delivery.sent).Sublist (sent s.history).reverse) :
    ∃ store, recordAll writeValueAsString {} (deliveries.map Delivery.report) = .ok store ∧
      StoredOnce writeValueAsString deliveries store := by
  have hpairs : deliveries.Pairwise fun earlier later =>
      earlier.report.key = later.report.key → SamePause earlier.sent later.sent := by
    have hsent : (deliveries.map Delivery.sent).Pairwise fun earlier later =>
        later.record.key = earlier.record.key → SamePause earlier later :=
      (List.pairwise_reverse.mpr (keyed h).distinct).sublist hd
    refine (List.pairwise_map.mp hsent).imp fun hsame hkey => ?_
    exact hsame (key_of_report hkey).symm
  refine ⟨_, recordAll_eq, firsts (fun d => d.report.key) deliveries, firsts_sublist, firsts_nodup, ?_, ?_, ?_⟩
  · intro d hmem
    refine (mem_firsts_or hpairs hmem).imp_right fun ⟨first, hfirst, hkey, hpause⟩ => ?_
    exact ⟨first, hfirst, key_of_report hkey, hpause⟩
  · simp only [kept, firsts_map, List.map_map]
    rfl
  · simp only [kept, firsts_map, List.map_map]
    rfl

/-- In every run, only the approval node sends a key again, and only where it runs again at the same
pause; the platform stores and announces every other record once. -/
theorem step_keys_repeat_at_pauses (h : G.system.Reachable s) :
    ((sent s.history).Pairwise fun later earlier =>
      later.record.key = earlier.record.key → SamePause earlier later) ∧
    (∀ x ∈ sent s.history, x.record.attempt ≤ 3 ∧
      ∀ r, .started r ∈ s.history → x.record.runId = r.runId) ∧
    ∀ writeValueAsString deliveries, (deliveries.map Delivery.sent).Sublist (sent s.history).reverse →
      ∃ store, Platform.AgentStepService.recordAll writeValueAsString {}
        (deliveries.map Delivery.report) = .ok store ∧ StoredOnce writeValueAsString deliveries store := by
  refine ⟨(keyed h).distinct, fun x hx => ⟨?_, fun r hr => (owned h r hr).sent x hx⟩,
    fun _ _ hd => stored_once h hd⟩
  have hattempt := sent_attempt h x hx
  have hrepairs := G.repairs_ok
  omega

/-! An approval that the platform does not take while the run is resumed, twice. -/

theorem superstep_records_failure {f : Failure} {traceId runId : String}
    (hf : (G.operation w resume step v).result = .error (.failure f)) (ht : v.traceId = some traceId)
    (hr : v.runId = some runId) :
    ∃ r ∈ records (G.superstep w resume step v), r.key = (step, v.attempt, .failed) := by
  have hsucceed : (succeed G.actions.py w step v (G.operation w resume step)).result =
      .error (.failure f) := Effect.bind_error.mpr (.inl hf)
  let r : AgentStepRecord := {
    runId := runId, stepName := step, status := .failed, attempt := v.attempt,
    inputSummary := stateSummary G.actions.py v, outputSummary := .error (classifyError f),
    errorCode := some (f.stableCode G.actions.py.upper) }
  have hgive : .record r ∈ (giveUp G.actions.py w step v (.failure f)).calls := by
    simp [giveUp, recordStep, record, hr, r]
  refine ⟨r, mem_records.mpr ?_, rfl⟩
  refine Effect.mem_bind_calls.mpr (.inr ?_)
  refine Effect.mem_bind_calls.mpr (.inl ⟨traceId, by simp [ht], ?_⟩)
  exact Effect.mem_handle_calls.mpr (.inl ⟨_, hsucceed, hgive⟩)

theorem approval_fails_twice : ∃ s newer older, ordersGraph.system.Reachable s ∧
    sent s.history = newer ++ older ∧ ∃ later ∈ newer, ∃ earlier ∈ older,
      later.record.key = earlier.record.key ∧ later.record.status = .failed := by
  obtain ⟨v, hb, hv, _⟩ := orders_awaiting
  have hrun := hv.runId
  have htrace := hv.traceId
  obtain ⟨history, hreach⟩ := hb.reachable
  obtain ⟨p, hp⟩ := approval_waits (w := ordersWorld 1 []) hrun htrace rfl fun _ => rfl
  have hpaused : ordersGraph.next ⟨some (.pending v (some .requestApproval)), some none, history⟩
      (.node (ordersWorld 1 []) false) = some _ := next_of_interrupt hp
  let approval : ApprovalResume := ⟨"approval-1", .approved, "user-2", none⟩
  have hpause : (pause ordersGraph.actions.py downWorld (some approval) v).result =
      .error (.failure unavailable) := by
    simp only [pause, hrun, htrace]
    rfl
  have hfails (task : Task) (ht : task.step = .requestApproval) :
      (ordersGraph.superstep downWorld (some approval) task.step v).result =
        .error (.failure unavailable) := by
    rw [ht]
    exact approval_fails hrun htrace
  obtain ⟨r, hr, hkey⟩ : ∃ r ∈ records (ordersGraph.superstep downWorld (some approval) .requestApproval v),
      r.key = (.requestApproval, v.attempt, .failed) := superstep_records_failure hpause htrace hrun
  have hwaits := hreach.step hpaused
  have hfirst := (hwaits.step (next_of_resume approval rfl)).step
    (@next_of_failure _ _ _ true _ _ _ _ (hfails ⟨.requestApproval, none, [p]⟩ rfl))
  have hsecond := (hfirst.step (next_of_resume approval rfl)).step
    (@next_of_failure _ _ _ true _ _ _ _ (hfails ⟨.requestApproval, some unavailable.repr, [p]⟩ rfl))
  have hstatus : r.status = .failed := congrArg (fun key => key.2.2) hkey
  let waiting : List Event := .resumed approval :: .interrupted p ::
    ((ordersGraph.superstep (ordersWorld 1 []) none .requestApproval v).calls.map .called ++ history)
  have hearly : ⟨endings waiting, r⟩ ∈ sent (.resumed approval :: .failed .requestApproval unavailable ::
      ((ordersGraph.superstep downWorld (some approval) .requestApproval v).calls.map .called ++ waiting)) := by
    simp only [sent, sent_called]
    exact List.mem_append_left _ (List.mem_map_of_mem hr)
  exact ⟨_, _, _, hsecond, sent_called, ⟨_, r⟩, List.mem_map_of_mem hr, ⟨endings waiting, r⟩, hearly, rfl,
    hstatus⟩

/-- The failure is reported twice under one key, and it does not say that the run waits. -/
theorem failed_approval_repeats : ¬ ∀ s, ordersGraph.system.Reachable s →
    (sent s.history).Pairwise fun later earlier => later.record.key = earlier.record.key →
      later.record.stepName = .requestApproval ∧ later.record.status = .waiting := by
  intro hall
  obtain ⟨s, newer, older, hreach, hsent, later, hl, earlier, he, hkey, hfailed⟩ := approval_fails_twice
  have hpairs := hall s hreach
  rw [hsent] at hpairs
  have hwaiting := ((List.pairwise_append.mp hpairs).2.2 later hl earlier he hkey).2
  rw [hfailed] at hwaiting
  cases hwaiting

theorem failed_approval_same_pause : ∃ s, ordersGraph.system.Reachable s ∧
    ∃ later ∈ sent s.history, ∃ earlier ∈ sent s.history,
      later.record.status = .failed ∧ later.record.attempt ≤ 3 ∧ SamePause earlier later := by
  obtain ⟨s, newer, older, hreach, hsent, later, hl, earlier, he, hkey, hfailed⟩ := approval_fails_twice
  have hlate : later ∈ sent s.history := hsent ▸ List.mem_append_left older hl
  have hearly : earlier ∈ sent s.history := hsent ▸ List.mem_append_right newer he
  obtain ⟨hpairs, hattempt, _⟩ := step_keys_repeat_at_pauses hreach
  rw [hsent] at hpairs
  exact ⟨s, hreach, later, hlate, earlier, hearly, hfailed, (hattempt later hlate).1,
    (List.pairwise_append.mp hpairs).2.2 later hl earlier he hkey⟩

end DataCopilot.Agent
