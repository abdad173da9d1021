import DataCopilot.Agent.Workflow

/-! Why a query may be executed. A ledger is kept of the history of a run: it knows the SQL
of the current attempt, what the guard made of it, and how an approval was answered. -/
namespace DataCopilot.Agent
open Sql Effects

structure Ledger where
  blocked : Bool := false
  knowledge : Bool := false
  refused : Bool := false
  policy : Option QueryPolicy := none
  sql : Option String := none
  inspected : Option (String × QueryPolicy × Except GuardError GuardedQuery) := none
  reasons : Option (List String) := none
  raised : Option InterruptPayload := none
  answered : Option ApprovalDecision := none

namespace Ledger

/-- A new attempt starts with new SQL. An answer is lost when the node that asked for it
fails, or the process stops, before the node has returned. -/
def note (l : Ledger) : Event → Ledger
  | .called (.inspect sql policy verdict) => { l with inspected := some (sql, policy, verdict) }
  | .completed .classify u => { l with
      blocked := u.sqlRisk = some .blocked
      knowledge := u.intent = some .knowledge }
  | .completed .selectSchema u => { l with policy := u.queryPolicy }
  | .completed .generateSql u => { l with
      sql := u.sql
      inspected := none
      reasons := none
      raised := none
      answered := none }
  | .completed .guardSql u => { l with reasons := u.riskReasons }
  | .completed .requestApproval u => { l with
      refused := l.refused || u.approvalDecision = some .rejected }
  | .interrupted p => { l with raised := some p, answered := none }
  | .resumed r => { l with answered := some r.decision }
  | .failed .requestApproval _ | .crashed => { l with answered := none }
  | _ => l

def of : List Event → Ledger
  | [] => {}
  | e :: older => (of older).note e

/-- On the data path, and not stopped by a refusal. -/
structure Open (l : Ledger) : Prop where
  notBlocked : l.blocked = false
  dataPath : l.knowledge = false
  notRefused : l.refused = false

/-- `g` is what the guard last produced, from the SQL of the current attempt and under the
restricted policy of the run. -/
structure Produced (l : Ledger) (g : GuardedQuery) (policy : QueryPolicy) : Prop extends Open l where
  restricted : l.policy = some policy
  produced : ∃ sql, l.sql = some sql ∧ l.inspected = some (sql, policy, .ok g)

/-- The interrupt of this attempt shows the fingerprint of `g`. -/
def Raised (l : Ledger) (g : GuardedQuery) : Prop :=
  ∃ p, l.raised = some p ∧ p.sqlFingerprint = some g.queryFingerprint

structure Authorised (l : Ledger) (g : GuardedQuery) (policy : QueryPolicy) : Prop
    extends Produced l g policy where
  cleared : l.reasons = some [] ∨ l.Raised g ∧ l.answered = some .approved

variable {cs : List Call} {older : List Event}

theorem of_calls (h : ∀ c ∈ cs, c.decisive = true → ∃ g policy, c = .execute g policy) :
    of (cs.map .called ++ older) = of older := by
  induction cs with
  | nil => rfl
  | cons c cs ih =>
    have hrest := ih fun d hd => h d (by simp [hd])
    have hc := h c (by simp)
    rw [List.map_cons, List.cons_append, of, hrest]
    cases c with
    | inspect sql policy verdict =>
      obtain ⟨g, policy, he⟩ := hc rfl
      cases he
    | _ => rfl

/-- Whatever was called, only the last inspection can have changed. -/
theorem of_calls_inspected (cs : List Call) (older : List Event) :
    ∃ inspected, of (cs.map .called ++ older) = { of older with inspected := inspected } := by
  induction cs with
  | nil => exact ⟨_, rfl⟩
  | cons c cs ih =>
    obtain ⟨inspected, hi⟩ := ih
    rw [List.map_cons, List.cons_append, of, hi]
    cases c with
    | inspect sql policy verdict => exact ⟨_, rfl⟩
    | _ => exact ⟨_, rfl⟩

theorem of_inspection {sql : String} {policy : QueryPolicy}
    {verdict : Except GuardError GuardedQuery}
    (h : ∀ c ∈ cs, c.decisive = true → c = .inspect sql policy verdict)
    (hm : .inspect sql policy verdict ∈ cs) :
    of (cs.map .called ++ older) =
      { of older with inspected := some (sql, policy, verdict) } := by
  induction cs with
  | nil => cases hm
  | cons c cs ih =>
    have hrest := fun d (hd : d ∈ cs) => h d (by simp [hd])
    rw [List.map_cons, List.cons_append, of]
    by_cases hc : c.decisive = true
    · rw [h c (by simp) hc]
      by_cases hcs : .inspect sql policy verdict ∈ cs
      · rw [ih hrest hcs]
        rfl
      · rw [of_calls fun d hd hdec => absurd (hrest d hd hdec ▸ hd) hcs]
        rfl
    · have hne : .inspect sql policy verdict ≠ c := by
        intro he
        exact hc (by rw [← he]; rfl)
      rw [ih hrest (by simpa [hne] using hm)]
      cases c with
      | inspect sql policy verdict => exact absurd rfl hc
      | _ => rfl

end Ledger

open Ledger

/-- Every execution in the history was authorised when it was called. -/
def Sound : List Event → Prop
  | [] => True
  | .called (.execute g policy) :: older => Authorised (Ledger.of older) g policy ∧ Sound older
  | _ :: older => Sound older

theorem Sound.execution {newer older : List Event} {g : GuardedQuery} {policy : QueryPolicy}
    (h : Sound (newer ++ .called (.execute g policy) :: older)) :
    Authorised (Ledger.of older) g policy := by
  induction newer with
  | nil => exact h.1
  | cons e newer ih =>
    rw [List.cons_append] at h
    refine ih ?_
    unfold Sound at h
    split at h
    · rename_i hnil
      cases hnil
    · rename_i he
      cases he
      exact h.2
    · rename_i he
      cases he
      exact h

theorem Sound.calls {cs : List Call} {older : List Event} (hs : Sound older)
    (h : ∀ g policy, .execute g policy ∈ cs →
      Authorised (Ledger.of older) g policy ∧
        ∀ c ∈ cs, c.decisive = true → ∃ g policy, c = .execute g policy) :
    Sound (cs.map .called ++ older) := by
  induction cs with
  | nil => exact hs
  | cons c cs ih =>
    have hrest : Sound (cs.map .called ++ older) := by
      refine ih fun g policy hm => ?_
      obtain ⟨ha, hq⟩ := h g policy (by simp [hm])
      exact ⟨ha, fun d hd => hq d (by simp [hd])⟩
    cases c with
    | execute g policy =>
      obtain ⟨ha, hq⟩ := h g policy (by simp)
      have hof : Ledger.of (cs.map .called ++ older) = Ledger.of older :=
        of_calls fun d hd => hq d (by simp [hd])
      refine ⟨?_, hrest⟩
      change Authorised (Ledger.of (cs.map .called ++ older)) g policy
      rw [hof]
      exact ha
    | _ => exact hrest

/-- What the ledger says where a task is about to run. -/
def Consistent (l : Ledger) (v : AgentState) (driving : Option (Option ApprovalResume))
    (task : Task) : Prop :=
  match task.step with
  | .classify => l.refused = false
  | .retrieveMetrics =>
    l.blocked = false ∧ l.refused = false ∧ l.knowledge = decide (v.intent = some .knowledge)
  | .selectSchema => l.Open
  | .generateSql | .verify => l.Open ∧ v.queryPolicy = l.policy
  | .guardSql => l.Open ∧ v.queryPolicy = l.policy ∧ v.sql = l.sql
  | .requestApproval => ∃ g policy, l.Produced g policy ∧ v.queryPolicy = some policy ∧
      v.guardedQuery = some g ∧ v.sqlFingerprint = some g.queryFingerprint ∧
      (task.interrupts ≠ [] → l.Raised g) ∧
      ∀ r, driving = some (some r) → l.Raised g ∧ l.answered = some r.decision
  | .executeSql => driving ≠ none →
      ∃ g policy, l.Authorised g policy ∧ v.queryPolicy = some policy ∧ v.guardedQuery = some g
  | .compose => True

structure Audited (s : Workflow) : Prop where
  fresh : s.snapshot = none → s.history = [] ∧ s.driving = none
  sound : Sound s.history
  single : ∀ snapshot, s.snapshot = some snapshot → snapshot.tasks.length ≤ 1
  interrupts : ∀ v task, s.snapshot = some ⟨v, [task]⟩ → task.interrupts ≠ [] →
    task.step = .requestApproval
  consistent : ∀ v task, s.snapshot = some ⟨v, [task]⟩ →
    Consistent (Ledger.of s.history) v s.driving task

namespace Audited
open AgentGraph NorthwindAgentActions
variable {G : AgentGraph} {w : World} {v u : AgentState} {task : Task}
  {resume : Option ApprovalResume} {history : List Event} {next : Option StepName}

theorem quiet (hg : task.step ≠ .guardSql) :
    Ledger.of ((G.superstep w resume task.step v).calls.map .called ++ history) =
      Ledger.of history := by
  refine of_calls fun c hc hd => ?_
  obtain ⟨hs, _⟩ | ⟨_, g, policy, _, _, he⟩ := superstep_decisive hc hd
  · exact absurd hs hg
  · exact ⟨g, policy, he⟩

/-- The calls of a consistent task keep the history sound. -/
theorem calls_sound (hs : Sound history)
    (hc : Consistent (Ledger.of history) v (some resume) task) :
    Sound ((G.superstep w resume task.step v).calls.map .called ++ history) := by
  refine hs.calls fun g policy hm => ?_
  obtain ⟨_, _, _, _, _, he⟩ | ⟨hstep, g', policy', hg, hp, he⟩ := superstep_decisive hm rfl
  · cases he
  · cases he
    simp only [Consistent, hstep] at hc
    obtain ⟨g', policy', ha, hp', hg'⟩ := hc (by simp)
    obtain rfl : g = g' := by simpa [hg] using hg'
    obtain rfl : policy = policy' := by simpa [hp] using hp'
    refine ⟨ha, fun c hc hd => ?_⟩
    obtain ⟨hstep', _⟩ | ⟨_, g'', policy'', _, _, he⟩ := superstep_decisive hc hd
    · rw [hstep] at hstep'
      cases hstep'
    · exact ⟨g'', policy'', he⟩

/-- What the guard node leaves behind: an open question for a new attempt, or a produced
query with the risks that were found. -/
theorem guardSql_consistent {l : Ledger} {step' : StepName} {policy : QueryPolicy} {sql : String}
    (ho : l.Open) (hlp : l.policy = some policy) (hls : l.sql = some sql)
    (hp : v.queryPolicy = some policy) (hs : v.sql = some sql)
    (hu : (G.actions.guardSql w v).result = .ok u)
    (hn : G.route .guardSql (v.merge u) = .ok (some step')) :
    Consistent
      (note { l with inspected := some (sql, policy, G.actions.guard sql policy) }
        (.completed .guardSql u)) (v.merge u) (some none) { step := step' } := by
  obtain ⟨policy', sql', hp', hs', hcase⟩ := guardSql_ok hu
  obtain rfl : policy = policy' := by simpa [hp] using hp'
  obtain rfl : sql = sql' := by simpa [hs] using hs'
  obtain ⟨risk, hrisk, hafter⟩ := G.route_guardSql.mp hn
  obtain ⟨notBlocked, dataPath, notRefused⟩ := ho
  obtain ⟨reason, _, rfl⟩ | ⟨g, hg, hrule⟩ := hcase
  · obtain rfl : .repair = risk := by simpa [refusal] using hrisk
    simp only [afterGuard] at hafter
    split at hafter
    · cases hafter
      exact ⟨⟨notBlocked, dataPath, notRefused⟩, by simp [refusal, note, hp, hlp]⟩
    · cases hafter
  · obtain ⟨controlled, estimate, _, _, rfl⟩ := rule_ok hrule
    have hproduced : Produced (note
        { l with inspected := some (sql, policy, G.actions.guard sql policy) }
        (.completed .guardSql
          (ruling g (G.actions.riskReasons policy estimate controlled v.selectionConfidence))))
        g policy :=
      ⟨⟨notBlocked, dataPath, notRefused⟩, hlp, sql, hls, by simp [note, hg]⟩
    generalize G.actions.riskReasons policy estimate controlled v.selectionConfidence = reasons
      at hproduced hrisk ⊢
    by_cases hr : reasons = []
    · obtain rfl : .safe = risk := by simpa [ruling, hr] using hrisk
      cases hafter
      exact fun _ => ⟨g, policy, ⟨hproduced, .inl (by simp [note, ruling, hr])⟩,
        by simp [ruling, hp], by simp [ruling]⟩
    · obtain rfl : .approval = risk := by simpa [ruling, hr] using hrisk
      cases hafter
      exact ⟨g, policy, hproduced, by simp [ruling, hp], by simp [ruling], by simp [ruling],
        by simp, by simp⟩

/-- A completed node leaves the next one consistent. -/
theorem completed_consistent {step' : StepName}
    (hr : (G.superstep w resume task.step v).result = .ok (u, some step'))
    (hc : Consistent (Ledger.of history) v (some resume) task) :
    Consistent (Ledger.of (.completed task.step u ::
      ((G.superstep w resume task.step v).calls.map .called ++ history)))
      (v.merge u) (some none) { step := step' } := by
  obtain ⟨hu, hn⟩ := superstep_ok hr
  obtain ⟨step, error, interrupts⟩ := task
  rw [Ledger.of]
  by_cases hg : step = .guardSql
  · subst hg
    obtain ⟨policy, sql, hp, hs, hm⟩ := superstep_inspects hr
    obtain ⟨ho, hlp, hls⟩ := hc
    rw [of_inspection (fun c hc hd => ?_) hm]
    · exact guardSql_consistent ho (hlp ▸ hp) (hls ▸ hs) hp hs hu hn
    · obtain ⟨_, policy', sql', hp', hs', he⟩ | ⟨hstep, _⟩ := superstep_decisive hc hd
      · obtain rfl : policy = policy' := by simpa [hp] using hp'
        obtain rfl : sql = sql' := by simpa [hs] using hs'
        exact he
      · cases hstep
  · rw [quiet hg]
    generalize Ledger.of history = l at hc ⊢
    cases step with
    | classify =>
      obtain ⟨reason, rfl⟩ | ⟨intent, rfl⟩ := classify_ok hu
      · simp [route, block] at hn
      · simp only [route, Except.ok.injEq] at hn
        split at hn
        · cases hn
        · cases hn
          exact ⟨by simp [note], hc, by simp [note]⟩
    | retrieveMetrics =>
      obtain ⟨_, _, result, _, _, _, rfl⟩ := retrieveMetrics_ok hu
      obtain ⟨intent, hi, hnext⟩ := G.route_retrieveMetrics.mp hn
      obtain ⟨hb, href, hk⟩ := hc
      replace hi : v.intent = some intent := by simpa using hi
      by_cases hi' : intent = .knowledge
      · rw [if_pos hi'] at hnext
        cases hnext
        trivial
      · rw [if_neg hi'] at hnext
        cases hnext
        exact ⟨hb, by simp [note, hk, hi, hi'], href⟩
    | selectSchema =>
      obtain ⟨_, _, _, restricted, rfl⟩ := selectSchema_ok hu
      cases hn
      exact ⟨⟨hc.notBlocked, hc.dataPath, hc.notRefused⟩, by simp [note]⟩
    | generateSql =>
      obtain ⟨draft, rfl⟩ := generateSql_ok hu
      obtain ⟨ho, hp⟩ := hc
      cases hn
      exact ⟨⟨ho.notBlocked, ho.dataPath, ho.notRefused⟩, by simp [note, hp], by simp [note]⟩
    | guardSql => exact absurd rfl hg
    | requestApproval =>
      obtain ⟨r, rfl, rfl⟩ := pause_ok hu
      obtain ⟨g, policy, hprod, hp, hgq, _, _, hans⟩ := hc
      obtain ⟨hraised, hanswer⟩ := hans r rfl
      obtain ⟨decision, hd, hnext⟩ := G.route_requestApproval.mp hn
      cases hdec : r.decision with
      | rejected =>
        obtain rfl : .rejected = decision := by simpa [decided, hdec] using hd
        simp at hnext
      | approved =>
        obtain rfl : .approved = decision := by simpa [decided, hdec] using hd
        cases hnext
        rw [hdec] at hanswer
        refine fun _ => ⟨g, policy, ⟨⟨⟨hprod.notBlocked, hprod.dataPath, ?_⟩, hprod.restricted,
          hprod.produced⟩, .inr ⟨hraised, hanswer⟩⟩, by simp [decided, hp], by simp [decided, hgq]⟩
        simp [note, decided, hprod.notRefused]
    | executeSql =>
      obtain ⟨_, _, result, _, _, _, rfl⟩ := executeSql_ok hu
      obtain ⟨g, policy, ha, hp, _⟩ := hc (by simp)
      cases hn
      exact ⟨ha.toOpen, by simp [note, hp, ha.restricted]⟩
    | verify =>
      have hq : u.queryPolicy = none := by rw [verify_ok hu]
      simp only [route, Except.ok.injEq] at hn
      split at hn
      · cases hn
        exact ⟨hc.1, by simpa [note, hq] using hc.2⟩
      · cases hn
        trivial
    | compose => cases hn

/-- A failed task is as it was, but an answer it held is lost. -/
theorem failed_consistent {f : Failure} {keeps : Bool}
    (hc : Consistent (Ledger.of history) v (some resume) task) :
    Consistent (Ledger.of (.failed task.step f ::
      ((G.superstep w resume task.step v).calls.map .called ++ history))) v none
      ⟨task.step, some f.repr, if keeps then task.interrupts else []⟩ := by
  obtain ⟨step, error, interrupts⟩ := task
  rw [Ledger.of]
  by_cases hg : step = .guardSql
  · subst hg
    obtain ⟨inspected, hi⟩ :=
      of_calls_inspected (G.superstep w resume .guardSql v).calls history
    rw [hi]
    exact ⟨⟨hc.1.notBlocked, hc.1.dataPath, hc.1.notRefused⟩, hc.2⟩
  · rw [quiet hg]
    generalize Ledger.of history = l at hc ⊢
    cases step with
    | guardSql => exact absurd rfl hg
    | executeSql => exact fun hd => absurd rfl hd
    | requestApproval =>
      obtain ⟨g, policy, hprod, hp, hgq, hf, hint, _⟩ := hc
      refine ⟨g, policy, ⟨⟨hprod.notBlocked, hprod.dataPath, hprod.notRefused⟩, hprod.restricted,
        hprod.produced⟩, hp, hgq, hf, fun hne => hint ?_, by simp⟩
      cases keeps with
      | false => simp at hne
      | true => simpa using hne
    | _ => exact hc

/-- The interrupt shows the fingerprint of the produced query. -/
theorem interrupted_consistent {p : InterruptPayload}
    (hr : (G.superstep w resume task.step v).result = .error (.interrupt p))
    (hc : Consistent (Ledger.of history) v (some resume) task) :
    Consistent (Ledger.of (.interrupted p ::
      ((G.superstep w resume task.step v).calls.map .called ++ history))) v none
      ⟨task.step, none, [p]⟩ := by
  obtain ⟨step, error, interrupts⟩ := task
  obtain ⟨rfl, rfl, hfp⟩ := superstep_interrupt hr
  rw [Ledger.of, quiet (by simp)]
  obtain ⟨g, policy, hprod, hp, hgq, hf, _, _⟩ := hc
  exact ⟨g, policy, ⟨⟨hprod.notBlocked, hprod.dataPath, hprod.notRefused⟩, hprod.restricted,
    hprod.produced⟩, hp, hgq, hf, fun _ => ⟨p, rfl, hfp.trans hf⟩, by simp⟩

/-- A resume answers the interrupt that the task lists. -/
theorem resumed_consistent {l : Ledger} {r : ApprovalResume}
    (hi : task.step = .requestApproval) (hne : task.interrupts ≠ [])
    (hc : Consistent l v none task) :
    Consistent (l.note (.resumed r)) v (some (some r)) task := by
  obtain ⟨step, error, interrupts⟩ := task
  subst hi
  obtain ⟨g, policy, hprod, hp, hgq, hf, hint, _⟩ := hc
  refine ⟨g, policy, ⟨⟨hprod.notBlocked, hprod.dataPath, hprod.notRefused⟩, hprod.restricted,
    hprod.produced⟩, hp, hgq, hf, hint, fun r' hr => ⟨hint hne, ?_⟩⟩
  obtain rfl : r = r' := by simpa using hr
  rfl

theorem crashed_consistent {l : Ledger} {driving : Option (Option ApprovalResume)}
    (hc : Consistent l v driving task) : Consistent (l.note .crashed) v none task := by
  obtain ⟨step, error, interrupts⟩ := task
  cases step with
  | executeSql => exact fun hd => absurd rfl hd
  | selectSchema => exact ⟨hc.notBlocked, hc.dataPath, hc.notRefused⟩
  | generateSql | verify | guardSql =>
    exact ⟨⟨hc.1.notBlocked, hc.1.dataPath, hc.1.notRefused⟩, hc.2⟩
  | requestApproval =>
    obtain ⟨g, policy, hprod, hp, hgq, hf, hint, _⟩ := hc
    exact ⟨g, policy, ⟨⟨hprod.notBlocked, hprod.dataPath, hprod.notRefused⟩, hprod.restricted,
      hprod.produced⟩, hp, hgq, hf, hint, by simp⟩
  | classify | retrieveMetrics | compose => exact hc

theorem pending_single {next : Option StepName} {task : Task}
    (h : Snapshot.pending v next = ⟨u, [task]⟩) :
    ∃ step, next = some step ∧ u = v ∧ task = { step := step } := by
  cases next with
  | none => simp [Snapshot.pending] at h
  | some step =>
    simp only [Snapshot.pending, Option.map_some, Option.toList_some, Snapshot.mk.injEq,
      List.cons.injEq, and_true] at h
    exact ⟨step, rfl, h.1.symm, h.2.symm⟩

/-- The step lemma for a task that runs. -/
theorem drive_kept {keeps : Bool} (sound : Sound history)
    (hi : task.interrupts ≠ [] → task.step = .requestApproval)
    (hc : Consistent (Ledger.of history) v (some resume) task) :
    Audited (G.drive w keeps v task resume history) := by
  have hcalls : Sound ((G.superstep w resume task.step v).calls.map .called ++ history) :=
    calls_sound sound hc
  obtain ⟨u, next, hr, he⟩ | ⟨p, hr, he⟩ | ⟨f, hr, he⟩ := G.drive_cases
  · rw [he]
    refine ⟨by simp, hcalls, ?_, ?_, ?_⟩
    · cases next with
      | none => simp [Snapshot.pending]
      | some step => simp [Snapshot.pending]
    · intro v' task' hs hne
      obtain ⟨step, rfl, rfl, rfl⟩ := pending_single (Option.some.inj hs)
      exact absurd rfl hne
    · intro v' task' hs
      obtain ⟨step, rfl, rfl, rfl⟩ := pending_single (Option.some.inj hs)
      exact completed_consistent hr hc
  · rw [he]
    refine ⟨by simp, hcalls, by simp, ?_, ?_⟩
    · intro v' task' hs _
      cases hs
      exact (superstep_interrupt hr).1
    · intro v' task' hs
      cases hs
      exact interrupted_consistent hr hc
  · rw [he]
    refine ⟨by simp, hcalls, by simp, ?_, ?_⟩
    · intro v' task' hs hne
      cases hs
      refine hi fun hnil => hne ?_
      cases keeps <;> simp [hnil]
    · intro v' task' hs
      cases hs
      exact failed_consistent hc

/-- The step lemma: every move keeps the audit. -/
theorem kept {s t : Workflow} {m : Move} (h : Audited s) (hs : G.next s m = some t) : Audited t := by
  obtain ⟨fresh, sound, single, interrupts, consistent⟩ := h
  obtain ⟨r, rfl, hn, rfl⟩ | ⟨w, keeps, v, task, resume, rfl, hsnap, hd, rfl⟩ |
    ⟨r, snapshot, rfl, hsnap, hd, hi, rfl⟩ | ⟨resume, rfl, hd, rfl⟩ := next_cases hs
  · refine ⟨by simp, sound, by simp [Snapshot.pending], ?_, ?_⟩
    · intro v task he hne
      obtain ⟨step, _, _, rfl⟩ := pending_single (Option.some.inj he)
      exact absurd rfl hne
    · intro v task he
      obtain ⟨step, hstep, rfl, rfl⟩ := pending_single (Option.some.inj he)
      cases hstep
      rw [(fresh hn).1]
      rfl
  · have hc := consistent v task hsnap
    rw [hd] at hc
    exact drive_kept sound (interrupts v task hsnap) hc
  · refine ⟨by simp [hsnap], sound, single, interrupts, ?_⟩
    intro v task he
    have hc := consistent v task he
    have hne : task.interrupts ≠ [] := by
      obtain rfl := Option.some.inj (hsnap.symm.trans he)
      simpa [Snapshot.interrupted] using hi
    rw [hd] at hc
    exact resumed_consistent (interrupts v task he hne) hne hc
  · refine ⟨fun hn => ?_, sound, single, interrupts, ?_⟩
    · rw [(fresh hn).2] at hd
      cases hd
    · intro v task he
      exact crashed_consistent (consistent v task he)

end Audited

/-- The run lemma. -/
theorem audited {G : AgentGraph} {s : Workflow} (h : G.system.Reachable s) : Audited s := by
  refine h.invariant (fun s hi => ?_) fun s m t _ ha hs => ha.kept hs
  cases hi
  exact ⟨fun _ => ⟨rfl, rfl⟩, trivial, by simp, by simp, by simp⟩

/-- In every run, whatever has been executed was authorised at that moment. -/
theorem execution_authorised {G : AgentGraph} {s : Workflow} (h : G.system.Reachable s)
    {newer older : List Event} {g : GuardedQuery} {policy : QueryPolicy}
    (he : s.history = newer ++ .called (.execute g policy) :: older) :
    Authorised (Ledger.of older) g policy := by
  have hs := (audited h).sound
  rw [he] at hs
  exact hs.execution

/-! The list of orders, as a run that needs no approval. -/
section Orders
open AgentGraph NorthwindAgentActions

def ordersText : String := "SELECT order_id FROM northwind.orders"

def ordersTree : Query := selectFrom "order_id" ⟨⟨"orders", false⟩, "northwind", "", ""⟩

def ordersLibraries : Libraries :=
  .knowing ordersText "e0d4e305e640e03f22d9a76ffeec4bc120a9d5ef30d71aadffb3b9db67da9d8d" ordersTree
    (by decide)

def ordersGraph : AgentGraph where
  actions := {
    py := asciiPython
    libraries := ordersLibraries
    questionGuard := .ok
    guard := fun sql policy => SQLGuard.inspect ordersLibraries policy sql }

def ordersCatalog : SchemaSnapshot where
  sourceId := "northwind"
  schemaName := "northwind"
  schemaVersion := "1"
  datasetVersion := "1"
  tables := [{ name := "orders", columns := [⟨"order_id", 1, "integer", false, none⟩] }]

theorem orders_nonempty : ["orders"].toFinset.Nonempty := by decide

def catalogPolicy : QueryPolicy where
  allowedSchema := "northwind"
  allowedTables := ["orders"].toFinset
  allowedColumns := [("orders", ["order_id"].toFinset)]
  tables_ok := orders_nonempty

theorem orders_selectable : 1 ≤ ["orders"].length ∧ ["orders"].length ≤ 6 := by decide

def ordersSelection : ConfidentTableSelection := ⟨["orders"], 1, orders_selectable, by norm_num⟩

theorem ordersText_bounded : 1 ≤ ordersText.length ∧ ordersText.length ≤ 50000 := by decide

def ordersDraft : NL2SQLDraft where
  analysisPlan := ⟨"List the orders", ["Read the table"], ["order_id"], by decide, by decide,
    by decide, by decide⟩
  tablesUsed := ["orders"]
  sql := ordersText
  tables_ok := orders_selectable
  sql_ok := ordersText_bounded

def ordersWorld (totalCost : ℚ) (columns : List String) : World where
  retrieve _ _ := .ok ⟨[], [], false⟩
  introspect := .ok ordersCatalog
  select _ _ := .ok ordersSelection
  draft _ := .ok ordersDraft
  estimate _ := .ok ⟨totalCost, 1⟩
  execute _ _ := .ok ⟨columns, [], 0, 2, false⟩
  ensurePending := .ok ()
  record _ := .ok ()

def ordersRun : StartRun :=
  ⟨"run-1", "tenant-1", "user-1", "ANALYST", "northwind", "0123456789abcdef", "Show the orders"⟩

theorem orders_catalog :
    QueryPolicy.fromSnapshot Char.isAlphanum ordersCatalog 10000 100000 = some catalogPolicy := rfl

theorem selection_short : ∀ m ∈ selectionPrompts "Show the orders" ordersCatalog,
    1 ≤ m.2.length ∧ m.2.length ≤ 50000 := by
  have hs := selectionSystem_length
  have hc : confidenceRequest.length ≤ 100 := by decide
  intro m hm
  simp only [selectionPrompts, selectionMessages, List.mem_cons, List.not_mem_nil, or_false] at hm
  obtain rfl | rfl := hm
  · rw [String.length_append]
    omega
  · rw [Json.dumpsCompact_length]
    decide +kernel

theorem generation_short : ∃ base,
    generationMessages "Show the orders" ordersCatalog ["orders"] catalogPolicy = .ok base ∧
    ∀ m ∈ base, 1 ≤ m.2.length ∧ m.2.length ≤ 50000 := by
  refine ⟨_, rfl, ?_⟩
  have hg := generationSystem_length
  intro m hm
  simp only [List.mem_cons, List.not_mem_nil, or_false] at hm
  obtain rfl | rfl := hm
  · change 1 ≤ generationSystem.length ∧ generationSystem.length ≤ 50000
    omega
  · rw [Json.dumpsCompact_length]
    decide +kernel

def ordersGuarded : GuardedQuery :=
  SQLGuard.guarded ordersLibraries catalogPolicy ordersTree {"northwind.orders"}

theorem orders_guard : ordersGraph.actions.guard ordersText catalogPolicy = .ok ordersGuarded := rfl

theorem orders_safe :
    ordersGraph.actions.riskReasons catalogPolicy ⟨1, 1⟩ ∅ (some 1) = [] := by decide +kernel

/-- The keys of such a run once its schema is selected. -/
structure Selected (v : AgentState) : Prop where
  runId : v.runId = some "run-1"
  tenantId : v.tenantId = some "tenant-1"
  traceId : v.traceId = some "0123456789abcdef"
  question : v.question = some "Show the orders"
  candidateTables : v.candidateTables = some ["orders"]
  confidence : v.selectionConfidence = some 1
  schemaSnapshot : v.schemaSnapshot = some ordersCatalog
  queryPolicy : v.queryPolicy = some catalogPolicy

/-- The keys that the guard node finds. -/
structure Drafted (attempts : Nat) (v : AgentState) : Prop extends Selected v where
  sql : v.sql = some ordersText
  analysisPlan : v.analysisPlan = some ordersDraft.analysisPlan
  attempts : v.attempts = some attempts

theorem orders_selected (totalCost : ℚ) (columns : List String) :
    ∃ v, ordersGraph.Before ordersRun .generateSql v ∧ Selected v ∧ v.attempts = some 0 ∧ v.error = none := by
  obtain ⟨items, hitems⟩ := messages_ok selection_short
  let w := ordersWorld totalCost columns
  let v0 := ordersRun.initialState
  let v1 := v0.merge { intent := some .hybrid, errorCode := some none }
  let v2 := v1.merge { metricContext := some [], citations := some [], errorCode := some none }
  have r0 : (ordersGraph.superstep w none .classify v0).result = .ok (_, some .retrieveMetrics) :=
    superstep_of rfl rfl rfl (fun _ => rfl) rfl
  have r1 : (ordersGraph.superstep w none .retrieveMetrics v1).result = .ok (_, some .selectSchema) :=
    superstep_of rfl rfl rfl (fun _ => rfl) rfl
  have r2 : (ordersGraph.superstep w none .selectSchema v2).result = .ok (_, some .generateSql) :=
    superstep_of (selectSchema_of rfl orders_catalog rfl hitems rfl rfl rfl) rfl rfl (fun _ => rfl) rfl
  have h0 : ordersGraph.Before ordersRun .classify v0 := .start ordersRun
  have h3 := ((h0.completed (by simp) r0).completed (by simp) r1).completed (by simp) r2
  exact ⟨_, h3, ⟨rfl, rfl, rfl, rfl, rfl, rfl, rfl, rfl⟩, rfl, rfl⟩

theorem repair_short {base : List Prompt} {code : String}
    (hc : code = "RESULT_COLUMNS_MISMATCH" ∨ code = "QUERY_AUDIT_FAILED")
    (h : ∀ m ∈ base, 1 ≤ m.2.length ∧ m.2.length ≤ 50000) :
    ∀ m ∈ repairMessages base ordersText code, 1 ≤ m.2.length ∧ m.2.length ≤ 50000 := by
  intro m hm
  simp only [repairMessages, List.mem_append, List.mem_cons, List.not_mem_nil, or_false] at hm
  obtain hb | rfl | rfl := hm
  · exact h m hb
  · decide +kernel
  · rw [Json.dumpsCompact_length]
    obtain rfl | rfl := hc
    · decide +kernel
    · decide +kernel

/-- The prompts of a draft fit into messages, also when it repairs the last one. -/
theorem orders_prompts {v : AgentState}
    (h : v.error = none ∨ v.sql = some ordersText ∧ v.error = some "RESULT_COLUMNS_MISMATCH") :
    ∃ base sent, generationMessages "Show the orders" ordersCatalog ["orders"] catalogPolicy = .ok base ∧
      messages (generationPrompts v base) = .ok sent := by
  obtain ⟨base, hbase, hshort⟩ := generation_short
  have hprompts : ∀ m ∈ generationPrompts v base, 1 ≤ m.2.length ∧ m.2.length ≤ 50000 := by
    obtain he | ⟨hs, he⟩ := h
    · simpa [generationPrompts, he] using hshort
    · have hrepair : generationPrompts v base =
          repairMessages base ordersText "RESULT_COLUMNS_MISMATCH" := by
        simp only [generationPrompts, hs, he]
        rfl
      rw [hrepair]
      exact repair_short (.inl rfl) hshort
  obtain ⟨sent, hsent⟩ := messages_ok hprompts
  exact ⟨base, sent, hbase, hsent⟩

/-- The model drafts the same query, also when it is asked to repair the last one. -/
theorem orders_draft {v : AgentState} (hv : Selected v)
    (h : v.error = none ∨ v.sql = some ordersText ∧ v.error = some "RESULT_COLUMNS_MISMATCH")
    (totalCost : ℚ) (columns : List String) :
    (ordersGraph.superstep (ordersWorld totalCost columns) none .generateSql v).result =
      .ok ({
        sql := some ordersText
        analysisPlan := some ordersDraft.analysisPlan
        attempts := some (v.attempt + 1)
        errorCode := some none }, some .guardSql) := by
  obtain ⟨base, sent, hbase, hsent⟩ := orders_prompts h
  exact superstep_of
    (generateSql_of hv.schemaSnapshot hv.queryPolicy hv.question hv.candidateTables hbase hsent rfl
      rfl rfl) hv.traceId hv.runId (fun _ => rfl) rfl

theorem Selected.drafted {v : AgentState} (hv : Selected v) (n : Nat) :
    Drafted n (v.merge {
      sql := some ordersText
      analysisPlan := some ordersDraft.analysisPlan
      attempts := some n
      errorCode := some none }) := by
  obtain ⟨hrun, htenant, htrace, hq, hc, hconf, hs, hp⟩ := hv
  exact ⟨⟨hrun, htenant, htrace, hq, hc, hconf, hs, hp⟩, rfl, rfl, rfl⟩

theorem orders_drafted (totalCost : ℚ) (columns : List String) :
    ∃ v, ordersGraph.Before ordersRun .guardSql v ∧ Drafted 1 v := by
  obtain ⟨v, hb, hv, ha, he⟩ := orders_selected totalCost columns
  have hr := orders_draft hv (.inl he) totalCost columns
  rw [show v.attempt + 1 = 1 by rw [AgentState.attempt, ha]; rfl] at hr
  exact ⟨_, hb.completed (by simp) hr, hv.drafted 1⟩

theorem orders_ruling {v : AgentState} {n : Nat} (hv : Drafted n v) (totalCost : ℚ) (columns : List String) :
    (ordersGraph.actions.guardSql (ordersWorld totalCost columns) v).result =
      .ok (ruling ordersGuarded
        (ordersGraph.actions.riskReasons catalogPolicy ⟨totalCost, 1⟩ ∅ (some 1))) := by
  rw [← hv.confidence]
  exact guardSql_of hv.queryPolicy hv.sql orders_guard rfl rfl

theorem orders_cleared : ∃ v, ordersGraph.Before ordersRun .executeSql v ∧ Drafted 1 v ∧
    v.guardedQuery = some ordersGuarded := by
  obtain ⟨v, hb, hv⟩ := orders_drafted 1 ["order_id"]
  have hu := orders_ruling hv 1 ["order_id"]
  rw [orders_safe] at hu
  have hr : (ordersGraph.superstep (ordersWorld 1 ["order_id"]) none .guardSql v).result =
      .ok (_, some .executeSql) := superstep_of hu hv.traceId hv.runId (fun _ => rfl) rfl
  obtain ⟨⟨hrun, htenant, htrace, hq, hc, hconf, hs, hp⟩, hsql, hplan, ha⟩ := hv
  exact ⟨_, hb.completed (by simp) hr,
    ⟨⟨hrun, htenant, htrace, hq, hc, hconf, hs, hp⟩, hsql, hplan, ha⟩, rfl⟩

theorem orders_executed {v : AgentState} (hv : Drafted 1 v) (hg : v.guardedQuery = some ordersGuarded) :
    ∃ u, (ordersGraph.superstep (ordersWorld 1 ["order_id"]) none .executeSql v).result =
        .ok (u, some .verify) ∧
      .execute ordersGuarded catalogPolicy ∈
        (ordersGraph.superstep (ordersWorld 1 ["order_id"]) none .executeSql v).calls := by
  have hr : (ordersGraph.superstep (ordersWorld 1 ["order_id"]) none .executeSql v).result =
      .ok (_, some .verify) :=
    superstep_of (executeSql_of hg hv.queryPolicy rfl) hv.traceId hv.runId (fun _ => rfl) rfl
  exact ⟨_, hr, superstep_calls_of hr (executeSql_executes hg hv.queryPolicy)⟩

/-- A result without the expected column sends the run back to the draft. -/
theorem orders_mismatched {v : AgentState} {columns : List String} (hv : Drafted 1 v)
    (hc : v.columns = some columns) (hmiss : "order_id" ∉ columns) {w : World}
    (hw : ∀ status, w.record status = .ok ()) :
    (ordersGraph.superstep w none .verify v).result =
      .ok ({ errorCode := some (some "RESULT_COLUMNS_MISMATCH") }, some .generateSql) := by
  have hverify : (verify v).result = .ok { errorCode := some (some "RESULT_COLUMNS_MISMATCH") } := by
    have hmismatch : columnsMismatch v = true := by
      simp [columnsMismatch, expectedColumns, hv.analysisPlan, hc, ordersDraft, hmiss]
    simp [verify, hmismatch]
  have hretry : ordersGraph.route .verify
      (v.merge { errorCode := some (some "RESULT_COLUMNS_MISMATCH") }) = .ok (some .generateSql) := by
    have hleft : ordersGraph.attemptsLeft
        (v.merge { errorCode := some (some "RESULT_COLUMNS_MISMATCH") }) = true := by
      simp [attemptsLeft, AgentState.attempt, hv.attempts, ordersGraph]
    simp [route, AgentState.error, truthy, hleft]
  exact superstep_of hverify hv.traceId hv.runId hw hretry

/-- This execution is authorised. -/
theorem orders_execution_authorised :
    ∃ older, Authorised (Ledger.of older) ordersGuarded catalogPolicy := by
  obtain ⟨v, hb, hv, hg⟩ := orders_cleared
  obtain ⟨history, hreach⟩ := hb.reachable
  obtain ⟨u, hr, hcall⟩ := orders_executed hv hg
  have hs : ordersGraph.next ⟨some (.pending v (some .executeSql)), some none, history⟩
      (.node (ordersWorld 1 ["order_id"]) false) = some _ := next_of_ok hr
  obtain ⟨newer, older, he⟩ := List.append_of_mem
    (List.mem_cons_of_mem _ (List.mem_append_left history (List.mem_map_of_mem hcall)))
  exact ⟨older, execution_authorised (hreach.step hs) he⟩

end Orders
end DataCopilot.Agent
