import DataCopilot.Platform.Transactions

/-! Terminal states are final. The agent's run is seen from the platform only: it is under
way, waits at its interrupt, or is over. -/
namespace DataCopilot.Platform
open Versioned AnalysisJobStateMachine

inductive RunPhase where
  | underway | waiting | over
deriving DecidableEq, Repr

/-- The platform moves, or the run goes on by itself. -/
inductive Step where
  | platform (m : Move)
  | run

/-- The store takes no part in what the run does by itself. -/
def Store.steps : Transition.System Store Step where
  init := Store.system.init
  step s l t :=
    match l with
    | .platform m => s.next m = some t
    | .run => t = s

/-- A resume is accepted only while the run waits. What the agent answers is arbitrary, but
it reports REJECTED of a run that is over, and such a run does not go on. -/
def RunPhase.system : Transition.System RunPhase Step where
  init _ := True
  step p l q :=
    match l with
    | .platform (.send _) => p = .waiting ∧ q = .underway
    | .platform (.start _ (.persistResult (some result))) =>
      q = p ∧ (result.status = "REJECTED" → p = .over)
    | .platform _ => q = p
    | .run => p = .underway

def servedJob : Transition.System (Store × RunPhase) Step := Store.steps.sync RunPhase.system

variable {s t : Store} {p q : RunPhase} {l : Step} {m : Move}

theorem RunPhase.over_final (h : RunPhase.system.step .over l q) : q = .over := by
  cases l with
  | run => cases h
  | platform m =>
    cases m with
    | send id => cases h.1
    | start id body =>
      cases body with
      | persistResult result =>
        cases result with
        | none => exact h
        | some result => exact h.1
      | _ => exact h
    | _ => exact h

theorem RunPhase.reported {id : Nat} {result : AgentRunResult}
    (h : RunPhase.system.step p (.platform (.start id (.persistResult (some result)))) q)
    (hr : result.status = "REJECTED") : q = .over := by
  rw [h.1]
  exact h.2 hr

/-- What the open transactions may have read or been told, and what a rejected job means. -/
structure Settled (s : Store) (p : RunPhase) : Prop where
  wellFormed : s.WellFormed
  final : ∀ id o, s.opened id = some o → isTerminal o.read.value.status = true →
    o.read.value = s.job.value
  reported : ∀ id read result, s.opened id = some ⟨read, .persistResult (some result)⟩ →
    result.status = "REJECTED" → p = .over
  rejected : s.job.value.status = .rejected →
    p = .over ∨ ∃ approval, s.approval = some approval ∧ approval.status ≠ .pending
  resumed : ∀ id read decision reviewerId comment resume,
    s.opened id = some ⟨read, .decide decision reviewerId comment resume⟩ → resume ≠ .unsent →
    read.value.status ≠ .rejected

namespace Settled
variable {id now : Nat} {o : OpenTransaction}

theorem commit_terminal (h : Settled s p) (hc : s.Commits id now o t)
    (ht : isTerminal s.job.value.status = true) : t.job = s.job := by
  obtain ⟨hopen, hready, ⟨job, hb, hcommit⟩, _, _⟩ := hc
  obtain ⟨_, he⟩ | ⟨hne, hread, _⟩ := Cell.commit_cases (h.wellFormed.reads id o hopen) hcommit
  · exact he
  · have htr : isTerminal o.read.value.status = true := by rw [hread, ht]
    obtain he | ⟨hrej, reviewerId, comment, result, hbody⟩ := (Transaction.body_writes hb).terminal htr
    · exact absurd he hne
    · obtain ⟨read, body⟩ := o
      subst hbody
      exact absurd hrej (h.resumed id read _ reviewerId comment _ hopen (by simp))

/-- Whatever moves, a terminal job stays as it is. -/
theorem step_terminal (h : Settled s p) (hs : s.next m = some t)
    (ht : isTerminal s.job.value.status = true) : t.job = s.job := by
  obtain ⟨hjob, _⟩ | ⟨id, now, o, rfl, hc⟩ := Store.next_rows hs
  · exact hjob
  · exact h.commit_terminal hc ht

/-- A job that becomes rejected was rejected by a result of a run that is over, or by a
decision that is committed with it. -/
theorem commit_rejected (h : Settled s p) (hc : s.Commits id now o t)
    (ht : t.job.value.status = .rejected) :
    p = .over ∨ ∃ approval, t.approval = some approval ∧ approval.status ≠ .pending := by
  obtain ⟨hopen, hready, ⟨job, hb, hcommit⟩, _, _⟩ := hc
  have hw := Transaction.body_writes hb
  have hbefore (hs : s.job.value.status = .rejected) :
      p = .over ∨ ∃ approval, t.approval = some approval ∧ approval.status ≠ .pending := by
    obtain hover | ⟨approval, ha, hp⟩ := h.rejected hs
    · exact .inl hover
    · exact .inr ⟨approval, (hw.decided_final ha hp).trans ha, hp⟩
  obtain ⟨_, he⟩ | ⟨hne, hread, he⟩ := Cell.commit_cases (h.wellFormed.reads id o hopen) hcommit
  · exact hbefore (by rw [← he, ht])
  · have hj : job.status = .rejected := by rw [← ht, he, Cell.write_value]
    obtain ⟨read, body⟩ := o
    cases hw with
    | same hjob _ => exact absurd hjob hne
    | prepared _ _ hnext =>
      rw [hj] at hnext
      cases hnext
    | @persisted reply target advanced _ hopened htarget hadvance hnext =>
      by_cases hp : target = .planning
      · subst hp
        obtain ⟨_, ⟨_, hn⟩ | ⟨_, hn⟩⟩ := AnalysisJobWorker.advance_planning hadvance
        · rw [← hnext, hj] at hn
          cases hn
        · rw [← hn, ← hnext, hj] at hopened
          cases hopened
      · have hn := (AnalysisJobWorker.advance_ok hp hadvance).2
        rw [← hnext, hj] at hn
        subst hn
        exact .inl (h.reported id read reply hopen (AnalysisJobStatus.text_of_valueOf htarget).symm)
    | failed _ _ _ hnext =>
      rw [hj] at hnext
      cases hnext
    | requested _ _ _ _ hnext =>
      rw [hj] at hnext
      cases hnext
    | decided _ _ happ hd hwritten => exact .inr ⟨_, happ, by rw [hwritten]; exact hd⟩

/-- While a resume is accepted, the job that was read is not rejected. -/
theorem read_open {read : Cell AnalysisJob} {decision : ApprovalStatus} {reviewerId : String}
    {comment : Option String} (h : Settled s .waiting)
    (ho : s.opened id = some ⟨read, .decide decision reviewerId comment .unsent⟩) :
    read.value.status ≠ .rejected := by
  intro hrej
  have hjob : s.job.value.status = .rejected := by
    rw [← h.final id _ ho (by rw [hrej]; rfl), hrej]
  have hlock : s.lock = some id := h.wellFormed.locked id _ ho rfl
  obtain ⟨asked, ha, hpending⟩ := h.wellFormed.pending (by rw [hlock]; simp)
  obtain hover | ⟨approval, ha', hp⟩ := h.rejected hjob
  · cases hover
  · rw [ha] at ha'
    cases ha'
    exact hp hpending

/-- The step lemma. -/
theorem kept (h : Settled s p) (hs : Store.steps.step s l t) (hp : RunPhase.system.step p l q) :
    Settled t q := by
  have hover : p = .over → q = .over := by
    intro he
    rw [he] at hp
    exact RunPhase.over_final hp
  cases l with
  | run =>
    cases hs
    obtain ⟨wellFormed, final, reported, rejected, resumed⟩ := h
    exact ⟨wellFormed, final, fun i read result hx hr => hover (reported i read result hx hr),
      fun hs => (rejected hs).imp_left hover, resumed⟩
  | platform m =>
    refine ⟨h.wellFormed.next hs, fun id o ho ht => ?_, fun id read result ho hr => ?_, fun hj => ?_,
      fun id read d r c resume ho hne => ?_⟩
    · have hkeep (hread : o.read.value = s.job.value) : o.read.value = t.job.value := by
        rw [h.step_terminal hs (by rw [← hread, ht]), hread]
      obtain hold | ⟨_, _, _, rfl⟩ | ⟨_, _, _, _, _, hold, rfl⟩ | ⟨_, _, _, _, _, _, hold, rfl⟩ :=
        Store.opened_cases hs ho
      · exact hkeep (h.final id o hold ht)
      · exact hkeep rfl
      · have hread := h.final id _ hold ht
        exact hkeep hread
      · have hread := h.final id _ hold ht
        exact hkeep hread
    · obtain hold | ⟨body, rfl, _, he⟩ | ⟨_, _, _, _, _, _, he⟩ | ⟨_, _, _, _, _, _, _, he⟩ :=
        Store.opened_cases hs ho
      · exact hover (h.reported id read result hold hr)
      · cases he
        exact RunPhase.reported hp hr
      · cases he
      · cases he
    · obtain ⟨hjob, happ⟩ | ⟨id, now, o, rfl, hc⟩ := Store.next_rows hs
      · rw [hjob] at hj
        rw [happ]
        exact (h.rejected hj).imp_left hover
      · exact (h.commit_rejected hc hj).imp_left hover
    · obtain hold | ⟨body, rfl, hst, he⟩ | ⟨read, _, _, _, rfl, hold, he⟩ |
        ⟨_, _, _, _, _, _, hold, he⟩ := Store.opened_cases hs ho
      · exact h.resumed id read d r c resume hold hne
      · cases he
        obtain ⟨_, _, _, _, _, _, _, hbody⟩ := hst.decide rfl
        cases hbody
        exact absurd rfl hne
      · cases he
        obtain ⟨rfl, _⟩ := hp
        exact h.read_open hold
      · cases he
        exact h.resumed id _ _ _ _ _ hold (by simp)

end Settled

variable {c d : Store × RunPhase}

/-- The run lemma. -/
theorem settled (h : servedJob.Reachable c) : Settled c.1 c.2 := by
  refine h.invariant (P := fun c : Store × RunPhase => Settled c.1 c.2) (fun c hi => ?_)
    fun c l d _ hc hs => ?_
  · obtain ⟨⟨id, createdBy, he⟩, _⟩ := hi
    rw [he]
    exact ⟨⟨by simp, by simp, by simp, by simp, by simp⟩, by simp, by simp, by simp [Cell.fresh], by simp⟩
  · obtain ⟨hs, hp⟩ := hs
    exact hc.kept hs hp

theorem step_final (h : servedJob.Reachable c) (hs : servedJob.step c l d)
    (ht : isTerminal c.1.job.value.status = true) : d.1.job = c.1.job := by
  obtain ⟨hs, _⟩ := hs
  cases l with
  | run => exact congrArg Store.job hs
  | platform m => exact (settled h).step_terminal hs ht

/-- The status moves along edges of the state machine with every step. -/
theorem step_chain (h : servedJob.Reachable c) (hs : servedJob.step c l d) :
    Chain c.1.job.value.status d.1.job.value.status := by
  have hsame (he : d.1.job = c.1.job) : Chain c.1.job.value.status d.1.job.value.status := by
    rw [he]
    exact .refl
  obtain ⟨hs, _⟩ := hs
  cases l with
  | run => exact hsame (congrArg Store.job hs)
  | platform m =>
    obtain ⟨hjob, _⟩ | ⟨id, now, o, rfl, hc⟩ := Store.next_rows hs
    · exact hsame hjob
    · obtain ⟨job, hb, hcommit⟩ := hc.written
      have hread := (settled h).wellFormed.reads id o hc.opened
      obtain ⟨_, he⟩ | ⟨_, hread, he⟩ := Cell.commit_cases hread hcommit
      · exact hsame he
      · rw [he, ← hread]
        exact (Transaction.body_writes hb).chain

/-- Once a job is terminal, no column of its row changes any more; and whatever happens, its
status has moved along edges of the state machine. -/
theorem job_final {w : List Step} (h : servedJob.Reachable c) (hp : servedJob.Path c w d) :
    (isTerminal c.1.job.value.status = true → d.1.job = c.1.job) ∧
      Chain c.1.job.value.status d.1.job.value.status := by
  induction hp with
  | refl => exact ⟨fun _ => rfl, .refl⟩
  | step hpath hs ih =>
    obtain ⟨hfinal, hchain⟩ := ih h
    have hr := h.path hpath
    refine ⟨fun ht => ?_, hchain.trans (step_chain hr hs)⟩
    have he := hfinal ht
    rw [← he]
    exact step_final hr hs (by rw [he, ht])

/-! A job that fails: the worker's late result finds it terminal. -/
section Late

def lateResult : Transaction :=
  .persistResult (some ⟨"job-1", "COMPLETED", some { answer := some "42" }⟩)

def failedJob : AnalysisJob where
  id := "job-1"
  createdBy := "user-1"
  status := .failed
  finishedAt := some 7
  errorCode := some "ASYNC_QUEUE_FULL"

theorem late_result_ignored : ∃ c d : Store × RunPhase, c.1.job.value = failedJob ∧
    servedJob.Path c [.platform (.commit 1 8), .platform (.start 1 lateResult)] d ∧
    d.1.job = c.1.job := by
  let s0 : Store := { job := .fresh { id := "job-1", createdBy := "user-1" } }
  let s1 := s0.put 0 ⟨s0.job, .fail "ASYNC_QUEUE_FULL"⟩
  let s2 := s1.commit 0 7 ⟨s0.job, .fail "ASYNC_QUEUE_FULL"⟩
  let s3 := s2.put 1 ⟨s2.job, lateResult⟩
  let s4 := s3.commit 1 8 ⟨s2.job, lateResult⟩
  have h0 : servedJob.Reachable (s0, .over) := .start ⟨⟨_, _, rfl⟩, trivial⟩
  have h1 : servedJob.step (s0, .over) (.platform (.start 0 (.fail "ASYNC_QUEUE_FULL"))) (s1, .over) :=
    ⟨rfl, rfl⟩
  have h2 : servedJob.step (s1, .over) (.platform (.commit 0 7)) (s2, .over) := ⟨rfl, rfl⟩
  have h3 : servedJob.step (s2, .over) (.platform (.start 1 lateResult)) (s3, .over) :=
    ⟨rfl, rfl, fun _ => rfl⟩
  have h4 : servedJob.step (s3, .over) (.platform (.commit 1 8)) (s4, .over) := ⟨rfl, rfl⟩
  have hpath : servedJob.Path (s2, .over) [.platform (.commit 1 8), .platform (.start 1 lateResult)]
      (s4, .over) := ((Transition.System.Path.refl _).step h3).step h4
  exact ⟨(s2, .over), (s4, .over), rfl, hpath, (job_final ((h0.step h1).step h2) hpath).1 rfl⟩

end Late
/-! A rejection that is reported of a run that still waits: the row is written again by the decision. -/
section Early

/-- As `RunPhase.system`, with every result of the agent at any time. -/
def RunPhase.unbound : Transition.System RunPhase Step where
  init _ := True
  step p l q :=
    match l with
    | .platform (.send _) => p = .waiting ∧ q = .underway
    | .platform _ => q = p
    | .run => p = .underway

theorem early_rejection_rewritten : ¬ ∀ (c d : Store × RunPhase) (w : List Step),
    (Store.steps.sync RunPhase.unbound).Reachable c → (Store.steps.sync RunPhase.unbound).Path c w d →
    (isTerminal c.1.job.value.status = true → d.1.job = c.1.job) ∧
      Chain c.1.job.value.status d.1.job.value.status := by
  intro hall
  let M := Store.steps.sync RunPhase.unbound
  let asked : Transaction := .request "approval-1" ["TOTAL_COST_LIMIT_EXCEEDED"]
  let early : Transaction := .persistResult (some ⟨"job-1", "REJECTED", some { answer := some "early" }⟩)
  let decision (resume : Resume) : Transaction := .decide .rejected "admin-1" none resume
  let late : AgentRunResult := ⟨"job-1", "REJECTED", some { answer := some "late" }⟩
  let s0 : Store := { job := .fresh { id := "job-1", createdBy := "user-1" } }
  let s1 := s0.put 0 ⟨s0.job, asked⟩
  let s2 := s1.commit 0 1 ⟨s0.job, asked⟩
  let s3 := s2.put 1 ⟨s2.job, early⟩
  let s4 := s3.commit 1 2 ⟨s2.job, early⟩
  let s5 : Store := { s4.put 2 ⟨s4.job, decision .unsent⟩ with lock := some 2 }
  let s6 := s5.put 2 ⟨s4.job, decision .sent⟩
  let s7 := s6.put 2 ⟨s4.job, decision (.answered late)⟩
  let s8 := s7.commit 2 3 ⟨s4.job, decision (.answered late)⟩
  have h0 : M.Reachable (s0, .waiting) := .start ⟨⟨_, _, rfl⟩, trivial⟩
  have h1 : M.step (s0, .waiting) (.platform (.start 0 asked)) (s1, .waiting) := ⟨rfl, rfl⟩
  have h2 : M.step (s1, .waiting) (.platform (.commit 0 1)) (s2, .waiting) := ⟨rfl, rfl⟩
  have h3 : M.step (s2, .waiting) (.platform (.start 1 early)) (s3, .waiting) := ⟨rfl, rfl⟩
  have h4 : M.step (s3, .waiting) (.platform (.commit 1 2)) (s4, .waiting) := ⟨rfl, rfl⟩
  have h5 : M.step (s4, .waiting) (.platform (.start 2 (decision .unsent))) (s5, .waiting) := ⟨rfl, rfl⟩
  have h6 : M.step (s5, .waiting) (.platform (.send 2)) (s6, .underway) := ⟨rfl, rfl, rfl⟩
  have h7 : M.step (s6, .underway) (.platform (.answer 2 late)) (s7, .underway) := ⟨rfl, rfl⟩
  have h8 : M.step (s7, .underway) (.platform (.commit 2 3)) (s8, .underway) := ⟨rfl, rfl⟩
  have hreach := (((h0.step h1).step h2).step h3).step h4
  have hpath : M.Path (s4, .waiting) _ (s8, .underway) :=
    ((((Transition.System.Path.refl _).step h5).step h6).step h7).step h8
  have hsame := (hall _ _ _ hreach hpath).1 rfl
  have hanswer : s8.job.value.answer = some "late" := rfl
  have hearly : s4.job.value.answer = some "early" := rfl
  rw [hsame, hearly] at hanswer
  exact absurd (Option.some.inj hanswer) (by decide)

end Early
end DataCopilot.Platform
