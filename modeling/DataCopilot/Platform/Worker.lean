import DataCopilot.Platform.Attendance

/-! One call of the worker's `execute`, beside everything else that moves the job. -/
namespace DataCopilot.Platform
open Versioned AnalysisJobStateMachine Store
open Agent (RunStatus)

/-- `none` is an exception of Redis: the lease is then taken as acquired. -/
def JobDispatchLease.acquire (answer : Option (Option Bool)) : Bool :=
  match answer with
  | some found => found = some true
  | none => true

def Move.id : Move → Nat
  | .start id _ | .send id | .answer id _ | .commit id _ | .rollback id => id

/-- Where a call of `execute` stands. `calling` counts the attempts that are left; `raised`
holds the code that the handler of an exception hands to `fail`. The call is `announcing`,
`concluding` or `reporting` when what `prepare`, `persistResult` or `fail` has stored is to be
published. -/
inductive WorkerPhase where
  | acquiring
  | ready
  | preparing
  | announcing
  | calling (attempts : Nat)
  | replied (result : Option AgentRunResult)
  | persisting
  | concluding
  | raised (errorCode : String)
  | failing
  | reporting
  | returned
  | skipped
  | threw
deriving DecidableEq

structure Execution where
  store : Store
  phase : WorkerPhase

/-- `interrupted` is an interrupt of the pause between two attempts. -/
inductive WorkerMove where
  | other (m : Move)
  | acquire (answer : Option (Option Bool))
  | begin (body : Transaction)
  | commit (now : Nat)
  | rollback
  | reply (result : Option AgentRunResult)
  | attemptFails (interrupted : Bool)
  | publish (throws : Bool)

/-- Nothing more is stored, unless an exception of `publish` calls `fail`. -/
def WorkerPhase.ends : WorkerPhase → Bool
  | .concluding | .reporting | .returned => true
  | _ => false

/-- The code that the handlers choose. -/
def caught : PlatformError → String
  | .dataSourceMismatch => "DATA_SOURCE_NOT_AVAILABLE"
  | _ => "AGENT_DISPATCH_FAILED"

variable {now : Nat} {job : AnalysisJob} {s t : Store} {m : Move}

namespace Execution

/-- The transaction that a phase opens. -/
def opens : WorkerPhase → Transaction → Option WorkerPhase
  | .ready, .prepare _ _ => some .preparing
  | .replied result, .persistResult result' => if result = result' then some .persisting else none
  | .raised errorCode, .fail errorCode' => if errorCode = errorCode' then some .failing else none
  | _, _ => none

/-- The phase after the transaction has committed; `job` is the row that it has read. -/
def committed (now : Nat) (job : AnalysisJob) : Transaction → WorkerPhase
  | .prepare sourceRegistered userFound =>
    match AnalysisJobWorker.prepare now sourceRegistered userFound job with
    | .ok none => .returned
    | _ => .announcing
  | .persistResult result =>
    match AnalysisJobWorker.persistResult now result job with
    | .ok none => .returned
    | _ => .concluding
  | .fail errorCode =>
    match AnalysisJobWorker.fail now errorCode job with
    | .ok none => .returned
    | _ => .reporting
  | _ => .returned

/-- The phase after a publication. What it throws is caught, but not what it throws in `fail`. -/
def published (maxAttempts : Nat) (throws : Bool) : WorkerPhase → Option WorkerPhase
  | .announcing => some (if throws then .raised "AGENT_DISPATCH_FAILED" else .calling maxAttempts)
  | .concluding => some (if throws then .raised "AGENT_DISPATCH_FAILED" else .returned)
  | .reporting => some (if throws then .threw else .returned)
  | _ => none

/-- The phase after a transaction has thrown. -/
def thrown (errorCode : String) : WorkerPhase → WorkerPhase
  | .failing => .threw
  | _ => .raised errorCode

/-- The code of the exception that a transaction ends with. A row that has changed is one of
the exceptions without a code of their own. -/
def refusal (s : Store) (now : Nat) (o : OpenTransaction) : String :=
  match o.body.body now s.approval o.read.value with
  | .error e => caught e
  | .ok _ => "AGENT_DISPATCH_FAILED"

def attemptFailed (interrupted : Bool) : Nat → WorkerPhase
  | attempts + 2 => if interrupted then .raised "AGENT_DISPATCH_FAILED" else .calling (attempts + 1)
  | _ => .raised "AGENT_DISPATCH_FAILED"

theorem committed_phase {body : Transaction} {result : Option AgentRunResult} :
    committed now job body ≠ .replied result := by
  cases body with
  | prepare sourceRegistered userFound =>
    simp only [committed]
    split
    · simp
    · simp
  | persistResult reply =>
    simp only [committed]
    split
    · simp
    · simp
  | fail errorCode =>
    simp only [committed]
    split
    · simp
    · simp
  | request => simp [committed]
  | decide => simp [committed]

/-- A publication leads to the end of the call only where the call was at its end. -/
theorem published_cases {maxAttempts : Nat} {throws : Bool} {phase phase' : WorkerPhase}
    (h : published maxAttempts throws phase = some phase') :
    (∀ result, phase' ≠ .replied result) ∧ (phase'.ends = true → phase.ends = true) := by
  cases phase with
  | announcing =>
    cases h
    cases throws with
    | false => exact ⟨by simp, by simp [WorkerPhase.ends]⟩
    | true => exact ⟨by simp, by simp [WorkerPhase.ends]⟩
  | concluding =>
    cases h
    cases throws with
    | false => exact ⟨by simp, fun _ => rfl⟩
    | true => exact ⟨by simp, fun _ => rfl⟩
  | reporting =>
    cases h
    cases throws with
    | false => exact ⟨by simp, fun _ => rfl⟩
    | true => exact ⟨by simp, fun _ => rfl⟩
  | _ => cases h

theorem thrown_cases {errorCode : String} {phase : WorkerPhase} :
    thrown errorCode phase = .threw ∨ ∃ code, thrown errorCode phase = .raised code := by
  cases phase with
  | failing => exact .inl rfl
  | _ => exact .inr ⟨_, rfl⟩

/-- `me` is the id of the transactions of this call. -/
def system (me maxAttempts : Nat) : Transition.System Execution WorkerMove where
  init s := Store.system.init s.store ∧ s.phase = .acquiring
  step s l t :=
    match l with
    | .other m => m.id ≠ me ∧ Reported s.store m ∧ s.store.next m = some t.store ∧ t.phase = s.phase
    | .acquire answer => s.phase = .acquiring ∧ t.store = s.store ∧
        t.phase = if JobDispatchLease.acquire answer then .ready else .skipped
    | .begin body => opens s.phase body = some t.phase ∧ s.store.next (.start me body) = some t.store
    | .commit now => s.store.next (.commit me now) = some t.store ∧ ∃ o,
        (s.store.Commits me now o t.store ∧
          t.phase = committed now o.read.value o.body) ∨
        (s.store.Refused me now o ∧ t.phase = thrown (refusal s.store now o) s.phase)
    | .rollback => s.store.next (.rollback me) = some t.store ∧
        t.phase = thrown "AGENT_DISPATCH_FAILED" s.phase
    | .reply result => ∃ attempts, s.phase = .calling (attempts + 1) ∧ Produced s.store result ∧
        t.store = s.store ∧ t.phase = .replied result
    | .attemptFails interrupted => ∃ attempts, s.phase = .calling attempts ∧ t.store = s.store ∧
        t.phase = attemptFailed interrupted attempts
    | .publish throws => t.store = s.store ∧ published maxAttempts throws s.phase = some t.phase

end Execution

/-- The call ends, or its transaction has read a waiting job. -/
def Execution.Seen (me : Nat) (s : Execution) : Prop :=
  s.phase.ends = true ∨
    ∃ o, s.store.opened me = some o ∧ o.read.value.status = .waitingApproval

/-- The call stores the result of a run that goes on, for a job that does not wait; or a job
that the call has left to its approval is set running by a decision. -/
def Neglects (me : Nat) (s : Execution) : WorkerMove → Prop
  | .commit _ => ∃ read reply, s.store.opened me = some ⟨read, .persistResult (some reply)⟩ ∧
      reply.status = "PLANNING" ∧ ¬ Resting read.value.status
  | .other m => s.Seen me ∧ Reopens s.store m
  | _ => False

def Transaction.works : Transaction → Bool
  | .prepare _ _ | .persistResult _ | .fail _ => true
  | _ => false

theorem commit_closed {id : Nat} (h : s.next (.commit id now) = some t) : t.opened id = none := by
  obtain ⟨_, _, he, _⟩ | ⟨_, _, _, _, _, he, _⟩ | ⟨_, _, _, _, _, _, he, _⟩ | ⟨_, _, _, he, hc⟩ |
    ⟨_, _, _, he, _, ht⟩ | ⟨_, _, he, _⟩ := next_cases h
  · cases he
  · cases he
  · cases he
  · cases he
    rw [hc.closed, close_opened, if_pos rfl]
  · cases he
    rw [ht, close_opened, if_pos rfl]
  · cases he

theorem rollback_closed {id : Nat} (h : s.next (.rollback id) = some t) : t.opened id = none := by
  obtain ⟨_, _, he, _⟩ | ⟨_, _, _, _, _, he, _⟩ | ⟨_, _, _, _, _, _, he, _⟩ | ⟨_, _, _, he, _⟩ |
    ⟨_, _, _, he, _⟩ | ⟨_, _, he, _, ht⟩ := next_cases h
  · cases he
  · cases he
  · cases he
  · cases he
  · cases he
  · cases he
    rw [ht, close_opened, if_pos rfl]

/-- A transaction of the worker that ends the call computes a job that rests. -/
theorem last_rests {me : Nat} {o : OpenTransaction} (h : Followed s)
    (hopen : s.opened me = some o) (hworks : o.body.works = true)
    (hp : (Execution.committed now o.read.value o.body).ends = true)
    (hno : ∀ read reply, o = ⟨read, .persistResult (some reply)⟩ → reply.status = "PLANNING" →
      Resting read.value.status)
    {approval : Option Approval}
    (hb : o.body.body now s.approval o.read.value = .ok (job, approval)) : Resting job.status := by
  obtain ⟨read, body⟩ := o
  cases body with
  | prepare sourceRegistered userFound =>
    obtain ⟨written, hw, hb⟩ := Result.bind_eq_ok.mp hb
    cases hb
    simp only [Execution.committed, hw] at hp
    cases written with
    | some planned => cases hp
    | none =>
      obtain hterm | hwait := AnalysisJobWorker.prepare_none hw
      · exact .inr hterm
      · exact .inl hwait
  | persistResult result =>
    obtain ⟨written, hw, hb⟩ := Result.bind_eq_ok.mp hb
    cases hb
    cases written with
    | none => exact .inr (AnalysisJobWorker.persistResult_none hw)
    | some stored =>
      obtain ⟨reply, target, advanced, rfl, hopened, ht, ha, rfl⟩ :=
        AnalysisJobWorker.persistResult_some hw
      obtain ⟨⟨status, hs⟩, _⟩ := h.results me read _ hopen reply rfl
      rw [hs, valueOf_reported] at ht
      cases ht
      have hreached (hn : status ≠ .planning) : advanced.status = reported status := by
        refine (AnalysisJobWorker.advance_ok ?_ ha).2
        cases status with
        | planning => exact absurd rfl hn
        | _ => simp [reported]
      change Resting advanced.status
      cases status with
      | planning =>
        have hrest := hno read reply rfl hs
        obtain ⟨_, ⟨hc, _⟩ | ⟨_, hn⟩⟩ := AnalysisJobWorker.advance_planning ha
        · rw [hc] at hrest
          obtain hrest | hrest := hrest
          · cases hrest
          · cases hrest
        · rw [hn]
          exact hrest
      | waitingApproval => exact .inl (hreached (by simp))
      | completed => exact .inr (by rw [hreached (by simp)]; rfl)
      | rejected => exact .inr (by rw [hreached (by simp)]; rfl)
      | failed => exact .inr (by rw [hreached (by simp)]; rfl)
  | fail errorCode =>
    obtain ⟨written, hw, hb⟩ := Result.bind_eq_ok.mp hb
    cases hb
    cases written with
    | none => exact .inr (AnalysisJobWorker.fail_none hw)
    | some failed =>
      have hn := (AnalysisJobWorker.fail_some hw).2.2
      exact .inr (by rw [Option.getD_some, hn]; rfl)
  | request => cases hworks
  | decide => cases hworks

theorem Execution.opens_cases {phase phase' : WorkerPhase} {body : Transaction}
    (h : opens phase body = some phase') : body.works = true ∧
      (∀ result, body = .persistResult result → phase = .replied result) ∧
      (phase' = .preparing ∨ phase' = .persisting ∨ phase' = .failing) := by
  unfold opens at h
  split at h
  · cases h
    exact ⟨rfl, by simp, .inl rfl⟩
  · split at h
    · rename_i he
      cases h
      exact ⟨rfl, fun result hb => by cases hb; rw [he], .inr (.inl rfl)⟩
    · cases h
  · split at h
    · cases h
      exact ⟨rfl, by simp, .inr (.inr rfl)⟩
    · cases h
  · cases h

/-- What holds of a call of `execute` at any moment. -/
structure Minded (me : Nat) (s : Execution) : Prop where
  reachable : Store.system.Reachable s.store
  followed : Followed s.store
  own : ∀ o, s.store.opened me = some o → o.body.works = true
  seen : ∀ o, s.store.opened me = some o → Resting o.read.value.status →
    Resting s.store.job.value.status
  replied : ∀ result, s.phase = .replied result → Produced s.store result
  rest : s.phase.ends = true → Resting s.store.job.value.status

namespace Minded
variable {me maxAttempts : Nat} {e e' : Execution} {l : WorkerMove}

/-- The store moves, and the call with it. -/
theorem moved (h : Minded me e) (hs : e.store.next m = some e'.store) (hm : Reported e.store m)
    (hown : ∀ o, e'.store.opened me = some o → o.body.works = true)
    (hseen : ∀ o, e'.store.opened me = some o → Resting o.read.value.status →
      Resting e'.store.job.value.status)
    (hreplied : ∀ result, e'.phase = .replied result → e.phase = .replied result)
    (hrest : e'.phase.ends = true → Resting e'.store.job.value.status) : Minded me e' :=
  ⟨h.reachable.step hs, h.followed.kept h.reachable hs hm, hown, hseen,
    fun result hp => (h.replied result (hreplied result hp)).kept hs, hrest⟩

/-- The store stays, and the call takes a step. -/
theorem stayed (h : Minded me e) (hs : e'.store = e.store)
    (hreplied : ∀ result, e'.phase = .replied result → Produced e.store result)
    (hrest : e'.phase.ends = true → e.phase.ends = true) : Minded me e' := by
  obtain ⟨hreach, hfollowed, hown, hseen, _, hends⟩ := h
  refine ⟨?_, ?_, ?_, ?_, ?_, fun hp => ?_⟩
  · rw [hs]
    exact hreach
  · rw [hs]
    exact hfollowed
  · rw [hs]
    exact hown
  · rw [hs]
    exact hseen
  · rw [hs]
    exact hreplied
  · rw [hs]
    exact hends (hrest hp)

/-- The transaction of the call ends with an exception. -/
theorem threw {errorCode : String} {phase : WorkerPhase} (h : Minded me e)
    (hs : e.store.next m = some e'.store) (hm : Reported e.store m)
    (hclosed : e'.store.opened me = none) (hp : e'.phase = Execution.thrown errorCode phase) :
    Minded me e' := by
  have hphase : e'.phase = .threw ∨ ∃ code, e'.phase = .raised code := by
    rw [hp]
    exact Execution.thrown_cases
  refine h.moved hs hm (by simp [hclosed]) (by simp [hclosed]) (fun result hq => ?_) fun hq => ?_
  · rw [hq] at hphase
    simp at hphase
  · obtain he | ⟨code, he⟩ := hphase
    · rw [he] at hq
      cases hq
    · rw [he] at hq
      cases hq

theorem other_kept (h : Minded me e) (hs : (Execution.system me maxAttempts).step e (.other m) e')
    (hno : ¬ Neglects me e (.other m)) : Minded me e' := by
  obtain ⟨hid, hm, hs, hp⟩ := hs
  have hstays (hseen : e.Seen me) (hr : Resting e.store.job.value.status) :
      Resting e'.store.job.value.status :=
    resting_kept h.followed h.reachable hs hm (fun hre => hno ⟨hseen, hre⟩) hr
  have hsame (o : OpenTransaction) (ho : e'.store.opened me = some o) :
      e.store.opened me = some o := by
    obtain hold | ⟨_, rfl, _⟩ | ⟨_, _, _, _, rfl, _⟩ | ⟨_, _, _, _, _, rfl, _⟩ := opened_cases hs ho
    · exact hold
    · exact absurd rfl hid
    · exact absurd rfl hid
    · exact absurd rfl hid
  refine h.moved hs hm (fun o ho => h.own o (hsame o ho)) (fun o ho hr => ?_)
    (fun result hq => by rw [← hp, hq]) fun hq => ?_
  · have hrest := h.seen o (hsame o ho) hr
    obtain hwait | hterm := hr
    · exact hstays (.inr ⟨o, hsame o ho, hwait⟩) hrest
    · have hjob := read_terminal h.reachable me o (hsame o ho) hterm
      have hterm' : isTerminal e.store.job.value.status = true := by rw [hjob, hterm]
      refine .inr ?_
      rw [(wellFormed h.reachable).terminal_status hs hterm']
      exact hterm'
  · rw [hp] at hq
    exact hstays (.inl hq) (h.rest hq)

theorem acquire_kept {answer : Option (Option Bool)} (h : Minded me e)
    (hs : (Execution.system me maxAttempts).step e (.acquire answer) e') : Minded me e' := by
  obtain ⟨_, hs, hp⟩ := hs
  have hphase : e'.phase = .ready ∨ e'.phase = .skipped := by
    rw [hp]
    exact ite_eq_or_eq _ _ _
  refine h.stayed hs (fun result hq => ?_) fun hq => ?_
  · rw [hq] at hphase
    simp at hphase
  · obtain he | he := hphase
    · rw [he] at hq
      cases hq
    · rw [he] at hq
      cases hq

theorem begin_kept {body : Transaction} (h : Minded me e)
    (hs : (Execution.system me maxAttempts).step e (.begin body) e') : Minded me e' := by
  obtain ⟨hopens, hs⟩ := hs
  obtain ⟨hworks, hreported, hphase⟩ := Execution.opens_cases hopens
  have hm : Reported e.store (.start me body) := by
    cases body with
    | persistResult result => exact h.replied result (hreported result rfl)
    | _ => trivial
  have hread (o : OpenTransaction) (ho : e'.store.opened me = some o) :
      o.body.works = true ∧ o.read = e.store.job ∧ e'.store.job = e.store.job := by
    obtain hold | ⟨body', hstart, hst, rfl⟩ | ⟨_, _, _, _, hstart, _⟩ |
      ⟨_, _, _, _, _, hstart, _⟩ := opened_cases hs ho
    · obtain ⟨_, _, hstart, hst⟩ | ⟨_, _, _, _, _, hstart, _⟩ | ⟨_, _, _, _, _, _, hstart, _⟩ |
        ⟨_, _, _, hstart, _⟩ | ⟨_, _, _, hstart, _⟩ | ⟨_, _, hstart, _⟩ := next_cases hs
      · cases hstart
        rw [hst.free] at hold
        cases hold
      · cases hstart
      · cases hstart
      · cases hstart
      · cases hstart
      · cases hstart
    · cases hstart
      exact ⟨hworks, rfl, hst.job⟩
    · cases hstart
    · cases hstart
  refine h.moved hs hm (fun o ho => (hread o ho).1) (fun o ho hr => ?_) (fun result hq => ?_)
    fun hq => ?_
  · obtain ⟨_, hsame, hjob⟩ := hread o ho
    rw [hjob, ← hsame]
    exact hr
  · rw [hq] at hphase
    simp at hphase
  · obtain he | he | he := hphase
    · rw [he] at hq
      cases hq
    · rw [he] at hq
      cases hq
    · rw [he] at hq
      cases hq

theorem commit_kept (h : Minded me e)
    (hs : (Execution.system me maxAttempts).step e (.commit now) e')
    (hno : ¬ Neglects me e (.commit now)) : Minded me e' := by
  obtain ⟨hs, o, ⟨hc, hp⟩ | ⟨_, hp⟩⟩ := hs
  · have hclosed := commit_closed hs
    refine h.moved hs trivial (by simp [hclosed]) (by simp [hclosed]) (fun result hq => ?_) fun hq => ?_
    · rw [hp] at hq
      exact absurd hq Execution.committed_phase
    · rw [hp] at hq
      have hworks := h.own o hc.opened
      have hread := (wellFormed h.reachable).reads me o hc.opened
      obtain ⟨hopen, hready, ⟨job, hb, hcommit⟩, _, _⟩ := hc
      have hrest : Resting job.status := by
        refine last_rests h.followed hopen hworks hq (fun read reply he hplanning => ?_) hb
        subst he
        by_contra hr
        exact hno ⟨read, reply, hopen, hplanning, hr⟩
      obtain ⟨hsame, he⟩ | ⟨_, _, he⟩ := Cell.commit_cases hread hcommit
      · rw [he]
        rw [hsame] at hrest
        exact h.seen o hopen hrest
      · rw [he, Cell.write_value]
        exact hrest
  · exact h.threw hs trivial (commit_closed hs) hp

theorem attemptFails_kept {interrupted : Bool} (h : Minded me e)
    (hs : (Execution.system me maxAttempts).step e (.attemptFails interrupted) e') : Minded me e' := by
  obtain ⟨attempts, _, hs, hp⟩ := hs
  have hphase : (∃ n, e'.phase = .calling n) ∨ ∃ code, e'.phase = .raised code := by
    rw [hp]
    match attempts with
    | 0 => exact .inr ⟨_, rfl⟩
    | 1 => exact .inr ⟨_, rfl⟩
    | n + 2 =>
      cases interrupted with
      | true => exact .inr ⟨_, rfl⟩
      | false => exact .inl ⟨_, rfl⟩
  refine h.stayed hs (fun result hq => ?_) fun hq => ?_
  · rw [hq] at hphase
    simp at hphase
  · obtain ⟨n, he⟩ | ⟨code, he⟩ := hphase
    · rw [he] at hq
      cases hq
    · rw [he] at hq
      cases hq

/-- The step lemma. -/
theorem kept (h : Minded me e) (hs : (Execution.system me maxAttempts).step e l e')
    (hno : ¬ Neglects me e l) : Minded me e' := by
  cases l with
  | other m => exact h.other_kept hs hno
  | acquire answer => exact h.acquire_kept hs
  | begin body => exact h.begin_kept hs
  | commit now => exact h.commit_kept hs hno
  | rollback =>
    obtain ⟨hs, hp⟩ := hs
    exact h.threw hs trivial (rollback_closed hs) hp
  | reply result =>
    obtain ⟨_, _, hproduced, hs, hp⟩ := hs
    refine h.stayed hs (fun result' hq => ?_) fun hq => ?_
    · rw [hp] at hq
      cases hq
      exact hproduced
    · rw [hp] at hq
      cases hq
  | attemptFails interrupted => exact h.attemptFails_kept hs
  | publish throws =>
    obtain ⟨hs, hp⟩ := hs
    obtain ⟨hreplied, hends⟩ := Execution.published_cases hp
    exact h.stayed hs (fun result hq => absurd hq (hreplied result)) hends

end Minded

/-- The run lemma. -/
theorem minded {me maxAttempts : Nat} {e : Execution}
    (h : ((Execution.system me maxAttempts).restrict fun e l _ => ¬ Neglects me e l).Reachable e) :
    Minded me e := by
  refine h.invariant (fun e hi => ?_) fun e l e' _ hm hs => ?_
  · obtain ⟨⟨id, createdBy, he⟩, hp⟩ := hi
    have hnone : e.store.opened = fun _ => none := by rw [he]
    refine ⟨.start ⟨id, createdBy, he⟩, ⟨?_, ?_, ?_, ?_⟩, ?_, ?_, ?_, ?_⟩
    · rw [he]
      exact .inl rfl
    · simp [hnone]
    · simp [hnone]
    · simp [hnone]
    · simp [hnone]
    · simp [hnone]
    · simp [hp]
    · simp [hp, WorkerPhase.ends]
  · obtain ⟨hs, hno⟩ := hs
    exact hm.kept hs hno

/-- Unless the call neglects it, a job is attended when `execute` has returned: it has ended,
or waits with its pending approval. -/
theorem execution_attended {me maxAttempts : Nat} {e : Execution}
    (h : ((Execution.system me maxAttempts).restrict fun e l _ => ¬ Neglects me e l).Reachable e)
    (hp : e.phase = .returned) :
    isTerminal e.store.job.value.status = true ∨ (e.store.job.value.status = .waitingApproval ∧
      ∃ approval, e.store.approval = some approval ∧ approval.status = .pending) := by
  have hm := minded h
  obtain hwait | hterm := hm.rest (by rw [hp]; rfl)
  · have hfits := hm.followed.fits
    rw [hwait] at hfits
    exact .inr ⟨hwait, hfits.waiting⟩
  · exact .inl hterm

/-! A job that is answered; and one whose second attempt finds the run still under way. -/
section Dispatched

def acceptedStore : Store := { job := .fresh { id := "job-1", createdBy := "user-1" } }

def prepareCall : Transaction := .prepare true true

/-- The job is prepared by its worker, whose transactions bear the number 0. -/
def preparedStore : Store :=
  (acceptedStore.put 0 ⟨acceptedStore.job, prepareCall⟩).commit 0 1 ⟨acceptedStore.job, prepareCall⟩

def storeCall (status : RunStatus) : Transaction := .persistResult (some ⟨"job-1", status.text, none⟩)

def storedStore (status : RunStatus) : Store :=
  (preparedStore.put 0 ⟨preparedStore.job, storeCall status⟩).commit 0 2
    ⟨preparedStore.job, storeCall status⟩

/-- The first attempt times out, the second one is answered with this status, and what it
says is stored and published. -/
theorem stored_execution {C : Execution → WorkerMove → Execution → Prop} (status : RunStatus)
    (hs : status ≠ .waitingApproval)
    (hC : ∀ e l e', (∀ m, l ≠ .other m) →
      (∀ read reply, e.store.opened 0 = some ⟨read, .persistResult (some reply)⟩ →
        reply.status = status.text) → C e l e') :
    ((Execution.system 0 3).restrict C).Reachable ⟨storedStore status, .returned⟩ := by
  let preparing : Store := acceptedStore.put 0 ⟨acceptedStore.job, prepareCall⟩
  let persisting : Store := preparedStore.put 0 ⟨preparedStore.job, storeCall status⟩
  let result : Option AgentRunResult := some ⟨"job-1", status.text, none⟩
  have hproduced : Produced preparedStore result := by
    intro reply he
    obtain rfl := Option.some.inj he
    refine ⟨⟨status, rfl⟩, fun hw => ?_⟩
    cases status with
    | waitingApproval => exact absurd rfl hs
    | _ => simp [RunStatus.text] at hw
  have h0 : ((Execution.system 0 3).restrict C).Reachable ⟨acceptedStore, .acquiring⟩ :=
    .start ⟨⟨_, _, rfl⟩, rfl⟩
  have h1 : ((Execution.system 0 3).restrict C).step ⟨acceptedStore, .acquiring⟩
      (.acquire (some (some true))) ⟨acceptedStore, .ready⟩ :=
    ⟨⟨rfl, rfl, rfl⟩, hC _ _ _ (by simp) (by simp [acceptedStore])⟩
  have h2 : ((Execution.system 0 3).restrict C).step ⟨acceptedStore, .ready⟩ (.begin prepareCall)
      ⟨preparing, .preparing⟩ := ⟨⟨rfl, rfl⟩, hC _ _ _ (by simp) (by simp [acceptedStore])⟩
  have hprepares : preparing.Commits 0 1 ⟨acceptedStore.job, prepareCall⟩ preparedStore :=
    ⟨rfl, rfl, ⟨_, rfl, rfl⟩, rfl, rfl⟩
  have h3 : ((Execution.system 0 3).restrict C).step ⟨preparing, .preparing⟩ (.commit 1)
      ⟨preparedStore, .announcing⟩ :=
    ⟨⟨rfl, _, .inl ⟨hprepares, rfl⟩⟩,
      hC _ _ _ (by simp) (by simp [preparing, Store.put, prepareCall])⟩
  have hannounced : ((Execution.system 0 3).restrict C).step ⟨preparedStore, .announcing⟩
      (.publish false) ⟨preparedStore, .calling 3⟩ :=
    ⟨⟨rfl, rfl⟩, hC _ _ _ (by simp) fun _ _ ho => by cases ho⟩
  have h4 : ((Execution.system 0 3).restrict C).step ⟨preparedStore, .calling 3⟩
      (.attemptFails false) ⟨preparedStore, .calling 2⟩ :=
    ⟨⟨3, rfl, rfl, rfl⟩, hC _ _ _ (by simp) fun _ _ ho => by cases ho⟩
  have h5 : ((Execution.system 0 3).restrict C).step ⟨preparedStore, .calling 2⟩ (.reply result)
      ⟨preparedStore, .replied result⟩ :=
    ⟨⟨1, rfl, hproduced, rfl, rfl⟩, hC _ _ _ (by simp) fun _ _ ho => by cases ho⟩
  have h6 : ((Execution.system 0 3).restrict C).step ⟨preparedStore, .replied result⟩
      (.begin (storeCall status)) ⟨persisting, .persisting⟩ :=
    ⟨⟨if_pos rfl, rfl⟩, hC _ _ _ (by simp) fun _ _ ho => by cases ho⟩
  have hstores : persisting.Commits 0 2 ⟨preparedStore.job, storeCall status⟩ (storedStore status) := by
    cases status with
    | waitingApproval => exact absurd rfl hs
    | _ => exact ⟨rfl, rfl, ⟨_, rfl, rfl⟩, rfl, rfl⟩
  have h7 : ((Execution.system 0 3).restrict C).step ⟨persisting, .persisting⟩ (.commit 2)
      ⟨storedStore status, .concluding⟩ := by
    refine ⟨⟨rfl, _, .inl ⟨hstores, ?_⟩⟩, hC _ _ _ (by simp) fun read reply ho => ?_⟩
    · cases status with
      | waitingApproval => exact absurd rfl hs
      | _ => rfl
    · cases ho
      rfl
  have h8 : ((Execution.system 0 3).restrict C).step ⟨storedStore status, .concluding⟩
      (.publish false) ⟨storedStore status, .returned⟩ := by
    refine ⟨⟨rfl, rfl⟩, hC _ _ _ (by simp) fun _ _ ho => ?_⟩
    have hclosed := commit_closed h7.1.1
    rw [hclosed] at ho
    cases ho
  have hprepared := (((h0.step h1).step h2).step h3).step hannounced
  exact ((((hprepared.step h4).step h5).step h6).step h7).step h8

theorem answered_attended : isTerminal (storedStore .completed).job.value.status = true ∨
    ((storedStore .completed).job.value.status = .waitingApproval ∧
      ∃ approval, (storedStore .completed).approval = some approval ∧ approval.status = .pending) := by
  have hr : ((Execution.system 0 3).restrict fun e l _ => ¬ Neglects 0 e l).Reachable
      ⟨storedStore .completed, .returned⟩ := by
    refine stored_execution .completed (by simp) fun e l e' hl ho hneglects => ?_
    cases l with
    | other m => exact hl m rfl
    | commit now =>
      obtain ⟨read, reply, hopen, hplanning, _⟩ := hneglects
      rw [ho read reply hopen] at hplanning
      simp [RunStatus.text] at hplanning
    | _ => exact hneglects
  exact execution_attended hr rfl

/-- The job is left in PLANNING. -/
theorem unfinished_unattended : ¬ ∀ e : Execution, (Execution.system 0 3).Reachable e →
    e.phase = .returned →
    isTerminal e.store.job.value.status = true ∨ (e.store.job.value.status = .waitingApproval ∧
      ∃ approval, e.store.approval = some approval ∧ approval.status = .pending) := by
  intro hall
  have hr : ((Execution.system 0 3).restrict fun _ _ _ => True).Reachable
      ⟨storedStore .planning, .returned⟩ :=
    stored_execution .planning (by simp) fun _ _ _ _ _ => trivial
  obtain hterm | ⟨hwait, _⟩ := hall _ hr.of_restrict rfl
  · cases hterm
  · cases hwait

end Dispatched
end DataCopilot.Platform
