import DataCopilot.Platform.Transactions

/-! The status events of a job beside the rows that are committed. What a transaction has to
tell is published after its commit; the listener that hands a new job to the executor runs
inside the completed transaction. -/
namespace DataCopilot.Platform
open Versioned AnalysisJobStateMachine

/-- Of the payload, the error code. -/
structure JobProgressSignal where
  type : String
  status : AnalysisJobStatus
  errorCode : Option String := none
deriving DecidableEq, Repr

def statusChanged (status : AnalysisJobStatus) (errorCode : Option String) : JobProgressSignal :=
  ⟨"JOB_STATUS_CHANGED", status, errorCode⟩

/-- What is published once a transaction has committed, from the row it has read. The worker
tells PLANNING for every job it has prepared. -/
def Transaction.signal (now : Nat) (approval : Option Approval) (job : AnalysisJob) :
    Transaction → Option JobProgressSignal
  | .prepare sourceRegistered userFound =>
    match AnalysisJobWorker.prepare now sourceRegistered userFound job with
    | .ok (some _) => some (statusChanged .planning none)
    | _ => none
  | .persistResult result =>
    match AnalysisJobWorker.persistResult now result job with
    | .ok (some stored) => some (statusChanged stored.status none)
    | _ => none
  | .fail errorCode =>
    match AnalysisJobWorker.fail now errorCode job with
    | .ok (some _) => some (statusChanged .failed (some errorCode))
    | _ => none
  | .request _ _ =>
    match approval with
    | some _ => none
    | none => some ⟨"APPROVAL_REQUIRED", .waitingApproval, none⟩
  | .decide decision reviewerId comment (.answered result) =>
    match approval with
    | some approval =>
      match ApprovalService.decide now decision reviewerId comment result approval job with
      | .ok (decided, _) => some ⟨"APPROVAL_DECIDED", decided.status, none⟩
      | .error _ => none
    | none => none
  | .decide _ _ _ _ => none

/-- The signal of a move that commits. -/
def Store.signal (s : Store) : Move → Option JobProgressSignal
  | .commit id now => do
    let o ← s.opened id
    match o.body.body now s.approval o.read.value with
    | .error _ => none
    | .ok (job, _) =>
      let _ ← s.job.commit o.read job
      o.body.signal now s.approval o.read.value
  | _ => none

/-- `had` are the values that the committed row has had, newest first. `accepted` is the new
job, until the listener of its creation has run. -/
structure Progress where
  store : Store
  had : List AnalysisJob
  accepted : Option AnalysisJob
  due : List JobProgressSignal := []
  published : List JobProgressSignal := []

/-- `read` is a thread that reads the row and means to publish its status: of the executor when
it takes up a job, or of a request that records a step. A signal is lost with its thread. -/
inductive ProgressMove where
  | transaction (m : Move)
  | read (type : String)
  | handOver (refused : Bool) (now : Nat)
  | publish (signal : JobProgressSignal)
  | lose (signal : JobProgressSignal)

namespace Progress
variable (s : Progress)

/-- `reject`, called from the listener: the template joins the completed transaction, so it
works on the job of that transaction and nothing is committed. -/
def reject (now : Nat) (job : AnalysisJob) : List JobProgressSignal :=
  match AnalysisJobWorker.fail now "ASYNC_QUEUE_FULL" job with
  | .ok (some _) => [statusChanged .failed (some "ASYNC_QUEUE_FULL")]
  | _ => []

def next : ProgressMove → Option Progress
  | .transaction m =>
    match s.store.next m with
    | none => none
    | some store => some { s with
        store := store
        had := store.job.value :: s.had
        due := (s.store.signal m).toList ++ s.due }
  | .read type => some { s with due := ⟨type, s.store.job.value.status, none⟩ :: s.due }
  | .handOver refused now =>
    match s.accepted with
    | none => none
    | some job => some { s with
        accepted := none
        due := (if refused then reject now job else []) ++ s.due }
  | .publish signal =>
    if signal ∈ s.due then some { s with
        due := s.due.erase signal
        published := signal :: s.published }
    else none
  | .lose signal => some { s with due := s.due.erase signal }

/-- A job whose creation has just been committed. -/
def created (job : AnalysisJob) : Progress where
  store := { job := .fresh job }
  had := [job]
  accepted := some job

def system : Transition.System Progress ProgressMove where
  init s := ∃ id createdBy, s = created { id := id, createdBy := createdBy }
  step s m t := s.next m = some t

end Progress

/-- The committed row has, or has had, what a signal says. -/
def Backed (had : List AnalysisJob) (signal : JobProgressSignal) : Prop :=
  ∃ job ∈ had, job.status = signal.status ∧
    ∀ code, signal.errorCode = some code → job.errorCode = some code

/-- The executor refuses the job that the listener hands over; or a worker has prepared a job
that runs although its row has never been PLANNING. -/
def RunsAhead (s : Progress) : ProgressMove → Prop
  | .handOver refused _ => refused = true
  | .transaction (.commit id _) => (∃ read sourceRegistered userFound,
      s.store.opened id = some ⟨read, .prepare sourceRegistered userFound⟩ ∧
      (read.value.status = .validating ∨ read.value.status = .running)) ∧
    ∀ job ∈ s.had, job.status ≠ .planning
  | _ => False

section Bodies
variable {now : Nat} {approval approval' : Option Approval} {job next : AnalysisJob} {body : Transaction}
  {signal : JobProgressSignal}

theorem AnalysisJobWorker.prepare_status {sourceRegistered userFound : Bool}
    (h : prepare now sourceRegistered userFound job = .ok (some next)) :
    next.status = .planning ∨ next = job ∧ (job.status = .validating ∨ job.status = .running) := by
  obtain ⟨hopen, hwait, _, hcase⟩ := prepare_some h
  by_cases hc : job.status = .created
  · left
    unfold prepare at h
    rw [hc, if_neg (by decide)] at h
    by_cases hr : sourceRegistered = false
    · rw [if_pos hr] at h
      cases h
    · rw [if_neg hr] at h
      obtain ⟨planned, hp, h⟩ := Result.bind_eq_ok.mp h
      obtain rfl : planned = next := by
        cases userFound with
        | false => cases h
        | true => simpa using h
      obtain ⟨_, ⟨_, hn⟩ | ⟨hfalse, _⟩⟩ := transitionIf_ok hp
      · exact hn
      · cases hfalse
  · obtain rfl | ⟨hcreated, _⟩ := hcase
    · cases hs : next.status with
      | created => exact absurd hs hc
      | planning => exact .inl rfl
      | validating => exact .inr ⟨rfl, .inl rfl⟩
      | running => exact .inr ⟨rfl, .inr rfl⟩
      | waitingApproval => exact absurd hs hwait
      | _ =>
        rw [hs] at hopen
        cases hopen
    · exact absurd hcreated hc

theorem AnalysisJobWorker.fail_errorCode {errorCode : String}
    (h : fail now errorCode job = .ok (some next)) : next.errorCode = some errorCode := by
  unfold fail at h
  by_cases hs : isTerminal job.status = true
  · rw [if_pos hs] at h
    cases h
  · rw [if_neg hs] at h
    obtain ⟨failed, _, h⟩ := Result.bind_eq_ok.mp h
    cases h
    rfl

/-- A signal says what its transaction has written, except for the PLANNING of a job that was
past it. -/
theorem Transaction.signal_written (hb : body.body now approval job = .ok (next, approval'))
    (hs : body.signal now approval job = some signal) :
    (next.status = signal.status ∧ ∀ code, signal.errorCode = some code → next.errorCode = some code) ∨
    ∃ sourceRegistered userFound, body = .prepare sourceRegistered userFound ∧
      signal = statusChanged .planning none ∧ (job.status = .validating ∨ job.status = .running) := by
  cases body with
  | prepare sourceRegistered userFound =>
    obtain ⟨written, hw, hb⟩ := Result.bind_eq_ok.mp hb
    simp only [Transaction.signal, hw] at hs
    cases written with
    | none => cases hs
    | some planned =>
      cases hb
      cases hs
      obtain hn | ⟨_, hrun⟩ := AnalysisJobWorker.prepare_status hw
      · exact .inl ⟨hn, fun code hc => by cases hc⟩
      · exact .inr ⟨_, _, rfl, rfl, hrun⟩
  | persistResult result =>
    obtain ⟨written, hw, hb⟩ := Result.bind_eq_ok.mp hb
    simp only [Transaction.signal, hw] at hs
    cases written with
    | none => cases hs
    | some stored =>
      cases hb
      cases hs
      exact .inl ⟨rfl, fun code hc => by cases hc⟩
  | fail errorCode =>
    obtain ⟨written, hw, hb⟩ := Result.bind_eq_ok.mp hb
    simp only [Transaction.signal, hw] at hs
    cases written with
    | none => cases hs
    | some failed =>
      cases hb
      cases hs
      refine .inl ⟨(AnalysisJobWorker.fail_some hw).2.2, fun code hc => ?_⟩
      rw [← hc]
      exact AnalysisJobWorker.fail_errorCode hw
  | request approvalId reasonCodes =>
    obtain ⟨⟨waiting, inserted⟩, hr, hb⟩ := Result.bind_eq_ok.mp hb
    cases hb
    cases approval with
    | some found => cases hs
    | none =>
      cases hs
      obtain ⟨hfound, _⟩ | ⟨_, _, _, hw, _⟩ := ApprovalService.request_ok hr
      · cases hfound
      · exact .inl ⟨hw, fun code hc => by cases hc⟩
  | decide decision reviewerId comment resume =>
    cases resume with
    | unsent => cases hs
    | sent => cases hs
    | answered result =>
      cases approval with
      | none => cases hs
      | some found =>
        obtain ⟨⟨written, decided⟩, hd, hb⟩ := Result.bind_eq_ok.mp hb
        simp only [Transaction.signal, hd] at hs
        cases hb
        cases hs
        exact .inl ⟨rfl, fun code hc => by cases hc⟩

end Bodies

theorem Backed.mono {had had' : List AnalysisJob} {signal : JobProgressSignal} (h : Backed had signal)
    (hsub : ∀ job ∈ had, job ∈ had') : Backed had' signal := by
  obtain ⟨job, hjob, hb⟩ := h
  exact ⟨job, hsub job hjob, hb⟩

namespace Progress
variable {s t : Progress} {m : ProgressMove} {signal : JobProgressSignal}

/-- What holds of every run that does not run ahead. -/
structure Told (s : Progress) : Prop where
  current : s.store.job.value ∈ s.had
  reads : ∀ id o, s.store.opened id = some o → o.read.value ∈ s.had
  due : ∀ signal ∈ s.due, Backed s.had signal
  published : ∀ signal ∈ s.published, Backed s.had signal

/-- The transactions that are open after a move have read the row as it was or is. -/
theorem reads_kept {store : Store} {move : Move} (h : Told s) (hm : s.store.next move = some store)
    {id : Nat} {o : OpenTransaction} (ho : store.opened id = some o) : o.read.value ∈ s.had := by
  obtain hold | ⟨body, _, _, rfl⟩ | ⟨read, d, r, c, _, hid, rfl⟩ | ⟨read, d, r, c, result, _, hid, rfl⟩ :=
    Store.opened_cases hm ho
  · exact h.reads id o hold
  · exact h.current
  · exact h.reads id ⟨read, .decide d r c .unsent⟩ hid
  · exact h.reads id ⟨read, .decide d r c .sent⟩ hid

theorem signal_cases {store : Store} {move : Move} (hm : store.signal move = some signal) :
    ∃ id now o job approval cell, move = .commit id now ∧ store.opened id = some o ∧
      o.body.body now store.approval o.read.value = .ok (job, approval) ∧
      store.job.commit o.read job = some cell ∧
      o.body.signal now store.approval o.read.value = some signal := by
  cases move with
  | commit id now =>
    obtain ⟨o, ho, hm⟩ := Option.bind_eq_some_iff.mp hm
    cases hb : o.body.body now store.approval o.read.value with
    | error e =>
      rw [hb] at hm
      cases hm
    | ok written =>
      rw [hb] at hm
      obtain ⟨cell, hc, hm⟩ := Option.bind_eq_some_iff.mp hm
      exact ⟨id, now, o, written.1, written.2, cell, rfl, ho, hb, hc, hm⟩
  | _ => cases hm

/-- What a commit tells is backed by the row it leaves, or by the one it has read. -/
theorem signal_backed {store : Store} {move : Move} (h : Told s) (hm : s.store.next move = some store)
    (hno : ¬ RunsAhead s (.transaction move)) (hs : s.store.signal move = some signal) :
    Backed (store.job.value :: s.had) signal := by
  obtain ⟨id, now, o, job, approval, cell, rfl, ho, hb, hc, hs⟩ := signal_cases hs
  have hcell : store.job = cell := by
    simp only [Store.next, ho] at hm
    split at hm
    · cases hm
    · cases hm
      simp only [Store.commit, hb, hc]
  have hjob : job ∈ store.job.value :: s.had := by
    rw [hcell]
    unfold Cell.commit at hc
    split at hc
    · rename_i he
      rw [he]
      exact List.mem_cons_of_mem _ (h.reads id o ho)
    · split at hc
      · cases hc
        exact List.mem_cons_self
      · cases hc
  obtain hw | ⟨a, b, hbody, rfl, hrun⟩ := Transaction.signal_written hb hs
  · exact ⟨job, hjob, hw⟩
  · obtain ⟨read, body⟩ := o
    subst hbody
    have hplanned : ∃ job ∈ s.had, job.status = .planning := by
      by_contra hnone
      refine hno ⟨⟨read, a, b, ho, hrun⟩, fun job hj hp => hnone ⟨job, hj, hp⟩⟩
    obtain ⟨planned, hmem, hp⟩ := hplanned
    exact ⟨planned, List.mem_cons_of_mem _ hmem, hp, fun code hcode => by cases hcode⟩

theorem Told.next (h : Told s) (hno : ¬ RunsAhead s m) (hs : s.next m = some t) : Told t := by
  cases m with
  | transaction move =>
    simp only [Progress.next] at hs
    split at hs
    · cases hs
    · rename_i store hm
      cases hs
      refine ⟨List.mem_cons_self, fun id o ho => List.mem_cons_of_mem _ (reads_kept h hm ho),
        fun signal hd => ?_, fun signal hp => (h.published signal hp).mono fun _ => List.mem_cons_of_mem _⟩
      obtain hd | hd := List.mem_append.mp hd
      · exact signal_backed h hm hno (Option.mem_toList.mp hd)
      · exact (h.due signal hd).mono fun _ => List.mem_cons_of_mem _
  | read type =>
    cases hs
    refine ⟨h.current, h.reads, fun signal hd => ?_, h.published⟩
    obtain rfl | hd := List.mem_cons.mp hd
    · exact ⟨_, h.current, rfl, fun code hc => by cases hc⟩
    · exact h.due signal hd
  | handOver refused now =>
    simp only [Progress.next] at hs
    split at hs
    · cases hs
    · cases hs
      have hrefused : refused = false := by simpa [RunsAhead] using hno
      refine ⟨h.current, h.reads, fun signal hd => ?_, h.published⟩
      rw [hrefused] at hd
      exact h.due signal hd
  | publish signal =>
    simp only [Progress.next] at hs
    split at hs
    · rename_i hd
      cases hs
      refine ⟨h.current, h.reads, fun other ho => h.due other (List.mem_of_mem_erase ho), fun other ho => ?_⟩
      obtain rfl | ho := List.mem_cons.mp ho
      · exact h.due other hd
      · exact h.published other ho
    · cases hs
  | lose signal =>
    cases hs
    exact ⟨h.current, h.reads, fun other ho => h.due other (List.mem_of_mem_erase ho), h.published⟩

theorem told (h : (system.restrict fun s m _ => ¬ RunsAhead s m).Reachable s) : Told s := by
  refine h.invariant ?_ fun s l t _ hs hst => hs.next hst.2 hst.1
  rintro s ⟨id, createdBy, rfl⟩
  refine ⟨List.mem_cons_self, fun id o ho => ?_, fun signal hd => ?_, fun signal hp => ?_⟩
  · cases ho
  · cases hd
  · cases hp

/-- In a run without such a step, the row has had what is published, when it is published. -/
theorem published_backed (s : Progress)
    (h : (system.restrict fun s m _ => ¬ RunsAhead s m).Reachable s) :
    ∀ signal ∈ s.published, Backed s.had signal :=
  (told h).published

/-! A job that the executor takes up, and one that it refuses. -/
section Refused

def acceptedJob : AnalysisJob := { id := "job-1", createdBy := "user-1" }

theorem reached (h : (system.restrict fun s m _ => ¬ RunsAhead s m).Reachable s) (m : ProgressMove)
    (hm : s.next m = some t) (hno : ¬ RunsAhead s m) :
    (system.restrict fun s m _ => ¬ RunsAhead s m).Reachable t :=
  h.step ⟨hm, hno⟩

theorem planning_told : ∃ s : Progress, s.published = [statusChanged .planning none] ∧
    ∀ signal ∈ s.published, Backed s.had signal := by
  have h0 : (system.restrict fun s m _ => ¬ RunsAhead s m).Reachable (created acceptedJob) :=
    .start ⟨_, _, rfl⟩
  have h1 := reached h0 (.handOver false 0) rfl (by simp [RunsAhead])
  have h2 := reached h1 (.transaction (.start 0 (.prepare true true))) rfl id
  have h3 := reached h2 (.transaction (.commit 0 1)) rfl ?_
  have h4 := reached h3 (.publish (statusChanged .planning none)) rfl id
  · exact ⟨_, rfl, published_backed _ h4⟩
  · rintro ⟨⟨read, a, b, ho, hrun⟩, _⟩
    cases ho
    obtain hrun | hrun := hrun
    · cases hrun
    · cases hrun

/-- FAILED is published for a row that was never anything but CREATED. -/
theorem refusal_told :
    ¬ ∀ s, system.Reachable s → ∀ signal ∈ s.published, Backed s.had signal := by
  intro h
  let failed := statusChanged .failed (some "ASYNC_QUEUE_FULL")
  let refused : Progress := { created acceptedJob with accepted := none, due := [failed] }
  let told : Progress := { refused with due := [], published := [failed] }
  have h0 : system.Reachable (created acceptedJob) := .start ⟨_, _, rfl⟩
  have h1 : system.step (created acceptedJob) (.handOver true 0) refused := rfl
  have h2 : system.step refused (.publish failed) told := rfl
  obtain ⟨job, hjob, hstatus, _⟩ := h told ((h0.step h1).step h2) failed List.mem_cons_self
  obtain rfl := List.mem_singleton.mp hjob
  cases hstatus

end Refused

end Progress

end DataCopilot.Platform
