import Mathlib.Logic.Function.Basic
import DataCopilot.Library.Result
import DataCopilot.Library.Transition
import DataCopilot.Library.UniqueIndex
import DataCopilot.Library.Uuid

/-! `AnalysisJobService.create`, and calls of it that run side by side. Each call looks for a
job under its key, inserts one, and commits or is refused by the unique constraint. -/
namespace DataCopilot.Platform
open UniqueIndex

/-- `String.trim`. -/
def trim (s : String) : String :=
  String.ofList ((s.toList.dropWhile (· ≤ ' ')).reverse.dropWhile (· ≤ ' ')).reverse

structure CreateAnalysisJobRequest where
  dataSourceId : UUID
  question : String
deriving DecidableEq

structure Caller where
  userId : UUID
  tenantId : UUID
deriving DecidableEq

/-- The columns of a new job. -/
structure NewJob where
  id : UUID
  tenantId : UUID
  dataSourceId : UUID
  createdBy : UUID
  question : String
  idempotencyKey : String
  requestHash : String
  traceId : String
deriving DecidableEq

/-- The columns of `uq_analysis_jobs_idempotency`. -/
structure JobKey where
  tenantId : UUID
  createdBy : UUID
  idempotencyKey : String
deriving DecidableEq

def NewJob.key (job : NewJob) : JobKey := ⟨job.tenantId, job.createdBy, job.idempotencyKey⟩

/-- The primary key and the unique constraint. -/
def NewJob.Clash (a b : NewJob) : Prop := a.id = b.id ∨ a.key = b.key

instance : DecidableRel NewJob.Clash := fun _ _ => instDecidableOr

instance : Std.Symm NewJob.Clash where
  symm _ _ h := h.imp Eq.symm Eq.symm

inductive CreateError where
  | userNotFound | idempotencyConflict | dataSourceNotFound | dataIntegrityViolation | rolledBack
deriving DecidableEq

/-- What a call has to say when nothing went wrong. -/
inductive Created where
  | existing (job : NewJob)
  | fresh (job : NewJob)
deriving DecidableEq

def Created.job : Created → NewJob
  | .existing job | .fresh job => job

structure CreateCall where
  request : CreateAnalysisJobRequest
  idempotencyKey : String
  caller : Caller
  traceId : String
deriving DecidableEq

namespace CreateCall

def key (c : CreateCall) : JobKey := ⟨c.caller.tenantId, c.caller.userId, c.idempotencyKey⟩

/-- The text that `requestHash` digests. -/
def hashed (c : CreateCall) : String := c.request.dataSourceId.text ++ "\n" ++ trim c.request.question

end CreateCall

namespace AnalysisJobService
variable (sha256 : String → String)

def requestHash (dataSourceId : UUID) (question : String) : String :=
  sha256 (dataSourceId.text ++ "\n" ++ question)

/-- `create` up to the end of its transaction: `existing` is the job it finds under its key, and
`id` the random one. -/
def create (userFound sourceFound : Bool) (existing : Option NewJob) (id : UUID) (c : CreateCall) :
    Except CreateError Created := do
  if !userFound then throw .userNotFound
  let question := trim c.request.question
  let requestHash := requestHash sha256 c.request.dataSourceId question
  match existing with
  | some job => if job.requestHash ≠ requestHash then throw .idempotencyConflict else pure (.existing job)
  | none =>
    if !sourceFound then throw .dataSourceNotFound
    pure (.fresh {
      id := id
      tenantId := c.caller.tenantId
      dataSourceId := c.request.dataSourceId
      createdBy := c.caller.userId
      question := question
      idempotencyKey := c.idempotencyKey
      requestHash := requestHash
      traceId := c.traceId })

end AnalysisJobService

/-- How far a call has come. A new job is flushed to the table before the commit. -/
inductive CreatePhase where
  | started
  | saved (job : NewJob)
  | flushed (job : NewJob)
  | ended (answer : Except CreateError Created)

/-- What `recordSuccess` stores for a new job. -/
structure AuditEvent where
  tenantId : UUID
  actorUserId : UUID
  action : String
  resourceType : String
  resourceId : UUID
  outcome : String
  traceId : String
deriving DecidableEq

def jobCreated (job : NewJob) : AuditEvent where
  tenantId := job.tenantId
  actorUserId := job.createdBy
  action := "ANALYSIS_JOB_CREATED"
  resourceType := "ANALYSIS_JOB"
  resourceId := job.id
  outcome := "SUCCESS"
  traceId := job.traceId

/-- The committed rows, the calls, and the `AnalysisJobAccepted` events with the calls that
published them. -/
structure Intake where
  jobs : Table NewJob := {}
  audit : List AuditEvent := []
  accepted : List (Nat × UUID) := []
  calls : Nat → Option (CreateCall × CreatePhase) := fun _ => none

/-- `rollback` is any other failure of a call. -/
inductive CreateMove where
  | call (i : Nat) (c : CreateCall)
  | read (i : Nat) (userFound sourceFound : Bool) (id : UUID)
  | flush (i : Nat)
  | commit (i : Nat)
  | rollback (i : Nat)

def CreateMove.caller : CreateMove → Nat
  | .call i _ | .read i _ _ _ | .flush i | .commit i | .rollback i => i

namespace Intake
variable (sha256 : String → String) (s : Intake)

def put (i : Nat) (c : CreateCall) (phase : CreatePhase) : Intake :=
  { s with calls := Function.update s.calls i (some (c, phase)) }

def find (key : JobKey) : Option NewJob := s.jobs.rows.find? fun job => job.key = key

def phaseOf : Except CreateError Created → CreatePhase
  | .ok (.fresh job) => .saved job
  | answer => .ended answer

/-- The listeners for `AFTER_COMMIT` run before the commit returns. -/
def committed (i : Nat) (job : NewJob) : Intake :=
  { s with
    jobs := s.jobs.commit i job
    audit := jobCreated job :: s.audit
    accepted := (i, job.id) :: s.accepted }

def next : CreateMove → Option Intake
  | .call i c =>
    match s.calls i with
    | none => some (s.put i c .started)
    | some _ => none
  | .read i userFound sourceFound id =>
    match s.calls i with
    | some (c, .started) => some (s.put i c
        (phaseOf (AnalysisJobService.create sha256 userFound sourceFound (s.find c.key) id c)))
    | _ => none
  | .flush i =>
    match s.calls i with
    | some (c, .saved job) =>
      match s.jobs.insert NewJob.Clash i job with
      | .inserted jobs => some ({ s with jobs := jobs }.put i c (.flushed job))
      | .violation => some (s.put i c (.ended (.error .dataIntegrityViolation)))
      | .waits => none
    | _ => none
  | .commit i =>
    match s.calls i with
    | some (c, .flushed job) => some ((s.committed i job).put i c (.ended (.ok (.fresh job))))
    | _ => none
  | .rollback i =>
    match s.calls i with
    | some (_, .ended _) | none => none
    | some (c, _) => some ({ s with jobs := s.jobs.release i }.put i c (.ended (.error .rolledBack)))

def system : Transition.System Intake CreateMove where
  init s := s = {}
  step s m t := s.next sha256 m = some t

end Intake

/-- The job that a call wants to store. -/
structure NewJob.Of (sha256 : String → String) (c : CreateCall) (job : NewJob) : Prop where
  key : job.key = c.key
  dataSourceId : job.dataSourceId = c.request.dataSourceId
  question : job.question = trim c.request.question
  requestHash : job.requestHash = sha256 c.hashed

namespace AnalysisJobService
variable {sha256 : String → String} {userFound sourceFound : Bool} {existing : Option NewJob}
  {id : UUID} {c : CreateCall} {created : Created}

/-- A call that does not fail finds a job with its hash, or stores one of its own. -/
theorem create_ok (h : create sha256 userFound sourceFound existing id c = .ok created) :
    (∃ job, existing = some job ∧ job.requestHash = sha256 c.hashed ∧ created = .existing job) ∨
      (existing = none ∧ ∃ job, job.Of sha256 c ∧ created = .fresh job) := by
  cases userFound with
  | false => cases h
  | true =>
    cases existing with
    | some job =>
      by_cases hh : job.requestHash ≠ requestHash sha256 c.request.dataSourceId (trim c.request.question)
      · have hthrow : create sha256 true sourceFound (some job) id c = .error .idempotencyConflict :=
          if_pos hh
        rw [hthrow] at h
        cases h
      · have hreplay : create sha256 true sourceFound (some job) id c = .ok (.existing job) :=
          if_neg hh
        rw [hreplay] at h
        cases h
        exact .inl ⟨job, rfl, not_not.mp hh, rfl⟩
    | none =>
      cases sourceFound with
      | false => cases h
      | true =>
        cases h
        exact .inr ⟨rfl, _, ⟨rfl, rfl, rfl, rfl⟩, rfl⟩

end AnalysisJobService

namespace Intake
variable {sha256 : String → String} {s t : Intake} {m : CreateMove}

/-- What a step does to the call it belongs to, the commit apart. -/
inductive Advance (sha256 : String → String) (s : Intake) (i : Nat) (c : CreateCall) :
    Table NewJob → CreatePhase → Prop
  | begun (h : s.calls i = none) : Advance sha256 s i c s.jobs .started
  | failed {e : CreateError} {jobs : Table NewJob} {phase : CreatePhase}
    (h : s.calls i = some (c, phase)) (hopen : ∀ answer, phase ≠ .ended answer)
    (hjobs : jobs = s.jobs ∨ jobs = s.jobs.release i) : Advance sha256 s i c jobs (.ended (.error e))
  | replayed {job : NewJob} (h : s.calls i = some (c, .started)) (hfind : s.find c.key = some job)
    (hhash : job.requestHash = sha256 c.hashed) : Advance sha256 s i c s.jobs (.ended (.ok (.existing job)))
  | saved {job : NewJob} (h : s.calls i = some (c, .started)) (hof : job.Of sha256 c) :
    Advance sha256 s i c s.jobs (.saved job)
  | flushed {job : NewJob} {jobs : Table NewJob} (h : s.calls i = some (c, .saved job))
    (hjobs : s.jobs.insert NewJob.Clash i job = .inserted jobs) : Advance sha256 s i c jobs (.flushed job)

theorem next_cases (h : s.next sha256 m = some t) :
    (∃ c jobs phase, Advance sha256 s m.caller c jobs phase ∧
      t = { s with jobs := jobs }.put m.caller c phase) ∨
    (∃ i c job, m = .commit i ∧ s.calls i = some (c, .flushed job) ∧
      t = (s.committed i job).put i c (.ended (.ok (.fresh job)))) := by
  cases m with
  | call i c =>
    simp only [next] at h
    split at h
    · rename_i hnone
      cases h
      exact .inl ⟨c, _, _, .begun hnone, rfl⟩
    · cases h
  | read i userFound sourceFound id =>
    simp only [next] at h
    split at h
    · rename_i c hcall
      cases h
      refine .inl ⟨c, s.jobs, _, ?_, rfl⟩
      cases hr : AnalysisJobService.create sha256 userFound sourceFound (s.find c.key) id c with
      | error e => exact .failed hcall (fun answer => by simp) (.inl rfl)
      | ok created =>
        obtain ⟨job, hfind, hhash, rfl⟩ | ⟨_, job, hof, rfl⟩ := AnalysisJobService.create_ok hr
        · exact .replayed hcall hfind hhash
        · exact .saved hcall hof
    · cases h
  | flush i =>
    simp only [next] at h
    split at h
    · rename_i c job hcall
      split at h
      · rename_i jobs hjobs
        cases h
        exact .inl ⟨c, jobs, _, .flushed hcall hjobs, rfl⟩
      · cases h
        exact .inl ⟨c, s.jobs, _, .failed hcall (fun answer => by simp) (.inl rfl), rfl⟩
      · cases h
    · cases h
  | commit i =>
    simp only [next] at h
    split at h
    · rename_i c job hcall
      cases h
      exact .inr ⟨i, c, job, rfl, hcall, rfl⟩
    · cases h
  | rollback i =>
    simp only [next] at h
    split at h
    · cases h
    · cases h
    · rename_i c phase hne hcall
      cases h
      exact .inl ⟨c, _, _, .failed hcall (fun answer ha => hne answer ha) (.inr rfl), rfl⟩

end Intake

end DataCopilot.Platform
