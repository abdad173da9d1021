import Mathlib.Logic.Function.Basic
import DataCopilot.Library.Transition
import DataCopilot.Library.Versioned
import DataCopilot.Platform.Services

/-! Transactions on one job that run side by side. Each reads the row when it begins and
writes it when it commits, under the version of the row. -/
namespace DataCopilot.Platform
open Versioned AnalysisJobStateMachine

/-- How far a decision has come: its resume is not sent, is under way, or is answered. -/
inductive Resume where
  | unsent | sent | answered (result : AgentRunResult)
deriving DecidableEq, Repr

inductive Transaction where
  | prepare (sourceRegistered userFound : Bool)
  | persistResult (result : Option AgentRunResult)
  | fail (errorCode : String)
  | request (approvalId : String) (reasonCodes : List String)
  | decide (decision : ApprovalStatus) (reviewerId : String) (comment : Option String)
      (resume : Resume)
deriving DecidableEq, Repr

namespace Transaction

/-- The rows that a transaction is about to write. -/
def body (now : Nat) (approval : Option Approval) (job : AnalysisJob) :
    Transaction → Except PlatformError (AnalysisJob × Option Approval)
  | .prepare sourceRegistered userFound => do
    let next ← AnalysisJobWorker.prepare now sourceRegistered userFound job
    pure (next.getD job, approval)
  | .persistResult result => do
    let next ← AnalysisJobWorker.persistResult now result job
    pure (next.getD job, approval)
  | .fail errorCode => do
    let next ← AnalysisJobWorker.fail now errorCode job
    pure (next.getD job, approval)
  | .request approvalId reasonCodes => do
    let written ← ApprovalService.request now approvalId reasonCodes approval job
    pure (written.1, some written.2)
  | .decide decision reviewerId comment (.answered result) =>
    match approval with
    | none => .error .noValuePresent
    | some approval => do
      let written ← ApprovalService.decide now decision reviewerId comment result approval job
      pure (written.1, some written.2)
  | .decide _ _ _ _ => .ok (job, approval)

/-- A decision that still waits for the agent cannot commit. -/
def waits : Transaction → Bool
  | .decide _ _ _ (.answered _) => false
  | .decide _ _ _ _ => true
  | _ => false

/-- A decision with the agent's answer. -/
def settles : Transaction → Bool
  | .decide _ _ _ (.answered _) => true
  | _ => false

def decides : Transaction → Bool
  | .decide _ _ _ _ => true
  | _ => false

/-- A decision that is none. -/
def pends : Transaction → Bool
  | .decide decision _ _ _ => decision = .pending
  | _ => false

variable {now : Nat} {approval approval' : Option Approval} {job next : AnalysisJob}
  {body : Transaction}

/-- Everything a transaction may write. -/
inductive Writes (now : Nat) (approval approval' : Option Approval) (job next : AnalysisJob) :
    Transaction → Prop
  | same {body : Transaction} (hjob : next = job) (happ : approval' = approval)
    (hbody : body.settles = false) : Writes now approval approval' job next body
  | prepared {sourceRegistered userFound : Bool} (happ : approval' = approval)
    (hjob : job.status = .created) (hnext : next.status = .planning) :
    Writes now approval approval' job next (.prepare sourceRegistered userFound)
  | persisted {reply : AgentRunResult} {target : AnalysisJobStatus} {advanced : AnalysisJob}
    (happ : approval' = approval) (hjob : isTerminal job.status = false)
    (htarget : AnalysisJobStatus.valueOf reply.status = .ok target)
    (hadvance : AnalysisJobWorker.advance now job target = .ok advanced)
    (hnext : next.status = advanced.status) :
    Writes now approval approval' job next (.persistResult (some reply))
  | failed {errorCode : String} (happ : approval' = approval)
    (hjob : isTerminal job.status = false) (hchain : Chain job.status next.status)
    (hnext : next.status = .failed) : Writes now approval approval' job next (.fail errorCode)
  | requested {approvalId : String} {reasonCodes : List String} {inserted : Approval}
    (hnone : approval = none) (happ : approval' = some inserted) (hp : inserted.status = .pending)
    (hchain : Chain job.status next.status) (hnext : next.status = .waitingApproval)
    (hthread : next.workflowThreadId = some job.id) :
    Writes now approval approval' job next (.request approvalId reasonCodes)
  | decided {decision : ApprovalStatus} {reviewerId : String} {comment : Option String}
    {result : AgentRunResult} {found written : Approval} {settled : AnalysisJob}
    (hfound : approval = some found) (hp : found.status = .pending)
    (happ : approval' = some written) (hd : decision ≠ .pending)
    (hwritten : written.status = decision)
    (hsettle : ApprovalService.settle now decision result job = .ok settled)
    (hnext : next.status = settled.status) :
    Writes now approval approval' job next (.decide decision reviewerId comment (.answered result))

theorem body_writes (h : body.body now approval job = .ok (next, approval')) :
    Writes now approval approval' job next body := by
  cases body with
  | prepare sourceRegistered userFound =>
    obtain ⟨written, hw, h⟩ := Result.bind_eq_ok.mp h
    cases h
    cases written with
    | none => exact .same rfl rfl rfl
    | some planned =>
      obtain ⟨_, _, _, rfl | ⟨hc, hn⟩⟩ := AnalysisJobWorker.prepare_some hw
      · exact .same rfl rfl rfl
      · exact .prepared rfl hc hn
  | persistResult result =>
    obtain ⟨written, hw, h⟩ := Result.bind_eq_ok.mp h
    cases h
    cases written with
    | none => exact .same rfl rfl rfl
    | some stored =>
      obtain ⟨reply, target, advanced, rfl, hf, ht, ha, rfl⟩ :=
        AnalysisJobWorker.persistResult_some hw
      exact .persisted rfl hf ht ha rfl
  | fail errorCode =>
    obtain ⟨written, hw, h⟩ := Result.bind_eq_ok.mp h
    cases h
    cases written with
    | none => exact .same rfl rfl rfl
    | some failed =>
      obtain ⟨hf, hchain, hn⟩ := AnalysisJobWorker.fail_some hw
      exact .failed rfl hf hchain hn
  | request approvalId reasonCodes =>
    obtain ⟨⟨waiting, inserted⟩, hr, h⟩ := Result.bind_eq_ok.mp h
    cases h
    obtain ⟨hfound, rfl⟩ | ⟨hnone, hp, hchain, hs, hthread⟩ := ApprovalService.request_ok hr
    · exact .same rfl hfound.symm rfl
    · exact .requested hnone rfl hp hchain hs hthread
  | decide decision reviewerId comment resume =>
    cases resume with
    | unsent =>
      cases h
      exact .same rfl rfl rfl
    | sent =>
      cases h
      exact .same rfl rfl rfl
    | answered result =>
      cases approval with
      | none => cases h
      | some found =>
        obtain ⟨⟨written, decided⟩, hd, h⟩ := Result.bind_eq_ok.mp h
        cases h
        obtain ⟨hp, hne, hs, settled, hset, hn⟩ := ApprovalService.decide_ok hd
        exact .decided rfl hp rfl hne hs hset hn

/-- Every transaction moves the status along edges of the state machine. -/
theorem Writes.chain (h : Writes now approval approval' job next body) :
    Chain job.status next.status := by
  cases h with
  | same hjob =>
    rw [hjob]
    exact .refl
  | prepared _ hjob hnext =>
    rw [hjob, hnext]
    exact .single (by simp [Edge, allowedTransitions])
  | @persisted _ target _ _ _ _ hadvance hnext =>
    rw [hnext]
    by_cases hp : target = .planning
    · subst hp
      exact (AnalysisJobWorker.advance_planning hadvance).1
    · exact (AnalysisJobWorker.advance_ok hp hadvance).1
  | failed _ _ hchain => exact hchain
  | requested _ _ _ hchain => exact hchain
  | decided _ _ _ _ _ hsettle hnext =>
    rw [hnext]
    exact ApprovalService.settle_chain hsettle

/-- A terminal row is written again by one transaction only: a rejection of a job that is
rejected already, whose transition is the idempotent one. -/
theorem Writes.terminal (h : Writes now approval approval' job next body)
    (ht : isTerminal job.status = true) :
    next = job ∨ job.status = .rejected ∧
      ∃ reviewerId comment result, body = .decide .rejected reviewerId comment (.answered result) := by
  have hsame : next.status = job.status := h.chain.of_terminal ht
  cases h with
  | same hjob => exact .inl hjob
  | prepared _ hjob _ =>
    rw [hjob] at ht
    cases ht
  | persisted _ hjob =>
    rw [ht] at hjob
    cases hjob
  | failed _ hjob =>
    rw [ht] at hjob
    cases hjob
  | requested _ _ _ _ hnext =>
    rw [← hsame, hnext] at ht
    cases ht
  | @decided decision reviewerId comment result _ _ _ _ _ _ _ _ hsettle _ =>
    by_cases hrej : decision = .rejected
    · subst hrej
      obtain ⟨_, he | he⟩ := ApprovalService.settle_rejected hsettle
      · exact .inr ⟨he, reviewerId, comment, result, rfl⟩
      · exact (terminal_final ht he).elim
    · obtain ⟨he | he, _⟩ := ApprovalService.settle_approved hrej hsettle
      · rw [he] at ht
        cases ht
      · exact (terminal_final ht he).elim

/-- A decided approval stays as it is. -/
theorem Writes.decided_final {approved : Approval} (h : Writes now approval approval' job next body)
    (ha : approval = some approved) (hp : approved.status ≠ .pending) : approval' = approval := by
  cases h with
  | same _ happ => exact happ
  | prepared happ => exact happ
  | persisted happ => exact happ
  | failed happ => exact happ
  | requested hnone =>
    rw [ha] at hnone
    cases hnone
  | decided hfound hpending =>
    rw [ha] at hfound
    cases hfound
    exact absurd hpending hp

/-- Only decisions touch a pending approval. -/
theorem Writes.pending_kept {asked : Approval} (h : Writes now approval approval' job next body)
    (ha : approval = some asked) (hd : body.decides = false) : approval' = approval := by
  cases h with
  | same _ happ => exact happ
  | prepared happ => exact happ
  | persisted happ => exact happ
  | failed happ => exact happ
  | requested hnone =>
    rw [ha] at hnone
    cases hnone
  | decided => cases hd

end Transaction

structure OpenTransaction where
  read : Cell AnalysisJob
  body : Transaction

/-- The committed rows and the open transactions. `lock` is the transaction that holds the
approval row for update. -/
structure Store where
  job : Cell AnalysisJob
  approval : Option Approval := none
  opened : Nat → Option OpenTransaction := fun _ => none
  lock : Option Nat := none

/-- `rollback` is any failure outside the modelled code: of the agent, of its connection,
of the database. -/
inductive Move where
  | start (id : Nat) (transaction : Transaction)
  | send (id : Nat)
  | answer (id : Nat) (result : AgentRunResult)
  | commit (id now : Nat)
  | rollback (id : Nat)
deriving DecidableEq, Repr

namespace Store

def put (s : Store) (id : Nat) (body : OpenTransaction) : Store :=
  { s with opened := Function.update s.opened id (some body) }

def close (s : Store) (id : Nat) : Store :=
  { s with
    opened := Function.update s.opened id none
    lock := if s.lock = some id then none else s.lock }

/-- The controllers ask for an approval or a rejection. `findForDecision` waits for the row
lock, and then wants a pending approval. -/
def canDecide (s : Store) (decision : ApprovalStatus) : Bool :=
  decision ≠ .pending && s.lock = none && s.approval.any (·.status = .pending)

/-- The approval that a request finds is the one at its commit: what was inserted after its
lookup is found by the unique constraint instead, and nothing is written either way. -/
def commit (s : Store) (id now : Nat) (o : OpenTransaction) : Store :=
  match o.body.body now s.approval o.read.value with
  | .error _ => s.close id
  | .ok (job, approval) =>
    match s.job.commit o.read job with
    | none => s.close id
    | some cell => { s.close id with job := cell, approval := approval }

def next (s : Store) : Move → Option Store
  | .start id transaction =>
    match s.opened id, transaction with
    | none, .decide decision reviewerId comment .unsent =>
      if s.canDecide decision then
        some { s.put id ⟨s.job, .decide decision reviewerId comment .unsent⟩ with lock := some id }
      else none
    | none, .decide _ _ _ _ => none
    | none, transaction => some (s.put id ⟨s.job, transaction⟩)
    | some _, _ => none
  | .send id =>
    match s.opened id with
    | some ⟨read, .decide decision reviewerId comment .unsent⟩ =>
      some (s.put id ⟨read, .decide decision reviewerId comment .sent⟩)
    | _ => none
  | .answer id result =>
    match s.opened id with
    | some ⟨read, .decide decision reviewerId comment .sent⟩ =>
      some (s.put id ⟨read, .decide decision reviewerId comment (.answered result)⟩)
    | _ => none
  | .commit id now =>
    match s.opened id with
    | some o => if o.body.waits then none else some (s.commit id now o)
    | none => none
  | .rollback id =>
    match s.opened id with
    | some _ => some (s.close id)
    | none => none

/-- A job as its constructor makes it. -/
def system : Transition.System Store Move where
  init s := ∃ id createdBy, s = { job := .fresh { id := id, createdBy := createdBy } }
  step s m t := s.next m = some t

variable {s t : Store} {m : Move} {id i now : Nat} {o : OpenTransaction}

@[simp] theorem put_job : (s.put id o).job = s.job := rfl
@[simp] theorem put_approval : (s.put id o).approval = s.approval := rfl
@[simp] theorem put_lock : (s.put id o).lock = s.lock := rfl
@[simp] theorem close_job : (s.close id).job = s.job := rfl
@[simp] theorem close_approval : (s.close id).approval = s.approval := rfl

theorem put_opened : (s.put id o).opened i = if i = id then some o else s.opened i := by
  simp [put, Function.update_apply]

theorem close_opened : (s.close id).opened i = if i = id then none else s.opened i := by
  simp [close, Function.update_apply]

theorem close_lock : (s.close id).lock = if s.lock = some id then none else s.lock := rfl

/-- A transaction is opened, on the row as it is. -/
structure Starts (s : Store) (id : Nat) (body : Transaction) (t : Store) : Prop where
  free : s.opened id = none
  job : t.job = s.job
  approval : t.approval = s.approval
  opened : t.opened = (s.put id ⟨s.job, body⟩).opened
  other : body.decides = false → t.lock = s.lock
  decide : body.decides = true → s.lock = none ∧ t.lock = some id ∧
    (∃ approval, s.approval = some approval ∧ approval.status = .pending) ∧
    ∃ decision reviewerId comment, decision ≠ .pending ∧
      body = .decide decision reviewerId comment .unsent

/-- A transaction commits what it wrote. -/
structure Commits (s : Store) (id now : Nat) (o : OpenTransaction) (t : Store) : Prop where
  opened : s.opened id = some o
  ready : o.body.waits = false
  written : ∃ job, o.body.body now s.approval o.read.value = .ok (job, t.approval) ∧
    s.job.commit o.read job = some t.job
  closed : t.opened = (s.close id).opened
  lock : t.lock = (s.close id).lock

/-- A transaction throws, or the row has changed since it was read. -/
structure Refused (s : Store) (id now : Nat) (o : OpenTransaction) : Prop where
  opened : s.opened id = some o
  ready : o.body.waits = false
  stale : ∀ job approval, o.body.body now s.approval o.read.value = .ok (job, approval) →
    s.job.commit o.read job = none

/-- Everything one move can do. -/
theorem next_cases (h : s.next m = some t) :
    (∃ id body, m = .start id body ∧ Starts s id body t) ∨
    (∃ id read decision reviewerId comment, m = .send id ∧
      s.opened id = some ⟨read, .decide decision reviewerId comment .unsent⟩ ∧
      t = s.put id ⟨read, .decide decision reviewerId comment .sent⟩) ∨
    (∃ id read decision reviewerId comment result, m = .answer id result ∧
      s.opened id = some ⟨read, .decide decision reviewerId comment .sent⟩ ∧
      t = s.put id ⟨read, .decide decision reviewerId comment (.answered result)⟩) ∨
    (∃ id now o, m = .commit id now ∧ Commits s id now o t) ∨
    (∃ id now o, m = .commit id now ∧ Refused s id now o ∧ t = s.close id) ∨
    (∃ id o, m = .rollback id ∧ s.opened id = some o ∧ t = s.close id) := by
  cases m with
  | start id body =>
    cases hid : s.opened id with
    | some o =>
      simp only [next, hid] at h
      cases h
    | none =>
      simp only [next, hid] at h
      refine .inl ⟨id, body, rfl, ?_⟩
      cases body with
      | decide decision reviewerId comment resume =>
        cases resume with
        | unsent =>
          by_cases hd : s.canDecide decision = true
          · simp only [hd, if_true, Option.some.injEq] at h
            subst h
            simp only [canDecide, Bool.and_eq_true, decide_eq_true_eq, Option.any_eq_true] at hd
            obtain ⟨⟨hne, hlock⟩, hpending⟩ := hd
            exact ⟨hid, rfl, rfl, rfl, by simp [Transaction.decides],
              fun _ => ⟨hlock, rfl, hpending, _, _, _, hne, rfl⟩⟩
          · simp only [hd] at h
            cases h
        | sent => cases h
        | answered result => cases h
      | _ =>
        cases h
        exact ⟨hid, rfl, rfl, rfl, fun _ => rfl, fun hd => by cases hd⟩
  | send id =>
    simp only [next] at h
    split at h
    · rename_i read decision reviewerId comment ho
      cases h
      exact .inr (.inl ⟨id, read, decision, reviewerId, comment, rfl, ho, rfl⟩)
    · cases h
  | answer id result =>
    simp only [next] at h
    split at h
    · rename_i read decision reviewerId comment ho
      cases h
      exact .inr (.inr (.inl ⟨id, read, decision, reviewerId, comment, result, rfl, ho, rfl⟩))
    · cases h
  | commit id now =>
    simp only [next] at h
    split at h
    · rename_i o ho
      split at h
      · cases h
      · rename_i hw
        simp only [Bool.not_eq_true] at hw
        simp only [Option.some.injEq, commit] at h
        cases hb : o.body.body now s.approval o.read.value with
        | error e =>
          rw [hb] at h
          have href : Refused s id now o := ⟨ho, hw, fun job approval hok => by simp [hb] at hok⟩
          exact .inr (.inr (.inr (.inr (.inl ⟨id, now, o, rfl, href, h.symm⟩))))
        | ok written =>
          obtain ⟨job, approval⟩ := written
          simp only [hb] at h
          cases hc : s.job.commit o.read job with
          | none =>
            rw [hc] at h
            have href : Refused s id now o := by
              refine ⟨ho, hw, fun job' approval' hok => ?_⟩
              rw [hb] at hok
              cases hok
              exact hc
            exact .inr (.inr (.inr (.inr (.inl ⟨id, now, o, rfl, href, h.symm⟩))))
          | some cell =>
            rw [hc] at h
            cases h
            exact .inr (.inr (.inr (.inl ⟨id, now, o, rfl, ho, hw, ⟨job, hb, hc⟩, rfl, rfl⟩)))
    · cases h
  | rollback id =>
    simp only [next] at h
    split at h
    · rename_i o ho
      cases h
      exact .inr (.inr (.inr (.inr (.inr ⟨id, o, rfl, ho, rfl⟩))))
    · cases h

/-- Only commits write. -/
theorem next_rows (h : s.next m = some t) :
    (t.job = s.job ∧ t.approval = s.approval) ∨ ∃ id now o, m = .commit id now ∧ Commits s id now o t := by
  obtain ⟨id, body, rfl, hst⟩ | ⟨_, _, _, _, _, _, _, rfl⟩ | ⟨_, _, _, _, _, _, _, _, rfl⟩ |
    ⟨id, now, o, rfl, hc⟩ | ⟨_, _, _, _, _, rfl⟩ | ⟨_, _, _, _, rfl⟩ := next_cases h
  · exact .inl ⟨hst.job, hst.approval⟩
  · exact .inl ⟨rfl, rfl⟩
  · exact .inl ⟨rfl, rfl⟩
  · exact .inr ⟨id, now, o, rfl, hc⟩
  · exact .inl ⟨rfl, rfl⟩
  · exact .inl ⟨rfl, rfl⟩

/-- Where a transaction that is open after a move comes from. -/
theorem opened_cases (h : s.next m = some t) (ho : t.opened i = some o) :
    s.opened i = some o ∨
    (∃ body, m = .start i body ∧ Starts s i body t ∧ o = ⟨s.job, body⟩) ∨
    (∃ read decision reviewerId comment, m = .send i ∧
      s.opened i = some ⟨read, .decide decision reviewerId comment .unsent⟩ ∧
      o = ⟨read, .decide decision reviewerId comment .sent⟩) ∨
    (∃ read decision reviewerId comment result, m = .answer i result ∧
      s.opened i = some ⟨read, .decide decision reviewerId comment .sent⟩ ∧
      o = ⟨read, .decide decision reviewerId comment (.answered result)⟩) := by
  have hclose (id : Nat) (ht : t.opened = (s.close id).opened) : s.opened i = some o := by
    rw [ht, close_opened] at ho
    split at ho
    · cases ho
    · exact ho
  obtain ⟨id, body, rfl, hst⟩ | ⟨id, read, d, r, c, rfl, hid, rfl⟩ |
    ⟨id, read, d, r, c, result, rfl, hid, rfl⟩ | ⟨id, now, _, rfl, hc⟩ |
    ⟨id, now, _, rfl, href, rfl⟩ | ⟨id, _, rfl, hid, rfl⟩ := next_cases h
  · rw [hst.opened, put_opened] at ho
    split at ho
    · rename_i he
      subst he
      cases ho
      exact .inr (.inl ⟨body, rfl, hst, rfl⟩)
    · exact .inl ho
  · rw [put_opened] at ho
    split at ho
    · rename_i he
      subst he
      cases ho
      exact .inr (.inr (.inl ⟨read, d, r, c, rfl, hid, rfl⟩))
    · exact .inl ho
  · rw [put_opened] at ho
    split at ho
    · rename_i he
      subst he
      cases ho
      exact .inr (.inr (.inr ⟨read, d, r, c, result, rfl, hid, rfl⟩))
    · exact .inl ho
  · exact .inl (hclose id hc.closed)
  · exact .inl (hclose id rfl)
  · exact .inl (hclose id rfl)

/-- What holds of every store that its moves can lead to. -/
structure WellFormed (s : Store) : Prop where
  reads : ∀ id o, s.opened id = some o → s.job.Snapshot o.read
  locked : ∀ id o, s.opened id = some o → o.body.decides = true → s.lock = some id
  held : ∀ id, s.lock = some id → ∃ o, s.opened id = some o ∧ o.body.decides = true
  pending : s.lock ≠ none → ∃ approval, s.approval = some approval ∧ approval.status = .pending
  decisions : ∀ id o, s.opened id = some o → o.body.pends = false

namespace WellFormed

/-- Who holds the lock after a move. -/
theorem lock_cases (h : WellFormed s) (hs : s.next m = some t) :
    (∃ id body, m = .start id body ∧ Starts s id body t ∧ body.decides = true) ∨
    (t.lock = s.lock ∧ ∀ id, s.lock = some id → ∃ o, t.opened id = some o ∧ o.body.decides = true) ∨
    (t.lock = none ∧ ∃ id, s.lock = some id ∧ t.opened id = none) := by
  have hput (id : Nat) (o o' : OpenTransaction) (ho : s.opened id = some o)
      (hd : o.body.decides = true) (hd' : o'.body.decides = true) (i : Nat) (hi : s.lock = some i) :
      ∃ x, (s.put id o').opened i = some x ∧ x.body.decides = true := by
    rw [h.locked id o ho hd, Option.some.injEq] at hi
    subst hi
    exact ⟨o', by rw [put_opened, if_pos rfl], hd'⟩
  have hclose (id : Nat) (hopen : t.opened = (s.close id).opened) (hl : t.lock = (s.close id).lock) :
      (t.lock = s.lock ∧ ∀ i, s.lock = some i → ∃ o, t.opened i = some o ∧ o.body.decides = true) ∨
        (t.lock = none ∧ ∃ i, s.lock = some i ∧ t.opened i = none) := by
    rw [close_lock] at hl
    by_cases he : s.lock = some id
    · rw [if_pos he] at hl
      exact .inr ⟨hl, id, he, by rw [hopen, close_opened, if_pos rfl]⟩
    · rw [if_neg he] at hl
      refine .inl ⟨hl, fun i hi => ?_⟩
      obtain ⟨o, ho, hd⟩ := h.held i hi
      refine ⟨o, ?_, hd⟩
      rw [hopen, close_opened, if_neg, ho]
      intro hii
      exact he (hii ▸ hi)
  obtain ⟨id, body, rfl, hst⟩ | ⟨id, read, d, r, c, rfl, ho, rfl⟩ |
    ⟨id, read, d, r, c, result, rfl, ho, rfl⟩ | ⟨id, now, o, rfl, hc⟩ |
    ⟨id, now, o, rfl, href, rfl⟩ | ⟨id, o, rfl, ho, rfl⟩ := next_cases hs
  · by_cases hd : body.decides = true
    · exact .inl ⟨id, body, rfl, hst, hd⟩
    · refine .inr (.inl ⟨hst.other (by simpa using hd), fun i hi => ?_⟩)
      obtain ⟨o, ho, hdec⟩ := h.held i hi
      refine ⟨o, ?_, hdec⟩
      rw [hst.opened, put_opened, if_neg, ho]
      rintro rfl
      rw [hst.free] at ho
      cases ho
  · exact .inr (.inl ⟨rfl, hput id _ _ ho rfl rfl⟩)
  · exact .inr (.inl ⟨rfl, hput id _ _ ho rfl rfl⟩)
  · exact .inr (hclose id hc.closed hc.lock)
  · exact .inr (hclose id rfl rfl)
  · exact .inr (hclose id rfl rfl)

/-- While the lock is held, only its holder touches the pending approval. -/
theorem approval_kept (h : WellFormed s) (hs : s.next m = some t) (hl : t.lock ≠ none) :
    t.approval = s.approval := by
  obtain ⟨_, happ⟩ | ⟨id, now, o, rfl, hc⟩ := next_rows hs
  · exact happ
  · obtain ⟨job, hb, _⟩ := hc.written
    rw [hc.lock, close_lock] at hl
    split at hl
    · exact absurd rfl hl
    · rename_i hne
      obtain ⟨approval, ha, _⟩ := h.pending hl
      refine (Transaction.body_writes hb).pending_kept ha ?_
      by_contra hd
      exact hne (h.locked id o hc.opened (by simpa using hd))

/-- The step lemma. -/
theorem next (h : WellFormed s) (hs : s.next m = some t) : WellFormed t := by
  refine ⟨fun id o ho => ?_, fun id o ho hd => ?_, fun id hid => ?_, fun hl => ?_, fun id o ho => ?_⟩
  · have hjob (read : Cell AnalysisJob) (hr : s.job.Snapshot read) : t.job.Snapshot read := by
      obtain ⟨hjob, _⟩ | ⟨_, _, _, _, hc⟩ := next_rows hs
      · rw [hjob]
        exact hr
      · obtain ⟨job, _, hcommit⟩ := hc.written
        exact hr.commit hcommit
    obtain hold | ⟨_, _, _, rfl⟩ | ⟨_, _, _, _, _, hold, rfl⟩ | ⟨_, _, _, _, _, _, hold, rfl⟩ :=
      opened_cases hs ho
    · exact hjob _ (h.reads id o hold)
    · exact hjob _ (.refl _)
    · have hread := h.reads id _ hold
      exact hjob _ hread
    · have hread := h.reads id _ hold
      exact hjob _ hread
  · have hold (o : OpenTransaction) (ho' : s.opened id = some o) (hd' : o.body.decides = true) :
        t.lock = some id := by
      have hi := h.locked id o ho' hd'
      obtain ⟨_, _, rfl, hst, hb⟩ | ⟨hl, _⟩ | ⟨_, i, hi', hnone⟩ := h.lock_cases hs
      · rw [(hst.decide hb).1] at hi
        cases hi
      · rw [hl, hi]
      · rw [hi] at hi'
        cases hi'
        rw [ho] at hnone
        cases hnone
    obtain ho | ⟨body, rfl, hst, rfl⟩ | ⟨_, _, _, _, _, ho, _⟩ | ⟨_, _, _, _, _, _, ho, _⟩ :=
      opened_cases hs ho
    · exact hold o ho hd
    · exact (hst.decide hd).2.1
    · exact hold _ ho rfl
    · exact hold _ ho rfl
  · obtain ⟨i, body, rfl, hst, hb⟩ | ⟨hl, hheld⟩ | ⟨hl, _⟩ := h.lock_cases hs
    · rw [(hst.decide hb).2.1, Option.some.injEq] at hid
      subst hid
      exact ⟨_, by rw [hst.opened, put_opened, if_pos rfl], hb⟩
    · exact hheld id (hl ▸ hid)
    · rw [hl] at hid
      cases hid
  · rw [h.approval_kept hs hl]
    obtain ⟨i, body, rfl, hst, hb⟩ | ⟨hl', _⟩ | ⟨hl', _⟩ := h.lock_cases hs
    · exact (hst.decide hb).2.2.1
    · exact h.pending (hl' ▸ hl)
    · exact absurd hl' hl
  · obtain hold | ⟨body, rfl, hst, rfl⟩ | ⟨_, _, _, _, _, hold, rfl⟩ |
      ⟨_, _, _, _, _, _, hold, rfl⟩ := opened_cases hs ho
    · exact h.decisions id o hold
    · by_cases hb : body.decides = true
      · obtain ⟨_, _, _, decision, reviewerId, comment, hne, rfl⟩ := hst.decide hb
        simpa [Transaction.pends] using hne
      · cases body with
        | decide => exact absurd rfl hb
        | _ => rfl
    · have hne := h.decisions id _ hold
      exact hne
    · have hne := h.decisions id _ hold
      exact hne

end WellFormed

theorem WellFormed.terminal_status (h : WellFormed s) (hs : s.next m = some t)
    (ht : isTerminal s.job.value.status = true) : t.job.value.status = s.job.value.status := by
  obtain ⟨hjob, _⟩ | ⟨id, now, o, rfl, hc⟩ := next_rows hs
  · rw [hjob]
  · obtain ⟨job, hb, hcommit⟩ := hc.written
    obtain ⟨_, he⟩ | ⟨_, hread, he⟩ := Cell.commit_cases (h.reads id o hc.opened) hcommit
    · rw [he]
    · rw [he, Cell.write_value]
      have hchain := (Transaction.body_writes hb).chain
      rw [hread] at hchain
      exact hchain.of_terminal ht

theorem wellFormed (h : system.Reachable s) : WellFormed s := by
  refine h.invariant (fun s hi => ?_) fun s m t _ hw hs => hw.next hs
  obtain ⟨id, createdBy, rfl⟩ := hi
  exact ⟨by simp, by simp, by simp, by simp, by simp⟩

/-- A transaction that has read a terminal job has read its last status. -/
theorem read_terminal (h : system.Reachable s) : ∀ id o, s.opened id = some o →
    isTerminal o.read.value.status = true → s.job.value.status = o.read.value.status := by
  refine h.invariant (P := fun s : Store => ∀ id o, s.opened id = some o →
    isTerminal o.read.value.status = true → s.job.value.status = o.read.value.status)
    (fun s hi => ?_) fun s m t hr ih hs => ?_
  · obtain ⟨id, createdBy, rfl⟩ := hi
    simp
  · intro id o ho ht
    have hkeep (hread : s.job.value.status = o.read.value.status) :
        t.job.value.status = o.read.value.status := by
      rw [(wellFormed hr).terminal_status hs (by rw [hread, ht]), hread]
    obtain hold | ⟨_, _, _, rfl⟩ | ⟨_, _, _, _, _, hold, rfl⟩ | ⟨_, _, _, _, _, _, hold, rfl⟩ :=
      opened_cases hs ho
    · exact hkeep (ih id o hold ht)
    · exact hkeep rfl
    · have hread := ih id _ hold ht
      exact hkeep hread
    · have hread := ih id _ hold ht
      exact hkeep hread

end Store
end DataCopilot.Platform
