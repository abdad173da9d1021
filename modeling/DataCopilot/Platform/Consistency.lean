import DataCopilot.Platform.Transactions

/-! A pending approval and a waiting job: which transactions keep the two together. -/
namespace DataCopilot.Platform
open Versioned AnalysisJobStateMachine Store

/-- The states that a waiting job may still reach. -/
def afterWaiting : List AnalysisJobStatus :=
  [.waitingApproval, .running, .completed, .rejected, .failed, .cancelled]

theorem chain_afterWaiting {target : AnalysisJobStatus} (h : Chain .waitingApproval target) :
    target ∈ afterWaiting := by
  have hedges : ∀ current ∈ afterWaiting, ∀ next ∈ allowedTransitions current,
      next ∈ afterWaiting := by decide
  induction h with
  | refl => decide
  | tail _ he ih => exact hedges _ ih _ he

/-- A pending approval is that of a waiting job. -/
def Aligned (s : Store) : Prop :=
  ∀ approval, s.approval = some approval → approval.status = .pending →
    s.job.value.status = .waitingApproval

/-- A result or a failure of the worker that takes a waiting job out of its state. -/
def Transaction.leaves : Transaction → Bool
  | .fail _ => true
  | .persistResult (some reply) =>
    match AnalysisJobStatus.valueOf reply.status with
    | .ok target => target ∈ afterWaiting.erase .waitingApproval
    | .error _ => false
  | _ => false

def Transaction.requests : Transaction → Bool
  | .request _ _ => true
  | _ => false

/-- The worker's transaction commits on the current row while the approval is pending; or a
request inserts its approval without a write of the job, so that no version is checked, and
the job does not wait any more. -/
def Disturbs (s : Store) : Move → Prop
  | .commit id _ => ∃ o, s.opened id = some o ∧
      (o.body.leaves = true ∧ o.read.version = s.job.version ∧
          (∃ approval, s.approval = some approval ∧ approval.status = .pending) ∨
        o.body.requests = true ∧ s.approval = none ∧ o.read.value.status = .waitingApproval ∧
          o.read.value.workflowThreadId = some o.read.value.id ∧
          s.job.value.status ≠ .waitingApproval)
  | _ => False

variable {s t : Store} {m : Move} {id now : Nat} {o : OpenTransaction}

/-- The worker moves a waiting job only by a transaction that leaves. -/
theorem persisted_leaves {reply : AgentRunResult} {target : AnalysisJobStatus}
    {job advanced : AnalysisJob} (hj : job.status = .waitingApproval)
    (htarget : AnalysisJobStatus.valueOf reply.status = .ok target)
    (hadvance : AnalysisJobWorker.advance now job target = .ok advanced) :
    advanced.status = .waitingApproval ∨ (Transaction.persistResult (some reply)).leaves = true := by
  by_cases hp : target = .planning
  · subst hp
    obtain ⟨_, ⟨hc, _⟩ | ⟨_, rfl⟩⟩ := AnalysisJobWorker.advance_planning hadvance
    · rw [hj] at hc
      cases hc
    · exact .inl hj
  · obtain ⟨hchain, hn⟩ := AnalysisJobWorker.advance_ok hp hadvance
    rw [hj, hn] at hchain
    by_cases hw : target = .waitingApproval
    · exact .inl (hn.trans hw)
    · refine .inr ?_
      simp only [Transaction.leaves, htarget]
      have hm := chain_afterWaiting hchain
      simp only [decide_eq_true_eq]
      exact (List.mem_erase_of_ne hw).mpr hm

/-- The step lemma. -/
theorem Aligned.kept (h : Aligned s) (hwf : s.WellFormed) (hs : s.next m = some t)
    (hd : ¬ Disturbs s m) : Aligned t := by
  obtain ⟨hjob, happ⟩ | ⟨id, now, o, rfl, hc⟩ := next_rows hs
  · unfold Aligned
    rw [hjob, happ]
    exact h
  · obtain ⟨hopen, hready, ⟨job, hb, hcommit⟩, _, _⟩ := hc
    have hread := hwf.reads id o hopen
    have hw := Transaction.body_writes hb
    intro approval ha hp
    -- the row is as it was, or holds what was computed from the current row
    obtain ⟨hsame, he⟩ | ⟨hne, hcurrent, he⟩ := Cell.commit_cases hread hcommit
    · rw [he]
      obtain ⟨read, body⟩ := o
      cases hw with
      | same _ happ => exact h approval (happ ▸ ha) hp
      | prepared happ => exact h approval (happ ▸ ha) hp
      | persisted happ => exact h approval (happ ▸ ha) hp
      | failed happ => exact h approval (happ ▸ ha) hp
      | requested hnone happ hpending hchain hnext hthread =>
        by_contra hjob
        rw [hsame] at hnext hthread
        exact hd ⟨_, hopen, .inr ⟨rfl, hnone, hnext, hthread, hjob⟩⟩
      | decided _ _ happ hne hwritten =>
        rw [happ] at ha
        cases ha
        exact absurd (hwritten.symm.trans hp) hne
    · have hversion : o.read.version = s.job.version := by
        unfold Cell.commit at hcommit
        rw [if_neg hne] at hcommit
        by_contra hv
        rw [if_neg hv] at hcommit
        cases hcommit
      rw [he, Cell.write_value]
      obtain ⟨read, body⟩ := o
      have hwaits (happ : t.approval = s.approval) : read.value.status = .waitingApproval := by
        rw [show read.value = s.job.value from hcurrent]
        exact h approval (happ ▸ ha) hp
      cases hw with
      | same hjob _ => exact absurd hjob hne
      | prepared happ hcreated =>
        rw [hwaits happ] at hcreated
        cases hcreated
      | persisted happ _ htarget hadvance hnext =>
        rw [hnext]
        obtain hstays | hleaves := persisted_leaves (hwaits happ) htarget hadvance
        · exact hstays
        · exact absurd ⟨_, hopen, .inl ⟨hleaves, hversion, approval, happ ▸ ha, hp⟩⟩ hd
      | failed happ => exact absurd ⟨_, hopen, .inl ⟨rfl, hversion, approval, happ ▸ ha, hp⟩⟩ hd
      | requested _ _ _ _ hnext => exact hnext
      | decided _ _ happ hne' hwritten =>
        rw [happ] at ha
        cases ha
        exact absurd (hwritten.symm.trans hp) hne'

/-- The run lemma. -/
theorem aligned (h : (Store.system.restrict fun s m _ => ¬ Disturbs s m).Reachable s) :
    Aligned s := by
  refine h.invariant (fun s hi => ?_) fun s m t hr ha hs =>
    ha.kept (wellFormed hr.of_restrict) hs.1 hs.2
  obtain ⟨id, createdBy, rfl⟩ := hi
  intro approval he
  cases he

/-- Without disturbing transactions a pending approval is that of a waiting job, and an
approval is never sent to the agent for a job that is terminal. -/
theorem approval_consistent
    (h : (Store.system.restrict fun s m _ => ¬ Disturbs s m).Reachable s) :
    (∀ approval, s.approval = some approval → approval.status = .pending →
      s.job.value.status = .waitingApproval) ∧
    ∀ read reviewerId comment t, s.opened id = some ⟨read, .decide .approved reviewerId comment .unsent⟩ →
      s.next (.send id) = some t → isTerminal s.job.value.status = false := by
  refine ⟨aligned h, fun read reviewerId comment t ho _ => ?_⟩
  have hwf := wellFormed h.of_restrict
  have hlock : s.lock = some id := hwf.locked id _ ho rfl
  obtain ⟨approval, ha, hp⟩ := hwf.pending (by rw [hlock]; simp)
  rw [aligned h approval ha hp]
  rfl

/-! An approval is requested, and then the worker gives up on the agent. -/
section Abandoned

def freshStore : Store := { job := .fresh { id := "job-1", createdBy := "user-1" } }

def requestCall : Transaction := .request "approval-1" ["TOTAL_COST_LIMIT_EXCEEDED"]

def giveUpCall : Transaction := .fail "AGENT_DISPATCH_FAILED"

def requestedStore : Store :=
  (freshStore.put 0 ⟨freshStore.job, requestCall⟩).commit 0 1 ⟨freshStore.job, requestCall⟩

def abandonedStore : Store :=
  (requestedStore.put 1 ⟨requestedStore.job, giveUpCall⟩).commit 1 2 ⟨requestedStore.job, giveUpCall⟩

theorem requested_consistent : requestedStore.job.value.status = .waitingApproval := by
  have h0 : (Store.system.restrict fun s m _ => ¬ Disturbs s m).Reachable freshStore :=
    .start ⟨_, _, rfl⟩
  have h1 : (Store.system.restrict fun s m _ => ¬ Disturbs s m).step freshStore (.start 0 requestCall)
      (freshStore.put 0 ⟨freshStore.job, requestCall⟩) := ⟨rfl, id⟩
  have h2 : (Store.system.restrict fun s m _ => ¬ Disturbs s m).step
      (freshStore.put 0 ⟨freshStore.job, requestCall⟩) (.commit 0 1) requestedStore := by
    refine ⟨rfl, fun hd => ?_⟩
    obtain ⟨o, ho, ⟨hleaves, _⟩ | ⟨_, _, hwait, _⟩⟩ := hd
    · cases ho
      cases hleaves
    · cases ho
      cases hwait
  exact (@approval_consistent _ 0 ((h0.step h1).step h2)).1 _ rfl rfl

/-- The job has failed, and its approval is still pending. -/
theorem abandoned_approval_pending :
    ¬ ∀ s, Store.system.Reachable s → ∀ approval, s.approval = some approval →
      approval.status = .pending → s.job.value.status = .waitingApproval := by
  intro hall
  have h0 : Store.system.Reachable freshStore := .start ⟨_, _, rfl⟩
  have h1 : Store.system.step freshStore (.start 0 requestCall)
      (freshStore.put 0 ⟨freshStore.job, requestCall⟩) := rfl
  have h2 : Store.system.step (freshStore.put 0 ⟨freshStore.job, requestCall⟩) (.commit 0 1)
      requestedStore := rfl
  have h3 : Store.system.step requestedStore (.start 1 giveUpCall)
      (requestedStore.put 1 ⟨requestedStore.job, giveUpCall⟩) := rfl
  have h4 : Store.system.step (requestedStore.put 1 ⟨requestedStore.job, giveUpCall⟩) (.commit 1 2)
      abandonedStore := rfl
  have hw := hall abandonedStore ((((h0.step h1).step h2).step h3).step h4) _ rfl rfl
  cases hw

end Abandoned
end DataCopilot.Platform
