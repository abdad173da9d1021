import DataCopilot.Agent.Service
import DataCopilot.Platform.Transactions

/-! What the approval says about the job: between which states a job moves before it has one,
while it is pending, and once it is decided. -/
namespace DataCopilot.Platform
open Versioned AnalysisJobStateMachine Store
open Agent (RunStatus)

/-- The statuses that the agent reports; it waits for an approval only after the platform
has taken its request. -/
def Produced (s : Store) (result : Option AgentRunResult) : Prop :=
  ∀ reply, result = some reply → (∃ status : RunStatus, reply.status = status.text) ∧
    (reply.status = RunStatus.waitingApproval.text → s.approval ≠ none)

/-- Results come from the agent. -/
def Reported (s : Store) : Move → Prop
  | .start _ (.persistResult result) => Produced s result
  | _ => True

/-- The states of a job that is attended. -/
def Resting (status : AnalysisJobStatus) : Prop :=
  status = .waitingApproval ∨ isTerminal status = true

/-- The states of a job with this approval. -/
def Fits (approval : Option Approval) (status : AnalysisJobStatus) : Prop :=
  match approval with
  | none => status = .created ∨ status = .planning ∨ isTerminal status = true
  | some approval =>
    if approval.status = .pending then Resting status
    else status = .running ∨ isTerminal status = true

section Fits
variable {approval : Option Approval} {found : Approval} {status : AnalysisJobStatus}

theorem fits_pending (hp : found.status = .pending) : Fits (some found) status ↔ Resting status := by
  simp [Fits, hp]

theorem fits_decided (hp : found.status ≠ .pending) :
    Fits (some found) status ↔ status = .running ∨ isTerminal status = true := by
  simp [Fits, hp]

theorem Fits.of_terminal (h : isTerminal status = true) : Fits approval status := by
  cases approval with
  | none => exact .inr (.inr h)
  | some found =>
    by_cases hp : found.status = .pending
    · exact (fits_pending hp).mpr (.inr h)
    · exact (fits_decided hp).mpr (.inr h)

/-- A job that is just created has no approval. -/
theorem Fits.created (h : Fits approval .created) : approval = none := by
  cases approval with
  | none => rfl
  | some found =>
    by_cases hp : found.status = .pending
    · obtain h | h := (fits_pending hp).mp h
      · cases h
      · cases h
    · obtain h | h := (fits_decided hp).mp h
      · cases h
      · cases h

/-- A waiting job has a pending approval. -/
theorem Fits.waiting (h : Fits approval .waitingApproval) :
    ∃ found, approval = some found ∧ found.status = .pending := by
  cases approval with
  | none =>
    obtain h | h | h := h
    · cases h
    · cases h
    · cases h
  | some found =>
    by_cases hp : found.status = .pending
    · exact ⟨found, rfl, hp⟩
    · obtain h | h := (fits_decided hp).mp h
      · cases h
      · cases h

end Fits

/-- The state that a reported status stands for. -/
def reported : RunStatus → AnalysisJobStatus
  | .planning => .planning
  | .waitingApproval => .waitingApproval
  | .completed => .completed
  | .rejected => .rejected
  | .failed => .failed

theorem valueOf_reported (status : RunStatus) :
    AnalysisJobStatus.valueOf status.text = .ok (reported status) := by
  cases status <;> rfl

/-- The states that a running job may still reach. -/
def afterRunning : List AnalysisJobStatus := [.running, .completed, .failed, .cancelled]

theorem chain_afterRunning {target : AnalysisJobStatus} (h : Chain .running target) :
    target ∈ afterRunning := by
  have hedges : ∀ current ∈ afterRunning, ∀ next ∈ allowedTransitions current,
      next ∈ afterRunning := by decide
  induction h with
  | refl => decide
  | tail _ he ih => exact hedges _ ih _ he

variable {now : Nat} {approval : Option Approval} {job next : AnalysisJob}
  {target : AnalysisJobStatus} {s t : Store} {m : Move}

/-- A result of the agent moves the job to a state that fits its approval. -/
theorem Fits.advanced {status : RunStatus} (h : Fits approval job.status)
    (hs : status = .waitingApproval → approval ≠ none)
    (ha : AnalysisJobWorker.advance now job (reported status) = .ok next) :
    Fits approval next.status := by
  cases status with
  | planning =>
    obtain ⟨_, ⟨hc, hn⟩ | ⟨_, rfl⟩⟩ := AnalysisJobWorker.advance_planning ha
    · rw [hc] at h
      rw [h.created, hn]
      exact .inr (.inl rfl)
    · exact h
  | waitingApproval =>
    obtain ⟨hchain, hn⟩ := AnalysisJobWorker.advance_ok (by simp [reported]) ha
    rw [hn] at hchain ⊢
    cases approval with
    | none => exact absurd rfl (hs rfl)
    | some found =>
      by_cases hp : found.status = .pending
      · exact (fits_pending hp).mpr (.inl rfl)
      · obtain hrun | hterm := (fits_decided hp).mp h
        · rw [hrun] at hchain
          have hmem := chain_afterRunning hchain
          simp [afterRunning, reported] at hmem
        · have hsame := hchain.of_terminal hterm
          rw [← hsame] at hterm
          cases hterm
  | completed =>
    have hn := (AnalysisJobWorker.advance_ok (by simp [reported]) ha).2
    exact .of_terminal (by rw [hn]; rfl)
  | rejected =>
    have hn := (AnalysisJobWorker.advance_ok (by simp [reported]) ha).2
    exact .of_terminal (by rw [hn]; rfl)
  | failed =>
    have hn := (AnalysisJobWorker.advance_ok (by simp [reported]) ha).2
    exact .of_terminal (by rw [hn]; rfl)

/-- What the approval says about the job, and about what the open transactions have read. -/
structure Followed (s : Store) : Prop where
  fits : Fits s.approval s.job.value.status
  reads : ∀ id o, s.opened id = some o → s.approval = none → Fits none o.read.value.status
  deciding : ∀ id o, s.opened id = some o → o.body.decides = true → Resting o.read.value.status
  results : ∀ id read result, s.opened id = some ⟨read, .persistResult result⟩ → Produced s result

/-- An approval stays once it is there. -/
theorem approval_stays (h : s.next m = some t) (ht : t.approval = none) : s.approval = none := by
  obtain ⟨_, happ⟩ | ⟨id, now, o, rfl, hc⟩ := next_rows h
  · rw [← happ, ht]
  · obtain ⟨job, hb, _⟩ := hc.written
    obtain ⟨read, body⟩ := o
    have hw := Transaction.body_writes hb
    cases hw with
    | same _ happ => rw [← happ, ht]
    | prepared happ => rw [← happ, ht]
    | persisted happ => rw [← happ, ht]
    | failed happ => rw [← happ, ht]
    | requested hnone => exact hnone
    | decided _ _ happ =>
      rw [ht] at happ
      cases happ

namespace Followed

theorem commit_fits {id : Nat} {o : OpenTransaction} (h : Followed s) (hr : system.Reachable s)
    (hc : s.Commits id now o t) : Fits t.approval t.job.value.status := by
  have hread := (wellFormed hr).reads id o hc.opened
  have hfinal := read_terminal hr id o hc.opened
  obtain ⟨hopen, hready, ⟨job, hb, hcommit⟩, _, _⟩ := hc
  have hw := Transaction.body_writes hb
  have hcases := Cell.commit_cases hread hcommit
  -- the approval is as it was, and the job is moved from a state that fits it
  have hmoved (happ : t.approval = s.approval)
      (hfit : o.read.value = s.job.value → Fits s.approval job.status) :
      Fits t.approval t.job.value.status := by
    rw [happ]
    obtain ⟨_, he⟩ | ⟨_, hcurrent, he⟩ := hcases
    · rw [he]
      exact h.fits
    · rw [he, Cell.write_value]
      exact hfit hcurrent
  obtain ⟨read, body⟩ := o
  cases hw with
  | same hjob happ =>
    refine hmoved happ fun hcurrent => ?_
    have hjob' : job = s.job.value := hjob.trans hcurrent
    rw [hjob']
    exact h.fits
  | prepared happ hjob hnext =>
    refine hmoved happ fun hcurrent => ?_
    have hfits := h.fits
    rw [← hcurrent, hjob] at hfits
    rw [hfits.created, hnext]
    exact .inr (.inl rfl)
  | persisted happ _ htarget hadvance hnext =>
    refine hmoved happ fun hcurrent => ?_
    obtain ⟨⟨status, hs⟩, hwait⟩ := h.results id read _ hopen _ rfl
    rw [hs, valueOf_reported] at htarget
    cases htarget
    rw [hnext]
    have hfits := h.fits
    rw [← hcurrent] at hfits
    exact hfits.advanced (fun he => hwait (by rw [hs, he])) hadvance
  | failed happ _ _ hnext =>
    refine hmoved happ fun _ => .of_terminal ?_
    rw [hnext]
    rfl
  | requested hnone happ hp hchain hnext =>
    rw [happ]
    refine (fits_pending hp).mpr ?_
    obtain ⟨hsame, _⟩ | ⟨_, _, he⟩ := hcases
    · -- no approval was there when the row was read
      have hfits := h.reads id _ hopen hnone
      rw [hsame] at hnext
      rw [hnext] at hfits
      obtain ⟨_, hsome, _⟩ := hfits.waiting
      cases hsome
    · rw [he, Cell.write_value]
      exact .inl hnext
  | @decided decision _ _ result _ _ settled _ hp happ hne hwritten hsettle hnext =>
    have hend : job.status = .running ∨ isTerminal job.status = true := by
      rw [hnext]
      by_cases hrej : decision = .rejected
      · subst hrej
        rw [(ApprovalService.settle_rejected hsettle).1]
        exact .inr rfl
      · rw [(ApprovalService.settle_approved hrej hsettle).2]
        by_cases hcompleted : result.status = "COMPLETED"
        · rw [if_pos hcompleted]
          exact .inr rfl
        · rw [if_neg hcompleted]
          by_cases hfailed : result.status = "FAILED"
          · rw [if_pos hfailed]
            exact .inr rfl
          · rw [if_neg hfailed]
            exact .inl rfl
    rw [happ]
    refine (fits_decided (by rw [hwritten]; exact hne)).mpr ?_
    obtain ⟨hsame, he⟩ | ⟨_, _, he⟩ := hcases
    · -- what was read was a waiting job or a terminal one, and is still what was written
      have hrest := h.deciding id _ hopen rfl
      rw [hsame] at hend
      obtain hwait | hterm := hrest
      · rw [hwait] at hend
        obtain hend | hend := hend
        · cases hend
        · cases hend
      · rw [he, hfinal hterm]
        exact .inr hterm
    · rw [he, Cell.write_value]
      exact hend

/-- The step lemma. -/
theorem kept (h : Followed s) (hr : system.Reachable s) (hs : s.next m = some t)
    (hm : Reported s m) : Followed t := by
  have hwf := wellFormed hr
  refine ⟨?_, fun id o ho hnone => ?_, fun id o ho hd => ?_, fun id read result ho => ?_⟩
  · obtain ⟨hjob, happ⟩ | ⟨id, now, o, rfl, hc⟩ := next_rows hs
    · rw [hjob, happ]
      exact h.fits
    · exact h.commit_fits hr hc
  · have hbefore := approval_stays hs hnone
    obtain hold | ⟨_, _, _, rfl⟩ | ⟨_, _, _, _, _, hold, rfl⟩ | ⟨_, _, _, _, _, _, hold, rfl⟩ :=
      opened_cases hs ho
    · exact h.reads id o hold hbefore
    · have hfits := h.fits
      rw [hbefore] at hfits
      exact hfits
    · have hread := h.reads id _ hold hbefore
      exact hread
    · have hread := h.reads id _ hold hbefore
      exact hread
  · obtain hold | ⟨body, rfl, hst, rfl⟩ | ⟨_, _, _, _, _, hold, rfl⟩ |
      ⟨_, _, _, _, _, _, hold, rfl⟩ := opened_cases hs ho
    · exact h.deciding id o hold hd
    · obtain ⟨_, _, ⟨approval, ha, hp⟩, _⟩ := hst.decide hd
      have hfits := h.fits
      rw [ha] at hfits
      exact (fits_pending hp).mp hfits
    · have hread := h.deciding id _ hold rfl
      exact hread
    · have hread := h.deciding id _ hold rfl
      exact hread
  · have hkeep (hp : Produced s result) : Produced t result := by
      intro reply he
      obtain ⟨hstatus, hwait⟩ := hp reply he
      exact ⟨hstatus, fun hw hnone => hwait hw (approval_stays hs hnone)⟩
    obtain hold | ⟨body, rfl, _, he⟩ | ⟨_, _, _, _, _, _, he⟩ | ⟨_, _, _, _, _, _, _, he⟩ :=
      opened_cases hs ho
    · exact hkeep (h.results id read result hold)
    · cases he
      exact hkeep hm
    · cases he
    · cases he

end Followed

theorem Produced.kept {result : Option AgentRunResult} (h : Produced s result)
    (hs : s.next m = some t) : Produced t result := by
  intro reply he
  obtain ⟨hstatus, hwait⟩ := h reply he
  exact ⟨hstatus, fun hw hnone => hwait hw (approval_stays hs hnone)⟩

/-- An approving decision commits although its run has not ended. -/
def Reopens (s : Store) (m : Move) : Prop :=
  ∃ id now read reviewerId comment result, m = .commit id now ∧
    s.opened id = some ⟨read, .decide .approved reviewerId comment (.answered result)⟩ ∧
    result.status ≠ "COMPLETED" ∧ result.status ≠ "FAILED"

/-- A job that rests is only set running by such a decision. -/
theorem resting_kept (h : Followed s) (hr : system.Reachable s) (hs : s.next m = some t)
    (hm : Reported s m) (hno : ¬ Reopens s m) (hrest : Resting s.job.value.status) :
    Resting t.job.value.status := by
  obtain hwait | hterm := hrest
  · have hfits := h.fits
    rw [hwait] at hfits
    obtain ⟨found, ha, hp⟩ := hfits.waiting
    have hfits' := (h.kept hr hs hm).fits
    obtain ⟨hjob, _⟩ | ⟨id, now, o, rfl, hc⟩ := next_rows hs
    · rw [hjob]
      exact .inl hwait
    · have hread := (wellFormed hr).reads id o hc.opened
      obtain ⟨hopen, hready, ⟨job, hb, hcommit⟩, _, _⟩ := hc
      obtain ⟨read, body⟩ := o
      have hw := Transaction.body_writes hb
      have hkept (happ : t.approval = s.approval) : Resting t.job.value.status := by
        rw [happ, ha] at hfits'
        exact (fits_pending hp).mp hfits'
      cases hw with
      | same _ happ => exact hkept happ
      | prepared happ => exact hkept happ
      | persisted happ => exact hkept happ
      | failed happ => exact hkept happ
      | requested hnone =>
        rw [ha] at hnone
        cases hnone
      | @decided decision reviewerId comment result _ _ settled _ _ happ hne hwritten hsettle hnext =>
        rw [happ] at hfits'
        obtain hrun | hterm := (fits_decided (by rw [hwritten]; exact hne)).mp hfits'
        · exfalso
          obtain ⟨_, he⟩ | ⟨_, _, he⟩ := Cell.commit_cases hread hcommit
          · rw [he, hwait] at hrun
            cases hrun
          · rw [he, Cell.write_value, hnext] at hrun
            cases decision with
            | pending => exact hne rfl
            | rejected =>
              rw [(ApprovalService.settle_rejected hsettle).1] at hrun
              cases hrun
            | approved =>
              rw [(ApprovalService.settle_approved (by simp) hsettle).2] at hrun
              by_cases hcompleted : result.status = "COMPLETED"
              · rw [if_pos hcompleted] at hrun
                cases hrun
              · by_cases hfailed : result.status = "FAILED"
                · rw [if_neg hcompleted, if_pos hfailed] at hrun
                  cases hrun
                · exact hno ⟨id, now, read, reviewerId, comment, result, rfl, hopen, hcompleted, hfailed⟩
        · exact .inr hterm
  · refine .inr ?_
    rw [(wellFormed hr).terminal_status hs hterm]
    exact hterm

end DataCopilot.Platform
