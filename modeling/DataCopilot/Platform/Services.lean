import DataCopilot.Platform.Job

/-! The bodies of the platform's transactions, from the rows they read to the rows they
write. `none` is a null that leaves the row as it is. -/
namespace DataCopilot.Platform
open AnalysisJobStateMachine

inductive ApprovalStatus where
  | pending | approved | rejected
deriving DecidableEq, Repr

structure Approval where
  id : String
  requestedBy : String
  reason : String
  status : ApprovalStatus := .pending
  decidedBy : Option String := none
  decisionComment : Option String := none
  decidedAt : Option Nat := none
deriving DecidableEq, Repr

def Approval.decide (now : Nat) (approval : Approval) (decision : ApprovalStatus)
    (reviewerId : String) (comment : Option String) : Except PlatformError Approval :=
  if approval.status ≠ .pending then .error .approvalAlreadyDecided
  else if decision = .pending then .error .invalidDecision
  else .ok { approval with
    status := decision
    decidedBy := some reviewerId
    decisionComment := comment
    decidedAt := some now }

theorem Approval.decide_ok {now : Nat} {approval next : Approval} {decision : ApprovalStatus}
    {reviewerId : String} {comment : Option String}
    (h : approval.decide now decision reviewerId comment = .ok next) :
    approval.status = .pending ∧ decision ≠ .pending ∧ next.status = decision := by
  unfold Approval.decide at h
  by_cases hp : approval.status = .pending
  · rw [if_neg (not_not.mpr hp)] at h
    by_cases hd : decision = .pending
    · rw [if_pos hd] at h
      cases h
    · rw [if_neg hd] at h
      cases h
      exact ⟨hp, hd, rfl⟩
  · rw [if_pos hp] at h
    cases h

variable {now : Nat} {job next : AnalysisJob} {source target : AnalysisJobStatus}

/-- `if (condition) job.transitionTo(target)`. -/
def transitionIf (now : Nat) (job : AnalysisJob) (condition : Bool) (target : AnalysisJobStatus) :
    Except PlatformError AnalysisJob :=
  if condition then job.transitionTo now target else .ok job

theorem transitionIf_ok {condition : Bool} (h : transitionIf now job condition target = .ok next) :
    Chain job.status next.status ∧
      (condition = true ∧ next.status = target ∨ condition = false ∧ next = job) := by
  unfold transitionIf at h
  by_cases hc : condition = true
  · rw [if_pos hc] at h
    exact ⟨AnalysisJob.transitionTo_chain h, .inl ⟨hc, (AnalysisJob.transitionTo_ok h).1⟩⟩
  · rw [if_neg hc] at h
    cases h
    exact ⟨.refl, .inr ⟨by simpa using hc, rfl⟩⟩

namespace AnalysisJobWorker

def isTerminal (status : AnalysisJobStatus) : Bool :=
  status = .completed || status = .rejected || status = .failed || status = .cancelled

theorem isTerminal_eq (status : AnalysisJobStatus) :
    isTerminal status = AnalysisJobStateMachine.isTerminal status := by
  cases status <;> rfl

/-- The two lookups besides the job are answered from outside. -/
def prepare (now : Nat) (sourceRegistered userFound : Bool) (job : AnalysisJob) :
    Except PlatformError (Option AnalysisJob) :=
  if isTerminal job.status || job.status = .waitingApproval then .ok none
  else if sourceRegistered = false then .error .dataSourceMismatch
  else do
    let job ← transitionIf now job (job.status = .created) .planning
    if userFound then pure (some job) else .error .noValuePresent

def advance (now : Nat) (job : AnalysisJob) (target : AnalysisJobStatus) :
    Except PlatformError AnalysisJob :=
  if target = .planning then transitionIf now job (job.status = .created) target
  else do
    let job ← transitionIf now job (job.status = .created) .planning
    let job ← transitionIf now job (target ≠ .failed && job.status = .planning) .validating
    let job ← transitionIf now job (target = .completed && job.status ≠ .running) .running
    transitionIf now job (job.status ≠ target) target

def persistResult (now : Nat) (result : Option AgentRunResult) (job : AnalysisJob) :
    Except PlatformError (Option AnalysisJob) :=
  match result with
  | none => .error .emptyResponse
  | some result =>
    if isTerminal job.status then .ok none
    else do
      let target ← AnalysisJobStatus.valueOf result.status
      let job ← advance now job target
      let job := job.attachWorkflowThread result.runId
      pure (some (job.storeAgentResult (result.state.getD {})))

def fail (now : Nat) (errorCode : String) (job : AnalysisJob) :
    Except PlatformError (Option AnalysisJob) :=
  if isTerminal job.status then .ok none
  else do
    let job ← job.transitionTo now .failed
    pure (some (job.storeAgentResult { errorCode := some errorCode }))

theorem prepare_none {sourceRegistered userFound : Bool}
    (h : prepare now sourceRegistered userFound job = .ok none) :
    AnalysisJobStateMachine.isTerminal job.status = true ∨ job.status = .waitingApproval := by
  unfold prepare at h
  by_cases hs : (isTerminal job.status || job.status = .waitingApproval) = true
  · simpa [isTerminal_eq] using hs
  · rw [if_neg hs] at h
    by_cases hr : sourceRegistered = false
    · rw [if_pos hr] at h
      cases h
    · rw [if_neg hr] at h
      obtain ⟨planned, _, h⟩ := Result.bind_eq_ok.mp h
      cases userFound <;> cases h

theorem prepare_some {sourceRegistered userFound : Bool}
    (h : prepare now sourceRegistered userFound job = .ok (some next)) :
    AnalysisJobStateMachine.isTerminal job.status = false ∧ job.status ≠ .waitingApproval ∧
      Chain job.status next.status ∧
      (next = job ∨ job.status = .created ∧ next.status = .planning) := by
  unfold prepare at h
  by_cases hs : (isTerminal job.status || job.status = .waitingApproval) = true
  · rw [if_pos hs] at h
    cases h
  · rw [if_neg hs] at h
    by_cases hr : sourceRegistered = false
    · rw [if_pos hr] at h
      cases h
    · rw [if_neg hr] at h
      obtain ⟨planned, hp, h⟩ := Result.bind_eq_ok.mp h
      obtain ⟨hchain, hcase⟩ := transitionIf_ok hp
      obtain rfl : planned = next := by
        cases userFound with
        | false => cases h
        | true => simpa using h
      simp only [isTerminal_eq, Bool.or_eq_true, decide_eq_true_eq, not_or, Bool.not_eq_true] at hs
      refine ⟨hs.1, hs.2, hchain, ?_⟩
      obtain ⟨hc, hn⟩ | ⟨_, hn⟩ := hcase
      · exact .inr ⟨by simpa using hc, hn⟩
      · exact .inl hn

/-- The early return: an in-progress status moves a job only out of CREATED. -/
theorem advance_planning (h : advance now job .planning = .ok next) :
    Chain job.status next.status ∧
      (job.status = .created ∧ next.status = .planning ∨ job.status ≠ .created ∧ next = job) := by
  rw [advance, if_pos rfl] at h
  obtain ⟨hchain, ⟨hc, hn⟩ | ⟨hc, hn⟩⟩ := transitionIf_ok h
  · exact ⟨hchain, .inl ⟨by simpa using hc, hn⟩⟩
  · exact ⟨hchain, .inr ⟨by simpa using hc, hn⟩⟩

theorem advance_ok (ht : target ≠ .planning) (h : advance now job target = .ok next) :
    Chain job.status next.status ∧ next.status = target := by
  rw [advance, if_neg ht] at h
  obtain ⟨planned, hp, h⟩ := Result.bind_eq_ok.mp h
  obtain ⟨validated, hv, h⟩ := Result.bind_eq_ok.mp h
  obtain ⟨running, hr, h⟩ := Result.bind_eq_ok.mp h
  obtain ⟨hlast, hcase⟩ := transitionIf_ok h
  refine ⟨(((transitionIf_ok hp).1.trans (transitionIf_ok hv).1).trans
    (transitionIf_ok hr).1).trans hlast, ?_⟩
  obtain ⟨_, hn⟩ | ⟨he, rfl⟩ := hcase
  · exact hn
  · simpa using he

theorem persistResult_none {result : Option AgentRunResult}
    (h : persistResult now result job = .ok none) :
    AnalysisJobStateMachine.isTerminal job.status = true := by
  cases result with
  | none => cases h
  | some result =>
    simp only [persistResult] at h
    by_cases hs : isTerminal job.status = true
    · rwa [isTerminal_eq] at hs
    · rw [if_neg hs] at h
      obtain ⟨_, _, h⟩ := Result.bind_eq_ok.mp h
      obtain ⟨_, _, h⟩ := Result.bind_eq_ok.mp h
      cases h

theorem persistResult_some {result : Option AgentRunResult}
    (h : persistResult now result job = .ok (some next)) :
    ∃ reply target advanced, result = some reply ∧
      AnalysisJobStateMachine.isTerminal job.status = false ∧
      AnalysisJobStatus.valueOf reply.status = .ok target ∧ advance now job target = .ok advanced ∧
      next = (advanced.attachWorkflowThread reply.runId).storeAgentResult (reply.state.getD {}) := by
  cases result with
  | none => cases h
  | some reply =>
    simp only [persistResult] at h
    by_cases hs : isTerminal job.status = true
    · rw [if_pos hs] at h
      cases h
    · rw [if_neg hs] at h
      obtain ⟨target, ht, h⟩ := Result.bind_eq_ok.mp h
      obtain ⟨advanced, ha, h⟩ := Result.bind_eq_ok.mp h
      cases h
      exact ⟨reply, target, advanced, rfl, by simpa [isTerminal_eq] using hs, ht, ha, rfl⟩

theorem fail_none {errorCode : String} (h : fail now errorCode job = .ok none) :
    AnalysisJobStateMachine.isTerminal job.status = true := by
  unfold fail at h
  by_cases hs : isTerminal job.status = true
  · rwa [isTerminal_eq] at hs
  · rw [if_neg hs] at h
    obtain ⟨_, _, h⟩ := Result.bind_eq_ok.mp h
    cases h

theorem fail_some {errorCode : String} (h : fail now errorCode job = .ok (some next)) :
    AnalysisJobStateMachine.isTerminal job.status = false ∧ Chain job.status next.status ∧
      next.status = .failed := by
  unfold fail at h
  by_cases hs : isTerminal job.status = true
  · rw [if_pos hs] at h
    cases h
  · rw [if_neg hs] at h
    obtain ⟨failed, hf, h⟩ := Result.bind_eq_ok.mp h
    cases h
    have hchain := AnalysisJob.transitionTo_chain hf
    exact ⟨by simpa [isTerminal_eq] using hs, hchain, (AnalysisJob.transitionTo_ok hf).1⟩

end AnalysisJobWorker

namespace ApprovalService

def advanceToWaiting (now : Nat) (job : AnalysisJob) : Except PlatformError AnalysisJob := do
  let job ← transitionIf now job (job.status = .created) .planning
  let job ← transitionIf now job (job.status = .planning) .validating
  job.transitionTo now .waitingApproval

/-- `approvalId` is the random id of a new row. -/
def request (now : Nat) (approvalId : String) (reasonCodes : List String)
    (existing : Option Approval) (job : AnalysisJob) :
    Except PlatformError (AnalysisJob × Approval) :=
  match existing with
  | some approval => .ok (job, approval)
  | none => do
    let waiting ← advanceToWaiting now job
    pure (waiting.attachWorkflowThread job.id, {
      id := approvalId
      requestedBy := job.createdBy
      reason := String.intercalate "," reasonCodes })

/-- What the decision and the agent's answer make of the job. -/
def settle (now : Nat) (decision : ApprovalStatus) (result : AgentRunResult) (job : AnalysisJob) :
    Except PlatformError AnalysisJob :=
  if decision = .rejected then job.transitionTo now .rejected
  else do
    let job ← job.transitionTo now .running
    if result.status = "COMPLETED" then job.transitionTo now .completed
    else transitionIf now job (result.status = "FAILED") .failed

/-- `decide`, from the answer of the agent on. -/
def decide (now : Nat) (decision : ApprovalStatus) (reviewerId : String) (comment : Option String)
    (result : AgentRunResult) (approval : Approval) (job : AnalysisJob) :
    Except PlatformError (AnalysisJob × Approval) := do
  let approval ← approval.decide now decision reviewerId comment
  let job ← settle now decision result job
  match result.state with
  | some state => pure (job.storeAgentResult state, approval)
  | none => pure (job, approval)

theorem advanceToWaiting_ok (h : advanceToWaiting now job = .ok next) :
    Chain job.status next.status ∧ next.status = .waitingApproval := by
  obtain ⟨planned, hp, h⟩ := Result.bind_eq_ok.mp h
  obtain ⟨validated, hv, h⟩ := Result.bind_eq_ok.mp h
  exact ⟨((transitionIf_ok hp).1.trans (transitionIf_ok hv).1).trans
    (AnalysisJob.transitionTo_chain h), (AnalysisJob.transitionTo_ok h).1⟩

theorem request_ok {approvalId : String} {reasonCodes : List String} {existing : Option Approval}
    {approval : Approval}
    (h : request now approvalId reasonCodes existing job = .ok (next, approval)) :
    existing = some approval ∧ next = job ∨
      existing = none ∧ approval.status = .pending ∧ Chain job.status next.status ∧
        next.status = .waitingApproval ∧ next.workflowThreadId = some job.id := by
  cases existing with
  | some found =>
    cases h
    exact .inl ⟨rfl, rfl⟩
  | none =>
    obtain ⟨waiting, hw, h⟩ := Result.bind_eq_ok.mp h
    cases h
    obtain ⟨hchain, hs⟩ := advanceToWaiting_ok hw
    exact .inr ⟨rfl, rfl, hchain, hs, rfl⟩

theorem settle_rejected {result : AgentRunResult} (h : settle now .rejected result job = .ok next) :
    next.status = .rejected ∧ (job.status = .rejected ∨ Edge job.status .rejected) := by
  rw [settle, if_pos rfl] at h
  exact AnalysisJob.transitionTo_ok h

/-- An approved job runs, and ends when the answer says so. -/
theorem settle_approved {decision : ApprovalStatus} {result : AgentRunResult}
    (hd : decision ≠ .rejected) (h : settle now decision result job = .ok next) :
    (job.status = .running ∨ Edge job.status .running) ∧
      next.status = (if result.status = "COMPLETED" then .completed
        else if result.status = "FAILED" then .failed else .running) := by
  rw [settle, if_neg hd] at h
  obtain ⟨running, hr, h⟩ := Result.bind_eq_ok.mp h
  obtain ⟨hs, hedge⟩ := AnalysisJob.transitionTo_ok hr
  refine ⟨hedge, ?_⟩
  by_cases hc : result.status = "COMPLETED"
  · rw [if_pos hc] at h
    rw [if_pos hc]
    exact (AnalysisJob.transitionTo_ok h).1
  · rw [if_neg hc] at h
    rw [if_neg hc]
    obtain ⟨_, ⟨hf, hn⟩ | ⟨hf, rfl⟩⟩ := transitionIf_ok h
    · rw [if_pos (by simpa using hf), hn]
    · rw [if_neg (by simpa using hf), hs]

theorem settle_waiting (now : Nat) (decision : ApprovalStatus) (result : AgentRunResult)
    (hj : job.status = .waitingApproval) : ∃ settled, settle now decision result job = .ok settled := by
  unfold settle
  by_cases hd : decision = .rejected
  · rw [if_pos hd]
    have hedge : canTransition job.status .rejected = true := by rw [hj]; rfl
    obtain ⟨rejected, hr, _⟩ := @AnalysisJob.transitionTo_of now _ _ hedge
    exact ⟨rejected, hr⟩
  · rw [if_neg hd]
    have hedge : canTransition job.status .running = true := by rw [hj]; rfl
    obtain ⟨running, hr, hs⟩ := @AnalysisJob.transitionTo_of now _ _ hedge
    have hend (target : AnalysisJobStatus) (ht : canTransition .running target = true) :
        ∃ ended, running.transitionTo now target = .ok ended := by
      rw [← hs] at ht
      obtain ⟨ended, he, _⟩ := @AnalysisJob.transitionTo_of now _ _ ht
      exact ⟨ended, he⟩
    simp only [Result.bind_eq_ok]
    by_cases hc : result.status = "COMPLETED"
    · obtain ⟨completed, he⟩ := hend .completed rfl
      exact ⟨completed, running, hr, by rw [if_pos hc, he]⟩
    · by_cases hf : result.status = "FAILED"
      · obtain ⟨failed, he⟩ := hend .failed rfl
        exact ⟨failed, running, hr, by rw [if_neg hc, transitionIf, if_pos (by simpa using hf), he]⟩
      · exact ⟨running, running, hr, by rw [if_neg hc, transitionIf, if_neg (by simpa using hf)]⟩

theorem settle_chain {decision : ApprovalStatus} {result : AgentRunResult}
    (h : settle now decision result job = .ok next) : Chain job.status next.status := by
  unfold settle at h
  by_cases hd : decision = .rejected
  · rw [if_pos hd] at h
    exact AnalysisJob.transitionTo_chain h
  · rw [if_neg hd] at h
    obtain ⟨running, hr, h⟩ := Result.bind_eq_ok.mp h
    have hfirst := AnalysisJob.transitionTo_chain hr
    by_cases hc : result.status = "COMPLETED"
    · rw [if_pos hc] at h
      exact hfirst.trans (AnalysisJob.transitionTo_chain h)
    · rw [if_neg hc] at h
      exact hfirst.trans (transitionIf_ok h).1

theorem decide_ok {decision : ApprovalStatus} {reviewerId : String} {comment : Option String}
    {result : AgentRunResult} {approval decided : Approval}
    (h : decide now decision reviewerId comment result approval job = .ok (next, decided)) :
    approval.status = .pending ∧ decision ≠ .pending ∧ decided.status = decision ∧
      ∃ settled, settle now decision result job = .ok settled ∧ next.status = settled.status := by
  obtain ⟨decided', ha, h⟩ := Result.bind_eq_ok.mp h
  obtain ⟨settled, hs, h⟩ := Result.bind_eq_ok.mp h
  obtain ⟨hp, hd, hn⟩ := Approval.decide_ok ha
  cases hstate : result.state with
  | none =>
    rw [hstate] at h
    cases h
    exact ⟨hp, hd, hn, _, hs, rfl⟩
  | some state =>
    rw [hstate] at h
    cases h
    exact ⟨hp, hd, hn, _, hs, rfl⟩

theorem decide_waiting (now : Nat) {decision : ApprovalStatus} (reviewerId : String)
    (comment : Option String) (result : AgentRunResult) {approval : Approval} (hp : approval.status = .pending)
    (hd : decision ≠ .pending) (hj : job.status = .waitingApproval) :
    ∃ written, decide now decision reviewerId comment result approval job = .ok written := by
  obtain ⟨settled, hs⟩ := settle_waiting now decision result hj
  have ha : ∃ decided, approval.decide now decision reviewerId comment = .ok decided := by
    unfold Approval.decide
    rw [if_neg (not_not.mpr hp), if_neg hd]
    exact ⟨_, rfl⟩
  obtain ⟨decided, ha⟩ := ha
  simp only [decide, Result.bind_eq_ok]
  cases hstate : result.state with
  | none => exact ⟨(settled, decided), decided, ha, settled, hs, rfl⟩
  | some state => exact ⟨(settled.storeAgentResult state, decided), decided, ha, settled, hs, rfl⟩

end ApprovalService
end DataCopilot.Platform
