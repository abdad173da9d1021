import DataCopilot.Library.Effect
import DataCopilot.Sql.TableScope
import DataCopilot.Agent.Models

/-! `SafeQueryService`: a query is guarded, priced and executed, and one audit event records
how far it came. -/
namespace DataCopilot.Query
open Sql Agent Effects

/-- `QuerySafetyError` and the classes below it, with the attributes they carry. -/
inductive QuerySafetyError where
  | safety | timeout | permission | execution | resultLimit | audit
  | policyViolation (reasonCode : String)
  | approvalRequired (reasonCode : String) (estimate : QueryCostEstimate)

namespace QuerySafetyError

def code : QuerySafetyError → String
  | safety => "QUERY_SAFETY_ERROR"
  | policyViolation _ => "SQL_POLICY_VIOLATION"
  | timeout => "QUERY_TIMEOUT"
  | permission => "QUERY_PERMISSION_DENIED"
  | execution => "QUERY_EXECUTION_FAILED"
  | resultLimit => "QUERY_RESULT_LIMIT_EXCEEDED"
  | audit => "QUERY_AUDIT_FAILED"
  | approvalRequired _ _ => "QUERY_APPROVAL_REQUIRED"

def reasonCode : QuerySafetyError → Option String
  | policyViolation reason | approvalRequired reason _ => some reason
  | _ => none

end QuerySafetyError

/-- An exception: a `QuerySafetyError`, or one of any other class. -/
inductive Raised where
  | safety (e : QuerySafetyError)
  | other (className : String)

/-- The error that is audited and raised for an exception. -/
def Raised.asSafety : Raised → QuerySafetyError
  | .safety e => e
  | .other _ => .execution

structure QueryContext where
  tenantId : String
  userId : String
  jobId : String
  dataSourceId : String
  traceId : String

inductive QueryAuditStatus where
  | succeeded | rejected | approvalRequired | failed
deriving DecidableEq, Repr

structure QueryAuditEvent where
  eventVersion : Nat := 1
  eventId : String
  occurredAt : Nat
  tenantId : String
  userId : String
  jobId : String
  dataSourceId : String
  traceId : String
  status : QueryAuditStatus
  reasonCode : String
  queryFingerprint : String
  referencedTables : List String
  plannerInvoked : Bool
  executorInvoked : Bool
  estimatedTotalCost : Option ℚ
  estimatedPlanRows : Option Nat
  returnedRows : Nat
  returnedColumns : Nat
  serializedBytes : Nat
  resultTruncated : Bool
  durationMs : Nat

structure SafeQueryOutcome where
  result : QueryExecutionResult
  audit : QueryAuditEvent

/-- What the service asks of its collaborators. The sink's answer is kept with the event. -/
inductive QueryCall where
  | estimate (g : GuardedQuery)
  | execute (g : GuardedQuery) (policy : QueryPolicy)
  | record (event : QueryAuditEvent) (answer : Except String Unit)

def QueryCall.recorded? : QueryCall → Option QueryAuditEvent
  | .record event _ => some event
  | _ => none

/-- The sink was asked to keep an event, and failed. -/
def QueryCall.lost : QueryCall → Prop
  | .record _ (.error _) => True
  | _ => False

structure SafeQueryService where
  guard : String → QueryPolicy → Except GuardError GuardedQuery
  fingerprintQuery : String → String

/-- The random id and the times of an event. -/
structure Stamp where
  eventId : String
  occurredAt : Nat
  durationMs : Nat

/-- What the collaborators answer during one call. -/
structure QueryWorld where
  estimator : Option (GuardedQuery → Except Raised QueryCostEstimate)
  execute : GuardedQuery → QueryPolicy → Except Raised QueryExecutionResult
  record : QueryAuditEvent → Except String Unit
  stamp : Stamp

/-- The arguments of `_event` that differ from path to path. -/
structure Account where
  status : QueryAuditStatus
  reasonCode : String
  queryFingerprint : String
  executorInvoked : Bool
  plannerInvoked : Bool := false
  referencedTables : List String := []
  estimate : Option QueryCostEstimate := none
  result : Option QueryExecutionResult := none

namespace SafeQueryService
variable (S : SafeQueryService) (w : QueryWorld) (context : QueryContext) (policy : QueryPolicy)
  (sql : String)

def approvalReason (estimate : QueryCostEstimate) (policy : QueryPolicy) : Option String :=
  if policy.maxTotalCost < estimate.totalCost then some "TOTAL_COST_LIMIT_EXCEEDED"
  else if policy.maxPlanRows < estimate.planRows then some "PLAN_ROWS_LIMIT_EXCEEDED"
  else none

def event (a : Account) : QueryAuditEvent where
  eventId := w.stamp.eventId
  occurredAt := w.stamp.occurredAt
  tenantId := context.tenantId
  userId := context.userId
  jobId := context.jobId
  dataSourceId := context.dataSourceId
  traceId := context.traceId
  status := a.status
  reasonCode := a.reasonCode
  queryFingerprint := a.queryFingerprint
  referencedTables := a.referencedTables
  plannerInvoked := a.plannerInvoked
  executorInvoked := a.executorInvoked
  estimatedTotalCost := a.estimate.map QueryCostEstimate.totalCost
  estimatedPlanRows := a.estimate.map QueryCostEstimate.planRows
  returnedRows := (a.result.map QueryExecutionResult.returnedRowCount).getD 0
  returnedColumns := (a.result.map fun result => result.columns.length).getD 0
  serializedBytes := (a.result.map QueryExecutionResult.serializedBytes).getD 0
  resultTruncated := (a.result.map QueryExecutionResult.truncated).getD false
  durationMs := w.stamp.durationMs

/-- An exception of the sink becomes a `QueryAuditError`. -/
def record (e : QueryAuditEvent) : Effect QueryCall Raised Unit :=
  .call (.record e (w.record e)) (match w.record e with
    | .ok () => .ok ()
    | .error _ => .error (.safety .audit))

/-- Without an estimator there is no estimate. -/
def price (g : GuardedQuery) : Effect QueryCall Raised (Option QueryCostEstimate) :=
  match w.estimator with
  | none => pure none
  | some estimator => do
    let answer ← .call (.estimate g) (.ok (estimator g))
    match answer with
    | .error raised => do
      record w (event w context {
        status := .failed
        reasonCode := raised.asSafety.code
        queryFingerprint := g.queryFingerprint
        referencedTables := g.referencedTables
        plannerInvoked := true
        executorInvoked := false })
      .raise (.safety raised.asSafety)
    | .ok estimate =>
      match approvalReason estimate policy with
      | some reason => do
        record w (event w context {
          status := .approvalRequired
          reasonCode := reason
          queryFingerprint := g.queryFingerprint
          referencedTables := g.referencedTables
          plannerInvoked := true
          executorInvoked := false
          estimate := some estimate })
        .raise (.safety (.approvalRequired reason estimate))
      | none => pure (some estimate)

def run (g : GuardedQuery) (estimate : Option QueryCostEstimate) :
    Effect QueryCall Raised SafeQueryOutcome := do
  let answer ← .call (.execute g policy) (.ok (w.execute g policy))
  match answer with
  | .error raised => do
    record w (event w context {
      status := .failed
      reasonCode := raised.asSafety.code
      queryFingerprint := g.queryFingerprint
      referencedTables := g.referencedTables
      plannerInvoked := estimate.isSome
      executorInvoked := true
      estimate := estimate })
    .raise (.safety raised.asSafety)
  | .ok result => do
    let e := event w context {
      status := .succeeded
      reasonCode := "QUERY_EXECUTED"
      queryFingerprint := g.queryFingerprint
      referencedTables := g.referencedTables
      plannerInvoked := estimate.isSome
      executorInvoked := true
      estimate := estimate
      result := some result }
    record w e
    pure ⟨result, e⟩

/-- An exception of the guard that is no policy violation leaves at once. -/
def executeFixed : Effect QueryCall Raised SafeQueryOutcome :=
  match S.guard sql policy with
  | .error (.policyViolation reason) => do
    record w (event w context {
      status := .rejected
      reasonCode := reason.code
      queryFingerprint := S.fingerprintQuery sql
      executorInvoked := false })
    .raise (.safety (.policyViolation reason.code))
  | .error (.uncaught name) => .raise (.other name)
  | .ok g => do
    let estimate ← price w context policy g
    run w context policy g estimate

def executeGenerated : Effect QueryCall Raised SafeQueryOutcome := S.executeFixed w context policy sql

variable {S w context policy sql}

/-- A computation that ends by recording this event, and then as `r` unless the sink fails. -/
structure Closes {α : Type} (w : QueryWorld) (x : Effect QueryCall Raised α) (e : QueryAuditEvent)
    (earlier : List QueryCall) (r : Except Raised α) : Prop where
  calls : x.calls = .record e (w.record e) :: earlier
  recorded : w.record e = .ok () → x.result = r
  lost : ∀ reason, w.record e = .error reason → x.result = .error (.safety .audit)

namespace Closes
variable {α β : Type} {x : Effect QueryCall Raised α} {f : α → Effect QueryCall Raised β}
  {e : QueryAuditEvent} {earlier : List QueryCall}

theorem record (f : Unit → Effect QueryCall Raised α) (hf : (f ()).calls = []) :
    Closes w (SafeQueryService.record w e >>= f) e [] (f ()).result := by
  cases hr : w.record e with
  | ok u =>
    have hrecord : (SafeQueryService.record w e).result = .ok () := by
      simp [SafeQueryService.record, hr]
    obtain ⟨hcalls, hresult⟩ := Effect.bind_of_ok (f := f) hrecord
    rw [hf] at hcalls
    refine ⟨hcalls, fun _ => hresult, fun reason h => ?_⟩
    rw [hr] at h
    cases h
  | error reason =>
    have hrecord : (SafeQueryService.record w e).result = .error (.safety .audit) := by
      simp [SafeQueryService.record, hr]
    obtain ⟨hcalls, hresult⟩ := Effect.bind_of_error (f := f) hrecord
    refine ⟨hcalls, fun h => ?_, fun _ _ => hresult⟩
    rw [hr] at h
    cases h

theorem record_raise {raised : Raised} :
    Closes w (SafeQueryService.record w e >>= fun _ => (.raise raised : Effect QueryCall Raised α)) e []
      (.error raised) := record (fun _ => .raise raised) rfl

theorem record_pure {a : α} :
    Closes w (SafeQueryService.record w e >>= fun _ => (pure a : Effect QueryCall Raised α)) e []
      (.ok a) := record (fun _ => pure a) rfl

theorem after {a : α} {r : Except Raised β} {calls : List QueryCall} (earlier : List QueryCall)
    (hx : x.result = .ok a) (hlist : calls = earlier ++ x.calls) (h : Closes w (f a) e earlier r) :
    Closes w (x >>= f) e calls r := by
  obtain ⟨hcalls, hresult⟩ := Effect.bind_of_ok (f := f) hx
  refine ⟨?_, fun hr => ?_, fun reason hr => ?_⟩
  · rw [hcalls, h.calls, hlist, List.cons_append]
  · rw [hresult, h.recorded hr]
  · rw [hresult, h.lost reason hr]

/-- One answered call in front. -/
theorem answered {γ : Type} {k : QueryCall} {answer : γ} {f : γ → Effect QueryCall Raised β}
    {calls : List QueryCall} {r : Except Raised β} (earlier : List QueryCall)
    (hlist : calls = earlier ++ [k]) (h : Closes w (f answer) e earlier r) :
    Closes w (.call k (.ok answer) >>= f) e calls r := after earlier rfl hlist h

/-- Whether the sink fails or not, a failure ends everything that was to follow. -/
theorem raised {raised : Raised} (h : Closes w x e earlier (.error raised)) :
    Closes w (x >>= f) e earlier (.error raised) := by
  cases hr : w.record e with
  | ok u =>
    obtain ⟨hcalls, hresult⟩ := Effect.bind_of_error (f := f) (h.recorded hr)
    refine ⟨hcalls.trans h.calls, fun _ => hresult, fun reason h => ?_⟩
    rw [hr] at h
    cases h
  | error reason =>
    obtain ⟨hcalls, hresult⟩ := Effect.bind_of_error (f := f) (h.lost reason hr)
    refine ⟨hcalls.trans h.calls, fun h => ?_, fun _ _ => hresult⟩
    rw [hr] at h
    cases h

end Closes

/-- Nothing stands against the execution of `g`: no estimator, or an estimate within the limits. -/
inductive Priced (w : QueryWorld) (policy : QueryPolicy) (g : GuardedQuery) :
    Option QueryCostEstimate → List QueryCall → Prop
  | unpriced (absent : w.estimator = none) : Priced w policy g none []
  | within {estimator : GuardedQuery → Except Raised QueryCostEstimate} {estimate : QueryCostEstimate}
    (present : w.estimator = some estimator) (answer : estimator g = .ok estimate)
    (within : approvalReason estimate policy = none) : Priced w policy g (some estimate) [.estimate g]

/-- The ways a call can end once the guard has given its verdict: the account that is
recorded, the calls before it, and what follows it. -/
inductive Exit (S : SafeQueryService) (w : QueryWorld) (context : QueryContext)
    (policy : QueryPolicy) (sql : String) :
    Account → List QueryCall → (QueryAuditEvent → Except Raised SafeQueryOutcome) → Prop
  | refused {reason : PolicyReason} (guard : S.guard sql policy = .error (.policyViolation reason)) :
    Exit S w context policy sql {
        status := .rejected
        reasonCode := reason.code
        queryFingerprint := S.fingerprintQuery sql
        executorInvoked := false }
      [] fun _ => .error (.safety (.policyViolation reason.code))
  | unpriced {g : GuardedQuery} {estimator : GuardedQuery → Except Raised QueryCostEstimate}
    {raised : Raised} (guard : S.guard sql policy = .ok g) (present : w.estimator = some estimator)
    (answer : estimator g = .error raised) :
    Exit S w context policy sql {
        status := .failed
        reasonCode := raised.asSafety.code
        queryFingerprint := g.queryFingerprint
        referencedTables := g.referencedTables
        plannerInvoked := true
        executorInvoked := false }
      [.estimate g] fun _ => .error (.safety raised.asSafety)
  | overpriced {g : GuardedQuery} {estimator : GuardedQuery → Except Raised QueryCostEstimate}
    {estimate : QueryCostEstimate} {reason : String} (guard : S.guard sql policy = .ok g)
    (present : w.estimator = some estimator) (answer : estimator g = .ok estimate)
    (exceeds : approvalReason estimate policy = some reason) :
    Exit S w context policy sql {
        status := .approvalRequired
        reasonCode := reason
        queryFingerprint := g.queryFingerprint
        referencedTables := g.referencedTables
        plannerInvoked := true
        executorInvoked := false
        estimate := some estimate }
      [.estimate g] fun _ => .error (.safety (.approvalRequired reason estimate))
  | broken {g : GuardedQuery} {estimate : Option QueryCostEstimate} {earlier : List QueryCall}
    {raised : Raised} (guard : S.guard sql policy = .ok g) (priced : Priced w policy g estimate earlier)
    (answer : w.execute g policy = .error raised) :
    Exit S w context policy sql {
        status := .failed
        reasonCode := raised.asSafety.code
        queryFingerprint := g.queryFingerprint
        referencedTables := g.referencedTables
        plannerInvoked := estimate.isSome
        executorInvoked := true
        estimate := estimate }
      (.execute g policy :: earlier) fun _ => .error (.safety raised.asSafety)
  | done {g : GuardedQuery} {estimate : Option QueryCostEstimate} {earlier : List QueryCall}
    {result : QueryExecutionResult} (guard : S.guard sql policy = .ok g)
    (priced : Priced w policy g estimate earlier) (answer : w.execute g policy = .ok result) :
    Exit S w context policy sql {
        status := .succeeded
        reasonCode := "QUERY_EXECUTED"
        queryFingerprint := g.queryFingerprint
        referencedTables := g.referencedTables
        plannerInvoked := estimate.isSome
        executorInvoked := true
        estimate := estimate
        result := some result }
      (.execute g policy :: earlier) fun e => .ok ⟨result, e⟩

theorem price_cases (g : GuardedQuery) :
    (∃ estimate earlier, Priced w policy g estimate earlier ∧
      (price w context policy g).result = .ok estimate ∧
      (price w context policy g).calls = earlier) ∨
    (∃ estimator raised, w.estimator = some estimator ∧ estimator g = .error raised ∧
      Closes w (price w context policy g) (event w context {
        status := .failed
        reasonCode := raised.asSafety.code
        queryFingerprint := g.queryFingerprint
        referencedTables := g.referencedTables
        plannerInvoked := true
        executorInvoked := false }) [.estimate g] (.error (.safety raised.asSafety))) ∨
    (∃ estimator estimate reason, w.estimator = some estimator ∧ estimator g = .ok estimate ∧
      approvalReason estimate policy = some reason ∧
      Closes w (price w context policy g) (event w context {
        status := .approvalRequired
        reasonCode := reason
        queryFingerprint := g.queryFingerprint
        referencedTables := g.referencedTables
        plannerInvoked := true
        executorInvoked := false
        estimate := some estimate }) [.estimate g]
        (.error (.safety (.approvalRequired reason estimate)))) := by
  unfold price
  cases he : w.estimator with
  | none => exact .inl ⟨none, [], .unpriced he, rfl, rfl⟩
  | some estimator =>
    cases ha : estimator g with
    | error raised =>
      refine .inr (.inl ⟨estimator, raised, rfl, ha, ?_⟩)
      simp only [ha]
      exact Closes.answered [] rfl Closes.record_raise
    | ok estimate =>
      cases hr : approvalReason estimate policy with
      | none =>
        refine .inl ⟨some estimate, [.estimate g], .within he ha hr, ?_⟩
        simp [ha, hr, Effect.calls, bind, Effect.bind, Effect.call, pure, Effect.result]
      | some reason =>
        refine .inr (.inr ⟨estimator, estimate, reason, rfl, ha, hr, ?_⟩)
        simp only [ha]
        refine Closes.answered [] rfl ?_
        simp only [hr]
        exact Closes.record_raise

theorem run_error {g : GuardedQuery} {estimate : Option QueryCostEstimate} {raised : Raised}
    (hx : w.execute g policy = .error raised) :
    Closes w (run w context policy g estimate) (event w context {
        status := .failed
        reasonCode := raised.asSafety.code
        queryFingerprint := g.queryFingerprint
        referencedTables := g.referencedTables
        plannerInvoked := estimate.isSome
        executorInvoked := true
        estimate := estimate }) [.execute g policy] (.error (.safety raised.asSafety)) := by
  unfold run
  simp only [hx]
  exact Closes.answered [] rfl Closes.record_raise

theorem run_ok {g : GuardedQuery} {estimate : Option QueryCostEstimate}
    {result : QueryExecutionResult} (hx : w.execute g policy = .ok result) :
    ∃ e, e = event w context {
        status := .succeeded
        reasonCode := "QUERY_EXECUTED"
        queryFingerprint := g.queryFingerprint
        referencedTables := g.referencedTables
        plannerInvoked := estimate.isSome
        executorInvoked := true
        estimate := estimate
        result := some result } ∧
      Closes w (run w context policy g estimate) e [.execute g policy] (.ok ⟨result, e⟩) := by
  unfold run
  simp only [hx]
  exact ⟨_, rfl, Closes.answered [] rfl Closes.record_pure⟩

/-- Once the guard has given its verdict, the call ends in one of the five ways. -/
theorem executeFixed_exit (hv : ∀ name, S.guard sql policy ≠ .error (.uncaught name)) :
    ∃ a earlier r, Exit S w context policy sql a earlier r ∧
      Closes w (S.executeFixed w context policy sql) (event w context a) earlier
        (r (event w context a)) := by
  unfold executeFixed
  cases hg : S.guard sql policy with
  | error e =>
    cases e with
    | uncaught name => exact absurd hg (hv name)
    | policyViolation reason => exact ⟨_, _, _, .refused hg, Closes.record_raise⟩
  | ok g =>
    obtain ⟨estimate, earlier, hp, hresult, rfl⟩ | ⟨estimator, raised, he, ha, hc⟩ |
      ⟨estimator, estimate, reason, he, ha, hr, hc⟩ := @price_cases w context policy g
    · cases hx : w.execute g policy with
      | error raised =>
        exact ⟨_, _, _, .broken hg hp hx, Closes.after _ hresult rfl (run_error hx)⟩
      | ok result =>
        obtain ⟨e, rfl, hrun⟩ := @run_ok w context policy g estimate result hx
        exact ⟨_, _, _, .done hg hp hx, Closes.after _ hresult rfl hrun⟩
    · exact ⟨_, _, _, .unpriced hg he ha, hc.raised⟩
    · exact ⟨_, _, _, .overpriced hg he ha hr, hc.raised⟩

/-! What the one event of a call says about the call. -/
section Complete
variable {a : Account} {earlier : List QueryCall} {e : QueryAuditEvent}
  {r : QueryAuditEvent → Except Raised SafeQueryOutcome} {x : Effect QueryCall Raised SafeQueryOutcome}

def WithinLimits (policy : QueryPolicy) (estimate : QueryCostEstimate) : Prop :=
  estimate.totalCost ≤ policy.maxTotalCost ∧ estimate.planRows ≤ policy.maxPlanRows

theorem approvalReason_eq_none {estimate : QueryCostEstimate} :
    approvalReason estimate policy = none ↔ WithinLimits policy estimate := by
  unfold approvalReason WithinLimits
  by_cases hc : policy.maxTotalCost < estimate.totalCost
  · simp [hc]
  · by_cases hr : policy.maxPlanRows < estimate.planRows
    · simp [hc, hr]
    · simp [hc, hr, not_lt.mp hc, not_lt.mp hr]

def Refused (S : SafeQueryService) (policy : QueryPolicy) (sql : String) : Prop :=
  ∃ reason, S.guard sql policy = .error (.policyViolation reason)

/-- The estimate exceeds a limit. -/
def Exceeds (S : SafeQueryService) (w : QueryWorld) (policy : QueryPolicy) (sql : String) : Prop :=
  ∃ g estimator estimate, S.guard sql policy = .ok g ∧ w.estimator = some estimator ∧
    estimator g = .ok estimate ∧ ¬ WithinLimits policy estimate

/-- The executor was called, and returned. -/
def Returned (w : QueryWorld) (x : Effect QueryCall Raised SafeQueryOutcome) : Prop :=
  ∃ g p result, .execute g p ∈ x.calls ∧ w.execute g p = .ok result

/-- The guard has accepted `g`, and the estimator, if there is one, has found it within the limits. -/
def Cleared (S : SafeQueryService) (w : QueryWorld) (policy : QueryPolicy) (sql : String)
    (g : GuardedQuery) : Prop :=
  S.guard sql policy = .ok g ∧ ∀ estimator, w.estimator = some estimator →
    ∃ estimate, estimator g = .ok estimate ∧ WithinLimits policy estimate

/-- `e` is the whole audit trail of a call, and says what happened in it. -/
structure AuditComplete (S : SafeQueryService) (w : QueryWorld) (policy : QueryPolicy) (sql : String)
    (x : Effect QueryCall Raised SafeQueryOutcome) (e : QueryAuditEvent) : Prop where
  recorded : x.calls.filterMap QueryCall.recorded? = [e]
  rejected : e.status = .rejected ↔ Refused S policy sql
  approvalRequired : e.status = .approvalRequired ↔ Exceeds S w policy sql
  succeeded : e.status = .succeeded ↔ Returned w x
  failed : e.status = .failed ↔ ¬ Refused S policy sql ∧ ¬ Exceeds S w policy sql ∧ ¬ Returned w x
  executor : e.executorInvoked = true ↔ ∃ g p, .execute g p ∈ x.calls
  planner : e.plannerInvoked = true ↔ ∃ g, .estimate g ∈ x.calls
  gated : ∀ g p, .execute g p ∈ x.calls → p = policy ∧ Cleared S w policy sql g
  outcome : ∀ outcome, x.result = .ok outcome → w.record e = .ok () ∧ outcome.audit = e
  lost : ∀ reason, w.record e = .error reason → x.result = .error (.safety .audit)

namespace Priced
variable {g : GuardedQuery} {estimate : Option QueryCostEstimate}

theorem recorded (h : Priced w policy g estimate earlier) :
    earlier.filterMap QueryCall.recorded? = [] := by
  cases h with
  | unpriced => rfl
  | within => rfl

theorem not_executed (h : Priced w policy g estimate earlier) (g' : GuardedQuery) (p : QueryPolicy) :
    .execute g' p ∉ earlier := by
  cases h with
  | unpriced => simp
  | within => simp

theorem estimated (h : Priced w policy g estimate earlier) :
    estimate.isSome = true ↔ ∃ g', .estimate g' ∈ earlier := by
  cases h with
  | unpriced => simp
  | within => simp

theorem cleared (h : Priced w policy g estimate earlier) (hg : S.guard sql policy = .ok g) :
    Cleared S w policy sql g := by
  refine ⟨hg, fun estimator he => ?_⟩
  cases h with
  | unpriced absent =>
    rw [absent] at he
    cases he
  | within present answer within =>
    rw [present] at he
    cases he
    exact ⟨_, answer, approvalReason_eq_none.mp within⟩

end Priced

theorem Cleared.not_refused {g : GuardedQuery} (h : Cleared S w policy sql g) :
    ¬ Refused S policy sql := by
  rintro ⟨reason, hr⟩
  rw [h.1] at hr
  cases hr

theorem Cleared.not_exceeds {g : GuardedQuery} (h : Cleared S w policy sql g) :
    ¬ Exceeds S w policy sql := by
  rintro ⟨g', estimator, estimate, hg, he, ha, hlimits⟩
  rw [h.1] at hg
  cases hg
  obtain ⟨estimate', ha', hwithin⟩ := h.2 estimator he
  rw [ha] at ha'
  cases ha'
  exact hlimits hwithin

namespace Exit

theorem recorded (h : Exit S w context policy sql a earlier r) :
    earlier.filterMap QueryCall.recorded? = [] := by
  cases h with
  | refused => rfl
  | unpriced => rfl
  | overpriced => rfl
  | broken _ priced => exact priced.recorded
  | done _ priced => exact priced.recorded

theorem executor (h : Exit S w context policy sql a earlier r) :
    a.executorInvoked = true ↔ ∃ g p, .execute g p ∈ earlier := by
  cases h with
  | refused => simp
  | unpriced => simp
  | overpriced => simp
  | broken => exact ⟨fun _ => ⟨_, _, List.mem_cons_self⟩, fun _ => rfl⟩
  | done => exact ⟨fun _ => ⟨_, _, List.mem_cons_self⟩, fun _ => rfl⟩

theorem planner (h : Exit S w context policy sql a earlier r) :
    a.plannerInvoked = true ↔ ∃ g, .estimate g ∈ earlier := by
  cases h with
  | refused => simp
  | unpriced => simp
  | overpriced => simp
  | broken _ priced => simp [priced.estimated]
  | done _ priced => simp [priced.estimated]

theorem gated (h : Exit S w context policy sql a earlier r) {g : GuardedQuery} {p : QueryPolicy}
    (hx : .execute g p ∈ earlier) : p = policy ∧ Cleared S w policy sql g := by
  cases h with
  | refused => cases hx
  | unpriced => simp at hx
  | overpriced => simp at hx
  | broken guard priced =>
    rw [List.mem_cons, or_iff_left (priced.not_executed g p)] at hx
    cases hx
    exact ⟨rfl, priced.cleared guard⟩
  | done guard priced =>
    rw [List.mem_cons, or_iff_left (priced.not_executed g p)] at hx
    cases hx
    exact ⟨rfl, priced.cleared guard⟩

theorem rejected (h : Exit S w context policy sql a earlier r) :
    a.status = .rejected ↔ Refused S policy sql := by
  cases h with
  | refused guard => simp [Refused, guard]
  | unpriced guard => simp [Refused, guard]
  | overpriced guard => simp [Refused, guard]
  | broken guard priced => simp [(priced.cleared guard).not_refused]
  | done guard priced => simp [(priced.cleared guard).not_refused]

theorem approvalRequired (h : Exit S w context policy sql a earlier r) :
    a.status = .approvalRequired ↔ Exceeds S w policy sql := by
  cases h with
  | refused guard => simp [Exceeds, guard]
  | unpriced guard present answer => simp [Exceeds, guard, present, answer]
  | overpriced guard present answer exceeds =>
    have hlimits : ¬ WithinLimits policy _ := fun hw => by
      rw [approvalReason_eq_none.mpr hw] at exceeds
      cases exceeds
    simp [Exceeds, guard, present, answer, hlimits]
  | broken guard priced => simp [(priced.cleared guard).not_exceeds]
  | done guard priced => simp [(priced.cleared guard).not_exceeds]

theorem succeeded (h : Exit S w context policy sql a earlier r) :
    a.status = .succeeded ↔
      ∃ g p result, .execute g p ∈ earlier ∧ w.execute g p = .ok result := by
  cases h with
  | refused => simp
  | unpriced => simp
  | overpriced => simp
  | broken guard priced answer =>
    simp [priced.not_executed, answer]
  | done guard priced answer =>
    simp [priced.not_executed, answer]

theorem outcome (h : Exit S w context policy sql a earlier r) {outcome : SafeQueryOutcome}
    (hr : r e = .ok outcome) : outcome.audit = e := by
  cases h with
  | refused => cases hr
  | unpriced => cases hr
  | overpriced => cases hr
  | broken => cases hr
  | done =>
    cases hr
    rfl

end Exit

/-- Every call whose guard gives a verdict leaves exactly one event, and this event is true. -/
theorem execute_fixed_audited (S : SafeQueryService) (w : QueryWorld) (context : QueryContext)
    (policy : QueryPolicy) (sql : String)
    (hv : ∀ name, S.guard sql policy ≠ .error (.uncaught name)) :
    ∃ e, AuditComplete S w policy sql (S.executeFixed w context policy sql) e := by
  obtain ⟨a, earlier, r, hexit, hcalls, hrecorded, hlost⟩ := @executeFixed_exit S w context policy sql hv
  let e := event w context a
  have hexecute (g : GuardedQuery) (p : QueryPolicy) :
      .execute g p ∈ (S.executeFixed w context policy sql).calls ↔ .execute g p ∈ earlier := by
    simp [hcalls]
  have hestimate (g : GuardedQuery) :
      .estimate g ∈ (S.executeFixed w context policy sql).calls ↔ .estimate g ∈ earlier := by
    simp [hcalls]
  have hreturned : e.status = .succeeded ↔ Returned w (S.executeFixed w context policy sql) := by
    simp only [Returned, hexecute]
    exact hexit.succeeded
  refine ⟨e, ?_, hexit.rejected, hexit.approvalRequired, hreturned, ?_, ?_, ?_, ?_, ?_, hlost⟩
  · rw [hcalls, List.filterMap_cons]
    simp only [QueryCall.recorded?, hexit.recorded]
    rfl
  · rw [← hexit.rejected, ← hexit.approvalRequired, ← hreturned]
    change a.status = .failed ↔ a.status ≠ .rejected ∧ a.status ≠ .approvalRequired ∧
      a.status ≠ .succeeded
    cases a.status <;> simp
  · simp only [hexecute]
    exact hexit.executor
  · simp only [hestimate]
    exact hexit.planner
  · intro g p hx
    exact hexit.gated ((hexecute g p).mp hx)
  · intro outcome hr
    cases hw : w.record e with
    | ok u =>
      rw [hrecorded hw] at hr
      exact ⟨rfl, hexit.outcome hr⟩
    | error reason =>
      rw [hlost reason hw] at hr
      cases hr

/-- An exception of the guard that it was not written for leaves no event at all. -/
theorem uncaught_unaudited {name : String} (hg : S.guard sql policy = .error (.uncaught name)) :
    (S.executeFixed w context policy sql).calls = [] ∧
      (S.executeFixed w context policy sql).result = .error (.other name) := by
  unfold executeFixed
  rw [hg]
  exact ⟨rfl, rfl⟩

/-- Where an event is lost, it is the last call, and the caller learns of nothing but the loss. -/
theorem executeFixed_lost :
    (∀ c ∈ (S.executeFixed w context policy sql).calls, ¬ c.lost) ∨
    ∃ e reason rest, (S.executeFixed w context policy sql).calls = .record e (.error reason) :: rest ∧
      (∀ c ∈ rest, ¬ c.lost) ∧
      (S.executeFixed w context policy sql).result = .error (.safety .audit) := by
  by_cases hv : ∀ name, S.guard sql policy ≠ .error (.uncaught name)
  · obtain ⟨a, earlier, r, hexit, hcalls, _, hlost⟩ := @executeFixed_exit S w context policy sql hv
    have hearlier : ∀ c ∈ earlier, ¬ c.lost := by
      intro c hc hl
      cases c with
      | record e answer =>
        have hmem : e ∈ earlier.filterMap QueryCall.recorded? :=
          List.mem_filterMap.mpr ⟨_, hc, rfl⟩
        rw [hexit.recorded] at hmem
        cases hmem
      | estimate g => exact hl
      | execute g p => exact hl
    cases hr : w.record (event w context a) with
    | ok u =>
      left
      rw [hcalls, hr, List.forall_mem_cons]
      exact ⟨id, hearlier⟩
    | error reason =>
      right
      exact ⟨_, reason, earlier, by rw [hcalls, hr], hearlier, hlost reason hr⟩
  · simp only [ne_eq, not_forall, not_not] at hv
    obtain ⟨name, hv⟩ := hv
    left
    rw [(uncaught_unaudited hv).1]
    simp

end Complete

/-! The query of the test suite, over an executor that finds no rows. -/

def recentService : SafeQueryService where
  guard sql policy := SQLGuard.inspect recentLibraries policy sql
  fingerprintQuery := SQLGuard.fingerprintQuery recentLibraries

def emptyWorld : QueryWorld where
  estimator := none
  execute _ _ := .ok ⟨["order_id"], [], 0, 2, false⟩
  record _ := .ok ()
  stamp := ⟨"event-1", 0, 0⟩

def analystContext : QueryContext :=
  ⟨"tenant-1", "user-1", "job-1", "northwind", "0123456789abcdef"⟩

theorem recent_audited : ∃ e, AuditComplete recentService emptyWorld ordersPolicy recentText
    (recentService.executeFixed emptyWorld analystContext ordersPolicy recentText) e := by
  have hg : recentService.guard recentText ordersPolicy =
      .ok (SQLGuard.guarded recentLibraries ordersPolicy recentQuery {"northwind.orders"}) := rfl
  refine execute_fixed_audited recentService emptyWorld analystContext ordersPolicy recentText ?_
  intro name h
  rw [hg] at h
  cases h

end SafeQueryService
end DataCopilot.Query
