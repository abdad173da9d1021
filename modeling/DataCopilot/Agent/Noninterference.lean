import DataCopilot.Agent.Authorisation
import DataCopilot.Agent.Telemetry

/-! What two executions of a node may tell apart. Where they agree on the allow-listed
metadata, only the text of an exception can. -/
namespace DataCopilot.Agent
open Sql Effects AgentState

/-- The class of an exception and its code. -/
structure SameFailure (f g : Failure) : Prop where
  className : f.className = g.className
  code : f.code = g.code
  kind : f.kind = g.kind

def SameAnswer : Except Failure Unit → Except Failure Unit → Prop
  | .ok _, .ok _ => True
  | .error f, .error g => SameFailure f g
  | _, _ => False

/-- The metadata of a state: what `state_summary` lets through, and the ids. -/
structure SameState (py : Python) (s t : AgentState) : Prop where
  summary : stateSummary py s = stateSummary py t
  runId : s.runId = t.runId
  traceId : s.traceId = t.traceId
  sqlFingerprint : s.sqlFingerprint = t.sqlFingerprint

/-- The digest of a text that `if sql` lets through. -/
def digest (py : Python) (sql : String) : Option String :=
  if sql = "" then none else some (py.sha256 sql)

/-- The metadata of an update, for each key that it sets. -/
structure SameUpdate (py : Python) (u v : AgentState) : Prop where
  intent : u.intent = v.intent
  candidateTables : u.candidateTables.map List.length = v.candidateTables.map List.length
  metricContext : u.metricContext.map List.length = v.metricContext.map List.length
  attempts : u.attempts = v.attempts
  sqlRisk : u.sqlRisk = v.sqlRisk
  riskReasons : u.riskReasons = v.riskReasons
  rows : u.rows.map List.length = v.rows.map List.length
  columns : u.columns.map List.length = v.columns.map List.length
  citations : u.citations.map List.length = v.citations.map List.length
  errorCode : u.errorCode = v.errorCode
  sql : u.sql.map (digest py) = v.sql.map (digest py)

def SameOutcome (py : Python) : Except Stop AgentState → Except Stop AgentState → Prop
  | .ok u, .ok v => SameUpdate py u v
  | .error (.interrupt p), .error (.interrupt q) => p = q
  | .error (.failure f), .error (.failure g) => SameFailure f g
  | _, _ => False

theorem SameAnswer.cases {x y : Except Failure Unit} (h : SameAnswer x y) :
    (x = .ok () ∧ y = .ok ()) ∨ ∃ f g, x = .error f ∧ y = .error g ∧ SameFailure f g := by
  cases x with
  | ok u =>
    cases y with
    | ok v => exact .inl ⟨rfl, rfl⟩
    | error g => exact h.elim
  | error f =>
    cases y with
    | ok v => exact h.elim
    | error g => exact .inr ⟨f, g, rfl, rfl, h⟩

theorem SameOutcome.cases {py : Python} {x y : Except Stop AgentState} (h : SameOutcome py x y) :
    (∃ u v, x = .ok u ∧ y = .ok v ∧ SameUpdate py u v) ∨
    (∃ p, x = .error (.interrupt p) ∧ y = .error (.interrupt p)) ∨
    (∃ f g, x = .error (.failure f) ∧ y = .error (.failure g) ∧ SameFailure f g) := by
  cases x with
  | ok u =>
    cases y with
    | ok v => exact .inl ⟨u, v, rfl, rfl, h⟩
    | error e => exact h.elim
  | error e =>
    cases y with
    | ok v => cases e <;> exact h.elim
    | error e' =>
      cases e with
      | interrupt p =>
        cases e' with
        | interrupt q =>
          obtain rfl : p = q := h
          exact .inr (.inl ⟨p, rfl, rfl⟩)
        | failure g => exact h.elim
      | failure f =>
        cases e' with
        | interrupt q => exact h.elim
        | failure g => exact .inr (.inr ⟨f, g, rfl, rfl, h⟩)

section Summaries
variable {py : Python} {s t u v : AgentState}

/-- Where a key is set the new value decides, and otherwise the old one. -/
theorem orElse_same {α β γ : Type} {m : α → β} {g : Option α → γ} (h : Option β → γ)
    (hg : ∀ o, g o = h (o.map m)) {a b c d : Option α} (hu : a.map m = b.map m) (hs : g c = g d) :
    g (a <|> c) = g (b <|> d) := by
  cases a with
  | none =>
    cases b with
    | none => exact hs
    | some b => cases hu
  | some a =>
    cases b with
    | none => cases hu
    | some b =>
      change g (some a) = g (some b)
      rw [hg, hg, hu]

theorem count_same {α : Type} {a b c d : Option (List α)} (hu : a.map List.length = b.map List.length)
    (hs : (c.getD []).length = (d.getD []).length) :
    ((a <|> c).getD []).length = ((b <|> d).getD []).length := by
  refine orElse_same (g := fun o : Option (List α) => (o.getD []).length) (fun o => o.getD 0) ?_ hu hs
  intro o
  cases o with
  | none => rfl
  | some l => rfl

theorem set_same {α β : Type} {f : Option α → β} {a b c d : Option α} (hu : a = b) (hs : f c = f d) :
    f (a <|> c) = f (b <|> d) :=
  orElse_same (m := id) f (fun o => by rw [Option.map_id, id]) (by rw [hu]) hs

theorem fingerprint_eq (o : Option String) :
    (o.filter (· ≠ "")).map (fun sql => "sha256:" ++ py.sha256 sql) =
      (o.map (digest py)).join.map ("sha256:" ++ ·) := by
  cases o with
  | none => rfl
  | some sql =>
    by_cases h : sql = ""
    · simp [digest, h]
    · simp [digest, h]

/-- Updates that agree keep the summaries of two states equal. -/
theorem merge_summary (hs : stateSummary py s = stateSummary py t) (hu : SameUpdate py u v) :
    stateSummary py (s.merge u) = stateSummary py (t.merge v) := by
  simp only [stateSummary, StateSummary.mk.injEq] at hs ⊢
  obtain ⟨hintent, htables, hmetrics, hattempts, hrisk, hreasons, hrows, hcolumns, hcitations, hcode,
    hsql⟩ := hs
  refine ⟨set_same (f := id) hu.intent hintent, count_same hu.candidateTables htables,
    count_same hu.metricContext hmetrics, set_same (f := fun o => o.getD 0) hu.attempts hattempts,
    set_same (f := id) hu.sqlRisk hrisk,
    set_same (f := fun o : Option (List String) => (o.getD []).take 5) hu.riskReasons hreasons,
    count_same hu.rows hrows, count_same hu.columns hcolumns, count_same hu.citations hcitations,
    set_same (f := Option.join) hu.errorCode hcode, ?_⟩
  rw [fingerprint_eq, fingerprint_eq] at hsql ⊢
  exact orElse_same (g := fun o => (o.map (digest py)).join.map ("sha256:" ++ ·))
    (fun o => o.join.map ("sha256:" ++ ·)) (fun o => rfl) hu.sql hsql

end Summaries

/-- One execution of a node: the outside, what it is resumed with, its input, the token counts that its model
calls report, and the texts of the exceptions. -/
structure Execution where
  world : World
  resume : Option ApprovalResume
  state : AgentState
  counts : List (String × String × String) := []
  failureText : Failure → ErrorText

/-- What the sink answers to the record of a step. -/
def recorded (w : World) (s : AgentState) (status : StepStatus) : Except Failure Unit := do
  let _ ← AgentState.get "run_id" s.runId
  w.record status

/-- The exception of the body, which its action or the sink raises. -/
def raisedBy : Except Stop AgentState → Except Failure Unit → Option Failure
  | .error (.failure f), _ => some f
  | .ok _, .error f => some f
  | _, _ => none

/-- The exception that is on its way once the failure has been recorded. -/
def lastRaised (f : Failure) : Except Failure Unit → Failure
  | .ok _ => f
  | .error g => g

theorem SameFailure.stableCode {f g : Failure} (h : SameFailure f g) (upper : String → String) :
    f.stableCode upper = g.stableCode upper := by
  unfold Failure.stableCode
  rw [h.code, h.className]

theorem SameFailure.classifyError {f g : Failure} (h : SameFailure f g) :
    classifyError f = classifyError g := by
  unfold Agent.classifyError
  rw [h.kind, h.code]

namespace Execution
variable (G : AgentGraph) (interruptText : InterruptPayload → ErrorText) (step : StepName)
  (E : Execution)

def outcome : Except Stop AgentState := (G.operation E.world E.resume step E.state).result

def signals : List Signal :=
  (observedStep G.actions.py E.world ⟨E.failureText, interruptText⟩ step E.state E.counts
    (G.operation E.world E.resume step)).calls

/-- The exception that ends the node, from what its action and the sink answer. -/
def failure : Option Failure :=
  match E.state.traceId with
  | none => none
  | some _ =>
    (raisedBy (E.outcome G step) (recorded E.world E.state .succeeded)).map fun f =>
      lastRaised f (recorded E.world E.state .failed)

/-- Two executions that agree on the metadata. -/
structure Agree (E F : Execution) : Prop where
  state : SameState G.actions.py E.state F.state
  counts : E.counts = F.counts
  outcome : SameOutcome G.actions.py (E.outcome G step) (F.outcome G step)
  record : ∀ status, SameAnswer (E.world.record status) (F.world.record status)
  ensurePending : SameAnswer E.world.ensurePending F.world.ensurePending

end Execution

section Needs
variable {α β : Type} {key : String} {f : α → Effect Call Stop β}

theorem need_none : (need (AgentState.get key (none : Option α)) >>= f).calls =
    (need (AgentState.get key (none : Option α))).calls := by
  have he : (need (AgentState.get key (none : Option α))).result = .error (.failure (keyError key)) := rfl
  exact (Effect.bind_of_error he).1

theorem need_some (a : α) : (need (AgentState.get key (some a)) >>= f).calls =
    (f a).calls ++ (need (AgentState.get key (some a))).calls := by
  have ho : (need (AgentState.get key (some a))).result = .ok a := rfl
  exact (Effect.bind_of_ok ho).1

end Needs

section Records
variable {py : Python} {w w' : World} {s t : AgentState} {stepName : StepName} {status : StepStatus}
  {out out' : OutputSummary} {code code' : Option String}

theorem recorded_same (hs : SameState py s t)
    (hw : ∀ status, SameAnswer (w.record status) (w'.record status)) (status : StepStatus) :
    SameAnswer (recorded w s status) (recorded w' t status) := by
  unfold recorded
  rw [hs.runId]
  cases t.runId with
  | none => exact ⟨rfl, rfl, rfl⟩
  | some runId => exact hw status

theorem recordStep_result :
    (recordStep py w stepName s status out code).result = orStop (recorded w s status) := by
  cases hr : s.runId with
  | none => simp [recordStep, recorded, hr, need, AgentState.get, Effect.result]; rfl
  | some runId => simp [recordStep, recorded, hr, record]; rfl

theorem recordStep_shown : (shown (recordStep py w stepName s status out code)).calls =
    (s.runId.map fun runId => Signal.record
      ⟨runId, stepName, status, s.attempt, stateSummary py s, out, code⟩).toList := by
  unfold recordStep
  cases hr : s.runId with
  | none =>
    change (Effect.calls (_ >>= _)).filterMap _ = _
    rw [need_none]
    rfl
  | some runId =>
    change (Effect.calls (_ >>= _)).filterMap _ = _
    rw [need_some]
    rfl

theorem recordStep_signals (hs : SameState py s t) :
    (shown (recordStep py w stepName s status out code)).calls =
      (shown (recordStep py w' stepName t status out code)).calls := by
  have hattempt : s.attempt = t.attempt := congrArg StateSummary.attempts hs.summary
  rw [recordStep_shown, recordStep_shown, hs.runId, hs.summary, hattempt]

end Records

/-! The two executions, stage by stage: what the operation records, the body of the `try`, and
the handlers. -/
section Stages
variable {G : AgentGraph} {I : InterruptPayload → ErrorText} {step : StepName} {E F : Execution}

theorem shown_bind_ok {α β : Type} {x : Effect Call Stop α} {f : α → Effect Signal Stop β} {a : α}
    (h : x.result = .ok a) :
    (shown x >>= f).calls = (f a).calls ++ (shown x).calls ∧ (shown x >>= f).result = (f a).result :=
  @Effect.bind_of_ok _ _ _ _ (shown x) f a h

theorem shown_bind_error {α β : Type} {x : Effect Call Stop α} {f : α → Effect Signal Stop β} {e : Stop}
    (h : x.result = .error e) :
    (shown x >>= f).calls = (shown x).calls ∧ (shown x >>= f).result = .error e :=
  @Effect.bind_of_error _ _ _ _ (shown x) f e h

/-- The approval node records that it waits once the platform has been told. -/
theorem pause_shown {py : Python} {w : World} {r : Option ApprovalResume} {s : AgentState} :
    (shown (pause py w r s)).calls =
      match s.runId, s.traceId, w.ensurePending with
      | some _, some _, .ok _ =>
        (shown (recordStep py w .requestApproval s .waiting
          (.waiting s.sqlFingerprint ((s.riskReasons.getD []).take 5)) none)).calls
      | _, _, _ => [] := by
  unfold pause
  cases hr : s.runId with
  | none =>
    change (Effect.calls (_ >>= _)).filterMap _ = _
    rw [need_none]
    rfl
  | some runId =>
    change (Effect.calls (_ >>= _)).filterMap _ = _
    rw [need_some]
    cases ht : s.traceId with
    | none =>
      rw [need_none]
      rfl
    | some traceId =>
      rw [need_some]
      cases hp : w.ensurePending with
      | error f =>
        have he : (ask (.ensurePending runId (s.riskReasons.getD []) s.sqlFingerprint)
            (.error f : Except Failure Unit)).result = .error (.failure f) := rfl
        rw [(Effect.bind_of_error he).1]
        rfl
      | ok told =>
        have ho : (ask (.ensurePending runId (s.riskReasons.getD []) s.sqlFingerprint)
            (.ok told : Except Failure Unit)).result = .ok told := rfl
        rw [(Effect.bind_of_ok ho).1]
        rw [Effect.bind_calls_of_silent]
        · simp only [ask_calls, need_calls, List.append_nil, List.filterMap_append,
            List.filterMap_cons, List.filterMap_nil, Call.signal]
          rfl
        · intro _
          cases r with
          | none => rfl
          | some r => rfl

theorem pause_signals (h : E.Agree G .requestApproval F) :
    (shown (pause G.actions.py E.world E.resume E.state)).calls =
      (shown (pause G.actions.py F.world F.resume F.state)).calls := by
  have hreasons : (E.state.riskReasons.getD []).take 5 = (F.state.riskReasons.getD []).take 5 :=
    congrArg StateSummary.riskReasons h.state.summary
  rw [pause_shown, pause_shown, h.state.sqlFingerprint, hreasons,
    @recordStep_signals _ E.world F.world _ _ _ _ _ _ h.state, h.state.runId, h.state.traceId]
  obtain ⟨he, hf⟩ | ⟨f, g, he, hf, _⟩ := h.ensurePending.cases
  · rw [he, hf]
  · rw [he, hf]
    cases F.state.runId with
    | none => rfl
    | some runId => cases F.state.traceId <;> rfl

theorem operation_signals (h : E.Agree G step F) :
    (shown (G.operation E.world E.resume step E.state)).calls =
      (shown (G.operation F.world F.resume step F.state)).calls := by
  by_cases hstep : step = .requestApproval
  · subst hstep
    exact pause_signals h
  · have hnone : ∀ X : Execution, (shown (G.operation X.world X.resume step X.state)).calls = [] := by
      intro X
      refine List.filterMap_eq_nil_iff.mpr fun c hc => ?_
      cases c with
      | record r => exact absurd (AgentGraph.operation_records hc) hstep
      | _ => rfl
    rw [hnone, hnone]

theorem emitAll_bind {α : Type} {l : List Signal} {f : Unit → Effect Signal Stop α} :
    (emitAll l >>= f).calls = (f ()).calls ++ l ∧ (emitAll l >>= f).result = (f ()).result :=
  Effect.bind_of_ok rfl

theorem rejections_same {py : Python} {u v : AgentState} (h : SameUpdate py u v) :
    rejections step u = rejections step v := by
  rw [rejections, rejections, h.sqlRisk, h.riskReasons]

theorem emit_bind {α : Type} {s : Signal} {f : Unit → Effect Signal Stop α} :
    (emit s >>= f).calls = (f ()).calls ++ [s] ∧ (emit s >>= f).result = (f ()).result :=
  Effect.bind_of_ok rfl

section Recorded
variable {py : Python} {w : World} {s : AgentState} {status : StepStatus} {out : OutputSummary}
  {code : Option String} {α : Type} {f : Unit → Effect Signal Stop α}

theorem record_bind_ok (h : recorded w s status = .ok ()) :
    (shown (recordStep py w step s status out code) >>= f).calls =
        (f ()).calls ++ (shown (recordStep py w step s status out code)).calls ∧
      (shown (recordStep py w step s status out code) >>= f).result = (f ()).result :=
  shown_bind_ok (by rw [recordStep_result, h]; rfl)

theorem record_bind_error {g : Failure} (h : recorded w s status = .error g) :
    (shown (recordStep py w step s status out code) >>= f).calls =
        (shown (recordStep py w step s status out code)).calls ∧
      (shown (recordStep py w step s status out code) >>= f).result = .error (.failure g) :=
  shown_bind_error (by rw [recordStep_result, h]; rfl)

end Recorded

/-- The body of the `try` shows the same in both executions, and ends alike. -/
theorem success_same (h : E.Agree G step F) :
    (observedSuccess G.actions.py E.world step E.state E.counts (G.operation E.world E.resume step)).calls =
        (observedSuccess G.actions.py F.world step F.state F.counts (G.operation F.world F.resume step)).calls ∧
      SameOutcome G.actions.py
        (observedSuccess G.actions.py E.world step E.state E.counts (G.operation E.world E.resume step)).result
        (observedSuccess G.actions.py F.world step F.state F.counts (G.operation F.world F.resume step)).result := by
  have hshown := operation_signals h
  unfold observedSuccess
  rw [emitAll_bind.1, emitAll_bind.2, emitAll_bind.1, emitAll_bind.2, h.counts]
  obtain ⟨u, v, hu, hv, hout⟩ | ⟨p, he, hf⟩ | ⟨f, g, he, hf, hsame⟩ := h.outcome.cases
  · rw [(shown_bind_ok hu).1, (shown_bind_ok hu).2, (shown_bind_ok hv).1, (shown_bind_ok hv).2, hshown,
      emitAll_bind.1, emitAll_bind.2, emitAll_bind.1, emitAll_bind.2, rejections_same hout,
      merge_summary h.state.summary hout]
    obtain ⟨he, hf⟩ | ⟨f, g, he, hf, hsame⟩ := (recorded_same h.state h.record .succeeded).cases
    · rw [(record_bind_ok he).1, (record_bind_ok he).2, (record_bind_ok hf).1, (record_bind_ok hf).2,
        @recordStep_signals _ E.world F.world _ _ _ _ _ _ h.state]
      exact ⟨rfl, hout⟩
    · rw [(record_bind_error he).1, (record_bind_error he).2, (record_bind_error hf).1,
        (record_bind_error hf).2, @recordStep_signals _ E.world F.world _ _ _ _ _ _ h.state]
      exact ⟨rfl, hsame⟩
  · rw [(shown_bind_error he).1, (shown_bind_error he).2, (shown_bind_error hf).1,
      (shown_bind_error hf).2, hshown]
    exact ⟨rfl, rfl⟩
  · rw [(shown_bind_error he).1, (shown_bind_error he).2, (shown_bind_error hf).1,
      (shown_bind_error hf).2, hshown]
    exact ⟨rfl, hsame⟩

section Handlers
variable {py : Python} {w : World} {s : AgentState} {T : Texts} {f g : Failure}

theorem failure_of_ok (h : recorded w s .failed = .ok ()) :
    (observedFailure py w T step s (.failure f)).calls =
        [.span (.recordException (T.thrown (.failure f)) [("exception.escaped", "True")]),
          .span (.setStatus (f.stableCode py.upper)),
          .span (.setAttribute "error.type" (f.stableCode py.upper)),
          .error step (f.stableCode py.upper), .duration step "failed"] ++
        (shown (recordStep py w step s .failed (.error (classifyError f))
          (some (f.stableCode py.upper)))).calls ∧
      (observedFailure py w T step s (.failure f)).result = .error (.failure f) := by
  unfold observedFailure
  rw [(record_bind_ok h).1, (record_bind_ok h).2]
  exact ⟨rfl, rfl⟩

theorem failure_of_error (h : recorded w s .failed = .error g) :
    (observedFailure py w T step s (.failure f)).calls =
        (shown (recordStep py w step s .failed (.error (classifyError f))
          (some (f.stableCode py.upper)))).calls ∧
      (observedFailure py w T step s (.failure f)).result = .error (.failure g) := by
  unfold observedFailure
  rw [(record_bind_error h).1, (record_bind_error h).2]
  exact ⟨rfl, rfl⟩

end Handlers

section Spans
variable {py : Python} {T : Texts} {traceId : String} {α : Type} {body : Effect Signal Stop α}

def spanStart (py : Python) (step : StepName) (traceId : String) : Signal :=
  .span (.start ("agent.node." ++ step.text) (normalizeTraceId py traceId) [("agent.node", step.text)])

theorem span_of_ok {a : α} (h : body.result = .ok a) :
    (agentNodeSpan py T step traceId body).calls = body.calls ++ [spanStart py step traceId] := by
  unfold agentNodeSpan
  rw [emit_bind.1, (Effect.handle_of_ok h).1]
  rfl

theorem span_of_error {e : Stop} (h : body.result = .error e) :
    (agentNodeSpan py T step traceId body).calls =
      .span (.leave (T.thrown e)) :: (body.calls ++ [spanStart py step traceId]) := by
  unfold agentNodeSpan
  rw [emit_bind.1, (Effect.handle_of_error h).1]
  rfl

variable {O : OpenTelemetry} {rest rest' : List Signal} {e e' : Thrown}

theorem span_started (signals : List Signal) :
    ∃ s, (O.emitted (signals ++ [spanStart py step traceId])).span = some s := by
  induction signals with
  | nil => exact ⟨_, rfl⟩
  | cons signal signals ih =>
    obtain ⟨s, hs⟩ := ih
    cases signal with
    | record r => exact ⟨s, hs⟩
    | duration node status => exact ⟨s, hs⟩
    | error node code => exact ⟨s, hs⟩
    | rejection code => exact ⟨s, hs⟩
    | tokens provider model direction => exact ⟨s, hs⟩
    | span c =>
      change ∃ t, O.apply c (O.emitted (signals ++ [spanStart py step traceId])).span = some t
      rw [hs]
      cases c with
      | start name traceId attributes => exact ⟨_, rfl⟩
      | setAttribute key value => exact ⟨_, rfl⟩
      | setStatus description => exact ⟨_, rfl⟩
      | recordException e attributes => exact ⟨_, rfl⟩
      | leave e => exact ⟨_, rfl⟩

/-- The last event of a span shows the exception that left it. -/
theorem leave_text {s s' : Span} (hs : (O.emitted rest).span = some s)
    (hs' : (O.emitted rest').span = some s')
    (h : O.emitted (.span (.leave e) :: rest) = O.emitted (.span (.leave e') :: rest')) :
    e.text = e'.text := by
  have hspan : O.apply (.leave e) (O.emitted rest).span = O.apply (.leave e') (O.emitted rest').span :=
    congrArg Emitted.span h
  rw [hs, hs'] at hspan
  have hevents := congrArg Span.events (Option.some.inj hspan)
  obtain ⟨_, hlast⟩ := List.append_inj' hevents rfl
  have hattributes := congrArg SpanEvent.attributes (List.singleton_inj.mp hlast)
  simp only [exceptionEvent, List.append_nil, List.cons.injEq, Prod.mk.injEq, true_and, and_true] at hattributes
  obtain ⟨_, hmessage, htrace⟩ := hattributes
  exact ErrorText.ext hmessage htrace

/-- Two spans that are left by exceptions of one class show the same exactly when the texts
agree, where no other exception has been shown. -/
theorem leave_iff {l l' : List Signal} (hclass : e.className = e'.className)
    (hrest : e.text = e'.text → l = l') :
    O.emitted (.span (.leave e) :: (l ++ [spanStart py step traceId])) =
        O.emitted (.span (.leave e') :: (l' ++ [spanStart py step traceId])) ↔ e.text = e'.text := by
  constructor
  · intro h
    obtain ⟨s, hs⟩ := @span_started step py traceId O l
    obtain ⟨s', hs'⟩ := @span_started step py traceId O l'
    exact leave_text hs hs' h
  · intro h
    have he : e = e' := by
      cases e
      cases e'
      rw [Thrown.mk.injEq]
      exact ⟨hclass, h⟩
    rw [he, hrest h]

end Spans

/-- The exception of the body, read off its inputs. -/
theorem success_raised {w : World} {py : Python} {s : AgentState}
    {operation : AgentState → Effect Call Stop AgentState} {counts : List (String × String × String)} :
    raisedBy (operation s).result (recorded w s .succeeded) =
      match (observedSuccess py w step s counts operation).result with
      | .error (.failure f) => some f
      | _ => none := by
  unfold observedSuccess
  rw [emitAll_bind.2]
  cases ho : (operation s).result with
  | error e =>
    rw [(shown_bind_error ho).2]
    cases e <;> rfl
  | ok u =>
    rw [(shown_bind_ok ho).2, emitAll_bind.2]
    cases hr : recorded w s .succeeded with
    | ok _ =>
      rw [(record_bind_ok hr).2]
      rfl
    | error g =>
      rw [(record_bind_error hr).2]
      rfl

section Ends
variable {traceId : String} {f g : Failure}

/-- All that an execution shows goes through its span. -/
theorem signals_of_trace (ht : E.state.traceId = some traceId) :
    E.signals G I step = (agentNodeSpan G.actions.py ⟨E.failureText, I⟩ step traceId
      ((observedSuccess G.actions.py E.world step E.state E.counts (G.operation E.world E.resume step)).handle
        (observedFailure G.actions.py E.world ⟨E.failureText, I⟩ step E.state))).calls := by
  unfold Execution.signals observedStep
  rw [ht, (shown_bind_ok (a := traceId) rfl).1]
  exact List.append_nil _

theorem signals_of_ok {u : AgentState} (ht : E.state.traceId = some traceId)
    (hb : (observedSuccess G.actions.py E.world step E.state E.counts
      (G.operation E.world E.resume step)).result = .ok u) :
    E.signals G I step = (observedSuccess G.actions.py E.world step E.state E.counts
      (G.operation E.world E.resume step)).calls ++ [spanStart G.actions.py step traceId] := by
  rw [signals_of_trace ht, span_of_ok (Effect.handle_of_ok hb).2, (Effect.handle_of_ok hb).1]

theorem signals_of_error {e : Stop} (e' : Stop) (ht : E.state.traceId = some traceId)
    (hb : (observedSuccess G.actions.py E.world step E.state E.counts
      (G.operation E.world E.resume step)).result = .error e)
    (hh : (observedFailure G.actions.py E.world ⟨E.failureText, I⟩ step E.state e).result = .error e') :
    E.signals G I step =
      .span (.leave (Texts.thrown ⟨E.failureText, I⟩ e')) ::
        ((observedFailure G.actions.py E.world ⟨E.failureText, I⟩ step E.state e).calls ++
          (observedSuccess G.actions.py E.world step E.state E.counts
            (G.operation E.world E.resume step)).calls ++ [spanStart G.actions.py step traceId]) := by
  have hr := (Effect.handle_of_error (h := observedFailure G.actions.py E.world ⟨E.failureText, I⟩
    step E.state) hb).2
  rw [signals_of_trace ht, span_of_error (hr.trans hh), (Effect.handle_of_error hb).1]

end Ends

end Stages

/-- Two executions of a node that agree on the metadata emit the same exactly when the texts of
the exceptions that end them agree. -/
theorem telemetry_same_iff (O : OpenTelemetry) (I : InterruptPayload → ErrorText) (G : AgentGraph)
    (step : StepName) (E F : Execution) (h : E.Agree G step F) :
    O.emitted (E.signals G I step) = O.emitted (F.signals G I step) ↔
      (E.failure G step).map E.failureText = (F.failure G step).map F.failureText := by
  cases hf : F.state.traceId with
  | none =>
    have he : E.state.traceId = none := h.state.traceId.trans hf
    refine iff_of_true ?_ ?_
    · unfold Execution.signals observedStep
      rw [he, hf]
      rfl
    · unfold Execution.failure
      rw [he, hf]
      rfl
  | some traceId =>
    have he : E.state.traceId = some traceId := h.state.traceId.trans hf
    obtain ⟨hcalls, hbody⟩ := success_same h
    have hfailE : E.failure G step = (raisedBy (E.outcome G step)
        (recorded E.world E.state .succeeded)).map fun f =>
          lastRaised f (recorded E.world E.state .failed) := by
      unfold Execution.failure
      rw [he]
    have hfailF : F.failure G step = (raisedBy (F.outcome G step)
        (recorded F.world F.state .succeeded)).map fun f =>
          lastRaised f (recorded F.world F.state .failed) := by
      unfold Execution.failure
      rw [hf]
    unfold Execution.outcome at hfailE hfailF
    rw [@success_raised step _ G.actions.py] at hfailE hfailF
    rw [hfailE, hfailF]
    obtain ⟨u, v, hu, hv, _⟩ | ⟨p, hp, hq⟩ | ⟨f, g, hfe, hff, hsame⟩ := hbody.cases
    · rw [signals_of_ok he hu, signals_of_ok hf hv, hcalls, hu, hv]
      exact iff_of_true rfl rfl
    · rw [signals_of_error (.interrupt p) he hp rfl, signals_of_error (.interrupt p) hf hq rfl,
        hcalls, hp, hq]
      exact iff_of_true rfl rfl
    · rw [hfe, hff]
      have hrecord : (shown (recordStep G.actions.py E.world step E.state .failed
            (.error (classifyError f)) (some (f.stableCode G.actions.py.upper)))).calls =
          (shown (recordStep G.actions.py F.world step F.state .failed (.error (classifyError g))
            (some (g.stableCode G.actions.py.upper)))).calls := by
        rw [hsame.classifyError, hsame.stableCode]
        exact recordStep_signals h.state
      obtain ⟨hre, hrf⟩ | ⟨d, d', hre, hrf, hd⟩ := (recorded_same h.state h.record .failed).cases
      · rw [signals_of_error _ he hfe (failure_of_ok hre).2, signals_of_error _ hf hff (failure_of_ok hrf).2,
          hre, hrf]
        refine (leave_iff hsame.className ?_).trans (Option.some_inj.symm)
        intro htext
        have hthrown : Texts.thrown ⟨E.failureText, I⟩ (.failure f) =
            Texts.thrown ⟨F.failureText, I⟩ (.failure g) := by
          rw [Texts.thrown, Texts.thrown, Thrown.mk.injEq]
          exact ⟨hsame.className, htext⟩
        rw [(failure_of_ok hre).1, (failure_of_ok hrf).1, hrecord, hcalls, hthrown, hsame.stableCode]
      · rw [signals_of_error _ he hfe (failure_of_error hre).2,
          signals_of_error _ hf hff (failure_of_error hrf).2, hre, hrf]
        refine (leave_iff hd.className ?_).trans (Option.some_inj.symm)
        intro _
        rw [(failure_of_error hre).1, (failure_of_error hrf).1, hrecord, hcalls]

/-! The list of orders, whose query the database refuses. -/
section Refused

def queryExecutionError : Failure where
  className := "QueryExecutionError"
  code := some "QUERY_EXECUTION_FAILED"

/-- A question about one customer, and what the traceback says of the database's answer. -/
def refused (customer trace : String) : Execution where
  world := { ordersWorld 1 ["order_id"] with execute := fun _ _ => .error queryExecutionError }
  resume := none
  state := {
    runId := some "run-1"
    traceId := some "0123456789abcdef"
    question := some ("Show the orders of " ++ customer)
    guardedQuery := some ordersGuarded
    queryPolicy := some catalogPolicy }
  failureText _ := ⟨"The read-only query could not be executed.", trace⟩

theorem refused_agree (customer customer' trace trace' : String) :
    (refused customer trace).Agree ordersGraph .executeSql (refused customer' trace') where
  state := ⟨rfl, rfl, rfl, rfl⟩
  counts := rfl
  outcome := ⟨rfl, rfl, rfl⟩
  record _ := trivial
  ensurePending := trivial

def plainSpans : OpenTelemetry := ⟨fun _ status => status⟩

theorem refused_same :
    plainSpans.emitted ((refused "ALFKI" "").signals ordersGraph (fun _ => ⟨"", ""⟩) .executeSql) =
      plainSpans.emitted ((refused "ANATR" "").signals ordersGraph (fun _ => ⟨"", ""⟩) .executeSql) :=
  (telemetry_same_iff plainSpans (fun _ => ⟨"", ""⟩) ordersGraph .executeSql _ _
    (refused_agree "ALFKI" "ANATR" "" "")).mpr rfl

/-- The traceback goes on to the span, with the value that the database complains about. -/
theorem traceback_shown :
    ¬ ∀ (O : OpenTelemetry) (I : InterruptPayload → ErrorText) (G : AgentGraph) (step : StepName)
      (E F : Execution), E.Agree G step F →
      O.emitted (E.signals G I step) = O.emitted (F.signals G I step) := by
  intro h
  have hsame := h plainSpans (fun _ => ⟨"", ""⟩) ordersGraph .executeSql _ _
    (refused_agree "ALFKI" "ANATR" "invalid input syntax: ALFKI" "invalid input syntax: ANATR")
  have hevents := congrArg (fun e => e.span.map fun s => s.events.map SpanEvent.attributes) hsame
  revert hevents
  decide

end Refused

end DataCopilot.Agent
