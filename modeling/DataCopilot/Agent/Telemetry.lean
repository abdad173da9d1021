import DataCopilot.Agent.Graph
import DataCopilot.Library.Dict

/-! What a node shows while it runs: the step records, the labels of the metrics, and the
span. The text of an exception reaches the span only. -/
namespace DataCopilot.Agent
open Sql Effects AgentState

/-- `str(error)`, and the traceback as it is written out. -/
@[ext] structure ErrorText where
  message : String
  stackTrace : String
deriving DecidableEq

/-- An exception as a span receives it. -/
structure Thrown where
  className : String
  text : ErrorText
deriving DecidableEq

inductive SpanCall where
  | start (name traceId : String) (attributes : List (String × String))
  | setAttribute (key value : String)
  | setStatus (description : String)
  | recordException (e : Thrown) (attributes : List (String × String))
  | leave (e : Thrown)

inductive Signal where
  | record (step : AgentStepRecord)
  | duration (node : StepName) (status : String)
  | error (node : StepName) (errorCode : String)
  | rejection (reasonCode : String)
  | tokens (provider model direction : String)
  | span (c : SpanCall)

def Call.signal : Call → Option Signal
  | .record step => some (.record step)
  | _ => none

/-- The sink is the only outside of a node that counts as telemetry. -/
def shown {α : Type} (x : Effect Call Stop α) : Effect Signal Stop α :=
  ⟨x.calls.filterMap Call.signal, x.result⟩

def emit (s : Signal) : Effect Signal Stop Unit := .call s (.ok ())

def emitAll (signals : List Signal) : Effect Signal Stop Unit := ⟨signals, .ok ()⟩

/-- The policy that stops a request is counted in `classify` and in `guard_sql`, with the reason that the update
has. -/
def rejections (stepName : StepName) (update : AgentState) : List Signal :=
  if stepName = .classify ∧ update.sqlRisk = some .blocked ∨ stepName = .guardSql ∧ update.sqlRisk = some .repair then
    (update.riskReasons.getD []).map .rejection
  else []

/-- `record_model_tokens` for each count that the provider has reported: provider, model and direction. -/
def modelTokens (counts : List (String × String × String)) : List Signal :=
  counts.map fun c => .tokens c.1 c.2.1 c.2.2

/-- `interruptText` is the text that LangGraph gives an interrupt. -/
structure Texts where
  failure : Failure → ErrorText
  interrupt : InterruptPayload → ErrorText

def Texts.thrown (T : Texts) : Stop → Thrown
  | .failure f => ⟨f.className, T.failure f⟩
  | .interrupt p => ⟨"GraphInterrupt", T.interrupt p⟩

section Step
variable (py : Python) (w : World) (T : Texts)

def isTraceId (value : String) : Bool :=
  value.length = 32 && value.toList.all fun c => c.isDigit || ('a' ≤ c && c ≤ 'f')

def normalizeTraceId (value : String) : String :=
  let lowered := py.lower value
  if isTraceId lowered ∧ lowered ≠ "00000000000000000000000000000000" then lowered
  else String.ofList ((py.sha256 value).toList.take 32)

/-- The span is left by an exception when its body raises one. -/
def agentNodeSpan {α : Type} (node : StepName) (traceId : String) (body : Effect Signal Stop α) :
    Effect Signal Stop α := do
  emit (.span (.start ("agent.node." ++ node.text) (normalizeTraceId py traceId)
    [("agent.node", node.text)]))
  body.handle fun stop => do
    emit (.span (.leave (T.thrown stop)))
    .raise stop

def markSpanError (f : Failure) (errorCode : String) : Effect Signal Stop Unit := do
  emit (.span (.setAttribute "error.type" errorCode))
  emit (.span (.setStatus errorCode))
  emit (.span (.recordException (T.thrown (.failure f)) [("exception.escaped", "True")]))

variable (stepName : StepName) (state : AgentState) (counts : List (String × String × String))

/-- The body of the `try`. `counts` are the token counts of the model calls in it. -/
def observedSuccess (operation : AgentState → Effect Call Stop AgentState) :
    Effect Signal Stop AgentState := do
  emitAll (modelTokens counts)
  let update ← shown (operation state)
  emitAll (rejections stepName update)
  shown (recordStep py w stepName state .succeeded (.state (stateSummary py (state.merge update))) none)
  emit (.duration stepName "succeeded")
  pure update

/-- Its handlers. -/
def observedFailure : Stop → Effect Signal Stop AgentState
  | .interrupt p => .raise (.interrupt p)
  | .failure f => do
    let errorCode := f.stableCode py.upper
    shown (recordStep py w stepName state .failed (.error (classifyError f)) (some errorCode))
    emit (.duration stepName "failed")
    emit (.error stepName errorCode)
    markSpanError T f errorCode
    .raise (.failure f)

/-- `timed_step` with all it emits. -/
def observedStep (operation : AgentState → Effect Call Stop AgentState) :
    Effect Signal Stop AgentState := do
  let traceId ← shown (need (AgentState.get "trace_id" state.traceId))
  agentNodeSpan py T stepName traceId
    ((observedSuccess py w stepName state counts operation).handle (observedFailure py w T stepName state))

end Step

structure SpanEvent where
  name : String
  attributes : List (String × String)

structure Span where
  name : String
  traceId : String
  attributes : List (String × String)
  status : Option String := none
  events : List SpanEvent := []

/-- What `record_exception` stores. -/
def exceptionEvent (e : Thrown) (attributes : List (String × String)) : SpanEvent where
  name := "exception"
  attributes := [("exception.type", e.className), ("exception.message", e.text.message),
    ("exception.stacktrace", e.text.stackTrace)] ++ attributes

/-- An exception that leaves `start_as_current_span` is recorded as an event. What becomes of
the status then is left open. -/
structure OpenTelemetry where
  leftStatus : Thrown → Option String → Option String

def OpenTelemetry.apply (O : OpenTelemetry) : SpanCall → Option Span → Option Span
  | .start name traceId attributes, _ => some { name, traceId, attributes }
  | .setAttribute key value, s => s.map fun s =>
    { s with attributes := Dict.entries (s.attributes ++ [(key, value)]) }
  | .setStatus description, s => s.map fun s => { s with status := some description }
  | .recordException e attributes, s => s.map fun s =>
    { s with events := s.events ++ [exceptionEvent e attributes] }
  | .leave e, s => s.map fun s =>
    { s with
      status := O.leftStatus e s.status
      events := s.events ++ [exceptionEvent e []] }

/-- All that a node has emitted. -/
structure Emitted where
  records : List AgentStepRecord
  labels : List (List String)
  span : Option Span

def Signal.step : Signal → Option AgentStepRecord
  | .record step => some step
  | _ => none

def Signal.labels : Signal → Option (List String)
  | .duration node status => some ["copilot_agent_node_duration_seconds", node.text, status]
  | .error node errorCode => some ["copilot_agent_node_errors_total", node.text, errorCode]
  | .rejection reasonCode => some ["copilot_agent_sql_rejections_total", reasonCode]
  | .tokens provider model direction => some ["copilot_agent_model_tokens_total", provider, model, direction]
  | _ => none

def Signal.spanCall : Signal → Option SpanCall
  | .span c => some c
  | _ => none

def OpenTelemetry.emitted (O : OpenTelemetry) (signals : List Signal) : Emitted where
  records := signals.filterMap Signal.step
  labels := signals.filterMap Signal.labels
  span := (signals.filterMap Signal.spanCall).foldr O.apply none

/-- `x` shows what `y` does: it ends in the same way, and with the same step records. -/
structure Shows {α : Type} (x : Effect Signal Stop α) (y : Effect Call Stop α) : Prop where
  result : x.result = y.result
  records : x.calls.filterMap Signal.step = (y.calls.filterMap Call.signal).filterMap Signal.step

namespace Shows
variable {α β : Type} {x : Effect Signal Stop α} {y : Effect Call Stop α}

theorem of_shown (y : Effect Call Stop α) : Shows (shown y) y := ⟨rfl, rfl⟩

theorem bind {f : α → Effect Signal Stop β} {g : α → Effect Call Stop β} (h : Shows x y)
    (hf : ∀ a, Shows (f a) (g a)) : Shows (x >>= f) (y >>= g) := by
  cases hy : y.result with
  | error e =>
    have hx : x.result = .error e := h.result.trans hy
    constructor
    · rw [(Effect.bind_of_error hx).2, (Effect.bind_of_error hy).2]
    · rw [(Effect.bind_of_error hx).1, (Effect.bind_of_error hy).1]
      exact h.records
  | ok a =>
    have hx : x.result = .ok a := h.result.trans hy
    constructor
    · rw [(Effect.bind_of_ok hx).2, (Effect.bind_of_ok hy).2]
      exact (hf a).result
    · rw [(Effect.bind_of_ok hx).1, (Effect.bind_of_ok hy).1, List.filterMap_append,
        List.filterMap_append, List.filterMap_append, h.records, (hf a).records]

theorem handle {f : Stop → Effect Signal Stop α} {g : Stop → Effect Call Stop α} (h : Shows x y)
    (hf : ∀ e, Shows (f e) (g e)) : Shows (x.handle f) (y.handle g) := by
  cases hy : y.result with
  | ok a =>
    have hx : x.result = .ok a := h.result.trans hy
    constructor
    · rw [(Effect.handle_of_ok hx).2, (Effect.handle_of_ok hy).2]
    · rw [(Effect.handle_of_ok hx).1, (Effect.handle_of_ok hy).1]
      exact h.records
  | error e =>
    have hx : x.result = .error e := h.result.trans hy
    constructor
    · rw [(Effect.handle_of_error hx).2, (Effect.handle_of_error hy).2]
      exact (hf e).result
    · rw [(Effect.handle_of_error hx).1, (Effect.handle_of_error hy).1, List.filterMap_append,
        List.filterMap_append, List.filterMap_append, h.records, (hf e).records]

/-- What records nothing may come first. -/
theorem after {z : Effect Signal Stop Unit} (hz : z.result = .ok ())
    (hr : z.calls.filterMap Signal.step = []) {f : Unit → Effect Signal Stop α} (h : Shows (f ()) y) :
    Shows (z >>= f) y := by
  constructor
  · rw [(Effect.bind_of_ok hz).2]
    exact h.result
  · rw [(Effect.bind_of_ok hz).1, List.filterMap_append, h.records, hr, List.append_nil]

theorem afterAll {l : List Signal} (hr : l.filterMap Signal.step = []) {f : Unit → Effect Signal Stop α}
    (h : Shows (f ()) y) : Shows (emitAll l >>= f) y := by
  have hcalls : (emitAll l).calls.filterMap Signal.step = [] := hr
  exact .after rfl hcalls h

end Shows

section Step
variable {py : Python} {w : World} {T : Texts} {stepName : StepName} {state : AgentState}
  {operation : AgentState → Effect Call Stop AgentState} {counts : List (String × String × String)}

theorem modelTokens_step : (modelTokens counts).filterMap Signal.step = [] := by
  rw [modelTokens, List.filterMap_map]
  exact List.filterMap_eq_nil_iff.mpr fun _ _ => rfl

theorem rejections_step {u : AgentState} : (rejections stepName u).filterMap Signal.step = [] := by
  unfold rejections
  split
  · rw [List.filterMap_map]
    exact List.filterMap_eq_nil_iff.mpr fun _ _ => rfl
  · rfl

theorem agentNodeSpan_shows {traceId : String} {x : Effect Signal Stop AgentState}
    {y : Effect Call Stop AgentState} (h : Shows x y) :
    Shows (agentNodeSpan py T stepName traceId x) y := by
  refine .after rfl rfl ?_
  rw [← @Effect.handle_raise _ _ _ y]
  exact h.handle fun e => .after rfl rfl ⟨rfl, rfl⟩

theorem observedFailure_shows (e : Stop) :
    Shows (observedFailure py w T stepName state e) (giveUp py w stepName state e) := by
  cases e with
  | interrupt p => exact ⟨rfl, rfl⟩
  | failure f =>
    exact (Shows.of_shown _).bind fun _ =>
      .after rfl rfl (.after rfl rfl (.after rfl rfl ⟨rfl, rfl⟩))

/-- What is shown is `timed_step` itself, with the metrics and the span beside it. -/
theorem observedStep_shows :
    Shows (observedStep py w T stepName state counts operation) (timedStep py w stepName state operation) := by
  refine (Shows.of_shown _).bind fun _ => agentNodeSpan_shows (Shows.handle ?_ observedFailure_shows)
  refine .afterAll modelTokens_step ((Shows.of_shown _).bind fun _ => ?_)
  exact .afterAll rejections_step ((Shows.of_shown _).bind fun _ => .after rfl rfl ⟨rfl, rfl⟩)

end Step

end DataCopilot.Agent
