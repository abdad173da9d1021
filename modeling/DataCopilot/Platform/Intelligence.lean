import DataCopilot.Library.Metering
import DataCopilot.Library.Transition
import DataCopilot.Platform.JobSearch
import DataCopilot.Platform.TraceContext

/-! `IntelligenceController`: calls at the replicas of the platform, counted in one Redis, handed on to the agent
service and audited. Redis runs the script of a call at most once, and a save of the audit that fails stores
nothing. -/
namespace DataCopilot.Platform
open Metering

/-- `CallerIdentity.Caller`, and the token that it is read from. -/
structure TokenCaller where
  userId : UUID
  tenantId : UUID
  roles : List String
  token : String

inductive IntelligenceEndpoint where
  | graph (operation : String)
  | search
  | mcp

namespace IntelligenceEndpoint

def path : IntelligenceEndpoint → String
  | graph operation => "/internal/v1/graph/" ++ operation
  | search => "/internal/v1/knowledge/search"
  | mcp => "/internal/mcp/"

def action : IntelligenceEndpoint → String
  | graph operation => "GRAPH_" ++ operation
  | search => "KNOWLEDGE_SEARCH"
  | mcp => "MCP_REQUEST"

def maxBody : IntelligenceEndpoint → Nat
  | graph _ => 150000
  | search => 20000
  | mcp => 32768

end IntelligenceEndpoint

structure IntelligenceCall where
  caller : TokenCaller
  endpoint : IntelligenceEndpoint
  body : String
  traceId : String

/-- How a call ends: `rejected` by `@PreAuthorize` or `@Size`, `raised` by an exception that leaves the controller.
The body of the agent service is there as its bytes. -/
inductive IntelligenceResponse where
  | rejected
  | notFound
  | accessDenied
  | rateLimited
  | relayed (status : Nat) (body : List UInt8)
  | unavailable
  | raised

structure AgentRequest where
  path : String
  authorization : String
  tenantId : UUID
  userId : UUID
  role : String
  callerToken : String
  traceparent : String
  body : String

/-- What `recordOutcome` stores, of the resource type `INTELLIGENCE`. -/
structure OutcomeAudit where
  tenantId : UUID
  actorUserId : UUID
  action : String
  outcome : String
  traceId : String
deriving DecidableEq

def outcomeOf (status : Nat) : String := if 200 ≤ status ∧ status < 300 then "SUCCESS" else "FAILED"

def IntelligenceResponse.outcomes : IntelligenceResponse → List String
  | rateLimited => ["RATE_LIMITED"]
  | relayed status _ => [outcomeOf status]
  | unavailable => ["FAILED"]
  | _ => []

/-- The call has not come to the exchange. -/
def IntelligenceResponse.stopped : IntelligenceResponse → Bool
  | rejected | notFound | accessDenied | rateLimited => true
  | _ => false

inductive IntelligencePhase where
  | accepted
  | limited
  | admitted
  | sent
  | received (status : Nat) (body : List UInt8)
  | unavailable
  | answered (response : IntelligenceResponse)

def intelligenceRateKey (tenantId userId : UUID) : String :=
  "copilot:intelligence:rate:" ++ tenantId.text ++ ":" ++ userId.text

namespace IntelligenceCall
variable (c : IntelligenceCall) (serviceToken : String)

def check : Option IntelligenceResponse :=
  if ¬ (∃ role ∈ c.caller.roles, role ∈ ["ADMIN", "ANALYST", "VIEWER"]) ∨ c.endpoint.maxBody < utf16Length c.body then
    some .rejected
  else
    match c.endpoint with
    | .graph operation =>
      if operation ∉ ["extract", "search", "path", "answer"] then some .notFound
      else if operation = "extract" ∧ "ADMIN" ∉ c.caller.roles then some .accessDenied
      else none
    | _ => none

def rateKey : String := intelligenceRateKey c.caller.tenantId c.caller.userId

def role : String :=
  if "ADMIN" ∈ c.caller.roles then "ADMIN" else if "ANALYST" ∈ c.caller.roles then "ANALYST" else "VIEWER"

def request (traceparent : String) : AgentRequest where
  path := c.endpoint.path
  authorization := "Bearer " ++ serviceToken
  tenantId := c.caller.tenantId
  userId := c.caller.userId
  role := c.role
  callerToken := c.caller.token
  traceparent := traceparent
  body := c.body

def audit (outcome : String) : OutcomeAudit where
  tenantId := c.caller.tenantId
  actorUserId := c.caller.userId
  action := c.endpoint.action
  outcome := outcome
  traceId := c.traceId

end IntelligenceCall

/-- The script of `executeLost` has run and its reply is lost, that of `executeFailed` has not run. -/
inductive IntelligenceMove where
  | request (i : Nat) (c : IntelligenceCall)
  | execute (i : Nat)
  | executeLost (i : Nat)
  | executeFailed (i : Nat)
  | send (i : Nat) (draws : List UUID)
  | reply (i : Nat) (status : Nat) (body : List UInt8)
  | fail (i : Nat)
  | recordOutcome (i : Nat)
  | recordFailed (i : Nat)
  | tick (now : Nat)

/-- `meter` are the keys of Redis, by its clock in milliseconds. What is sent and recorded stands with the call. -/
structure Intelligence where
  meter : Meter String Nat := {}
  calls : Nat → Option (IntelligenceCall × IntelligencePhase) := fun _ => none
  sent : List (Nat × AgentRequest) := []
  audits : List (Nat × OutcomeAudit) := []

namespace Intelligence
variable (J : JavaText) (serviceToken : String) (s : Intelligence) (i : Nat) (c : IntelligenceCall)

def put (phase : IntelligencePhase) : Intelligence :=
  { s with calls := Function.update s.calls i (some (c, phase)) }

def incr : Intelligence := { s with meter := s.meter.hit 60000 i c.rateKey }

def number : Nat := (count 60000 s.meter.now (s.meter.windows c.rateKey)).count

def record (outcome : String) : Intelligence := { s with audits := (i, c.audit outcome) :: s.audits }

def next : IntelligenceMove → Option Intelligence
  | .request i c =>
    match s.calls i with
    | some _ => none
    | none => some (s.put i c ((c.check.map .answered).getD .accepted))
  | .execute i =>
    match s.calls i with
    | some (c, .accepted) => some ((s.incr i c).put i c (if 60 < s.number c then .limited else .admitted))
    | _ => none
  | .executeLost i =>
    match s.calls i with
    | some (c, .accepted) => some ((s.incr i c).put i c (.answered .raised))
    | _ => none
  | .executeFailed i =>
    match s.calls i with
    | some (c, .accepted) => some (s.put i c (.answered .raised))
    | _ => none
  | .send i draws =>
    match s.calls i with
    | some (c, .admitted) =>
      (TraceContext.childTraceparent J (some c.traceId) "01" draws).map fun traceparent =>
        { s.put i c .sent with sent := (i, c.request serviceToken traceparent) :: s.sent }
    | _ => none
  | .reply i status body =>
    match s.calls i with
    | some (c, .sent) => some (s.put i c (if 2000000 < body.length then .unavailable else .received status body))
    | _ => none
  | .fail i =>
    match s.calls i with
    | some (c, .admitted) | some (c, .sent) => some (s.put i c .unavailable)
    | _ => none
  | .recordOutcome i =>
    match s.calls i with
    | some (c, .limited) => some ((s.record i c "RATE_LIMITED").put i c (.answered .rateLimited))
    | some (c, .received status body) =>
      some ((s.record i c (outcomeOf status)).put i c (.answered (.relayed status body)))
    | some (c, .unavailable) => some ((s.record i c "FAILED").put i c (.answered .unavailable))
    | _ => none
  | .recordFailed i =>
    match s.calls i with
    | some (c, .limited) => some (s.put i c (.answered .raised))
    | some (c, .received _ _) => some (s.put i c .unavailable)
    | some (c, .unavailable) => some (s.put i c (.answered .raised))
    | _ => none
  | .tick now => if s.meter.now ≤ now then some { s with meter := s.meter.tick now } else none

def system : Transition.System Intelligence IntelligenceMove where
  init s := s = {}
  step s m t := s.next J serviceToken m = some t

end Intelligence
end DataCopilot.Platform
