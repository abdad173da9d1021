import DataCopilot.Library.Lease
import DataCopilot.Library.Uuid
import DataCopilot.Platform.Worker

/-! The leases that keep two workers from one job: the calls of `execute` at all replicas, the
commands that they send to Redis, and the time. -/
namespace DataCopilot.Platform
open Lease (Locks)

/-- Where a call of `execute` stands with its lease. `working` is everything inside the `try`;
with `given` the lease came from Redis and not from an exception. -/
inductive LeasePhase where
  | acquiring
  | answered (found : Bool)
  | skipped
  | working (given : Bool)
  | releasing
  | returned
deriving DecidableEq

/-- `setPending` and `deletePending` are commands that are sent and not yet run: Redis may run them after
the client has given them up, or never. The times of the runs are kept. -/
structure LeaseCall where
  jobId : UUID
  owner : UUID
  phase : LeasePhase := .acquiring
  setPending : Bool := true
  deletePending : Bool := false
  set : Option (Nat × Bool) := none
  deleted : Option Nat := none

inductive LeaseMove where
  | begin (i : Nat) (jobId owner : UUID)
  | tick (d : Nat)
  /-- Redis runs `SET key owner NX PX`. -/
  | setIfAbsent (i : Nat)
  | reply (i : Nat)
  | fail (i : Nat)
  | finish (i : Nat)
  /-- Redis runs the release script. -/
  | delete (i : Nat)
  /-- The release has returned or has thrown. -/
  | ends (i : Nat)

/-- The keys of Redis that the leases are, and the calls of `execute`. -/
structure Leasing where
  locks : Locks String String := {}
  calls : Nat → Option LeaseCall := fun _ => none

namespace JobDispatchLease

def key (jobId : UUID) : String := "analysis:dispatch:" ++ jobId.text

theorem named_inj (pre : String) {a b : UUID} (h : pre ++ a.text = pre ++ b.text) : a = b :=
  UUID.ext ((String.append_right_inj pre).mp h)

theorem key_inj {a b : UUID} (h : key a = key b) : a = b := named_inj "analysis:dispatch:" h

end JobDispatchLease

namespace Leasing
open JobDispatchLease (key)
variable (leaseDuration : Nat) (s : Leasing) (i : Nat)

def put (c : LeaseCall) : Leasing := { s with calls := Function.update s.calls i (some c) }

/-- The reply of a command that the client still waits for. -/
def hear (found : Bool) : LeasePhase → LeasePhase
  | .acquiring => .answered found
  | phase => phase

def next : LeaseMove → Option Leasing
  | .begin i jobId owner =>
    match s.calls i with
    | some _ => none
    | none => some (s.put i { jobId, owner })
  | .tick d => some { s with locks := s.locks.tick d }
  | .setIfAbsent i =>
    match s.calls i with
    | some c =>
      if c.setPending then
        let (locks, found) := s.locks.setIfAbsent leaseDuration (key c.jobId) c.owner.text
        some ({ s with locks }.put i { c with
          setPending := false, set := some (s.locks.now, found), phase := hear found c.phase })
      else none
    | none => none
  | .reply i =>
    match s.calls i with
    | some c =>
      match c.phase with
      | .answered found =>
        some (s.put i { c with
          phase := if JobDispatchLease.acquire (some (some found)) then .working true else .skipped })
      | _ => none
    | none => none
  | .fail i =>
    match s.calls i with
    | some c =>
      match c.phase with
      | .acquiring | .answered _ =>
        some (s.put i { c with phase := if JobDispatchLease.acquire none then .working false else .skipped })
      | _ => none
    | none => none
  | .finish i =>
    match s.calls i with
    | some c =>
      match c.phase with
      | .working _ => some (s.put i { c with phase := .releasing, deletePending := true })
      | _ => none
    | none => none
  | .delete i =>
    match s.calls i with
    | some c =>
      if c.deletePending then
        some ({ s with locks := s.locks.deleteIfOwned (key c.jobId) c.owner.text }.put i { c with
          deletePending := false, deleted := some s.locks.now })
      else none
    | none => none
  | .ends i =>
    match s.calls i with
    | some c =>
      match c.phase with
      | .releasing => some (s.put i { c with phase := .returned })
      | _ => none
    | none => none

def system : Transition.System Leasing LeaseMove where
  init s := s = {}
  step s m t := s.next leaseDuration m = some t

end Leasing
end DataCopilot.Platform
