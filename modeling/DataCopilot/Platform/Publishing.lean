import DataCopilot.Platform.EventStream
import DataCopilot.Platform.Worker

/-! What a subscriber can do to a call of `publish`: an exception that leaves the loop over the
emitters reaches the worker, whose handler fails the job, and the dispatcher's task, which ends. -/
namespace DataCopilot.Platform
open AnalysisJobStateMachine

namespace EventStream

/-- `broadcast`, with the exception that leaves it. -/
def tryBroadcast (event : AnalysisJobEvent) (wire : Nat → Option SendFailure) :
    List Nat → EventStream → EventStream × Option SendFailure
  | [], s => (s, none)
  | id :: rest, s =>
    match (s.emitters id).send event (wire id) with
    | (emitter, none) =>
      if isTerminal event.status then
        tryBroadcast event wire rest ((s.remove id).put id emitter.complete)
      else tryBroadcast event wire rest (s.put id emitter)
    | (emitter, some .ioException) =>
      tryBroadcast event wire rest ((s.remove id).put id emitter.completeWithError)
    | (_, some .illegalState) => (s, some .illegalState)

/-- The event of a signal, and the stream after it was stored, if it could be. -/
def recorded (maxLength : Nat) (s : EventStream) (signal : JobProgressSignal) (eventId : UUID)
    (redis : Bool) : AnalysisJobEvent × EventStream :=
  if redis then s.append maxLength signal eventId else (transientEvent signal eventId, s)

/-- `publish`: an event, or the exception that leaves the broadcast. -/
def tryPublish (maxLength : Nat) (s : EventStream) (signal : JobProgressSignal) (eventId : UUID)
    (redis : Bool) (wire : Nat → Option SendFailure) :
    EventStream × Except SendFailure AnalysisJobEvent :=
  let r := s.recorded maxLength signal eventId redis
  let b := tryBroadcast r.1 wire r.2.subscribers r.2
  (b.1, match b.2 with
    | none => .ok r.1
    | some failure => .error failure)

section Broadcast
variable {event : AnalysisJobEvent} {wire : Nat → Option SendFailure} {s : EventStream}
  {current : List Nat} {id : Nat}

/-- No emitter is found completed, or timed out, while it still stands in the list. -/
def Served (s : EventStream) (wire : Nat → Option SendFailure) (current : List Nat) : Prop :=
  ∀ id ∈ current, (s.emitters id).failure (wire id) ≠ some .illegalState

theorem try_broadcast_cons {rest : List Nat}
    (h : (s.emitters id).failure (wire id) ≠ some .illegalState) :
    tryBroadcast event wire (id :: rest) s = tryBroadcast event wire rest (s.offer event wire id) := by
  cases hf : (s.emitters id).failure (wire id) with
  | none =>
    by_cases ht : isTerminal event.status = true
    · simp [tryBroadcast, offer, SseEmitter.offered, SseEmitter.send, hf, ht]
    · simp [tryBroadcast, offer, SseEmitter.offered, SseEmitter.send, hf, ht]
  | some failure =>
    cases failure with
    | ioException => simp [tryBroadcast, offer, SseEmitter.offered, SseEmitter.send, hf]
    | illegalState => exact (h hf).elim

theorem try_broadcast_stop {rest : List Nat}
    (h : (s.emitters id).failure (wire id) = some .illegalState) :
    tryBroadcast event wire (id :: rest) s = (s, some .illegalState) := by
  simp [tryBroadcast, SseEmitter.send, h]

theorem try_broadcast_state :
    (tryBroadcast event wire current s).1 = broadcast event wire current s := by
  induction current generalizing s with
  | nil => rfl
  | cons id rest ih =>
    by_cases h : (s.emitters id).failure (wire id) = some .illegalState
    · rw [try_broadcast_stop h, broadcast_stop h]
    · rw [try_broadcast_cons h, broadcast_cons h]
      exact ih

theorem served_offer {rest : List Nat} (hid : id ∉ rest) :
    (s.offer event wire id).Served wire rest ↔ s.Served wire rest := by
  have he : ∀ j ∈ rest, (s.offer event wire id).emitters j = s.emitters j := by
    intro j hj
    have hne : j ≠ id := fun h => hid (h ▸ hj)
    rw [offer_emitters, if_neg hne]
  constructor
  · intro h j hj
    have hs := h j hj
    rwa [he j hj] at hs
  · intro h j hj
    rw [he j hj]
    exact h j hj

/-- An exception leaves the loop exactly if it meets an emitter that has ended. -/
theorem try_broadcast_served (hn : current.Nodup) :
    (tryBroadcast event wire current s).2 = none ↔ s.Served wire current := by
  induction current generalizing s with
  | nil => exact ⟨fun _ id h => (by cases h), fun _ => rfl⟩
  | cons id rest ih =>
    have hrest := List.nodup_cons.mp hn
    by_cases h : (s.emitters id).failure (wire id) = some .illegalState
    · rw [try_broadcast_stop h]
      constructor
      · intro hc
        cases hc
      · intro hs
        exact absurd h (hs id List.mem_cons_self)
    · rw [try_broadcast_cons h, ih hrest.2, served_offer hrest.1, Served, Served, List.forall_mem_cons]
      exact ⟨fun hs => ⟨h, hs⟩, fun hs => hs.2⟩

theorem reaches_of_served (h : s.Served wire current) (hid : id ∈ current) :
    reaches wire s current id = true := by
  induction current with
  | nil => cases hid
  | cons first rest ih =>
    have hfirst := h first List.mem_cons_self
    rw [reaches]
    simp only [Bool.and_eq_true, Bool.or_eq_true, decide_eq_true_eq]
    refine ⟨hfirst, ?_⟩
    cases List.mem_cons.mp hid with
    | inl he => exact .inl he
    | inr hm => exact .inr (ih (fun j hj => h j (List.mem_cons_of_mem first hj)) hm)

end Broadcast

/-- The call returns the event; those who could be sent it were sent it, and the others are no
longer in the list. -/
structure Delivered (s t : EventStream) (wire : Nat → Option SendFailure) (event : AnalysisJobEvent)
    (result : Except SendFailure AnalysisJobEvent) : Prop where
  returned : result = .ok event
  sent : ∀ id ∈ s.subscribers, (s.emitters id).failure (wire id) = none →
    (t.emitters id).sent = (s.emitters id).sent ++ [event]
  removed : ∀ id ∈ s.subscribers, (s.emitters id).failure (wire id) ≠ none → id ∉ t.subscribers

section Publish
variable {maxLength : Nat} {s : EventStream} {signal : JobProgressSignal} {eventId : UUID}
  {redis : Bool} {wire : Nat → Option SendFailure}

theorem recorded_kept : (s.recorded maxLength signal eventId redis).2.subscribers = s.subscribers ∧
    (s.recorded maxLength signal eventId redis).2.emitters = s.emitters := by
  cases redis with
  | true => exact ⟨rfl, rfl⟩
  | false => exact ⟨rfl, rfl⟩

theorem recorded_served :
    (s.recorded maxLength signal eventId redis).2.Served wire s.subscribers ↔
      s.Served wire s.subscribers := by
  rw [Served, Served, recorded_kept.2]

theorem try_publish_event (hs : s.subscribers.Nodup) :
    (s.tryPublish maxLength signal eventId redis wire).2 =
      .ok (s.recorded maxLength signal eventId redis).1 ↔ s.Served wire s.subscribers := by
  have hr : (tryBroadcast (s.recorded maxLength signal eventId redis).1 wire s.subscribers
      (s.recorded maxLength signal eventId redis).2).2 = none ↔ s.Served wire s.subscribers :=
    (try_broadcast_served hs).trans recorded_served
  rw [← hr, tryPublish, recorded_kept.1]
  simp only
  cases h : (tryBroadcast (s.recorded maxLength signal eventId redis).1 wire s.subscribers
      (s.recorded maxLength signal eventId redis).2).2 with
  | none => exact ⟨fun _ => rfl, fun _ => rfl⟩
  | some failure => exact ⟨fun hc => (by cases hc), fun hc => (by cases hc)⟩

/-- Publishing does all that it should exactly if every emitter in the list is open, or broken. -/
theorem delivered_iff (hs : s.subscribers.Nodup) :
    Delivered s (s.tryPublish maxLength signal eventId redis wire).1 wire
      (s.recorded maxLength signal eventId redis).1
      (s.tryPublish maxLength signal eventId redis wire).2 ↔ s.Served wire s.subscribers := by
  constructor
  · intro h
    exact (try_publish_event hs).mp h.returned
  · intro h
    have hstate : (s.tryPublish maxLength signal eventId redis wire).1 =
        broadcast (s.recorded maxLength signal eventId redis).1 wire s.subscribers
          (s.recorded maxLength signal eventId redis).2 := by
      rw [tryPublish, recorded_kept.1]
      exact try_broadcast_state
    have hreach : ∀ id ∈ s.subscribers, reaches wire (s.recorded maxLength signal eventId redis).2
        s.subscribers id = true := fun id hid => reaches_of_served (recorded_served.mpr h) hid
    refine ⟨(try_publish_event hs).mpr h, ?_, ?_⟩
    · intro id hid hf
      rw [hstate, broadcast_emitters hs, if_pos (hreach id hid), recorded_kept.2]
      obtain ⟨-, -, ho⟩ | ⟨hf', -⟩ | ⟨hf', -⟩ := (s.emitters id).offered_cases
        (s.recorded maxLength signal eventId redis).1 (wire id)
      · rw [ho]
      · rw [hf] at hf'
        cases hf'
      · rw [hf] at hf'
        cases hf'
    · intro id hid hf
      have hs' : (s.recorded maxLength signal eventId redis).2.subscribers.Nodup := by
        rw [recorded_kept.1]
        exact hs
      rw [hstate, mem_broadcast_subscribers hs hs']
      rintro ⟨-, hstays⟩
      have hstays := hstays (hreach id hid)
      rw [recorded_kept.2] at hstays
      obtain ⟨hf', -⟩ | ⟨-, -, ho⟩ | ⟨hf', -⟩ := (s.emitters id).offered_cases
        (s.recorded maxLength signal eventId redis).1 (wire id)
      · exact hf hf'
      · rw [ho] at hstays
        cases hstays
      · exact h id hid hf'

end Publish
end EventStream

/-- What a call of `publish` meets: the emitters in the list, each once, and what their connections
answer. -/
structure Audience where
  stream : EventStream
  eventId : UUID
  redis : Bool
  wire : Nat → Option SendFailure
  once : stream.subscribers.Nodup

namespace Audience
open EventStream
variable (maxLength : Nat) (a : Audience) (signal : JobProgressSignal)

def Served : Prop := a.stream.Served a.wire a.stream.subscribers

def published : EventStream × Except SendFailure AnalysisJobEvent :=
  a.stream.tryPublish maxLength signal a.eventId a.redis a.wire

/-- An exception reaches the caller of `publish`. -/
def throws : Bool :=
  match (a.published maxLength signal).2 with
  | .ok _ => false
  | .error _ => true

def Delivers : Prop :=
  Delivered a.stream (a.published maxLength signal).1 a.wire
    (a.stream.recorded maxLength signal a.eventId a.redis).1 (a.published maxLength signal).2

/-- The same call without subscribers. -/
def unheard : Audience :=
  { a with stream := { a.stream with subscribers := [] }, once := List.nodup_nil }

theorem throws_of_served (h : a.Served) : a.throws maxLength signal = false := by
  rw [throws, published, (try_publish_event a.once).mpr h]

theorem unheard_served : a.unheard.Served := fun id hid => by cases hid

end Audience

namespace AnalysisJobWorker
variable (maxLength now : Nat)

/-- The row after the handler of an exception. -/
def failed (errorCode : String) (job : AnalysisJob) : AnalysisJob :=
  match fail now errorCode job with
  | .ok (some next) => next
  | _ => job

/-- The row after a call of `execute` that nothing else moves. Two lookups and the agent's reply are
answered from outside; `planning` and `ending` are what the two calls of `publish` meet. -/
def executed (sourceRegistered userFound : Bool) (reply : Option (Option AgentRunResult))
    (planning ending : Audience) (job : AnalysisJob) : AnalysisJob :=
  match prepare now sourceRegistered userFound job with
  | .error e => failed now (caught e) job
  | .ok none => job
  | .ok (some prepared) =>
    if planning.throws maxLength (statusChanged .planning none) then
      failed now "AGENT_DISPATCH_FAILED" prepared
    else
      match reply with
      | none => failed now "AGENT_DISPATCH_FAILED" prepared
      | some result =>
        match persistResult now result prepared with
        | .error e => failed now (caught e) prepared
        | .ok none => prepared
        | .ok (some completed) =>
          if ending.throws maxLength (statusChanged completed.status none) then
            failed now "AGENT_DISPATCH_FAILED" completed
          else completed

/-- The row after the task that the dispatcher enqueues: it publishes first. -/
def dispatched (recovered sourceRegistered userFound : Bool) (reply : Option (Option AgentRunResult))
    (accepted planning ending : Audience) (job : AnalysisJob) : AnalysisJob :=
  if accepted.throws maxLength ⟨if recovered then "JOB_RECOVERED" else "JOB_ACCEPTED", job.status, none⟩
  then job
  else executed maxLength now sourceRegistered userFound reply planning ending job

theorem executed_unheard {sourceRegistered userFound : Bool} {reply : Option (Option AgentRunResult)}
    {planning ending : Audience} {job : AnalysisJob} (hp : planning.Served) (he : ending.Served) :
    executed maxLength now sourceRegistered userFound reply planning ending job =
      executed maxLength now sourceRegistered userFound reply planning.unheard ending.unheard job := by
  simp only [executed, planning.throws_of_served maxLength _ hp,
    planning.unheard.throws_of_served maxLength _ planning.unheard_served,
    ending.throws_of_served maxLength _ he,
    ending.unheard.throws_of_served maxLength _ ending.unheard_served]

theorem dispatched_unheard {recovered sourceRegistered userFound : Bool}
    {reply : Option (Option AgentRunResult)} {accepted planning ending : Audience} {job : AnalysisJob}
    (ha : accepted.Served) (hp : planning.Served) (he : ending.Served) :
    dispatched maxLength now recovered sourceRegistered userFound reply accepted planning ending job =
      dispatched maxLength now recovered sourceRegistered userFound reply accepted.unheard
        planning.unheard ending.unheard job := by
  rw [dispatched, dispatched, accepted.throws_of_served maxLength _ ha,
    accepted.unheard.throws_of_served maxLength _ accepted.unheard_served, executed_unheard _ _ hp he]

end AnalysisJobWorker

/-- Publishing is neither refused nor cut short exactly if no emitter in the list has ended; and then
the job ends as it would without subscribers. -/
theorem publishing_untouched (maxLength now : Nat) :
    (∀ (a : Audience) (signal : JobProgressSignal), a.Delivers maxLength signal ↔ a.Served) ∧
    ∀ (recovered sourceRegistered userFound : Bool) (reply : Option (Option AgentRunResult))
      (accepted planning ending : Audience) (job : AnalysisJob),
      accepted.Served → planning.Served → ending.Served →
      AnalysisJobWorker.dispatched maxLength now recovered sourceRegistered userFound reply accepted
        planning ending job =
      AnalysisJobWorker.dispatched maxLength now recovered sourceRegistered userFound reply
        accepted.unheard planning.unheard ending.unheard job := by
  constructor
  · intro a signal
    exact EventStream.delivered_iff a.once
  · intro recovered sourceRegistered userFound reply accepted planning ending job ha hp he
    exact AnalysisJobWorker.dispatched_unheard maxLength now ha hp he

/-- One emitter, which the container has closed and not yet taken out of the list. -/
def closedAudience : Audience where
  stream := { subscribers := [0], emitters := fun _ => { ended := some .closed }, opened := 1 }
  eventId := ⟨"7b1d4f6e-0000-4000-8000-00000000000c", by decide⟩
  redis := true
  wire _ := none
  once := by decide

/-- The agent would complete the job; the exception of `publish` fails it. -/
theorem closed_emitter_fails_job :
    ¬ closedAudience.Delivers 500 (statusChanged .planning none) ∧
    ∃ reply job,
      (AnalysisJobWorker.dispatched 500 0 false true true reply closedAudience.unheard closedAudience
        closedAudience.unheard job).status = .failed ∧
      (AnalysisJobWorker.dispatched 500 0 false true true reply closedAudience.unheard
        closedAudience.unheard closedAudience.unheard job).status = .completed := by
  constructor
  · intro h
    have hr := h.returned
    change Except.error SendFailure.illegalState = _ at hr
    cases hr
  · exact ⟨some (some ⟨"run-1", "COMPLETED", none⟩), { id := "job-1", createdBy := "user-1" }, rfl, rfl⟩

end DataCopilot.Platform
