import Mathlib.Data.List.Nodup
import Mathlib.Logic.Function.Basic
import DataCopilot.Platform.Creation
import DataCopilot.Platform.Publication

/-! `AnalysisEventStreamService` over `RedisAnalysisEventStore`, for one job. Publishing and
subscribing hold the lock of the job; what the container does to an emitter does not. -/
namespace DataCopilot.Platform
open AnalysisJobStateMachine

/-- The payload of a signal, or that of a snapshot, whose source is PostgreSQL. -/
inductive EventPayload where
  | progress (errorCode : Option String)
  | postgresql (replayAvailable : Bool)
deriving DecidableEq

structure AnalysisJobEvent where
  eventVersion : String := "1.0"
  eventId : UUID
  sequence : Nat
  type : String
  status : AnalysisJobStatus
  payload : EventPayload
deriving DecidableEq

structure AnalysisJobResource where
  version : Nat := 0
  status : AnalysisJobStatus
deriving DecidableEq

/-- `Character.isWhitespace`. -/
def isWhitespace (c : Char) : Bool :=
  let n := c.toNat
  (9 ≤ n && n ≤ 13) || (28 ≤ n && n ≤ 32) || n == 5760 || (8192 ≤ n && n ≤ 8202 && n != 8199) ||
    n == 8232 || n == 8233 || n == 8287 || n == 12288

def isBlank (text : String) : Bool := text.toList.all isWhitespace

theorem uuid_not_blank (u : UUID) : isBlank u.text = false := by
  have hlength := u.length_text
  cases htext : u.text.toList with
  | nil =>
    rw [htext] at hlength
    cases hlength
  | cons c rest =>
    have hc := u.chars c (by rw [htext]; exact List.mem_cons_self)
    have hspace : isWhitespace c = false := by
      simp only [isWhitespace, Bool.or_eq_false_iff, Bool.and_eq_false_iff, decide_eq_false_iff_not,
        beq_eq_false_iff_ne, bne_eq_false_iff_eq]
      omega
    rw [isBlank, htext, List.all_cons, hspace]
    rfl

/-- What `SseEmitter.send` throws. -/
inductive SendFailure where
  | ioException
  | illegalState
deriving DecidableEq

/-- Completed by the service, or closed by the container. -/
inductive EmitterEnd where
  | completed
  | completedWithError
  | closed
deriving DecidableEq

/-- An emitter with the `Last-Event-ID` of its request, and what its `send` was called with.
`torn` is the event that was being written when the connection broke. -/
structure SseEmitter where
  lastEventId : Option String := none
  sent : List AnalysisJobEvent := []
  torn : Option AnalysisJobEvent := none
  ended : Option EmitterEnd := none
deriving DecidableEq

namespace SseEmitter

/-- An emitter that has ended refuses to send. -/
def failure (wire : Option SendFailure) (emitter : SseEmitter) : Option SendFailure :=
  if emitter.ended = none then wire else some .illegalState

def send (event : AnalysisJobEvent) (wire : Option SendFailure) (emitter : SseEmitter) :
    SseEmitter × Option SendFailure :=
  match emitter.failure wire with
  | none => ({ emitter with sent := emitter.sent ++ [event] }, none)
  | some .ioException => ({ emitter with torn := some event }, some .ioException)
  | some .illegalState => (emitter, some .illegalState)

def sendAll : List AnalysisJobEvent → (Nat → Option SendFailure) → SseEmitter →
    SseEmitter × Option SendFailure
  | [], _, emitter => (emitter, none)
  | event :: rest, wire, emitter =>
    match emitter.send event (wire 0) with
    | (emitter, none) => sendAll rest (fun k => wire (k + 1)) emitter
    | (emitter, some failure) => (emitter, some failure)

def finish (how : EmitterEnd) (emitter : SseEmitter) : SseEmitter :=
  if emitter.ended = none then { emitter with ended := some how } else emitter

def complete : SseEmitter → SseEmitter := finish .completed

def completeWithError : SseEmitter → SseEmitter := finish .completedWithError

end SseEmitter

def after (events : List AnalysisJobEvent) (lastEventId : Option String) : List AnalysisJobEvent :=
  match lastEventId.filter (!isBlank ·) with
  | none => events
  | some id => search id events
where
  search (id : String) : List AnalysisJobEvent → List AnalysisJobEvent
    | [] => []
    | event :: rest => if event.eventId.text = id then rest else search id rest

def contains (events : List AnalysisJobEvent) (eventId : String) : Bool :=
  events.any (·.eventId.text = eventId)

def transientEvent (signal : JobProgressSignal) (eventId : UUID) : AnalysisJobEvent where
  eventId := eventId
  sequence := 0
  type := signal.type
  status := signal.status
  payload := .progress signal.errorCode

def snapshotEvent (snapshot : AnalysisJobResource) (eventId : UUID) : AnalysisJobEvent where
  eventId := eventId
  sequence := snapshot.version
  type := "JOB_SNAPSHOT"
  status := snapshot.status
  payload := .postgresql false

/-- `retained` and `sequence` are the keys of Redis. `subscribers` stand in the order in which
they came; `opened` emitters have been made, and they are numbered. -/
structure EventStream where
  retained : List AnalysisJobEvent := []
  sequence : Nat := 0
  subscribers : List Nat := []
  emitters : Nat → SseEmitter := fun _ => {}
  opened : Nat := 0

namespace EventStream
variable (maxLength : Nat) (s : EventStream)

/-- The script keeps the newest `maxLength` events. -/
def append (signal : JobProgressSignal) (eventId : UUID) : AnalysisJobEvent × EventStream :=
  let sequence := s.sequence + 1
  let event := { transientEvent signal eventId with sequence := sequence }
  let events := s.retained ++ [event]
  (event, { s with
    sequence := sequence
    retained := events.drop (events.length - maxLength) })

def put (id : Nat) (emitter : SseEmitter) : EventStream :=
  { s with emitters := Function.update s.emitters id emitter }

def remove (id : Nat) : EventStream := { s with subscribers := s.subscribers.erase id }

/-- Nothing but an `IOException` is caught. -/
def broadcast (event : AnalysisJobEvent) (wire : Nat → Option SendFailure) :
    List Nat → EventStream → EventStream
  | [], s => s
  | id :: rest, s =>
    match (s.emitters id).send event (wire id) with
    | (emitter, none) =>
      if isTerminal event.status then
        broadcast event wire rest ((s.remove id).put id emitter.complete)
      else broadcast event wire rest (s.put id emitter)
    | (emitter, some .ioException) =>
      broadcast event wire rest ((s.remove id).put id emitter.completeWithError)
    | (_, some .illegalState) => s

/-- `redis` tells whether Redis answers. -/
def publish (signal : JobProgressSignal) (eventId : UUID) (redis : Bool)
    (wire : Nat → Option SendFailure) : AnalysisJobEvent × EventStream :=
  let (event, s) :=
    if redis then s.append maxLength signal eventId else (transientEvent signal eventId, s)
  (event, broadcast event wire s.subscribers s)

def safeRead (redis : Bool) : List AnalysisJobEvent := if redis then s.retained else []

end EventStream

/-- What `subscribe` sends first. -/
def greeting (snapshot : AnalysisJobResource) (eventId : UUID) (lastEventId : Option String)
    (events : List AnalysisJobEvent) : List AnalysisJobEvent :=
  let replay := after events lastEventId
  let unknown := (lastEventId.filter (!isBlank ·)).any fun id => replay = [] && !contains events id
  if events = [] ∨ unknown = true then [snapshotEvent snapshot eventId] else replay

namespace EventStream
variable (maxLength : Nat) (s : EventStream)

/-- `eventId` is for the snapshot, should it be sent. -/
def subscribe (snapshot : AnalysisJobResource) (eventId : UUID) (lastEventId : Option String)
    (redis : Bool) (wire : Nat → Option SendFailure) : EventStream :=
  let id := s.opened
  let first := greeting snapshot eventId lastEventId (s.safeRead redis)
  let s := { s with subscribers := s.subscribers ++ [id], opened := s.opened + 1 }
  match SseEmitter.sendAll first wire { lastEventId := lastEventId } with
  | (emitter, none) =>
    if isTerminal snapshot.status then (s.remove id).put id emitter.complete else s.put id emitter
  | (emitter, some .ioException) => (s.remove id).put id emitter.completeWithError
  | (emitter, some .illegalState) => s.put id emitter

/-- `subscribe` throws, and the request gets no emitter. -/
def throws (snapshot : AnalysisJobResource) (eventId : UUID) (lastEventId : Option String)
    (redis : Bool) (wire : Nat → Option SendFailure) : Bool :=
  let first := greeting snapshot eventId lastEventId (s.safeRead redis)
  (SseEmitter.sendAll first wire { lastEventId := lastEventId }).2 = some .illegalState

/-- The container closes an emitter: a timeout, or the end of the connection. -/
def close (id : Nat) : EventStream := s.put id ((s.emitters id).finish .closed)

/-- The callbacks of an emitter that has ended. -/
def onClose (id : Nat) : Option EventStream :=
  if (s.emitters id).ended = none then none else some (s.remove id)

def expire : EventStream := { s with retained := [], sequence := 0 }

variable {maxLength s} {id j : Nat} {emitter : SseEmitter}

@[simp] theorem put_retained : (s.put id emitter).retained = s.retained := rfl
@[simp] theorem put_sequence : (s.put id emitter).sequence = s.sequence := rfl
@[simp] theorem put_subscribers : (s.put id emitter).subscribers = s.subscribers := rfl
@[simp] theorem put_opened : (s.put id emitter).opened = s.opened := rfl
@[simp] theorem remove_retained : (s.remove id).retained = s.retained := rfl
@[simp] theorem remove_sequence : (s.remove id).sequence = s.sequence := rfl
@[simp] theorem remove_subscribers : (s.remove id).subscribers = s.subscribers.erase id := rfl
@[simp] theorem remove_opened : (s.remove id).opened = s.opened := rfl
@[simp] theorem remove_emitters : (s.remove id).emitters = s.emitters := rfl

@[simp] theorem put_emitters : (s.put id emitter).emitters j =
    if j = id then emitter else s.emitters j := by
  by_cases h : j = id
  · rw [if_pos h, h]
    exact Function.update_self id emitter s.emitters
  · rw [if_neg h]
    exact Function.update_of_ne h emitter s.emitters

end EventStream

section Sending
variable {event : AnalysisJobEvent} {failure : Option SendFailure} {emitter : SseEmitter}

namespace SseEmitter

@[simp] theorem finish_sent {how : EmitterEnd} : (emitter.finish how).sent = emitter.sent := by
  unfold finish
  by_cases h : emitter.ended = none
  · rw [if_pos h]
  · rw [if_neg h]

@[simp] theorem finish_torn {how : EmitterEnd} : (emitter.finish how).torn = emitter.torn := by
  unfold finish
  by_cases h : emitter.ended = none
  · rw [if_pos h]
  · rw [if_neg h]

@[simp] theorem finish_lastEventId {how : EmitterEnd} :
    (emitter.finish how).lastEventId = emitter.lastEventId := by
  unfold finish
  by_cases h : emitter.ended = none
  · rw [if_pos h]
  · rw [if_neg h]

theorem finish_ended {how : EmitterEnd} :
    (emitter.finish how).ended = some (emitter.ended.getD how) := by
  unfold finish
  cases h : emitter.ended with
  | none => simp
  | some e => simp [h]

/-- What one event does to an emitter in the list, with the emitter's place in it. -/
def offered (event : AnalysisJobEvent) (wire : Option SendFailure) (emitter : SseEmitter) :
    SseEmitter × Bool :=
  match emitter.send event wire with
  | (emitter, none) =>
    if isTerminal event.status then (emitter.complete, false) else (emitter, true)
  | (emitter, some .ioException) => (emitter.completeWithError, false)
  | (emitter, some .illegalState) => (emitter, true)

/-- The event is sent, or breaks the connection, or throws past the loop. -/
theorem offered_cases (event : AnalysisJobEvent) (wire : Option SendFailure) (emitter : SseEmitter) :
    (emitter.failure wire = none ∧ emitter.ended = none ∧ emitter.offered event wire =
      ({ emitter with
        sent := emitter.sent ++ [event]
        ended := if isTerminal event.status then some .completed else none },
        !isTerminal event.status)) ∨
    (emitter.failure wire = some .ioException ∧ emitter.ended = none ∧ emitter.offered event wire =
      ({ emitter with torn := some event, ended := some .completedWithError }, false)) ∨
    (emitter.failure wire = some .illegalState ∧ emitter.offered event wire = (emitter, true)) := by
  cases he : emitter.ended with
  | some how =>
    have hf : emitter.failure wire = some .illegalState := by simp [failure, he]
    exact .inr (.inr ⟨hf, by simp [offered, send, hf]⟩)
  | none =>
    have hf : emitter.failure wire = wire := if_pos he
    cases wire with
    | none =>
      by_cases ht : isTerminal event.status = true
      · exact .inl ⟨hf, rfl, by simp [offered, send, hf, ht, complete, finish, he]⟩
      · exact .inl ⟨hf, rfl, by simp [offered, send, hf, ht, he]⟩
    | some failure =>
      cases failure with
      | ioException =>
        exact .inr (.inl ⟨hf, rfl, by simp [offered, send, hf, completeWithError, finish, he]⟩)
      | illegalState => exact .inr (.inr ⟨hf, by simp [offered, send, hf]⟩)

/-- Every event is sent, or the emitter is left at the one that could not be. -/
theorem sendAll_cases {events : List AnalysisJobEvent} {wire : Nat → Option SendFailure}
    (h : emitter.ended = none) :
    sendAll events wire emitter = ({ emitter with sent := emitter.sent ++ events }, none) ∨
    ∃ early event late k, events = early ++ event :: late ∧
      ((wire k = some .ioException ∧ sendAll events wire emitter =
        ({ emitter with sent := emitter.sent ++ early, torn := some event }, some .ioException)) ∨
      (wire k = some .illegalState ∧ sendAll events wire emitter =
        ({ emitter with sent := emitter.sent ++ early }, some .illegalState))) := by
  induction events generalizing emitter wire with
  | nil =>
    left
    rw [List.append_nil]
    rfl
  | cons event rest ih =>
    have hf : emitter.failure (wire 0) = wire 0 := if_pos h
    cases hw : wire 0 with
    | none =>
      have hs : sendAll (event :: rest) wire emitter =
          sendAll rest (fun k => wire (k + 1)) { emitter with sent := emitter.sent ++ [event] } := by
        rw [hw] at hf
        simp [sendAll, send, hw, hf]
      rw [hs]
      have hcases := @ih { emitter with sent := emitter.sent ++ [event] } (fun k => wire (k + 1)) h
      simp only [List.append_assoc, List.singleton_append] at hcases
      obtain hall | ⟨early, last, late, k, he, hfail⟩ := hcases
      · exact .inl hall
      · right
        refine ⟨event :: early, last, late, k + 1, ?_, hfail⟩
        rw [he]
        rfl
    | some failure =>
      right
      rw [hw] at hf
      refine ⟨[], event, rest, 0, rfl, ?_⟩
      cases failure with
      | ioException =>
        left
        exact ⟨hw, by simp [sendAll, send, hw, hf]⟩
      | illegalState =>
        right
        exact ⟨hw, by simp [sendAll, send, hw, hf]⟩

end SseEmitter
end Sending

namespace EventStream
variable {event : AnalysisJobEvent} {wire : Nat → Option SendFailure} {s : EventStream}
  {current : List Nat} {id j : Nat}

/-- Whether a broadcast comes as far as an emitter: nothing is thrown past the loop before. -/
def reaches (wire : Nat → Option SendFailure) (s : EventStream) : List Nat → Nat → Bool
  | [], _ => false
  | id :: rest, j =>
    (s.emitters id).failure (wire id) ≠ some .illegalState && (j = id || reaches wire s rest j)

theorem failure_of_reaches (h : reaches wire s current j = true) :
    (s.emitters j).failure (wire j) ≠ some .illegalState := by
  induction current with
  | nil => cases h
  | cons id rest ih =>
    simp only [reaches, Bool.and_eq_true, Bool.or_eq_true, decide_eq_true_eq] at h
    obtain ⟨hf, rfl | hr⟩ := h
    · exact hf
    · exact ih hr

theorem mem_of_reaches (h : reaches wire s current j = true) : j ∈ current := by
  induction current with
  | nil => cases h
  | cons id rest ih =>
    simp only [reaches, Bool.and_eq_true, Bool.or_eq_true, decide_eq_true_eq] at h
    obtain ⟨_, rfl | hr⟩ := h
    · exact List.mem_cons_self
    · exact List.mem_cons_of_mem _ (ih hr)

theorem reaches_congr {t : EventStream} (h : ∀ k ∈ current, t.emitters k = s.emitters k) :
    reaches wire t current j = reaches wire s current j := by
  induction current with
  | nil => rfl
  | cons id rest ih =>
    have hrest := ih fun k hk => h k (List.mem_cons_of_mem _ hk)
    rw [reaches, reaches, h id List.mem_cons_self, hrest]

/-- One round of the loop, when nothing is thrown past it. -/
def offer (event : AnalysisJobEvent) (wire : Nat → Option SendFailure) (s : EventStream)
    (id : Nat) : EventStream :=
  let (emitter, stays) := (s.emitters id).offered event (wire id)
  (if stays then s else s.remove id).put id emitter

theorem broadcast_cons {rest : List Nat}
    (h : (s.emitters id).failure (wire id) ≠ some .illegalState) :
    broadcast event wire (id :: rest) s = broadcast event wire rest (s.offer event wire id) := by
  cases hf : (s.emitters id).failure (wire id) with
  | none =>
    by_cases ht : isTerminal event.status = true
    · simp [broadcast, offer, SseEmitter.offered, SseEmitter.send, hf, ht]
    · simp [broadcast, offer, SseEmitter.offered, SseEmitter.send, hf, ht]
  | some failure =>
    cases failure with
    | ioException => simp [broadcast, offer, SseEmitter.offered, SseEmitter.send, hf]
    | illegalState => exact (h hf).elim

theorem broadcast_stop {rest : List Nat}
    (h : (s.emitters id).failure (wire id) = some .illegalState) :
    broadcast event wire (id :: rest) s = s := by
  simp [broadcast, SseEmitter.send, h]

theorem offer_kept : (s.offer event wire id).retained = s.retained ∧
    (s.offer event wire id).sequence = s.sequence ∧
    (s.offer event wire id).opened = s.opened := by
  unfold offer
  by_cases h : ((s.emitters id).offered event (wire id)).2 = true
  · simp [h]
  · simp [h]

theorem offer_emitters : (s.offer event wire id).emitters j =
    if j = id then ((s.emitters id).offered event (wire id)).1 else s.emitters j := by
  unfold offer
  by_cases h : ((s.emitters id).offered event (wire id)).2 = true
  · simp [h]
  · simp [h]

theorem offer_subscribers : (s.offer event wire id).subscribers =
    if ((s.emitters id).offered event (wire id)).2 then s.subscribers
    else s.subscribers.erase id := by
  unfold offer
  by_cases h : ((s.emitters id).offered event (wire id)).2 = true
  · simp [h]
  · simp [h]

theorem reaches_offer (h : id ∉ current) :
    reaches wire (s.offer event wire id) current j = reaches wire s current j := by
  apply reaches_congr
  intro k hk
  have hne : k ≠ id := fun he => h (he ▸ hk)
  rw [offer_emitters, if_neg hne]

theorem not_reaches (h : j ∉ current) : reaches wire s current j = false := by
  rw [Bool.eq_false_iff]
  exact fun hr => h (mem_of_reaches hr)

theorem broadcast_kept : (broadcast event wire current s).retained = s.retained ∧
    (broadcast event wire current s).sequence = s.sequence ∧
    (broadcast event wire current s).opened = s.opened := by
  induction current generalizing s with
  | nil => exact ⟨rfl, rfl, rfl⟩
  | cons id rest ih =>
    by_cases hf : (s.emitters id).failure (wire id) = some .illegalState
    · rw [broadcast_stop hf]
      exact ⟨rfl, rfl, rfl⟩
    · have hkept := @offer_kept event wire s id
      rw [broadcast_cons hf, ih.1, ih.2.1, ih.2.2]
      exact hkept

theorem broadcast_sublist :
    (broadcast event wire current s).subscribers.Sublist s.subscribers := by
  induction current generalizing s with
  | nil => exact .refl _
  | cons id rest ih =>
    by_cases hf : (s.emitters id).failure (wire id) = some .illegalState
    · rw [broadcast_stop hf]
    · rw [broadcast_cons hf]
      apply (@ih (s.offer event wire id)).trans
      rw [offer_subscribers]
      by_cases hs : ((s.emitters id).offered event (wire id)).2 = true
      · rw [if_pos hs]
      · rw [if_neg hs]
        exact List.erase_sublist

theorem broadcast_emitters (hn : current.Nodup) :
    (broadcast event wire current s).emitters j =
      if reaches wire s current j then ((s.emitters j).offered event (wire j)).1
      else s.emitters j := by
  induction current generalizing s with
  | nil => rfl
  | cons id rest ih =>
    obtain ⟨hid, hrest⟩ := List.nodup_cons.mp hn
    by_cases hf : (s.emitters id).failure (wire id) = some .illegalState
    · rw [broadcast_stop hf]
      simp [reaches, hf]
    · rw [broadcast_cons hf, ih hrest, reaches_offer hid, offer_emitters]
      by_cases hj : j = id
      · subst hj
        simp [reaches, hf, not_reaches hid]
      · simp [reaches, hf, hj]

/-- Those stay that are not reached, and those that the event does not finish. -/
theorem mem_broadcast_subscribers (hn : current.Nodup) (hs : s.subscribers.Nodup) :
    j ∈ (broadcast event wire current s).subscribers ↔ j ∈ s.subscribers ∧
      (reaches wire s current j = true → ((s.emitters j).offered event (wire j)).2 = true) := by
  induction current generalizing s with
  | nil => simp [broadcast, reaches]
  | cons id rest ih =>
    obtain ⟨hid, hrest⟩ := List.nodup_cons.mp hn
    by_cases hf : (s.emitters id).failure (wire id) = some .illegalState
    · rw [broadcast_stop hf]
      simp [reaches, hf]
    · have hsub : (s.offer event wire id).subscribers.Nodup := by
        rw [offer_subscribers]
        by_cases hst : ((s.emitters id).offered event (wire id)).2 = true
        · rw [if_pos hst]
          exact hs
        · rw [if_neg hst]
          exact hs.erase id
      rw [broadcast_cons hf, ih hrest hsub, reaches_offer hid, offer_emitters, offer_subscribers]
      by_cases hj : j = id
      · subst hj
        by_cases hst : ((s.emitters j).offered event (wire j)).2 = true
        · simp [reaches, hf, not_reaches hid, hst]
        · simp [reaches, hf, not_reaches hid, hst, hs.mem_erase_iff]
      · by_cases hst : ((s.emitters id).offered event (wire id)).2 = true
        · simp [reaches, hf, hj, hst]
        · simp [reaches, hf, hj, hst, hs.mem_erase_iff]

/-- The subscribers are emitters that were made, each in the list once. -/
structure Numbered (s : EventStream) : Prop where
  once : s.subscribers.Nodup
  opened : ∀ id ∈ s.subscribers, id < s.opened

theorem Numbered.fresh (h : s.Numbered) : s.opened ∉ s.subscribers :=
  fun hm => Nat.lt_irrefl _ (h.opened _ hm)

theorem Numbered.remove (h : s.Numbered) : (s.remove id).Numbered :=
  ⟨h.once.erase id, fun j hj => h.opened j (List.mem_of_mem_erase hj)⟩

theorem Numbered.onClose {t : EventStream} (h : s.Numbered) (ht : s.onClose id = some t) :
    t.Numbered := by
  unfold EventStream.onClose at ht
  split at ht
  · cases ht
  · cases ht
    exact h.remove

end EventStream

section Replay
variable {events early late : List AnalysisJobEvent} {event : AnalysisJobEvent}
  {lastEventId : Option String} {id : String}

theorem after.search_split (h : ∀ e ∈ early, e.eventId.text ≠ event.eventId.text) :
    search event.eventId.text (early ++ event :: late) = late := by
  induction early with
  | nil => exact if_pos rfl
  | cons e rest ih =>
    rw [List.cons_append, search, if_neg (h e List.mem_cons_self)]
    exact ih fun e he => h e (List.mem_cons_of_mem _ he)

theorem after.search_unknown (h : contains events id = false) : search id events = [] := by
  induction events with
  | nil => rfl
  | cons e rest ih =>
    simp only [contains, List.any_cons, Bool.or_eq_false_iff, decide_eq_false_iff_not] at h
    rw [search, if_neg h.1]
    exact ih h.2

theorem contains_iff : contains events id = true ↔ ∃ event ∈ events, event.eventId.text = id := by
  simp [contains]

/-- The history can answer the request: it is not empty, and holds the id that is asked for. -/
def Replayable (events : List AnalysisJobEvent) (lastEventId : Option String) : Prop :=
  events ≠ [] ∧ ∀ id, lastEventId.filter (!isBlank ·) = some id → contains events id = true

variable {snapshot : AnalysisJobResource} {eventId : UUID}

theorem greeting_of_replayable (h : Replayable events lastEventId) :
    greeting snapshot eventId lastEventId events = after events lastEventId := by
  obtain ⟨hne, hknown⟩ := h
  unfold greeting
  rw [if_neg]
  rintro (he | hu)
  · exact hne he
  · cases hid : lastEventId.filter (!isBlank ·) with
    | none =>
      rw [hid] at hu
      cases hu
    | some id =>
      rw [hid, Option.any_some, hknown id hid, Bool.not_true, Bool.and_false] at hu
      cases hu

theorem greeting_of_not_replayable (h : ¬ Replayable events lastEventId) :
    greeting snapshot eventId lastEventId events = [snapshotEvent snapshot eventId] := by
  unfold greeting
  apply if_pos
  by_cases he : events = []
  · exact .inl he
  · right
    have hunknown : ∃ id, lastEventId.filter (!isBlank ·) = some id ∧ contains events id = false := by
      by_contra hno
      refine h ⟨he, fun id hid => ?_⟩
      by_contra hc
      exact hno ⟨id, hid, by simpa using hc⟩
    obtain ⟨id, hid, hc⟩ := hunknown
    have hnone : after events lastEventId = [] := by
      unfold after
      rw [hid]
      exact after.search_unknown hc
    rw [hid, hnone, Option.any_some, hc]
    rfl

end Replay

namespace EventStream
variable {maxLength : Nat} {s : EventStream} {signal : JobProgressSignal} {eventId : UUID}
  {redis : Bool} {wire : Nat → Option SendFailure} {snapshot : AnalysisJobResource}
  {lastEventId : Option String}

/-- The new emitter, beside the others as they were. -/
def opening (s : EventStream) (emitter : SseEmitter) (registered : Bool) : EventStream :=
  { s with
    subscribers := if registered then s.subscribers ++ [s.opened] else s.subscribers
    emitters := Function.update s.emitters s.opened emitter
    opened := s.opened + 1 }

/-- Everything is sent, and the emitter is complete if the snapshot is terminal; or one event
breaks the connection, or throws past `subscribe`. -/
theorem subscribe_cases (hs : s.Numbered) {first : List AnalysisJobEvent}
    (hfirst : first = greeting snapshot eventId lastEventId (s.safeRead redis)) :
    s.subscribe snapshot eventId lastEventId redis wire = s.opening
      ⟨lastEventId, first, none, if isTerminal snapshot.status then some .completed else none⟩
      (!isTerminal snapshot.status) ∨
    ∃ early event late k, first = early ++ event :: late ∧
      ((wire k = some .ioException ∧ s.subscribe snapshot eventId lastEventId redis wire = s.opening
        ⟨lastEventId, early, some event, some .completedWithError⟩ false) ∨
      (wire k = some .illegalState ∧ s.subscribe snapshot eventId lastEventId redis wire = s.opening
        ⟨lastEventId, early, none, none⟩ true ∧
        s.throws snapshot eventId lastEventId redis wire = true)) := by
  have herase : (s.subscribers ++ [s.opened]).erase s.opened = s.subscribers := by
    rw [List.erase_append_right _ hs.fresh, List.erase_cons_head, List.append_nil]
  obtain hall | ⟨early, event, late, k, he, ⟨hw, hfail⟩ | ⟨hw, hfail⟩⟩ :=
    @SseEmitter.sendAll_cases { lastEventId := lastEventId } first wire rfl
  · left
    simp only [subscribe, ← hfirst, hall]
    by_cases ht : isTerminal snapshot.status = true
    · simp [opening, put, remove, ht, herase, SseEmitter.complete, SseEmitter.finish]
    · simp [opening, put, ht]
  · right
    refine ⟨early, event, late, k, he, .inl ⟨hw, ?_⟩⟩
    simp only [subscribe, ← hfirst, hfail]
    simp [opening, put, remove, herase, SseEmitter.completeWithError, SseEmitter.finish]
  · right
    refine ⟨early, event, late, k, he, .inr ⟨hw, ?_, by simp [throws, ← hfirst, hfail]⟩⟩
    simp only [subscribe, ← hfirst, hfail]
    simp [opening, put]

theorem Numbered.opening (h : s.Numbered) (emitter : SseEmitter) (registered : Bool) :
    (s.opening emitter registered).Numbered := by
  cases registered with
  | false => exact ⟨h.once, fun id hid => Nat.lt_succ_of_lt (h.opened id hid)⟩
  | true =>
    refine ⟨List.nodup_append.mpr ⟨h.once, by simp, fun a ha b hb => ?_⟩, fun id hid => ?_⟩
    · rw [List.mem_singleton.mp hb]
      exact fun he => h.fresh (he ▸ ha)
    · obtain hid | hid := List.mem_append.mp hid
      · exact Nat.lt_succ_of_lt (h.opened id hid)
      · rw [List.mem_singleton.mp hid]
        exact Nat.lt_succ_self _

theorem Numbered.subscribe (h : s.Numbered) :
    (s.subscribe snapshot eventId lastEventId redis wire).Numbered := by
  obtain ht | ⟨_, _, _, _, _, ⟨_, ht⟩ | ⟨_, ht, _⟩⟩ := subscribe_cases h rfl
  all_goals
    rw [ht]
    exact h.opening _ _

theorem subscribe_kept (h : s.Numbered) :
    (s.subscribe snapshot eventId lastEventId redis wire).retained = s.retained ∧
    (s.subscribe snapshot eventId lastEventId redis wire).sequence = s.sequence ∧
    (s.subscribe snapshot eventId lastEventId redis wire).opened = s.opened + 1 := by
  obtain ht | ⟨_, _, _, _, _, ⟨_, ht⟩ | ⟨_, ht, _⟩⟩ := subscribe_cases h rfl
  all_goals
    rw [ht]
    exact ⟨rfl, rfl, rfl⟩

theorem subscribe_older {id : Nat} (h : s.Numbered) (hid : id < s.opened) :
    (s.subscribe snapshot eventId lastEventId redis wire).emitters id = s.emitters id ∧
    (id ∈ (s.subscribe snapshot eventId lastEventId redis wire).subscribers ↔ id ∈ s.subscribers) := by
  have hopening : ∀ emitter registered, (s.opening emitter registered).emitters id = s.emitters id ∧
      (id ∈ (s.opening emitter registered).subscribers ↔ id ∈ s.subscribers) := by
    intro emitter registered
    refine ⟨Function.update_of_ne (Nat.ne_of_lt hid) _ _, ?_⟩
    cases registered with
    | false => exact Iff.rfl
    | true =>
      have hne : id ≠ s.opened := Nat.ne_of_lt hid
      simp [opening, hne]
  obtain ht | ⟨_, _, _, _, _, ⟨_, ht⟩ | ⟨_, ht, _⟩⟩ := subscribe_cases h rfl
  all_goals
    rw [ht]
    exact hopening _ _

theorem Numbered.publish (h : s.Numbered) :
    (s.publish maxLength signal eventId redis wire).2.Numbered := by
  have hb : ∀ (t : EventStream) (event : AnalysisJobEvent), t.Numbered →
      (broadcast event wire t.subscribers t).Numbered := by
    intro t event ht
    refine ⟨broadcast_sublist.nodup ht.once, fun id hid => ?_⟩
    rw [broadcast_kept.2.2]
    exact ht.opened id (broadcast_sublist.subset hid)
  cases redis with
  | false => exact hb s _ h
  | true => exact hb _ _ ⟨h.once, h.opened⟩

/-- What an emitter has been given after `publish`. -/
theorem publish_emitters (h : s.Numbered) (j : Nat) :
    ((s.publish maxLength signal eventId redis wire).2).emitters j =
      if s.reaches wire s.subscribers j then
        ((s.emitters j).offered (s.publish maxLength signal eventId redis wire).1 (wire j)).1
      else s.emitters j := by
  cases redis with
  | false => exact broadcast_emitters h.once
  | true =>
    have hr := @reaches_congr wire s s.subscribers j (s.append maxLength signal eventId).2 fun _ _ => rfl
    have hb := @broadcast_emitters (s.append maxLength signal eventId).1 wire
      (s.append maxLength signal eventId).2 s.subscribers j h.once
    rw [hr] at hb
    exact hb

theorem mem_publish_subscribers (h : s.Numbered) (j : Nat) :
    j ∈ ((s.publish maxLength signal eventId redis wire).2).subscribers ↔ j ∈ s.subscribers ∧
      (s.reaches wire s.subscribers j = true →
        ((s.emitters j).offered (s.publish maxLength signal eventId redis wire).1 (wire j)).2 = true) := by
  cases redis with
  | false => exact mem_broadcast_subscribers h.once h.once
  | true =>
    have hr := @reaches_congr wire s s.subscribers j (s.append maxLength signal eventId).2 fun _ _ => rfl
    have hb := @mem_broadcast_subscribers (s.append maxLength signal eventId).1 wire
      (s.append maxLength signal eventId).2 s.subscribers j h.once h.once
    rw [hr] at hb
    exact hb

theorem publish_retained (h : s.retained.length < maxLength) :
    (s.publish maxLength signal eventId true wire).1 =
      { transientEvent signal eventId with sequence := s.sequence + 1 } ∧
    (s.publish maxLength signal eventId true wire).2.retained =
      s.retained ++ [{ transientEvent signal eventId with sequence := s.sequence + 1 }] ∧
    (s.publish maxLength signal eventId true wire).2.sequence = s.sequence + 1 := by
  refine ⟨rfl, ?_, broadcast_kept.2.1⟩
  have hlength : (s.retained ++ [({ transientEvent signal eventId with
      sequence := s.sequence + 1 } : AnalysisJobEvent)]).length - maxLength = 0 := by
    rw [List.length_append, List.length_singleton]
    omega
  have hkept := @broadcast_kept (s.append maxLength signal eventId).1 wire
    (s.append maxLength signal eventId).2 s.subscribers
  have happend : (s.append maxLength signal eventId).2.retained =
      s.retained ++ [{ transientEvent signal eventId with sequence := s.sequence + 1 }] := by
    simp only [append, hlength, List.drop_zero]
  rw [← happend]
  exact hkept.1

theorem publish_opened :
    (s.publish maxLength signal eventId redis wire).2.opened = s.opened := by
  cases redis with
  | false => exact broadcast_kept.2.2
  | true => exact broadcast_kept.2.2

theorem publish_status : (s.publish maxLength signal eventId redis wire).1.status = signal.status := by
  cases redis with
  | false => rfl
  | true => rfl

end EventStream
end DataCopilot.Platform
