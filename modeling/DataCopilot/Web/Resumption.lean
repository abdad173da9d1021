import Mathlib.Data.List.Chain
import DataCopilot.Web.Sse

/-! `watchJobEvents` against the event stream of a job. The browser connects, reads the frames in
chunks of any size, loses the connection at any byte, and connects again with the id of the last
event it has passed on; the job's events are published in between. -/
namespace DataCopilot.Web
open Platform Platform.EventStream Platform.AnalysisJobStateMachine

/-- The emitter that answers a request, and the bytes of it that the browser has read. -/
structure Connection where
  emitter : Nat
  taken : Nat := 0
  reader : StreamReader := {}

/-- `lastEventId` is what `watchJobEvents` was called with, `events` is what `onEvent` was. -/
structure Browser where
  lastEventId : Option String
  cursor : Option String
  events : List AnalysisEvent := []
  connection : Option Connection := none

structure Feed where
  stream : EventStream := {}
  browser : Option Browser := none

/-- `subscribe` is a request of any other client. -/
inductive FeedMove where
  | publish (signal : JobProgressSignal) (eventId : UUID) (redis : Bool)
      (wire : Nat → Option SendFailure)
  | subscribe (snapshot : AnalysisJobResource) (eventId : UUID) (lastEventId : Option String)
      (redis : Bool) (wire : Nat → Option SendFailure)
  | close (id : Nat)
  | onClose (id : Nat)
  | expire
  | watch (lastEventId : Option String)
  | connect (snapshot : AnalysisJobResource) (eventId : UUID) (redis : Bool)
      (wire : Nat → Option SendFailure)
  | read (n : Nat)
  | done
  | abort

/-- What an emitter has written, up to the place where its connection broke. -/
def written (emitter : SseEmitter) : List AnalysisJobEvent := emitter.sent ++ emitter.torn.toList

def bytes (codec : EventCodec) (emitter : SseEmitter) : List UInt8 :=
  Utf8.encode (frames codec (written emitter))

namespace Browser

def onEvent (b : Browser) (event : AnalysisEvent) : Browser :=
  { b with
    cursor := if event.event_id = "" then b.cursor else some event.event_id
    events := b.events ++ [event] }

def hear (b : Browser) (events : List AnalysisEvent) : Browser := events.foldl onEvent b

def drop (b : Browser) : Browser := { b with connection := none }

end Browser

namespace Feed
variable (codec : EventCodec) (maxLength : Nat) (s : Feed)

/-- The request carries the cursor unless it is empty. -/
def connect (b : Browser) (snapshot : AnalysisJobResource) (eventId : UUID) (redis : Bool)
    (wire : Nat → Option SendFailure) : Feed :=
  let header := b.cursor.filter (· ≠ "")
  let connection := if s.stream.throws snapshot eventId header redis wire then none
    else some { emitter := s.stream.opened }
  { stream := s.stream.subscribe snapshot eventId header redis wire
    browser := some { b with connection := connection } }

/-- The next chunk has at most `n` bytes. `JSON.parse` ends the connection if it throws. -/
def read (b : Browser) (c : Connection) (n : Nat) : Feed :=
  let chunk := ((bytes codec (s.stream.emitters c.emitter)).drop c.taken).take n
  let result := c.reader.read codec chunk
  let connection := if result.1.2 then none
    else some { c with taken := c.taken + chunk.length, reader := result.2 }
  { s with browser := some { b.hear result.1.1 with connection := connection } }

def next : FeedMove → Option Feed
  | .publish signal eventId redis wire =>
    some { s with stream := (s.stream.publish maxLength signal eventId redis wire).2 }
  | .subscribe snapshot eventId lastEventId redis wire =>
    some { s with stream := s.stream.subscribe snapshot eventId lastEventId redis wire }
  | .close id => some { s with stream := s.stream.close id }
  | .onClose id => (s.stream.onClose id).map fun stream => { s with stream := stream }
  | .expire => some { s with stream := s.stream.expire }
  | .watch lastEventId =>
    match s.browser with
    | none => some { s with browser := some { lastEventId := lastEventId, cursor := lastEventId } }
    | some _ => none
  | .connect snapshot eventId redis wire =>
    match s.browser with
    | some ⟨lastEventId, cursor, events, none⟩ =>
      some (s.connect ⟨lastEventId, cursor, events, none⟩ snapshot eventId redis wire)
    | _ => none
  | .read n => do
    let b ← s.browser
    let c ← b.connection
    some (s.read codec b c n)
  | .done => do
    let b ← s.browser
    let c ← b.connection
    some { s with browser := some (b.hear (c.reader.done codec).1).drop }
  | .abort => do
    let b ← s.browser
    some { s with browser := some b.drop }

def system : Transition.System Feed FeedMove where
  init s := s = {}
  step s m t := s.next codec maxLength m = some t

/-- Redis appends and answers, nothing is trimmed and nothing expires; ids are fresh. The job has
an event when the browser starts, with no cursor or with the id of a stored event. -/
def Stored (s : Feed) : FeedMove → Prop
  | .publish signal eventId redis _ => signal.type ∈ signalTypes ∧ redis = true ∧
      s.stream.retained.length < maxLength ∧ ∀ e ∈ s.stream.retained, e.eventId ≠ eventId
  | .expire => False
  | .watch lastEventId => s.stream.retained ≠ [] ∧
      ∀ id, lastEventId = some id → ∃ e ∈ s.stream.retained, e.eventId.text = id
  | .connect _ _ redis _ => redis = true
  | _ => True

/-- A published event comes as far as the emitter that the browser reads, if that is open: neither
it nor an emitter before it in the list throws anything but an `IOException`. -/
def Heard (s : Feed) : FeedMove → Prop
  | .publish _ _ _ wire => ∀ b c, s.browser = some b → b.connection = some c →
      (s.stream.emitters c.emitter).ended = none →
      s.stream.reaches wire s.stream.subscribers c.emitter = true
  | _ => True

end Feed

/-- The events passed on, against the stored events after the cursor that was given. -/
structure Resumed (s : Feed) (b : Browser) : Prop where
  inOrder : b.events <+: (after s.stream.retained b.lastEventId).map view
  once : (b.events.map (·.event_id)).Nodup
  consecutive : b.events.IsChain fun e f => f.sequence = e.sequence + 1

section Cursor
variable {stored before rest : List AnalysisJobEvent} {cursor : Option String}

/-- The cursor names the last of these events, or there is none of them yet. -/
def Ends (before : List AnalysisJobEvent) : Option String → Prop
  | none => before = []
  | some id => ∃ early last, before = early ++ [last] ∧ last.eventId.text = id

theorem text_ne_nil (u : UUID) : u.text ≠ "" := by
  intro h
  have hblank := uuid_not_blank u
  rw [h] at hblank
  cases hblank

theorem header_eq (h : Ends before cursor) : cursor.filter (· ≠ "") = cursor := by
  cases cursor with
  | none => rfl
  | some id =>
    obtain ⟨early, last, _, rfl⟩ := h
    simp [text_ne_nil]

theorem named_eq (h : Ends before cursor) : cursor.filter (!isBlank ·) = cursor := by
  cases cursor with
  | none => rfl
  | some id =>
    obtain ⟨early, last, _, rfl⟩ := h
    simp [uuid_not_blank last.eventId]

/-- What follows the cursor is what the server replays. -/
theorem after_ends (hn : ((before ++ rest).map (·.eventId)).Nodup) (h : Ends before cursor) :
    after (before ++ rest) cursor = rest := by
  unfold after
  rw [named_eq h]
  cases cursor with
  | none =>
    have hnil : before = [] := h
    rw [hnil]
    rfl
  | some id =>
    obtain ⟨early, last, rfl, rfl⟩ := h
    rw [List.append_assoc, List.singleton_append] at hn ⊢
    apply after.search_split
    intro e he htext
    rw [List.map_append, List.map_cons] at hn
    have hdisjoint := (List.nodup_append.mp hn).2.2 e.eventId (List.mem_map_of_mem he)
      last.eventId List.mem_cons_self
    exact hdisjoint (UUID.ext htext)

theorem replayable_ends (hne : before ++ rest ≠ []) (h : Ends before cursor) :
    Replayable (before ++ rest) cursor := by
  refine ⟨hne, fun id hid => ?_⟩
  rw [named_eq h] at hid
  subst hid
  obtain ⟨early, last, rfl, rfl⟩ := h
  exact contains_iff.mpr ⟨last, by simp, rfl⟩

theorem ends_mem {id : String} (h : ∃ e ∈ stored, e.eventId.text = id) :
    ∃ before rest, stored = before ++ rest ∧ Ends before (some id) := by
  obtain ⟨e, he, rfl⟩ := h
  obtain ⟨early, late, rfl⟩ := List.append_of_mem he
  refine ⟨early ++ [e], late, by simp, early, e, rfl, rfl⟩

end Cursor

namespace Browser
variable {b : Browser} {before more : List AnalysisJobEvent}

theorem hear_events : (b.hear (more.map view)).events = b.events ++ more.map view := by
  unfold hear
  induction more generalizing b with
  | nil => exact (List.append_nil _).symm
  | cons e rest ih =>
    rw [List.map_cons, List.foldl_cons, ih]
    simp [onEvent]

theorem hear_kept {events : List AnalysisEvent} :
    (b.hear events).lastEventId = b.lastEventId ∧ (b.hear events).connection = b.connection := by
  unfold hear
  induction events generalizing b with
  | nil => exact ⟨rfl, rfl⟩
  | cons e rest ih =>
    rw [List.foldl_cons, ih.1, ih.2]
    exact ⟨rfl, rfl⟩

theorem hear_cursor (h : Ends before b.cursor) :
    Ends (before ++ more) (b.hear (more.map view)).cursor := by
  unfold hear
  induction more generalizing b before with
  | nil =>
    rw [List.append_nil]
    exact h
  | cons e rest ih =>
    rw [List.map_cons, List.foldl_cons]
    have hnext : Ends (before ++ [e]) (b.onEvent (view e)).cursor := by
      have hne : (view e).event_id ≠ "" := text_ne_nil e.eventId
      rw [onEvent, if_neg hne]
      exact ⟨before, e, rfl, rfl⟩
    have hrest := ih hnext
    rw [List.append_assoc] at hrest
    exact hrest

end Browser

/-- The stored events: numbered from one, with ids and types of their own. -/
structure Kept (stream : EventStream) : Prop where
  numbered : stream.Numbered
  sequence : stream.sequence = stream.retained.length
  sequences : stream.retained.map (·.sequence) = List.range' 1 stream.retained.length
  ids : (stream.retained.map (·.eventId)).Nodup
  types : ∀ e ∈ stream.retained, e.type ∈ signalTypes

/-- What the emitter has written is first of `rest`, all of it while the emitter is open, and the
reader has handled `got` of it. -/
structure Linked (codec : EventCodec) (stream : EventStream) (got rest : List AnalysisJobEvent)
    (c : Connection) : Prop where
  opened : c.emitter < stream.opened
  first : written (stream.emitters c.emitter) <+: rest
  whole : (stream.emitters c.emitter).ended = none → c.emitter ∈ stream.subscribers ∧
    (stream.emitters c.emitter).sent = rest ∧ (stream.emitters c.emitter).torn = none
  heard : got <+: written (stream.emitters c.emitter)
  taken : c.taken ≤ (bytes codec (stream.emitters c.emitter)).length
  reads : Reads codec ((bytes codec (stream.emitters c.emitter)).take c.taken) got c.reader

/-- The stored events fall into those before the first cursor, those that earlier connections
have passed on, those that this one has, and the rest. -/
structure Follows (codec : EventCodec) (stream : EventStream) (b : Browser)
    (before early got rest : List AnalysisJobEvent) : Prop where
  stored : stream.retained = before ++ early ++ got ++ rest
  nonempty : stream.retained ≠ []
  initial : Ends before b.lastEventId
  cursor : Ends (before ++ early ++ got) b.cursor
  events : b.events = (early ++ got).map view
  linked : ∀ c, b.connection = some c → Linked codec stream got (got ++ rest) c

/-- What a connection may still bring are stored events. -/
theorem Follows.sound {codec : EventCodec} {stream : EventStream} {b : Browser}
    {before early got rest : List AnalysisJobEvent}
    (h : Follows codec stream b before early got rest) (hk : Kept stream)
    (hcodec : ∀ e ∈ stream.retained, codec.Carries e) : ∀ e ∈ got ++ rest, Sound codec e := by
  intro e he
  have hmem : e ∈ stream.retained := by
    rw [h.stored, List.append_assoc]
    exact List.mem_append_right _ he
  exact ⟨hk.types e hmem, hcodec e hmem⟩

section Linking
variable {codec : EventCodec} {stream stream' : EventStream} {got rest rest' : List AnalysisJobEvent}
  {c : Connection}

/-- An emitter only writes more, and the bytes that were read stay its first ones. -/
theorem Linked.mono (h : Linked codec stream got rest c) (hopened : stream.opened ≤ stream'.opened)
    (hmore : written (stream.emitters c.emitter) <+: written (stream'.emitters c.emitter))
    (hfirst : written (stream'.emitters c.emitter) <+: rest')
    (hwhole : (stream'.emitters c.emitter).ended = none → c.emitter ∈ stream'.subscribers ∧
      (stream'.emitters c.emitter).sent = rest' ∧ (stream'.emitters c.emitter).torn = none) :
    Linked codec stream' got rest' c := by
  have hbytes : bytes codec (stream.emitters c.emitter) <+: bytes codec (stream'.emitters c.emitter) := by
    obtain ⟨more, hmore⟩ := hmore
    refine ⟨Utf8.encode (frames codec more), ?_⟩
    rw [bytes, bytes, ← hmore, frames_append, Utf8.encode, Utf8.encode, Utf8.encode,
      List.flatMap_append]
  have htake : (bytes codec (stream'.emitters c.emitter)).take c.taken =
      (bytes codec (stream.emitters c.emitter)).take c.taken := by
    obtain ⟨more, hb⟩ := hbytes
    rw [← hb, List.take_append_of_le_length h.taken]
  refine ⟨Nat.lt_of_lt_of_le h.opened hopened, hfirst, hwhole, h.heard.trans hmore,
    Nat.le_trans h.taken hbytes.length_le, ?_⟩
  rw [htake]
  exact h.reads

/-- The emitter is as it was. -/
theorem Linked.same (h : Linked codec stream got rest c) (hopened : stream.opened ≤ stream'.opened)
    (he : stream'.emitters c.emitter = stream.emitters c.emitter)
    (hs : c.emitter ∈ stream.subscribers → (stream.emitters c.emitter).ended = none →
      c.emitter ∈ stream'.subscribers) : Linked codec stream' got rest c := by
  apply h.mono hopened
  · rw [he]
  · rw [he]
    exact h.first
  · rw [he]
    intro hopen
    exact ⟨hs (h.whole hopen).1 hopen, (h.whole hopen).2⟩

/-- The browser's emitter is offered one more event. -/
theorem Linked.publish {maxLength : Nat} {signal : JobProgressSignal} {eventId : UUID}
    {redis : Bool} {wire : Nat → Option SendFailure} (h : Linked codec stream got rest c)
    (hn : stream.Numbered)
    (hreach : (stream.emitters c.emitter).ended = none →
      stream.reaches wire stream.subscribers c.emitter = true) :
    Linked codec (stream.publish maxLength signal eventId redis wire).2 got
      (rest ++ [(stream.publish maxLength signal eventId redis wire).1]) c := by
  have hopened := Nat.le_of_eq (@publish_opened maxLength stream signal eventId redis wire).symm
  have hemitter := @publish_emitters maxLength stream signal eventId redis wire hn c.emitter
  have hmem := @mem_publish_subscribers maxLength stream signal eventId redis wire hn c.emitter
  generalize (stream.publish maxLength signal eventId redis wire).1 = event at hemitter hmem ⊢
  generalize (stream.publish maxLength signal eventId redis wire).2 = stream' at hopened hemitter hmem ⊢
  cases hopen : (stream.emitters c.emitter).ended with
  | some how =>
    have hsame : stream'.emitters c.emitter = stream.emitters c.emitter := by
      have hfailure : (stream.emitters c.emitter).failure (wire c.emitter) = some .illegalState := by
        simp [SseEmitter.failure, hopen]
      rw [hemitter, if_neg fun hr => failure_of_reaches hr hfailure]
    apply h.mono hopened
    · rw [hsame]
    · rw [hsame]
      exact h.first.trans (List.prefix_append rest [event])
    · rw [hsame, hopen]
      exact fun hn => by cases hn
  | none =>
    have hr := hreach hopen
    obtain ⟨hsub, hsent, htorn⟩ := h.whole hopen
    rw [if_pos hr] at hemitter
    obtain ⟨_, _, ho⟩ | ⟨_, _, ho⟩ | ⟨hfailure, _⟩ :=
      SseEmitter.offered_cases event (wire c.emitter) (stream.emitters c.emitter)
    · have hwritten : written (stream'.emitters c.emitter) = rest ++ [event] := by
        rw [hemitter, ho]
        simp [written, hsent, htorn]
      apply h.mono hopened
      · rw [hwritten]
        exact h.first.trans (List.prefix_append rest [event])
      · rw [hwritten]
      · intro hstill
        have hterm : isTerminal event.status = false := by
          rw [hemitter, ho] at hstill
          by_contra hno
          simp [hno] at hstill
        refine ⟨hmem.mpr ⟨hsub, fun _ => ?_⟩, ?_, ?_⟩
        · rw [ho, hterm]
          rfl
        · rw [hemitter, ho, hsent]
        · rw [hemitter, ho, htorn]
    · have hwritten : written (stream'.emitters c.emitter) = rest ++ [event] := by
        rw [hemitter, ho]
        simp [written, hsent]
      apply h.mono hopened
      · rw [hwritten]
        exact h.first.trans (List.prefix_append rest [event])
      · rw [hwritten]
      · rw [hemitter, ho]
        exact fun hn => by cases hn
    · exact (failure_of_reaches hr hfailure).elim

/-- A new connection gets what follows the cursor, and all of it unless it breaks. -/
theorem Linked.connect {before : List AnalysisJobEvent} {cursor : Option String}
    {snapshot : AnalysisJobResource} {eventId : UUID} {wire : Nat → Option SendFailure}
    (hn : stream.Numbered) (hstored : stream.retained = before ++ rest)
    (hids : (stream.retained.map (·.eventId)).Nodup) (hne : stream.retained ≠ [])
    (hc : Ends before cursor)
    (hreturns : stream.throws snapshot eventId cursor true wire = false) :
    Linked codec (stream.subscribe snapshot eventId cursor true wire) [] rest
      { emitter := stream.opened } := by
  have hread : stream.safeRead true = before ++ rest := hstored
  have hgreeting : greeting snapshot eventId cursor (stream.safeRead true) = rest := by
    rw [hstored] at hids hne
    rw [hread, greeting_of_replayable (replayable_ends hne hc), after_ends hids hc]
  have hopening : ∀ emitter registered, written emitter <+: rest →
      (emitter.ended = none → registered = true ∧ emitter.sent = rest ∧ emitter.torn = none) →
      Linked codec (stream.opening emitter registered) [] rest { emitter := stream.opened } := by
    intro emitter registered hfirst hwhole
    have hemitter : (stream.opening emitter registered).emitters stream.opened = emitter := by
      simp [opening]
    refine ⟨Nat.lt_succ_self _, ?_, ?_, List.nil_prefix, Nat.zero_le _, ?_⟩
    · rw [hemitter]
      exact hfirst
    · rw [hemitter]
      intro hopen
      obtain ⟨hregistered, hsent⟩ := hwhole hopen
      refine ⟨?_, hsent⟩
      rw [hregistered]
      exact List.mem_append_right _ (List.mem_singleton_self _)
    · exact Reads.start
  obtain hall | ⟨early, event, late, k, he, ⟨_, hfail⟩ | ⟨_, _, hthrows⟩⟩ :=
    @subscribe_cases stream eventId true wire snapshot cursor hn rest hgreeting.symm
  · rw [hall]
    apply hopening
    · simp [written]
    · intro hopen
      refine ⟨?_, rfl, rfl⟩
      by_contra hno
      simp only [Bool.not_eq_true', Bool.not_eq_false] at hno
      simp [hno] at hopen
  · rw [hfail]
    apply hopening
    · refine ⟨late, ?_⟩
      simp [written, he]
    · exact fun hopen => by cases hopen
  · rw [hreturns] at hthrows
    cases hthrows

end Linking

theorem Kept.same {stream stream' : EventStream} (h : Kept stream) (hn : stream'.Numbered)
    (hr : stream'.retained = stream.retained) (hs : stream'.sequence = stream.sequence) :
    Kept stream' := by
  refine ⟨hn, ?_, ?_, ?_, ?_⟩
  · rw [hs, hr]
    exact h.sequence
  · rw [hr]
    exact h.sequences
  · rw [hr]
    exact h.ids
  · rw [hr]
    exact h.types

theorem Kept.publish {stream : EventStream} {maxLength : Nat} {signal : JobProgressSignal}
    {eventId : UUID} {wire : Nat → Option SendFailure} (h : Kept stream)
    (htype : signal.type ∈ signalTypes) (hlength : stream.retained.length < maxLength)
    (hfresh : ∀ e ∈ stream.retained, e.eventId ≠ eventId) :
    Kept (stream.publish maxLength signal eventId true wire).2 := by
  obtain ⟨_, hretained, hsequence⟩ :=
    @publish_retained maxLength stream signal eventId wire hlength
  refine ⟨h.numbered.publish, ?_, ?_, ?_, ?_⟩
  · rw [hretained, hsequence, h.sequence, List.length_append]
    rfl
  · rw [hretained, List.map_append, h.sequences, List.length_append, List.length_singleton,
      List.range'_concat, h.sequence]
    simp [Nat.add_comm]
  · rw [hretained, List.map_append]
    refine List.nodup_append.mpr ⟨h.ids, List.nodup_singleton _, fun a ha b hb => ?_⟩
    obtain ⟨e, he, rfl⟩ := List.mem_map.mp ha
    rw [List.mem_singleton.mp hb]
    exact hfresh e he
  · intro e he
    rw [hretained] at he
    obtain he | he := List.mem_append.mp he
    · exact h.types e he
    · rw [List.mem_singleton.mp he]
      exact htype

namespace Feed
variable {codec : EventCodec} {maxLength : Nat} {s t : Feed} {m : FeedMove}

/-- The browser's part of the invariant. -/
def Tracked (codec : EventCodec) (s : Feed) : Prop :=
  ∀ b, s.browser = some b → ∃ before early got rest, Follows codec s.stream b before early got rest

/-- A move that leaves the store and the browser. -/
theorem tracked_same {stream : EventStream} (h : Tracked codec s)
    (hr : stream.retained = s.stream.retained)
    (hlinked : ∀ got rest c, Linked codec s.stream got rest c → Linked codec stream got rest c) :
    Tracked codec { s with stream := stream } := by
  intro b hb
  obtain ⟨before, early, got, rest, hf⟩ := h b hb
  refine ⟨before, early, got, rest, ?_, ?_, hf.initial, hf.cursor, hf.events, fun c hc => ?_⟩
  · rw [hr]
    exact hf.stored
  · rw [hr]
    exact hf.nonempty
  · exact hlinked _ _ c (hf.linked c hc)

theorem tracked_publish {signal : JobProgressSignal} {eventId : UUID}
    {wire : Nat → Option SendFailure} (hk : Kept s.stream) (h : Tracked codec s)
    (hlength : s.stream.retained.length < maxLength)
    (hheard : Heard s (.publish signal eventId true wire)) :
    Tracked codec { s with stream := (s.stream.publish maxLength signal eventId true wire).2 } := by
  obtain ⟨hevent, hretained, _⟩ :=
    @publish_retained maxLength s.stream signal eventId wire hlength
  rw [← hevent] at hretained
  intro b hb
  obtain ⟨before, early, got, rest, hf⟩ := h b hb
  refine ⟨before, early, got, rest ++ [(s.stream.publish maxLength signal eventId true wire).1],
    ?_, ?_, hf.initial, hf.cursor, hf.events, fun c hc => ?_⟩
  · rw [hretained, hf.stored, List.append_assoc _ rest]
  · rw [hretained]
    exact List.append_ne_nil_of_left_ne_nil hf.nonempty _
  · rw [← List.append_assoc]
    exact @Linked.publish codec s.stream got (got ++ rest) c maxLength signal eventId true wire
      (hf.linked c hc) hk.numbered (hheard b c hb hc)

theorem tracked_watch {lastEventId : Option String} (hne : s.stream.retained ≠ [])
    (hid : ∀ id, lastEventId = some id → ∃ e ∈ s.stream.retained, e.eventId.text = id) :
    Tracked codec
      { s with browser := some { lastEventId := lastEventId, cursor := lastEventId } } := by
  intro b hb
  cases hb
  have hsplit : ∃ before rest, s.stream.retained = before ++ rest ∧ Ends before lastEventId := by
    cases lastEventId with
    | none => exact ⟨[], s.stream.retained, rfl, rfl⟩
    | some id => exact ends_mem (hid id rfl)
  obtain ⟨before, rest, hstored, hends⟩ := hsplit
  refine ⟨before, [], [], rest, by simp [hstored], hne, hends, by simpa using hends, rfl, ?_⟩
  exact fun c hc => by cases hc

/-- A browser without a connection has passed on what it has from earlier ones. -/
theorem follows_drop {stream : EventStream} {b : Browser}
    {before early got rest : List AnalysisJobEvent} (h : Follows codec stream b before early got rest) :
    Follows codec stream b.drop before (early ++ got) [] rest := by
  refine ⟨?_, h.nonempty, h.initial, ?_, ?_, fun c hc => by cases hc⟩
  · rw [h.stored]
    simp
  · have hcursor := h.cursor
    simpa [Browser.drop] using hcursor
  · rw [List.append_nil]
    exact h.events

theorem tracked_connect {snapshot : AnalysisJobResource} {eventId : UUID}
    {wire : Nat → Option SendFailure} {b : Browser} (hk : Kept s.stream) (h : Tracked codec s)
    (hb : s.browser = some b) : Tracked codec (s.connect b snapshot eventId true wire) := by
  obtain ⟨before, early, got, rest, hf⟩ := h b hb
  have hf := follows_drop hf
  have hcursor : Ends (before ++ (early ++ got)) b.cursor := by simpa [Browser.drop] using hf.cursor
  have hheader := header_eq hcursor
  have hstored : s.stream.retained = before ++ (early ++ got) ++ rest := by simpa using hf.stored
  have hstream : (s.connect b snapshot eventId true wire).stream =
      s.stream.subscribe snapshot eventId b.cursor true wire := by
    simp only [connect, hheader]
  have hbrowser : (s.connect b snapshot eventId true wire).browser = some { b with
      connection := if s.stream.throws snapshot eventId b.cursor true wire then none
        else some { emitter := s.stream.opened } } := by
    simp only [connect, hheader]
  have hretained := (@subscribe_kept s.stream eventId true wire snapshot b.cursor hk.numbered).1
  intro b' hb'
  rw [hbrowser] at hb'
  cases hb'
  rw [hstream]
  refine ⟨before, early ++ got, [], rest, ?_, ?_, hf.initial, by simpa using hcursor, hf.events,
    fun c hc => ?_⟩
  · rw [hretained]
    exact hf.stored
  · rw [hretained]
    exact hf.nonempty
  · cases hthrows : s.stream.throws snapshot eventId b.cursor true wire with
    | true =>
      rw [hthrows] at hc
      cases hc
    | false =>
      rw [hthrows] at hc
      cases hc
      exact Linked.connect hk.numbered hstored hk.ids hf.nonempty hcursor hthrows

/-- The bytes that are read next follow those that were read. -/
theorem taken_append {all : List UInt8} {taken n : Nat} (h : taken ≤ all.length) :
    all.take taken ++ (all.drop taken).take n = all.take (taken + ((all.drop taken).take n).length) ∧
      all.take taken ++ (all.drop taken).take n <+: all ∧
      taken + ((all.drop taken).take n).length ≤ all.length := by
  have hfirst : all.take taken ++ (all.drop taken).take n <+: all := by
    rw [← List.take_add]
    exact List.take_prefix _ _
  have hlength := hfirst.length_le
  have heq := List.prefix_iff_eq_take.mp hfirst
  rw [List.length_append, List.length_take_of_le h] at hlength heq
  exact ⟨heq, hfirst, hlength⟩

/-- A chunk gives the events that are complete with it. -/
theorem tracked_read {b : Browser} {c : Connection} {n : Nat} (hk : Kept s.stream)
    (hcodec : ∀ e ∈ s.stream.retained, codec.Carries e) (h : Tracked codec s)
    (hb : s.browser = some b) (hc : b.connection = some c) : Tracked codec (s.read codec b c n) := by
  obtain ⟨before, early, got, rest, hf⟩ := h b hb
  have hl := hf.linked c hc
  have hsound : ∀ e ∈ written (s.stream.emitters c.emitter), Sound codec e :=
    fun e he => hf.sound hk hcodec e (hl.first.subset he)
  obtain ⟨htaken, hfirst, hlength⟩ := @taken_append _ c.taken n hl.taken
  obtain ⟨more, r, hread, hreads, hheard⟩ := read_frames hsound hfirst hl.reads hl.heard
  rw [htaken] at hreads
  obtain ⟨late, hlate⟩ := hheard.trans hl.first
  rw [List.append_assoc, List.append_cancel_left_eq] at hlate
  have hstep : s.read codec b c n = { s with browser := some { b.hear (more.map view) with
      connection := some { c with
        taken := c.taken + (((bytes codec (s.stream.emitters c.emitter)).drop c.taken).take n).length
        reader := r } } } := by
    simp only [Feed.read, hread, Bool.false_eq_true, if_false]
  intro b' hb'
  rw [hstep] at hb' ⊢
  cases hb'
  have hcursor := @Browser.hear_cursor b _ more hf.cursor
  refine ⟨before, early, got ++ more, late, ?_, hf.nonempty, ?_, ?_, ?_, fun c' hc' => ?_⟩
  · rw [hf.stored, ← hlate]
    simp
  · rw [Browser.hear_kept.1]
    exact hf.initial
  · rw [← List.append_assoc]
    exact hcursor
  · rw [Browser.hear_events, hf.events]
    simp
  · cases hc'
    have hsame : got ++ more ++ late = got ++ rest := by rw [← hlate, List.append_assoc]
    rw [hsame]
    exact ⟨hl.opened, hl.first, hl.whole, hheard, hlength, hreads⟩

theorem tracked_drop {b b' : Browser} (h : Tracked codec s) (hb : s.browser = some b)
    (hsame : b' = b.drop) : Tracked codec { s with browser := some b' } := by
  obtain ⟨before, early, got, rest, hf⟩ := h b hb
  intro b'' hb''
  cases hb''
  rw [hsame]
  exact ⟨before, early ++ got, [], rest, follows_drop hf⟩

theorem kept_next (h : Kept s.stream) (hstored : Stored maxLength s m)
    (hm : s.next codec maxLength m = some t) :
    Kept t.stream ∧ ∀ e ∈ s.stream.retained, e ∈ t.stream.retained := by
  cases m with
  | publish signal eventId redis wire =>
    obtain ⟨htype, rfl, hlength, hfresh⟩ := hstored
    obtain rfl := Option.some.inj hm
    refine ⟨h.publish htype hlength hfresh, fun e he => ?_⟩
    rw [(@publish_retained maxLength s.stream signal eventId wire hlength).2.1]
    exact List.mem_append_left _ he
  | subscribe snapshot eventId lastEventId redis wire =>
    obtain rfl := Option.some.inj hm
    obtain ⟨hr, hs, _⟩ :=
      @subscribe_kept s.stream eventId redis wire snapshot lastEventId h.numbered
    exact ⟨h.same h.numbered.subscribe hr hs, fun e he => hr ▸ he⟩
  | close id =>
    obtain rfl := Option.some.inj hm
    exact ⟨h.same ⟨h.numbered.once, h.numbered.opened⟩ rfl rfl, fun e he => he⟩
  | onClose id =>
    obtain ⟨stream, hs, rfl⟩ := Option.map_eq_some_iff.mp hm
    have hn := h.numbered.onClose hs
    unfold EventStream.onClose at hs
    split at hs
    · cases hs
    · cases hs
      exact ⟨h.same hn rfl rfl, fun e he => he⟩
  | expire => exact hstored.elim
  | watch lastEventId =>
    simp only [next] at hm
    split at hm
    · cases hm
      exact ⟨h, fun e he => he⟩
    · cases hm
  | connect snapshot eventId redis wire =>
    simp only [next] at hm
    split at hm
    · cases hm
      obtain ⟨hr, hs, _⟩ := @subscribe_kept s.stream eventId redis wire snapshot _ h.numbered
      exact ⟨h.same h.numbered.subscribe hr hs, fun e he => hr ▸ he⟩
    · cases hm
  | read n =>
    obtain ⟨b, _, hm⟩ := Option.bind_eq_some_iff.mp hm
    obtain ⟨c, _, hm⟩ := Option.bind_eq_some_iff.mp hm
    cases hm
    exact ⟨h, fun e he => he⟩
  | done =>
    obtain ⟨b, _, hm⟩ := Option.bind_eq_some_iff.mp hm
    obtain ⟨c, _, hm⟩ := Option.bind_eq_some_iff.mp hm
    cases hm
    exact ⟨h, fun e he => he⟩
  | abort =>
    obtain ⟨b, _, hm⟩ := Option.bind_eq_some_iff.mp hm
    cases hm
    exact ⟨h, fun e he => he⟩

theorem tracked_next (hk : Kept s.stream) (h : Tracked codec s)
    (hcodec : ∀ e ∈ s.stream.retained, codec.Carries e) (hstored : Stored maxLength s m)
    (hheard : Heard s m) (hm : s.next codec maxLength m = some t) : Tracked codec t := by
  cases m with
  | publish signal eventId redis wire =>
    obtain ⟨_, rfl, hlength, _⟩ := hstored
    obtain rfl := Option.some.inj hm
    exact tracked_publish hk h hlength hheard
  | subscribe snapshot eventId lastEventId redis wire =>
    obtain rfl := Option.some.inj hm
    obtain ⟨hr, _, hopened⟩ :=
      @subscribe_kept s.stream eventId redis wire snapshot lastEventId hk.numbered
    refine tracked_same h hr fun got rest c hl => ?_
    obtain ⟨he, hmem⟩ := @subscribe_older s.stream eventId redis wire snapshot lastEventId c.emitter
      hk.numbered hl.opened
    exact hl.same (by omega) he fun hs _ => hmem.mpr hs
  | close id =>
    obtain rfl := Option.some.inj hm
    refine tracked_same h rfl fun got rest c hl => ?_
    have hopened : s.stream.opened ≤ (s.stream.close id).opened := Nat.le_refl _
    by_cases hid : c.emitter = id
    · have hwritten : written ((s.stream.close id).emitters c.emitter) =
          written (s.stream.emitters c.emitter) := by
        simp [EventStream.close, hid, written]
      apply hl.mono hopened
      · rw [hwritten]
      · rw [hwritten]
        exact hl.first
      · intro hopen
        simp [EventStream.close, hid, SseEmitter.finish_ended] at hopen
    · apply hl.same hopened
      · simp [EventStream.close, hid]
      · exact fun hs _ => hs
  | onClose id =>
    obtain ⟨stream, hs, rfl⟩ := Option.map_eq_some_iff.mp hm
    unfold EventStream.onClose at hs
    split at hs
    · cases hs
    · rename_i hended
      cases hs
      refine tracked_same h rfl fun got rest c hl => hl.same (Nat.le_refl _) rfl fun hsub hopen => ?_
      have hne : c.emitter ≠ id := fun he => hended (he ▸ hopen)
      exact (List.mem_erase_of_ne hne).mpr hsub
  | expire => exact hstored.elim
  | watch lastEventId =>
    simp only [next] at hm
    split at hm
    · cases hm
      exact tracked_watch hstored.1 hstored.2
    · cases hm
  | connect snapshot eventId redis wire =>
    obtain rfl : redis = true := hstored
    simp only [next] at hm
    split at hm
    · rename_i hb
      cases hm
      exact tracked_connect hk h hb
    · cases hm
  | read n =>
    obtain ⟨b, hb, hm⟩ := Option.bind_eq_some_iff.mp hm
    obtain ⟨c, hc, hm⟩ := Option.bind_eq_some_iff.mp hm
    cases hm
    exact tracked_read hk hcodec h hb hc
  | done =>
    obtain ⟨b, hb, hm⟩ := Option.bind_eq_some_iff.mp hm
    obtain ⟨c, hc, hm⟩ := Option.bind_eq_some_iff.mp hm
    cases hm
    obtain ⟨before, early, got, rest, hf⟩ := h b hb
    rw [done_nothing (hf.linked c hc).reads]
    exact tracked_drop h hb rfl
  | abort =>
    obtain ⟨b, hb, hm⟩ := Option.bind_eq_some_iff.mp hm
    cases hm
    exact tracked_drop h hb rfl

/-- What the stored events are, and where the browser stands among them. -/
theorem tracked (h : ((system codec maxLength).restrict fun s m _ =>
    Stored maxLength s m ∧ Heard s m).Reachable s) :
    Kept s.stream ∧ ((∀ e ∈ s.stream.retained, codec.Carries e) → Tracked codec s) := by
  refine h.invariant (P := fun s =>
    Kept s.stream ∧ ((∀ e ∈ s.stream.retained, codec.Carries e) → Tracked codec s)) ?_ ?_
  · rintro s rfl
    refine ⟨⟨⟨List.nodup_nil, fun id hid => (by cases hid)⟩, rfl, rfl, List.nodup_nil,
      fun e he => (by cases he)⟩, fun _ b hb => (by cases hb)⟩
  · rintro s m t _ ⟨hk, hs⟩ ⟨hm, hstored, hheard⟩
    obtain ⟨hk', hmono⟩ := kept_next hk hstored hm
    refine ⟨hk', fun hcodec => ?_⟩
    have hcodec' : ∀ e ∈ s.stream.retained, codec.Carries e := fun e he => hcodec e (hmono e he)
    exact tracked_next hk (hs hcodec') hcodec' hstored hheard hm

end Feed

theorem Follows.resumed {codec : EventCodec} {s : Feed} {b : Browser}
    {before early got rest : List AnalysisJobEvent} (hk : Kept s.stream)
    (h : Follows codec s.stream b before early got rest) : Resumed s b := by
  have hstored : s.stream.retained = before ++ (early ++ got ++ rest) := by
    rw [h.stored]
    simp
  have hids := hk.ids
  have hsequences : (List.range' 1 s.stream.retained.length).IsChain fun n k => k = n + 1 :=
    List.isChain_range' 1 _ 1
  have hinside : early ++ got <:+: s.stream.retained := ⟨before, rest, by rw [hstored]; simp⟩
  refine ⟨?_, ?_, ?_⟩
  · rw [hstored] at hids ⊢
    rw [after_ends hids h.initial, h.events]
    exact (List.prefix_append (early ++ got) rest).map view
  · have hmap : b.events.map (·.event_id) = ((early ++ got).map (·.eventId)).map (·.text) := by
      rw [h.events, List.map_map, List.map_map]
      rfl
    rw [hmap]
    have hnodup := hids.sublist (hinside.sublist.map (·.eventId))
    exact hnodup.map fun u v huv => UUID.ext huv
  · rw [← hk.sequences, List.isChain_map] at hsequences
    rw [h.events, List.isChain_map]
    exact hsequences.infix hinside

namespace Feed

/-- However the connections break, the events that are passed on are the stored events after the
first cursor, in order and each once, as far as they have come. -/
theorem events_resumed (codec : EventCodec) (maxLength : Nat) (s : Feed)
    (h : ((system codec maxLength).restrict fun s m _ =>
      Stored maxLength s m ∧ Heard s m).Reachable s)
    (hcodec : ∀ e ∈ s.stream.retained, codec.Carries e) (b : Browser)
    (hb : s.browser = some b) : Resumed s b := by
  obtain ⟨hk, htracked⟩ := tracked h
  obtain ⟨before, early, got, rest, hf⟩ := htracked hcodec b hb
  exact hf.resumed hk

/-! Three events of a job. -/
section Gap

def acceptedSignal : JobProgressSignal := { type := "JOB_ACCEPTED", status := .created }
def planningSignal : JobProgressSignal := statusChanged .planning none
def stepSignal : JobProgressSignal := { type := "AGENT_STEP", status := .validating }

def firstId : UUID := ⟨"7b1d4f6e-0000-4000-8000-00000000000a", Eq.refl true⟩
def secondId : UUID := ⟨"7b1d4f6e-0000-4000-8000-00000000000b", Eq.refl true⟩
def thirdId : UUID := ⟨"7b1d4f6e-0000-4000-8000-00000000000c", Eq.refl true⟩

def firstEvent : AnalysisJobEvent := { transientEvent acceptedSignal firstId with sequence := 1 }
def secondEvent : AnalysisJobEvent := { transientEvent planningSignal secondId with sequence := 2 }
def thirdEvent : AnalysisJobEvent := { transientEvent stepSignal thirdId with sequence := 3 }

def jsonText (event : AnalysisJobEvent) : List Char :=
  Char.ofNat 123 :: ("\"event_id\":\"".toList ++ (event.eventId.text.toList ++
    ("\",\"sequence\":".toList ++ Nat.toDigits 10 event.sequence ++ ",\"type\":\"".toList ++
      event.type.toList ++ "\",\"status\":\"".toList ++ event.status.text.toList ++
      "\"\x7d".toList)))

/-- `JSON.parse` on the texts of these events. -/
def jsonCodec : EventCodec where
  write := jsonText
  parse text := ([firstEvent, secondEvent, thirdEvent].find? (jsonText · = text)).map view

theorem jsonText_id {e f : AnalysisJobEvent} (h : jsonText e = jsonText f) :
    e.eventId = f.eventId := by
  have htail := List.append_cancel_left (List.cons.inj h).2
  have hlength : e.eventId.text.toList.length = f.eventId.text.toList.length := by
    rw [UUID.length_text, UUID.length_text]
  exact UUID.ext (String.toList_inj.mp (List.append_inj htail hlength).1)

theorem jsonCodec_carries : ∀ e ∈ [firstEvent, secondEvent, thirdEvent], jsonCodec.Carries e := by
  have hall : ([firstEvent, secondEvent, thirdEvent].all fun e =>
      (jsonText e).all fun c => c != '\n' && c != '\r') = true := by decide +kernel
  have hline : ∀ e ∈ [firstEvent, secondEvent, thirdEvent], ∀ c ∈ jsonText e,
      c ≠ '\n' ∧ c ≠ '\r' := by
    intro e he c hc
    have hchar := List.all_eq_true.mp (List.all_eq_true.mp hall e he) c hc
    simpa using hchar
  have h12 : ¬ jsonText firstEvent = jsonText secondEvent :=
    fun h => absurd (jsonText_id h) (by decide)
  have h13 : ¬ jsonText firstEvent = jsonText thirdEvent :=
    fun h => absurd (jsonText_id h) (by decide)
  have h23 : ¬ jsonText secondEvent = jsonText thirdEvent :=
    fun h => absurd (jsonText_id h) (by decide)
  intro e he
  refine ⟨?_, ⟨_, rfl⟩, hline e he⟩
  simp only [List.mem_cons, List.not_mem_nil, or_false] at he
  obtain rfl | rfl | rfl := he
  · simp [jsonCodec]
  · simp [jsonCodec, h12]
  · simp [jsonCodec, h13, h23]

theorem moved {C : Feed → FeedMove → Prop}
    (h : ((system jsonCodec 500).restrict fun s m _ => C s m).Reachable s) (m : FeedMove)
    (hm : s.next jsonCodec 500 m = some t) (hc : C s m) :
    ((system jsonCodec 500).restrict fun s m _ => C s m).Reachable t :=
  h.step ⟨hm, hc⟩

def fine : Nat → Option SendFailure := fun _ => none

/-- The second event is published while the browser is connected. -/
theorem second_resumed : ∃ (s : Feed) (b : Browser), s.browser = some b ∧
    b.events = [view firstEvent, view secondEvent] ∧ Resumed s b := by
  have h0 : ((system jsonCodec 500).restrict fun s m _ =>
    Stored 500 s m ∧ Heard s m).Reachable {} := .start rfl
  have h1 := moved h0 (.publish acceptedSignal firstId true fine) rfl
    ⟨⟨by decide, rfl, by decide, fun e he => by cases he⟩, fun b c hb => by cases hb⟩
  have h2 := moved h1 (.watch none) rfl ⟨⟨List.cons_ne_nil _ _, fun id hid => by cases hid⟩, trivial⟩
  have h3 := moved h2 (.connect ⟨0, .created⟩ firstId true fine) rfl ⟨rfl, trivial⟩
  have h4 := moved h3 (.publish planningSignal secondId true fine) rfl
    ⟨⟨by decide, rfl, by decide, by decide⟩, fun b c hb hc _ => by cases hb; cases hc; decide⟩
  have h5 := moved h4 (.read 1000) rfl ⟨trivial, trivial⟩
  refine ⟨_, _, rfl, by decide +kernel, events_resumed jsonCodec 500 _ h5 ?_ _ rfl⟩
  intro e he
  have hstored : e ∈ [firstEvent, secondEvent] := he
  exact jsonCodec_carries e (List.mem_append_left [thirdEvent] hstored)

set_option maxRecDepth 10000 in
/-- The emitter of another client times out and is still in the list: the second event stops
there, and the third one comes through. -/
theorem second_lost : ¬ ∀ s, ((system jsonCodec 500).restrict fun s m _ => Stored 500 s m).Reachable s →
    (∀ e ∈ s.stream.retained, jsonCodec.Carries e) → ∀ b, s.browser = some b → Resumed s b := by
  intro h
  have h0 : ((system jsonCodec 500).restrict fun s m _ => Stored 500 s m).Reachable {} := .start rfl
  have h1 := moved h0 (.publish acceptedSignal firstId true fine) rfl
    ⟨by decide, rfl, by decide, fun e he => by cases he⟩
  have h2 := moved h1 (.subscribe ⟨0, .created⟩ firstId none true fine) rfl trivial
  have h3 := moved h2 (.watch none) rfl ⟨List.cons_ne_nil _ _, fun id hid => by cases hid⟩
  have h4 := moved h3 (.connect ⟨0, .created⟩ firstId true fine) rfl rfl
  have h5 := moved h4 (.close 0) rfl trivial
  have h6 := moved h5 (.publish planningSignal secondId true fine) rfl
    ⟨by decide, rfl, by decide, by decide⟩
  have h7 := moved h6 (.onClose 0) rfl trivial
  have h8 := moved h7 (.publish stepSignal thirdId true fine) rfl
    ⟨by decide, rfl, by decide, by decide⟩
  have h9 := moved h8 (.read 1000) rfl trivial
  have hresumed := h _ h9 (fun e he => jsonCodec_carries e he) _ rfl
  have hgap := hresumed.consecutive
  revert hgap
  decide +kernel

end Gap
end Feed

end DataCopilot.Web
