import DataCopilot.Platform.EventStream

/-! Whether the subscribers of a job learn that it has ended. A request reads the row first and
subscribes later; the row, the history in Redis and what is broadcast move in between. -/
namespace DataCopilot.Platform
open AnalysisJobStateMachine EventStream

/-- `requests` are the requests for the events that have read the row and not yet subscribed,
with their `Last-Event-ID`; `published` is what `publish` has returned, newest first. -/
structure Watch where
  row : AnalysisJobResource := { status := .created }
  stream : EventStream := {}
  requests : List (AnalysisJobResource × Option String) := []
  published : List AnalysisJobEvent := []

inductive WatchMove where
  | commit (status : AnalysisJobStatus)
  | request (lastEventId : Option String)
  | subscribe (snapshot : AnalysisJobResource) (lastEventId : Option String) (eventId : UUID)
      (redis : Bool) (wire : Nat → Option SendFailure)
  | publish (signal : JobProgressSignal) (eventId : UUID) (redis : Bool)
      (wire : Nat → Option SendFailure)
  | expire
  | close (id : Nat)
  | onClose (id : Nat)

namespace Watch
variable (maxLength : Nat) (s : Watch)

def next : WatchMove → Option Watch
  | .commit status =>
    if canTransition s.row.status status then
      some { s with row := { version := s.row.version + 1, status := status } }
    else none
  | .request lastEventId => some { s with requests := (s.row, lastEventId) :: s.requests }
  | .subscribe snapshot lastEventId eventId redis wire =>
    if (snapshot, lastEventId) ∈ s.requests then some { s with
        stream := s.stream.subscribe snapshot eventId lastEventId redis wire
        requests := s.requests.erase (snapshot, lastEventId) }
    else none
  | .publish signal eventId redis wire =>
    let (event, stream) := s.stream.publish maxLength signal eventId redis wire
    some { s with stream := stream, published := event :: s.published }
  | .expire => some { s with stream := s.stream.expire }
  | .close id => some { s with stream := s.stream.close id }
  | .onClose id => (s.stream.onClose id).map fun stream => { s with stream := stream }

def system : Transition.System Watch WatchMove where
  init s := s = {}
  step s m t := s.next maxLength m = some t

end Watch

/-- The job's terminal event has been broadcast. -/
def Ended (published : List AnalysisJobEvent) : Prop :=
  ∃ event ∈ published, isTerminal event.status = true

/-- A `Last-Event-ID` that names a terminal event. -/
def NamesEnd (published : List AnalysisJobEvent) (lastEventId : Option String) : Prop :=
  ∃ event ∈ published, isTerminal event.status = true ∧ lastEventId = some event.eventId.text

/-- An emitter that was sent a terminal status. -/
def SseEmitter.Told (emitter : SseEmitter) : Prop :=
  ∃ event ∈ emitter.sent, isTerminal event.status = true

theorem SseEmitter.Told.offered {emitter : SseEmitter} {event : AnalysisJobEvent}
    {wire : Option SendFailure} (h : emitter.Told) : ((emitter.offered event wire).1).Told := by
  obtain ⟨last, hmem, ht⟩ := h
  obtain ⟨_, _, ho⟩ | ⟨_, _, ho⟩ | ⟨_, ho⟩ := SseEmitter.offered_cases event wire emitter
  · rw [ho]
    exact ⟨last, List.mem_append_left _ hmem, ht⟩
  · rw [ho]
    exact ⟨last, hmem, ht⟩
  · rw [ho]
    exact ⟨last, hmem, ht⟩

/-- No emitter is completed untold, and none stays in the list untold once the end has been
broadcast. -/
structure Announced (s : Watch) : Prop where
  completed : ∀ id < s.stream.opened, (s.stream.emitters id).ended = some .completed →
    (s.stream.emitters id).Told ∨ NamesEnd s.published (s.stream.emitters id).lastEventId
  registered : ∀ id ∈ s.stream.subscribers, Ended s.published → (s.stream.emitters id).Told

/-- A history that answers the request has a terminal event to replay; otherwise the snapshot
is terminal. -/
def ShowsEnd (snapshot : AnalysisJobResource) (lastEventId : Option String)
    (events : List AnalysisJobEvent) : Prop :=
  (Replayable events lastEventId → ∃ event ∈ after events lastEventId, isTerminal event.status = true) ∧
  (¬ Replayable events lastEventId → isTerminal snapshot.status = true)

/-- A subscription shows the end if the snapshot is terminal and the request does not name the
end, or if the end has been broadcast. The terminal event comes to every subscriber that still
waits for it: no emitter before it throws anything but an `IOException`. -/
def Informs (s : Watch) : WatchMove → Prop
  | .subscribe snapshot lastEventId _ redis wire =>
    (Ended s.published → ∀ k, wire k ≠ some .illegalState) ∧
    (isTerminal snapshot.status = true ∧ ¬ NamesEnd s.published lastEventId ∨
        isTerminal snapshot.status = false ∧ Ended s.published →
      ShowsEnd snapshot lastEventId (s.stream.safeRead redis))
  | .publish signal _ _ wire => isTerminal signal.status = true →
      ∀ id ∈ s.stream.subscribers, (s.stream.emitters id).Told ∨
        s.stream.reaches wire s.stream.subscribers id = true
  | _ => True

section Greeting
variable {snapshot : AnalysisJobResource} {lastEventId : Option String} {eventId : UUID}
  {events : List AnalysisJobEvent}

theorem showsEnd_iff : ShowsEnd snapshot lastEventId events ↔
    ∃ event ∈ greeting snapshot eventId lastEventId events, isTerminal event.status = true := by
  by_cases h : Replayable events lastEventId
  · rw [greeting_of_replayable h]
    exact ⟨fun hs => hs.1 h, fun he => ⟨fun _ => he, fun hn => (hn h).elim⟩⟩
  · rw [greeting_of_not_replayable h]
    constructor
    · intro hs
      exact ⟨_, List.mem_singleton_self _, hs.2 h⟩
    · rintro ⟨event, hmem, ht⟩
      rw [List.mem_singleton.mp hmem] at ht
      exact ⟨fun ha => (h ha).elim, fun _ => ht⟩

end Greeting

namespace Watch
variable {maxLength : Nat} {s t : Watch} {m : WatchMove}

theorem numbered_next (h : s.stream.Numbered) (hm : s.next maxLength m = some t) :
    t.stream.Numbered := by
  cases m with
  | commit status =>
    simp only [next] at hm
    split at hm
    · cases hm
      exact h
    · cases hm
  | request lastEventId =>
    cases hm
    exact h
  | subscribe snapshot lastEventId eventId redis wire =>
    simp only [next] at hm
    split at hm
    · cases hm
      exact h.subscribe
    · cases hm
  | publish signal eventId redis wire =>
    cases hm
    exact h.publish
  | expire =>
    cases hm
    exact ⟨h.once, h.opened⟩
  | close id =>
    cases hm
    exact ⟨h.once, h.opened⟩
  | onClose id =>
    obtain ⟨stream, hs, rfl⟩ := Option.map_eq_some_iff.mp hm
    exact h.onClose hs

/-- A new emitter, beside the others as they were. -/
theorem announced_opening {emitter : SseEmitter} {registered : Bool} (hn : s.stream.Numbered)
    (hstream : t.stream = s.stream.opening emitter registered) (hpub : t.published = s.published)
    (h : Announced s)
    (hc : emitter.ended = some .completed → emitter.Told ∨ NamesEnd s.published emitter.lastEventId)
    (hr : registered = true → Ended s.published → emitter.Told) : Announced t := by
  constructor
  · intro id hid hdone
    rw [hstream] at hid hdone ⊢
    by_cases hnew : id = s.stream.opened
    · subst hnew
      simp only [opening, Function.update_self] at hdone ⊢
      rw [hpub]
      exact hc hdone
    · simp only [opening, Function.update_of_ne hnew] at hid hdone ⊢
      have hlt : id < s.stream.opened := by omega
      rw [hpub]
      exact h.completed id hlt hdone
  · intro id hid he
    rw [hpub] at he
    rw [hstream] at hid ⊢
    by_cases hnew : id = s.stream.opened
    · subst hnew
      simp only [opening, Function.update_self] at hid ⊢
      cases registered with
      | true => exact hr rfl he
      | false => exact (hn.fresh hid).elim
    · simp only [opening, Function.update_of_ne hnew] at hid ⊢
      have hold : id ∈ s.stream.subscribers := by
        cases registered with
        | false => exact hid
        | true =>
          obtain hid | hid := List.mem_append.mp hid
          · exact hid
          · exact (hnew (List.mem_singleton.mp hid)).elim
      exact h.registered id hold he

theorem announced_subscribe {snapshot : AnalysisJobResource} {lastEventId : Option String}
    {eventId : UUID} {redis : Bool} {wire : Nat → Option SendFailure} (hn : s.stream.Numbered)
    (h : Announced s) (hi : Informs s (.subscribe snapshot lastEventId eventId redis wire))
    (hstream : t.stream = s.stream.subscribe snapshot eventId lastEventId redis wire)
    (hpub : t.published = s.published) : Announced t := by
  obtain ⟨hwire, hshows⟩ := hi
  have hgreet := @showsEnd_iff snapshot lastEventId eventId (s.stream.safeRead redis)
  obtain hall | ⟨early, event, late, k, _, ⟨_, hfail⟩ | ⟨hw, hfail, _⟩⟩ :=
    @subscribe_cases s.stream eventId redis wire snapshot lastEventId hn _ rfl
  · rw [hall] at hstream
    refine announced_opening hn hstream hpub h (fun hdone => ?_) fun hreg he => ?_
    · have ht : isTerminal snapshot.status = true := by
        by_contra hno
        simp [hno] at hdone
      by_cases hnames : NamesEnd s.published lastEventId
      · exact .inr hnames
      · exact .inl (hgreet.mp (hshows (.inl ⟨ht, hnames⟩)))
    · have ht : isTerminal snapshot.status = false := by simpa using hreg
      exact hgreet.mp (hshows (.inr ⟨ht, he⟩))
  · rw [hfail] at hstream
    exact announced_opening hn hstream hpub h (fun hdone => by cases hdone) fun hreg => by cases hreg
  · rw [hfail] at hstream
    exact announced_opening hn hstream hpub h (fun hdone => by cases hdone)
      fun _ he => (hwire he k hw).elim

theorem announced_publish {signal : JobProgressSignal} {eventId : UUID} {redis : Bool}
    {wire : Nat → Option SendFailure} (hn : s.stream.Numbered) (h : Announced s)
    (hi : Informs s (.publish signal eventId redis wire))
    (hm : s.next maxLength (.publish signal eventId redis wire) = some t) : Announced t := by
  obtain rfl : { s with
      stream := (s.stream.publish maxLength signal eventId redis wire).2
      published := (s.stream.publish maxLength signal eventId redis wire).1 :: s.published } = t :=
    Option.some.inj hm
  have hstatus := @publish_status maxLength s.stream signal eventId redis wire
  constructor
  · intro id hid hdone
    rw [publish_opened] at hid
    rw [publish_emitters hn] at hdone ⊢
    have hold : (s.stream.emitters id).ended = some .completed →
        (s.stream.emitters id).Told ∨
          NamesEnd ((s.stream.publish maxLength signal eventId redis wire).1 :: s.published)
            (s.stream.emitters id).lastEventId := by
      intro hd
      obtain ht | ⟨event, hmem, hn⟩ := h.completed id hid hd
      · exact .inl ht
      · exact .inr ⟨event, List.mem_cons_of_mem _ hmem, hn⟩
    by_cases hr : s.stream.reaches wire s.stream.subscribers id = true
    · rw [if_pos hr] at hdone ⊢
      obtain ⟨_, _, ho⟩ | ⟨_, _, ho⟩ | ⟨_, ho⟩ := SseEmitter.offered_cases
        (s.stream.publish maxLength signal eventId redis wire).1 (wire id) (s.stream.emitters id)
      · rw [ho] at hdone ⊢
        left
        refine ⟨_, List.mem_append_right _ (List.mem_singleton_self _), ?_⟩
        by_contra hno
        simp [hno] at hdone
      · rw [ho] at hdone
        cases hdone
      · rw [ho] at hdone ⊢
        exact hold hdone
    · rw [if_neg hr] at hdone ⊢
      exact hold hdone
  · intro id hid he
    obtain ⟨hsub, hstays⟩ := (mem_publish_subscribers hn id).mp hid
    rw [publish_emitters hn]
    have htold : (s.stream.emitters id).Told ∨ isTerminal signal.status = true ∧
        s.stream.reaches wire s.stream.subscribers id = true := by
      obtain ⟨event, hmem, ht⟩ := he
      obtain rfl | hmem := List.mem_cons.mp hmem
      · rw [hstatus] at ht
        exact (hi ht id hsub).imp_right fun hr => ⟨ht, hr⟩
      · exact .inl (h.registered id hsub ⟨event, hmem, ht⟩)
    by_cases hr : s.stream.reaches wire s.stream.subscribers id = true
    · rw [if_pos hr]
      obtain ht | ⟨ht, _⟩ := htold
      · exact ht.offered
      · obtain ⟨_, _, ho⟩ | ⟨_, _, ho⟩ | ⟨hf, _⟩ := SseEmitter.offered_cases
          (s.stream.publish maxLength signal eventId redis wire).1 (wire id) (s.stream.emitters id)
        · rw [ho]
          refine ⟨_, List.mem_append_right _ (List.mem_singleton_self _), ?_⟩
          rw [hstatus]
          exact ht
        · have hno := hstays hr
          rw [ho] at hno
          cases hno
        · exact (failure_of_reaches hr hf).elim
    · rw [if_neg hr]
      obtain ht | ⟨_, ht⟩ := htold
      · exact ht
      · exact (hr ht).elim

theorem announced_next (hn : s.stream.Numbered) (h : Announced s) (hi : Informs s m)
    (hm : s.next maxLength m = some t) : Announced t := by
  cases m with
  | commit status =>
    simp only [Watch.next] at hm
    split at hm
    · cases hm
      exact ⟨h.completed, h.registered⟩
    · cases hm
  | request lastEventId =>
    cases hm
    exact ⟨h.completed, h.registered⟩
  | subscribe snapshot lastEventId eventId redis wire =>
    simp only [Watch.next] at hm
    split at hm
    · cases hm
      exact announced_subscribe hn h hi rfl rfl
    · cases hm
  | publish signal eventId redis wire => exact announced_publish hn h hi hm
  | expire =>
    cases hm
    exact ⟨h.completed, h.registered⟩
  | close id =>
    cases hm
    constructor
    · intro j hj hdone
      simp only [EventStream.close, put_emitters] at hdone ⊢
      by_cases hji : j = id
      · subst hji
        rw [if_pos rfl] at hdone ⊢
        rw [SseEmitter.finish_ended] at hdone
        have hold : (s.stream.emitters j).ended = some .completed := by
          cases hd : (s.stream.emitters j).ended with
          | none =>
            rw [hd] at hdone
            cases hdone
          | some how =>
            rw [hd] at hdone
            exact hdone
        simpa [SseEmitter.Told] using h.completed j hj hold
      · rw [if_neg hji] at hdone ⊢
        exact h.completed j hj hdone
    · intro j hj he
      have hold := h.registered j hj he
      simp only [EventStream.close, put_emitters]
      by_cases hji : j = id
      · subst hji
        rw [if_pos rfl]
        simpa [SseEmitter.Told] using hold
      · rw [if_neg hji]
        exact hold
  | onClose id =>
    obtain ⟨stream, hs, rfl⟩ := Option.map_eq_some_iff.mp hm
    unfold EventStream.onClose at hs
    split at hs
    · cases hs
    · cases hs
      exact ⟨h.completed, fun j hj he => h.registered j (List.mem_of_mem_erase hj) he⟩

/-- In a run whose subscriptions and broadcasts show the end, every subscriber learns it. -/
theorem job_end_announced (maxLength : Nat) (s : Watch)
    (h : ((system maxLength).restrict fun s m _ => Informs s m).Reachable s) : Announced s := by
  have hboth : s.stream.Numbered ∧ Announced s := by
    refine h.invariant (P := fun s => s.stream.Numbered ∧ Announced s) ?_ ?_
    · rintro s rfl
      exact ⟨⟨List.nodup_nil, fun id hid => (by cases hid)⟩,
        ⟨fun id hid => (by cases hid), fun id hid => (by cases hid)⟩⟩
    · rintro s l t _ ⟨hn, ha⟩ ⟨hm, hi⟩
      exact ⟨numbered_next hn hm, announced_next hn ha hi hm⟩
  exact hboth.2

/-- A subscription that goes through and does not show the end leaves its emitter untold. -/
theorem informs_of_announced_subscribe {snapshot : AnalysisJobResource}
    {lastEventId : Option String} {eventId : UUID} {redis : Bool} (hn : s.stream.Numbered)
    (hm : s.next maxLength (.subscribe snapshot lastEventId eventId redis fun _ => none) = some t)
    (h : Announced t) : Informs s (.subscribe snapshot lastEventId eventId redis fun _ => none) := by
  have ht : t.stream = s.stream.subscribe snapshot eventId lastEventId redis (fun _ => none) ∧
      t.published = s.published := by
    simp only [next] at hm
    split at hm
    · cases hm
      exact ⟨rfl, rfl⟩
    · cases hm
  obtain ⟨hstream, hpub⟩ := ht
  obtain hall | ⟨_, _, _, k, _, ⟨hw, _⟩ | ⟨hw, _⟩⟩ :=
    @subscribe_cases s.stream eventId redis (fun _ => none) snapshot lastEventId hn _ rfl
  · rw [hall] at hstream
    have hgreet := @showsEnd_iff snapshot lastEventId eventId (s.stream.safeRead redis)
    refine ⟨fun _ k hk => (by cases hk), fun hcase => hgreet.mpr ?_⟩
    obtain ⟨hterm, hnames⟩ | ⟨hterm, hend⟩ := hcase
    · have hdone := h.completed s.stream.opened (by simp [hstream, opening])
        (by simp [hstream, opening, hterm])
      rw [hstream, hpub] at hdone
      simp only [opening, Function.update_self] at hdone
      obtain htold | hn := hdone
      · exact htold
      · exact (hnames hn).elim
    · have htold := h.registered s.stream.opened (by simp [hstream, opening, hterm])
        (by rw [hpub]; exact hend)
      rw [hstream] at htold
      simpa only [opening, Function.update_self, SseEmitter.Told] using htold
  · cases hw
  · cases hw

/-- A subscriber that the terminal event does not reach is left untold in the list. -/
theorem informs_of_announced_publish {signal : JobProgressSignal} {eventId : UUID} {redis : Bool}
    {wire : Nat → Option SendFailure} (hn : s.stream.Numbered)
    (hm : s.next maxLength (.publish signal eventId redis wire) = some t) (h : Announced t) :
    Informs s (.publish signal eventId redis wire) := by
  obtain rfl : { s with
      stream := (s.stream.publish maxLength signal eventId redis wire).2
      published := (s.stream.publish maxLength signal eventId redis wire).1 :: s.published } = t :=
    Option.some.inj hm
  intro ht id hid
  by_cases hr : s.stream.reaches wire s.stream.subscribers id = true
  · exact .inr hr
  · left
    have hstays := (@mem_publish_subscribers maxLength s.stream signal eventId redis wire hn id).mpr
      ⟨hid, fun hreach => (hr hreach).elim⟩
    have htold := h.registered id hstays
      ⟨_, List.mem_cons_self, by rw [publish_status]; exact ht⟩
    rw [publish_emitters hn, if_neg hr] at htold
    exact htold

/-! A job that is accepted and then fails. -/
section Failed

def acceptedEventId : UUID := ⟨"7b1d4f6e-0000-4000-8000-00000000000a", by decide⟩
def failedEventId : UUID := ⟨"7b1d4f6e-0000-4000-8000-00000000000b", by decide⟩

theorem reached (h : ((system 500).restrict fun s m _ => Informs s m).Reachable s) (m : WatchMove)
    (hm : s.next 500 m = some t) (hi : Informs s m) :
    ((system 500).restrict fun s m _ => Informs s m).Reachable t :=
  h.step ⟨hm, hi⟩

theorem moved (h : (system 500).Reachable s) (m : WatchMove) (hm : s.next 500 m = some t) :
    (system 500).Reachable t :=
  h.step hm

/-- A subscriber that is there when FAILED is broadcast. -/
theorem failure_announced : ∃ s : Watch, Ended s.published ∧ s.stream.opened = 1 ∧ Announced s := by
  have h0 : ((system 500).restrict fun s m _ => Informs s m).Reachable {} := .start rfl
  have h1 := reached h0 (.publish ⟨"JOB_ACCEPTED", .created, none⟩ acceptedEventId true fun _ => none)
    rfl (fun ht => by cases ht)
  have h2 := reached h1 (.request none) rfl trivial
  have h3 := reached h2 (.subscribe ⟨0, .created⟩ none acceptedEventId true fun _ => none) rfl ?_
  have h4 := reached h3 (.commit .failed) rfl trivial
  have h5 := reached h4 (.publish (statusChanged .failed none) failedEventId true fun _ => none)
    rfl ?_
  · exact ⟨_, ⟨_, List.mem_cons_self, rfl⟩, rfl, job_end_announced 500 _ h5⟩
  · intro _ id hid
    obtain rfl := List.mem_singleton.mp hid
    exact .inr rfl
  · refine ⟨fun _ k hk => (by cases hk), ?_⟩
    rintro (⟨ht, _⟩ | ⟨_, event, hmem, ht⟩)
    · cases ht
    · rw [List.mem_singleton.mp hmem] at ht
      cases ht

/-- FAILED is committed and not yet published: the history is replayed without it, and the
emitter is completed. -/
theorem failure_untold : ¬ ∀ s, (system 500).Reachable s → Announced s := by
  intro h
  have h0 : (system 500).Reachable {} := .start rfl
  have h1 := moved h0 (.publish ⟨"JOB_ACCEPTED", .created, none⟩ acceptedEventId true fun _ => none) rfl
  have h2 := moved h1 (.commit .failed) rfl
  have h3 := moved h2 (.request none) rfl
  have h4 := moved h3 (.subscribe ⟨1, .failed⟩ none failedEventId true fun _ => none) rfl
  obtain ⟨event, hmem, ht⟩ | ⟨event, hmem, ht, _⟩ := (h _ h4).completed 0 (by decide) rfl
  · rw [List.mem_singleton.mp hmem] at ht
    cases ht
  · rw [List.mem_singleton.mp hmem] at ht
    cases ht

end Failed

end Watch
end DataCopilot.Platform
