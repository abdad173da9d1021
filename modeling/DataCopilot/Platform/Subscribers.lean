import DataCopilot.Library.Transition
import DataCopilot.Platform.EventStream

/-! The map from jobs to lists of emitters under calls of `subscribe`, `publish` and `remove` side by
side. Every operation on the map or on a list is one step. -/
namespace DataCopilot.Platform

/-- Who calls `remove`: a callback of the container, `subscribe`, or `broadcast` with the emitters that
it has still to serve. -/
inductive RemoveCaller where
  | container
  | subscribe (job : UUID)
  | broadcast (job : UUID) (rest : List Nat)

/-- Where a thread stands: before which operation, with the local variables that it still reads. -/
inductive SubscriberCall where
  | idle
  | subscribing (job : UUID) (emitter : Nat)
  | adding (job : UUID) (emitter list : Nat)
  | greeting (job : UUID) (emitter : Nat)
  | publishing (job : UUID)
  | copying (job : UUID) (list : Option Nat)
  | sending (job : UUID) (rest : List Nat)
  | getting (job : UUID) (emitter : Nat) (caller : RemoveCaller)
  | erasing (job : UUID) (emitter list : Nat) (caller : RemoveCaller)
  | testing (job : UUID) (list : Nat) (caller : RemoveCaller)
  | unmapping (job : UUID) (list : Nat) (caller : RemoveCaller)
  | leaving (job : UUID)

def RemoveCaller.resume : RemoveCaller → SubscriberCall
  | .container => .idle
  | .subscribe job => .leaving job
  | .broadcast job rest => .sending job rest

inductive SubscriberMove where
  | subscribe (i : Nat) (job : UUID)
  | computeIfAbsent (i : Nat)
  | add (i : Nat)
  | send (i : Nat) (terminal : Bool) (failure : Option SendFailure)
  | publish (i : Nat) (job : UUID)
  | getOrDefault (i : Nat)
  | copy (i : Nat)
  | closed (i : Nat) (job : UUID) (emitter : Nat)
  | get (i : Nat)
  | erase (i : Nat)
  | isEmpty (i : Nat)
  | unmap (i : Nat)
  | unlock (i : Nat)

/-- The list objects of a job are numbered, and `subscribers` maps the job to one of them. `added` are
the emitters that `subscribe` has added, `called` those for which `remove` has been called. -/
structure Registry where
  subscribers : UUID → Option Nat := fun _ => none
  lists : UUID → Nat → List Nat := fun _ _ => []
  made : UUID → Nat := fun _ => 0
  jobLocks : UUID → Option Nat := fun _ => none
  calls : Nat → SubscriberCall := fun _ => .idle
  opened : Nat := 0
  added : List (UUID × Nat) := []
  called : List (UUID × Nat) := []

namespace Registry
variable (s : Registry) (i : Nat) (job : UUID)

def put (call : SubscriberCall) : Registry :=
  { s with calls := Function.update s.calls i call }

def lock (call : SubscriberCall) : Registry :=
  { s.put i call with jobLocks := Function.update s.jobLocks job (some i) }

def unlock : Registry :=
  { s.put i .idle with jobLocks := Function.update s.jobLocks job none }

/-- The contents of one list object. -/
def setList (list : Nat) (emitters : List Nat) : UUID → Nat → List Nat :=
  Function.update s.lists job (Function.update (s.lists job) list emitters)

/-- `computeIfAbsent` with no list in the map. -/
def newList (emitter : Nat) : Registry :=
  { s.put i (.adding job emitter (s.made job)) with
    subscribers := Function.update s.subscribers job (some (s.made job))
    lists := s.setList job (s.made job) []
    made := Function.update s.made job (s.made job + 1) }

def append (emitter list : Nat) : Registry :=
  { s.put i (.greeting job emitter) with
    lists := s.setList job list (s.lists job list ++ [emitter])
    added := (job, emitter) :: s.added }

def remove (emitter : Nat) (caller : RemoveCaller) : Registry :=
  { s.put i (.getting job emitter caller) with called := (job, emitter) :: s.called }

def drop (emitter list : Nat) (caller : RemoveCaller) : Registry :=
  { s.put i (.testing job list caller) with
    lists := s.setList job list ((s.lists job list).erase emitter) }

/-- `subscribers.remove(jobId, current)` takes effect if the list in the map equals `current`: two lists
are equal that hold the same emitters. -/
def Unmaps (list : Nat) : Prop :=
  ∃ mapped, s.subscribers job = some mapped ∧ s.lists job mapped = s.lists job list

def unmapped (list : Nat) : Option Nat :=
  match s.subscribers job with
  | some mapped => if s.lists job mapped = s.lists job list then none else some mapped
  | none => none

def unmap (list : Nat) (caller : RemoveCaller) : Registry :=
  { s.put i caller.resume with
    subscribers := Function.update s.subscribers job (s.unmapped job list) }

/-- After the sends to one emitter: it is removed with a terminal status or a broken connection, and any
other exception leaves the method. -/
def sent (emitter : Nat) (caller : RemoveCaller) (terminal : Bool) : Option SendFailure → Registry
  | none => if terminal then s.remove i job emitter caller else s.put i caller.resume
  | some .ioException => s.remove i job emitter caller
  | some .illegalState => s.put i (.leaving job)

/-- The lock is taken with the call: what `subscribe` does before it, it does on an emitter that no
other thread has seen. -/
def next : SubscriberMove → Option Registry
  | .subscribe i job =>
    match s.calls i, s.jobLocks job with
    | .idle, none => some { s.lock i job (.subscribing job s.opened) with opened := s.opened + 1 }
    | _, _ => none
  | .computeIfAbsent i =>
    match s.calls i with
    | .subscribing job emitter =>
      match s.subscribers job with
      | some list => some (s.put i (.adding job emitter list))
      | none => some (s.newList i job emitter)
    | _ => none
  | .add i =>
    match s.calls i with
    | .adding job emitter list => some (s.append i job emitter list)
    | _ => none
  | .send i terminal failure =>
    match s.calls i with
    | .greeting job emitter => some (s.sent i job emitter (.subscribe job) terminal failure)
    | .sending job (emitter :: rest) => some (s.sent i job emitter (.broadcast job rest) terminal failure)
    | _ => none
  | .publish i job =>
    match s.calls i, s.jobLocks job with
    | .idle, none => some (s.lock i job (.publishing job))
    | _, _ => none
  | .getOrDefault i =>
    match s.calls i with
    | .publishing job => some (s.put i (.copying job (s.subscribers job)))
    | _ => none
  | .copy i =>
    match s.calls i with
    | .copying job none => some (s.put i (.sending job []))
    | .copying job (some list) => some (s.put i (.sending job (s.lists job list)))
    | _ => none
  | .closed i job emitter =>
    match s.calls i with
    | .idle => if (job, emitter) ∈ s.added then some (s.remove i job emitter .container) else none
    | _ => none
  | .get i =>
    match s.calls i with
    | .getting job emitter caller =>
      match s.subscribers job with
      | some list => some (s.put i (.erasing job emitter list caller))
      | none => some (s.put i caller.resume)
    | _ => none
  | .erase i =>
    match s.calls i with
    | .erasing job emitter list caller => some (s.drop i job emitter list caller)
    | _ => none
  | .isEmpty i =>
    match s.calls i with
    | .testing job list caller =>
      if s.lists job list = [] then some (s.put i (.unmapping job list caller))
      else some (s.put i caller.resume)
    | _ => none
  | .unmap i =>
    match s.calls i with
    | .unmapping job list caller => some (s.unmap i job list caller)
    | _ => none
  | .unlock i =>
    match s.calls i with
    | .leaving job => some (s.unlock i job)
    | .sending job [] => some (s.unlock i job)
    | _ => none

def system : Transition.System Registry SubscriberMove where
  init s := s = {}
  step s m t := s.next m = some t

/-- Every emitter that was added and not asked to be removed is in the list of its job. -/
def Registered (s : Registry) : Prop :=
  ∀ job emitter, (job, emitter) ∈ s.added → (job, emitter) ∉ s.called →
    ∃ list, s.subscribers job = some list ∧ emitter ∈ s.lists job list

/-- What a thread can rely on where it stands. -/
def Sane (s : Registry) (i : Nat) : SubscriberCall → Prop
  | .idle => True
  | .subscribing job emitter => s.jobLocks job = some i ∧ emitter < s.opened ∧ (job, emitter) ∉ s.added
  | .adding job emitter list =>
    s.jobLocks job = some i ∧ emitter < s.opened ∧ (job, emitter) ∉ s.added ∧
      s.subscribers job = some list
  | .greeting job emitter => s.jobLocks job = some i ∧ (job, emitter) ∈ s.added
  | .publishing job => s.jobLocks job = some i
  | .copying job _ => s.jobLocks job = some i
  | .sending job rest => s.jobLocks job = some i ∧ ∀ emitter ∈ rest, (job, emitter) ∈ s.added
  | .getting job emitter caller => (job, emitter) ∈ s.called ∧ Returns caller
  | .erasing job emitter _ caller => (job, emitter) ∈ s.called ∧ Returns caller
  | .testing _ _ caller => Returns caller
  | .unmapping _ _ caller => Returns caller
  | .leaving job => s.jobLocks job = some i
where
  Returns : RemoveCaller → Prop
    | .container => True
    | .subscribe job => s.jobLocks job = some i
    | .broadcast job rest => s.jobLocks job = some i ∧ ∀ emitter ∈ rest, (job, emitter) ∈ s.added

/-- `subscribe` has added no emitter that it did not open, and `remove` is called only for emitters
that it has added. -/
structure Sound (s : Registry) : Prop where
  registered : s.Registered
  calls : ∀ i, s.Sane i (s.calls i)
  listed : ∀ job list emitter, emitter ∈ s.lists job list → (job, emitter) ∈ s.added
  opened : ∀ job emitter, (job, emitter) ∈ s.added → emitter < s.opened
  added : ∀ p ∈ s.called, p ∈ s.added

/-- The list is taken out of the map while it holds a subscriber that no call of `remove` is for, or
while `subscribe` is about to add one to it. -/
def Loses (s : Registry) : SubscriberMove → Prop
  | .unmap i => ∃ job list caller mapped, s.calls i = .unmapping job list caller ∧
      s.subscribers job = some mapped ∧ s.lists job mapped = s.lists job list ∧
      ((∃ emitter ∈ s.lists job mapped, (job, emitter) ∉ s.called) ∨
        ∃ j emitter, s.calls j = .adding job emitter mapped)
  | _ => False

/-- What the other threads may change under a thread. -/
structure Spares (s t : Registry) (i : Nat) : Prop where
  locks : ∀ job, s.jobLocks job = some i → t.jobLocks job = some i
  opened : s.opened ≤ t.opened
  added : ∀ p ∈ s.added, p ∈ t.added
  called : ∀ p ∈ s.called, p ∈ t.called
  pending : ∀ job emitter, s.jobLocks job = some i → (job, emitter) ∈ t.added → (job, emitter) ∈ s.added
  mapped : ∀ job emitter list, s.calls i = .adding job emitter list → s.subscribers job = some list →
    t.subscribers job = some list

variable {s t : Registry} {i j list emitter : Nat} {job : UUID} {call : SubscriberCall}
  {caller : RemoveCaller}

theorem sane_resume : s.Sane i caller.resume ↔ Sane.Returns s i caller := by
  cases caller with
  | container => exact Iff.rfl
  | subscribe job => exact Iff.rfl
  | broadcast job rest => exact Iff.rfl

theorem Spares.returns (hf : s.Spares t i) (h : Sane.Returns s i caller) : Sane.Returns t i caller := by
  cases caller with
  | container => exact h
  | subscribe job => exact hf.locks job h
  | broadcast job rest => exact ⟨hf.locks job h.1, fun e he => hf.added _ (h.2 e he)⟩

theorem Spares.sane (hf : s.Spares t i) (h : s.Sane i (s.calls i)) : t.Sane i (s.calls i) := by
  have hmapped := hf.mapped
  cases hc : s.calls i with
  | idle => trivial
  | subscribing job e =>
    rw [hc] at h
    obtain ⟨hl, ho, hn⟩ := h
    have hnew : (job, e) ∉ t.added := fun hm => hn (hf.pending job e hl hm)
    exact ⟨hf.locks job hl, Nat.lt_of_lt_of_le ho hf.opened, hnew⟩
  | adding job e list =>
    rw [hc] at h
    obtain ⟨hl, ho, hn, hs⟩ := h
    have hnew : (job, e) ∉ t.added := fun hm => hn (hf.pending job e hl hm)
    exact ⟨hf.locks job hl, Nat.lt_of_lt_of_le ho hf.opened, hnew, hmapped job e list hc hs⟩
  | greeting job e =>
    rw [hc] at h
    exact ⟨hf.locks job h.1, hf.added _ h.2⟩
  | publishing job =>
    rw [hc] at h
    exact hf.locks job h
  | copying job list =>
    rw [hc] at h
    exact hf.locks job h
  | sending job rest =>
    rw [hc] at h
    exact ⟨hf.locks job h.1, fun e he => hf.added _ (h.2 e he)⟩
  | getting job e caller =>
    rw [hc] at h
    exact ⟨hf.called _ h.1, hf.returns h.2⟩
  | erasing job e list caller =>
    rw [hc] at h
    exact ⟨hf.called _ h.1, hf.returns h.2⟩
  | testing job list caller =>
    rw [hc] at h
    have hr : Sane.Returns s i caller := h
    exact hf.returns hr
  | unmapping job list caller =>
    rw [hc] at h
    have hr : Sane.Returns s i caller := h
    exact hf.returns hr
  | leaving job =>
    rw [hc] at h
    exact hf.locks job h

/-- One thread has moved, and spares the others. -/
theorem sane_moved (h : s.Sound) (hc : t.calls = Function.update s.calls i call)
    (hi : t.Sane i call) (hf : ∀ j, j ≠ i → s.Spares t j) : ∀ j, t.Sane j (t.calls j) := by
  intro j
  rw [hc, Function.update_apply]
  by_cases hj : j = i
  · rw [if_pos hj, hj]
    exact hi
  · rw [if_neg hj]
    exact (hf j hj).sane (h.calls j)

theorem spares_put (k : Nat) : s.Spares (s.put i call) k :=
  ⟨fun _ h => h, Nat.le_refl _, fun _ h => h, fun _ h => h, fun _ _ _ h => h, fun _ _ _ _ h => h⟩

/-- A thread that changes nothing but where it stands. -/
theorem Sound.put (h : s.Sound) (hi : s.Sane i call) : (s.put i call).Sound := by
  have hc : (s.put i call).Sane i call := by
    have hp : ∀ c, s.Sane i c → (s.put i call).Sane i c := fun c hs => by cases c <;> exact hs
    exact hp call hi
  exact ⟨h.registered, sane_moved h rfl hc fun k _ => spares_put k, h.listed, h.opened, h.added⟩

theorem holds_unique {k : Nat} (hk : k ≠ i) {job' : UUID} (hi : s.jobLocks job = some i)
    (hj : s.jobLocks job' = some k) : job' ≠ job := by
  intro he
  rw [he, hi] at hj
  injection hj with hj
  exact hk hj.symm

theorem lock_other {job' : UUID} {o : Option Nat} (hl : s.jobLocks job = none ∨ s.jobLocks job = some i)
    {k : Nat} (hk : k ≠ i) (h : s.jobLocks job' = some k) :
    Function.update s.jobLocks job o job' = some k := by
  have hne : job' ≠ job := by
    intro he
    rw [he] at h
    cases hl with
    | inl hl =>
      rw [hl] at h
      cases h
    | inr hl =>
      rw [hl] at h
      injection h with h
      exact hk h.symm
  rw [Function.update_of_ne hne]
  exact h

theorem Sound.subscribe (h : s.Sound) (hl : s.jobLocks job = none) :
    Sound { s.lock i job (.subscribing job s.opened) with opened := s.opened + 1 } := by
  have hnew : (job, s.opened) ∉ s.added := fun hm => Nat.lt_irrefl _ (h.opened job s.opened hm)
  have hlock : Function.update s.jobLocks job (some i) job = some i := Function.update_self ..
  refine ⟨h.registered, sane_moved h rfl ⟨hlock, Nat.lt_succ_self _, hnew⟩ ?_, h.listed, ?_, h.added⟩
  · intro k hk
    exact ⟨fun _ hj => lock_other (.inl hl) hk hj, Nat.le_succ _, fun _ hp => hp, fun _ hp => hp,
      fun _ _ _ hp => hp, fun _ _ _ _ hp => hp⟩
  · intro job' e he
    exact Nat.lt_succ_of_lt (h.opened job' e he)

theorem Sound.publish (h : s.Sound) (hl : s.jobLocks job = none) :
    (s.lock i job (.publishing job)).Sound := by
  have hlock : Function.update s.jobLocks job (some i) job = some i := Function.update_self ..
  refine ⟨h.registered, sane_moved h rfl hlock ?_, h.listed, h.opened, h.added⟩
  intro k hk
  exact ⟨fun _ hj => lock_other (.inl hl) hk hj, Nat.le_refl _, fun _ hp => hp, fun _ hp => hp,
    fun _ _ _ hp => hp, fun _ _ _ _ hp => hp⟩

theorem Sound.unlock (h : s.Sound) (hl : s.jobLocks job = some i) : (s.unlock i job).Sound := by
  refine ⟨h.registered, sane_moved h rfl trivial ?_, h.listed, h.opened, h.added⟩
  intro k hk
  exact ⟨fun _ hj => lock_other (.inr hl) hk hj, Nat.le_refl _, fun _ hp => hp, fun _ hp => hp,
    fun _ _ _ hp => hp, fun _ _ _ _ hp => hp⟩

theorem setList_apply {emitters : List Nat} {job' : UUID} {k : Nat} :
    s.setList job list emitters job' k = if job' = job ∧ k = list then emitters else s.lists job' k := by
  rw [setList, Function.update_apply]
  by_cases hj : job' = job
  · rw [if_pos hj, Function.update_apply]
    by_cases hk : k = list
    · simp [hj, hk]
    · simp [hj, hk]
  · simp [hj]

/-- With no list in the map, no emitter of the job waits for one. -/
theorem Sound.newList (h : s.Sound) (hc : s.calls i = .subscribing job emitter)
    (hs : s.subscribers job = none) : (s.newList i job emitter).Sound := by
  have hi := h.calls i
  rw [hc] at hi
  obtain ⟨hl, ho, hn⟩ := hi
  have hmap : ∀ {job'}, job' ≠ job →
      (s.newList i job emitter).subscribers job' = s.subscribers job' :=
    fun hne => Function.update_of_ne hne ..
  have hself : (s.newList i job emitter).subscribers job = some (s.made job) := Function.update_self ..
  refine ⟨?_, sane_moved h rfl ⟨hl, ho, hn, hself⟩ ?_, ?_, h.opened, h.added⟩
  · intro job' e ha hnc
    obtain ⟨a, hm, he⟩ := h.registered job' e ha hnc
    have hne : job' ≠ job := by
      intro hj
      rw [hj, hs] at hm
      cases hm
    refine ⟨a, (hmap hne).trans hm, ?_⟩
    change e ∈ s.setList job (s.made job) [] job' a
    rw [setList_apply, if_neg fun hj => hne hj.1]
    exact he
  · intro k hk
    refine ⟨fun _ hj => hj, Nat.le_refl _, fun _ hp => hp, fun _ hp => hp, fun _ _ _ hp => hp, ?_⟩
    intro job' e a hk' hm
    have hne : job' ≠ job := by
      intro hj
      rw [hj, hs] at hm
      cases hm
    exact (hmap hne).trans hm
  · intro job' a e he
    change e ∈ s.setList job (s.made job) [] job' a at he
    rw [setList_apply] at he
    by_cases hj : job' = job ∧ a = s.made job
    · rw [if_pos hj] at he
      cases he
    · rw [if_neg hj] at he
      exact h.listed job' a e he

theorem Sound.append (h : s.Sound) (hc : s.calls i = .adding job emitter list) :
    (s.append i job emitter list).Sound := by
  have hi := h.calls i
  rw [hc] at hi
  obtain ⟨hl, ho, hn, hs⟩ := hi
  have hgrows : ∀ {job' a e}, e ∈ s.lists job' a →
      e ∈ s.setList job list (s.lists job list ++ [emitter]) job' a := by
    intro job' a e he
    rw [setList_apply]
    by_cases hj : job' = job ∧ a = list
    · rw [if_pos hj]
      rw [hj.1, hj.2] at he
      exact List.mem_append_left _ he
    · rw [if_neg hj]
      exact he
  refine ⟨?_, sane_moved h rfl ⟨hl, List.mem_cons_self⟩ ?_, ?_, ?_, ?_⟩
  · intro job' e ha hnc
    cases List.mem_cons.mp ha with
    | inl he =>
      injection he with hj he
      refine ⟨list, by rw [hj]; exact hs, ?_⟩
      change e ∈ s.setList job list (s.lists job list ++ [emitter]) job' list
      rw [setList_apply, if_pos ⟨hj, rfl⟩, he]
      exact List.mem_append_right _ List.mem_cons_self
    | inr hm =>
      obtain ⟨a, hm', he⟩ := h.registered job' e hm hnc
      exact ⟨a, hm', hgrows he⟩
  · intro k hk
    refine ⟨fun _ hj => hj, Nat.le_refl _, fun _ hp => List.mem_cons_of_mem _ hp, fun _ hp => hp, ?_,
      fun _ _ _ _ hp => hp⟩
    intro job' e hj hp
    cases List.mem_cons.mp hp with
    | inl he =>
      injection he with he
      exact absurd he (holds_unique hk hl hj)
    | inr hm => exact hm
  · intro job' a e he
    change e ∈ s.setList job list (s.lists job list ++ [emitter]) job' a at he
    rw [setList_apply] at he
    by_cases hj : job' = job ∧ a = list
    · rw [if_pos hj] at he
      cases List.mem_append.mp he with
      | inl hm =>
        have hold := h.listed job list e hm
        rw [hj.1]
        exact List.mem_cons_of_mem _ hold
      | inr hm =>
        rw [hj.1, List.mem_singleton.mp hm]
        exact List.mem_cons_self
    · rw [if_neg hj] at he
      exact List.mem_cons_of_mem _ (h.listed job' a e he)
  · intro job' e he
    cases List.mem_cons.mp he with
    | inl he =>
      injection he with _ he
      rw [he]
      exact ho
    | inr hm => exact h.opened job' e hm
  · intro p hp
    exact List.mem_cons_of_mem _ (h.added p hp)

theorem Sound.remove (h : s.Sound) (ha : (job, emitter) ∈ s.added) (hr : Sane.Returns s i caller) :
    (s.remove i job emitter caller).Sound := by
  refine ⟨?_, sane_moved h rfl ⟨List.mem_cons_self, ?_⟩ ?_, h.listed, h.opened, ?_⟩
  · intro job' e he hnc
    exact h.registered job' e he fun hm => hnc (List.mem_cons_of_mem _ hm)
  · cases caller <;> exact hr
  · intro k _
    exact ⟨fun _ hj => hj, Nat.le_refl _, fun _ hp => hp, fun _ hp => List.mem_cons_of_mem _ hp,
      fun _ _ _ hp => hp, fun _ _ _ _ hp => hp⟩
  · intro p hp
    cases List.mem_cons.mp hp with
    | inl he =>
      rw [he]
      exact ha
    | inr hm => exact h.added p hm

theorem Sound.drop (h : s.Sound) (hc : s.calls i = .erasing job emitter list caller) :
    (s.drop i job emitter list caller).Sound := by
  have hi := h.calls i
  rw [hc] at hi
  refine ⟨?_, sane_moved h rfl ?_ ?_, ?_, h.opened, h.added⟩
  · intro job' e ha hnc
    obtain ⟨a, hm, he⟩ := h.registered job' e ha hnc
    refine ⟨a, hm, ?_⟩
    change e ∈ s.setList job list ((s.lists job list).erase emitter) job' a
    rw [setList_apply]
    by_cases hj : job' = job ∧ a = list
    · rw [if_pos hj]
      have hne : e ≠ emitter := by
        intro hee
        apply hnc
        rw [hj.1, hee]
        exact hi.1
      rw [hj.1, hj.2] at he
      exact (List.mem_erase_of_ne hne).mpr he
    · rw [if_neg hj]
      exact he
  · cases caller <;> exact hi.2
  · intro k _
    exact ⟨fun _ hj => hj, Nat.le_refl _, fun _ hp => hp, fun _ hp => hp, fun _ _ _ hp => hp,
      fun _ _ _ _ hp => hp⟩
  · intro job' a e he
    change e ∈ s.setList job list ((s.lists job list).erase emitter) job' a at he
    rw [setList_apply] at he
    by_cases hj : job' = job ∧ a = list
    · rw [if_pos hj] at he
      rw [hj.1]
      exact h.listed job list e (List.mem_of_mem_erase he)
    · rw [if_neg hj] at he
      exact h.listed job' a e he

theorem unmapped_cases : s.unmapped job list = s.subscribers job ∨
    s.unmapped job list = none ∧ s.Unmaps job list := by
  rw [unmapped]
  cases hs : s.subscribers job with
  | none => exact .inl rfl
  | some mapped =>
    by_cases he : s.lists job mapped = s.lists job list
    · exact .inr ⟨if_pos he, mapped, hs, he⟩
    · exact .inl (if_neg he)

/-- Nobody is in the list that leaves the map, or about to be, but emitters on their way out. -/
theorem Sound.unmap (h : s.Sound) (hc : s.calls i = .unmapping job list caller)
    (hn : ¬ s.Loses (.unmap i)) : (s.unmap i job list caller).Sound := by
  have hi := h.calls i
  rw [hc] at hi
  have hkept : ∀ job' a, s.subscribers job' = some a →
      (∃ e ∈ s.lists job' a, (job', e) ∉ s.called) ∨ (∃ j e, s.calls j = .adding job' e a) →
      Function.update s.subscribers job (s.unmapped job list) job' = some a := by
    intro job' a hs hlive
    by_cases hj : job' = job
    · rw [hj] at hs hlive ⊢
      rw [Function.update_self]
      cases @unmapped_cases s list job with
      | inl hu =>
        rw [hu]
        exact hs
      | inr hu =>
        obtain ⟨-, mapped, hm, he⟩ := hu
        have hma : mapped = a := by
          rw [hs] at hm
          injection hm with hm
          exact hm.symm
        rw [hma] at he
        exact absurd ⟨job, list, caller, a, hc, hs, he, hlive⟩ hn
    · rw [Function.update_of_ne hj]
      exact hs
  refine ⟨?_, sane_moved h rfl ?_ ?_, h.listed, h.opened, h.added⟩
  · intro job' e ha hnc
    obtain ⟨a, hm, he⟩ := h.registered job' e ha hnc
    exact ⟨a, hkept job' a hm (.inl ⟨e, he, hnc⟩), he⟩
  · cases caller <;> exact hi
  · intro k _
    exact ⟨fun _ hj => hj, Nat.le_refl _, fun _ hp => hp, fun _ hp => hp, fun _ _ _ hp => hp,
      fun job' e a hk hm => hkept job' a hm (.inr ⟨k, e, hk⟩)⟩

theorem Sound.resume (h : s.Sound) (hr : Sane.Returns s i caller) : (s.put i caller.resume).Sound :=
  h.put (sane_resume.mpr hr)

theorem Sound.sent {terminal : Bool} {failure : Option SendFailure} (h : s.Sound)
    (hl : s.jobLocks job = some i) (ha : (job, emitter) ∈ s.added) (hr : Sane.Returns s i caller) :
    (s.sent i job emitter caller terminal failure).Sound := by
  cases failure with
  | none =>
    cases terminal with
    | false => exact h.resume hr
    | true => exact h.remove ha hr
  | some failure =>
    cases failure with
    | ioException => exact h.remove ha hr
    | illegalState => exact h.put hl

theorem Sound.next_subscribe (h : s.Sound) (hm : s.next (.subscribe i job) = some t) : t.Sound := by
  simp only [Registry.next] at hm
  split at hm
  · injection hm with hm
    rw [← hm]
    exact h.subscribe (by assumption)
  · cases hm

theorem Sound.next_computeIfAbsent (h : s.Sound) (hm : s.next (.computeIfAbsent i) = some t) :
    t.Sound := by
  have hi := h.calls i
  simp only [Registry.next] at hm
  split at hm
  · rename_i job emitter hc
    rw [hc] at hi
    split at hm
    · rename_i list hs
      injection hm with hm
      rw [← hm]
      exact h.put ⟨hi.1, hi.2.1, hi.2.2, hs⟩
    · injection hm with hm
      rw [← hm]
      exact h.newList hc (by assumption)
  · cases hm

theorem Sound.next_add (h : s.Sound) (hm : s.next (.add i) = some t) : t.Sound := by
  simp only [Registry.next] at hm
  split at hm
  · rename_i hc
    injection hm with hm
    rw [← hm]
    exact h.append hc
  · cases hm

theorem Sound.next_send {terminal : Bool} {failure : Option SendFailure} (h : s.Sound)
    (hm : s.next (.send i terminal failure) = some t) : t.Sound := by
  have hi := h.calls i
  simp only [Registry.next] at hm
  split at hm
  · rename_i hc
    rw [hc] at hi
    injection hm with hm
    rw [← hm]
    exact h.sent hi.1 hi.2 hi.1
  · rename_i hc
    rw [hc] at hi
    injection hm with hm
    rw [← hm]
    have hrest := List.forall_mem_cons.mp hi.2
    exact h.sent hi.1 hrest.1 ⟨hi.1, hrest.2⟩
  · cases hm

theorem Sound.next_publish (h : s.Sound) (hm : s.next (.publish i job) = some t) : t.Sound := by
  simp only [Registry.next] at hm
  split at hm
  · injection hm with hm
    rw [← hm]
    exact h.publish (by assumption)
  · cases hm

theorem Sound.next_getOrDefault (h : s.Sound) (hm : s.next (.getOrDefault i) = some t) :
    t.Sound := by
  have hi := h.calls i
  simp only [Registry.next] at hm
  split at hm
  · rename_i hc
    rw [hc] at hi
    injection hm with hm
    rw [← hm]
    exact h.put hi
  · cases hm

theorem Sound.next_copy (h : s.Sound) (hm : s.next (.copy i) = some t) : t.Sound := by
  have hi := h.calls i
  simp only [Registry.next] at hm
  split at hm
  · rename_i hc
    rw [hc] at hi
    injection hm with hm
    rw [← hm]
    exact h.put ⟨hi, fun e he => by cases he⟩
  · rename_i job list hc
    rw [hc] at hi
    injection hm with hm
    rw [← hm]
    exact h.put ⟨hi, fun e he => h.listed job list e he⟩
  · cases hm

theorem Sound.next_closed (h : s.Sound) (hm : s.next (.closed i job emitter) = some t) :
    t.Sound := by
  simp only [Registry.next] at hm
  split at hm
  · by_cases ha : (job, emitter) ∈ s.added
    · rw [if_pos ha] at hm
      injection hm with hm
      rw [← hm]
      exact h.remove ha trivial
    · rw [if_neg ha] at hm
      cases hm
  · cases hm

theorem Sound.next_get (h : s.Sound) (hm : s.next (.get i) = some t) : t.Sound := by
  have hi := h.calls i
  simp only [Registry.next] at hm
  split at hm
  · rename_i hc
    rw [hc] at hi
    split at hm
    · injection hm with hm
      rw [← hm]
      exact h.put hi
    · injection hm with hm
      rw [← hm]
      exact h.resume hi.2
  · cases hm

theorem Sound.next_erase (h : s.Sound) (hm : s.next (.erase i) = some t) : t.Sound := by
  simp only [Registry.next] at hm
  split at hm
  · rename_i hc
    injection hm with hm
    rw [← hm]
    exact h.drop hc
  · cases hm

theorem Sound.next_isEmpty (h : s.Sound) (hm : s.next (.isEmpty i) = some t) : t.Sound := by
  have hi := h.calls i
  simp only [Registry.next] at hm
  split at hm
  · rename_i job list caller hc
    rw [hc] at hi
    by_cases he : s.lists job list = []
    · rw [if_pos he] at hm
      injection hm with hm
      rw [← hm]
      exact h.put hi
    · rw [if_neg he] at hm
      injection hm with hm
      rw [← hm]
      exact h.resume hi
  · cases hm

theorem Sound.next_unmap (h : s.Sound) (hm : s.next (.unmap i) = some t) (hn : ¬ s.Loses (.unmap i)) :
    t.Sound := by
  simp only [Registry.next] at hm
  split at hm
  · rename_i hc
    injection hm with hm
    rw [← hm]
    exact h.unmap hc hn
  · cases hm

theorem Sound.next_unlock (h : s.Sound) (hm : s.next (.unlock i) = some t) : t.Sound := by
  have hi := h.calls i
  simp only [Registry.next] at hm
  split at hm
  · rename_i hc
    rw [hc] at hi
    injection hm with hm
    rw [← hm]
    exact h.unlock hi
  · rename_i hc
    rw [hc] at hi
    injection hm with hm
    rw [← hm]
    exact h.unlock hi.1
  · cases hm

/-- The step lemma. -/
theorem Sound.next {m : SubscriberMove} (h : s.Sound) (hm : s.next m = some t) (hn : ¬ s.Loses m) :
    t.Sound := by
  cases m with
  | subscribe i job => exact h.next_subscribe hm
  | computeIfAbsent i => exact h.next_computeIfAbsent hm
  | add i => exact h.next_add hm
  | send i terminal failure => exact h.next_send hm
  | publish i job => exact h.next_publish hm
  | getOrDefault i => exact h.next_getOrDefault hm
  | copy i => exact h.next_copy hm
  | closed i job emitter => exact h.next_closed hm
  | get i => exact h.next_get hm
  | erase i => exact h.next_erase hm
  | isEmpty i => exact h.next_isEmpty hm
  | unmap i => exact h.next_unmap hm hn
  | unlock i => exact h.next_unlock hm

theorem sound_start : Sound {} := by
  refine ⟨?_, fun _ => trivial, ?_, ?_, ?_⟩
  · intro job emitter ha
    cases ha
  · intro job list emitter he
    cases he
  · intro job emitter ha
    cases ha
  · intro p hp
    cases hp

theorem sound_reachable (h : (system.restrict fun s m _ => ¬ s.Loses m).Reachable s) : s.Sound := by
  apply h.invariant
  · intro s hs
    rw [hs]
    exact sound_start
  · intro s m t _ hs hm
    exact hs.next hm.1 hm.2

/-- The subscriber is in the list that has gone, or will be in one step. -/
theorem Sound.lost {m : SubscriberMove} (h : s.Sound) (hm : s.next m = some t) (hl : s.Loses m) :
    ∃ w u, system.Path t w u ∧ ¬ u.Registered := by
  cases m with
  | unmap i =>
    obtain ⟨job, list, caller, mapped, hc, hs, he, hlive⟩ := hl
    have ht : t = s.unmap i job list caller := by
      simp only [Registry.next, hc] at hm
      injection hm with hm
      exact hm.symm
    have hgone : t.subscribers job = none := by
      have hu : s.unmapped job list = none := by rw [unmapped, hs]; exact if_pos he
      rw [ht]
      exact (Function.update_self ..).trans hu
    cases hlive with
    | inl hin =>
      obtain ⟨e, hin, hnc⟩ := hin
      refine ⟨[], t, .refl t, fun hr => ?_⟩
      rw [ht] at hr
      obtain ⟨a, hm', -⟩ := hr job e (h.listed job mapped e hin) hnc
      rw [← ht, hgone] at hm'
      cases hm'
    | inr hadding =>
      obtain ⟨j, e, hj⟩ := hadding
      have hne : j ≠ i := by
        intro hji
        rw [hji, hc] at hj
        cases hj
      have hjt : t.calls j = .adding job e mapped := by
        rw [ht]
        exact (Function.update_of_ne hne ..).trans hj
      have hnew : (job, e) ∉ s.called := by
        have hsane := h.calls j
        rw [hj] at hsane
        exact fun hcalled => hsane.2.2.1 (h.added _ hcalled)
      have hstep : system.step t (.add j) (t.append j job e mapped) := by
        change t.next (.add j) = _
        simp only [Registry.next, hjt]
      refine ⟨[.add j], t.append j job e mapped, .step (.refl t) hstep, fun hr => ?_⟩
      have hcalled : (t.append j job e mapped).called = s.called := by
        rw [ht]
        rfl
      obtain ⟨a, hm', -⟩ := hr job e List.mem_cons_self (by rw [hcalled]; exact hnew)
      change t.subscribers job = some a at hm'
      rw [hgone] at hm'
      cases hm'
  | _ => cases hl

/-- No subscriber is lost in runs in which no list leaves the map while it holds one, or while
`subscribe` is about to add one to it; and from every step of the other kind a state can be reached in
which a subscriber is lost. -/
theorem subscribers_registered (h : (system.restrict fun s m _ => ¬ s.Loses m).Reachable s) :
    s.Registered ∧ ∀ m t, system.step s m t → s.Loses m →
      ∃ w u, system.Path t w u ∧ ¬ u.Registered := by
  refine ⟨(sound_reachable h).registered, ?_⟩
  intro m t hm hl
  exact (sound_reachable h).lost hm hl

def watchedJob : UUID := ⟨"7b1d4f6e-0000-4000-8000-00000000001a", by decide⟩

theorem reached_safely (h : (system.restrict fun s m _ => ¬ s.Loses m).Reachable s) (m : SubscriberMove)
    (hm : s.next m = some t) (hl : ¬ s.Loses m) :
    (system.restrict fun s m _ => ¬ s.Loses m).Reachable t := by
  have hstep : (system.restrict fun s m _ => ¬ s.Loses m).step s m t := ⟨hm, hl⟩
  exact h.step hstep

/-- The container closes an emitter, and thread 1 takes the empty list out of the map before thread 0 subscribes
again: the second emitter is in a list of its own. -/
theorem second_subscriber_registered : ∃ s : Registry, s.added = [(watchedJob, 1), (watchedJob, 0)] ∧
    s.called = [(watchedJob, 0)] ∧ s.subscribers watchedJob = some 1 ∧ s.Registered := by
  have hlock := reached_safely (.start rfl) (.subscribe 0 watchedJob) rfl fun hl => hl
  have hlist := reached_safely hlock (.computeIfAbsent 0) rfl fun hl => hl
  have hadded := reached_safely hlist (.add 0) rfl fun hl => hl
  have hsent := reached_safely hadded (.send 0 false none) rfl fun hl => hl
  have hunlocked := reached_safely hsent (.unlock 0) rfl fun hl => hl
  have hclosed := reached_safely hunlocked (.closed 1 watchedJob 0) rfl fun hl => hl
  have hgot := reached_safely hclosed (.get 1) rfl fun hl => hl
  have herased := reached_safely hgot (.erase 1) rfl fun hl => hl
  have hempty := reached_safely herased (.isEmpty 1) rfl fun hl => hl
  have hunmapped := reached_safely hempty (.unmap 1) rfl ?_
  · have hrelock := reached_safely hunmapped (.subscribe 0 watchedJob) rfl fun hl => hl
    have hrelist := reached_safely hrelock (.computeIfAbsent 0) rfl fun hl => hl
    have hreadded := reached_safely hrelist (.add 0) rfl fun hl => hl
    exact ⟨_, rfl, rfl, rfl, (subscribers_registered hreadded).1⟩
  · rintro ⟨job, list, caller, mapped, hcall, hmapped, -, hcase⟩
    have hunmapping : SubscriberCall.unmapping watchedJob 0 .container = .unmapping job list caller := hcall
    cases hunmapping
    have hzero : some 0 = some mapped := hmapped
    cases hzero
    rcases hcase with ⟨emitter, hin, -⟩ | ⟨j, emitter, hj⟩
    · have hnil : emitter ∈ [] := hin
      cases hnil
    · by_cases h0 : j = 0
      · rw [h0] at hj
        cases hj
      · by_cases h1 : j = 1
        · rw [h1] at hj
          cases hj
        · simp only [put, drop, remove, unlock, append, newList, lock, sent, RemoveCaller.resume,
            Bool.false_eq_true, if_false, Function.update_of_ne h0, Function.update_of_ne h1] at hj
          cases hj

/-- Thread 0 subscribes; the container closes its emitter, and thread 1 finds the list empty; thread 0
subscribes again, and thread 1 takes the list, with the second emitter in it, out of the map. -/
def overtaken (job : UUID) : List SubscriberMove :=
  [.subscribe 0 job, .computeIfAbsent 0, .add 0, .send 0 false none, .unlock 0,
    .closed 1 job 0, .get 1, .erase 1, .isEmpty 1,
    .subscribe 0 job, .computeIfAbsent 0, .add 0, .unmap 1]

theorem second_subscriber_lost : ¬ ∀ s, system.Reachable s → s.Registered := by
  intro h
  obtain ⟨t, ht, ha, hc, hs⟩ : ∃ t, (overtaken watchedJob).foldlM next {} = some t ∧
      t.added = [(watchedJob, 1), (watchedJob, 0)] ∧ t.called = [(watchedJob, 0)] ∧
      t.subscribers watchedJob = none := ⟨_, rfl, rfl, rfl, rfl⟩
  obtain ⟨list, hm, -⟩ := h t (.foldlM (fun _ _ _ h => h) (.start rfl) ht) watchedJob 1 (by rw [ha]; simp)
    (by rw [hc]; simp)
  rw [hs] at hm
  cases hm

end Registry
end DataCopilot.Platform
