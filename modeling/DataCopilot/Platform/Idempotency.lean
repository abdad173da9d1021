import Mathlib.Data.List.Nodup
import Mathlib.Data.Set.Function
import DataCopilot.Platform.Creation

/-! Calls of `create` under one key: at most one of them stores a job, and the others answer
with that job or fail. -/
namespace DataCopilot.Platform
open UniqueIndex

/-- The same data source, and the same question without the blanks around it. -/
def SameRequest (p q : CreateAnalysisJobRequest) : Prop :=
  p.dataSourceId = q.dataSourceId ∧ trim p.question = trim q.question

/-- Under each key there is one job, with one event, and every call under the key answers with
it or fails. -/
structure Idempotent (s : Intake) : Prop where
  one : (s.jobs.rows.map NewJob.key).Nodup
  event : ∀ job ∈ s.jobs.rows, (s.accepted.map Prod.snd).count job.id = 1
  publisher : ∀ p ∈ s.accepted, ∃ c, ∃ job ∈ s.jobs.rows, job.id = p.2 ∧
    s.calls p.1 = some (c, .ended (.ok (.fresh job)))
  success : ∀ i c created, s.calls i = some (c, .ended (.ok created)) →
    created.job ∈ s.jobs.rows ∧ created.job.key = c.key ∧
      ∃ j d, s.calls j = some (d, .ended (.ok (.fresh created.job))) ∧ d.key = c.key ∧
        SameRequest c.request d.request
  refused : ∀ i c answer j d created, s.calls i = some (c, .ended answer) →
    s.calls j = some (d, .ended (.ok created)) → c.key = d.key → ¬ SameRequest c.request d.request →
    ∃ e, answer = .error e

/-- A step changes the jobs, the audit events and what is dispatched only when its call succeeds
with a job of its own. -/
def OnlyCreators (s t : Intake) (i : Nat) : Prop :=
  (∀ c job, t.calls i ≠ some (c, .ended (.ok (.fresh job)))) →
    t.jobs.rows = s.jobs.rows ∧ t.audit = s.audit ∧ t.accepted = s.accepted

/-- The texts that the calls have hashed so far. -/
def Intake.hashed (s : Intake) : Set String :=
  {text | ∃ i c phase, s.calls i = some (c, phase) ∧ c.hashed = text}

/-- The id has a fixed length, so the hashed text can be taken apart again. -/
theorem hashed_inj {c d : CreateCall} (h : c.hashed = d.hashed) : SameRequest c.request d.request := by
  have hlength : ∀ u : UUID, u.text.toList.length = 36 := by
    intro u
    have hc := u.canonical
    simp only [isCanonical, Bool.and_eq_true, decide_eq_true_eq] at hc
    rw [String.length_toList]
    exact hc.1
  have hlists := congrArg String.toList h
  simp only [CreateCall.hashed, String.toList_append, List.append_assoc] at hlists
  obtain ⟨hid, hrest⟩ := List.append_inj hlists (by rw [hlength, hlength])
  have hquestion := List.append_cancel_left hrest
  constructor
  · cases hc : c.request.dataSourceId with
    | mk text canonical =>
      cases hd : d.request.dataSourceId with
      | mk text' canonical' =>
        rw [hc, hd] at hid
        rw [UUID.mk.injEq]
        exact String.toList_inj.mp hid
  · exact String.toList_inj.mp hquestion

namespace Intake
variable {sha256 : String → String} {s t : Intake} {m : CreateMove} {i : Nat} {c : CreateCall}
  {phase : CreatePhase} {job : NewJob}

/-- What holds of a call in each phase. -/
def Fits (sha256 : String → String) (s : Intake) (i : Nat) (c : CreateCall) : CreatePhase → Prop
  | .started => True
  | .saved job => job.Of sha256 c
  | .flushed job => job.Of sha256 c ∧ (i, job) ∈ s.jobs.pending
  | .ended (.error _) => True
  | .ended (.ok (.existing job)) => job ∈ s.jobs.rows ∧ job.key = c.key ∧ job.requestHash = sha256 c.hashed
  | .ended (.ok (.fresh job)) => job ∈ s.jobs.rows ∧ job.Of sha256 c

structure Sound (sha256 : String → String) (s : Intake) : Prop where
  unique : s.jobs.Unique NewJob.Clash
  calls : ∀ i c phase, s.calls i = some (c, phase) → Fits sha256 s i c phase
  stored : ∀ job ∈ s.jobs.rows, ∃ i c, s.calls i = some (c, .ended (.ok (.fresh job)))
  audit : s.audit = s.jobs.rows.map jobCreated
  accepted : s.accepted.map Prod.snd = s.jobs.rows.map NewJob.id
  published : ∀ p ∈ s.accepted, ∃ job ∈ s.jobs.rows, job.id = p.2 ∧
    ∃ c, s.calls p.1 = some (c, .ended (.ok (.fresh job)))

theorem put_calls (j : Nat) :
    (s.put i c phase).calls j = if j = i then some (c, phase) else s.calls j :=
  Function.update_apply s.calls i (some (c, phase)) j

/-- Rows that stay, and the pending row of the call, are all that a call relies on. -/
theorem Fits.keep (h : Fits sha256 s i c phase) (hrows : ∀ job ∈ s.jobs.rows, job ∈ t.jobs.rows)
    (hpending : ∀ job, (i, job) ∈ s.jobs.pending → (i, job) ∈ t.jobs.pending) :
    Fits sha256 t i c phase := by
  cases phase with
  | started => trivial
  | saved job => exact h
  | flushed job => exact ⟨h.1, hpending job h.2⟩
  | ended answer =>
    cases answer with
    | error e => trivial
    | ok created =>
      cases created with
      | existing job => exact ⟨hrows job h.1, h.2⟩
      | fresh job => exact ⟨hrows job h.1, h.2⟩

/-- What a step other than a commit keeps. -/
structure Steady (s : Intake) (i : Nat) (jobs : Table NewJob) : Prop where
  rows : jobs.rows = s.jobs.rows
  pending : ∀ j job, j ≠ i → (j, job) ∈ s.jobs.pending → (j, job) ∈ jobs.pending
  unended : ∀ c answer, s.calls i ≠ some (c, .ended answer)

theorem Advance.steady {jobs : Table NewJob} (h : Advance sha256 s i c jobs phase) :
    Steady s i jobs := by
  cases h with
  | begun h =>
    refine ⟨rfl, fun j job _ hm => hm, fun c answer he => ?_⟩
    rw [h] at he
    cases he
  | @failed e jobs phase h hopen hjobs =>
    have hended : ∀ c answer, s.calls i ≠ some (c, .ended answer) := by
      intro c answer he
      rw [h] at he
      cases he
      exact hopen answer rfl
    obtain rfl | rfl := hjobs
    · exact ⟨rfl, fun j job _ hm => hm, hended⟩
    · refine ⟨rfl, fun j job hj hm => ?_, hended⟩
      exact List.mem_filter.mpr ⟨hm, by simpa using hj⟩
  | replayed h =>
    refine ⟨rfl, fun j job _ hm => hm, fun c answer he => ?_⟩
    rw [h] at he
    cases he
  | saved h =>
    refine ⟨rfl, fun j job _ hm => hm, fun c answer he => ?_⟩
    rw [h] at he
    cases he
  | flushed h hjobs =>
    obtain ⟨rfl, _, _⟩ := Table.insert_inserted hjobs
    refine ⟨rfl, fun j job _ hm => List.mem_cons_of_mem _ hm, fun c answer he => ?_⟩
    rw [h] at he
    cases he

/-- Where the call of a step is the only one that changes, and has not ended before. -/
theorem put_ended {j : Nat} {d : CreateCall} {answer : Except CreateError Created}
    (hopen : ∀ c answer, s.calls i ≠ some (c, .ended answer))
    (h : s.calls j = some (d, .ended answer)) : (s.put i c phase).calls j = some (d, .ended answer) := by
  by_cases hj : j = i
  · subst hj
    exact absurd h (hopen d answer)
  · rw [put_calls, if_neg hj]
    exact h

theorem Advance.fits {jobs : Table NewJob} (h : Advance sha256 s i c jobs phase) (hs : Sound sha256 s) :
    Fits sha256 ({ s with jobs := jobs }.put i c phase) i c phase := by
  cases h with
  | begun => trivial
  | failed => trivial
  | replayed h hfind hhash =>
    have hkey := List.find?_some hfind
    exact ⟨List.mem_of_find?_eq_some hfind, by simpa using hkey, hhash⟩
  | saved h hof => exact hof
  | flushed h hjobs =>
    obtain ⟨rfl, _, _⟩ := Table.insert_inserted hjobs
    exact ⟨hs.calls i c _ h, List.mem_cons_self⟩

theorem Advance.unique {jobs : Table NewJob} (h : Advance sha256 s i c jobs phase)
    (hs : s.jobs.Unique NewJob.Clash) : jobs.Unique NewJob.Clash := by
  cases h with
  | begun => exact hs
  | failed _ _ hjobs =>
    obtain rfl | rfl := hjobs
    · exact hs
    · exact hs.release
  | replayed => exact hs
  | saved => exact hs
  | flushed _ hjobs => exact hs.insert hjobs

/-- Every step keeps the invariant. -/
theorem Sound.next (hs : Sound sha256 s) (h : s.next sha256 m = some t) : Sound sha256 t := by
  obtain ⟨c, jobs, phase, ha, rfl⟩ | ⟨i, c, job, rfl, hcall, rfl⟩ := next_cases h
  · obtain ⟨hrows, hpending, hopen⟩ := ha.steady
    refine ⟨ha.unique hs.unique, fun j d phase' hd => ?_, fun job hjob => ?_, ?_, ?_, fun p hp => ?_⟩
    · by_cases hj : j = m.caller
      · subst hj
        rw [put_calls, if_pos rfl] at hd
        cases hd
        exact ha.fits hs
      · rw [put_calls, if_neg hj] at hd
        refine (hs.calls j d phase' hd).keep (fun job hjob => ?_) fun job hm => hpending j job hj hm
        change job ∈ jobs.rows
        rw [hrows]
        exact hjob
    · have hold : job ∈ s.jobs.rows := by
        rw [← hrows]
        exact hjob
      obtain ⟨j, d, hd⟩ := hs.stored job hold
      exact ⟨j, d, put_ended (s := { s with jobs := jobs }) hopen hd⟩
    · change s.audit = jobs.rows.map jobCreated
      rw [hrows]
      exact hs.audit
    · change s.accepted.map Prod.snd = jobs.rows.map NewJob.id
      rw [hrows]
      exact hs.accepted
    · obtain ⟨job, hjob, hid, d, hd⟩ := hs.published p hp
      refine ⟨job, ?_, hid, d, put_ended (s := { s with jobs := jobs }) hopen hd⟩
      change job ∈ jobs.rows
      rw [hrows]
      exact hjob
  · have hfits := hs.calls i c _ hcall
    have hopen : ∀ d answer, s.calls i ≠ some (d, .ended answer) := by
      intro d answer he
      rw [hcall] at he
      cases he
    refine ⟨hs.unique.commit hfits.2, fun j d phase' hd => ?_, fun row hrow => ?_, ?_, ?_, fun p hp => ?_⟩
    · by_cases hj : j = i
      · subst hj
        rw [put_calls, if_pos rfl] at hd
        cases hd
        exact ⟨List.mem_cons_self, hfits.1⟩
      · rw [put_calls, if_neg hj] at hd
        refine (hs.calls j d phase' hd).keep (fun row hrow => List.mem_cons_of_mem _ hrow) fun row hm => ?_
        exact (List.mem_erase_of_ne (by simp [hj])).mpr hm
    · obtain rfl | hrow := List.mem_cons.mp hrow
      · exact ⟨i, c, by rw [put_calls, if_pos rfl]⟩
      · obtain ⟨j, d, hd⟩ := hs.stored row hrow
        exact ⟨j, d, put_ended hopen hd⟩
    · change jobCreated job :: s.audit = jobCreated job :: s.jobs.rows.map jobCreated
      rw [hs.audit]
    · change job.id :: s.accepted.map Prod.snd = job.id :: s.jobs.rows.map NewJob.id
      rw [hs.accepted]
    · obtain rfl | hp := List.mem_cons.mp hp
      · exact ⟨job, List.mem_cons_self, rfl, c, by rw [put_calls, if_pos rfl]⟩
      · obtain ⟨row, hrow, hid, d, hd⟩ := hs.published p hp
        exact ⟨row, List.mem_cons_of_mem _ hrow, hid, d, put_ended hopen hd⟩

theorem sound (h : (system sha256).Reachable s) : Sound sha256 s := by
  refine h.invariant ?_ fun s l t _ hs hst => hs.next hst
  rintro s rfl
  refine ⟨List.Pairwise.nil, fun i c phase h => ?_, fun job h => ?_, rfl, rfl, fun p h => ?_⟩
  · cases h
  · cases h
  · cases h

theorem Sound.apart (hs : Sound sha256 s) : s.jobs.rows.Pairwise fun a b => ¬ NewJob.Clash a b :=
  hs.unique.sublist (List.sublist_append_left _ _)

theorem Sound.ids (hs : Sound sha256 s) : (s.jobs.rows.map NewJob.id).Nodup :=
  List.pairwise_map.mpr (hs.apart.imp fun h hid => h (.inl hid))

theorem Sound.keys (hs : Sound sha256 s) : (s.jobs.rows.map NewJob.key).Nodup :=
  List.pairwise_map.mpr (hs.apart.imp fun h hkey => h (.inr hkey))

/-- A successful call and the call that stored its job hashed the same. -/
theorem Sound.success (hs : Sound sha256 s) (hinj : Set.InjOn sha256 s.hashed) {created : Created}
    (h : s.calls i = some (c, .ended (.ok created))) :
    created.job ∈ s.jobs.rows ∧ created.job.key = c.key ∧
      ∃ j d, s.calls j = some (d, .ended (.ok (.fresh created.job))) ∧ d.key = c.key ∧
        SameRequest c.request d.request := by
  have hfits := hs.calls i c _ h
  cases created with
  | fresh job =>
    obtain ⟨hrow, hof⟩ := hfits
    exact ⟨hrow, hof.key, i, c, h, rfl, rfl, rfl⟩
  | existing job =>
    obtain ⟨hrow, hkey, hhash⟩ := hfits
    obtain ⟨j, d, hd⟩ := hs.stored job hrow
    have hof := (hs.calls j d _ hd).2
    have hhashed : c.hashed = d.hashed := by
      refine hinj ⟨i, c, _, h, rfl⟩ ⟨j, d, _, hd, rfl⟩ ?_
      rw [← hhash, hof.requestHash]
    exact ⟨hrow, hkey, j, d, hd, by rw [← hof.key, hkey], hashed_inj hhashed⟩

/-- Two successful calls under one key made the same request. -/
theorem Sound.same (hs : Sound sha256 s) (hinj : Set.InjOn sha256 s.hashed) {j : Nat} {d : CreateCall}
    {created created' : Created} (hc : s.calls i = some (c, .ended (.ok created)))
    (hd : s.calls j = some (d, .ended (.ok created'))) (hkey : c.key = d.key) :
    SameRequest c.request d.request := by
  obtain ⟨hrow, hk, i', c', hc', _, hsame⟩ := hs.success hinj hc
  obtain ⟨hrow', hk', j', d', hd', _, hsame'⟩ := hs.success hinj hd
  have hjobs : created.job = created'.job :=
    List.inj_on_of_nodup_map hs.keys hrow hrow' (by rw [hk, hk', hkey])
  have hof : created.job.Of sha256 c' := (hs.calls i' c' _ hc').2
  have hof' : created'.job.Of sha256 d' := (hs.calls j' d' _ hd').2
  rw [← hjobs] at hof'
  constructor
  · rw [hsame.1, ← hof.dataSourceId, hof'.dataSourceId, hsame'.1]
  · rw [hsame.2, ← hof.question, hof'.question, hsame'.2]

theorem Sound.idempotent (hs : Sound sha256 s) (hinj : Set.InjOn sha256 s.hashed) : Idempotent s where
  one := hs.keys
  event job hjob := by
    rw [hs.accepted]
    exact List.count_eq_one_of_mem hs.ids (List.mem_map_of_mem hjob)
  publisher p hp := by
    obtain ⟨job, hjob, hid, c, hc⟩ := hs.published p hp
    exact ⟨c, job, hjob, hid, hc⟩
  success i c created h := hs.success hinj h
  refused i c answer j d created hc hd hkey hdiffers := by
    cases answer with
    | error e => exact ⟨e, rfl⟩
    | ok answer => exact absurd (hs.same hinj hc hd hkey) hdiffers

theorem onlyCreators (h : s.next sha256 m = some t) : OnlyCreators s t m.caller := by
  intro hnone
  obtain ⟨c, jobs, phase, ha, rfl⟩ | ⟨i, c, job, rfl, _, rfl⟩ := next_cases h
  · exact ⟨ha.steady.rows, rfl, rfl⟩
  · refine absurd ?_ (hnone c job)
    change (put _ i c _).calls i = _
    rw [put_calls, if_pos rfl]

/-- In every interleaving of calls of `create`, under a digest that tells the texts that were
hashed apart. -/
theorem create_idempotent (sha256 : String → String) (s : Intake)
    (h : (system sha256).Reachable s) :
    (Set.InjOn sha256 s.hashed → Idempotent s) ∧
      ∀ m t, (system sha256).step s m t → OnlyCreators s t m.caller :=
  ⟨fun hinj => (sound h).idempotent hinj, fun _ _ hst => onlyCreators hst⟩

theorem reached (h : (system sha256).Reachable s) (m : CreateMove) (hm : s.next sha256 m = some t) :
    (system sha256).Reachable t := h.step hm

/-! Two calls of one user that ask the same, one after the other. -/
section Twice

def northwindId : UUID := ⟨"7b1d4f6e-0000-4000-8000-000000000001", by decide⟩
def analystId : UUID := ⟨"7b1d4f6e-0000-4000-8000-000000000002", by decide⟩
def firstJobId : UUID := ⟨"7b1d4f6e-0000-4000-8000-000000000003", by decide⟩
def otherJobId : UUID := ⟨"7b1d4f6e-0000-4000-8000-000000000004", by decide⟩

def askOrders (question : String) : CreateCall where
  request := ⟨northwindId, question⟩
  idempotencyKey := "orders-2024-0001"
  caller := ⟨analystId, northwindId⟩
  traceId := "0123456789abcdef"

theorem asked_twice : ∃ s, (system id).Reachable s ∧ s.jobs.rows.length = 1 ∧ Idempotent s := by
  have r0 : (system id).Reachable {} := .start rfl
  have r1 := reached r0 (.call 0 (askOrders "Show the orders")) rfl
  have r2 := reached r1 (.read 0 true true firstJobId) rfl
  have r3 := reached r2 (.flush 0) rfl
  have r4 := reached r3 (.commit 0) rfl
  have r5 := reached r4 (.call 1 (askOrders " Show the orders")) rfl
  have r6 := reached r5 (.read 1 true true otherJobId) rfl
  exact ⟨_, r6, rfl, (create_idempotent id _ r6).1 Function.injective_id.injOn⟩

end Twice

end Intake
end DataCopilot.Platform
