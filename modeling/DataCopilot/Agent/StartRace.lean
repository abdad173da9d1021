import Mathlib.Logic.Function.Basic
import DataCopilot.Agent.Authorisation

/-! Starts of one run side by side. Each reads the checkpoint of the thread, and invokes the
graph when there is none. -/
namespace DataCopilot.Agent
open Sql AgentGraph

/-- Where a call of start stands. Its invocation is a pass of its own. -/
inductive Request where
  | arriving
  | cleared
  | invoked (pass : Workflow)
  | answered

/-- `checkpoint` is what `get_state` returns to every call. `invocations` are the calls that
have invoked the graph with the initial state, and `executions` the calls and the attempts
whose SQL has been executed, both newest first. -/
structure Thread where
  checkpoint : Option Snapshot := none
  requests : Nat → Request := fun _ => .arriving
  invocations : List Nat := []
  executions : List (Nat × Nat) := []

/-- `begin` writes the first checkpoint of an invocation, `node` runs its next node. `resume`
is a checkpoint of a call that goes on with the run. -/
inductive StartMove where
  | read (i : Nat)
  | invoke (i : Nat)
  | begin (i : Nat)
  | node (i : Nat) (w : World) (keeps : Bool)
  | abandon (i : Nat)
  | resume (snapshot : Snapshot)

namespace Thread

def put (s : Thread) (i : Nat) (q : Request) : Thread :=
  { s with requests := Function.update s.requests i q }

/-- An invocation moves, and what it reaches is checkpointed. `attempts` are those that it
has executed. -/
def save (s : Thread) (i : Nat) (attempts : List Nat) (pass : Workflow) : Thread :=
  { s.put i (.invoked pass) with
    checkpoint := pass.snapshot
    executions := attempts.map (i, ·) ++ s.executions }

variable (G : AgentGraph) (r : StartRun)

/-- The attempts that the next node of a pass executes. -/
def executed (w : World) (pass : Workflow) : List Nat :=
  match pass.snapshot with
  | some ⟨values, [task]⟩ =>
    ((G.superstep w none task.step values).calls.filter Call.executes).map fun _ => values.attempt
  | _ => []

def next (s : Thread) : StartMove → Option Thread
  | .read i =>
    match s.requests i, s.checkpoint with
    | .arriving, none => some (s.put i .cleared)
    | .arriving, some _ => some (s.put i .answered)
    | _, _ => none
  | .invoke i =>
    match s.requests i with
    | .cleared => some { s.put i (.invoked {}) with invocations := i :: s.invocations }
    | _ => none
  | .begin i =>
    match s.requests i with
    | .invoked pass => (G.next pass (.start r)).map (s.save i [])
    | _ => none
  | .node i w keeps =>
    match s.requests i with
    | .invoked pass => (G.next pass (.node w keeps)).map (s.save i (executed G w pass))
    | _ => none
  | .abandon i =>
    match s.requests i with
    | .cleared => some (s.put i .answered)
    | _ => none
  | .resume snapshot =>
    match s.checkpoint with
    | some _ => some { s with checkpoint := some snapshot }
    | none => none

def system : Transition.System Thread StartMove where
  init s := s = {}
  step s m t := next G r s m = some t

end Thread

/-- The call has found the thread empty. -/
def Request.Admitted : Request → Prop
  | .cleared => True
  | .invoked _ => True
  | _ => False

/-- It has, and its first checkpoint is not written. -/
def Request.Unwritten : Request → Prop
  | .cleared => True
  | .invoked pass => pass.snapshot = none
  | _ => False

/-- A start reads the thread between the read of another one and its first checkpoint. -/
def Thread.Overlaps (s : Thread) : StartMove → Prop
  | .read _ => ∃ j, (s.requests j).Unwritten
  | _ => False

variable {G : AgentGraph} {r : StartRun} {s t : Thread} {m : StartMove} {i j : Nat} {q : Request}

theorem Thread.put_requests : (s.put i q).requests j = if j = i then q else s.requests j := by
  simp [put, Function.update_apply]

theorem moved_snapshot {pass pass' : Workflow} {m : Move} (h : G.next pass m = some pass')
    (hm : m ≠ .crash) : pass'.snapshot ≠ none := by
  obtain ⟨_, _, _, rfl⟩ | ⟨_, _, _, _, _, _, _, _, rfl⟩ | ⟨_, _, _, hs, _, _, rfl⟩ | ⟨_, he, _⟩ :=
    AgentGraph.next_cases h
  · simp
  · obtain ⟨_, _, _, he⟩ | ⟨_, _, he⟩ | ⟨_, _, he⟩ := G.drive_cases
    · rw [he]
      simp
    · rw [he]
      simp
    · rw [he]
      simp
  · simp [hs]
  · exact absurd he hm

/-- Everything one move can do. -/
theorem Thread.next_cases (h : next G r s m = some t) :
    (∃ i, m = .read i ∧ s.requests i = .arriving ∧ s.checkpoint = none ∧ t = s.put i .cleared) ∨
    (∃ i, (∀ pass, s.requests i ≠ .invoked pass) ∧ t = s.put i .answered) ∨
    (∃ i, s.requests i = .cleared ∧
      t = { s.put i (.invoked {}) with invocations := i :: s.invocations }) ∨
    (∃ i pass pass' attempts, s.requests i = .invoked pass ∧ pass'.snapshot ≠ none ∧
      t = s.save i attempts pass') ∨
    (∃ snapshot, t = { s with checkpoint := some snapshot }) := by
  cases m with
  | read i =>
    simp only [next] at h
    split at h
    · rename_i hq hc
      cases h
      exact .inl ⟨i, rfl, hq, hc, rfl⟩
    · rename_i hq _
      cases h
      exact .inr (.inl ⟨i, by simp [hq], rfl⟩)
    · cases h
  | invoke i =>
    simp only [next] at h
    split at h
    · rename_i hq
      cases h
      exact .inr (.inr (.inl ⟨i, hq, rfl⟩))
    · cases h
  | begin i =>
    simp only [next] at h
    split at h
    · rename_i pass hq
      obtain ⟨pass', hp, rfl⟩ := Option.map_eq_some_iff.mp h
      exact .inr (.inr (.inr (.inl ⟨i, pass, pass', _, hq, moved_snapshot hp (by simp), rfl⟩)))
    · cases h
  | node i w keeps =>
    simp only [next] at h
    split at h
    · rename_i pass hq
      obtain ⟨pass', hp, rfl⟩ := Option.map_eq_some_iff.mp h
      exact .inr (.inr (.inr (.inl ⟨i, pass, pass', _, hq, moved_snapshot hp (by simp), rfl⟩)))
    · cases h
  | abandon i =>
    simp only [next] at h
    split at h
    · rename_i hq
      cases h
      exact .inr (.inl ⟨i, by simp [hq], rfl⟩)
    · cases h
  | resume snapshot =>
    simp only [next] at h
    split at h
    · cases h
      exact .inr (.inr (.inr (.inr ⟨snapshot, rfl⟩)))
    · cases h

theorem Thread.invoked_stays (h : next G r s m = some t) {pass : Workflow}
    (hj : s.requests j = .invoked pass) : ∃ pass', t.requests j = .invoked pass' := by
  obtain ⟨i, rfl, hq, _, rfl⟩ | ⟨i, hq, rfl⟩ | ⟨i, hq, rfl⟩ | ⟨i, _, pass', _, hq, _, rfl⟩ |
    ⟨_, rfl⟩ := next_cases h
  · refine ⟨pass, ?_⟩
    rw [put_requests, if_neg, hj]
    rintro rfl
    rw [hq] at hj
    cases hj
  · refine ⟨pass, ?_⟩
    rw [put_requests, if_neg, hj]
    rintro rfl
    exact hq pass hj
  · by_cases hji : j = i
    · exact ⟨{}, by simp [put, hji]⟩
    · exact ⟨pass, by simp [put, hji, hj]⟩
  · by_cases hji : j = i
    · exact ⟨pass', by simp [save, put, hji]⟩
    · exact ⟨pass, by simp [save, put, hji, hj]⟩
  · exact ⟨pass, hj⟩

/-- At most one call is admitted, and what it has written stays. -/
structure Exclusive (s : Thread) : Prop where
  unique : ∀ i j, (s.requests i).Admitted → (s.requests j).Admitted → i = j
  written : ∀ i pass, s.requests i = .invoked pass → pass.snapshot ≠ none → s.checkpoint ≠ none
  invoked : ∀ i ∈ s.invocations, ∃ pass, s.requests i = .invoked pass
  executed : ∀ run ∈ s.executions, ∃ pass, s.requests run.1 = .invoked pass
  once : s.invocations.length ≤ 1

namespace Exclusive

/-- A thread that is read empty outside of the window is one that nobody was admitted to. -/
theorem empty (h : Exclusive s) (hc : s.checkpoint = none)
    (hno : ¬ ∃ j, (s.requests j).Unwritten) (j : Nat) : ¬ (s.requests j).Admitted := by
  intro ha
  cases hq : s.requests j with
  | arriving =>
    rw [hq] at ha
    exact ha
  | answered =>
    rw [hq] at ha
    exact ha
  | cleared => exact hno ⟨j, by rw [hq]; trivial⟩
  | invoked pass =>
    by_cases hs : pass.snapshot = none
    · exact hno ⟨j, by rw [hq]; exact hs⟩
    · exact h.written j pass hq hs hc

/-- A call that was admitted, or finds nobody admitted, may be. -/
theorem put_unique (h : Exclusive s)
    (hq : q.Admitted → (s.requests i).Admitted ∨ ∀ j, ¬ (s.requests j).Admitted) :
    ∀ j k, ((s.put i q).requests j).Admitted → ((s.put i q).requests k).Admitted → j = k := by
  have hother (j : Nat) (ha : (s.requests j).Admitted) (hi : q.Admitted) : j = i := by
    obtain hadmitted | hnone := hq hi
    · exact h.unique j i ha hadmitted
    · exact absurd ha (hnone j)
  intro j k hj hk
  rw [Thread.put_requests] at hj hk
  by_cases hji : j = i
  · rw [if_pos hji] at hj
    by_cases hki : k = i
    · rw [hji, hki]
    · rw [if_neg hki] at hk
      rw [hji, hother k hk hj]
  · rw [if_neg hji] at hj
    by_cases hki : k = i
    · rw [if_pos hki] at hk
      rw [hki, hother j hj hk]
    · rw [if_neg hki] at hk
      exact h.unique j k hj hk

/-- Nobody has invoked, or it would have been admitted beside this call. -/
theorem uninvoked (h : Exclusive s) (hq : s.requests i = .cleared) : s.invocations = [] := by
  by_contra hne
  obtain ⟨j, hj⟩ := List.exists_mem_of_ne_nil _ hne
  obtain ⟨pass, hpass⟩ := h.invoked j hj
  have hji : j = i := h.unique j i (by rw [hpass]; trivial) (by rw [hq]; trivial)
  rw [hji, hq] at hpass
  cases hpass

/-- The step lemma. -/
theorem kept (h : Exclusive s) (hs : Thread.next G r s m = some t) (hno : ¬ s.Overlaps m) :
    Exclusive t := by
  have hstays (j : Nat) (hj : ∃ pass, s.requests j = .invoked pass) :
      ∃ pass, t.requests j = .invoked pass := by
    obtain ⟨pass, hj⟩ := hj
    exact Thread.invoked_stays hs hj
  have hexecuted (run : Nat × Nat) (hrun : run ∈ s.executions) := hstays run.1 (h.executed run hrun)
  have hinvoked (j : Nat) (hj : j ∈ s.invocations) := hstays j (h.invoked j hj)
  obtain ⟨i, rfl, hq, hc, rfl⟩ | ⟨i, hq, rfl⟩ | ⟨i, hq, rfl⟩ | ⟨i, pass, pass', attempts, hq, hp, rfl⟩ |
    ⟨snapshot, rfl⟩ := Thread.next_cases hs
  · refine ⟨h.put_unique fun _ => .inr (h.empty hc hno), fun j pass hj => ?_, hinvoked, hexecuted, h.once⟩
    rw [Thread.put_requests] at hj
    split at hj
    · cases hj
    · exact h.written j pass hj
  · refine ⟨h.put_unique False.elim, fun j pass hj => ?_, hinvoked, hexecuted, h.once⟩
    rw [Thread.put_requests] at hj
    split at hj
    · cases hj
    · exact h.written j pass hj
  · have hadmitted : (s.requests i).Admitted := by
      rw [hq]
      trivial
    have hnone := h.uninvoked hq
    have hput : ({ s.put i (.invoked {}) with invocations := i :: s.invocations } : Thread).requests =
        (s.put i (.invoked {})).requests := rfl
    refine ⟨h.put_unique fun _ => .inl hadmitted, fun j pass hj hpass => ?_, fun j hj => ?_,
      hexecuted, by simp [hnone]⟩
    · rw [hput, Thread.put_requests] at hj
      split at hj
      · cases hj
        exact absurd rfl hpass
      · exact h.written j pass hj hpass
    · rw [hnone, List.mem_singleton] at hj
      rw [hj]
      exact ⟨{}, by rw [hput, Thread.put_requests, if_pos rfl]⟩
  · have hadmitted : (s.requests i).Admitted := by
      rw [hq]
      trivial
    refine ⟨h.put_unique fun _ => .inl hadmitted, fun _ _ _ _ => hp, hinvoked, fun run hrun => ?_, h.once⟩
    obtain hnew | hold := List.mem_append.mp hrun
    · obtain ⟨attempt, _, rfl⟩ := List.mem_map.mp hnew
      exact hstays i ⟨pass, hq⟩
    · exact hexecuted run hold
  · exact ⟨h.unique, fun _ _ _ _ => by simp, h.invoked, h.executed, h.once⟩

end Exclusive

/-- The run lemma. -/
theorem exclusive (h : ((Thread.system G r).restrict fun s m _ => ¬ s.Overlaps m).Reachable s) :
    Exclusive s := by
  refine h.invariant (fun s hi => ?_) fun s m t _ he hs => ?_
  · cases hi
    exact ⟨fun _ _ hi => hi.elim, by simp, by simp, by simp, by simp⟩
  · obtain ⟨hs, hno⟩ := hs
    exact he.kept hs hno

/-- Unless a start reads the thread in the window of another one, the graph is invoked with
the initial state at most once, and the SQL of an attempt is executed by one invocation. -/
theorem start_once (h : ((Thread.system G r).restrict fun s m _ => ¬ s.Overlaps m).Reachable s) :
    s.invocations.length ≤ 1 ∧
      ∀ attempt i j, (i, attempt) ∈ s.executions → (j, attempt) ∈ s.executions → i = j := by
  have he := exclusive h
  refine ⟨he.once, fun attempt i j hi hj => ?_⟩
  obtain ⟨pass, hpass⟩ := he.executed _ hi
  obtain ⟨pass', hpass'⟩ := he.executed _ hj
  exact he.unique i j (by rw [hpass]; trivial) (by rw [hpass']; trivial)

/-- Whatever a run does by itself, an invocation can do. -/
theorem Thread.drives {w : Workflow} (hs : (system G r).Reachable s) (hi : s.requests i = .invoked {})
    (h : (G.system.restrict fun s m _ => Alone r s m).Reachable w) :
    ∃ t, (system G r).Reachable t ∧ t.requests i = .invoked w ∧
      (∀ j, j ≠ i → t.requests j = s.requests j) ∧ ∃ newer, t.executions = newer ++ s.executions := by
  refine h.invariant (P := fun w : Workflow => ∃ t, (system G r).Reachable t ∧
    t.requests i = .invoked w ∧ (∀ j, j ≠ i → t.requests j = s.requests j) ∧
      ∃ newer, t.executions = newer ++ s.executions) (fun w hw => ?_) fun w m w' _ ih hstep => ?_
  · cases hw
    exact ⟨s, hs, hi, fun _ _ => rfl, [], rfl⟩
  · obtain ⟨t, ht, hreq, hothers, newer, hnewer⟩ := ih
    obtain ⟨hstep, halone⟩ := hstep
    have hsave (attempts : List Nat) (m : StartMove)
        (hm : next G r t m = some (t.save i attempts w')) :
        ∃ t', (system G r).Reachable t' ∧ t'.requests i = .invoked w' ∧
          (∀ j, j ≠ i → t'.requests j = s.requests j) ∧ ∃ newer, t'.executions = newer ++ s.executions := by
      refine ⟨_, ht.step hm, by simp [save, put], fun j hj => ?_, attempts.map (i, ·) ++ newer, ?_⟩
      · simp [save, put, hj, hothers j hj]
      · simp [save, hnewer]
    cases m with
    | start r' =>
      cases halone
      refine hsave [] (.begin i) ?_
      rw [next, hreq]
      exact congrArg (Option.map (t.save i [])) hstep
    | node world keeps =>
      refine hsave (executed G world w) (.node i world keeps) ?_
      rw [next, hreq]
      exact congrArg (Option.map (t.save i (executed G world w))) hstep
    | resume r' => exact halone.elim
    | crash => exact halone.elim

/-! The list of orders, started once and started twice. -/
section Orders

/-- The second start comes after the first checkpoint, and is answered. -/
theorem orders_start_once : ∃ s : Thread, s.invocations = [0] ∧ s.requests 1 = .answered ∧
    s.invocations.length ≤ 1 := by
  let M := (Thread.system ordersGraph ordersRun).restrict fun s m _ => ¬ s.Overlaps m
  let pass : Workflow :=
    ⟨some (.pending ordersRun.initialState (some .classify)), some none, [.started ordersRun]⟩
  let cleared : Thread := ({} : Thread).put 0 .cleared
  let invoked : Thread := { cleared.put 0 (.invoked {}) with invocations := [0] }
  let begun : Thread := invoked.save 0 [] pass
  have h0 : M.Reachable {} := .start rfl
  have h1 : M.step {} (.read 0) cleared := by
    refine ⟨rfl, fun ho => ?_⟩
    obtain ⟨j, hj⟩ := ho
    exact hj
  have h2 : M.step cleared (.invoke 0) invoked := ⟨rfl, id⟩
  have h3 : M.step invoked (.begin 0) begun := ⟨rfl, id⟩
  have h4 : M.step begun (.read 1) (begun.put 1 .answered) := by
    refine ⟨rfl, fun ho => ?_⟩
    obtain ⟨j, hj⟩ := ho
    by_cases hj0 : j = 0
    · subst hj0
      cases hj
    · simp [begun, invoked, cleared, Thread.save, Thread.put, hj0, Request.Unwritten] at hj
  have hreach := (((h0.step h1).step h2).step h3).step h4
  exact ⟨begun.put 1 .answered, rfl, rfl, (start_once hreach).1⟩

/-- An invocation executes the first attempt. -/
theorem orders_first_attempt {s : Thread} {i : Nat} (hs : (Thread.system ordersGraph ordersRun).Reachable s)
    (hi : s.requests i = .invoked {}) :
    ∃ t, (Thread.system ordersGraph ordersRun).Reachable t ∧ (i, 1) ∈ t.executions ∧
      (∀ j, j ≠ i → t.requests j = s.requests j) ∧ ∃ newer, t.executions = newer ++ s.executions := by
  obtain ⟨v, ⟨history, hw⟩, hv, hg⟩ := orders_cleared
  obtain ⟨u, hr, hcall⟩ := orders_executed hv hg
  obtain ⟨t, ht, hreq, hothers, newer, hnewer⟩ := Thread.drives hs hi hw
  let pass : Workflow := ⟨some (.pending v (some .executeSql)), some none, history⟩
  let attempts := Thread.executed ordersGraph (ordersWorld 1 ["order_id"]) pass
  have hattempt : 1 ∈ attempts := by
    have hv1 : v.attempt = 1 := by rw [AgentState.attempt, hv.attempts]; rfl
    exact List.mem_map.mpr ⟨_, List.mem_filter.mpr ⟨hcall, rfl⟩, hv1⟩
  obtain ⟨after, hnext⟩ : ∃ after,
      ordersGraph.next pass (.node (ordersWorld 1 ["order_id"]) false) = some after :=
    ⟨_, next_of_ok hr⟩
  have hstep : Thread.next ordersGraph ordersRun t (.node i (ordersWorld 1 ["order_id"]) false) =
      some (t.save i attempts after) := by
    rw [Thread.next, hreq]
    exact congrArg (Option.map (t.save i attempts)) hnext
  refine ⟨_, ht.step hstep, List.mem_append_left _ (List.mem_map_of_mem hattempt),
    fun j hj => ?_, attempts.map (i, ·) ++ newer, ?_⟩
  · simp [Thread.save, Thread.put, hj, hothers j hj]
  · simp [Thread.save, hnewer]

/-- Both starts read the empty thread and invoke, and both execute the first attempt. -/
theorem orders_executed_twice : ¬ ∀ s, (Thread.system ordersGraph ordersRun).Reachable s →
    s.invocations.length ≤ 1 ∧
      ∀ attempt i j, (i, attempt) ∈ s.executions → (j, attempt) ∈ s.executions → i = j := by
  intro hall
  let one : Thread := ({} : Thread).put 0 .cleared
  let two : Thread := one.put 1 .cleared
  let invoked : Thread := { two.put 0 (.invoked {}) with invocations := [0] }
  let again : Thread := { invoked.put 1 (.invoked {}) with invocations := [1, 0] }
  let M := Thread.system ordersGraph ordersRun
  have h0 : M.Reachable {} := .start rfl
  have h1 : M.step {} (.read 0) one := rfl
  have h2 : M.step one (.read 1) two := rfl
  have h3 : M.step two (.invoke 0) invoked := rfl
  have h4 : M.step invoked (.invoke 1) again := rfl
  have hreach := (((h0.step h1).step h2).step h3).step h4
  obtain ⟨s, hs, hfirst, hothers, _⟩ := orders_first_attempt (i := 0) hreach rfl
  have hsecond : s.requests 1 = .invoked {} := hothers 1 (by simp)
  obtain ⟨t, ht, hagain, _, newer, hnewer⟩ := orders_first_attempt hs hsecond
  have hboth : (0, 1) ∈ t.executions := by
    rw [hnewer]
    exact List.mem_append_right _ hfirst
  have hsame := (hall t ht).2 1 0 1 hboth hagain
  cases hsame

end Orders
end DataCopilot.Agent
