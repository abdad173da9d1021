import Mathlib.Logic.Basic

/-! Labelled transition systems: runs from the initial states, paths between two
states, invariants, systems whose steps meet a condition, two systems that move
together on their labels, and refinement. -/
namespace DataCopilot.Transition
variable {σ τ ι κ : Type*}

structure System (σ ι : Type*) where
  init : σ → Prop
  step : σ → ι → σ → Prop

namespace System
variable (M : System σ ι)

/-- The labels of a run stand newest first. -/
inductive Run : List ι → σ → Prop
  | start {s : σ} : M.init s → Run [] s
  | step {w : List ι} {s t : σ} {l : ι} : Run w s → M.step s l t → Run (l :: w) t

inductive Path : σ → List ι → σ → Prop
  | refl (s : σ) : Path s [] s
  | step {w : List ι} {s t u : σ} {l : ι} : Path s w t → M.step t l u → Path s (l :: w) u

def Reachable (s : σ) : Prop := ∃ w, M.Run w s

/-- The same system, allowed to take only the steps that meet `C`. -/
def restrict (C : σ → ι → σ → Prop) : System σ ι where
  init := M.init
  step s l t := M.step s l t ∧ C s l t

/-- Two systems over one alphabet, both moving on every label. -/
def sync (N : System τ ι) : System (σ × τ) ι where
  init p := M.init p.1 ∧ N.init p.2
  step p l q := M.step p.1 l q.1 ∧ N.step p.2 l q.2

variable {M} {N : System τ ι} {C : σ → ι → σ → Prop}

theorem Run.reachable {w : List ι} {s : σ} (h : M.Run w s) : M.Reachable s := ⟨w, h⟩

theorem Reachable.start {s : σ} (h : M.init s) : M.Reachable s := ⟨[], .start h⟩

theorem Reachable.step {s t : σ} {l : ι} (h : M.Reachable s) (hs : M.step s l t) :
    M.Reachable t := by
  obtain ⟨w, hw⟩ := h
  exact ⟨l :: w, hw.step hs⟩

/-- Where a partial function takes the steps, a list of moves is a run. -/
theorem Reachable.foldlM {f : σ → ι → Option σ} (hf : ∀ s l t, f s l = some t → M.step s l t)
    {moves : List ι} {s t : σ} (h : M.Reachable s) (hm : moves.foldlM f s = some t) : M.Reachable t := by
  induction moves generalizing s with
  | nil =>
    injection hm with hm
    rw [← hm]
    exact h
  | cons l rest ih =>
    cases hs : f s l with
    | none => simp [hs] at hm
    | some u =>
      simp only [List.foldlM_cons, hs, Option.bind_eq_bind, Option.bind_some] at hm
      exact ih (h.step (hf s l u hs)) hm

theorem Reachable.path {s t : σ} {w : List ι} (h : M.Reachable s) (hp : M.Path s w t) :
    M.Reachable t := by
  induction hp with
  | refl => exact h
  | step _ hs ih => exact (ih h).step hs

/-- Step lemma to run lemma: what holds at the start and is kept by every step
from a reachable state holds of every reachable state. -/
theorem Reachable.invariant {P : σ → Prop} (start : ∀ s, M.init s → P s)
    (kept : ∀ s l t, M.Reachable s → P s → M.step s l t → P t)
    {s : σ} (h : M.Reachable s) : P s := by
  obtain ⟨w, hw⟩ := h
  induction hw with
  | start hi => exact start _ hi
  | step hr hs ih => exact kept _ _ _ hr.reachable ih hs

theorem Run.of_restrict {w : List ι} {s : σ} (h : (M.restrict C).Run w s) : M.Run w s := by
  induction h with
  | start hi => exact .start hi
  | step _ hs ih => exact ih.step hs.1

theorem Reachable.of_restrict {s : σ} (h : (M.restrict C).Reachable s) : M.Reachable s := by
  obtain ⟨w, hw⟩ := h
  exact ⟨w, hw.of_restrict⟩

/-- A weaker condition allows the same runs. -/
theorem Reachable.weaken {D : σ → ι → σ → Prop} (hw : ∀ s l t, C s l t → D s l t) {s : σ}
    (h : (M.restrict C).Reachable s) : (M.restrict D).Reachable s := by
  refine h.invariant (fun s hi => .start hi) fun s l t _ ih hs => ?_
  obtain ⟨hs, hc⟩ := hs
  have hstep : (M.restrict D).step s l t := ⟨hs, hw s l t hc⟩
  exact ih.step hstep

/-- `M` seen through `f` is `K`, with the labels that `g` gives its steps. -/
structure Refines (M : System σ ι) (K : System τ κ) (f : σ → τ) (g : ι → κ) : Prop where
  init : ∀ s, M.init s → K.init (f s)
  step : ∀ s l t, M.Reachable s → M.step s l t → K.step (f s) (g l) (f t)

theorem Refines.run {K : System τ κ} {f : σ → τ} {g : ι → κ} (h : Refines M K f g) {w : List ι}
    {s : σ} (hr : M.Run w s) : K.Run (w.map g) (f s) := by
  induction hr with
  | start hi => exact .start (h.init _ hi)
  | step hr hs ih => exact ih.step (h.step _ _ _ hr.reachable hs)

theorem Refines.reachable {K : System τ κ} {f : σ → τ} {g : ι → κ} (h : Refines M K f g) {s : σ}
    (hr : M.Reachable s) : K.Reachable (f s) := by
  obtain ⟨w, hw⟩ := hr
  exact ⟨w.map g, h.run hw⟩

end System
end DataCopilot.Transition
