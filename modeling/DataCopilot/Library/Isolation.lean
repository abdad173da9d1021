import DataCopilot.Library.Revision
import DataCopilot.Library.Transition

/-! One party of a system: where the steps of the others change nothing that it sees and its own steps depend on
what it sees alone, it sees after any run what it sees after its own part of the run. -/
namespace DataCopilot.Transition.System
variable {σ ι : Type*}

/-- A run and the labels of its steps that are the party's own, newest first. -/
inductive Part (M : System σ ι) (own : σ → ι → Prop) : List ι → List ι → σ → Prop
  | start {s : σ} : M.init s → Part M own [] [] s
  | others {w v : List ι} {s t : σ} {l : ι} : Part M own w v s → M.step s l t → ¬ own s l → Part M own (l :: w) v t
  | own {w v : List ι} {s t : σ} {l : ι} : Part M own w v s → M.step s l t → own s l → Part M own (l :: w) (l :: v) t

/-- `same s u`: the party sees the same in both states. -/
structure Isolated (M : System σ ι) (own : σ → ι → Prop) (same : σ → σ → Prop) : Prop where
  start : ∀ s, M.init s → same s s
  others : ∀ s l t u, same s u → M.step s l t → ¬ own s l → same t u
  own : ∀ s l t u, same s u → M.step s l t → own s l → own u l ∧ ∃ v, M.step u l v ∧ same t v

variable {M : System σ ι} {own : σ → ι → Prop} {same : σ → σ → Prop} {w v : List ι} {s : σ}

/-- Every run has a part that is the party's own. -/
theorem Run.part (h : M.Run w s) (own : σ → ι → Prop) : ∃ v, M.Part own w v s := by
  induction h with
  | start hi => exact ⟨[], .start hi⟩
  | @step w s t l _ hs ih =>
    obtain ⟨v, hv⟩ := ih
    by_cases hl : own s l
    · exact ⟨l :: v, hv.own hs hl⟩
    · exact ⟨v, hv.others hs hl⟩

/-- Without the others there is a run of the party alone. -/
theorem Isolated.alone (h : M.Isolated own same) (hp : M.Part own w v s) :
    ∃ u, (M.restrict fun s l _ => own s l).Run v u ∧ same s u := by
  induction hp with
  | start hi => exact ⟨_, .start hi, h.start _ hi⟩
  | others _ hs hl ih =>
    obtain ⟨u, hu, hsame⟩ := ih
    exact ⟨u, hu, h.others _ _ _ _ hsame hs hl⟩
  | own _ hs hl ih =>
    obtain ⟨u, hu, hsame⟩ := ih
    obtain ⟨hown, t, ht, halike⟩ := h.own _ _ _ _ hsame hs hl
    exact ⟨t, hu.step ⟨ht, hown⟩, halike⟩

end DataCopilot.Transition.System

namespace DataCopilot.Revision.Store
variable {σ υ τ χ ρ : Type*}

/-- `same a s u`: the two states are the same to the owner `a`, and stay so. -/
structure Separate (S : Store σ υ τ χ ρ) (same : τ → σ → σ → Prop) : Prop where
  start : ∀ s a, S.init s → same a s s
  content : ∀ s u a, same a s u → S.content s a = S.content u a
  revision : ∀ s u a, same a s u → S.revision s a = S.revision u a
  others : ∀ s u x a, same a s u → S.ok s x → a ≠ S.owner x → same a (S.update s x) u
  own : ∀ s u x a, same a s u → S.ok s x → a = S.owner x → S.ok u x ∧ same a (S.update s x) (S.update u x)

end DataCopilot.Revision.Store
