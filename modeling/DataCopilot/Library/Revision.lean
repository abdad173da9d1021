import Mathlib.Logic.Basic
import Mathlib.Data.List.Basic

/-! A store of contents by owner that is changed by updates alone and gives a revision of what it has for
an owner: no update brings an earlier revision of its owner back, and one revision means one content. -/
namespace DataCopilot.Revision
variable {σ υ τ χ ρ : Type*}

structure Store (σ υ τ χ ρ : Type*) where
  init : σ → Prop
  /-- What an update needs of the state that it finds. -/
  ok : σ → υ → Prop
  owner : υ → τ
  update : σ → υ → σ
  content : σ → τ → χ
  revision : σ → τ → ρ

namespace Store
variable (S : Store σ υ τ χ ρ)

/-- The states that the store has been in, the last one first. -/
inductive Timeline : List σ → Prop
  | start {s : σ} : S.init s → Timeline [s]
  | update {s : σ} {past : List σ} {u : υ} : Timeline (s :: past) → S.ok s u →
      Timeline (S.update s u :: s :: past)

/-- Every update raises the rank of its owner by one, a revision tells the rank, and the other owners are
spared. -/
structure Lawful (rank : σ → τ → Nat) (Sound : σ → Prop) : Prop where
  start : ∀ s, S.init s → Sound s
  kept : ∀ s u, Sound s → S.ok s u → Sound (S.update s u)
  raised : ∀ s u, Sound s → S.ok s u → rank (S.update s u) (S.owner u) = rank s (S.owner u) + 1
  told : ∀ s t a, Sound s → Sound t → S.revision s a = S.revision t a → rank s a = rank t a
  spared_rank : ∀ s u a, Sound s → S.ok s u → a ≠ S.owner u → rank (S.update s u) a = rank s a
  spared : ∀ s u a, Sound s → S.ok s u → a ≠ S.owner u → S.content (S.update s u) a = S.content s a
  spared_revision : ∀ s u a, Sound s → S.ok s u → a ≠ S.owner u →
    S.revision (S.update s u) a = S.revision s a

variable {S} {rank : σ → τ → Nat} {Sound : σ → Prop} {s t : σ} {past : List σ} {u : υ} {a : τ}

theorem Timeline.sound (h : S.Timeline past) (hS : S.Lawful rank Sound) : ∀ s ∈ past, Sound s := by
  induction h with
  | start hi =>
    intro s hs
    rw [List.mem_singleton.mp hs]
    exact hS.start _ hi
  | update _ hok ih =>
    intro s hs
    cases List.mem_cons.mp hs with
    | inl he =>
      rw [he]
      exact hS.kept _ _ (ih _ List.mem_cons_self) hok
    | inr hm => exact ih s hm

theorem Timeline.rank_le (h : S.Timeline (t :: past)) (hS : S.Lawful rank Sound) :
    ∀ s ∈ t :: past, rank s a ≤ rank t a := by
  generalize hl : t :: past = states at h
  induction h generalizing t past with
  | start hi =>
    injection hl with ht hp
    intro s hs
    have he : s = t := (List.mem_singleton.mp hs).trans ht.symm
    exact Nat.le_of_eq (congrArg (rank · a) he)
  | @update s' past' u h hok ih =>
    injection hl with ht hp
    have hle : rank s' a ≤ rank t a := by
      have hsound := h.sound hS s' List.mem_cons_self
      rw [ht]
      by_cases ha : a = S.owner u
      · rw [ha, hS.raised _ _ hsound hok]
        omega
      · exact Nat.le_of_eq (hS.spared_rank _ _ _ hsound hok ha).symm
    intro s hs
    cases List.mem_cons.mp hs with
    | inl he => exact Nat.le_of_eq (congrArg (rank · a) (he.trans ht.symm))
    | inr hm => exact Nat.le_trans (ih rfl s hm) hle

/-- After an update the revision of its owner is none that the store has given before. -/
theorem Timeline.revision_new (h : S.Timeline (t :: past)) (hS : S.Lawful rank Sound) (hok : S.ok t u)
    (hs : s ∈ t :: past) : S.revision (S.update t u) (S.owner u) ≠ S.revision s (S.owner u) := by
  intro he
  have hsound := h.sound hS t List.mem_cons_self
  have hrank := hS.told _ _ _ (hS.kept _ _ hsound hok) (h.sound hS s hs) he
  rw [hS.raised _ _ hsound hok] at hrank
  have hle : rank s (S.owner u) ≤ rank t (S.owner u) := h.rank_le hS s hs
  omega

/-- Two states between which an owner has had no update are the same to it. -/
theorem Timeline.same (h : S.Timeline past) (hS : S.Lawful rank Sound) :
    ∀ s ∈ past, ∀ t ∈ past, rank s a = rank t a →
      S.content s a = S.content t a ∧ S.revision s a = S.revision t a := by
  induction h with
  | start hi =>
    intro s hs t ht _
    rw [List.mem_singleton.mp hs, List.mem_singleton.mp ht]
    exact ⟨rfl, rfl⟩
  | @update s' past' u h hok ih =>
    have hsound := h.sound hS s' List.mem_cons_self
    -- the new state against an earlier one
    have hnew : ∀ s ∈ s' :: past', rank (S.update s' u) a = rank s a →
        S.content (S.update s' u) a = S.content s a ∧ S.revision (S.update s' u) a = S.revision s a := by
      intro s hs he
      by_cases ha : a = S.owner u
      · have hle : rank s (S.owner u) ≤ rank s' (S.owner u) := h.rank_le hS s hs
        rw [ha, hS.raised _ _ hsound hok] at he
        omega
      · rw [hS.spared_rank _ _ _ hsound hok ha] at he
        rw [hS.spared_revision _ _ _ hsound hok ha, hS.spared _ _ _ hsound hok ha]
        exact ih _ List.mem_cons_self s hs he
    intro s hs t ht he
    cases List.mem_cons.mp hs with
    | inl hsn =>
      cases List.mem_cons.mp ht with
      | inl htn =>
        rw [hsn, htn]
        exact ⟨rfl, rfl⟩
      | inr htm =>
        rw [hsn] at he ⊢
        exact hnew t htm he
    | inr hsm =>
      cases List.mem_cons.mp ht with
      | inl htn =>
        rw [htn] at he ⊢
        have hn := hnew s hsm he.symm
        exact ⟨hn.1.symm, hn.2.symm⟩
      | inr htm => exact ih s hsm t htm he

/-- One revision, one content. -/
theorem Timeline.content_eq (h : S.Timeline past) (hS : S.Lawful rank Sound) (hs : s ∈ past) (ht : t ∈ past)
    (he : S.revision s a = S.revision t a) : S.content s a = S.content t a := by
  have hrank := hS.told _ _ _ (h.sound hS s hs) (h.sound hS t ht) he
  exact (h.same hS s hs t ht hrank).1

/-- While the revision is still that of an earlier state, it has been that all the time since. -/
theorem Timeline.revision_between (h : S.Timeline (t :: past)) (hS : S.Lawful rank Sound)
    {r : σ} (hr : r ∈ t :: past) (hs : s ∈ t :: past) (hle : rank r a ≤ rank s a)
    (he : S.revision t a = S.revision r a) : S.revision s a = S.revision r a := by
  have hrank := hS.told _ _ _ (h.sound hS t List.mem_cons_self) (h.sound hS r hr) he
  have hst : rank s a ≤ rank t a := h.rank_le hS s hs
  have hsr : rank s a = rank r a := by omega
  exact (h.same hS s hs r hr hsr).2

end Store
end DataCopilot.Revision
