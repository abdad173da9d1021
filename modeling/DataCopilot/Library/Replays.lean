import Mathlib.Data.List.Nodup
import Mathlib.Data.List.Pairwise

/-! A log that keeps one entry for each key: the first that came with it. -/
namespace DataCopilot.Replays
variable {ρ κ : Type*} [DecidableEq κ]

/-- The entries that find no earlier one with their key. -/
def firsts (key : ρ → κ) : List ρ → List ρ
  | [] => []
  | r :: rest => r :: (firsts key rest).filter fun a => key a ≠ key r

variable {key : ρ → κ} {entries : List ρ} {r : ρ}

theorem firsts_sublist : (firsts key entries).Sublist entries := by
  induction entries with
  | nil => exact List.Sublist.refl _
  | cons r rest ih => exact (List.filter_sublist.trans ih).cons_cons r

theorem firsts_nodup : ((firsts key entries).map key).Nodup := by
  induction entries with
  | nil => exact List.nodup_nil
  | cons r rest ih =>
    rw [firsts, List.map_cons, List.nodup_cons]
    constructor
    · intro h
      obtain ⟨a, ha, he⟩ := List.mem_map.mp h
      simp [he] at ha
    · exact ih.sublist (List.filter_sublist.map key)

/-- No key is lost: what is not kept repeats an entry that is. -/
theorem mem_firsts_or {S : ρ → ρ → Prop} (repeats : entries.Pairwise fun a b => key a = key b → S a b)
    (h : r ∈ entries) : r ∈ firsts key entries ∨ ∃ a ∈ firsts key entries, key a = key r ∧ S a r := by
  induction repeats with
  | nil => cases h
  | @cons b rest hb _ ih =>
    have hfirst : b ∈ firsts key (b :: rest) := List.mem_cons_self
    obtain rfl | h := List.mem_cons.mp h
    · exact .inl hfirst
    · by_cases he : key b = key r
      · exact .inr ⟨b, hfirst, he, hb r h he⟩
      · have hkept (a : ρ) (ha : a ∈ firsts key rest) (hr : key a = key r) : a ∈ firsts key (b :: rest) := by
          refine List.mem_cons_of_mem b (List.mem_filter.mpr ⟨ha, ?_⟩)
          simpa [hr] using fun hb => he (Eq.symm hb)
        obtain hold | ⟨a, ha, hr, hs⟩ := ih h
        · exact .inl (hkept r hold rfl)
        · exact .inr ⟨a, hkept a ha hr, hr, hs⟩

theorem firsts_map {σ : Type*} (f : σ → ρ) (entries : List σ) :
    firsts key (entries.map f) = (firsts (fun a => key (f a)) entries).map f := by
  induction entries with
  | nil => rfl
  | cons b rest ih =>
    rw [List.map_cons, firsts, firsts, ih, List.map_cons, List.filter_map]
    rfl

/-- One more entry is kept when its key is new. -/
theorem firsts_concat : firsts key (entries ++ [r]) =
    if ∃ a ∈ firsts key entries, key a = key r then firsts key entries else firsts key entries ++ [r] := by
  induction entries with
  | nil => simp [firsts]
  | cons b rest ih =>
    have hsome : (∃ a ∈ firsts key (b :: rest), key a = key r) ↔
        key b = key r ∨ ∃ a ∈ firsts key rest, key a = key r := by
      simp only [firsts, List.mem_cons, List.mem_filter, decide_eq_true_eq, exists_eq_or_imp]
      constructor
      · rintro (h | ⟨a, ⟨ha, _⟩, he⟩)
        · exact .inl h
        · exact .inr ⟨a, ha, he⟩
      · rintro (h | ⟨a, ha, he⟩)
        · exact .inl h
        · by_cases hb : key b = key r
          · exact .inl hb
          · exact .inr ⟨a, ⟨ha, fun hab => hb (hab.symm.trans he)⟩, he⟩
    simp only [hsome]
    rw [List.cons_append, firsts, ih]
    by_cases hrest : ∃ a ∈ firsts key rest, key a = key r
    · rw [if_pos hrest, if_pos (.inr hrest), firsts]
    · rw [if_neg hrest, List.filter_append]
      by_cases hb : key b = key r
      · simp [firsts, hb]
      · have hr : ¬ key r = key b := fun he => hb he.symm
        rw [if_neg (not_or.mpr ⟨hb, hrest⟩), firsts, List.cons_append]
        simp [hr]

end DataCopilot.Replays
