import Mathlib.Algebra.Order.Field.Rat
import Mathlib.Data.List.Nodup
import Mathlib.Tactic.Linarith

/-! Candidates scored by the weighted reciprocals of their ranks. A candidate that is ranked behind another one,
or not at all, gets less; lists in the order of a score that has no ties are determined by what is in them. -/
namespace DataCopilot.RankFusion
variable {α β : Type*} [DecidableEq α]

/-- What a ranking adds to the score of a candidate: the first rank is 1, and nothing without a rank. -/
def share (k : Nat) (weight : ℚ) (ranking : List α) (a : α) : ℚ :=
  if a ∈ ranking then weight / ((k : ℚ) + ((ranking.idxOf a + 1 : Nat) : ℚ)) else 0

/-- In front: a higher score, or the same one and the smaller label. -/
def Before [LT β] (score : α → ℚ) (label : α → β) (a b : α) : Prop :=
  score b < score a ∨ score a = score b ∧ label a < label b

variable {k : Nat} {weight : ℚ} {ranking l l' : List α} {a b c : α}

theorem share_lt (hw : 0 < weight) (h : ranking.idxOf a < ranking.idxOf b) :
    share k weight ranking b < share k weight ranking a := by
  have ha : a ∈ ranking := by
    rw [← List.idxOf_lt_length_iff]
    exact h.trans_le List.idxOf_le_length
  have hpos : ∀ n : Nat, (0 : ℚ) < (k : ℚ) + ((n + 1 : Nat) : ℚ) := by
    intro n
    positivity
  rw [share, share, if_pos ha]
  by_cases hb : b ∈ ranking
  · rw [if_pos hb]
    have hlt : ((ranking.idxOf a + 1 : Nat) : ℚ) < ((ranking.idxOf b + 1 : Nat) : ℚ) := by
      exact_mod_cast Nat.succ_lt_succ h
    exact div_lt_div_of_pos_left hw (hpos _) (by linarith)
  · rw [if_neg hb]
    exact div_pos hw (hpos _)

theorem share_le (hw : 0 < weight) (h : ranking.idxOf a ≤ ranking.idxOf b) :
    share k weight ranking b ≤ share k weight ranking a := by
  cases Nat.lt_or_eq_of_le h with
  | inl hlt => exact (share_lt hw hlt).le
  | inr he =>
    have hmem : a ∈ ranking ↔ b ∈ ranking := by
      rw [← List.idxOf_lt_length_iff, ← List.idxOf_lt_length_iff, he]
    simp only [share, hmem, he, le_refl]

/-- A candidate at the end takes nothing from the others. -/
theorem share_append (h : a ≠ c) : share k weight (ranking ++ [c]) a = share k weight ranking a := by
  by_cases ha : a ∈ ranking
  · rw [share, share, if_pos (List.mem_append_left _ ha), if_pos ha, List.idxOf_append_of_mem ha]
  · have hac : a ∉ ranking ++ [c] := by
      intro hm
      cases List.mem_append.mp hm with
      | inl hm => exact ha hm
      | inr hm => exact h (List.mem_singleton.mp hm)
    rw [share, share, if_neg hac, if_neg ha]

section Order
variable [LinearOrder β] {score : α → ℚ} {label : α → β}

omit [DecidableEq α] in
theorem Before.asymm (h : Before score label a b) : ¬ Before score label b a := by
  intro h'
  cases h with
  | inl hlt =>
    cases h' with
    | inl hlt' => exact lt_asymm hlt hlt'
    | inr he => exact hlt.ne he.1
  | inr he =>
    cases h' with
    | inl hlt => exact hlt.ne he.1
    | inr he' => exact lt_asymm he.2 he'.2

/-- What must not stand behind stands in front. -/
theorem idxOf_lt {R : α → α → Prop} (h : l.Pairwise R) (ha : a ∈ l) (hb : b ∈ l) (hne : a ≠ b) (hba : ¬ R b a) :
    l.idxOf a < l.idxOf b := by
  induction l with
  | nil => cases ha
  | cons x rest ih =>
    obtain ⟨hx, hrest⟩ := List.pairwise_cons.mp h
    by_cases hax : x = a
    · rw [hax, List.idxOf_cons_self, List.idxOf_cons_ne rest hne]
      exact Nat.succ_pos _
    · have har : a ∈ rest := (List.mem_cons.mp ha).resolve_left (Ne.symm hax)
      by_cases hbx : x = b
      · rw [hbx] at hx
        exact absurd (hx a har) hba
      · have hbr : b ∈ rest := (List.mem_cons.mp hb).resolve_left (Ne.symm hbx)
        rw [List.idxOf_cons_ne rest hax, List.idxOf_cons_ne rest hbx]
        exact Nat.succ_lt_succ (ih hrest har hbr)

omit [DecidableEq α] in
/-- There is one order. -/
theorem eq_of_before (hl : l.Pairwise (Before score label)) (hl' : l'.Pairwise (Before score label))
    (hn : l.Nodup) (hn' : l'.Nodup) (hm : ∀ a, a ∈ l ↔ a ∈ l') : l = l' := by
  refine List.Perm.eq_of_pairwise ?_ hl hl' ((List.perm_ext_iff_of_nodup hn hn').mpr hm)
  intro a b _ _ hab hba
  exact absurd hba hab.asymm

end Order
end DataCopilot.RankFusion
