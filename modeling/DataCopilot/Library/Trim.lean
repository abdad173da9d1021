import Mathlib.Data.List.DropRight
import DataCopilot.Library.Text

/-! A list without the elements at its two ends that a predicate accepts: it is empty only if all
are accepted, and a part of the list shows in it. -/
namespace DataCopilot.Text
variable {α : Type*} (p : α → Bool)

def trim (l : List α) : List α := (l.dropWhile p).rdropWhile p

theorem strip_eq_trim (s : String) : strip s = String.ofList (trim isSpace s.toList) := rfl

theorem trim_length_le (l : List α) : (trim p l).length ≤ l.length := by
  have h1 := (List.dropWhile_sublist (l := l) p).length_le
  have h2 := (List.rdropWhile_prefix p (l.dropWhile p)).length_le
  rw [trim]
  omega

theorem not_of_mem_dropWhile {u : List α} (hu : ∃ x ∈ u, ¬ p x) : ∃ x ∈ u.dropWhile p, ¬ p x := by
  have hn : u.dropWhile p ≠ [] := by
    intro h
    cases hu with
    | intro x hx => exact hx.2 (List.dropWhile_eq_nil_iff.mp h x hx.1)
  refine ⟨(u.dropWhile p).head hn, List.head_mem hn, ?_⟩
  rw [List.head_dropWhile_not p hn]
  simp

theorem trim_eq_nil (l : List α) : trim p l = [] ↔ ∀ x ∈ l, p x := by
  rw [trim, List.rdropWhile_eq_nil_iff]
  constructor
  · intro h x hx
    by_contra hn
    cases not_of_mem_dropWhile p ⟨x, hx, hn⟩ with
    | intro y hy => exact hy.2 (h y hy.1)
  · intro h x hx
    exact h x ((List.dropWhile_sublist p).mem hx)

/-- Dropping an accepted start of a list reaches into a part that is not accepted as a whole. -/
theorem dropWhile_part {u : List α} (hu : ∃ x ∈ u, ¬ p x) (a b : List α) :
    ∃ a', (a ++ (u ++ b)).dropWhile p = a' ++ (u.dropWhile p ++ b) := by
  induction a with
  | nil =>
    refine ⟨[], ?_⟩
    induction u with
    | nil => simp at hu
    | cons x u ih =>
      by_cases hx : p x
      · have hu' : ∃ y ∈ u, ¬ p y := by
          cases hu with
          | intro y hy =>
            cases List.mem_cons.mp hy.1 with
            | inl he => exact absurd (he ▸ hx) hy.2
            | inr hm => exact ⟨y, hm, hy.2⟩
        have h := ih hu'
        simp only [List.nil_append, List.cons_append] at h ⊢
        rw [List.dropWhile_cons_of_pos hx, List.dropWhile_cons_of_pos hx, h]
      · simp only [List.nil_append, List.cons_append]
        rw [List.dropWhile_cons_of_neg hx, List.dropWhile_cons_of_neg hx, List.cons_append]
  | cons x a ih =>
    by_cases hx : p x
    · rw [List.cons_append, List.dropWhile_cons_of_pos hx]
      exact ih
    · rw [List.cons_append, List.dropWhile_cons_of_neg hx]
      have ht := List.takeWhile_append_dropWhile (p := p) (l := u)
      refine ⟨x :: a ++ u.takeWhile p, ?_⟩
      rw [List.append_assoc, ← List.append_assoc (u.takeWhile p), ht, List.cons_append]

/-- What is left of a part stands in what is left of the whole. -/
theorem trim_part {u : List α} (hu : ∃ x ∈ u, ¬ p x) (a b : List α) :
    trim p u <:+: trim p (a ++ (u ++ b)) := by
  have hd : ∃ x ∈ (u.dropWhile p).reverse, ¬ p x := by
    simp only [List.mem_reverse]
    exact not_of_mem_dropWhile p hu
  cases dropWhile_part p hu a b with
  | intro a' ha =>
    cases dropWhile_part p hd b.reverse a'.reverse with
    | intro b' hb =>
      refine ⟨a', b'.reverse, ?_⟩
      rw [trim, trim, ha, List.rdropWhile, List.rdropWhile, List.reverse_append,
        List.reverse_append, List.append_assoc b.reverse, hb]
      simp only [List.reverse_append, List.reverse_reverse, List.append_assoc]

theorem strip_length_le (s : String) : (strip s).length ≤ s.length := by
  have h := trim_length_le isSpace s.toList
  rw [strip_eq_trim, String.length_ofList, ← String.length_toList]
  exact h

theorem strip_eq_empty (s : String) : strip s = "" ↔ ∀ c ∈ s.toList, isSpace c := by
  rw [strip_eq_trim, String.ofList_eq_empty_iff, trim_eq_nil]

end DataCopilot.Text
