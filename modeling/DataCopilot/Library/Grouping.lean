import DataCopilot.Library.Dict
import Mathlib.Data.List.Sort
import Mathlib.Data.String.Basic

/-! Values collected under their keys, as a `defaultdict(list)` does it. -/
namespace DataCopilot.Dict
variable {κ ν : Type} [DecidableEq κ]

/-- `d[e.1].append(e.2)`. -/
def appendItem (d : List (κ × List ν)) (e : κ × ν) : List (κ × List ν) :=
  setItem d (e.1, (get? d e.1).getD [] ++ [e.2])

def grouped (pairs : List (κ × ν)) : List (κ × List ν) := pairs.foldl appendItem []

/-- What stands under a key, in order. -/
def under (pairs : List (κ × ν)) (k : κ) : List ν := (pairs.filter fun e => e.1 = k).map Prod.snd

theorem under_concat (pairs : List (κ × ν)) (e : κ × ν) (k : κ) :
    under (pairs ++ [e]) k = if e.1 = k then under pairs k ++ [e.2] else under pairs k := by
  rw [under, List.filter_append, List.map_append]
  by_cases h : e.1 = k
  · rw [if_pos h, List.filter_cons_of_pos (by simp [h])]
    rfl
  · rw [if_neg h, List.filter_cons_of_neg (by simp [h])]
    exact List.append_nil _

theorem under_eq_nil {pairs : List (κ × ν)} {k : κ} : under pairs k = [] ↔ k ∉ pairs.map Prod.fst := by
  rw [under, List.map_eq_nil_iff, List.filter_eq_nil_iff]
  constructor
  · intro h hk
    obtain ⟨e, he, hek⟩ := List.mem_map.mp hk
    exact h e he (decide_eq_true hek)
  · intro h e he hek
    exact h (List.mem_map.mpr ⟨e, he, of_decide_eq_true hek⟩)

theorem grouped_concat (pairs : List (κ × ν)) (e : κ × ν) :
    grouped (pairs ++ [e]) = appendItem (grouped pairs) e := by
  rw [grouped, List.foldl_append]
  rfl

theorem mem_keys_grouped {pairs : List (κ × ν)} {k : κ} :
    k ∈ (grouped pairs).map Prod.fst ↔ k ∈ pairs.map Prod.fst := by
  induction pairs using List.reverseRecOn with
  | nil => rfl
  | append_singleton pairs e ih =>
    rw [grouped_concat, appendItem, mem_keys_setItem, ih, List.map_append, List.mem_append,
      List.map_singleton, List.mem_singleton]

theorem nodup_keys_grouped (pairs : List (κ × ν)) : ((grouped pairs).map Prod.fst).Nodup := by
  induction pairs using List.reverseRecOn with
  | nil => exact List.nodup_nil
  | append_singleton pairs e ih =>
    rw [grouped_concat]
    exact nodup_keys_setItem ih

theorem get?_grouped (pairs : List (κ × ν)) (k : κ) :
    (get? (grouped pairs) k).getD [] = under pairs k := by
  induction pairs using List.reverseRecOn with
  | nil => rfl
  | append_singleton pairs e ih =>
    rw [grouped_concat, appendItem, get?_setItem, under_concat]
    by_cases h : k = e.1
    · rw [if_pos h, if_pos h.symm, ← h, ih, Option.getD_some]
    · rw [if_neg h, if_neg (Ne.symm h), ih]

/-- The last value that was set under the key. -/
theorem get?_entries (pairs : List (κ × ν)) (k : κ) : get? (entries pairs) k = (under pairs k).getLast? := by
  induction pairs using List.reverseRecOn with
  | nil => rfl
  | append_singleton pairs e ih =>
    rw [entries_setItem, get?_setItem, under_concat]
    by_cases h : k = e.1
    · rw [if_pos h, if_pos h.symm, List.getLast?_concat]
    · rw [if_neg h, if_neg (Ne.symm h), ih]

omit [DecidableEq κ] in
theorem sorted_keys_eq [LinearOrder κ] {ks ls : List κ} (hk : ks.Nodup) (hl : ls.Nodup)
    (h : ∀ k, k ∈ ks ↔ k ∈ ls) : ks.insertionSort (· ≤ ·) = ls.insertionSort (· ≤ ·) := by
  have hperm : (ks.insertionSort (· ≤ ·)).Perm (ls.insertionSort (· ≤ ·)) :=
    (List.perm_insertionSort _ _).trans
      (((List.perm_ext_iff_of_nodup hk hl).mpr h).trans (List.perm_insertionSort _ _).symm)
  refine List.Perm.eq_of_pairwise ?_ (List.pairwise_insertionSort (· ≤ ·) ks)
    (List.pairwise_insertionSort (· ≤ ·) ls) hperm
  intro a b _ _ hab hba
  exact le_antisymm hab hba

end DataCopilot.Dict
