import Mathlib.Data.List.Basic
import Mathlib.Data.List.Nodup

/-! A sorted list cut into pages of one size, and the rows of a join that stand for one row each. -/
namespace DataCopilot.Paging
variable {α β : Type*} {size number total n bound : Nat} {l : List α}

/-- Pages are numbered from one. -/
def page (size number : Nat) (l : List α) : List α := (l.drop ((number - 1) * size)).take size

def totalPages (size total : Nat) : Nat := total / size + if total % size = 0 then 0 else 1

theorem le_totalPages_mul (h : 0 < size) : total ≤ totalPages size total * size := by
  have hdiv := Nat.div_add_mod total size
  have hmod := Nat.mod_lt total h
  rw [totalPages, Nat.add_mul, Nat.mul_comm (total / size) size]
  by_cases hz : total % size = 0
  · rw [if_pos hz]
    omega
  · rw [if_neg hz]
    omega

theorem page_beyond (h : 0 < size) (hn : totalPages size l.length < number) : page size number l = [] := by
  have hle := @le_totalPages_mul size l.length h
  have hmono : totalPages size l.length * size ≤ (number - 1) * size :=
    Nat.mul_le_mul_right size (by omega)
  rw [page, List.drop_eq_nil_of_le (by omega), List.take_nil]

/-- The pages up to a bound are the list up to there. -/
theorem flatMap_page_bounded (h : 0 < size) :
    ((List.range' 1 (totalPages size l.length)).flatMap fun i => if i ≤ bound then page size i l else []) =
      l.take (bound * size) := by
  have hle := @le_totalPages_mul size l.length h
  have hcut : ∀ m, ((List.range' 1 m).flatMap fun i => if i ≤ bound then page size i l else []) =
      l.take (min m bound * size) := by
    intro m
    induction m with
    | zero => simp
    | succ m ih =>
      rw [List.range'_concat, List.flatMap_append, ih]
      by_cases hm : 1 + 1 * m ≤ bound
      · have h1 : min m bound = m := by omega
        have h2 : min (m + 1) bound = m + 1 := by omega
        have hlast : 1 + m ≤ bound := by omega
        rw [h1, h2, Nat.succ_mul m size, List.take_add]
        simp [hlast, page]
      · have h1 : min m bound = bound := by omega
        have h2 : min (m + 1) bound = bound := by omega
        have hlast : ¬ 1 + m ≤ bound := by omega
        rw [h1, h2]
        simp [hlast]
  rw [hcut]
  by_cases hb : totalPages size l.length ≤ bound
  · have hmono : totalPages size l.length * size ≤ bound * size := Nat.mul_le_mul_right size hb
    rw [Nat.min_eq_left hb, List.take_of_length_le hle, List.take_of_length_le (Nat.le_trans hle hmono)]
  · rw [Nat.min_eq_right (by omega)]

/-- Every element contributes itself or nothing. -/
theorem map_flatMap_sublist {f : α → List β} {g : β → α} (h : ∀ a ∈ l, List.Sublist ((f a).map g) [a]) :
    List.Sublist ((l.flatMap f).map g) l := by
  induction l with
  | nil => simp
  | cons a l ih =>
    rw [List.flatMap_cons, List.map_append]
    have htail := ih fun b hb => h b (List.mem_cons_of_mem a hb)
    exact (h a List.mem_cons_self).append htail

/-- A key picks at most one row of a table that it is unique in. -/
theorem filter_key_length_le {κ : Type*} [DecidableEq κ] {key : α → κ} (h : (l.map key).Nodup) (k : κ)
    (p : α → Bool) : (l.filter fun a => key a = k && p a).length ≤ 1 := by
  induction l with
  | nil => simp
  | cons a l ih =>
    have hn := List.nodup_cons.mp (by simpa using h : (key a :: l.map key).Nodup)
    by_cases ha : key a = k
    · have hrest : (l.filter fun b => key b = k && p b) = [] := by
        apply List.filter_eq_nil_iff.mpr
        intro b hb
        have hne : key b ≠ k := by
          intro hbk
          apply hn.1
          rw [ha, ← hbk]
          exact List.mem_map_of_mem hb
        simp [hne]
      rw [List.filter_cons, hrest]
      split
      · simp
      · simp
    · have hne : (decide (key a = k) && p a) = false := by simp [ha]
      rw [List.filter_cons, hne]
      exact ih hn.2

end DataCopilot.Paging
