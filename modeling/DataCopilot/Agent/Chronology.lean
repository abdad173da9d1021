import Mathlib.Data.List.Chain
import DataCopilot.Library.Numerals
import DataCopilot.Agent.Answering

/-! When the description of a result compares its first and its last period: the periods are told to
be in order by their texts, and a change that is too large is an exception. -/
namespace DataCopilot.Agent
open Numerals

section Series
variable {ns : List Int}

/-- Neighbours compare alike as numbers and as numerals, or both orders are broken, or the series
ends where it starts. -/
def OrderedAlike (ns : List Int) : Prop :=
  ns.head? = ns.getLast? ∨ ns.IsChain (fun a b => a ≤ b ↔ NumeralLe a b) ∨
    ¬ ns.IsChain (· ≤ ·) ∧ ¬ ns.IsChain NumeralLe

instance (ns : List Int) : Decidable (OrderedAlike ns) :=
  inferInstanceAs (Decidable (_ ∨ ns.IsChain _ ∨ ¬ ns.IsChain _ ∧ ¬ ns.IsChain _))

theorem isChain_iff_of_alike {α : Type} {r s : α → α → Prop} {l : List α}
    (h : l.IsChain fun a b => r a b ↔ s a b) : l.IsChain r ↔ l.IsChain s := by
  rw [List.isChain_iff_getElem] at h ⊢
  rw [List.isChain_iff_getElem]
  constructor
  · intro hr i hi
    exact (h i hi).mp (hr i hi)
  · intro hs i hi
    exact (h i hi).mpr (hs i hi)

theorem alike_of_isChain {α : Type} {r s : α → α → Prop} {l : List α} (hr : l.IsChain r) (hs : l.IsChain s) :
    l.IsChain fun a b => r a b ↔ s a b := by
  rw [List.isChain_iff_getElem] at hr hs ⊢
  intro i hi
  exact ⟨fun _ => hs i hi, fun _ => hr i hi⟩

/-- The order of the numerals stands for that of the numbers just when the series is ordered alike. -/
theorem orderedAlike_iff : OrderedAlike ns ↔
    (ns.IsChain NumeralLe ∧ ns.head? ≠ ns.getLast? ↔ ns.IsChain (· ≤ ·) ∧ ns.head? ≠ ns.getLast?) := by
  rw [OrderedAlike]
  by_cases hends : ns.head? = ns.getLast?
  · simp only [hends, true_or, ne_eq, not_true_eq_false, and_false]
  · simp only [hends, false_or, ne_eq, not_false_eq_true, and_true]
    constructor
    · intro h
      cases h with
      | inl h => exact (isChain_iff_of_alike h).symm
      | inr h => exact ⟨fun hs => absurd hs h.2, fun hr => absurd hr h.1⟩
    · intro h
      by_cases hr : ns.IsChain (· ≤ ·)
      · exact .inl (alike_of_isChain hr (h.mpr hr))
      · exact .inr ⟨hr, fun hs => hr (h.mp hs)⟩

end Series

namespace Answering
variable {py : Python} {columns : List String} {rows : List Row} {metric period : String} {ns : List Int}

theorem singleton_le_iff (a b : Int) : [toString a] ≤ [toString b] ↔ NumeralLe a b := by
  rw [← toString_le_iff, ← not_lt, ← not_lt, List.cons_lt_cons_iff]
  simp only [lt_self_iff_false, and_false, or_false]

/-- The keys of a series of integers are sorted as its numerals are. -/
theorem sorted_iff : (ns.map fun n => [toString n]) = (ns.map fun n => [toString n]).insertionSort (· ≤ ·) ↔
    ns.IsChain NumeralLe := by
  have hsorted : (ns.map fun n => [toString n]) = (ns.map fun n => [toString n]).insertionSort (· ≤ ·) ↔
      (ns.map fun n => [toString n]).Pairwise (· ≤ ·) := by
    constructor
    · intro h
      rw [h]
      exact List.pairwise_insertionSort _ _
    · intro h
      exact h.insertionSort_eq.symm
  rw [hsorted, ← List.isChain_iff_pairwise, List.isChain_map]
  simp only [singleton_le_iff]

theorem ends_iff : (ns.map fun n => [toString n]).head? = (ns.map fun n => [toString n]).getLast? ↔
    ns.head? = ns.getLast? := by
  have hinj : Function.Injective fun n : Int => [toString n] := fun a b h =>
    toString_int_inj (List.singleton_inj.mp h)
  rw [List.head?_map, List.getLast?_map]
  exact (Option.map_injective hinj).eq_iff

theorem number_of_metric (hmetric : metricColumn py columns rows = some metric) :
    ∀ row ∈ rows, (number py (row.cell metric)).isSome = true := by
  have h := List.find?_some hmetric
  simp only [Bool.and_eq_true, List.all_eq_true] at h
  exact h.2

theorem periodKeys_eq (hperiod : columns.filter (marked py periodMarkers) = [period])
    (hvalues : rows.map (fun row => (row.lookup period).map Cell.text) = ns.map fun n => some (toString n)) :
    periodKeys py columns rows = ns.map fun n => [toString n] := by
  have hkeys : periodKeys py columns rows =
      (rows.map fun row => (row.lookup period).map Cell.text).map fun value => [value.getD ""] := by
    rw [periodKeys, hperiod, List.map_map]
    rfl
  rw [hkeys, hvalues, List.map_map]
  rfl

/-- Neither the change from the first number to the last nor its percentage of the first is too
large for a `Decimal`. -/
def Fits (first last : ℚ) : Prop :=
  |last - first| < Py.decimalLimit ∧ (first ≠ 0 →
    |Py.decimalRounded (last - first) / first| < Py.decimalLimit ∧
    |Py.decimalRounded (Py.decimalRounded (last - first) / first) * 100| < Py.decimalLimit)

theorem changeOf_isSome_iff (first last : ℚ) : (changeOf first last).isSome = true ↔ Fits first last := by
  have hbind {x : ℚ} {f : ℚ → Option (ℚ × Option ℚ)} : ((Py.decimalResult x).bind f).isSome = true ↔
      |x| < Py.decimalLimit ∧ (f (Py.decimalRounded x)).isSome = true := by
    rw [Py.decimalResult_eq]
    by_cases h : |x| < Py.decimalLimit
    · rw [if_pos h]
      exact (and_iff_right h).symm
    · rw [if_neg h]
      exact iff_of_false Bool.false_ne_true fun hx => h hx.1
  rw [changeOf, Fits]
  refine hbind.trans (and_congr_right fun _ => ?_)
  by_cases hzero : first = 0
  · rw [if_pos hzero]
    exact ⟨fun _ hne => absurd hzero hne, fun _ => rfl⟩
  · rw [if_neg hzero]
    refine hbind.trans ?_
    rw [imp_iff_right hzero]
    refine and_congr_right fun _ => hbind.trans ?_
    exact and_iff_left rfl

/-- The change between the first and the last number of a column fits. -/
def ChangeFits (py : Python) (rows : List Row) (metric : String) : Prop :=
  ∀ first ∈ metricNumber py metric rows.head?, ∀ last ∈ metricNumber py metric rows.getLast?, Fits first last

theorem changeSentence_ne (metric : String) (change : ℚ) (percent : Option ℚ) :
    changeSentence py metric change percent ≠ "" := by
  unfold changeSentence
  simp only [String.append_assoc]
  exact Text.append_ne_empty _ (by decide)

theorem metricNumber_ends (hmetric : metricColumn py columns rows = some metric) (hne : rows ≠ []) :
    ∃ first last, metricNumber py metric rows.head? = some first ∧
      metricNumber py metric rows.getLast? = some last := by
  have hnumber := number_of_metric hmetric
  obtain ⟨first, hfirst⟩ := Option.isSome_iff_exists.mp (hnumber _ (List.head_mem hne))
  obtain ⟨last, hlast⟩ := Option.isSome_iff_exists.mp (hnumber _ (List.getLast_mem hne))
  refine ⟨first, last, ?_, ?_⟩
  · rw [metricNumber, List.head?_eq_some_head hne]
    exact hfirst
  · rw [metricNumber, List.getLast?_eq_some_getLast hne]
    exact hlast

section Told
variable (hrows : rows ≠ []) (hmetric : metricColumn py columns rows = some metric)
  (hperiod : columns.filter (marked py periodMarkers) = [period])
  (hvalues : rows.map (fun row => (row.lookup period).map Cell.text) = ns.map fun n => some (toString n))
include hperiod hvalues

/-- Nothing is said of numerals out of order, or of ends that are the same. -/
theorem periodChange_eq_empty (h : ¬ (ns.IsChain NumeralLe ∧ ns.head? ≠ ns.getLast?)) :
    periodChange py columns rows metric = some "" := by
  have hsome : columns.filter (marked py periodMarkers) ≠ [] := by
    rw [hperiod]
    exact List.cons_ne_nil _ _
  rw [periodChange, if_neg hsome, if_pos]
  rw [periodKeys_eq hperiod hvalues, ne_eq, sorted_iff, ends_iff]
  by_cases hchain : ns.IsChain NumeralLe
  · exact .inr (not_not.mp fun hends => h ⟨hchain, hends⟩)
  · exact .inl hchain

include hrows hmetric

/-- Numerals in order with different ends are told as a change, unless it overflows. -/
theorem periodChange_told (h : ns.IsChain NumeralLe ∧ ns.head? ≠ ns.getLast?) :
    (∃ change, change ≠ "" ∧ periodChange py columns rows metric = some change ∧ ChangeFits py rows metric) ∨
      periodChange py columns rows metric = none ∧ ¬ ChangeFits py rows metric := by
  obtain ⟨first, last, hfirst, hlast⟩ := metricNumber_ends hmetric hrows
  have hsome : columns.filter (marked py periodMarkers) ≠ [] := by
    rw [hperiod]
    exact List.cons_ne_nil _ _
  have heq : periodChange py columns rows metric =
      (changeOf first last).map fun c => changeSentence py metric c.1 c.2 := by
    rw [periodChange, if_neg hsome, if_neg, hfirst, hlast]
    rw [periodKeys_eq hperiod hvalues, ne_eq, sorted_iff, ends_iff]
    rintro (hchain | hends)
    · exact hchain h.1
    · exact h.2 hends
  have hfits : ChangeFits py rows metric ↔ Fits first last := by
    rw [ChangeFits, hfirst, hlast]
    constructor
    · intro hfits
      exact hfits first rfl last rfl
    · rintro hfits _ ⟨⟩ _ ⟨⟩
      exact hfits
  rw [heq, hfits, ← changeOf_isSome_iff]
  cases changeOf first last with
  | none => exact .inr ⟨rfl, Bool.false_ne_true⟩
  | some c => exact .inl ⟨_, changeSentence_ne metric c.1 c.2, rfl, rfl⟩

end Told

/-- The change from period to period stands between the values and the note on the truncation. -/
theorem describeSqlResult_eq (hmetric : metricColumn py columns rows = some metric) (hrows : 2 ≤ rows.length)
    (truncated : Bool) : ∃ first ∈ rows.head?, describeSqlResult py columns rows truncated =
      (periodChange py columns rows metric).map fun change =>
        metricAnswer py columns rows first metric ++ change ++ truncationNote rows truncated := by
  cases rows with
  | nil => cases hrows
  | cons first rest =>
    refine ⟨first, rfl, ?_⟩
    simp only [describeSqlResult, rowsAnswer, hmetric]
    rw [if_pos (show 1 < (first :: rest).length from hrows), Option.map_map]
    rfl

/-- A series of integers is told as a change from the first to the last period just when it is in
order, wherever its numerals are ordered alike and a change that is to be told fits. -/
theorem periodChange_chronological_iff (hrows : 2 ≤ rows.length)
    (hmetric : metricColumn py columns rows = some metric)
    (hperiod : columns.filter (marked py periodMarkers) = [period])
    (hvalues : rows.map (fun row => (row.lookup period).map Cell.text) = ns.map fun n => some (toString n)) :
    (∃ change, periodChange py columns rows metric = some change ∧
      (change ≠ "" ↔ ns.IsChain (· ≤ ·) ∧ ns.head? ≠ ns.getLast?) ∧
      ∀ truncated, ∃ first ∈ rows.head?, describeSqlResult py columns rows truncated =
        some (metricAnswer py columns rows first metric ++ change ++ truncationNote rows truncated)) ↔
      OrderedAlike ns ∧ (ns.IsChain (· ≤ ·) → ns.head? ≠ ns.getLast? → ChangeFits py rows metric) := by
  have hne : rows ≠ [] := by
    rintro rfl
    cases hrows
  have hanswer {change : String} (h : periodChange py columns rows metric = some change) (truncated : Bool) :
      ∃ first ∈ rows.head?, describeSqlResult py columns rows truncated =
        some (metricAnswer py columns rows first metric ++ change ++ truncationNote rows truncated) := by
    obtain ⟨first, hfirst, heq⟩ := describeSqlResult_eq hmetric hrows truncated
    rw [h] at heq
    exact ⟨first, hfirst, heq⟩
  rw [orderedAlike_iff]
  by_cases htold : ns.IsChain NumeralLe ∧ ns.head? ≠ ns.getLast?
  · rcases periodChange_told hne hmetric hperiod hvalues htold with ⟨change, hchange, heq, hfits⟩ | ⟨heq, hfits⟩
    · constructor
      · rintro ⟨_, hsome, hiff, -⟩
        rw [heq] at hsome
        cases hsome
        exact ⟨iff_of_true htold (hiff.mp hchange), fun _ _ => hfits⟩
      · rintro ⟨hiff, -⟩
        exact ⟨change, heq, iff_of_true hchange (hiff.mp htold), hanswer heq⟩
    · constructor
      · rintro ⟨_, hsome, -⟩
        rw [heq] at hsome
        cases hsome
      · rintro ⟨hiff, hfit⟩
        have horder := hiff.mp htold
        exact absurd (hfit horder.1 horder.2) hfits
  · have heq := @periodChange_eq_empty py columns rows metric period ns hperiod hvalues htold
    constructor
    · rintro ⟨_, hsome, hiff, -⟩
      rw [heq] at hsome
      cases hsome
      have horder : ¬ (ns.IsChain (· ≤ ·) ∧ ns.head? ≠ ns.getLast?) := fun h => hiff.mpr h rfl
      exact ⟨iff_of_false htold horder, fun hchain hends => absurd ⟨hchain, hends⟩ horder⟩
    · rintro ⟨hiff, -⟩
      have horder : ¬ (ns.IsChain (· ≤ ·) ∧ ns.head? ≠ ns.getLast?) := fun h => htold (hiff.mpr h)
      exact ⟨"", heq, iff_of_false (fun h => h rfl) horder, hanswer heq⟩

section Months

/-- Python as far as natural numbers below a thousand and the percentage below need it. -/
def decimalPython : Python where
  lower := Text.lower
  upper := Text.upper
  isalnum := Char.isAlphanum
  decimal s := if s ≠ "" ∧ s.toList.all Char.isDigit then some (Nat.ofDigitChars 10 s.toList 0 : ℕ) else none
  plain x := toString x.num.natAbs
  percent _ := "20.00"
  sha256 _ := ""

/-- The rows of a month and its sales. -/
def monthly (series : List (Int × Nat)) : List Row :=
  series.map fun p => [("month", .number (toString p.1)), ("sales", .number (toString p.2))]

/-- September and October are in order, but their numerals are not, and the other way round. -/
theorem periodChange_october :
    ¬ (∃ change, periodChange decimalPython ["month", "sales"] (monthly [(9, 100), (10, 120)]) "sales" =
        some change ∧
      (change ≠ "" ↔ [(9 : Int), 10].IsChain (· ≤ ·) ∧ [(9 : Int), 10].head? ≠ [(9 : Int), 10].getLast?)) ∧
    ¬ (∃ change, periodChange decimalPython ["month", "sales"] (monthly [(10, 100), (9, 120)]) "sales" =
        some change ∧
      (change ≠ "" ↔ [(10 : Int), 9].IsChain (· ≤ ·) ∧ [(10 : Int), 9].head? ≠ [(10 : Int), 9].getLast?)) := by
  constructor
  · rintro ⟨change, hchange, hiff⟩
    have hempty : periodChange decimalPython ["month", "sales"] (monthly [(9, 100), (10, 120)]) "sales" =
        some "" := by decide +kernel
    rw [hempty] at hchange
    cases hchange
    exact hiff.mpr (by decide) rfl
  · rintro ⟨change, hchange, hiff⟩
    have htold : periodChange decimalPython ["month", "sales"] (monthly [(10, 100), (9, 120)]) "sales" ≠
        some "" := by decide +kernel
    rw [hchange] at htold
    exact absurd (hiff.mp fun h => htold (congrArg some h)) (by decide)

theorem periodChange_february :
    ∃ change, periodChange decimalPython ["month", "sales"] (monthly [(1, 100), (2, 120)]) "sales" =
      some change ∧ change ≠ "" := by
  have hvalues : (monthly [(1, 100), (2, 120)]).map (fun row => (row.lookup "month").map Cell.text) =
      [1, 2].map fun n : Int => some (toString n) := rfl
  have hmetric : metricColumn decimalPython ["month", "sales"] (monthly [(1, 100), (2, 120)]) = some "sales" := by
    decide +kernel
  have hperiod : ["month", "sales"].filter (marked decimalPython periodMarkers) = ["month"] := by
    decide +kernel
  have hrows : 2 ≤ (monthly [(1, 100), (2, 120)]).length := Nat.le_refl 2
  have halike : OrderedAlike [1, 2] := by decide +kernel
  have hfirst : metricNumber decimalPython "sales" (monthly [(1, 100), (2, 120)]).head? = some 100 := by
    decide +kernel
  have hlast : metricNumber decimalPython "sales" (monthly [(1, 100), (2, 120)]).getLast? = some 120 := by
    decide +kernel
  have hfits : ChangeFits decimalPython (monthly [(1, 100), (2, 120)]) "sales" := by
    rw [ChangeFits, hfirst, hlast]
    rintro _ ⟨⟩ _ ⟨⟩
    rw [← changeOf_isSome_iff]
    decide +kernel
  obtain ⟨change, hchange, hiff, -⟩ := (periodChange_chronological_iff hrows hmetric hperiod hvalues).mpr
    ⟨halike, fun _ _ => hfits⟩
  exact ⟨change, hchange, hiff.mpr (by decide)⟩

end Months
end Answering
end DataCopilot.Agent
