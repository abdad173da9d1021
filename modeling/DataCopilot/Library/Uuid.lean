import Mathlib.Data.List.Basic

/-! Universally unique ids by the text they are written as. -/
namespace DataCopilot

def isHexDigit (c : Char) : Bool := c.isDigit || ('a' ≤ c && c ≤ 'f')

/-- The form in which `UUID.toString` and `str` write an id. -/
def isCanonical (text : String) : Bool :=
  text.length = 36 && text.toList.zipIdx.all fun p =>
    if p.2 ∈ [8, 13, 18, 23] then p.1 = '-' else isHexDigit p.1

structure UUID where
  text : String
  canonical : isCanonical text = true
deriving DecidableEq

theorem UUID.ext {a b : UUID} (h : a.text = b.text) : a = b := by
  cases a
  cases b
  simp only at h
  subst h
  rfl

theorem isHexDigit_toNat {c : Char} (h : isHexDigit c = true) :
    (48 ≤ c.toNat ∧ c.toNat ≤ 57) ∨ (97 ≤ c.toNat ∧ c.toNat ≤ 102) := by
  simp only [isHexDigit, Char.isDigit, Bool.or_eq_true, Bool.and_eq_true, decide_eq_true_eq,
    Char.le_def, ge_iff_le, UInt32.le_iff_toNat_le] at h
  have hc : c.val.toNat = c.toNat := rfl
  have ha : 'a'.val.toNat = 97 := by decide
  have hf : 'f'.val.toNat = 102 := by decide
  have h0 : '0'.val.toNat = 48 := by decide
  have h9 : '9'.val.toNat = 57 := by decide
  omega

theorem UUID.chars (u : UUID) : ∀ c ∈ u.text.toList,
    c.toNat = 45 ∨ (48 ≤ c.toNat ∧ c.toNat ≤ 57) ∨ (97 ≤ c.toNat ∧ c.toNat ≤ 102) := by
  intro c hc
  have hcanonical := u.canonical
  simp only [isCanonical, Bool.and_eq_true, List.all_eq_true] at hcanonical
  obtain ⟨i, hi, hget⟩ := List.getElem_of_mem hc
  have hmem : (c, i) ∈ u.text.toList.zipIdx := by
    rw [List.mem_zipIdx_iff_getElem?, List.getElem?_eq_getElem hi, hget]
  have hform := hcanonical.2 (c, i) hmem
  by_cases hm : i ∈ [8, 13, 18, 23]
  · have hdash : c = '-' := by simpa [hm] using hform
    rw [hdash]
    decide
  · have hhex : isHexDigit c = true := by simpa [hm] using hform
    exact .inr (isHexDigit_toNat hhex)

theorem UUID.length_text (u : UUID) : u.text.toList.length = 36 := by
  have hcanonical := u.canonical
  simp only [isCanonical, Bool.and_eq_true, decide_eq_true_eq] at hcanonical
  rw [String.length_toList]
  exact hcanonical.1

end DataCopilot
