import Mathlib.Data.List.Infix

/-! Strings as lists of characters: ASCII case folding, which is idempotent, white space,
splitting and infixes. -/
namespace DataCopilot.Text

theorem toLower_of_not_upper {c : Char} (h : ¬ (65 ≤ c.toNat ∧ c.toNat ≤ 90)) :
    c.toLower = c := by
  unfold Char.toLower
  rw [dif_neg]
  rintro ⟨h1, h2⟩
  rw [ge_iff_le, UInt32.le_iff_toNat_le] at h1
  rw [UInt32.le_iff_toNat_le] at h2
  exact h ⟨h1, h2⟩

theorem toNat_toLower_of_upper {c : Char} (h : 65 ≤ c.toNat ∧ c.toNat ≤ 90) :
    c.toLower.toNat = c.toNat + 32 := by
  have hA : 'A'.val.toNat = 65 := by decide
  have hZ : 'Z'.val.toNat = 90 := by decide
  have hd : ('a'.val - 'A'.val).toNat = 32 := by decide
  have hc : c.val.toNat = c.toNat := rfl
  have hv : c.val ≥ 'A'.val ∧ c.val ≤ 'Z'.val := by
    rw [ge_iff_le, UInt32.le_iff_toNat_le, UInt32.le_iff_toNat_le]
    omega
  unfold Char.toLower
  rw [dif_pos hv]
  change (c.val + ('a'.val - 'A'.val)).toNat = _
  rw [UInt32.toNat_add, hd]
  omega

theorem toLower_toLower (c : Char) : c.toLower.toLower = c.toLower := by
  by_cases h : 65 ≤ c.toNat ∧ c.toNat ≤ 90
  · have hn := toNat_toLower_of_upper h
    exact toLower_of_not_upper (by omega)
  · rw [toLower_of_not_upper h, toLower_of_not_upper h]

def lower (s : String) : String := String.ofList (s.toList.map Char.toLower)

def upper (s : String) : String := String.ofList (s.toList.map Char.toUpper)

theorem lower_lower (s : String) : lower (lower s) = lower s := by
  have h : Char.toLower ∘ Char.toLower = Char.toLower := funext toLower_toLower
  simp only [lower, String.toList_ofList, List.map_map, h]

/-- The characters that `str.isspace` accepts. -/
def isSpace (c : Char) : Bool :=
  let n := c.toNat
  (9 ≤ n && n ≤ 13) || (28 ≤ n && n ≤ 32) || n == 133 || n == 160 || n == 5760 ||
    (8192 ≤ n && n ≤ 8202) || n == 8232 || n == 8233 || n == 8239 || n == 8287 || n == 12288

def strip (s : String) : String :=
  String.ofList (((s.toList.dropWhile isSpace).reverse.dropWhile isSpace).reverse)

def splitOn (p : Char → Bool) (s : String) : List String :=
  (s.toList.splitOnP p).map String.ofList

/-- `str.split()`: the words between runs of white space. -/
def words (s : String) : List String := (splitOn isSpace s).filter (· ≠ "")

/-- `part in s`. -/
def contains (s part : String) : Bool := s.toList.tails.any part.toList.isPrefixOf

theorem contains_iff {s part : String} : contains s part = true ↔ part.toList <:+: s.toList := by
  rw [contains, List.any_eq_true, List.infix_iff_prefix_suffix]
  constructor
  · intro h
    obtain ⟨rest, hrest, hpart⟩ := h
    exact ⟨rest, List.isPrefixOf_iff_prefix.mp hpart, (List.mem_tails _ _).mp hrest⟩
  · intro h
    obtain ⟨rest, hpart, hrest⟩ := h
    exact ⟨rest, (List.mem_tails _ _).mpr hrest, List.isPrefixOf_iff_prefix.mpr hpart⟩

theorem contains_trans {s part piece : String} (h : contains s part = true)
    (hpiece : piece.toList <:+: part.toList) : contains s piece = true :=
  contains_iff.mpr (hpiece.trans (contains_iff.mp h))

def joinWith (separator : String) : List String → String
  | [] => ""
  | [s] => s
  | s :: rest => s ++ separator ++ joinWith separator rest

/-- Where the separator first comes divides a text in one way. -/
theorem eq_of_append_cons {α : Type} {sep : α} {a a' b b' : List α} (ha : sep ∉ a) (ha' : sep ∉ a')
    (h : a ++ sep :: b = a' ++ sep :: b') : a = a' ∧ b = b' := by
  induction a generalizing a' with
  | nil =>
    cases a' with
    | nil => exact ⟨rfl, List.tail_eq_of_cons_eq h⟩
    | cons c rest =>
      have hc : sep = c := List.head_eq_of_cons_eq h
      exact absurd (hc ▸ List.mem_cons_self) ha'
  | cons c rest ih =>
    cases a' with
    | nil =>
      have hc : c = sep := List.head_eq_of_cons_eq h
      exact absurd (hc ▸ List.mem_cons_self) ha
    | cons c' rest' =>
      have hc : c = c' := List.head_eq_of_cons_eq h
      have hrest := ih (List.not_mem_of_not_mem_cons ha) (List.not_mem_of_not_mem_cons ha')
        (List.tail_eq_of_cons_eq h)
      rw [hc, hrest.1]
      exact ⟨rfl, hrest.2⟩

section Digits
variable {n k : Nat} {c : Char}

theorem toList_toString (n : Nat) : (toString n).toList = Nat.toDigits 10 n := Nat.toList_repr

theorem ofDigitChars_toString (n : Nat) : Nat.ofDigitChars 10 (toString n).toList 0 = n := by
  rw [toList_toString, Nat.ofDigitChars_toDigits (by decide) (by decide)]

theorem toString_nat_inj (h : toString n = toString k) : n = k := by
  rw [← ofDigitChars_toString n, h, ofDigitChars_toString]

theorem isDigit_of_mem_toString (h : c ∈ (toString n).toList) : c.isDigit = true := by
  rw [toList_toString] at h
  exact Nat.isDigit_of_mem_toDigits (by decide) (by decide) h

theorem not_mem_toString (h : c.isDigit = false) : c ∉ (toString n).toList := by
  intro hc
  rw [isDigit_of_mem_toString hc] at h
  cases h

end Digits

theorem length_le_utf8ByteSize (s : String) : s.length ≤ s.utf8ByteSize := by
  have hencode : ∀ l : List Char, l.length ≤ l.utf8Encode.size := by
    intro l
    induction l with
    | nil => exact Nat.zero_le _
    | cons c rest ih =>
      have hc := c.utf8Size_pos
      have hone : [c].utf8Encode.size = c.utf8Size := by
        rw [List.utf8Encode_singleton]
        simp
      rw [List.utf8Encode_cons, ByteArray.size_append, List.length_cons]
      omega
  rw [← String.length_toList, ← String.size_toByteArray, ← String.utf8Encode_toList]
  exact hencode s.toList

theorem append_ne_empty {a : String} (b : String) (h : a ≠ "") : a ++ b ≠ "" :=
  fun hab => h (String.append_eq_empty_iff.mp hab).1

end DataCopilot.Text
