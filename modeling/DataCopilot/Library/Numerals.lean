import Mathlib.Data.Char
import Mathlib.Data.List.Lex
import Mathlib.Data.String.Basic
import DataCopilot.Library.Text

/-! The order of decimal numerals as texts: the leading digits are compared, as many as both have. -/
namespace DataCopilot.Numerals

section Lists
variable {α : Type*} [LinearOrder α] {l k : List α} {c d : α}

theorem concat_lt_concat (h : l.length = k.length) :
    l ++ [c] < k ++ [d] ↔ l < k ∨ l = k ∧ c < d := by
  induction l generalizing k with
  | nil =>
    have hk : k = [] := List.eq_nil_of_length_eq_zero h.symm
    rw [hk, List.nil_append, List.nil_append, List.cons_lt_cons_iff]
    simp
  | cons a l ih =>
    cases k with
    | nil => cases h
    | cons b k =>
      have hrest := ih (Nat.succ.inj h)
      rw [List.cons_append, List.cons_append, List.cons_lt_cons_iff, List.cons_lt_cons_iff, hrest,
        List.cons.injEq]
      tauto

/-- A list at most as long is before the longer one just when it is not after what that one prolongs. -/
theorem lt_concat (h : l.length ≤ k.length) : l < k ++ [d] ↔ l ≤ k := by
  rw [le_iff_lt_or_eq]
  induction l generalizing k with
  | nil =>
    have hpos : [] < k ++ [d] := by
      cases k with
      | nil => exact List.nil_lt_cons d []
      | cons b k => exact List.nil_lt_cons b _
    refine ⟨fun _ => ?_, fun _ => hpos⟩
    cases k with
    | nil => exact .inr rfl
    | cons b k => exact .inl (List.nil_lt_cons b k)
  | cons a l ih =>
    cases k with
    | nil => cases h
    | cons b k =>
      have hrest := ih (Nat.le_of_succ_le_succ h)
      rw [List.cons_append, List.cons_lt_cons_iff, List.cons_lt_cons_iff, hrest, List.cons.injEq]
      tauto

end Lists

section Naturals
variable {m n : Nat}

/-- The number of decimal digits. -/
def width (n : Nat) : Nat := (Nat.toDigits 10 n).length

theorem toDigits_ten (h : 10 ≤ n) :
    Nat.toDigits 10 n = Nat.toDigits 10 (n / 10) ++ [(n % 10).digitChar] :=
  Nat.toDigits_of_base_le (by decide) h

theorem width_of_lt (h : n < 10) : width n = 1 := by
  rw [width, Nat.toDigits_of_lt_base h, List.length_singleton]

theorem width_of_le (h : 10 ≤ n) : width n = width (n / 10) + 1 := by
  rw [width, toDigits_ten h, List.length_append, List.length_singleton, width]

theorem width_pos (n : Nat) : 1 ≤ width n := by
  by_cases h : n < 10
  · rw [width_of_lt h]
  · rw [width_of_le (Nat.le_of_not_lt h)]
    omega

theorem toDigits_inj (h : Nat.toDigits 10 m = Nat.toDigits 10 n) : m = n := by
  apply Text.toString_nat_inj
  rw [← String.toList_inj, Text.toList_toString, Text.toList_toString, h]

theorem digitChar_lt (hm : m < 10) (hn : n < 10) : m.digitChar < n.digitChar ↔ m < n := by
  rw [Char.lt_def, UInt32.lt_iff_toNat_lt]
  have hmc : m.digitChar.toNat = 48 + m := Nat.toNat_digitChar_of_lt_ten hm
  have hnc : n.digitChar.toNat = 48 + n := Nat.toNat_digitChar_of_lt_ten hn
  have hv : ∀ c : Char, c.val.toNat = c.toNat := fun _ => rfl
  rw [hv, hv, hmc, hnc]
  omega

/-- With as many digits the numerals are ordered as the numbers. -/
theorem toDigits_lt_iff (h : width m = width n) : Nat.toDigits 10 m < Nat.toDigits 10 n ↔ m < n := by
  induction m using Nat.strong_induction_on generalizing n with
  | _ m ih =>
    by_cases hm : m < 10
    · have hn : n < 10 := by
        by_contra hn
        have hw := width_of_le (Nat.le_of_not_lt hn)
        have hpos := width_pos (n / 10)
        rw [width_of_lt hm] at h
        omega
      rw [Nat.toDigits_of_lt_base hm, Nat.toDigits_of_lt_base hn, List.cons_lt_cons_iff, digitChar_lt hm hn]
      simp
    · have hm := Nat.le_of_not_lt hm
      have hw := width_of_le hm
      have hn : 10 ≤ n := by
        by_contra hn
        have hone := width_of_lt (Nat.lt_of_not_le hn)
        have hpos := width_pos (m / 10)
        omega
      have hwidth : width (m / 10) = width (n / 10) := by
        rw [width_of_le hn] at h
        omega
      have hrest := ih (m / 10) (by omega) hwidth
      have heq : Nat.toDigits 10 (m / 10) = Nat.toDigits 10 (n / 10) ↔ m / 10 = n / 10 :=
        ⟨toDigits_inj, fun he => by rw [he]⟩
      rw [toDigits_ten hm, toDigits_ten hn, concat_lt_concat hwidth, hrest, heq,
        digitChar_lt (Nat.mod_lt m (by decide)) (Nat.mod_lt n (by decide))]
      omega

theorem toDigits_le_iff_lt (h : width m ≠ width n) :
    Nat.toDigits 10 m ≤ Nat.toDigits 10 n ↔ Nat.toDigits 10 m < Nat.toDigits 10 n := by
  rw [le_iff_lt_or_eq]
  exact ⟨fun hle => hle.resolve_right fun he => h (congrArg List.length he), Or.inl⟩

/-- The digits that the longer numeral has more do not count. -/
theorem toDigits_le_of_width_le (h : width m ≤ width n) :
    Nat.toDigits 10 m ≤ Nat.toDigits 10 n ↔ m ≤ n / 10 ^ (width n - width m) := by
  induction n using Nat.strong_induction_on with
  | _ n ih =>
    by_cases hwidth : width m = width n
    · rw [hwidth, Nat.sub_self, Nat.pow_zero, Nat.div_one, ← not_lt, toDigits_lt_iff hwidth.symm, Nat.not_lt]
    · have hn : 10 ≤ n := by
        by_contra hn
        have hone := width_of_lt (Nat.lt_of_not_le hn)
        have hpos := width_pos m
        omega
      have hw := width_of_le hn
      have hle : width m ≤ width (n / 10) := by omega
      have hpower : width n - width m = width (n / 10) - width m + 1 := by omega
      rw [toDigits_le_iff_lt hwidth, toDigits_ten hn, lt_concat hle, ih (n / 10) (by omega) hle, hpower,
        Nat.pow_succ, Nat.mul_comm, Nat.div_div_eq_div_mul]

/-- `m` comes as a text not after `n`: the digits are compared that both have. -/
def LeadingLe (m n : Nat) : Prop :=
  if width m ≤ width n then m ≤ n / 10 ^ (width n - width m) else m / 10 ^ (width m - width n) < n

instance (m n : Nat) : Decidable (LeadingLe m n) :=
  inferInstanceAs (Decidable (if width m ≤ width n then m ≤ n / 10 ^ (width n - width m)
    else m / 10 ^ (width m - width n) < n))

theorem toDigits_le_iff : Nat.toDigits 10 m ≤ Nat.toDigits 10 n ↔ LeadingLe m n := by
  rw [LeadingLe]
  by_cases h : width m ≤ width n
  · rw [if_pos h, toDigits_le_of_width_le h]
  · have hlt := Nat.lt_of_not_le h
    have hback := toDigits_le_of_width_le (Nat.le_of_lt hlt)
    rw [if_neg h, ← not_lt, ← toDigits_le_iff_lt (Nat.ne_of_lt hlt), hback, Nat.not_le]

end Naturals

/-- The order of the numerals of two integers as texts. -/
def NumeralLe : Int → Int → Prop
  | .ofNat m, .ofNat n => LeadingLe m n
  | .negSucc m, .negSucc n => LeadingLe (m + 1) (n + 1)
  | .negSucc _, .ofNat _ => True
  | .ofNat _, .negSucc _ => False

instance : (a b : Int) → Decidable (NumeralLe a b)
  | .ofNat m, .ofNat n => inferInstanceAs (Decidable (LeadingLe m n))
  | .negSucc m, .negSucc n => inferInstanceAs (Decidable (LeadingLe (m + 1) (n + 1)))
  | .negSucc _, .ofNat _ => .isTrue trivial
  | .ofNat _, .negSucc _ => .isFalse id

theorem toList_negSucc (n : Nat) : (toString (Int.negSucc n)).toList = '-' :: Nat.toDigits 10 (n + 1) := by
  have h : toString (Int.negSucc n) = "-" ++ toString (n + 1) := rfl
  rw [h, String.toList_append, Text.toList_toString]
  rfl

theorem toList_ofNat (n : Nat) : (toString (Int.ofNat n)).toList = Nat.toDigits 10 n :=
  Text.toList_toString n

/-- A minus sign comes before every digit. -/
theorem minus_lt_toDigits (n : Nat) (l : List Char) : '-' :: l < Nat.toDigits 10 n := by
  have hne := width_pos n
  rw [width] at hne
  cases hd : Nat.toDigits 10 n with
  | nil =>
    rw [hd] at hne
    cases hne
  | cons c rest =>
    have hdigit : c.isDigit = true :=
      Nat.isDigit_of_mem_toDigits (by decide) (by decide) (hd ▸ List.mem_cons_self)
    rw [List.cons_lt_cons_iff]
    left
    have hlow := (Char.isDigit_iff_toNat.mp hdigit).1
    have hminus : '-'.toNat = 45 := by decide
    have hzero : '0'.toNat = 48 := by decide
    rw [Char.lt_def, UInt32.lt_iff_toNat_lt]
    have hv : ∀ c : Char, c.val.toNat = c.toNat := fun _ => rfl
    rw [hv, hv]
    omega

theorem toString_le_iff (a b : Int) : toString a ≤ toString b ↔ NumeralLe a b := by
  have hle : toString a ≤ toString b ↔ (toString a).toList ≤ (toString b).toList := by
    rw [← not_lt, String.lt_iff, not_lt]
  rw [hle]
  cases a with
  | ofNat m =>
    cases b with
    | ofNat n =>
      rw [toList_ofNat, toList_ofNat, toDigits_le_iff]
      rfl
    | negSucc n =>
      rw [toList_ofNat, toList_negSucc]
      exact ⟨fun h => absurd (minus_lt_toDigits m _) (not_lt_of_ge h), fun h => h.elim⟩
  | negSucc m =>
    cases b with
    | ofNat n =>
      rw [toList_ofNat, toList_negSucc]
      exact ⟨fun _ => trivial, fun _ => le_of_lt (minus_lt_toDigits n _)⟩
    | negSucc n =>
      have hrest : '-' :: Nat.toDigits 10 (m + 1) ≤ '-' :: Nat.toDigits 10 (n + 1) ↔
          Nat.toDigits 10 (m + 1) ≤ Nat.toDigits 10 (n + 1) := by
        rw [← not_lt, ← not_lt, List.cons_lt_cons_iff]
        simp only [lt_self_iff_false, true_and, false_or]
      rw [toList_negSucc, toList_negSucc, hrest]
      exact toDigits_le_iff

theorem toString_int_inj {a b : Int} (h : toString a = toString b) : a = b := by
  have hlist := congrArg String.toList h
  cases a with
  | ofNat m =>
    cases b with
    | ofNat n =>
      rw [toList_ofNat, toList_ofNat] at hlist
      rw [toDigits_inj hlist]
    | negSucc n =>
      rw [toList_ofNat, toList_negSucc] at hlist
      exact absurd (hlist ▸ minus_lt_toDigits m _) (List.lt_irrefl _)
  | negSucc m =>
    cases b with
    | ofNat n =>
      rw [toList_ofNat, toList_negSucc] at hlist
      exact absurd (hlist ▸ minus_lt_toDigits n _) (List.lt_irrefl _)
    | negSucc n =>
      rw [toList_negSucc, toList_negSucc] at hlist
      have hdigits := toDigits_inj (List.tail_eq_of_cons_eq hlist)
      rw [Nat.succ.inj hdigits]

end DataCopilot.Numerals
