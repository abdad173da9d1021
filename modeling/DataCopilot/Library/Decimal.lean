import DataCopilot.Library.Binary64

/-! `Decimal` in its default context: results have 28 digits, and one that is too large is an exception. -/
namespace DataCopilot.Py

/-- `Emax`, and the place of the last digit of the smallest number. -/
def maxExponent : Int := 999999

def minPlace : Int := -1000026

/-- The place of the last of the 28 digits. -/
def decimalPlace (x : ℚ) : ℚ := 10 ^ max (Int.log 10 |x| - 27) minPlace

/-- A number with 28 digits, of two the even one. -/
def decimalRounded (x : ℚ) : ℚ := nearest (x / decimalPlace x) * decimalPlace x

/-- An exact result as the arithmetic gives it. `none` is a `decimal.Overflow`. -/
def decimalResult (x : ℚ) : Option ℚ :=
  if maxExponent < Int.log 10 |decimalRounded x| then none else some (decimalRounded x)

example : decimalResult (2 / 3) = some (6666666666666666666666666667 / 10 ^ 28) := by decide +kernel

/-- The least number that is rounded beyond the largest exponent. -/
def decimalLimit : ℚ := (10 ^ 28 - 1 / 2) * 10 ^ (maxExponent - 27)

section Overflow
variable {x : ℚ}

/-- An even bound is reached by rounding from half below it. -/
theorem le_abs_nearest_iff {n : Int} (hpos : 0 < n) (heven : n % 2 = 0) :
    n ≤ |nearest x| ↔ (n : ℚ) - 1 / 2 ≤ |x| := by
  have herror := abs_le.mp (nearest_error x)
  constructor
  · intro h
    have hcast : (n : ℚ) ≤ |(nearest x : ℚ)| := by exact_mod_cast h
    have habs := abs_sub_abs_le_abs_sub (nearest x : ℚ) x
    have herr := nearest_error x
    linarith
  · intro h
    by_contra hlt
    have hbound : |nearest x| ≤ n - 1 := Int.le_sub_one_of_lt (not_le.mp hlt)
    have hcast : |(nearest x : ℚ)| ≤ n - 1 := by exact_mod_cast hbound
    have hsides := abs_le.mp hcast
    cases le_abs.mp h with
    | inl h =>
      -- The number is half below the bound, and the tie goes to the bound, which is even.
      have hx : x = n - 1 / 2 := by linarith [hsides.2, herror.1]
      have hfloor : ⌊x⌋ = n - 1 := by
        rw [Int.floor_eq_iff, hx]
        push_cast
        constructor <;> linarith
      have hnearest : nearest x = n := by
        rw [nearest, hfloor, if_neg, sub_add_cancel]
        rw [hx]
        push_cast
        rintro (h | h)
        · linarith
        · omega
      rw [hnearest, abs_of_pos hpos] at hbound
      omega
    | inr h =>
      have hx : x = -n + 1 / 2 := by linarith [hsides.1, herror.2]
      have hfloor : ⌊x⌋ = -n := by
        rw [Int.floor_eq_iff, hx]
        push_cast
        constructor <;> linarith
      have hnearest : nearest x = -n := by
        rw [nearest, hfloor, if_pos]
        rw [hx]
        push_cast
        exact .inr ⟨by ring, by omega⟩
      rw [hnearest, abs_neg, abs_of_pos hpos] at hbound
      omega

theorem decimalPlace_pos (x : ℚ) : 0 < decimalPlace x := zpow_pos (by norm_num) _

theorem abs_decimalRounded (x : ℚ) :
    |decimalRounded x| = |nearest (x / decimalPlace x)| * decimalPlace x := by
  rw [decimalRounded, abs_mul, abs_of_pos (decimalPlace_pos x), Int.cast_abs]

theorem tens (e : Int) : (10 : ℚ) ^ e = 10 ^ 27 * 10 ^ (e - 27) := by
  rw [← zpow_natCast, ← zpow_add₀ (by norm_num)]
  congr 1
  push_cast
  ring

theorem tens_mono {a b : Int} (h : a ≤ b) : (10 : ℚ) ^ a ≤ 10 ^ b := zpow_le_zpow_right₀ (by norm_num) h

theorem exceeds_iff (x : ℚ) :
    maxExponent < Int.log 10 |decimalRounded x| ↔ 10 ^ (maxExponent + 1) ≤ |decimalRounded x| := by
  cases (abs_nonneg (decimalRounded x)).eq_or_lt with
  | inl hzero =>
    rw [← hzero, Int.log_zero_right]
    exact ⟨fun h => absurd h (by decide), fun h => absurd h (not_le.mpr (zpow_pos (by norm_num) _))⟩
  | inr hpos => exact (Int.zpow_le_iff_le_log (by norm_num) hpos).symm

/-- The numbers of the largest exponent. -/
theorem exceeds_iff_of_eq (h : Int.log 10 |x| = maxExponent) :
    10 ^ (maxExponent + 1) ≤ |decimalRounded x| ↔ decimalLimit ≤ |x| := by
  have hplace : decimalPlace x = 10 ^ (maxExponent - 27) := by
    rw [decimalPlace, h, max_eq_left (by decide)]
  have hpos := decimalPlace_pos x
  have hpower : (10 : ℚ) ^ (maxExponent + 1) = ((10 ^ 28 : Int) : ℚ) * decimalPlace x := by
    rw [tens, hplace, add_sub_right_comm, zpow_add_one₀ (by norm_num)]
    push_cast
    ring
  have habs : |x / decimalPlace x| = |x| / decimalPlace x := by
    rw [abs_div, abs_of_pos hpos]
  rw [abs_decimalRounded, hpower, mul_le_mul_iff_left₀ hpos, Int.cast_le,
    le_abs_nearest_iff (by norm_num) (by norm_num), habs, le_div_iff₀ hpos, decimalLimit, hplace]
  push_cast
  rfl

theorem not_exceeds_of_lt (h : Int.log 10 |x| < maxExponent) :
    ¬ 10 ^ (maxExponent + 1) ≤ |decimalRounded x| ∧ ¬ decimalLimit ≤ |x| := by
  have hx : |x| < 10 ^ maxExponent :=
    (Int.lt_zpow_succ_log_self (by norm_num) |x|).trans_le (tens_mono h)
  have hpos := decimalPlace_pos x
  have hplace : decimalPlace x ≤ 10 ^ maxExponent :=
    tens_mono (max_le (by omega) (by decide))
  have hstep : |decimalRounded x - x| ≤ 1 / 2 * decimalPlace x := by
    have hsplit : decimalRounded x - x = (nearest (x / decimalPlace x) - x / decimalPlace x) * decimalPlace x := by
      rw [decimalRounded, sub_mul, div_mul_cancel₀ _ hpos.ne']
    rw [hsplit, abs_mul, abs_of_pos hpos]
    exact mul_le_mul_of_nonneg_right (nearest_error _) hpos.le
  have hdiff := abs_sub_abs_le_abs_sub (decimalRounded x) x
  have hten : (10 : ℚ) ^ (maxExponent + 1) = 10 ^ maxExponent * 10 := zpow_add_one₀ (by norm_num) _
  have hlimit : (10 : ℚ) ^ maxExponent ≤ decimalLimit := by
    rw [tens, decimalLimit]
    exact mul_le_mul_of_nonneg_right (by norm_num) (zpow_pos (by norm_num) _).le
  constructor <;> rw [not_le] <;> linarith

theorem exceeds_of_lt (h : maxExponent < Int.log 10 |x|) :
    10 ^ (maxExponent + 1) ≤ |decimalRounded x| ∧ decimalLimit ≤ |x| := by
  have hx : 0 < |x| := by
    refine (abs_nonneg x).lt_of_ne' fun hzero => ?_
    rw [hzero, Int.log_zero_right] at h
    exact absurd h (by decide)
  have hle : (10 : ℚ) ^ Int.log 10 |x| ≤ |x| := Int.zpow_log_le_self (by norm_num) hx
  have hnext : (10 : ℚ) ^ (maxExponent + 1) ≤ 10 ^ Int.log 10 |x| := tens_mono h
  have hplace : decimalPlace x = 10 ^ (Int.log 10 |x| - 27) := by
    have hmin : minPlace ≤ maxExponent - 27 := by decide
    rw [decimalPlace, max_eq_left (by omega)]
  have hpos := decimalPlace_pos x
  constructor
  · have hdigits : ((10 ^ 27 : Int) : ℚ) - 1 / 2 ≤ |x / decimalPlace x| := by
      rw [abs_div, abs_of_pos hpos, le_div_iff₀ hpos]
      rw [tens, ← hplace] at hle
      push_cast
      linarith
    have hnearest := (le_abs_nearest_iff (by norm_num) (by norm_num)).mpr hdigits
    have hcast : (10 : ℚ) ^ 27 ≤ ((|nearest (x / decimalPlace x)| : Int) : ℚ) := by exact_mod_cast hnearest
    calc (10 : ℚ) ^ (maxExponent + 1) ≤ 10 ^ 27 * decimalPlace x := by rw [hplace, ← tens]; exact hnext
      _ ≤ |decimalRounded x| := by rw [abs_decimalRounded]; exact mul_le_mul_of_nonneg_right hcast hpos.le
  · have hlimit : decimalLimit ≤ 10 ^ (maxExponent + 1) := by
      have hpower : 0 < (10 : ℚ) ^ (maxExponent - 27) := zpow_pos (by norm_num) _
      rw [tens, decimalLimit, add_sub_right_comm, zpow_add_one₀ (by norm_num)]
      linarith
    exact hlimit.trans (hnext.trans hle)

/-- The arithmetic overflows just on the numbers from the limit on. -/
theorem decimalResult_eq (x : ℚ) :
    decimalResult x = if |x| < decimalLimit then some (decimalRounded x) else none := by
  have hiff : 10 ^ (maxExponent + 1) ≤ |decimalRounded x| ↔ decimalLimit ≤ |x| := by
    rcases lt_trichotomy (Int.log 10 |x|) maxExponent with h | h | h
    · exact iff_of_false (not_exceeds_of_lt h).1 (not_exceeds_of_lt h).2
    · exact exceeds_iff_of_eq h
    · exact iff_of_true (exceeds_of_lt h).1 (exceeds_of_lt h).2
  rw [decimalResult]
  by_cases h : |x| < decimalLimit
  · rw [if_pos h, if_neg fun hlog => not_le.mpr h (hiff.mp ((exceeds_iff x).mp hlog))]
  · rw [if_neg h, if_pos ((exceeds_iff x).mpr (hiff.mpr (not_lt.mp h)))]

end Overflow
end DataCopilot.Py
