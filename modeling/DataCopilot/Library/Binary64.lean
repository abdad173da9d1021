import Mathlib.Algebra.BigOperators.Group.List.Basic
import Mathlib.Algebra.Order.Floor.Ring
import Mathlib.Data.Int.Log
import Mathlib.Tactic.Linarith
import Mathlib.Tactic.NormNum
import Mathlib.Tactic.Positivity
import Mathlib.Tactic.Ring
import DataCopilot.Library.PyValue

/-! Floating-point arithmetic in 53 bits: each operation gives the float nearest to the exact result, and
`sum` carries a compensation for what its additions lose. -/
namespace DataCopilot.Py

/-- The integer nearest to a number, of two the even one. -/
def nearest (x : ℚ) : Int :=
  if x - ⌊x⌋ < 1 / 2 ∨ x - ⌊x⌋ = 1 / 2 ∧ ⌊x⌋ % 2 = 0 then ⌊x⌋ else ⌊x⌋ + 1

/-- The step from one float to the next at this size. -/
def ulp (q : ℚ) : ℚ := 2 ^ (max (Int.log 2 |q|) (-1022) - 52)

/-- The float nearest to a number. -/
def rounded (q : ℚ) : PyFloat :=
  if 2 ^ 1024 ≤ |nearest (q / ulp q) * ulp q| then .inf (decide (q < 0))
  else .finite (nearest (q / ulp q) * ulp q)

namespace PyFloat

def neg : PyFloat → PyFloat
  | finite q => finite (-q)
  | inf negative => inf (!negative)
  | nan => nan

def add : PyFloat → PyFloat → PyFloat
  | finite a, finite b => rounded (a + b)
  | nan, _ => nan
  | _, nan => nan
  | inf s, inf t => if s = t then inf s else nan
  | inf s, finite _ => inf s
  | finite _, inf t => inf t

def sub (x y : PyFloat) : PyFloat := x.add y.neg

/-- `fabs(x) >= fabs(y)`. -/
def absGe : PyFloat → PyFloat → Bool
  | finite a, finite b => |b| ≤ |a|
  | nan, _ => false
  | _, nan => false
  | inf _, _ => true
  | finite _, inf _ => false

/-- `x < y`. -/
def less : PyFloat → PyFloat → Bool
  | finite a, finite b => a < b
  | nan, _ => false
  | _, nan => false
  | inf s, inf t => s && !t
  | inf s, finite _ => s
  | finite _, inf t => !t

/-- `sum` behind its first value: the sum so far, and what it has lost. -/
def sumFrom (total lost : PyFloat) : List PyFloat → PyFloat
  | [] =>
    match lost with
    | finite c => if c = 0 then total else total.add (finite c)
    | _ => total
  | x :: rest =>
    let t := total.add x
    let e := if total.absGe x then (total.sub t).add x else (x.sub t).add total
    sumFrom t (lost.add e) rest

def sum : List PyFloat → PyFloat
  | [] => finite 0
  | x :: rest => sumFrom x (finite 0) rest

/-- The integer nearest to the root of a number. -/
def root (x : ℚ) : Nat :=
  let f := Nat.sqrt ⌊x⌋₊
  if (f * f + f : ℚ) + 1 / 4 < x then f + 1 else f

/-- The place of the last of the 53 bits of a root. -/
def rootExponent (s : ℚ) : Int := Int.log 2 s / 2 - 52

/-- `math.sqrt`. -/
def sqrt : PyFloat → Except PyError PyFloat
  | finite s =>
    if s < 0 then .error .valueError
    else if s = 0 then .ok (finite 0)
    else .ok (finite (root (s / 4 ^ rootExponent s) * 2 ^ rootExponent s))
  | inf negative => if negative then .error .valueError else .ok (inf false)
  | nan => .ok nan

/-- `v / norm`, where the norm is not zero. -/
def divide (v : ℚ) : PyFloat → PyFloat
  | finite n => rounded (v / n)
  | inf _ => finite 0
  | nan => nan

end PyFloat

/-! What the operations lose. -/

section Rounding
variable {q : ℚ}

theorem nearest_error (x : ℚ) : |(nearest x : ℚ) - x| ≤ 1 / 2 := by
  have hle : (⌊x⌋ : ℚ) ≤ x := Int.floor_le x
  have hlt : x < ⌊x⌋ + 1 := Int.lt_floor_add_one x
  rw [nearest, abs_le]
  split
  · rename_i h
    have hhalf : x - ⌊x⌋ ≤ 1 / 2 := by
      cases h with
      | inl h => exact h.le
      | inr h => exact h.1.le
    constructor <;> linarith
  · rename_i h
    have hhalf : 1 / 2 ≤ x - ⌊x⌋ := not_lt.mp fun hl => h (.inl hl)
    push_cast
    constructor <;> linarith

theorem ulp_pos (q : ℚ) : 0 < ulp q := zpow_pos two_pos _

/-- The relative error of a float, and the absolute one of the smallest. -/
def eps : ℚ := 1 / 2 ^ 53

def tiny : ℚ := 1 / 2 ^ 1075

theorem eps_pos : 0 < eps := by
  rw [eps]
  positivity

theorem tiny_pos : 0 < tiny := by
  rw [tiny]
  positivity

theorem half_ulp_le (h : q ≠ 0) : ulp q / 2 ≤ eps * |q| + tiny := by
  have heps : (2 : ℚ) ^ (-53 : Int) = eps := by
    rw [zpow_neg, eps, one_div]
    rfl
  have htiny : (2 : ℚ) ^ (-1022 - 53 : Int) = tiny := by
    rw [show (-1022 - 53 : Int) = -1075 by rfl, zpow_neg, tiny, one_div]
    rfl
  have hhalf : ulp q / 2 = 2 ^ (max (Int.log 2 |q|) (-1022) - 53) := by
    have hexp : max (Int.log 2 |q|) (-1022) - 53 = max (Int.log 2 |q|) (-1022) - 52 - 1 := by ring
    rw [hexp, zpow_sub_one₀ two_ne_zero, ulp, div_eq_mul_inv]
  rw [hhalf]
  have hq : 0 < |q| := abs_pos.mpr h
  cases le_total (Int.log 2 |q|) (-1022) with
  | inl hlow =>
    rw [max_eq_right hlow, htiny]
    exact le_add_of_nonneg_left (mul_nonneg eps_pos.le hq.le)
  | inr hhigh =>
    have hlog : (2 : ℚ) ^ Int.log 2 |q| ≤ |q| := by
      exact_mod_cast Int.zpow_log_le_self one_lt_two hq
    rw [max_eq_left hhigh, sub_eq_add_neg, zpow_add₀ two_ne_zero, heps, mul_comm]
    have hmul := mul_le_mul_of_nonneg_left hlog eps_pos.le
    linarith [tiny_pos]

@[simp] theorem rounded_zero : rounded 0 = .finite 0 := by
  have hn : nearest 0 = 0 := by simp [nearest]
  simp [rounded, hn]

theorem rounded_near (h : |q| ≤ 2 ^ 1023) :
    ∃ r, rounded q = .finite r ∧ |r - q| ≤ eps * |q| + tiny := by
  by_cases h0 : q = 0
  · refine ⟨0, by rw [h0, rounded_zero], ?_⟩
    rw [h0, sub_zero, abs_zero, mul_zero, zero_add]
    exact tiny_pos.le
  · have hne : ulp q ≠ 0 := (ulp_pos q).ne'
    have hnear : |nearest (q / ulp q) * ulp q - q| ≤ eps * |q| + tiny := by
      have herr := mul_le_mul_of_nonneg_right (nearest_error (q / ulp q)) (ulp_pos q).le
      rw [← abs_of_pos (ulp_pos q), ← abs_mul, abs_of_pos (ulp_pos q), sub_mul,
        div_mul_cancel₀ q hne] at herr
      linarith [half_ulp_le h0]
    refine ⟨nearest (q / ulp q) * ulp q, if_neg ?_, hnear⟩
    rw [not_le]
    have habs := abs_sub_abs_le_abs_sub (nearest (q / ulp q) * ulp q) q
    have heps : eps * |q| ≤ 1 / 2 * |q| := by
      apply mul_le_mul_of_nonneg_right _ (abs_nonneg q)
      rw [eps]
      norm_num
    have htiny : tiny ≤ 1 := by
      rw [tiny]
      exact (div_le_one (by positivity)).mpr (one_le_pow₀ one_le_two)
    have hfour : (2 : ℚ) ^ 2 ≤ 2 ^ 1023 := pow_le_pow_right₀ one_le_two (by omega)
    rw [pow_succ]
    generalize (2 : ℚ) ^ 1023 = M at *
    linarith

/-- Far below the largest float. -/
def large : ℚ := 2 ^ 1000

/-- A size at which sums are far from both ends of the floats. -/
structure Sized (T : ℚ) : Prop where
  low : 2 ^ 100 * tiny ≤ T
  high : T ≤ large

theorem Sized.pos {T : ℚ} (h : Sized T) : 0 < T :=
  (mul_pos (by positivity) tiny_pos).trans_le h.low

theorem rounded_within {T : ℚ} (hT : Sized T) (h : |q| ≤ 2 * T) :
    ∃ r, rounded q = .finite r ∧ |r - q| ≤ T / 2 ^ 51 := by
  have hlarge : |q| ≤ 2 ^ 1023 := by
    have hpow : (2 : ℚ) ^ 1001 ≤ 2 ^ 1023 := pow_le_pow_right₀ one_le_two (by omega)
    have hhigh := hT.high
    rw [pow_succ, ← large] at hpow
    generalize (2 : ℚ) ^ 1023 = N at *
    linarith
  obtain ⟨r, hr, herr⟩ := rounded_near hlarge
  refine ⟨r, hr, herr.trans ?_⟩
  have heps : eps * |q| ≤ eps * (2 * T) := mul_le_mul_of_nonneg_left h eps_pos.le
  have hlow := hT.low
  have hpos := hT.pos
  have htwo : eps * (2 * T) = T / 2 ^ 52 := by
    rw [eps]
    ring
  rw [htwo] at heps
  linarith

end Rounding

namespace PyFloat

/-- One step of the sum: `total` and `lost` go wrong by little of the sum of the values so far. -/
theorem sum_step {S x f c A B : ℚ} (hS : 0 ≤ S) (hx : 0 ≤ x) (hT : Sized (S + x)) (hf : |f - S| ≤ A)
    (hA : A ≤ (S + x) / 4) (hc : |c| ≤ B) (hB : B ≤ S + x) :
    ∃ t c', (finite f).add (finite x) = finite t ∧ |t - (S + x)| ≤ A + (S + x) / 2 ^ 51 ∧
      (finite c).add (if (finite f).absGe (finite x) then ((finite f).sub (finite t)).add (finite x)
        else ((finite x).sub (finite t)).add (finite f)) = finite c' ∧
      |c'| ≤ B + (S + x) / 2 ^ 48 := by
  have hpos := hT.pos
  generalize hTdef : S + x = T at *
  rw [abs_le] at hf hc
  have hsum : |f + x| ≤ 2 * T := abs_le.mpr ⟨by linarith, by linarith⟩
  obtain ⟨t, ht, hterr⟩ := rounded_within hT hsum
  rw [abs_le] at hterr
  have hlost : ∃ e, (if (finite f).absGe (finite x) then ((finite f).sub (finite t)).add (finite x)
      else ((finite x).sub (finite t)).add (finite f)) = finite e ∧ |e| ≤ T / 2 ^ 49 := by
    -- both ways compute the small difference `f + x - t` in two steps
    have htwo : ∀ a b : ℚ, a + b = f + x → |a - t| ≤ 2 * T →
        ∃ e, ((finite a).sub (finite t)).add (finite b) = finite e ∧ |e| ≤ T / 2 ^ 49 := by
      intro a b hab ha
      obtain ⟨g, hg, hgerr⟩ := rounded_within hT ha
      rw [abs_le] at hgerr
      have hsmall : |g + b| ≤ 2 * T := abs_le.mpr ⟨by linarith, by linarith⟩
      obtain ⟨e, he, heerr⟩ := rounded_within hT hsmall
      rw [abs_le] at heerr
      refine ⟨e, ?_, abs_le.mpr ⟨by linarith, by linarith⟩⟩
      rw [sub, neg, add, ← sub_eq_add_neg, hg, add, he]
    split
    · exact htwo f x rfl (abs_le.mpr ⟨by linarith, by linarith⟩)
    · exact htwo x f (add_comm x f) (abs_le.mpr ⟨by linarith, by linarith⟩)
  obtain ⟨e, he, hesmall⟩ := hlost
  rw [abs_le] at hesmall
  obtain ⟨c', hc', hcerr⟩ := rounded_within (q := c + e) hT (abs_le.mpr ⟨by linarith, by linarith⟩)
  rw [abs_le] at hcerr
  refine ⟨t, c', ht, abs_le.mpr ⟨by linarith, by linarith⟩, ?_, abs_le.mpr ⟨by linarith, by linarith⟩⟩
  rw [he]
  exact hc'

/-- Values that are zero or of some size. -/
def Usual (xs : List ℚ) : Prop := ∀ x ∈ xs, x = 0 ∨ 2 ^ 100 * tiny ≤ x

theorem Usual.nonneg {xs : List ℚ} (h : Usual xs) : ∀ x ∈ xs, 0 ≤ x := by
  intro x hx
  cases h x hx with
  | inl h0 => exact h0.ge
  | inr h => exact (mul_pos (by positivity) tiny_pos).le.trans h

/-- The sum goes wrong by a small part of it for each value. -/
theorem sumFrom_near {xs : List ℚ} (hxs : Usual xs) : ∀ {S f c m : ℚ}, S = 0 ∨ 2 ^ 100 * tiny ≤ S → 0 ≤ m →
    |f - S| ≤ m * (S / 2 ^ 51) → |c| ≤ m * (S / 2 ^ 48) → m + xs.length ≤ 2 ^ 20 → S + xs.sum ≤ large →
    ∃ s, sumFrom (finite f) (finite c) (xs.map finite) = finite s ∧
      |s - (S + xs.sum)| ≤ (m + xs.length + 1) * ((S + xs.sum) / 2 ^ 47) := by
  induction xs with
  | nil =>
    intro S f c m hS hm hf hc hlen hhigh
    simp only [List.map_nil, List.sum_nil, List.length_nil, Nat.cast_zero, add_zero] at hlen hhigh ⊢
    by_cases hS0 : S = 0
    · rw [hS0] at hf hc ⊢
      simp only [zero_div, mul_zero, sub_zero, abs_nonpos_iff] at hf hc ⊢
      exact ⟨f, by rw [sumFrom, if_pos hc], hf⟩
    · have hsized : Sized S := ⟨hS.resolve_left hS0, hhigh⟩
      have hpos := hsized.pos
      have hmS : m * S ≤ 2 ^ 20 * S := mul_le_mul_of_nonneg_right hlen hpos.le
      have hmS0 : 0 ≤ m * S := mul_nonneg hm hpos.le
      rw [abs_le] at hf hc
      by_cases hc0 : c = 0
      · exact ⟨f, by rw [sumFrom, if_pos hc0], abs_le.mpr ⟨by linarith, by linarith⟩⟩
      · obtain ⟨s, hs, herr⟩ := rounded_within (q := f + c) hsized (abs_le.mpr ⟨by linarith, by linarith⟩)
        rw [abs_le] at herr
        refine ⟨s, ?_, abs_le.mpr ⟨by linarith, by linarith⟩⟩
        rw [sumFrom, if_neg hc0]
        exact hs
  | cons x rest ih =>
    intro S f c m hS hm hf hc hlen hhigh
    have hrest : Usual rest := fun y hy => hxs y (List.mem_cons_of_mem x hy)
    have hx : 0 ≤ x := hxs.nonneg x List.mem_cons_self
    have hS' : 0 ≤ S := by
      cases hS with
      | inl h0 => exact h0.ge
      | inr h => exact (mul_pos (by positivity) tiny_pos).le.trans h
    have hsum : 0 ≤ rest.sum := List.sum_nonneg hrest.nonneg
    rw [List.length_cons, Nat.cast_succ] at hlen ⊢
    rw [List.sum_cons, ← add_assoc] at hhigh ⊢
    have hsucc : m + (rest.length + 1) = m + 1 + rest.length := by ring
    by_cases hT0 : S + x = 0
    · -- nothing but zeros so far
      obtain ⟨rfl, rfl⟩ : S = 0 ∧ x = 0 := ⟨by linarith, by linarith⟩
      simp only [zero_div, mul_zero, sub_zero, abs_nonpos_iff] at hf hc
      have hstep : sumFrom (finite f) (finite c) ((0 :: rest).map finite) =
          sumFrom (finite 0) (finite 0) (rest.map finite) := by
        simp [sumFrom, add, sub, neg, absGe, hf, hc]
      rw [hstep, zero_add] at *
      obtain ⟨s, hs, herr⟩ := ih hrest (S := 0) (f := 0) (c := 0) (m := m) (.inl rfl) hm (by simp) (by simp)
        (by linarith) (by linarith)
      refine ⟨s, hs, herr.trans ?_⟩
      rw [zero_add]
      apply mul_le_mul_of_nonneg_right (by linarith)
      positivity
    · have hsized : Sized (S + x) := by
        refine ⟨?_, by linarith⟩
        cases hS with
        | inl h0 =>
          cases hxs x List.mem_cons_self with
          | inl hx0 => exact absurd (by rw [h0, hx0, add_zero]) hT0
          | inr h => linarith
        | inr h => linarith
      have hpos := hsized.pos
      have hmT : m * (S + x) ≤ 2 ^ 20 * (S + x) :=
        mul_le_mul_of_nonneg_right (by have := Nat.cast_nonneg (α := ℚ) rest.length; linarith) hpos.le
      have hmS : m * S ≤ m * (S + x) := mul_le_mul_of_nonneg_left (by linarith) hm
      obtain ⟨t, c', ht, hterr, hc', hcerr⟩ := sum_step (f := f) (c := c) (A := m * ((S + x) / 2 ^ 51))
        (B := m * ((S + x) / 2 ^ 48)) hS' hx hsized (by linarith) (by linarith) (by linarith) (by linarith)
      obtain ⟨s, hs, herr⟩ := ih hrest (m := m + 1) (.inr hsized.low) (by linarith)
        (show |t - (S + x)| ≤ _ by linarith) (show |c'| ≤ _ by linarith) (by linarith) hhigh
      refine ⟨s, ?_, ?_⟩
      · rw [List.map_cons, sumFrom]
        simp only [ht, hc']
        exact hs
      · rw [hsucc]
        exact herr

theorem root_near {x : ℚ} (h : 2 ^ 104 ≤ x) :
    0 < root x ∧ |(root x : ℚ) * root x - x| ≤ (root x : ℚ) * root x / 2 ^ 51 := by
  have hfloor : (2 : ℕ) ^ 104 ≤ ⌊x⌋₊ := Nat.le_floor (by exact_mod_cast h)
  have hsqrt : 2 ^ 52 ≤ Nat.sqrt ⌊x⌋₊ := Nat.le_sqrt.mpr (le_trans (by norm_num) hfloor)
  have hle : (Nat.sqrt ⌊x⌋₊ * Nat.sqrt ⌊x⌋₊ : ℚ) ≤ x :=
    le_trans (by exact_mod_cast Nat.sqrt_le ⌊x⌋₊) (Nat.floor_le (by linarith))
  have hlt : x < (Nat.sqrt ⌊x⌋₊ + 1) * (Nat.sqrt ⌊x⌋₊ + 1) := by
    have hnat : ⌊x⌋₊ + 1 ≤ (Nat.sqrt ⌊x⌋₊ + 1) * (Nat.sqrt ⌊x⌋₊ + 1) := Nat.lt_succ_sqrt ⌊x⌋₊
    exact (Nat.lt_floor_add_one x).trans_le (by exact_mod_cast hnat)
  have hcast : (2 : ℚ) ^ 52 ≤ Nat.sqrt ⌊x⌋₊ := by exact_mod_cast hsqrt
  rw [root]
  generalize Nat.sqrt ⌊x⌋₊ = f at *
  have hsquare : 2 ^ 52 * (f : ℚ) ≤ f * f := mul_le_mul_of_nonneg_right hcast (Nat.cast_nonneg f)
  split
  · rename_i hhalf
    push_cast
    exact ⟨Nat.succ_pos f, abs_le.mpr ⟨by linarith, by linarith⟩⟩
  · rename_i hhalf
    exact ⟨Nat.pos_of_ne_zero (by omega), abs_le.mpr ⟨by linarith, by linarith⟩⟩

theorem sqrt_near {s : ℚ} (h : 0 < s) :
    ∃ n, sqrt (finite s) = .ok (finite n) ∧ 0 < n ∧ |n * n - s| ≤ n * n / 2 ^ 51 := by
  have hscale : (0 : ℚ) < 4 ^ rootExponent s := zpow_pos (by norm_num) _
  have hpow : (0 : ℚ) < 2 ^ rootExponent s := zpow_pos two_pos _
  have hfour : (4 : ℚ) ^ rootExponent s = 2 ^ rootExponent s * 2 ^ rootExponent s := by
    rw [← mul_zpow]
    norm_num
  have hlarge : (2 : ℚ) ^ 104 ≤ s / 4 ^ rootExponent s := by
    have hlog : (2 : ℚ) ^ Int.log 2 s ≤ s := by exact_mod_cast Int.zpow_log_le_self one_lt_two h
    rw [le_div_iff₀ hscale, hfour, ← zpow_add₀ two_ne_zero, ← zpow_natCast, ← zpow_add₀ two_ne_zero]
    refine le_trans (zpow_le_zpow_right₀ one_le_two ?_) hlog
    rw [rootExponent]
    push_cast
    omega
  obtain ⟨hpos, hnear⟩ := root_near hlarge
  refine ⟨root (s / 4 ^ rootExponent s) * 2 ^ rootExponent s, ?_, ?_, ?_⟩
  · rw [sqrt, if_neg (not_lt.mpr h.le), if_neg h.ne']
  · exact mul_pos (by exact_mod_cast hpos) hpow
  · generalize root (s / 4 ^ rootExponent s) = k at *
    have hs : s = s / 4 ^ rootExponent s * 4 ^ rootExponent s := (div_mul_cancel₀ s hscale.ne').symm
    have hmul := mul_le_mul_of_nonneg_right hnear hscale.le
    rw [← abs_of_pos hscale, ← abs_mul, abs_of_pos hscale, sub_mul, ← hs, hfour] at hmul
    have hk : (k : ℚ) * 2 ^ rootExponent s * (k * 2 ^ rootExponent s) =
        k * k * (2 ^ rootExponent s * 2 ^ rootExponent s) := by ring
    rw [hk]
    linarith

/-- `math.sqrt(sum(v * v for v in vector))`. -/
def norm (vector : List ℚ) : Except PyError PyFloat := sqrt (sum (vector.map fun v => rounded (v * v)))

/-- The norm is right but for a millionth. -/
def Measures (n : ℚ) (vector : List ℚ) : Prop :=
  |n * n - (vector.map fun v => v * v).sum| ≤ (vector.map fun v => v * v).sum / 2 ^ 20

instance (n : ℚ) (vector : List ℚ) : Decidable (Measures n vector) := inferInstanceAs (Decidable (_ ≤ _))

/-- Floats whose squares neither overflow nor underflow. -/
structure Moderate (vector : List ℚ) : Prop where
  short : vector.length ≤ 2 ^ 20
  component : ∀ v ∈ vector, v = 0 ∨ 1 / 2 ^ 400 ≤ |v| ∧ |v| ≤ 2 ^ 400
  nonzero : ∃ v ∈ vector, v ≠ 0

theorem square_near {v : ℚ} (h : v = 0 ∨ 1 / 2 ^ 400 ≤ |v| ∧ |v| ≤ 2 ^ 400) :
    v * v ≤ 2 ^ 800 ∧ ∃ x, rounded (v * v) = finite x ∧ |x - v * v| ≤ v * v / 2 ^ 50 ∧
      (x = 0 ∨ 2 ^ 100 * tiny ≤ x) := by
  cases h with
  | inl h0 =>
    rw [h0, zero_mul]
    exact ⟨by positivity, 0, rounded_zero, by norm_num, .inl rfl⟩
  | inr h =>
    have hlow : 1 / 2 ^ 800 ≤ v * v := by
      have hm := mul_le_mul h.1 h.1 (by positivity) (abs_nonneg v)
      rw [abs_mul_abs_self] at hm
      refine le_trans (le_of_eq ?_) hm
      rw [div_mul_div_comm, one_mul, ← pow_add]
    have hhigh : v * v ≤ 2 ^ 800 := by
      have hm := mul_le_mul h.2 h.2 (abs_nonneg v) (by positivity)
      rwa [abs_mul_abs_self, ← pow_add] at hm
    have htiny : 2 * (2 ^ 100 * tiny) ≤ 1 / 2 ^ 800 := by
      rw [tiny, mul_one_div, mul_div_assoc', ← pow_succ', div_le_div_iff₀ (by positivity) (by positivity),
        one_mul, ← pow_add]
      exact pow_le_pow_right₀ one_le_two (by omega)
    have hsized : Sized (v * v) := by
      refine ⟨?_, hhigh.trans (pow_le_pow_right₀ one_le_two (by omega))⟩
      have hpos := mul_pos (show (0 : ℚ) < 2 ^ 100 by positivity) tiny_pos
      generalize (1 : ℚ) / 2 ^ 800 = low at *
      linarith
    obtain ⟨x, hx, herr⟩ := rounded_within (q := v * v) hsized (by rw [abs_mul_self]; linarith [hsized.pos])
    have hpos := hsized.pos
    refine ⟨hhigh, x, hx, herr.trans (by linarith), .inr ?_⟩
    rw [abs_le] at herr
    generalize (1 : ℚ) / 2 ^ 800 = low at *
    linarith

theorem squares_near {vector : List ℚ}
    (h : ∀ v ∈ vector, v = 0 ∨ 1 / 2 ^ 400 ≤ |v| ∧ |v| ≤ 2 ^ 400) :
    (vector.map fun v => v * v).sum ≤ vector.length * 2 ^ 800 ∧
      ∃ xs : List ℚ, (vector.map fun v => rounded (v * v)) = xs.map finite ∧ Usual xs ∧
        xs.length = vector.length ∧
        |xs.sum - (vector.map fun v => v * v).sum| ≤ (vector.map fun v => v * v).sum / 2 ^ 50 := by
  induction vector with
  | nil => exact ⟨by simp, [], rfl, fun x hx => (nomatch hx), rfl, by simp⟩
  | cons v rest ih =>
    obtain ⟨hv, x, hx, herr, hsize⟩ := square_near (h v List.mem_cons_self)
    obtain ⟨hsum, xs, hxs, husual, hlen, hnear⟩ := ih fun w hw => h w (List.mem_cons_of_mem v hw)
    simp only [List.map_cons, List.sum_cons, List.length_cons, Nat.cast_succ]
    refine ⟨?_, x :: xs, ?_, ?_, ?_, ?_⟩
    · generalize (2 : ℚ) ^ 800 = M at *
      linarith
    · rw [hx, hxs, List.map_cons]
    · intro y hy
      cases List.mem_cons.mp hy with
      | inl he => exact he ▸ hsize
      | inr hy => exact husual y hy
    · rw [List.length_cons, hlen]
    · rw [List.sum_cons]
      rw [abs_le] at herr hnear ⊢
      constructor <;> linarith

/-- The norm of a moderate vector is a number, and right. -/
theorem norm_measures {vector : List ℚ} (h : Moderate vector) :
    ∃ n, norm vector = .ok (finite n) ∧ 0 < n ∧ Measures n vector := by
  obtain ⟨hhigh, xs, hxs, husual, hlen, hnear⟩ := squares_near h.component
  have hQ : 0 < (vector.map fun v => v * v).sum := by
    obtain ⟨v, hv, hne⟩ := h.nonzero
    refine (mul_self_pos.mpr hne).trans_le (List.single_le_sum ?_ _ (List.mem_map_of_mem hv))
    intro y hy
    obtain ⟨w, -, rfl⟩ := List.mem_map.mp hy
    exact mul_self_nonneg w
  have hshort : (vector.length : ℚ) ≤ 2 ^ 20 := by exact_mod_cast h.short
  simp only [Measures, norm, hxs]
  generalize (vector.map fun v => v * v).sum = Q at *
  cases xs with
  | nil =>
    rw [abs_le, List.sum_nil] at hnear
    linarith
  | cons x rest =>
    have hlarge : x + rest.sum ≤ large := by
      have hpow : (2 : ℚ) * (2 ^ 20 * 2 ^ 800) ≤ large := by
        rw [large, ← pow_add, ← pow_succ']
        exact pow_le_pow_right₀ one_le_two (by omega)
      have hmul := mul_le_mul_of_nonneg_right hshort (show (0 : ℚ) ≤ 2 ^ 800 by positivity)
      rw [abs_le, List.sum_cons] at hnear
      generalize (2 : ℚ) ^ 800 = M at *
      linarith
    rw [List.length_cons] at hlen
    have hrest : (0 : ℚ) + rest.length ≤ 2 ^ 20 := by
      rw [← hlen] at hshort
      push_cast at hshort
      linarith
    have hlater : Usual rest := fun y hy => husual y (List.mem_cons_of_mem x hy)
    obtain ⟨s, hs, herr⟩ := sumFrom_near hlater (S := x) (f := x) (c := 0) (m := 0)
      (husual x List.mem_cons_self) le_rfl (by simp) (by simp) hrest hlarge
    simp only [List.map_cons, sum, hs]
    have hpart : (0 + rest.length + 1) * ((x + rest.sum) / 2 ^ 47) ≤ (x + rest.sum) / 2 ^ 26 := by
      have hmul := mul_le_mul_of_nonneg_right hrest (List.sum_nonneg husual.nonneg)
      have hnonneg := List.sum_nonneg husual.nonneg
      rw [List.sum_cons] at hmul hnonneg
      linarith
    rw [abs_le] at herr hnear
    rw [List.sum_cons] at hnear
    obtain ⟨n, hn, hpos, hroot⟩ := sqrt_near (show 0 < s by linarith)
    refine ⟨n, hn, hpos, ?_⟩
    rw [abs_le] at hroot ⊢
    constructor <;> linarith

end PyFloat

example : PyFloat.norm [3, 4] = .ok (.finite 5) := by decide +kernel

end DataCopilot.Py
