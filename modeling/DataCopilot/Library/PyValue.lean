import Mathlib.Data.List.Infix
import DataCopilot.Library.Result
import Mathlib.Data.List.Perm.Subperm
import Mathlib.Data.List.Nodup
import Mathlib.Data.Rat.Floor

/-! Values of Python as a JSON text is read to them, and what may be asked of any of them. What cannot be
answered is an exception. -/
namespace DataCopilot.Py

inductive PyError where
  | keyError
  | typeError
  | valueError
  | overflowError
  | indexError
  | attributeError
  | recursionError
deriving DecidableEq, Repr

def PyError.className : PyError → String
  | keyError => "KeyError"
  | typeError => "TypeError"
  | valueError => "ValueError"
  | overflowError => "OverflowError"
  | indexError => "IndexError"
  | attributeError => "AttributeError"
  | recursionError => "RecursionError"

/-- A float is a rational number, but for the infinities and `nan`. The two zeros are one. -/
inductive PyFloat where
  | finite (q : ℚ)
  | inf (negative : Bool)
  | nan
deriving DecidableEq

def PyFloat.finite? : PyFloat → Option ℚ
  | finite q => some q
  | _ => none

inductive Value where
  | none
  | bool (b : Bool)
  | int (n : Int)
  | float (x : PyFloat)
  | str (s : String)
  | list (items : List Value)
  | dict (fields : List (String × Value))

/-- `float` and `int` of a text. There is none where they raise a `ValueError`. -/
structure Numerals where
  float : String → Option PyFloat
  int : String → Option Int

/-- The multiple of `u` nearest to `n`, of two the one with an even factor. -/
def roundTo (u n : Nat) : Nat :=
  if u < 2 * (n % u) ∨ 2 * (n % u) = u ∧ n / u % 2 = 1 then (n / u + 1) * u else n / u * u

/-- `n` with 53 significant bits. -/
def roundNat (n : Nat) : Nat := roundTo (2 ^ (Nat.log2 n + 1 - 53)) n

/-- Every float is below `2 ^ floatExponent`. -/
@[irreducible] def floatExponent : Nat := 1024

/-- No float is near: the largest float and half a step to the next one are below. -/
def TooLarge (n : Int) : Prop := 2 ^ floatExponent - 2 ^ (floatExponent - 54) ≤ n.natAbs

/-- The float of an integer, if there is one that is large enough. -/
@[irreducible] def floatOfInt (n : Int) : Option ℚ :=
  if roundNat n.natAbs < 2 ^ floatExponent then some (n.sign * roundNat n.natAbs) else none

namespace Value

/-- `value[key]`. -/
def getItem (key : String) : Value → Except PyError Value
  | dict fields =>
    match fields.lookup key with
    | some v => .ok v
    | Option.none => .error .keyError
  | _ => .error .typeError

/-- `len(value)`. -/
def len : Value → Except PyError Nat
  | str s => .ok s.length
  | list items => .ok items.length
  | dict fields => .ok fields.length
  | _ => .error .typeError

/-- `iter(value)`: the characters of a text, the keys of a dictionary. -/
def iter : Value → Except PyError (List Value)
  | str s => .ok (s.toList.map fun c => str (String.singleton c))
  | list items => .ok items
  | dict fields => .ok (fields.map fun field => str field.1)
  | _ => .error .typeError

/-- `hash(value)`, for its exception. -/
def hashed : Value → Except PyError Value
  | list _ => .error .typeError
  | dict _ => .error .typeError
  | v => .ok v

/-- What a value counts as in `==` and `<` against an integer. -/
def number : Value → Option ℚ
  | bool b => some (if b then 1 else 0)
  | int n => some n
  | float (.finite q) => some q
  | _ => Option.none

/-- `type(value) is int`. -/
def isInt : Value → Bool
  | int _ => true
  | _ => false

/-- `float(value)`. -/
def toFloat (N : Numerals) : Value → Except PyError PyFloat
  | bool b => .ok (.finite (if b then 1 else 0))
  | int n =>
    match floatOfInt n with
    | some q => .ok (.finite q)
    | Option.none => .error .overflowError
  | float x => .ok x
  | str s =>
    match N.float s with
    | some x => .ok x
    | Option.none => .error .valueError
  | _ => .error .typeError

/-- `int(value)`. A fraction is cut off. -/
def toInt (N : Numerals) : Value → Except PyError Int
  | bool b => .ok (if b then 1 else 0)
  | int n => .ok n
  | float (.finite q) => .ok (if 0 ≤ q then ⌊q⌋ else ⌈q⌉)
  | float (.inf _) => .error .overflowError
  | float .nan => .error .valueError
  | str s =>
    match N.int s with
    | some n => .ok n
    | Option.none => .error .valueError
  | _ => .error .typeError

/-- `text in value`. -/
def contains (text : String) : Value → Except PyError Bool
  | str s => .ok (decide (text.toList <:+: s.toList))
  | list items => .ok (items.any fun item => match item with | str s => s = text | _ => false)
  | dict fields => .ok (fields.any fun field => field.1 = text)
  | _ => .error .typeError

/-- `value.get(key, default)`. -/
def get : Value → String → Value → Except PyError Value
  | dict fields, key, default => .ok ((fields.lookup key).getD default)
  | _, _, _ => .error .attributeError

end Value

theorem Value.length_of_iter {v : Value} {items : List Value} {n : Nat} (hlen : v.len = .ok n)
    (hiter : v.iter = .ok items) : items.length = n := by
  cases v with
  | str s =>
    cases hlen
    cases hiter
    rw [List.length_map, String.length_toList]
  | list found =>
    cases hlen
    cases hiter
    rfl
  | dict fields =>
    cases hlen
    cases hiter
    rw [List.length_map]
  | _ => cases hlen

/-- `{…} == set(range(n))`. -/
def sameAsRange (values : List Value) (n : Nat) : Bool :=
  (values.all fun v => (List.range n).any fun (i : Nat) => v.number = some (i : ℚ)) &&
    (List.range n).all fun (i : Nat) => values.any fun v => v.number = some (i : ℚ)

/-- `except caught: raise replacement`. What is not caught goes on. -/
def tryExcept {ε α : Type} (caught : List PyError) (replacement : ε) (other : PyError → ε) :
    Except PyError α → Except ε α
  | .ok a => .ok a
  | .error e => if e ∈ caught then .error replacement else .error (other e)

variable {values : List Value} {n : Nat}

theorem roundTo_le (u n : Nat) : n / u * u ≤ roundTo u n ∧ roundTo u n ≤ n + u := by
  have hmul : n / u * u ≤ n := Nat.div_mul_le_self n u
  rw [roundTo, Nat.add_mul, Nat.one_mul]
  split
  · exact ⟨Nat.le_add_right _ _, Nat.add_le_add_right hmul u⟩
  · exact ⟨Nat.le_refl _, hmul.trans (Nat.le_add_right _ _)⟩

/-- At the top the numbers from half a step below the bound on are rounded to it. -/
theorem roundTo_lt_iff {p n m : Nat} (hp : 0 < p) (hm : m % 2 = 1) (hn : n < (m + 1) * (2 * p)) :
    roundTo (2 * p) n < (m + 1) * (2 * p) ↔ n < (m + 1) * (2 * p) - p := by
  have hdiv := Nat.div_add_mod n (2 * p)
  have hmod : n % (2 * p) < 2 * p := Nat.mod_lt _ (by omega)
  have hq : n / (2 * p) < m + 1 := (Nat.div_lt_iff_lt_mul (by omega)).mpr hn
  rw [Nat.mul_comm] at hdiv
  by_cases h : n / (2 * p) = m
  · rw [roundTo, h]
    rw [h] at hdiv
    rw [Nat.add_mul, Nat.one_mul]
    generalize m * (2 * p) = top at *
    generalize n % (2 * p) = r at *
    by_cases hr : 2 * p < 2 * r ∨ 2 * r = 2 * p ∧ m % 2 = 1
    · rw [if_pos hr]
      omega
    · rw [if_neg hr]
      omega
  · have hsucc : (n / (2 * p) + 1) * (2 * p) ≤ m * (2 * p) := Nat.mul_le_mul_right _ (by omega)
    have hround : roundTo (2 * p) n ≤ (n / (2 * p) + 1) * (2 * p) := by
      rw [roundTo]
      split
      · exact Nat.le_refl _
      · exact Nat.mul_le_mul_right _ (Nat.le_succ _)
    rw [Nat.add_mul, Nat.one_mul] at *
    omega

theorem roundNat_of_le {e : Nat} (he : 54 ≤ e) (h : 2 ^ e ≤ n) : 2 ^ e ≤ roundNat n := by
  have hn : n ≠ 0 := by
    intro h0
    rw [h0] at h
    exact absurd h (Nat.not_le_of_lt (Nat.two_pow_pos e))
  have hlog : e ≤ Nat.log2 n := (Nat.le_log2 hn).mpr h
  have hself : 2 ^ Nat.log2 n ≤ n := Nat.log2_self_le hn
  rw [roundNat]
  generalize Nat.log2 n = k at *
  have hk : 2 ^ k = 2 ^ 52 * 2 ^ (k + 1 - 53) := by
    rw [← pow_add]
    congr 1
    omega
  have hkept : 2 ^ 52 ≤ n / 2 ^ (k + 1 - 53) := by
    rw [Nat.le_div_iff_mul_le (Nat.two_pow_pos _), ← hk]
    exact hself
  calc 2 ^ e ≤ 2 ^ k := Nat.pow_le_pow_right Nat.two_pos hlog
    _ = 2 ^ 52 * 2 ^ (k + 1 - 53) := hk
    _ ≤ n / 2 ^ (k + 1 - 53) * 2 ^ (k + 1 - 53) := Nat.mul_le_mul_right _ hkept
    _ ≤ _ := (roundTo_le _ n).1

/-- What is rounded to a bound of the exponent: the numbers from half a step below it on. -/
theorem roundNat_lt_iff {e : Nat} (he : 54 ≤ e) : roundNat n < 2 ^ e ↔ n < 2 ^ e - 2 ^ (e - 54) := by
  by_cases hlarge : 2 ^ e ≤ n
  · have h := roundNat_of_le he hlarge
    have hsub := Nat.sub_le (2 ^ e) (2 ^ (e - 54))
    omega
  · have hlt : n < 2 ^ e := Nat.lt_of_not_le hlarge
    by_cases hk : Nat.log2 n = e - 1
    · have hstep : 2 ^ (Nat.log2 n + 1 - 53) = 2 * 2 ^ (e - 54) := by
        rw [hk, ← pow_succ']
        congr 1
        omega
      have htop : 2 ^ e = ((2 ^ 53 - 1) + 1) * (2 * 2 ^ (e - 54)) := by
        rw [← pow_succ', Nat.sub_add_cancel Nat.one_le_two_pow, ← pow_add]
        congr 1
        omega
      rw [htop] at hlt
      rw [roundNat, hstep, htop]
      exact roundTo_lt_iff (Nat.two_pow_pos _) (by decide) hlt
    · have hsmall : n < 2 ^ (e - 1) ∧ 2 ^ (Nat.log2 n + 1 - 53) ≤ 2 ^ (e - 54) := by
        by_cases hn : n = 0
        · rw [hn]
          exact ⟨Nat.two_pow_pos _, Nat.pow_le_pow_right Nat.two_pos (by simp)⟩
        · have hlog : Nat.log2 n < e := (Nat.log2_lt hn).mpr hlt
          refine ⟨(Nat.log2_lt hn).mp (by omega), Nat.pow_le_pow_right Nat.two_pos (by omega)⟩
      have hle := (roundTo_le (2 ^ (Nat.log2 n + 1 - 53)) n).2
      have htwo : 2 ^ e = 2 * 2 ^ (e - 1) := by
        rw [← pow_succ']
        congr 1
        omega
      have hhalf : 4 * 2 ^ (e - 54) ≤ 2 ^ (e - 1) := by
        have hfour : 4 * 2 ^ (e - 54) = 2 ^ (e - 54 + 2) := by
          rw [pow_add, Nat.mul_comm]
          rfl
        rw [hfour]
        exact Nat.pow_le_pow_right Nat.two_pos (by omega)
      have hpos := Nat.two_pow_pos (e - 54)
      rw [roundNat]
      omega

theorem floatOfInt_eq_none {i : Int} : floatOfInt i = none ↔ TooLarge i := by
  have he : 54 ≤ floatExponent := by
    rw [floatExponent]
    decide
  have hiff := @roundNat_lt_iff i.natAbs floatExponent he
  rw [floatOfInt, TooLarge, ← Nat.not_lt, ← hiff]
  by_cases h : roundNat i.natAbs < 2 ^ floatExponent
  · simp [h]
  · simp [h]

theorem floatOfInt_two_pow {k : Nat} : floatOfInt ((2 ^ k : Nat) : Int) = none ↔ floatExponent ≤ k := by
  have he : 54 ≤ floatExponent := by
    rw [floatExponent]
    decide
  rw [floatOfInt_eq_none, TooLarge, Int.natAbs_natCast]
  generalize floatExponent = e at *
  constructor
  · intro h
    by_contra hk
    have hpow : 2 ^ k ≤ 2 ^ (e - 1) := Nat.pow_le_pow_right Nat.two_pos (by omega)
    have hhalf : 2 ^ (e - 54) < 2 ^ (e - 1) := Nat.pow_lt_pow_right Nat.one_lt_two (by omega)
    have htwo : 2 ^ e = 2 * 2 ^ (e - 1) := by
      rw [← pow_succ']
      congr 1
      omega
    omega
  · intro h
    exact (Nat.sub_le _ _).trans (Nat.pow_le_pow_right Nat.two_pos h)

/-- What a computation may raise. -/
def Raises {α : Type} (allowed : List PyError) (r : Except PyError α) : Prop := ∀ e, r = .error e → e ∈ allowed

/-- The items of a text or of a dictionary are texts, and have no items of their own. -/
theorem list_of_iter {v : Value} {items : List Value} {k : String} (hn : 0 < items.length)
    (hiter : v.iter = .ok items) (h : ∀ item ∈ items, ∃ found, item.getItem k = .ok found) : v = .list items := by
  obtain ⟨first, rest, hitems⟩ := List.exists_cons_of_length_pos hn
  obtain ⟨found, hfound⟩ := h first (hitems ▸ List.mem_cons_self)
  cases v with
  | list found =>
    cases hiter
    rfl
  | str s =>
    rw [Value.iter, hitems, Except.ok.injEq] at hiter
    obtain ⟨c, -, hc⟩ := List.mem_map.mp (hiter ▸ List.mem_cons_self : first ∈ _)
    rw [← hc] at hfound
    cases hfound
  | dict fields =>
    rw [Value.iter, hitems, Except.ok.injEq] at hiter
    obtain ⟨field, -, hf⟩ := List.mem_map.mp (hiter ▸ List.mem_cons_self : first ∈ _)
    rw [← hf] at hfound
    cases hfound
  | _ => cases hiter

section Raises
variable {α β : Type} {allowed : List PyError} {e : PyError}

theorem raises_ok {a : α} : Raises allowed (.ok a : Except PyError α) := by
  intro e h
  cases h

theorem raises_error (h : e ∈ allowed) : Raises allowed (.error e : Except PyError α) := by
  intro e' he
  cases he
  exact h

theorem Raises.bind {x : Except PyError α} {f : α → Except PyError β} (hx : Raises allowed x)
    (hf : ∀ a, x = .ok a → Raises allowed (f a)) : Raises allowed (x >>= f) := by
  cases x with
  | error e' => exact raises_error (hx e' rfl)
  | ok a => exact hf a rfl

theorem Raises.mapM {f : α → Except PyError β} {l : List α} (hf : ∀ a ∈ l, Raises allowed (f a)) :
    Raises allowed (l.mapM f) := by
  induction l with
  | nil => exact raises_ok
  | cons a rest ih =>
    rw [List.mapM_cons]
    apply (hf a List.mem_cons_self).bind
    intro b _
    apply (ih fun c hc => hf c (List.mem_cons_of_mem _ hc)).bind
    intro bs _
    exact raises_ok

theorem raises_getItem {key : String} {v : Value} (hk : .keyError ∈ allowed) (ht : .typeError ∈ allowed) :
    Raises allowed (v.getItem key) := by
  cases v with
  | dict fields =>
    rw [Value.getItem]
    split
    · exact raises_ok
    · exact raises_error hk
  | _ => exact raises_error ht

theorem raises_len {v : Value} (ht : .typeError ∈ allowed) : Raises allowed v.len := by
  cases v with
  | str s => exact raises_ok
  | list items => exact raises_ok
  | dict fields => exact raises_ok
  | _ => exact raises_error ht

theorem raises_iter {v : Value} (ht : .typeError ∈ allowed) : Raises allowed v.iter := by
  cases v with
  | str s => exact raises_ok
  | list items => exact raises_ok
  | dict fields => exact raises_ok
  | _ => exact raises_error ht

theorem raises_hashed {v : Value} (ht : .typeError ∈ allowed) : Raises allowed v.hashed := by
  cases v with
  | list items => exact raises_error ht
  | dict fields => exact raises_error ht
  | _ => exact raises_ok

theorem raises_unless {c : Prop} [Decidable c] {r : Except PyError α} (he : e ∈ allowed) (hr : Raises allowed r) :
    Raises allowed (if c then .error e else r) := by
  by_cases h : c
  · rw [if_pos h]
    exact raises_error he
  · rw [if_neg h]
    exact hr

theorem toFloat_overflow {N : Numerals} {v : Value} : v.toFloat N = .error .overflowError ↔
    ∃ i : Int, v = .int i ∧ TooLarge i := by
  cases v with
  | int n =>
    rw [Value.toFloat]
    cases h : floatOfInt n with
    | none => simp [← floatOfInt_eq_none, h]
    | some q => simp [← floatOfInt_eq_none, h]
  | str s =>
    rw [Value.toFloat]
    cases N.float s with
    | none => simp
    | some x => simp
  | _ => simp [Value.toFloat]

theorem raises_toFloat {N : Numerals} {v : Value} (ht : .typeError ∈ allowed) (hv : .valueError ∈ allowed)
    (ho : .overflowError ∈ allowed) : Raises allowed (v.toFloat N) := by
  cases v with
  | int n =>
    rw [Value.toFloat]
    cases floatOfInt n with
    | none => exact raises_error ho
    | some q => exact raises_ok
  | str s =>
    rw [Value.toFloat]
    cases N.float s with
    | none => exact raises_error hv
    | some x => exact raises_ok
  | bool b => exact raises_ok
  | float x => exact raises_ok
  | _ => exact raises_error ht

end Raises

/-- As many values as there are numbers, and the same set: they are these numbers in some order. -/
theorem sameAsRange_perm (hlen : values.length = n) (h : sameAsRange values n = true) :
    (values.map Value.number).Perm ((List.range n).map fun (i : Nat) => some (i : ℚ)) := by
  rw [sameAsRange, Bool.and_eq_true, List.all_eq_true, List.all_eq_true] at h
  have hnodup : ((List.range n).map fun (i : Nat) => some (i : ℚ)).Nodup := by
    refine List.nodup_range.map ?_
    intro i j hij
    exact Nat.cast_injective (Option.some.inj hij)
  have hsub : ((List.range n).map fun (i : Nat) => some (i : ℚ)) ⊆ values.map Value.number := by
    intro x hx
    obtain ⟨i, hi, rfl⟩ := List.mem_map.mp hx
    obtain ⟨v, hv, hn⟩ := List.any_eq_true.mp (h.2 i hi)
    rw [← of_decide_eq_true hn]
    exact List.mem_map_of_mem hv
  refine ((hnodup.subperm hsub).perm_of_length_le ?_).symm
  rw [List.length_map, List.length_map, List.length_range, hlen]

/-- Values that are the set of the numbers up to `n` are these numbers in some order. -/
theorem order_of_sameAsRange (hlen : values.length = n) (h : sameAsRange values n = true) :
    ∃ order : List Nat, order.Perm (List.range n) ∧
      List.Forall₂ (fun v (i : Nat) => Value.number v = some (i : ℚ)) values order := by
  have hperm := sameAsRange_perm hlen h
  have horder : ∃ order : List Nat, List.Forall₂ (fun v (i : Nat) => Value.number v = some (i : ℚ)) values order := by
    have hnat : ∀ v ∈ values, ∃ i : Nat, v.number = some (i : ℚ) := by
      intro v hv
      obtain ⟨i, -, hi⟩ := List.mem_map.mp (hperm.mem_iff.mp (List.mem_map_of_mem hv))
      exact ⟨i, hi.symm⟩
    clear hperm h hlen
    induction values with
    | nil => exact ⟨[], .nil⟩
    | cons v rest ih =>
      obtain ⟨i, hi⟩ := hnat v List.mem_cons_self
      obtain ⟨order, ho⟩ := ih fun w hw => hnat w (List.mem_cons_of_mem _ hw)
      exact ⟨i :: order, .cons hi ho⟩
  obtain ⟨order, ho⟩ := horder
  refine ⟨order, ?_, ho⟩
  have hinj : Function.Injective fun (i : Nat) => some (i : ℚ) := by
    intro i j hij
    exact Nat.cast_injective (Option.some.inj hij)
  have hnumber : values.map Value.number = order.map fun (i : Nat) => some (i : ℚ) := by
    clear hperm h hlen
    induction ho with
    | nil => rfl
    | cons hi _ ih => rw [List.map_cons, List.map_cons, hi, ih]
  rw [hnumber] at hperm
  exact (List.map_perm_map_iff hinj).mp hperm

theorem sameAsRange_of_order {order : List Nat} (h : order.Perm (List.range n))
    (hall : List.Forall₂ (fun v (i : Nat) => Value.number v = some (i : ℚ)) values order) :
    sameAsRange values n = true := by
  rw [sameAsRange, Bool.and_eq_true, List.all_eq_true, List.all_eq_true]
  constructor
  · intro v hv
    obtain ⟨i, hi, hnumber⟩ := Result.mem_of_forall₂ hall v hv
    rw [List.any_eq_true]
    exact ⟨i, h.mem_iff.mp hi, decide_eq_true hnumber⟩
  · intro i hi
    obtain ⟨v, hv, hnumber⟩ := Result.mem_of_forall₂ hall.flip i (h.mem_iff.mpr hi)
    rw [List.any_eq_true]
    exact ⟨v, hv, decide_eq_true hnumber⟩

theorem number_int_iff {v : Value} {i : Nat} (hint : v.isInt = true) : v.number = some (i : ℚ) ↔ v = .int i := by
  cases v with
  | int z =>
    rw [Value.number, Option.some.injEq, Value.int.injEq]
    exact_mod_cast Iff.rfl
  | _ => cases hint

theorem tryExcept_eq_ok {ε α : Type} {caught : List PyError} {replacement : ε} {other : PyError → ε}
    {r : Except PyError α} {a : α} : tryExcept caught replacement other r = .ok a ↔ r = .ok a := by
  cases r with
  | ok b => simp [tryExcept]
  | error e =>
    rw [tryExcept]
    by_cases h : e ∈ caught
    · simp [h]
    · simp [h]

end DataCopilot.Py
