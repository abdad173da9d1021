import Mathlib.Data.List.Count
import Mathlib.Logic.Function.Basic

/-! Hits counted by key in windows of a fixed length: a window opens with the first hit after the last one has
ended, and of its hits as many as the limit are admitted. -/
namespace DataCopilot.Metering

/-- What is counted up to `ends`. -/
structure Window where
  count : Nat
  ends : Nat

/-- The window of a key after a hit. -/
def count (length now : Nat) : Option Window → Window
  | none => ⟨1, now + length⟩
  | some w => if now ≤ w.ends then { w with count := w.count + 1 } else ⟨1, now + length⟩

/-- A hit, with whose it is and its number in its window. -/
structure Hit (κ ι : Type*) where
  label : ι
  key : κ
  time : Nat
  number : Nat

/-- `hits` stand newest first. -/
structure Meter (κ ι : Type*) where
  windows : κ → Option Window := fun _ => none
  now : Nat := 0
  hits : List (Hit κ ι) := []

/-- The times in a list from `a` on and before `b`. -/
def within (a b : Nat) (times : List Nat) : Nat := times.countP fun t => a ≤ t ∧ t < b

section Times
variable {a b c : Nat} {times : List Nat}

theorem within_cons (a b t : Nat) (times : List Nat) :
    within a b (t :: times) = within a b times + if a ≤ t ∧ t < b then 1 else 0 := by
  simp only [within, List.countP_cons, decide_eq_true_eq]

theorem within_split : within a b times ≤ within a c times + within c b times := by
  induction times with
  | nil => exact Nat.le_refl 0
  | cons t rest ih =>
    simp only [within_cons]
    split <;> split <;> split <;> omega

theorem within_le (ha : c ≤ a) : within a b times ≤ within c b times := by
  induction times with
  | nil => exact Nat.le_refl 0
  | cons t rest ih =>
    simp only [within_cons]
    split <;> split <;> omega

/-- Past the last time it does not matter where an interval ends. -/
theorem within_of_forall (h : ∀ t ∈ times, t < c) (hc : c ≤ b) : within a b times = within a c times := by
  induction times with
  | nil => rfl
  | cons t rest ih =>
    have ht := h t List.mem_cons_self
    have hrest := ih fun u hu => h u (List.mem_cons_of_mem t hu)
    simp only [within_cons, hrest]
    split <;> split <;> omega

theorem within_eq_zero (h : ∀ t ∈ times, t < a) : within a b times = 0 := by
  induction times with
  | nil => rfl
  | cons t rest ih =>
    have ht := h t List.mem_cons_self
    rw [within_cons, ih fun u hu => h u (List.mem_cons_of_mem t hu), if_neg (by omega)]

end Times

/-- What the window of a key, which has opened at `opened`, tells of the times that were admitted. -/
structure Metered (length limit now opened : Nat) (w : Window) (times : List Nat) : Prop where
  ends : w.ends = opened + length
  opened_le : opened ≤ now
  past : ∀ t ∈ times, t < now + 1
  inside : ∀ t ∈ times, t ≤ w.ends
  current : within opened (now + 1) times = min w.count limit
  /-- No more than one window lies in reach before this one. -/
  before : ∀ t, opened ≤ t + length → within t opened times ≤ limit
  all : ∀ t, within t (t + length + 1) times ≤ 2 * limit

/-- The time of a hit with this number is there if the hit is admitted. -/
def letIn (limit number now : Nat) (times : List Nat) : List Nat :=
  if number ≤ limit then now :: times else times

namespace Metered
variable {length limit now opened later : Nat} {w : Window} {times : List Nat}

theorem mem_letIn {number t : Nat} (h : t ∈ letIn limit number now times) : t = now ∨ t ∈ times := by
  rw [letIn] at h
  split at h
  · exact List.mem_cons.mp h
  · exact .inr h

theorem within_letIn (a b number : Nat) : within a b (letIn limit number now times) =
    within a b times + if number ≤ limit ∧ a ≤ now ∧ now < b then 1 else 0 := by
  rw [letIn]
  by_cases hn : number ≤ limit
  · rw [if_pos hn, within_cons]
    simp only [hn, true_and]
  · rw [if_neg hn, if_neg fun h => hn h.1, Nat.add_zero]

theorem wait (h : Metered length limit now opened w times) (hl : now ≤ later) :
    Metered length limit later opened w times := by
  refine ⟨h.ends, Nat.le_trans h.opened_le hl, ?_, h.inside, ?_, h.before, h.all⟩
  · intro t ht
    have hlt := h.past t ht
    omega
  · rw [within_of_forall h.past (by omega)]
    exact h.current

/-- A hit for which no window is open, after times that lie within one window. -/
theorem opens (hpast : ∀ t ∈ times, t < now) (hbefore : ∀ t, now ≤ t + length → within t now times ≤ limit)
    (hall : ∀ t, within t (t + length + 1) times ≤ 2 * limit) :
    Metered length limit now now ⟨1, now + length⟩ (letIn limit 1 now times) := by
  refine ⟨rfl, Nat.le_refl now, ?_, ?_, ?_, ?_, ?_⟩
  · intro t ht
    cases mem_letIn ht with
    | inl he => omega
    | inr hm => exact Nat.lt_succ_of_lt (hpast t hm)
  · intro t ht
    change t ≤ now + length
    cases mem_letIn ht with
    | inl he => omega
    | inr hm =>
      have hlt := hpast t hm
      omega
  · change _ = min 1 limit
    rw [within_letIn, within_eq_zero hpast]
    split <;> omega
  · intro t ht
    rw [within_letIn, if_neg (by omega)]
    exact hbefore t ht
  · intro t
    rw [within_letIn]
    split
    next hn =>
      rw [within_of_forall hpast (by omega)]
      have hle := hbefore t (by omega)
      omega
    next => exact hall t

theorem first : Metered length limit now now ⟨1, now + length⟩ (letIn limit 1 now []) :=
  opens (fun _ ht => nomatch ht) (fun _ _ => Nat.zero_le limit) fun _ => Nat.zero_le _

theorem reopen (h : Metered length limit now opened w times) (hw : w.ends < now) :
    Metered length limit now now ⟨1, now + length⟩ (letIn limit 1 now times) := by
  have hpast : ∀ t ∈ times, t < now := fun t ht => Nat.lt_of_le_of_lt (h.inside t ht) hw
  refine opens hpast (fun t ht => ?_) h.all
  have hends := h.ends
  have hcurrent := h.current
  have hle : within t now times ≤ within opened now times := within_le (by omega)
  rw [within_of_forall hpast (Nat.le_succ now)] at hcurrent
  omega

/-- A hit of the window that is open. -/
theorem again (h : Metered length limit now opened w times) (hw : now ≤ w.ends) :
    Metered length limit now opened { w with count := w.count + 1 } (letIn limit (w.count + 1) now times) := by
  have hopened := h.opened_le
  have hcurrent := h.current
  refine ⟨h.ends, hopened, ?_, ?_, ?_, ?_, ?_⟩
  · intro t ht
    cases mem_letIn ht with
    | inl he => omega
    | inr hm => exact h.past t hm
  · intro t ht
    cases mem_letIn ht with
    | inl he => exact he ▸ hw
    | inr hm => exact h.inside t hm
  · change _ = min (w.count + 1) limit
    rw [within_letIn, hcurrent]
    split <;> omega
  · intro t ht
    rw [within_letIn, if_neg (by omega)]
    exact h.before t ht
  · intro t
    rw [within_letIn]
    split
    next hn =>
      have hends := h.ends
      have hlast : within opened (t + length + 1) times = within opened (now + 1) times :=
        within_of_forall h.past (by omega)
      have hsplit : within t (t + length + 1) times ≤
          within t opened times + within opened (t + length + 1) times := within_split
      have hbefore := h.before t (by omega)
      omega
    next => exact h.all t

end Metered

namespace Meter
variable {κ ι : Type*} [DecidableEq κ] (m : Meter κ ι) (length : Nat) (label : ι) (key : κ)

def hit : Meter κ ι :=
  let w := count length m.now (m.windows key)
  { m with
    windows := Function.update m.windows key (some w)
    hits := ⟨label, key, m.now, w.count⟩ :: m.hits }

def tick (now : Nat) : Meter κ ι := { m with now := now }

theorem windows_hit (k : κ) : (m.hit length label key).windows k =
    if k = key then some (count length m.now (m.windows key)) else m.windows k := by
  simp only [hit, Function.update_apply]

end Meter

/-- The times of the hits of a key that were admitted. -/
def admitted {κ ι : Type*} [DecidableEq κ] (limit : Nat) (key : κ) (hits : List (Hit κ ι)) : List Nat :=
  (hits.filter fun h => h.key = key ∧ h.number ≤ limit).map Hit.time

section Admitted
variable {κ ι : Type*} [DecidableEq κ] {limit : Nat} {key : κ} {h : Hit κ ι} {hits : List (Hit κ ι)}

theorem admitted_cons_self :
    admitted limit h.key (h :: hits) = letIn limit h.number h.time (admitted limit h.key hits) := by
  rw [admitted, letIn, List.filter_cons]
  by_cases hn : h.number ≤ limit
  · simp [hn, admitted]
  · simp [hn, admitted]

theorem admitted_cons_of_ne (hk : h.key ≠ key) : admitted limit key (h :: hits) = admitted limit key hits := by
  rw [admitted, List.filter_cons_of_neg (by simp [hk]), admitted]

theorem within_admitted (a b : Nat) : within a b (admitted limit key hits) =
    (hits.filter fun h => (h.key = key ∧ h.number ≤ limit) ∧ a ≤ h.time ∧ h.time < b).length := by
  rw [within, admitted, List.countP_map, List.countP_filter, ← List.countP_eq_length_filter]
  congr 1
  funext h
  simp [Bool.and_comm]

end Admitted

/-- What holds of a meter after any hits and ticks. -/
structure Meter.Sound {κ ι : Type*} [DecidableEq κ] (length limit : Nat) (m : Meter κ ι) : Prop where
  unhit : ∀ key, m.windows key = none → ∀ h ∈ m.hits, h.key ≠ key
  metered : ∀ key w, m.windows key = some w → ∃ opened, Metered length limit m.now opened w (admitted limit key m.hits)
  /-- A hit that is not admitted comes after as many as the limit in its window. -/
  refused : ∀ later earlier h, m.hits = later ++ h :: earlier → limit < h.number →
    ∃ opened, opened ≤ h.time ∧ h.time ≤ opened + length ∧
      within opened (h.time + 1) (admitted limit h.key earlier) = limit

namespace Meter.Sound
variable {κ ι : Type*} [DecidableEq κ] {m : Meter κ ι} {length limit : Nat} {label : ι} {key : κ}

theorem start (hw : m.windows = fun _ => none) (hh : m.hits = []) : m.Sound length limit := by
  refine ⟨fun key _ x hx => ?_, fun key w hk => ?_, fun later earlier x hx => ?_⟩
  · rw [hh] at hx
    cases hx
  · rw [hw] at hk
    cases hk
  · rw [hh] at hx
    cases later <;> cases hx

theorem admitted_of_none (h : m.Sound length limit) (hk : m.windows key = none) : admitted limit key m.hits = [] := by
  rw [admitted, List.filter_eq_nil_iff.mpr, List.map_nil]
  intro x hx
  simp [h.unhit key hk x hx]

theorem tick (h : m.Sound length limit) {now : Nat} (hn : m.now ≤ now) : (m.tick now).Sound length limit := by
  refine ⟨h.unhit, fun key w hw => ?_, h.refused⟩
  obtain ⟨opened, hm⟩ := h.metered key w hw
  exact ⟨opened, hm.wait hn⟩

theorem metered_hit (h : m.Sound length limit) (key : κ) : ∃ opened,
    Metered length limit m.now opened (count length m.now (m.windows key))
      (letIn limit (count length m.now (m.windows key)).count m.now (admitted limit key m.hits)) := by
  cases hw : m.windows key with
  | none =>
    rw [h.admitted_of_none hw]
    exact ⟨m.now, Metered.first⟩
  | some w =>
    obtain ⟨opened, hm⟩ := h.metered key w hw
    simp only [count]
    split
    next hle => exact ⟨opened, hm.again hle⟩
    next hlt => exact ⟨m.now, hm.reopen (by omega)⟩

theorem refused_hit (h : m.Sound length limit) (hl : 1 ≤ limit)
    (hn : limit < (count length m.now (m.windows key)).count) :
    ∃ opened, opened ≤ m.now ∧ m.now ≤ opened + length ∧
      within opened (m.now + 1) (admitted limit key m.hits) = limit := by
  cases hw : m.windows key with
  | none =>
    rw [hw] at hn
    exact absurd hn (Nat.not_lt.mpr hl)
  | some w =>
    obtain ⟨opened, hm⟩ := h.metered key w hw
    rw [hw] at hn
    simp only [count] at hn
    split at hn
    next hle =>
      have hcount : limit < w.count + 1 := hn
      refine ⟨opened, hm.opened_le, hm.ends ▸ hle, ?_⟩
      rw [hm.current]
      omega
    next => exact absurd hn (Nat.not_lt.mpr hl)

theorem hit (h : m.Sound length limit) (hl : 1 ≤ limit) : (m.hit length label key).Sound length limit := by
  refine ⟨?_, ?_, ?_⟩
  · intro k hk x hx
    rw [Meter.windows_hit] at hk
    split at hk
    next => cases hk
    next he =>
      cases List.mem_cons.mp hx with
      | inl hxe =>
        rw [hxe]
        exact Ne.symm he
      | inr hm => exact h.unhit k hk x hm
  · intro k w hk
    rw [Meter.windows_hit] at hk
    split at hk
    next he =>
      injection hk with hk
      rw [he, ← hk]
      obtain ⟨opened, hm⟩ := h.metered_hit key
      refine ⟨opened, ?_⟩
      rw [← admitted_cons_self (h := ⟨label, key, m.now, (count length m.now (m.windows key)).count⟩)] at hm
      exact hm
    next he =>
      obtain ⟨opened, hm⟩ := h.metered k w hk
      refine ⟨opened, ?_⟩
      change Metered length limit m.now opened w (admitted limit k (_ :: m.hits))
      rw [admitted_cons_of_ne (Ne.symm he)]
      exact hm
  · intro later earlier x hx hn
    cases later with
    | nil =>
      injection hx with hx hrest
      rw [← hrest, ← hx]
      rw [← hx] at hn
      exact h.refused_hit hl hn
    | cons y later =>
      injection hx with _ hrest
      exact h.refused later earlier x hrest hn

/-- No interval of the length of a window has hits admitted beyond those of two windows. -/
theorem within_le (h : m.Sound length limit) (key : κ) (t : Nat) :
    within t (t + length + 1) (admitted limit key m.hits) ≤ 2 * limit := by
  cases hw : m.windows key with
  | none =>
    rw [h.admitted_of_none hw]
    exact Nat.zero_le _
  | some w =>
    obtain ⟨opened, hm⟩ := h.metered key w hw
    exact hm.all t

end Meter.Sound
end DataCopilot.Metering
