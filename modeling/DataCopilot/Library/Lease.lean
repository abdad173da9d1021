import Mathlib.Logic.Function.Basic

/-! Locks that run out: a lock is set for a fixed time where none is, stands up to the moment at which it
ends, and is deleted by the owner that it was set for alone. -/
namespace DataCopilot.Lease
variable {κ ω : Type*} [DecidableEq κ] [DecidableEq ω]

/-- `granted` says which lock an owner was given, and when, until it gives the lock back. -/
structure Locks (κ ω : Type*) where
  now : Nat := 0
  entries : κ → Option (ω × Nat) := fun _ => none
  granted : ω → Option (κ × Nat) := fun _ => none

namespace Locks

/-- The owner of a lock that has not run out. -/
def holder (s : Locks κ ω) (k : κ) : Option ω :=
  match s.entries k with
  | some (o, ends) => if s.now ≤ ends then some o else none
  | none => none

/-- The state after the command, and whether it has set the lock. -/
def setIfAbsent (length : Nat) (s : Locks κ ω) (k : κ) (o : ω) : Locks κ ω × Bool :=
  match s.holder k with
  | some _ => (s, false)
  | none =>
    ({ s with
      entries := Function.update s.entries k (some (o, s.now + length))
      granted := Function.update s.granted o (some (k, s.now)) }, true)

def deleteIfOwned (s : Locks κ ω) (k : κ) (o : ω) : Locks κ ω :=
  { s with
    entries := if s.holder k = some o then Function.update s.entries k none else s.entries
    granted := Function.update s.granted o none }

def tick (s : Locks κ ω) (d : Nat) : Locks κ ω := { s with now := s.now + d }

end Locks

variable {length : Nat} {s : Locks κ ω} {k : κ} {o o' : ω} {t t' d : Nat}

/-- A lock that was given and has not run out stands in the store, and nothing else stands there;
two grants of one lock are more than a length apart. -/
structure Sound (length : Nat) (s : Locks κ ω) : Prop where
  past : ∀ o k t, s.granted o = some (k, t) → t ≤ s.now
  stored : ∀ o k t, s.granted o = some (k, t) → s.now ≤ t + length → s.entries k = some (o, t + length)
  backed : ∀ k o ends, s.entries k = some (o, ends) → s.now ≤ ends →
    ∃ t, s.granted o = some (k, t) ∧ ends = t + length
  apart : ∀ o o' k t t', o ≠ o' → s.granted o = some (k, t) → s.granted o' = some (k, t') →
    t + length < t' ∨ t' + length < t

omit [DecidableEq κ] [DecidableEq ω] in
theorem Sound.start : Sound length ({} : Locks κ ω) where
  past _ _ _ h := nomatch h
  stored _ _ _ h := nomatch h
  backed _ _ _ h := nomatch h
  apart _ _ _ _ _ _ h := nomatch h

omit [DecidableEq κ] [DecidableEq ω] in
/-- A lock that has not run out is held by the owner that it was given to. -/
theorem Sound.holder_iff (hs : Sound length s) :
    s.holder k = some o ↔ ∃ t, s.granted o = some (k, t) ∧ s.now ≤ t + length := by
  rw [Locks.holder]
  constructor
  · intro h
    cases he : s.entries k with
    | none =>
      rw [he] at h
      cases h
    | some e =>
      obtain ⟨o', ends⟩ := e
      simp only [he] at h
      by_cases hle : s.now ≤ ends
      · rw [if_pos hle] at h
        injection h with h
        obtain ⟨t, hg, hends⟩ := hs.backed k o' ends he hle
        exact ⟨t, h ▸ hg, hends ▸ hle⟩
      · rw [if_neg hle] at h
        cases h
  · intro ⟨t, hg, hle⟩
    simp only [hs.stored o k t hg hle, hle, if_true]

omit [DecidableEq κ] [DecidableEq ω] in
theorem Sound.tick (hs : Sound length s) (d : Nat) : Sound length (s.tick d) := by
  constructor
  · intro o k t h
    exact Nat.le_add_right_of_le (hs.past o k t h)
  · intro o k t h hle
    exact hs.stored o k t h (Nat.le_trans (Nat.le_add_right _ _) hle)
  · intro k o ends h hle
    exact hs.backed k o ends h (Nat.le_trans (Nat.le_add_right _ _) hle)
  · exact hs.apart

theorem deleteIfOwned_entries : (s.deleteIfOwned k o).entries =
    if s.holder k = some o then Function.update s.entries k none else s.entries := rfl

theorem deleteIfOwned_granted : (s.deleteIfOwned k o).granted = Function.update s.granted o none := rfl

theorem setIfAbsent_of_held (h : s.holder k = some o') : s.setIfAbsent length k o = (s, false) := by
  rw [Locks.setIfAbsent, h]

theorem setIfAbsent_of_free (h : s.holder k = none) : s.setIfAbsent length k o =
    ({ s with
      entries := Function.update s.entries k (some (o, s.now + length))
      granted := Function.update s.granted o (some (k, s.now)) }, true) := by
  rw [Locks.setIfAbsent, h]

/-- The command has found the lock held, or has granted it. -/
theorem setIfAbsent_cases (length : Nat) (s : Locks κ ω) (k : κ) (o : ω) :
    s.setIfAbsent length k o = (s, false) ∧ (∃ o', s.holder k = some o') ∨
      ∃ t : Locks κ ω, s.setIfAbsent length k o = (t, true) ∧ t.now = s.now ∧
        t.granted o = some (k, s.now) ∧ ∀ o', o' ≠ o → t.granted o' = s.granted o' := by
  cases hk : s.holder k with
  | some o' => exact .inl ⟨setIfAbsent_of_held hk, o', rfl⟩
  | none => exact .inr ⟨_, setIfAbsent_of_free hk, rfl, Function.update_self .., fun _ h => Function.update_of_ne h ..⟩

/-- Only an owner that holds nothing asks. -/
theorem Sound.setIfAbsent (hs : Sound length s) (hfree : s.granted o = none) :
    Sound length (s.setIfAbsent length k o).1 := by
  cases hk : s.holder k with
  | some o' =>
    rw [setIfAbsent_of_held hk]
    exact hs
  | none =>
    rw [setIfAbsent_of_free hk]
    -- every other grant of the lock has run out
    have hout : ∀ o' t, s.granted o' = some (k, t) → t + length < s.now := by
      intro o' t hg
      by_contra hle
      rw [hs.holder_iff.mpr ⟨t, hg, by omega⟩] at hk
      cases hk
    have hcases : ∀ o' k' t, Function.update s.granted o (some (k, s.now)) o' = some (k', t) →
        (o' = o ∧ k' = k ∧ t = s.now) ∨ (o' ≠ o ∧ s.granted o' = some (k', t)) := by
      intro o' k' t h
      by_cases ho : o' = o
      · rw [ho, Function.update_self] at h
        cases h
        exact .inl ⟨ho, rfl, rfl⟩
      · rw [Function.update_of_ne ho] at h
        exact .inr ⟨ho, h⟩
    constructor
    · intro o' k' t h
      obtain ⟨_, _, rfl⟩ | ⟨_, h⟩ := hcases o' k' t h
      · exact Nat.le_refl _
      · exact hs.past o' k' t h
    · intro o' k' t h hle
      obtain ⟨rfl, rfl, rfl⟩ | ⟨_, h⟩ := hcases o' k' t h
      · exact Function.update_self ..
      · have hne : k' ≠ k := by
          intro he
          have hlt := hout o' t (he ▸ h)
          have hle : s.now ≤ t + length := hle
          omega
        change Function.update _ _ _ _ = _
        rw [Function.update_of_ne hne]
        exact hs.stored o' k' t h hle
    · intro k' o' ends h hle
      by_cases hk' : k' = k
      · change Function.update _ _ _ _ = _ at h
        rw [hk', Function.update_self] at h
        cases h
        exact ⟨s.now, by rw [hk']; exact Function.update_self .., rfl⟩
      · change Function.update _ _ _ _ = _ at h
        rw [Function.update_of_ne hk'] at h
        obtain ⟨t, hg, he⟩ := hs.backed k' o' ends h hle
        have ho : o' ≠ o := by
          intro ho
          rw [ho, hfree] at hg
          cases hg
        exact ⟨t, by change Function.update _ _ _ _ = _; rw [Function.update_of_ne ho]; exact hg, he⟩
    · intro a b k' t t' hab ha hb
      obtain ⟨ha', hk, ht⟩ | ⟨_, ha⟩ := hcases a k' t ha
      · obtain ⟨hb', _⟩ | ⟨_, hb⟩ := hcases b k' t' hb
        · exact absurd (ha'.trans hb'.symm) hab
        · rw [hk] at hb
          exact .inr (ht ▸ hout b t' hb)
      · obtain ⟨_, hk, ht⟩ | ⟨_, hb⟩ := hcases b k' t' hb
        · rw [hk] at ha
          exact .inl (ht ▸ hout a t ha)
        · exact hs.apart a b k' t t' hab ha hb

/-- Only the lock that the owner was given is given back. -/
theorem Sound.deleteIfOwned (hs : Sound length s) (hown : ∀ k' t, s.granted o = some (k', t) → k' = k) :
    Sound length (s.deleteIfOwned k o) := by
  have hcases : ∀ o' k' t, Function.update s.granted o none o' = some (k', t) →
      o' ≠ o ∧ s.granted o' = some (k', t) := by
    intro o' k' t h
    by_cases ho : o' = o
    · rw [ho, Function.update_self] at h
      cases h
    · rw [Function.update_of_ne ho] at h
      exact ⟨ho, h⟩
  constructor
  · intro o' k' t h
    exact hs.past o' k' t (hcases o' k' t h).2
  · intro o' k' t h hle
    obtain ⟨ho, h⟩ := hcases o' k' t h
    have hstored := hs.stored o' k' t h hle
    rw [deleteIfOwned_entries]
    by_cases hh : s.holder k = some o
    · have hne : k' ≠ k := by
        intro he
        have hk := hs.holder_iff.mpr ⟨t, h, hle⟩
        rw [he, hh] at hk
        injection hk with hk
        exact ho hk.symm
      rw [if_pos hh, Function.update_of_ne hne]
      exact hstored
    · rw [if_neg hh]
      exact hstored
  · intro k' o' ends h hle
    rw [deleteIfOwned_entries] at h
    have hentry : s.entries k' = some (o', ends) ∧ ¬ (s.holder k = some o ∧ k' = k) := by
      by_cases hh : s.holder k = some o
      · rw [if_pos hh] at h
        by_cases hk : k' = k
        · rw [hk, Function.update_self] at h
          cases h
        · rw [Function.update_of_ne hk] at h
          exact ⟨h, fun hc => hk hc.2⟩
      · rw [if_neg hh] at h
        exact ⟨h, fun hc => hh hc.1⟩
    obtain ⟨t, hg, he⟩ := hs.backed k' o' ends hentry.1 hle
    have ho : o' ≠ o := by
      intro ho
      rw [ho] at hg
      have hk := hown k' t hg
      exact hentry.2 ⟨hk ▸ hs.holder_iff.mpr ⟨t, hg, he ▸ hle⟩, hk⟩
    exact ⟨t, by change Function.update _ _ _ _ = _; rw [Function.update_of_ne ho]; exact hg, he⟩
  · intro a b k' t t' hab ha hb
    exact hs.apart a b k' t t' hab (hcases a k' t ha).2 (hcases b k' t' hb).2

end DataCopilot.Lease
