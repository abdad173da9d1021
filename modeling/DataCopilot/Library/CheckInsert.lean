import Mathlib.Logic.Function.Basic
import DataCopilot.Library.Transition
import DataCopilot.Library.UniqueIndex

/-! Calls that read the rows of a table, decide on them whether to insert a row, and insert it under a
unique constraint. Each is a transaction, and others commit between its steps. -/
namespace DataCopilot.CheckInsert
open UniqueIndex
variable {κ δ ρ ε : Type}

/-- What a call decides on the rows that it has read. -/
inductive Verdict (ρ ε : Type) where
  | refused (e : ε)
  | found
  | inserts (row : ρ)

/-- `seen` are the rows that the call has read. -/
inductive Phase (ρ ε : Type) where
  | started
  | checked (seen : List ρ) (row : ρ)
  | flushed (seen : List ρ) (row : ρ)
  | refused (seen : List ρ) (e : ε)
  | found (seen : List ρ)
  | inserted (seen : List ρ) (row : ρ)
  | violated (seen : List ρ) (row : ρ)
  | rolledBack

/-- `rollback` is any other failure of a call. -/
inductive Move (κ δ : Type) where
  | call (i : Nat) (c : κ)
  | read (i : Nat) (draw : δ)
  | flush (i : Nat)
  | commit (i : Nat)
  | rollback (i : Nat)

structure State (κ ρ ε : Type) where
  table : Table ρ := {}
  calls : Nat → Option (κ × Phase ρ ε) := fun _ => none

def Verdict.phase (seen : List ρ) : Verdict ρ ε → Phase ρ ε
  | .refused e => .refused seen e
  | .found => .found seen
  | .inserts row => .checked seen row

namespace State
variable [DecidableEq ρ] (verdict : κ → List ρ → δ → Verdict ρ ε) (clash : ρ → ρ → Prop) [DecidableRel clash]
variable (s : State κ ρ ε)

def put (i : Nat) (c : κ) (phase : Phase ρ ε) : State κ ρ ε :=
  { s with calls := Function.update s.calls i (some (c, phase)) }

def next : Move κ δ → Option (State κ ρ ε)
  | .call i c =>
    match s.calls i with
    | none => some (s.put i c .started)
    | some _ => none
  | .read i draw =>
    match s.calls i with
    | some (c, .started) => some (s.put i c ((verdict c s.table.rows draw).phase s.table.rows))
    | _ => none
  | .flush i =>
    match s.calls i with
    | some (c, .checked seen row) =>
      match s.table.insert clash i row with
      | .inserted table => some ({ s with table := table }.put i c (.flushed seen row))
      | .violation => some (s.put i c (.violated seen row))
      | .waits => none
    | _ => none
  | .commit i =>
    match s.calls i with
    | some (c, .flushed seen row) =>
      some ({ s with table := s.table.commit i row }.put i c (.inserted seen row))
    | _ => none
  | .rollback i =>
    match s.calls i with
    | some (c, .started) | some (c, .checked _ _) => some (s.put i c .rolledBack)
    | some (c, .flushed _ _) => some ({ s with table := s.table.release i }.put i c .rolledBack)
    | _ => none

/-- Any rows that meet the constraint may be there at the start. -/
def system : Transition.System (State κ ρ ε) (Move κ δ) where
  init s := s.table.Unique clash ∧ s.table.pending = [] ∧ ∀ i, s.calls i = none
  step s m t := s.next verdict clash m = some t

end State

/-- What a phase says of the rows: those that were read are still there, and the verdict on them is kept. -/
def Fits (verdict : κ → List ρ → δ → Verdict ρ ε) (clash : ρ → ρ → Prop) (table : Table ρ) (i : Nat) (c : κ) :
    Phase ρ ε → Prop
  | .started | .rolledBack => True
  | .checked seen row => seen ⊆ table.rows ∧ ∃ draw, verdict c seen draw = .inserts row
  | .flushed seen row => (seen ⊆ table.rows ∧ ∃ draw, verdict c seen draw = .inserts row) ∧ (i, row) ∈ table.pending
  | .refused seen e => seen ⊆ table.rows ∧ ∃ draw, verdict c seen draw = .refused e
  | .found seen => seen ⊆ table.rows ∧ ∃ draw, verdict c seen draw = .found
  | .inserted seen row => (seen ⊆ table.rows ∧ ∃ draw, verdict c seen draw = .inserts row) ∧ row ∈ table.rows
  | .violated seen row => (seen ⊆ table.rows ∧ ∃ draw, verdict c seen draw = .inserts row) ∧
    ∃ other ∈ table.rows, clash other row

structure Sound (verdict : κ → List ρ → δ → Verdict ρ ε) (clash : ρ → ρ → Prop) (s : State κ ρ ε) : Prop where
  unique : s.table.Unique clash
  calls : ∀ i c phase, s.calls i = some (c, phase) → Fits verdict clash s.table i c phase

section Sound
variable {verdict : κ → List ρ → δ → Verdict ρ ε} {clash : ρ → ρ → Prop} {s t : State κ ρ ε} {table : Table ρ}
variable {i : Nat} {c : κ} {phase : Phase ρ ε}

theorem put_calls (j : Nat) : (s.put i c phase).calls j = if j = i then some (c, phase) else s.calls j := by
  by_cases h : j = i
  · rw [if_pos h, State.put, h]
    exact Function.update_self ..
  · rw [if_neg h, State.put]
    exact Function.update_of_ne h ..

/-- A call relies on the committed rows and on its own pending one. -/
theorem Fits.keep (h : Fits verdict clash table i c phase) {table' : Table ρ} (hrows : table.rows ⊆ table'.rows)
    (hpending : ∀ row, (i, row) ∈ table.pending → (i, row) ∈ table'.pending) :
    Fits verdict clash table' i c phase := by
  cases phase with
  | started | rolledBack => trivial
  | checked seen row | refused seen e | found seen => exact ⟨List.Subset.trans h.1 hrows, h.2⟩
  | flushed seen row => exact ⟨⟨List.Subset.trans h.1.1 hrows, h.1.2⟩, hpending row h.2⟩
  | inserted seen row => exact ⟨⟨List.Subset.trans h.1.1 hrows, h.1.2⟩, hrows h.2⟩
  | violated seen row =>
    obtain ⟨h, other, hother, hclash⟩ := h
    exact ⟨⟨List.Subset.trans h.1 hrows, h.2⟩, other, hrows hother, hclash⟩

theorem Sound.put (hs : Sound verdict clash s) (hunique : table.Unique clash) (hrows : s.table.rows ⊆ table.rows)
    (hpending : ∀ j row, j ≠ i → (j, row) ∈ s.table.pending → (j, row) ∈ table.pending)
    (hfits : Fits verdict clash table i c phase) :
    Sound verdict clash ({ s with table := table }.put i c phase) := by
  refine ⟨hunique, fun j d phase' h => ?_⟩
  rw [put_calls] at h
  by_cases hj : j = i
  · rw [if_pos hj] at h
    cases h
    rw [hj]
    exact hfits
  · rw [if_neg hj] at h
    exact (hs.calls j d phase' h).keep hrows fun row => hpending j row hj

variable [DecidableEq ρ] [DecidableRel clash] [Std.Symm clash] {m : Move κ δ}

theorem Sound.next (hs : Sound verdict clash s) (h : s.next verdict clash m = some t) : Sound verdict clash t := by
  cases m with
  | call i c =>
    cases hc : s.calls i with
    | some p => simp [State.next, hc] at h
    | none =>
      simp only [State.next, hc, Option.some.injEq] at h
      subst h
      exact hs.put hs.unique (List.Subset.refl _) (fun _ _ _ h => h) trivial
  | read i draw =>
    cases hc : s.calls i with
    | none => simp [State.next, hc] at h
    | some p =>
      obtain ⟨c, phase⟩ := p
      cases phase with
      | started =>
        simp only [State.next, hc, Option.some.injEq] at h
        subst h
        refine hs.put hs.unique (List.Subset.refl _) (fun _ _ _ h => h) ?_
        cases hd : verdict c s.table.rows draw with
        | refused e | found | inserts row => exact ⟨List.Subset.refl _, draw, hd⟩
      | _ => simp [State.next, hc] at h
  | flush i =>
    cases hc : s.calls i with
    | none => simp [State.next, hc] at h
    | some p =>
      obtain ⟨c, phase⟩ := p
      cases phase with
      | checked seen row =>
        have hfits := hs.calls i c _ hc
        simp only [State.next, hc] at h
        cases hins : s.table.insert clash i row with
        | inserted table =>
          rw [hins] at h
          injection h with h
          subst h
          obtain ⟨rfl, -, -⟩ := Table.insert_inserted hins
          exact hs.put (hs.unique.insert hins) (List.Subset.refl _) (fun j row _ h => List.mem_cons_of_mem _ h)
            ⟨hfits, List.mem_cons_self⟩
        | violation =>
          rw [hins] at h
          injection h with h
          subst h
          refine hs.put hs.unique (List.Subset.refl _) (fun _ _ _ h => h) ⟨hfits, ?_⟩
          rw [Table.insert] at hins
          by_cases hr : ∃ a ∈ s.table.rows, clash a row
          · exact hr
          · rw [if_neg hr] at hins
            by_cases hp : ∃ p ∈ s.table.pending, clash p.2 row
            · rw [if_pos hp] at hins
              cases hins
            · rw [if_neg hp] at hins
              cases hins
        | waits =>
          rw [hins] at h
          cases h
      | _ => simp [State.next, hc] at h
  | commit i =>
    cases hc : s.calls i with
    | none => simp [State.next, hc] at h
    | some p =>
      obtain ⟨c, phase⟩ := p
      cases phase with
      | flushed seen row =>
        obtain ⟨hfits, hp⟩ := hs.calls i c _ hc
        simp only [State.next, hc, Option.some.injEq] at h
        subst h
        have hrows : s.table.rows ⊆ row :: s.table.rows := List.subset_cons_self _ _
        refine hs.put (hs.unique.commit hp) hrows (fun j other hj hm => ?_)
          ⟨⟨List.Subset.trans hfits.1 hrows, hfits.2⟩, List.mem_cons_self⟩
        exact (List.mem_erase_of_ne (by simp [hj])).mpr hm
      | _ => simp [State.next, hc] at h
  | rollback i =>
    cases hc : s.calls i with
    | none => simp [State.next, hc] at h
    | some p =>
      obtain ⟨c, phase⟩ := p
      cases phase with
      | started | checked seen row =>
        simp only [State.next, hc, Option.some.injEq] at h
        subst h
        exact hs.put hs.unique (List.Subset.refl _) (fun _ _ _ h => h) trivial
      | flushed seen row =>
        simp only [State.next, hc, Option.some.injEq] at h
        subst h
        refine hs.put hs.unique.release (List.Subset.refl _) (fun j other hj hm => ?_) trivial
        exact List.mem_filter.mpr ⟨hm, by simpa using hj⟩
      | _ => simp [State.next, hc] at h

theorem sound (h : (State.system verdict clash).Reachable s) : Sound verdict clash s := by
  refine h.invariant ?_ fun s m t _ hs hm => hs.next hm
  intro s hi
  obtain ⟨hunique, _, hnone⟩ := hi
  refine ⟨hunique, fun i c phase h => ?_⟩
  rw [hnone] at h
  cases h

end Sound
end DataCopilot.CheckInsert
