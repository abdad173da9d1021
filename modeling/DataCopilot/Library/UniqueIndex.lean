import Mathlib.Data.List.Perm.Basic

/-! A table with a unique constraint, under transactions that insert one row each. A row that
is inserted and not yet committed makes the others wait: they are refused if it commits and
go on if it is rolled back. -/
namespace DataCopilot.UniqueIndex
variable {ρ : Type*}

structure Table (ρ : Type*) where
  rows : List ρ := []
  pending : List (Nat × ρ) := []

inductive Insertion (ρ : Type*) where
  | inserted (t : Table ρ)
  | violation
  | waits

namespace Table

def all (t : Table ρ) : List ρ := t.rows ++ t.pending.map Prod.snd

section Operations
variable (clash : ρ → ρ → Prop)

/-- No two rows clash, whether committed or not. -/
def Unique (t : Table ρ) : Prop := t.all.Pairwise fun a b => ¬ clash a b

def insert [DecidableRel clash] (t : Table ρ) (i : Nat) (r : ρ) : Insertion ρ :=
  if ∃ a ∈ t.rows, clash a r then .violation
  else if ∃ p ∈ t.pending, clash p.2 r then .waits
  else .inserted { t with pending := (i, r) :: t.pending }

end Operations

def commit [DecidableEq ρ] (t : Table ρ) (i : Nat) (r : ρ) : Table ρ where
  rows := r :: t.rows
  pending := t.pending.erase (i, r)

def release (t : Table ρ) (i : Nat) : Table ρ :=
  { t with pending := t.pending.filter fun p => p.1 ≠ i }

variable {clash : ρ → ρ → Prop} {t t' : Table ρ} {i : Nat} {r : ρ}

theorem insert_inserted [DecidableRel clash] (h : t.insert clash i r = .inserted t') :
    t' = { t with pending := (i, r) :: t.pending } ∧ (∀ a ∈ t.rows, ¬ clash a r) ∧
      ∀ p ∈ t.pending, ¬ clash p.2 r := by
  unfold insert at h
  by_cases hr : ∃ a ∈ t.rows, clash a r
  · rw [if_pos hr] at h
    cases h
  · rw [if_neg hr] at h
    by_cases hp : ∃ p ∈ t.pending, clash p.2 r
    · rw [if_pos hp] at h
      cases h
    · rw [if_neg hp] at h
      cases h
      refine ⟨rfl, ?_, ?_⟩
      · intro a ha hc
        exact hr ⟨a, ha, hc⟩
      · intro p hm hc
        exact hp ⟨p, hm, hc⟩

section Unique
variable [Std.Symm clash]

theorem Unique.perm (h : t.Unique clash) (hp : t'.all.Perm t.all) : t'.Unique clash := by
  refine (hp.pairwise_iff ?_).mpr h
  intro a b hab hba
  exact hab (Std.Symm.symm _ _ hba)

theorem Unique.insert [DecidableRel clash] (hu : t.Unique clash)
    (h : t.insert clash i r = .inserted t') : t'.Unique clash := by
  obtain ⟨rfl, hrows, hpending⟩ := insert_inserted h
  have hnew : (r :: t.all).Pairwise fun a b => ¬ clash a b := by
    refine List.pairwise_cons.mpr ⟨fun a ha hc => ?_, hu⟩
    have hsymm : clash a r := Std.Symm.symm _ _ hc
    rw [all, List.mem_append] at ha
    obtain ha | ha := ha
    · exact hrows a ha hsymm
    · obtain ⟨p, hp, rfl⟩ := List.mem_map.mp ha
      exact hpending p hp hsymm
  refine (List.perm_middle.pairwise_iff ?_).mpr hnew
  intro a b hab hba
  exact hab (Std.Symm.symm _ _ hba)

theorem Unique.commit [DecidableEq ρ] (hu : t.Unique clash) (h : (i, r) ∈ t.pending) :
    (t.commit i r).Unique clash := by
  refine hu.perm ?_
  have herase : (t.pending.map Prod.snd).Perm (r :: (t.pending.erase (i, r)).map Prod.snd) :=
    (List.perm_cons_erase h).map Prod.snd
  have hmiddle : (t.commit i r).all.Perm (t.rows ++ r :: (t.pending.erase (i, r)).map Prod.snd) :=
    List.perm_middle.symm
  exact hmiddle.trans (herase.symm.append_left t.rows)

end Unique

theorem Unique.release (hu : t.Unique clash) : (t.release i).Unique clash :=
  hu.sublist (List.Sublist.append_left (List.filter_sublist.map Prod.snd) t.rows)

end Table
end DataCopilot.UniqueIndex
