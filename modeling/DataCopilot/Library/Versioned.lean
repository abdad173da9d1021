import Mathlib.Logic.Basic

/-! A cell under optimistic locking. Every write raises the version; a transaction
reads a copy and may write only while the version it read is still the current one. -/
namespace DataCopilot.Versioned
variable {α : Type*}

structure Cell (α : Type*) where
  value : α
  version : Nat

def Cell.fresh (a : α) : Cell α := ⟨a, 0⟩

def Cell.write (c : Cell α) (a : α) : Cell α := ⟨a, c.version + 1⟩

@[simp] theorem Cell.write_value (c : Cell α) (a : α) : (c.write a).value = a := rfl
@[simp] theorem Cell.write_version (c : Cell α) (a : α) :
    (c.write a).version = c.version + 1 := rfl

/-- A write of what was read is no write: the row is not dirty, nothing is checked. -/
def Cell.commit [DecidableEq α] (c read : Cell α) (a : α) : Option (Cell α) :=
  if a = read.value then some c
  else if read.version = c.version then some (c.write a)
  else none

/-- `read` is a copy of `c` taken now or earlier. -/
def Cell.Snapshot (c read : Cell α) : Prop :=
  read.version ≤ c.version ∧ (read.version = c.version → read.value = c.value)

theorem Cell.Snapshot.refl (c : Cell α) : c.Snapshot c := ⟨Nat.le_refl _, fun _ => rfl⟩

theorem Cell.Snapshot.write {c read : Cell α} (h : c.Snapshot read) (a : α) :
    (c.write a).Snapshot read := by
  obtain ⟨hle, _⟩ := h
  refine ⟨by simp; omega, ?_⟩
  intro he
  simp at he
  omega

theorem Cell.Snapshot.current {c read : Cell α} (h : c.Snapshot read)
    (hv : read.version = c.version) : read.value = c.value := h.2 hv

variable [DecidableEq α]

/-- Everything a commit can do: leave the cell as it is, or write a new value that was
computed from the value the cell still holds. -/
theorem Cell.commit_cases {c read d : Cell α} {a : α} (hs : c.Snapshot read)
    (h : c.commit read a = some d) :
    (a = read.value ∧ d = c) ∨ (a ≠ read.value ∧ read.value = c.value ∧ d = c.write a) := by
  unfold Cell.commit at h
  split at h
  · rename_i he
    exact .inl ⟨he, by simpa using h.symm⟩
  · rename_i hne
    split at h
    · rename_i hv
      exact .inr ⟨hne, hs.current hv, by simpa using h.symm⟩
    · cases h

theorem Cell.Snapshot.commit {c read other d : Cell α} {a : α} (ho : c.Snapshot other)
    (h : c.commit read a = some d) : d.Snapshot other := by
  unfold Cell.commit at h
  split at h
  · cases h
    exact ho
  · split at h
    · cases h
      exact ho.write a
    · cases h

end DataCopilot.Versioned
