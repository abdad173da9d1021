import Mathlib.Data.List.Basic

/-! Patterns of literal text and of groups with a fixed number of characters, matched against a
text from end to end. -/
namespace DataCopilot.Pattern
variable {α : Type*} [DecidableEq α]

inductive Piece (α : Type*) where
  | literal (text : List α)
  | group (accepts : α → Bool) (count : Nat)

/-- The groups of a match. -/
def groups : List (Piece α) → List α → Option (List (List α))
  | [], text => if text = [] then some [] else none
  | .literal l :: pieces, text => if l <+: text then groups pieces (text.drop l.length) else none
  | .group accepts count :: pieces, text =>
    if count ≤ text.length ∧ (text.take count).all accepts then
      (groups pieces (text.drop count)).map (text.take count :: ·)
    else none

/-- A text of so many characters of a class. -/
def Filled (accepts : α → Bool) (count : Nat) (text : List α) : Prop :=
  text.length = count ∧ ∀ c ∈ text, accepts c = true

/-- The text is spelled by the pieces, with these groups. -/
def Spells : List (Piece α) → List (List α) → List α → Prop
  | [], [], text => text = []
  | .literal l :: pieces, found, text => ∃ rest, text = l ++ rest ∧ Spells pieces found rest
  | .group accepts count :: pieces, g :: found, text =>
    ∃ rest, text = g ++ rest ∧ Filled accepts count g ∧ Spells pieces found rest
  | _, _, _ => False

variable {pieces : List (Piece α)} {found : List (List α)} {text : List α} {accepts : α → Bool} {count : Nat}

/-- A pattern matches in one way at most. -/
theorem groups_eq_some : groups pieces text = some found ↔ Spells pieces found text := by
  induction pieces generalizing found text with
  | nil =>
    cases found with
    | nil => simp [groups, Spells]
    | cons g found => simp [groups, Spells]
  | cons piece pieces ih =>
    cases piece with
    | literal l =>
      rw [groups, Spells]
      constructor
      · intro h
        obtain ⟨hl, h⟩ := Option.ite_none_right_eq_some.mp h
        obtain ⟨rest, rfl⟩ := hl
        rw [List.drop_left] at h
        exact ⟨rest, rfl, ih.mp h⟩
      · rintro ⟨rest, rfl, h⟩
        rw [if_pos (List.prefix_append l rest), List.drop_left]
        exact ih.mpr h
    | group accepts count =>
      rw [groups]
      constructor
      · intro h
        obtain ⟨⟨hlen, hall⟩, h⟩ := Option.ite_none_right_eq_some.mp h
        obtain ⟨others, hrest, rfl⟩ := Option.map_eq_some_iff.mp h
        refine ⟨text.drop count, (List.take_append_drop count text).symm, ⟨?_, ?_⟩, ih.mp hrest⟩
        · exact List.length_take_of_le hlen
        · exact List.all_eq_true.mp hall
      · intro h
        cases found with
        | nil => exact h.elim
        | cons g found =>
          obtain ⟨rest, rfl, ⟨rfl, hall⟩, h⟩ := h
          rw [if_pos ⟨by simp, by simpa using hall⟩, List.take_left, List.drop_left, ih.mpr h]
          rfl

/-- `fullmatch` of one group. -/
theorem groups_single : (groups [.group accepts count] text).isSome = true ↔ Filled accepts count text := by
  constructor
  · intro h
    obtain ⟨found, hf⟩ := Option.isSome_iff_exists.mp h
    have hspells := groups_eq_some.mp hf
    cases found with
    | nil => exact hspells.elim
    | cons g found =>
      obtain ⟨rest, rfl, hg, hrest⟩ := hspells
      cases found with
      | nil =>
        obtain rfl : rest = [] := hrest
        simpa using hg
      | cons g' found => exact hrest.elim
  · intro h
    have hspells : Spells [.group accepts count] [text] text := ⟨[], (List.append_nil text).symm, h, rfl⟩
    rw [groups_eq_some.mpr hspells]
    rfl

end DataCopilot.Pattern
