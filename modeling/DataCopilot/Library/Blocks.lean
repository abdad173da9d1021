import Mathlib.Data.List.Basic
import Mathlib.Data.List.Induction

/-! Lines collected into blocks that a closing line ends. Where fewer lines close a block, blocks run
together; the values that come out are the same exactly if no two blocks with values do, and none
is left open at the end. -/
namespace DataCopilot.Blocks
variable {α β : Type} (values : α → List β)

/-- The values of each block that is closed, with those held from the lines before. -/
def blocks (closes : α → Bool) (held : List β) : List α → List (List β)
  | [] => []
  | line :: rest =>
    if closes line then held :: blocks closes [] rest else blocks closes (held ++ values line) rest

/-- The values held behind the lines. -/
def unclosed (closes : α → Bool) (held : List β) (lines : List α) : List β :=
  lines.foldl (fun held line => if closes line then [] else held ++ values line) held

/-- The blocks that have values. -/
def shown (l : List (List β)) : List (List β) := l.filter fun block => !block.isEmpty

/-- Of the lines that close a block by `blank` some do by `whole`. Behind a block with values that
was closed by `blank` alone (`pending`), a line that is whole comes before the next value and before
the end; `open_` says that the block at hand has values. -/
def Separated (whole blank : α → Bool) (pending open_ : Bool) : List α → Prop
  | [] => pending = false
  | line :: rest =>
    if whole line then Separated whole blank false false rest
    else if blank line then Separated whole blank (pending || open_) false rest
    else if (values line).isEmpty then Separated whole blank pending open_ rest
    else pending = false ∧ Separated whole blank false true rest

instance decidableSeparated (whole blank : α → Bool) : ∀ (pending open_ : Bool) (lines : List α),
    Decidable (Separated values whole blank pending open_ lines)
  | pending, _, [] => inferInstanceAs (Decidable (pending = false))
  | pending, open_, line :: rest => by
    have h1 := decidableSeparated whole blank false false rest
    have h2 := decidableSeparated whole blank (pending || open_) false rest
    have h3 := decidableSeparated whole blank pending open_ rest
    have h4 := decidableSeparated whole blank false true rest
    unfold Separated
    infer_instance

@[simp] theorem shown_nil : shown ([] : List (List β)) = [] := rfl

theorem shown_cons (block : List β) (l : List (List β)) :
    shown (block :: l) = if block = [] then shown l else block :: shown l := by
  cases block with
  | nil => rfl
  | cons b rest => rfl

theorem length_shown_cons (block : List β) (l : List (List β)) :
    (shown (block :: l)).length = (if block = [] then 0 else 1) + (shown l).length := by
  rw [shown_cons]
  by_cases h : block = []
  · rw [if_pos h, if_pos h, Nat.zero_add]
  · rw [if_neg h, if_neg h, List.length_cons, Nat.add_comm]

/-- Two blocks in one are shown as at most two. -/
theorem length_append_le (a b : List β) :
    (if a ++ b = [] then 0 else 1) ≤ (if a = [] then 0 else 1) + if b = [] then 0 else 1 := by
  cases a with
  | nil => simp
  | cons x rest => simp

theorem shown_append (l r : List (List β)) : shown (l ++ r) = shown l ++ shown r := List.filter_append ..

variable {values} {whole blank : α → Bool}

theorem blocks_map {γ : Type} (f : γ → α) (closes : α → Bool) (held : List β) (lines : List γ) :
    blocks values closes held (lines.map f) = blocks (values ∘ f) (closes ∘ f) held lines := by
  induction lines generalizing held with
  | nil => rfl
  | cons line rest ih =>
    rw [List.map_cons, blocks, blocks, ih, ih]
    rfl

theorem unclosed_concat (closes : α → Bool) (held : List β) (lines : List α) (line : α) :
    unclosed values closes held (lines ++ [line]) =
      if closes line then [] else unclosed values closes held lines ++ values line := by
  rw [unclosed, List.foldl_append]
  rfl

/-- What a line adds at the end. -/
theorem blocks_concat (closes : α → Bool) (held : List β) (lines : List α) (line : α) :
    blocks values closes held (lines ++ [line]) = blocks values closes held lines ++
      if closes line then [unclosed values closes held lines] else [] := by
  induction lines generalizing held with
  | nil =>
    rw [List.nil_append, blocks, blocks, blocks]
    by_cases h : closes line
    · rw [if_pos h, if_pos h]
      rfl
    · rw [if_neg h, if_neg h]
      rfl
  | cons first rest ih =>
    rw [List.cons_append, blocks, blocks, unclosed, List.foldl_cons]
    by_cases h : closes first
    · rw [if_pos h, if_pos h, if_pos h, ih, List.cons_append]
      rfl
    · rw [if_neg h, if_neg h, if_neg h, ih]
      rfl

theorem blocks_append (closes : α → Bool) (held : List β) (lines more : List α) :
    blocks values closes held lines <+: blocks values closes held (lines ++ more) := by
  induction more using List.reverseRecOn with
  | nil => exact ⟨[], by rw [List.append_nil, List.append_nil]⟩
  | append_singleton more line ih =>
    rw [← List.append_assoc, blocks_concat]
    exact ih.trans (List.prefix_append _ _)

section Compare
variable (hwhole : ∀ line, whole line = true → blank line = true)
variable (hblank : ∀ line, blank line = true → values line = [])
include hwhole hblank

/-- Here `hidden` are the values of blocks closed by `blank` alone, and `held` those of the block at
hand. -/
theorem shown_of_separated (lines : List α) : ∀ hidden held : List β, (hidden = [] ∨ held = []) →
    Separated values whole blank (!hidden.isEmpty) (!held.isEmpty) lines →
    shown (blocks values whole (hidden ++ held) lines) = shown (hidden :: blocks values blank held lines) := by
  induction lines with
  | nil =>
    intro hidden held _ hsep
    cases hidden with
    | nil => rfl
    | cons b rest => cases hsep
  | cons line rest ih =>
    intro hidden held hor hsep
    rw [Separated] at hsep
    rw [blocks, blocks]
    by_cases hw : whole line
    · rw [if_pos hw] at hsep
      rw [if_pos hw, if_pos (hwhole line hw)]
      have hrest := ih [] [] (Or.inl rfl) hsep
      rw [List.nil_append, shown_cons, if_pos rfl] at hrest
      cases hor with
      | inl h => rw [h, List.nil_append, shown_cons [], if_pos rfl, shown_cons, shown_cons, hrest]
      | inr h => rw [h, List.append_nil, shown_cons, shown_cons, shown_cons [], if_pos rfl, hrest]
    · rw [if_neg hw] at hsep ⊢
      by_cases hb : blank line
      · rw [if_pos hb] at hsep ⊢
        rw [hblank line hb, List.append_nil]
        cases hor with
        | inl h =>
          rw [h] at hsep ⊢
          have hrest := ih held [] (Or.inr rfl) hsep
          rw [List.append_nil] at hrest
          rw [List.nil_append, hrest, shown_cons [], if_pos rfl]
        | inr h =>
          rw [h] at hsep ⊢
          have hflag : (!hidden.isEmpty || !([] : List β).isEmpty) = !hidden.isEmpty := by simp
          rw [hflag] at hsep
          have hrest := ih hidden [] (Or.inr rfl) hsep
          rw [hrest, shown_cons, shown_cons hidden, shown_cons [], if_pos rfl]
      · rw [if_neg hb] at hsep ⊢
        by_cases hv : (values line).isEmpty
        · rw [if_pos hv] at hsep
          have hnil := List.isEmpty_iff.mp hv
          rw [hnil, List.append_nil, List.append_nil]
          exact ih hidden held hor hsep
        · rw [if_neg hv] at hsep
          have hhidden : hidden = [] := by simpa using hsep.1
          have hflag : (!(held ++ values line).isEmpty) = true := by
            have hne : values line ≠ [] := fun hnil => hv (List.isEmpty_iff.mpr hnil)
            simp [hne]
          rw [hhidden, List.nil_append]
          apply ih [] (held ++ values line) (Or.inl rfl)
          rw [hflag]
          exact hsep.2

/-- Fewer closing lines show no more blocks. -/
theorem length_shown_le (lines : List α) : ∀ hidden held : List β,
    (shown (blocks values whole (hidden ++ held) lines)).length ≤
      (shown (hidden :: blocks values blank held lines)).length := by
  induction lines with
  | nil =>
    intro hidden held
    exact Nat.zero_le _
  | cons line rest ih =>
    intro hidden held
    rw [blocks, blocks]
    by_cases hw : whole line
    · rw [if_pos hw, if_pos (hwhole line hw)]
      have hrest := ih [] []
      have happend := length_append_le hidden held
      rw [List.nil_append, length_shown_cons, if_pos rfl] at hrest
      rw [length_shown_cons, length_shown_cons, length_shown_cons]
      omega
    · rw [if_neg hw]
      by_cases hb : blank line
      · rw [if_pos hb, hblank line hb, List.append_nil]
        have hrest := ih (hidden ++ held) []
        have happend := length_append_le hidden held
        rw [List.append_nil, length_shown_cons] at hrest
        rw [length_shown_cons, length_shown_cons]
        omega
      · rw [if_neg hb, List.append_assoc]
        exact ih hidden (held ++ values line)

/-- The values held are shown together with the hidden ones. -/
theorem length_shown_held (lines : List α) : ∀ hidden held : List β, held ≠ [] →
    (shown (blocks values whole (hidden ++ held) lines)).length ≤
      (shown (blocks values blank held lines)).length := by
  induction lines with
  | nil =>
    intro hidden held _
    exact Nat.zero_le _
  | cons line rest ih =>
    intro hidden held hheld
    have hboth : hidden ++ held ≠ [] := List.append_ne_nil_of_right_ne_nil hidden hheld
    rw [blocks, blocks]
    by_cases hw : whole line
    · rw [if_pos hw, if_pos (hwhole line hw)]
      have hrest := length_shown_le hwhole hblank rest [] []
      rw [List.nil_append, length_shown_cons, if_pos rfl] at hrest
      rw [length_shown_cons, length_shown_cons, if_neg hboth, if_neg hheld]
      omega
    · rw [if_neg hw]
      by_cases hb : blank line
      · rw [if_pos hb, hblank line hb, List.append_nil]
        have hrest := length_shown_le hwhole hblank rest (hidden ++ held) []
        rw [List.append_nil, length_shown_cons, if_neg hboth] at hrest
        rw [length_shown_cons, if_neg hheld]
        exact hrest
      · rw [if_neg hb, List.append_assoc]
        exact ih hidden (held ++ values line) (List.append_ne_nil_of_left_ne_nil hheld _)

/-- Where two blocks with values run together, or one stays open, fewer blocks are shown. -/
theorem length_shown_lt (lines : List α) : ∀ hidden held : List β,
    ¬ Separated values whole blank (!hidden.isEmpty) (!held.isEmpty) lines →
    (shown (blocks values whole (hidden ++ held) lines)).length <
      (shown (hidden :: blocks values blank held lines)).length := by
  induction lines with
  | nil =>
    intro hidden held hsep
    cases hidden with
    | nil => exact absurd rfl hsep
    | cons b rest => exact Nat.zero_lt_succ _
  | cons line rest ih =>
    intro hidden held hsep
    rw [Separated] at hsep
    rw [blocks, blocks]
    by_cases hw : whole line
    · rw [if_pos hw] at hsep
      rw [if_pos hw, if_pos (hwhole line hw)]
      have hrest := ih [] [] hsep
      have happend := length_append_le hidden held
      rw [List.nil_append, length_shown_cons [], if_pos rfl] at hrest
      rw [length_shown_cons, length_shown_cons, length_shown_cons]
      omega
    · rw [if_neg hw] at hsep ⊢
      by_cases hb : blank line
      · rw [if_pos hb] at hsep ⊢
        rw [hblank line hb, List.append_nil]
        have hflag : (!hidden.isEmpty || !held.isEmpty) = !(hidden ++ held).isEmpty := by
          cases hidden with
          | nil => rfl
          | cons b rest => rfl
        rw [hflag] at hsep
        have hrest := ih (hidden ++ held) [] hsep
        have happend := length_append_le hidden held
        rw [List.append_nil, length_shown_cons] at hrest
        rw [length_shown_cons, length_shown_cons]
        omega
      · rw [if_neg hb] at hsep ⊢
        rw [List.append_assoc]
        by_cases hv : (values line).isEmpty
        · rw [if_pos hv] at hsep
          rw [List.isEmpty_iff.mp hv, List.append_nil]
          exact ih hidden held hsep
        · rw [if_neg hv] at hsep
          have hne : held ++ values line ≠ [] :=
            List.append_ne_nil_of_right_ne_nil held fun hnil => hv (List.isEmpty_iff.mpr hnil)
          by_cases hh : hidden = []
          · rw [hh]
            apply ih [] (held ++ values line)
            intro hrest
            apply hsep
            have hflag : (!(held ++ values line).isEmpty) = true := by simp [hne]
            rw [hflag] at hrest
            exact ⟨by rw [hh]; rfl, hrest⟩
          · have hrest := length_shown_held hwhole hblank rest hidden (held ++ values line) hne
            rw [length_shown_cons, if_neg hh]
            omega

end Compare
end DataCopilot.Blocks
