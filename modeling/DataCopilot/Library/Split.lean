import Mathlib.Data.List.Infix

/-! Blocks between boundaries, cut off a text that arrives in pieces. The blocks do not depend on
where the pieces end, and a first part of a sequence of blocks gives the first of them. -/
namespace DataCopilot.Split
variable {α : Type*} [DecidableEq α]

/-- What stands before and after the first boundary. -/
def first (sep : List α) : List α → Option (List α × List α)
  | [] => if sep = [] then some ([], []) else none
  | c :: text =>
    if sep <+: c :: text then some ([], (c :: text).drop sep.length)
    else (first sep text).map fun p => (c :: p.1, p.2)

/-- At most `n` blocks, and what is left. -/
def drain (sep : List α) : Nat → List α → List (List α) × List α
  | 0, text => ([], text)
  | n + 1, text =>
    match first sep text with
    | none => ([], text)
    | some (block, rest) => (block :: (drain sep n rest).1, (drain sep n rest).2)

def cut (sep text : List α) : List (List α) × List α := drain sep text.length text

/-- The boundary behind a block is the first one. -/
def Closed (sep block : List α) : Prop := first sep (block ++ sep) = some (block, [])

instance (sep block : List α) : Decidable (Closed sep block) := inferInstanceAs (Decidable (_ = _))

/-- Every block, with its boundary. -/
def join (sep : List α) (blocks : List (List α)) : List α := blocks.flatMap (· ++ sep)

variable {sep text block rest more : List α}

theorem eq_of_first (h : first sep text = some (block, rest)) : text = block ++ sep ++ rest := by
  induction text generalizing block with
  | nil =>
    rw [first] at h
    by_cases hs : sep = []
    · rw [if_pos hs] at h
      cases h
      rw [hs]
      rfl
    · rw [if_neg hs] at h
      cases h
  | cons c text ih =>
    rw [first] at h
    by_cases hp : sep <+: c :: text
    · rw [if_pos hp] at h
      cases h
      exact (List.prefix_iff_eq_append.mp hp).symm
    · rw [if_neg hp] at h
      obtain ⟨⟨b, r⟩, hf, hb⟩ := Option.map_eq_some_iff.mp h
      cases hb
      have ht := ih hf
      rw [List.cons_append, List.cons_append, ← ht]

theorem first_ne_none (before after : List α) : first sep (before ++ sep ++ after) ≠ none := by
  induction before with
  | nil =>
    rw [List.nil_append]
    have hp : sep <+: sep ++ after := List.prefix_append sep after
    cases h : sep ++ after with
    | nil =>
      rw [first, if_pos (List.append_eq_nil_iff.mp h).1]
      exact fun hn => by cases hn
    | cons c text =>
      rw [h] at hp
      rw [first, if_pos hp]
      exact fun hn => by cases hn
  | cons c before ih =>
    rw [List.cons_append, List.cons_append, first]
    by_cases hp : sep <+: c :: (before ++ sep ++ after)
    · rw [if_pos hp]
      exact fun hn => by cases hn
    · rw [if_neg hp]
      exact fun hn => ih (Option.map_eq_none_iff.mp hn)

/-- An element that is in no boundary ends none. -/
theorem first_snoc {c : α} (h : first sep text = none) (hc : c ∉ sep) :
    first sep (text ++ [c]) = none := by
  cases hf : first sep (text ++ [c]) with
  | none => rfl
  | some p =>
    have ht := eq_of_first hf
    obtain hr | ⟨more, last, hr⟩ := List.eq_nil_or_concat p.2
    · rw [hr, List.append_nil] at ht
      by_cases hs : sep = []
      · have hany := @first_ne_none _ _ sep text []
        rw [hs, List.append_nil, List.append_nil] at hany
        rw [hs] at h
        exact (hany h).elim
      · have hlast := congrArg List.getLast? ht
        rw [List.getLast?_concat, List.getLast?_append_of_ne_nil p.1 hs] at hlast
        exact (hc (List.mem_of_getLast? hlast.symm)).elim
    · rw [hr, List.concat_eq_append, ← List.append_assoc] at ht
      have htext := (List.append_inj' ht rfl).1
      exact (first_ne_none p.1 more (htext ▸ h)).elim

variable (hs : sep ≠ [])
include hs

/-- A boundary that has come stays the first one. -/
theorem first_append (h : first sep text = some (block, rest)) :
    first sep (text ++ more) = some (block, rest ++ more) := by
  induction text generalizing block with
  | nil =>
    rw [first, if_neg hs] at h
    cases h
  | cons c text ih =>
    rw [first] at h
    rw [List.cons_append, first]
    by_cases hp : sep <+: c :: text
    · rw [if_pos hp] at h
      cases h
      have hlen := hp.length_le
      have hlong : sep <+: c :: (text ++ more) := hp.trans (List.prefix_append (c :: text) more)
      rw [if_pos hlong, ← List.cons_append, List.drop_append_of_le_length hlen]
    · rw [if_neg hp] at h
      obtain ⟨⟨b, r⟩, hf, hb⟩ := Option.map_eq_some_iff.mp h
      cases hb
      have hlen : sep.length ≤ (c :: text).length := by
        have ht := congrArg List.length (eq_of_first hf)
        simp only [List.length_append] at ht
        simp only [List.length_cons]
        omega
      have hno : ¬ sep <+: c :: (text ++ more) := fun hlong =>
        hp (List.prefix_of_prefix_length_le hlong (List.prefix_append (c :: text) more) hlen)
      rw [if_neg hno, ih hf]
      rfl

theorem length_lt_of_first (h : first sep text = some (block, rest)) : rest.length < text.length := by
  have ht := congrArg List.length (eq_of_first h)
  have hpos := List.length_pos_iff.mpr hs
  simp only [List.length_append] at ht
  omega

theorem drain_stable {n m : Nat} (hn : text.length ≤ n) (hm : text.length ≤ m) :
    drain sep n text = drain sep m text := by
  induction n generalizing m text with
  | zero =>
    have ht := List.length_eq_zero_iff.mp (Nat.le_zero.mp hn)
    subst ht
    cases m with
    | zero => rfl
    | succ m => rw [drain, drain, first, if_neg hs]
  | succ n ih =>
    cases hf : first sep text with
    | none =>
      cases m with
      | zero => rw [drain, drain, hf]
      | succ m => rw [drain, drain, hf]
    | some p =>
      have hlt := length_lt_of_first hs hf
      cases m with
      | zero => omega
      | succ m =>
        have hrest := @ih p.2 m (by omega) (by omega)
        simp only [drain, hf, hrest]

omit hs in
theorem cut_of_none (h : first sep text = none) : cut sep text = ([], text) := by
  unfold cut
  cases text.length with
  | zero => rfl
  | succ n => rw [drain, h]

theorem cut_of_some (h : first sep text = some (block, rest)) :
    cut sep text = (block :: (cut sep rest).1, (cut sep rest).2) := by
  have hlt := length_lt_of_first hs h
  obtain ⟨n, hn⟩ : ∃ n, text.length = n + 1 := ⟨text.length - 1, by omega⟩
  have hrest : drain sep n rest = cut sep rest := drain_stable hs (by omega) (Nat.le_refl _)
  rw [← hrest, cut, hn, drain, h]

/-- More text is cut where the text before it left off. -/
theorem cut_append (text more : List α) : cut sep (text ++ more) =
    ((cut sep text).1 ++ (cut sep ((cut sep text).2 ++ more)).1,
      (cut sep ((cut sep text).2 ++ more)).2) := by
  induction h : text.length using Nat.strong_induction_on generalizing text with
  | _ n ih =>
    cases hf : first sep text with
    | none =>
      rw [cut_of_none hf]
      rfl
    | some p =>
      obtain ⟨block, rest⟩ := p
      have hlt := length_lt_of_first hs hf
      rw [cut_of_some hs hf, cut_of_some hs (first_append hs hf), ih rest.length (by omega) rest rfl]
      rfl

/-- What is left holds no boundary. -/
theorem first_rest (text : List α) : first sep (cut sep text).2 = none := by
  induction h : text.length using Nat.strong_induction_on generalizing text with
  | _ n ih =>
    cases hf : first sep text with
    | none =>
      rw [cut_of_none hf]
      exact hf
    | some p =>
      obtain ⟨block, rest⟩ := p
      have hlt := length_lt_of_first hs hf
      rw [cut_of_some hs hf]
      exact ih rest.length (by omega) rest rfl

theorem cut_closed (h : Closed sep block) :
    cut sep (block ++ sep ++ more) = (block :: (cut sep more).1, (cut sep more).2) := by
  have hf := @first_append _ _ sep (block ++ sep) block [] more hs h
  exact cut_of_some hs hf

/-- Less than a block and its boundary holds no boundary. -/
theorem first_short (h : Closed sep block) (hp : text <+: block ++ sep)
    (hlt : text.length < (block ++ sep).length) : first sep text = none := by
  cases hf : first sep text with
  | none => rfl
  | some p =>
    obtain ⟨more, hmore⟩ := hp
    have hall := @first_append _ _ sep text p.1 p.2 more hs hf
    rw [hmore, h] at hall
    cases hmore' : more with
    | nil =>
      rw [← hmore, hmore', List.append_nil] at hlt
      omega
    | cons c more =>
      rw [hmore'] at hall
      simp at hall

theorem prefix_cut {blocks : List (List α)} (h : ∀ block ∈ blocks, Closed sep block)
    (hp : text <+: join sep blocks) : (cut sep text).1 <+: blocks := by
  induction blocks generalizing text with
  | nil =>
    rw [List.prefix_nil.mp hp]
    exact List.prefix_refl _
  | cons block blocks ih =>
    have hclosed := h block List.mem_cons_self
    rw [join, List.flatMap_cons, ← join] at hp
    by_cases hlt : text.length < (block ++ sep).length
    · have hshort := List.prefix_of_prefix_length_le hp (List.prefix_append _ _) (Nat.le_of_lt hlt)
      rw [cut_of_none (first_short hs hclosed hshort hlt)]
      exact List.nil_prefix
    · have hlong := List.prefix_of_prefix_length_le (List.prefix_append _ _) hp (Nat.le_of_not_lt hlt)
      obtain ⟨more, rfl⟩ := hlong
      have hmore := ih (fun b hb => h b (List.mem_cons_of_mem _ hb))
        ((List.prefix_append_right_inj _).mp hp)
      rw [cut_closed hs hclosed]
      exact List.cons_prefix_cons.mpr ⟨rfl, hmore⟩

end DataCopilot.Split
