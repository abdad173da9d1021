import Mathlib.Data.List.Infix

/-! The patterns of SQL's `LIKE`: `%` stands for any sequence, `_` for any one character, and the escape
character makes the next one literal. -/
namespace DataCopilot.Like

inductive Token where
  | any
  | one
  | lit (c : Char)
deriving DecidableEq, Repr

def token (c : Char) : Token :=
  if c = '%' then .any else if c = '_' then .one else .lit c

/-- A pattern that ends with the escape character is an error. -/
def parse (escape : Char) : List Char → Option (List Token)
  | [] => some []
  | [c] => if c = escape then none else some [token c]
  | c :: d :: rest =>
    if c = escape then (parse escape rest).map (.lit d :: ·)
    else (parse escape (d :: rest)).map (token c :: ·)

def fits : List Token → List Char → Bool
  | [], text => text.isEmpty
  | .any :: ts, text => text.tails.any (fits ts)
  | .one :: ts, text =>
    match text with
    | [] => false
    | _ :: rest => fits ts rest
  | .lit c :: ts, text =>
    match text with
    | [] => false
    | d :: rest => c = d && fits ts rest

/-- `text LIKE pattern ESCAPE escape`. -/
def like (escape : Char) (pattern text : List Char) : Option Bool :=
  (parse escape pattern).map (fits · text)

/-- The escape character before every character that means something else. -/
def quoted (escape c : Char) : List Char :=
  if c = escape ∨ c = '%' ∨ c = '_' then [escape, c] else [c]

variable {escape c : Char} {ts : List Token} {text keyword rest : List Char}

theorem parse_cons (h : c ≠ escape) :
    parse escape (c :: rest) = (parse escape rest).map (token c :: ·) := by
  cases rest with
  | nil => simp [parse, h]
  | cons d rest => rw [parse, if_neg h]

theorem parse_quoted : parse escape (quoted escape c ++ rest) = (parse escape rest).map (.lit c :: ·) := by
  by_cases h : c = escape ∨ c = '%' ∨ c = '_'
  · rw [quoted, if_pos h, List.cons_append, List.cons_append, List.nil_append, parse, if_pos rfl]
  · rw [quoted, if_neg h, List.cons_append, List.nil_append]
    push Not at h
    rw [parse_cons h.1, token, if_neg h.2.1, if_neg h.2.2]

theorem parse_flatMap_quoted : parse escape (keyword.flatMap (quoted escape) ++ rest) =
    (parse escape rest).map (keyword.map .lit ++ ·) := by
  induction keyword with
  | nil => simp
  | cons c keyword ih =>
    rw [List.flatMap_cons, List.append_assoc, parse_quoted, ih, Option.map_map]
    rfl

theorem fits_any : fits (.any :: ts) text = true ↔ ∃ before after, text = before ++ after ∧
    fits ts after = true := by
  rw [fits, List.any_eq_true]
  constructor
  · rintro ⟨after, hmem, hfits⟩
    obtain ⟨before, rfl⟩ := (List.mem_tails _ _).mp hmem
    exact ⟨before, after, rfl, hfits⟩
  · rintro ⟨before, after, rfl, hfits⟩
    exact ⟨after, (List.mem_tails _ _).mpr (List.suffix_append before after), hfits⟩

theorem fits_lits : fits (keyword.map .lit ++ ts) text = true ↔ ∃ after, text = keyword ++ after ∧
    fits ts after = true := by
  induction keyword generalizing text with
  | nil => simp
  | cons c keyword ih =>
    cases text with
    | nil => simp [fits]
    | cons d text =>
      simp only [List.map_cons, List.cons_append, fits, Bool.and_eq_true, decide_eq_true_eq, ih,
        List.cons.injEq]
      constructor
      · rintro ⟨rfl, after, rfl, hfits⟩
        exact ⟨after, ⟨rfl, rfl⟩, hfits⟩
      · rintro ⟨after, ⟨rfl, rfl⟩, hfits⟩
        exact ⟨rfl, after, rfl, hfits⟩

/-- Between two `%`, a quoted keyword is found wherever it stands. -/
theorem like_quoted (he : escape ≠ '%') :
    like escape ('%' :: keyword.flatMap (quoted escape) ++ ['%']) text =
      some (decide (keyword <:+: text)) := by
  have hlast : parse escape ['%'] = some [.any] := by rw [parse, if_neg he.symm]; rfl
  rw [like, List.cons_append, parse_cons he.symm, parse_flatMap_quoted, hlast]
  simp only [Option.map_some, Option.some.injEq]
  have hfits : fits (.any :: (keyword.map .lit ++ [.any])) text = true ↔ keyword <:+: text := by
    rw [fits_any]
    constructor
    · rintro ⟨before, after, rfl, hfits⟩
      obtain ⟨rest, rfl, -⟩ := fits_lits.mp hfits
      exact ⟨before, rest, by rw [List.append_assoc]⟩
    · rintro ⟨before, rest, rfl⟩
      refine ⟨before, keyword ++ rest, by rw [List.append_assoc], fits_lits.mpr ⟨rest, rfl, ?_⟩⟩
      exact fits_any.mpr ⟨rest, [], by simp, rfl⟩
  by_cases h : keyword <:+: text
  · rw [decide_eq_true h]
    exact hfits.mpr h
  · rw [decide_eq_false h]
    exact Bool.eq_false_iff.mpr fun hc => h (hfits.mp hc)

end DataCopilot.Like
