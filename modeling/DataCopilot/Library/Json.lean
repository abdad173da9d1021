import Mathlib.Algebra.GroupWithZero.Nat
import Mathlib.Data.List.Basic

/-! JSON values, written out as `json.dumps` does it. A number is kept as its literal. -/
namespace DataCopilot

inductive Json where
  | null
  | bool (b : Bool)
  | number (literal : String)
  | string (s : String)
  | array (items : List Json)
  | object (fields : List (String × Json))

namespace Json

def hexDigit (n : Nat) : Char := Char.ofNat (if n < 10 then 48 + n else 87 + n)

def unicodeEscape (n : Nat) : List Char :=
  [Char.ofNat 92, 'u', hexDigit (n / 4096 % 16), hexDigit (n / 256 % 16), hexDigit (n / 16 % 16),
    hexDigit (n % 16)]

/-- With `ascii` every character outside the printable ASCII range is escaped, the ones
above the basic plane as a surrogate pair. -/
def escape (ascii : Bool) (c : Char) : List Char :=
  match c.toNat with
  | 34 => [Char.ofNat 92, Char.ofNat 34]
  | 92 => [Char.ofNat 92, Char.ofNat 92]
  | 8 => [Char.ofNat 92, 'b']
  | 9 => [Char.ofNat 92, 't']
  | 10 => [Char.ofNat 92, 'n']
  | 12 => [Char.ofNat 92, 'f']
  | 13 => [Char.ofNat 92, 'r']
  | n =>
    if n < 32 ∨ (ascii = true ∧ 126 < n) then
      if n < 65536 then unicodeEscape n
      else unicodeEscape (55296 + (n - 65536) / 1024) ++ unicodeEscape (56320 + (n - 65536) % 1024)
    else [c]

def quote (ascii : Bool) (s : String) : List Char :=
  Char.ofNat 34 :: s.toList.flatMap (escape ascii) ++ [Char.ofNat 34]

/-- How `json.dumps` was asked to write: which characters it escapes, and its separators. -/
structure Style where
  ascii : Bool
  item : List Char
  key : List Char

mutual

def render (style : Style) : Json → List Char
  | .null => "null".toList
  | .bool true => "true".toList
  | .bool false => "false".toList
  | .number literal => literal.toList
  | .string s => quote style.ascii s
  | .array items => '[' :: renderItems style items ++ [']']
  | .object fields => Char.ofNat 123 :: renderFields style fields ++ [Char.ofNat 125]

def renderItems (style : Style) : List Json → List Char
  | [] => []
  | [j] => render style j
  | j :: rest => render style j ++ style.item ++ renderItems style rest

def renderFields (style : Style) : List (String × Json) → List Char
  | [] => []
  | [(k, j)] => quote style.ascii k ++ style.key ++ render style j
  | (k, j) :: rest =>
    quote style.ascii k ++ style.key ++ render style j ++ style.item ++ renderFields style rest

end

theorem renderItems_cons (style : Style) (j : Json) {rest : List Json} (h : rest ≠ []) :
    renderItems style (j :: rest) = render style j ++ style.item ++ renderItems style rest := by
  cases rest with
  | nil => exact absurd rfl h
  | cons k rest =>
    rw [renderItems]
    exact fun hn => by cases hn

/-- A last item stands behind a separator, if it is not the only one. -/
theorem renderItems_snoc (style : Style) (items : List Json) (j : Json) :
    renderItems style (items ++ [j]) =
      renderItems style items ++ (if items = [] then [] else style.item) ++ render style j := by
  induction items with
  | nil => rw [List.nil_append, renderItems, renderItems, if_pos rfl, List.nil_append, List.nil_append]
  | cons i rest ih =>
    rw [List.cons_append, renderItems_cons style i (by simp), ih, if_neg (List.cons_ne_nil i rest)]
    by_cases hr : rest = []
    · rw [hr, if_pos rfl, renderItems, renderItems, List.append_nil, List.nil_append]
    · rw [if_neg hr, renderItems_cons style i hr]
      simp only [List.append_assoc]

/-- An item is written inside its array as it is on its own. -/
theorem render_infix_items {style : Style} {items : List Json} {j : Json} (h : j ∈ items) :
    render style j <:+: renderItems style items := by
  induction items with
  | nil => cases h
  | cons i rest ih =>
    by_cases hr : rest = []
    · rw [hr] at h ⊢
      rw [List.mem_singleton.mp h]
      simp only [renderItems]
      exact List.infix_rfl
    · rw [renderItems_cons style i hr, List.append_assoc]
      cases List.mem_cons.mp h with
      | inl hj =>
        rw [hj]
        exact (List.prefix_append _ _).isInfix
      | inr hj =>
        rw [← List.append_assoc]
        exact (ih hj).trans (List.suffix_append _ _).isInfix

theorem renderFields_cons (style : Style) (k : String) (j : Json) {rest : List (String × Json)}
    (h : rest ≠ []) : renderFields style ((k, j) :: rest) =
      quote style.ascii k ++ style.key ++ render style j ++ style.item ++ renderFields style rest := by
  cases rest with
  | nil => exact absurd rfl h
  | cons f rest =>
    rw [renderFields]
    exact fun hn => by cases hn

theorem field_infix_fields {style : Style} {fields : List (String × Json)} {k : String} {j : Json}
    (h : (k, j) ∈ fields) : quote style.ascii k ++ style.key ++ render style j <:+: renderFields style fields := by
  induction fields with
  | nil => cases h
  | cons f rest ih =>
    obtain ⟨k', j'⟩ := f
    by_cases hr : rest = []
    · rw [hr] at h ⊢
      cases List.mem_singleton.mp h
      simp only [renderFields]
      exact List.infix_rfl
    · rw [renderFields_cons style k' j' hr]
      cases List.mem_cons.mp h with
      | inl hj =>
        cases hj
        rw [List.append_assoc _ style.item]
        exact (List.prefix_append _ _).isInfix
      | inr hj => exact (ih hj).trans (List.suffix_append _ _).isInfix

theorem render_infix_array {style : Style} {items : List Json} {j : Json} (h : j ∈ items) :
    render style j <:+: render style (.array items) := by
  rw [render]
  exact (render_infix_items h).trans ⟨['['], [']'], rfl⟩

theorem field_infix_object {style : Style} {fields : List (String × Json)} {k : String} {j : Json}
    (h : (k, j) ∈ fields) : quote style.ascii k ++ style.key ++ render style j <:+: render style (.object fields) := by
  rw [render]
  exact (field_infix_fields h).trans ⟨[Char.ofNat 123], [Char.ofNat 125], rfl⟩

theorem value_infix_object {style : Style} {fields : List (String × Json)} {k : String} {j : Json}
    (h : (k, j) ∈ fields) : render style j <:+: render style (.object fields) :=
  (List.suffix_append _ _).isInfix.trans (field_infix_object h)

/-- `json.dumps(value)`. -/
def dumps (j : Json) : String := String.ofList (render ⟨true, [',', ' '], [':', ' ']⟩ j)

/-- `json.dumps(value, ensure_ascii=False, separators=(",", ":"))`. -/
def dumpsCompact (j : Json) : String := String.ofList (render ⟨false, [','], [':']⟩ j)

@[simp] theorem dumps_length (j : Json) :
    j.dumps.length = (render ⟨true, [',', ' '], [':', ' ']⟩ j).length := String.length_ofList

@[simp] theorem dumpsCompact_length (j : Json) :
    j.dumpsCompact.length = (render ⟨false, [','], [':']⟩ j).length := String.length_ofList

/-- How many characters stand for a character in a JSON string. -/
def escapedWidth (ascii : Bool) (c : Char) : Nat :=
  if c.toNat ∈ [34, 92, 8, 9, 10, 12, 13] then 2
  else if c.toNat < 32 ∨ (ascii = true ∧ 126 < c.toNat) then (if c.toNat < 65536 then 6 else 12)
  else 1

theorem escape_length (ascii : Bool) (c : Char) : (escape ascii c).length = escapedWidth ascii c := by
  rw [escape, escapedWidth]
  split
  any_goals (rename_i h; rw [h]; rfl)
  rename_i h1 h2 h3 h4 h5 h6 h7
  have hc : c.toNat ∉ [34, 92, 8, 9, 10, 12, 13] := by
    simp only [List.mem_cons, List.not_mem_nil, or_false, not_or]
    exact ⟨h1, h2, h3, h4, h5, h6, h7⟩
  rw [if_neg hc]
  by_cases hb : c.toNat < 32 ∨ (ascii = true ∧ 126 < c.toNat)
  · rw [if_pos hb, if_pos hb]
    by_cases hbmp : c.toNat < 65536
    · rw [if_pos hbmp, if_pos hbmp]
      rfl
    · rw [if_neg hbmp, if_neg hbmp]
      rfl
  · rw [if_neg hb, if_neg hb]
    rfl

def width (ascii : Bool) (s : String) : Nat := (s.toList.map (escapedWidth ascii)).sum

theorem quote_length (ascii : Bool) (s : String) : (quote ascii s).length = width ascii s + 2 := by
  rw [quote, List.length_append, List.length_cons, List.length_flatMap, width]
  simp only [escape_length]
  rfl

/-- No character of the text is escaped where only quotes, backslashes and control characters are. -/
def Plain (s : String) : Prop := ∀ c ∈ s.toList, 32 ≤ c.toNat ∧ c.toNat ≠ 34 ∧ c.toNat ≠ 92

instance (s : String) : Decidable (Plain s) := List.decidableBAll _ _

theorem quote_plain {s : String} (h : Plain s) :
    quote false s = Char.ofNat 34 :: s.toList ++ [Char.ofNat 34] := by
  have hself : ∀ c ∈ s.toList, escape false c = [c] := by
    intro c hc
    have hc := h c hc
    rw [escape]
    split
    any_goals omega
    rw [if_neg (by simp; omega)]
  rw [quote, List.flatMap_congr hself, List.flatMap_singleton']

theorem width_plain {s : String} (h : Plain s) : width false s = s.length := by
  have hw : ∀ c ∈ s.toList, escapedWidth false c = 1 := by
    intro c hc
    have hc := h c hc
    rw [escapedWidth, if_neg (by simp; omega), if_neg (by simp; omega)]
  rw [width, List.map_congr_left hw, ← String.length_toList]
  induction s.toList with
  | nil => rfl
  | cons c rest ih =>
    rw [List.map_cons, List.sum_cons, ih, List.length_cons]
    omega

example : (dumps (.object [("a", .array [.null, .string "é\n"])])).toList =
    [Char.ofNat 123, Char.ofNat 34, 'a', Char.ofNat 34, ':', ' ', '[', 'n', 'u', 'l', 'l', ',', ' ',
      Char.ofNat 34, Char.ofNat 92, 'u', '0', '0', 'e', '9', Char.ofNat 92, 'n', Char.ofNat 34, ']',
      Char.ofNat 125] := by
  simp only [dumps, String.toList_ofList]
  decide

end Json
end DataCopilot
