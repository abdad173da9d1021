import DataCopilot.Library.Json
import DataCopilot.Library.Numerals
import Mathlib.Data.List.Sort

/-! What `json.dumps` has written can be read in one way only: the text of a value, with more
text behind it, determines the value and that text. -/
namespace DataCopilot.Json

/-- A value is what its parts are; the parts of an array are its items, of an object its fields. -/
@[elab_as_elim]
theorem induction {P : Json → Prop} (null : P .null) (bool : ∀ b, P (.bool b))
    (number : ∀ literal, P (.number literal)) (string : ∀ s, P (.string s))
    (array : ∀ items, (∀ j ∈ items, P j) → P (.array items))
    (object : ∀ fields, (∀ f ∈ fields, P f.2) → P (.object fields)) (j : Json) : P j :=
  @Json.rec P (fun items => ∀ i ∈ items, P i) (fun fields => ∀ f ∈ fields, P f.2) (fun f => P f.2)
    null bool number string array object (fun _ hi => absurd hi List.not_mem_nil)
    (fun _ _ hhead htail => List.forall_mem_cons.mpr ⟨hhead, htail⟩)
    (fun _ hf => absurd hf List.not_mem_nil)
    (fun _ _ hhead htail => List.forall_mem_cons.mpr ⟨hhead, htail⟩) (fun _ _ h => h) j

/-- The characters of a number. -/
def numeral (c : Char) : Bool := c.isDigit || ['-', '+', '.', 'e', 'E'].contains c

/-- The literals are those of finite numbers. -/
inductive WellFormed : Json → Prop where
  | null : WellFormed .null
  | bool (b : Bool) : WellFormed (.bool b)
  | number {literal : String} (hne : literal ≠ "") (hall : ∀ c ∈ literal.toList, numeral c = true) :
      WellFormed (.number literal)
  | string (s : String) : WellFormed (.string s)
  | array {items : List Json} (h : ∀ j ∈ items, WellFormed j) : WellFormed (.array items)
  | object {fields : List (String × Json)} (h : ∀ f ∈ fields, WellFormed f.2) : WellFormed (.object fields)

theorem wellFormed_nat (n : Nat) : WellFormed (.number (toString n)) := by
  apply WellFormed.number
  · intro h
    have hl : (toString n).toList = [] := by rw [h]; rfl
    rw [Text.toList_toString] at hl
    exact Nat.toDigits_ne_nil hl
  · intro c hc
    rw [numeral, Text.isDigit_of_mem_toString hc, Bool.true_or]

theorem wellFormed_int (n : Int) : WellFormed (.number (toString n)) := by
  cases n with
  | ofNat n =>
    have h := wellFormed_nat n
    have he : toString (Int.ofNat n) = toString n := rfl
    rw [he]
    exact h
  | negSucc n =>
    have hl := Numerals.toList_negSucc n
    apply WellFormed.number
    · intro h
      rw [h] at hl
      cases hl
    · intro c hc
      rw [hl] at hc
      cases List.mem_cons.mp hc with
      | inl hm =>
        rw [hm]
        rfl
      | inr hd => rw [numeral, Nat.isDigit_of_mem_toDigits (by decide) (by decide) hd, Bool.true_or]

section Escapes
variable {ascii : Bool} {c d : Char} {r t : List Char}

/-- The letter behind the backslash of a short escape. -/
def letter : Nat → Option Char
  | 34 => some (Char.ofNat 34)
  | 92 => some (Char.ofNat 92)
  | 8 => some 'b'
  | 9 => some 't'
  | 10 => some 'n'
  | 12 => some 'f'
  | 13 => some 'r'
  | _ => none

theorem letter_inj {m n : Nat} {l : Char} (hm : letter m = some l) (hn : letter n = some l) : m = n := by
  unfold letter at hm hn
  split at hm <;> split at hn <;>
    first | rfl | exact absurd (hm.trans hn.symm) (by decide) | cases hm

theorem letter_ne {n : Nat} {l : Char} (h : letter n = some l) : l ≠ 'u' := by
  rintro rfl
  unfold letter at h
  split at h <;> exact absurd h (by decide)

/-- The ways in which a character is written. -/
inductive Written (ascii : Bool) (c : Char) : List Char → Prop where
  | short {l : Char} (h : letter c.toNat = some l) : Written ascii c [Char.ofNat 92, l]
  | unit (hlong : letter c.toNat = none) (h : c.toNat < 65536) : Written ascii c (unicodeEscape c.toNat)
  | pair (h : 65536 ≤ c.toNat) : Written ascii c (unicodeEscape (55296 + (c.toNat - 65536) / 1024) ++
      unicodeEscape (56320 + (c.toNat - 65536) % 1024))
  | self (hlong : letter c.toNat = none) : Written ascii c [c]

theorem escape_written (ascii : Bool) (c : Char) : Written ascii c (escape ascii c) := by
  rw [escape]
  split
  any_goals (rename_i h; exact .short (by rw [h]; rfl))
  rename_i h1 h2 h3 h4 h5 h6 h7
  have hlong : letter c.toNat = none := by
    unfold letter
    split <;> simp_all
  by_cases hb : c.toNat < 32 ∨ (ascii = true ∧ 126 < c.toNat)
  · rw [if_pos hb]
    by_cases hbmp : c.toNat < 65536
    · rw [if_pos hbmp]
      exact .unit hlong hbmp
    · rw [if_neg hbmp]
      exact .pair (by omega)
  · rw [if_neg hb]
    exact .self hlong

theorem hexDigit_inj {m n : Nat} (hm : m < 16) (hn : n < 16) (h : hexDigit m = hexDigit n) : m = n := by
  have hall : ∀ a < 16, ∀ b < 16, hexDigit a = hexDigit b → a = b := by decide
  exact hall m hm n hn h

theorem unicodeEscape_cancel {m n : Nat} (hm : m < 65536) (hn : n < 65536)
    (h : unicodeEscape m ++ r = unicodeEscape n ++ t) : m = n ∧ r = t := by
  simp only [unicodeEscape, List.cons_append, List.nil_append, List.cons.injEq, true_and] at h
  obtain ⟨h3, h2, h1, h0, hr⟩ := h
  have h3 := hexDigit_inj (Nat.mod_lt _ (by decide)) (Nat.mod_lt _ (by decide)) h3
  have h2 := hexDigit_inj (Nat.mod_lt _ (by decide)) (Nat.mod_lt _ (by decide)) h2
  have h1 := hexDigit_inj (Nat.mod_lt _ (by decide)) (Nat.mod_lt _ (by decide)) h1
  have h0 := hexDigit_inj (Nat.mod_lt _ (by decide)) (Nat.mod_lt _ (by decide)) h0
  exact ⟨by omega, hr⟩

theorem toNat_inj (h : c.toNat = d.toNat) : c = d := Char.ext (UInt32.toNat_inj.mp h)

/-- No character is a surrogate. -/
theorem surrogate_free (c : Char) : c.toNat < 55296 ∨ 57343 < c.toNat ∧ c.toNat < 1114112 := c.valid

theorem escape_cancel (h : escape ascii c ++ r = escape ascii d ++ t) : c = d ∧ r = t := by
  have hc := escape_written ascii c
  have hd := escape_written ascii d
  have hback : letter (Char.ofNat 92).toNat = some (Char.ofNat 92) := rfl
  have hvalid := surrogate_free c
  have hvalid' := surrogate_free d
  generalize escape ascii c = u at hc h
  generalize escape ascii d = v at hd h
  cases hc with
  | short hl =>
    cases hd with
    | short hl' =>
      simp only [List.cons_append, List.nil_append, List.cons.injEq, true_and] at h
      rw [← h.1] at hl'
      exact ⟨toNat_inj (letter_inj hl hl'), h.2⟩
    | unit hlong hlt =>
      simp only [unicodeEscape, List.cons_append, List.nil_append, List.cons.injEq, true_and] at h
      exact absurd h.1 (letter_ne hl)
    | pair hlt =>
      simp only [unicodeEscape, List.cons_append, List.nil_append, List.cons.injEq, true_and] at h
      exact absurd h.1 (letter_ne hl)
    | self hlong =>
      simp only [List.cons_append, List.nil_append, List.cons.injEq] at h
      rw [← h.1, hback] at hlong
      cases hlong
  | unit hlong hlt =>
    cases hd with
    | short hl' =>
      simp only [unicodeEscape, List.cons_append, List.nil_append, List.cons.injEq, true_and] at h
      exact absurd h.1.symm (letter_ne hl')
    | unit hlong' hlt' =>
      obtain ⟨hn, hr⟩ := unicodeEscape_cancel hlt hlt' h
      exact ⟨toNat_inj hn, hr⟩
    | pair hle =>
      -- the first half of a pair is a surrogate
      rw [List.append_assoc] at h
      have hn := (unicodeEscape_cancel hlt (by omega) h).1
      omega
    | self hlong' =>
      simp only [unicodeEscape, List.cons_append, List.nil_append, List.cons.injEq] at h
      rw [← h.1, hback] at hlong'
      cases hlong'
  | pair hle =>
    rw [List.append_assoc] at h
    cases hd with
    | short hl' =>
      simp only [unicodeEscape, List.cons_append, List.nil_append, List.cons.injEq, true_and] at h
      exact absurd h.1.symm (letter_ne hl')
    | unit hlong' hlt' =>
      have hn := (unicodeEscape_cancel (by omega) hlt' h).1
      omega
    | pair hle' =>
      rw [List.append_assoc] at h
      obtain ⟨hhigh, h⟩ := unicodeEscape_cancel (by omega) (by omega) h
      obtain ⟨hlow, hr⟩ := unicodeEscape_cancel (by omega) (by omega) h
      exact ⟨toNat_inj (by omega), hr⟩
    | self hlong' =>
      simp only [unicodeEscape, List.cons_append, List.nil_append, List.cons.injEq] at h
      rw [← h.1, hback] at hlong'
      cases hlong'
  | self hlong =>
    cases hd with
    | short hl' =>
      simp only [List.cons_append, List.nil_append, List.cons.injEq] at h
      rw [h.1, hback] at hlong
      cases hlong
    | unit hlong' hlt' =>
      simp only [unicodeEscape, List.cons_append, List.nil_append, List.cons.injEq] at h
      rw [h.1, hback] at hlong
      cases hlong
    | pair hle' =>
      simp only [unicodeEscape, List.cons_append, List.nil_append, List.cons.injEq] at h
      rw [h.1, hback] at hlong
      cases hlong
    | self hlong' =>
      simp only [List.cons_append, List.nil_append, List.cons.injEq] at h
      exact h

/-- The quote that ends a string is not the start of a character. -/
theorem escape_open (ascii : Bool) (c : Char) : ∃ a rest, escape ascii c = a :: rest ∧ a ≠ Char.ofNat 34 := by
  have hc := escape_written ascii c
  generalize escape ascii c = u at hc
  cases hc with
  | short hl => exact ⟨_, _, rfl, by decide⟩
  | unit hlong hlt => exact ⟨_, _, rfl, by decide⟩
  | pair hle => exact ⟨_, _, rfl, by decide⟩
  | self hlong =>
    refine ⟨c, [], rfl, ?_⟩
    intro h
    rw [h] at hlong
    cases hlong

theorem escaped_cancel {l m : List Char}
    (h : l.flatMap (escape ascii) ++ Char.ofNat 34 :: r = m.flatMap (escape ascii) ++ Char.ofNat 34 :: t) :
    l = m ∧ r = t := by
  induction l generalizing m with
  | nil =>
    cases m with
    | nil => exact ⟨rfl, (List.cons.inj h).2⟩
    | cons d rest =>
      obtain ⟨a, tail, ha, hne⟩ := escape_open ascii d
      rw [List.flatMap_cons, ha] at h
      exact absurd (List.cons.inj h).1.symm hne
  | cons c l ih =>
    cases m with
    | nil =>
      obtain ⟨a, tail, ha, hne⟩ := escape_open ascii c
      rw [List.flatMap_cons, ha] at h
      exact absurd (List.cons.inj h).1 hne
    | cons d rest =>
      rw [List.flatMap_cons, List.flatMap_cons, List.append_assoc, List.append_assoc] at h
      obtain ⟨hcd, hrest⟩ := escape_cancel h
      obtain ⟨hl, hr⟩ := ih hrest
      exact ⟨by rw [hcd, hl], hr⟩

theorem quote_cancel {s u : String} (h : quote ascii s ++ r = quote ascii u ++ t) : s = u ∧ r = t := by
  simp only [quote, List.cons_append, List.append_assoc, List.nil_append] at h
  obtain ⟨hl, hr⟩ := escaped_cancel (List.cons.inj h).2
  exact ⟨String.toList_inj.mp hl, hr⟩

end Escapes

section Values
variable {style : Style} {r t : List Char}

/-- Every item but the first of an array or an object stands behind a comma. -/
def Style.Separated (style : Style) : Prop := ∃ space, style.item = ',' :: space

/-- The text does not go on with a number. -/
def Closed (r : List Char) : Prop := ∀ c ∈ r.head?, numeral c = false

theorem closed_cons {c : Char} (h : numeral c = false) (r : List Char) : Closed (c :: r) := by
  intro d hd
  rw [List.head?_cons, Option.mem_some_iff] at hd
  rw [← hd]
  exact h

theorem takeWhile_closed {l : List Char} (hl : ∀ c ∈ l, numeral c = true) (hr : Closed r) :
    (l ++ r).takeWhile numeral = l := by
  rw [List.takeWhile_append_of_pos hl]
  cases r with
  | nil => rw [List.takeWhile_nil, List.append_nil]
  | cons c r => rw [List.takeWhile_cons_of_neg (by simp [hr c rfl]), List.append_nil]

/-- The character that a value starts with, unless it is a number. -/
def lead : Json → Option Char
  | .null => some 'n'
  | .bool true => some 't'
  | .bool false => some 'f'
  | .number _ => none
  | .string _ => some (Char.ofNat 34)
  | .array _ => some '['
  | .object _ => some (Char.ofNat 123)

theorem lead_render (style : Style) {j : Json} (h : j.WellFormed) : ∃ c rest, render style j = c :: rest ∧
    (lead j = some c ∧ numeral c = false ∧ c ≠ ']' ∨ lead j = none ∧ numeral c = true) := by
  cases h with
  | null => exact ⟨_, _, rfl, .inl ⟨rfl, by decide, by decide⟩⟩
  | bool b =>
    cases b with
    | true => exact ⟨_, _, rfl, .inl ⟨rfl, by decide, by decide⟩⟩
    | false => exact ⟨_, _, rfl, .inl ⟨rfl, by decide, by decide⟩⟩
  | number hne hall =>
    rename_i literal
    rw [render]
    cases hl : literal.toList with
    | nil => exact absurd (String.toList_eq_nil_iff.mp hl) hne
    | cons c rest =>
      rw [hl] at hall
      exact ⟨c, rest, rfl, .inr ⟨rfl, hall c List.mem_cons_self⟩⟩
  | string s => exact ⟨_, _, rfl, .inl ⟨rfl, by decide, by decide⟩⟩
  | array h => exact ⟨_, _, rfl, .inl ⟨rfl, by decide, by decide⟩⟩
  | object h => exact ⟨_, _, rfl, .inl ⟨rfl, by decide, by decide⟩⟩

/-- No value starts with the bracket that ends an array. -/
theorem render_ne_bracket {j : Json} (h : j.WellFormed) : render style j ++ r ≠ ']' :: t := by
  obtain ⟨c, rest, hc, ⟨_, _, hne⟩ | ⟨_, hnum⟩⟩ := lead_render style h
  · rw [hc]
    exact fun he => hne (List.cons.inj he).1
  · rw [hc]
    intro he
    rw [(List.cons.inj he).1] at hnum
    exact absurd hnum (by decide)

theorem lead_eq {j k : Json} (hj : j.WellFormed) (hk : k.WellFormed)
    (h : render style j ++ r = render style k ++ t) : lead j = lead k := by
  obtain ⟨c, rest, hc, hlead⟩ := lead_render style hj
  obtain ⟨d, rest', hd, hlead'⟩ := lead_render style hk
  rw [hc, hd] at h
  have hcd : c = d := (List.cons.inj h).1
  subst hcd
  rcases hlead with ⟨hl, hn, _⟩ | ⟨hl, hn⟩
  · rcases hlead' with ⟨hl', _⟩ | ⟨_, hn'⟩
    · rw [hl, hl']
    · rw [hn] at hn'
      cases hn'
  · rcases hlead' with ⟨_, hn', _⟩ | ⟨hl', _⟩
    · rw [hn] at hn'
      cases hn'
    · rw [hl, hl']

/-- The text of a value that stands before text which does not go on with a number. -/
def Cancels (style : Style) (j : Json) : Prop :=
  ∀ {k : Json} {r t : List Char}, j.WellFormed → k.WellFormed → Closed r → Closed t →
    render style j ++ r = render style k ++ t → j = k ∧ r = t

theorem renderItems_cancel (hs : style.Separated) {items others : List Json}
    (hcancel : ∀ j ∈ items, Cancels style j) (hj : ∀ j ∈ items, j.WellFormed) (hk : ∀ j ∈ others, j.WellFormed)
    (h : renderItems style items ++ ']' :: r = renderItems style others ++ ']' :: t) :
    items = others ∧ r = t := by
  obtain ⟨space, hs⟩ := hs
  induction items generalizing others with
  | nil =>
    cases others with
    | nil => exact ⟨rfl, (List.cons.inj h).2⟩
    | cons k rest =>
      have hk := hk k List.mem_cons_self
      by_cases hr : rest = []
      · rw [hr] at h
        exact absurd h.symm (render_ne_bracket hk)
      · rw [renderItems_cons style k hr, List.append_assoc, List.append_assoc] at h
        exact absurd h.symm (render_ne_bracket hk)
  | cons j items ih =>
    have hjw := hj j List.mem_cons_self
    cases others with
    | nil =>
      by_cases hr : items = []
      · rw [hr] at h
        exact absurd h (render_ne_bracket hjw)
      · rw [renderItems_cons style j hr, List.append_assoc, List.append_assoc] at h
        exact absurd h (render_ne_bracket hjw)
    | cons k rest =>
      have hkw := hk k List.mem_cons_self
      have hcancel' : Cancels style j := hcancel j List.mem_cons_self
      have hbracket : ∀ u, Closed (']' :: u) := closed_cons (by decide)
      have hcomma : ∀ u, Closed (style.item ++ u) := by
        intro u
        rw [hs]
        exact closed_cons (by decide) _
      by_cases hi : items = []
      · by_cases hr : rest = []
        · rw [hi, hr] at h
          obtain ⟨hjk, hrt⟩ := hcancel' hjw hkw (hbracket r) (hbracket t) h
          exact ⟨by rw [hjk, hi, hr], (List.cons.inj hrt).2⟩
        · rw [hi, renderItems_cons style k hr, List.append_assoc, List.append_assoc] at h
          have hrt := (hcancel' hjw hkw (hbracket r) (hcomma _) h).2
          rw [hs] at hrt
          exact absurd (List.cons.inj hrt).1 (by decide)
      · by_cases hr : rest = []
        · rw [hr, renderItems_cons style j hi, List.append_assoc, List.append_assoc] at h
          have hrt := (hcancel' hjw hkw (hcomma _) (hbracket t) h).2
          rw [hs] at hrt
          exact absurd (List.cons.inj hrt).1 (by decide)
        · rw [renderItems_cons style j hi, renderItems_cons style k hr, List.append_assoc,
            List.append_assoc, List.append_assoc, List.append_assoc] at h
          obtain ⟨hjk, htail⟩ := hcancel' hjw hkw (hcomma _) (hcomma _) h
          obtain ⟨hrest, hrt⟩ := ih (fun i hm => hcancel i (List.mem_cons_of_mem _ hm))
            (fun i hm => hj i (List.mem_cons_of_mem _ hm)) (fun i hm => hk i (List.mem_cons_of_mem _ hm))
            (List.append_cancel_left htail)
          exact ⟨by rw [hjk, hrest], hrt⟩

theorem renderFields_open (style : Style) (k : String) (j : Json) (rest : List (String × Json)) :
    ∃ tail, renderFields style ((k, j) :: rest) = Char.ofNat 34 :: tail := by
  by_cases hr : rest = []
  · rw [hr, renderFields, quote]
    exact ⟨_, rfl⟩
  · rw [renderFields_cons style k j hr, quote]
    exact ⟨_, rfl⟩

theorem renderFields_cancel (hs : style.Separated) {fields others : List (String × Json)}
    (hcancel : ∀ f ∈ fields, Cancels style f.2) (hj : ∀ f ∈ fields, f.2.WellFormed)
    (hk : ∀ f ∈ others, f.2.WellFormed)
    (h : renderFields style fields ++ Char.ofNat 125 :: r = renderFields style others ++ Char.ofNat 125 :: t) :
    fields = others ∧ r = t := by
  obtain ⟨space, hs⟩ := hs
  induction fields generalizing others with
  | nil =>
    cases others with
    | nil => exact ⟨rfl, (List.cons.inj h).2⟩
    | cons f rest =>
      obtain ⟨tail, htail⟩ := renderFields_open style f.1 f.2 rest
      rw [htail] at h
      exact absurd (List.cons.inj h).1 (by decide)
  | cons f fields ih =>
    obtain ⟨name, j⟩ := f
    have hjw := hj _ List.mem_cons_self
    cases others with
    | nil =>
      obtain ⟨tail, htail⟩ := renderFields_open style name j fields
      rw [htail] at h
      exact absurd (List.cons.inj h).1 (by decide)
    | cons g rest =>
      obtain ⟨name', k⟩ := g
      have hkw := hk _ List.mem_cons_self
      have hcancel' : Cancels style j := hcancel _ List.mem_cons_self
      have hbrace : ∀ u, Closed (Char.ofNat 125 :: u) := closed_cons (by decide)
      have hcomma : ∀ u, Closed (style.item ++ u) := by
        intro u
        rw [hs]
        exact closed_cons (by decide) _
      by_cases hi : fields = []
      · by_cases hr : rest = []
        · rw [hi, hr, renderFields, renderFields] at h
          simp only [List.append_assoc] at h
          obtain ⟨hname, htail⟩ := quote_cancel h
          obtain ⟨hjk, hrt⟩ := hcancel' hjw hkw (hbrace r) (hbrace t) (List.append_cancel_left htail)
          exact ⟨by rw [hname, hjk, hi, hr], (List.cons.inj hrt).2⟩
        · rw [hi, renderFields, renderFields_cons style name' k hr] at h
          simp only [List.append_assoc] at h
          obtain ⟨hname, htail⟩ := quote_cancel h
          have hrt := (hcancel' hjw hkw (hbrace r) (hcomma _) (List.append_cancel_left htail)).2
          rw [hs] at hrt
          exact absurd (List.cons.inj hrt).1 (by decide)
      · by_cases hr : rest = []
        · rw [hr, renderFields, renderFields_cons style name j hi] at h
          simp only [List.append_assoc] at h
          obtain ⟨hname, htail⟩ := quote_cancel h
          have hrt := (hcancel' hjw hkw (hcomma _) (hbrace t) (List.append_cancel_left htail)).2
          rw [hs] at hrt
          exact absurd (List.cons.inj hrt).1 (by decide)
        · rw [renderFields_cons style name j hi, renderFields_cons style name' k hr] at h
          simp only [List.append_assoc] at h
          obtain ⟨hname, htail⟩ := quote_cancel h
          obtain ⟨hjk, htail⟩ := hcancel' hjw hkw (hcomma _) (hcomma _) (List.append_cancel_left htail)
          obtain ⟨hrest, hrt⟩ := ih (fun i hm => hcancel i (List.mem_cons_of_mem _ hm))
            (fun i hm => hj i (List.mem_cons_of_mem _ hm)) (fun i hm => hk i (List.mem_cons_of_mem _ hm))
            (List.append_cancel_left htail)
          exact ⟨by rw [hname, hjk, hrest], hrt⟩

theorem render_cancel (hs : style.Separated) (j : Json) : Cancels style j := by
  induction j using Json.induction with
  | null =>
    intro k r t hj hk hr ht h
    have hl := lead_eq hj hk h
    cases hk with
    | null => exact ⟨rfl, List.append_cancel_left h⟩
    | bool b => cases b <;> cases hl
    | _ => cases hl
  | bool b =>
    intro k r t hj hk hr ht h
    have hl := lead_eq hj hk h
    cases hk with
    | bool b' =>
      have hb : b = b' := by
        cases b <;> cases b' <;> first | rfl | cases hl
      subst hb
      exact ⟨rfl, List.append_cancel_left h⟩
    | _ => cases b <;> cases hl
  | number literal =>
    intro k r t hj hk hr ht h
    have hl := lead_eq hj hk h
    cases hk with
    | number hne hall' =>
      cases hj with
      | number _ hall =>
        rw [render, render] at h
        have htake := congrArg (List.takeWhile numeral) h
        rw [takeWhile_closed hall hr, takeWhile_closed hall' ht] at htake
        rw [htake] at h
        exact ⟨by rw [String.toList_inj.mp htake], List.append_cancel_left h⟩
    | bool b => cases b <;> cases hl
    | _ => cases hl
  | string s =>
    intro k r t hj hk hr ht h
    have hl := lead_eq hj hk h
    cases hk with
    | string s' =>
      rw [render, render] at h
      obtain ⟨hs', hrt⟩ := quote_cancel h
      exact ⟨by rw [hs'], hrt⟩
    | bool b => cases b <;> cases hl
    | _ => cases hl
  | array items ih =>
    intro k r t hj hk hr ht h
    have hl := lead_eq hj hk h
    cases hk with
    | array hk =>
      cases hj with
      | array hj =>
        simp only [render, List.cons_append, List.append_assoc, List.nil_append, List.cons.injEq, true_and] at h
        obtain ⟨hitems, hrt⟩ := renderItems_cancel hs (fun j hm => ih j hm) hj hk h
        exact ⟨by rw [hitems], hrt⟩
    | bool b => cases b <;> cases hl
    | _ => cases hl
  | object fields ih =>
    intro k r t hj hk hr ht h
    have hl := lead_eq hj hk h
    cases hk with
    | object hk =>
      cases hj with
      | object hj =>
        simp only [render, List.cons_append, List.append_assoc, List.nil_append, List.cons.injEq, true_and] at h
        obtain ⟨hfields, hrt⟩ := renderFields_cancel hs (fun f hm => ih f hm) hj hk h
        exact ⟨by rw [hfields], hrt⟩
    | bool b => cases b <;> cases hl
    | _ => cases hl

theorem render_inj (style : Style) (hs : style.Separated) {j k : Json} (hj : j.WellFormed) (hk : k.WellFormed)
    (h : render style j = render style k) : j = k := by
  apply (render_cancel hs j hj hk (r := []) (t := []) _ _ (by rw [h])).1
  · intro c hc
    cases hc
  · intro c hc
    cases hc

theorem dumpsCompact_inj {j k : Json} (hj : j.WellFormed) (hk : k.WellFormed)
    (h : j.dumpsCompact = k.dumpsCompact) : j = k := by
  apply render_inj ⟨false, [','], [':']⟩ ⟨[], rfl⟩ hj hk
  rw [dumpsCompact, dumpsCompact] at h
  exact String.ofList_inj.mp h

end Values

section Keys

mutual

/-- `sort_keys=True`. -/
def sortKeys : Json → Json
  | .array items => .array (sortItems items)
  | .object fields => .object ((sortFields fields).insertionSort fun a b => a.1 ≤ b.1)
  | .null => .null
  | .bool b => .bool b
  | .number literal => .number literal
  | .string s => .string s

def sortItems : List Json → List Json
  | [] => []
  | j :: rest => sortKeys j :: sortItems rest

def sortFields : List (String × Json) → List (String × Json)
  | [] => []
  | (k, j) :: rest => (k, sortKeys j) :: sortFields rest

end

theorem sortItems_eq (items : List Json) : sortItems items = items.map sortKeys := by
  induction items with
  | nil => rfl
  | cons j rest ih => rw [sortItems, ih, List.map_cons]

theorem sortFields_eq (fields : List (String × Json)) :
    sortFields fields = fields.map fun f => (f.1, sortKeys f.2) := by
  induction fields with
  | nil => rfl
  | cons f rest ih => rw [sortFields, ih, List.map_cons]

theorem WellFormed.sortKeys {j : Json} (h : j.WellFormed) : j.sortKeys.WellFormed := by
  induction j using Json.induction with
  | array items ih =>
    cases h with
    | array h =>
      rw [Json.sortKeys, sortItems_eq]
      refine .array fun i hi => ?_
      obtain ⟨j, hj, hi⟩ := List.mem_map.mp hi
      rw [← hi]
      exact ih j hj (h j hj)
  | object fields ih =>
    cases h with
    | object h =>
      rw [Json.sortKeys, sortFields_eq]
      refine .object fun f hf => ?_
      obtain ⟨g, hg, hf⟩ := List.mem_map.mp ((List.mem_insertionSort _).mp hf)
      rw [← hf]
      exact ih g hg (h g hg)
  | _ =>
    rw [Json.sortKeys]
    exact h

/-- Lists with the same distinct keys in the same order have the same entries, if one has those of the other. -/
theorem eq_of_perm_of_keys {α β : Type} {l m : List (α × β)} (hkeys : l.map Prod.fst = m.map Prod.fst)
    (hn : (l.map Prod.fst).Nodup) (h : l.Perm m) : l = m := by
  have hlen : l.length = m.length := h.length_eq
  refine List.ext_getElem hlen fun i hi hi' => ?_
  have hfst : l[i].1 = m[i].1 := by
    have he := List.getElem_of_eq hkeys (by rw [List.length_map]; exact hi)
    rw [List.getElem_map, List.getElem_map] at he
    exact he
  have hmem : l[i] ∈ m := h.subset (List.getElem_mem hi)
  rw [hkeys] at hn
  exact List.inj_on_of_nodup_map hn hmem (List.getElem_mem hi') hfst

/-- Objects with the same distinct keys are told apart by their sorted fields. -/
theorem sortKeys_object {fields others : List (String × Json)}
    (h : (Json.object fields).sortKeys = (Json.object others).sortKeys)
    (hkeys : fields.map Prod.fst = others.map Prod.fst) (hn : (fields.map Prod.fst).Nodup) :
    List.Forall₂ (fun f g => f.2.sortKeys = g.2.sortKeys) fields others := by
  have hfst : ∀ l : List (String × Json), (sortFields l).map Prod.fst = l.map Prod.fst := by
    intro l
    rw [sortFields_eq, List.map_map]
    rfl
  have hsort : sortFields fields = sortFields others := by
    rw [sortKeys, sortKeys] at h
    injection h with h
    apply eq_of_perm_of_keys
    · rw [hfst, hfst, hkeys]
    · rw [hfst]
      exact hn
    · have hperm := List.perm_insertionSort (fun a b => a.1 ≤ b.1) (sortFields fields)
      rw [h] at hperm
      exact hperm.symm.trans (List.perm_insertionSort _ _)
  clear h hn
  induction fields generalizing others with
  | nil =>
    cases others with
    | nil => exact .nil
    | cons g rest => cases hkeys
  | cons f fields ih =>
    cases others with
    | nil => cases hkeys
    | cons g rest =>
      rw [sortFields, sortFields, List.cons.injEq, Prod.mk.injEq] at hsort
      rw [List.map_cons, List.map_cons, List.cons.injEq] at hkeys
      exact .cons hsort.1.2 (ih hkeys.2 hsort.2)

/-- A list of values is told by the array of their texts, if each is told by its own. -/
theorem sortKeys_array {α : Type} {f : α → Json} {l m : List α}
    (hinj : ∀ a b, (f a).sortKeys = (f b).sortKeys → a = b)
    (h : (Json.array (l.map f)).sortKeys = (Json.array (m.map f)).sortKeys) : l = m := by
  rw [sortKeys, sortKeys, sortItems_eq, sortItems_eq, List.map_map, List.map_map] at h
  injection h with h
  exact List.map_injective_iff.mpr (fun a b => hinj a b) h

end Keys

end DataCopilot.Json
