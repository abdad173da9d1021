import Mathlib.Data.List.Basic

/-! UTF-8 decoded as the bytes come in: errors give U+FFFD, and how the bytes are cut into
chunks does not show in the text. -/
namespace DataCopilot.Utf8

/-- `missing` bytes of a character are still to come, the next one from `lower` to `upper`. -/
structure Decoder where
  codePoint : Nat := 0
  missing : Nat := 0
  lower : Nat := 0x80
  upper : Nat := 0xBF
deriving DecidableEq, Repr

def encode (text : List Char) : List UInt8 := text.flatMap String.utf8EncodeChar

@[simp] theorem encode_nil : encode [] = [] := rfl

theorem encode_append (a b : List Char) : encode (a ++ b) = encode a ++ encode b :=
  List.flatMap_append

theorem encode_length_cons (c : Char) (text : List Char) :
    (encode (c :: text)).length = c.utf8Size + (encode text).length := by
  rw [encode, List.flatMap_cons, List.length_append, String.length_utf8EncodeChar]
  rfl

/-- A code point of a text that need not be well formed: a character or one of the surrogates,
which have no bytes. -/
inductive CodePoint where
  | char (c : Char)
  | surrogate (n : Fin 2048)
deriving DecidableEq, Repr

def CodePoint.char? : CodePoint → Option Char
  | char c => some c
  | surrogate _ => none

/-- The text that has bytes. -/
def wellFormed (text : List CodePoint) : Option String :=
  (text.mapM CodePoint.char?).map String.ofList

def replacement : Char := Char.ofNat 0xFFFD

namespace Decoder

/-- The first byte of a character. -/
def lead (b : Nat) : List Char × Decoder :=
  if b ≤ 0x7F then ([Char.ofNat b], {})
  else if 0xC2 ≤ b ∧ b ≤ 0xDF then ([], { codePoint := b - 0xC0, missing := 1 })
  else if 0xE0 ≤ b ∧ b ≤ 0xEF then
    ([], {
      codePoint := b - 0xE0
      missing := 2
      lower := if b = 0xE0 then 0xA0 else 0x80
      upper := if b = 0xED then 0x9F else 0xBF })
  else if 0xF0 ≤ b ∧ b ≤ 0xF4 then
    ([], {
      codePoint := b - 0xF0
      missing := 3
      lower := if b = 0xF0 then 0x90 else 0x80
      upper := if b = 0xF4 then 0x8F else 0xBF })
  else ([replacement], {})

/-- A byte that does not continue a character ends it, and is read again as a first byte. -/
def step (d : Decoder) (b : Nat) : List Char × Decoder :=
  if d.missing = 0 then lead b
  else if d.lower ≤ b ∧ b ≤ d.upper then
    let codePoint := d.codePoint * 64 + (b - 0x80)
    if d.missing = 1 then ([Char.ofNat codePoint], {})
    else ([], { codePoint := codePoint, missing := d.missing - 1 })
  else (replacement :: (lead b).1, (lead b).2)

def run (d : Decoder) : List UInt8 → List Char × Decoder
  | [] => ([], d)
  | b :: rest =>
    let (out, d) := d.step b.toNat
    let (text, d) := d.run rest
    (out ++ text, d)

/-- What the end of the bytes adds. -/
def flush (d : Decoder) : List Char := if d.missing = 0 then [] else [replacement]

theorem run_append (d : Decoder) (xs ys : List UInt8) :
    d.run (xs ++ ys) = ((d.run xs).1 ++ ((d.run xs).2.run ys).1, ((d.run xs).2.run ys).2) := by
  induction xs generalizing d with
  | nil => rfl
  | cons b rest ih => simp only [List.cons_append, run, ih, List.append_assoc]

section Character
variable {v : Nat}

theorem byte_toNat {n : Nat} (h : n < 256) : (UInt8.ofNat n).toNat = n :=
  UInt8.toNat_ofNat_of_lt' h

theorem lead_ascii (h : v ≤ 0x7F) : lead v = ([Char.ofNat v], {}) := if_pos h

theorem lead_two (h1 : 0x7F < v) (h2 : v ≤ 0x7FF) :
    lead (v / 64 % 32 + 0xC0) = ([], { codePoint := v / 64, missing := 1 }) := by
  unfold lead
  rw [if_neg (by omega), if_pos (by omega)]
  have hc : v / 64 % 32 + 0xC0 - 0xC0 = v / 64 := by omega
  rw [hc]

theorem step_last {d : Decoder} (hm : d.missing = 1) (hl : d.lower ≤ v % 64 + 0x80)
    (hu : v % 64 + 0x80 ≤ d.upper) (hc : d.codePoint = v / 64) :
    d.step (v % 64 + 0x80) = ([Char.ofNat v], {}) := by
  unfold step
  rw [if_neg (by omega), if_pos ⟨hl, hu⟩, if_pos hm, hc]
  have hv : v / 64 * 64 + (v % 64 + 0x80 - 0x80) = v := by omega
  rw [hv]

/-- A byte in the middle of a character, with the part of it that is already read. -/
theorem step_middle {d : Decoder} {p : Nat} (hm : 1 < d.missing) (hl : d.lower ≤ p % 64 + 0x80)
    (hu : p % 64 + 0x80 ≤ d.upper) (hc : d.codePoint = p / 64) :
    d.step (p % 64 + 0x80) = ([], { codePoint := p, missing := d.missing - 1 }) := by
  unfold step
  rw [if_neg (by omega), if_pos ⟨hl, hu⟩, if_neg (by omega), hc]
  have hp : p / 64 * 64 + (p % 64 + 0x80 - 0x80) = p := by omega
  rw [hp]

theorem run_silent {d e : Decoder} {b : UInt8} {rest : List UInt8} (h : d.step b.toNat = ([], e)) :
    d.run (b :: rest) = e.run rest := by
  rw [run, h]
  rfl

theorem run_single {d e : Decoder} {b : UInt8} {c : Char} (h : d.step b.toNat = ([c], e)) :
    d.run [b] = ([c], e) := by
  rw [run, h]
  rfl

theorem run_two (h1 : 0x7F < v) (h2 : v ≤ 0x7FF) :
    run {} [.ofNat (v / 64 % 32 + 0xC0), .ofNat (v % 64 + 0x80)] = ([Char.ofNat v], {}) := by
  have hlead : step {} (UInt8.ofNat (v / 64 % 32 + 0xC0)).toNat =
      ([], { codePoint := v / 64, missing := 1 }) := by
    rw [byte_toNat (by omega)]
    exact lead_two h1 h2
  rw [run_silent hlead]
  apply run_single
  rw [byte_toNat (by omega)]
  exact step_last rfl (by simp) (by simp only; omega) rfl

theorem run_three (h1 : 0x7FF < v) (h2 : v ≤ 0xFFFF) (hs : v < 0xD800 ∨ 0xDFFF < v) :
    run {} [.ofNat (v / 4096 % 16 + 0xE0), .ofNat (v / 64 % 64 + 0x80), .ofNat (v % 64 + 0x80)] =
      ([Char.ofNat v], {}) := by
  have hlead : step {} (UInt8.ofNat (v / 4096 % 16 + 0xE0)).toNat = ([], {
      codePoint := v / 4096
      missing := 2
      lower := if v / 4096 = 0 then 0xA0 else 0x80
      upper := if v / 4096 = 13 then 0x9F else 0xBF }) := by
    rw [byte_toNat (by omega), step, if_pos rfl, lead, if_neg (by omega), if_neg (by omega),
      if_pos (by omega)]
    have hc : v / 4096 % 16 + 0xE0 - 0xE0 = v / 4096 := by omega
    have hl : v / 4096 % 16 + 0xE0 = 0xE0 ↔ v / 4096 = 0 := by omega
    have hu : v / 4096 % 16 + 0xE0 = 0xED ↔ v / 4096 = 13 := by omega
    simp only [hc, hl, hu]
  rw [run_silent hlead]
  have hmiddle := @step_middle {
      codePoint := v / 4096
      missing := 2
      lower := if v / 4096 = 0 then 0xA0 else 0x80
      upper := if v / 4096 = 13 then 0x9F else 0xBF } (v / 64) (by simp)
    (by simp only; split <;> omega) (by simp only; split <;> omega) (by simp only; omega)
  rw [← byte_toNat (show v / 64 % 64 + 0x80 < 256 by omega)] at hmiddle
  rw [run_silent hmiddle]
  apply run_single
  rw [byte_toNat (by omega)]
  exact step_last rfl (by simp) (by simp only; omega) rfl

theorem run_four (h1 : 0xFFFF < v) (h2 : v < 0x110000) :
    run {} [.ofNat (v / 262144 % 8 + 0xF0), .ofNat (v / 4096 % 64 + 0x80),
      .ofNat (v / 64 % 64 + 0x80), .ofNat (v % 64 + 0x80)] = ([Char.ofNat v], {}) := by
  have hlead : step {} (UInt8.ofNat (v / 262144 % 8 + 0xF0)).toNat = ([], {
      codePoint := v / 262144
      missing := 3
      lower := if v / 262144 = 0 then 0x90 else 0x80
      upper := if v / 262144 = 4 then 0x8F else 0xBF }) := by
    rw [byte_toNat (by omega), step, if_pos rfl, lead, if_neg (by omega), if_neg (by omega),
      if_neg (by omega), if_pos (by omega)]
    have hc : v / 262144 % 8 + 0xF0 - 0xF0 = v / 262144 := by omega
    have hl : v / 262144 % 8 + 0xF0 = 0xF0 ↔ v / 262144 = 0 := by omega
    have hu : v / 262144 % 8 + 0xF0 = 0xF4 ↔ v / 262144 = 4 := by omega
    simp only [hc, hl, hu]
  rw [run_silent hlead]
  have hsecond := @step_middle {
      codePoint := v / 262144
      missing := 3
      lower := if v / 262144 = 0 then 0x90 else 0x80
      upper := if v / 262144 = 4 then 0x8F else 0xBF } (v / 4096) (by simp)
    (by simp only; split <;> omega) (by simp only; split <;> omega) (by simp only; omega)
  rw [← byte_toNat (show v / 4096 % 64 + 0x80 < 256 by omega)] at hsecond
  rw [run_silent hsecond]
  change run { codePoint := v / 4096, missing := 2 } _ = _
  have hthird := @step_middle { codePoint := v / 4096, missing := 2 } (v / 64) (by simp)
    (by simp) (by simp only; omega) (by simp only; omega)
  rw [← byte_toNat (show v / 64 % 64 + 0x80 < 256 by omega)] at hthird
  rw [run_silent hthird]
  apply run_single
  rw [byte_toNat (by omega)]
  exact step_last rfl (by simp) (by simp only; omega) rfl

theorem run_char (c : Char) : run {} (String.utf8EncodeChar c) = ([c], {}) := by
  have hvalid : c.toNat < 0xD800 ∨ 0xDFFF < c.toNat ∧ c.toNat < 0x110000 := c.valid
  suffices h : run {} (String.utf8EncodeChar c) = ([Char.ofNat c.toNat], {}) by
    rw [Char.ofNat_toNat] at h
    exact h
  have hv : c.val.toNat = c.toNat := rfl
  unfold String.utf8EncodeChar
  simp only [hv]
  generalize c.toNat = v at hvalid ⊢
  by_cases h1 : v ≤ 0x7F
  · rw [if_pos h1]
    apply run_single
    rw [byte_toNat (by omega)]
    exact lead_ascii h1
  · rw [if_neg h1]
    by_cases h2 : v ≤ 0x7FF
    · rw [if_pos h2]
      exact run_two (by omega) h2
    · rw [if_neg h2]
      by_cases h3 : v ≤ 0xFFFF
      · rw [if_pos h3]
        exact run_three (by omega) h3 (by omega)
      · rw [if_neg h3]
        exact run_four (by omega) (by omega)

end Character

theorem run_encode (text : List Char) : run {} (encode text) = (text, {}) := by
  induction text with
  | nil => rfl
  | cons c rest ih =>
    have hcons : encode (c :: rest) = String.utf8EncodeChar c ++ encode rest := List.flatMap_cons
    rw [hcons, run_append, run_char, ih]
    rfl

/-- The first bytes of a text give a first part of it. -/
theorem prefix_run {text : List Char} {bytes : List UInt8} (h : bytes <+: encode text) :
    (run {} bytes).1 <+: text := by
  obtain ⟨rest, hrest⟩ := h
  have hall := run_encode text
  rw [← hrest, run_append] at hall
  exact ⟨_, congrArg Prod.fst hall⟩

end Decoder
end DataCopilot.Utf8
