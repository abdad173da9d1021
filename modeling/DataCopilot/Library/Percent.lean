import DataCopilot.Library.Utf8
import Mathlib.Data.List.Basic

/-! Percent-encoding: the bytes of a character that is not kept stand as `%` and two hexadecimal
digits, and are read back as they were. -/
namespace DataCopilot.Percent

def upperHex (n : Nat) : Char := Char.ofNat (if n < 10 then 48 + n else 55 + n)

def escapeByte (b : UInt8) : List Char := ['%', upperHex (b.toNat / 16), upperHex (b.toNat % 16)]

def encodeChar (keep : Char → Bool) (c : Char) : List Char :=
  if keep c then [c] else (String.utf8EncodeChar c).flatMap escapeByte

def encode (keep : Char → Bool) (text : List Char) : List Char := text.flatMap (encodeChar keep)

def hexValue (c : Char) : Option Nat :=
  if '0' ≤ c ∧ c ≤ '9' then some (c.toNat - 48)
  else if 'A' ≤ c ∧ c ≤ 'F' then some (c.toNat - 55)
  else if 'a' ≤ c ∧ c ≤ 'f' then some (c.toNat - 87)
  else none

/-- A `%` without two digits behind it stands for itself. -/
def bytes : List Char → List UInt8
  | [] => []
  | '%' :: a :: b :: rest =>
    match hexValue a, hexValue b with
    | some x, some y => .ofNat (16 * x + y) :: bytes rest
    | _, _ => String.utf8EncodeChar '%' ++ bytes (a :: b :: rest)
  | c :: rest => String.utf8EncodeChar c ++ bytes rest

def decode (text : List Char) : List Char :=
  let (out, d) := Utf8.Decoder.run {} (bytes text)
  out ++ d.flush

section Encoding
variable {keep : Char → Bool} {text : List Char}

theorem hexValue_upperHex : ∀ n < 16, hexValue (upperHex n) = some n := by decide

theorem bytes_escape (b : UInt8) (rest : List Char) : bytes (escapeByte b ++ rest) = b :: bytes rest := by
  have hlt : b.toNat < 256 := b.toNat_lt
  rw [escapeByte, List.cons_append, List.cons_append, List.cons_append, List.nil_append, bytes,
    hexValue_upperHex _ (by omega), hexValue_upperHex _ (by omega)]
  have hb : 16 * (b.toNat / 16) + b.toNat % 16 = b.toNat := by omega
  simp only [hb, UInt8.ofNat_toNat]

theorem bytes_escapes (bs : List UInt8) (rest : List Char) :
    bytes (bs.flatMap escapeByte ++ rest) = bs ++ bytes rest := by
  induction bs with
  | nil => rfl
  | cons b bs ih => rw [List.flatMap_cons, List.append_assoc, bytes_escape, ih, List.cons_append]

theorem bytes_kept {c : Char} (h : c ≠ '%') (rest : List Char) :
    bytes (c :: rest) = String.utf8EncodeChar c ++ bytes rest := by
  rw [bytes]
  exact fun _ _ _ he _ => h he

theorem bytes_encode (hkeep : keep '%' = false) : bytes (encode keep text) = Utf8.encode text := by
  induction text with
  | nil => rfl
  | cons c rest ih =>
    have hcons : Utf8.encode (c :: rest) = String.utf8EncodeChar c ++ Utf8.encode rest := List.flatMap_cons
    rw [encode, List.flatMap_cons, ← encode, encodeChar, hcons]
    by_cases hc : keep c = true
    · have hne : c ≠ '%' := by
        intro he
        rw [he, hkeep] at hc
        cases hc
      rw [if_pos hc, List.singleton_append, bytes_kept hne, ih]
    · rw [if_neg hc, bytes_escapes, ih]

theorem decode_encode (hkeep : keep '%' = false) : decode (encode keep text) = text := by
  simp only [decode, bytes_encode hkeep, Utf8.Decoder.run_encode]
  exact List.append_nil text

theorem upperHex_cases : ∀ n < 16, ('0' ≤ upperHex n ∧ upperHex n ≤ '9') ∨ ('A' ≤ upperHex n ∧ upperHex n ≤ 'F') := by
  decide

theorem mem_encode {c : Char} (h : c ∈ encode keep text) :
    keep c = true ∨ c = '%' ∨ ('0' ≤ c ∧ c ≤ '9') ∨ ('A' ≤ c ∧ c ≤ 'F') := by
  obtain ⟨d, _, hd⟩ := List.mem_flatMap.mp h
  rw [encodeChar] at hd
  by_cases hk : keep d = true
  · rw [if_pos hk, List.mem_singleton] at hd
    exact .inl (hd ▸ hk)
  · rw [if_neg hk] at hd
    obtain ⟨b, _, hb⟩ := List.mem_flatMap.mp hd
    have hlt : b.toNat < 256 := b.toNat_lt
    rw [escapeByte, List.mem_cons, List.mem_cons, List.mem_singleton] at hb
    rcases hb with hb | hb | hb
    · exact .inr (.inl hb)
    · exact .inr (.inr (hb ▸ upperHex_cases _ (by omega)))
    · exact .inr (.inr (hb ▸ upperHex_cases _ (by omega)))

theorem encode_kept (h : ∀ c ∈ text, keep c = true) : encode keep text = text := by
  have hself : ∀ c ∈ text, encodeChar keep c = [c] := fun c hc => if_pos (h c hc)
  rw [encode, List.flatMap_congr hself, List.flatMap_singleton']

end Encoding
end DataCopilot.Percent
