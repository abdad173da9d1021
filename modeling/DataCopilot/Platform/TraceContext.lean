import Mathlib.Data.Nat.Digits.Defs
import DataCopilot.Library.Pattern
import DataCopilot.Library.Text
import DataCopilot.Library.Utf8
import DataCopilot.Library.Uuid

/-! `TraceContext`: the trace id that a request comes with, and the headers that hand it on. -/
namespace DataCopilot.Platform
open Pattern

/-- `String.toLowerCase`, in the locale of the process, and SHA-256. -/
structure JavaText where
  toLowerCase : String → String
  digest : List UInt8 → Vector UInt8 32

namespace TraceContext

def traceIdPattern : List (Piece Char) := [.group isHexDigit 32]

def traceparentPattern : List (Piece Char) :=
  [.literal ['0', '0', '-'], .group isHexDigit 32, .literal ['-'], .group isHexDigit 16, .literal ['-'],
    .group isHexDigit 2]

def isAllZero (value : List Char) : Bool := value.all (· = '0')

variable (J : JavaText)

/-- `None` is `null`. -/
def traceIdFromTraceparent : Option String → Option String
  | none => none
  | some value =>
    match groups traceparentPattern (J.toLowerCase value).toList with
    | some [id, span, _] => if isAllZero id || isAllZero span then none else some (String.ofList id)
    | _ => none

/-- `HexFormat.formatHex`. -/
def formatHex (bytes : List UInt8) : List Char :=
  bytes.flatMap fun b => [(b.toNat / 16).digitChar, (b.toNat % 16).digitChar]

def sha256 (value : String) : String :=
  String.ofList (formatHex (J.digest (Utf8.encode value.toList)).toList)

def normalizeTraceId (value : Option String) : String :=
  let normalized := (value.map J.toLowerCase).getD ""
  if (groups traceIdPattern normalized.toList).isSome && !isAllZero normalized.toList then normalized
  else String.ofList ((sha256 J (value.getD "")).toList.take 32)

def spanId (u : UUID) : String := String.ofList ((u.text.toList.filter (· ≠ '-')).take 16)

/-- From the ids that `randomUUID` returns. It has not ended where these are used up. -/
def randomSpanId : List UUID → Option String
  | [] => none
  | u :: draws => if isAllZero (spanId u).toList then randomSpanId draws else some (spanId u)

def childTraceparent (traceId : Option String) (flags : String) (draws : List UUID) : Option String :=
  (randomSpanId draws).map fun span => "00-" ++ normalizeTraceId J traceId ++ "-" ++ span ++ "-" ++ flags

variable {J} {value : Option String} {id : List Char} {span : String} {u : UUID} {draws : List UUID}

theorem isAllZero_iff {n : Nat} (h : id.length = n) : isAllZero id = true ↔ id = List.replicate n '0' := by
  rw [isAllZero, List.all_eq_true, List.eq_replicate_iff]
  simp [h]

/-- A header with these parts. -/
structure Header (text id span flags : List Char) : Prop where
  text : text = ['0', '0'] ++ '-' :: (id ++ '-' :: (span ++ '-' :: flags))
  id : Filled isHexDigit 32 id
  span : Filled isHexDigit 16 span
  flags : Filled isHexDigit 2 flags

theorem Header.chars {text id span flags : List Char} (h : Header text id span flags) :
    ∀ c ∈ text, isHexDigit c = true ∨ c = '-' := by
  intro c hc
  rw [h.text] at hc
  simp only [List.mem_append, List.mem_cons, List.not_mem_nil, or_false] at hc
  obtain (rfl | rfl) | rfl | hc | rfl | hc | rfl | hc := hc
  · exact .inl rfl
  · exact .inl rfl
  · exact .inr rfl
  · exact .inl (h.id.2 c hc)
  · exact .inr rfl
  · exact .inl (h.span.2 c hc)
  · exact .inr rfl
  · exact .inl (h.flags.2 c hc)

theorem groups_traceparent {text : List Char} {found : List (List Char)} :
    groups traceparentPattern text = some found ↔
      ∃ id span flags, found = [id, span, flags] ∧ Header text id span flags := by
  rw [groups_eq_some, traceparentPattern]
  constructor
  · intro h
    match found with
    | [id, span, flags] =>
      obtain ⟨_, htext, _, rfl, hid, _, rfl, _, rfl, hspan, _, rfl, _, rfl, hflags, rfl⟩ := h
      exact ⟨id, span, flags, rfl, by simpa using htext, hid, hspan, hflags⟩
    | [] => simp [Spells] at h
    | [_] => simp [Spells] at h
    | [_, _] => simp [Spells] at h
    | _ :: _ :: _ :: _ :: _ => simp [Spells] at h
  · rintro ⟨id, span, flags, rfl, htext, hid, hspan, hflags⟩
    refine ⟨_, by simpa using htext, _, rfl, hid, _, rfl, _, rfl, hspan, _, rfl, _, ?_, hflags, rfl⟩
    exact (List.append_nil flags).symm

theorem isHexDigit_digitChar {n : Nat} (h : n < 16) : isHexDigit n.digitChar = true := by
  have hall : ∀ n < 16, isHexDigit n.digitChar = true := by decide
  exact hall n h

theorem formatHex_digits (bytes : List UInt8) : Filled isHexDigit (2 * bytes.length) (formatHex bytes) := by
  constructor
  · induction bytes with
    | nil => rfl
    | cons b bytes ih =>
      have htwo : formatHex (b :: bytes) =
        (b.toNat / 16).digitChar :: (b.toNat % 16).digitChar :: formatHex bytes := rfl
      rw [htwo, List.length_cons, List.length_cons, List.length_cons, ih]
      omega
  · intro c hc
    obtain ⟨b, _, hc⟩ := List.mem_flatMap.mp hc
    have hb := b.toNat_lt
    obtain rfl | hc := List.mem_cons.mp hc
    · exact isHexDigit_digitChar (by omega)
    · rw [List.mem_singleton.mp hc]
      exact isHexDigit_digitChar (by omega)

/-- The ids that a trace may have. -/
def IsTraceId (id : List Char) : Prop := Filled isHexDigit 32 id ∧ isAllZero id = false

/-- Whatever comes in, the id that is handed on is one, as long as no digest begins with zeros. -/
theorem normalizeTraceId_ok (hz : ∀ v, isAllZero ((sha256 J v).toList.take 32) = false) :
    IsTraceId (normalizeTraceId J value).toList := by
  rw [normalizeTraceId]
  split
  · rename_i h
    rw [Bool.and_eq_true, Bool.not_eq_true'] at h
    exact ⟨groups_single.mp h.1, h.2⟩
  · rw [String.toList_ofList]
    refine ⟨?_, hz _⟩
    obtain ⟨hlen, hhex⟩ := formatHex_digits (J.digest (Utf8.encode (value.getD "").toList)).toList
    rw [sha256, String.toList_ofList]
    refine ⟨?_, fun c hc => hhex c (List.mem_of_mem_take hc)⟩
    rw [List.length_take, hlen, Vector.length_toList]
    rfl

theorem normalizeTraceId_of_ok {v : String} (hv : J.toLowerCase v = v) (h : IsTraceId v.toList) :
    normalizeTraceId J (some v) = v := by
  obtain ⟨hhex, hzero⟩ := h
  have hsome : (groups traceIdPattern v.toList).isSome = true := groups_single.mpr hhex
  simp [normalizeTraceId, hv, hsome, hzero]

/-- An id has digits outside its four dashes, and more than a span takes. -/
theorem spanId_digits (u : UUID) : Filled isHexDigit 16 (spanId u).toList := by
  have hform := u.canonical
  simp only [isCanonical, Bool.and_eq_true, List.all_eq_true] at hform
  rw [spanId, String.toList_ofList]
  constructor
  · have hlen : u.text.toList.length = 36 := u.length_text
    have hcount : 32 ≤ (u.text.toList.filter (· ≠ '-')).length := by
      have hplaces : ((u.text.toList.zipIdx.map Prod.snd).filter (· ∉ [8, 13, 18, 23])).length = 32 := by
        rw [List.zipIdx_map_snd, hlen]
        decide
      have hchars : u.text.toList.zipIdx.map Prod.fst = u.text.toList := List.zipIdx_map_fst 0 _
      rw [← hchars, ← hplaces, ← List.countP_eq_length_filter, ← List.countP_eq_length_filter,
        List.countP_map, List.countP_map]
      refine List.countP_mono_left fun p hp hplace => ?_
      have hp := hform.2 p hp
      have hplace : p.2 ∉ [8, 13, 18, 23] := by simpa using hplace
      rw [if_neg hplace] at hp
      have hne : p.1 ≠ '-' := by
        rintro hdash
        rw [hdash] at hp
        exact absurd hp (by decide)
      simpa using hne
    rw [List.length_take]
    omega
  · intro c hc
    obtain ⟨hmem, hne⟩ := List.mem_filter.mp (List.mem_of_mem_take hc)
    obtain ⟨i, hi, hget⟩ := List.getElem_of_mem hmem
    have hplace : (c, i) ∈ u.text.toList.zipIdx := by
      rw [List.mem_zipIdx_iff_getElem?, List.getElem?_eq_getElem hi, hget]
    have hp := hform.2 (c, i) hplace
    by_cases hdash : i ∈ [8, 13, 18, 23]
    · rw [if_pos hdash] at hp
      simp_all
    · rwa [if_neg hdash] at hp

theorem randomSpanId_ok (h : randomSpanId draws = some span) :
    Filled isHexDigit 16 span.toList ∧ isAllZero span.toList = false := by
  induction draws with
  | nil => cases h
  | cons u draws ih =>
    rw [randomSpanId] at h
    split at h
    · exact ih h
    · rename_i hzero
      cases h
      exact ⟨spanId_digits u, by simpa using hzero⟩

/-- The version digit of a random id is not zero, so the first one is taken. -/
theorem randomSpanId_of_version (h : u.text.toList[14]? = some '4') :
    randomSpanId (u :: draws) = some (spanId u) := by
  have hmem : '4' ∈ (spanId u).toList := by
    have hfirst : '4' ∈ (u.text.toList.take 15).filter (· ≠ '-') := by
      refine List.mem_filter.mpr ⟨?_, by decide⟩
      exact List.mem_of_getElem? (i := 14) (by rw [List.getElem?_take_of_lt (by decide), h])
    have hlen : ((u.text.toList.take 15).filter (· ≠ '-')).length ≤ 16 := by
      have hle := List.length_filter_le (· ≠ '-') (u.text.toList.take 15)
      have htake := List.length_take_le 15 u.text.toList
      omega
    rw [spanId, String.toList_ofList, ← List.take_append_drop 15 u.text.toList, List.filter_append,
      List.take_append, List.take_of_length_le hlen]
    exact List.mem_append_left _ hfirst
  have hzero : isAllZero (spanId u).toList = false := by
    rw [isAllZero, List.all_eq_false]
    exact ⟨'4', hmem, by decide⟩
  rw [randomSpanId, if_neg (by simp [hzero])]

end TraceContext
end DataCopilot.Platform
