import DataCopilot.Agent.Telemetry
import DataCopilot.Platform.TraceContext

/-! The trace id that the agent reads off a header, beside the one that the platform writes into it. -/
namespace DataCopilot.Agent
open Pattern Platform
open Platform.TraceContext (Header IsTraceId isAllZero isAllZero_iff)

def fullmatch (count : Nat) (part : List Char) : Bool := (groups [.group isHexDigit count] part).isSome

/-- The error is a `ValueError`. -/
def traceIdFromTraceparent (py : Python) (value : String) : Except String String :=
  match (py.lower value).toList.splitOn '-' with
  | [version, id, span, flags] =>
    if version ≠ ['0', '0'] ∨ fullmatch 32 id = false ∨ id = List.replicate 32 '0' ∨
        fullmatch 16 span = false ∨ span = List.replicate 16 '0' ∨ fullmatch 2 flags = false then
      .error "invalid W3C traceparent"
    else .ok (String.ofList id)
  | _ => .error "invalid W3C traceparent"

/-- The characters of a header, in either case. -/
def isTraceChar (c : Char) : Bool := isHexDigit c.toLower || c = '-'

/-- What holds of `lower` and of `toLowerCase`, in every locale: they take the hexadecimal letters to
the small ones and leave digits and dashes, and no other text becomes one of these characters alone. -/
structure LowersTrace (lower : String → String) : Prop where
  ascii : ∀ v, (∀ c ∈ v.toList, isTraceChar c = true) → lower v = Text.lower v
  only : ∀ v, (∀ c ∈ (lower v).toList, isHexDigit c = true ∨ c = '-') → ∀ c ∈ v.toList, isTraceChar c = true

variable {J : JavaText} {py : Python} {lower : String → String} {text id span flags : List Char} {v : String}

theorem dash_not_mem {count : Nat} {part : List Char} (h : Filled isHexDigit count part) : '-' ∉ part := by
  intro hm
  exact absurd (h.2 '-' hm) (by decide)

/-- Cut at its dashes, a header has the parts that the pattern finds. -/
theorem splitOn_header : text.splitOn '-' = [['0', '0'], id, span, flags] ∧ fullmatch 32 id = true ∧
    fullmatch 16 span = true ∧ fullmatch 2 flags = true ↔ Header text id span flags := by
  constructor
  · rintro ⟨hsplit, hid, hspan, hflags⟩
    refine ⟨?_, groups_single.mp hid, groups_single.mp hspan, groups_single.mp hflags⟩
    have hjoin : ['-'].intercalate (text.splitOn '-') = text := List.intercalate_splitOn '-'
    rw [← hjoin, hsplit]
    simp [List.intercalate]
  · rintro ⟨rfl, hid, hspan, hflags⟩
    refine ⟨?_, groups_single.mpr hid, groups_single.mpr hspan, groups_single.mpr hflags⟩
    rw [List.splitOn_append_cons_self_of_not_mem (by decide),
      List.splitOn_append_cons_self_of_not_mem (dash_not_mem hid),
      List.splitOn_append_cons_self_of_not_mem (dash_not_mem hspan),
      List.splitOn_eq_singleton (dash_not_mem hflags)]

/-- A text that gives this id. -/
def Reads (text id : List Char) : Prop :=
  ∃ span flags, Header text id span flags ∧ isAllZero id = false ∧ isAllZero span = false

theorem java_reads {id : String} :
    TraceContext.traceIdFromTraceparent J (some v) = some id ↔ Reads (J.toLowerCase v).toList id.toList := by
  rw [TraceContext.traceIdFromTraceparent]
  constructor
  · intro h
    split at h
    · rename_i found span flags hg
      obtain ⟨_, _, _, he, hheader⟩ := TraceContext.groups_traceparent.mp hg
      cases he
      obtain ⟨hzero, rfl⟩ : ¬ (isAllZero found || isAllZero span) = true ∧ String.ofList found = id := by
        simpa using h
      rw [Bool.not_eq_true, Bool.or_eq_false_iff] at hzero
      rw [String.toList_ofList]
      exact ⟨span, flags, hheader, hzero⟩
    · cases h
  · rintro ⟨span, flags, hheader, hid, hspan⟩
    rw [TraceContext.groups_traceparent.mpr ⟨id.toList, span, flags, rfl, hheader⟩]
    simp [hid, hspan]

theorem python_reads {id : String} :
    traceIdFromTraceparent py v = .ok id ↔ Reads (py.lower v).toList id.toList := by
  rw [traceIdFromTraceparent]
  constructor
  · intro h
    split at h
    · rename_i version found span flags hsplit
      split at h
      · cases h
      · rename_i hall
        cases h
        simp only [not_or, Bool.not_eq_false, ne_eq, not_not] at hall
        obtain ⟨rfl, hid, hidz, hspan, hspanz, hflags⟩ := hall
        have hheader := splitOn_header.mp ⟨hsplit, hid, hspan, hflags⟩
        rw [String.toList_ofList]
        refine ⟨span, flags, hheader, ?_, ?_⟩
        · rwa [← Bool.not_eq_true, isAllZero_iff hheader.id.1]
        · rwa [← Bool.not_eq_true, isAllZero_iff hheader.span.1]
    · cases h
  · rintro ⟨span, flags, hheader, hid, hspan⟩
    obtain ⟨hsplit, hidm, hspanm, hflagsm⟩ := splitOn_header.mpr hheader
    have hidz : id.toList ≠ List.replicate 32 '0' := by
      rwa [Ne, ← isAllZero_iff hheader.id.1, Bool.not_eq_true]
    have hspanz : span ≠ List.replicate 16 '0' := by
      rwa [Ne, ← isAllZero_iff hheader.span.1, Bool.not_eq_true]
    rw [hsplit]
    simp only [hidm, hspanm, hflagsm, hidz, hspanz, ne_eq, not_true_eq_false, Bool.true_eq_false, or_self,
      if_false, String.ofList_toList]

/-- What is read does not depend on the way in which the text is put in lower case. -/
theorem reads_iff (h : LowersTrace lower) : Reads (lower v).toList id ↔
    (∀ c ∈ v.toList, isTraceChar c = true) ∧ Reads (Text.lower v).toList id := by
  constructor
  · intro hreads
    have hchars : ∀ c ∈ v.toList, isTraceChar c = true := by
      obtain ⟨_, _, hheader, _⟩ := hreads
      exact h.only v hheader.chars
    rw [h.ascii v hchars] at hreads
    exact ⟨hchars, hreads⟩
  · rintro ⟨hchars, hreads⟩
    rw [h.ascii v hchars]
    exact hreads

theorem trace_ids_agree (hj : LowersTrace J.toLowerCase) (hp : LowersTrace py.lower) {id : String} :
    TraceContext.traceIdFromTraceparent J (some v) = some id ↔ traceIdFromTraceparent py v = .ok id := by
  rw [java_reads, python_reads, reads_iff hj, reads_iff hp]

theorem toLower_of_hex {c : Char} (h : isHexDigit c = true) : c.toLower = c := by
  refine Text.toLower_of_not_upper fun hupper => ?_
  have hcode := isHexDigit_toNat h
  omega

theorem toLower_of_trace {c : Char} (h : isHexDigit c = true ∨ c = '-') : c.toLower = c := by
  obtain h | rfl := h
  · exact toLower_of_hex h
  · rfl

theorem isTraceChar_of {c : Char} (h : isHexDigit c = true ∨ c = '-') : isTraceChar c = true := by
  obtain h | rfl := h
  · rw [isTraceChar, toLower_of_hex h, h]
    rfl
  · rfl

theorem LowersTrace.fixed (h : LowersTrace lower) (hv : ∀ c ∈ v.toList, isHexDigit c = true ∨ c = '-') :
    lower v = v := by
  rw [h.ascii v fun c hc => isTraceChar_of (hv c hc), Text.lower,
    List.map_congr_left fun c hc => toLower_of_trace (hv c hc), List.map_id', String.ofList_toList]

/-- An id is left alone by the platform and by the agent. -/
theorem normalized_fixed (hj : LowersTrace J.toLowerCase) (hp : LowersTrace py.lower)
    (h : IsTraceId v.toList) :
    TraceContext.normalizeTraceId J (some v) = v ∧ normalizeTraceId py v = v := by
  have hchars : ∀ c ∈ v.toList, isHexDigit c = true ∨ c = '-' := fun c hc => .inl (h.1.2 c hc)
  refine ⟨TraceContext.normalizeTraceId_of_ok (hj.fixed hchars) h, ?_⟩
  have hid : isTraceId v = true := by
    rw [isTraceId, Bool.and_eq_true, decide_eq_true_eq, List.all_eq_true, ← String.length_toList]
    exact ⟨h.1.1, h.1.2⟩
  have hzero : v ≠ "00000000000000000000000000000000" := by
    rintro rfl
    exact absurd h.2 (by decide)
  rw [normalizeTraceId, hp.fixed hchars]
  exact if_pos ⟨hid, hzero⟩

/-- Two hexadecimal digits, in either case. -/
def IsFlags (flags : List Char) : Prop := Filled (fun c => isHexDigit c.toLower) 2 flags

/-- The agent reads off a header what the platform has written into it. -/
theorem header_read (hp : LowersTrace py.lower) {trace span flags : String} (ht : IsTraceId trace.toList)
    (hs : Filled isHexDigit 16 span.toList) (hz : isAllZero span.toList = false) (hf : IsFlags flags.toList) :
    traceIdFromTraceparent py ("00-" ++ trace ++ "-" ++ span ++ "-" ++ flags) = .ok trace := by
  have htext : ("00-" ++ trace ++ "-" ++ span ++ "-" ++ flags).toList =
      ['0', '0'] ++ '-' :: (trace.toList ++ '-' :: (span.toList ++ '-' :: flags.toList)) := by
    simp
  have hflags : Filled isHexDigit 2 (flags.toList.map Char.toLower) := by
    refine ⟨by rw [List.length_map]; exact hf.1, fun c hc => ?_⟩
    obtain ⟨d, hd, rfl⟩ := List.mem_map.mp hc
    exact hf.2 d hd
  have hlower (part : List Char) (h : ∀ c ∈ part, isHexDigit c = true) : part.map Char.toLower = part := by
    rw [List.map_congr_left fun c hc => toLower_of_hex (h c hc), List.map_id']
  have hchars : ∀ c ∈ ("00-" ++ trace ++ "-" ++ span ++ "-" ++ flags).toList, isTraceChar c = true := by
    intro c hc
    rw [htext] at hc
    simp only [List.mem_append, List.mem_cons, List.not_mem_nil, or_false] at hc
    obtain (rfl | rfl) | rfl | hc | rfl | hc | rfl | hc := hc
    · rfl
    · rfl
    · rfl
    · exact isTraceChar_of (.inl (ht.1.2 c hc))
    · rfl
    · exact isTraceChar_of (.inl (hs.2 c hc))
    · rfl
    · have hhex : isHexDigit c.toLower = true := hf.2 c hc
      rw [isTraceChar, hhex]
      rfl
  refine python_reads.mpr ⟨span.toList, flags.toList.map Char.toLower, ⟨?_, ht.1, hs, hflags⟩, ht.2, hz⟩
  rw [hp.ascii _ hchars, Text.lower, String.toList_ofList, htext]
  simp only [List.map_append, List.map_cons, List.map_nil, hlower _ ht.1.2, hlower _ hs.2]
  rfl

/-- The two services agree on every header, and the id that the platform hands on, whatever it has been
given, arrives and stays as it is. -/
theorem trace_identity_agrees (hj : LowersTrace J.toLowerCase) (hp : LowersTrace py.lower)
    (hz : ∀ v, isAllZero ((TraceContext.sha256 J v).toList.take 32) = false) :
    (∀ v id, TraceContext.traceIdFromTraceparent J (some v) = some id ↔ traceIdFromTraceparent py v = .ok id) ∧
    (∀ v id, TraceContext.traceIdFromTraceparent J (some v) = some id → Filled isHexDigit 32 id.toList) ∧
    ∀ t flags draws header, IsFlags flags.toList →
      TraceContext.childTraceparent J t flags draws = some header →
      traceIdFromTraceparent py header = .ok (TraceContext.normalizeTraceId J t) ∧
      TraceContext.normalizeTraceId J (some (TraceContext.normalizeTraceId J t)) =
        TraceContext.normalizeTraceId J t ∧
      normalizeTraceId py (TraceContext.normalizeTraceId J t) = TraceContext.normalizeTraceId J t := by
  refine ⟨fun v id => trace_ids_agree hj hp, fun v id h => ?_, fun t flags draws header hf h => ?_⟩
  · obtain ⟨_, _, hheader, _⟩ := java_reads.mp h
    exact hheader.id
  · obtain ⟨span, hspan, rfl⟩ := Option.map_eq_some_iff.mp h
    obtain ⟨hdigits, hzero⟩ := TraceContext.randomSpanId_ok hspan
    have hid : TraceContext.IsTraceId (TraceContext.normalizeTraceId J t).toList :=
      TraceContext.normalizeTraceId_ok hz
    exact ⟨header_read hp hid hdigits hzero hf, normalized_fixed hj hp hid⟩

theorem lower_lowersTrace : LowersTrace Text.lower where
  ascii _ _ := rfl
  only v h c hc := by
    have hlow := h c.toLower (by rw [Text.lower, String.toList_ofList]; exact List.mem_map_of_mem hc)
    rw [isTraceChar]
    obtain hhex | hdash := hlow
    · rw [hhex]
      rfl
    · by_cases hupper : 65 ≤ c.toNat ∧ c.toNat ≤ 90
      · have hcode := Text.toNat_toLower_of_upper hupper
        rw [hdash] at hcode
        have hdashcode : '-'.toNat = 45 := rfl
        omega
      · rw [Text.toLower_of_not_upper hupper] at hdash
        rw [hdash]
        rfl

/-- The digest of the trace value that is normalised below. -/
def legacyDigest : Vector UInt8 32 := #v[0xeb, 0xf6, 0xc6, 0x0e, 0x7c, 0x0f, 0xb2, 0x54, 0xc5, 0x78, 0x5f, 0x43,
  0xf9, 0x91, 0xd4, 0xce, 0x9b, 0x83, 0x43, 0xa6, 0x73, 0x5f, 0xb2, 0x76, 0xfa, 0xae, 0x8c, 0x38, 0xcb, 0xd8,
  0x4f, 0xc5]

def legacyText : JavaText := ⟨Text.lower, fun _ => legacyDigest⟩

def legacyDraw : UUID := ⟨"0f8fad5b-d9cb-469f-a165-70867728950e", by decide⟩

theorem legacy_trace_handed_on : ∃ header,
    TraceContext.childTraceparent legacyText (some "legacy-trace-id-123456") "0A" [legacyDraw] = some header ∧
      traceIdFromTraceparent asciiPython header =
        .ok (TraceContext.normalizeTraceId legacyText (some "legacy-trace-id-123456")) := by
  have hz : ∀ v, isAllZero ((TraceContext.sha256 legacyText v).toList.take 32) = false := by
    intro v
    rw [TraceContext.sha256, String.toList_ofList]
    change isAllZero ((TraceContext.formatHex legacyDigest.toList).take 32) = false
    decide
  have hdraw : TraceContext.randomSpanId [legacyDraw] = some (TraceContext.spanId legacyDraw) :=
    TraceContext.randomSpanId_of_version (by decide)
  have hflags : IsFlags "0A".toList := ⟨rfl, List.all_eq_true.mp rfl⟩
  have hheader := congrArg (Option.map fun span => "00-" ++
    TraceContext.normalizeTraceId legacyText (some "legacy-trace-id-123456") ++ "-" ++ span ++ "-" ++ "0A") hdraw
  obtain ⟨_, _, hall⟩ := @trace_identity_agrees legacyText asciiPython lower_lowersTrace lower_lowersTrace hz
  exact ⟨_, hheader, (hall _ "0A" _ _ hflags hheader).1⟩

end DataCopilot.Agent
