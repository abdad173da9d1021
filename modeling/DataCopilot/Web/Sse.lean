import Mathlib.Data.List.Basic
import DataCopilot.Library.Split
import DataCopilot.Library.Utf8
import DataCopilot.Platform.EventStream

/-! How the browser reads the events of a job: the frames that are written for it, and
`streamJobEvents` over the chunks that it reads. -/
namespace DataCopilot.Web
open Platform

structure AnalysisEvent where
  event_id : String
  sequence : Nat
  type : String
  status : String
deriving DecidableEq, Repr

/-- An event as the platform writes it and the browser has it. -/
def view (event : AnalysisJobEvent) : AnalysisEvent where
  event_id := event.eventId.text
  sequence := event.sequence
  type := event.type
  status := event.status.text

/-- The JSON of the two sides: the message converter of the platform, and `JSON.parse`. -/
structure EventCodec where
  write : AnalysisJobEvent → List Char
  parse : List Char → Option AnalysisEvent

/-- An event that comes through: an object, on one line, that is read back. -/
structure EventCodec.Carries (codec : EventCodec) (event : AnalysisJobEvent) : Prop where
  parsed : codec.parse (codec.write event) = some (view event)
  opened : ∃ rest, codec.write event = Char.ofNat 123 :: rest
  line : ∀ c ∈ codec.write event, c ≠ '\n' ∧ c ≠ '\r'

/-- The types that the platform publishes. -/
def signalTypes : List String :=
  ["JOB_ACCEPTED", "JOB_RECOVERED", "JOB_STATUS_CHANGED", "AGENT_STEP", "APPROVAL_REQUIRED",
    "APPROVAL_DECIDED"]

def boundary : List Char := ['\n', '\n']

def field (name : String) (value : List Char) : List Char := name.toList ++ ':' :: value

/-- What `SseEmitter.event()` builds, without the blank line that ends it. -/
def block (codec : EventCodec) (event : AnalysisJobEvent) : List Char :=
  field "id" event.eventId.text.toList ++ '\n' ::
    (field "event" event.type.toList ++ '\n' :: field "data" (codec.write event))

def frames (codec : EventCodec) (events : List AnalysisJobEvent) : List Char :=
  Split.join boundary (events.map (block codec))

structure ParsedSseEvent where
  id : Option (List Char) := none
  event : Option (List Char) := none
  data : List Char := []
deriving DecidableEq

/-- The field and the value of a line. -/
def fieldOf (line : List Char) : List Char × List Char :=
  let value := (line.dropWhile (· ≠ ':')).drop 1
  (line.takeWhile (· ≠ ':'), if value.head? = some ' ' then value.drop 1 else value)

/-- One line, with the values of the data lines before it. -/
def readLine (parsed : ParsedSseEvent × List (List Char)) (line : List Char) :
    ParsedSseEvent × List (List Char) :=
  if line = [] ∨ line.head? = some ':' then parsed
  else
    let (field, value) := fieldOf line
    if field = "id".toList then ({ parsed.1 with id := some value }, parsed.2)
    else if field = "event".toList then ({ parsed.1 with event := some value }, parsed.2)
    else if field = "data".toList then (parsed.1, parsed.2 ++ [value])
    else parsed

def parseSseBlock (block : List Char) : Option ParsedSseEvent :=
  let lines := (block.filter (· ≠ '\r')).splitOnP (· == '\n')
  let (parsed, data) := lines.foldl readLine ({}, [])
  let text := ['\n'].intercalate data
  if text = [] then none else some { parsed with data := text }

/-- `replaceAll` of CR LF by LF. -/
def replaceAll : List Char → List Char
  | [] => []
  | c :: rest =>
    if c = '\r' ∧ rest.head? = some '\n' then replaceAll rest else c :: replaceAll rest

/-- `onEvent` for each block, until `JSON.parse` throws. -/
def handle (codec : EventCodec) : List (List Char) → List AnalysisEvent × Bool
  | [] => ([], false)
  | block :: rest =>
    match parseSseBlock block with
    | none => handle codec rest
    | some item =>
      match codec.parse item.data with
      | none => ([], true)
      | some event => (event :: (handle codec rest).1, (handle codec rest).2)

/-- The decoder, whether it has passed the place of a byte order mark, and the buffer. -/
structure StreamReader where
  decoder : Utf8.Decoder := {}
  started : Bool := false
  buffer : List Char := []
deriving DecidableEq

namespace StreamReader

def byteOrderMark : Char := Char.ofNat 0xFEFF

/-- `decoder.decode(value, { stream: true })`. -/
def decode (r : StreamReader) (chunk : List UInt8) : List Char × StreamReader :=
  let (text, decoder) := r.decoder.run chunk
  let shown := if r.started = false ∧ text.head? = some byteOrderMark then text.drop 1 else text
  (shown, { r with decoder := decoder, started := r.started || !text.isEmpty })

/-- The blocks that are complete with this text, and what they give. -/
def take (codec : EventCodec) (r : StreamReader) (text : List Char) :
    (List AnalysisEvent × Bool) × StreamReader :=
  let (blocks, rest) := Split.cut boundary (r.buffer ++ replaceAll text)
  (handle codec blocks, { r with buffer := rest })

def read (codec : EventCodec) (r : StreamReader) (chunk : List UInt8) :
    (List AnalysisEvent × Bool) × StreamReader :=
  let (text, r) := r.decode chunk
  r.take codec text

/-- The last round of the loop, when there is no more to read. -/
def done (codec : EventCodec) (r : StreamReader) : List AnalysisEvent × Bool :=
  (r.take codec r.decoder.flush).1

end StreamReader

/-- An event that the platform publishes, and that comes through. -/
def Sound (codec : EventCodec) (event : AnalysisJobEvent) : Prop :=
  event.type ∈ signalTypes ∧ codec.Carries event

section Frame
variable {codec : EventCodec} {event : AnalysisJobEvent}

theorem type_chars {type : String} (h : type ∈ signalTypes) :
    (∀ c ∈ type.toList, c ≠ '\n' ∧ c ≠ '\r') ∧ type.toList.head? ≠ some ' ' := by
  have hall : ∀ t ∈ signalTypes, (∀ c ∈ t.toList, c ≠ '\n' ∧ c ≠ '\r') ∧
      t.toList.head? ≠ some ' ' := by simp [signalTypes]
  exact hall type h

theorem id_chars (u : UUID) :
    (∀ c ∈ u.text.toList, c ≠ '\n' ∧ c ≠ '\r') ∧ u.text.toList.head? ≠ some ' ' := by
  have hchars := u.chars
  refine ⟨fun c hc => ⟨?_, ?_⟩, fun hhead => ?_⟩
  · rintro rfl
    exact absurd (hchars _ hc) (by decide)
  · rintro rfl
    exact absurd (hchars _ hc) (by decide)
  · exact absurd (hchars _ (List.mem_of_head? hhead)) (by decide)

theorem json_chars (h : codec.Carries event) :
    (∀ c ∈ codec.write event, c ≠ '\n' ∧ c ≠ '\r') ∧ (codec.write event).head? ≠ some ' ' := by
  refine ⟨h.line, ?_⟩
  obtain ⟨rest, hrest⟩ := h.opened
  rw [hrest, List.head?_cons]
  decide

theorem field_chars {name : String} {value : List Char} (hn : name ∈ ["id", "event", "data"])
    (hv : ∀ c ∈ value, c ≠ '\n' ∧ c ≠ '\r') : ∀ c ∈ field name value, c ≠ '\n' ∧ c ≠ '\r' := by
  have hnames : ∀ n ∈ ["id", "event", "data"], ∀ c ∈ n.toList, c ≠ '\n' ∧ c ≠ '\r' := by simp
  intro c hc
  obtain hc | hc := List.mem_append.mp hc
  · exact hnames name hn c hc
  · obtain rfl | hc := List.mem_cons.mp hc
    · decide
    · exact hv c hc

theorem fieldOf_field {name : String} {value : List Char} (hn : name ∈ ["id", "event", "data"])
    (hv : value.head? ≠ some ' ') : fieldOf (field name value) = (name.toList, value) := by
  have hnames : ∀ n ∈ ["id", "event", "data"], ∀ c ∈ n.toList, decide (c ≠ ':') = true := by simp
  have hcolon := hnames name hn
  have htake : (field name value).takeWhile (· ≠ ':') = name.toList := by
    rw [field, List.takeWhile_append_of_pos hcolon]
    simp
  have hdrop : (field name value).dropWhile (· ≠ ':') = ':' :: value := by
    rw [field, List.dropWhile_append_of_pos hcolon]
    simp
  unfold fieldOf
  simp only [htake, hdrop, List.drop_one, List.tail_cons, if_neg hv]

theorem replaceAll_of_not_mem {text : List Char} (h : '\r' ∉ text) : replaceAll text = text := by
  induction text with
  | nil => rfl
  | cons c rest ih =>
    obtain ⟨hc, hrest⟩ : '\r' ≠ c ∧ '\r' ∉ rest := by simpa using h
    rw [replaceAll, if_neg fun hcr => hc hcr.1.symm, ih hrest]

/-- A boundary cannot start before a line has ended. -/
theorem first_line {line rest : List Char} {c : Char} (hl : ∀ x ∈ line, x ≠ '\n')
    (hc : c ≠ '\n') : Split.first boundary (line ++ '\n' :: c :: rest) =
      (Split.first boundary (c :: rest)).map fun p => (line ++ '\n' :: p.1, p.2) := by
  induction line with
  | nil =>
    have hno : ¬ boundary <+: '\n' :: c :: rest := by
      simp only [boundary, List.cons_prefix_cons, not_and]
      exact fun _ he => (hc he.symm).elim
    rw [List.nil_append, Split.first, if_neg hno]
    rfl
  | cons x line ih =>
    have hno : ¬ boundary <+: x :: (line ++ '\n' :: c :: rest) := by
      simp only [boundary, List.cons_prefix_cons, not_and]
      exact fun he => (hl x List.mem_cons_self he.symm).elim
    rw [List.cons_append, Split.first, if_neg hno, ih fun y hy => hl y (List.mem_cons_of_mem _ hy)]
    rw [Option.map_map]
    rfl

theorem first_last {line : List Char} (hl : ∀ x ∈ line, x ≠ '\n') :
    Split.first boundary (line ++ boundary) = some (line, []) := by
  induction line with
  | nil => decide
  | cons x line ih =>
    have hno : ¬ boundary <+: x :: (line ++ boundary) := by
      simp only [boundary, List.cons_prefix_cons, not_and]
      exact fun he => (hl x List.mem_cons_self he.symm).elim
    rw [List.cons_append, Split.first, if_neg hno, ih fun y hy => hl y (List.mem_cons_of_mem _ hy)]
    rfl

theorem block_chars (h : Sound codec event) : '\r' ∉ block codec event := by
  have hid := field_chars (show "id" ∈ ["id", "event", "data"] by decide) (id_chars event.eventId).1
  have htype := field_chars (show "event" ∈ ["id", "event", "data"] by decide) (type_chars h.1).1
  have hdata := field_chars (show "data" ∈ ["id", "event", "data"] by decide) (json_chars h.2).1
  unfold block
  simp only [List.mem_append, List.mem_cons, not_or]
  refine ⟨fun hr => (hid _ hr).2 rfl, by decide, fun hr => (htype _ hr).2 rfl, by decide,
    fun hr => (hdata _ hr).2 rfl⟩

theorem block_closed (h : Sound codec event) : Split.Closed boundary (block codec event) := by
  have hid := field_chars (show "id" ∈ ["id", "event", "data"] by decide) (id_chars event.eventId).1
  have htype := field_chars (show "event" ∈ ["id", "event", "data"] by decide) (type_chars h.1).1
  have hdata := field_chars (show "data" ∈ ["id", "event", "data"] by decide) (json_chars h.2).1
  -- the three lines, from the last one back
  have hlast : Split.first boundary (field "data" (codec.write event) ++ boundary) =
      some (field "data" (codec.write event), []) := first_last fun x hx => (hdata x hx).1
  have hsecond : Split.first boundary (field "event" event.type.toList ++ '\n' ::
        (field "data" (codec.write event) ++ boundary)) =
      some (field "event" event.type.toList ++ '\n' :: field "data" (codec.write event), []) := by
    have hline := @first_line (field "event" event.type.toList)
      ("ata".toList ++ ':' :: codec.write event ++ boundary) 'd' (fun x hx => (htype x hx).1) (by decide)
    change Split.first boundary (_ ++ '\n' :: (field "data" (codec.write event) ++ boundary)) =
      (Split.first boundary (field "data" (codec.write event) ++ boundary)).map _ at hline
    rw [hlast] at hline
    exact hline
  have hfirst := @first_line (field "id" event.eventId.text.toList)
    ("vent".toList ++ ':' :: event.type.toList ++ '\n' ::
      (field "data" (codec.write event) ++ boundary)) 'e' (fun x hx => (hid x hx).1) (by decide)
  change Split.first boundary (_ ++ '\n' :: (field "event" event.type.toList ++ '\n' ::
      (field "data" (codec.write event) ++ boundary))) = (Split.first boundary
    (field "event" event.type.toList ++ '\n' ::
      (field "data" (codec.write event) ++ boundary))).map _ at hfirst
  rw [hsecond] at hfirst
  unfold Split.Closed block
  simp only [List.append_assoc, List.cons_append] at hfirst ⊢
  exact hfirst

theorem splitOnP_line {line rest : List Char} (hl : ∀ x ∈ line, x ≠ '\n') :
    (line ++ '\n' :: rest).splitOnP (· == '\n') = line :: rest.splitOnP (· == '\n') := by
  apply List.splitOnP_append_cons_of_forall_mem
  · intro x hx
    rw [beq_eq_false_iff_ne]
    exact hl x hx
  · rfl

section Lines
variable {value : List Char} {parsed : ParsedSseEvent × List (List Char)}

theorem readLine_id (hv : value.head? ≠ some ' ') : readLine parsed (field "id" value) =
    ({ parsed.1 with id := some value }, parsed.2) := by
  have hfield := @fieldOf_field "id" value (by decide) hv
  have hne : ¬ (field "id" value = [] ∨ (field "id" value).head? = some ':') := by simp [field]
  rw [readLine, if_neg hne, hfield]
  rfl

theorem readLine_event (hv : value.head? ≠ some ' ') : readLine parsed (field "event" value) =
    ({ parsed.1 with event := some value }, parsed.2) := by
  have hfield := @fieldOf_field "event" value (by decide) hv
  have hne : ¬ (field "event" value = [] ∨ (field "event" value).head? = some ':') := by simp [field]
  rw [readLine, if_neg hne, hfield]
  rfl

theorem readLine_data (hv : value.head? ≠ some ' ') : readLine parsed (field "data" value) =
    (parsed.1, parsed.2 ++ [value]) := by
  have hfield := @fieldOf_field "data" value (by decide) hv
  have hne : ¬ (field "data" value = [] ∨ (field "data" value).head? = some ':') := by simp [field]
  rw [readLine, if_neg hne, hfield]
  rfl

end Lines

theorem parse_block (h : Sound codec event) : parseSseBlock (block codec event) =
    some ⟨some event.eventId.text.toList, some event.type.toList, codec.write event⟩ := by
  have hid := field_chars (show "id" ∈ ["id", "event", "data"] by decide) (id_chars event.eventId).1
  have htype := field_chars (show "event" ∈ ["id", "event", "data"] by decide) (type_chars h.1).1
  have hdata := field_chars (show "data" ∈ ["id", "event", "data"] by decide) (json_chars h.2).1
  have hfilter : (block codec event).filter (· ≠ '\r') = block codec event := by
    apply List.filter_eq_self.mpr
    intro c hc
    rw [decide_eq_true_eq]
    rintro rfl
    exact block_chars h hc
  have hlines : (block codec event).splitOnP (· == '\n') = [field "id" event.eventId.text.toList,
      field "event" event.type.toList, field "data" (codec.write event)] := by
    have hlast : (field "data" (codec.write event)).splitOnP (· == '\n') =
        [field "data" (codec.write event)] := by
      apply List.splitOnP_eq_singleton
      intro x hx
      rw [beq_eq_false_iff_ne]
      exact (hdata x hx).1
    rw [block, splitOnP_line fun x hx => (hid x hx).1, splitOnP_line fun x hx => (htype x hx).1, hlast]
  simp only [parseSseBlock, hfilter, hlines, List.foldl_cons, List.foldl_nil,
    readLine_id (id_chars event.eventId).2, readLine_event (type_chars h.1).2,
    readLine_data (json_chars h.2).2, List.nil_append, List.intercalate_singleton]
  obtain ⟨rest, hrest⟩ := h.2.opened
  rw [if_neg (by rw [hrest]; exact List.cons_ne_nil _ _)]

theorem boundary_ne_nil : boundary ≠ [] := by decide

theorem handle_blocks {events : List AnalysisJobEvent} (h : ∀ e ∈ events, Sound codec e) :
    handle codec (events.map (block codec)) = (events.map view, false) := by
  induction events with
  | nil => rfl
  | cons event rest ih =>
    have hevent := h event List.mem_cons_self
    have hrest := ih fun e he => h e (List.mem_cons_of_mem _ he)
    simp only [List.map_cons, handle, parse_block hevent, hevent.2.parsed, hrest]

theorem blocks_closed {events : List AnalysisJobEvent} (h : ∀ e ∈ events, Sound codec e) :
    ∀ b ∈ events.map (block codec), Split.Closed boundary b := by
  intro b hb
  obtain ⟨event, he, rfl⟩ := List.mem_map.mp hb
  exact block_closed (h event he)

theorem frames_chars {events : List AnalysisJobEvent} (h : ∀ e ∈ events, Sound codec e) :
    '\r' ∉ frames codec events := by
  intro hr
  obtain ⟨b, hb, hc⟩ := List.mem_flatMap.mp hr
  obtain ⟨event, he, rfl⟩ := List.mem_map.mp hb
  obtain hc | hc := List.mem_append.mp hc
  · exact block_chars (h event he) hc
  · exact absurd hc (by decide)

theorem frames_head {events : List AnalysisJobEvent} :
    (frames codec events).head? ≠ some StreamReader.byteOrderMark := by
  cases events with
  | nil => exact fun hn => by cases hn
  | cons event rest =>
    have hhead : (frames codec (event :: rest)).head? = some 'i' := rfl
    rw [hhead]
    decide

theorem frames_append (events more : List AnalysisJobEvent) :
    frames codec (events ++ more) = frames codec events ++ frames codec more := by
  simp only [frames, Split.join, List.map_append, List.flatMap_append]

end Frame

section Reading
variable {codec : EventCodec} {events got : List AnalysisJobEvent} {bytes chunk : List UInt8}
  {r : StreamReader}

/-- A reader that has read `bytes` and handled the events `got`. -/
structure Reads (codec : EventCodec) (bytes : List UInt8) (got : List AnalysisJobEvent)
    (r : StreamReader) : Prop where
  decoder : r.decoder = (Utf8.Decoder.run {} bytes).2
  started : r.started = !(Utf8.Decoder.run {} bytes).1.isEmpty
  buffer : r.buffer = (Split.cut boundary (Utf8.Decoder.run {} bytes).1).2
  got : got.map (block codec) = (Split.cut boundary (Utf8.Decoder.run {} bytes).1).1

theorem Reads.start : Reads codec [] [] {} := ⟨rfl, rfl, rfl, rfl⟩

/-- What the reader has handled are first events of those in the frames. -/
theorem prefix_blocks (hs : ∀ e ∈ events, Sound codec e)
    (hb : bytes <+: Utf8.encode (frames codec events)) :
    (Split.cut boundary (Utf8.Decoder.run {} bytes).1).1 <+: events.map (block codec) :=
  Split.prefix_cut boundary_ne_nil (blocks_closed hs) (Utf8.Decoder.prefix_run hb)

theorem decode_chunk (hb : bytes ++ chunk <+: Utf8.encode (frames codec events))
    (h : Reads codec bytes got r) :
    r.decode chunk = (((Utf8.Decoder.run {} bytes).2.run chunk).1,
      { r with
        decoder := (Utf8.Decoder.run {} (bytes ++ chunk)).2
        started := !(Utf8.Decoder.run {} (bytes ++ chunk)).1.isEmpty }) := by
  have hfirst := Utf8.Decoder.prefix_run hb
  rw [Utf8.Decoder.run_append] at hfirst ⊢
  have hmark : ¬ (r.started = false ∧ ((Utf8.Decoder.run {} bytes).2.run chunk).1.head? =
      some StreamReader.byteOrderMark) := by
    rintro ⟨hstarted, hhead⟩
    rw [h.started, Bool.not_eq_false', List.isEmpty_iff] at hstarted
    rw [hstarted, List.nil_append] at hfirst
    obtain ⟨more, hmore⟩ := hfirst
    apply @frames_head codec events
    rw [← hmore, List.head?_append, hhead]
    rfl
  have hempty : (r.started || !((Utf8.Decoder.run {} bytes).2.run chunk).1.isEmpty) =
      !((Utf8.Decoder.run {} bytes).1 ++ ((Utf8.Decoder.run {} bytes).2.run chunk).1).isEmpty := by
    rw [h.started]
    cases (Utf8.Decoder.run {} bytes).1 with
    | nil => rfl
    | cons c text => rfl
  simp only [StreamReader.decode, h.decoder, if_neg hmark, hempty]

/-- However the frames are cut into chunks, the events in them are handled in order, each once. -/
theorem read_frames (hs : ∀ e ∈ events, Sound codec e)
    (hb : bytes ++ chunk <+: Utf8.encode (frames codec events)) (h : Reads codec bytes got r)
    (hgot : got <+: events) :
    ∃ more r', r.read codec chunk = ((more.map view, false), r') ∧
      Reads codec (bytes ++ chunk) (got ++ more) r' ∧ got ++ more <+: events := by
  have hfirst := Utf8.Decoder.prefix_run hb
  have hblocks := prefix_blocks hs hb
  rw [Utf8.Decoder.run_append] at hfirst hblocks
  have hcr : '\r' ∉ ((Utf8.Decoder.run {} bytes).2.run chunk).1 := fun hr =>
    frames_chars hs (hfirst.subset (List.mem_append_right _ hr))
  -- the new blocks are cut off the buffer with the new text
  have hcut := Split.cut_append boundary_ne_nil (Utf8.Decoder.run {} bytes).1
    ((Utf8.Decoder.run {} bytes).2.run chunk).1
  rw [← h.got, ← h.buffer] at hcut
  rw [hcut] at hblocks
  obtain ⟨rest, rfl⟩ := hgot
  rw [List.map_append, List.prefix_append_right_inj] at hblocks
  obtain ⟨more, hmore, hnew⟩ := List.prefix_map_iff.mp hblocks
  have hsound : ∀ e ∈ more, Sound codec e := fun e he =>
    hs e (List.mem_append_right _ (hmore.subset he))
  refine ⟨more, {
    decoder := (Utf8.Decoder.run {} (bytes ++ chunk)).2
    started := !(Utf8.Decoder.run {} (bytes ++ chunk)).1.isEmpty
    buffer := (Split.cut boundary (r.buffer ++ ((Utf8.Decoder.run {} bytes).2.run chunk).1)).2 },
    ?_, ?_, (List.prefix_append_right_inj got).mpr hmore⟩
  · simp only [StreamReader.read, decode_chunk hb h, StreamReader.take, replaceAll_of_not_mem hcr,
      hnew, handle_blocks hsound]
  · refine ⟨rfl, rfl, ?_, ?_⟩
    · rw [Utf8.Decoder.run_append]
      simp only [hcut]
    · rw [Utf8.Decoder.run_append]
      simp only [hcut, List.map_append, hnew]

/-- The end of the stream completes no event. -/
theorem done_nothing (h : Reads codec bytes got r) : r.done codec = ([], false) := by
  have hfirst : Split.first boundary r.buffer = none := by
    rw [h.buffer]
    exact Split.first_rest boundary_ne_nil _
  have hflush : Split.first boundary (r.buffer ++ replaceAll r.decoder.flush) = none := by
    unfold Utf8.Decoder.flush
    by_cases hm : r.decoder.missing = 0
    · rw [if_pos hm]
      simpa [replaceAll] using hfirst
    · rw [if_neg hm]
      exact Split.first_snoc hfirst (by decide)
  simp only [StreamReader.done, StreamReader.take, Split.cut_of_none hflush]
  rfl

end Reading
end DataCopilot.Web
