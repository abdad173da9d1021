import DataCopilot.Library.Blocks
import DataCopilot.Web.Resumption

/-! `streamJobEvents` over the texts of its chunks. The line ends are normalised chunk by chunk, so
that a CR LF between two chunks stays; whether this shows depends on the line it ends. -/
namespace DataCopilot.Web
open Blocks (shown blocks unclosed)

/-- The rounds of the loop for the texts that the decoder gives, up to a throw. -/
def streamTexts (codec : EventCodec) (r : StreamReader) : List (List Char) → List AnalysisEvent × Bool
  | [] => r.done codec
  | text :: rest =>
    let (got, r) := r.take codec text
    if got.2 then got else (got.1 ++ (streamTexts codec r rest).1, (streamTexts codec r rest).2)

/-- The calls of `onEvent` while these texts come in, up to a throw. -/
def heard (codec : EventCodec) (r : StreamReader) : List (List Char) → List AnalysisEvent × Bool
  | [] => ([], false)
  | text :: rest =>
    let (got, r) := r.take codec text
    if got.2 then got else (got.1 ++ (heard codec r rest).1, (heard codec r rest).2)

def clean (line : List Char) : List Char := line.filter (· ≠ '\r')

/-- The lines that have ended, and the characters behind them. -/
def scan (text : List Char) : List (List Char) × List Char :=
  text.foldl (fun s c => if c = '\n' then (s.1 ++ [s.2], []) else (s.1, s.2 ++ [c])) ([], [])

/-- The values of the data lines that `parseSseBlock` collects. -/
def blockValues (block : List Char) : List (List Char) :=
  (((block.filter (· ≠ '\r')).splitOnP (· == '\n')).foldl readLine ({}, [])).2

def lineValues (line : List Char) : List (List Char) := (readLine ({}, []) (clean line)).2

/-- `onEvent` for the values of each block, until `JSON.parse` throws. -/
def dispatch (codec : EventCodec) : List (List (List Char)) → List AnalysisEvent × Bool
  | [] => ([], false)
  | values :: rest =>
    if ['\n'].intercalate values = [] then dispatch codec rest
    else
      match codec.parse (['\n'].intercalate values) with
      | none => ([], true)
      | some event => (event :: (dispatch codec rest).1, (dispatch codec rest).2)

section Scan

theorem scan_concat (text : List Char) (c : Char) : scan (text ++ [c]) =
    if c = '\n' then ((scan text).1 ++ [(scan text).2], []) else ((scan text).1, (scan text).2 ++ [c]) := by
  rw [scan, List.foldl_append]
  rfl

theorem scan_clean (text : List Char) :
    scan (clean text) = ((scan text).1.map clean, clean (scan text).2) := by
  induction text using List.reverseRecOn with
  | nil => rfl
  | append_singleton text c ih =>
    rw [clean, List.filter_append, ← clean, scan_concat]
    by_cases hr : c = '\r'
    · have hnil : [c].filter (· ≠ '\r') = [] := by
        rw [hr]
        rfl
      have hline : ¬ c = '\n' := by
        rw [hr]
        decide
      rw [hnil, List.append_nil, ih, if_neg hline]
      rw [clean, clean, List.filter_append, hnil, List.append_nil]
    · have hone : [c].filter (· ≠ '\r') = [c] := by simp [hr]
      rw [hone, scan_concat, ih]
      by_cases hn : c = '\n'
      · rw [if_pos hn, if_pos hn, List.map_append]
        rfl
      · rw [if_neg hn, if_neg hn]
        rw [clean, clean, List.filter_append, hone]

theorem splitOnP_scan (text : List Char) :
    text.splitOnP (· == '\n') = (scan text).1 ++ [(scan text).2] := by
  have hfold : ∀ (text : List Char) (lines : List (List Char)) (line : List Char),
      (text.foldl (fun (s : List (List Char) × List Char) c =>
        if c = '\n' then (s.1 ++ [s.2], []) else (s.1, s.2 ++ [c])) (lines, line)).1 ++
      [(text.foldl (fun (s : List (List Char) × List Char) c =>
        if c = '\n' then (s.1 ++ [s.2], []) else (s.1, s.2 ++ [c])) (lines, line)).2] =
      lines ++ List.splitOnPPrepend (· == '\n') text line.reverse := by
    intro text
    induction text with
    | nil =>
      intro lines line
      simp
    | cons c rest ih =>
      intro lines line
      rw [List.foldl_cons, List.splitOnPPrepend_cons_eq_if]
      by_cases hc : c = '\n'
      · rw [if_pos hc, ih]
        simp [hc]
      · rw [if_neg hc, ih]
        simp [hc]
  rw [scan, hfold]
  simp

/-- Where no character stands behind the lines, there is none or a line has just ended. -/
theorem scan_ended {text : List Char} (h : (scan text).2 = []) :
    text = [] ∨ ∃ before, text = before ++ ['\n'] := by
  induction text using List.reverseRecOn with
  | nil => exact Or.inl rfl
  | append_singleton text c ih =>
    rw [scan_concat] at h
    by_cases hc : c = '\n'
    · exact Or.inr ⟨text, by rw [hc]⟩
    · rw [if_neg hc] at h
      simp at h

end Scan

section Values

theorem readLine_values (s : ParsedSseEvent × List (List Char)) (line : List Char) :
    (readLine s line).2 = s.2 ++ (readLine ({}, []) line).2 := by
  unfold readLine
  by_cases h : line = [] ∨ line.head? = some ':'
  · simp [h]
  · rw [if_neg h, if_neg h]
    by_cases hid : (fieldOf line).1 = "id".toList
    · simp [hid]
    · by_cases hevent : (fieldOf line).1 = "event".toList
      · simp [hevent]
      · by_cases hdata : (fieldOf line).1 = "data".toList
        · simp [hdata]
        · simp only [if_neg hid, if_neg hevent, if_neg hdata, List.append_nil]

theorem foldl_readLine (lines : List (List Char)) (s : ParsedSseEvent × List (List Char)) :
    (lines.foldl readLine s).2 = s.2 ++ lines.flatMap fun line => (readLine ({}, []) line).2 := by
  induction lines generalizing s with
  | nil => simp
  | cons line rest ih =>
    rw [List.foldl_cons, ih, readLine_values, List.flatMap_cons, List.append_assoc]

theorem blockValues_eq (block : List Char) :
    blockValues block = ((scan block).1 ++ [(scan block).2]).flatMap lineValues := by
  have hclean : (clean block).splitOnP (· == '\n') = ((scan block).1 ++ [(scan block).2]).map clean := by
    rw [splitOnP_scan, scan_clean, List.map_append]
    rfl
  have hfold := foldl_readLine (((scan block).1 ++ [(scan block).2]).map clean) ({}, [])
  rw [← hclean, List.nil_append, hclean, List.flatMap_map] at hfold
  rw [blockValues, ← clean, hclean, hfold]
  rfl

theorem lineValues_nil {line : List Char} (h : clean line = []) : lineValues line = [] := by
  rw [lineValues, h]
  rfl

end Values

section Cutting

/-- The first boundary ends where a second line end comes. -/
theorem first_closes {before : List Char} (h : Split.first boundary (before ++ ['\n']) = none) :
    Split.first boundary (before ++ boundary) = some (before, []) := by
  induction before with
  | nil => decide
  | cons c rest ih =>
    have hlength : boundary.length ≤ (c :: (rest ++ ['\n'])).length := by simp [boundary]
    have hstart : c :: (rest ++ ['\n']) <+: c :: (rest ++ boundary) :=
      ⟨['\n'], by simp [boundary]⟩
    rw [List.cons_append, Split.first] at h
    rw [List.cons_append, Split.first]
    by_cases hp : boundary <+: c :: (rest ++ boundary)
    · have hshort := List.prefix_of_prefix_length_le hp hstart hlength
      rw [if_pos hshort] at h
      cases h
    · have hno : ¬ boundary <+: c :: (rest ++ ['\n']) := fun hs => hp (hs.trans hstart)
      rw [if_neg hno, Option.map_eq_none_iff] at h
      rw [if_neg hp, ih h]
      rfl

theorem cut_closes {text before : List Char} (h : (Split.cut boundary text).2 = before ++ ['\n']) :
    Split.cut boundary (text ++ ['\n']) = ((Split.cut boundary text).1 ++ [before], []) := by
  have hnone := Split.first_rest boundary_ne_nil text
  rw [h] at hnone
  have hboth : before ++ ['\n'] ++ ['\n'] = before ++ boundary := List.append_assoc _ _ _
  rw [Split.cut_append boundary_ne_nil, h, hboth, Split.cut_of_some boundary_ne_nil (first_closes hnone)]
  rfl

theorem cut_keeps {text : List Char} {c : Char}
    (h : c ≠ '\n' ∨ ∀ before, (Split.cut boundary text).2 ≠ before ++ ['\n']) :
    Split.cut boundary (text ++ [c]) =
      ((Split.cut boundary text).1, (Split.cut boundary text).2 ++ [c]) := by
  have hnone := Split.first_rest boundary_ne_nil text
  have hmore : Split.first boundary ((Split.cut boundary text).2 ++ [c]) = none := by
    by_cases hc : c = '\n'
    · have hbuffer := h.resolve_left (not_not_intro hc)
      cases hf : Split.first boundary ((Split.cut boundary text).2 ++ [c]) with
      | none => rfl
      | some p =>
        have htext := Split.eq_of_first hf
        cases List.eq_nil_or_concat p.2 with
        | inl hnil =>
          rw [hnil, List.append_nil] at htext
          have hsplit : (Split.cut boundary text).2 ++ [c] = p.1 ++ ['\n'] ++ ['\n'] := by
            rw [htext, List.append_assoc]
            rfl
          exact absurd (List.append_inj' hsplit rfl).1 (hbuffer p.1)
        | inr hlast =>
          obtain ⟨more, last, hr⟩ := hlast
          rw [hr, List.concat_eq_append, ← List.append_assoc] at htext
          have hin := (List.append_inj' htext rfl).1
          rw [hin] at hnone
          exact absurd hnone (Split.first_ne_none p.1 more)
    · apply Split.first_snoc hnone
      intro hmem
      simp [boundary] at hmem
      exact hc hmem
  rw [Split.cut_append boundary_ne_nil, Split.cut_of_none hmore, List.append_nil]

/-- The blocks and the buffer after a text, over its lines. -/
structure Collected (text : List Char) : Prop where
  line : (scan (Split.cut boundary text).2).2 = (scan text).2
  held : (scan (Split.cut boundary text).2).1.flatMap lineValues =
    unclosed lineValues List.isEmpty [] (scan text).1
  shown : shown ((Split.cut boundary text).1.map blockValues) =
    shown (blocks lineValues List.isEmpty [] (scan text).1)

theorem collected (text : List Char) : Collected text := by
  induction text using List.reverseRecOn with
  | nil => exact ⟨rfl, rfl, rfl⟩
  | append_singleton text c ih =>
    by_cases hc : c = '\n'
    · have hscan := scan_concat text '\n'
      rw [if_pos rfl] at hscan
      rw [hc]
      by_cases hblank : (scan text).2 = []
      · have hline := ih.line
        rw [hblank] at hline
        have hempty : List.isEmpty (scan text).2 = true := by
          rw [hblank]
          rfl
        cases scan_ended hline with
        | inl hnil =>
          -- a blank line before any other is kept, and holds no values
          have hkeep : ∀ before, (Split.cut boundary text).2 ≠ before ++ ['\n'] := by
            intro before he
            rw [hnil] at he
            exact List.append_ne_nil_of_right_ne_nil before (List.cons_ne_nil _ _) he.symm
          have hcut := @cut_keeps text '\n' (Or.inr hkeep)
          rw [hnil] at hcut
          have hheld := ih.held
          rw [hnil] at hheld
          constructor
          · rw [hcut, hscan]
            rfl
          · rw [hcut, hscan, Blocks.unclosed_concat, if_pos hempty]
            rfl
          · rw [hcut, hscan, Blocks.blocks_concat, if_pos hempty, Blocks.shown_append, ← hheld, ih.shown]
            exact (List.append_nil _).symm
        | inr hlast =>
          obtain ⟨before, hbefore⟩ := hlast
          have hcut := cut_closes hbefore
          have hheld := ih.held
          rw [hbefore, scan_concat, if_pos rfl, ← blockValues_eq] at hheld
          constructor
          · rw [hcut, hscan]
            rfl
          · rw [hcut, hscan, Blocks.unclosed_concat, if_pos hempty]
            rfl
          · rw [hcut, hscan, Blocks.blocks_concat, if_pos hempty, ← hheld,
              Blocks.shown_append, ← ih.shown, List.map_append, Blocks.shown_append]
            rfl
      · have hkeep : ∀ before, (Split.cut boundary text).2 ≠ before ++ ['\n'] := by
          intro before he
          have hline := ih.line
          rw [he, scan_concat, if_pos rfl] at hline
          exact hblank hline.symm
        have hcut := @cut_keeps text '\n' (Or.inr hkeep)
        have hopen : ¬ List.isEmpty (scan text).2 = true := fun he => hblank (List.isEmpty_iff.mp he)
        constructor
        · rw [hcut, hscan, scan_concat, if_pos rfl]
        · rw [hcut, hscan, scan_concat, if_pos rfl, Blocks.unclosed_concat, if_neg hopen,
            List.flatMap_append, ih.held, ih.line, List.flatMap_singleton]
        · rw [hcut, hscan, Blocks.blocks_concat, if_neg hopen, List.append_nil, ih.shown]
    · have hcut := @cut_keeps text c (Or.inl hc)
      constructor
      · rw [hcut, scan_concat, scan_concat, if_neg hc, if_neg hc, ih.line]
      · rw [hcut, scan_concat, scan_concat, if_neg hc, if_neg hc, ih.held]
      · rw [hcut, scan_concat, if_neg hc, ih.shown]

end Cutting

section Dispatch
variable {codec : EventCodec}

theorem parse_values (block : List Char) : parseSseBlock block =
    if ['\n'].intercalate (blockValues block) = [] then none
    else some { (((block.filter (· ≠ '\r')).splitOnP (· == '\n')).foldl readLine ({}, [])).1 with
      data := ['\n'].intercalate (blockValues block) } := rfl

theorem handle_values (list : List (List Char)) : handle codec list = dispatch codec (list.map blockValues) := by
  induction list with
  | nil => rfl
  | cons block rest ih =>
    rw [handle, parse_values, List.map_cons, dispatch]
    by_cases h : ['\n'].intercalate (blockValues block) = []
    · simp only [if_pos h, ih]
    · cases hparse : codec.parse (['\n'].intercalate (blockValues block)) with
      | none => simp only [if_neg h, hparse]
      | some event => simp only [if_neg h, hparse, ih]

theorem dispatch_shown (list : List (List (List Char))) : dispatch codec (shown list) = dispatch codec list := by
  induction list with
  | nil => rfl
  | cons values rest ih =>
    rw [Blocks.shown_cons]
    by_cases h : values = []
    · have hnil : ['\n'].intercalate values = [] := by
        rw [h]
        rfl
      rw [if_pos h, dispatch, if_pos hnil, ih]
    · rw [if_neg h, dispatch, dispatch, ih]

theorem dispatch_length (list : List (List (List Char))) : (dispatch codec list).1.length ≤ list.length := by
  induction list with
  | nil => exact Nat.le_refl _
  | cons values rest ih =>
    rw [dispatch, List.length_cons]
    by_cases h : ['\n'].intercalate values = []
    · rw [if_pos h]
      omega
    · rw [if_neg h]
      cases codec.parse (['\n'].intercalate values) with
      | none => exact Nat.zero_le _
      | some event =>
        rw [List.length_cons]
        omega

/-- The values of a block are the lines of a JSON text. -/
def IsJson (codec : EventCodec) (values : List (List Char)) : Prop :=
  ['\n'].intercalate values ≠ [] ∧ ∃ event, codec.parse (['\n'].intercalate values) = some event

instance (codec : EventCodec) (values : List (List Char)) : Decidable (IsJson codec values) :=
  decidable_of_iff (_ ∧ (codec.parse (['\n'].intercalate values)).isSome)
    (and_congr_right fun _ => Option.isSome_iff_exists)

theorem dispatch_all {list : List (List (List Char))} (h : ∀ values ∈ list, IsJson codec values) :
    (dispatch codec list).1.length = list.length := by
  induction list with
  | nil => rfl
  | cons values rest ih =>
    have hvalues := h values List.mem_cons_self
    obtain ⟨event, hparse⟩ := hvalues.2
    rw [dispatch, if_neg hvalues.1, hparse, List.length_cons, List.length_cons,
      ih fun v hv => h v (List.mem_cons_of_mem values hv)]

theorem handle_append (list more : List (List Char)) : handle codec (list ++ more) =
    if (handle codec list).2 then handle codec list
    else ((handle codec list).1 ++ (handle codec more).1, (handle codec more).2) := by
  induction list with
  | nil => rfl
  | cons block rest ih =>
    rw [List.cons_append, handle, handle]
    cases parseSseBlock block with
    | none => exact ih
    | some item =>
      cases hparse : codec.parse item.data with
      | none => simp only [hparse, if_true]
      | some event =>
        simp only [hparse, ih]
        by_cases h : (handle codec rest).2 = true
        · rw [if_pos h, if_pos h]
        · rw [if_neg h, if_neg h]
          rfl

/-- The rounds over the texts handle the blocks of all of them, each normalised by itself. -/
theorem heard_eq (texts : List (List Char)) : ∀ r : StreamReader,
    Split.first boundary r.buffer = none → heard codec r texts =
      handle codec (Split.cut boundary (r.buffer ++ texts.flatMap replaceAll)).1 := by
  induction texts with
  | nil =>
    intro r hbuffer
    rw [heard, List.flatMap_nil, List.append_nil, Split.cut_of_none hbuffer]
    rfl
  | cons text rest ih =>
    intro r hbuffer
    rw [List.flatMap_cons, ← List.append_assoc, Split.cut_append boundary_ne_nil, handle_append]
    have hrest := ih { r with buffer := (Split.cut boundary (r.buffer ++ replaceAll text)).2 }
      (Split.first_rest boundary_ne_nil _)
    rw [heard, StreamReader.take]
    simp only [hrest]

/-- The end of the stream adds nothing to a decoder that holds no bytes. -/
theorem streamTexts_eq (texts : List (List Char)) : ∀ r : StreamReader, r.decoder.flush = [] →
    Split.first boundary r.buffer = none → streamTexts codec r texts = heard codec r texts := by
  induction texts with
  | nil =>
    intro r hflush hbuffer
    rw [streamTexts, StreamReader.done, hflush, heard, StreamReader.take]
    have hcut : Split.cut boundary (r.buffer ++ replaceAll []) = ([], r.buffer) := by
      rw [replaceAll, List.append_nil, Split.cut_of_none hbuffer]
    rw [hcut]
    rfl
  | cons text rest ih =>
    intro r hflush hbuffer
    have hrest := ih { r with buffer := (Split.cut boundary (r.buffer ++ replaceAll text)).2 } hflush
      (Split.first_rest boundary_ne_nil _)
    rw [streamTexts, heard, StreamReader.take]
    simp only [hrest]

end Dispatch

section LineEnds

/-- What the normalisation leaves of the carriage returns. -/
theorem clean_replaceAll (text : List Char) : clean (replaceAll text) = clean text := by
  induction text with
  | nil => rfl
  | cons c rest ih =>
    rw [replaceAll]
    by_cases h : c = '\r' ∧ rest.head? = some '\n'
    · rw [if_pos h, ih, h.1]
      rfl
    · rw [if_neg h, clean, clean, List.filter_cons, List.filter_cons, ← clean, ← clean, ih]

theorem clean_flatMap (texts : List (List Char)) : clean (texts.flatMap replaceAll) = clean texts.flatten := by
  induction texts with
  | nil => rfl
  | cons text rest ih =>
    rw [List.flatMap_cons, List.flatten_cons, clean, clean, List.filter_append, List.filter_append, ← clean,
      ← clean, ← clean, ← clean, ih, clean_replaceAll]

theorem clean_of_not_mem {text : List Char} (h : '\r' ∉ text) : clean text = text := by
  apply List.filter_eq_self.mpr
  intro c hc
  rw [decide_eq_true_eq]
  intro he
  exact h (he ▸ hc)

/-- An event stream: its line ends are LF or CR LF, and what a block has for data is a JSON text. -/
structure EventText (codec : EventCodec) (text : List Char) : Prop where
  lineEnds : '\r' ∉ replaceAll text
  json : ∀ block ∈ (Split.cut boundary (replaceAll text)).1, blockValues block ≠ [] →
    IsJson codec (blockValues block)

/-- A line of carriage returns alone: blank, but no line end of the buffer shows it. -/
def hollow (line : List Char) : Bool := (clean line).isEmpty

/-- Behind a block with data whose blank line was cut between CR and LF, a blank line that was not
cut comes before the next data line and before the end of these texts. -/
def Mended (texts : List (List Char)) : Prop :=
  Blocks.Separated lineValues List.isEmpty hollow false false (scan (texts.flatMap replaceAll)).1

instance (texts : List (List Char)) : Decidable (Mended texts) :=
  inferInstanceAs (Decidable (Blocks.Separated _ _ _ _ _ _))

/-- The chunk that starts with the LF of a cut blank line mends it. -/
def LineEndsKept (texts : List (List Char)) : Prop := ∀ before ∈ texts.inits, Mended before

instance (texts : List (List Char)) : Decidable (LineEndsKept texts) :=
  inferInstanceAs (Decidable (∀ before ∈ texts.inits, Mended before))

variable {codec : EventCodec} {texts : List (List Char)}

theorem lineValues_clean : lineValues ∘ clean = lineValues := by
  funext line
  have htwice : clean (clean line) = clean line := by
    rw [clean, clean, List.filter_filter]
    simp
  rw [Function.comp_apply, lineValues, htwice, lineValues]

theorem shown_whole (text : List Char) : shown ((Split.cut boundary (clean text)).1.map blockValues) =
    shown (blocks lineValues hollow [] (scan text).1) := by
  rw [(collected (clean text)).shown, scan_clean, Blocks.blocks_map, lineValues_clean]
  rfl

/-- A text whose line ends are whole once more has come lacks at most the last of them. -/
theorem replaceAll_part {part more : List Char} (h : '\r' ∉ replaceAll (part ++ more)) :
    replaceAll part = clean part ∨ replaceAll part = clean part ++ ['\r'] := by
  induction part with
  | nil => exact .inl rfl
  | cons c rest ih =>
    rw [List.cons_append, replaceAll] at h
    rw [replaceAll]
    by_cases hc : c = '\r'
    · have hdrop : clean (c :: rest) = clean rest := by
        rw [hc]
        rfl
      by_cases hn : (rest ++ more).head? = some '\n'
      · rw [if_pos ⟨hc, hn⟩] at h
        cases rest with
        | nil =>
          rw [if_neg (by simp), hdrop, hc]
          exact .inr rfl
        | cons d rest =>
          rw [if_pos ⟨hc, hn⟩, hdrop]
          exact ih h
      · rw [if_neg (fun hcn => hn hcn.2), hc] at h
        exact absurd List.mem_cons_self h
    · rw [if_neg (fun hcn => hc hcn.1)] at h ⊢
      have hkeep : clean (c :: rest) = c :: clean rest := by
        rw [clean, List.filter_cons_of_pos (by simpa using hc), ← clean]
      rw [hkeep]
      cases ih (List.not_mem_of_not_mem_cons h) with
      | inl he => exact .inl (by rw [he])
      | inr he => exact .inr (by rw [he, List.cons_append])

theorem scan_append (text more : List Char) : (scan text).1 <+: (scan (text ++ more)).1 := by
  induction more using List.reverseRecOn with
  | nil => exact ⟨[], by rw [List.append_nil, List.append_nil]⟩
  | append_singleton more c ih =>
    rw [← List.append_assoc, scan_concat]
    by_cases hc : c = '\n'
    · rw [if_pos hc]
      exact ih.trans (List.prefix_append _ _)
    · rw [if_neg hc]
      exact ih

/-- What the first texts give as one chunk, over the lines of their chunks. -/
theorem heard_whole {before : List (List Char)} (hb : before <+: texts)
    (h : '\r' ∉ replaceAll texts.flatten) : heard codec {} [before.flatten] =
      dispatch codec (shown (blocks lineValues hollow [] (scan (before.flatMap replaceAll)).1)) := by
  obtain ⟨more, rfl⟩ := hb
  rw [List.flatten_append] at h
  have hcut : (Split.cut boundary (replaceAll before.flatten)).1 =
      (Split.cut boundary (clean (before.flatMap replaceAll))).1 := by
    rw [clean_flatMap]
    cases replaceAll_part h with
    | inl he => rw [he]
    | inr he => rw [he, cut_keeps (.inl (by decide))]
  rw [heard_eq [before.flatten] {} rfl, List.nil_append, List.flatMap_singleton, hcut, handle_values,
    ← dispatch_shown, shown_whole]

theorem heard_chunks (before : List (List Char)) : heard codec {} before =
    dispatch codec (shown (blocks lineValues List.isEmpty [] (scan (before.flatMap replaceAll)).1)) := by
  rw [heard_eq before {} rfl, List.nil_append, handle_values, ← dispatch_shown, (collected _).shown]

/-- The blocks of the first texts are among those of all. -/
theorem EventText.json_part (h : EventText codec texts.flatten) {before : List (List Char)}
    (hb : before <+: texts) {values : List (List Char)}
    (hv : values ∈ shown (blocks lineValues hollow [] (scan (before.flatMap replaceAll)).1)) :
    IsJson codec values := by
  obtain ⟨more, rfl⟩ := hb
  have hone : replaceAll (before ++ more).flatten = clean ((before ++ more).flatMap replaceAll) := by
    rw [clean_flatMap, ← clean_replaceAll, clean_of_not_mem h.lineEnds]
  have hin : values ∈
      shown (blocks lineValues hollow [] (scan ((before ++ more).flatMap replaceAll)).1) := by
    rw [List.flatMap_append]
    obtain ⟨lines, hlines⟩ := scan_append (before.flatMap replaceAll) (more.flatMap replaceAll)
    rw [← hlines]
    exact List.IsPrefix.subset ((Blocks.blocks_append hollow [] _ lines).filter _) hv
  rw [← shown_whole, ← hone] at hin
  have hmem := List.mem_filter.mp hin
  obtain ⟨block, hblock, he⟩ := List.mem_map.mp hmem.1
  have hne : blockValues block ≠ [] := by
    intro hnil
    rw [← he, hnil] at hmem
    cases hmem.2
  rw [← he]
  exact h.json block hblock hne

theorem heard_iff (h : EventText codec texts.flatten) {before : List (List Char)}
    (hb : before <+: texts) :
    heard codec {} before = heard codec {} [before.flatten] ↔ Mended before := by
  have hwhole : ∀ line : List Char, line.isEmpty = true → hollow line = true := by
    intro line hline
    rw [List.isEmpty_iff.mp hline]
    rfl
  have hhollow : ∀ line : List Char, hollow line = true → lineValues line = [] := by
    intro line hline
    exact lineValues_nil (List.isEmpty_iff.mp hline)
  rw [heard_chunks, heard_whole hb h.lineEnds]
  constructor
  · intro hsame
    by_contra hsep
    have hlt := Blocks.length_shown_lt hwhole hhollow (scan (before.flatMap replaceAll)).1 [] [] hsep
    rw [List.nil_append, Blocks.shown_cons, if_pos rfl] at hlt
    have hlength := dispatch_all fun values hv => h.json_part hb hv
    have hle := @dispatch_length codec
      (shown (blocks lineValues List.isEmpty [] (scan (before.flatMap replaceAll)).1))
    rw [hsame] at hle
    omega
  · intro hsep
    have hshown := Blocks.shown_of_separated hwhole hhollow (scan (before.flatMap replaceAll)).1 [] []
      (Or.inl rfl) hsep
    rw [List.nil_append, Blocks.shown_cons, if_pos rfl] at hshown
    rw [hshown]

/-- The events come as in one chunk: after each chunk those of the text that is there, and in the
end the same. -/
structure Uncut (codec : EventCodec) (texts : List (List Char)) : Prop where
  prompt : ∀ before, before <+: texts → heard codec {} before = heard codec {} [before.flatten]
  whole : streamTexts codec {} texts = streamTexts codec {} [texts.flatten]

/-- The events do not depend on where the chunks end exactly if a cut line end never runs two blocks
with data together, or keeps one open behind the chunk that ends it. -/
theorem stream_chunks_iff (codec : EventCodec) (texts : List (List Char))
    (h : EventText codec texts.flatten) : Uncut codec texts ↔ LineEndsKept texts := by
  constructor
  · intro hu before hin
    have hb := (List.mem_inits before texts).mp hin
    exact (heard_iff h hb).mp (hu.prompt before hb)
  · intro hk
    have hprompt : ∀ before, before <+: texts → heard codec {} before = heard codec {} [before.flatten] :=
      fun before hb => (heard_iff h hb).mpr (hk before ((List.mem_inits before texts).mpr hb))
    refine ⟨hprompt, ?_⟩
    rw [streamTexts_eq texts {} rfl rfl, streamTexts_eq [texts.flatten] {} rfl rfl]
    exact hprompt texts (List.prefix_refl texts)

end LineEnds

section Cuts
open Feed

/-- An event and a next one, with CR LF for line ends and a cut at `k` behind the first data. -/
def cutAt (k : Nat) : List (List Char) :=
  let ends := "\r\n\r\n".toList
  [field "data" (jsonText firstEvent) ++ ends.take k,
    ends.drop k ++ field "data" (jsonText secondEvent) ++ ends]

theorem cutAt_text (k : Nat) : EventText jsonCodec (cutAt k).flatten := by
  have hflat : (cutAt k).flatten = (cutAt 4).flatten := by
    simp only [cutAt, List.flatten_cons, List.flatten_nil, List.append_assoc, List.append_nil]
    rw [← List.append_assoc (List.take k _), List.take_append_drop]
    rfl
  rw [hflat]
  constructor
  · decide +kernel
  · decide +kernel

/-- A cut in the line end of a data line does not show. -/
theorem stream_chunks_line : Uncut jsonCodec (cutAt 1) :=
  (stream_chunks_iff jsonCodec (cutAt 1) (cutAt_text 1)).mpr (by decide +kernel)

/-- A cut in the blank line runs the two events together, and the parser throws. -/
theorem stream_chunks_blank : EventText jsonCodec (cutAt 3).flatten ∧
    streamTexts jsonCodec {} (cutAt 3) = ([], true) ∧
    streamTexts jsonCodec {} [(cutAt 3).flatten] = ([view firstEvent, view secondEvent], false) ∧
    ¬ Uncut jsonCodec (cutAt 3) := by
  have hcut : streamTexts jsonCodec {} (cutAt 3) = ([], true) := by decide +kernel
  have hone : streamTexts jsonCodec {} [(cutAt 3).flatten] =
      ([view firstEvent, view secondEvent], false) := by decide +kernel
  refine ⟨cutAt_text 3, hcut, hone, fun h => ?_⟩
  have hsame := h.whole
  rw [hcut, hone] at hsame
  exact absurd (congrArg Prod.snd hsame) (by decide)

/-- A second blank line that comes a chunk later gives the first event too late. -/
example : ¬ LineEndsKept [field "data" (jsonText firstEvent) ++ "\r\n\r".toList, ['\n'],
    "\r\n".toList ++ field "data" (jsonText secondEvent) ++ "\r\n\r\n".toList] := by
  decide +kernel

end Cuts
end DataCopilot.Web
