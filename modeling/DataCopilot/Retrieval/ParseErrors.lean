import Mathlib.Algebra.GroupWithZero.Nat
import DataCopilot.Retrieval.Citations

/-! `parse_document`, and with which errors it ends. The path for PDF documents turns what it does
not expect into a parse error; the path for Markdown lets the validation error of a section out. -/
namespace DataCopilot.Retrieval
open Text

/-- `bytes`, whose length is a `Py_ssize_t`. -/
structure Payload where
  bytes : ByteArray
  size_lt : bytes.size < 2 ^ 63

/-- What the reader finds in a payload; a page may fail to give its text. -/
structure PdfDocument where
  encrypted : Bool
  pages : List (Option String)

section PdfPath
variable (readPdf : ByteArray → Option PdfDocument) (sourceName : String)

def pdfSection (pageNumber : Nat) (text : String) : Except ParsingError (List DocumentSection) :=
  if strip text = "" then .ok []
  else do
    let s ← DocumentSection.make (sourceName ++ "#page-" ++ toString pageNumber)
      ("Page " ++ toString pageNumber) ("page=" ++ toString pageNumber) (strip text)
    .ok [s]

def pdfSections (pageNumber : Nat) : List (Option String) → Except ParsingError (List DocumentSection)
  | [] => .ok []
  | none :: _ => .error .documentParseError
  | some text :: rest => do
    let page ← pdfSection sourceName pageNumber text
    let later ← pdfSections (pageNumber + 1) rest
    .ok (page ++ later)

/-- `except Exception as error: raise DocumentParseError() from error`. -/
def asParseError {α : Type} : Except ParsingError α → Except ParsingError α
  | .error (.validationError _) => .error .documentParseError
  | r => r

def parsePdf (payload : Payload) (maxPdfPages : Int) : Except ParsingError (List DocumentSection) := do
  let sections ← asParseError (match readPdf payload.bytes with
    | none => .error .documentParseError
    | some reader =>
      if reader.encrypted then .error .documentParseError
      else if maxPdfPages < reader.pages.length then .error .documentLimitError
      else pdfSections sourceName 1 reader.pages)
  if sections = [] then .error .documentParseError else .ok sections

end PdfPath

def parseDocument (unicode : Unicode) (readPdf : ByteArray → Option PdfDocument)
    (sourceName sourceType : String) (payload : Payload)
    (maxMarkdownBytes maxPdfBytes maxPdfPages : Int) : Except ParsingError (List DocumentSection) :=
  if payload.bytes.size = 0 then .error .documentParseError
  else if sourceType = "MARKDOWN" then
    if maxMarkdownBytes < payload.bytes.size then .error .documentLimitError
    else parseMarkdown unicode sourceName payload.bytes
  else if sourceType ≠ "PDF" then .error .documentParseError
  else if maxPdfBytes < payload.bytes.size then .error .documentLimitError
  else parsePdf readPdf sourceName payload maxPdfPages

/-- A tuple of sections that is not empty, or one of the two errors of the parser. -/
def Declared (r : Except ParsingError (List DocumentSection)) : Prop :=
  (∃ sections, r = .ok sections ∧ sections ≠ []) ∨ r = .error .documentParseError ∨
    r = .error .documentLimitError

/-- The slug of a heading, before its fallback. -/
def slug (unicode : Unicode) (heading : String) : List Char :=
  trim (· == '-') (hyphenate (fun c => unicode.word c || (0x4E00 ≤ c.toNat && c.toNat ≤ 0x9FFF)) false
    (unicode.lower heading).toList)

/-- The headings of a text with the lines under each, from a first one on. -/
def pieces (heading : String) (body : List Line) : List Line → List (String × List Line)
  | [] => [(heading, body)]
  | line :: rest =>
    match headingTitle line with
    | some title => (heading, body) :: pieces title [] rest
    | none => pieces heading (body ++ [line]) rest

/-- The lines are blank, or title, key and content keep the bounds of a section. -/
def Fits (unicode : Unicode) (sourceName : String) (piece : String × List Line) : Prop :=
  sectionContent piece.2 = "" ∨ (Bounded 500 piece.1 ∧
    sourceName.length + 1 + (slug unicode piece.1).length ≤ 500 ∧ (sectionContent piece.2).length ≤ 100000)

instance (unicode : Unicode) (sourceName : String) (piece : String × List Line) :
    Decidable (Fits unicode sourceName piece) := inferInstanceAs (Decidable (_ ∨ _))

section Bounds
variable {unicode : Unicode} {sourceName heading : String}

theorem length_toString_le {n : Nat} (h : n < 2 ^ 64) : (toString n).length ≤ 20 := by
  apply (Nat.length_repr_le_iff (by decide)).mpr
  omega

theorem sectionKey_length (ordinal : Nat) : (sectionKey unicode sourceName heading ordinal).length =
    sourceName.length + 1 + if slug unicode heading = [] then 8 + (toString (ordinal + 1)).length
      else (slug unicode heading).length := by
  change (sourceName ++ "#" ++ if slug unicode heading = [] then "section-" ++ toString (ordinal + 1)
    else String.ofList (slug unicode heading)).length = _
  have hmark : "#".length = 1 := by decide
  have hword : "section-".length = 8 := by decide
  rw [String.length_append, String.length_append, hmark]
  by_cases h : slug unicode heading = []
  · rw [if_pos h, if_pos h, String.length_append, hword]
  · rw [if_neg h, if_neg h, String.length_ofList]

theorem sectionKey_bounded {ordinal : Nat} (hname : sourceName.length ≤ 255) (ho : ordinal + 1 < 2 ^ 64) :
    Bounded 500 (sectionKey unicode sourceName heading ordinal) ↔
      sourceName.length + 1 + (slug unicode heading).length ≤ 500 := by
  have hdigits := length_toString_le ho
  rw [Bounded, sectionKey_length]
  by_cases h : slug unicode heading = []
  · rw [if_pos h, h, List.length_nil]
    omega
  · rw [if_neg h]
    omega

theorem sectionLocator_bounded {first last : Nat} (hf : first < 2 ^ 64) (hl : last < 2 ^ 64) :
    Bounded 120 (sectionLocator first last) := by
  have hfirst := length_toString_le hf
  have hlast := length_toString_le hl
  have hword : "lines=".length = 6 := by decide
  have hdash : "-".length = 1 := by decide
  rw [Bounded, sectionLocator, String.length_append, String.length_append, String.length_append, hword, hdash]
  omega

end Bounds

/-- The run succeeds where `ok` holds, and else ends with a validation error. -/
def Checked {α : Type} (ok : Prop) (r : Except ParsingError α) : Prop :=
  (ok ∧ ∃ a, r = .ok a) ∨ (¬ ok ∧ ∃ fields, r = .error (.validationError fields))

namespace Parser
variable {unicode : Unicode} {sourceName : String}

/-- The counters of the parser stay in the bounds of a machine word. -/
structure Small (p : Parser) (more : Nat) : Prop where
  sections : p.sections.length + more + 1 < 2 ^ 64
  headingLine : p.headingLine < 2 ^ 64

section Flush
variable {p : Parser} {more endLine : Nat} (hname : sourceName.length ≤ 255)
variable (hsmall : p.Small more)
include hname hsmall

theorem flush_of_fits (hend : endLine < 2 ^ 64) (h : Fits unicode sourceName (p.heading, p.body)) :
    ∃ sections, p.flush unicode sourceName endLine = .ok { p with sections := sections } ∧
      sections.length ≤ p.sections.length + 1 := by
  rw [flush]
  by_cases hb : sectionContent p.body = ""
  · rw [if_pos hb]
    exact ⟨p.sections, rfl, by omega⟩
  · rw [if_neg hb]
    have hfits := h.resolve_left hb
    have hsections := hsmall.sections
    have hheading := hsmall.headingLine
    have hkey : Bounded 500 (sectionKey unicode sourceName p.heading p.sections.length) :=
      (sectionKey_bounded hname (by omega)).mpr hfits.2.1
    have hlocator := sectionLocator_bounded hheading (by omega : max p.headingLine endLine < 2 ^ 64)
    have hcontent : Bounded 100000 (sectionContent p.body) := by
      have hpos : (sectionContent p.body).length ≠ 0 := by
        intro hz
        exact hb (String.length_eq_zero_iff.mp hz)
      exact ⟨by omega, hfits.2.2⟩
    rw [DocumentSection.make, dif_pos ⟨hkey, hfits.1, hlocator, hcontent⟩]
    refine ⟨_, rfl, ?_⟩
    rw [List.length_append, List.length_singleton]

theorem flush_of_not_fits (h : ¬ Fits unicode sourceName (p.heading, p.body)) :
    ∃ fields, p.flush unicode sourceName endLine = .error (.validationError fields) := by
  have hsections := hsmall.sections
  have hb : sectionContent p.body ≠ "" := fun hb => h (Or.inl hb)
  have hbounds : ¬ (Bounded 500 (sectionKey unicode sourceName p.heading p.sections.length) ∧
      Bounded 500 p.heading ∧ Bounded 120 (sectionLocator p.headingLine (max p.headingLine endLine)) ∧
      Bounded 100000 (sectionContent p.body)) := by
    intro hall
    apply h
    apply Or.inr
    have hkey := (sectionKey_bounded hname (by omega : p.sections.length + 1 < 2 ^ 64)).mp hall.1
    exact ⟨hall.2.1, hkey, hall.2.2.2.2⟩
  rw [flush, if_neg hb, DocumentSection.make, dif_neg hbounds]
  exact ⟨_, rfl⟩

end Flush

/-- The loop over the lines and the flush behind it. -/
def finish (unicode : Unicode) (sourceName : String) (last : Nat) (p : Parser) (n : Nat)
    (lines : List Line) : Except ParsingError Parser := do
  let q ← p.readAll unicode sourceName n lines
  q.flush unicode sourceName last

theorem finish_nil (last : Nat) (p : Parser) (n : Nat) :
    finish unicode sourceName last p n [] = p.flush unicode sourceName last := by
  simp only [finish, readAll, bind, Except.bind]

theorem finish_plain {last n : Nat} {p : Parser} {line : Line} (rest : List Line) (h : headingTitle line = none) :
    finish unicode sourceName last p n (line :: rest) =
      finish unicode sourceName last { p with body := p.body ++ [line] } (n + 1) rest := by
  rw [finish, readAll, read, h]
  rfl

theorem finish_heading {last n : Nat} {p q : Parser} {line : Line} {title : String} (rest : List Line)
    (h : headingTitle line = some title) (hflush : p.flush unicode sourceName (n - 1) = .ok q) :
    finish unicode sourceName last p n (line :: rest) =
      finish unicode sourceName last { q with heading := title, headingLine := n, body := [] } (n + 1) rest := by
  rw [finish, readAll, read, h]
  simp only [hflush]
  rfl

theorem finish_error {last n : Nat} {p : Parser} {line : Line} {title : String} {e : ParsingError}
    (rest : List Line) (h : headingTitle line = some title)
    (hflush : p.flush unicode sourceName (n - 1) = .error e) :
    finish unicode sourceName last p n (line :: rest) = .error e := by
  rw [finish, readAll, read, h]
  simp only [hflush]
  rfl

/-- The loop and the last flush succeed where every piece fits. -/
theorem finish_checked (hname : sourceName.length ≤ 255) {last : Nat} (hlast : last < 2 ^ 64)
    (lines : List Line) : ∀ (p : Parser) (n : Nat), p.Small lines.length → n + lines.length < 2 ^ 64 →
    Checked (∀ piece ∈ pieces p.heading p.body lines, Fits unicode sourceName piece)
      (finish unicode sourceName last p n lines) := by
  induction lines with
  | nil =>
    intro p n hsmall _
    rw [pieces, List.forall_mem_singleton, finish_nil]
    by_cases h : Fits unicode sourceName (p.heading, p.body)
    · obtain ⟨sections, hflush, _⟩ := flush_of_fits hname hsmall hlast h
      rw [hflush]
      exact Or.inl ⟨h, _, rfl⟩
    · exact Or.inr ⟨h, flush_of_not_fits hname hsmall h⟩
  | cons line rest ih =>
    intro p n hsmall hn
    rw [List.length_cons] at hsmall hn
    have hsections := hsmall.sections
    have hheading := hsmall.headingLine
    rw [pieces]
    cases ht : headingTitle line with
    | some title =>
      simp only [List.forall_mem_cons]
      by_cases h : Fits unicode sourceName (p.heading, p.body)
      · obtain ⟨sections, hflush, hlen⟩ := flush_of_fits hname hsmall (by omega : n - 1 < 2 ^ 64) h
        rw [finish_heading rest ht hflush]
        have hmore : sections.length + rest.length + 1 < 2 ^ 64 := by omega
        have hnumber : n < 2 ^ 64 := by omega
        have hsmall' : Small ⟨sections, title, n, []⟩ rest.length := ⟨hmore, hnumber⟩
        have hrest := ih ⟨sections, title, n, []⟩ (n + 1) hsmall' (by omega)
        cases hrest with
        | inl hok => exact Or.inl ⟨⟨h, hok.1⟩, hok.2⟩
        | inr hfail => exact Or.inr ⟨fun hall => hfail.1 hall.2, hfail.2⟩
      · obtain ⟨fields, hflush⟩ := flush_of_not_fits hname hsmall h
        rw [finish_error rest ht hflush]
        exact Or.inr ⟨fun hall => h hall.1, fields, rfl⟩
    | none =>
      rw [finish_plain rest ht]
      have hmore : p.sections.length + rest.length + 1 < 2 ^ 64 := by omega
      have hsmall' : Small { p with body := p.body ++ [line] } rest.length := ⟨hmore, hheading⟩
      exact ih { p with body := p.body ++ [line] } (n + 1) hsmall' (by omega)

end Parser

theorem length_le_size {payload : ByteArray} {text : String} (h : String.fromUTF8? payload = some text) :
    text.toList.length ≤ payload.size := by
  have hbytes : text.toByteArray = payload := by
    rw [String.fromUTF8?] at h
    by_cases hv : payload.IsValidUTF8
    · rw [dif_pos hv] at h
      rw [← Option.some.inj h]
      rfl
    · rw [dif_neg hv] at h
      cases h
  rw [String.length_toList, ← hbytes]
  exact Text.length_le_utf8ByteSize text

theorem splitLines_length (line : Line) (text : List Char) :
    (splitLines line text).length ≤ text.length + 1 := by
  fun_induction splitLines line text with
  | case1 => exact Nat.zero_le _
  | case2 => exact Nat.le_refl _
  | case3 line rest ih =>
    simp only [List.length_cons]
    omega
  | case4 line c rest _ _ ih =>
    simp only [List.length_cons]
    omega
  | case5 line c rest _ _ ih =>
    simp only [List.length_cons] at ih ⊢
    omega

theorem parseLines_declared_iff {unicode : Unicode} {sourceName : String} {lines : List Line}
    (hname : sourceName.length ≤ 255) (hlines : lines.length + 1 < 2 ^ 64) :
    Declared (parseLines unicode sourceName lines) ↔
      ∀ piece ∈ pieces (defaultTitle sourceName) [] lines, Fits unicode sourceName piece := by
  have hlength : ([] : List DocumentSection).length + lines.length + 1 < 2 ^ 64 := by
    rw [List.length_nil]
    omega
  have hone : 1 < 2 ^ 64 := by decide
  have hsmall : Parser.Small ⟨[], defaultTitle sourceName, 1, []⟩ lines.length := ⟨hlength, hone⟩
  have hchecked : Checked (∀ piece ∈ pieces (defaultTitle sourceName) [] lines, Fits unicode sourceName piece)
      (Parser.finish unicode sourceName lines.length ⟨[], defaultTitle sourceName, 1, []⟩ 1 lines) :=
    Parser.finish_checked hname (by omega) lines ⟨[], defaultTitle sourceName, 1, []⟩ 1 hsmall (by omega)
  have hparse : parseLines unicode sourceName lines =
      (Parser.finish unicode sourceName lines.length ⟨[], defaultTitle sourceName, 1, []⟩ 1 lines >>=
        fun p => if p.sections = [] then .error .documentParseError else .ok p.sections) := by
    rw [parseLines, Parser.finish, bind_assoc]
  rw [hparse]
  cases hchecked with
  | inl h =>
    obtain ⟨hfits, p, hp⟩ := h
    rw [hp]
    refine ⟨fun _ => hfits, fun _ => ?_⟩
    change Declared (if p.sections = [] then .error .documentParseError else .ok p.sections)
    by_cases he : p.sections = []
    · rw [if_pos he]
      exact Or.inr (Or.inl rfl)
    · rw [if_neg he]
      exact Or.inl ⟨p.sections, rfl, he⟩
  | inr h =>
    obtain ⟨hfits, fields, hp⟩ := h
    rw [hp]
    refine ⟨fun hd => ?_, fun hall => absurd hall hfits⟩
    change Declared (.error (.validationError fields)) at hd
    rcases hd with ⟨sections, he, _⟩ | he | he
    · cases he
    · cases he
    · cases he

/-- A Markdown document is parsed, or refused by one of the two errors of the parser, exactly if it
is refused before its sections are built or every piece of it fits a section. -/
theorem parse_document_declared_iff (unicode : Unicode) (readPdf : ByteArray → Option PdfDocument)
    (sourceName : String) (hname : sourceName.length ≤ 255) (payload : Payload)
    (maxMarkdownBytes maxPdfBytes maxPdfPages : Int) :
    Declared (parseDocument unicode readPdf sourceName "MARKDOWN" payload maxMarkdownBytes maxPdfBytes
      maxPdfPages) ↔
    (payload.bytes.size ≠ 0 → payload.bytes.size ≤ maxMarkdownBytes →
      ∀ text, String.fromUTF8? payload.bytes = some text →
        ∀ piece ∈ pieces (defaultTitle sourceName) [] (splitLines [] text.toList),
          Fits unicode sourceName piece) := by
  rw [parseDocument]
  by_cases hempty : payload.bytes.size = 0
  · rw [if_pos hempty]
    exact ⟨fun _ hne => absurd hempty hne, fun _ => Or.inr (Or.inl rfl)⟩
  · rw [if_neg hempty, if_pos rfl]
    by_cases hlimit : maxMarkdownBytes < payload.bytes.size
    · rw [if_pos hlimit]
      exact ⟨fun _ _ hle => absurd hlimit (Int.not_lt.mpr hle), fun _ => Or.inr (Or.inr rfl)⟩
    · rw [if_neg hlimit, parseMarkdown]
      cases ht : String.fromUTF8? payload.bytes with
      | none => exact ⟨fun _ _ _ text h => absurd h.symm (Option.some_ne_none text), fun _ => Or.inr (Or.inl rfl)⟩
      | some text =>
        have hsize := payload.size_lt
        have hchars := length_le_size ht
        have hcount := splitLines_length [] text.toList
        have hlines : Declared (parseLines unicode sourceName (splitLines [] text.toList)) ↔ ∀ piece ∈
            pieces (defaultTitle sourceName) [] (splitLines [] text.toList), Fits unicode sourceName piece :=
          parseLines_declared_iff hname (by omega)
        constructor
        · intro hd _ _ other he
          cases he
          exact hlines.mp hd
        · intro h
          exact hlines.mpr (h hempty (Int.not_lt.mp hlimit) text rfl)

/-- A document of one section. -/
def refunds : Payload := ⟨"# Refunds
Paid back orders.".toByteArray, by decide⟩

theorem refunds_declared_iff :
    Declared (parseDocument asciiUnicode (fun _ => none) "refunds.md" "MARKDOWN" refunds 2000000 10000000 100) ↔
    (refunds.bytes.size ≠ 0 → refunds.bytes.size ≤ (2000000 : Int) →
      ∀ text, String.fromUTF8? refunds.bytes = some text →
        ∀ piece ∈ pieces (defaultTitle "refunds.md") [] (splitLines [] text.toList),
          Fits asciiUnicode "refunds.md" piece) :=
  parse_document_declared_iff asciiUnicode (fun _ => none) "refunds.md" (by decide) refunds 2000000 10000000 100

/-- A heading line of blanks alone has an empty title. -/
def blankHeading : Payload := ⟨"#  
Paid back orders.".toByteArray, by decide⟩

theorem not_declared_blankHeading :
    parseDocument asciiUnicode (fun _ => none) "refunds.md" "MARKDOWN" blankHeading 2000000 10000000 100 =
      .error (.validationError ["title"]) ∧
    ¬ Declared (parseDocument asciiUnicode (fun _ => none) "refunds.md" "MARKDOWN" blankHeading
      2000000 10000000 100) := by
  have hrun : parseDocument asciiUnicode (fun _ => none) "refunds.md" "MARKDOWN" blankHeading 2000000 10000000
      100 = .error (.validationError ["title"]) := by decide
  refine ⟨hrun, ?_⟩
  rw [hrun]
  intro h
  rcases h with ⟨sections, he, _⟩ | he | he
  · cases he
  · cases he
  · cases he

end DataCopilot.Retrieval
