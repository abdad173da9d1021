import DataCopilot.Library.Result
import DataCopilot.Library.Trim
import DataCopilot.Library.Windows
import DataCopilot.Retrieval.Models

/-! The Markdown parser: the lines between two headings become a section that is cited by its
range of lines. -/
namespace DataCopilot.Retrieval
open Text

abbrev Line := List Char

/-- What the parser asks of the Unicode tables: `str.lower` and the class `\w`. -/
structure Unicode where
  lower : String → String
  word : Char → Bool

def isLineBreak (c : Char) : Bool :=
  c.toNat ∈ [0x0A, 0x0B, 0x0C, 0x0D, 0x1C, 0x1D, 0x1E, 0x85, 0x2028, 0x2029]

/-- `str.splitlines`, after the characters of a line in reverse. -/
def splitLines (line : Line) : List Char → List Line
  | [] => if line = [] then [] else [line.reverse]
  | '\r' :: '\n' :: rest => line.reverse :: splitLines [] rest
  | c :: rest => if isLineBreak c then line.reverse :: splitLines [] rest else splitLines (c :: line) rest

section Heading

/-- How many characters of a class a repetition can take, the fewest first. -/
def repeats (p : Char → Bool) (least : Nat) (most : Option Nat) (text : List Char) : List Nat :=
  (List.range ((text.takeWhile p).length + 1)).filter fun k => least ≤ k ∧ ∀ m ∈ most, k ≤ m

def lazy (p : Char → Bool) (least : Nat) (most : Option Nat) (text : List Char) :
    List (List Char × List Char) :=
  (repeats p least most text).map text.splitAt

def greedy (p : Char → Bool) (least : Nat) (most : Option Nat) (text : List Char) :
    List (List Char × List Char) :=
  (repeats p least most text).reverse.map text.splitAt

/-- What the second group of `^(#{1,6})\s+(.+?)\s*$` takes in each match, in the order in which
the matcher tries them. -/
def headingMatches (line : Line) : List (List Char) :=
  (greedy (· == '#') 1 (some 6) line).flatMap fun marks =>
  (greedy isSpace 1 none marks.2).flatMap fun space =>
  (lazy (· != '\n') 1 none space.2).flatMap fun title =>
  (greedy isSpace 0 none title.2).flatMap fun final =>
    if final.2 = [] ∨ final.2 = ['\n'] then [title.1] else []

/-- `match.group(2).strip()` where the heading pattern matches a line. -/
def headingTitle (line : Line) : Option String :=
  (headingMatches line).head?.map fun title => strip (String.ofList title)

end Heading

/-- `re.sub` of every run of characters that are not kept by a hyphen. -/
def hyphenate (keep : Char → Bool) (inRun : Bool) : List Char → List Char
  | [] => []
  | c :: rest =>
    if keep c then c :: hyphenate keep false rest
    else if inRun then hyphenate keep true rest
    else '-' :: hyphenate keep true rest

def sectionKey (unicode : Unicode) (sourceName heading : String) (ordinal : Nat) : String :=
  let keep c := unicode.word c || (0x4E00 ≤ c.toNat && c.toNat ≤ 0x9FFF)
  let slug := trim (· == '-') (hyphenate keep false (unicode.lower heading).toList)
  sourceName ++ "#" ++
    if slug = [] then "section-" ++ toString (ordinal + 1) else String.ofList slug

/-- `PurePath(source_name).stem`. -/
def stem (sourceName : String) : String :=
  let parts := (sourceName.toList.splitOnP (· == '/')).filter fun part => part ≠ [] ∧ part ≠ ['.']
  let name := parts.getLast?.getD []
  let i := Windows.rfind ['.'] name 0 name.length
  String.ofList (if 0 < i ∧ i < name.length - 1 then name.take i.toNat else name)

def defaultTitle (sourceName : String) : String :=
  if stem sourceName = "" then "Document" else stem sourceName

structure Parser where
  sections : List DocumentSection
  heading : String
  headingLine : Nat
  body : List Line

/-- `"\n".join(body).strip()`. -/
def sectionContent (body : List Line) : String := strip (String.ofList (['\n'].intercalate body))

def sectionLocator (first last : Nat) : String := "lines=" ++ toString first ++ "-" ++ toString last

namespace Parser
variable (unicode : Unicode) (sourceName : String)

def flush (p : Parser) (endLine : Nat) : Except ParsingError Parser :=
  if sectionContent p.body = "" then .ok p
  else do
    let s ← DocumentSection.make (sectionKey unicode sourceName p.heading p.sections.length) p.heading
      (sectionLocator p.headingLine (max p.headingLine endLine)) (sectionContent p.body)
    .ok { p with sections := p.sections ++ [s] }

def read (p : Parser) (lineNumber : Nat) (line : Line) : Except ParsingError Parser :=
  match headingTitle line with
  | some title => do
    let q ← p.flush unicode sourceName (lineNumber - 1)
    .ok { q with heading := title, headingLine := lineNumber, body := [] }
  | none => .ok { p with body := p.body ++ [line] }

/-- The loop over the lines that are numbered from `lineNumber` on. -/
def readAll (p : Parser) (lineNumber : Nat) : List Line → Except ParsingError Parser
  | [] => .ok p
  | line :: rest => do
    let q ← p.read unicode sourceName lineNumber line
    q.readAll (lineNumber + 1) rest

end Parser

def parseLines (unicode : Unicode) (sourceName : String) (lines : List Line) :
    Except ParsingError (List DocumentSection) := do
  let p ← Parser.readAll unicode sourceName ⟨[], defaultTitle sourceName, 1, []⟩ 1 lines
  let p ← p.flush unicode sourceName lines.length
  if p.sections = [] then .error .documentParseError else .ok p.sections

def parseMarkdown (unicode : Unicode) (sourceName : String) (payload : ByteArray) :
    Except ParsingError (List DocumentSection) :=
  match String.fromUTF8? payload with
  | none => .error .documentParseError
  | some text => parseLines unicode sourceName (splitLines [] text.toList)

end DataCopilot.Retrieval
