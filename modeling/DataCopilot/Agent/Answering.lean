import DataCopilot.Library.Decimal
import DataCopilot.Library.Text
import DataCopilot.Agent.Python
import Mathlib.Data.List.Lex
import Mathlib.Data.List.Sort
import Mathlib.Data.String.Basic

/-! The grounded description of a result table (`answering`) and the closed chart contract
(`charting`). Cells are what `json.loads` gives back. -/
namespace DataCopilot.Agent
open Text

inductive Cell where
  | none
  | bool (b : Bool)
  | number (text : String)
  | string (text : String)
  | other (text : String)
deriving DecidableEq, Repr

/-- `str(value)`. -/
def Cell.text : Cell → String
  | .none => "None"
  | .bool true => "True"
  | .bool false => "False"
  | .number s | .string s | .other s => s

abbrev Row := List (String × Cell)

/-- `row.get(column)`. -/
def Row.cell (row : Row) (column : String) : Cell := (row.lookup column).getD .none

namespace Answering
variable (py : Python)

def number : Cell → Option ℚ
  | .none | .bool _ => none
  | c => py.decimal c.text

def marked (markers : List String) (column : String) : Bool :=
  markers.any fun m => contains (py.lower column) m

def dimensionMarkers : List String :=
  ["_id", "id_", "year", "month", "quarter", "date", "time", "rank", "年份", "月份", "季度", "日期"]

def periodMarkers : List String :=
  ["year", "month", "quarter", "date", "年份", "月份", "季度", "日期"]

def dimension (column : String) : Bool := marked py dimensionMarkers column

def text (c : Cell) : String :=
  String.ofList ((joinWith " " (words c.text)).toList.take 80)

def label (columns : List String) (row : Row) (metric : String) : String :=
  match (columns.filter (· ≠ metric)).map fun k => k ++ "=" ++ text (row.cell k) with
  | [] => ""
  | dimensions => joinWith "、" (dimensions.take 2) ++ "的"

def firstRow (columns : List String) (row : Row) : String :=
  match (columns.take 3).map fun k => k ++ "=" ++ text (row.cell k) with
  | [] => ""
  | fields => "首行：" ++ joinWith "、" fields ++ "。"

/-- The keys `tuple(str(row.get(column, "")) for column in periods)`. -/
def periodKeys (columns : List String) (rows : List Row) : List (List String) :=
  rows.map fun row => (columns.filter (marked py periodMarkers)).map fun k =>
    ((row.lookup k).map Cell.text).getD ""

def direction (change : ℚ) : String :=
  if 0 < change then "增长" else if change < 0 then "下降" else "持平"

/-- The change between two numbers, and as a percentage of the first unless that is zero. `none`
is a `decimal.Overflow`. -/
def changeOf (first last : ℚ) : Option (ℚ × Option ℚ) := do
  let change ← Py.decimalResult (last - first)
  if first = 0 then some (change, none)
  else
    let part ← Py.decimalResult (change / first)
    let percent ← Py.decimalResult (part * 100)
    some (change, some percent)

def changeSentence (metric : String) (change : ℚ) (percent : Option ℚ) : String :=
  "从首期到末期，" ++ metric ++ direction change ++ " " ++ py.plain change ++
    (match percent with
      | none => ""
      | some percent => "，约 " ++ py.percent percent ++ "%") ++
    "（仅比较返回的首末期）。"

/-- The number in the metric column of a row. -/
def metricNumber (metric : String) (row : Option Row) : Option ℚ :=
  row.bind fun r => number py (r.cell metric)

def periodChange (columns : List String) (rows : List Row) (metric : String) : Option String :=
  let keys := periodKeys py columns rows
  if columns.filter (marked py periodMarkers) = [] then some ""
  else if keys ≠ keys.insertionSort (· ≤ ·) ∨ keys.head? = keys.getLast? then some ""
  else
    match metricNumber py metric rows.head?, metricNumber py metric rows.getLast? with
    | some first, some last =>
      (changeOf first last).map fun c => changeSentence py metric c.1 c.2
    | _, _ => some ""

/-- The first column that is no dimension and a number in every row. -/
def metricColumn (columns : List String) (rows : List Row) : Option String :=
  columns.find? fun k => !dimension py k && rows.all fun row => (number py (row.cell k)).isSome

/-- The first row in which `better` finds no improvement over the rows before it, as `max`
and `min` with a key choose. -/
def extreme (better : ℚ → ℚ → Bool) (metric : String) (first : Row) (rows : List Row) : Row :=
  rows.foldl (fun best row =>
    if better ((number py (row.cell metric)).getD 0) ((number py (best.cell metric)).getD 0)
    then row else best) first

def rowsPhrase (rows : List Row) : String := "查询返回 " ++ toString rows.length ++ " 行"

def emptyAnswer (truncated : Bool) : String :=
  if truncated then "查询已执行，但结果在返回第一行前触及大小上限，无法判断是否有符合条件的数据。"
  else "查询已完成，但没有符合条件的数据。"

def metricAnswer (columns : List String) (rows : List Row) (first : Row) (metric : String) :
    String :=
  let entry row := label columns row metric ++ metric ++ "为 " ++ text (row.cell metric)
  let extremum row := label columns row metric ++ text (row.cell metric)
  if rows.length = 1 then "查询返回 1 行：" ++ entry first ++ "。"
  else if rows.length ≤ 4 then rowsPhrase rows ++ "：" ++ joinWith "；" (rows.map entry) ++ "。"
  else
    rowsPhrase rows ++ "。在已返回数据中，" ++ metric ++ "最高的是" ++
      extremum (extreme py (fun a b => b < a) metric first rows) ++ "，最低的是" ++
      extremum (extreme py (fun a b => a < b) metric first rows) ++ "。"

def rowsAnswer (columns : List String) (rows : List Row) (first : Row) : Option String :=
  match metricColumn py columns rows with
  | none => some (rowsPhrase rows ++ "。" ++ firstRow columns first)
  | some metric =>
    (if 1 < rows.length then periodChange py columns rows metric else some "").map
      (metricAnswer py columns rows first metric ++ ·)

def truncationNote (rows : List Row) (truncated : Bool) : String :=
  if truncated then
    "结果已截断，上述描述仅基于返回的 " ++ toString rows.length ++ " 行，不代表完整结果。"
  else ""

/-- `none` is a `decimal.Overflow`. -/
def describeSqlResult (columns : List String) (rows : List Row) (truncated : Bool) : Option String :=
  match rows with
  | [] => some (emptyAnswer truncated)
  | first :: _ => (rowsAnswer py columns rows first).map (· ++ truncationNote rows truncated)

theorem rowsPhrase_append_ne (rows : List Row) (s : String) : rowsPhrase rows ++ s ≠ "" := by
  rw [rowsPhrase, String.append_assoc, String.append_assoc]
  exact append_ne_empty _ (by decide)

theorem metricAnswer_ne (columns : List String) (rows : List Row) (first : Row)
    (metric : String) : metricAnswer py columns rows first metric ≠ "" := by
  unfold metricAnswer
  split
  · rw [String.append_assoc]
    exact append_ne_empty _ (by decide)
  · split
    · simp only [String.append_assoc]
      exact rowsPhrase_append_ne rows _
    · simp only [String.append_assoc]
      exact rowsPhrase_append_ne rows _

theorem rowsAnswer_ne {columns : List String} {rows : List Row} {first : Row} {answer : String}
    (h : rowsAnswer py columns rows first = some answer) : answer ≠ "" := by
  unfold rowsAnswer at h
  split at h
  · cases h
    rw [String.append_assoc]
    exact rowsPhrase_append_ne rows _
  · obtain ⟨change, _, rfl⟩ := Option.map_eq_some_iff.mp h
    exact append_ne_empty _ (metricAnswer_ne py columns rows first _)

/-- A data answer is never empty, whatever the query returned. -/
theorem describeSqlResult_ne {columns : List String} {rows : List Row} {truncated : Bool} {answer : String}
    (h : describeSqlResult py columns rows truncated = some answer) : answer ≠ "" := by
  cases rows with
  | nil =>
    cases h
    cases truncated <;> decide
  | cons first rest =>
    obtain ⟨_, hrows, rfl⟩ := Option.map_eq_some_iff.mp h
    exact append_ne_empty _ (rowsAnswer_ne py hrows)

end Answering

inductive ChartType where
  | bar | line | pie | table
deriving DecidableEq, Repr

structure ChartSpec where
  type : ChartType
  title : String
  x : Option String := none
  series : List String := []
deriving DecidableEq, Repr

namespace Charting
variable (py : Python)

def isNumber : Cell → Bool
  | .number _ => true
  | .string s => strip s ≠ "" && (py.decimal s).isSome
  | _ => false

def lineMarkers : List String :=
  ["date", "time", "month", "year", "quarter", "日期", "月份", "季度"]

def emptyChart : ChartSpec := ⟨.table, "查询结果", none, []⟩

/-- `none` is the validation error of a first column name longer than 160 characters. -/
def buildChartSpec (columns : List String) (rows : List Row) : Option ChartSpec :=
  match columns with
  | [] | [_] => some emptyChart
  | x :: rest =>
    let numeric := (rest.filter fun k =>
      (rows.take 50).any fun row => isNumber py (row.cell k)).take 3
    if rows = [] ∨ numeric = [] then some emptyChart
    else if 160 < x.length then none
    else
      let type :=
        if Answering.marked py lineMarkers x then ChartType.line
        else if rows.length ≤ 8 ∧ numeric.length = 1 then .pie else .bar
      some ⟨type, "分析结果", some x, numeric⟩

end Charting
end DataCopilot.Agent
