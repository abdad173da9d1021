import Mathlib.Data.Finset.Sort
import Mathlib.Data.Rat.Defs
import Mathlib.Algebra.Order.Ring.Rat
import Mathlib.Data.String.Basic
import Mathlib.Tactic.NormNum

/-! What a query may do, and what the guard hands to the executor. The bounds that the
source checks on construction are fields, so that no value breaks them. -/
namespace DataCopilot.Sql

/-- The pattern `^[a-z_][a-z0-9_]*$`. -/
def lowerIdentifier (name : String) : Bool :=
  match name.toList with
  | [] => false
  | c :: cs => (c.isLower || c == '_') && cs.all fun d => d.isLower || d.isDigit || d == '_'

/-! The default limits pass their own checks. -/

theorem defaultMaxRows_ok : 1 ≤ 100 ∧ 100 ≤ 10000 := by decide

theorem defaultMaxColumns_ok : 1 ≤ 50 ∧ 50 ≤ 500 := by decide

theorem defaultMaxResultBytes_ok : 64 ≤ 1000000 ∧ 1000000 ≤ 10000000 := by decide

theorem defaultMaxTotalCost_ok : (0 : ℚ) < 10000 := by norm_num

theorem defaultMaxPlanRows_ok : 1 ≤ 100000 := by decide

/-- The Unicode test that the source makes on table and column names is not repeated. -/
structure QueryPolicy where
  allowedSchema : String
  allowedTables : Finset String
  allowedColumns : List (String × Finset String) := []
  maxRows : Nat := 100
  maxColumns : Nat := 50
  maxResultBytes : Nat := 1000000
  maxTotalCost : ℚ := 10000
  maxPlanRows : Nat := 100000
  schema_ok : lowerIdentifier allowedSchema = true := by exact Eq.refl true
  tables_ok : allowedTables.Nonempty
  rows_ok : 1 ≤ maxRows ∧ maxRows ≤ 10000 := by first | exact defaultMaxRows_ok | decide
  columns_ok : 1 ≤ maxColumns ∧ maxColumns ≤ 500 := by first | exact defaultMaxColumns_ok | decide
  bytes_ok : 64 ≤ maxResultBytes ∧ maxResultBytes ≤ 10000000 := by
    first | exact defaultMaxResultBytes_ok | decide
  cost_ok : 0 < maxTotalCost := by first | exact defaultMaxTotalCost_ok | norm_num
  planRows_ok : 1 ≤ maxPlanRows := by first | exact defaultMaxPlanRows_ok | decide

/-- `None` is the ValueError. -/
def QueryPolicy.restrictToTables (p : QueryPolicy) (names : Finset String) :
    Option QueryPolicy :=
  if h : names.Nonempty ∧ names ⊆ p.allowedTables then
    some { p with
      allowedTables := names
      allowedColumns := p.allowedColumns.filter fun entry => entry.1 ∈ names
      tables_ok := h.1 }
  else none

structure GuardedQuery where
  normalizedSql : String
  boundedSql : String
  queryFingerprint : String
  referencedTables : List String
  rowFetchLimit : Nat
  sql_ok : normalizedSql ≠ ""
  limit_ok : 2 ≤ rowFetchLimit
deriving DecidableEq

structure QueryCostEstimate where
  totalCost : ℚ
  planRows : Nat

/-- `sorted` of a set of strings: by code points, each once. -/
def sorted (names : Finset String) : List String := names.sort (· ≤ ·)

theorem sorted_inj {a b : Finset String} : sorted a = sorted b ↔ a = b := by
  constructor
  · intro h
    have := congrArg List.toFinset h
    simpa [sorted] using this
  · rintro rfl
    rfl

end DataCopilot.Sql
