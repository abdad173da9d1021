import DataCopilot.Library.Result
import DataCopilot.Library.Text
import DataCopilot.Sql.Tree
import DataCopilot.Sql.Policy

/-! `SQLGuard.inspect`: the statement is parsed, its nodes are checked in turn, its columns
are qualified, and the bounded form is made from the generated text. -/
namespace DataCopilot.Sql
open Result

inductive PolicyReason where
  | emptyQuery | sqlParseError | multipleStatements | nonReadOnlyStatement
  | forbiddenSqlOperation | forbiddenFunction | functionNotAllowed | crossSchemaReference
  | tableNotAllowed | recursiveQueryNotAllowed | cartesianJoinNotAllowed | columnNotAllowed
deriving DecidableEq, Repr

/-- The `reason_code` that the error carries. -/
def PolicyReason.code : PolicyReason → String
  | .emptyQuery => "EMPTY_QUERY"
  | .sqlParseError => "SQL_PARSE_ERROR"
  | .multipleStatements => "MULTIPLE_STATEMENTS"
  | .nonReadOnlyStatement => "NON_READ_ONLY_STATEMENT"
  | .forbiddenSqlOperation => "FORBIDDEN_SQL_OPERATION"
  | .forbiddenFunction => "FORBIDDEN_FUNCTION"
  | .functionNotAllowed => "FUNCTION_NOT_ALLOWED"
  | .crossSchemaReference => "CROSS_SCHEMA_REFERENCE"
  | .tableNotAllowed => "TABLE_NOT_ALLOWED"
  | .recursiveQueryNotAllowed => "RECURSIVE_QUERY_NOT_ALLOWED"
  | .cartesianJoinNotAllowed => "CARTESIAN_JOIN_NOT_ALLOWED"
  | .columnNotAllowed => "COLUMN_NOT_ALLOWED"

theorem PolicyReason.code_ne_empty (r : PolicyReason) : r.code ≠ "" := by
  cases r <;> decide

theorem PolicyReason.code_ne_rejected (r : PolicyReason) : r.code ≠ "APPROVAL_REJECTED" := by
  cases r <;> decide

/-- What leaves `inspect`: the policy violation it raises itself, or an exception of a
library that it does not catch. -/
inductive GuardError where
  | policyViolation (reason : PolicyReason)
  | uncaught (className : String)
deriving DecidableEq, Repr

/-- One entry of the list that `parse` returns. -/
inductive Statement where
  | query (q : Query)
  | other

inductive ParseFailure where
  | parseError
  | tokenError
  | uncaught (className : String)

inductive QualifyFailure where
  | optimizeError
  | uncaught (className : String)

/-- Python's case mappings, and the folding of an unquoted identifier by PostgreSQL. -/
structure Casing where
  lower : String → String
  upper : String → String
  fold : String → String
  lower_fold : ∀ s, lower (fold s) = lower s

/-- sqlglot and hashlib, as the guard calls them. `walk` is the order of `find_all`: it
meets every node of the tree once. -/
structure Libraries where
  casing : Casing
  parse : String → Except ParseFailure (List (Option Statement))
  parseOne : String → Except ParseFailure Query
  walk : Query → List Node
  qualify : Query → String → List (String × Finset String) → Except QualifyFailure Statement
  sql : Query → String
  sha256 : String → String
  walk_perm : ∀ q, (walk q).Perm q.nodes
  sql_ne : ∀ q, sql q ≠ ""

namespace Libraries
variable (L : Libraries)

def findTables (q : Query) : List Table := (L.walk q).filterMap Node.table?
def findCtes (q : Query) : List Identifier := (L.walk q).filterMap Node.cte?
def findColumns (q : Query) : List Column := (L.walk q).filterMap Node.column?
def findFuncs (q : Query) : List Func := (L.walk q).filterMap Node.func?
def findJoins (q : Query) : List Join := (L.walk q).filterMap Node.join?
def findForbidden (q : Query) : List ForbiddenNode := (L.walk q).filterMap Node.forbidden?

theorem mem_walk {q : Query} {n : Node} : n ∈ L.walk q ↔ n ∈ q.nodes :=
  (L.walk_perm q).mem_iff

theorem mem_findTables {q : Query} {t : Table} : t ∈ L.findTables q ↔ Node.table t ∈ q.nodes := by
  simp only [findTables, List.mem_filterMap, mem_walk]
  constructor
  · rintro ⟨n, hn, ht⟩
    cases n <;> simp_all [Node.table?]
  · intro h
    exact ⟨_, h, rfl⟩

theorem mem_findCtes {q : Query} {c : Identifier} :
    c ∈ L.findCtes q ↔ Node.cte c ∈ q.nodes := by
  simp only [findCtes, List.mem_filterMap, mem_walk]
  constructor
  · rintro ⟨n, hn, hc⟩
    cases n <;> simp_all [Node.cte?]
  · intro h
    exact ⟨_, h, rfl⟩

end Libraries

def forbiddenFunctions : List String :=
  ["dblink", "dblink_exec", "lo_export", "lo_import", "nextval", "pg_ls_dir",
    "pg_read_binary_file", "pg_read_file", "pg_sleep", "set_config", "setval"]

def Join.isCartesian (c : Casing) (j : Join) : Bool :=
  c.upper j.kind = "CROSS" || (j.on == .absent && !j.usingColumns) || j.on == .boolean true

namespace SQLGuard
variable (L : Libraries) (policy : QueryPolicy)

def reject {α : Type} (reason : PolicyReason) : Except GuardError α :=
  .error (.policyViolation reason)

def checkFunction (f : Func) : Except GuardError Unit :=
  if L.casing.lower f.name ∈ forbiddenFunctions then reject .forbiddenFunction
  else if f.anonymous then reject .functionNotAllowed
  else pure ()

def checkFunctions (q : Query) : Except GuardError Unit :=
  (L.findFuncs q).forM (checkFunction L)

def checkQueryShape (q : Query) : Except GuardError Unit := do
  if q.recursiveWith then reject .recursiveQueryNotAllowed
  (L.findJoins q).forM fun j =>
    if j.isCartesian L.casing then reject .cartesianJoinNotAllowed else pure ()

def cteNames (q : Query) : List String := (L.findCtes q).map fun c => L.casing.lower c.text

/-- The references that the table check passes over: unqualified, with the lower-cased name
of some CTE of the statement. -/
def exempt (q : Query) (t : Table) : Bool :=
  t.db = "" && L.casing.lower t.name ∈ cteNames L q

def checkTable (t : Table) : Except GuardError String :=
  if t.catalog ≠ "" ∨ (t.db ≠ "" ∧ t.db ≠ policy.allowedSchema) then
    reject .crossSchemaReference
  else if t.name ∉ policy.allowedTables then reject .tableNotAllowed
  else pure (policy.allowedSchema ++ "." ++ t.name)

/-- What `checkTable` asks of a reference. -/
def admits (t : Table) : Prop :=
  t.catalog = "" ∧ (t.db = "" ∨ t.db = policy.allowedSchema) ∧ t.name ∈ policy.allowedTables

theorem checkTable_eq_ok (t : Table) (name : String) :
    checkTable policy t = .ok name ↔
      admits policy t ∧ policy.allowedSchema ++ "." ++ t.name = name := by
  unfold checkTable admits reject
  split
  · rename_i h
    simp only [reduceCtorEq, false_iff, not_and]
    grind
  · split
    · rename_i h
      simp [h]
    · rename_i hs hn
      simp only [pure_eq_ok]
      grind

def checkTables (q : Query) : Except GuardError (Finset String) := do
  let referenced ← ((L.findTables q).filter fun t => !exempt L q t).mapM (checkTable policy)
  pure referenced.toFinset

theorem checkTables_eq_ok {q : Query} {tables : Finset String} :
    checkTables L policy q = .ok tables ↔
      (∀ t, Node.table t ∈ q.nodes → exempt L q t = false → admits policy t) ∧
      (((L.findTables q).filter fun t => !exempt L q t).map
        fun t => policy.allowedSchema ++ "." ++ t.name).toFinset = tables := by
  simp only [checkTables, bind_eq_ok, pure_eq_ok, mapM_eq_ok (checkTable_eq_ok policy)]
  simp only [List.mem_filter, L.mem_findTables, Bool.not_eq_eq_eq_not, Bool.not_true, and_imp]
  constructor
  · rintro ⟨names, ⟨hall, rfl⟩, rfl⟩
    exact ⟨hall, rfl⟩
  · rintro ⟨hall, rfl⟩
    exact ⟨_, ⟨hall, rfl⟩, rfl⟩

def qualifyColumns (q : Query) : Except GuardError Query :=
  if policy.allowedColumns = [] then pure q
  else
    match L.qualify q policy.allowedSchema policy.allowedColumns with
    | .error .optimizeError => reject .columnNotAllowed
    | .error (.uncaught name) => .error (.uncaught name)
    | .ok .other => reject .nonReadOnlyStatement
    | .ok (.query qualified) => pure qualified

def fingerprintQuery (query : String) : String := "sha256:" ++ L.sha256 query

def guarded (q : Query) (tables : Finset String) : GuardedQuery where
  normalizedSql := L.sql q
  boundedSql := "SELECT * FROM (" ++ L.sql q ++ ") AS _copilot_bounded LIMIT "
    ++ toString (policy.maxRows + 1)
  queryFingerprint := fingerprintQuery L (L.sql q)
  referencedTables := sorted tables
  rowFetchLimit := policy.maxRows + 1
  sql_ok := L.sql_ne q
  limit_ok := Nat.succ_le_succ policy.rows_ok.1

def inspectQuery (q : Query) : Except GuardError GuardedQuery := do
  if L.findForbidden q ≠ [] then reject .forbiddenSqlOperation
  checkFunctions L q
  checkQueryShape L q
  let tables ← checkTables L policy q
  let qualified ← qualifyColumns L policy q
  pure (guarded L policy qualified tables)

def inspect (query : String) : Except GuardError GuardedQuery :=
  if Text.strip query = "" then reject .emptyQuery
  else
    match L.parse query with
    | .error (.uncaught name) => .error (.uncaught name)
    | .error _ => reject .sqlParseError
    | .ok [some (.query q)] => inspectQuery L policy q
    | .ok [_] => reject .nonReadOnlyStatement
    | .ok _ => reject .multipleStatements

theorem inspectQuery_eq_ok {q : Query} {g : GuardedQuery}
    (h : inspectQuery L policy q = .ok g) :
    ∃ tables qualified, checkTables L policy q = .ok tables ∧
      qualifyColumns L policy q = .ok qualified ∧ g = guarded L policy qualified tables := by
  unfold inspectQuery at h
  split at h
  · cases h
  · simp only [bind_eq_ok, pure_eq_ok] at h
    obtain ⟨_, _, _, _, tables, ht, qualified, hq, rfl⟩ := h
    exact ⟨tables, qualified, ht, hq, rfl⟩

theorem inspect_eq_ok {query : String} {g : GuardedQuery} (h : inspect L policy query = .ok g) :
    ∃ q, L.parse query = .ok [some (.query q)] ∧ inspectQuery L policy q = .ok g := by
  unfold inspect at h
  split at h
  · cases h
  · split at h
    · cases h
    · cases h
    · rename_i q hp
      exact ⟨q, hp, h⟩
    · cases h
    · cases h

end SQLGuard
end DataCopilot.Sql
