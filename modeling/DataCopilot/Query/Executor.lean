import DataCopilot.Library.Dict
import DataCopilot.Library.Json
import DataCopilot.Library.Utf8
import DataCopilot.Query.SafeQuery

/-! `PostgresReadOnlyExecutor`: the bounded query runs in a read-only transaction, and its rows are
taken as long as their JSON text stays within the byte limit. -/
namespace DataCopilot.Query
open Sql Agent Effects Utf8

/-- A value as the driver returns it. A text of it may hold a surrogate, which the escapes of a
`json` column can write. `other` is one that `json.dumps` writes by its `str`. -/
inductive Value where
  | none
  | bool (b : Bool)
  | number (literal : String)
  | text (s : List CodePoint)
  | list (items : List Value)
  | dict (fields : List (List CodePoint × Value))
  | other (str : List CodePoint)

mutual

/-- The value that `json.dumps(value, default=str)` writes, if the text has bytes. -/
def Value.json : Value → Option Json
  | .none => some .null
  | .bool b => some (.bool b)
  | .number literal => some (.number literal)
  | .text s => (wellFormed s).map .string
  | .list items => (jsonItems items).map .array
  | .dict fields => (jsonFields fields).map .object
  | .other str => (wellFormed str).map .string

def jsonItems : List Value → Option (List Json)
  | [] => some []
  | v :: rest => do
    let j ← v.json
    let js ← jsonItems rest
    some (j :: js)

def jsonFields : List (List CodePoint × Value) → Option (List (String × Json))
  | [] => some []
  | (k, v) :: rest => do
    let key ← wellFormed k
    let j ← v.json
    let js ← jsonFields rest
    some ((key, j) :: js)

end

/-- A row by the names of its columns. -/
abbrev RowDict := List (String × Value)

def RowDict.json (row : RowDict) : Option Json :=
  (row.mapM fun (f : String × Value) => f.2.json.map (f.1, ·)).map .object

/-- `QueryExecutionResult`, with its rows as JSON objects. -/
structure JsonResult where
  columns : List String
  rows : List Json
  returnedRowCount : Nat
  serializedBytes : Nat
  truncated : Bool

/-- `len(json.dumps(value, ensure_ascii=False, separators=(",", ":")).encode())`. -/
def encodedSize (j : Json) : Nat := (Utf8.encode (Json.render ⟨false, [','], [':']⟩ j)).length

def envelope (columns : List String) (rows : List Json) : Json :=
  .object [("columns", .array (columns.map .string)), ("rows", .array rows)]

/-- What nests too deeply for `json.dumps` and `json.loads` under the interpreter's recursion
limit. -/
structure Nesting where
  dumps : RowDict → Bool
  loads : Json → Bool

/-- `dict(zip(columns, raw_row, strict=True))`. -/
def rowDict (columns : List String) (rawRow : List Value) : Except Raised RowDict :=
  if rawRow.length = columns.length then .ok (Dict.entries (columns.zip rawRow))
  else .error (.other "ValueError")

section Bounded
variable (N : Nesting) (columns : List String)

/-- `json.dumps(row).encode()`, as the value that is written. -/
def dumpRow (row : RowDict) : Except Raised Json :=
  if N.dumps row = true then .error (.other "RecursionError")
  else
    match row.json with
    | none => .error (.other "UnicodeEncodeError")
    | some encoded => .ok encoded

def loadRow (encoded : Json) : Except Raised Json :=
  if N.loads encoded = true then .error (.other "RecursionError") else .ok encoded

/-- The variables of the loop over the rows. -/
structure Bounding where
  rows : List Json
  serializedBytes : Nat
  truncated : Bool

def takeRows (limit : Nat) (b : Bounding) : List (List Value) → Except Raised Bounding
  | [] => .ok b
  | rawRow :: rest => do
    let row ← rowDict columns rawRow
    let encoded ← dumpRow N row
    let addedSize := encodedSize encoded + if b.rows = [] then 0 else 1
    if limit < b.serializedBytes + addedSize then .ok { b with truncated := true }
    else
      let loaded ← loadRow N encoded
      takeRows limit ⟨b.rows ++ [loaded], b.serializedBytes + addedSize, b.truncated⟩ rest

def boundedResult (rawRows : List (List Value)) (policy : QueryPolicy) :
    Except Raised JsonResult :=
  let baseSize := encodedSize (envelope columns [])
  if policy.maxResultBytes < baseSize then .error (.safety .resultLimit)
  else do
    let b ← takeRows N columns policy.maxResultBytes
      ⟨[], baseSize, decide (policy.maxRows < rawRows.length)⟩ (rawRows.take policy.maxRows)
    .ok ⟨columns, b.rows, b.rows.length, b.serializedBytes, b.truncated⟩

end Bounded

inductive Statement where
  | setTransactionReadOnly
  | setStatementTimeout (ms : String)
  | query (sql : String)

/-- What the last statement leaves: its columns, unless it returns no rows, and the rows. -/
structure Cursor where
  description : Option (List String)
  rows : List (List Value)

inductive DriverError where
  | dataSource | queryCanceled | insufficientPrivilege | psycopg | os | timeout
  | other (className : String)

def DriverError.raised : DriverError → Raised
  | .queryCanceled => .safety .timeout
  | .insufficientPrivilege => .safety .permission
  | .dataSource | .psycopg | .os | .timeout => .safety .execution
  | .other className => .other className

/-- A connection whose transaction runs some statements. -/
abbrev Driver := List Statement → Except DriverError Cursor

def session (statementTimeoutMs : Nat) (sql : String) : List Statement :=
  [.setTransactionReadOnly, .setStatementTimeout (toString statementTimeoutMs), .query sql]

def executeReadOnly (N : Nesting) (driver : Driver) (query : GuardedQuery) (statementTimeoutMs : Nat)
    (policy : QueryPolicy) : Except Raised JsonResult :=
  match driver (session statementTimeoutMs query.boundedSql) with
  | .error e => .error e.raised
  | .ok cursor =>
    match cursor.description with
    | none => .error (.safety .execution)
    | some columns =>
      if policy.maxColumns < columns.length ∨ ¬ columns.Nodup then .error (.safety .resultLimit)
      else boundedResult N columns (cursor.rows.take query.rowFetchLimit) policy

/-- A row as it stands in the result, if it can be written. -/
def rowJson (columns : List String) (rawRow : List Value) : Option Json :=
  RowDict.json (columns.zip rawRow)

theorem row_dict {columns : List String} {rawRow : List Value} (hc : columns.Nodup)
    (hr : rawRow.length = columns.length) :
    rowDict columns rawRow = .ok (columns.zip rawRow) := by
  have hk : (columns.zip rawRow).map Prod.fst = columns := List.map_fst_zip hr.ge
  rw [rowDict, if_pos hr, Dict.entries_of_nodup (by rw [hk]; exact hc)]

section Size
variable (columns : List String)

theorem size_snoc (rows : List Json) (row : Json) :
    encodedSize (envelope columns (rows ++ [row])) =
      encodedSize (envelope columns rows) + (encodedSize row + if rows = [] then 0 else 1) := by
  have hcomma : Char.utf8Size ',' = 1 := rfl
  simp only [encodedSize, envelope, Json.render, Json.renderFields, Json.renderItems_snoc,
    Utf8.encode_length_cons, Utf8.encode_append, List.length_append]
  by_cases h : rows = []
  · rw [if_pos h, if_pos h]
    simp only [Utf8.encode_nil, List.length_nil]
    omega
  · rw [if_neg h, if_neg h]
    simp only [Utf8.encode_length_cons, Utf8.encode_nil, List.length_nil, hcomma]
    omega

theorem size_le_append (rows more : List Json) :
    encodedSize (envelope columns rows) ≤ encodedSize (envelope columns (rows ++ more)) := by
  induction more using List.reverseRecOn with
  | nil => rw [List.append_nil]
  | append_singleton more row ih =>
    rw [← List.append_assoc, size_snoc]
    omega

end Size

/-- The bytes counted so far are those of the text, and stay within the limit. -/
structure Fitted (columns : List String) (limit : Nat) (b : Bounding) : Prop where
  size : b.serializedBytes = encodedSize (envelope columns b.rows)
  fits : b.serializedBytes ≤ limit

section Loop
variable {N : Nesting} {columns : List String} {limit : Nat}

theorem dump_row_json {row : RowDict} {encoded : Json} (h : dumpRow N row = .ok encoded) :
    row.json = some encoded := by
  rw [dumpRow] at h
  split at h
  · cases h
  · split at h
    · cases h
    · next heq => rw [heq, Except.ok.inj h]

theorem dump_row_other {row : RowDict} {e : Raised} (h : dumpRow N row = .error e) :
    ∃ className, e = .other className := by
  rw [dumpRow] at h
  split at h
  · exact ⟨_, (Except.error.inj h).symm⟩
  · split at h
    · exact ⟨_, (Except.error.inj h).symm⟩
    · cases h

theorem load_row_same {encoded loaded : Json} (h : loadRow N encoded = .ok loaded) :
    encoded = loaded := by
  rw [loadRow] at h
  split at h
  · cases h
  · exact Except.ok.inj h

theorem load_row_other {encoded : Json} {e : Raised} (h : loadRow N encoded = .error e) :
    ∃ className, e = .other className := by
  rw [loadRow] at h
  split at h
  · exact ⟨_, (Except.error.inj h).symm⟩
  · cases h

/-- After these rows, `json` can write the row, and read it again where it fits. -/
def Readable (N : Nesting) (columns : List String) (limit : Nat) (before : List Json)
    (rawRow : List Value) : Prop :=
  ∃ encoded, dumpRow N (columns.zip rawRow) = .ok encoded ∧
    (encodedSize (envelope columns (before ++ [encoded])) ≤ limit → N.loads encoded = false)

variable {rawRows : List (List Value)} {b : Bounding}

/-- The loop takes the first `k` rows: all of them, or those before the first one that does not
fit. -/
theorem take_rows_fitted (hc : columns.Nodup) (hr : ∀ r ∈ rawRows, r.length = columns.length)
    (hb : Fitted columns limit b)
    (hread : ∀ n rawRow js, rawRows[n]? = some rawRow →
      (rawRows.take n).mapM (rowJson columns) = some js →
      encodedSize (envelope columns (b.rows ++ js)) ≤ limit →
      Readable N columns limit (b.rows ++ js) rawRow) :
    ∃ k js c, takeRows N columns limit b rawRows = .ok c ∧ Fitted columns limit c ∧
      (rawRows.take k).mapM (rowJson columns) = some js ∧ c.rows = b.rows ++ js ∧
      ((k = rawRows.length ∧ c.truncated = b.truncated) ∨
        (k < rawRows.length ∧ c.truncated = true ∧ ∃ j,
          (rawRows.take (k + 1)).mapM (rowJson columns) = some (js ++ [j]) ∧
          limit < encodedSize (envelope columns (b.rows ++ js ++ [j])))) := by
  induction rawRows generalizing b with
  | nil => exact ⟨0, [], b, rfl, hb, rfl, by rw [List.append_nil], .inl ⟨rfl, rfl⟩⟩
  | cons rawRow rest ih =>
    have hnow := hread 0 rawRow [] rfl rfl (by rw [List.append_nil, ← hb.size]; exact hb.fits)
    rw [List.append_nil] at hnow
    obtain ⟨encoded, hdump, hload⟩ := hnow
    have hjson : rowJson columns rawRow = some encoded := dump_row_json hdump
    have hsize := size_snoc columns b.rows encoded
    rw [takeRows, row_dict hc (hr rawRow List.mem_cons_self)]
    simp only [bind, Except.bind, hdump]
    by_cases hlimit : limit < b.serializedBytes +
        (encodedSize encoded + if b.rows = [] then 0 else 1)
    · rw [if_pos hlimit]
      refine ⟨0, [], _, rfl, ⟨hb.size, hb.fits⟩, rfl, by rw [List.append_nil], .inr ⟨by simp, rfl, encoded, ?_, ?_⟩⟩
      · rw [List.take_succ_cons, List.take_zero, List.mapM_cons, hjson]
        rfl
      · rw [List.append_nil, hsize, ← hb.size]
        exact hlimit
    · rw [if_neg hlimit]
      have hfits : encodedSize (envelope columns (b.rows ++ [encoded])) ≤ limit := by
        rw [hsize, ← hb.size]
        exact Nat.le_of_not_lt hlimit
      have hloaded : loadRow N encoded = .ok encoded := by
        rw [loadRow, hload hfits]
        rfl
      have hb' : Fitted columns limit ⟨b.rows ++ [encoded], b.serializedBytes +
          (encodedSize encoded + if b.rows = [] then 0 else 1), b.truncated⟩ := by
        constructor
        · rw [hsize, hb.size]
        · exact Nat.le_of_not_lt hlimit
      have htaken : ∀ n js, (rest.take n).mapM (rowJson columns) = some js →
          ((rawRow :: rest).take (n + 1)).mapM (rowJson columns) = some (encoded :: js) := by
        intro n js h
        rw [List.take_succ_cons, List.mapM_cons, hjson, h]
        rfl
      simp only [hloaded]
      obtain ⟨k, js, c, ht, hcf, hjs, hrows, hk⟩ := ih
        (fun r h => hr r (List.mem_cons_of_mem rawRow h)) hb' (by
          intro n r js hn hjs hfit
          simp only [List.append_assoc, List.singleton_append] at hfit ⊢
          exact hread (n + 1) r (encoded :: js) hn (htaken n js hjs) hfit)
      simp only [List.append_assoc, List.singleton_append] at hrows hk
      refine ⟨k + 1, encoded :: js, c, ht, hcf, htaken k js hjs, hrows, ?_⟩
      rw [List.length_cons]
      cases hk with
      | inl h => exact .inl ⟨by omega, h.2⟩
      | inr h =>
        obtain ⟨hlt, htr, j, hj, hover⟩ := h
        refine .inr ⟨by omega, htr, j, htaken (k + 1) (js ++ [j]) hj, ?_⟩
        simpa only [List.append_assoc, List.cons_append] using hover

/-- A row that is not readable stops the loop, if the rows before it fit. -/
theorem take_rows_raised (hc : columns.Nodup) (hr : ∀ r ∈ rawRows, r.length = columns.length)
    (hb : Fitted columns limit b) {n : Nat} {rawRow : List Value} {js : List Json}
    (hn : rawRows[n]? = some rawRow) (hjs : (rawRows.take n).mapM (rowJson columns) = some js)
    (hfit : encodedSize (envelope columns (b.rows ++ js)) ≤ limit)
    (hbad : ¬ Readable N columns limit (b.rows ++ js) rawRow) :
    ∃ className, takeRows N columns limit b rawRows = .error (.other className) := by
  induction rawRows generalizing b n js with
  | nil => cases hn
  | cons first rest ih =>
    rw [takeRows, row_dict hc (hr first List.mem_cons_self)]
    simp only [bind, Except.bind]
    cases hdump : dumpRow N (columns.zip first) with
    | error e =>
      obtain ⟨className, rfl⟩ := dump_row_other hdump
      exact ⟨className, rfl⟩
    | ok encoded =>
      have hjson : rowJson columns first = some encoded := dump_row_json hdump
      have hsize := size_snoc columns b.rows encoded
      -- Up to the bad row every row fits, so the loop goes on to it.
      have hfits : encodedSize (envelope columns (b.rows ++ [encoded])) ≤ limit → ¬ limit <
          b.serializedBytes + (encodedSize encoded + if b.rows = [] then 0 else 1) := by
        intro h
        rw [hsize, ← hb.size] at h
        exact Nat.not_lt.mpr h
      cases n with
      | zero =>
        rw [List.take_zero, List.mapM_nil] at hjs
        obtain rfl : [] = js := Option.some.inj hjs
        cases hn
        rw [List.append_nil, Readable] at hbad
        simp only [hdump, Except.ok.injEq, not_exists, not_and, Classical.not_imp] at hbad
        obtain ⟨hle, hloads⟩ := hbad encoded rfl
        simp only [if_neg (hfits hle)]
        rw [loadRow, if_pos (by simpa using hloads)]
        exact ⟨_, rfl⟩
      | succ n =>
        rw [List.take_succ_cons, List.mapM_cons, hjson] at hjs
        simp only [Option.bind_eq_bind, Option.bind_some] at hjs
        obtain ⟨js', hjs', he⟩ := Option.bind_eq_some_iff.mp hjs
        cases he
        have happ : b.rows ++ encoded :: js' = b.rows ++ [encoded] ++ js' := by simp
        rw [happ] at hfit hbad
        have hle := (size_le_append columns (b.rows ++ [encoded]) js').trans hfit
        simp only [if_neg (hfits hle)]
        cases hload : loadRow N encoded with
        | error e =>
          obtain ⟨className, rfl⟩ := load_row_other hload
          exact ⟨className, rfl⟩
        | ok loaded =>
          obtain rfl := load_row_same hload
          refine ih (fun r h => hr r (List.mem_cons_of_mem first h)) ?_ hn hjs' hfit hbad
          constructor
          · rw [hsize, hb.size]
          · exact Nat.le_of_not_lt (hfits hle)

end Loop

/-- The full result of a query: every row has a value for each column. -/
structure ResultSet where
  columns : List String
  rows : List (List Value)
  width : ∀ r ∈ rows, r.length = columns.length

namespace ResultSet
variable (R : ResultSet)

/-- The JSON form of the first `n` rows, if all of them have one. -/
def first (n : Nat) : Option (List Json) := (R.rows.take n).mapM (rowJson R.columns)

/-- The bytes of a result with some rows. -/
def size (rows : List Json) : Nat := encodedSize (envelope R.columns rows)

/-- What a run must return: the longest sequence of first rows that both limits allow, with its
exact size, and whether rows are missing. -/
def BoundedBy (policy : QueryPolicy) (run : Except Raised JsonResult) : Prop :=
  (run = .error (.safety .resultLimit) ↔ policy.maxResultBytes < R.size []) ∧
  (R.size [] ≤ policy.maxResultBytes →
    ∃ k rows, k ≤ R.rows.length ∧ k ≤ policy.maxRows ∧ R.first k = some rows ∧
      run = .ok ⟨R.columns, rows, k, R.size rows, decide (k < R.rows.length)⟩ ∧
      R.size rows ≤ policy.maxResultBytes ∧
      ∀ m more, m ≤ R.rows.length → m ≤ policy.maxRows → R.first m = some more →
        R.size more ≤ policy.maxResultBytes → m ≤ k)

/-- Every row within the row limit is readable, if the rows before it fit. -/
def ReadableRows (N : Nesting) (policy : QueryPolicy) : Prop :=
  ∀ n rawRow rows, n < policy.maxRows → R.rows[n]? = some rawRow → R.first n = some rows →
    R.size rows ≤ policy.maxResultBytes → Readable N R.columns policy.maxResultBytes rows rawRow

variable {R} in
theorem ReadableRows.of_flat {N : Nesting} {policy : QueryPolicy}
    (h : ∀ rawRow ∈ R.rows, ∃ encoded, dumpRow N (R.columns.zip rawRow) = .ok encoded ∧
      N.loads encoded = false) : R.ReadableRows N policy := by
  intro n rawRow rows _ hrow _ _
  obtain ⟨encoded, hdump, hload⟩ := h rawRow (List.mem_of_getElem? hrow)
  exact ⟨encoded, hdump, fun _ => hload⟩

theorem first_length {n : Nat} {rows : List Json} (hn : n ≤ R.rows.length)
    (h : R.first n = some rows) : rows.length = n := by
  have hall : ∀ rows js, List.mapM (rowJson R.columns) rows = some js → js.length = rows.length := by
    intro rows
    induction rows with
    | nil =>
      intro js hj
      obtain rfl : [] = js := Option.some.inj hj
      rfl
    | cons r rest ih =>
      intro js hj
      rw [List.mapM_cons] at hj
      obtain ⟨j, -, hj⟩ := Option.bind_eq_some_iff.mp hj
      obtain ⟨js', hjs, he⟩ := Option.bind_eq_some_iff.mp hj
      rw [← Option.some.inj he, List.length_cons, List.length_cons, ih js' hjs]
  rw [hall _ _ h, List.length_take, Nat.min_eq_left hn]

/-- Fewer rows are the first of the more, so they fit where those do. -/
theorem size_mono {m n : Nat} {few many : List Json} (h : m ≤ n) (hm : R.first m = some few)
    (hn : R.first n = some many) : R.size few ≤ R.size many := by
  obtain ⟨d, rfl⟩ := Nat.exists_eq_add_of_le h
  rw [first, List.take_add, List.mapM_append] at hn
  rw [first] at hm
  rw [hm] at hn
  obtain ⟨_, hfew, hn⟩ := Option.bind_eq_some_iff.mp hn
  cases hfew
  obtain ⟨more, -, he⟩ := Option.bind_eq_some_iff.mp hn
  rw [← Option.some.inj he]
  exact size_le_append R.columns few more

variable {R} {N : Nesting} {policy : QueryPolicy}

/-- What `boundedResult` makes of the rows that were fetched. -/
theorem bounded_result (hd : R.columns.Nodup) (hread : R.ReadableRows N policy) :
    R.BoundedBy policy
      (boundedResult N R.columns (R.rows.take (policy.maxRows + 1)) policy) := by
  by_cases hbase : policy.maxResultBytes < R.size []
  · have hrun : boundedResult N R.columns (R.rows.take (policy.maxRows + 1)) policy =
        .error (.safety .resultLimit) := if_pos hbase
    exact ⟨⟨fun _ => hbase, fun _ => hrun⟩, fun h => absurd hbase (Nat.not_lt.mpr h)⟩
  have hfits : R.size [] ≤ policy.maxResultBytes := Nat.le_of_not_lt hbase
  have hw : ∀ r ∈ R.rows.take policy.maxRows, r.length = R.columns.length :=
    fun r hr => R.width r (List.mem_of_mem_take hr)
  have htake : (R.rows.take (policy.maxRows + 1)).take policy.maxRows = R.rows.take policy.maxRows := by
    rw [List.take_take, Nat.min_eq_left (Nat.le_succ _)]
  have hlen : (R.rows.take policy.maxRows).length = min policy.maxRows R.rows.length :=
    List.length_take
  have hwithin : ∀ {n}, n ≤ policy.maxRows →
      ((R.rows.take policy.maxRows).take n).mapM (rowJson R.columns) = R.first n := by
    intro n hn
    rw [List.take_take, Nat.min_eq_left hn, first]
  obtain ⟨k, rows, c, ht, hf, hrows, hc, hk⟩ := take_rows_fitted (N := N) hd hw (b := ⟨[], R.size [],
    decide (policy.maxRows < (R.rows.take (policy.maxRows + 1)).length)⟩) ⟨rfl, hfits⟩ (by
      intro n rawRow js hn hjs hfit
      obtain ⟨hlt, hget⟩ := List.getElem?_eq_some_iff.mp hn
      rw [hlen] at hlt
      rw [hwithin (by omega)] at hjs
      rw [List.getElem?_take_of_lt (by omega)] at hn
      exact hread n rawRow js (by omega) hn hjs hfit)
  rw [List.nil_append] at hc
  have hkl : k ≤ min policy.maxRows R.rows.length := by
    rcases hk with ⟨h, -⟩ | ⟨h, -⟩ <;> omega
  rw [hwithin (by omega)] at hrows
  have hsize : c.serializedBytes = R.size rows := by rw [hf.size, hc, size]
  have htrunc : c.truncated = decide (k < R.rows.length) := by
    rcases hk with ⟨h, htr⟩ | ⟨h, htr, -⟩
    · rw [htr]
      simp only [List.length_take, decide_eq_decide]
      omega
    · rw [htr]
      exact (decide_eq_true (by omega)).symm
  have hrun : boundedResult N R.columns (R.rows.take (policy.maxRows + 1)) policy =
      .ok ⟨R.columns, rows, k, R.size rows, decide (k < R.rows.length)⟩ := by
    rw [boundedResult, htake]
    change (if policy.maxResultBytes < R.size [] then _ else _) = _
    rw [if_neg hbase]
    change (takeRows N R.columns policy.maxResultBytes ⟨[], R.size [], _⟩ _ >>= _) = _
    rw [ht]
    simp only [bind, Except.bind]
    rw [hc, R.first_length (by omega) hrows, hsize, htrunc]
  refine ⟨⟨fun h => ?_, fun h => absurd h hbase⟩,
    fun _ => ⟨k, rows, by omega, by omega, hrows, hrun, hsize ▸ hf.fits, ?_⟩⟩
  · rw [hrun] at h
    cases h
  · intro m more hm hmax hmore hsmall
    by_contra hlt
    rcases hk with ⟨h, -⟩ | ⟨h, -, j, hj, hover⟩
    · omega
    · rw [hwithin (by omega)] at hj
      have hmono := R.size_mono (show k + 1 ≤ m by omega) hj hmore
      rw [List.nil_append] at hover
      exact absurd (hmono.trans hsmall) (Nat.not_le.mpr hover)

/-- A row that cannot be written or read is the end of the run. -/
theorem bounded_result_raised (hd : R.columns.Nodup) {n : Nat} {rawRow : List Value}
    {rows : List Json} (hn : n < policy.maxRows) (hrow : R.rows[n]? = some rawRow)
    (hrows : R.first n = some rows) (hfit : R.size rows ≤ policy.maxResultBytes)
    (hbad : ¬ Readable N R.columns policy.maxResultBytes rows rawRow) :
    ∃ className, boundedResult N R.columns (R.rows.take (policy.maxRows + 1)) policy =
      .error (.other className) := by
  have hbase : R.size [] ≤ policy.maxResultBytes := (size_le_append R.columns [] rows).trans hfit
  have hw : ∀ r ∈ R.rows.take policy.maxRows, r.length = R.columns.length :=
    fun r hr => R.width r (List.mem_of_mem_take hr)
  have htake : (R.rows.take (policy.maxRows + 1)).take policy.maxRows = R.rows.take policy.maxRows := by
    rw [List.take_take, Nat.min_eq_left (Nat.le_succ _)]
  obtain ⟨className, hraised⟩ := take_rows_raised (N := N) hd hw (b := ⟨[], R.size [],
    decide (policy.maxRows < (R.rows.take (policy.maxRows + 1)).length)⟩) ⟨rfl, hbase⟩ (n := n)
    (by rw [List.getElem?_take_of_lt hn, hrow])
    (by rw [List.take_take, Nat.min_eq_left hn.le]; exact hrows) hfit hbad
  refine ⟨className, ?_⟩
  rw [boundedResult, htake]
  change (if policy.maxResultBytes < R.size [] then _ else _) = _
  rw [if_neg (Nat.not_lt.mpr hbase)]
  change (takeRows N R.columns policy.maxResultBytes ⟨[], R.size [], _⟩ _ >>= _) = _
  rw [hraised]
  rfl

theorem bounded_result_iff (hd : R.columns.Nodup) :
    R.BoundedBy policy
        (boundedResult N R.columns (R.rows.take (policy.maxRows + 1)) policy) ↔
      R.ReadableRows N policy := by
  refine ⟨fun h n rawRow rows hn hrow hrows hfit => ?_, bounded_result hd⟩
  by_contra hbad
  obtain ⟨className, hraised⟩ := bounded_result_raised hd hn hrow hrows hfit hbad
  obtain ⟨k, some, -, -, -, hrun, -⟩ := h.2 ((size_le_append R.columns [] rows).trans hfit)
  rw [hraised] at hrun
  cases hrun

end ResultSet

theorem inspect_bounded {L : Libraries} {policy : QueryPolicy} {sql : String} {q : GuardedQuery}
    (h : SQLGuard.inspect L policy sql = .ok q) :
    q.boundedSql = "SELECT * FROM (" ++ q.normalizedSql ++ ") AS _copilot_bounded LIMIT "
      ++ toString (policy.maxRows + 1) ∧ q.rowFetchLimit = policy.maxRows + 1 := by
  obtain ⟨statement, -, hi⟩ := SQLGuard.inspect_eq_ok L policy h
  obtain ⟨tables, qualified, -, -, he⟩ := SQLGuard.inspectQuery_eq_ok L policy hi
  rw [he]
  exact ⟨rfl, rfl⟩

theorem execute_eq {N : Nesting} {L : Libraries} {policy : QueryPolicy} {sql : String}
    {q : GuardedQuery} (hq : SQLGuard.inspect L policy sql = .ok q) {driver : Driver} {ms : Nat}
    {R : ResultSet} (hd : R.columns.Nodup) (hc : R.columns.length ≤ policy.maxColumns)
    (hlimit : ∀ n, driver (session ms ("SELECT * FROM (" ++ q.normalizedSql ++
      ") AS _copilot_bounded LIMIT " ++ toString n)) = .ok ⟨some R.columns, R.rows.take n⟩) :
    executeReadOnly N driver q ms policy =
      boundedResult N R.columns (R.rows.take (policy.maxRows + 1)) policy := by
  have hb := inspect_bounded hq
  have hshape : ¬ (policy.maxColumns < R.columns.length ∨ ¬ R.columns.Nodup) := by
    intro h
    cases h with
    | inl h => omega
    | inr h => exact h hd
  rw [executeReadOnly, hb.1, hlimit]
  simp only [hb.2, if_neg hshape, List.take_take, Nat.min_self]

/-- The result is bounded exactly unless the loop meets a row that `json` cannot write or read. The
last hypothesis is what the database does for `LIMIT`. -/
theorem result_bounding_iff (N : Nesting) {L : Libraries} {policy : QueryPolicy} {sql : String}
    {q : GuardedQuery} (hq : SQLGuard.inspect L policy sql = .ok q) (driver : Driver) (ms : Nat)
    (R : ResultSet) (hd : R.columns.Nodup) (hc : R.columns.length ≤ policy.maxColumns)
    (hlimit : ∀ n, driver (session ms ("SELECT * FROM (" ++ q.normalizedSql ++
      ") AS _copilot_bounded LIMIT " ++ toString n)) = .ok ⟨some R.columns, R.rows.take n⟩) :
    R.BoundedBy policy (executeReadOnly N driver q ms policy) ↔ R.ReadableRows N policy := by
  rw [execute_eq hq hd hc hlimit]
  exact R.bounded_result_iff hd

/-- A database that knows the full result of one query. -/
def limitDriver (R : ResultSet) (normalizedSql : String) : Driver
  | [_, _, .query text] =>
    let before := ("SELECT * FROM (" ++ normalizedSql ++ ") AS _copilot_bounded LIMIT ").toList
    .ok ⟨some R.columns, R.rows.take (Nat.ofDigitChars 10 (text.toList.drop before.length) 0)⟩
  | _ => .error .psycopg

theorem limit_driver (R : ResultSet) (normalizedSql : String) (ms n : Nat) :
    limitDriver R normalizedSql (session ms ("SELECT * FROM (" ++ normalizedSql ++
      ") AS _copilot_bounded LIMIT " ++ toString n)) = .ok ⟨some R.columns, R.rows.take n⟩ := by
  have ht : ("SELECT * FROM (" ++ normalizedSql ++ ") AS _copilot_bounded LIMIT " ++ toString n).toList =
      ("SELECT * FROM (" ++ normalizedSql ++ ") AS _copilot_bounded LIMIT ").toList ++ (toString n).toList :=
    String.toList_append
  simp only [limitDriver, session]
  rw [ht, List.drop_left, Text.ofDigitChars_toString]

/-- Nothing in these results nests. -/
def flat : Nesting where
  dumps _ := false
  loads _ := false

/-- Two orders. -/
def ordersResult : ResultSet where
  columns := ["order_id"]
  rows := [[.number "1"], [.number "2"]]
  width := by decide

theorem orders_result_bounded : ordersResult.BoundedBy ordersPolicy
    (executeReadOnly flat (limitDriver ordersResult recentText)
      (SQLGuard.guarded recentLibraries ordersPolicy recentQuery {"northwind.orders"}) 2000
      ordersPolicy) := by
  have hg : SQLGuard.inspect recentLibraries ordersPolicy recentText =
      .ok (SQLGuard.guarded recentLibraries ordersPolicy recentQuery {"northwind.orders"}) := rfl
  refine (result_bounding_iff flat hg _ 2000 ordersResult (by decide) (by decide)
    (limit_driver ordersResult recentText 2000)).mpr (.of_flat ?_)
  intro rawRow hrow
  rcases List.mem_cons.mp hrow with rfl | hrow
  · exact ⟨_, rfl, rfl⟩
  · obtain rfl := List.mem_singleton.mp hrow
    exact ⟨_, rfl, rfl⟩

def noteText : String := "SELECT CAST('\"\\ud800\"' AS JSON) AS note"

def noteQuery : Query :=
  .select false .noWith [] (.op (.func ⟨false, "CAST"⟩ (.op .noExpr .noExpr) .noExpr) .noExpr)
    .noSource .noExpr

def noteLibraries : Libraries :=
  .knowing noteText "7b8b1f4b4c2f4287991bfa79af39e45b29fac07b8b62a8dbcc6b9250b48119e5" noteQuery
    (by decide)

/-- PostgreSQL keeps the escape in a `json` value, and the driver reads it as a surrogate. -/
def noteResult : ResultSet where
  columns := ["note"]
  rows := [[.text [.surrogate 0]]]
  width := by decide

theorem note_not_bounded :
    SQLGuard.inspect noteLibraries ordersPolicy noteText =
        .ok (SQLGuard.guarded noteLibraries ordersPolicy noteQuery ∅) ∧
      (∀ n, limitDriver noteResult noteText (session 2000 ("SELECT * FROM (" ++ noteText ++
        ") AS _copilot_bounded LIMIT " ++ toString n)) =
          .ok ⟨some noteResult.columns, noteResult.rows.take n⟩) ∧
      executeReadOnly flat (limitDriver noteResult noteText)
        (SQLGuard.guarded noteLibraries ordersPolicy noteQuery ∅) 2000 ordersPolicy =
          .error (.other "UnicodeEncodeError") ∧
      ¬ noteResult.BoundedBy ordersPolicy (executeReadOnly flat (limitDriver noteResult noteText)
        (SQLGuard.guarded noteLibraries ordersPolicy noteQuery ∅) 2000 ordersPolicy) := by
  have hg : SQLGuard.inspect noteLibraries ordersPolicy noteText =
      .ok (SQLGuard.guarded noteLibraries ordersPolicy noteQuery ∅) := rfl
  have hlimit := limit_driver noteResult noteText 2000
  have hrun : executeReadOnly flat (limitDriver noteResult noteText)
      (SQLGuard.guarded noteLibraries ordersPolicy noteQuery ∅) 2000 ordersPolicy =
        .error (.other "UnicodeEncodeError") := by
    rw [execute_eq hg (by decide) (by decide) hlimit]
    rfl
  refine ⟨hg, hlimit, hrun, fun h => ?_⟩
  obtain ⟨k, rows, -, -, -, hok, -⟩ := h.2 (by decide)
  rw [hrun] at hok
  cases hok

end DataCopilot.Query
