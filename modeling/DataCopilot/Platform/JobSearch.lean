import Mathlib.Algebra.GroupWithZero.Nat
import Mathlib.Data.String.Basic
import DataCopilot.Library.Like
import DataCopilot.Library.Paging
import DataCopilot.Library.Result
import DataCopilot.Library.Trim
import DataCopilot.Platform.EventStream

/-! `AnalysisJobQueryService.search`: what it accepts, the two statements of its mapper, and the page
that it returns. -/
namespace DataCopilot.Platform

structure AnalysisJobRow where
  id : UUID
  tenantId : UUID
  dataSourceId : UUID
  createdBy : UUID
  question : String
  status : AnalysisJobStatus
  createdAt : Int
deriving DecidableEq

structure DataSourceRow where
  id : UUID
  tenantId : UUID
  name : String
deriving DecidableEq

structure AppUserRow where
  id : UUID
  tenantId : UUID
  displayName : String
deriving DecidableEq

/-- The content of the three tables, with their primary keys and the foreign keys of a job, which do
not say that the rows belong to the tenant of the job. -/
structure JobTables where
  jobs : List AnalysisJobRow
  dataSources : List DataSourceRow
  appUsers : List AppUserRow
  jobs_key : (jobs.map AnalysisJobRow.id).Nodup
  dataSources_key : (dataSources.map DataSourceRow.id).Nodup
  appUsers_key : (appUsers.map AppUserRow.id).Nodup
  data_source_id : ∀ j ∈ jobs, ∃ d ∈ dataSources, d.id = j.dataSourceId
  created_by : ∀ j ∈ jobs, ∃ u ∈ appUsers, u.id = j.createdBy

/-- `String.length` counts UTF-16 units. -/
def utf16Length (text : String) : Nat :=
  (text.toList.map fun c => if c.toNat < 65536 then 1 else 2).sum

structure AnalysisJobSearchCriteria where
  statuses : Option (List AnalysisJobStatus)
  keyword : Option String
  createdFrom : Option Int
  createdTo : Option Int
  statuses_ok : statuses ≠ some []
  keyword_ok : ∀ k, keyword = some k → k ≠ ""
  range_ok : createdFrom.all fun a => createdTo.all fun b => a ≤ b

/-- `keyword.strip()`, which is dropped if nothing is left. -/
def strippedKeyword (keyword : Option String) : Option String :=
  match keyword with
  | none => none
  | some k =>
    let k := String.ofList (Text.trim isWhitespace k.toList)
    if k = "" then none else some k

namespace AnalysisJobSearchCriteria

theorem stripped_ne {keyword : Option String} {k : String} (h : strippedKeyword keyword = some k) :
    k ≠ "" := by
  cases keyword with
  | none => cases h
  | some text =>
    simp only [strippedKeyword] at h
    split at h
    · cases h
    · rename_i hne
      injection h with h
      rw [← h]
      exact hne

/-- The constructor of the record. -/
def of (statuses : Option (List AnalysisJobStatus)) (keyword : Option String)
    (createdFrom createdTo : Option Int) : Except String AnalysisJobSearchCriteria :=
  if hs : statuses = some [] then .error "statuses must be null or contain at least one status"
  else if hr : createdFrom.all fun a => createdTo.all fun b => a ≤ b then
    .ok ⟨statuses, strippedKeyword keyword, createdFrom, createdTo, hs, fun _ => stripped_ne, hr⟩
  else .error "createdFrom must not be after createdTo"

/-- `String.replace` for a target of one character. -/
def replace (target : Char) (replacement : String) (text : List Char) : List Char :=
  text.flatMap fun c => if c = target then replacement.toList else [c]

def keywordPattern (criteria : AnalysisJobSearchCriteria) : Option (List Char) :=
  criteria.keyword.map fun keyword =>
    let escaped := replace '_' "!_" (replace '%' "!%" (replace '!' "!!" keyword.toList))
    '%' :: escaped ++ ['%']

end AnalysisJobSearchCriteria

structure AnalysisJobSearchRequest where
  criteria : AnalysisJobSearchCriteria
  dataSourceId : Option UUID
  page : Nat
  size : Nat
  page_ok : 1 ≤ page ∧ page ≤ 10000
  size_ok : 1 ≤ size ∧ size ≤ 100
  keyword_ok : criteria.keyword.all fun k => utf16Length k ≤ 200

inductive JobSearchError where
  | invalidAnalysisJobSearch (message : String)
  | accessDenied (message : String)
deriving DecidableEq

namespace AnalysisJobSearchRequest

/-- The constructor of the record. -/
def of (criteria : AnalysisJobSearchCriteria) (dataSourceId : Option UUID) (page size : Nat) :
    Except JobSearchError AnalysisJobSearchRequest :=
  if hp : 1 ≤ page ∧ page ≤ 10000 then
    if hs : 1 ≤ size ∧ size ≤ 100 then
      if hk : criteria.keyword.all fun k => utf16Length k ≤ 200 then
        .ok ⟨criteria, dataSourceId, page, size, hp, hs, hk⟩
      else .error (.invalidAnalysisJobSearch "keyword must contain at most 200 characters")
    else .error (.invalidAnalysisJobSearch "size must be between 1 and 100")
  else .error (.invalidAnalysisJobSearch "page must be between 1 and 10000")

def offset (r : AnalysisJobSearchRequest) : Nat := (r.page - 1) * r.size

end AnalysisJobSearchRequest

structure AnalysisJobQueryScope where
  tenantId : UUID
  ownerId : Option UUID
  dataSourceId : Option UUID

structure AnalysisJobSearchItem where
  id : UUID
  question : String
  status : String
  createdAt : Int
  dataSourceId : UUID
  dataSourceName : String
  createdBy : UUID
  createdByName : String
deriving DecidableEq

structure AnalysisJobSearchPage where
  items : List AnalysisJobSearchItem
  total : Nat
  page : Nat
  size : Nat
  totalPages : Nat
deriving DecidableEq

namespace AnalysisJobSearchMapper

structure JoinedRow where
  j : AnalysisJobRow
  ds : DataSourceRow
  u : AppUserRow
deriving DecidableEq

def joinedTables (t : JobTables) : List JoinedRow :=
  t.jobs.flatMap fun j =>
    (t.dataSources.filter fun ds => ds.id = j.dataSourceId && ds.tenantId = j.tenantId).flatMap fun ds =>
      (t.appUsers.filter fun u => u.id = j.createdBy && u.tenantId = j.tenantId).map fun u => ⟨j, ds, u⟩

variable (scope : AnalysisJobQueryScope) (criteria : AnalysisJobSearchCriteria)

/-- The conditions of `count`. Each but the first is left out when its parameter is null. -/
def countWhere (row : JoinedRow) : Bool :=
  row.j.tenantId = scope.tenantId &&
  scope.ownerId.all (row.j.createdBy = ·) &&
  scope.dataSourceId.all (row.j.dataSourceId = ·) &&
  criteria.statuses.all (row.j.status ∈ ·) &&
  (criteria.keyword.isNone ||
    criteria.keywordPattern.any fun pattern => Like.like '!' pattern row.j.question.toList = some true) &&
  criteria.createdFrom.all (row.j.createdAt ≥ ·) &&
  criteria.createdTo.all (row.j.createdAt < ·)

/-- The conditions of `findPage`. -/
def findPageWhere (row : JoinedRow) : Bool :=
  row.j.tenantId = scope.tenantId &&
  scope.ownerId.all (row.j.createdBy = ·) &&
  scope.dataSourceId.all (row.j.dataSourceId = ·) &&
  criteria.statuses.all (row.j.status ∈ ·) &&
  (criteria.keyword.isNone ||
    criteria.keywordPattern.any fun pattern => Like.like '!' pattern row.j.question.toList = some true) &&
  criteria.createdFrom.all (row.j.createdAt ≥ ·) &&
  criteria.createdTo.all (row.j.createdAt < ·)

def count (t : JobTables) : Nat := ((joinedTables t).filter (countWhere scope criteria)).length

/-- `ORDER BY j.created_at DESC, j.id DESC`. The database orders ids as it orders their texts. -/
def orderBy (a b : JoinedRow) : Bool :=
  b.j.createdAt < a.j.createdAt || (a.j.createdAt = b.j.createdAt && b.j.id.text ≤ a.j.id.text)

def searchItem (row : JoinedRow) : AnalysisJobSearchItem where
  id := row.j.id
  question := row.j.question
  status := row.j.status.text
  createdAt := row.j.createdAt
  dataSourceId := row.j.dataSourceId
  dataSourceName := row.ds.name
  createdBy := row.j.createdBy
  createdByName := row.u.displayName

def findPage (t : JobTables) (offset limit : Nat) : List AnalysisJobSearchItem :=
  let rows := ((joinedTables t).filter (findPageWhere scope criteria)).mergeSort orderBy
  ((rows.drop offset).take limit).map searchItem

end AnalysisJobSearchMapper

/-- A caller with the roles of its token. -/
structure RoledCaller extends Caller where
  roles : List String

namespace AnalysisJobQueryService
open AnalysisJobSearchMapper

def readRoles : List String := ["ADMIN", "ANALYST", "VIEWER"]

def scope (request : AnalysisJobSearchRequest) (caller : RoledCaller) : AnalysisJobQueryScope where
  tenantId := caller.tenantId
  ownerId := if "ADMIN" ∈ caller.roles then none else some caller.userId
  dataSourceId := request.dataSourceId

/-- Both statements see one snapshot of the tables. -/
def search (t : JobTables) (request : AnalysisJobSearchRequest) (caller : RoledCaller) :
    Except JobSearchError AnalysisJobSearchPage :=
  if ∀ role ∈ caller.roles, role ∉ readRoles then
    .error (.accessDenied "The caller cannot search analysis jobs")
  else
    let total := count (scope request caller) request.criteria t
    .ok {
      items := if total = 0 then []
        else findPage (scope request caller) request.criteria t request.offset request.size
      total := total
      page := request.page
      size := request.size
      totalPages := total / request.size + if total % request.size = 0 then 0 else 1 }

end AnalysisJobQueryService
end DataCopilot.Platform
