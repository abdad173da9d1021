import DataCopilot.Platform.JobSearch

/-! The pages of a search are the caller's matching jobs, newest first, and show nothing of other
tenants, or of other users to a caller without the role of an administrator. -/
namespace DataCopilot.Platform
open AnalysisJobSearchMapper AnalysisJobQueryService

/-- The job is the caller's to see. -/
def Owned (caller : RoledCaller) (j : AnalysisJobRow) : Prop :=
  j.tenantId = caller.tenantId ∧ ("ADMIN" ∉ caller.roles → j.createdBy = caller.userId)

structure AnalysisJobSearchRequest.Matches (r : AnalysisJobSearchRequest) (j : AnalysisJobRow) : Prop where
  dataSource : ∀ id, r.dataSourceId = some id → j.dataSourceId = id
  status : ∀ statuses, r.criteria.statuses = some statuses → j.status ∈ statuses
  keyword : ∀ keyword, r.criteria.keyword = some keyword → keyword.toList <:+: j.question.toList
  createdFrom : ∀ start, r.criteria.createdFrom = some start → start ≤ j.createdAt
  createdTo : ∀ stop, r.criteria.createdTo = some stop → j.createdAt < stop

namespace JobTables

/-- The data source and the creator of the job are rows of its tenant. -/
def Housed (t : JobTables) (j : AnalysisJobRow) : Prop :=
  (∃ ds ∈ t.dataSources, ds.id = j.dataSourceId ∧ ds.tenantId = j.tenantId) ∧
    ∃ u ∈ t.appUsers, u.id = j.createdBy ∧ u.tenantId = j.tenantId

def Shows (t : JobTables) (j : AnalysisJobRow) (item : AnalysisJobSearchItem) : Prop :=
  ∃ ds ∈ t.dataSources, ∃ u ∈ t.appUsers, ds.id = j.dataSourceId ∧ u.id = j.createdBy ∧
    item = searchItem ⟨j, ds, u⟩

/-- The tables agree on the caller's jobs, and on those rows of the tenant that these jobs name. -/
structure Agree (caller : RoledCaller) (t t' : JobTables) : Prop where
  jobs : ∀ j, Owned caller j → (j ∈ t.jobs ↔ j ∈ t'.jobs)
  dataSources : ∀ ds, ds.tenantId = caller.tenantId →
    (∃ j ∈ t.jobs, Owned caller j ∧ ds.id = j.dataSourceId) → (ds ∈ t.dataSources ↔ ds ∈ t'.dataSources)
  appUsers : ∀ u, u.tenantId = caller.tenantId →
    (∃ j ∈ t.jobs, Owned caller j ∧ u.id = j.createdBy) → (u ∈ t.appUsers ↔ u ∈ t'.appUsers)

end JobTables

/-- Descending by `(created_at, id)`. -/
def Newer (a b : AnalysisJobRow) : Prop :=
  b.createdAt < a.createdAt ∨ a.createdAt = b.createdAt ∧ b.id.text < a.id.text

/-- The search for another page of the same request. -/
def turnedTo (t : JobTables) (caller : RoledCaller) (r : AnalysisJobSearchRequest) (page : Nat) :
    Except JobSearchError AnalysisJobSearchPage := do
  let request ← AnalysisJobSearchRequest.of r.criteria r.dataSourceId page r.size
  search t request caller

def itemsOf : Except JobSearchError AnalysisJobSearchPage → List AnalysisJobSearchItem
  | .ok page => page.items
  | .error _ => []

/-- All pages together, as far as pages can be asked for, are the wanted jobs, each once and newest
first. -/
structure PagesOf (t : JobTables) (caller : RoledCaller) (r : AnalysisJobSearchRequest)
    (wanted : AnalysisJobRow → Prop) (jobs : List AnalysisJobRow) (items : List AnalysisJobSearchItem) :
    Prop where
  once : jobs.Nodup
  complete : ∀ j, j ∈ jobs ↔ j ∈ t.jobs ∧ wanted j
  ordered : jobs.Pairwise Newer
  shown : List.Forall₂ t.Shows jobs items
  pages : ((List.range' 1 (Paging.totalPages r.size jobs.length)).flatMap fun page =>
    itemsOf (turnedTo t caller r page)) = items.take (10000 * r.size)
  answered : ∀ page, 1 ≤ page → page ≤ 10000 → ∃ p, turnedTo t caller r page = .ok p ∧
    p.total = jobs.length ∧ p.totalPages = Paging.totalPages r.size jobs.length ∧
    (p.totalPages < page → p.items = [])

variable {t t' : JobTables} {caller : RoledCaller} {r : AnalysisJobSearchRequest} {row : JoinedRow}

theorem keywordPattern_eq {criteria : AnalysisJobSearchCriteria} :
    criteria.keywordPattern =
      criteria.keyword.map fun keyword => '%' :: keyword.toList.flatMap (Like.quoted '!') ++ ['%'] := by
  have hquote : ∀ text, AnalysisJobSearchCriteria.replace '_' "!_" (AnalysisJobSearchCriteria.replace '%' "!%"
      (AnalysisJobSearchCriteria.replace '!' "!!" text)) = text.flatMap (Like.quoted '!') := by
    intro text
    simp only [AnalysisJobSearchCriteria.replace, List.flatMap_assoc]
    congr
    funext c
    by_cases h1 : c = '!'
    · rw [h1]
      rfl
    · by_cases h2 : c = '%'
      · rw [h2]
        rfl
      · by_cases h3 : c = '_'
        · rw [h3]
          rfl
        · simp [Like.quoted, h1, h2, h3]
  rw [AnalysisJobSearchCriteria.keywordPattern]
  simp only [hquote]

/-- The pattern of a keyword matches the questions that have the keyword in them, and no other. -/
theorem keyword_like_exact (criteria : AnalysisJobSearchCriteria) (question : String) :
    (criteria.keywordPattern.map fun pattern => Like.like '!' pattern question.toList) =
      criteria.keyword.map fun keyword => some (decide (keyword.toList <:+: question.toList)) := by
  rw [keywordPattern_eq]
  cases criteria.keyword with
  | none => rfl
  | some keyword =>
    have hlike := @Like.like_quoted '!' question.toList keyword.toList (by decide)
    rw [Option.map_some, Option.map_some, Option.map_some, hlike]

/-- The conditions of the two statements are the same. -/
theorem where_eq : countWhere = findPageWhere := rfl

theorem findPageWhere_iff :
    findPageWhere (scope r caller) r.criteria row = true ↔ Owned caller row.j ∧ r.Matches row.j := by
  have howner : (scope r caller).ownerId.all (row.j.createdBy = ·) = true ↔
      ("ADMIN" ∉ caller.roles → row.j.createdBy = caller.userId) := by
    by_cases h : "ADMIN" ∈ caller.roles
    · simp [scope, h]
    · simp [scope, h]
  have hkeyword : (r.criteria.keyword.isNone || r.criteria.keywordPattern.any fun pattern =>
      Like.like '!' pattern row.j.question.toList = some true) = true ↔
      ∀ keyword, r.criteria.keyword = some keyword → keyword.toList <:+: row.j.question.toList := by
    rw [keywordPattern_eq]
    cases r.criteria.keyword with
    | none => simp
    | some keyword =>
      have hlike := @Like.like_quoted '!' row.j.question.toList keyword.toList (by decide)
      rw [List.cons_append] at hlike
      simp [hlike]
  simp only [findPageWhere, Bool.and_eq_true, howner, hkeyword]
  constructor
  · rintro ⟨⟨⟨⟨⟨⟨ht, ho⟩, hd⟩, hs⟩, hk⟩, hf⟩, hto⟩
    refine ⟨⟨of_decide_eq_true ht, ho⟩, ?_, ?_, hk, ?_, ?_⟩
    · intro id hid
      simpa [scope, hid] using hd
    · intro statuses hst
      simpa [hst] using hs
    · intro start hst
      simpa [hst] using hf
    · intro stop hst
      simpa [hst] using hto
  · rintro ⟨⟨ht, ho⟩, hm⟩
    refine ⟨⟨⟨⟨⟨⟨decide_eq_true ht, ho⟩, ?_⟩, ?_⟩, hm.keyword⟩, ?_⟩, ?_⟩
    · cases hid : (scope r caller).dataSourceId with
      | none => rfl
      | some id => simpa using hm.dataSource id hid
    · cases hst : r.criteria.statuses with
      | none => rfl
      | some statuses => simpa using hm.status statuses hst
    · cases hst : r.criteria.createdFrom with
      | none => rfl
      | some start => simpa using hm.createdFrom start hst
    · cases hst : r.criteria.createdTo with
      | none => rfl
      | some stop => simpa using hm.createdTo stop hst

theorem mem_joinedTables : row ∈ joinedTables t ↔ row.j ∈ t.jobs ∧
    (row.ds ∈ t.dataSources ∧ row.ds.id = row.j.dataSourceId ∧ row.ds.tenantId = row.j.tenantId) ∧
    row.u ∈ t.appUsers ∧ row.u.id = row.j.createdBy ∧ row.u.tenantId = row.j.tenantId := by
  simp only [joinedTables, List.mem_flatMap, List.mem_filter, List.mem_map, Bool.and_eq_true,
    decide_eq_true_eq]
  constructor
  · rintro ⟨j, hj, ds, hds, u, hu, rfl⟩
    exact ⟨hj, hds, hu⟩
  · rintro ⟨hj, hds, hu⟩
    exact ⟨row.j, hj, row.ds, hds, row.u, hu, rfl⟩

/-- A job is joined with one data source and one user at most. -/
theorem joinedTables_sublist : List.Sublist ((joinedTables t).map JoinedRow.j) t.jobs := by
  apply Paging.map_flatMap_sublist
  intro j _
  have hds := Paging.filter_key_length_le t.dataSources_key j.dataSourceId fun ds => ds.tenantId = j.tenantId
  have hu := Paging.filter_key_length_le t.appUsers_key j.createdBy fun u => u.tenantId = j.tenantId
  cases hd : t.dataSources.filter fun ds => ds.id = j.dataSourceId && ds.tenantId = j.tenantId with
  | nil => simp
  | cons ds rest =>
    rw [hd] at hds
    have hrest : rest = [] := List.length_eq_zero_iff.mp (by simp only [List.length_cons] at hds; omega)
    rw [hrest]
    cases hus : t.appUsers.filter fun u => u.id = j.createdBy && u.tenantId = j.tenantId with
    | nil => simp
    | cons u more =>
      rw [hus] at hu
      have hmore : more = [] := List.length_eq_zero_iff.mp (by simp only [List.length_cons] at hu; omega)
      rw [hmore]
      simp

theorem joined_nodup : (joinedTables t).Nodup := by
  have hids := (joinedTables_sublist (t := t)).map AnalysisJobRow.id
  exact ((hids.nodup t.jobs_key).of_map _).of_map _

theorem job_unique {a b : JoinedRow} (ha : a ∈ joinedTables t) (hb : b ∈ joinedTables t)
    (h : a.j.id = b.j.id) : a = b := by
  obtain ⟨haj, ⟨had, hads, -⟩, hau, haus, -⟩ := mem_joinedTables.mp ha
  obtain ⟨hbj, ⟨hbd, hbds, -⟩, hbu, hbus, -⟩ := mem_joinedTables.mp hb
  have hj : a.j = b.j := List.inj_on_of_nodup_map t.jobs_key haj hbj h
  have hds : a.ds = b.ds :=
    List.inj_on_of_nodup_map t.dataSources_key had hbd (by rw [hads, hbds, hj])
  have hu : a.u = b.u := List.inj_on_of_nodup_map t.appUsers_key hau hbu (by rw [haus, hbus, hj])
  cases a
  cases b
  simp only at hj hds hu
  rw [hj, hds, hu]

theorem orderBy_iff {a b : JoinedRow} : orderBy a b = true ↔
    b.j.createdAt < a.j.createdAt ∨ a.j.createdAt = b.j.createdAt ∧ b.j.id.text ≤ a.j.id.text := by
  simp [orderBy]

theorem orderBy_trans (a b c : JoinedRow) (hab : orderBy a b = true) (hbc : orderBy b c = true) :
    orderBy a c = true := by
  rw [orderBy_iff] at hab hbc ⊢
  cases hab with
  | inl h =>
    left
    cases hbc with
    | inl h' => exact h'.trans h
    | inr h' => exact h'.1 ▸ h
  | inr h =>
    cases hbc with
    | inl h' => exact .inl (h.1 ▸ h')
    | inr h' => exact .inr ⟨h.1.trans h'.1, h'.2.trans h.2⟩

theorem orderBy_total (a b : JoinedRow) : (orderBy a b || orderBy b a) = true := by
  rw [Bool.or_eq_true, orderBy_iff, orderBy_iff]
  by_cases h : a.j.createdAt = b.j.createdAt
  · cases le_total a.j.id.text b.j.id.text with
    | inl hid => exact .inr (.inr ⟨h.symm, hid⟩)
    | inr hid => exact .inl (.inr ⟨h, hid⟩)
  · cases lt_or_gt_of_ne h with
    | inl hlt => exact .inr (.inl hlt)
    | inr hgt => exact .inl (.inl hgt)

theorem newer_of_orderBy {a b : JoinedRow} (h : orderBy a b = true) (hne : a.j.id ≠ b.j.id) :
    Newer a.j b.j := by
  rw [orderBy_iff] at h
  cases h with
  | inl h => exact .inl h
  | inr h =>
    refine .inr ⟨h.1, lt_of_le_of_ne h.2 fun he => hne ?_⟩
    exact UUID.ext he.symm

variable (t caller r) in
/-- All rows that the search finds, in the order of its pages. -/
def found : List JoinedRow :=
  ((joinedTables t).filter (findPageWhere (scope r caller) r.criteria)).mergeSort orderBy

theorem mem_found : row ∈ found t caller r ↔ row ∈ joinedTables t ∧ Owned caller row.j ∧ r.Matches row.j := by
  rw [found, (List.mergeSort_perm _ _).mem_iff, List.mem_filter, findPageWhere_iff]

theorem found_nodup : (found t caller r).Nodup := by
  rw [found, (List.mergeSort_perm _ _).nodup_iff]
  exact joined_nodup.filter _

theorem found_ordered : ((found t caller r).map JoinedRow.j).Pairwise Newer := by
  rw [List.pairwise_map]
  have hsorted : (found t caller r).Pairwise fun a b => orderBy a b = true :=
    List.pairwise_mergeSort orderBy_trans orderBy_total _
  have hboth := hsorted.and found_nodup
  refine hboth.imp_of_mem ?_
  intro a b ha hb hab
  refine newer_of_orderBy hab.1 fun hid => hab.2 ?_
  exact job_unique (mem_found.mp ha).1 (mem_found.mp hb).1 hid

theorem count_eq : count (scope r caller) r.criteria t = (found t caller r).length := by
  rw [found, List.length_mergeSort, ← where_eq]
  rfl

/-- The caller may search at all. -/
def RoledCaller.Reads (caller : RoledCaller) : Prop := ∃ role ∈ caller.roles, role ∈ readRoles

theorem search_denied (h : ¬ caller.Reads) :
    search t r caller = .error (.accessDenied "The caller cannot search analysis jobs") := by
  rw [search, if_pos]
  intro role hrole hread
  exact h ⟨role, hrole, hread⟩

/-- What the search answers, in terms of all rows found. -/
theorem search_eq (h : caller.Reads) : search t r caller = .ok {
    items := Paging.page r.size r.page ((found t caller r).map searchItem)
    total := (found t caller r).length
    page := r.page
    size := r.size
    totalPages := Paging.totalPages r.size (found t caller r).length } := by
  obtain ⟨role, hrole, hread⟩ := h
  have hallowed : ¬ ∀ role ∈ caller.roles, role ∉ readRoles := fun hnone => hnone role hrole hread
  rw [search, if_neg hallowed]
  simp only [count_eq]
  have hpage : findPage (scope r caller) r.criteria t r.offset r.size =
      Paging.page r.size r.page ((found t caller r).map searchItem) := by
    rw [Paging.page, ← List.map_drop, ← List.map_take]
    rfl
  by_cases hz : (found t caller r).length = 0
  · have hnil : found t caller r = [] := List.length_eq_zero_iff.mp hz
    simp [hnil, Paging.page, Paging.totalPages]
  · rw [if_neg hz, hpage]
    rfl

theorem turnedTo_ok {page : Nat} (h : caller.Reads) (hp : 1 ≤ page ∧ page ≤ 10000) :
    turnedTo t caller r page = .ok {
      items := Paging.page r.size page ((found t caller r).map searchItem)
      total := (found t caller r).length
      page := page
      size := r.size
      totalPages := Paging.totalPages r.size (found t caller r).length } := by
  have hof : AnalysisJobSearchRequest.of r.criteria r.dataSourceId page r.size =
      .ok ⟨r.criteria, r.dataSourceId, page, r.size, hp, r.size_ok, r.keyword_ok⟩ := by
    rw [AnalysisJobSearchRequest.of, dif_pos hp, dif_pos r.size_ok, dif_pos r.keyword_ok]
  rw [turnedTo, hof]
  exact search_eq h

theorem turnedTo_error {page : Nat} (hp : ¬ (1 ≤ page ∧ page ≤ 10000)) :
    itemsOf (turnedTo t caller r page) = [] := by
  rw [turnedTo, AnalysisJobSearchRequest.of, dif_neg hp]
  rfl

theorem flatMap_turned (h : caller.Reads) :
    ((List.range' 1 (Paging.totalPages r.size (found t caller r).length)).flatMap fun page =>
      itemsOf (turnedTo t caller r page)) = ((found t caller r).map searchItem).take (10000 * r.size) := by
  have heach : ∀ page ∈ List.range' 1 (Paging.totalPages r.size (found t caller r).length),
      itemsOf (turnedTo t caller r page) =
        if page ≤ 10000 then Paging.page r.size page ((found t caller r).map searchItem) else [] := by
    intro page hpage
    have hfirst : 1 ≤ page := (List.mem_range'_1.mp hpage).1
    by_cases hlast : page ≤ 10000
    · rw [turnedTo_ok h ⟨hfirst, hlast⟩, if_pos hlast]
      rfl
    · rw [turnedTo_error fun hp => hlast hp.2, if_neg hlast]
  have hlength : (found t caller r).length = ((found t caller r).map searchItem).length := by
    rw [List.length_map]
  rw [List.flatMap_def, List.map_congr_left heach, ← List.flatMap_def, hlength]
  exact Paging.flatMap_page_bounded r.size_ok.1

theorem found_complete (j : AnalysisJobRow) : j ∈ (found t caller r).map JoinedRow.j ↔
    j ∈ t.jobs ∧ t.Housed j ∧ Owned caller j ∧ r.Matches j := by
  rw [List.mem_map]
  constructor
  · rintro ⟨row, hrow, rfl⟩
    obtain ⟨hjoined, howned, hmatches⟩ := mem_found.mp hrow
    obtain ⟨hj, ⟨hds, hid, htenant⟩, hu, huid, hutenant⟩ := mem_joinedTables.mp hjoined
    exact ⟨hj, ⟨⟨row.ds, hds, hid, htenant⟩, row.u, hu, huid, hutenant⟩, howned, hmatches⟩
  · rintro ⟨hj, ⟨⟨ds, hds, hid, htenant⟩, u, hu, huid, hutenant⟩, howned, hmatches⟩
    refine ⟨⟨j, ds, u⟩, mem_found.mpr ⟨mem_joinedTables.mpr ?_, howned, hmatches⟩, rfl⟩
    exact ⟨hj, ⟨hds, hid, htenant⟩, hu, huid, hutenant⟩

theorem found_shown : List.Forall₂ t.Shows ((found t caller r).map JoinedRow.j)
    ((found t caller r).map searchItem) := by
  rw [List.forall₂_map_left_iff, List.forall₂_map_right_iff, List.forall₂_same]
  intro row hrow
  obtain ⟨-, ⟨hds, hid, -⟩, hu, huid, -⟩ := mem_joinedTables.mp (mem_found.mp hrow).1
  exact ⟨row.ds, hds, row.u, hu, hid, huid, rfl⟩

theorem pagesOf_found (h : caller.Reads) :
    PagesOf t caller r (fun j => t.Housed j ∧ Owned caller j ∧ r.Matches j)
      ((found t caller r).map JoinedRow.j) ((found t caller r).map searchItem) where
  once := by
    have hordered := @found_ordered t caller r
    refine hordered.imp ?_
    intro a b hab he
    rw [he] at hab
    cases hab with
    | inl hlt => exact lt_irrefl _ hlt
    | inr hlt => exact lt_irrefl _ hlt.2
  complete := found_complete
  ordered := found_ordered
  shown := found_shown
  pages := by
    rw [List.length_map]
    exact flatMap_turned h
  answered := by
    intro page hfirst hlast
    refine ⟨_, turnedTo_ok h ⟨hfirst, hlast⟩, by rw [List.length_map], by rw [List.length_map], ?_⟩
    intro hbeyond
    apply Paging.page_beyond r.size_ok.1
    rw [List.length_map]
    exact hbeyond

theorem JobTables.Agree.symm (h : JobTables.Agree caller t t') : JobTables.Agree caller t' t where
  jobs j hj := (h.jobs j hj).symm
  dataSources ds htenant := by
    rintro ⟨j, hj, howned, hid⟩
    exact (h.dataSources ds htenant ⟨j, (h.jobs j howned).mpr hj, howned, hid⟩).symm
  appUsers u htenant := by
    rintro ⟨j, hj, howned, hid⟩
    exact (h.appUsers u htenant ⟨j, (h.jobs j howned).mpr hj, howned, hid⟩).symm

theorem mem_found_of_agree (h : JobTables.Agree caller t t') (hrow : row ∈ found t caller r) :
    row ∈ found t' caller r := by
  obtain ⟨hjoined, howned, hmatches⟩ := mem_found.mp hrow
  obtain ⟨hj, ⟨hds, hid, htenant⟩, hu, huid, hutenant⟩ := mem_joinedTables.mp hjoined
  have hds' := (h.dataSources row.ds (htenant.trans howned.1) ⟨row.j, hj, howned, hid⟩).mp hds
  have hu' := (h.appUsers row.u (hutenant.trans howned.1) ⟨row.j, hj, howned, huid⟩).mp hu
  refine mem_found.mpr ⟨mem_joinedTables.mpr ?_, howned, hmatches⟩
  exact ⟨(h.jobs row.j howned).mp hj, ⟨hds', hid, htenant⟩, hu', huid, hutenant⟩

/-- The order is total on the rows found, so there is one way to list them. -/
theorem found_of_agree (h : JobTables.Agree caller t t') : found t caller r = found t' caller r := by
  have hmem : ∀ row, row ∈ found t caller r ↔ row ∈ found t' caller r :=
    fun row => ⟨mem_found_of_agree h, mem_found_of_agree h.symm⟩
  have hperm : List.Perm (found t caller r) (found t' caller r) :=
    (List.perm_ext_iff_of_nodup found_nodup found_nodup).mpr hmem
  have hsorted : ∀ u : JobTables, (found u caller r).Pairwise fun a b => orderBy a b = true :=
    fun u => List.pairwise_mergeSort orderBy_trans orderBy_total _
  refine List.Perm.eq_of_pairwise ?_ (hsorted t) (hsorted t') hperm
  intro a b ha hb hab hba
  have hid : a.j.id = b.j.id := by
    rw [orderBy_iff] at hab hba
    cases hab with
    | inl hab =>
      cases hba with
      | inl hba => exact absurd hab (lt_asymm hba)
      | inr hba => exact absurd hab (by rw [hba.1]; exact lt_irrefl _)
    | inr hab =>
      cases hba with
      | inl hba => exact absurd hba (by rw [hab.1]; exact lt_irrefl _)
      | inr hba => exact UUID.ext (le_antisymm hba.2 hab.2)
  exact job_unique (mem_found.mp ha).1 (mem_found.mp ((hmem b).mpr hb)).1 hid

def salesTenant : UUID := ⟨"7b1d4f6e-0000-4000-8000-0000000000a1", by decide⟩

def otherTenant : UUID := ⟨"7b1d4f6e-0000-4000-8000-0000000000a2", by decide⟩

def salesAnalyst : UUID := ⟨"7b1d4f6e-0000-4000-8000-0000000000b1", by decide⟩

def salesSource : UUID := ⟨"7b1d4f6e-0000-4000-8000-0000000000c1", by decide⟩

def salesJob : AnalysisJobRow where
  id := ⟨"7b1d4f6e-0000-4000-8000-0000000000d1", by decide⟩
  tenantId := salesTenant
  dataSourceId := salesSource
  createdBy := salesAnalyst
  question := "Show the orders"
  status := .completed
  createdAt := 0

def salesTables (sourceTenant : UUID) : JobTables where
  jobs := [salesJob]
  dataSources := [⟨salesSource, sourceTenant, "northwind"⟩]
  appUsers := [⟨salesAnalyst, salesTenant, "Analyst"⟩]
  jobs_key := List.nodup_singleton _
  dataSources_key := List.nodup_singleton _
  appUsers_key := List.nodup_singleton _
  data_source_id := by simp [salesJob]
  created_by := by simp [salesJob]

def salesCaller : RoledCaller := ⟨⟨salesAnalyst, salesTenant⟩, ["ANALYST"]⟩

def anyJob : AnalysisJobSearchRequest where
  criteria := ⟨none, none, none, none, by decide, fun _ h => (by cases h), by decide⟩
  dataSourceId := none
  page := 1
  size := 20
  page_ok := by decide
  size_ok := by decide
  keyword_ok := by decide

theorem salesCaller_reads : salesCaller.Reads := ⟨"ANALYST", List.mem_singleton_self _, by decide⟩

/-- Created at the same time as the other job, with a higher id. -/
def tiedJob : AnalysisJobRow := { salesJob with id := ⟨"7b1d4f6e-0000-4000-8000-0000000000d2", by decide⟩ }

def tiedTables : JobTables where
  jobs := [salesJob, tiedJob]
  dataSources := [⟨salesSource, salesTenant, "northwind"⟩]
  appUsers := [⟨salesAnalyst, salesTenant, "Analyst"⟩]
  jobs_key := by decide
  dataSources_key := List.nodup_singleton _
  appUsers_key := List.nodup_singleton _
  data_source_id := by simp [salesJob, tiedJob]
  created_by := by simp [salesJob, tiedJob]

/-- One job a page. -/
def oneJob : AnalysisJobSearchRequest where
  criteria := anyJob.criteria
  dataSourceId := none
  page := 1
  size := 1
  page_ok := by decide
  size_ok := by decide
  keyword_ok := by decide

def salesRow (job : AnalysisJobRow) : JoinedRow :=
  ⟨job, ⟨salesSource, salesTenant, "northwind"⟩, ⟨salesAnalyst, salesTenant, "Analyst"⟩⟩

theorem found_tied : found tiedTables salesCaller oneJob = [salesRow tiedJob, salesRow salesJob] := by
  have hrows : (joinedTables tiedTables).filter (findPageWhere (scope oneJob salesCaller) oneJob.criteria) =
      [salesRow salesJob, salesRow tiedJob] := by decide +kernel
  have horder : orderBy (salesRow salesJob) (salesRow tiedJob) = false := by decide +kernel
  rw [found, hrows]
  simp [List.mergeSort, List.MergeSort.Internal.splitInTwo, horder]

end DataCopilot.Platform
