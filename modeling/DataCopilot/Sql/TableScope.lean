import DataCopilot.Sql.Guard

/-! Which physical tables a query reads, by the scoping rules of SQL, and how far the
statement-wide list of CTE names that the guard keeps agrees with them. -/
namespace DataCopilot.Sql
variable (c : Casing) {p : Part}

def Identifier.folded (i : Identifier) : String := if i.quoted then i.text else c.fold i.text

theorem Identifier.lower_folded (i : Identifier) : c.lower (i.folded c) = c.lower i.text := by
  unfold folded
  split
  · rfl
  · exact c.lower_fold i.text

def Ast.cteNames : {p : Part} → Ast p → List String
  | _, .cte name _ rest => name.folded c :: rest.cteNames
  | _, _ => []

def Table.denotesCte (visible : List String) (t : Table) : Bool :=
  t.db = "" && t.catalog = "" && t.identifier.folded c ∈ visible

/-- The references that denote physical tables where the CTEs in `env` are visible. The
query of a CTE sees the CTEs before it, or all of its clause under WITH RECURSIVE. -/
def Ast.physical (env : List String) : {p : Part} → Ast p → List Table
  | _, .select recursive withs _ projections froms clauses =>
    let inner := withs.cteNames c ++ env
    withs.physical (if recursive then inner else env) ++ projections.physical inner ++
      froms.physical inner ++ clauses.physical inner
  | _, .setOp recursive withs left right modifiers =>
    let inner := withs.cteNames c ++ env
    withs.physical (if recursive then inner else env) ++ left.physical inner ++
      right.physical inner ++ modifiers.physical inner
  | _, .paren recursive withs body modifiers =>
    let inner := withs.cteNames c ++ env
    withs.physical (if recursive then inner else env) ++ body.physical inner ++
      modifiers.physical inner
  | _, .cte name body rest => body.physical env ++ rest.physical (name.folded c :: env)
  | _, .table _ t on rest =>
    (if t.denotesCte c env then [] else [t]) ++ on.physical env ++ rest.physical env
  | _, .derived _ _ _ body on rest => body.physical env ++ on.physical env ++ rest.physical env
  | _, .group _ _ inner on rest => inner.physical env ++ on.physical env ++ rest.physical env
  | _, .rowFunction _ _ args on rest =>
    args.physical env ++ on.physical env ++ rest.physical env
  | _, .column _ rest => rest.physical env
  | _, .boolean _ rest => rest.physical env
  | _, .func _ args rest => args.physical env ++ rest.physical env
  | _, .op args rest => args.physical env ++ rest.physical env
  | _, .subquery body rest => body.physical env ++ rest.physical env
  | _, .forbidden _ => []
  | _, .noWith => []
  | _, .noSource => []
  | _, .noExpr => []

/-- Some CTE of the tree, in whatever scope, has this name. -/
def Ast.bears (a : Ast p) (name : String) : Prop :=
  ∃ i, Node.cte i ∈ a.nodes ∧ i.folded c = name

theorem bears_of_mem_cteNames {a : Ast p} {name : String} (h : name ∈ a.cteNames c) :
    a.bears c name := by
  induction a with
  | cte i body rest _ ih =>
    simp only [Ast.cteNames, List.mem_cons] at h
    rcases h with rfl | h
    · exact ⟨i, by simp [Ast.nodes], rfl⟩
    · obtain ⟨j, hj, hn⟩ := ih h
      exact ⟨j, by simp [Ast.nodes, hj], hn⟩
  | _ => simp [Ast.cteNames] at h

theorem mem_nodes_of_mem_physical {a : Ast p} {env : List String} {t : Table}
    (h : t ∈ a.physical c env) : Node.table t ∈ a.nodes := by
  induction a generalizing env with
  | table k u on rest ihOn ihRest =>
    simp only [Ast.physical, List.mem_append] at h
    rcases h with (h | h) | h
    · split at h <;> simp_all [Ast.nodes]
    · simp [Ast.nodes, ihOn h]
    · simp [Ast.nodes, ihRest h]
  | _ => simp only [Ast.physical, Ast.nodes, List.mem_append, List.mem_cons] at h ⊢; grind

/-- A table reference is physical unless it is unqualified and bears the name of a CTE that
is visible from outside or stands somewhere in the tree. -/
theorem mem_physical_or_bears {a : Ast p} (env : List String) {t : Table}
    (h : Node.table t ∈ a.nodes) :
    t ∈ a.physical c env ∨ t.db = "" ∧
      (t.identifier.folded c ∈ env ∨ a.bears c (t.identifier.folded c)) := by
  induction a generalizing env with
  | select _ withs _ _ _ _ | setOp _ withs _ _ _ | paren _ withs _ _ =>
    have hn := @bears_of_mem_cteNames c _ withs (t.identifier.folded c)
    simp only [Ast.physical, Ast.nodes, Ast.bears, List.mem_append, List.mem_map] at h hn ⊢
    grind [Ast.bears]
  | table k u on rest ihOn ihRest =>
    simp only [Ast.nodes, List.mem_append, List.mem_cons, Node.table.injEq,
      Attach.table_notMem, or_false] at h
    simp only [Ast.physical, List.mem_append, Ast.bears, Ast.nodes]
    rcases h with (rfl | h) | h
    · by_cases hd : t.denotesCte c env
      · simp only [Table.denotesCte, Bool.and_eq_true, decide_eq_true_eq] at hd
        exact .inr ⟨hd.1.1, .inl hd.2⟩
      · simp [hd]
    · grind [Ast.bears]
    · grind [Ast.bears]
  | _ =>
    simp only [Ast.physical, Ast.nodes, Ast.bears, List.mem_append, List.mem_cons] at h ⊢
    grind [Ast.bears, Attach.table_notMem]

open SQLGuard

section Guard
variable (L : Libraries) (policy : QueryPolicy)

theorem mem_cteNames_of_bears {q : Query} {i : Identifier}
    (h : q.bears L.casing (i.folded L.casing)) : L.casing.lower i.text ∈ cteNames L q := by
  obtain ⟨j, hj, hn⟩ := h
  have hl := congrArg L.casing.lower hn
  rw [Identifier.lower_folded, Identifier.lower_folded] at hl
  rw [← hl]
  exact List.mem_map.mpr ⟨j, L.mem_findCtes.mpr hj, rfl⟩

/-- The references that the guard does check are physical in every scoping. -/
theorem physical_of_not_exempt {q : Query} {t : Table} (ht : Node.table t ∈ q.nodes)
    (he : exempt L q t = false) : t ∈ q.physical L.casing [] := by
  rcases mem_physical_or_bears L.casing [] ht with h | ⟨hdb, hn | hb⟩
  · exact h
  · cases hn
  · have hm := mem_cteNames_of_bears L hb
    simp [exempt, hdb, Table.name, hm] at he

/-- What the table check promises of an accepted query. -/
structure AllowListed (g : GuardedQuery) (q : Query) : Prop where
  catalog : ∀ t ∈ q.physical L.casing [], t.catalog = ""
  schema : ∀ t ∈ q.physical L.casing [], t.db = "" ∨ t.db = policy.allowedSchema
  name : ∀ t ∈ q.physical L.casing [], t.name ∈ policy.allowedTables
  referenced : g.referencedTables = sorted (((q.physical L.casing []).map fun t =>
    policy.allowedSchema ++ "." ++ t.name).toFinset)

/-- A physical reference that the guard takes for a CTE is harmless when the same table is
also referenced where the guard looks. -/
def CaptureHarmless (q : Query) : Prop :=
  ∀ t ∈ q.physical L.casing [], exempt L q t = true →
    t.catalog = "" ∧ ∃ u, Node.table u ∈ q.nodes ∧ exempt L q u = false ∧ u.name = t.name

variable {L policy}

theorem admits_of_harmless {q : Query}
    (hall : ∀ t, Node.table t ∈ q.nodes → exempt L q t = false → admits policy t)
    (hc : CaptureHarmless L q) {t : Table} (ht : t ∈ q.physical L.casing []) :
    admits policy t := by
  cases he : exempt L q t with
  | false => exact hall t (mem_nodes_of_mem_physical L.casing ht) he
  | true =>
    obtain ⟨hcat, u, hu, hue, hn⟩ := hc t ht he
    have hdb : t.db = "" := by
      simp only [exempt, Bool.and_eq_true, decide_eq_true_eq] at he
      exact he.1
    exact ⟨hcat, .inl hdb, hn ▸ (hall u hu hue).2.2⟩

theorem dotted_inj {schema a b : String} : schema ++ "." ++ a = schema ++ "." ++ b ↔ a = b := by
  constructor
  · intro h
    have hl := congrArg String.toList h
    exact String.toList_inj.mp (by simpa using hl)
  · rintro rfl
    rfl

/-- The names the guard lists are those of the physical tables just when each captured
reference has an uncaptured namesake. -/
theorem listed_eq_iff (policy : QueryPolicy) (q : Query) :
    (((L.findTables q).filter fun t => !exempt L q t).map
        fun t => policy.allowedSchema ++ "." ++ t.name).toFinset =
      ((q.physical L.casing []).map fun t => policy.allowedSchema ++ "." ++ t.name).toFinset ↔
    ∀ t ∈ q.physical L.casing [], exempt L q t = true →
      ∃ u, Node.table u ∈ q.nodes ∧ exempt L q u = false ∧ u.name = t.name := by
  simp only [Finset.ext_iff, List.mem_toFinset, List.mem_map, List.mem_filter, L.mem_findTables,
    Bool.not_eq_eq_eq_not, Bool.not_true]
  constructor
  · intro h t ht _
    obtain ⟨u, ⟨hu, hue⟩, hn⟩ := (h _).mpr ⟨t, ht, rfl⟩
    exact ⟨u, hu, hue, dotted_inj.mp hn⟩
  · intro h name
    constructor
    · rintro ⟨t, ⟨ht, hte⟩, rfl⟩
      exact ⟨t, physical_of_not_exempt L ht hte, rfl⟩
    · rintro ⟨t, ht, rfl⟩
      cases hte : exempt L q t with
      | false => exact ⟨t, ⟨mem_nodes_of_mem_physical L.casing ht, hte⟩, rfl⟩
      | true =>
        obtain ⟨u, hu, hue, hn⟩ := h t ht hte
        exact ⟨u, ⟨hu, hue⟩, by rw [hn]⟩

/-- An accepted query keeps to the allow-list exactly when no physical reference is captured
by a CTE of another scope, unless the same table is also referenced openly. -/
theorem allow_listed_iff {query : String} {g : GuardedQuery} {q : Query}
    (hp : L.parse query = .ok [some (.query q)]) (hi : inspect L policy query = .ok g) :
    AllowListed L policy g q ↔ CaptureHarmless L q := by
  obtain ⟨q', hp', hq⟩ := inspect_eq_ok L policy hi
  obtain rfl : q = q' := by simpa [hp] using hp'
  obtain ⟨tables, qualified, ht, _, rfl⟩ := inspectQuery_eq_ok L policy hq
  obtain ⟨hall, rfl⟩ := (checkTables_eq_ok L policy).mp ht
  constructor
  · intro h t htp hte
    refine ⟨h.catalog t htp, ?_⟩
    exact (listed_eq_iff policy q).mp (sorted_inj.mp h.referenced) t htp hte
  · intro hc
    have hadm := fun t (htp : t ∈ q.physical L.casing []) => admits_of_harmless hall hc htp
    refine ⟨fun t h => (hadm t h).1, fun t h => (hadm t h).2.1, fun t h => (hadm t h).2.2, ?_⟩
    exact sorted_inj.mpr ((listed_eq_iff policy q).mpr fun t htp hte => (hc t htp hte).2)

end Guard

/-! A CTE named after the table that its own query reads. -/

def asciiCasing : Casing where
  lower := Text.lower
  upper := Text.upper
  fold := Text.lower
  lower_fold := Text.lower_lower

/-- Libraries that know the tree of one text; its qualified form has the same text. -/
def Libraries.knowing (text digest : String) (q : Query) (h : text ≠ "") : Libraries where
  casing := asciiCasing
  parse s := if s = text then .ok [some (.query q)] else .error .parseError
  parseOne s := if s = text then .ok q else .error .parseError
  walk := Ast.nodes
  qualify q _ _ := .ok (.query q)
  sql _ := text
  sha256 _ := digest
  walk_perm _ := .refl _
  sql_ne _ := h

def ownNameText : String :=
  "WITH employees AS (SELECT last_name FROM employees) SELECT last_name FROM employees"

def selectFrom (column : String) (t : Table) : Query :=
  .select false .noWith [] (.column ⟨"", column⟩ .noExpr) (.table .first t .noExpr .noSource)
    .noExpr

def ownNameQuery : Query :=
  .select false (.cte ⟨"employees", false⟩ (selectFrom "last_name" ⟨⟨"employees", false⟩, "", "", ""⟩)
    .noWith) [] (.column ⟨"", "last_name"⟩ .noExpr)
    (.table .first ⟨⟨"employees", false⟩, "", "", ""⟩ .noExpr .noSource) .noExpr

def ownNameLibraries : Libraries :=
  .knowing ownNameText "397fe64be26e3f4ca0f6e02c86463ebc54c41cc57a0044d66c419844c08e717b"
    ownNameQuery (by decide)

def ordersPolicy : QueryPolicy where
  allowedSchema := "northwind"
  allowedTables := {"orders"}
  tables_ok := by decide

theorem own_name_escapes : ∃ g,
    ownNameLibraries.parse ownNameText = .ok [some (.query ownNameQuery)] ∧
    inspect ownNameLibraries ordersPolicy ownNameText = .ok g ∧
    ¬ AllowListed ownNameLibraries ordersPolicy g ownNameQuery := by
  refine ⟨guarded ownNameLibraries ordersPolicy ownNameQuery ∅, rfl, rfl, fun h => ?_⟩
  have hn := h.name ⟨⟨"employees", false⟩, "", "", ""⟩ (by decide)
  revert hn
  decide

/-- The query of the test suite whose CTE reads an allowed table. -/
def recentText : String :=
  "WITH recent AS (SELECT order_id FROM northwind.orders) SELECT order_id FROM recent"

def recentQuery : Query :=
  .select false (.cte ⟨"recent", false⟩
      (selectFrom "order_id" ⟨⟨"orders", false⟩, "northwind", "", ""⟩) .noWith) []
    (.column ⟨"", "order_id"⟩ .noExpr)
    (.table .first ⟨⟨"recent", false⟩, "", "", ""⟩ .noExpr .noSource) .noExpr

def recentLibraries : Libraries :=
  .knowing recentText "e6daa47c534689d84d745a2ddcf35455af5efe5b7ad31e371b57d099e4dfbba3" recentQuery (by decide)

theorem recent_allow_listed :
    AllowListed recentLibraries ordersPolicy
      (guarded recentLibraries ordersPolicy recentQuery {"northwind.orders"}) recentQuery := by
  have hi : inspect recentLibraries ordersPolicy recentText =
      .ok (guarded recentLibraries ordersPolicy recentQuery {"northwind.orders"}) := rfl
  refine (allow_listed_iff rfl hi).mpr ?_
  have hp : recentQuery.physical recentLibraries.casing [] =
      [⟨⟨"orders", false⟩, "northwind", "", ""⟩] := by decide
  intro t ht he
  rw [hp, List.mem_singleton] at ht
  subst ht
  exact absurd he (by decide)

end DataCopilot.Sql
