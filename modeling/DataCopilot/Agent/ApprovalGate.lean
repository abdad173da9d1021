import DataCopilot.Agent.Actions

/-! The approval gate for controlled columns: which of the columns that a query really reads
the statement-wide alias map reports. -/
namespace DataCopilot.Agent
open Sql Dict Effects NorthwindAgentActions

section Report
variable {L : Libraries} {q : Query}

/-- The tables of the statement that go by a qualifier, by their names. Where there is none, the qualifier stands
for itself. -/
def namesUnder (q : Query) (qualifier : String) : List String :=
  let names := ((q.nodes.filterMap Node.table?).filter (·.aliasOrName = qualifier)).map Table.name
  if names = [] then [qualifier] else names

/-- There is a qualifier with which the query writes the name, whichever of its tables is taken for it. -/
def Spelled (q : Query) (name : String) : Prop :=
  ∃ qualifier, ∀ t ∈ namesUnder q qualifier, t ≠ "" ∧
    ∃ col, Node.column col ∈ q.nodes ∧ col.table = qualifier ∧ dotted t col.name = name

theorem mem_tables {t : Table} : t ∈ q.nodes.filterMap Node.table? ↔ Node.table t ∈ q.nodes := by
  rw [List.mem_filterMap]
  constructor
  · rintro ⟨n, hn, ht⟩
    cases n with
    | table u =>
      obtain rfl := Option.some.inj ht
      exact hn
    | _ => cases ht
  · exact fun h => ⟨_, h, rfl⟩

theorem mem_findColumns {col : Column} : col ∈ L.findColumns q ↔ Node.column col ∈ q.nodes := by
  rw [Libraries.findColumns, List.mem_filterMap]
  constructor
  · intro h
    obtain ⟨n, hn, hc⟩ := h
    cases n with
    | column c =>
      obtain rfl := Option.some.inj hc
      exact L.mem_walk.mp hn
    | _ => cases hc
  · intro h
    exact ⟨_, L.mem_walk.mpr h, rfl⟩

theorem mem_aliasPairs {e : String × String} :
    e ∈ aliasPairs L q ↔ ∃ t, Node.table t ∈ q.nodes ∧ t.aliasOrName = e.1 ∧ t.name = e.2 := by
  rw [aliasPairs, List.mem_map]
  constructor
  · rintro ⟨t, ht, rfl⟩
    exact ⟨t, Libraries.mem_findTables L |>.mp ht, rfl, rfl⟩
  · rintro ⟨t, ht, h1, h2⟩
    exact ⟨t, Libraries.mem_findTables L |>.mpr ht, Prod.ext h1 h2⟩

theorem mem_namesUnder_table {qualifier name : String} (hne : ∃ t, Node.table t ∈ q.nodes ∧ t.aliasOrName = qualifier) :
    name ∈ namesUnder q qualifier ↔ ∃ t, Node.table t ∈ q.nodes ∧ t.aliasOrName = qualifier ∧ t.name = name := by
  obtain ⟨u, hu, hq⟩ := hne
  have hmem : u ∈ (q.nodes.filterMap Node.table?).filter (·.aliasOrName = qualifier) :=
    List.mem_filter.mpr ⟨mem_tables.mpr hu, decide_eq_true hq⟩
  have hnil : ((q.nodes.filterMap Node.table?).filter (·.aliasOrName = qualifier)).map Table.name ≠ [] :=
    List.ne_nil_of_mem (List.mem_map_of_mem hmem)
  simp only [namesUnder, if_neg hnil, List.mem_map, List.mem_filter, mem_tables, decide_eq_true_eq, and_assoc]

theorem namesUnder_free {qualifier : String} (h : ∀ t, Node.table t ∈ q.nodes → t.aliasOrName ≠ qualifier) :
    namesUnder q qualifier = [qualifier] := by
  have hnil : (q.nodes.filterMap Node.table?).filter (·.aliasOrName = qualifier) = [] := by
    rw [List.filter_eq_nil_iff]
    exact fun t ht => by simpa using h t (mem_tables.mp ht)
  simp only [namesUnder, hnil, List.map_nil, if_true]

/-- The alias map takes one of the tables that go by the qualifier. -/
theorem aliasedTable_mem (col : Column) : aliasedTable L q col ∈ namesUnder q col.table := by
  unfold aliasedTable
  cases hd : ofPairs (aliasPairs L q) col.table with
  | some t =>
    obtain ⟨early, late, hpairs, _⟩ := ofPairs_eq_some.mp hd
    have hmem : (col.table, t) ∈ aliasPairs L q := by
      rw [hpairs]
      exact List.mem_append_right _ List.mem_cons_self
    obtain ⟨u, hu, hq, ht⟩ := mem_aliasPairs.mp hmem
    exact (mem_namesUnder_table ⟨u, hu, hq⟩).mpr ⟨u, hu, hq, ht⟩
  | none =>
    have hfree := ofPairs_eq_none.mp hd
    rw [namesUnder_free fun t ht he => hfree (t.aliasOrName, t.name) (mem_aliasPairs.mpr ⟨t, ht, rfl, rfl⟩) he]
    exact List.mem_singleton_self _

theorem dotted_ne (t c : String) : dotted t c ≠ "" := by
  intro h
  have hl := congrArg String.toList h
  simp [dotted] at hl

theorem Spelled.reported {name : String} (h : Spelled q name) :
    ∃ col ∈ L.findColumns q, reportedName L q col = name := by
  obtain ⟨qualifier, h⟩ := h
  have hone : ∃ t, t ∈ namesUnder q qualifier := by
    by_cases hfree : ∀ t, Node.table t ∈ q.nodes → t.aliasOrName ≠ qualifier
    · exact ⟨qualifier, by rw [namesUnder_free hfree]; exact List.mem_singleton_self _⟩
    · push Not at hfree
      obtain ⟨t, ht, hq⟩ := hfree
      exact ⟨t.name, (mem_namesUnder_table ⟨t, ht, hq⟩).mpr ⟨t, ht, hq, rfl⟩⟩
  -- the table that the map takes for the qualifier is the same for all its references
  obtain ⟨t, ht⟩ := hone
  obtain ⟨_, first, _, rfl, _⟩ := h t ht
  obtain ⟨hne, col, hcol, hq, hname⟩ := h _ (aliasedTable_mem (L := L) first)
  have hsame : aliasedTable L q col = aliasedTable L q first := by
    unfold aliasedTable
    rw [hq]
  refine ⟨col, mem_findColumns.mpr hcol, ?_⟩
  rw [reportedName, hsame, if_neg hne]
  exact hname

/-- Where no qualifier stands for two tables, every column that is read is spelled. -/
theorem Spelled.of_apart {casing : Casing} {env : List String} {t c : String} (ht : t ≠ "")
    (hapart : ∀ x y, Node.table x ∈ q.nodes → Node.table y ∈ q.nodes → x.aliasOrName = y.aliasOrName → x.name = y.name)
    (hr : (t, c) ∈ q.resolved casing env [] []) : Spelled q (dotted t c) := by
  obtain ⟨col, hcol, rfl, ⟨x, hx, hq, rfl⟩ | ⟨frame, hf, _⟩⟩ := reads_of_resolved hr
  · refine ⟨col.table, fun name hn => ?_⟩
    obtain ⟨y, hy, hyq, rfl⟩ := (mem_namesUnder_table ⟨x, hx, hq⟩).mp hn
    rw [hapart y x hy hx (hyq.trans hq.symm)]
    exact ⟨ht, col, hcol, rfl, rfl⟩
  · cases hf

/-- A traversal that meets the chosen tables last. -/
def lastly (choice : String → String) (q : Query) : List Node :=
  let chosen (n : Node) : Bool := (n.table?.map fun t => decide (t.name = choice t.aliasOrName)).getD false
  q.nodes.filter (fun n => !chosen n) ++ q.nodes.filter chosen

theorem lastly_perm (choice : String → String) (q : Query) : (lastly choice q).Perm q.nodes :=
  List.perm_append_comm.trans (List.filter_append_perm _ _)

theorem aliasedTable_lastly {choice : String → String} (hchoice : ∀ qualifier, choice qualifier ∈ namesUnder q qualifier)
    (hwalk : L.walk q = lastly choice q) (col : Column) : aliasedTable L q col = choice col.table := by
  unfold aliasedTable
  by_cases hfree : ∀ t, Node.table t ∈ q.nodes → t.aliasOrName ≠ col.table
  · have hnone : ofPairs (aliasPairs L q) col.table = none := by
      rw [ofPairs_eq_none]
      intro e he
      obtain ⟨t, ht, hq, _⟩ := mem_aliasPairs.mp he
      exact hq ▸ hfree t ht
    have hself := hchoice col.table
    rw [namesUnder_free hfree, List.mem_singleton] at hself
    rw [hnone, hself, Option.getD_none]
  · push Not at hfree
    obtain ⟨t, ht, hq⟩ := hfree
    obtain ⟨u, hu, huq, hun⟩ := (mem_namesUnder_table ⟨t, ht, hq⟩).mp (hchoice col.table)
    rw [aliasPairs, Libraries.findTables, hwalk, lastly, List.filterMap_append, List.map_append,
      ofPairs_chosen choice, Option.getD_some]
    · intro e he
      obtain ⟨x, hx, rfl⟩ := List.mem_map.mp he
      obtain ⟨n, hn, hnx⟩ := List.mem_filterMap.mp hx
      have hc := (List.mem_filter.mp hn).2
      simpa [hnx] using hc
    · refine ⟨(u.aliasOrName, u.name), List.mem_map_of_mem (List.mem_filterMap.mpr ⟨.table u, ?_, rfl⟩), huq⟩
      refine List.mem_filter.mpr ⟨hu, ?_⟩
      simp [Node.table?, huq, hun]

/-- What is not spelled is missed by a traversal. -/
theorem exists_missing {name : String} (hn : name ≠ "") (h : ¬ Spelled q name) :
    ∃ choice, ∀ L : Libraries, L.walk q = lastly choice q → ∀ col ∈ L.findColumns q, reportedName L q col ≠ name := by
  have hmiss : ∀ qualifier, ∃ t ∈ namesUnder q qualifier, t ≠ "" →
      ∀ col, Node.column col ∈ q.nodes → col.table = qualifier → dotted t col.name ≠ name := by
    intro qualifier
    by_contra hno
    push Not at hno
    exact h ⟨qualifier, fun t ht => hno t ht⟩
  choose choice hchoice hmiss using hmiss
  refine ⟨choice, fun L hwalk col hcol => ?_⟩
  rw [reportedName, aliasedTable_lastly hchoice hwalk]
  by_cases ht : choice col.table = ""
  · rw [if_pos ht]
    exact Ne.symm hn
  · rw [if_neg ht]
    exact hmiss col.table ht col (mem_findColumns.mp hcol) rfl

end Report

section Gate
variable (A : NorthwindAgentActions)

/-- The same actions over a traversal of its own. -/
def NorthwindAgentActions.walking (walk : Query → List Node) (h : ∀ q, (walk q).Perm q.nodes) :
    NorthwindAgentActions :=
  { A with libraries := { A.libraries with walk := walk, walk_perm := h } }

/-- The controlled columns that a query reads, each reference resolved in its own scope. -/
def readsControlled (q : Query) (t c : String) : Prop :=
  (t, c) ∈ q.resolved A.libraries.casing [] [] [] ∧ dotted t c ∈ A.controlledColumns

/-- No controlled column passes the gate unseen. -/
structure GateComplete (sql : String) (policy : QueryPolicy) (g : GuardedQuery) (q : Query) :
    Prop where
  found : ∀ t c, readsControlled A q t c →
    ∃ found, A.controlledReferences g.normalizedSql = .ok found ∧ dotted t c ∈ found
  approval : (∃ t c, readsControlled A q t c) → ∀ w state u, state.sql = some sql →
    state.queryPolicy = some policy → (A.guardSql w state).result = .ok u →
    u.sqlRisk = some .approval ∧
      ∃ reasons, u.riskReasons = some reasons ∧ "CONTROLLED_SENSITIVE_COLUMN" ∈ reasons

variable {A} {sql : String} {policy : QueryPolicy} {g : GuardedQuery} {q : Query}

theorem controlledReferences_eq (hp : A.libraries.parseOne sql = .ok q) :
    ∃ found, A.controlledReferences sql = .ok found ∧ ∀ name, name ∈ found ↔
      (∃ col ∈ A.libraries.findColumns q, reportedName A.libraries q col = name) ∧ name ∈ A.controlledColumns := by
  refine ⟨((A.libraries.findColumns q).map (reportedName A.libraries q)).toFinset ∩
    A.controlledColumns, ?_, fun name => ?_⟩
  · simp only [NorthwindAgentActions.controlledReferences, Sql.controlledReferences, hp]
    rfl
  · rw [Finset.mem_inter, List.mem_toFinset, List.mem_map]

theorem ruling_of_controlled {w : World} {state u : AgentState} {found : Finset String}
    (hs : state.sql = some sql) (hq : state.queryPolicy = some policy)
    (hg : A.guard sql policy = .ok g) (hc : A.controlledReferences g.normalizedSql = .ok found)
    (hne : found.Nonempty) (hu : (A.guardSql w state).result = .ok u) :
    u.sqlRisk = some .approval ∧
      ∃ reasons, u.riskReasons = some reasons ∧ "CONTROLLED_SENSITIVE_COLUMN" ∈ reasons := by
  obtain ⟨policy', sql', hp', hs', hcase⟩ := guardSql_ok hu
  obtain rfl : policy = policy' := by simpa [hq] using hp'
  obtain rfl : sql = sql' := by simpa [hs] using hs'
  obtain ⟨reason, he, _⟩ | ⟨g', hg', hrule⟩ := hcase
  · rw [hg] at he
    cases he
  · obtain rfl : g = g' := by simpa [hg] using hg'
    obtain ⟨found', estimate, hc', _, rfl⟩ := rule_ok hrule
    obtain rfl : found = found' := by simpa [hc] using hc'
    have hm : "CONTROLLED_SENSITIVE_COLUMN" ∈
        A.riskReasons policy estimate found state.selectionConfidence := by
      simp [riskReasons, hne]
    have hreasons : A.riskReasons policy estimate found state.selectionConfidence ≠ [] :=
      List.ne_nil_of_mem hm
    exact ⟨by simp [ruling, hreasons], _, rfl, hm⟩

/-- The gate is complete for an accepted query, in whatever order its nodes are met, exactly when the query
spells each controlled column that it reads with a qualifier that stands for no other table. -/
theorem gate_complete_iff (hg : A.guard sql policy = .ok g)
    (hp : A.libraries.parseOne g.normalizedSql = .ok q) :
    (∀ walk h, GateComplete (A.walking walk h) sql policy g q) ↔
      ∀ t c, readsControlled A q t c → Spelled q (dotted t c) := by
  constructor
  · intro h t c hr
    by_contra hs
    obtain ⟨choice, hmiss⟩ := exists_missing (dotted_ne t c) hs
    have hcomplete := h (lastly choice) (lastly_perm choice)
    obtain ⟨found, hf, hm⟩ := hcomplete.found t c hr
    obtain ⟨found', hf', hmem⟩ := controlledReferences_eq (A := A.walking (lastly choice) (lastly_perm choice)) hp
    obtain rfl : found = found' := by simpa [hf] using hf'
    obtain ⟨⟨col, hcol, hname⟩, _⟩ := (hmem _).mp hm
    exact hmiss (A.walking (lastly choice) (lastly_perm choice)).libraries rfl col hcol hname
  · intro h walk hwalk
    obtain ⟨found, hf, hmem⟩ := controlledReferences_eq (A := A.walking walk hwalk) hp
    have hin : ∀ t c, readsControlled A q t c → dotted t c ∈ found :=
      fun t c hr => (hmem _).mpr ⟨(h t c hr).reported, hr.2⟩
    refine ⟨fun t c hr => ⟨found, hf, hin t c hr⟩, ?_⟩
    intro hex w state u hs hq hu
    obtain ⟨t, c, hr⟩ := hex
    exact ruling_of_controlled (A := A.walking walk hwalk) hs hq hg hf ⟨_, hin t c hr⟩ hu

end Gate

/-! An alias that a sub-query uses again for another table. -/

def contactsActions (text digest : String) (q : Query) (h : text ≠ "") : NorthwindAgentActions where
  py := asciiPython
  libraries := .knowing text digest q h
  questionGuard := .ok
  guard := fun sql policy => SQLGuard.inspect (.knowing text digest q h) policy sql

def contactsPolicy : QueryPolicy where
  allowedSchema := "northwind"
  allowedTables := {"customers", "orders"}
  allowedColumns := [("customers", {"contact_name"}), ("orders", {"order_id"})]
  tables_ok := by decide

def selectAs (column : Column) (t : Table) (clauses : Ast .exprs) : Query :=
  .select false .noWith [] (.op (.column column .noExpr) .noExpr) (.table .first t .noExpr .noSource)
    clauses

def reusedText : String :=
  "SELECT c.contact_name AS contact_name FROM northwind.customers AS c WHERE " ++
    "EXISTS(SELECT c.order_id AS order_id FROM northwind.orders AS c)"

def reusedTree : Query :=
  selectAs ⟨"c", "contact_name"⟩ ⟨⟨"customers", false⟩, "northwind", "", "c"⟩
    (.func ⟨false, "EXISTS"⟩ (.subquery
      (selectAs ⟨"c", "order_id"⟩ ⟨⟨"orders", false⟩, "northwind", "", "c"⟩ .noExpr) .noExpr) .noExpr)

def reusedActions : NorthwindAgentActions :=
  contactsActions reusedText "bb40d18c917f15276aadf7c8a88f03180140534d3504de9459e6b735bf5445d3"
    reusedTree (by decide)

set_option maxRecDepth 8000 in
theorem reused_alias_escapes : ∃ g, reusedActions.guard reusedText contactsPolicy = .ok g ∧
    reusedActions.libraries.parseOne g.normalizedSql = .ok reusedTree ∧
    reusedActions.controlledReferences g.normalizedSql = .ok ∅ ∧
    ¬ GateComplete reusedActions reusedText contactsPolicy g reusedTree := by
  have hempty : reusedActions.controlledReferences reusedText = .ok ∅ := rfl
  refine ⟨SQLGuard.guarded reusedActions.libraries contactsPolicy reusedTree
    {"northwind.customers", "northwind.orders"}, rfl, rfl, hempty, fun h => ?_⟩
  obtain ⟨found, hf, hm⟩ := h.found "customers" "contact_name" ⟨by decide, by decide⟩
  obtain rfl : ∅ = found := Except.ok.inj (hempty.symm.trans hf)
  cases hm

def contactsText : String :=
  "SELECT customers.contact_name AS contact_name FROM northwind.customers AS customers"

def contactsTree : Query :=
  selectAs ⟨"customers", "contact_name"⟩ ⟨⟨"customers", false⟩, "northwind", "", "customers"⟩ .noExpr

def contactsOnly : NorthwindAgentActions :=
  contactsActions contactsText "a9313f885c027c9dc63419bd2ecc60b1e0a573deea5b2b3f88adbb6b33d9fa3b"
    contactsTree (by decide)

theorem contacts_gate_complete : readsControlled contactsOnly contactsTree "customers" "contact_name" ∧
    ∀ walk h, GateComplete (contactsOnly.walking walk h) contactsText contactsPolicy
      (SQLGuard.guarded contactsOnly.libraries contactsPolicy contactsTree {"northwind.customers"})
      contactsTree := by
  refine ⟨⟨by decide, by decide⟩, (gate_complete_iff (A := contactsOnly) rfl rfl).mpr fun t c hr => ?_⟩
  have hread : contactsTree.resolved contactsOnly.libraries.casing [] [] [] =
      [("customers", "contact_name")] := by decide
  have hm := hr.1
  rw [hread, List.mem_singleton, Prod.mk.injEq] at hm
  obtain ⟨rfl, rfl⟩ := hm
  refine Spelled.of_apart (by decide) (fun x y hx hy _ => ?_) hr.1
  have hone : ∀ x, Node.table x ∈ contactsTree.nodes → x = ⟨⟨"customers", false⟩, "northwind", "", "customers"⟩ := by
    intro x hx
    simpa [contactsTree, selectAs, Ast.nodes, Attach.nodes] using hx
  rw [hone x hx, hone y hy]

end DataCopilot.Agent
