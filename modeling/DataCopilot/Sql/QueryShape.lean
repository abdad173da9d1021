import DataCopilot.Sql.TableScope

/-! The shape of a query at every depth. The guard looks for joins in the whole tree, and
for WITH RECURSIVE on the statement itself only. -/
namespace DataCopilot.Sql
variable (c : Casing) {p : Part}

/-- Some WITH clause of the tree is RECURSIVE. -/
def Ast.anyRecursive : {p : Part} → Ast p → Bool
  | _, .select recursive withs _ projections froms clauses =>
    recursive || withs.anyRecursive || projections.anyRecursive || froms.anyRecursive ||
      clauses.anyRecursive
  | _, .setOp recursive withs left right modifiers =>
    recursive || withs.anyRecursive || left.anyRecursive || right.anyRecursive ||
      modifiers.anyRecursive
  | _, .paren recursive withs inner modifiers =>
    recursive || withs.anyRecursive || inner.anyRecursive || modifiers.anyRecursive
  | _, .cte _ body rest => body.anyRecursive || rest.anyRecursive
  | _, .table _ _ on rest => on.anyRecursive || rest.anyRecursive
  | _, .derived _ _ _ body on rest => body.anyRecursive || on.anyRecursive || rest.anyRecursive
  | _, .group _ _ inner on rest => inner.anyRecursive || on.anyRecursive || rest.anyRecursive
  | _, .rowFunction _ _ args on rest => args.anyRecursive || on.anyRecursive || rest.anyRecursive
  | _, .column _ rest => rest.anyRecursive
  | _, .boolean _ rest => rest.anyRecursive
  | _, .func _ args rest => args.anyRecursive || rest.anyRecursive
  | _, .op args rest => args.anyRecursive || rest.anyRecursive
  | _, .subquery body rest => body.anyRecursive || rest.anyRecursive
  | _, .forbidden _ => false
  | _, .noWith => false
  | _, .noSource => false
  | _, .noExpr => false

/-- Some WITH clause below the root is RECURSIVE. -/
def Ast.nestedRecursive : Query → Bool
  | .select _ withs _ projections froms clauses =>
    withs.anyRecursive || projections.anyRecursive || froms.anyRecursive || clauses.anyRecursive
  | .setOp _ withs left right modifiers =>
    withs.anyRecursive || left.anyRecursive || right.anyRecursive || modifiers.anyRecursive
  | .paren _ withs inner modifiers =>
    withs.anyRecursive || inner.anyRecursive || modifiers.anyRecursive
  | .forbidden _ => false

theorem anyRecursive_eq (q : Query) : q.anyRecursive = (q.recursiveWith || q.nestedRecursive) := by
  cases q with
  | select => simp [Ast.anyRecursive, Ast.recursiveWith, Ast.nestedRecursive, Bool.or_assoc]
  | setOp => simp [Ast.anyRecursive, Ast.recursiveWith, Ast.nestedRecursive, Bool.or_assoc]
  | paren => simp [Ast.anyRecursive, Ast.recursiveWith, Ast.nestedRecursive, Bool.or_assoc]
  | forbidden => rfl

/-- No cross join, and a condition that says something. -/
structure Join.Conditioned (j : Join) : Prop where
  kind : c.upper j.kind ≠ "CROSS"
  condition : j.on ≠ .absent ∨ j.usingColumns = true
  meaningful : j.on ≠ .boolean true

theorem Join.conditioned_iff (j : Join) : j.Conditioned c ↔ j.isCartesian c = false := by
  unfold isCartesian
  constructor
  · intro h
    obtain ⟨hkind, hcond, hon⟩ := h
    obtain hcond | hcond := hcond
    · simp [hkind, hcond, hon]
    · simp [hkind, hcond, hon]
  · intro h
    simp only [Bool.or_eq_false_iff, decide_eq_false_iff_not, Bool.and_eq_false_iff,
      beq_eq_false_iff_ne, Bool.not_eq_eq_eq_not, Bool.not_false] at h
    obtain ⟨⟨hkind, hcond⟩, hon⟩ := h
    exact ⟨hkind, hcond, hon⟩

/-- A source that is not the first of its list is joined under a condition. -/
def Attach.Conditioned (a : Attach) (on : OnCondition) : Prop :=
  match a with
  | .first => True
  | .join kind usingColumns => Join.Conditioned c ⟨kind, on, usingColumns⟩

/-- Every join of the tree is joined under a condition. -/
def Ast.Conditioned : {p : Part} → Ast p → Prop
  | _, .select _ withs _ projections froms clauses =>
    withs.Conditioned ∧ projections.Conditioned ∧ froms.Conditioned ∧ clauses.Conditioned
  | _, .setOp _ withs left right modifiers =>
    withs.Conditioned ∧ left.Conditioned ∧ right.Conditioned ∧ modifiers.Conditioned
  | _, .paren _ withs inner modifiers =>
    withs.Conditioned ∧ inner.Conditioned ∧ modifiers.Conditioned
  | _, .cte _ body rest => body.Conditioned ∧ rest.Conditioned
  | _, .table a _ on rest => a.Conditioned c on.onCondition ∧ on.Conditioned ∧ rest.Conditioned
  | _, .derived a _ _ body on rest =>
    a.Conditioned c on.onCondition ∧ body.Conditioned ∧ on.Conditioned ∧ rest.Conditioned
  | _, .group a _ inner on rest =>
    a.Conditioned c on.onCondition ∧ inner.Conditioned ∧ on.Conditioned ∧ rest.Conditioned
  | _, .rowFunction a _ args on rest =>
    a.Conditioned c on.onCondition ∧ args.Conditioned ∧ on.Conditioned ∧ rest.Conditioned
  | _, .column _ rest => rest.Conditioned
  | _, .boolean _ rest => rest.Conditioned
  | _, .func _ args rest => args.Conditioned ∧ rest.Conditioned
  | _, .op args rest => args.Conditioned ∧ rest.Conditioned
  | _, .subquery body rest => body.Conditioned ∧ rest.Conditioned
  | _, .forbidden _ => True
  | _, .noWith => True
  | _, .noSource => True
  | _, .noExpr => True

theorem Attach.conditioned_iff (a : Attach) (on : OnCondition) :
    a.Conditioned c on ↔ ∀ j, Node.join j ∈ a.nodes on → j.Conditioned c := by
  cases a with
  | first => simp [Attach.Conditioned, Attach.nodes]
  | join kind usingColumns => simp [Attach.Conditioned, Attach.nodes]

/-- The walk meets every join. -/
theorem conditioned_iff (a : Ast p) :
    a.Conditioned c ↔ ∀ j, Node.join j ∈ a.nodes → j.Conditioned c := by
  induction a with
  | select r withs attached projections froms clauses hw hp hf hc =>
    simp only [Ast.Conditioned, Ast.nodes, List.mem_append, hw, hp, hf, hc, List.mem_map,
      reduceCtorEq, and_false, exists_false, or_false, or_imp, forall_and, and_assoc]
  | setOp r withs left right modifiers hw hl hr hm =>
    simp only [Ast.Conditioned, Ast.nodes, List.mem_append, hw, hl, hr, hm, or_imp, forall_and,
      and_assoc]
  | paren r withs inner modifiers hw hi hm =>
    simp only [Ast.Conditioned, Ast.nodes, List.mem_append, hw, hi, hm, or_imp, forall_and, and_assoc]
  | cte name body rest hb hr =>
    simp only [Ast.Conditioned, Ast.nodes, List.mem_append, List.mem_cons, reduceCtorEq, false_or,
      hb, hr, or_imp, forall_and]
  | table a t on rest ho hr =>
    simp only [Ast.Conditioned, Ast.nodes, List.mem_append, List.mem_cons, reduceCtorEq, false_or,
      Attach.conditioned_iff, ho, hr, or_imp, forall_and, and_assoc]
  | derived a lateral name body on rest hb ho hr =>
    simp only [Ast.Conditioned, Ast.nodes, List.mem_append, Attach.conditioned_iff, hb, ho, hr,
      or_imp, forall_and, and_assoc]
  | group a name inner on rest hi ho hr =>
    simp only [Ast.Conditioned, Ast.nodes, List.mem_append, Attach.conditioned_iff, hi, ho, hr,
      or_imp, forall_and, and_assoc]
  | rowFunction a name args on rest ha ho hr =>
    simp only [Ast.Conditioned, Ast.nodes, List.mem_append, Attach.conditioned_iff, ha, ho, hr,
      or_imp, forall_and, and_assoc]
  | column col rest hr =>
    simp only [Ast.Conditioned, Ast.nodes, List.mem_cons, reduceCtorEq, false_or, hr]
  | boolean b rest hr => simp only [Ast.Conditioned, Ast.nodes, hr]
  | func f args rest ha hr =>
    simp only [Ast.Conditioned, Ast.nodes, List.mem_append, List.mem_cons, reduceCtorEq, false_or,
      ha, hr, or_imp, forall_and]
  | op args rest ha hr =>
    simp only [Ast.Conditioned, Ast.nodes, List.mem_append, ha, hr, or_imp, forall_and]
  | subquery body rest hb hr =>
    simp only [Ast.Conditioned, Ast.nodes, List.mem_append, hb, hr, or_imp, forall_and]
  | _ => simp [Ast.Conditioned, Ast.nodes]

/-- The query-shape policy, for the whole tree. -/
structure ShapeHolds (q : Query) : Prop where
  recursion : q.anyRecursive = false
  joins : q.Conditioned c

section Guard
open SQLGuard Result
variable {L : Libraries} {policy : QueryPolicy}

theorem mem_findJoins {q : Query} {j : Join} : j ∈ L.findJoins q ↔ Node.join j ∈ q.nodes := by
  rw [Libraries.findJoins, List.mem_filterMap]
  constructor
  · intro h
    obtain ⟨n, hn, hj⟩ := h
    cases n with
    | join j' =>
      obtain rfl := Option.some.inj hj
      exact L.mem_walk.mp hn
    | _ => cases hj
  · intro h
    exact ⟨_, L.mem_walk.mpr h, rfl⟩

/-- What the check of the shape covers. -/
theorem checkQueryShape_eq_ok {q : Query} :
    checkQueryShape L q = .ok () ↔ q.recursiveWith = false ∧ q.Conditioned L.casing := by
  have hjoin (j : Join) :
      (if j.isCartesian L.casing then reject .cartesianJoinNotAllowed else pure () :
        Except GuardError Unit) = .ok () ↔ j.Conditioned L.casing := by
    rw [Join.conditioned_iff]
    cases hc : j.isCartesian L.casing with
    | true => simp [reject]
    | false => simp
  have hjoins : (L.findJoins q).forM (fun j =>
      if j.isCartesian L.casing then reject .cartesianJoinNotAllowed else pure ()) = .ok () ↔
      q.Conditioned L.casing := by
    rw [forM_eq_ok, conditioned_iff]
    simp only [hjoin, mem_findJoins]
  unfold checkQueryShape
  by_cases hr : q.recursiveWith = true
  · simp [hr, reject, bind, Except.bind]
  · rw [if_neg hr]
    simpa [hr] using hjoins

theorem inspectQuery_shape {q : Query} {g : GuardedQuery} (h : inspectQuery L policy q = .ok g) :
    checkQueryShape L q = .ok () := by
  unfold inspectQuery at h
  split at h
  · cases h
  · simp only [bind_eq_ok] at h
    obtain ⟨_, _, _, hshape, _⟩ := h
    exact hshape

/-- An accepted query keeps to the policy exactly when no WITH clause below its root is
RECURSIVE. -/
theorem shape_holds_iff {query : String} {g : GuardedQuery} {q : Query}
    (hp : L.parse query = .ok [some (.query q)]) (hi : inspect L policy query = .ok g) :
    ShapeHolds L.casing q ↔ q.nestedRecursive = false := by
  obtain ⟨q', hp', hq⟩ := inspect_eq_ok L policy hi
  obtain rfl : q = q' := by simpa [hp] using hp'
  obtain ⟨hroot, hjoins⟩ := checkQueryShape_eq_ok.mp (inspectQuery_shape hq)
  have hany : q.anyRecursive = q.nestedRecursive := by
    rw [anyRecursive_eq, hroot, Bool.false_or]
  constructor
  · intro h
    rw [← hany]
    exact h.recursion
  · intro h
    exact ⟨hany.trans h, hjoins⟩

end Guard

theorem recent_shape_holds : ShapeHolds recentLibraries.casing recentQuery := by
  have hi : SQLGuard.inspect recentLibraries ordersPolicy recentText =
      .ok (SQLGuard.guarded recentLibraries ordersPolicy recentQuery {"northwind.orders"}) := rfl
  exact (shape_holds_iff rfl hi).mpr rfl

/-! A derived table with a WITH RECURSIVE of its own. -/

def nestedText : String :=
  "SELECT order_id FROM (WITH RECURSIVE r AS (SELECT order_id FROM northwind.orders " ++
    "UNION ALL SELECT order_id FROM r) SELECT order_id FROM r) AS d"

def endlessQuery : Query :=
  .select true (.cte ⟨"r", false⟩
      (.setOp false .noWith (selectFrom "order_id" ⟨⟨"orders", false⟩, "northwind", "", ""⟩)
        (selectFrom "order_id" ⟨⟨"r", false⟩, "", "", ""⟩) .noExpr) .noWith) []
    (.column ⟨"", "order_id"⟩ .noExpr) (.table .first ⟨⟨"r", false⟩, "", "", ""⟩ .noExpr .noSource)
    .noExpr

def nestedQuery : Query :=
  .select false .noWith [] (.column ⟨"", "order_id"⟩ .noExpr)
    (.derived .first false "d" endlessQuery .noExpr .noSource) .noExpr

def nestedLibraries : Libraries :=
  .knowing nestedText "ff2db30efe8774ba7d119291fa8138df8639e1acc379740b902696441c715b3a" nestedQuery (by decide)

set_option maxRecDepth 2000 in
theorem nested_recursion_accepted : ∃ g,
    nestedLibraries.parse nestedText = .ok [some (.query nestedQuery)] ∧
    SQLGuard.inspect nestedLibraries ordersPolicy nestedText = .ok g ∧
    ¬ ShapeHolds nestedLibraries.casing nestedQuery := by
  refine ⟨SQLGuard.guarded nestedLibraries ordersPolicy nestedQuery {"northwind.orders"}, rfl, rfl,
    fun h => ?_⟩
  have hrecursive := h.recursion
  revert hrecursive
  decide

end DataCopilot.Sql
