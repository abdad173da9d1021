import DataCopilot.Library.Dict
import DataCopilot.Sql.TableScope

/-! Which columns of physical tables a query reads, each reference resolved in its own
scope, and what the statement-wide alias map of the approval gate finds of them. -/
namespace DataCopilot.Sql
open Result Dict SQLGuard
variable (c : Casing) {p : Part}

/-- The aliases that one FROM list introduces. An alias of a physical table is bound to
its name, every other alias to nothing. -/
abbrev Frame := List (String × Option String)

def Ast.frame (env : List String) : {p : Part} → Ast p → Frame
  | _, .table _ t _ rest =>
    (t.aliasOrName, if t.denotesCte c env then none else some t.name) :: rest.frame env
  | _, .derived _ _ aliasText _ _ rest => (aliasText, none) :: rest.frame env
  | _, .group _ aliasText inner _ rest =>
    (if aliasText = "" then inner.frame env else [(aliasText, none)]) ++ rest.frame env
  | _, .rowFunction _ aliasText _ _ rest => (aliasText, none) :: rest.frame env
  | _, _ => []

/-- The innermost scope that knows the alias decides. -/
def resolveAlias (aliasText : String) : List Frame → Option String
  | [] => none
  | frame :: outer =>
    match frame.lookup aliasText with
    | some bound => bound
    | none => resolveAlias aliasText outer

def Column.resolve (scopes : List Frame) (col : Column) : List (String × String) :=
  if col.table = "" then []
  else ((resolveAlias col.table scopes).map fun t => (t, col.name)).toList

/-- The columns of physical tables that the references below denote. `outer` are the scopes
that a query in a FROM list sees, `here` those that an expression sees: its own FROM list
first. -/
def Ast.resolved (env : List String) (outer here : List Frame) :
    {p : Part} → Ast p → List (String × String)
  | _, .select recursive withs _ projections froms clauses =>
    let inner := withs.cteNames c ++ env
    let scopes := froms.frame c inner :: outer
    withs.resolved (if recursive then inner else env) outer outer ++
      projections.resolved inner outer scopes ++ froms.resolved inner outer scopes ++
      clauses.resolved inner outer scopes
  | _, .setOp recursive withs left right modifiers =>
    let inner := withs.cteNames c ++ env
    withs.resolved (if recursive then inner else env) outer outer ++
      left.resolved inner outer outer ++ right.resolved inner outer outer ++
      modifiers.resolved inner outer outer
  | _, .paren recursive withs body modifiers =>
    let inner := withs.cteNames c ++ env
    withs.resolved (if recursive then inner else env) outer outer ++
      body.resolved inner outer outer ++ modifiers.resolved inner outer outer
  | _, .cte name body rest =>
    body.resolved env outer outer ++ rest.resolved (name.folded c :: env) outer outer
  | _, .table _ _ on rest => on.resolved env outer here ++ rest.resolved env outer here
  | _, .derived _ lateral _ body on rest =>
    let scopes := if lateral then here else outer
    body.resolved env scopes scopes ++ on.resolved env outer here ++ rest.resolved env outer here
  | _, .group _ aliasText inner on rest =>
    let within := if aliasText = "" then here else inner.frame c env :: here
    inner.resolved env outer within ++ on.resolved env outer here ++ rest.resolved env outer here
  | _, .rowFunction _ _ args on rest =>
    args.resolved env outer here ++ on.resolved env outer here ++ rest.resolved env outer here
  | _, .column col rest => col.resolve here ++ rest.resolved env outer here
  | _, .boolean _ rest => rest.resolved env outer here
  | _, .func _ args rest => args.resolved env outer here ++ rest.resolved env outer here
  | _, .op args rest => args.resolved env outer here ++ rest.resolved env outer here
  | _, .subquery body rest => body.resolved env here here ++ rest.resolved env outer here
  | _, .forbidden _ => []
  | _, .noWith => []
  | _, .noSource => []
  | _, .noExpr => []

section Scopes
variable {c : Casing}

/-- A table of this name goes by the qualifier in one of the scopes. -/
def Known (frames : List Frame) (qualifier t : String) : Prop := ∃ frame ∈ frames, (qualifier, some t) ∈ frame

theorem known_of_resolveAlias {qualifier t : String} {frames : List Frame} (h : resolveAlias qualifier frames = some t) :
    Known frames qualifier t := by
  induction frames with
  | nil => cases h
  | cons frame outer ih =>
    rw [resolveAlias] at h
    cases hl : frame.lookup qualifier with
    | some bound =>
      rw [hl] at h
      obtain ⟨early, late, he, _⟩ := List.lookup_eq_some_iff.mp hl
      refine ⟨frame, List.mem_cons_self, ?_⟩
      rw [he, show bound = some t from h]
      exact List.mem_append_right _ List.mem_cons_self
    | none =>
      rw [hl] at h
      obtain ⟨f, hf, hm⟩ := ih h
      exact ⟨f, List.mem_cons_of_mem _ hf, hm⟩

/-- The tree has a table of this name that goes by the qualifier. -/
def Ast.Binds (a : Ast p) (qualifier t : String) : Prop :=
  ∃ x, Node.table x ∈ a.nodes ∧ x.aliasOrName = qualifier ∧ x.name = t

theorem binds_of_frame {a : Ast p} {env : List String} {qualifier t : String}
    (h : (qualifier, some t) ∈ a.frame c env) : a.Binds qualifier t := by
  induction a with
  | table k u on rest _ ih =>
    rw [Ast.frame, List.mem_cons] at h
    cases h with
    | inl h =>
      obtain ⟨rfl, hb⟩ := Prod.mk.inj h
      refine ⟨u, by simp [Ast.nodes], rfl, ?_⟩
      split at hb
      · cases hb
      · exact (Option.some.inj hb).symm
    | inr h =>
      obtain ⟨x, hx, hq⟩ := ih h
      exact ⟨x, by simp [Ast.nodes, hx], hq⟩
  | derived k lateral aliasText body on rest _ _ ih =>
    rw [Ast.frame, List.mem_cons] at h
    cases h with
    | inl h => cases (Prod.mk.inj h).2
    | inr h =>
      obtain ⟨x, hx, hq⟩ := ih h
      exact ⟨x, by simp [Ast.nodes, hx], hq⟩
  | group k aliasText inner on rest ihInner _ ih =>
    rw [Ast.frame, List.mem_append] at h
    cases h with
    | inl h =>
      split at h
      · obtain ⟨x, hx, hq⟩ := ihInner h
        exact ⟨x, by simp [Ast.nodes, hx], hq⟩
      · cases (Prod.mk.inj (List.mem_singleton.mp h)).2
    | inr h =>
      obtain ⟨x, hx, hq⟩ := ih h
      exact ⟨x, by simp [Ast.nodes, hx], hq⟩
  | rowFunction k aliasText args on rest _ _ ih =>
    rw [Ast.frame, List.mem_cons] at h
    cases h with
    | inl h => cases (Prod.mk.inj h).2
    | inr h =>
      obtain ⟨x, hx, hq⟩ := ih h
      exact ⟨x, by simp [Ast.nodes, hx], hq⟩
  | _ => simp [Ast.frame] at h

/-- A column of this name is referenced, under a qualifier that the table goes by in the tree or in a scope
around it. -/
def Ast.Reads (a : Ast p) (frames : List Frame) (t column : String) : Prop :=
  ∃ col, Node.column col ∈ a.nodes ∧ col.name = column ∧ (a.Binds col.table t ∨ Known frames col.table t)

theorem Known.of_append {outer here : List Frame} {qualifier t : String} (h : Known (outer ++ here) qualifier t) :
    Known outer qualifier t ∨ Known here qualifier t := by
  obtain ⟨frame, hf, hm⟩ := h
  cases List.mem_append.mp hf with
  | inl hf => exact .inl ⟨frame, hf, hm⟩
  | inr hf => exact .inr ⟨frame, hf, hm⟩

theorem Known.left {outer here : List Frame} {qualifier t : String} (h : Known outer qualifier t) :
    Known (outer ++ here) qualifier t := by
  obtain ⟨frame, hf, hm⟩ := h
  exact ⟨frame, List.mem_append_left _ hf, hm⟩

theorem Known.right {outer here : List Frame} {qualifier t : String} (h : Known here qualifier t) :
    Known (outer ++ here) qualifier t := by
  obtain ⟨frame, hf, hm⟩ := h
  exact ⟨frame, List.mem_append_right _ hf, hm⟩

theorem Ast.Reads.within {p' : Part} {a : Ast p} {b : Ast p'} {frames inner : List Frame} {t column : String}
    (h : b.Reads inner t column) (hn : ∀ n ∈ b.nodes, n ∈ a.nodes)
    (hk : ∀ qualifier, Known inner qualifier t → a.Binds qualifier t ∨ Known frames qualifier t) :
    a.Reads frames t column := by
  obtain ⟨col, hcol, hname, hb | hknown⟩ := h
  · obtain ⟨x, hx, hq⟩ := hb
    exact ⟨col, hn _ hcol, hname, .inl ⟨x, hn _ hx, hq⟩⟩
  · exact ⟨col, hn _ hcol, hname, hk _ hknown⟩

/-- In a part that sees the scopes which the tree sees. -/
theorem Ast.Reads.same {p' : Part} {a : Ast p} {b : Ast p'} {frames inner : List Frame} {t column : String}
    (h : b.Reads inner t column) (hn : ∀ n ∈ b.nodes, n ∈ a.nodes) (hs : ∀ frame ∈ inner, frame ∈ frames) :
    a.Reads frames t column :=
  h.within hn fun _ ⟨frame, hf, hm⟩ => .inr ⟨frame, hs frame hf, hm⟩

/-- What a reference denotes stands in the tree under its qualifier, or in a scope around. -/
theorem reads_of_resolved {a : Ast p} {env : List String} {outer here : List Frame} {t column : String}
    (h : (t, column) ∈ a.resolved c env outer here) : a.Reads (outer ++ here) t column := by
  induction a generalizing env outer here with
  | select recursive withs attached projections froms clauses ihWiths ihProjections ihFroms ihClauses =>
    -- the scope of its own FROM list comes first
    have hinner : ∀ qualifier, Known (outer ++ froms.frame c (withs.cteNames c ++ env) :: outer) qualifier t →
        (Ast.select recursive withs attached projections froms clauses).Binds qualifier t ∨
          Known (outer ++ here) qualifier t := by
      intro qualifier hk
      obtain hk | ⟨frame, hf, hm⟩ := hk.of_append
      · exact .inr hk.left
      · cases List.mem_cons.mp hf with
        | inl hf =>
          obtain ⟨x, hx, hq⟩ := binds_of_frame (hf ▸ hm)
          exact .inl ⟨x, by simp [Ast.nodes, hx], hq⟩
        | inr hf => exact .inr (Known.left ⟨frame, hf, hm⟩)
    simp only [Ast.resolved, List.mem_append] at h
    rcases h with ((h | h) | h) | h
    · exact (ihWiths h).same (fun n hn => by simp [Ast.nodes, hn]) fun f hf => by simp at hf; simp [hf]
    · exact (ihProjections h).within (fun n hn => by simp [Ast.nodes, hn]) hinner
    · exact (ihFroms h).within (fun n hn => by simp [Ast.nodes, hn]) hinner
    · exact (ihClauses h).within (fun n hn => by simp [Ast.nodes, hn]) hinner
  | setOp recursive withs left right modifiers ihWiths ihLeft ihRight ihModifiers =>
    simp only [Ast.resolved, List.mem_append] at h
    rcases h with ((h | h) | h) | h
    · exact (ihWiths h).same (fun n hn => by simp [Ast.nodes, hn]) fun f hf => by simp at hf; simp [hf]
    · exact (ihLeft h).same (fun n hn => by simp [Ast.nodes, hn]) fun f hf => by simp at hf; simp [hf]
    · exact (ihRight h).same (fun n hn => by simp [Ast.nodes, hn]) fun f hf => by simp at hf; simp [hf]
    · exact (ihModifiers h).same (fun n hn => by simp [Ast.nodes, hn]) fun f hf => by simp at hf; simp [hf]
  | paren recursive withs body modifiers ihWiths ihBody ihModifiers =>
    simp only [Ast.resolved, List.mem_append] at h
    rcases h with (h | h) | h
    · exact (ihWiths h).same (fun n hn => by simp [Ast.nodes, hn]) fun f hf => by simp at hf; simp [hf]
    · exact (ihBody h).same (fun n hn => by simp [Ast.nodes, hn]) fun f hf => by simp at hf; simp [hf]
    · exact (ihModifiers h).same (fun n hn => by simp [Ast.nodes, hn]) fun f hf => by simp at hf; simp [hf]
  | cte name body rest ihBody ihRest =>
    simp only [Ast.resolved, List.mem_append] at h
    rcases h with h | h
    · exact (ihBody h).same (fun n hn => by simp [Ast.nodes, hn]) fun f hf => by simp at hf; simp [hf]
    · exact (ihRest h).same (fun n hn => by simp [Ast.nodes, hn]) fun f hf => by simp at hf; simp [hf]
  | table attach u on rest ihOn ihRest =>
    simp only [Ast.resolved, List.mem_append] at h
    rcases h with h | h
    · exact (ihOn h).same (fun n hn => by simp [Ast.nodes, hn]) fun f hf => hf
    · exact (ihRest h).same (fun n hn => by simp [Ast.nodes, hn]) fun f hf => hf
  | derived attach lateral aliasText body on rest ihBody ihOn ihRest =>
    simp only [Ast.resolved, List.mem_append] at h
    rcases h with (h | h) | h
    · refine (ihBody h).same (fun n hn => by simp [Ast.nodes, hn]) fun f hf => ?_
      cases lateral with
      | true => simp at hf; simp [hf]
      | false => simp at hf; simp [hf]
    · exact (ihOn h).same (fun n hn => by simp [Ast.nodes, hn]) fun f hf => hf
    · exact (ihRest h).same (fun n hn => by simp [Ast.nodes, hn]) fun f hf => hf
  | group attach aliasText inner on rest ihInner ihOn ihRest =>
    simp only [Ast.resolved, List.mem_append] at h
    rcases h with (h | h) | h
    · refine (ihInner h).within (fun n hn => by simp [Ast.nodes, hn]) fun qualifier hk => ?_
      obtain hk | hk := hk.of_append
      · exact .inr hk.left
      · obtain ⟨frame, hf, hm⟩ := hk
        split at hf
        · exact .inr (Known.right ⟨frame, hf, hm⟩)
        · cases List.mem_cons.mp hf with
          | inl hf =>
            obtain ⟨x, hx, hq⟩ := binds_of_frame (hf ▸ hm)
            exact .inl ⟨x, by simp [Ast.nodes, hx], hq⟩
          | inr hf => exact .inr (Known.right ⟨frame, hf, hm⟩)
    · exact (ihOn h).same (fun n hn => by simp [Ast.nodes, hn]) fun f hf => hf
    · exact (ihRest h).same (fun n hn => by simp [Ast.nodes, hn]) fun f hf => hf
  | rowFunction attach aliasText args on rest ihArgs ihOn ihRest =>
    simp only [Ast.resolved, List.mem_append] at h
    rcases h with (h | h) | h
    · exact (ihArgs h).same (fun n hn => by simp [Ast.nodes, hn]) fun f hf => hf
    · exact (ihOn h).same (fun n hn => by simp [Ast.nodes, hn]) fun f hf => hf
    · exact (ihRest h).same (fun n hn => by simp [Ast.nodes, hn]) fun f hf => hf
  | column col rest ihRest =>
    rw [Ast.resolved, List.mem_append] at h
    rcases h with h | h
    · rw [Column.resolve] at h
      split at h
      · cases h
      · obtain ⟨u, hu, he⟩ := Option.map_eq_some_iff.mp (Option.mem_toList.mp h)
        obtain ⟨rfl, rfl⟩ := Prod.mk.inj he
        exact ⟨col, by simp [Ast.nodes], rfl, .inr (known_of_resolveAlias hu).right⟩
    · exact (ihRest h).same (fun n hn => by simp [Ast.nodes, hn]) fun f hf => hf
  | boolean value rest ihRest =>
    exact (ihRest h).same (fun n hn => by simp [Ast.nodes, hn]) fun f hf => hf
  | func f args rest ihArgs ihRest =>
    simp only [Ast.resolved, List.mem_append] at h
    rcases h with h | h
    · exact (ihArgs h).same (fun n hn => by simp [Ast.nodes, hn]) fun f hf => hf
    · exact (ihRest h).same (fun n hn => by simp [Ast.nodes, hn]) fun f hf => hf
  | op args rest ihArgs ihRest =>
    simp only [Ast.resolved, List.mem_append] at h
    rcases h with h | h
    · exact (ihArgs h).same (fun n hn => by simp [Ast.nodes, hn]) fun f hf => hf
    · exact (ihRest h).same (fun n hn => by simp [Ast.nodes, hn]) fun f hf => hf
  | subquery body rest ihBody ihRest =>
    simp only [Ast.resolved, List.mem_append] at h
    rcases h with h | h
    · exact (ihBody h).same (fun n hn => by simp [Ast.nodes, hn]) fun f hf => by simp at hf; simp [hf]
    · exact (ihRest h).same (fun n hn => by simp [Ast.nodes, hn]) fun f hf => hf
  | _ => cases h

end Scopes

def dotted (table column : String) : String := table ++ "." ++ column

section Gate
variable (L : Libraries) (controlled : Finset String)

def aliasPairs (q : Query) : List (String × String) :=
  (L.findTables q).map fun t => (t.aliasOrName, t.name)

/-- `aliases.get(column.table, column.table)` of a dictionary filled in traversal order. -/
def aliasedTable (q : Query) (col : Column) : String :=
  (ofPairs (aliasPairs L q) col.table).getD col.table

def reportedName (q : Query) (col : Column) : String :=
  if aliasedTable L q col = "" then "" else dotted (aliasedTable L q col) col.name

def controlledReferences (sql : String) : Except ParseFailure (Finset String) := do
  let statement ← L.parseOne sql
  pure (((L.findColumns statement).map (reportedName L statement)).toFinset ∩ controlled)

end Gate
end DataCopilot.Sql
