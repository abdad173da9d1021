import Mathlib.Data.List.Basic

/-! The tree that sqlglot's parser builds for a PostgreSQL query, as far as the guard
looks at it, and the nodes that `find_all` meets in it. -/
namespace DataCopilot.Sql

structure Identifier where
  text : String
  quoted : Bool := false
deriving DecidableEq, Repr

/-- `exp.Table`. A part that the query does not spell out is the empty string. -/
structure Table where
  identifier : Identifier
  db : String := ""
  catalog : String := ""
  aliasText : String := ""
deriving DecidableEq, Repr

def Table.name (t : Table) : String := t.identifier.text

def Table.aliasOrName (t : Table) : String := if t.aliasText = "" then t.name else t.aliasText

structure Column where
  table : String := ""
  name : String
deriving DecidableEq, Repr

structure Func where
  anonymous : Bool := false
  name : String
deriving DecidableEq, Repr

/-- The node types of `_FORBIDDEN_NODES`. -/
inductive ForbiddenNode where
  | ddl | dml | command | copy | into | lock | transaction
deriving DecidableEq, Repr

inductive OnCondition where
  | absent
  | boolean (value : Bool)
  | other
deriving DecidableEq, Repr

structure Join where
  kind : String := ""
  on : OnCondition
  usingColumns : Bool := false
deriving DecidableEq, Repr

/-- How an item of a FROM list stands there: as its first item, or joined to the ones
before it. A comma is a join without kind and condition. -/
inductive Attach where
  | first
  | join (kind : String) (usingColumns : Bool)
deriving DecidableEq, Repr

inductive Part where
  | query | withs | sources | exprs

/-- Each query node may carry a WITH clause of its own, and `recursive` says whether that
clause is WITH RECURSIVE. Expressions without a constructor here are `op`. -/
inductive Ast : Part → Type where
  | select (recursive : Bool) (withs : Ast .withs) (attached : List ForbiddenNode)
      (projections : Ast .exprs) (froms : Ast .sources) (clauses : Ast .exprs) : Ast .query
  | setOp (recursive : Bool) (withs : Ast .withs) (left right : Ast .query)
      (modifiers : Ast .exprs) : Ast .query
  | paren (recursive : Bool) (withs : Ast .withs) (inner : Ast .query)
      (modifiers : Ast .exprs) : Ast .query
  | forbidden (node : ForbiddenNode) : Ast .query
  | noWith : Ast .withs
  | cte (name : Identifier) (body : Ast .query) (rest : Ast .withs) : Ast .withs
  | noSource : Ast .sources
  | table (attach : Attach) (t : Table) (on : Ast .exprs) (rest : Ast .sources) : Ast .sources
  | derived (attach : Attach) (lateral : Bool) (aliasText : String) (body : Ast .query)
      (on : Ast .exprs) (rest : Ast .sources) : Ast .sources
  | group (attach : Attach) (aliasText : String) (inner : Ast .sources) (on : Ast .exprs)
      (rest : Ast .sources) : Ast .sources
  | rowFunction (attach : Attach) (aliasText : String) (args : Ast .exprs) (on : Ast .exprs)
      (rest : Ast .sources) : Ast .sources
  | noExpr : Ast .exprs
  | column (c : Column) (rest : Ast .exprs) : Ast .exprs
  | boolean (value : Bool) (rest : Ast .exprs) : Ast .exprs
  | func (f : Func) (args rest : Ast .exprs) : Ast .exprs
  | op (args rest : Ast .exprs) : Ast .exprs
  | subquery (body : Ast .query) (rest : Ast .exprs) : Ast .exprs

abbrev Query := Ast .query

/-- What `isinstance` tells apart in the guard. -/
inductive Node where
  | table (t : Table)
  | cte (name : Identifier)
  | column (c : Column)
  | func (f : Func)
  | join (j : Join)
  | forbidden (n : ForbiddenNode)
deriving DecidableEq, Repr

variable {p : Part}

def Ast.onCondition : Ast p → OnCondition
  | .noExpr => .absent
  | .boolean b .noExpr => .boolean b
  | _ => .other

def Attach.nodes (a : Attach) (on : OnCondition) : List Node :=
  match a with
  | .first => []
  | .join kind usingColumns => [.join ⟨kind, on, usingColumns⟩]

theorem Attach.mem_nodes {a : Attach} {on : OnCondition} {n : Node} (h : n ∈ a.nodes on) :
    ∃ j, n = .join j := by
  cases a with
  | first => simp [Attach.nodes] at h
  | join kind usingColumns => exact ⟨_, by simpa [Attach.nodes] using h⟩

@[simp] theorem Attach.table_notMem (a : Attach) (on : OnCondition) (t : Table) :
    Node.table t ∉ a.nodes on := fun h => by simpa using Attach.mem_nodes h

@[simp] theorem Attach.cte_notMem (a : Attach) (on : OnCondition) (i : Identifier) :
    Node.cte i ∉ a.nodes on := fun h => by simpa using Attach.mem_nodes h

@[simp] theorem Attach.column_notMem (a : Attach) (on : OnCondition) (c : Column) :
    Node.column c ∉ a.nodes on := fun h => by simpa using Attach.mem_nodes h

/-- Every node of the tree once, in the order of the text. -/
def Ast.nodes : {p : Part} → Ast p → List Node
  | _, .select _ withs attached projections froms clauses =>
    withs.nodes ++ attached.map .forbidden ++ projections.nodes ++ froms.nodes ++ clauses.nodes
  | _, .setOp _ withs left right modifiers =>
    withs.nodes ++ left.nodes ++ right.nodes ++ modifiers.nodes
  | _, .paren _ withs inner modifiers => withs.nodes ++ inner.nodes ++ modifiers.nodes
  | _, .forbidden n => [.forbidden n]
  | _, .noWith => []
  | _, .cte name body rest => .cte name :: body.nodes ++ rest.nodes
  | _, .noSource => []
  | _, .table a t on rest => .table t :: a.nodes on.onCondition ++ on.nodes ++ rest.nodes
  | _, .derived a _ _ body on rest =>
    a.nodes on.onCondition ++ body.nodes ++ on.nodes ++ rest.nodes
  | _, .group a _ inner on rest => a.nodes on.onCondition ++ inner.nodes ++ on.nodes ++ rest.nodes
  | _, .rowFunction a _ args on rest =>
    a.nodes on.onCondition ++ args.nodes ++ on.nodes ++ rest.nodes
  | _, .noExpr => []
  | _, .column c rest => .column c :: rest.nodes
  | _, .boolean _ rest => rest.nodes
  | _, .func f args rest => .func f :: args.nodes ++ rest.nodes
  | _, .op args rest => args.nodes ++ rest.nodes
  | _, .subquery body rest => body.nodes ++ rest.nodes

def Node.table? : Node → Option Table
  | .table t => some t
  | _ => none

def Node.cte? : Node → Option Identifier
  | .cte name => some name
  | _ => none

def Node.column? : Node → Option Column
  | .column c => some c
  | _ => none

def Node.func? : Node → Option Func
  | .func f => some f
  | _ => none

def Node.join? : Node → Option Join
  | .join j => some j
  | _ => none

def Node.forbidden? : Node → Option ForbiddenNode
  | .forbidden n => some n
  | _ => none

/-- `args.get("with_")` with `recursive` set, on the node itself. -/
def Ast.recursiveWith : Ast p → Bool
  | .select recursive _ _ _ _ _ => recursive
  | .setOp recursive _ _ _ _ => recursive
  | .paren recursive _ _ _ => recursive
  | _ => false

end DataCopilot.Sql
