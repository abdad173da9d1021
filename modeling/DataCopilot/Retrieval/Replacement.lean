import Mathlib.Logic.Function.Basic
import DataCopilot.Library.Transition
import DataCopilot.Retrieval.Repository

/-! Calls of `replace_document` side by side, as transactions at READ COMMITTED. What a transaction has
written the others do not see, but its locks and its uncommitted row make them wait. -/
namespace DataCopilot.Retrieval

/-- Where a call stands. `current` is the row that its `SELECT` has returned. -/
inductive ReplacePhase where
  | begun
  | waiting (id : UUID)
  | selected (current : Option MetricDocument)
  | updated (current : MetricDocument)
  | deleted (current : MetricDocument)
  | inserted (current : Option MetricDocument)
  | chunked (current : Option MetricDocument)
  | returned (document : StoredMetricDocument)
  /-- `RetrievalStoreError`, after a unique index was violated. -/
  | failed
  /-- `RetrievalStoreError`, after an error of its own. -/
  | rolledBack
deriving DecidableEq

namespace ReplacePhase

/-- The transaction is under way. -/
def running : ReplacePhase → Bool
  | .returned _ | .failed | .rolledBack => false
  | _ => true

/-- The `UPDATE` has run. -/
def updates : ReplacePhase → Bool
  | .updated _ | .deleted _ | .inserted (some _) | .chunked (some _) => true
  | _ => false

end ReplacePhase

inductive ReplaceMove where
  | call (i : Nat) (c : ReplaceCall)
  | select (i : Nat)
  | wake (i : Nat)
  | update (i : Nat)
  | delete (i : Nat)
  | insert (i : Nat)
  | insertChunks (i : Nat)
  | commit (i : Nat)
  | rollback (i : Nat)

inductive InsertOutcome where
  | inserted
  | violation
  | waits
deriving DecidableEq

/-- `tables` are what is committed, by the calls of `order`, the last one first. `used` are the ids that
have been drawn. -/
structure Replacing where
  tables : MetricTables := {}
  locks : UUID → Option Nat := fun _ => none
  pending : List (Nat × MetricDocument) := []
  calls : Nat → Option (ReplaceCall × ReplacePhase) := fun _ => none
  order : List ReplaceCall := []
  used : List UUID := []

namespace Replacing
variable (s : Replacing) (i : Nat) (c : ReplaceCall)

def put (phase : ReplacePhase) : Replacing :=
  { s with calls := Function.update s.calls i (some (c, phase)) }

def lock (id : UUID) : Replacing := { s with locks := Function.update s.locks id (some i) }

/-- The end of a transaction, committed or not. -/
def release : Replacing :=
  { s with
    locks := fun id => if s.locks id = some i then none else s.locks id
    pending := s.pending.filter fun p => p.1 ≠ i }

/-- Another transaction has updated the row and is still under way. -/
def updating (id : UUID) : Bool :=
  match s.locks id with
  | none => false
  | some j =>
    match s.calls j with
    | none => false
    | some (_, phase) => j ≠ i && phase.updates

/-- The primary key, `uq_metric_documents_tenant_title_version`, and `uq_metric_documents_active_title`,
which the row that the call itself has superseded is no longer in. -/
def Conflicts (current : Option MetricDocument) (row d : MetricDocument) : Prop :=
  d.id = row.id ∨
    d.key = row.key ∧ (d.version = row.version ∨ d.status = .active ∧ current.map MetricDocument.id ≠ some d.id)

instance (current : Option MetricDocument) (row d : MetricDocument) :
    Decidable (Conflicts current row d) := inferInstanceAs (Decidable (_ ∨ _))

def insertion (current : Option MetricDocument) (row : MetricDocument) : InsertOutcome :=
  if ∃ d ∈ s.tables.documents, Conflicts current row d ∧ s.updating i d.id = false then .violation
  else if ∃ d ∈ s.tables.documents, Conflicts current row d then .waits
  else if ∃ p ∈ s.pending, p.2.id = row.id ∨ p.2.key = row.key then .waits
  else .inserted

def insert (current : Option MetricDocument) : Option Replacing :=
  let row := c.document (nextVersion current)
  match s.insertion i current row with
  | .inserted => some { s.put i c (.inserted current) with pending := (i, row) :: s.pending }
  | .violation => some ((s.release i).put i c .failed)
  | .waits => none

def commit (current : Option MetricDocument) : Replacing :=
  { (s.release i).put i c (.returned (c.stored (nextVersion current))) with
    tables := s.tables.write c current
    order := c :: s.order }

/-- A `SELECT` that had to wait looks at the row again, and leaves it out if it does not match any more. -/
def next : ReplaceMove → Option Replacing
  | .call i c =>
    match s.calls i with
    | none =>
      if c.documentId ∈ s.used then none
      else some { s.put i c .begun with used := c.documentId :: s.used }
    | some _ => none
  | .select i =>
    match s.calls i with
    | some (c, .begun) =>
      match s.tables.active c.key with
      | none => some (s.put i c (.selected none))
      | some d =>
        match s.locks d.id with
        | none => some ((s.lock i d.id).put i c (.selected (some d)))
        | some _ => some (s.put i c (.waiting d.id))
    | _ => none
  | .wake i =>
    match s.calls i with
    | some (c, .waiting id) =>
      match s.locks id, s.tables.documents.find? fun d => d.id = id ∧ d.key = c.key ∧ d.status = .active with
      | none, some d => some ((s.lock i d.id).put i c (.selected (some d)))
      | none, none => some (s.put i c (.selected none))
      | some _, _ => none
    | _ => none
  | .update i =>
    match s.calls i with
    | some (c, .selected (some d)) => some (s.put i c (.updated d))
    | _ => none
  | .delete i =>
    match s.calls i with
    | some (c, .updated d) => some (s.put i c (.deleted d))
    | _ => none
  | .insert i =>
    match s.calls i with
    | some (c, .selected none) => s.insert i c none
    | some (c, .deleted d) => s.insert i c (some d)
    | _ => none
  | .insertChunks i =>
    match s.calls i with
    | some (c, .inserted current) =>
      if (c.chunks.map fun chunk => chunk.2.ordinal).Nodup then some (s.put i c (.chunked current)) else none
    | _ => none
  | .commit i =>
    match s.calls i with
    | some (c, .chunked current) => some (s.commit i c current)
    | _ => none
  | .rollback i =>
    match s.calls i with
    | some (c, phase) => if phase.running then some ((s.release i).put i c .rolledBack) else none
    | none => none

/-- The tables that earlier calls have left. -/
def initial (earlier : List ReplaceCall) : Replacing where
  tables := serial earlier
  order := earlier
  used := earlier.map ReplaceCall.documentId

def system : Transition.System Replacing ReplaceMove where
  init s := ∃ earlier : List ReplaceCall, (earlier.map ReplaceCall.documentId).Nodup ∧ s = initial earlier
  step s m t := s.next m = some t

/-- A call commits while another one of the same title stands between its `SELECT`, which waits or has
returned no row, and its `INSERT`. -/
def Overtakes (s : Replacing) : ReplaceMove → Prop
  | .commit i => ∃ c current j c' phase, s.calls i = some (c, .chunked current) ∧
      s.calls j = some (c', phase) ∧ c'.key = c.key ∧ (phase = .selected none ∨ ∃ id, phase = .waiting id)
  | _ => False

/-- The tables, and what the calls return, are those of the calls in the order of their commits, and no
call fails because of another one. -/
structure Serialised (s : Replacing) : Prop where
  tables : s.tables = serial s.order
  ordered : s.tables.Ordered
  returned : ∀ i c document, s.calls i = some (c, .returned document) → ∃ later earlier,
    s.order = later ++ c :: earlier ∧ document = ((serial earlier).replaceDocument c).2
  unfailed : ∀ i c, s.calls i ≠ some (c, .failed)

end Replacing
end DataCopilot.Retrieval
