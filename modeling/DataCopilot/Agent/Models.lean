import DataCopilot.Agent.Answering
import DataCopilot.Sql.Metadata

/-! What the nodes of the workflow receive from the model, the knowledge base and the
database, and the exceptions they may meet. The validated models carry their bounds. -/
namespace DataCopilot.Agent
open Sql

/-- The classes that `classify_error` tells apart. -/
inductive FailureKind where
  | llm (retryable : Bool)
  | timeout | transport | validation | other
deriving DecidableEq, Repr

/-- A raised exception: its class, its `code` attribute where the class has one, and the
arguments that `repr` shows. -/
structure Failure where
  className : String
  code : Option String := none
  arguments : String := ""
  kind : FailureKind := .other
deriving DecidableEq, Repr

/-- `repr(error)`, which is the text a failed task keeps. -/
def Failure.repr (f : Failure) : String := f.className ++ "(" ++ f.arguments ++ ")"

theorem Failure.repr_ne (f : Failure) : f.repr ≠ "" := by
  intro h
  have hl := congrArg String.toList h
  simp [Failure.repr] at hl

/-- `getattr(error, "code", error.__class__.__name__.upper())`. -/
def Failure.stableCode (upper : String → String) (f : Failure) : String :=
  f.code.getD (upper f.className)

def schemaSelectionError : Failure where
  className := "SchemaSelectionError"
  code := some "NL2SQL_SCHEMA_SELECTION_FAILED"
  arguments := "'The model selected an invalid set of database tables.'"

def keyError (key : String) : Failure where
  className := "KeyError"
  arguments := "'" ++ key ++ "'"

def valueError (message : String) : Failure where
  className := "ValueError"
  arguments := "'" ++ message ++ "'"
  kind := .validation

def validationError : Failure where
  className := "ValidationError"
  kind := .validation

structure Citation where
  documentId : String
  documentTitle : String
  documentVersion : Nat
  sectionKey : String
  sectionTitle : String
  sourceLocator : String
deriving DecidableEq, Repr

structure RetrievalHit where
  content : String
  citation : Citation
deriving DecidableEq, Repr

structure RetrievalResult where
  hits : List RetrievalHit
  citations : List Citation
  shouldAnswer : Bool
deriving DecidableEq, Repr

structure ConfidentTableSelection where
  tables : List String
  confidence : ℚ
  tables_ok : 1 ≤ tables.length ∧ tables.length ≤ 6
  confidence_ok : 0 ≤ confidence ∧ confidence ≤ 1

structure AnalysisPlan where
  summary : String
  steps : List String
  expectedColumns : List String
  summary_ok : 1 ≤ summary.length ∧ summary.length ≤ 500
  steps_ok : 1 ≤ steps.length ∧ steps.length ≤ 8
  columns_ok : 1 ≤ expectedColumns.length ∧ expectedColumns.length ≤ 50
  names_ok : ∀ c ∈ expectedColumns, lowerIdentifier c = true ∧ c.length ≤ 63

structure NL2SQLDraft where
  analysisPlan : AnalysisPlan
  tablesUsed : List String
  sql : String
  tables_ok : 1 ≤ tablesUsed.length ∧ tablesUsed.length ≤ 6
  sql_ok : 1 ≤ sql.length ∧ sql.length ≤ 50000

structure QueryExecutionResult where
  columns : List String
  rows : List Row
  returnedRowCount : Nat
  serializedBytes : Nat
  truncated : Bool

inductive Role where
  | system | user | assistant
deriving DecidableEq, Repr

structure LLMMessage where
  role : Role
  content : String
  content_ok : 1 ≤ content.length ∧ content.length ≤ 50000

end DataCopilot.Agent
