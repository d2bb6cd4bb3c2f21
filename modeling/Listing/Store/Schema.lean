import Listing.Column.Value
import Listing.Store.Rule
import Listing.Store.Statement

/-! What fields mean in a store: the columns that they name and the clauses that conditions on them
stand for. -/
namespace Listing.Store

structure Schema where
  /-- The columns that fields can name. -/
  columns : List Column
  rules : Rulebook := .standard
  /-- Columns of fields that are not called like their column. -/
  fieldMap : List (String × String) := []

namespace Schema

def columnName (h : Schema) (field : String) : String :=
  ((h.fieldMap.find? (·.1 == field)).map (·.2)).getD field

def column (h : Schema) (field : String) : Except Rejection Column :=
  match h.columns.find? (·.name == h.columnName field) with
  | some column => .ok column
  | none => .error (.unknownFields [field] [])

def operand (rule : Rule) (column : Column) (c : Condition) : Except Rejection Operand :=
  if rule.converts then column.type.readOperand c.field c.operand else .ok c.operand

/-- A missing rule counts before a missing column, and that before a bad value. -/
def clause (h : Schema) (c : Condition) : Except Fault Clause := do
  let rule ← h.rules.rule c.relation
  let column ← (h.column c.field).mapError Fault.rejected
  let v ← (operand rule column c).mapError Fault.rejected
  rule.apply c.relation column v

def clauses (h : Schema) (cs : List Condition) : Except Fault (List Clause) := cs.mapM h.clause

def compile (h : Schema) (cs : List Condition) : Except Fault (Option Predicate) :=
  (h.clauses cs).map Predicate.ofClauses

end Schema
end Listing.Store

namespace Listing.Model
open Listing.Store

def unmarked (m : Model) (mark : String) : Except Fault Clause :=
  match m.column? mark with
  | some c => .ok (.isNull c)
  | none => .error (.missingColumn m.description mark)

def unmarkedAll (m : Model) (marks : List String) : Except Fault (List Clause) :=
  marks.mapM m.unmarked

end Listing.Model
