import Listing.Condition
import Listing.Store.Clause

/-! Rules: how a relation between a column and a value becomes a clause.
A rule serves some relations and says whether values are brought to the column's type first. Of all
rules in a rulebook that serve a relation the one added last counts. -/
namespace Listing.Store

structure Rule where
  label : String
  serves : List Relation
  converts : Bool := true
  apply : Relation → Column → Operand → Except Fault Clause

namespace Rule

/-- A comparison with nothing asks whether the column holds anything, one with a truth value is
written out; neither can be ordered. -/
def compareClause (comparison : Comparison) (c : Column) : Operand → Except Fault Clause
  | .one .null =>
    match comparison with
    | .eq => .ok (.isNull c)
    | .ne => .ok (.isNotNull c)
    | _ => .error .constantNotOrdered
  | .one (.bool b) =>
    match comparison with
    | .eq => .ok (.constant c true b)
    | .ne => .ok (.constant c false b)
    | _ => .error .constantNotOrdered
  | v => .ok (.compare c comparison v)

def comparison? : Relation → Option Comparison
  | .eq => some .eq
  | .ne => some .ne
  | .gt => some .gt
  | .gte => some .ge
  | .lt => some .lt
  | .lte => some .le
  | _ => none

def applyComparison (r : Relation) (c : Column) (v : Operand) : Except Fault Clause :=
  match comparison? r with
  | some comparison => compareClause comparison c v
  | none => .error (.unsupportedRelation r)

def comparisons : List Relation := [.eq, .ne, .gt, .gte, .lt, .lte]

def comparison : Rule := ⟨"comparison", comparisons, true, applyComparison⟩

def patternClause (clause : Operand → Clause) : Operand → Except Fault Clause
  | .one .null => .error .constantNotOrdered
  | .one (.bool _) => .error .constantNotOrdered
  | v => .ok (clause v)

def pattern : Rule :=
  ⟨"pattern", [.like], false, fun _ c v => patternClause (.like c) v⟩

/-- A text in the place of a list counts as the list of its characters. -/
def items : Operand → Except Fault (List Scalar)
  | .many vs => .ok vs
  | .one (.text s) => .ok (s.toList.map fun c => .text (String.singleton c))
  | .one v => .error (.notIterable v.kind)

def membership : Rule :=
  ⟨"membership", [.oneOf], true, fun _ c v => (items v).map (.within c)⟩

def nullCheck : Rule :=
  ⟨"null", [.isNull, .isNotNull], false, fun r c _ =>
    .ok (if r = .isNull then .isNull c else .isNotNull c)⟩

def lowerPattern : Rule :=
  ⟨"lowerPattern", [.like], false, fun _ c v => patternClause (.likeLower c) v⟩

def rawComparison : Rule := ⟨"rawComparison", comparisons, false, applyComparison⟩

def idle : Rule := ⟨"idle", [], true, fun r _ _ => .error (.unsupportedRelation r)⟩

end Rule

/-- Rules, the latest first. -/
structure Rulebook where
  rules : List Rule := []

namespace Rulebook

def add (r : Rulebook) (s : Rule) : Rulebook := ⟨s :: r.rules⟩

def addAll (r : Rulebook) (ss : List Rule) : Rulebook := ss.foldl add r

def ofList (ss : List Rule) : Rulebook := addAll {} ss

def find? (r : Rulebook) (relation : Relation) : Option Rule :=
  r.rules.find? (·.serves.contains relation)

def rule (r : Rulebook) (relation : Relation) : Except Fault Rule :=
  match r.find? relation with
  | some s => .ok s
  | none => .error (.unsupportedRelation relation)

def standard : Rulebook :=
  ofList [.comparison, .pattern, .membership, .nullCheck]

theorem find?_add (r : Rulebook) (s : Rule) (relation : Relation) :
    (r.add s).find? relation =
      if s.serves.contains relation then some s else r.find? relation := by
  rw [find?, add, List.find?_cons]
  cases s.serves.contains relation <;> rfl

theorem addAll_append (r : Rulebook) (a b : List Rule) :
    r.addAll (a ++ b) = (r.addAll a).addAll b := by
  simp [addAll]

end Rulebook
end Listing.Store
