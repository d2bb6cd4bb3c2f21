import Listing.Column
import Listing.Store.Cell
import Listing.Store.Pattern

/-! Clauses: what a statement demands of a row.
A clause has two readings. `Clause.text` writes it, with a placeholder where a value is bound, so no
value ever shows in the text; only a truth value is written out. `Clause.truth` says what it means on
a row, in three values: comparing with nothing is neither true nor false. -/
namespace Listing.Store

abbrev Row := String → Cell

inductive Comparison
  | eq
  | ne
  | gt
  | ge
  | lt
  | le
  deriving DecidableEq, Repr

namespace Comparison

def symbol : Comparison → String
  | eq => "="
  | ne => "!="
  | gt => ">"
  | ge => ">="
  | lt => "<"
  | le => "<="

def test : Comparison → Ordering → Bool
  | eq, o => o == .eq
  | ne, o => o != .eq
  | gt, o => o == .gt
  | ge, o => o != .lt
  | lt, o => o == .lt
  | le, o => o != .gt

end Comparison

inductive Clause
  | compare (c : Column) (comparison : Comparison) (v : Operand)
  /-- The column is, or is not, a truth value. -/
  | constant (c : Column) (equal b : Bool)
  | like (c : Column) (pattern : Operand)
  /-- Both sides brought to lower case first. -/
  | likeLower (c : Column) (pattern : Operand)
  | within (c : Column) (items : List Scalar)
  | isNull (c : Column)
  | isNotNull (c : Column)
  deriving DecidableEq

def either : Option Bool → Option Bool → Option Bool
  | some true, _ => some true
  | _, some true => some true
  | some false, some false => some false
  | _, _ => none

namespace Clause

def column : Clause → Column
  | compare c _ _ | constant c _ _ | like c _ | likeLower c _ | within c _ | isNull c
  | isNotNull c => c

def bound? : Clause → Option Operand
  | compare _ _ v | like _ v | likeLower _ v => some v
  | within _ items => some (.many items)
  | constant .. | isNull _ | isNotNull _ => none

def constantText (b : Bool) : String := if b then "true" else "false"

/-- A list is bound as a whole and spread out when the statement runs. -/
def text (placeholder : String) : Clause → String
  | compare c comparison _ => c.qualified ++ " " ++ comparison.symbol ++ " :" ++ placeholder
  | constant c equal b =>
    c.qualified ++ (if equal then " = " else " != ") ++ constantText b
  | like c _ => c.qualified ++ " LIKE :" ++ placeholder
  | likeLower c _ => "lower(" ++ c.qualified ++ ") LIKE lower(:" ++ placeholder ++ ")"
  | within c _ => c.qualified ++ " IN (__[POSTCOMPILE_" ++ placeholder ++ "])"
  | isNull c => c.qualified ++ " IS NULL"
  | isNotNull c => c.qualified ++ " IS NOT NULL"

def compareTruth (cell : Cell) (comparison : Comparison) (v : Scalar) : Option Bool :=
  (cell.compare? (.ofScalar v)).map comparison.test

def likeTruth (cell : Cell) (v : Scalar) : Option Bool := do
  let s ← cell.text?
  let p ← (Cell.ofScalar v).text?
  return Pattern.matchesText (Pattern.visible p) (Pattern.visible s)

def withinTruth (cell : Cell) (items : List Scalar) : Option Bool :=
  items.foldr (fun v t => either (compareTruth cell .eq v) t) (some false)

/-- Several values in the place of one are comparable with nothing. -/
def truth (row : Row) : Clause → Option Bool
  | compare c comparison (.one v) => compareTruth (row c.name) comparison v
  | compare _ _ (.many _) => none
  | constant c equal b =>
    compareTruth (row c.name) (if equal then .eq else .ne) (.bool b)
  | like c (.one v) | likeLower c (.one v) => likeTruth (row c.name) v
  | like _ (.many _) | likeLower _ (.many _) => none
  | within c items => withinTruth (row c.name) items
  | isNull c => some (row c.name == .null)
  | isNotNull c => some (row c.name != .null)

def holds (row : Row) (c : Clause) : Bool := c.truth row == some true

theorem text_of_bound?_none {c : Clause} (h : c.bound? = none) (p q : String) :
    c.text p = c.text q := by
  cases c <;> first | rfl | cases h

end Clause

def satisfies (clauses : List Clause) (row : Row) : Bool := clauses.all (Clause.holds row)

theorem satisfies_append (a b : List Clause) (row : Row) :
    satisfies (a ++ b) row = (satisfies a row && satisfies b row) := by
  simp [satisfies]

end Listing.Store
