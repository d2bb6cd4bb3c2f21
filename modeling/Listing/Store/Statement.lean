import Listing.Order
import Listing.Store.Predicate

/-! Statements: counting the rows that satisfy a predicate, and fetching a stretch of them in order.
A placeholder is named for what it stands for, with a number that tells it from earlier ones of that
name. A statement on a list of rows is worth a number or a list of rows. -/
namespace Listing.Store

structure Sql where
  text : String
  bindings : List (String × Operand)
  deriving DecidableEq

def numbered (used : List String) (name : String) : String :=
  name ++ "_" ++ Number.natText (used.count name + 1)

/-- The texts of clauses and what they bind, after the given names have been used. -/
def renderClauses : List String → List Clause → List String × List (String × Operand)
  | _, [] => ([], [])
  | used, c :: r =>
    match c.bound? with
    | none =>
      let rest := renderClauses used r
      (c.text "" :: rest.1, rest.2)
    | some v =>
      let placeholder := numbered used c.column.name
      let rest := renderClauses (c.column.name :: used) r
      (c.text placeholder :: rest.1, (placeholder, v) :: rest.2)

def renderPredicate (used : List String) (q : Option Predicate) : Option Sql :=
  q.map fun q =>
    let r := renderClauses used q.clauses
    ⟨" AND ".intercalate r.1, r.2⟩

def renderConjunction (clauses : List Clause) : Option Sql :=
  renderPredicate [] (Predicate.ofClauses clauses)

structure Window where
  limit : Int
  offset : Int
  deriving DecidableEq, Repr

inductive Statement
  | count (table : String) (predicate : Option Predicate)
  | rows (model : Model) (predicate : Option Predicate) (order : Column) (direction : Direction)
      (window : Option Window)
  deriving DecidableEq

namespace Statement

def whereSql (used : List String) (q : Option Predicate) : Sql :=
  match renderPredicate used q with
  | none => ⟨"", []⟩
  | some s => ⟨" \nWHERE " ++ s.text, s.bindings⟩

def orderText (c : Column) : Direction → String
  | .asc => c.qualified ++ " ASC"
  | .desc => c.qualified ++ " DESC"

def usedBy (used : List String) (clauses : List Clause) : List String :=
  (clauses.filter (·.bound?.isSome)).map (·.column.name) ++ used

def windowNames (used : List String) : String × String :=
  (numbered used "param", numbered ("param" :: used) "param")

def windowText (names : String × String) : Option Window → String
  | none => ""
  | some _ => "\n LIMIT :" ++ names.1 ++ " OFFSET :" ++ names.2

def windowBindings (names : String × String) : Option Window → List (String × Operand)
  | none => []
  | some w => [(names.1, .one (.int w.limit)), (names.2, .one (.int w.offset))]

def render : Statement → Sql
  | count table predicate =>
    let asked := whereSql ["count"] predicate
    ⟨"SELECT count(*) AS count_1 \nFROM " ++ table ++ asked.text, asked.bindings⟩
  | rows model predicate order direction window =>
    let asked := whereSql [] predicate
    let names := windowNames (usedBy [] (Predicate.clausesOf predicate))
    ⟨"SELECT " ++ ", ".intercalate (model.columns.map Column.qualified) ++ " \nFROM " ++
        model.table ++ asked.text ++ " ORDER BY " ++ orderText order direction ++
        windowText names window,
      asked.bindings ++ windowBindings names window⟩

def predicate : Statement → Option Predicate
  | count _ q => q
  | rows _ q _ _ _ => q

def clauses (s : Statement) : List Clause := Predicate.clausesOf s.predicate

def boundScalars (s : Statement) : List Scalar :=
  s.render.bindings.flatMap fun b =>
    match b.2 with
    | .one v => [v]
    | .many vs => vs

def fits : Scalar → Bool
  | .int n => Cell.fits n
  | _ => true

def check (s : Statement) : Except Fault Unit :=
  if s.boundScalars.all fits then .ok () else .error .integerTooWide

end Statement

/-- Rows in the order of one column; rows with equal cells stay as they stand. -/
def sortRows (c : Column) (d : Direction) (rows : List Row) : List Row :=
  rows.mergeSort fun a b =>
    match d with
    | .asc => (Cell.order (a c.name) (b c.name)).isLE
    | .desc => (Cell.order (b c.name) (a c.name)).isLE

def Window.slice {α : Type} (rows : List α) : Option Window → List α
  | none => rows
  | some w => (rows.drop w.offset.toNat).take w.limit.toNat

def Statement.countIn (s : Statement) (table : List Row) : Nat :=
  (table.filter (satisfies s.clauses)).length

def Statement.rowsIn (table : List Row) : Statement → List Row
  | .count .. => []
  | .rows _ predicate order direction window =>
    Window.slice (sortRows order direction
      (table.filter (satisfies (Predicate.clausesOf predicate)))) window

end Listing.Store
