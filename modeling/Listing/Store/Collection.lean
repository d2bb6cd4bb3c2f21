import Listing.Plan
import Listing.Store.Schema
import Listing.Store.Session

/-! Collections: the rows that a plan is carried out on.
One statement counts, another fetches the page. Both have one predicate, the clauses of the
collection and after them those of the plan, so the total is the total of the rows that the page is
cut from. A page that begins past the last row is empty and needs no second statement. -/
namespace Listing.Store

structure Collection where
  model : Model
  schema : Schema
  base : List Clause := []

structure Outcome (α : Type) where
  page : PageOf α
  executed : List Statement

namespace Collection

def predicate (x : Collection) (p : Plan) : Except Fault (Option Predicate) :=
  (x.schema.compile p.conditions).map fun q =>
    Predicate.combine (x.base.map (some ∘ Predicate.ofClause) ++ [q])

def clauses (x : Collection) (p : Plan) : Except Fault (List Clause) :=
  (x.predicate p).map Predicate.clausesOf

def window (p : Plan) : Option Window := p.limit.map fun n => ⟨n, p.offset⟩

def statements (x : Collection) (p : Plan) : Except Fault (Statement × Statement) := do
  let predicate ← x.predicate p
  let column ← (x.schema.column p.order.field).mapError Fault.rejected
  return (.count x.model.table predicate,
    .rows x.model predicate column p.order.direction (window p))

def wantsRows (p : Plan) (total : Int) : Bool := p.limit.isNone || p.offset < total

def fetch {α : Type} (session : Session α) (p : Plan) (s : Statement × Statement) :
    Except Fault (Int × List α) := do
  let total ← session.count s.1
  let rows ← if wantsRows p total then session.rows s.2 else .ok []
  return (total, rows)

def executed (p : Plan) (total : Int) (s : Statement × Statement) : List Statement :=
  s.1 :: if wantsRows p total then [s.2] else []

def run {α : Type} (x : Collection) (session : Session α) (p : Plan) :
    Except Fault (Outcome α) := do
  let s ← x.statements p
  let (total, rows) ← fetch session p s
  let page ← p.respond rows total
  return ⟨page, executed p total s⟩

def runNotes {α : Type} (x : Collection) (session : Session α) (p : Plan) : List Event :=
  match x.statements p with
  | .error _ => []
  | .ok s =>
    match fetch session p s with
    | .error _ => []
    | .ok (total, rows) => [.listed x.model.label rows.length total]

end Collection
end Listing.Store
