import Listing.Allowlist
import Listing.Condition
import Listing.Query

/-! Plans: everything that counting and fetching need.
A policy says what a resource admits and how its parameters are named. It reads a request, checks it
and makes a plan of it; nothing touches the store before there is a plan. -/
namespace Listing
open Listing.Parameter

structure Plan where
  query : Query
  conditions : List Condition
  order : FieldOrder
  limit : Option Int
  offset : Int
  deriving DecidableEq

namespace Plan

def isUnpaginated (p : Plan) : Bool := p.limit.isNone

def note (p : Plan) : Event := .planned p.conditions.length p.order p.limit p.offset

def respond {α : Type} (p : Plan) (rows : List α) (total : Int) : Except Fault (PageOf α) :=
  PageOf.ofRows rows total p.query.page

end Plan

structure Policy where
  allowlist : Allowlist
  config : Config

namespace Policy

def read (y : Policy) (s : Source) : Except Fault Query := Query.ofSource y.config s

/-- The checks come first, so a request that fails them is turned down for that, whatever else is
wrong with it. -/
def prepare (y : Policy) (q : Query) : Except Rejection Plan := do
  y.allowlist.check q.filters
  let conditions ← Condition.ofFilters q.filters
  return ⟨q, conditions, y.allowlist.resolve q.order, q.page.limit, q.page.offset⟩

def plan (y : Policy) (s : Source) : Except Fault Plan := do
  let q ← y.read s
  (y.prepare q).mapError Fault.rejected

def readNotes (y : Policy) (s : Source) : List Event := Query.notes y.config s

def prepareNotes (y : Policy) (q : Query) : List Event :=
  y.allowlist.checkNotes q.filters ++
    match y.allowlist.check q.filters with
    | .error _ => []
    | .ok () =>
      y.allowlist.resolveNotes q.order ++
        match y.prepare q with
        | .error _ => []
        | .ok p => [p.note]

def planNotes (y : Policy) (s : Source) : List Event :=
  y.readNotes s ++
    match y.read s with
    | .error _ => []
    | .ok q => y.prepareNotes q

end Policy
end Listing
