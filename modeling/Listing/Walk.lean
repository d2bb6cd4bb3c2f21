import Listing.Link
import Listing.Store.Collection

/-! Walking from page to page by links.
A walk visits the page that a source asks for, then the page of its link, until a page has none or
enough pages have been visited. -/
namespace Listing
open Listing.Parameter

inductive Heading
  | next
  | previous
  deriving DecidableEq, Repr

def Links.to (l : Links) : Heading → Option String
  | .next => l.next
  | .previous => l.previous

structure Visit (α : Type) where
  plan : Plan
  page : PageOf α
  executed : List Store.Statement
  links : Links

namespace Visit

def ofPage {α : Type} (c : Config) (p : Plan) (page : PageOf α)
    (executed : List Store.Statement) : Visit α :=
  ⟨p, page, executed, .of c p.query page.block⟩

def counted (y : Policy) (total : Int) (s : Source) : Except Fault (Visit Unit) := do
  let p ← y.plan s
  let page ← p.respond [] total
  return ofPage y.config p page []

def stored {α : Type} (y : Policy) (x : Store.Collection) (session : Store.Session α) (s : Source) :
    Except Fault (Visit α) := do
  let p ← y.plan s
  let o ← x.run session p
  return ofPage y.config p o.page o.executed

def storedNotes {α : Type} (y : Policy) (x : Store.Collection) (session : Store.Session α)
    (s : Source) : List Event :=
  y.planNotes s ++
    match y.plan s with
    | .error _ => []
    | .ok p => x.runNotes session p

end Visit

def walk {α : Type} (visit : Source → Except Fault (Visit α)) (heading : Heading) :
    Nat → Source → Except Fault (List (Visit α))
  | 0, _ => .ok []
  | most + 1, s => do
    let v ← visit s
    match v.links.to heading with
    | none => return [v]
    | some link => return v :: (← walk visit heading most (.ofQueryString link))

def walkNotes {α : Type} (visit : Source → Except Fault (Visit α)) (notes : Source → List Event)
    (heading : Heading) : Nat → Source → List Event
  | 0, _ => []
  | most + 1, s =>
    notes s ++
      match visit s with
      | .error _ => []
      | .ok v =>
        match v.links.to heading with
        | none => []
        | some link => walkNotes visit notes heading most (.ofQueryString link)

end Listing
