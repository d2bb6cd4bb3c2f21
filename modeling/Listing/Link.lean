import Listing.Plan

/-! Queries written back as query strings, and links to the neighbouring pages. -/
namespace Listing
open Listing.Number

namespace Query

def pairs (c : Config) (q : Query) (page : Option Int) : List (String × String) :=
  [(c.pageKey, intText (page.getD q.page.page)), (c.perPageKey, intText q.page.perPage)] ++
    (q.order.field.map fun f => (c.sortByKey, f)).toList ++
    (q.order.direction.map fun d => (c.sortOrderKey, d.name)).toList ++
    q.filters.map fun f => (Bracket.name c.filterKey f.field f.operator.name, f.value.joined)

def toQueryString (c : Config) (q : Query) (page : Option Int) : String :=
  Form.encode (q.pairs c page)

end Query

structure Links where
  next : Option String
  previous : Option String
  deriving DecidableEq, Repr

def Links.of (c : Config) (q : Query) (b : PageBlock) : Links where
  next := if b.hasNext then some (q.toQueryString c (some (b.page + 1))) else none
  previous := if b.hasPrevious then some (q.toQueryString c (some (b.page - 1))) else none

def Query.written (c : Config) (q : Query) (keepBlank : Bool) : Parameter.Source :=
  .ofTexts (Form.decode keepBlank (q.toQueryString c none))

def Policy.reread (y : Policy) (q : Query) (keepBlank : Bool) : Except Fault Query :=
  y.read (q.written y.config keepBlank)

end Listing
