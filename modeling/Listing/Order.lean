import Listing.Config
import Listing.Parameter.Source
import Listing.Text.Blank

/-! The order that a request asks for.
`OrderRequest` is what the request says, either part of which may be missing; a `FieldOrder` names a
field and a direction. -/
namespace Listing
open Listing.Text Listing.Parameter

inductive Direction
  | asc
  | desc
  deriving DecidableEq, Repr

namespace Direction

def name : Direction → String | asc => "asc" | desc => "desc"

/-- A direction's name in letters of any case, blanks around it aside. Of the letters outside ASCII
none has a lower-case form that could complete one of the two names. -/
def ofText? (s : String) : Option Direction :=
  let word := (trim s.toList).map Char.toLower
  if word = ['a', 's', 'c'] then some asc
  else if word = ['d', 'e', 's', 'c'] then some desc
  else none

def ofValue? : Value → Option Direction
  | .text s => ofText? s
  | _ => none

theorem ofText?_name (o : Direction) : ofText? o.name = some o := by cases o <;> decide

end Direction

structure FieldOrder where
  field : String
  direction : Direction := .asc
  deriving DecidableEq, Repr

def FieldOrder.descending (o : FieldOrder) : Bool := o.direction == .desc

structure OrderRequest where
  field : Option String := none
  direction : Option Direction := none
  deriving DecidableEq, Repr

namespace OrderRequest

def fieldOf : Value → Option String
  | .null => none
  | v => if strip v.plain = "" then none else some (strip v.plain)

def ofEntries (c : Config) (entries : List Entry) : OrderRequest :=
  ⟨(lookup entries c.sortByKey).bind fieldOf,
    (lookup entries c.sortOrderKey).bind Direction.ofValue?⟩

end OrderRequest
end Listing
