import Listing.Fault
import Listing.Form
import Listing.Parameter.Value

/-! Where request parameters come from, and the one view that the rest reads.
Every shape is read as `entries`: each key once, at its first place, with its last value. A mapping
may hold a list of values under a key; a multi-mapping holds several pairs with one key, or a list
under each. -/
namespace Listing.Parameter
open Listing.Text

inductive Source
  | absent
  | mapping (entries : List (Key × Value))
  | pairs (pairs : List (String × Value))
  | lists (entries : List (String × List Value))
  | other (v : Value)
  deriving Repr

abbrev Entry := String × Value

def lastOf (pairs : List Entry) (key : String) : Value :=
  ((pairs.filter (·.1 == key)).getLast?.map (·.2)).getD (.text "")

def lastOfFirst (entries : List (String × List Value)) (key : String) : Value :=
  ((entries.find? (·.1 == key)).bind (·.2.getLast?)).getD (.text "")

def distinctKeys {α : Type} (entries : List (String × α)) : List String :=
  (entries.map (·.1)).eraseDups

def mergePairs (pairs : List Entry) : List Entry :=
  (distinctKeys pairs).map fun k => (k, lastOf pairs k)

def mergeLists (entries : List (String × List Value)) : List Entry :=
  (distinctKeys entries).map fun k => (k, lastOfFirst entries k)

namespace Source

def entries : Source → Except Fault (List Entry)
  | absent => .ok []
  | mapping es => .ok (es.map fun e => (e.1.plain, e.2.lastItem))
  | pairs ps => .ok (mergePairs ps)
  | lists es => .ok (mergeLists es)
  | other (.mapping es) => .ok (es.map fun e => (e.1.plain, e.2.lastItem))
  | other .null => .ok []
  | other v => .error (.notAMapping v.kind)

def ofQueryString (s : String) : Source :=
  pairs ((Form.decode true s).map fun p => (p.1, .text p.2))

def ofTexts (ps : List (String × String)) : Source :=
  mapping (ofPairs (ps.map fun p => (Key.text p.1, Value.text p.2)))

end Source

def lookup (entries : List Entry) (key : String) : Option Value :=
  (entries.find? (·.1 == key)).map (·.2)

theorem lookup_cons (e : Entry) (r : List Entry) (key : String) :
    lookup (e :: r) key = if e.1 == key then some e.2 else lookup r key := by
  rw [lookup, List.find?_cons]
  cases e.1 == key <;> rfl

end Listing.Parameter
