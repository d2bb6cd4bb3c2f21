import Listing.Operator

/-! A filter as a request states it: a field, an operator, and a text or several. -/
namespace Listing

inductive FilterValue
  | single (text : String)
  | members (texts : List String)
  deriving DecidableEq, Repr

structure Filter where
  field : String
  operator : Operator
  value : FilterValue
  deriving DecidableEq, Repr

def FilterValue.joined : FilterValue → String
  | single s => s
  | members ss => ",".intercalate ss

end Listing
