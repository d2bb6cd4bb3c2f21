import Listing.Calendar.DateTime
import Listing.Number.Decimal
import Listing.Number.Shortest
import Listing.Uuid

/-! Values that conditions compare columns with.
A `Scalar` is one value of a column's kind, an `Operand` is what a condition compares with: one value
or several. -/
namespace Listing
open Listing.Number Listing.Calendar

inductive Scalar
  | null
  | bool (b : Bool)
  | int (n : Int)
  | float (x : Binary64)
  | decimal (d : Decimal)
  | date (d : Date)
  | datetime (m : DateTime)
  | uuid (u : Uuid)
  | member (enumeration name : String)
  | text (s : String)
  deriving DecidableEq

inductive Operand
  | one (v : Scalar)
  | many (vs : List Scalar)
  deriving DecidableEq

namespace Scalar

def kind : Scalar → String
  | null => "NoneType"
  | bool _ => "bool"
  | int _ => "int"
  | float _ => "float"
  | decimal _ => "decimal.Decimal"
  | date _ => "datetime.date"
  | datetime _ => "datetime.datetime"
  | uuid _ => "UUID"
  | member enumeration _ => enumeration
  | text _ => "str"

end Scalar
end Listing
