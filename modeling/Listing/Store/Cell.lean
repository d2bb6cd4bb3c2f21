import Listing.Scalar

/-! What a table holds in a row and a column.
A cell is nothing, an integer, a real number or a text. Truth values are held as 1 and 0, moments as
their date and time of day without an offset, members of enumerations by name. -/
namespace Listing.Store
open Listing.Number Listing.Calendar

inductive Cell
  | null
  | integer (n : Int)
  | real (x : Binary64)
  | text (s : String)
  deriving DecidableEq

/-- The date and the time of day with six digits of fraction; the offset is left out. -/
def momentText (m : DateTime) : String :=
  String.ofList (m.date.text ++ ' ' :: m.time.fullText)

def ofDecimal : Decimal → Binary64
  | .finite negative c e => Binary64.ofNumeral ⟨negative, c, e⟩
  | .infinite negative => .infinite negative
  | .nan .. => .nan

namespace Cell

/-- No number is held as nothing. -/
def ofReal : Binary64 → Cell
  | .nan => null
  | x => real x

def ofScalar : Scalar → Cell
  | .null => null
  | .bool b => integer (if b then 1 else 0)
  | .int n => integer n
  | .float x => ofReal x
  | .decimal d => ofReal (ofDecimal d)
  | .date d => text (String.ofList d.text)
  | .datetime m => text (momentText m)
  | .uuid u => text (String.ofList u.compact)
  | .member _ name => text name
  | .text s => text s

def fits (n : Int) : Bool := -0x8000000000000000 ≤ n && n < 0x8000000000000000

def text? : Cell → Option String
  | null => none
  | integer n => some (intText n)
  | real x => some x.text
  | text s => some s

def rank : Cell → Nat
  | null => 0
  | integer _ => 1
  | real _ => 1
  | text _ => 2

def asReal (n : Int) : Binary64 := .finite (n < 0) n.natAbs 0

/-- Nothing comes first, then numbers by value, then texts by code point. -/
def order : Cell → Cell → Ordering
  | integer a, integer b => compare a b
  | real a, real b => (Binary64.compare? a b).getD .eq
  | integer a, real b => (Binary64.compare? (asReal a) b).getD .eq
  | real a, integer b => (Binary64.compare? a (asReal b)).getD .eq
  | text a, text b => compareOfLessAndEq a b
  | a, b => compare a.rank b.rank

def compare? : Cell → Cell → Option Ordering
  | null, _ => none
  | _, null => none
  | a, b => some (order a b)

end Cell
end Listing.Store
