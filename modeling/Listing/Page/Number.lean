import Listing.Number.Digits
import Listing.Text.Blank

/-! Page numbers as texts.
A page number is written in digits `0` to `9`, with an optional minus and at most one point; a
fraction is rounded down. A number of more than 18 digits before its point counts as the greatest
offset, or its negative, since nothing that large is ever reached. -/
namespace Listing.Page
open Listing.Text Listing.Number

/-- The greatest number of rows that a statement can skip. -/
def maxOffset : Int := 0x7FFFFFFFFFFFFFFF

def maxDigits : Nat := 18

structure Written where
  negative : Bool
  whole : List Char
  fraction : List Char
  deriving DecidableEq, Repr

def Written.ofBody? (negative : Bool) (body : List Char) : Option Written :=
  let whole := body.takeWhile Char.isDigit
  match body.dropWhile Char.isDigit with
  | [] => if whole.isEmpty then none else some ⟨negative, whole, []⟩
  | c :: fraction =>
    if c = '.' && fraction.all Char.isDigit && !(whole.isEmpty && fraction.isEmpty) then
      some ⟨negative, whole, fraction⟩
    else none

def Written.read? : List Char → Option Written
  | '-' :: body => ofBody? true body
  | body => ofBody? false body

def digitsValue (ds : List Char) : Nat := ofDigits (ds.map fun c => c.toNat - 0x30)

def isZeroDigit (c : Char) : Bool := c == '0'

def Written.floor (w : Written) : Int :=
  let n : Int := digitsValue w.whole
  if w.negative then if w.fraction.all isZeroDigit then -n else -n - 1 else n

def Written.saturated (w : Written) : Bool :=
  maxDigits < (w.whole.dropWhile isZeroDigit).length

def Written.value (w : Written) : Int :=
  if w.saturated then if w.negative then -maxOffset else maxOffset else w.floor

def number? (s : String) : Option Int := (Written.read? (trim s.toList)).map Written.value

example : number? " -2.5 " = some (-3) := by decide
example : number? "." = none := by decide
example : number? "1000000000000000000" = some (2 ^ 63 - 1) := by decide

end Listing.Page
