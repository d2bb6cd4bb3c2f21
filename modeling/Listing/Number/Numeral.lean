import Listing.Number.Digits

/-! Decimal numerals: a sign, digits with at most one point among them, and an exponent.
At least one digit has to stand before the exponent, and at least one in it. The numeral means
`± digits · 10 ^ exponent`. -/
namespace Listing.Number

structure Numeral where
  negative : Bool
  coefficient : Nat
  exponent : Int
  deriving DecidableEq, Repr

namespace Numeral
open Listing.Text

def readExponent? : List Char → Option Int
  | [] => some 0
  | c :: r =>
    if c = 'e' ∨ c = 'E' then
      let (negative, body) := signed r
      match digitRun body with
      | ([], _) => none
      | (ds, []) => some (applySign negative (ofDigits ds))
      | _ => none
    else none

def fraction : List Char → List Nat × List Char
  | '.' :: r => digitRun r
  | s => ([], s)

def read? (s : List Char) : Option Numeral :=
  let (negative, body) := signed s
  let (whole, afterWhole) := digitRun body
  let (part, afterPart) := fraction afterWhole
  if whole.isEmpty && part.isEmpty then none
  else do
    let e ← readExponent? afterPart
    return ⟨negative, ofDigits (whole ++ part), e - part.length⟩

example : read? "-1_0.50e2".toList = some ⟨true, 1050, 0⟩ := by decide
example : read? ".".toList = none := by decide
example : read? "1e".toList = none := by decide

end Numeral
end Listing.Number
