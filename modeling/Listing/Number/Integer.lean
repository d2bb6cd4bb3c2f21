import Listing.Number.Digits

/-! Integers as texts: an optional sign and one run of digits, at most 4300 of them. -/
namespace Listing.Number.Integer
open Listing.Text

def maxDigits : Nat := 4300

def read? (s : List Char) : Option Int :=
  let (negative, body) := signed s
  match digitRun body with
  | ([], _) => none
  | (ds, []) => if ds.length ≤ maxDigits then some (applySign negative (ofDigits ds)) else none
  | _ => none

example : read? "-1_000".toList = some (-1000) := by decide
example : read? "1_".toList = none := by decide

end Listing.Number.Integer
