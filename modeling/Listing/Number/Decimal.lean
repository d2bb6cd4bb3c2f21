import Listing.Number.Numeral

/-! Decimal numbers that keep every digit they were written with.
A finite number is `± coefficient · 10 ^ exponent`, and `1.0` differs from `1.00`. Reading never
rounds: a number beyond the greatest or below the smallest exponent is refused. -/
namespace Listing.Number

inductive Decimal
  | finite (negative : Bool) (coefficient : Nat) (exponent : Int)
  | infinite (negative : Bool)
  | nan (negative signaling : Bool) (payload : Nat)
  deriving DecidableEq, Repr

namespace Decimal
open Listing.Text

def greatestAdjusted : Int := 999999999999999999
def leastExponent : Int := -1999999999999999997

def adjusted (coefficient : Nat) (exponent : Int) : Int :=
  exponent + (decimal coefficient).length - 1

def inRange (coefficient : Nat) (exponent : Int) : Bool :=
  adjusted coefficient exponent ≤ greatestAdjusted && leastExponent ≤ exponent

def ofNumeral? (x : Numeral) : Option Decimal :=
  if inRange x.coefficient x.exponent then some (.finite x.negative x.coefficient x.exponent)
  else none

def payload? (s : List Char) : Option Nat := (s.mapM digitValue?).map ofDigits

def readWord? (negative : Bool) (body : List Char) : Option Decimal :=
  match body.map Char.toLower with
  | 'i' :: 'n' :: 'f' :: r =>
    if r = [] ∨ r = ['i', 'n', 'i', 't', 'y'] then some (.infinite negative) else none
  | 'n' :: 'a' :: 'n' :: r => (payload? r).map (.nan negative false)
  | 's' :: 'n' :: 'a' :: 'n' :: r => (payload? r).map (.nan negative true)
  | _ => none

/-- A text as a decimal number; underscores count for nothing, wherever they stand. -/
def read? (s : List Char) : Option Decimal :=
  let s := s.filter (· != '_')
  match Numeral.read? s with
  | some x => ofNumeral? x
  | none => let (negative, body) := signed s; readWord? negative body

example : read? "0.00e3".toList = some (.finite false 0 1) := by decide
example : read? "-1__5._0_".toList = some (.finite true 150 (-1)) := by decide
example : read? "snan007".toList = some (.nan false true 7) := by decide
example : read? "1e9999999999999999999".toList = none := by decide

/-- Digits with a point so that `places` of them follow it. -/
def pointed (places : Nat) (ds : List Char) : List Char :=
  if places = 0 then ds
  else
    let padded := List.replicate (places + 1 - ds.length) '0' ++ ds
    padded.take (padded.length - places) ++ '.' :: padded.drop (padded.length - places)

def scientific (ds : List Char) (power : Int) : List Char :=
  let mantissa := match ds with
    | d :: d' :: r => d :: '.' :: d' :: r
    | ds => ds
  mantissa ++ 'E' :: (if power < 0 then '-' else '+') :: decimal power.natAbs

/-- Plain digits if none would have to be made up after them and no more than five zeros stand
between the point and the first of them. -/
def finiteText (coefficient : Nat) (exponent : Int) : List Char :=
  let ds := decimal coefficient
  let power := adjusted coefficient exponent
  if exponent ≤ 0 ∧ -6 ≤ power then pointed (-exponent).toNat ds else scientific ds power

def payloadText (payload : Nat) : List Char := if payload = 0 then [] else decimal payload

def text : Decimal → String
  | finite negative c e => String.ofList (signText negative ++ finiteText c e)
  | infinite negative => String.ofList (signText negative ++ "Infinity".toList)
  | nan negative signaling payload =>
    String.ofList (signText negative ++ (if signaling then ['s'] else []) ++ "NaN".toList ++
      payloadText payload)

example : (finite true 150 (-1)).text = "-15.0" := by decide
example : (finite false 1 5).text = "1E+5" := by decide
example : (finite false 0 (-2)).text = "0.00" := by decide
example : (finite false 12 (-9)).text = "1.2E-8" := by decide

end Decimal
end Listing.Number
