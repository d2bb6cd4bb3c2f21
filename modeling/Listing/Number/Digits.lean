import Listing.Number.Power
import Listing.Text.Digit

/-! Decimal digits: runs of them in a text, and numbers written with them.
In a run a single underscore may stand between two digits. -/
namespace Listing.Number
open Listing.Text

def moreDigits : List Char → List Nat × List Char
  | [] => ([], [])
  | [c] =>
    match digitValue? c with
    | some d => ([d], [])
    | none => ([], [c])
  | c :: x :: r =>
    if c = '_' then
      match digitValue? x with
      | some d => (d :: (moreDigits r).1, (moreDigits r).2)
      | none => ([], c :: x :: r)
    else
      match digitValue? c with
      | some d => (d :: (moreDigits (x :: r)).1, (moreDigits (x :: r)).2)
      | none => ([], c :: x :: r)

def digitRun : List Char → List Nat × List Char
  | [] => ([], [])
  | c :: r =>
    match digitValue? c with
    | some d => (d :: (moreDigits r).1, (moreDigits r).2)
    | none => ([], c :: r)

example : digitRun "1_2x".toList = ([1, 2], ['x']) := by decide
example : digitRun "1__2".toList = ([1], "__2".toList) := by decide

def signed : List Char → Bool × List Char
  | '-' :: r => (true, r)
  | '+' :: r => (false, r)
  | s => (false, s)

def applySign (negative : Bool) (n : Nat) : Int := if negative then -(n : Int) else n

def decimal (n : Nat) : List Char := Nat.toDigits 10 n

def signText (negative : Bool) : List Char := if negative then ['-'] else []

def natText (n : Nat) : String := String.ofList (decimal n)
def intText (n : Int) : String := String.ofList (signText (n < 0) ++ decimal n.natAbs)

example : intText (-120) = "-120" := by decide

def digitChar (d : Nat) : Char := Char.ofNat (0x30 + d)

def fixed : Nat → Nat → List Char
  | 0, _ => []
  | width + 1, n => fixed width (n / 10) ++ [digitChar (n % 10)]

theorem fixed_length (width n : Nat) : (fixed width n).length = width := by
  induction width generalizing n with
  | zero => rfl
  | succ width ih => simp [fixed, ih]

example : fixed 4 24 = "0024".toList := by decide

def takeFixed : Nat → List Char → Option (Nat × List Char)
  | 0, s => some (0, s)
  | _ + 1, [] => none
  | width + 1, c :: r => do
    let d ← asciiDigit? c
    let (n, rest) ← takeFixed width r
    return (d * tenTo width + n, rest)

example : takeFixed 4 "2024-".toList = some (2024, ['-']) := by decide
example : takeFixed 2 "1".toList = none := by decide

end Listing.Number
