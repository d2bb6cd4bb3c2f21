import Listing.Number.Binary64

/-! The fewest decimal digits that read back as a given binary number, and the text made of them.
The numbers that round to `m · 2 ^ e` form an interval; of the decimal grids, from coarse to fine, the
first that has a point in it is taken, and on it the point nearest to the number. -/
namespace Listing.Number.Shortest

/-- Four times a value and the ends of the interval that rounds to it, over one denominator; the
lower half of the interval is narrower just above a power of two. -/
structure Interval where
  low : Nat
  value : Nat
  high : Nat
  denominator : Nat
  closed : Bool

def Interval.ofFinite (m : Nat) (e : Int) : Interval :=
  let below := if m = Binary64.leadingBit ∧ Binary64.leastExponent < e then 1 else 2
  let s := Binary64.scale 1 4 (-e)
  ⟨(4 * m - below) * s.1, 4 * m * s.1, (4 * m + 2) * s.1, s.2, m % 2 = 0⟩

def Interval.holds (i : Interval) (n d : Nat) : Bool :=
  if i.closed then i.low * d ≤ n * i.denominator && n * i.denominator ≤ i.high * d
  else i.low * d < n * i.denominator && n * i.denominator < i.high * d

def scaleTen (n d : Nat) (e : Int) : Nat × Nat :=
  if 0 ≤ e then (n, d * tenTo e.toNat) else (n * tenTo (-e).toNat, d)

def gridPoint (k : Nat) (e : Int) : Nat × Nat :=
  if 0 ≤ e then (k * tenTo e.toNat, 1) else (k, tenTo (-e).toNat)

/-- The number of digits before the point; zero or less for numbers below one tenth. -/
def magnitude (n d : Nat) : Int :=
  if d ≤ n then (Nat.toDigits 10 (n / d)).length
  else
    match (List.range 400).find? fun j => d ≤ n * tenTo (j + 1) with
    | some j => -(j : Int)
    | none => -400

/-- Of the neighbours `k` and `k + 1` of a number that is `rest / d` above `k`, the nearer one, and
the even one if both are as near. -/
def nearer (k rest d : Nat) : Nat :=
  match compare (2 * rest) d with
  | .lt => k
  | .eq => if k % 2 = 0 then k else k + 1
  | .gt => k + 1

/-- The point of the grid `10 ^ e` that stands for the number, if one lies in the interval. -/
def onGrid (i : Interval) (e : Int) : Option Nat :=
  let s := scaleTen i.value i.denominator e
  let below := s.1 / s.2
  let rest := s.1 % s.2
  let inside := fun k => let p := gridPoint k e; i.holds p.1 p.2
  match inside below && below != 0, inside (below + 1) with
  | true, true => some (nearer below rest s.2)
  | true, false => some below
  | false, true => some (below + 1)
  | false, false => none

def digits (m : Nat) (e : Int) : Nat × Int :=
  let i := Interval.ofFinite m e
  let top := magnitude i.value i.denominator
  let found := (List.range 17).findSome? fun (k : Nat) =>
    let e := top - ((k + 1 : Nat) : Int)
    (onGrid i e).map fun n => (n, e)
  found.getD (0, 0)

/-- Trailing zeros moved into the exponent; as many as there are digits suffice. -/
def trimZeros : Nat → Nat → Int → Nat × Int
  | 0, n, e => (n, e)
  | fuel + 1, n, e => if n % 10 = 0 ∧ n ≠ 0 then trimZeros fuel (n / 10) (e + 1) else (n, e)

end Listing.Number.Shortest

namespace Listing.Number.Binary64

/-- How a number is written: the powers of ten that still go without an exponent, and the least
number of digits that an exponent has. -/
structure Layout where
  leastPlain : Int
  beyondPlain : Int
  exponentDigits : Nat

/-- Numbers from `10 ^ -4` to below `10 ^ 16` have a point and no exponent. -/
def layout : Layout := ⟨-4, 16, 2⟩

def padLeft (width : Nat) (s : List Char) : List Char :=
  List.replicate (width - s.length) '0' ++ s

def pointed (ds : List Char) (e : Int) : List Char :=
  if 0 ≤ e then ds ++ List.replicate e.toNat '0' ++ ['.', '0']
  else
    let places := (-e).toNat
    let padded := padLeft (places + 1) ds
    padded.take (padded.length - places) ++ '.' :: padded.drop (padded.length - places)

def scientific (l : Layout) (ds : List Char) (power : Int) : List Char :=
  let mantissa := match ds with
    | [] => []
    | [d] => [d]
    | d :: r => d :: '.' :: r
  mantissa ++ 'e' :: (if power < 0 then '-' else '+') ::
    padLeft l.exponentDigits (decimal power.natAbs)

def finiteText (l : Layout) (m : Nat) (e : Int) : List Char :=
  if m = 0 then "0.0".toList
  else
    let found := Shortest.digits m e
    let short := Shortest.trimZeros 20 found.1 found.2
    let ds := decimal short.1
    let power := short.2 + ds.length - 1
    if l.leastPlain ≤ power ∧ power < l.beyondPlain then pointed ds short.2
    else scientific l ds power

def text : Binary64 → String
  | .finite negative m e => String.ofList (signText negative ++ finiteText layout m e)
  | .infinite negative => String.ofList (signText negative ++ "inf".toList)
  | .nan => "nan"

example : (finite false 9007199254740987 (-2)).text = "2251799813685246.8" := by decide +kernel
example : (finite false 9007199254740985 (-2)).text = "2251799813685246.2" := by decide +kernel

end Listing.Number.Binary64
