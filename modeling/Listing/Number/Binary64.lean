import Listing.Number.Numeral

/-! Numbers of the binary format with 53 bits of significand, as exact values.
`round` takes a quotient of naturals to the nearest of them, a tie to the even significand; it is
the one place where anything is rounded. A finite number is `± significand · 2 ^ exponent`, with the
exponent as small as the format has it: at least -1074, and above that only for significands of all
53 bits. -/
namespace Listing.Number

inductive Binary64
  | finite (negative : Bool) (significand : Nat) (exponent : Int)
  | infinite (negative : Bool)
  | nan
  deriving DecidableEq, Repr

namespace Binary64

def roundEven (n d : Nat) : Nat :=
  let q := n / d
  let r := n % d
  if 2 * r > d ∨ (2 * r = d ∧ q % 2 = 1) then q + 1 else q

/-- The quotient `n / (d · 2 ^ e)` as a numerator and a denominator. -/
def scale (n d : Nat) (e : Int) : Nat × Nat :=
  if 0 ≤ e then (n, d * twoTo e.toNat) else (n * twoTo (-e).toNat, d)

def floorLog2 (n d : Nat) : Int :=
  let guess := (n.log2 : Int) - (d.log2 : Int)
  let s := scale n d guess
  if s.2 ≤ s.1 then guess else guess - 1

def leadingBit : Nat := 0x10000000000000

def leastExponent : Int := -1074
def greatestExponent : Int := 971

def round (n d : Nat) : Option (Nat × Int) :=
  if n = 0 then some (0, leastExponent)
  else
    let e := max leastExponent (floorLog2 n d - 52)
    let s := scale n d e
    let m := roundEven s.1 s.2
    let (m, e) := if m = 2 * leadingBit then (leadingBit, e + 1) else (m, e)
    if e ≤ greatestExponent then some (m, e) else none

example : round 1 3 = some (6004799503160661, -54) := by decide
example : round 1 (2 ^ 1080) = some (0, -1074) := by decide +kernel
example : round (2 ^ 1024) 1 = none := by decide +kernel

def ceiling (m : Nat) (e : Int) : Nat :=
  if 0 ≤ e then m * twoTo e.toNat else (m + (twoTo (-e).toNat - 1)) / twoTo (-e).toNat

def floor (m : Nat) (e : Int) : Nat :=
  if 0 ≤ e then m * twoTo e.toNat else m / twoTo (-e).toNat

def ofQuotient (negative : Bool) (n d : Nat) : Binary64 :=
  match round n d with
  | some (m, e) => .finite negative m e
  | none => .infinite negative

/-- A numeral whose value is beyond `10 ^ 400` or below `10 ^ -400` is not worked out, since the
largest finite number and the smallest positive one lie well within. -/
def ofNumeral (x : Numeral) : Binary64 :=
  let size := (x.exponent + (Nat.toDigits 10 x.coefficient).length : Int)
  if x.coefficient = 0 then .finite x.negative 0 leastExponent
  else if size > 400 then .infinite x.negative
  else if size < -400 then .finite x.negative 0 leastExponent
  else if 0 ≤ x.exponent then
    ofQuotient x.negative (x.coefficient * tenTo x.exponent.toNat) 1
  else ofQuotient x.negative x.coefficient (tenTo (-x.exponent).toNat)

def lower (s : List Char) : List Char := s.map Char.toLower

def read? (s : List Char) : Option Binary64 :=
  let (negative, body) := signed s
  let word := lower body
  if word = "nan".toList then some .nan
  else if word = "inf".toList ∨ word = "infinity".toList then some (.infinite negative)
  else (Numeral.read? s).map ofNumeral

example : read? "0.1".toList = some (.finite false 7205759403792794 (-56)) := by decide
example : read? "-Infinity".toList = some (.infinite true) := by decide

def signBits (negative : Bool) : Nat := if negative then 0x8000000000000000 else 0

/-- The 64 bits of the interchange format: sign, biased exponent, significand without its top bit. -/
def bits : Binary64 → Nat
  | .finite negative m e =>
    signBits negative +
      (if m < leadingBit then m else (e + 1075).toNat * leadingBit + (m - leadingBit))
  | .infinite negative => signBits negative + 0x7FF0000000000000
  | .nan => 0x7FF8000000000000

example : (ofQuotient false 1 1).bits = 0x3FF0000000000000 := by decide
example : (ofQuotient true 1 (2 ^ 1074)).bits = 0x8000000000000001 := by decide +kernel

def compareFinite (negative : Bool) (m : Nat) (e : Int) (negative' : Bool) (m' : Nat) (e' : Int) :
    Ordering :=
  let least := min e e'
  let left := applySign negative (m * twoTo (e - least).toNat)
  let right := applySign negative' (m' * twoTo (e' - least).toNat)
  compare left right

def compare? : Binary64 → Binary64 → Option Ordering
  | .nan, _ => none
  | _, .nan => none
  | .infinite a, .infinite b => some (compare b a)
  | .infinite a, .finite .. => some (if a then .lt else .gt)
  | .finite .., .infinite b => some (if b then .gt else .lt)
  | .finite n m e, .finite n' m' e' => some (compareFinite n m e n' m' e')

end Binary64
end Listing.Number
