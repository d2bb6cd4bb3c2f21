import Listing.Number.Digits

/-! Hours, minutes, seconds and fractions, as times of day and offsets write them.
Two digits each, all with colons between them or all without; after any of them a point or a comma
and a fraction, of which six digits count. What stands after the fields is left to the caller: a
single character right after the digits, or anything after a fraction of six digits, is passed over,
and `Clock.clean` tells whether there was something. -/
namespace Listing.Calendar
open Listing.Number Listing.Text

structure Clock where
  hour : Nat
  minute : Nat
  second : Nat
  microsecond : Nat
  clean : Bool
  deriving DecidableEq, Repr

namespace Clock

def terminator : Char := '\x00'

def isEnd (c : Char) : Bool := c == terminator

/-- A fraction as microseconds: six digits at most count, more are passed over. `next` is the
character after `s`. -/
def readFraction? (next : Char) (s : List Char) : Option (Nat × Bool) := do
  let width := min 6 s.length
  let (n, r) ← takeFixed width s
  let after := (r.dropWhile Char.isDigit).head?.getD next
  return (n * tenTo (6 - width), isEnd after)

inductive Follow
  | finished (clean : Bool)
  | field (rest : List Char)
  | fraction (rest : List Char)
  | wrong

def follow (next : Char) (colons : Bool) : List Char → Follow
  | [] => .finished (isEnd next)
  | [c] => if c.toNat < 0x80 then .finished (isEnd c) else .wrong
  | c :: r =>
    if colons && c == ':' then .field r
    else if c = '.' ∨ c = ',' then .fraction r
    else if colons then .wrong
    else .field (c :: r)

/-- Reads up to the third field; a fraction may begin without a mark after the third one. -/
def read? (next : Char) (s : List Char) : Option Clock := do
  let (hour, r) ← takeFixed 2 s
  let colons := r.head?.getD next == ':'
  match follow next colons r with
  | .finished clean => return ⟨hour, 0, 0, 0, clean⟩
  | .fraction r =>
    let (n, clean) ← readFraction? next r
    return ⟨hour, 0, 0, n, clean⟩
  | .wrong => none
  | .field r =>
    let (minute, r) ← takeFixed 2 r
    match follow next colons r with
    | .finished clean => return ⟨hour, minute, 0, 0, clean⟩
    | .fraction r =>
      let (n, clean) ← readFraction? next r
      return ⟨hour, minute, 0, n, clean⟩
    | .wrong => none
    | .field r =>
      let (second, r) ← takeFixed 2 r
      match follow next colons r with
      | .finished clean => return ⟨hour, minute, second, 0, clean⟩
      | .wrong => none
      | .fraction r | .field r =>
        let (n, clean) ← readFraction? next r
        return ⟨hour, minute, second, n, clean⟩

example : read? terminator "10:30:45.1234567".toList = some ⟨10, 30, 45, 123456, true⟩ := by decide
example : read? terminator "1030".toList = some ⟨10, 30, 0, 0, true⟩ := by decide
example : read? terminator "10:3045".toList = none := by decide
example : read? '+' "10:30 ".toList = some ⟨10, 30, 0, 0, false⟩ := by decide

def microseconds (c : Clock) : Nat :=
  ((c.hour * 60 + c.minute) * 60 + c.second) * 1000000 + c.microsecond

end Clock
end Listing.Calendar
