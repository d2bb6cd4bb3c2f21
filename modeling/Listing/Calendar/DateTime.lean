import Listing.Calendar.Clock
import Listing.Calendar.Date
import Listing.Text.Split

/-! Moments: a date, a time of day and, if known, an offset from universal time.
A moment is written as its date, one character of any kind, and its time; an offset follows at the
first sign. -/
namespace Listing.Calendar
open Listing.Number Listing.Text

def dayLength : Nat := 86400000000

structure Offset where
  microseconds : Int
  within : -(dayLength : Int) < microseconds ∧ microseconds < dayLength
  deriving DecidableEq

def Offset.of? (n : Int) : Option Offset :=
  if h : -(dayLength : Int) < n ∧ n < dayLength then some ⟨n, h⟩ else none

def Offset.zero : Offset := ⟨0, by decide⟩

def IsTime (hour minute second microsecond : Nat) : Prop :=
  hour < 24 ∧ minute < 60 ∧ second < 60 ∧ microsecond < 1000000

instance (h m s u : Nat) : Decidable (IsTime h m s u) := by unfold IsTime; infer_instance

structure Time where
  hour : Nat
  minute : Nat
  second : Nat
  microsecond : Nat
  valid : IsTime hour minute second microsecond
  deriving DecidableEq

namespace Time

def midnight : Time := ⟨0, 0, 0, 0, by decide⟩

def ofClock? (c : Clock) : Option Time :=
  if h : IsTime c.hour c.minute c.second c.microsecond then
    some ⟨c.hour, c.minute, c.second, c.microsecond, h⟩
  else none

def fractionText (microsecond : Nat) : List Char :=
  if microsecond = 0 then [] else '.' :: fixed 6 microsecond

def text (t : Time) : List Char :=
  fixed 2 t.hour ++ ':' :: fixed 2 t.minute ++ ':' :: fixed 2 t.second ++ fractionText t.microsecond

def fullText (t : Time) : List Char :=
  fixed 2 t.hour ++ ':' :: fixed 2 t.minute ++ ':' :: fixed 2 t.second ++ '.' :: fixed 6 t.microsecond

end Time

namespace Offset

def secondsText (seconds microsecond : Nat) : List Char :=
  if seconds = 0 ∧ microsecond = 0 then []
  else ':' :: fixed 2 seconds ++ Time.fractionText microsecond

/-- The offset that a sign and a clock stand for; less than a second of it counts as zero. -/
def ofClock? (negative : Bool) (c : Clock) : Option Offset :=
  of? (if c.microseconds < 1000000 then 0 else applySign negative c.microseconds)

def text (o : Offset) : List Char :=
  let n := o.microseconds.natAbs
  let seconds := n / 1000000
  (if o.microseconds < 0 then '-' else '+') :: fixed 2 (seconds / 3600) ++
    ':' :: fixed 2 (seconds / 60 % 60) ++ secondsText (seconds % 60) (n % 1000000)

end Offset

structure DateTime where
  date : Date
  time : Time
  offset : Option Offset
  deriving DecidableEq

namespace DateTime

def midnight (d : Date) : DateTime := ⟨d, .midnight, none⟩

def text (m : DateTime) : List Char :=
  m.date.text ++ 'T' :: m.time.text ++ (m.offset.map Offset.text).getD []

def isOffsetMark (c : Char) : Bool := c == '+' || c == '-' || c == 'Z'

/-- What follows a time: nothing, the letter for universal time at the very end, or a sign and an
offset with nothing after it. -/
def readOffset? : List Char → Option (Option Offset)
  | [] => some none
  | c :: r =>
    if c = 'Z' then if r.isEmpty then (Offset.of? 0).map some else none
    else do
      let clock ← Clock.read? Clock.terminator r
      if clock.clean then (Offset.ofClock? (c == '-') clock).map some else none

def readTime? (s : List Char) : Option (Time × Option Offset) := do
  let fields := s.takeWhile fun c => !isOffsetMark c
  let rest := s.dropWhile fun c => !isOffsetMark c
  let clock ← Clock.read? (rest.head?.getD Clock.terminator) fields
  if rest.isEmpty && !clock.clean then none
  else do
    let offset ← readOffset? rest
    let time ← Time.ofClock? clock
    return (time, offset)

/-- Where a date by weeks without hyphens ends: the digits after its week tell whether there is a
weekday among them, since the digits of a time come in pairs. -/
def compactWeekEnd (s : List Char) : Nat :=
  let stop := 7 + ((s.drop 7).takeWhile Char.isDigit).length
  if stop < 9 then stop else if stop % 2 = 0 then 7 else 8

/-- Where a date by weeks with hyphens ends: a hyphen after the week is taken for the separator of a
time if a digit follows two places on. -/
def hyphenWeekEnd (s : List Char) : Nat :=
  if s[8]? = some '-' then
    match s[10]? with
    | some c => if c.isDigit then 8 else 10
    | none => 10
  else 8

def dateEnd (s : List Char) : Nat :=
  if s.length = 7 then 7
  else if s[4]? = some '-' then
    if s[5]? = some 'W' then hyphenWeekEnd s else 10
  else if s[4]? = some 'W' then compactWeekEnd s
  else 8

def read? (s : List Char) : Option DateTime := do
  let stop := dateEnd s
  let date ← Date.readPart? (s.take stop)
  match s.drop stop with
  | [] => return midnight date
  | _ :: r =>
    let (time, offset) ← readTime? r
    return ⟨date, time, offset⟩

example : (read? "2024-03-01T10:30:45.5+05:30:15".toList).map text =
    some "2024-03-01T10:30:45.500000+05:30:15".toList := by decide
example : (read? "20240301 1030 -01".toList).map text =
    some "2024-03-01T10:30:00-01:00".toList := by decide
example : (read? "2024-03-01T10-00:00:00.5".toList).map text =
    some "2024-03-01T10:00:00+00:00".toList := by decide
example : read? "2024-03-01T".toList = none := by decide

end DateTime
end Listing.Calendar
