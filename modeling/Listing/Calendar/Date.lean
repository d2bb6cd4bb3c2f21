import Listing.Number.Digits
import Listing.Text.Utf8

/-! Dates of the years 1 to 9999, and their texts.
A date is written by year, month and day, with or without hyphens, or by year, week and weekday.
Week 1 is the week that has the year's first Thursday in it. -/
namespace Listing.Calendar
open Listing.Number Listing.Text

def isLeap (year : Nat) : Bool := year % 4 == 0 && (year % 100 != 0 || year % 400 == 0)

def yearLength (year : Nat) : Nat := if isLeap year then 366 else 365

def monthLengths (year : Nat) : List Nat :=
  [31, if isLeap year then 29 else 28, 31, 30, 31, 30, 31, 31, 30, 31, 30, 31]

def monthLength (year month : Nat) : Nat :=
  match month with
  | 0 => 0
  | m + 1 => (monthLengths year)[m]?.getD 0

def IsDate (year month day : Nat) : Prop :=
  (1 ≤ year ∧ year ≤ 9999) ∧ (1 ≤ month ∧ month ≤ 12) ∧ 1 ≤ day ∧ day ≤ monthLength year month

instance (year month day : Nat) : Decidable (IsDate year month day) := by
  unfold IsDate; infer_instance

structure Date where
  year : Nat
  month : Nat
  day : Nat
  valid : IsDate year month day
  deriving DecidableEq

namespace Date

def of? (year month day : Nat) : Option Date :=
  if h : IsDate year month day then some ⟨year, month, day, h⟩ else none

theorem of?_self (d : Date) : of? d.year d.month d.day = some d := by
  rw [of?, dif_pos d.valid]

/-- The weekday of the first of January, Monday being 0. -/
def firstWeekday (year : Nat) : Nat :=
  let y := year - 1
  (y * 365 + y / 4 - y / 100 + y / 400) % 7

/-- The day of the year, counted from 0, on which week 1 begins; it may lie before the year. -/
def weekOneStart (year : Nat) : Int :=
  let w : Int := firstWeekday year
  if w ≤ 3 then -w else 7 - w

/-- Whether a year has a week 53: it begins on a Thursday, or on a Wednesday and is a leap year. -/
def hasLongCount (year : Nat) : Bool :=
  firstWeekday year == 3 || (firstWeekday year == 2 && isLeap year)

def inYear : List Nat → Nat → Nat → Nat × Nat
  | [], month, day => (month, day + 1)
  | length :: r, month, day =>
    if day < length then (month, day + 1) else inYear r (month + 1) (day - length)

def ofDayOfYear? (year : Nat) (day : Int) : Option Date :=
  if day < 0 then of? (year - 1) 12 (32 + day).toNat
  else if day.toNat < yearLength year then
    let (m, d) := inYear (monthLengths year) 1 day.toNat
    of? year m d
  else of? (year + 1) 1 (day.toNat - yearLength year + 1)

def ofWeek? (year week weekday : Nat) : Option Date :=
  if 1 ≤ year ∧ year ≤ 9999 ∧ 1 ≤ week ∧ (week ≤ 52 ∨ (week = 53 ∧ hasLongCount year)) ∧
      1 ≤ weekday ∧ weekday ≤ 7 then
    ofDayOfYear? year (weekOneStart year + ((week - 1) * 7 + (weekday - 1) : Nat))
  else none

def afterHyphen (hyphens : Bool) (s : List Char) : Option (List Char) :=
  if hyphens then
    match s with
    | '-' :: r => some r
    | _ => none
  else some s

/-- Week and weekday after the letter; a text that ends with the week means its Monday. -/
def readWeek? (year : Nat) (hyphens : Bool) (s : List Char) : Option Date := do
  let (week, r) ← takeFixed 2 s
  if r.isEmpty then ofWeek? year week 1
  else
    let r ← afterHyphen hyphens r
    let (weekday, _) ← takeFixed 1 r
    ofWeek? year week weekday

def readMonth? (year : Nat) (hyphens : Bool) (s : List Char) : Option Date := do
  let (month, r) ← takeFixed 2 s
  let r ← afterHyphen hyphens r
  let (day, _) ← takeFixed 2 r
  of? year month day

/-- The date that a text begins with; what follows the day is not looked at. -/
def readPart? (s : List Char) : Option Date := do
  let (year, r) ← takeFixed 4 s
  let hyphens := r.head? == some '-'
  let r := if hyphens then r.tail else r
  match r with
  | 'W' :: r => readWeek? year hyphens r
  | r => readMonth? year hyphens r

/-- A date on its own: its text has 7, 8 or 10 octets, of which a compact date leaves some unread. -/
def read? (s : List Char) : Option Date :=
  if (Utf8.encodeAll s).length ∈ [7, 8, 10] then readPart? s else none

def text (d : Date) : List Char :=
  fixed 4 d.year ++ '-' :: fixed 2 d.month ++ '-' :: fixed 2 d.day

example : (read? "2024-W09-5".toList).map text = some "2024-03-01".toList := by decide
example : (read? "2026W537".toList).map text = some "2027-01-03".toList := by decide
example : (read? "20240301xx".toList).map text = some "2024-03-01".toList := by decide
example : read? "2023-02-29".toList = none := by decide

end Date
end Listing.Calendar
