import Listing.Number.Digits
import Listing.Text.Blank
import Listing.Text.Quoted
import Listing.Text.Split

/-! Identifiers of 128 bits.
The canonical text has 32 hex digits in five groups. Reading takes off `urn:` and `uuid:`, braces at the
ends and every hyphen, and then wants 32 characters that make up a number in base 16; such a number
may have a sign, `0x` in front, blanks around it and single underscores between its digits. -/
namespace Listing
open Listing.Text Listing.Number

def Uuid.count : Nat := 0x100000000000000000000000000000000

structure Uuid where
  value : Nat
  bounded : value < Uuid.count
  deriving DecidableEq

namespace Uuid

def ofNat? (n : Nat) : Option Uuid := if h : n < count then some ⟨n, h⟩ else none

def hexValue? (c : Char) : Option Nat :=
  match digitValue? c with
  | some d => some d
  | none =>
    if 'a' ≤ c ∧ c ≤ 'f' then some (c.toNat - 0x57)
    else if 'A' ≤ c ∧ c ≤ 'F' then some (c.toNat - 0x37)
    else none

/-- Hex digits with single underscores between them; `afterDigit` tells whether one came before. -/
def hexDigits? : Bool → List Char → Option (List Nat)
  | afterDigit, [] => if afterDigit then some [] else none
  | afterDigit, c :: r =>
    if c = '_' then if afterDigit then hexDigits? false r else none
    else do
      let d ← hexValue? c
      let ds ← hexDigits? true r
      return d :: ds

def afterUnderscore : List Char → List Char
  | '_' :: r => r
  | s => s

def afterBaseMark : List Char → List Char
  | c :: x :: r =>
    if digitValue? c = some 0 ∧ (x = 'x' ∨ x = 'X') then afterUnderscore r else c :: x :: r
  | s => s

def ofHexDigits (ds : List Nat) : Nat := ds.foldl (fun n d => 16 * n + d) 0

/-- A blank that may stand around a number; the four separators U+001C to U+001F may not. -/
def isNumberBlank (c : Char) : Bool := isBlank c && !(0x1C ≤ c.toNat && c.toNat ≤ 0x1F)

def trimNumber (s : List Char) : List Char :=
  ((s.dropWhile isNumberBlank).reverse.dropWhile isNumberBlank).reverse

def readHex? (s : List Char) : Option Nat :=
  let (negative, body) := signed (trimNumber s)
  if negative then none else (hexDigits? false (afterBaseMark body)).map ofHexDigits

def isBrace (c : Char) : Bool := c == '\x7b' || c == '\x7d'

def trimBraces (s : List Char) : List Char :=
  ((s.dropWhile isBrace).reverse.dropWhile isBrace).reverse

def bare (s : List Char) : List Char :=
  (trimBraces (replace "uuid:".toList [] (replace "urn:".toList [] s))).filter (· != '-')

def read? (s : List Char) : Option Uuid :=
  let digits := bare s
  if digits.length = 32 then (readHex? digits).bind ofNat? else none

def text (u : Uuid) : List Char :=
  let ds := Quoted.hex 32 u.value
  ds.take 8 ++ '-' :: (ds.drop 8).take 4 ++ '-' :: (ds.drop 12).take 4 ++
    '-' :: (ds.drop 16).take 4 ++ '-' :: ds.drop 20

def compact (u : Uuid) : List Char := Quoted.hex 32 u.value

example : (read? "urn:uuid:\x7b12345678-1234-5678-1234-56781234567F\x7d".toList).map text =
    some "12345678-1234-5678-1234-56781234567f".toList := by decide +kernel

end Uuid
end Listing
