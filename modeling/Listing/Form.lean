import Listing.Text.Split
import Listing.Text.Utf8

/-! Form encoding: the text of a query string and the pairs it carries.
Letters, digits and `-`, `.`, `_`, `~` stand for themselves, a space becomes `+`, any other character
becomes its UTF-8 octets, each as `%` and two upper-case hex digits. Reading accepts more than
writing produces: a `%` without two hex digits stands for itself, and so does any other character. -/
namespace Listing.Form
open Listing.Text

def isUnreserved (c : Char) : Bool :=
  c.isAlphanum || c = '-' || c = '.' || c = '_' || c = '~'

def upperHex (n : Nat) : Char := Char.ofNat (if n < 10 then 0x30 + n else 0x37 + n)

def encodeOctet (b : UInt8) : List Char :=
  ['%', upperHex (b.toNat / 16), upperHex (b.toNat % 16)]

def encodeChar (c : Char) : List Char :=
  if isUnreserved c then [c]
  else if c = ' ' then ['+']
  else (Utf8.encode c).flatMap encodeOctet

def encodeText (s : List Char) : List Char := s.flatMap encodeChar

def encodePair (p : String × String) : List Char :=
  encodeText p.1.toList ++ '=' :: encodeText p.2.toList

def encode (pairs : List (String × String)) : String :=
  String.ofList (['&'].intercalate (pairs.map encodePair))

def hexValue? (c : Char) : Option Nat :=
  if c.isDigit then some (c.toNat - 0x30)
  else if 'a' ≤ c ∧ c ≤ 'f' then some (c.toNat - 0x57)
  else if 'A' ≤ c ∧ c ≤ 'F' then some (c.toNat - 0x37)
  else none

theorem hexValue?_upperHex {n : Nat} (h : n < 16) : hexValue? (upperHex n) = some n := by
  have all : ∀ k : Fin 16, hexValue? (upperHex k) = some k.val := by decide
  exact all ⟨n, h⟩

/-- A character below U+0080 counts as its octet, any other one is known as it stands. -/
def plainPiece (c : Char) : Utf8.Piece :=
  if c = '+' then .octet 0x20
  else if c.toNat < 0x80 then .octet (UInt8.ofNat c.toNat)
  else .known c

def pieces : List Char → List Utf8.Piece
  | [] => []
  | '%' :: a :: b :: r =>
    match hexValue? a, hexValue? b with
    | some x, some y => .octet (UInt8.ofNat (16 * x + y)) :: pieces r
    | _, _ => .octet 0x25 :: pieces (a :: b :: r)
  | c :: r => plainPiece c :: pieces r

def decodeText (s : List Char) : List Char := Utf8.decode (pieces s)

example : decodeText "a%20b+c%2".toList = "a b c%2".toList := by decide
example : decodeText "%C3%A9%c3".toList = [Char.ofNat 0xE9, Utf8.replacement] := by decide

def decodePair? (keepBlank : Bool) (piece : List Char) : Option (String × String) :=
  let value := (cut '=' piece).2.getD []
  if piece.isEmpty || (value.isEmpty && !keepBlank) then none
  else some (String.ofList (decodeText (cut '=' piece).1), String.ofList (decodeText value))

def decode (keepBlank : Bool) (s : String) : List (String × String) :=
  (splitOn '&' s.toList).filterMap (decodePair? keepBlank)

end Listing.Form
