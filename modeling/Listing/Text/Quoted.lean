import Listing.Text.Printable

/-! A text between quotes, as messages show it.
The quotes are single, or double when the text has a single quote and no double one. The quote in
use, the backslash, tab, line feed and carriage return are escaped by a backslash; any other
unprintable character is written by its code in the shortest of two, four or eight hex digits. -/
namespace Listing.Text.Quoted

def hexDigit (n : Nat) : Char := Char.ofNat (if n < 10 then 0x30 + n else 0x57 + n)

def hex : Nat → Nat → List Char
  | 0, _ => []
  | width + 1, n => hex width (n / 16) ++ [hexDigit (n % 16)]

theorem hex_length (width n : Nat) : (hex width n).length = width := by
  induction width generalizing n with
  | zero => rfl
  | succ width ih => simp [hex, ih]

def backslash : Char := '\x5c'

def codeEscape (n : Nat) : List Char :=
  if n < 0x100 then backslash :: 'x' :: hex 2 n
  else if n < 0x10000 then backslash :: 'u' :: hex 4 n
  else backslash :: 'U' :: hex 8 n

def escape (mark c : Char) : List Char :=
  if c = mark || c = backslash then [backslash, c]
  else if c = '\t' then [backslash, 't']
  else if c = '\n' then [backslash, 'n']
  else if c = '\r' then [backslash, 'r']
  else if isPrintable c then [c]
  else codeEscape c.toNat

def mark (s : List Char) : Char :=
  if s.contains '\x27' && !s.contains '\x22' then '\x22' else '\x27'

def encode (s : List Char) : List Char :=
  mark s :: s.flatMap (escape (mark s)) ++ [mark s]

example : encode ['i', 't', '\x27', 's'] = ['\x22', 'i', 't', '\x27', 's', '\x22'] := by decide
example : encode ['a', '\n', '\x00'] =
    ['\x27', 'a', '\\', 'n', '\\', 'x', '0', '0', '\x27'] := by decide

end Listing.Text.Quoted

namespace Listing.Text

def quoted (s : String) : String := String.ofList (Quoted.encode s.toList)

def quotedList (parts : List String) : String :=
  "[" ++ ", ".intercalate (parts.map quoted) ++ "]"

end Listing.Text
