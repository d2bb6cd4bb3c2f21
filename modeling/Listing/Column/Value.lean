import Listing.Column
import Listing.Number.Integer
import Listing.Text.Blank

/-! Texts as values of a column's type.
Blanks around a text do not count, except for types that take texts as they are. A text that is no
value of the type is rejected by name of its field. Values that are no texts are left alone. -/
namespace Listing
open Listing.Text Listing.Number Listing.Calendar

namespace ColumnType

def trueWords : List String := ["1", "true", "yes", "y", "on"]
def falseWords : List String := ["0", "false", "no", "n", "off"]

/-- A word for a truth value, in letters of any case. No letter outside ASCII has a lower-case form
that occurs in one of the words. -/
def truthOf? (s : List Char) : Option Bool :=
  let word := String.ofList (s.map Char.toLower)
  if trueWords.contains word then some true
  else if falseWords.contains word then some false
  else none

def memberOf? (members : List (String × String)) (s : String) : Option String :=
  (members.find? fun m => m.2 == s || m.1 == s).map (·.1)

/-- A text of ten characters without a time is a date; `Z` stands for the offset of zero. -/
def momentOf? (s : List Char) : Option DateTime :=
  if s.length = 10 ∧ 'T' ∉ s ∧ ' ' ∉ s then (Date.read? s).map .midnight
  else DateTime.read? (replace ['Z'] "+00:00".toList s)

def dateOf? (s : List Char) : Option Date :=
  if 'T' ∈ s ∨ ' ' ∈ s then (momentOf? s).map (·.date) else Date.read? s

def reader? : ColumnType → Option (String × (List Char → Option Scalar))
  | .integer => some ("integer", fun s => (Integer.read? s).map .int)
  | .float => some ("number", fun s => (Binary64.read? s).map .float)
  | .decimal => some ("decimal", fun s => (Decimal.read? s).map .decimal)
  | .date => some ("date", fun s => (dateOf? s).map .date)
  | .datetime => some ("datetime", fun s => (momentOf? s).map .datetime)
  | .uuid => some ("UUID", fun s => (Uuid.read? s).map .uuid)
  | _ => none

/-- For truth values and members of enumerations the message shows the text without blanks around
it, for all else the text as it was given. -/
def readText (type : ColumnType) (field s : String) : Except Rejection Scalar :=
  let body := trim s.toList
  match type with
  | .boolean =>
    match truthOf? body with
    | some b => .ok (.bool b)
    | none => .error (.badValue field "boolean" (strip s))
  | .enumeration name members =>
    match memberOf? members (strip s) with
    | some m => .ok (.member name m)
    | none => .error (.badValue field name (strip s))
  | type =>
    match reader? type with
    | none => .ok (.text s)
    | some (kind, read) =>
      if body.isEmpty then .error (.badValue field kind s)
      else
        match read body with
        | some v => .ok v
        | none => .error (.badValue field kind s)

def readScalar (type : ColumnType) (field : String) : Scalar → Except Rejection Scalar
  | .text s => type.readText field s
  | v => .ok v

def readOperand (type : ColumnType) (field : String) : Operand → Except Rejection Operand
  | .one v => (type.readScalar field v).map .one
  | .many vs => (vs.mapM (type.readScalar field)).map .many

end ColumnType
end Listing
