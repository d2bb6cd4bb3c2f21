import Listing.Rejection

/-! Reports as the body of an answer: JSON without spaces, members in a fixed order, suggestions only
if there are any. -/
namespace Listing.Report
open Listing.Text

/-- Quotes and backslashes are escaped, controls by name or by code; all else stands for itself. -/
def escapeChar (c : Char) : List Char :=
  if c = '\x22' || c = '\x5c' then ['\x5c', c]
  else if c = '\x08' then ['\x5c', 'b']
  else if c = '\x0c' then ['\x5c', 'f']
  else if c = '\n' then ['\x5c', 'n']
  else if c = '\r' then ['\x5c', 'r']
  else if c = '\t' then ['\x5c', 't']
  else if c.toNat < 0x20 then '\x5c' :: 'u' :: Quoted.hex 4 c.toNat
  else [c]

def jsonText (s : String) : String :=
  String.ofList ('\x22' :: s.toList.flatMap escapeChar ++ ['\x22'])

def jsonList (items : List String) : String := "[" ++ ",".intercalate items ++ "]"

def jsonObject (members : List (String × String)) : String :=
  "\x7b" ++ ",".intercalate (members.map fun m => jsonText m.1 ++ ":" ++ m.2) ++ "\x7d"

def jsonNames (names : List (String × List String)) : String :=
  jsonObject (names.map fun n => (n.1, jsonList (n.2.map jsonText)))

def json (r : Report) : String :=
  jsonObject ([("error", jsonText code), ("message", jsonText r.message),
    ("details", jsonNames r.details)] ++
      if r.suggestions.isEmpty then [] else [("suggestions", jsonNames r.suggestions)])

end Listing.Report
