import Listing.Number.Shortest
import Listing.Text.Quoted

/-! Values that request parameters may hold, and their texts.
A caller that has already decoded its request may hand over numbers, lists and mappings as well as
texts. `Value.plain` is what such a value counts as where a text is expected; inside a list or a
mapping a text is shown in quotes. -/
namespace Listing.Parameter
open Listing.Text Listing.Number

inductive Key
  | text (s : String)
  | int (n : Int)
  | bool (b : Bool)
  | null
  deriving DecidableEq, Repr

inductive Value
  | null
  | bool (b : Bool)
  | int (n : Int)
  | float (x : Binary64)
  | text (s : String)
  | list (items : List Value)
  | tuple (items : List Value)
  | mapping (entries : List (Key × Value))
  deriving Repr

def nullText : String := "None"
def boolText (b : Bool) : String := if b then "True" else "False"

namespace Key

/-- A truth value is the same key as the number 1 or 0. -/
def number? : Key → Option Int
  | .int n => some n
  | .bool b => some (if b then 1 else 0)
  | _ => none

def same (a b : Key) : Bool :=
  match a.number?, b.number? with
  | some x, some y => x == y
  | _, _ => a == b

theorem same_text (s : String) (k : Key) : (Key.text s).same k = true ↔ k = .text s := by
  simp only [same, number?, beq_iff_eq]
  exact eq_comm

def plain : Key → String
  | .text s => s
  | .int n => intText n
  | .bool b => boolText b
  | .null => nullText

def shown : Key → String
  | .text s => quoted s
  | k => k.plain

end Key

/-- Puts an entry into a mapping: a key that is there keeps its place and takes the value. -/
def insertEntry {α : Type} (k : Key) (v : α) : List (Key × α) → List (Key × α)
  | [] => [(k, v)]
  | (k', v') :: r => if k'.same k then (k', v) :: r else (k', v') :: insertEntry k v r

def ofPairs {α : Type} (pairs : List (Key × α)) : List (Key × α) :=
  pairs.foldl (fun entries p => insertEntry p.1 p.2 entries) []

namespace Value

def tupleText : List String → String
  | [] => "()"
  | [item] => "(" ++ item ++ ",)"
  | items => "(" ++ ", ".intercalate items ++ ")"

mutual

def shown : Value → String
  | .null => nullText
  | .bool b => boolText b
  | .int n => intText n
  | .float x => x.text
  | .text s => quoted s
  | .list items => "[" ++ ", ".intercalate (shownAll items) ++ "]"
  | .tuple items => tupleText (shownAll items)
  | .mapping entries => "\x7b" ++ ", ".intercalate (shownEntries entries) ++ "\x7d"

def shownAll : List Value → List String
  | [] => []
  | v :: r => v.shown :: shownAll r

def shownEntries : List (Key × Value) → List String
  | [] => []
  | (k, v) :: r => (k.shown ++ ": " ++ v.shown) :: shownEntries r

end

def plain : Value → String
  | .text s => s
  | v => v.shown

def kind : Value → String
  | .null => "NoneType"
  | .bool _ => "bool"
  | .int _ => "int"
  | .float _ => "float"
  | .text _ => "str"
  | .list _ => "list"
  | .tuple _ => "tuple"
  | .mapping _ => "dict"

def lastItem : Value → Value
  | .list items => items.getLast?.getD (.text "")
  | .tuple items => items.getLast?.getD (.text "")
  | v => v

@[simp] theorem plain_text (s : String) : (Value.text s).plain = s := rfl
@[simp] theorem lastItem_text (s : String) : (Value.text s).lastItem = .text s := rfl

end Value
end Listing.Parameter
