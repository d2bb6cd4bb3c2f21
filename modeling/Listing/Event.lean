import Listing.Order
import Listing.Parameter.Value

/-! What a reader of the log is told while a request is worked on. -/
namespace Listing
open Listing.Text Listing.Number Listing.Parameter

inductive Level
  | debug
  | info
  | warning
  deriving DecidableEq, Repr

inductive Event
  | malformedKey (key : String)
  | unknownOperator (name field : String)
  | missingOperator (field : Key)
  | nestedTooDeep (field operator : Key)
  | unknownSortField (field fallback : String)
  | fieldsRejected (fields : List String)
  | planned (conditions : Nat) (order : FieldOrder) (limit : Option Int) (offset : Int)
  | listed (model : String) (rows : Nat) (total : Int)
  | requestRejected (path message : String)
  deriving DecidableEq, Repr

namespace Event

def level : Event → Level
  | fieldsRejected _ => .warning
  | listed .. | requestRejected .. => .info
  | _ => .debug

def limitText : Option Int → String
  | some n => intText n
  | none => nullText

def message : Event → String
  | malformedKey key => "Ignoring malformed filter key " ++ quoted key
  | unknownOperator name field =>
    "Ignoring unknown filter operator " ++ quoted name ++ " on " ++ quoted field
  | missingOperator field => "Ignoring filter " ++ field.shown ++ " without an operator"
  | nestedTooDeep field operator =>
    "Ignoring filter " ++ field.shown ++ " operator " ++ operator.shown ++ " nested too deep"
  | unknownSortField field fallback =>
    "Unknown sort field " ++ quoted field ++ ", falling back to " ++ quoted fallback
  | fieldsRejected fields => "Rejected list query filtering on " ++ ", ".intercalate fields
  | planned n order limit offset =>
    "Built list query: " ++ natText n ++ " condition(s), sort=" ++ order.field ++ " " ++
      order.direction.name ++ ", limit=" ++ limitText limit ++ ", offset=" ++ intText offset
  | listed model rows total =>
    "Listed " ++ model ++ ": " ++ natText rows ++ " of " ++ intText total ++ " row(s)"
  | requestRejected path message => "Rejected list query on " ++ path ++ ": " ++ message

end Event
end Listing
