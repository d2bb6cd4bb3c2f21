import Listing.Number.Digits
import Listing.Rejection

/-! Everything that can go wrong, by cause.
A rejection is the sender's doing and has a report of its own. The other causes are the caller's:
parameters that are none, settings that contradict themselves, totals and page sizes without a
meaning, conditions that the store has no clause for. -/
namespace Listing
open Listing.Text Listing.Number

inductive Fault
  | rejected (r : Rejection)
  | notAMapping (kind : String)
  | openGrammar
  | defaultPageTooSmall
  | maxPerPageTooSmall
  | defaultPerPageOutside (maxPerPage : Int)
  | emptyFilterKey
  | defaultSortNotSortable (field : String)
  | restrictionsNotFilterable (fields : List String)
  | negativeTotal (total : Int)
  | zeroPerPage
  | quotientTooLarge
  | unsupportedRelation (r : Relation)
  | constantNotOrdered
  | notIterable (kind : String)
  | missingColumn (model name : String)
  | integerTooWide
  deriving DecidableEq, Repr

namespace Fault

def relationLabel (r : Relation) : String :=
  String.ofList ("ConditionOp.".toList ++ r.name.toList.map Char.toUpper)

def message : Fault → String
  | rejected r => r.message
  | notAMapping kind => "query_params must be a mapping, got " ++ kind
  | openGrammar => ""
  | defaultPageTooSmall => "default_page must be >= 1"
  | maxPerPageTooSmall => "max_per_page must be >= 1"
  | defaultPerPageOutside most => "default_per_page must be between 1 and " ++ intText most
  | emptyFilterKey => "filter_key must not be empty"
  | defaultSortNotSortable field =>
    "Default sort field " ++ quoted field ++ " is not a sortable field"
  | restrictionsNotFilterable fields =>
    "Operator restrictions given for non-filterable fields: " ++ quotedList fields
  | negativeTotal total => "total must be >= 0, got " ++ intText total
  | zeroPerPage => "division by zero"
  | quotientTooLarge => "integer division result too large for a float"
  | unsupportedRelation r => "Unsupported operator for SQLAlchemy: " ++ relationLabel r
  | constantNotOrdered =>
    "Only '=', '!=', 'is_()', 'is_not()', 'is_distinct_from()', 'is_not_distinct_from()' " ++
      "operators can be used with None/True/False"
  | notIterable kind => "'" ++ kind ++ "' object is not iterable"
  | missingColumn model name =>
    "Model " ++ model ++ " has no attribute " ++ quoted name
  | integerTooWide => "Python int too large to convert to SQLite INTEGER"

end Fault
end Listing
