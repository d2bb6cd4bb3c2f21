import Listing.Event
import Listing.Filter
import Listing.Filter.Bracket

/-! Filters in request parameters.
Each parameter gives readings: a filter that is asked for, or something that looks like one and is
passed over with a note. Filters may also come nested under the filter key, as a mapping of fields to
mappings of operators. The first filter without a usable value ends the work. -/
namespace Listing
open Listing.Text Listing.Parameter

inductive Reading
  | asked (field : String) (operator : Operator) (raw : Value)
  | ignored (e : Event)
  deriving Repr

namespace Reading

def ofName (field name : String) (raw : Value) : Reading :=
  match Operator.ofName? name with
  | some o => asked field o raw
  | none => ignored (.unknownOperator name field)

def operatorNotes (field : Key) : List (Key × Value) → List Reading
  | [] => []
  | (o, .mapping _) :: r => ignored (.nestedTooDeep field o) :: operatorNotes field r
  | _ :: r => operatorNotes field r

def operatorReadings (field : Key) : List (Key × Value) → List Reading
  | [] => []
  | (_, .mapping _) :: r => operatorReadings field r
  | (o, v) :: r => ofName field.plain o.plain v :: operatorReadings field r

def fieldNotes : Key × Value → List Reading
  | (field, .mapping operators) => operatorNotes field operators
  | (field, _) => [ignored (.missingOperator field)]

def fieldReadings : Key × Value → List Reading
  | (field, .mapping operators) => operatorReadings field operators
  | _ => []

/-- The notes on a nested mapping come before its filters. -/
def ofNested (fields : List (Key × Value)) : List Reading :=
  fields.flatMap fieldNotes ++ fields.flatMap fieldReadings

def ofFlat (filterKey key : String) (v : Value) : List Reading :=
  match Bracket.parts? filterKey key with
  | some (field, name) => [ofName field name v]
  | none =>
    if filterKey.toList.isPrefixOf key.toList then [ignored (.malformedKey key)] else []

def ofEntry (filterKey : String) : Entry → List Reading
  | (key, .mapping fields) =>
    if key = filterKey then ofNested fields else ofFlat filterKey key (.mapping fields)
  | (key, v) => ofFlat filterKey key v

def ofEntries (filterKey : String) (entries : List Entry) : List Reading :=
  entries.flatMap (ofEntry filterKey)

end Reading

namespace FilterValue

def scalarText : Value → String
  | .null => ""
  | v => v.plain

/-- The text of a raw value; of several values a list takes all, any other operator the last. -/
def rawText (o : Operator) : Value → String
  | .list items | .tuple items =>
    if o.isList then ",".intercalate (items.map Value.plain)
    else scalarText (items.getLast?.getD (.text ""))
  | v => scalarText v

def itemsOf (s : String) : List String :=
  (((splitOn ',' s.toList).map trim).filter fun item => !item.isEmpty).map String.ofList

def ofRaw (field : String) (o : Operator) (raw : Value) : Except Rejection FilterValue :=
  if o.isList then
    match itemsOf (rawText o raw) with
    | [] => .error (.noMember field)
    | items => .ok (members items)
  else .ok (single (rawText o raw))

end FilterValue

namespace Filter

def ofReadings : List Reading → Except Rejection (List Filter)
  | [] => .ok []
  | .ignored _ :: r => ofReadings r
  | .asked field o raw :: r =>
    match FilterValue.ofRaw field o raw with
    | .error e => .error e
    | .ok v => (ofReadings r).map (⟨field, o, v⟩ :: ·)

def ofEntries (filterKey : String) (entries : List Entry) : Except Rejection (List Filter) :=
  ofReadings (Reading.ofEntries filterKey entries)

def notes : List Reading → List Event
  | [] => []
  | .ignored e :: r => e :: notes r
  | .asked field o raw :: r =>
    match FilterValue.ofRaw field o raw with
    | .error _ => []
    | .ok _ => notes r

end Filter

inductive Grammar
  | unspecified
  | bracket (filterKey : String)
  deriving DecidableEq, Repr

def Grammar.read : Grammar → Source → Except Fault (List Filter)
  | unspecified, _ => .error .openGrammar
  | bracket key, s => do
    let entries ← s.entries
    (Filter.ofEntries key entries).mapError Fault.rejected

end Listing
