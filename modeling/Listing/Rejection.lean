import Listing.Operator
import Listing.Text.Quoted
import Listing.Text.Similarity

/-! Why a request is turned down, and what its sender is told.
A `Rejection` is a cause. Its `report` has a message, the messages of each offending field in order,
and names that the sender may have meant. -/
namespace Listing
open Listing.Text

inductive Rejection
  | unknownFields (fields allowed : List String)
  | operatorRefused (fields : List String) (operator : String) (allowed : List String)
  /-- A list of values without any. -/
  | noMember (field : String)
  /-- A list of values for an operator that takes one. -/
  | severalValues (field : String) (operator : Operator)
  | notAffirmed (field : String) (operator : Operator)
  | unsupported (field : String) (operator : Operator)
  | badValue (field kind text : String)
  deriving DecidableEq, Repr

structure Report where
  message : String
  details : List (String × List String)
  suggestions : List (String × List String) := []
  deriving DecidableEq, Repr

namespace Report

/-- The name that stands for the request as a whole. -/
def root : String := "__root__"

def defaultMessage : String := "Invalid query"

def firstMessage? (details : List (String × List String)) : Option String :=
  (details.flatMap (·.2)).head?

/-- The message is the given one, else the first of the details, else a general one; an empty text
is no message. -/
def headline (given : String) (details : List (String × List String)) : String :=
  if given ≠ "" then given
  else
    match firstMessage? details with
    | some m => if m ≠ "" then m else defaultMessage
    | none => defaultMessage

def ofDetails (details : List (String × List String)) (given : String) : Report :=
  ⟨headline given details, details, []⟩

def ofField (field message : String) : Report := ofDetails [(field, [message])] ""

def fields (r : Report) : List String := (r.details.map (·.1)).filter (· != root)

/-- Adds a message under a field, at the field's place if it has one. -/
def addMessage (field message : String) :
    List (String × List String) → List (String × List String)
  | [] => [(field, [message])]
  | (f, ms) :: r =>
    if f = field then (f, ms ++ [message]) :: r else (f, ms) :: addMessage field message r

def status : Nat := 400
def code : String := "VALIDATION_ERROR"

end Report

namespace Rejection

/-- By code point. -/
def sorted (names : List String) : List String := names.mergeSort fun a b => a ≤ b

theorem mem_sorted {x : String} {names : List String} : x ∈ sorted names ↔ x ∈ names :=
  List.mem_mergeSort

def suggestionsFor (allowed : List String) (field : String) : List String :=
  Similarity.closest field (sorted allowed)

def unknownMessage (allowed : List String) (field : String) : String :=
  let known := "Field " ++ quoted field ++ " is not filterable"
  match suggestionsFor allowed field with
  | [] => known
  | close => known ++ ". Did you mean: " ++ ", ".intercalate close ++ "?"

def refusedMessage (operator field : String) : String :=
  "Operator " ++ quoted operator ++ " is not allowed for field " ++ quoted field

def detailsOf (message : String → String) (fields : List String) : List (String × List String) :=
  fields.foldl (fun details f => Report.addMessage f (message f) details) []

def field? : Rejection → Option String
  | .noMember f | .severalValues f _ | .notAffirmed f _ | .unsupported f _ | .badValue f _ _ =>
    some f
  | .unknownFields .. | .operatorRefused .. => none

def valueMessage : Rejection → String
  | .unknownFields .. | .operatorRefused .. => ""
  | .noMember f => "Filter 'in' on " ++ quoted f ++ " needs at least one value"
  | .severalValues f o =>
    "Filter " ++ quoted o.name ++ " on " ++ quoted f ++ " takes a single value"
  | .notAffirmed f o =>
    "Filter " ++ quoted o.name ++ " on " ++ quoted f ++ " only accepts " ++ quoted "true"
  | .unsupported _ o => "Unsupported filter operator " ++ quoted o.name
  | .badValue f kind text =>
    "Invalid " ++ kind ++ " value " ++ quoted text ++ " for filter field " ++ quoted f

def report : Rejection → Report
  | .unknownFields fields allowed =>
    let details := detailsOf (unknownMessage allowed) fields
    let close := fields.eraseDups.map fun f => (f, suggestionsFor allowed f)
    ⟨Report.headline "" details, details, close.filter fun s => !s.2.isEmpty⟩
  | .operatorRefused fields operator _ =>
    Report.ofDetails (detailsOf (refusedMessage operator) fields) ""
  | r => Report.ofDetails [(r.field?.getD "", [r.valueMessage])] ""

def message (r : Rejection) : String := r.report.message

end Rejection
end Listing
