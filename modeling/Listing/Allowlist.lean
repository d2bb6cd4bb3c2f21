import Listing.Fault
import Listing.Filter
import Listing.Order
import Listing.Event

/-! What a resource may be sorted by and filtered on.
A sort field that is not allowed gives way to the default order; a filter field that is not allowed
turns the whole request down, since without it more rows would be shown than were asked for. -/
namespace Listing

structure Allowlist where
  sortFields : List String
  filterFields : List String
  defaultOrder : FieldOrder
  /-- Operators that a field admits; a field without an entry admits all. -/
  restrictions : List (String × List Operator) := []
  default_sortable : defaultOrder.field ∈ sortFields
  restrictions_filterable : ∀ r ∈ restrictions, r.1 ∈ filterFields
  deriving DecidableEq

namespace Allowlist

def notFilterable (filterFields : List String) (restrictions : List (String × List Operator)) :
    List String :=
  ((restrictions.map (·.1)).filter fun f => !filterFields.contains f).eraseDups

def of? (sortFields filterFields : List String) (defaultOrder : FieldOrder)
    (restrictions : List (String × List Operator)) : Except Fault Allowlist :=
  if hs : defaultOrder.field ∈ sortFields then
    if hr : ∀ r ∈ restrictions, r.1 ∈ filterFields then
      .ok ⟨sortFields, filterFields, defaultOrder, restrictions, hs, hr⟩
    else
      .error (.restrictionsNotFilterable
        (Rejection.sorted (notFilterable filterFields restrictions)))
  else .error (.defaultSortNotSortable defaultOrder.field)

def allowsFilter (w : Allowlist) (field : String) : Bool := w.filterFields.contains field
def allowsSort (w : Allowlist) (field : String) : Bool := w.sortFields.contains field

def restriction? (w : Allowlist) (field : String) : Option (List Operator) :=
  (w.restrictions.find? (·.1 == field)).map (·.2)

def admits (w : Allowlist) (f : Filter) : Bool :=
  match w.restriction? f.field with
  | some operators => operators.contains f.operator
  | none => true

def rejected (w : Allowlist) (filters : List Filter) : List String :=
  (filters.map (·.field)).filter fun f => !w.allowsFilter f

/-- Unknown fields are reported together, an operator that is not admitted by itself. -/
def check (w : Allowlist) (filters : List Filter) : Except Rejection Unit :=
  match w.rejected filters with
  | [] =>
    match filters.find? fun f => !w.admits f with
    | some f => .error (.operatorRefused [f.field] f.operator.name [])
    | none => .ok ()
  | fields => .error (.unknownFields fields.eraseDups w.filterFields.eraseDups)

def checkNotes (w : Allowlist) (filters : List Filter) : List Event :=
  match w.rejected filters with
  | [] => []
  | fields => [.fieldsRejected fields]

def resolve (w : Allowlist) (r : OrderRequest) : FieldOrder :=
  match r.field with
  | some f =>
    if w.allowsSort f then ⟨f, r.direction.getD .asc⟩
    else ⟨w.defaultOrder.field, r.direction.getD w.defaultOrder.direction⟩
  | none => ⟨w.defaultOrder.field, r.direction.getD w.defaultOrder.direction⟩

def resolveNotes (w : Allowlist) (r : OrderRequest) : List Event :=
  match r.field with
  | some f => if w.allowsSort f then [] else [.unknownSortField f w.defaultOrder.field]
  | none => []

theorem resolve_mem (w : Allowlist) (r : OrderRequest) : (w.resolve r).field ∈ w.sortFields := by
  unfold resolve
  split
  · split
    case isTrue h => exact List.contains_iff_mem.mp h
    case isFalse => exact w.default_sortable
  · exact w.default_sortable

theorem check_eq_ok {w : Allowlist} {filters : List Filter} :
    w.check filters = .ok () ↔ ∀ f ∈ filters, w.allowsFilter f.field = true ∧ w.admits f = true := by
  have key : w.rejected filters = [] ↔ ∀ f ∈ filters, w.allowsFilter f.field = true := by
    simp [rejected, List.filter_eq_nil_iff]
  unfold check
  split
  case h_1 h =>
    have hf := key.mp h
    split
    case h_1 f hfind =>
      simp only [reduceCtorEq, false_iff]
      intro all
      have := List.find?_some hfind
      simp [(all f (List.mem_of_find?_eq_some hfind)).2] at this
    case h_2 hfind =>
      rw [List.find?_eq_none] at hfind
      simp only [true_iff]
      exact fun f hm => ⟨hf f hm, by simpa using hfind f hm⟩
  case h_2 fields h =>
    simp only [reduceCtorEq, false_iff]
    intro all
    exact h (key.mpr fun f hm => (all f hm).1)

end Allowlist
end Listing
