/-! What a filter asks of a field, and what a store is asked for.
An `Operator` stands in a request; a `Relation` is what is left of it for the store, where the three
ways of asking for a part of a text have become patterns. -/
namespace Listing

inductive Operator
  | eq
  | ne
  | like
  | contains
  | startsWith
  | endsWith
  | oneOf
  | gt
  | gte
  | lt
  | lte
  | isNull
  | notNull
  /-- An operator that a caller made up; no request can name it. -/
  | custom (name : String)
  deriving DecidableEq, Repr

namespace Operator

def name : Operator → String
  | eq => "eq"
  | ne => "ne"
  | like => "like"
  | contains => "contains"
  | startsWith => "startsWith"
  | endsWith => "endsWith"
  | oneOf => "in"
  | gt => "gt"
  | gte => "gte"
  | lt => "lt"
  | lte => "lte"
  | isNull => "isNull"
  | notNull => "notNull"
  | custom name => name

def all : List Operator :=
  [eq, ne, like, contains, startsWith, endsWith, oneOf, gt, gte, lt, lte, isNull, notNull]

def ofName? (s : String) : Option Operator := all.find? fun o => o.name == s

def ofName (s : String) : Operator := (ofName? s).getD (custom s)

theorem ofName?_name {o : Operator} (h : o ∈ all) : ofName? o.name = some o := by
  simp only [all, List.mem_cons, List.not_mem_nil, or_false] at h
  rcases h with rfl | rfl | rfl | rfl | rfl | rfl | rfl | rfl | rfl | rfl | rfl | rfl | rfl <;>
    decide

theorem ofName?_eq_some {s : String} {o : Operator} (h : ofName? s = some o) :
    o ∈ all ∧ o.name = s :=
  ⟨List.mem_of_find?_eq_some h, by simpa using List.find?_some h⟩

def isList : Operator → Bool | oneOf => true | _ => false

def isNullCheck : Operator → Bool | isNull | notNull => true | _ => false

def isPattern : Operator → Bool | like | contains | startsWith | endsWith => true | _ => false

end Operator

inductive Relation
  | eq
  | ne
  | like
  | oneOf
  | gt
  | gte
  | lt
  | lte
  | isNull
  | isNotNull
  deriving DecidableEq, Repr

namespace Relation

def name : Relation → String
  | eq => "eq"
  | ne => "ne"
  | like => "like"
  | oneOf => "in"
  | gt => "gt"
  | gte => "gte"
  | lt => "lt"
  | lte => "lte"
  | isNull => "is_null"
  | isNotNull => "is_not_null"

def all : List Relation := [eq, ne, like, oneOf, gt, gte, lt, lte, isNull, isNotNull]

def ofName? (s : String) : Option Relation := all.find? fun r => r.name == s

end Relation
end Listing
