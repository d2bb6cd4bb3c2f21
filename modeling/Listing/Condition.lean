import Listing.Fault
import Listing.Filter
import Listing.Scalar
import Listing.Text.Blank

/-! Conditions: filters in the form that a store understands.
The operators that look for part of a text become patterns in which `%` stands for any text; a `%`
or `_` in the value keeps its meaning as a pattern character. Values stay texts here. -/
namespace Listing
open Listing.Text

structure Condition where
  field : String
  relation : Relation
  operand : Operand := .one .null
  deriving DecidableEq

namespace Condition

def scalarOf (f : Filter) : Except Rejection String :=
  match f.value with
  | .single s => .ok s
  | .members _ => .error (.severalValues f.field f.operator)

def membersOf (f : Filter) : Except Rejection (List String) :=
  let texts := match f.value with
    | .single s => [s]
    | .members ss => ss
  match texts.filter (· != "") with
  | [] => .error (.noMember f.field)
  | kept => .ok kept

def affirmed (f : Filter) : Bool :=
  match f.value with
  | .single s => trim s.toList == "true".toList
  | .members _ => false

def compared (f : Filter) (r : Relation) : Except Rejection Condition :=
  (scalarOf f).map fun s => ⟨f.field, r, .one (.text s)⟩

def pattern (f : Filter) (before after : String) : Except Rejection Condition :=
  (scalarOf f).map fun s => ⟨f.field, .like, .one (.text (before ++ s ++ after))⟩

def nullCheck (f : Filter) (r : Relation) : Except Rejection Condition :=
  if affirmed f then .ok ⟨f.field, r, .one .null⟩ else .error (.notAffirmed f.field f.operator)

def ofFilter (f : Filter) : Except Rejection Condition :=
  match f.operator with
  | .eq => compared f .eq
  | .ne => compared f .ne
  | .gt => compared f .gt
  | .gte => compared f .gte
  | .lt => compared f .lt
  | .lte => compared f .lte
  | .like => pattern f "" ""
  | .contains => pattern f "%" "%"
  | .startsWith => pattern f "" "%"
  | .endsWith => pattern f "%" ""
  | .oneOf => (membersOf f).map fun ss => ⟨f.field, .oneOf, .many (ss.map .text)⟩
  | .isNull => nullCheck f .isNull
  | .notNull => nullCheck f .isNotNull
  | .custom _ => .error (.unsupported f.field f.operator)

def ofFilters (filters : List Filter) : Except Rejection (List Condition) := filters.mapM ofFilter

theorem field_of_ofFilter {f : Filter} {c : Condition} (h : ofFilter f = .ok c) :
    c.field = f.field := by
  have hcompared (r : Relation) (h : compared f r = .ok c) : c.field = f.field := by
    unfold compared at h
    cases hs : scalarOf f <;> rw [hs] at h <;> cases h
    rfl
  have hpattern (a b : String) (h : pattern f a b = .ok c) : c.field = f.field := by
    unfold pattern at h
    cases hs : scalarOf f <;> rw [hs] at h <;> cases h
    rfl
  have hnull (r : Relation) (h : nullCheck f r = .ok c) : c.field = f.field := by
    unfold nullCheck at h
    split at h <;> cases h
    rfl
  unfold ofFilter at h
  split at h
  case h_11 =>
    cases hm : membersOf f <;> rw [hm] at h <;> cases h
    rfl
  case h_14 => cases h
  all_goals first | exact hcompared _ h | exact hpattern _ _ h | exact hnull _ h

end Condition
end Listing
