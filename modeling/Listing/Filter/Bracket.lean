/-! Parameter names that state a filter: a filter key, a field in brackets and an operator in
brackets. Neither field nor operator is empty or has a bracket in it. One line feed may stand at the
end. -/
namespace Listing.Bracket

def isBracket (c : Char) : Bool := c == '[' || c == ']'

def label? : List Char → Option (List Char × List Char)
  | '[' :: r =>
    let name := r.takeWhile fun c => !isBracket c
    match r.dropWhile fun c => !isBracket c with
    | ']' :: rest => if name.isEmpty then none else some (name, rest)
    | _ => none
  | _ => none

def after? : List Char → List Char → Option (List Char)
  | [], s => some s
  | _ :: _, [] => none
  | k :: ks, c :: r => if k = c then after? ks r else none

theorem after?_append (k r : List Char) : after? k (k ++ r) = some r := by
  induction k with
  | nil => rfl
  | cons c k ih => rw [List.cons_append, after?, if_pos rfl, ih]

theorem eq_append_of_after? {k s r : List Char} (h : after? k s = some r) : s = k ++ r := by
  induction k generalizing s with
  | nil => cases h; rfl
  | cons c k ih =>
    cases s with
    | nil => cases h
    | cons d s =>
      rw [after?] at h
      split at h
      case isTrue hc => rw [hc, List.cons_append, ih h]
      case isFalse => cases h

def isEnd (s : List Char) : Bool := s == [] || s == ['\n']

def parts? (filterKey name : String) : Option (String × String) := do
  let r ← after? filterKey.toList name.toList
  let (field, r) ← label? r
  let (operator, r) ← label? r
  if isEnd r then some (String.ofList field, String.ofList operator) else none

def name (filterKey field operator : String) : String :=
  filterKey ++ "[" ++ field ++ "][" ++ operator ++ "]"

example : parts? "filter" "filter[role][eq]" = some ("role", "eq") := by decide
example : parts? "filter" "filter[role][eq]\n" = some ("role", "eq") := by decide
example : parts? "filter" "filter[][eq]" = none := by decide
example : parts? "filter" "filter[a][b][c]" = none := by decide

end Listing.Bracket
