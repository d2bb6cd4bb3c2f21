import Listing.Store.Clause

/-! Predicates: clauses that a row has to satisfy together.
A predicate is a clause or a conjunction of several. Conjunctions are flat: one that is taken into
another hands over its clauses. Where nothing is asked for there is no predicate at all, and what is
optional stays so until a statement is written. -/
namespace Listing.Store

structure Predicate where
  first : Clause
  rest : List Clause
  deriving DecidableEq

namespace Predicate

def ofClause (k : Clause) : Predicate := ⟨k, []⟩

def clauses (q : Predicate) : List Clause := q.first :: q.rest

def conj (q : Predicate) (r : List Predicate) : Predicate := ⟨q.first, q.rest ++ r.flatMap clauses⟩

/-- Nothing for no predicate, one as it is, and several as a conjunction. -/
def conjunction : List Predicate → Option Predicate
  | [] => none
  | [q] => some q
  | q :: r => some (q.conj r)

def combine (qs : List (Option Predicate)) : Option Predicate := conjunction (qs.filterMap id)

def ofClauses (ks : List Clause) : Option Predicate := conjunction (ks.map ofClause)

def clausesOf : Option Predicate → List Clause
  | none => []
  | some q => q.clauses

@[simp] theorem clausesOf_eq_nil_iff {q : Option Predicate} : clausesOf q = [] ↔ q = none := by
  cases q <;> simp [clausesOf, clauses]

theorem clausesOf_conjunction (qs : List Predicate) :
    clausesOf (conjunction qs) = qs.flatMap clauses := by
  match qs with
  | [] => rfl
  | [q] => simp [conjunction, clausesOf]
  | q :: s :: r => simp [conjunction, clausesOf, conj, clauses]

theorem clausesOf_combine (qs : List (Option Predicate)) :
    clausesOf (combine qs) = qs.flatMap clausesOf := by
  rw [combine, clausesOf_conjunction]
  induction qs with
  | nil => rfl
  | cons q r ih =>
    cases q with
    | none =>
      rw [List.filterMap_cons_none rfl, ih]
      rfl
    | some q =>
      have hcons : (some q :: r).filterMap id = q :: r.filterMap id := rfl
      rw [hcons, List.flatMap_cons, List.flatMap_cons, ih]
      rfl

@[simp] theorem clausesOf_ofClauses (ks : List Clause) : clausesOf (ofClauses ks) = ks := by
  simp [ofClauses, clausesOf_conjunction, List.flatMap_map, ofClause, clauses]

@[simp] theorem ofClauses_eq_none_iff {ks : List Clause} : ofClauses ks = none ↔ ks = [] := by
  rw [← clausesOf_eq_nil_iff, clausesOf_ofClauses]

theorem ext_clausesOf {q q' : Option Predicate} (h : clausesOf q = clausesOf q') : q = q' := by
  match q, q' with
  | none, none => rfl
  | none, some _ => cases h
  | some _, none => cases h
  | some ⟨first, rest⟩, some ⟨first', rest'⟩ =>
    cases h
    rfl

/-- Clauses that are combined with a conjunction go before its clauses, on one level with them. -/
theorem combine_ofClauses (base ks : List Clause) :
    combine (base.map (some ∘ ofClause) ++ [ofClauses ks]) = ofClauses (base ++ ks) := by
  apply ext_clausesOf
  rw [clausesOf_combine, List.flatMap_append, List.flatMap_map, List.flatMap_singleton,
    clausesOf_ofClauses, clausesOf_ofClauses]
  simp [clausesOf, ofClause, clauses]

end Predicate
end Listing.Store
