import Mathlib
import Listing.Store.Statement

/-! What statements bind.
A statement binds what its clauses bind, in their order, and after that the two numbers of its
window. It can be carried out on a table exactly if all of this can be bound. -/
namespace Listing

def Operand.scalars : Operand → List Scalar
  | .one v => [v]
  | .many vs => vs

namespace Store

theorem Cell.fits_iff {n : Int} :
    fits n = true ↔ -0x8000000000000000 ≤ n ∧ n < 0x8000000000000000 := by
  rw [fits, Bool.and_eq_true, decide_eq_true_eq, decide_eq_true_eq]

def Clause.Bindable (k : Clause) : Prop :=
  ∀ v ∈ k.bound?, ∀ x ∈ v.scalars, Statement.fits x = true

instance (k : Clause) : Decidable k.Bindable :=
  inferInstanceAs (Decidable (∀ v ∈ k.bound?, ∀ x ∈ v.scalars, Statement.fits x = true))

theorem bindings_renderClauses (used : List String) (ks : List Clause) :
    (renderClauses used ks).2.map (·.2) = ks.filterMap Clause.bound? := by
  induction ks generalizing used with
  | nil => rfl
  | cons k r ih =>
    rw [renderClauses]
    cases hk : k.bound? with
    | none => rw [List.filterMap_cons_none hk, ← ih used]
    | some v => rw [List.filterMap_cons_some hk, ← ih (k.column.name :: used), List.map_cons]

namespace Statement

theorem boundScalars_eq (s : Statement) :
    s.boundScalars = (s.render.bindings.map (·.2)).flatMap Operand.scalars := by
  rw [boundScalars, List.flatMap_map]
  exact List.flatMap_congr fun b _ => by cases b.2 <;> rfl

theorem check_eq_ok {s : Statement} : s.check = .ok () ↔ ∀ x ∈ s.boundScalars, fits x = true := by
  rw [check, ← List.all_eq_true]
  cases s.boundScalars.all fits <;> simp

theorem all_fits_iff {ks : List Clause} {used : List String} :
    (∀ x ∈ ((renderClauses used ks).2.map (·.2)).flatMap Operand.scalars, fits x = true) ↔
      ∀ k ∈ ks, k.Bindable := by
  rw [bindings_renderClauses]
  simp only [List.mem_flatMap, List.mem_filterMap, Clause.Bindable, Option.mem_def]
  constructor
  · intro h k hk v hv x hx
    exact h x ⟨v, ⟨k, hk, hv⟩, hx⟩
  · intro h x hx
    obtain ⟨v, ⟨k, hk, hv⟩, hx⟩ := hx
    exact h k hk v hv x hx

section
variable {q : Option Predicate}

theorem bindings_whereSql (used : List String) (q : Option Predicate) :
    (whereSql used q).bindings = (renderClauses used (Predicate.clausesOf q)).2 := by
  cases q <;> rfl

theorem bindings_count (table : String) (q : Option Predicate) :
    (count table q).render.bindings = (renderClauses ["count"] (Predicate.clausesOf q)).2 :=
  bindings_whereSql _ _

theorem bindings_rows (model : Model) (q : Option Predicate) (column : Column) (d : Direction)
    (w : Option Window) :
    (rows model q column d w).render.bindings =
      (renderClauses [] (Predicate.clausesOf q)).2 ++
        windowBindings (windowNames (usedBy [] (Predicate.clausesOf q))) w := by
  rw [← bindings_whereSql]
  rfl

theorem check_count {table : String} :
    (count table q).check = .ok () ↔ ∀ k ∈ Predicate.clausesOf q, k.Bindable := by
  rw [check_eq_ok, boundScalars_eq, bindings_count, all_fits_iff]

theorem check_rows {model : Model} {column : Column} {d : Direction} {w : Option Window} :
    (rows model q column d w).check = .ok () ↔
      (∀ k ∈ Predicate.clausesOf q, k.Bindable) ∧
        ∀ v ∈ w, Cell.fits v.limit = true ∧ Cell.fits v.offset = true := by
  rw [check_eq_ok, boundScalars_eq, bindings_rows, List.map_append, List.flatMap_append,
    List.forall_mem_append, all_fits_iff]
  refine and_congr_right fun _ => ?_
  cases w <;> simp [windowBindings, Operand.scalars, fits]

end

end Statement

end Store
end Listing
