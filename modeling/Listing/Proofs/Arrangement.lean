import Mathlib
import Listing.Proofs.Binding
import Listing.Store.Collection

/-! Tables in an order of their own.
A table may bring the rows that satisfy the clauses of a statement into any order, as long as it
does so in the same way for all statements with these clauses and this order. Carrying out both
statements of a plan on it then yields the number of these rows and the plan's stretch of them. -/
namespace Listing.Store

/-- The order of rows, told by the clauses, the column and the direction of a statement alone. -/
structure Arrangement where
  arrange : List Clause → Column → Direction → List Row → List Row
  perm : ∀ ks column d rows, (arrange ks column d rows).Perm rows

namespace Arrangement

theorem length_arrange (a : Arrangement) (ks : List Clause) (column : Column) (d : Direction)
    (rows : List Row) : (a.arrange ks column d rows).length = rows.length :=
  (a.perm ks column d rows).length_eq

def sorted : Arrangement where
  arrange _ := sortRows
  perm _ _ _ _ := List.mergeSort_perm _ _

def rowsIn (a : Arrangement) (table : List Row) : Statement → List Row
  | .count .. => []
  | .rows _ q column d w =>
    let ks := Predicate.clausesOf q
    Window.slice (a.arrange ks column d (table.filter (satisfies ks))) w

theorem rowsIn_sorted (table : List Row) (s : Statement) : sorted.rowsIn table s = s.rowsIn table := by
  cases s <;> rfl

end Arrangement

namespace Session

def arranged (a : Arrangement) (table : List Row) : Session Row where
  count s := s.check.map fun _ => (s.countIn table : Int)
  rows s := s.check.map fun _ => a.rowsIn table s

theorem ofTable_eq_arranged (table : List Row) : ofTable table = arranged .sorted table := by
  simp only [ofTable, arranged, Arrangement.rowsIn_sorted]

variable {s : Statement}

theorem count_arranged (a : Arrangement) (table : List Row) (h : s.check = .ok ()) :
    (arranged a table).count s = .ok (s.countIn table : Int) := by
  show s.check.map _ = _
  rw [h]
  rfl

theorem rows_arranged (a : Arrangement) (table : List Row) (h : s.check = .ok ()) :
    (arranged a table).rows s = .ok (a.rowsIn table s) := by
  show s.check.map _ = _
  rw [h]
  rfl

end Session

namespace Collection
variable {x : Collection} {p : Plan} {ks : List Clause}

theorem slice_window_eq_nil {α : Type} {rows : List α} (h : wantsRows p rows.length = false) :
    Window.slice rows (window p) = [] := by
  obtain ⟨hlimit, hoffset⟩ := Bool.or_eq_false_iff.mp h
  cases hn : p.limit with
  | none =>
    rw [hn] at hlimit
    cases hlimit
  | some n =>
    have hpast : rows.length ≤ p.offset.toNat := by
      have := of_decide_eq_false hoffset
      omega
    rw [window, hn, Option.map_some, Window.slice, List.drop_eq_nil_of_le hpast, List.take_nil]

theorem fetch_arranged (a : Arrangement) (x : Collection) (p : Plan) (table : List Row)
    (column : Column) (d : Direction) (name : String) {q : Option Predicate}
    (hq : Predicate.clausesOf q = ks) (hks : ∀ k ∈ ks, k.Bindable)
    (hwindow : wantsRows p (table.filter (satisfies ks)).length = true →
      ∀ v ∈ window p, Cell.fits v.limit = true ∧ Cell.fits v.offset = true) :
    fetch (.arranged a table) p (.count name q, .rows x.model q column d (window p)) =
      .ok ((table.filter (satisfies ks)).length,
        Window.slice (a.arrange ks column d (table.filter (satisfies ks))) (window p)) := by
  subst hq
  have hcheck : (Statement.count name q).check = .ok () := Statement.check_count.mpr hks
  rw [fetch, Session.count_arranged a table hcheck]
  cases hwants : wantsRows p (table.filter (satisfies (Predicate.clausesOf q))).length with
  | true =>
    have hcheck : (Statement.rows x.model q column d (window p)).check = .ok () :=
      Statement.check_rows.mpr ⟨hks, hwindow hwants⟩
    show (if wantsRows p (table.filter (satisfies (Predicate.clausesOf q))).length = true then _
      else _) = _
    rw [if_pos hwants, Session.rows_arranged a table hcheck]
    rfl
  | false =>
    show (if wantsRows p (table.filter (satisfies (Predicate.clausesOf q))).length = true then _
      else _) = _
    rw [← a.length_arrange (Predicate.clausesOf q) column d] at hwants
    rw [slice_window_eq_nil hwants, if_neg (by
      rw [← a.length_arrange (Predicate.clausesOf q) column d, hwants]; decide)]
    rfl

end Collection
end Listing.Store
