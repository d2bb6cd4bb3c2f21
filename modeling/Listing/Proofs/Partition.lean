import Mathlib
import Listing.Proofs.Chronology
import Listing.Proofs.Clauses

/-! How the comparisons with one text divide a table.
Where a column's values are ordered, a row has a position to a value: before it, at it, after it, or
none because the column holds nothing there. Each operator asks for some of the four positions, from
its name in a request to its sign in a statement, so that what the operators say of a row follows
from the positions alone. -/
namespace Listing
open Listing.Text

namespace Operator

def comparison? : Operator → Option Store.Comparison
  | eq => some .eq
  | ne => some .ne
  | gt => some .gt
  | gte => some .ge
  | lt => some .lt
  | lte => some .le
  | _ => none

def comparisons : List Operator := [eq, ne, gt, gte, lt, lte]

def asksFor (o : Operator) : Option Ordering → Bool
  | none => o == isNull
  | some p => o == notNull || (o.comparison?.any (·.test p))

variable {o : Operator}

theorem exists_comparison? (h : o ∈ comparisons) : ∃ q, o.comparison? = some q := by
  fin_cases h <;> exact ⟨_, rfl⟩

theorem asksFor_comparison {q : Store.Comparison} (h : o.comparison? = some q)
    (p : Option Ordering) : o.asksFor p = true ↔ p.map q.test = some true := by
  cases p <;> cases o <;> cases h <;> simp [asksFor, comparison?]

def AskOnce (os : List Operator) : Prop :=
  ∀ p, ∃ o ∈ os, o.asksFor p = true ∧ ∀ o' ∈ os, o'.asksFor p = true → o' = o

theorem askOnce_equality : AskOnce [eq, ne, isNull] := by
  rintro (_ | _ | _ | _) <;> decide

theorem askOnce_order : AskOnce [lt, eq, gt, isNull] := by
  rintro (_ | _ | _ | _) <;> decide

theorem asksFor_lt (p : Option Ordering) : lt.asksFor p = true ↔ p = some .lt := by
  rcases p with _ | _ | _ | _ <;> decide

theorem asksFor_eq (p : Option Ordering) : eq.asksFor p = true ↔ p = some .eq := by
  rcases p with _ | _ | _ | _ <;> decide

theorem asksFor_gt (p : Option Ordering) : gt.asksFor p = true ↔ p = some .gt := by
  rcases p with _ | _ | _ | _ <;> decide

theorem asksFor_gte (p : Option Ordering) :
    gte.asksFor p = true ↔ gt.asksFor p = true ∨ eq.asksFor p = true := by
  rcases p with _ | _ | _ | _ <;> decide

theorem asksFor_lte (p : Option Ordering) :
    lte.asksFor p = true ↔ lt.asksFor p = true ∨ eq.asksFor p = true := by
  rcases p with _ | _ | _ | _ <;> decide

theorem asksFor_isNull (p : Option Ordering) : isNull.asksFor p = true ↔ p = none := by
  rcases p with _ | _ | _ | _ <;> decide

theorem asksFor_notNull (p : Option Ordering) : notNull.asksFor p = true ↔ p ≠ none := by
  rcases p with _ | _ | _ | _ <;> decide

end Operator

/-- What a request asks of a field with an operator; for null checks the text is the one word that
they take. -/
def Filter.asking (field t : String) (o : Operator) : Filter :=
  ⟨field, o, .single (if o.isNullCheck then "true" else t)⟩

namespace Condition
variable {o : Operator}

theorem ofFilter_asking {q : Store.Comparison} (h : o.comparison? = some q) (field t : String) :
    ∃ r, Store.Rule.comparison? r = some q ∧
      ofFilter (.asking field t o) = .ok ⟨field, r, .one (.text t)⟩ := by
  cases o <;> cases h <;> exact ⟨_, rfl, rfl⟩

theorem affirmed_true (field : String) (o : Operator) :
    affirmed ⟨field, o, .single "true"⟩ = true := by
  show (trim "true".toList == "true".toList) = true
  decide

theorem ofFilter_asking_nullCheck (h : o.isNullCheck = true) (field t : String) :
    ∃ r, (r = .isNull ∨ r = .isNotNull) ∧ (r = .isNull ↔ o = .isNull) ∧
      ofFilter (.asking field t o) = .ok ⟨field, r, .one .null⟩ := by
  cases o <;> cases h
  · exact ⟨.isNull, .inl rfl, by simp, if_pos (affirmed_true field .isNull)⟩
  · exact ⟨.isNotNull, .inr rfl, by simp, if_pos (affirmed_true field .notNull)⟩

end Condition

namespace ColumnType
variable {type : ColumnType} {field s : String} {v : Scalar}

/-- The types of columns with an order that the store keeps: texts, whole numbers, dates and
moments. -/
def ordered : List ColumnType := [text, integer, date, datetime]

theorem read_of_readText {kind : String} {read : List Char → Option Scalar}
    (hreader : type.reader? = some (kind, read)) (h : type.readText field s = .ok v) :
    read (trim s.toList) = some v := by
  unfold readText at h
  dsimp only at h
  split at h
  · cases hreader
  · cases hreader
  · rw [hreader] at h
    dsimp only at h
    split at h
    · cases h
    · split at h <;> cases h
      assumption

theorem bindable_of_ordered (htype : type ∈ ordered) (h : type.readText field s = .ok v) :
    v.isConstant = false ∧ Store.Cell.ofScalar v ≠ .null := by
  fin_cases htype
  · cases h
    exact ⟨rfl, nofun⟩
  all_goals
    obtain ⟨x, -, rfl⟩ := Option.map_eq_some_iff.mp (read_of_readText rfl h)
    exact ⟨rfl, nofun⟩

end ColumnType

namespace Store

theorem Cell.compare?_eq_none_iff {a b : Cell} (hb : b ≠ .null) :
    a.compare? b = none ↔ a = .null := by
  cases a <;> cases b <;> simp_all [compare?]

namespace Schema
variable {h : Schema} {column : Column} {field t : String} {o : Operator} {w : Scalar} {row : Row}

def clauseOf (h : Schema) (f : Filter) : Except Fault Clause :=
  (Condition.ofFilter f).mapError Fault.rejected >>= h.clause

def Keeps (h : Schema) (f : Filter) (row : Row) : Prop :=
  ∃ k, h.clauseOf f = .ok k ∧ k.truth row = some true

theorem clauseOf_comparison (hrules : h.rules = .standard) (hcolumn : h.column field = .ok column)
    (htype : column.type ∈ ColumnType.ordered) {q : Comparison} (ho : o.comparison? = some q) :
    h.clauseOf (.asking field t o) =
      ((column.type.readText field t).mapError Fault.rejected).map
        fun v => .compare column q (.one v) := by
  obtain ⟨r, hr, hcondition⟩ := Condition.ofFilter_asking ho field t
  rw [clauseOf, hcondition]
  show h.clause _ = _
  rw [clause_compared hrules hcolumn hr]
  cases hread : column.type.readText field t with
  | error e => rfl
  | ok v => exact Rule.compareClause_of_not_constant (ColumnType.bindable_of_ordered htype hread).1

theorem clauseOf_nullCheck (hrules : h.rules = .standard) (hcolumn : h.column field = .ok column)
    (ho : o.isNullCheck = true) :
    h.clauseOf (.asking field t o) =
      .ok (if o = .isNull then .isNull column else .isNotNull column) := by
  obtain ⟨r, hr, hnull, hcondition⟩ := Condition.ofFilter_asking_nullCheck ho field t
  rw [clauseOf, hcondition]
  show h.clause _ = _
  rw [clause_nullCheck hrules hcolumn hr]
  simp only [hnull]

theorem exists_read_of_clauseOf (hrules : h.rules = .standard)
    (hcolumn : h.column field = .ok column) (htype : column.type ∈ ColumnType.ordered)
    (haccepted : ∃ k, h.clauseOf (.asking field t .eq) = .ok k) :
    ∃ w, column.type.readText field t = .ok w := by
  obtain ⟨k, hk⟩ := haccepted
  rw [clauseOf_comparison hrules hcolumn htype (q := .eq) rfl] at hk
  obtain ⟨w, hw, -⟩ := map_eq_ok.mp hk
  exact ⟨w, mapError_eq_ok.mp hw⟩

theorem exists_bound (hrules : h.rules = .standard) (hcolumn : h.column field = .ok column)
    (htype : column.type ∈ ColumnType.ordered) (hread : column.type.readText field t = .ok w)
    (ho : o ∈ Operator.comparisons) :
    ∃ k, h.clauseOf (.asking field t o) = .ok k ∧ k.bound? = some (.one w) := by
  obtain ⟨q, hq⟩ := Operator.exists_comparison? ho
  refine ⟨.compare column q (.one w), ?_, rfl⟩
  rw [clauseOf_comparison hrules hcolumn htype hq, hread]
  rfl

theorem comparisons_alike (hrules : h.rules = .standard) (hcolumn : h.column field = .ok column)
    (htype : column.type ∈ ColumnType.ordered) (t : String) :
    (∃ e, ∀ o ∈ Operator.comparisons, h.clauseOf (.asking field t o) = .error e) ∨
      ∃ v, ∀ o ∈ Operator.comparisons,
        ∃ k, h.clauseOf (.asking field t o) = .ok k ∧ k.bound? = some (.one v) := by
  cases hread : column.type.readText field t with
  | ok v => exact .inr ⟨v, fun o ho => exists_bound hrules hcolumn htype hread ho⟩
  | error r =>
    refine .inl ⟨.rejected r, fun o ho => ?_⟩
    obtain ⟨q, hq⟩ := Operator.exists_comparison? ho
    rw [clauseOf_comparison hrules hcolumn htype hq, hread]
    rfl

/-- Where the cell of a row stands to a value; a cell that holds nothing stands nowhere. -/
def position (column : Column) (w : Scalar) (row : Row) : Option Ordering :=
  (row column.name).compare? (.ofScalar w)

theorem keeps_comparison_iff (hrules : h.rules = .standard) (hcolumn : h.column field = .ok column)
    (htype : column.type ∈ ColumnType.ordered) (hread : column.type.readText field t = .ok w)
    (ho : o ∈ Operator.comparisons) :
    h.Keeps (.asking field t o) row ↔ o.asksFor (position column w row) = true := by
  obtain ⟨q, hq⟩ := Operator.exists_comparison? ho
  rw [Keeps, clauseOf_comparison hrules hcolumn htype hq, hread, Operator.asksFor_comparison hq]
  constructor
  · intro hkeeps
    obtain ⟨k, hk, htruth⟩ := hkeeps
    cases hk
    exact htruth
  · intro hposition
    exact ⟨_, rfl, hposition⟩

theorem keeps_nullCheck_iff (hrules : h.rules = .standard) (hcolumn : h.column field = .ok column)
    (htype : column.type ∈ ColumnType.ordered) (hread : column.type.readText field t = .ok w)
    (ho : o.isNullCheck = true) :
    h.Keeps (.asking field t o) row ↔ o.asksFor (position column w row) = true := by
  have hnone := Cell.compare?_eq_none_iff (a := row column.name)
    (ColumnType.bindable_of_ordered htype hread).2
  rw [Keeps, clauseOf_nullCheck hrules hcolumn ho, position]
  cases o <;> cases ho
  · rw [Operator.asksFor_isNull, hnone]
    simp [Clause.truth]
  · rw [Operator.asksFor_notNull, ne_eq, hnone]
    simp [Clause.truth]

theorem keeps_iff (hrules : h.rules = .standard) (hcolumn : h.column field = .ok column)
    (htype : column.type ∈ ColumnType.ordered) (hread : column.type.readText field t = .ok w)
    (ho : o ∈ Operator.comparisons ∨ o.isNullCheck = true) :
    h.Keeps (.asking field t o) row ↔ o.asksFor (position column w row) = true := by
  rcases ho with ho | ho
  · exact keeps_comparison_iff hrules hcolumn htype hread ho
  · exact keeps_nullCheck_iff hrules hcolumn htype hread ho

/-- The filters that compare a column with one text divide every table; `w` is the value that the
text stands for. -/
structure Partitions (h : Schema) (column : Column) (field t : String) (w : Scalar) : Prop where
  read : column.type.readText field t = .ok w
  bound : ∀ o ∈ Operator.comparisons,
    ∃ k, h.clauseOf (.asking field t o) = .ok k ∧ k.bound? = some (.one w)
  alike : ∀ u, (∃ e, ∀ o ∈ Operator.comparisons, h.clauseOf (.asking field u o) = .error e) ∨
    ∃ v, ∀ o ∈ Operator.comparisons,
      ∃ k, h.clauseOf (.asking field u o) = .ok k ∧ k.bound? = some (.one v)
  equality : ∀ row, ∃! o, o ∈ [Operator.eq, .ne, .isNull] ∧ h.Keeps (.asking field t o) row
  order : ∀ row, ∃! o, o ∈ [Operator.lt, .eq, .gt, .isNull] ∧ h.Keeps (.asking field t o) row
  gte : ∀ row, h.Keeps (.asking field t .gte) row ↔
    h.Keeps (.asking field t .gt) row ∨ h.Keeps (.asking field t .eq) row
  lte : ∀ row, h.Keeps (.asking field t .lte) row ↔
    h.Keeps (.asking field t .lt) row ∨ h.Keeps (.asking field t .eq) row
  notNull : ∀ row, h.Keeps (.asking field t .notNull) row ↔
    ¬ h.Keeps (.asking field t .isNull) row
  lt : ∀ row, h.Keeps (.asking field t .lt) row ↔ position column w row = some .lt
  eq : ∀ row, h.Keeps (.asking field t .eq) row ↔ position column w row = some .eq
  gt : ∀ row, h.Keeps (.asking field t .gt) row ↔ position column w row = some .gt
  isNull : ∀ row, h.Keeps (.asking field t .isNull) row ↔ row column.name = .null
  values : ∀ row u, row column.name = .ofScalar u → column.type.Holds u → column.type.Holds w →
    (h.Keeps (.asking field t .lt) row ↔ u.Before w) ∧ (h.Keeps (.asking field t .eq) row ↔ u = w) ∧
      (h.Keeps (.asking field t .gt) row ↔ w.Before u)

theorem existsUnique_keeps {os : List Operator} (hos : Operator.AskOnce os)
    (hkeeps : ∀ o ∈ os, h.Keeps (.asking field t o) row ↔
      o.asksFor (position column w row) = true) :
    ∃! o, o ∈ os ∧ h.Keeps (.asking field t o) row := by
  obtain ⟨o, ho, hasks, hunique⟩ := hos (position column w row)
  refine ⟨o, ⟨ho, (hkeeps o ho).mpr hasks⟩, fun o' ho' => ?_⟩
  exact hunique o' ho'.1 ((hkeeps o' ho'.1).mp ho'.2)

theorem position_eq_none_iff (htype : column.type ∈ ColumnType.ordered)
    (hread : column.type.readText field t = .ok w) :
    position column w row = none ↔ row column.name = .null :=
  Cell.compare?_eq_none_iff (ColumnType.bindable_of_ordered htype hread).2

open Sample

theorem comparisons_partition (h : Schema) (column : Column) (field t : String)
    (hrules : h.rules = .standard) (hcolumn : h.column field = .ok column)
    (htype : column.type ∈ ColumnType.ordered)
    (haccepted : ∃ k, h.clauseOf (.asking field t .eq) = .ok k) :
    ∃ w, h.Partitions column field t w := by
  obtain ⟨w, hread⟩ := exists_read_of_clauseOf hrules hcolumn htype haccepted
  have hkeeps (row : Row) (o : Operator) (ho : o ∈ Operator.comparisons ∨ o.isNullCheck = true) :
      h.Keeps (.asking field t o) row ↔ o.asksFor (position column w row) = true :=
    keeps_iff hrules hcolumn htype hread ho
  -- From here on a row counts by its position only, and the operators by what they ask for.
  have hlt (row : Row) := hkeeps row .lt (.inl (by decide))
  have heq (row : Row) := hkeeps row .eq (.inl (by decide))
  have hgt (row : Row) := hkeeps row .gt (.inl (by decide))
  have hnull (row : Row) := hkeeps row .isNull (.inr rfl)
  refine ⟨w, hread, fun o ho => exists_bound hrules hcolumn htype hread ho,
    comparisons_alike hrules hcolumn htype, ?_, ?_, ?_, ?_, ?_, ?_, ?_, ?_, ?_, ?_⟩ <;> intro row
  · exact existsUnique_keeps Operator.askOnce_equality fun o ho =>
      hkeeps row o (by fin_cases ho <;> decide)
  · exact existsUnique_keeps Operator.askOnce_order fun o ho =>
      hkeeps row o (by fin_cases ho <;> decide)
  · rw [hkeeps row .gte (.inl (by decide)), hgt, heq, Operator.asksFor_gte]
  · rw [hkeeps row .lte (.inl (by decide)), hlt, heq, Operator.asksFor_lte]
  · rw [hkeeps row .notNull (.inr rfl), hnull, Operator.asksFor_notNull, ne_eq,
      Operator.asksFor_isNull]
  · rw [hlt, Operator.asksFor_lt]
  · rw [heq, Operator.asksFor_eq]
  · rw [hgt, Operator.asksFor_gt]
  · rw [hnull, Operator.asksFor_isNull, position_eq_none_iff htype hread]
  · intro u hcell hu hw
    have horders := Cell.orders_ofScalar hu hw
    rw [hlt, heq, hgt, Operator.asksFor_lt, Operator.asksFor_eq, Operator.asksFor_gt, position,
      hcell]
    exact ⟨horders.lt, horders.eq, horders.gt⟩

theorem comparisons_partition_age :
    usersSchema.rules = .standard ∧
      usersSchema.column "age" = .ok ⟨"users", "age", .integer⟩ ∧
      ColumnType.integer ∈ ColumnType.ordered ∧
      usersSchema.clauseOf (.asking "age" " 30 " .eq) =
        .ok (.compare ⟨"users", "age", .integer⟩ .eq (.one (.int 30))) ∧
      usersSchema.Keeps (.asking "age" " 30 " .gte) (userAt 11).row ∧
      ¬ usersSchema.Keeps (.asking "age" " 30 " .ne) (userAt 7).row := by
  have hcolumn : usersSchema.column "age" = .ok ⟨"users", "age", .integer⟩ := rfl
  have htype : ColumnType.integer ∈ ColumnType.ordered := by decide
  have haccepted : usersSchema.clauseOf (.asking "age" " 30 " .eq) =
      .ok (.compare ⟨"users", "age", .integer⟩ .eq (.one (.int 30))) := rfl
  obtain ⟨w, hpartitions⟩ := comparisons_partition usersSchema ⟨"users", "age", .integer⟩ "age"
    " 30 " rfl hcolumn htype ⟨_, haccepted⟩
  obtain rfl : Scalar.int 30 = w := Except.ok.inj hpartitions.read
  refine ⟨rfl, hcolumn, htype, haccepted, ?_, fun hne => ?_⟩
  · exact (hpartitions.gte _).mpr (.inl ((hpartitions.gt _).mpr (by decide)))
  · have hnull := (hpartitions.isNull (userAt 7).row).mpr rfl
    have hone : Operator.ne = .isNull := (hpartitions.equality (userAt 7).row).unique
      ⟨by decide, hne⟩ ⟨by decide, hnull⟩
    cases hone

end Schema
end Store
end Listing
