import Mathlib
import Listing.Proofs.Fetching
import Listing.Proofs.Wording

/-! Integers that cannot be bound.
An integer column takes a text for the number that it denotes, however large, and the number is
bound as it is. A statement cannot be carried out if it binds a number of more than 64 bits, so a
plan can be carried out exactly if no text that it compares with an integer column denotes one, and
if its page size is none. -/
namespace Listing
open Listing.Text Listing.Number

namespace ColumnType
variable {type : ColumnType} {field s : String} {v : Scalar}

theorem integer_of_reader? {kind : String} {read : List Char → Option Scalar} {body : List Char}
    (h : type.reader? = some (kind, read)) (hread : read body = some v) :
    (∃ n, type = .integer ∧ Integer.read? body = some n ∧ v = .int n) ∨
      type ≠ .integer ∧ Store.Statement.fits v = true := by
  cases type <;> cases h
  case integer =>
    obtain ⟨n, hn, rfl⟩ := Option.map_eq_some_iff.mp hread
    exact .inl ⟨n, rfl, hn, rfl⟩
  all_goals
    obtain ⟨x, -, rfl⟩ := Option.map_eq_some_iff.mp hread
    exact .inr ⟨nofun, rfl⟩

theorem integer_of_readText (h : type.readText field s = .ok v) :
    (∃ n, type = .integer ∧ Integer.read? (trim s.toList) = some n ∧ v = .int n) ∨
      type ≠ .integer ∧ Store.Statement.fits v = true := by
  rcases readText_cases h with ⟨rfl, b, -, rfl⟩ | ⟨name, members, m, rfl, -, rfl⟩ |
    ⟨-, hreader, rfl⟩ | ⟨kind, read, hreader, hread⟩
  · exact .inr ⟨nofun, rfl⟩
  · exact .inr ⟨nofun, rfl⟩
  · refine .inr ⟨?_, rfl⟩
    rintro rfl
    cases hreader
  · exact integer_of_reader? hreader hread

end ColumnType

namespace Store

def InRange (n : Int) : Prop := -2 ^ 63 ≤ n ∧ n ≤ 2 ^ 63 - 1

instance (n : Int) : Decidable (InRange n) := inferInstanceAs (Decidable (_ ∧ _))

theorem fits_iff_inRange {n : Int} : Cell.fits n = true ↔ InRange n := by
  rw [Cell.fits_iff, InRange]
  omega

/-- A text denotes no number out of range where a column takes it for a number. -/
def Column.CanBind (column : Column) (t : String) : Prop :=
  column.type = .integer → ∀ n, Integer.read? (trim t.toList) = some n → InRange n

theorem fits_readText {column : Column} {field t : String} {v : Scalar}
    (h : column.type.readText field t = .ok v) :
    Statement.fits v = true ↔ Column.CanBind column t := by
  rcases ColumnType.integer_of_readText h with ⟨n, htype, hn, rfl⟩ | ⟨htype, hfits⟩
  · rw [Statement.fits, fits_iff_inRange, Column.CanBind]
    simp [htype, hn]
  · simp [Column.CanBind, htype, hfits]

theorem Rule.bindable_of_compareClause {comparison : Comparison} {column : Column} {v : Scalar}
    {k : Clause} (hk : compareClause comparison column (.one v) = .ok k) :
    k.Bindable ↔ Statement.fits v = true := by
  cases hconstant : v.isConstant with
  | true =>
    cases v <;> cases hconstant <;> cases comparison <;> cases hk <;>
      simp [Clause.Bindable, Clause.bound?, Statement.fits]
  | false =>
    rw [compareClause_of_not_constant hconstant] at hk
    cases hk
    simp [Clause.Bindable, Clause.bound?, Operand.scalars]

namespace Schema
variable {h : Schema} {column : Column}

def CanBind (column : Column) (c : Condition) : Prop :=
  c.relation ∈ Rule.comparisons ∨ c.relation = .oneOf →
    ∀ t, Scalar.text t ∈ c.operand.scalars → Column.CanBind column t

theorem canBind_text {field t : String} {r : Relation} (hr : r ∈ Rule.comparisons) :
    CanBind column ⟨field, r, .one (.text t)⟩ ↔ Column.CanBind column t := by
  simp [CanBind, Operand.scalars, hr]

theorem canBind_texts {field : String} {ts : List String} :
    CanBind column ⟨field, .oneOf, .many (ts.map .text)⟩ ↔ ∀ t ∈ ts, Column.CanBind column t := by
  simp [CanBind, Operand.scalars]

theorem bindable_iff {c : Condition} {k : Clause} (hrules : h.rules = .standard)
    (hc : c.IsPlanned) (hcolumn : h.column c.field = .ok column) (hk : h.clause c = .ok k) :
    k.Bindable ↔ CanBind column c := by
  cases hc with
  | compared field hr s =>
    obtain ⟨comparison, hcomparison⟩ := Rule.exists_comparison? hr
    obtain ⟨v, hread, hclause⟩ := (clause_compared_eq_ok hrules hcolumn hcomparison).mp hk
    rw [canBind_text hr, ← fits_readText hread, Rule.bindable_of_compareClause hclause]
  | pattern field s =>
    rw [clause_pattern hrules hcolumn] at hk
    cases hk
    simp [CanBind, Rule.comparisons, Clause.Bindable, Clause.bound?, Operand.scalars,
      Statement.fits]
  | members field ts =>
    rw [clause_members hrules hcolumn] at hk
    obtain ⟨vs, hvs, rfl⟩ := map_eq_ok.mp hk
    have hvs := mapError_eq_ok.mp hvs
    have hbindable : (Clause.within column vs).Bindable ↔ ∀ v ∈ vs, Statement.fits v = true := by
      simp [Clause.Bindable, Clause.bound?, Operand.scalars]
    rw [hbindable, canBind_texts]
    constructor
    · intro hall t ht
      obtain ⟨v, hv, hread⟩ := exists_mem_of_mapM hvs ht
      exact (fits_readText hread).mp (hall v hv)
    · intro hall v hv
      obtain ⟨t, ht, hread⟩ := exists_of_mapM hvs hv
      exact (fits_readText hread).mpr (hall t ht)
  | nullCheck field hr =>
    rw [clause_nullCheck hrules hcolumn hr] at hk
    rcases hr with rfl | rfl <;> cases hk <;>
      simp [CanBind, Rule.comparisons, Clause.Bindable, Clause.bound?]

def CanBindAll (h : Schema) (cs : List Condition) : Prop :=
  ∀ c ∈ cs, ∀ column, h.column c.field = .ok column → CanBind column c

theorem bindable_clauses_iff {cs : List Condition} {ks : List Clause} (hrules : h.rules = .standard)
    (hcs : ∀ c ∈ cs, c.IsPlanned) (hks : h.clauses cs = .ok ks) :
    (∀ k ∈ ks, k.Bindable) ↔ h.CanBindAll cs := by
  constructor
  · intro hall c hc column hcolumn
    obtain ⟨k, hk, hclause⟩ := exists_mem_of_mapM hks hc
    exact (bindable_iff hrules (hcs c hc) hcolumn hclause).mp (hall k hk)
  · intro hall k hk
    obtain ⟨c, hc, hclause⟩ := exists_of_mapM hks hk
    have hcolumn := column_of_clause hrules (hcs c hc) hclause
    exact (bindable_iff hrules (hcs c hc) hcolumn hclause).mpr (hall c hc _ hcolumn)

end Schema

theorem Statement.check_eq_error {s : Statement} {e : Fault} :
    s.check = .error e ↔ e = .integerTooWide ∧ ¬ s.check = .ok () := by
  rw [check]
  split <;> simp [eq_comm]

theorem Session.ofTable_count_eq_error {table : List Row} {s : Statement} {e : Fault} :
    (Session.ofTable table).count s = .error e ↔ s.check = .error e := map_eq_error

theorem Session.ofTable_rows_eq_error {table : List Row} {s : Statement} {e : Fault} :
    (Session.ofTable table).rows s = .error e ↔ s.check = .error e := map_eq_error

end Store

theorem PageBlock.ofRequest_ne_integerTooWide (r : PageRequest) (total : Int) :
    ofRequest r total ≠ .error .integerTooWide := by
  intro h
  unfold ofRequest at h
  split at h
  · cases h
  · split at h
    · cases h
    · rw [map_eq_error] at h
      unfold pageCount at h
      split at h
      · cases h
      · split at h <;> cases h

namespace Store.Collection
variable {x : Collection} {p : Plan} {table : List Row} {st : Statement × Statement}

theorem fetch_eq_error {e : Fault} :
    fetch (.ofTable table) p st = .error e ↔
      st.1.check = .error e ∨
        st.1.check = .ok () ∧ wantsRows p (st.1.countIn table) = true ∧ st.2.check = .error e := by
  rw [fetch, bind_eq_error, Session.ofTable_count_eq_error]
  refine or_congr_right ?_
  cases hcheck : st.1.check with
  | error e' => simp [Session.ofTable, hcheck, Except.map]
  | ok u =>
    have hcount : (Session.ofTable table).count st.1 = .ok (st.1.countIn table : Int) := by
      rw [Session.ofTable_eq_arranged]
      exact Session.count_arranged .sorted table hcheck
    rw [hcount]
    cases hwants : wantsRows p (st.1.countIn table) with
    | true =>
      simp only [Except.ok.injEq, exists_eq_left', hwants, if_true, bind_eq_error,
        Session.ofTable_rows_eq_error, true_and]
      refine or_iff_left ?_
      rintro ⟨rows, -, hrows⟩
      cases hrows
    | false =>
      simp only [Except.ok.injEq, exists_eq_left', hwants]
      refine iff_of_false ?_ (by simp)
      intro hrows
      cases hrows

theorem run_eq_integerTooWide (hst : x.statements p = .ok st) :
    x.run (.ofTable table) p = .error .integerTooWide ↔
      ¬ st.1.check = .ok () ∨
        st.1.check = .ok () ∧ wantsRows p (st.1.countIn table) = true ∧
          ¬ st.2.check = .ok () := by
  rw [run, hst]
  show (fetch (.ofTable table) p st >>= _) = _ ↔ _
  rw [bind_eq_error, fetch_eq_error, Statement.check_eq_error, Statement.check_eq_error]
  simp only [true_and]
  refine or_iff_left ?_
  rintro ⟨fetched, -, hpage⟩
  rcases bind_eq_error.mp hpage with hpage | ⟨page, -, hpage⟩
  · exact PageBlock.ofRequest_ne_integerTooWide _ _ (map_eq_error.mp hpage)
  · cases hpage

theorem bindable_iff_inRange {k : Clause} :
    k.Bindable ↔ ∀ v ∈ k.bound?, ∀ n, Scalar.int n ∈ v.scalars → InRange n := by
  refine forall₂_congr fun v _ => ?_
  constructor
  · intro hfits n hn
    exact fits_iff_inRange.mp (hfits _ hn)
  · intro hrange w hw
    cases w with
    | int n => exact fits_iff_inRange.mpr (hrange n hw)
    | _ => rfl

/-- Whether a plan can be carried out, told by the texts that it compares with integer columns. -/
structure BindsInRange (x : Collection) (p : Plan) (ks : List Clause)
    (st : Statement × Statement) : Prop where
  bound : (∀ k ∈ ks, ∀ v ∈ k.bound?, ∀ n, Scalar.int n ∈ v.scalars → InRange n) ↔
    x.schema.CanBindAll p.conditions
  count : st.1.check = .ok () ↔ x.schema.CanBindAll p.conditions
  rows : st.2.check = .ok () ↔ x.schema.CanBindAll p.conditions ∧ ∀ n ∈ p.limit, InRange n
  run : ∀ table, x.run (.ofTable table) p = .error .integerTooWide ↔
    ¬ x.schema.CanBindAll p.conditions ∨
      x.schema.CanBindAll p.conditions ∧ p.offset < (x.matching p table).length ∧
        ∃ n ∈ p.limit, ¬ InRange n

variable {y : Policy} {s : Parameter.Source} {ks : List Clause}

theorem bindable_all_iff (hrules : x.schema.rules = .standard) (hp : y.plan s = .ok p)
    (hbase : ∀ k ∈ x.base, k.Bindable) (hks : x.schema.clauses p.conditions = .ok ks) :
    (∀ k ∈ x.base ++ ks, k.Bindable) ↔ x.schema.CanBindAll p.conditions := by
  have hplanned : ∀ c ∈ p.conditions, c.IsPlanned := fun c hc => (y.isPlanned_of_plan hp c hc).1
  rw [List.forall_mem_append, and_iff_right hbase,
    Schema.bindable_clauses_iff hrules hplanned hks]

theorem window_fits_iff (hp : y.plan s = .ok p) :
    (∀ v ∈ window p, Cell.fits v.limit = true ∧ Cell.fits v.offset = true) ↔
      ∀ n ∈ p.limit, InRange n := by
  obtain ⟨hpage, -, hoffset⟩ := y.clamped_of_plan hp
  have hfits : InRange p.offset := fits_iff_inRange.mp (fits_offset hpage hoffset)
  cases hn : p.limit <;> simp [window, hn, hfits, fits_iff_inRange]

open Sample

theorem bindsInRange_of_plan (y : Policy) (s : Parameter.Source) (p : Plan) (x : Collection)
    (ks : List Clause) (st : Statement × Statement) (hrules : x.schema.rules = .standard)
    (hp : y.plan s = .ok p) (hbase : ∀ k ∈ x.base, k.Bindable)
    (hks : x.schema.clauses p.conditions = .ok ks) (hst : x.statements p = .ok st) :
    x.BindsInRange p ks st := by
  have hall := bindable_all_iff hrules hp hbase hks
  obtain ⟨ks', column, hks', hcolumn, rfl⟩ := statements_eq_ok.mp hst
  obtain rfl : ks = ks' := Except.ok.inj (hks.symm.trans hks')
  have hclauses := Predicate.clausesOf_ofClauses (x.base ++ ks)
  have hcount : (Statement.count x.model.table (Predicate.ofClauses (x.base ++ ks))).check =
      .ok () ↔ x.schema.CanBindAll p.conditions := by
    rw [Statement.check_count, hclauses, hall]
  have hrows : (Statement.rows x.model (Predicate.ofClauses (x.base ++ ks)) column p.order.direction
      (window p)).check = .ok () ↔
        x.schema.CanBindAll p.conditions ∧ ∀ n ∈ p.limit, InRange n := by
    rw [Statement.check_rows, hclauses, hall, window_fits_iff hp]
  refine ⟨?_, hcount, hrows, fun table => ?_⟩
  · rw [← hall, List.forall_mem_append, and_iff_right hbase]
    simp only [bindable_iff_inRange]
  · have htotal : (Statement.count x.model.table (Predicate.ofClauses (x.base ++ ks))).countIn
        table = (x.matching p table).length := by
      rw [Statement.countIn, Statement.clauses, Statement.predicate, hclauses,
        satisfies_append_clauses hks, matching]
    rw [run_eq_integerTooWide hst, hcount, hrows, htotal, wantsRows]
    cases p.limit with
    | none => simp
    | some n => simp; tauto

def widestString : String :=
  "filter[age][in]=9223372036854775807,-9223372036854775808&filter[email][ne]=9223372036854775808"

def widestPlan : Plan where
  query := ⟨⟨1, 20⟩, {},
    [⟨"age", .oneOf, .members ["9223372036854775807", "-9223372036854775808"]⟩,
      ⟨"email", .ne, .single "9223372036854775808"⟩]⟩
  conditions :=
    [⟨"age", .oneOf, .many [.text "9223372036854775807", .text "-9223372036854775808"]⟩,
      ⟨"email", .ne, .one (.text "9223372036854775808")⟩]
  order := ⟨"createdAt", .desc⟩
  limit := some 20
  offset := 0

def widestClauses : List Clause :=
  [.within ⟨"users", "age", .integer⟩ [.int 9223372036854775807, .int (-9223372036854775808)],
    .compare ⟨"users", "email", .text⟩ .ne (.one (.text "9223372036854775808"))]

theorem bindsInRange_widestPlan :
    usersPolicy.plan (.ofQueryString widestString) = .ok widestPlan ∧
      activeUsers.schema.rules = .standard ∧ (∀ k ∈ activeUsers.base, k.Bindable) ∧
      activeUsers.schema.clauses widestPlan.conditions = .ok widestClauses ∧
      ∃ st, activeUsers.statements widestPlan = .ok st ∧
        st.1.check = .ok () ∧ st.2.check = .ok () ∧
        ∀ table, activeUsers.run (.ofTable table) widestPlan ≠ .error .integerTooWide := by
  have hplan : usersPolicy.plan (.ofQueryString widestString) = .ok widestPlan := by
    decide +kernel
  have hbase : ∀ k ∈ activeUsers.base, k.Bindable := by decide
  have hks : activeUsers.schema.clauses widestPlan.conditions = .ok widestClauses := by rfl
  have hst := statements_eq (x := activeUsers) hks
    (show activeUsers.schema.column widestPlan.order.field = .ok _ from rfl)
  have hbinds := bindsInRange_of_plan usersPolicy (.ofQueryString widestString) widestPlan
    activeUsers widestClauses _ rfl hplan hbase hks hst
  have hbindable : ∀ k ∈ widestClauses, k.Bindable := by decide
  have hall : activeUsers.schema.CanBindAll widestPlan.conditions :=
    hbinds.bound.mp fun k hk => bindable_iff_inRange.mp (hbindable k hk)
  have hlimit : ∀ n ∈ widestPlan.limit, InRange n := by decide
  refine ⟨hplan, rfl, hbase, hks, _, hst, hbinds.count.mpr hall, hbinds.rows.mpr ⟨hall, hlimit⟩,
    fun table hrun => ?_⟩
  rcases (hbinds.run table).mp hrun with hnot | ⟨-, -, n, hn, hwide⟩
  · exact hnot hall
  · exact hwide (hlimit n hn)

def wideString : String := "filter[age][eq]=9223372036854775808"

def wideAgePlan : Plan where
  query := ⟨⟨1, 20⟩, {}, [⟨"age", .eq, .single "9223372036854775808"⟩]⟩
  conditions := [⟨"age", .eq, .one (.text "9223372036854775808")⟩]
  order := ⟨"createdAt", .desc⟩
  limit := some 20
  offset := 0

/-- A number of 65 bits is no reason to reject a text, and no statement that binds it is carried
out. -/
theorem not_inRange_wideAgePlan :
    usersPolicy.plan (.ofQueryString wideString) = .ok wideAgePlan ∧
      usersSchema.clauses wideAgePlan.conditions =
        .ok [.compare ⟨"users", "age", .integer⟩ .eq (.one (.int 9223372036854775808))] ∧
      ¬ InRange 9223372036854775808 ∧
      ∀ table, allUsers.run (.ofTable table) wideAgePlan = .error .integerTooWide := by
  refine ⟨by decide +kernel, by rfl, by decide, fun table => ?_⟩
  have hst : allUsers.statements wideAgePlan = .ok _ := rfl
  exact (run_eq_integerTooWide hst).mpr (.inl (by decide))

end Store.Collection
end Listing
