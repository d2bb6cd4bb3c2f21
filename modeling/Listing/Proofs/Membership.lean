import Mathlib
import Listing.Proofs.Fetching
import Listing.Proofs.Clauses

/-! Asking for one of several texts.
The texts of a list are brought to the column's type one after another, each as a comparison would
bring it alone, so that a list is rejected for the first text that equality is rejected for. A list
of truth values is bound like any other, while equality with a truth value is written out; on a row
both come to the same, nothing in the column included: a list is true where equality with one of
its values is, false where equality with each of them is, and neither otherwise. -/
namespace Listing

namespace Condition

def equals (field t : String) : Condition := ⟨field, .eq, .one (.text t)⟩

def among (field : String) (ts : List String) : Condition :=
  ⟨field, .oneOf, .many (ts.map .text)⟩

end Condition

namespace Store

theorem either_eq_some_true {a b : Option Bool} :
    either a b = some true ↔ a = some true ∨ b = some true := by
  rcases a with _ | _ | _ <;> rcases b with _ | _ | _ <;> simp [either]

theorem either_eq_some_false {a b : Option Bool} :
    either a b = some false ↔ a = some false ∧ b = some false := by
  rcases a with _ | _ | _ <;> rcases b with _ | _ | _ <;> simp [either]

namespace Clause
variable {cell : Cell} {vs : List Scalar}

theorem withinTruth_cons (v : Scalar) :
    withinTruth cell (v :: vs) = either (compareTruth cell .eq v) (withinTruth cell vs) := rfl

theorem withinTruth_eq_some_true :
    withinTruth cell vs = some true ↔ ∃ v ∈ vs, compareTruth cell .eq v = some true := by
  induction vs with
  | nil => simp [withinTruth]
  | cons v vs ih => rw [withinTruth_cons, either_eq_some_true, ih, List.exists_mem_cons_iff]

theorem withinTruth_eq_some_false :
    withinTruth cell vs = some false ↔ ∀ v ∈ vs, compareTruth cell .eq v = some false := by
  induction vs with
  | nil => simp [withinTruth]
  | cons v vs ih => rw [withinTruth_cons, either_eq_some_false, ih, List.forall_mem_cons]

def equality (column : Column) : Scalar → Clause
  | .null => .isNull column
  | .bool b => .constant column true b
  | v => .compare column .eq (.one v)

theorem compareClause_eq (column : Column) (v : Scalar) :
    Rule.compareClause .eq column (.one v) = .ok (equality column v) := by
  cases v <;> rfl

theorem truth_equality {v : Scalar} (hv : v ≠ .null) (column : Column) (row : Row) :
    (equality column v).truth row = compareTruth (row column.name) .eq v := by
  cases v <;> first | rfl | exact absurd rfl hv

end Clause

namespace Schema
variable {h : Schema} {column : Column} {field : String} {ts : List String} {row : Row}

theorem clause_equals (hrules : h.rules = .standard) (hcolumn : h.column field = .ok column)
    (t : String) :
    h.clause (.equals field t) =
      ((column.type.readText field t).mapError Fault.rejected).map (.equality column) := by
  have hcomparison : Rule.comparison? .eq = some .eq := rfl
  rw [Condition.equals, clause_compared hrules hcolumn hcomparison]
  simp only [Clause.compareClause_eq]
  cases column.type.readText field t <;> rfl

theorem clause_among (hrules : h.rules = .standard) (hcolumn : h.column field = .ok column)
    (ts : List String) :
    h.clause (.among field ts) =
      (ts.mapM fun t => (column.type.readText field t).mapError Fault.rejected).map
        (.within column) := by
  rw [Condition.among, clause_members hrules hcolumn, mapError_mapM]

theorem clause_equals_eq_ok (hrules : h.rules = .standard) (hcolumn : h.column field = .ok column)
    {t : String} {v : Scalar} (hread : column.type.readText field t = .ok v) :
    h.clause (.equals field t) = .ok (.equality column v) := by
  rw [clause_equals hrules hcolumn, hread]
  rfl

theorem clause_among_eq_ok (hrules : h.rules = .standard) (hcolumn : h.column field = .ok column)
    {k : Clause} :
    h.clause (.among field ts) = .ok k ↔
      ∃ vs, ts.mapM (column.type.readText field) = .ok vs ∧ .within column vs = k := by
  rw [Condition.among, clause_members hrules hcolumn, map_eq_ok]
  simp only [mapError_eq_ok]

theorem clause_among_eq_error (hrules : h.rules = .standard)
    (hcolumn : h.column field = .ok column) {e : Fault} :
    h.clause (.among field ts) = .error e ↔
      ∃ t, ts.find? (fun t => !(h.clause (.equals field t)).isOk) = some t ∧
        h.clause (.equals field t) = .error e := by
  rw [clause_among hrules hcolumn, map_eq_error, mapM_eq_error]
  simp only [clause_equals hrules hcolumn, isOk_map, map_eq_error]

theorem exists_clause_among (hrules : h.rules = .standard) (hcolumn : h.column field = .ok column) :
    (∃ k, h.clause (.among field ts) = .ok k) ↔
      ∀ t ∈ ts, ∃ k, h.clause (.equals field t) = .ok k := by
  cases hts : h.clause (.among field ts) with
  | ok k =>
    obtain ⟨vs, hvs, -⟩ := (clause_among_eq_ok hrules hcolumn).mp hts
    refine iff_of_true ⟨k, rfl⟩ fun t ht => ?_
    obtain ⟨v, -, hread⟩ := exists_mem_of_mapM hvs ht
    exact ⟨_, clause_equals_eq_ok hrules hcolumn hread⟩
  | error e =>
    obtain ⟨t, hfind, ht⟩ := (clause_among_eq_error hrules hcolumn).mp hts
    refine iff_of_false (by simp) fun hall => ?_
    obtain ⟨k, hk⟩ := hall t (List.mem_of_find?_eq_some hfind)
    rw [hk] at ht
    cases ht

theorem truth_equals_iff (hrules : h.rules = .standard) (hcolumn : h.column field = .ok column)
    {t : String} {v : Scalar} (hread : column.type.readText field t = .ok v) {b : Bool} :
    (∃ k, h.clause (.equals field t) = .ok k ∧ k.truth row = some b) ↔
      Clause.compareTruth (row column.name) .eq v = some b := by
  rw [clause_equals_eq_ok hrules hcolumn hread,
    ← Clause.truth_equality (ColumnType.ne_null_of_readText hread)]
  simp

/-- Asking for one of several texts comes to asking for some one of them. -/
structure IsDisjunction (h : Schema) (column : Column) (field : String) (ts : List String) :
    Prop where
  compiles : (∃ k, h.clause (.among field ts) = .ok k) ↔
    ∀ t ∈ ts, ∃ k, h.clause (.equals field t) = .ok k
  fails : ∀ e, h.clause (.among field ts) = .error e ↔
    ∃ t, ts.find? (fun t => !(h.clause (.equals field t)).isOk) = some t ∧
      h.clause (.equals field t) = .error e
  rendered : ∀ k, h.clause (.among field ts) = .ok k → ∃ vs, k = .within column vs ∧
    List.Forall₂ (fun t v => v ≠ .null ∧ h.clause (.equals field t) = .ok (.equality column v))
      ts vs
  holds : ∀ k, h.clause (.among field ts) = .ok k → ∀ row,
    (k.truth row = some true ↔
      ∃ t ∈ ts, ∃ k, h.clause (.equals field t) = .ok k ∧ k.truth row = some true)
  refuted : ∀ k, h.clause (.among field ts) = .ok k → ∀ row,
    (k.truth row = some false ↔
      ∀ t ∈ ts, ∃ k, h.clause (.equals field t) = .ok k ∧ k.truth row = some false)
  sameTexts : ∀ us, (∀ t, t ∈ us ↔ t ∈ ts) →
    ((∃ k, h.clause (.among field us) = .ok k) ↔ ∃ k, h.clause (.among field ts) = .ok k) ∧
      ∀ row, h.meets row (.among field us) = h.meets row (.among field ts)

theorem truth_among (hrules : h.rules = .standard) (hcolumn : h.column field = .ok column)
    {k : Clause} (hk : h.clause (.among field ts) = .ok k) :
    k.truth row = some true ↔
      ∃ t ∈ ts, ∃ k, h.clause (.equals field t) = .ok k ∧ k.truth row = some true := by
  obtain ⟨vs, hvs, rfl⟩ := (clause_among_eq_ok hrules hcolumn).mp hk
  rw [Clause.truth, Clause.withinTruth_eq_some_true]
  constructor
  · intro hv
    obtain ⟨v, hv, htrue⟩ := hv
    obtain ⟨t, ht, hread⟩ := exists_of_mapM hvs hv
    exact ⟨t, ht, (truth_equals_iff hrules hcolumn hread).mpr htrue⟩
  · intro ht
    obtain ⟨t, ht, htrue⟩ := ht
    obtain ⟨v, hv, hread⟩ := exists_mem_of_mapM hvs ht
    exact ⟨v, hv, (truth_equals_iff hrules hcolumn hread).mp htrue⟩

theorem untruth_among (hrules : h.rules = .standard) (hcolumn : h.column field = .ok column)
    {k : Clause} (hk : h.clause (.among field ts) = .ok k) :
    k.truth row = some false ↔
      ∀ t ∈ ts, ∃ k, h.clause (.equals field t) = .ok k ∧ k.truth row = some false := by
  obtain ⟨vs, hvs, rfl⟩ := (clause_among_eq_ok hrules hcolumn).mp hk
  rw [Clause.truth, Clause.withinTruth_eq_some_false]
  constructor
  · intro hall t ht
    obtain ⟨v, hv, hread⟩ := exists_mem_of_mapM hvs ht
    exact (truth_equals_iff hrules hcolumn hread).mpr (hall v hv)
  · intro hall v hv
    obtain ⟨t, ht, hread⟩ := exists_of_mapM hvs hv
    exact (truth_equals_iff hrules hcolumn hread).mp (hall t ht)

theorem meets_among (hrules : h.rules = .standard) (hcolumn : h.column field = .ok column) :
    h.meets row (.among field ts) = true ↔
      (∀ t ∈ ts, ∃ k, h.clause (.equals field t) = .ok k) ∧
        ∃ t ∈ ts, h.meets row (.equals field t) = true := by
  simp only [meets_iff, ← exists_clause_among hrules hcolumn]
  constructor
  · intro hmeets
    obtain ⟨k, hk, htrue⟩ := hmeets
    exact ⟨⟨k, hk⟩, (truth_among hrules hcolumn hk).mp htrue⟩
  · intro hmeets
    obtain ⟨⟨k, hk⟩, htrue⟩ := hmeets
    exact ⟨k, hk, (truth_among hrules hcolumn hk).mpr htrue⟩

open Sample

theorem among_isDisjunction (h : Schema) (column : Column) (field : String) (ts : List String)
    (hrules : h.rules = .standard) (hcolumn : h.column field = .ok column) :
    h.IsDisjunction column field ts where
  compiles := exists_clause_among hrules hcolumn
  fails e := clause_among_eq_error hrules hcolumn
  rendered k hk := by
    obtain ⟨vs, hvs, rfl⟩ := (clause_among_eq_ok hrules hcolumn).mp hk
    refine ⟨vs, rfl, (forall₂_of_mapM hvs).imp fun t v hread => ?_⟩
    exact ⟨ColumnType.ne_null_of_readText hread, clause_equals_eq_ok hrules hcolumn hread⟩
  holds k hk row := truth_among hrules hcolumn hk
  refuted k hk row := untruth_among hrules hcolumn hk
  sameTexts us hus := by
    refine ⟨?_, fun row => Bool.eq_iff_iff.mpr ?_⟩
    · simp only [exists_clause_among hrules hcolumn, hus]
    · simp only [meets_among hrules hcolumn, hus]

theorem among_isDisjunction_flags :
    usersSchema.rules = .standard ∧
      usersSchema.column "isActive" = .ok ⟨"users", "is_active", .boolean⟩ ∧
      usersSchema.clause (.among "isActive" ["yes", "maybe", "perhaps"]) =
        .error (.rejected (.badValue "isActive" "boolean" "maybe")) ∧
      ∃ k, usersSchema.clause (.among "isActive" ["no", " YES "]) = .ok k ∧
        k.truth (userAt 0).row = some true := by
  have hcolumn : usersSchema.column "isActive" = .ok ⟨"users", "is_active", .boolean⟩ := rfl
  have hrejected := among_isDisjunction usersSchema _ "isActive" ["yes", "maybe", "perhaps"] rfl
    hcolumn
  have hflags := among_isDisjunction usersSchema _ "isActive" ["no", " YES "] rfl hcolumn
  have hyes : usersSchema.clause (.equals "isActive" " YES ") =
      .ok (.constant ⟨"users", "is_active", .boolean⟩ true true) := rfl
  have hno : usersSchema.clause (.equals "isActive" "no") =
      .ok (.constant ⟨"users", "is_active", .boolean⟩ true false) := rfl
  refine ⟨rfl, hcolumn, (hrejected.fails _).mpr ⟨"maybe", rfl, rfl⟩, ?_⟩
  obtain ⟨k, hk⟩ := hflags.compiles.mpr
    (List.forall_mem_cons.mpr ⟨⟨_, hno⟩, List.forall_mem_singleton.mpr ⟨_, hyes⟩⟩)
  exact ⟨k, hk, (hflags.holds k hk _).mpr ⟨" YES ", by simp, _, hyes, rfl⟩⟩

end Schema
end Store
end Listing
