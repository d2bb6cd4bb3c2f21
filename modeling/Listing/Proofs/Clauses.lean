import Mathlib
import Listing.Proofs.Admission
import Listing.Sample.Users

/-! The clauses of planned conditions.
A condition in a plan compares with texts, or asks for nothing. With the standard rules it then has a
clause, or its text is no value of its column and it is rejected by name of its field, or it orders a
truth value: texts are read before a rule looks at them, so that a text which denotes a truth value
gets as far as the rule, and no clause orders truth values. -/
namespace Listing
open Listing.Text

inductive Condition.IsPlanned : Condition → Prop
  | compared (field : String) {r : Relation} (h : r ∈ Store.Rule.comparisons) (s : String) :
    IsPlanned ⟨field, r, .one (.text s)⟩
  | pattern (field s : String) : IsPlanned ⟨field, .like, .one (.text s)⟩
  | members (field : String) (ts : List String) : IsPlanned ⟨field, .oneOf, .many (ts.map .text)⟩
  | nullCheck (field : String) {r : Relation} (h : r = .isNull ∨ r = .isNotNull) :
    IsPlanned ⟨field, r, .one .null⟩

theorem Condition.isPlanned_of_ofFilter {f : Filter} {c : Condition} (h : ofFilter f = .ok c) :
    c.IsPlanned := by
  rcases f with ⟨field, o, v⟩
  cases o with
  | eq | ne | gt | gte | lt | lte =>
    obtain ⟨s, -, rfl⟩ := map_eq_ok.mp h
    exact .compared field (by decide) s
  | like | contains | startsWith | endsWith =>
    obtain ⟨s, -, rfl⟩ := map_eq_ok.mp h
    exact .pattern field _
  | oneOf =>
    obtain ⟨ts, -, rfl⟩ := map_eq_ok.mp h
    exact .members field ts
  | isNull =>
    obtain ⟨-, rfl⟩ := of_nullCheck h
    exact .nullCheck field (.inl rfl)
  | notNull =>
    obtain ⟨-, rfl⟩ := of_nullCheck h
    exact .nullCheck field (.inr rfl)
  | custom name => cases h

/-- Nothing and truth values: what a comparison writes out and does not bind. -/
def Scalar.isConstant : Scalar → Bool
  | null | bool _ => true
  | _ => false

theorem Policy.isPlanned_of_plan {y : Policy} {s : Parameter.Source} {p : Plan}
    (h : y.plan s = .ok p) :
    ∀ c ∈ p.conditions, c.IsPlanned ∧ c.field ∈ y.allowlist.filterFields := by
  obtain ⟨-, hcheck, hconditions, -, -, -⟩ := plan_eq_ok.mp h
  intro c hc
  obtain ⟨f, hf, hfc⟩ := exists_of_mapM hconditions hc
  refine ⟨Condition.isPlanned_of_ofFilter hfc, ?_⟩
  rw [Condition.field_of_ofFilter hfc]
  exact (Allowlist.admits_of_check hcheck hf).1

namespace ColumnType

theorem readText_eq_error {type : ColumnType} {field s : String} {r : Rejection}
    (h : type.readText field s = .error r) : ∃ kind text, r = .badValue field kind text := by
  unfold readText at h
  dsimp only at h
  split at h
  · split at h <;> cases h
    exact ⟨_, _, rfl⟩
  · split at h <;> cases h
    exact ⟨_, _, rfl⟩
  · split at h
    · cases h
    · split at h
      · cases h
        exact ⟨_, _, rfl⟩
      · split at h <;> cases h
        exact ⟨_, _, rfl⟩

theorem isConstant_of_reader? {type : ColumnType} {kind : String}
    {read : List Char → Option Scalar} {body : List Char} {v : Scalar}
    (h : type.reader? = some (kind, read)) (hv : read body = some v) : v.isConstant = false := by
  cases type <;> cases h
  all_goals
    obtain ⟨x, -, rfl⟩ := Option.map_eq_some_iff.mp hv
    rfl

theorem readText_cases {type : ColumnType} {field s : String} {v : Scalar}
    (h : type.readText field s = .ok v) :
    (type = .boolean ∧ ∃ b, truthOf? (trim s.toList) = some b ∧ v = .bool b) ∨
      (∃ name members m, type = .enumeration name members ∧
        memberOf? members (strip s) = some m ∧ v = .member name m) ∨
      (type ≠ .boolean ∧ type.reader? = none ∧ v = .text s) ∨
      ∃ kind read, type.reader? = some (kind, read) ∧ read (trim s.toList) = some v := by
  unfold readText at h
  dsimp only at h
  split at h
  case h_1 =>
    split at h <;> cases h
    case h_1 b hb => exact .inl ⟨rfl, b, hb, rfl⟩
  case h_2 name members =>
    split at h <;> cases h
    case h_1 m hm => exact .inr (.inl ⟨name, members, m, rfl, hm, rfl⟩)
  case h_3 hboolean _ =>
    split at h
    case h_1 hreader =>
      cases h
      exact .inr (.inr (.inl ⟨hboolean, hreader, rfl⟩))
    case h_2 kind read hreader =>
      split at h
      · cases h
      · split at h <;> cases h
        case h_1 hread => exact .inr (.inr (.inr ⟨kind, read, hreader, hread⟩))

theorem readText_eq_ok {type : ColumnType} {field s : String} {v : Scalar}
    (h : type.readText field s = .ok v) :
    (type = .boolean ∧ ∃ b, truthOf? (trim s.toList) = some b ∧ v = .bool b) ∨
      type ≠ .boolean ∧ v.isConstant = false := by
  rcases readText_cases h with hboolean | ⟨name, members, m, rfl, -, rfl⟩ | ⟨hne, -, rfl⟩ |
    ⟨kind, read, hreader, hread⟩
  · exact .inl hboolean
  · exact .inr ⟨nofun, rfl⟩
  · exact .inr ⟨hne, rfl⟩
  · refine .inr ⟨?_, isConstant_of_reader? hreader hread⟩
    rintro rfl
    cases hreader

theorem ne_null_of_readText {type : ColumnType} {field s : String} {v : Scalar}
    (h : type.readText field s = .ok v) : v ≠ .null := by
  rcases readText_eq_ok h with ⟨-, b, -, rfl⟩ | ⟨-, hv⟩
  · exact nofun
  · rintro rfl
    cases hv

theorem readText_boolean {s : String} {b : Bool} (h : truthOf? (trim s.toList) = some b)
    (field : String) : readText .boolean field s = .ok (.bool b) := by
  simp only [readText, h]

end ColumnType

def Relation.isOrdering : Relation → Bool
  | gt | gte | lt | lte => true
  | _ => false

namespace Store

namespace Rule

def standardFor : Relation → Rule
  | .eq | .ne | .gt | .gte | .lt | .lte => comparison
  | .like => pattern
  | .oneOf => membership
  | .isNull | .isNotNull => nullCheck

theorem rule_standard (r : Relation) : Rulebook.standard.rule r = .ok (standardFor r) := by
  cases r <;> rfl

theorem exists_comparison? {r : Relation} (h : r ∈ comparisons) :
    ∃ comparison, comparison? r = some comparison := by
  cases r <;> first | exact ⟨_, rfl⟩ | simp [comparisons] at h

theorem isOrdering_iff {r : Relation} {comparison : Comparison}
    (h : comparison? r = some comparison) :
    r.isOrdering = true ↔ comparison ≠ .eq ∧ comparison ≠ .ne := by
  cases r <;> cases h <;> simp [Relation.isOrdering]

/-- Constants can be told apart from what a column holds, but not put in order with it. -/
theorem compareClause_eq_error {comparison : Comparison} {column : Column} {v : Scalar}
    {e : Fault} :
    compareClause comparison column (.one v) = .error e ↔
      (v.isConstant = true ∧ comparison ≠ .eq ∧ comparison ≠ .ne) ∧ e = .constantNotOrdered := by
  cases v <;> cases comparison <;> simp [compareClause, Scalar.isConstant, eq_comm (b := e)]

theorem compareClause_of_not_constant {comparison : Comparison} {column : Column} {v : Scalar}
    (hv : v.isConstant = false) :
    compareClause comparison column (.one v) = .ok (.compare column comparison (.one v)) := by
  cases v <;> first | rfl | cases hv

theorem equality_of_compareClause {r : Relation} {comparison : Comparison} {column : Column}
    {b : Bool} {k : Clause} (hr : comparison? r = some comparison)
    (hk : compareClause comparison column (.one (.bool b)) = .ok k) : r = .eq ∨ r = .ne := by
  cases r <;> cases hr <;> first | exact .inl rfl | exact .inr rfl | cases hk

theorem column_of_compareClause {comparison : Comparison} {column : Column} {v : Operand}
    {k : Clause} (hk : compareClause comparison column v = .ok k) : k.column = column := by
  unfold compareClause at hk
  split at hk
  · split at hk <;> cases hk <;> rfl
  · split at hk <;> cases hk <;> rfl
  · cases hk
    rfl

end Rule

namespace Schema
variable {h : Schema} {column : Column} {field : String}

theorem clause_eq (hrules : h.rules = .standard) (c : Condition)
    (hcolumn : h.column c.field = .ok column) :
    h.clause c = ((operand (.standardFor c.relation) column c).mapError Fault.rejected >>=
      (Rule.standardFor c.relation).apply c.relation column) := by
  rw [clause, hrules, Rule.rule_standard, hcolumn]
  rfl

theorem clause_compared (hrules : h.rules = .standard) (hcolumn : h.column field = .ok column)
    {r : Relation} {comparison : Comparison} (hr : Rule.comparison? r = some comparison)
    (s : String) :
    h.clause ⟨field, r, .one (.text s)⟩ =
      ((column.type.readText field s).mapError Fault.rejected >>= fun v =>
        Rule.compareClause comparison column (.one v)) := by
  have hrule : Rule.standardFor r = .comparison := by
    cases r <;> first | rfl | cases hr
  have hread : operand .comparison column ⟨field, r, .one (.text s)⟩ =
      (column.type.readText field s).map .one := rfl
  rw [clause_eq hrules _ hcolumn, hrule, hread]
  cases column.type.readText field s with
  | error e => rfl
  | ok v =>
    show Rule.applyComparison r column (.one v) = Rule.compareClause comparison column (.one v)
    rw [Rule.applyComparison, hr]

theorem clause_compared_eq_ok (hrules : h.rules = .standard) (hcolumn : h.column field = .ok column)
    {r : Relation} {comparison : Comparison} (hr : Rule.comparison? r = some comparison) {s : String}
    {k : Clause} :
    h.clause ⟨field, r, .one (.text s)⟩ = .ok k ↔
      ∃ v, column.type.readText field s = .ok v ∧
        Rule.compareClause comparison column (.one v) = .ok k := by
  rw [clause_compared hrules hcolumn hr, bind_eq_ok]
  simp only [mapError_eq_ok]

theorem clause_pattern (hrules : h.rules = .standard) (hcolumn : h.column field = .ok column)
    (s : String) :
    h.clause ⟨field, .like, .one (.text s)⟩ = .ok (.like column (.one (.text s))) := by
  rw [clause_eq hrules _ hcolumn]
  rfl

theorem clause_members (hrules : h.rules = .standard) (hcolumn : h.column field = .ok column)
    (ts : List String) :
    h.clause ⟨field, .oneOf, .many (ts.map .text)⟩ =
      ((ts.mapM (column.type.readText field)).mapError Fault.rejected).map (.within column) := by
  have hread : operand .membership column ⟨field, .oneOf, .many (ts.map .text)⟩ =
      ((ts.map .text).mapM (column.type.readScalar field)).map .many := rfl
  have htexts : (ts.map .text).mapM (column.type.readScalar field) =
      ts.mapM (column.type.readText field) := List.mapM_map
  rw [clause_eq hrules _ hcolumn, Rule.standardFor, hread, htexts]
  cases ts.mapM (column.type.readText field) <;> rfl

theorem clause_nullCheck (hrules : h.rules = .standard) (hcolumn : h.column field = .ok column)
    {r : Relation} (hr : r = .isNull ∨ r = .isNotNull) :
    h.clause ⟨field, r, .one .null⟩ =
      .ok (if r = .isNull then .isNull column else .isNotNull column) := by
  rw [clause_eq hrules _ hcolumn]
  rcases hr with rfl | rfl <;> rfl

theorem exists_column_of_clause {c : Condition} {k : Clause} (hk : h.clause c = .ok k) :
    ∃ column, h.column c.field = .ok column := by
  obtain ⟨rule, -, hk⟩ := bind_eq_ok.mp hk
  obtain ⟨column, hcolumn, -⟩ := bind_eq_ok.mp hk
  exact ⟨column, mapError_eq_ok.mp hcolumn⟩

theorem column_of_clause {c : Condition} {k : Clause} (hrules : h.rules = .standard)
    (hc : c.IsPlanned) (hk : h.clause c = .ok k) : h.column c.field = .ok k.column := by
  obtain ⟨column, hcolumn⟩ := exists_column_of_clause hk
  rw [hcolumn, Except.ok.injEq]
  cases hc with
  | compared field hr s =>
    obtain ⟨comparison, hcomparison⟩ := Rule.exists_comparison? hr
    obtain ⟨v, -, hk⟩ := (clause_compared_eq_ok hrules hcolumn hcomparison).mp hk
    exact (Rule.column_of_compareClause hk).symm
  | pattern field s =>
    rw [clause_pattern hrules hcolumn] at hk
    cases hk
    rfl
  | members field ts =>
    rw [clause_members hrules hcolumn] at hk
    obtain ⟨vs, -, rfl⟩ := map_eq_ok.mp hk
    rfl
  | nullCheck field hr =>
    rw [clause_nullCheck hrules hcolumn hr] at hk
    rcases hr with rfl | rfl <;> cases hk <;> rfl

def OrdersTruth (h : Schema) (c : Condition) : Prop :=
  c.relation.isOrdering = true ∧
    (∃ column, h.column c.field = .ok column ∧ column.type = .boolean) ∧
    ∃ s b, c.operand = .one (.text s) ∧ ColumnType.truthOf? (trim s.toList) = some b

theorem mapM_readText_eq_error {type : ColumnType} {ts : List String} {r : Rejection}
    (hr : ts.mapM (type.readText field) = .error r) : ∃ kind text, r = .badValue field kind text := by
  obtain ⟨t, -, ht⟩ := mapM_eq_error.mp hr
  exact ColumnType.readText_eq_error ht

theorem clause_outcome {c : Condition} (hrules : h.rules = .standard) (hc : c.IsPlanned)
    (hcolumn : h.column c.field = .ok column) :
    (∃ k, h.clause c = .ok k) ∨
      (∃ kind text, h.clause c = .error (.rejected (.badValue c.field kind text))) ∨
      h.clause c = .error .constantNotOrdered := by
  cases hc with
  | compared field hr s =>
    obtain ⟨comparison, hcomparison⟩ := Rule.exists_comparison? hr
    rw [clause_compared hrules hcolumn hcomparison]
    cases hread : column.type.readText field s with
    | error r =>
      obtain ⟨kind, text, rfl⟩ := ColumnType.readText_eq_error hread
      exact .inr (.inl ⟨kind, text, rfl⟩)
    | ok v =>
      show (∃ k, Rule.compareClause comparison column (.one v) = .ok k) ∨
        (∃ kind text, Rule.compareClause comparison column (.one v) =
          .error (.rejected (.badValue field kind text))) ∨
        Rule.compareClause comparison column (.one v) = .error .constantNotOrdered
      cases hclause : Rule.compareClause comparison column (.one v) with
      | ok k => exact .inl ⟨k, rfl⟩
      | error e =>
        obtain ⟨-, rfl⟩ := Rule.compareClause_eq_error.mp hclause
        exact .inr (.inr rfl)
  | pattern field s => exact .inl ⟨_, clause_pattern hrules hcolumn s⟩
  | members field ts =>
    rw [clause_members hrules hcolumn]
    cases hread : ts.mapM (column.type.readText field) with
    | ok vs => exact .inl ⟨_, rfl⟩
    | error r =>
      obtain ⟨kind, text, rfl⟩ := mapM_readText_eq_error hread
      exact .inr (.inl ⟨kind, text, rfl⟩)
  | nullCheck field hr => exact .inl ⟨_, clause_nullCheck hrules hcolumn hr⟩

theorem clause_eq_constantNotOrdered {c : Condition} (hrules : h.rules = .standard)
    (hc : c.IsPlanned) (hcolumn : h.column c.field = .ok column) :
    h.clause c = .error .constantNotOrdered ↔ h.OrdersTruth c := by
  cases hc with
  | compared field hr s =>
    obtain ⟨comparison, hcomparison⟩ := Rule.exists_comparison? hr
    have hordering := Rule.isOrdering_iff hcomparison
    rw [clause_compared hrules hcolumn hcomparison, bind_eq_error]
    constructor
    · intro he
      rcases he with he | ⟨v, hv, he⟩
      · obtain ⟨r, -, he⟩ := mapError_eq_error.mp he
        cases he
      · obtain ⟨⟨hconstant, hne⟩, -⟩ := Rule.compareClause_eq_error.mp he
        rcases ColumnType.readText_eq_ok (mapError_eq_ok.mp hv) with
          ⟨htype, b, hb, rfl⟩ | ⟨-, hplain⟩
        · exact ⟨hordering.mpr hne, ⟨column, hcolumn, htype⟩, s, b, rfl, hb⟩
        · rw [hplain] at hconstant
          cases hconstant
    · intro ho
      obtain ⟨hne, ⟨column', hcolumn', htype⟩, _, b, ⟨⟩, hb⟩ := ho
      obtain rfl : column = column' := Except.ok.inj (hcolumn.symm.trans hcolumn')
      refine .inr ⟨.bool b, ?_, Rule.compareClause_eq_error.mpr ⟨⟨rfl, hordering.mp hne⟩, rfl⟩⟩
      rw [htype, ColumnType.readText_boolean hb]
      rfl
  | pattern field s =>
    rw [clause_pattern hrules hcolumn]
    simp [OrdersTruth, Relation.isOrdering]
  | members field ts =>
    rw [clause_members hrules hcolumn, map_eq_error, mapError_eq_error]
    simp [OrdersTruth, Relation.isOrdering]
  | nullCheck field hr =>
    rw [clause_nullCheck hrules hcolumn hr]
    simp [OrdersTruth]

/-- What conditions come to: a predicate unless there are none, a rejection by name of a field, or an
order of truth values that is asked for before anything is rejected. -/
structure Compiles (h : Schema) (cs : List Condition) : Prop where
  outcome : (∃ q, h.compile cs = .ok q ∧ (q = none ↔ cs = [])) ∨
    (∃ c ∈ cs, ∃ kind text, h.compile cs = .error (.rejected (.badValue c.field kind text))) ∨
    h.compile cs = .error .constantNotOrdered
  unordered : h.compile cs = .error .constantNotOrdered ↔
    ∃ c, cs.find? (fun c => !(h.clause c).isOk) = some c ∧ h.OrdersTruth c

theorem compile_eq_ok {cs : List Condition} {ks : List Clause} (hks : h.clauses cs = .ok ks) :
    ∃ q, h.compile cs = .ok q ∧ (q = none ↔ cs = []) := by
  have hlength := (forall₂_of_mapM hks).length_eq
  refine ⟨Predicate.ofClauses ks, map_eq_ok.mpr ⟨ks, hks, rfl⟩, ?_⟩
  rw [Predicate.ofClauses_eq_none_iff, ← List.length_eq_zero_iff, ← hlength,
    List.length_eq_zero_iff]

theorem compiles_of_isPlanned {cs : List Condition} (hrules : h.rules = .standard)
    (hcs : ∀ c ∈ cs, c.IsPlanned ∧ ∃ column, h.column c.field = .ok column) : h.Compiles cs where
  outcome := by
    cases hks : h.clauses cs with
    | ok ks => exact .inl (compile_eq_ok hks)
    | error e =>
      right
      obtain ⟨c, hfind, hc⟩ := mapM_eq_error.mp hks
      have hmem := List.mem_of_find?_eq_some hfind
      obtain ⟨hplanned, column, hcolumn⟩ := hcs c hmem
      rcases clause_outcome hrules hplanned hcolumn with ⟨k, hk⟩ | ⟨kind, text, hk⟩ | hk
      · rw [hc] at hk
        cases hk
      · rw [hc] at hk
        cases hk
        exact .inl ⟨c, hmem, kind, text, map_eq_error.mpr hks⟩
      · rw [hc] at hk
        cases hk
        exact .inr (map_eq_error.mpr hks)
  unordered := by
    rw [compile, map_eq_error, clauses, mapM_eq_error]
    refine exists_congr fun c => and_congr_right fun hfind => ?_
    obtain ⟨hplanned, column, hcolumn⟩ := hcs c (List.mem_of_find?_eq_some hfind)
    exact clause_eq_constantNotOrdered hrules hplanned hcolumn

open Sample

theorem compiles_of_plan (y : Policy) (s : Parameter.Source) (p : Plan) (h : Schema)
    (hp : y.plan s = .ok p) (hrules : h.rules = .standard)
    (hcolumns : ∀ f ∈ y.allowlist.filterFields, ∃ column, h.column f = .ok column) :
    h.Compiles p.conditions := by
  refine compiles_of_isPlanned hrules fun c hc => ?_
  obtain ⟨hplanned, hfield⟩ := y.isPlanned_of_plan hp c hc
  exact ⟨hplanned, hcolumns c.field hfield⟩

theorem exists_column_users :
    ∀ f ∈ usersAllowlist.filterFields, ∃ column, usersSchema.column f = .ok column := by
  intro f hf
  fin_cases hf <;> exact ⟨_, rfl⟩

def flagString : String := "filter[isActive][ne]=yes&filter[isActive][gt]=maybe&filter[age][in]=1,x"

def flagPlan : Plan where
  query := ⟨⟨1, 20⟩, {}, [⟨"isActive", .ne, .single "yes"⟩, ⟨"isActive", .gt, .single "maybe"⟩,
    ⟨"age", .oneOf, .members ["1", "x"]⟩]⟩
  conditions := [⟨"isActive", .ne, .one (.text "yes")⟩, ⟨"isActive", .gt, .one (.text "maybe")⟩,
    ⟨"age", .oneOf, .many [.text "1", .text "x"]⟩]
  order := ⟨"createdAt", .desc⟩
  limit := some 20
  offset := 0

theorem compiles_flagPlan :
    usersPolicy.plan (.ofQueryString flagString) = .ok flagPlan ∧
      usersSchema.rules = .standard ∧
      (∀ f ∈ usersAllowlist.filterFields, ∃ column, usersSchema.column f = .ok column) ∧
      ∃ c ∈ flagPlan.conditions, ∃ kind text,
        usersSchema.compile flagPlan.conditions = .error (.rejected (.badValue c.field kind text)) := by
  have hplan : usersPolicy.plan (.ofQueryString flagString) = .ok flagPlan := by decide +kernel
  have herror : usersSchema.compile flagPlan.conditions =
      .error (.rejected (.badValue "isActive" "boolean" "maybe")) := by rfl
  obtain ⟨houtcome, -⟩ := compiles_of_plan usersPolicy (.ofQueryString flagString) flagPlan
    usersSchema hplan rfl exists_column_users
  refine ⟨hplan, rfl, exists_column_users, ?_⟩
  rcases houtcome with ⟨q, hq, -⟩ | hrejected | hordered
  · rw [herror] at hq
    cases hq
  · exact hrejected
  · rw [herror] at hordered
    cases hordered

def orderedFlagString : String := "filter[isActive][gt]=true"

def orderedFlagPlan : Plan where
  query := ⟨⟨1, 20⟩, {}, [⟨"isActive", .gt, .single "true"⟩]⟩
  conditions := [⟨"isActive", .gt, .one (.text "true")⟩]
  order := ⟨"createdAt", .desc⟩
  limit := some 20
  offset := 0

theorem compile_orderedFlagPlan :
    usersPolicy.plan (.ofQueryString orderedFlagString) = .ok orderedFlagPlan ∧
      usersSchema.rules = .standard ∧
      (∀ f ∈ usersAllowlist.filterFields, ∃ column, usersSchema.column f = .ok column) ∧
      usersSchema.compile orderedFlagPlan.conditions = .error .constantNotOrdered ∧
      ∀ r, usersSchema.compile orderedFlagPlan.conditions ≠ .error (.rejected r) := by
  have herror : usersSchema.compile orderedFlagPlan.conditions = .error .constantNotOrdered := by
    rfl
  refine ⟨by decide +kernel, rfl, exists_column_users, herror, fun r hr => ?_⟩
  rw [herror] at hr
  cases hr

end Schema
end Store
end Listing
