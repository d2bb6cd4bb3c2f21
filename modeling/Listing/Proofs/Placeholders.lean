import Mathlib
import Listing.Proofs.PageNumber
import Listing.Proofs.Wording

/-! What the statements of a plan demand, and what they bind for it.
Both statements ask for one conjunction: that the marks of the collection are empty and then, in
order, what each condition of the plan asks for. The statements are written out here once more, each
conjunct with its column, its sign and the placeholder that its value is bound to. A placeholder is
named for a column and numbered, so no two placeholders of a statement are the same. Besides these
the fetching statement binds the two numbers of its window, if it has one. -/
namespace Listing.Store
open Listing.Number Listing.Text

section Names

theorem numbered_inj {name name' : String} {n n' : Nat}
    (h : name ++ "_" ++ natText n = name' ++ "_" ++ natText n') : name = name' ∧ n = n' := by
  have hcut (name : String) (n : Nat) : cut '_' (name ++ "_" ++ natText n).toList.reverse =
      ((decimal n).reverse, some name.toList.reverse) := by
    have hdigits : '_' ∉ (decimal n).reverse := by
      intro hmem
      have := isDigit_of_mem_decimal (List.mem_reverse.mp hmem)
      contradiction
    have htext : (name ++ "_" ++ natText n).toList.reverse =
        (decimal n).reverse ++ '_' :: name.toList.reverse := by
      simp [natText]
    rw [htext, cut_append hdigits]
  have heq := hcut name n
  rw [h, hcut name' n', Prod.mk.injEq, List.reverse_inj, Option.some.injEq, List.reverse_inj,
    String.toList_inj] at heq
  refine ⟨heq.2.symm, ?_⟩
  rw [← Page.digitsValue_decimal n, ← heq.1, Page.digitsValue_decimal]

def placeholders (used : List String) : List String → List String
  | [] => []
  | name :: r => numbered used name :: placeholders (name :: used) r

theorem mem_placeholders {used names : List String} {a : String}
    (h : a ∈ placeholders used names) :
    ∃ name n, a = name ++ "_" ++ natText n ∧ used.count name < n := by
  induction names generalizing used with
  | nil => cases h
  | cons name r ih =>
    rcases List.mem_cons.mp h with rfl | h
    · exact ⟨name, used.count name + 1, rfl, Nat.lt_succ_self _⟩
    · obtain ⟨name', n, ha, hlt⟩ := ih h
      have hle : used.count name' ≤ (name :: used).count name' := List.count_le_count_cons
      exact ⟨name', n, ha, by omega⟩

theorem placeholders_nodup (used names : List String) : (placeholders used names).Nodup := by
  induction names generalizing used with
  | nil => simp [placeholders]
  | cons name r ih =>
    rw [placeholders, List.nodup_cons]
    refine ⟨?_, ih (name :: used)⟩
    intro hmem
    obtain ⟨name', n, heq, hlt⟩ := mem_placeholders hmem
    obtain ⟨rfl, rfl⟩ := numbered_inj heq
    simp at hlt

theorem placeholders_perm {used used' : List String} (h : used.Perm used') (names : List String) :
    placeholders used names = placeholders used' names := by
  induction names generalizing used used' with
  | nil => rfl
  | cons name r ih => simp [placeholders, numbered, h.count_eq, ih (h.cons name)]

theorem placeholders_append (used a b : List String) :
    placeholders used (a ++ b) = placeholders used a ++ placeholders (a ++ used) b := by
  induction a generalizing used with
  | nil => rfl
  | cons name r ih =>
    have hperm : (r ++ name :: used).Perm (name :: r ++ used) := List.perm_middle
    simp [placeholders, ih, placeholders_perm hperm]

end Names

structure Conjunct where
  text : String
  binding : Option (String × Operand)
  deriving DecidableEq

def Comparison.signs : List (Comparison × String) :=
  [(.eq, "="), (.ne, "!="), (.gt, ">"), (.ge, ">="), (.lt, "<"), (.le, "<=")]

/-- How the conjuncts for clauses are written, whatever their placeholders are. -/
inductive Clause.Spells : Clause → Conjunct → Prop
  | compare {comparison : Comparison} {sign : String} (table name : String) (type : ColumnType)
      (v : Operand) (placeholder : String) (h : (comparison, sign) ∈ Comparison.signs) :
      Spells (.compare ⟨table, name, type⟩ comparison v)
        ⟨table ++ "." ++ name ++ " " ++ sign ++ " :" ++ placeholder, some (placeholder, v)⟩
  | constant {equal b : Bool} {words : String} (table name : String) (type : ColumnType)
      (h : (equal, b, words) ∈ [(true, true, " = true"), (true, false, " = false"),
        (false, true, " != true"), (false, false, " != false")]) :
      Spells (.constant ⟨table, name, type⟩ equal b) ⟨table ++ "." ++ name ++ words, none⟩
  | like (table name : String) (type : ColumnType) (v : Operand) (placeholder : String) :
      Spells (.like ⟨table, name, type⟩ v)
        ⟨table ++ "." ++ name ++ " LIKE :" ++ placeholder, some (placeholder, v)⟩
  | likeLower (table name : String) (type : ColumnType) (v : Operand) (placeholder : String) :
      Spells (.likeLower ⟨table, name, type⟩ v)
        ⟨"lower(" ++ (table ++ "." ++ name) ++ ") LIKE lower(:" ++ placeholder ++ ")",
          some (placeholder, v)⟩
  | within (table name : String) (type : ColumnType) (vs : List Scalar) (placeholder : String) :
      Spells (.within ⟨table, name, type⟩ vs)
        ⟨table ++ "." ++ name ++ " IN (__[POSTCOMPILE_" ++ placeholder ++ "])",
          some (placeholder, .many vs)⟩
  | isNull (table name : String) (type : ColumnType) :
      Spells (.isNull ⟨table, name, type⟩) ⟨table ++ "." ++ name ++ " IS NULL", none⟩
  | isNotNull (table name : String) (type : ColumnType) :
      Spells (.isNotNull ⟨table, name, type⟩) ⟨table ++ "." ++ name ++ " IS NOT NULL", none⟩

/-- A statement that is written with these conjuncts between a head and a tail, and what it binds
besides. -/
structure Sql.Reads (s : Sql) (head : String) (cs : List Conjunct) (tail : String)
    (more : List (String × Operand)) : Prop where
  bare : cs = [] → s.text = head ++ tail
  filtered : cs ≠ [] →
    s.text = head ++ " \nWHERE " ++ " AND ".intercalate (cs.map (·.text)) ++ tail
  bindings : s.bindings = cs.filterMap (·.binding) ++ more
  distinct : (s.bindings.map (·.1)).Nodup

def Clause.conjunct (placeholder : String) (k : Clause) : Conjunct :=
  ⟨k.text placeholder, k.bound?.map fun v => (placeholder, v)⟩

theorem Clause.spells_conjunct (placeholder : String) (k : Clause) :
    k.Spells (k.conjunct placeholder) := by
  cases k with
  | compare c comparison v =>
    exact .compare _ _ _ _ _ (by cases comparison <;> simp [Comparison.signs, Comparison.symbol])
  | constant c equal b =>
    rw [conjunct, text, String.append_assoc]
    exact .constant _ _ _ (by cases equal <;> cases b <;> simp [constantText])
  | like c v => exact .like _ _ _ _ _
  | likeLower c v => exact .likeLower _ _ _ _ _
  | within c vs => exact .within _ _ _ _ _
  | isNull c => exact .isNull _ _ _
  | isNotNull c => exact .isNotNull _ _ _

def Clause.stem? (k : Clause) : Option String := k.bound?.map fun _ => k.column.name

/-- One conjunct for each clause, in order, after the given names have been used. -/
def conjuncts (used : List String) : List Clause → List Conjunct
  | [] => []
  | k :: r => k.conjunct (numbered used k.column.name) :: conjuncts (k.stem?.toList ++ used) r

theorem spells_conjuncts (used : List String) (ks : List Clause) :
    List.Forall₂ Clause.Spells ks (conjuncts used ks) := by
  induction ks generalizing used with
  | nil => exact .nil
  | cons k r ih => exact .cons (k.spells_conjunct _) (ih _)

theorem conjuncts_eq_nil_iff {used : List String} {ks : List Clause} :
    conjuncts used ks = [] ↔ ks = [] := by
  cases ks <;> simp [conjuncts]

section Conjuncts
variable {used used' : List String} {ks : List Clause}

theorem renderClauses_eq (used : List String) (ks : List Clause) :
    renderClauses used ks =
      ((conjuncts used ks).map (·.text), (conjuncts used ks).filterMap (·.binding)) := by
  induction ks generalizing used with
  | nil => rfl
  | cons k r ih =>
    rw [renderClauses, conjuncts]
    cases hk : k.bound? with
    | none =>
      have htext := k.text_of_bound?_none hk "" (numbered used k.column.name)
      simp [ih, Clause.conjunct, Clause.stem?, hk, htext]
    | some v => simp [ih, Clause.conjunct, Clause.stem?, hk]

theorem names_bindings (used : List String) (ks : List Clause) :
    ((conjuncts used ks).filterMap (·.binding)).map (·.1) =
      placeholders used (ks.filterMap Clause.stem?) := by
  induction ks generalizing used with
  | nil => rfl
  | cons k r ih =>
    rw [conjuncts]
    cases hk : k.bound? with
    | none => simpa [Clause.conjunct, Clause.stem?, hk] using ih used
    | some v =>
      simpa [Clause.conjunct, Clause.stem?, hk, placeholders] using ih (k.column.name :: used)

/-- Only names of columns that values are compared with are counted. -/
theorem conjuncts_congr
    (h : ∀ name ∈ ks.filterMap Clause.stem?, used.count name = used'.count name) :
    conjuncts used ks = conjuncts used' ks := by
  induction ks generalizing used used' with
  | nil => rfl
  | cons k r ih =>
    rw [conjuncts, conjuncts]
    cases hk : k.bound? with
    | none =>
      have hstem : k.stem? = none := by simp [Clause.stem?, hk]
      have htext := k.text_of_bound?_none hk (numbered used k.column.name)
      rw [List.filterMap_cons_none hstem] at h
      simp [Clause.conjunct, hk, hstem, htext (numbered used' k.column.name), ih h]
    | some v =>
      have hstem : k.stem? = some k.column.name := by simp [Clause.stem?, hk]
      rw [List.filterMap_cons_some hstem, List.forall_mem_cons] at h
      have hrest : ∀ name ∈ r.filterMap Clause.stem?,
          (k.column.name :: used).count name = (k.column.name :: used').count name := by
        intro name hname
        simp [List.count_cons, h.2 name hname]
      simp [numbered, h.1, hstem, ih hrest]

theorem usedBy_eq (used : List String) (ks : List Clause) :
    Statement.usedBy used ks = ks.filterMap Clause.stem? ++ used := by
  rw [Statement.usedBy]
  congr 1
  induction ks with
  | nil => rfl
  | cons k r ih => cases hk : k.bound? <;> simp [Clause.stem?, hk, ← ih]

theorem names_windowBindings (used : List String) (w : Option Window) :
    (Statement.windowBindings (Statement.windowNames used) w).map (·.1) =
      placeholders used (w.elim [] fun _ => ["param", "param"]) := by
  cases w <;> rfl

theorem reads_whereSql (used : List String) {q : Option Predicate}
    (hq : Predicate.clausesOf q = ks) (head tail : String) (more : List (String × Operand))
    (hdistinct : (((Statement.whereSql used q).bindings ++ more).map (·.1)).Nodup) :
    Sql.Reads ⟨head ++ (Statement.whereSql used q).text ++ tail,
      (Statement.whereSql used q).bindings ++ more⟩ head (conjuncts used ks) tail more where
  bare hnil := by
    rw [conjuncts_eq_nil_iff, ← hq, Predicate.clausesOf_eq_nil_iff] at hnil
    rw [hnil]
    exact congrArg (· ++ tail) (String.append_empty)
  filtered hne := by
    cases q with
    | none =>
      subst hq
      exact absurd rfl hne
    | some q =>
      have hclauses : q.clauses = ks := hq
      have hwhere : (Statement.whereSql used (some q)).text =
          " \nWHERE " ++ " AND ".intercalate (renderClauses used q.clauses).1 := rfl
      rw [hwhere, hclauses, renderClauses_eq, ← String.append_assoc]
  bindings := by
    rw [Statement.bindings_whereSql, hq, renderClauses_eq]
  distinct := hdistinct

end Conjuncts

def Rule.relations : List (Relation × Comparison) :=
  [(.eq, .eq), (.ne, .ne), (.gt, .gt), (.gte, .ge), (.lt, .lt), (.lte, .le)]

theorem Rule.mem_relations {r : Relation} {comparison : Comparison} :
    (r, comparison) ∈ relations ↔ comparison? r = some comparison := by
  cases r <;> cases comparison <;> simp [relations, comparison?]

/-- What a condition asks of its column under the standard rules. A value is compared as it was read
for the column, a truth value or the lack of a value is written out, and a pattern is taken as it
stands. -/
inductive Asks (c : Condition) (column : Column) : Clause → Prop
  | compared {comparison : Comparison} {v : Operand}
      (hr : (c.relation, comparison) ∈ Rule.relations)
      (hv : column.type.readOperand c.field c.operand = .ok v) (hnull : v ≠ .one .null)
      (hbool : ∀ b, v ≠ .one (.bool b)) : Asks c column (.compare column comparison v)
  | truth {equal b : Bool} (hr : (c.relation, equal) ∈ [(.eq, true), (.ne, false)])
      (hv : column.type.readOperand c.field c.operand = .ok (.one (.bool b))) :
      Asks c column (.constant column equal b)
  | nothing (hr : c.relation = .eq)
      (hv : column.type.readOperand c.field c.operand = .ok (.one .null)) :
      Asks c column (.isNull column)
  | something (hr : c.relation = .ne)
      (hv : column.type.readOperand c.field c.operand = .ok (.one .null)) :
      Asks c column (.isNotNull column)
  | pattern (hr : c.relation = .like) : Asks c column (.like column c.operand)
  | members {vs : List Scalar} (hr : c.relation = .oneOf)
      (hv : column.type.readOperand c.field c.operand = .ok (.many vs)) :
      Asks c column (.within column vs)
  | letters {s : String} (hr : c.relation = .oneOf)
      (hv : column.type.readOperand c.field c.operand = .ok (.one (.text s))) :
      Asks c column (.within column (s.toList.map fun a => .text (String.singleton a)))
  | isNull (hr : c.relation = .isNull) : Asks c column (.isNull column)
  | isNotNull (hr : c.relation = .isNotNull) : Asks c column (.isNotNull column)

section Values
variable {c : Condition} {column : Column} {v : Operand} {k : Clause}

theorem Rule.asks_of_applyComparison (hr : c.relation ∈ comparisons)
    (hv : column.type.readOperand c.field c.operand = .ok v)
    (hk : applyComparison c.relation column v = .ok k) : Asks c column k := by
  obtain ⟨comparison, hcomparison⟩ := exists_comparison? hr
  rw [applyComparison, hcomparison] at hk
  change compareClause comparison column v = .ok k at hk
  rw [← mem_relations] at hcomparison
  unfold compareClause at hk
  split at hk
  -- nothing and truth values have a clause under equality and its negation alone
  case h_1 =>
    split at hk <;> cases hk
    · exact .nothing (by simpa [relations] using hcomparison) hv
    · exact .something (by simpa [relations] using hcomparison) hv
  case h_2 b =>
    split at hk <;> cases hk
    · exact .truth (by simpa [relations] using hcomparison) hv
    · exact .truth (by simpa [relations] using hcomparison) hv
  case h_3 hnull hbool =>
    cases hk
    exact .compared hcomparison hv hnull hbool

theorem Rule.asks_of_items {vs : List Scalar} (hr : c.relation = .oneOf)
    (hv : column.type.readOperand c.field c.operand = .ok v) (hvs : items v = .ok vs) :
    Asks c column (.within column vs) := by
  unfold items at hvs
  split at hvs <;> cases hvs
  · exact .members hr hv
  · exact .letters hr hv

theorem Rule.of_patternClause {clause : Operand → Clause} (hk : patternClause clause v = .ok k) :
    k = clause v := by
  unfold patternClause at hk
  split at hk <;> cases hk
  rfl

theorem Schema.asks_of_clause {h : Schema} (hrules : h.rules = .standard)
    (hk : h.clause c = .ok k) : ∃ column, h.column c.field = .ok column ∧ Asks c column k := by
  obtain ⟨column, hcolumn⟩ := exists_column_of_clause hk
  refine ⟨column, hcolumn, ?_⟩
  rw [clause_eq hrules c hcolumn] at hk
  obtain ⟨v, hv, hk⟩ := bind_eq_ok.mp hk
  rw [mapError_eq_ok] at hv
  cases hr : c.relation with
  | eq | ne | gt | gte | lt | lte =>
    have hrule : Rule.standardFor c.relation = .comparison := by simp [hr, Rule.standardFor]
    rw [hrule] at hv hk
    exact Rule.asks_of_applyComparison (by simp [hr, Rule.comparisons]) hv hk
  | like =>
    rw [hr] at hv hk
    cases hv
    obtain rfl := Rule.of_patternClause hk
    exact .pattern hr
  | oneOf =>
    rw [hr] at hv hk
    obtain ⟨vs, hvs, rfl⟩ := map_eq_ok.mp hk
    exact Rule.asks_of_items hr hv hvs
  | isNull =>
    rw [hr] at hk
    cases hk
    exact .isNull hr
  | isNotNull =>
    rw [hr] at hk
    cases hk
    exact .isNotNull hr

end Values

def Collection.heading (x : Collection) : String :=
  "SELECT " ++ ", ".intercalate (x.model.columns.map fun c => c.table ++ "." ++ c.name) ++
    " \nFROM " ++ x.model.table

def Collection.ending (p : Plan) (column : Column) : String :=
  " ORDER BY " ++ column.table ++ "." ++ column.name ++
    match p.order.direction with
    | .asc => " ASC"
    | .desc => " DESC"

/-- A pair of statements with one predicate, written with these conjuncts for its clauses. -/
structure Collection.States (x : Collection) (p : Plan) (ks : List Clause) (column : Column)
    (st : Statement × Statement) (counted fetched : List Conjunct) : Prop where
  predicate : x.predicate p = .ok st.1.predicate ∧ x.predicate p = .ok st.2.predicate
  clauses : st.1.clauses = ks ∧ st.2.clauses = ks
  spelled : List.Forall₂ Clause.Spells ks counted ∧ List.Forall₂ Clause.Spells ks fetched
  /-- The count takes a number of the name `count`; but for that both have the same conjuncts. -/
  same : (∀ k ∈ ks, k.column.name ≠ "count") → counted = fetched
  count : st.1.render.Reads ("SELECT count(*) AS count_1 \nFROM " ++ x.model.table) counted "" []
  unlimited : p.limit = none → st.2.render.Reads x.heading fetched (Collection.ending p column) []
  limited : ∀ n, p.limit = some n → ∃ a b, st.2.render.Reads x.heading fetched
    (Collection.ending p column ++ "\n LIMIT :" ++ a ++ " OFFSET :" ++ b)
    [(a, .one (.int n)), (b, .one (.int p.offset))]

/-- What is demanded of the rows of a plan: that the marks are empty, and after that what each
condition asks for. -/
structure Collection.Demands (x : Collection) (marks : List String) (p : Plan) (ks : List Clause) :
    Prop where
  none_iff : x.predicate p = .ok none ↔ marks = [] ∧ p.conditions = []
  clauses : x.clauses p = .ok (x.base ++ ks)
  base : List.Forall₂ (fun mark k => ∃ c, x.model.column? mark = some c ∧ k = .isNull c) marks
    x.base
  own : List.Forall₂ (fun c k => x.schema.clause c = .ok k ∧
    (x.schema.rules = .standard →
      ∃ column, x.schema.column c.field = .ok column ∧ Asks c column k)) p.conditions ks
  stated : ∀ column, x.schema.column p.order.field = .ok column →
    ∃ st counted fetched, x.statements p = .ok st ∧
      x.States p (x.base ++ ks) column st counted fetched
  unsorted : ∀ r, x.schema.column p.order.field = .error r →
    x.statements p = .error (.rejected r)

namespace Collection
open Sample
variable {x : Collection} {p : Plan} {ks : List Clause}

theorem names_rows_nodup (model : Model) (q : Option Predicate) (column : Column) (d : Direction)
    (w : Option Window) :
    ((Statement.rows model q column d w).render.bindings.map (·.1)).Nodup := by
  rw [Statement.bindings_rows, renderClauses_eq, List.map_append, names_bindings,
    names_windowBindings, usedBy_eq, ← placeholders_append]
  exact placeholders_nodup _ _

theorem names_count_nodup (table : String) (q : Option Predicate) :
    ((Statement.count table q).render.bindings.map (·.1)).Nodup := by
  rw [Statement.bindings_count, renderClauses_eq, names_bindings]
  exact placeholders_nodup _ _

theorem reads_count {q : Option Predicate} (hq : Predicate.clausesOf q = ks) (table : String) :
    (Statement.count table q).render.Reads ("SELECT count(*) AS count_1 \nFROM " ++ table)
      (conjuncts ["count"] ks) "" [] := by
  have hdistinct := names_count_nodup table q
  have hreads := reads_whereSql ["count"] hq
    ("SELECT count(*) AS count_1 \nFROM " ++ table) "" [] (by rwa [List.append_nil])
  rw [String.append_empty, List.append_nil] at hreads
  exact hreads

theorem reads_rows {q : Option Predicate} (hq : Predicate.clausesOf q = ks) (x : Collection)
    (p : Plan) (column : Column) (w : Option Window) :
    let names := Statement.windowNames (Statement.usedBy [] ks)
    (Statement.rows x.model q column p.order.direction w).render.Reads x.heading (conjuncts [] ks)
      (ending p column ++ Statement.windowText names w) (Statement.windowBindings names w) := by
  subst hq
  have hdistinct := names_rows_nodup x.model q column p.order.direction w
  have horder : " ORDER BY " ++ Statement.orderText column p.order.direction = ending p column := by
    rw [ending]
    cases p.order.direction <;>
      simp [Statement.orderText, Column.qualified, String.append_assoc]
  have hreads := reads_whereSql [] rfl x.heading
    (ending p column ++ Statement.windowText
      (Statement.windowNames (Statement.usedBy [] (Predicate.clausesOf q))) w) _ hdistinct
  -- brought to the brackets that the statement is rendered with
  rw [← horder] at hreads
  simp only [← String.append_assoc] at hreads
  rw [horder] at hreads
  exact hreads

theorem states_statements (x : Collection) (p : Plan) (column : Column)
    {q : Option Predicate} (hq : Predicate.clausesOf q = ks) (hpredicate : x.predicate p = .ok q) :
    x.States p ks column
      (.count x.model.table q, .rows x.model q column p.order.direction (window p))
      (conjuncts ["count"] ks) (conjuncts [] ks) where
  predicate := ⟨hpredicate, hpredicate⟩
  clauses := ⟨hq, hq⟩
  spelled := ⟨spells_conjuncts _ _, spells_conjuncts _ _⟩
  same hcount := by
    apply conjuncts_congr
    intro name hname
    obtain ⟨k, hk, hstem⟩ := List.mem_filterMap.mp hname
    have hname : k.column.name = name := by
      rw [Clause.stem?, Option.map_eq_some_iff] at hstem
      obtain ⟨-, -, hname⟩ := hstem
      exact hname
    have hne : "count" ≠ name := fun he => hcount k hk (hname.trans he.symm)
    simp [hne]
  count := reads_count hq x.model.table
  unlimited hlimit := by
    have hreads := reads_rows hq x p column none
    rw [window, hlimit]
    simpa [Statement.windowText, Statement.windowBindings] using hreads
  limited n hlimit := by
    have hreads := reads_rows hq x p column (some ⟨n, p.offset⟩)
    rw [window, hlimit]
    simp only [Statement.windowText, Statement.windowBindings, ← String.append_assoc] at hreads
    exact ⟨_, _, hreads⟩

theorem base_of_unmarkedAll {marks : List String} (hbase : x.model.unmarkedAll marks = .ok x.base) :
    List.Forall₂ (fun mark k => ∃ c, x.model.column? mark = some c ∧ k = Clause.isNull c)
      marks x.base := by
  refine (forall₂_of_mapM hbase).imp ?_
  intro mark k hk
  rw [Model.unmarked] at hk
  split at hk
  case h_1 c hc =>
    cases hk
    exact ⟨c, hc, rfl⟩
  case h_2 => cases hk

/-- Marks and conditions make one conjunction of both statements, and no value is lost or bound to
the placeholder of another one. -/
theorem demands_of_clauses (x : Collection) (marks : List String) (p : Plan) (ks : List Clause)
    (hbase : x.model.unmarkedAll marks = .ok x.base)
    (hks : x.schema.clauses p.conditions = .ok ks) : x.Demands marks p ks where
  none_iff := by
    have hmarks := (forall₂_of_mapM hbase).length_eq
    have hconditions := (forall₂_of_mapM hks).length_eq
    rw [predicate_eq, hks, Except.map, Except.ok.injEq, Predicate.ofClauses_eq_none_iff,
      List.append_eq_nil_iff]
    simp only [← List.length_eq_zero_iff, hmarks, hconditions]
  clauses := by
    rw [clauses, predicate_eq, hks]
    exact congrArg Except.ok (Predicate.clausesOf_ofClauses _)
  base := base_of_unmarkedAll hbase
  own := by
    refine (forall₂_of_mapM hks).imp ?_
    intro c k hk
    exact ⟨hk, fun hrules => Schema.asks_of_clause hrules hk⟩
  stated column hcolumn := by
    have hpredicate : x.predicate p = .ok (Predicate.ofClauses (x.base ++ ks)) := by
      rw [predicate_eq, hks]
      rfl
    exact ⟨_, _, _, statements_eq hks hcolumn,
      states_statements x p column (Predicate.clausesOf_ofClauses _) hpredicate⟩
  unsorted r hcolumn := statements_unsorted hks hcolumn

def agesPlan : Plan where
  query := ⟨⟨3, 5⟩, {}, []⟩
  conditions := [⟨"age", .gte, .one (.text "30")⟩, ⟨"isActive", .eq, .one (.text "yes")⟩,
    ⟨"age", .lt, .one (.text "60")⟩, ⟨"email", .like, .one (.text "%7%")⟩,
    ⟨"role", .oneOf, .many [.text "admin", .text "viewer"]⟩, ⟨"age", .isNotNull, .one .null⟩]
  order := ⟨"createdAt", .desc⟩
  limit := some 5
  offset := 10

def agesClauses : List Clause :=
  [.compare ⟨"users", "age", .integer⟩ .ge (.one (.int 30)),
    .constant ⟨"users", "is_active", .boolean⟩ true true,
    .compare ⟨"users", "age", .integer⟩ .lt (.one (.int 60)),
    .like ⟨"users", "email", .text⟩ (.one (.text "%7%")),
    .within ⟨"users", "role", .text⟩ [.text "admin", .text "viewer"],
    .isNotNull ⟨"users", "age", .integer⟩]

def agesCount : Sql where
  text := "SELECT count(*) AS count_1 \nFROM users \nWHERE users.deleted_at IS NULL" ++
    " AND users.age >= :age_1 AND users.is_active = true AND users.age < :age_2" ++
    " AND users.email LIKE :email_1 AND users.role IN (__[POSTCOMPILE_role_1])" ++
    " AND users.age IS NOT NULL"
  bindings := [("age_1", .one (.int 30)), ("age_2", .one (.int 60)),
    ("email_1", .one (.text "%7%")), ("role_1", .many [.text "admin", .text "viewer"])]

def agesRows : Sql where
  text := "SELECT users.id, users.email, users.role, users.is_active, users.age," ++
    " users.created_at, users.deleted_at \nFROM users \nWHERE users.deleted_at IS NULL" ++
    " AND users.age >= :age_1 AND users.is_active = true AND users.age < :age_2" ++
    " AND users.email LIKE :email_1 AND users.role IN (__[POSTCOMPILE_role_1])" ++
    " AND users.age IS NOT NULL ORDER BY users.created_at DESC" ++
    "\n LIMIT :param_1 OFFSET :param_2"
  bindings := agesCount.bindings ++ [("param_1", .one (.int 5)), ("param_2", .one (.int 10))]

theorem demands_agesPlan :
    users.unmarkedAll ["deleted_at"] = .ok activeUsers.base ∧
      usersSchema.clauses agesPlan.conditions = .ok agesClauses ∧
      activeUsers.Demands ["deleted_at"] agesPlan agesClauses ∧
      ∃ st, activeUsers.statements agesPlan = .ok st ∧ st.1.render = agesCount ∧
        st.2.render = agesRows := by
  have hbase : users.unmarkedAll ["deleted_at"] = .ok activeUsers.base := by rfl
  have hclauses : usersSchema.clauses agesPlan.conditions = .ok agesClauses := by rfl
  have hdemands := demands_of_clauses activeUsers ["deleted_at"] agesPlan agesClauses hbase hclauses
  refine ⟨hbase, hclauses, hdemands, _, rfl, ?_, ?_⟩
  · decide +kernel
  · decide +kernel

end Collection

end Listing.Store
