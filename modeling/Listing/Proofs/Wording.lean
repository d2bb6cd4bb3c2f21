import Mathlib
import Listing.Proofs.Clauses
import Listing.Proofs.Fetching

/-! The wording of statements does not depend on the values of a request.
Two clauses are alike if they name one column and differ in what they bind at most. Statements with
clauses that are alike have one text and one list of placeholders. Conditions on one field with one
relation have clauses that are alike, whatever their texts are, unless the texts denote different
truth values: these are written out. -/
namespace Listing

namespace Condition.IsPlanned
variable {c : Condition}

theorem operand_of_comparison (hc : c.IsPlanned) (hr : c.relation ∈ Store.Rule.comparisons) :
    ∃ s, c.operand = .one (.text s) := by
  cases hc with
  | compared field _ s => exact ⟨s, rfl⟩
  | pattern | members => simp [Store.Rule.comparisons] at hr
  | nullCheck field h => rcases h with rfl | rfl <;> simp [Store.Rule.comparisons] at hr

theorem operand_of_like (hc : c.IsPlanned) (hr : c.relation = .like) :
    ∃ s, c.operand = .one (.text s) := by
  cases hc with
  | compared field h s => exact ⟨s, rfl⟩
  | pattern field s => exact ⟨s, rfl⟩
  | members => cases hr
  | nullCheck field h => rcases h with rfl | rfl <;> cases hr

theorem operand_of_oneOf (hc : c.IsPlanned) (hr : c.relation = .oneOf) :
    ∃ ts : List String, c.operand = .many (ts.map .text) := by
  cases hc with
  | compared field h s =>
    cases hr
    simp [Store.Rule.comparisons] at h
  | pattern => cases hr
  | members field ts => exact ⟨ts, rfl⟩
  | nullCheck field h => rcases h with rfl | rfl <;> cases hr

theorem operand_of_nullCheck (hc : c.IsPlanned)
    (hr : c.relation = .isNull ∨ c.relation = .isNotNull) : c.operand = .one .null := by
  cases hc with
  | compared field h s => rcases hr with rfl | rfl <;> simp [Store.Rule.comparisons] at h
  | pattern | members => rcases hr with h | h <;> cases h
  | nullCheck => rfl

end Condition.IsPlanned

namespace Store
open Listing.Text

namespace Clause

/-- Clauses with one text for every placeholder. -/
structure Alike (k k' : Clause) : Prop where
  column : k.column = k'.column
  binds : k.bound?.isSome = k'.bound?.isSome
  text : ∀ placeholder, k.text placeholder = k'.text placeholder

theorem Alike.refl (k : Clause) : k.Alike k := ⟨rfl, rfl, fun _ => rfl⟩

theorem alike_compare (c : Column) (comparison : Comparison) (v v' : Operand) :
    (compare c comparison v).Alike (compare c comparison v') := ⟨rfl, rfl, fun _ => rfl⟩

theorem alike_like (c : Column) (v v' : Operand) : (like c v).Alike (like c v') :=
  ⟨rfl, rfl, fun _ => rfl⟩

theorem alike_within (c : Column) (vs vs' : List Scalar) : (within c vs).Alike (within c vs') :=
  ⟨rfl, rfl, fun _ => rfl⟩

end Clause

section Rendering
variable {ks ks' : List Clause}

theorem renderClauses_alike (h : List.Forall₂ Clause.Alike ks ks') (used : List String) :
    (renderClauses used ks).1 = (renderClauses used ks').1 ∧
      (renderClauses used ks).2.map (·.1) = (renderClauses used ks').2.map (·.1) := by
  induction h generalizing used with
  | nil => exact ⟨rfl, rfl⟩
  | @cons k k' r r' hk _ ih =>
    have hbinds := hk.binds
    rw [renderClauses, renderClauses]
    cases hb : k.bound? with
    | none =>
      have hb' : k'.bound? = none := by
        rw [hb] at hbinds
        simpa using hbinds.symm
      obtain ⟨htexts, hnames⟩ := ih used
      rw [hb']
      exact ⟨congrArg₂ List.cons (hk.text "") htexts, hnames⟩
    | some v =>
      obtain ⟨v', hb'⟩ : ∃ v', k'.bound? = some v' := by
        rw [hb] at hbinds
        exact Option.isSome_iff_exists.mp hbinds.symm
      -- A name is counted for both, so that later placeholders agree as well.
      obtain ⟨htexts, hnames⟩ := ih (k.column.name :: used)
      rw [hb', ← hk.column]
      exact ⟨congrArg₂ List.cons (hk.text _) htexts, congrArg (List.cons _) hnames⟩

theorem usedBy_alike (h : List.Forall₂ Clause.Alike ks ks') (used : List String) :
    Statement.usedBy used ks = Statement.usedBy used ks' := by
  rw [Statement.usedBy, Statement.usedBy, List.append_cancel_right_eq]
  induction h with
  | nil => rfl
  | @cons k k' r r' hk _ ih =>
    rw [List.filter_cons, List.filter_cons, ← hk.binds]
    cases k.bound?.isSome with
    | false => exact ih
    | true => exact congrArg₂ List.cons (congrArg Column.name hk.column) ih

/-- One text, and one list of placeholders; what is bound to them may differ. -/
structure Sql.SameWording (a b : Sql) : Prop where
  text : a.text = b.text
  placeholders : a.bindings.map (·.1) = b.bindings.map (·.1)

namespace Statement

theorem text_count (table : String) (q : Option Predicate) :
    (count table q).render.text =
      "SELECT count(*) AS count_1 \nFROM " ++ table ++ (whereSql ["count"] q).text := rfl

theorem text_rows (model : Model) (q : Option Predicate) (column : Column) (d : Direction)
    (w : Option Window) :
    (rows model q column d w).render.text =
      "SELECT " ++ ", ".intercalate (model.columns.map Column.qualified) ++ " \nFROM " ++
        model.table ++ (whereSql [] q).text ++ " ORDER BY " ++ orderText column d ++
        windowText (windowNames (usedBy [] (Predicate.clausesOf q))) w := rfl

theorem sameWording_whereSql {q q' : Option Predicate}
    (h : List.Forall₂ Clause.Alike (Predicate.clausesOf q) (Predicate.clausesOf q'))
    (used : List String) : (whereSql used q).SameWording (whereSql used q') := by
  cases q with
  | none =>
    cases q' with
    | none => exact ⟨rfl, rfl⟩
    | some q' => cases h
  | some q =>
    cases q' with
    | none => cases h
    | some q' =>
      obtain ⟨htexts, hnames⟩ := renderClauses_alike h used
      exact ⟨congrArg (fun texts => " \nWHERE " ++ " AND ".intercalate texts) htexts, hnames⟩

theorem sameWording_count {q q' : Option Predicate}
    (h : List.Forall₂ Clause.Alike (Predicate.clausesOf q) (Predicate.clausesOf q'))
    (table : String) : (count table q).render.SameWording (count table q').render := by
  obtain ⟨htext, hnames⟩ := sameWording_whereSql h ["count"]
  refine ⟨?_, hnames⟩
  rw [text_count, text_count, htext]

theorem windowText_congr (names : String × String) {w w' : Option Window}
    (hw : w.isSome = w'.isSome) : windowText names w = windowText names w' := by
  cases w <;> cases w' <;> first | rfl | cases hw

theorem windowBindings_congr (names : String × String) {w w' : Option Window}
    (hw : w.isSome = w'.isSome) :
    (windowBindings names w).map (·.1) = (windowBindings names w').map (·.1) := by
  cases w <;> cases w' <;> first | rfl | cases hw

theorem sameWording_rows {q q' : Option Predicate}
    (h : List.Forall₂ Clause.Alike (Predicate.clausesOf q) (Predicate.clausesOf q'))
    (model : Model) (column : Column) (d : Direction) {w w' : Option Window}
    (hw : w.isSome = w'.isSome) :
    (rows model q column d w).render.SameWording (rows model q' column d w').render := by
  obtain ⟨htext, hnames⟩ := sameWording_whereSql h []
  rw [bindings_whereSql, bindings_whereSql] at hnames
  have hused := usedBy_alike h []
  constructor
  · rw [text_rows, text_rows, htext, hused, windowText_congr _ hw]
  · rw [bindings_rows, bindings_rows, List.map_append, List.map_append, hnames, hused,
      windowBindings_congr _ hw]

end Statement

end Rendering

namespace Schema
variable {h : Schema} {c c' : Condition} {k k' : Clause} {column : Column}

/-- Conditions on one field with one relation; where a truth value would be written out their texts
denote the same. -/
structure Alike (h : Schema) (c c' : Condition) : Prop where
  field : c.field = c'.field
  relation : c.relation = c'.relation
  truth : c.relation = .eq ∨ c.relation = .ne →
    (∃ column, h.column c.field = .ok column ∧ column.type = .boolean) →
    ∀ s s', c.operand = .one (.text s) → c'.operand = .one (.text s') →
      ColumnType.truthOf? (trim s.toList) = ColumnType.truthOf? (trim s'.toList)

theorem alike_of_compared (hrules : h.rules = .standard) {field : String}
    (hcolumn : h.column field = .ok column) {r : Relation} (hr : r ∈ Rule.comparisons)
    {s s' : String} (ha : h.Alike ⟨field, r, .one (.text s)⟩ ⟨field, r, .one (.text s')⟩)
    (hk : h.clause ⟨field, r, .one (.text s)⟩ = .ok k)
    (hk' : h.clause ⟨field, r, .one (.text s')⟩ = .ok k') : k.Alike k' := by
  obtain ⟨comparison, hcomparison⟩ := Rule.exists_comparison? hr
  obtain ⟨v, hv, hk⟩ := (clause_compared_eq_ok hrules hcolumn hcomparison).mp hk
  obtain ⟨v', hv', hk'⟩ := (clause_compared_eq_ok hrules hcolumn hcomparison).mp hk'
  rcases ColumnType.readText_eq_ok hv with ⟨htype, b, hb, rfl⟩ | ⟨htype, hplain⟩ <;>
    rcases ColumnType.readText_eq_ok hv' with ⟨htype', b', hb', rfl⟩ | ⟨htype', hplain'⟩
  · have hequality := Rule.equality_of_compareClause hcomparison hk
    have htruth := ha.truth hequality ⟨column, hcolumn, htype⟩ s s' rfl rfl
    rw [hb, hb', Option.some.injEq] at htruth
    rw [htruth, hk', Except.ok.injEq] at hk
    exact hk ▸ Clause.Alike.refl _
  · exact absurd htype htype'
  · exact absurd htype' htype
  · rw [Rule.compareClause_of_not_constant hplain] at hk
    rw [Rule.compareClause_of_not_constant hplain'] at hk'
    cases hk
    cases hk'
    exact Clause.alike_compare _ _ _ _

theorem alike_of_clause (hrules : h.rules = .standard) (hc : c.IsPlanned) (hc' : c'.IsPlanned)
    (hcolumn : h.column c.field = .ok column) (ha : h.Alike c c') (hk : h.clause c = .ok k)
    (hk' : h.clause c' = .ok k') : k.Alike k' := by
  obtain ⟨field', r', v'⟩ := c'
  obtain rfl : c.field = field' := ha.field
  obtain rfl : c.relation = r' := ha.relation
  cases hc with
  | compared field hr s =>
    obtain ⟨s', rfl⟩ := hc'.operand_of_comparison hr
    exact alike_of_compared hrules hcolumn hr ha hk hk'
  | pattern field s =>
    obtain ⟨s', rfl⟩ := hc'.operand_of_like rfl
    rw [clause_pattern hrules hcolumn] at hk hk'
    cases hk
    cases hk'
    exact Clause.alike_like _ _ _
  | members field ts =>
    obtain ⟨ts', rfl⟩ := hc'.operand_of_oneOf rfl
    rw [clause_members hrules hcolumn] at hk hk'
    obtain ⟨vs, -, rfl⟩ := map_eq_ok.mp hk
    obtain ⟨vs', -, rfl⟩ := map_eq_ok.mp hk'
    exact Clause.alike_within _ _ _
  | nullCheck field hr =>
    obtain rfl := hc'.operand_of_nullCheck hr
    rw [hk, Except.ok.injEq] at hk'
    exact hk' ▸ Clause.Alike.refl _

theorem alike_of_clauses {cs cs' : List Condition} {ks ks' : List Clause}
    (hrules : h.rules = .standard) (hcs : ∀ c ∈ cs, c.IsPlanned) (hcs' : ∀ c ∈ cs', c.IsPlanned)
    (ha : List.Forall₂ h.Alike cs cs') (hks : h.clauses cs = .ok ks)
    (hks' : h.clauses cs' = .ok ks') : List.Forall₂ Clause.Alike ks ks' := by
  have hall := forall₂_of_mapM hks
  have hall' := forall₂_of_mapM hks'
  clear hks hks'
  induction ha generalizing ks ks' with
  | nil =>
    cases hall
    cases hall'
    exact .nil
  | cons hc _ ih =>
    obtain ⟨hplanned, hcs⟩ := List.forall_mem_cons.mp hcs
    obtain ⟨hplanned', hcs'⟩ := List.forall_mem_cons.mp hcs'
    cases hall with
    | cons hk hrest =>
      cases hall' with
      | cons hk' hrest' =>
        obtain ⟨column, hcolumn⟩ := exists_column_of_clause hk
        exact .cons (alike_of_clause hrules hplanned hplanned' hcolumn hc hk hk')
          (ih hcs hcs' hrest hrest')

end Schema

/-- Both statements have one predicate, each of its clauses of the collection or on the column of a
field that may be filtered by, and the page is in the order of the column of a field that may be
sorted by. -/
structure Collection.KeepsTo (x : Collection) (a : Allowlist) (st : Statement × Statement) :
    Prop where
  counted : st.1 = .count x.model.table st.1.predicate
  fetched : ∃ f ∈ a.sortFields, ∃ column d w, x.schema.column f = .ok column ∧
    st.2 = .rows x.model st.1.predicate column d w
  filtered : ∀ k ∈ st.1.clauses,
    k ∈ x.base ∨ ∃ f ∈ a.filterFields, x.schema.column f = .ok k.column

namespace Collection
open Sample
variable {x : Collection} {p : Plan} {st : Statement × Statement}

theorem statements_eq_ok :
    x.statements p = .ok st ↔
      ∃ ks column, x.schema.clauses p.conditions = .ok ks ∧
        x.schema.column p.order.field = .ok column ∧
        st = (.count x.model.table (Predicate.ofClauses (x.base ++ ks)),
          .rows x.model (Predicate.ofClauses (x.base ++ ks)) column p.order.direction
            (window p)) := by
  constructor
  · intro hst
    obtain ⟨_, hpredicate, hst⟩ := bind_eq_ok.mp hst
    rw [predicate_eq] at hpredicate
    obtain ⟨ks, hks, rfl⟩ := map_eq_ok.mp hpredicate
    obtain ⟨column, hcolumn, hst⟩ := bind_eq_ok.mp hst
    cases hst
    exact ⟨ks, column, hks, mapError_eq_ok.mp hcolumn, rfl⟩
  · intro h
    obtain ⟨ks, column, hks, hcolumn, rfl⟩ := h
    exact statements_eq hks hcolumn

theorem keepsTo_of_plan {y : Policy} {s : Parameter.Source} (hp : y.plan s = .ok p)
    (hrules : x.schema.rules = .standard) (hst : x.statements p = .ok st) :
    x.KeepsTo y.allowlist st := by
  obtain ⟨ks, column, hks, hcolumn, rfl⟩ := statements_eq_ok.mp hst
  obtain ⟨-, -, -, horder, -, -⟩ := Policy.plan_eq_ok.mp hp
  have hsort : p.order.field ∈ y.allowlist.sortFields := by
    rw [horder]
    exact Allowlist.resolve_mem _ _
  refine ⟨rfl, ⟨p.order.field, hsort, column, p.order.direction, window p, hcolumn, rfl⟩, ?_⟩
  intro k hk
  rw [Statement.clauses, Statement.predicate, Predicate.clausesOf_ofClauses] at hk
  rcases List.mem_append.mp hk with hbase | hk
  · exact .inl hbase
  · obtain ⟨c, hc, hclause⟩ := exists_of_mapM hks hk
    obtain ⟨hplanned, hfield⟩ := y.isPlanned_of_plan hp c hc
    exact .inr ⟨c.field, hfield, Schema.column_of_clause hrules hplanned hclause⟩

/-- Plans that differ in the values of their conditions alone have the same statements but for what
is bound in them, and name no columns but those that requests may name. -/
theorem sameWording_of_alike (x : Collection) (y y' : Policy) (s s' : Parameter.Source)
    (p p' : Plan) (st st' : Statement × Statement) (hp : y.plan s = .ok p)
    (hp' : y'.plan s' = .ok p') (hrules : x.schema.rules = .standard)
    (hst : x.statements p = .ok st) (hst' : x.statements p' = .ok st')
    (halike : List.Forall₂ x.schema.Alike p.conditions p'.conditions)
    (horder : p.order = p'.order) (hlimit : p.limit.isSome = p'.limit.isSome) :
    st.1.render.SameWording st'.1.render ∧ st.2.render.SameWording st'.2.render ∧
      x.KeepsTo y.allowlist st ∧ x.KeepsTo y'.allowlist st' := by
  have hkeeps := keepsTo_of_plan hp hrules hst
  have hkeeps' := keepsTo_of_plan hp' hrules hst'
  obtain ⟨ks, column, hks, hcolumn, rfl⟩ := statements_eq_ok.mp hst
  obtain ⟨ks', column', hks', hcolumn', rfl⟩ := statements_eq_ok.mp hst'
  obtain rfl : column = column' := by
    rw [← horder, hcolumn, Except.ok.injEq] at hcolumn'
    exact hcolumn'
  have hclauses : List.Forall₂ Clause.Alike ks ks' :=
    Schema.alike_of_clauses hrules (fun c hc => (y.isPlanned_of_plan hp c hc).1)
      (fun c hc => (y'.isPlanned_of_plan hp' c hc).1) halike hks hks'
  have hall : List.Forall₂ Clause.Alike
      (Predicate.clausesOf (Predicate.ofClauses (x.base ++ ks)))
      (Predicate.clausesOf (Predicate.ofClauses (x.base ++ ks'))) := by
    rw [Predicate.clausesOf_ofClauses, Predicate.clausesOf_ofClauses]
    exact List.rel_append (List.forall₂_same.mpr fun k _ => Clause.Alike.refl k) hclauses
  have hwindow : (window p).isSome = (window p').isSome := by
    rw [window, window, Option.isSome_map, Option.isSome_map, hlimit]
  refine ⟨Statement.sameWording_count hall _, ?_, hkeeps, hkeeps'⟩
  dsimp only
  rw [← horder]
  exact Statement.sameWording_rows hall _ _ _ hwindow

def plainString : String :=
  "filter[role][in]=admin&filter[email][contains]=user&filter[isActive][eq]=1&perPage=5"

def plainPlan : Plan where
  query := ⟨⟨1, 5⟩, {}, [⟨"role", .oneOf, .members ["admin"]⟩, ⟨"email", .contains, .single "user"⟩,
    ⟨"isActive", .eq, .single "1"⟩]⟩
  conditions := [⟨"role", .oneOf, .many [.text "admin"]⟩, ⟨"email", .like, .one (.text "%user%")⟩,
    ⟨"isActive", .eq, .one (.text "1")⟩]
  order := ⟨"createdAt", .desc⟩
  limit := some 5
  offset := 0

/-- The fields and relations of the plain one, with a longer list, another spelling of the truth
value and a text that would change the statement if it were part of it. -/
def hostileString : String :=
  "filter[role][in]=x,y,z&filter[email][contains]=1)+OR+(1=1&filter[isActive][eq]=yes&page=3"

def hostilePlan : Plan where
  query := ⟨⟨3, 20⟩, {}, [⟨"role", .oneOf, .members ["x", "y", "z"]⟩,
    ⟨"email", .contains, .single "1) OR (1=1"⟩, ⟨"isActive", .eq, .single "yes"⟩]⟩
  conditions := [⟨"role", .oneOf, .many [.text "x", .text "y", .text "z"]⟩,
    ⟨"email", .like, .one (.text "%1) OR (1=1%")⟩, ⟨"isActive", .eq, .one (.text "yes")⟩]
  order := ⟨"createdAt", .desc⟩
  limit := some 20
  offset := 40

theorem alike_plainPlan :
    List.Forall₂ usersSchema.Alike plainPlan.conditions hostilePlan.conditions := by
  refine .cons ⟨rfl, rfl, ?_⟩ (.cons ⟨rfl, rfl, ?_⟩ (.cons ⟨rfl, rfl, ?_⟩ .nil))
  · intro hr
    simp at hr
  · intro hr
    simp at hr
  · intro _ _ t t' ht ht'
    cases ht
    cases ht'
    decide

theorem sameWording_plainPlan :
    ∃ st st', activeUsers.statements plainPlan = .ok st ∧
      activeUsers.statements hostilePlan = .ok st' ∧ st.1.render.SameWording st'.1.render ∧
      st.2.render.SameWording st'.2.render ∧ activeUsers.KeepsTo usersAllowlist st := by
  have hplan : usersPolicy.plan (.ofQueryString plainString) = .ok plainPlan := by decide +kernel
  have hplan' : usersPolicy.plan (.ofQueryString hostileString) = .ok hostilePlan := by
    decide +kernel
  obtain ⟨st, hst⟩ : ∃ st, activeUsers.statements plainPlan = .ok st := ⟨_, rfl⟩
  obtain ⟨st', hst'⟩ : ∃ st', activeUsers.statements hostilePlan = .ok st' := ⟨_, rfl⟩
  obtain ⟨hcount, hrows, hkeeps, -⟩ := sameWording_of_alike activeUsers usersPolicy usersPolicy
    (.ofQueryString plainString) (.ofQueryString hostileString) plainPlan hostilePlan st st' hplan
    hplan' rfl hst hst' alike_plainPlan rfl rfl
  exact ⟨st, st', hst, hst', hcount, hrows, hkeeps⟩

end Collection

end Store
end Listing
