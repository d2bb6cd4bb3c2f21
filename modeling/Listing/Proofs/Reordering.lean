import Mathlib
import Listing.Proofs.Binding
import Listing.Proofs.Fetching
import Listing.Proofs.Refusal
import Listing.Proofs.Shapes

/-! Requests whose parameters come in another order.
With distinct keys every lookup finds the same value, and the filters are the same but for their
order. So a request is planned in all orders or in none. Its plans differ in the order of their
conditions alone, which does not tell on the rows; its rejections are of one kind, since every stage
of the checks looks at all filters. -/
namespace Listing
open Listing.Parameter

section Lists
variable {α β ε : Type}

theorem eraseDups_perm {l l' : List String} (h : l.Perm l') : l.eraseDups.Perm l'.eraseDups := by
  rw [List.perm_ext_iff_of_nodup (nodup_eraseDups l) (nodup_eraseDups l')]
  intro a
  simp [h.mem_iff]

theorem exists_find?_of_perm {p : α → Bool} {l l' : List α} (h : l.Perm l') {a : α}
    (ha : l.find? p = some a) : ∃ a', l'.find? p = some a' := by
  rw [← Option.isSome_iff_exists, List.find?_isSome]
  exact ⟨a, h.mem_iff.mp (List.mem_of_find?_eq_some ha), List.find?_some ha⟩

theorem mapM_perm {f : α → Except ε β} {l l' : List α} {r : List β} (h : l.Perm l')
    (hr : l.mapM f = .ok r) : ∃ r', l'.mapM f = .ok r' ∧ r.Perm r' := by
  have hok : ∀ a ∈ l', ∃ b, f a = .ok b ∧ True := by
    intro a ha
    obtain ⟨b, -, hb⟩ := exists_mem_of_mapM hr (h.mem_iff.mpr ha)
    exact ⟨b, hb, trivial⟩
  obtain ⟨r', hr', -⟩ := exists_mapM hok
  have hmap := h.map f
  rw [mapM_eq_ok.mp hr, mapM_eq_ok.mp hr'] at hmap
  exact ⟨r', hr', (List.map_perm_map_iff fun _ _ he => Except.ok.inj he).mp hmap⟩

end Lists

namespace Parameter
variable {es es' : List Entry}

theorem lookup_perm (hn : (es.map (·.1)).Nodup) (h : es.Perm es') (key : String) :
    lookup es key = lookup es' key := by
  rw [lookup, lookup]
  congr 1
  cases hfind : es.find? (·.1 == key) with
  | none =>
    symm
    rw [List.find?_eq_none] at hfind ⊢
    intro e he
    exact hfind e (h.mem_iff.mpr he)
  | some e =>
    obtain rfl : e.1 = key := by simpa using List.find?_some hfind
    have hn' : (es'.map (·.1)).Nodup := (h.map _).nodup_iff.mp hn
    have he := h.mem_iff.mp (List.mem_of_find?_eq_some hfind)
    exact (find?_of_nodup (f := Prod.fst) hn' he).symm

end Parameter

section Lookups
variable {es es' : List Entry} (c : Config) (h : ∀ key, lookup es key = lookup es' key)
include h

theorem PageRequest.ofEntries_congr : ofEntries c es = ofEntries c es' := by
  have hasks : asksAll c es = asksAll c es' := by rw [asksAll, asksAll, h]
  have hpage : pageOf c es = pageOf c es' := by simp only [pageOf, numberOf, h]
  have hperPage : perPageOf c es = perPageOf c es' := by simp only [perPageOf, numberOf, h]
  rw [ofEntries, ofEntries, hasks, hpage, hperPage]

theorem OrderRequest.ofEntries_congr : ofEntries c es = ofEntries c es' := by
  rw [ofEntries, ofEntries, h, h]

end Lookups

/-- Rejections of one kind; of unknown fields the same ones are told. -/
inductive Rejection.Kindred : Rejection → Rejection → Prop
  | noMember (f f' : String) : Kindred (.noMember f) (.noMember f')
  | unknownFields {fs fs' : List String} (allowed : List String) (h : fs.Perm fs') :
    Kindred (.unknownFields fs allowed) (.unknownFields fs' allowed)
  | operatorRefused (fs fs' : List String) (o o' : String) (allowed allowed' : List String) :
    Kindred (.operatorRefused fs o allowed) (.operatorRefused fs' o' allowed')
  | notAffirmed (f f' : String) (o o' : Operator) : Kindred (.notAffirmed f o) (.notAffirmed f' o')

/-- Both succeed with related results, or both are turned down for faults of one kind. -/
inductive Agree {α : Type} (R : α → α → Prop) : Except Fault α → Except Fault α → Prop
  | ok {a b : α} (h : R a b) : Agree R (.ok a) (.ok b)
  | rejected {r r' : Rejection} (h : r.Kindred r') :
    Agree R (.error (.rejected r)) (.error (.rejected r'))

structure Query.Reordered (q q' : Query) : Prop where
  page : q.page = q'.page
  order : q.order = q'.order
  filters : q.filters.Perm q'.filters

structure Plan.Reordered (p p' : Plan) : Prop where
  query : p.query.Reordered p'.query
  conditions : p.conditions.Perm p'.conditions
  order : p.order = p'.order
  limit : p.limit = p'.limit
  offset : p.offset = p'.offset

namespace Store

section Clauses
variable {ks ks' : List Clause}

theorem satisfies_perm (h : ks.Perm ks') : satisfies ks = satisfies ks' := by
  funext row
  exact h.all_eq

theorem bindable_perm (h : ks.Perm ks') : (∀ k ∈ ks, k.Bindable) ↔ ∀ k ∈ ks', k.Bindable := by
  simp only [h.mem_iff]

theorem Statement.check_congr {s t : Statement} (h : s.check = .ok () ↔ t.check = .ok ()) :
    s.check = t.check := by
  have herror (u : Statement) (hu : u.check ≠ .ok ()) : u.check = .error .integerTooWide := by
    rw [check] at hu ⊢
    by_cases hall : u.boundScalars.all fits = true
    · simp [hall] at hu
    · simp [hall]
  by_cases hs : s.check = .ok ()
  · rw [hs, h.mp hs]
  · rw [herror s hs, herror t fun ht => hs (h.mpr ht)]

end Clauses

namespace Collection
variable {x : Collection} {p p' : Plan} {table : List Row}

theorem fetch_perm {q q' : Option Predicate}
    (h : (Predicate.clausesOf q).Perm (Predicate.clausesOf q')) (model : Model) (column : Column)
    (d : Direction) (w : Option Window) :
    fetch (.ofTable table) p (.count model.table q, .rows model q column d w) =
      fetch (.ofTable table) p (.count model.table q', .rows model q' column d w) := by
  have hcount : (Statement.count model.table q).check = (Statement.count model.table q').check := by
    apply Statement.check_congr
    rw [Statement.check_count, Statement.check_count, bindable_perm h]
  have hrows : (Statement.rows model q column d w).check =
      (Statement.rows model q' column d w).check := by
    apply Statement.check_congr
    rw [Statement.check_rows, Statement.check_rows, bindable_perm h]
  simp only [fetch, Session.ofTable, hcount, hrows, Statement.countIn, Statement.rowsIn,
    Statement.clauses, Statement.predicate, satisfies_perm h]

theorem page_of_run {α : Type} {session : Session α} {st : Statement × Statement}
    (hst : x.statements p = .ok st) :
    (x.run session p).map (·.page) =
      fetch session p st >>= fun r => p.respond r.2 r.1 := by
  rw [run, hst]
  change (fetch session p st >>= _).map _ = _
  cases fetch session p st with
  | error e => rfl
  | ok r =>
    change (p.respond r.2 r.1 >>= _).map _ = p.respond r.2 r.1
    cases p.respond r.2 r.1 <;> rfl

theorem run_error_of_statements {α : Type} {session : Session α} {e : Fault}
    (hst : x.statements p = .error e) : x.run session p = .error e := by
  rw [run, hst]
  rfl

/-- Two plans select the same rows of a table, and the same page of them, unless neither can be
carried out. -/
structure SelectsAlike (x : Collection) (table : List Row) (p p' : Plan) : Prop where
  matching : x.matching p table = x.matching p' table
  page : ((x.run (.ofTable table) p).map (·.page)).toOption =
    ((x.run (.ofTable table) p').map (·.page)).toOption

theorem admits_of_reordered (h : p.Reordered p') : x.admits p = x.admits p' := by
  funext row
  rw [admits, admits, h.conditions.all_eq]

theorem run_of_reordered (h : p.Reordered p') {ks : List Clause}
    (hks : x.schema.clauses p.conditions = .ok ks) :
    (x.run (.ofTable table) p).map (·.page) = (x.run (.ofTable table) p').map (·.page) := by
  obtain ⟨ks', hks', hperm⟩ := mapM_perm h.conditions hks
  cases hcolumn : x.schema.column p.order.field with
  | error r =>
    rw [run_error_of_statements (statements_unsorted hks hcolumn),
      run_error_of_statements (statements_unsorted hks' (h.order ▸ hcolumn))]
  | ok column =>
    have hwindow : window p = window p' := by rw [window, window, h.limit, h.offset]
    have hwants : wantsRows p = wantsRows p' := by
      funext total
      rw [wantsRows, wantsRows, h.limit, h.offset]
    have hclauses : (Predicate.clausesOf (Predicate.ofClauses (x.base ++ ks))).Perm
        (Predicate.clausesOf (Predicate.ofClauses (x.base ++ ks'))) := by
      rw [Predicate.clausesOf_ofClauses, Predicate.clausesOf_ofClauses]
      exact hperm.append_left x.base
    rw [page_of_run (statements_eq hks hcolumn),
      page_of_run (statements_eq hks' (h.order ▸ hcolumn)), fetch_perm hclauses, h.order, hwindow]
    simp only [fetch, hwants, Plan.respond, h.query.page]

theorem selectsAlike_of_reordered (h : p.Reordered p') : x.SelectsAlike table p p' := by
  constructor
  · rw [matching, matching, admits_of_reordered h]
  · cases hks : x.schema.clauses p.conditions with
    | ok ks => rw [run_of_reordered h hks]
    | error e =>
      cases hks' : x.schema.clauses p'.conditions with
      | ok ks' =>
        obtain ⟨ks, hks'', -⟩ := mapM_perm h.conditions.symm hks'
        rw [Schema.clauses, hks''] at hks
        cases hks
      | error e' =>
        rw [run_error_of_statements (statements_error hks),
          run_error_of_statements (statements_error hks')]
        rfl

end Collection
end Store

namespace Allowlist
variable {w : Allowlist} {as as' : List Asked} {r : Rejection}

theorem unknown_perm (h : as.Perm as') : (w.unknown as).Perm (w.unknown as') :=
  (h.map _).filter _

/-- Each stage of the checks looks at all filters, so the stage that finds a fault is the same. -/
theorem Refuses.kindred (hr : w.Refuses as r) (h : as.Perm as') :
    ∃ r', w.Refuses as' r' ∧ r.Kindred r' := by
  have hall {motive : Asked → Prop} (hm : ∀ a ∈ as, motive a) : ∀ a ∈ as', motive a := by
    intro a ha
    exact hm a (h.mem_iff.mpr ha)
  cases hr with
  | noMember ha =>
    obtain ⟨a', ha'⟩ := exists_find?_of_perm h ha
    exact ⟨_, .noMember ha', .noMember _ _⟩
  | unknownFields hread hne =>
    have hperm := unknown_perm (w := w) h
    have hne' : w.unknown as' ≠ [] := fun hnil => hne (List.perm_nil.mp (hnil ▸ hperm))
    exact ⟨_, .unknownFields (hall hread) hne', .unknownFields _ (eraseDups_perm hperm)⟩
  | operatorRefused hread hknown ha =>
    obtain ⟨a', ha'⟩ := exists_find?_of_perm h ha
    exact ⟨_, .operatorRefused (hall hread) (hall hknown) ha', .operatorRefused _ _ _ _ _ _⟩
  | notAffirmed hread hknown hadmits ha =>
    obtain ⟨a', ha'⟩ := exists_find?_of_perm h ha
    exact ⟨_, .notAffirmed (hall hread) (hall hknown) (hall hadmits) ha', .notAffirmed _ _ _ _⟩

end Allowlist

namespace Policy
variable {y : Policy} {s s' : Source} {es es' : List Entry}

theorem asked_perm (hs : s.entries = .ok es) (hs' : s'.entries = .ok es') (h : es.Perm es') :
    (y.asked s).Perm (y.asked s') := by
  rw [asked_of_entries hs, asked_of_entries hs']
  exact (h.flatMap_right _).filterMap _

structure Reorders (y : Policy) (s s' : Source) : Prop where
  read : Agree Query.Reordered (y.read s) (y.read s')
  plan : Agree Plan.Reordered (y.plan s) (y.plan s')
  selects : ∀ p p', y.plan s = .ok p → y.plan s' = .ok p' → ∀ x table,
    Store.Collection.SelectsAlike x table p p'

section Entries
variable (hs : s.entries = .ok es) (hs' : s'.entries = .ok es') (hn : (es.map (·.1)).Nodup)
  (h : es.Perm es')
include hs hs' hn h

theorem read_agree : Agree Query.Reordered (y.read s) (y.read s') := by
  have hasked := asked_perm (y := y) hs hs' h
  have hlookup := lookup_perm hn h
  rw [read_of_entries hs, read_of_entries hs']
  cases hfs : (y.asked s).mapM Asked.read with
  | ok fs =>
    obtain ⟨fs', hfs', hperm⟩ := mapM_perm hasked hfs
    rw [hfs']
    exact .ok ⟨PageRequest.ofEntries_congr _ hlookup, OrderRequest.ofEntries_congr _ hlookup, hperm⟩
  | error r =>
    obtain ⟨a, ha, rfl⟩ := Asked.mapM_read_eq_error.mp hfs
    obtain ⟨a', ha'⟩ := exists_find?_of_perm hasked ha
    rw [Asked.mapM_read_eq_error.mpr ⟨a', ha', rfl⟩]
    exact .rejected (.noMember _ _)

omit hn in
theorem exists_plan_of_perm {p : Plan} (hp : y.plan s = .ok p) : ∃ p', y.plan s' = .ok p' := by
  have hasked := asked_perm (y := y) hs hs' h
  rcases plan_decided y s' with hp' | ⟨kind, hkind⟩ | ⟨r', hr'⟩
  · exact hp'
  · exact absurd (Source.readable_iff.mpr ⟨es', hs'⟩) (plan_eq_notAMapping.mp hkind).1
  · obtain ⟨r, hr, -⟩ := (plan_eq_rejected.mp hr').kindred hasked.symm
    rw [plan_eq_rejected.mpr hr] at hp
    cases hp

theorem plan_agree : Agree Plan.Reordered (y.plan s) (y.plan s') := by
  cases hp : y.plan s with
  | error e =>
    rcases plan_eq_error.mp hp with he | ⟨r, hr, rfl⟩
    · rw [hs] at he
      cases he
    · obtain ⟨r', hr', hkindred⟩ := hr.kindred (asked_perm hs hs' h)
      rw [plan_eq_rejected.mpr hr']
      exact .rejected hkindred
  | ok p =>
    obtain ⟨p', hp'⟩ := exists_plan_of_perm hs hs' h hp
    rw [hp']
    obtain ⟨hread, -, hconditions, horder, hlimit, hoffset⟩ := plan_eq_ok.mp hp
    obtain ⟨hread', -, hconditions', horder', hlimit', hoffset'⟩ := plan_eq_ok.mp hp'
    have hquery := read_agree (y := y) hs hs' hn h
    rw [hread, hread'] at hquery
    cases hquery with
    | ok hquery =>
      obtain ⟨cs, hcs, hperm⟩ := mapM_perm hquery.filters hconditions
      rw [Condition.ofFilters, hcs, Except.ok.injEq] at hconditions'
      refine .ok ⟨hquery, hconditions' ▸ hperm, ?_, ?_, ?_⟩
      · rw [horder, horder', hquery.order]
      · rw [hlimit, hlimit', hquery.page]
      · rw [hoffset, hoffset', hquery.page]

end Entries

/-- Neither the order of parameters with distinct keys nor the shape that they come in counts. -/
theorem reorders_of_perm (y : Policy) (a b : Shape) (ps ps' : List (String × String))
    (hn : (ps.map (·.1)).Nodup) (h : ps.Perm ps') : y.Reorders (a.source ps) (b.source ps') := by
  have hs := a.entries_source ps
  have hs' := b.entries_source ps'
  rw [settled_of_nodup hn] at hs
  rw [settled_of_nodup ((h.map _).nodup_iff.mp hn)] at hs'
  have hkeys : ((textEntries ps).map (·.1)).Nodup := by
    simpa [textEntries, Function.comp_def] using hn
  have hentries : (textEntries ps).Perm (textEntries ps') := h.map _
  have hplan := plan_agree (y := y) hs hs' hkeys hentries
  refine ⟨read_agree hs hs' hkeys hentries, hplan, ?_⟩
  intro p p' hp hp' x table
  rw [hp, hp'] at hplan
  cases hplan with
  | ok hreordered => exact Store.Collection.selectsAlike_of_reordered hreordered

def rolesFirst : List (String × String) :=
  [("filter[role][eq]", "admin"), ("page", "2"), ("filter[age][gte]", "30")]

def agesFirst : List (String × String) :=
  [("filter[age][gte]", "30"), ("filter[role][eq]", "admin"), ("page", "2")]

def roleCondition : Filter × Condition :=
  (⟨"role", .eq, .single "admin"⟩, ⟨"role", .eq, .one (.text "admin")⟩)

def ageCondition : Filter × Condition :=
  (⟨"age", .gte, .single "30"⟩, ⟨"age", .gte, .one (.text "30")⟩)

def secondPage (cs : List (Filter × Condition)) : Plan where
  query := ⟨⟨2, 20⟩, {}, cs.map (·.1)⟩
  conditions := cs.map (·.2)
  order := ⟨"createdAt", .desc⟩
  limit := some 20
  offset := 20

open Sample in
theorem reorders_rolesFirst :
    usersPolicy.plan (Shape.pairs.source rolesFirst) =
        .ok (secondPage [roleCondition, ageCondition]) ∧
      usersPolicy.plan (Shape.assigned.source agesFirst) =
        .ok (secondPage [ageCondition, roleCondition]) ∧
      Store.Collection.SelectsAlike activeUsers userRows
        (secondPage [roleCondition, ageCondition]) (secondPage [ageCondition, roleCondition]) := by
  have hreorders := usersPolicy.reorders_of_perm .pairs .assigned rolesFirst agesFirst (by decide)
    (by decide)
  have hroles : usersPolicy.plan (Shape.pairs.source rolesFirst) =
      .ok (secondPage [roleCondition, ageCondition]) := by decide +kernel
  have hages : usersPolicy.plan (Shape.assigned.source agesFirst) =
      .ok (secondPage [ageCondition, roleCondition]) := by decide +kernel
  exact ⟨hroles, hages, hreorders.selects _ _ hroles hages activeUsers userRows⟩

end Policy
end Listing
