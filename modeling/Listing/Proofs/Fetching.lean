import Mathlib
import Listing.Proofs.Admission
import Listing.Proofs.Arrangement
import Listing.Proofs.PageBlock
import Listing.Sample.Users

/-! What carrying out a plan on a table yields.
The rows that a plan is about are those of which every clause of the collection and every condition
of the plan is true. Both statements have the clauses of exactly these rows, so the total is their
number and the page is a stretch of them in order, whether or not the fetching statement is left
out. What may go wrong is told beforehand: by values that cannot be bound, by a field that names no
column, and by a total that is out of proportion to the page size. -/
namespace Listing

theorem Policy.clamped_of_plan {y : Policy} {s : Parameter.Source} {p : Plan}
    (h : y.plan s = .ok p) :
    p.query.page.Clamped ∧ p.limit = p.query.page.limit ∧ p.offset = p.query.page.offset := by
  obtain ⟨hread, -, -, -, hlimit, hoffset⟩ := plan_eq_ok.mp h
  exact ⟨Query.clamped_of_ofSource hread, hlimit, hoffset⟩

namespace Store
open Sample

def Schema.meets (h : Schema) (row : Row) (c : Condition) : Bool :=
  match h.clause c with
  | .ok k => k.holds row
  | .error _ => false

theorem Schema.meets_iff {h : Schema} {row : Row} {c : Condition} :
    h.meets row c = true ↔ ∃ k, h.clause c = .ok k ∧ k.truth row = some true := by
  rw [meets]
  cases h.clause c with
  | error e => simp
  | ok k => simp [Clause.holds]

theorem Schema.satisfies_clauses {h : Schema} {cs : List Condition} {ks : List Clause}
    (hks : h.clauses cs = .ok ks) (row : Row) : satisfies ks row = cs.all (h.meets row) := by
  have hall := forall₂_of_mapM hks
  clear hks
  induction hall with
  | nil => rfl
  | cons hk _ ih =>
    rw [satisfies, List.all_cons, List.all_cons, Schema.meets, hk]
    rw [satisfies] at ih
    rw [ih]

/-- The plan is about a row: every clause of the collection and every condition is true of it. -/
def Collection.admits (x : Collection) (p : Plan) (row : Row) : Bool :=
  satisfies x.base row && p.conditions.all (x.schema.meets row)

theorem Collection.admits_iff {x : Collection} {p : Plan} {row : Row} :
    x.admits p row = true ↔
      (∀ k ∈ x.base, k.truth row = some true) ∧
        ∀ c ∈ p.conditions, ∃ k, x.schema.clause c = .ok k ∧ k.truth row = some true := by
  simp [admits, satisfies, Clause.holds, Schema.meets_iff]

theorem sortRows_perm (column : Column) (d : Direction) (rows : List Row) :
    (sortRows column d rows).Perm rows := List.mergeSort_perm _ _

def Collection.matching (x : Collection) (p : Plan) (table : List Row) : List Row :=
  table.filter (x.admits p)

def Collection.ordered (x : Collection) (p : Plan) (column : Column) (table : List Row) :
    List Row :=
  sortRows column p.order.direction (x.matching p table)

theorem Collection.ordered_perm (x : Collection) (p : Plan) (column : Column) (table : List Row) :
    (x.ordered p column table).Perm (x.matching p table) := sortRows_perm _ _ _

/-- A page of a plan on a table, told by the rows that the plan is about. -/
structure IsPage (x : Collection) (p : Plan) (column : Column) (table : List Row)
    (page : PageOf Row) : Prop where
  total : page.block.total = (x.matching p table).length
  all : p.limit = none → page.data = x.ordered p column table
  window : ∀ n, p.limit = some n →
    page.data = ((x.ordered p column table).drop p.offset.toNat).take n.toNat
  unskipped : ∀ s, x.statements p = .ok s → page.data = s.2.rowsIn table
  matching : ∀ row ∈ page.data, row ∈ x.matching p table
  base : ∀ row ∈ x.matching p table, ∀ k ∈ x.base, k.truth row = some true
  length : ∀ n, p.limit = some n →
    (page.data.length : Int) = min n (max 0 (page.block.total - p.offset))
  hasNext : ∀ n, p.limit = some n → page.block.total ≤ 2 ^ 53 →
    (page.block.hasNext = true ↔ p.offset + n < page.block.total)
  unpaginated : p.limit = none → page.block.page = 1 ∧ page.block.hasNext = false

namespace Collection
variable {x : Collection} {p : Plan} {table : List Row} {column : Column} {ks : List Clause}

theorem exists_clauses (h : ∀ c ∈ p.conditions, ∃ k, x.schema.clause c = .ok k ∧ k.Bindable) :
    ∃ ks, x.schema.clauses p.conditions = .ok ks ∧ ∀ k ∈ ks, k.Bindable := exists_mapM h

theorem satisfies_append_clauses (hks : x.schema.clauses p.conditions = .ok ks) :
    satisfies (x.base ++ ks) = x.admits p := by
  funext row
  rw [satisfies_append, Schema.satisfies_clauses hks, admits]

theorem predicate_eq (x : Collection) (p : Plan) :
    x.predicate p =
      (x.schema.clauses p.conditions).map fun ks => Predicate.ofClauses (x.base ++ ks) := by
  rw [predicate, Schema.compile]
  cases x.schema.clauses p.conditions with
  | error e => rfl
  | ok ks => exact congrArg Except.ok (Predicate.combine_ofClauses x.base ks)

theorem statements_eq (hks : x.schema.clauses p.conditions = .ok ks)
    (hcolumn : x.schema.column p.order.field = .ok column) :
    x.statements p = .ok (.count x.model.table (Predicate.ofClauses (x.base ++ ks)),
      .rows x.model (Predicate.ofClauses (x.base ++ ks)) column p.order.direction (window p)) := by
  rw [statements, predicate_eq, hks, hcolumn]
  rfl

theorem statements_error {e : Fault} (hks : x.schema.clauses p.conditions = .error e) :
    x.statements p = .error e := by
  rw [statements, predicate_eq, hks]
  rfl

theorem statements_unsorted {r : Rejection} (hks : x.schema.clauses p.conditions = .ok ks)
    (hcolumn : x.schema.column p.order.field = .error r) :
    x.statements p = .error (.rejected r) := by
  rw [statements, predicate_eq, hks, hcolumn]
  rfl

theorem run_of_fetch {α : Type} {session : Session α} {st : Statement × Statement} {total : Int}
    {rows : List α} {page : PageOf α} (hst : x.statements p = .ok st)
    (hfetch : fetch session p st = .ok (total, rows)) (hpage : p.respond rows total = .ok page) :
    x.run session p = .ok ⟨page, executed p total st⟩ := by
  rw [run, bind_eq_ok]
  exact ⟨st, hst, bind_eq_ok.mpr ⟨_, hfetch, bind_eq_ok.mpr ⟨page, hpage, rfl⟩⟩⟩

theorem run_error_of_respond {α : Type} {session : Session α} {st : Statement × Statement}
    {total : Int} {rows : List α} {e : Fault} (hst : x.statements p = .ok st)
    (hfetch : fetch session p st = .ok (total, rows)) (hpage : p.respond rows total = .error e) :
    x.run session p = .error e := by
  rw [run, hst]
  show (fetch session p st >>= _) = _
  rw [hfetch]
  show (p.respond rows total >>= _) = _
  rw [hpage]
  rfl

theorem fetch_ofTable (x : Collection) (p : Plan) (table : List Row) (column : Column)
    (d : Direction) (name : String) {q : Option Predicate} (hq : Predicate.clausesOf q = ks)
    (hks : ∀ k ∈ ks, k.Bindable)
    (hwindow : wantsRows p (table.filter (satisfies ks)).length = true →
      ∀ v ∈ window p, Cell.fits v.limit = true ∧ Cell.fits v.offset = true) :
    fetch (.ofTable table) p (.count name q, .rows x.model q column d (window p)) =
      .ok ((table.filter (satisfies ks)).length,
        (Statement.rows x.model q column d (window p)).rowsIn table) := by
  rw [Session.ofTable_eq_arranged, Statement.rowsIn, hq]
  exact fetch_arranged .sorted x p table column d name hq hks hwindow

theorem exists_block (hpage : p.query.page.Clamped) (hlimit : p.limit = p.query.page.limit)
    (hoffset : p.offset = p.query.page.offset) {total : Nat}
    (htotal : ∀ n ∈ p.limit, (total : Int) < PageBlock.quotientLimit * n) :
    ∃ b, PageBlock.ofRequest p.query.page total = .ok b ∧ b.total = total ∧
      (p.limit = none → b.page = 1 ∧ b.hasNext = false) ∧
      ∀ n, p.limit = some n → b.total ≤ 2 ^ 53 → (b.hasNext = true ↔ p.offset + n < b.total) := by
  cases hn : p.limit with
  | none =>
    have hb := PageBlock.ofRequest_unpaginated (hlimit.symm.trans hn) total
    exact ⟨_, hb, rfl, fun _ => ⟨rfl, rfl⟩, nofun⟩
  | some n =>
    obtain ⟨b, hb, -, -, htotal, hnext⟩ :=
      PageBlock.ofRequest_paginated hpage (hlimit.symm.trans hn) (htotal n hn)
    refine ⟨b, hb, htotal, nofun, ?_⟩
    rintro _ ⟨⟩ hsmall
    rw [htotal] at hsmall ⊢
    rw [hoffset]
    exact hnext (by exact_mod_cast hsmall)

theorem fits_offset (hpage : p.query.page.Clamped) (hoffset : p.offset = p.query.page.offset) :
    Cell.fits p.offset = true := by
  have hnonneg := hpage.offset_nonneg
  have hle := hpage.offset_le
  have hmax : Page.maxOffset = 0x7FFFFFFFFFFFFFFF := rfl
  rw [hoffset, Cell.fits_iff]
  omega

theorem fits_window (hpage : p.query.page.Clamped) (hoffset : p.offset = p.query.page.offset)
    {total : Nat} (hlimit : ∀ n ∈ p.limit, p.offset < total → Cell.fits n = true)
    (hwants : wantsRows p total = true) :
    ∀ v ∈ window p, Cell.fits v.limit = true ∧ Cell.fits v.offset = true := by
  intro v hv
  obtain ⟨n, hn, rfl⟩ := Option.map_eq_some_iff.mp hv
  have hmore : p.offset < total := by
    rw [wantsRows, hn] at hwants
    exact of_decide_eq_true hwants
  exact ⟨hlimit n hn hmore, fits_offset hpage hoffset⟩

theorem rowsIn_eq_slice (hks : x.schema.clauses p.conditions = .ok ks) :
    (Statement.rows x.model (Predicate.ofClauses (x.base ++ ks)) column p.order.direction
        (window p)).rowsIn table =
      Window.slice (x.ordered p column table) (window p) := by
  rw [Statement.rowsIn, Predicate.clausesOf_ofClauses, satisfies_append_clauses hks, ordered,
    matching]

theorem mem_of_mem_slice {α : Type} {rows : List α} {w : Option Window} {row : α}
    (h : row ∈ Window.slice rows w) : row ∈ rows := by
  cases w with
  | none => exact h
  | some w => exact List.mem_of_mem_drop (List.mem_of_mem_take h)

theorem isPage_of_slice (hks : x.schema.clauses p.conditions = .ok ks)
    (hcolumn : x.schema.column p.order.field = .ok column) (hpage : p.query.page.Clamped)
    (hlimit : p.limit = p.query.page.limit) (hoffset : p.offset = p.query.page.offset)
    {b : PageBlock} (htotal : b.total = (x.matching p table).length)
    (hnone : p.limit = none → b.page = 1 ∧ b.hasNext = false)
    (hsome : ∀ n, p.limit = some n → b.total ≤ 2 ^ 53 →
      (b.hasNext = true ↔ p.offset + n < b.total)) :
    IsPage x p column table ⟨Window.slice (x.ordered p column table) (window p), b⟩ := by
  refine ⟨htotal, ?_, ?_, ?_, ?_, ?_, ?_, hsome, hnone⟩
  · intro hn
    rw [window, hn]
    rfl
  · intro n hn
    rw [window, hn]
    rfl
  · intro s hs
    rw [statements_eq hks hcolumn] at hs
    cases hs
    exact (rowsIn_eq_slice hks).symm
  · intro row hrow
    exact (x.ordered_perm p column table).mem_iff.mp (mem_of_mem_slice hrow)
  · intro row hrow
    exact (admits_iff.mp (List.mem_filter.mp hrow).2).1
  · intro n hn
    have hone := hpage.one_le_limit (hlimit.symm.trans hn)
    have hnonneg := hpage.offset_nonneg
    have hlength := (x.ordered_perm p column table).length_eq
    rw [← hoffset] at hnonneg
    rw [htotal, window, hn, Option.map_some, Window.slice, List.length_take, List.length_drop,
      hlength]
    dsimp only
    omega

end Collection

open Collection in
/-- A plan that was made from a source yields a page of the rows that it is about. -/
theorem run_ofTable (y : Policy) (s : Parameter.Source) (p : Plan) (x : Collection)
    (table : List Row) (column : Column) (hp : y.plan s = .ok p)
    (hbase : ∀ k ∈ x.base, k.Bindable)
    (hconditions : ∀ c ∈ p.conditions, ∃ k, x.schema.clause c = .ok k ∧ k.Bindable)
    (hcolumn : x.schema.column p.order.field = .ok column)
    (hlimit : ∀ n ∈ p.limit, p.offset < (x.matching p table).length → Cell.fits n = true)
    (htotal : ∀ n ∈ p.limit, ((x.matching p table).length : Int) < PageBlock.quotientLimit * n) :
    ∃ o, x.run (.ofTable table) p = .ok o ∧ IsPage x p column table o.page := by
  obtain ⟨hpage, hpageLimit, hoffset⟩ := y.clamped_of_plan hp
  obtain ⟨ks, hks, hbind⟩ := exists_clauses hconditions
  have hmatching : table.filter (satisfies (x.base ++ ks)) = x.matching p table := by
    rw [satisfies_append_clauses hks, matching]
  have hfetch := fetch_ofTable x p table column p.order.direction x.model.table
    (Predicate.clausesOf_ofClauses _) (List.forall_mem_append.mpr ⟨hbase, hbind⟩) fun hwants =>
      fits_window hpage hoffset (by rwa [hmatching]) hwants
  obtain ⟨b, hb, hcount, hnone, hsome⟩ := exists_block hpage hpageLimit hoffset htotal
  rw [hmatching, rowsIn_eq_slice hks] at hfetch
  have hrespond (rows : List Row) :
      p.respond rows (x.matching p table).length = .ok ⟨rows, b⟩ := by
    rw [Plan.respond, PageOf.ofRows, hb]
    rfl
  exact ⟨_, run_of_fetch (statements_eq hks hcolumn) hfetch (hrespond _),
    isPage_of_slice hks hcolumn hpage hpageLimit hoffset hcount hnone hsome⟩

def adminsString : String := "page=2&perPage=3&filter[role][eq]=admin&sortBy=email"

def adminsPlan : Plan where
  query := ⟨⟨2, 3⟩, ⟨some "email", none⟩, [⟨"role", .eq, .single "admin"⟩]⟩
  conditions := [⟨"role", .eq, .one (.text "admin")⟩]
  order := ⟨"email", .asc⟩
  limit := some 3
  offset := 3

theorem run_ofTable_admins :
    ∃ o, activeUsers.run (.ofTable userRows) adminsPlan = .ok o ∧ o.page.block.total = 13 ∧
      o.page.data.length = 3 ∧ o.page.block.hasNext = true := by
  have hplan : usersPolicy.plan (.ofQueryString adminsString) = .ok adminsPlan := by
    decide +kernel
  have hconditions : ∀ c ∈ adminsPlan.conditions,
      ∃ k, activeUsers.schema.clause c = .ok k ∧ k.Bindable := by
    intro c hc
    obtain rfl := List.mem_singleton.mp hc
    exact ⟨.compare ⟨"users", "role", .text⟩ .eq (.one (.text "admin")), by rfl, by decide⟩
  have hrows : (activeUsers.matching adminsPlan userRows).length = 13 := by decide +kernel
  obtain ⟨o, hrun, hpage⟩ := run_ofTable usersPolicy (.ofQueryString adminsString) adminsPlan
    activeUsers userRows ⟨"users", "email", .text⟩ hplan (by decide) hconditions (by decide)
    (by rintro n ⟨⟩ -; decide) (by rintro n ⟨⟩; rw [hrows]; decide +kernel)
  have htotal : o.page.block.total = 13 := by rw [hpage.total, hrows]; rfl
  refine ⟨o, hrun, htotal, ?_, ?_⟩
  · have hlength := hpage.length 3 rfl
    have hoffset : adminsPlan.offset = 3 := rfl
    rw [htotal, hoffset] at hlength
    omega
  · rw [hpage.hasNext 3 rfl (by rw [htotal]; decide), htotal]
    decide

def wideConfig : Config :=
  { Config.standard with
    defaultPerPage := 0x8000000000000000
    maxPerPage := 0x8000000000000000
    one_le_maxPerPage := by decide
    one_le_defaultPerPage := by decide
    defaultPerPage_le := Int.le_refl _ }

def widePlan : Plan where
  query := ⟨⟨1, 0x8000000000000000⟩, {}, []⟩
  conditions := []
  order := ⟨"createdAt", .desc⟩
  limit := some 0x8000000000000000
  offset := 0

def strayAllowlist : Allowlist where
  sortFields := ["nope"]
  filterFields := []
  defaultOrder := ⟨"nope", .asc⟩
  default_sortable := by decide
  restrictions_filterable := by simp

def strayPlan : Plan where
  query := {}
  conditions := []
  order := ⟨"nope", .asc⟩
  limit := some 20
  offset := 0

def wideUsers : Collection :=
  ⟨users, usersSchema, [.compare ⟨"users", "age", .integer⟩ .eq (.one (.int 0x8000000000000000))]⟩

def singlePlan : Plan where
  query := ⟨⟨1, 1⟩, {}, []⟩
  conditions := []
  order := ⟨"createdAt", .desc⟩
  limit := some 1
  offset := 0

open Collection in
/-- Plans without any condition still fail on a page size or a clause of the collection that cannot
be bound, on a field that names no column, and on a total out of all proportion. -/
theorem run_ofTable_fails :
    (Policy.plan ⟨usersAllowlist, wideConfig⟩ .absent = .ok widePlan ∧
      allUsers.run (.ofTable userRows) widePlan = .error .integerTooWide) ∧
    (Policy.plan ⟨strayAllowlist, .standard⟩ .absent = .ok strayPlan ∧
      allUsers.run (.ofTable userRows) strayPlan =
        .error (.rejected (.unknownFields ["nope"] []))) ∧
    (usersPolicy.plan (.ofQueryString "perPage=1") = .ok singlePlan ∧
      wideUsers.run (.ofTable userRows) singlePlan = .error .integerTooWide ∧
      ∀ row, allUsers.run (.ofTable (List.replicate (2 ^ 1024) row)) singlePlan =
        .error .quotientTooLarge) := by
  refine ⟨⟨by decide +kernel, by rfl⟩, ⟨by decide +kernel, by rfl⟩, by decide +kernel, by rfl, ?_⟩
  intro row
  have hall : ((List.replicate (2 ^ 1024) row).filter (satisfies [])).length = 2 ^ 1024 := by
    have hself : (List.replicate (2 ^ 1024) row).filter (satisfies []) =
        List.replicate (2 ^ 1024) row := List.filter_eq_self.mpr fun _ _ => rfl
    rw [hself, List.length_replicate]
  have hwindow : ∀ v ∈ window singlePlan, Cell.fits v.limit = true ∧ Cell.fits v.offset = true := by
    decide
  have hfetch := fetch_ofTable allUsers singlePlan (List.replicate (2 ^ 1024) row)
    ⟨"users", "created_at", .datetime⟩ .desc "users" (show Predicate.clausesOf none = [] from rfl)
    (List.forall_mem_nil _) fun _ => hwindow
  rw [hall] at hfetch
  have hst : allUsers.statements singlePlan = .ok (.count "users" none, .rows users none
    ⟨"users", "created_at", .datetime⟩ .desc (window singlePlan)) := by rfl
  have hblock : PageBlock.ofRequest singlePlan.query.page ((2 ^ 1024 : Nat) : Int) =
      .error .quotientTooLarge := by decide +kernel
  refine run_error_of_respond hst hfetch ?_
  rw [Plan.respond, PageOf.ofRows, hblock]
  rfl

end Store
end Listing
