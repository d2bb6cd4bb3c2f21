import Mathlib
import Listing.Walk
import Listing.Proofs.Fetching
import Listing.Proofs.Rereading

/-! Walks along the links to the next pages.
The link to the page after a given one is read as the query for that page, with nothing changed but
the page. So a walk that begins with the first page of a query visits one stretch of the rows after
another, up to the last: each row is on one page, and all pages together are all rows in order. -/
namespace Listing
open Listing.Parameter

def Query.onPage (q : Query) (page : Int) : Query := { q with page := ⟨page, q.page.perPage⟩ }

namespace Plan

def onPage (p : Plan) (page : Int) : Plan where
  query := p.query.onPage page
  conditions := p.conditions
  order := p.order
  limit := (p.query.onPage page).page.limit
  offset := (p.query.onPage page).page.offset

def pageSize (p : Plan) : Nat := p.query.page.perPage.toNat

def pageTotal (p : Plan) (total : Nat) : Nat := max 1 ((total + p.pageSize - 1) / p.pageSize)

theorem pageTotal_eq {p : Plan} {total k : Nat} (hsize : 0 < p.pageSize)
    (hk : k = 0 ∨ k * p.pageSize < total) (hend : total ≤ (k + 1) * p.pageSize) :
    p.pageTotal total = k + 1 := by
  have hceil : (total + p.pageSize - 1) / p.pageSize ≤ k + 1 := by
    rw [← Nat.lt_succ_iff, Nat.div_lt_iff_lt_mul hsize, Nat.succ_mul]
    omega
  rcases hk with rfl | hk
  · rw [pageTotal]
    omega
  · have hfloor : k + 1 ≤ (total + p.pageSize - 1) / p.pageSize := by
      rw [Nat.le_div_iff_mul_le hsize, Nat.succ_mul]
      omega
    rw [pageTotal]
    omega

end Plan

namespace Policy
variable {y : Policy} {q : Query} {p : Plan}

theorem query_of_prepare (h : y.prepare q = .ok p) : p.query = q := by
  obtain ⟨-, -, hp⟩ := prepare_eq_ok.mp h
  rw [hp]

theorem prepare_onPage (h : y.prepare q = .ok p) (page : Int) :
    y.prepare (q.onPage page) = .ok (p.onPage page) := by
  obtain ⟨hcheck, hconditions, hp⟩ := prepare_eq_ok.mp h
  refine prepare_eq_ok.mpr ⟨hcheck, hconditions, ?_⟩
  rw [Plan.onPage, hp]
  rfl

theorem read_link (hc : y.config.Separable) (hq : q.Writable) (hd : Filter.Distinct q.filters)
    {page : Int} (hpage : PageRequest.Representable y.config ⟨page, q.page.perPage⟩) :
    y.read (.ofQueryString (q.toQueryString y.config (some page))) = .ok (q.onPage page) := by
  rw [read, Query.ofSource_toQueryString hc hq hd, Option.getD_some, hpage.ofNumbers_eq]
  rfl

end Policy

section
variable {α : Type} {c : Config} {p : Plan} {rows : List α} {k : Nat} {v : Visit α}
  {vs : List (Visit α)}

def Visit.ofQuery (y : Policy) (x : Store.Collection) (session : Store.Session α) (q : Query) :
    Except Fault (Visit α) := do
  let p ← (y.prepare q).mapError Fault.rejected
  let o ← x.run session p
  return ofPage y.config p o.page o.executed

theorem Visit.stored_eq (y : Policy) (x : Store.Collection) (session : Store.Session α)
    (s : Source) : stored y x session s = y.read s >>= ofQuery y x session := by
  rw [stored, Policy.plan]
  cases y.read s <;> rfl

def walkOn (visit : Source → Except Fault (Visit α)) (heading : Heading) (most : Nat)
    (v : Visit α) : Except Fault (List (Visit α)) :=
  match v.links.to heading with
  | none => .ok [v]
  | some link => (walk visit heading most (.ofQueryString link)).map (v :: ·)

theorem walk_succ (visit : Source → Except Fault (Visit α)) (heading : Heading) (most : Nat)
    (s : Source) : walk visit heading (most + 1) s = visit s >>= walkOn visit heading most := by
  rw [walk]
  refine bind_congr fun v => ?_
  rw [walkOn]
  cases v.links.to heading with
  | none => rfl
  | some link => cases walk visit heading most (.ofQueryString link) <;> rfl

/-- A walk that begins with the page of a query and goes on to the next pages. -/
def walkFrom (y : Policy) (x : Store.Collection) (session : Store.Session α) (most : Nat)
    (q : Query) : Except Fault (List (Visit α)) :=
  Visit.ofQuery y x session q >>= walkOn (Visit.stored y x session) .next most

theorem walk_stored (y : Policy) (x : Store.Collection) (session : Store.Session α) (most : Nat)
    (s : Source) :
    walk (Visit.stored y x session) .next (most + 1) s =
      y.read s >>= walkFrom y x session most := by
  rw [walk_succ, Visit.stored_eq, bind_assoc]
  rfl

/-- A visit of the page that comes after `k` full pages of rows. -/
structure Visit.Shows (c : Config) (p : Plan) (rows : List α) (k : Nat) (v : Visit α) : Prop where
  plan : v.plan = p.onPage (k + 1)
  data : v.page.data = (rows.drop (k * p.pageSize)).take p.pageSize
  number : v.page.block.page = k + 1
  perPage : v.page.block.perPage = p.pageSize
  total : v.page.block.total = rows.length
  hasNext : v.page.block.hasNext = true ↔ (k + 1) * p.pageSize < rows.length
  links : v.links = .of c v.plan.query v.page.block

theorem Visit.Shows.next_eq_some (h : v.Shows c p rows k)
    (hmore : (k + 1) * p.pageSize < rows.length) :
    v.links.next = some (p.query.toQueryString c (some (((k + 1 : Nat) : Int) + 1))) := by
  rw [h.links, Links.of, if_pos (h.hasNext.mpr hmore), h.number, h.plan]
  rfl

theorem Visit.Shows.next_eq_none (h : v.Shows c p rows k)
    (hend : rows.length ≤ (k + 1) * p.pageSize) : v.links.next = none := by
  have hlast : ¬ v.page.block.hasNext = true := fun hnext => by
    have := h.hasNext.mp hnext
    omega
  rw [h.links, Links.of, if_neg hlast]

/-- Visits of all pages that come after `k` full pages of rows. -/
inductive Visits (c : Config) (p : Plan) (rows : List α) : Nat → List (Visit α) → Prop
  | last {k : Nat} {v : Visit α} (hv : v.Shows c p rows k)
      (hend : rows.length ≤ (k + 1) * p.pageSize) : Visits c p rows k [v]
  | more {k : Nat} {v : Visit α} {vs : List (Visit α)} (hv : v.Shows c p rows k)
      (hmore : (k + 1) * p.pageSize < rows.length) (hvs : Visits c p rows (k + 1) vs) :
      Visits c p rows k (v :: vs)

namespace Visits

theorem length_pos (h : Visits c p rows k vs) : 0 < vs.length := by
  cases h <;> exact Nat.succ_pos _

theorem length_eq (h : Visits c p rows k vs) (hsize : 0 < p.pageSize)
    (hk : k = 0 ∨ k * p.pageSize < rows.length) : k + vs.length = p.pageTotal rows.length := by
  induction h with
  | last _ hend => exact (p.pageTotal_eq hsize hk hend).symm
  | more _ hmore _ ih =>
    have := ih (.inr hmore)
    rw [List.length_cons]
    omega

theorem shows_of_getElem? (h : Visits c p rows k vs) {i : Nat} (hi : vs[i]? = some v) :
    v.Shows c p rows (k + i) := by
  induction h generalizing i with
  | last hv _ =>
    cases i with
    | zero =>
      cases hi
      exact hv
    | succ i => cases hi
  | more hv _ _ ih =>
    cases i with
    | zero =>
      cases hi
      exact hv
    | succ i =>
      have := ih hi
      rwa [Nat.add_assoc, Nat.add_comm 1 i] at this

theorem flatMap_data (h : Visits c p rows k vs) :
    vs.flatMap (·.page.data) = rows.drop (k * p.pageSize) := by
  induction h with
  | @last k v hv hend =>
    rw [List.flatMap_cons, List.flatMap_nil, List.append_nil, hv.data]
    refine List.take_of_length_le ?_
    rw [List.length_drop]
    rw [Nat.succ_mul] at hend
    omega
  | @more k v vs hv hmore hvs ih =>
    rw [List.flatMap_cons, ih, hv.data, Nat.succ_mul, ← List.drop_drop]
    exact List.take_append_drop _ _

theorem next_of_getLast? (h : Visits c p rows k vs) (hv : vs.getLast? = some v) :
    v.links.next = none := by
  induction h with
  | last hshows hend =>
    cases hv
    exact hshows.next_eq_none hend
  | @more k v' vs _ _ hvs ih =>
    have hne : vs ≠ [] := List.ne_nil_of_length_pos hvs.length_pos
    obtain ⟨w, r, rfl⟩ := List.exists_cons_of_ne_nil hne
    rw [List.getLast?_cons_cons] at hv
    exact ih hv

end Visits

theorem walkOn_visits (visit : Source → Except Fault (Visit α)) (hsize : 0 < p.pageSize)
    (hvisit : ∀ k, k * p.pageSize < rows.length →
      ∃ v, visit (.ofQueryString (p.query.toQueryString c (some ((k : Int) + 1)))) = .ok v ∧
        v.Shows c p rows k)
    (hv : v.Shows c p rows k) :
    ∃ vs, Visits c p rows k vs ∧
      ∀ most, vs.length ≤ most + 1 → walkOn visit .next most v = .ok vs := by
  -- What is left of the rows gets less with every page.
  induction hleft : rows.length - k * p.pageSize using Nat.strong_induction_on generalizing k v with
  | _ left ih =>
    rcases Nat.lt_or_ge ((k + 1) * p.pageSize) rows.length with hmore | hend
    · obtain ⟨v', hv', hshows⟩ := hvisit (k + 1) hmore
      have hless : rows.length - (k + 1) * p.pageSize < left := by
        rw [Nat.succ_mul] at hmore ⊢
        omega
      obtain ⟨vs, hvs, hwalk⟩ := ih _ hless hshows rfl
      refine ⟨v :: vs, .more hv hmore hvs, fun most hmost => ?_⟩
      rw [List.length_cons] at hmost
      have hpos := hvs.length_pos
      obtain ⟨m, rfl⟩ : ∃ m, most = m + 1 := ⟨most - 1, by omega⟩
      have hnext : v.links.to .next = _ := hv.next_eq_some hmore
      rw [walkOn, hnext]
      dsimp only
      rw [walk_succ, hv']
      show (walkOn visit .next m v').map _ = _
      rw [hwalk m (by omega)]
      rfl
    · refine ⟨[v], .last hv hend, fun most _ => ?_⟩
      have hnone : v.links.to .next = none := hv.next_eq_none hend
      rw [walkOn, hnone]

end

namespace Plan
variable {p : Plan} {k total : Nat}

theorem natCast_pageSize (h : 1 ≤ p.query.page.perPage) :
    (p.pageSize : Int) = p.query.page.perPage := Int.toNat_of_nonneg (by omega)

theorem pageSize_pos (h : 1 ≤ p.query.page.perPage) : 0 < p.pageSize := by
  rw [pageSize]
  omega

theorem isUnpaginated_onPage (h : 1 ≤ p.query.page.perPage) (page : Int) :
    (p.query.onPage page).page.isUnpaginated = false := by
  rw [PageRequest.isUnpaginated, beq_eq_false_iff_ne, allRows]
  show p.query.page.perPage ≠ -1
  omega

theorem limit_onPage (h : 1 ≤ p.query.page.perPage) (page : Int) :
    (p.onPage page).limit = some p.query.page.perPage := by
  show PageRequest.limit _ = _
  rw [PageRequest.limit, isUnpaginated_onPage h]
  rfl

theorem offset_onPage (h : 1 ≤ p.query.page.perPage) (k : Nat) :
    (p.onPage (k + 1)).offset = ((k * p.pageSize : Nat) : Int) := by
  show PageRequest.offset _ = _
  rw [PageRequest.offset, isUnpaginated_onPage h, Nat.cast_mul, natCast_pageSize h]
  show ((k : Int) + 1 - 1) * p.query.page.perPage = k * p.query.page.perPage
  rw [Int.add_sub_cancel]

theorem page_le (h : 1 ≤ p.query.page.perPage) (htotal : total ≤ 2 ^ 53)
    (hk : k = 0 ∨ k * p.pageSize < total) : k ≤ 2 ^ 53 ∧ k * p.pageSize ≤ 2 ^ 53 := by
  have hmul : k * p.pageSize ≤ 2 ^ 53 := by
    rcases hk with rfl | hk
    · rw [Nat.zero_mul]
      exact Nat.zero_le _
    · exact hk.le.trans htotal
  exact ⟨(Nat.le_mul_of_pos_right k (pageSize_pos h)).trans hmul, hmul⟩

theorem offset_le (h : 1 ≤ p.query.page.perPage) (htotal : total ≤ 2 ^ 53)
    (hk : k = 0 ∨ k * p.pageSize < total) :
    ((k : Int) + 1 - 1) * p.query.page.perPage ≤ Page.maxOffset := by
  have hle := (page_le h htotal hk).2
  have hmax : Page.maxOffset = 0x7FFFFFFFFFFFFFFF := rfl
  rw [Int.add_sub_cancel, ← natCast_pageSize h, hmax]
  omega

theorem clamped_onPage (h : 1 ≤ p.query.page.perPage) (htotal : total ≤ 2 ^ 53)
    (hk : k = 0 ∨ k * p.pageSize < total) : (p.onPage (k + 1)).query.page.Clamped where
  one_le_page := by
    show 1 ≤ (k : Int) + 1
    omega
  perPage := .inr ⟨h, offset_le h htotal hk⟩

theorem representable_onPage {c : Config} (h : 1 ≤ p.query.page.perPage)
    (hmax : p.query.page.perPage ≤ c.maxPerPage)
    (hdigits : p.query.page.perPage < 10 ^ Page.maxDigits) (htotal : total ≤ 2 ^ 53)
    (hk : k = 0 ∨ k * p.pageSize < total) :
    PageRequest.Representable c ⟨k + 1, p.query.page.perPage⟩ where
  one_le_page := by
    show 1 ≤ (k : Int) + 1
    omega
  page_lt := by
    have := (page_le h htotal hk).1
    show (k : Int) + 1 < 10 ^ Page.maxDigits
    rw [Page.maxDigits]
    omega
  perPage := .inr ⟨h, hmax, hdigits, offset_le h htotal hk⟩

end Plan

namespace Store

def Collection.arrangedRows (x : Collection) (a : Arrangement) (p : Plan) (ks : List Clause)
    (column : Column) (table : List Row) : List Row :=
  a.arrange (x.base ++ ks) column p.order.direction (x.matching p table)

theorem Collection.run_arranged {x : Collection} {p : Plan} {table : List Row} {column : Column}
    {ks : List Clause} (a : Arrangement) {n : Int} (hpage : p.query.page.Clamped)
    (hlimit : p.limit = p.query.page.limit) (hoffset : p.offset = p.query.page.offset)
    (hn : p.limit = some n) (hfits : Cell.fits n = true)
    (hks : x.schema.clauses p.conditions = .ok ks) (hbind : ∀ k ∈ x.base ++ ks, k.Bindable)
    (hcolumn : x.schema.column p.order.field = .ok column)
    (htotal : (x.matching p table).length ≤ 2 ^ 53) :
    ∃ o, x.run (.arranged a table) p = .ok o ∧
      o.page.data =
        ((x.arrangedRows a p ks column table).drop p.offset.toNat).take n.toNat ∧
      o.page.block.page = p.query.page.page ∧ o.page.block.perPage = n ∧
      o.page.block.total = (x.arrangedRows a p ks column table).length ∧
      (o.page.block.hasNext = true ↔
        p.offset + n < (x.arrangedRows a p ks column table).length) := by
  have hmatching : table.filter (satisfies (x.base ++ ks)) = x.matching p table := by
    rw [satisfies_append_clauses hks, matching]
  have hlimits : ∀ m ∈ p.limit, p.offset < (table.filter (satisfies (x.base ++ ks))).length →
      Cell.fits m = true := by
    intro m hm _
    rw [hn] at hm
    cases hm
    exact hfits
  have hfetch := fetch_arranged a x p table column p.order.direction x.model.table
    (Predicate.clausesOf_ofClauses _) hbind fun hwants => fits_window hpage hoffset hlimits hwants
  have hone := hpage.one_le_limit (hlimit.symm.trans hn)
  obtain ⟨b, hb, hnumber, hsize, hcount, hnext⟩ :=
    PageBlock.ofRequest_paginated hpage (hlimit.symm.trans hn)
      (PageBlock.lt_quotientLimit_mul htotal hone)
  have hlength : (x.arrangedRows a p ks column table).length = (x.matching p table).length :=
    a.length_arrange _ _ _ _
  rw [hmatching] at hfetch
  have hrespond (rows : List Row) :
      p.respond rows (x.matching p table).length = .ok ⟨rows, b⟩ := by
    rw [Plan.respond, PageOf.ofRows, hb]
    rfl
  refine ⟨_, run_of_fetch (statements_eq hks hcolumn) hfetch (hrespond _), ?_, hnumber, hsize, ?_,
    ?_⟩
  · rw [window, hn]
    rfl
  · rw [hlength]
    exact hcount
  · rw [hlength, hoffset]
    exact hnext htotal

end Store

section
open Store Sample
variable {y : Policy} {x : Collection} {p : Plan} {table : List Row} {ks : List Clause}
  {column : Column} {k : Nat}

theorem Visit.exists_shows (a : Arrangement) (hp : y.prepare p.query = .ok p)
    (hone : 1 ≤ p.query.page.perPage) (hdigits : p.query.page.perPage < 10 ^ Page.maxDigits)
    (hks : x.schema.clauses p.conditions = .ok ks) (hbind : ∀ k ∈ x.base ++ ks, k.Bindable)
    (hcolumn : x.schema.column p.order.field = .ok column)
    (htotal : (x.matching p table).length ≤ 2 ^ 53)
    (hk : k = 0 ∨ k * p.pageSize < (x.matching p table).length) :
    ∃ v, ofQuery y x (.arranged a table) (p.query.onPage (k + 1)) = .ok v ∧
      v.Shows y.config p (x.arrangedRows a p ks column table) k := by
  have hfits : Cell.fits p.query.page.perPage = true := by
    rw [Page.maxDigits] at hdigits
    rw [Cell.fits_iff]
    omega
  have hlimit := p.limit_onPage hone (k + 1)
  obtain ⟨o, hrun, hdata, hnumber, hperPage, hcount, hnext⟩ :=
    Collection.run_arranged (p := p.onPage (k + 1)) a (p.clamped_onPage hone htotal hk) rfl rfl
      hlimit hfits hks hbind hcolumn htotal
  rw [p.offset_onPage hone, Int.toNat_natCast] at hdata
  rw [p.offset_onPage hone, ← p.natCast_pageSize hone] at hnext
  refine ⟨.ofPage y.config (p.onPage (k + 1)) o.page o.executed, ?_, ?_⟩
  · rw [ofQuery, y.prepare_onPage hp]
    show (x.run _ _ >>= _) = _
    rw [hrun]
    rfl
  · refine ⟨rfl, hdata, hnumber, hperPage.trans (p.natCast_pageSize hone).symm, hcount,
      hnext.trans ?_, rfl⟩
    rw [Nat.succ_mul]
    exact_mod_cast Iff.rfl

structure Covers (c : Config) (p : Plan) (rows : List Row) (vs : List (Visit Row)) : Prop where
  length : vs.length = p.pageTotal rows.length
  shows : ∀ (k : Nat) (v : Visit Row), vs[k]? = some v → v.Shows c p rows k
  data : vs.flatMap (·.page.data) = rows
  ends : ∀ v ∈ vs.getLast?, v.links.next = none

/-- A walk from the first page of a query ends after its last page, and each row that the query is
about is on one page. -/
theorem walkFrom_arranged (y : Policy) (x : Collection) (a : Arrangement) (table : List Row)
    (q : Query) (p : Plan) (ks : List Clause) (column : Column) (hc : y.config.Separable)
    (hq : q.Writable) (hd : Filter.Distinct q.filters) (hfirst : q.page.page = 1)
    (hone : 1 ≤ q.page.perPage) (hmax : q.page.perPage ≤ y.config.maxPerPage)
    (hdigits : q.page.perPage < 10 ^ 18) (hp : y.prepare q = .ok p)
    (hks : x.schema.clauses p.conditions = .ok ks) (hbind : ∀ k ∈ x.base ++ ks, k.Bindable)
    (hcolumn : x.schema.column p.order.field = .ok column)
    (htotal : (x.matching p table).length ≤ 2 ^ 53) :
    ∃ vs, (∀ most, vs.length ≤ most + 1 → walkFrom y x (.arranged a table) most q = .ok vs) ∧
      Covers y.config p (x.arrangedRows a p ks column table) vs ∧
      (x.arrangedRows a p ks column table).Perm (x.matching p table) := by
  obtain rfl := Policy.query_of_prepare hp
  have hperm : (x.arrangedRows a p ks column table).Perm (x.matching p table) := a.perm _ _ _ _
  have hsize := p.pageSize_pos hone
  have hvisits (k : Nat) (hk : k = 0 ∨ k * p.pageSize < (x.matching p table).length) :=
    Visit.exists_shows (k := k) a hp hone hdigits hks hbind hcolumn htotal hk
  obtain ⟨v, hv, hshows⟩ := hvisits 0 (.inl rfl)
  have hfirstPage : p.query.onPage ((0 : Nat) + 1) = p.query := by
    rw [Query.onPage, Nat.cast_zero, Int.zero_add, ← hfirst]
  rw [hfirstPage] at hv
  obtain ⟨vs, hvs, hwalk⟩ := walkOn_visits (Visit.stored y x (.arranged a table)) hsize
    (fun k hk => by
      rw [hperm.length_eq] at hk
      obtain ⟨v, hv, hshows⟩ := hvisits k (.inr hk)
      refine ⟨v, ?_, hshows⟩
      rw [Visit.stored_eq,
        Policy.read_link hc hq hd (p.representable_onPage hone hmax hdigits htotal (.inr hk))]
      exact hv) hshows
  refine ⟨vs, fun most hmost => ?_, ⟨?_, fun k v hkv => ?_, ?_, fun v hv => ?_⟩, hperm⟩
  · rw [walkFrom, hv]
    exact hwalk most hmost
  · have := hvs.length_eq hsize (.inl rfl)
    omega
  · have := hvs.shows_of_getElem? hkv
    rwa [Nat.zero_add] at this
  · have := hvs.flatMap_data
    rwa [Nat.zero_mul, List.drop_zero] at this
  · exact hvs.next_of_getLast? hv

def adminsQuery : Query := ⟨⟨1, 5⟩, ⟨some "email", none⟩, [⟨"role", .eq, .single "admin"⟩]⟩

def adminsWalk : Plan where
  query := adminsQuery
  conditions := [⟨"role", .eq, .one (.text "admin")⟩]
  order := ⟨"email", .asc⟩
  limit := some 5
  offset := 0

theorem walkFrom_adminsQuery :
    (activeUsers.matching adminsWalk userRows).length = 13 ∧
      ∃ vs, walkFrom usersPolicy activeUsers (.arranged .sorted userRows) 2 adminsQuery = .ok vs ∧
        walk (Visit.stored usersPolicy activeUsers (.arranged .sorted userRows)) .next 3
          (.ofQueryString "perPage=5&sortBy=email&filter[role][eq]=admin") = .ok vs ∧
        vs.length = 3 ∧
        (vs.flatMap (·.page.data)).Perm (activeUsers.matching adminsWalk userRows) := by
  have hrows : (activeUsers.matching adminsWalk userRows).length = 13 := by decide +kernel
  have hks : activeUsers.schema.clauses adminsWalk.conditions =
      .ok [.compare ⟨"users", "role", .text⟩ .eq (.one (.text "admin"))] := by rfl
  obtain ⟨vs, hwalk, hcovers, hperm⟩ := walkFrom_arranged usersPolicy activeUsers .sorted userRows
    adminsQuery adminsWalk [.compare ⟨"users", "role", .text⟩ .eq (.one (.text "admin"))]
    ⟨"users", "email", .text⟩ Config.separable_standard (by decide +kernel) (by decide) rfl
    (by decide) (by decide) (by decide) (by decide +kernel) hks (by decide) (by decide)
    (by rw [hrows]; decide)
  have hlength : vs.length = 3 := by
    rw [hcovers.length, hperm.length_eq, hrows]
    rfl
  have hread : usersPolicy.read (.ofQueryString "perPage=5&sortBy=email&filter[role][eq]=admin") =
      .ok adminsQuery := by decide +kernel
  refine ⟨hrows, vs, hwalk 2 (by omega), ?_, hlength, ?_⟩
  · rw [walk_stored, hread]
    exact hwalk 2 (by omega)
  · rw [hcovers.data]
    exact hperm

def newestPlan : Plan where
  query := {}
  conditions := []
  order := ⟨"createdAt", .desc⟩
  limit := some 20
  offset := 0

/-- Walks on which nothing is filtered still fail on a field that names no column, and on a clause
of the collection that cannot be bound. -/
theorem walkFrom_fails :
    (Config.standard.Separable ∧ ({} : Query).Writable ∧ Filter.Distinct ({} : Query).filters) ∧
    (Policy.prepare ⟨strayAllowlist, .standard⟩ {} = .ok strayPlan ∧
      allUsers.schema.clauses strayPlan.conditions = .ok [] ∧
      (allUsers.matching strayPlan userRows).length ≤ 2 ^ 53 ∧
      ∀ a most, walkFrom ⟨strayAllowlist, .standard⟩ allUsers (.arranged a userRows) most {} =
        .error (.rejected (.unknownFields ["nope"] []))) ∧
    (usersPolicy.prepare {} = .ok newestPlan ∧
      wideUsers.schema.clauses newestPlan.conditions = .ok [] ∧
      (wideUsers.matching newestPlan userRows).length ≤ 2 ^ 53 ∧
      ∀ a most, walkFrom usersPolicy wideUsers (.arranged a userRows) most {} =
        .error .integerTooWide) := by
  have hsmall (x : Collection) (p : Plan) : (x.matching p userRows).length ≤ 2 ^ 53 :=
    (List.length_filter_le _ _).trans (by decide)
  refine ⟨⟨Config.separable_standard, by decide, by decide⟩,
    ⟨by decide, rfl, hsmall _ _, fun a most => ?_⟩, ⟨by decide, rfl, hsmall _ _, fun a most => ?_⟩⟩
  · rfl
  · rfl

end

end Listing
