import Mathlib
import Listing.Proofs.RoundTrip

/-! Going back along the links to the previous pages.
A page number of at most 18 digits is written and read as itself, so up to the page `10 ^ 18` the
link leads to the page before, and after as many links as there are pages before it the first page
is reached. Any greater page is the last one whose offset is representable; the number of the page
before it is read as the greatest offset and cut to that last page again, so the link leads to the
page that it stands on. There are pages that far only if they have fewer than ten rows. -/
namespace Listing
open Listing.Parameter Listing.Number

namespace PageRequest
open Page
variable {c : Config} {r : PageRequest}

def farthest : Int := 10 ^ maxDigits

theorem counted_of_farthest_le {n : Int} (h : farthest ≤ n) : counted n = maxOffset := by
  rw [farthest, maxDigits] at h
  have habs : ¬ n.natAbs < 10 ^ maxDigits := by
    rw [maxDigits]
    omega
  rw [counted, if_neg habs, if_neg (by omega)]

theorem ofNumbers_pred (h : ofNumbers c r.page r.perPage = r) (hall : r.perPage ≠ allRows)
    (hpage : 1 < r.page) :
    ofNumbers c (r.page - 1) r.perPage =
      ⟨if r.page ≤ farthest then r.page - 1 else r.page, r.perPage⟩ := by
  by_cases hfar : r.page ≤ farthest
  · rw [ofNumbers, if_neg hall] at h
    have hsize : perPageOfNumber c r.perPage = r.perPage := congrArg PageRequest.perPage h
    have hlast : min (pageOfNumber c r.page) (lastPage (perPageOfNumber c r.perPage)) = r.page :=
      congrArg PageRequest.page h
    have hpred : pageOfNumber c (r.page - 1) = r.page - 1 := by
      apply pageOfNumber_of_lt
      · omega
      · rw [farthest] at hfar
        omega
    rw [hsize] at hlast
    have hkept : min (r.page - 1) (lastPage r.perPage) = r.page - 1 := by omega
    rw [ofNumbers, if_neg hall, hpred, hsize, if_pos hfar, hkept]
  · have hsame : pageOfNumber c (r.page - 1) = pageOfNumber c r.page := by
      rw [pageOfNumber, pageOfNumber, counted_of_farthest_le (by omega),
        counted_of_farthest_le (by omega)]
    rw [ofNumbers, hsame, ← ofNumbers, h, if_neg hfar]

theorem Clamped.le_farthest (h : r.Clamped) (hsize : 10 ≤ r.perPage) : r.page ≤ farthest := by
  rcases h.perPage with hall | ⟨-, hoffset⟩
  · rw [hall, allRows] at hsize
    omega
  · have hten : (r.page - 1) * 10 ≤ (r.page - 1) * r.perPage := by
      have hpage := h.one_le_page
      nlinarith
    have hmax : maxOffset < 10 * 10 ^ 18 := by decide
    rw [farthest, maxDigits]
    omega

end PageRequest

namespace PageBlock
variable {r : PageRequest} {total : Int} {b : PageBlock}

theorem of_ofRequest (hall : r.perPage ≠ allRows) (h : ofRequest r total = .ok b) :
    b.page = r.page ∧ b.hasPrevious = decide (1 < r.page) := by
  have hpaginated : r.isUnpaginated = false := by simpa [PageRequest.isUnpaginated] using hall
  rw [ofRequest, hpaginated] at h
  split at h
  case isTrue => cases h
  case isFalse =>
    obtain ⟨pages, -, rfl⟩ := map_eq_ok.mp h
    exact ⟨rfl, rfl⟩

theorem exists_ofRequest (h : ∃ b, ofRequest r total = .ok b) (page : Int) :
    ∃ b, ofRequest ⟨page, r.perPage⟩ total = .ok b := by
  obtain ⟨b, h⟩ := h
  rw [ofRequest] at h ⊢
  by_cases hneg : total < 0
  · simp [hneg] at h
  · by_cases hall : r.isUnpaginated
    · have hall' : PageRequest.isUnpaginated ⟨page, r.perPage⟩ = true := hall
      simp [hneg, hall']
    · have hall' : ¬ PageRequest.isUnpaginated ⟨page, r.perPage⟩ = true := hall
      rw [if_neg hneg, if_neg hall] at h
      obtain ⟨pages, hpages, -⟩ := map_eq_ok.mp h
      rw [if_neg hneg, if_neg hall', hpages]
      exact ⟨_, rfl⟩

end PageBlock

namespace Query
variable {c : Config} {q : Query} {page : Option Int}

theorem lookup_settled_pairs (hc : c.Separable) {k : String} (hk : k ∈ c.names) :
    (settled (q.pairs c page)).lookup k = (q.ownPairs c page).lookup k := by
  have hown : settled (q.ownPairs c page) = q.ownPairs c page :=
    settled_of_nodup (hc.nodup.sublist ownPairs_sublist)
  rw [lookup_settled, pairs_eq, List.reverse_append, List.lookup_append, ← List.map_reverse,
    lookup_parameters_eq_none hc hk, Option.none_or, ← lookup_settled, hown]

theorem filters_settled_pairs (hc : c.Separable) (hq : q.Writable) (page : Option Int) :
    ∃ fs, Filter.ofEntries c.filterKey (textEntries (settled (q.pairs c page))) = .ok fs := by
  have hstates : ∀ x ∈ (settled (q.pairs c page)).filterMap (Filter.ofParameter? c.filterKey),
      ∃ f, id x = .ok f ∧ True := by
    intro x hx
    obtain ⟨p, hp, hx⟩ := List.mem_filterMap.mp hx
    have hmem := mem_of_mem_settled hp
    rw [pairs_eq, List.mem_append] at hmem
    rcases hmem with hown | hfilter
    · rw [Filter.ofParameter?, hc.parts?_eq_none (mem_names_of_ownPairs hown)] at hx
      cases hx
    · obtain ⟨f, hf, rfl⟩ := List.mem_map.mp hfilter
      rw [Filter.ofParameter?_parameter (hq.filters f hf)] at hx
      exact ⟨f, (Option.some.inj hx).symm, trivial⟩
  obtain ⟨fs, hfs, -⟩ := exists_mapM hstates
  rw [mapM_eq_ok, List.map_id] at hfs
  exact ⟨fs, Filter.ofEntries_textEntries.mpr hfs⟩

theorem exists_ofSource_toQueryString (hc : c.Separable) (hq : q.Writable) (page : Option Int) :
    ∃ q', ofSource c (.ofQueryString (q.toQueryString c page)) = .ok q' ∧
      q'.page = .ofNumbers c (page.getD q.page.page) q.page.perPage := by
  obtain ⟨fs, hfs⟩ := filters_settled_pairs hc hq page
  refine ⟨⟨.ofEntries c (textEntries (settled (q.pairs c page))),
    .ofEntries c (textEntries (settled (q.pairs c page))), fs⟩, ?_, ?_⟩
  · rw [ofSource_of_entries (entries_toQueryString c q page), mapError_eq_ok, ofEntries_eq_ok]
    exact ⟨hfs, rfl, rfl⟩
  · exact page_of_lookup hc fun k hk => lookup_settled_pairs hc hk

end Query

namespace Policy
variable {y : Policy} {q : Query}

def back (y : Policy) (total : Int) (q : Query) : Except Fault (Option Query) := do
  let b ← PageBlock.ofRequest q.page total
  match (Links.of y.config q b).previous with
  | none => return none
  | some link => return some (← y.read (.ofQueryString link))

/-- The query that as many links lead back to as totals are given, one for each page on the way. -/
def goBack (y : Policy) : List Int → Query → Except Fault (Option Query)
  | [], q => .ok (some q)
  | total :: r, q => do
    match ← y.back total q with
    | none => return none
    | some q => y.goBack r q

/-- Where the links to the previous pages lead to from a page that was read. -/
structure GoesBack (y : Policy) (q : Query) : Prop where
  /-- Up to a certain page the link leads to the page before, beyond it to the page itself. -/
  linked : 1 < q.page.page → ∀ total b, PageBlock.ofRequest q.page total = .ok b →
    ∃ link q', (Links.of y.config q b).previous = some link ∧
      y.read (.ofQueryString link) = .ok q' ∧
      q'.page = ⟨if q.page.page ≤ 10 ^ 18 then q.page.page - 1 else q.page.page, q.page.perPage⟩
  arrives : q.page.page ≤ 10 ^ 18 → ∀ totals,
    (∀ total ∈ totals, ∃ b, PageBlock.ofRequest q.page total = .ok b) →
    ((totals.length : Int) < q.page.page → ∃ q', y.goBack totals q = .ok (some q') ∧
      q'.page = ⟨q.page.page - totals.length, q.page.perPage⟩) ∧
    (q.page.page ≤ totals.length → y.goBack totals q = .ok none)
  stays : 10 ^ 18 < q.page.page → ∀ totals,
    (∀ total ∈ totals, ∃ b, PageBlock.ofRequest q.page total = .ok b) →
    ∃ q', y.goBack totals q = .ok (some q') ∧ q'.page = q.page
  sized : 10 ≤ q.page.perPage → q.page.page ≤ 10 ^ 18

section Read
variable {s : String} {total : Int} {totals : List Int}

theorem goBack_cons {q' : Query} (h : y.back total q = .ok (some q')) :
    y.goBack (total :: totals) q = y.goBack totals q' := by
  rw [goBack, h]
  rfl

theorem back_first (hall : q.page.perPage ≠ allRows) (hq : q.page.page = 1)
    (hb : ∃ b, PageBlock.ofRequest q.page total = .ok b) : y.back total q = .ok none := by
  obtain ⟨b, hb⟩ := hb
  obtain ⟨-, hprevious⟩ := PageBlock.of_ofRequest hall hb
  simp [back, hb, Links.of, hprevious, hq, bind, Except.bind, pure, Except.pure]

variable (hc : y.config.Separable) (hpage : y.config.defaultPage < 10 ^ Page.maxDigits)
  (hsize : y.config.maxPerPage < 10 ^ Page.maxDigits)
  (hread : y.read (.ofQueryString s) = .ok q) (hall : q.page.perPage ≠ allRows)
include hc hpage hsize hread hall

theorem exists_previous {b : PageBlock} (hq : 1 < q.page.page)
    (hb : PageBlock.ofRequest q.page total = .ok b) :
    ∃ link q', (Links.of y.config q b).previous = some link ∧
      y.read (.ofQueryString link) = .ok q' ∧
      q'.page = ⟨if q.page.page ≤ PageRequest.farthest then q.page.page - 1 else q.page.page,
        q.page.perPage⟩ := by
  have hflat := Source.ofQueryString_flat s
  have hwritable := Query.writable_of_ofSource hflat hread
  have hnumbers := Query.ofNumbers_of_ofSource hflat hpage hsize hread
  obtain ⟨hblock, hprevious⟩ := PageBlock.of_ofRequest hall hb
  obtain ⟨q', hq', hpage'⟩ :=
    Query.exists_ofSource_toQueryString hc hwritable (some (q.page.page - 1))
  refine ⟨q.toQueryString y.config (some (q.page.page - 1)), q', ?_, hq', ?_⟩
  · simp [Links.of, hprevious, hq, hblock]
  · rw [hpage', Option.getD_some, PageRequest.ofNumbers_pred hnumbers hall hq]

theorem exists_back (hq : 1 < q.page.page)
    (hb : ∃ b, PageBlock.ofRequest q.page total = .ok b) :
    ∃ link q', y.back total q = .ok (some q') ∧ y.read (.ofQueryString link) = .ok q' ∧
      q'.page = ⟨if q.page.page ≤ PageRequest.farthest then q.page.page - 1 else q.page.page,
        q.page.perPage⟩ := by
  obtain ⟨b, hb⟩ := hb
  obtain ⟨link, q', hprevious, hlink, hpage'⟩ :=
    exists_previous hc hpage hsize hread hall hq hb
  refine ⟨link, q', ?_, hlink, hpage'⟩
  simp [back, hb, hprevious, hlink, bind, Except.bind, pure, Except.pure]

/-- One link less for each page: the query that is gone back from was read from a link itself. -/
theorem goBack_near (hfar : q.page.page ≤ PageRequest.farthest)
    (htotals : ∀ total ∈ totals, ∃ b, PageBlock.ofRequest q.page total = .ok b) :
    ((totals.length : Int) < q.page.page → ∃ q', y.goBack totals q = .ok (some q') ∧
      q'.page = ⟨q.page.page - totals.length, q.page.perPage⟩) ∧
    (q.page.page ≤ totals.length → y.goBack totals q = .ok none) := by
  have hone := (Query.clamped_of_ofSource hread).one_le_page
  induction totals generalizing q s with
  | nil =>
    constructor
    · intro _
      exact ⟨q, rfl, by simp⟩
    · intro hle
      rw [List.length_nil] at hle
      omega
  | cons total r ih =>
    obtain ⟨hb, hr⟩ := List.forall_mem_cons.mp htotals
    by_cases hq : 1 < q.page.page
    · obtain ⟨link, q', hback, hlink, hpage'⟩ := exists_back hc hpage hsize hread hall hq hb
      rw [if_pos hfar] at hpage'
      have hr' : ∀ total ∈ r, ∃ b, PageBlock.ofRequest q'.page total = .ok b := by
        intro total ht
        rw [hpage']
        exact PageBlock.exists_ofRequest (hr total ht) _
      have hrest := ih hlink (by rw [hpage']; exact hall) (by rw [hpage']; simp; omega) hr'
        (Query.clamped_of_ofSource hlink).one_le_page
      simp only [hpage'] at hrest
      rw [goBack_cons hback, List.length_cons]
      constructor
      · intro hlt
        obtain ⟨q'', hq'', hpage''⟩ := hrest.1 (by omega)
        have hpages : q.page.page - 1 - r.length = q.page.page - (r.length + 1 : Nat) := by omega
        exact ⟨q'', hq'', by rw [hpage'', hpages]⟩
      · intro hle
        exact hrest.2 (by omega)
    · have hfirst : q.page.page = 1 := by omega
      constructor
      · intro hlt
        rw [List.length_cons] at hlt
        omega
      · intro _
        rw [goBack, back_first hall hfirst hb]
        rfl

theorem goBack_far (hfar : PageRequest.farthest < q.page.page)
    (htotals : ∀ total ∈ totals, ∃ b, PageBlock.ofRequest q.page total = .ok b) :
    ∃ q', y.goBack totals q = .ok (some q') ∧ q'.page = q.page := by
  induction totals generalizing q s with
  | nil => exact ⟨q, rfl, rfl⟩
  | cons total r ih =>
    obtain ⟨hb, hr⟩ := List.forall_mem_cons.mp htotals
    have hq : 1 < q.page.page := by
      rw [PageRequest.farthest, Page.maxDigits] at hfar
      omega
    obtain ⟨link, q', hback, hlink, hpage'⟩ := exists_back hc hpage hsize hread hall hq hb
    rw [if_neg (by omega)] at hpage'
    have hsame : q'.page = q.page := hpage'
    obtain ⟨q'', hq'', hpage''⟩ := ih hlink (hsame ▸ hall) (hsame ▸ hfar) (hsame ▸ hr)
    exact ⟨q'', (goBack_cons hback).trans hq'', hpage''.trans hsame⟩

end Read

open Sample

theorem goesBack_of_read (y : Policy) (s : String) (q : Query) (hc : y.config.Separable)
    (hpage : y.config.defaultPage < 10 ^ Page.maxDigits)
    (hsize : y.config.maxPerPage < 10 ^ Page.maxDigits)
    (hread : y.read (.ofQueryString s) = .ok q) (hall : q.page.perPage ≠ allRows) :
    y.GoesBack q where
  linked hq _ _ hb := exists_previous hc hpage hsize hread hall hq hb
  arrives hfar _ htotals := goBack_near hc hpage hsize hread hall hfar htotals
  stays hfar _ htotals := goBack_far hc hpage hsize hread hall hfar htotals
  sized := (Query.clamped_of_ofSource hread).le_farthest

def thirdQuery : Query where
  page := ⟨3, 20⟩

theorem goesBack_thirdQuery :
    usersPolicy.read (.ofQueryString "page=3") = .ok thirdQuery ∧
      (∃ q, usersPolicy.goBack [45, 44] thirdQuery = .ok (some q) ∧ q.page = ⟨1, 20⟩) ∧
      usersPolicy.goBack [45, 44, 0] thirdQuery = .ok none := by
  have hread : usersPolicy.read (.ofQueryString "page=3") = .ok thirdQuery := by decide +kernel
  have hback := usersPolicy.goesBack_of_read "page=3" thirdQuery Config.separable_standard
    (by decide) (by decide) hread (by decide)
  have hblock : ∀ total ∈ [45, 44, 0], ∃ b, PageBlock.ofRequest thirdQuery.page total = .ok b := by
    intro total ht
    fin_cases ht <;> exact ⟨_, rfl⟩
  refine ⟨hread, ?_, ?_⟩
  · have htotals : ∀ total ∈ [45, 44], ∃ b, PageBlock.ofRequest thirdQuery.page total = .ok b :=
      fun total ht => hblock total (by simp at ht ⊢; tauto)
    exact (hback.arrives (by decide) [45, 44] htotals).1 (by decide)
  · exact (hback.arrives (by decide) [45, 44, 0] hblock).2 (by decide)

def farQuery : Query where
  page := ⟨9223372036854775807, 1⟩

/-- The page before the last one that there can be is read as that last one again. -/
theorem not_goesBack_farQuery :
    Config.standard.Separable ∧
      usersPolicy.read (.ofQueryString "page=9223372036854775807&perPage=1") = .ok farQuery ∧
      ∃ b, PageBlock.ofRequest farQuery.page 0 = .ok b ∧
        (Links.of usersPolicy.config farQuery b).previous =
          some "page=9223372036854775806&perPage=1" ∧
        usersPolicy.read (.ofQueryString "page=9223372036854775806&perPage=1") = .ok farQuery ∧
        farQuery.page.page ≠ farQuery.page.page - 1 := by
  refine ⟨Config.separable_standard, by decide +kernel, _, rfl, by decide +kernel, by decide +kernel,
    by decide⟩

end Policy
end Listing
