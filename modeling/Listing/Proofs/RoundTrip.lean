import Mathlib
import Listing.Proofs.Rereading
import Listing.Sample.Users

/-! Round trips through query strings.
A query that keeps to the limits is read back from its query string as it was, and for another page
with nothing changed but the page. A query that was itself read keeps to them, unless it has two
filters of one field and operator; a query string states such filters by a name with a line feed at
its end and the same name without, and then one of the two is lost on the way back. -/
namespace Listing
open Listing.Parameter

theorem Parameter.Source.mem_keys_ofQueryString {s k : String} :
    k ∈ (ofQueryString s).keys ↔ k ∈ (Form.decode true s).map (·.1) := by
  rw [ofQueryString, keys, distinctKeys, List.mem_eraseDups, List.map_map]
  rfl

theorem Filter.twin_congr {filterKey : String} {ks ks' : List String}
    (h : ∀ k, k ∈ ks ↔ k ∈ ks') : Twin filterKey ks ↔ Twin filterKey ks' := by
  simp only [Twin, h]

theorem Filter.not_twin {filterKey : String} {ks : List String}
    (h : ∀ k ∈ ks, k.toList.getLast? ≠ some '\n') : ¬ Twin filterKey ks := by
  intro ht
  obtain ⟨field, o, -, -, -, hk⟩ := ht
  apply h _ hk
  simp [String.toList_append, Bracket.lineFeed]

namespace Query

variable {c : Config} {q : Query}

theorem distinct_of_ofSource_toQueryString (hc : c.Separable) {page : Option Int} {q' : Query}
    (h : ofSource c (.ofQueryString (q.toQueryString c page)) = .ok q') :
    Filter.Distinct q'.filters := by
  rw [distinct_iff_not_twin (Source.ofQueryString_flat _) h]
  intro ht
  obtain ⟨field, o, -, -, -, hk⟩ := ht
  rw [Source.mem_keys_ofQueryString, toQueryString, Form.decode_encode, pairs_eq, List.map_append,
    List.mem_append] at hk
  rcases hk with hk | hk
  · exact hc.not_filter _ (ownPairs_sublist.subset hk) (Bracket.name_lineFeed_begins _ _ _)
  · rw [List.map_map] at hk
    obtain ⟨f, -, hf⟩ := List.mem_map.mp hk
    exact Bracket.name_ne_name_lineFeed _ _ _ _ _ hf

theorem distinct_iff_of_ofQueryString {s : String} (h : ofSource c (.ofQueryString s) = .ok q) :
    Filter.Distinct q.filters ↔
      ¬ Filter.Twin c.filterKey ((Form.decode true s).map (·.1)) := by
  rw [distinct_iff_not_twin (Source.ofQueryString_flat s) h,
    Filter.twin_congr fun _ => Source.mem_keys_ofQueryString]

theorem ofNumbers_of_ofSource {s : Source} (hs : s.Flat)
    (hpage : c.defaultPage < 10 ^ Page.maxDigits) (hsize : c.maxPerPage < 10 ^ Page.maxDigits)
    (h : ofSource c s = .ok q) : PageRequest.ofNumbers c q.page.page q.page.perPage = q.page := by
  rw [((ofSource_eq_ok hs).mp h).2.1]
  exact PageRequest.ofNumbers_ofEntries hpage hsize _

end Query

namespace Policy
open Sample

theorem roundTrip_of_representable (y : Policy) (q : Query) (hc : y.config.Separable)
    (hq : q.Writable) (hd : Filter.Distinct q.filters) (hp : q.page.Representable y.config) :
    y.read (.ofQueryString (q.toQueryString y.config none)) = .ok q ∧
      y.reread q true = .ok q ∧
      ∀ n, PageRequest.Representable y.config ⟨n, q.page.perPage⟩ →
        y.read (.ofQueryString (q.toQueryString y.config (some n))) =
          .ok { q with page := ⟨n, q.page.perPage⟩ } := by
  refine ⟨?_, ?_, fun n hn => ?_⟩
  · rw [read, Query.ofSource_toQueryString hc hq hd, Option.getD_none, hp.ofNumbers_eq]
  · rw [reread, read, Query.ofSource_written hc hq hd, hp.ofNumbers_eq]
  · rw [read, Query.ofSource_toQueryString hc hq hd, Option.getD_some, hn.ofNumbers_eq]

def oddQuery : Query where
  page := ⟨3, 10⟩
  order := ⟨some "created at", some .desc⟩
  filters := [⟨"role", .eq, .single " a&b=c%2B+#[x]\nü\n"⟩, ⟨"role", .ne, .single ""⟩,
    ⟨"e\nmail&", .oneOf, .members ["a b", "+1", "𝄞"]⟩]

theorem roundTrip_oddQuery :
    usersPolicy.read (.ofQueryString (oddQuery.toQueryString .standard none)) = .ok oddQuery ∧
      usersPolicy.reread oddQuery true = .ok oddQuery ∧
      usersPolicy.read (.ofQueryString (oddQuery.toQueryString .standard (some 7))) =
        .ok { oddQuery with page := ⟨7, 10⟩ } := by
  obtain ⟨h, h', hpages⟩ := usersPolicy.roundTrip_of_representable oddQuery
    Config.separable_standard (by decide +kernel) (by decide) (by decide)
  exact ⟨h, h', hpages 7 (by decide)⟩

/-- A query that was read from a query string is read back as it was, and its neighbouring pages
have its filters and order, exactly if the query string has no twins. -/
theorem read_back_iff (y : Policy) (s : String) (q : Query) (hc : y.config.Separable)
    (hpage : y.config.defaultPage < 10 ^ Page.maxDigits)
    (hsize : y.config.maxPerPage < 10 ^ Page.maxDigits)
    (h : y.read (.ofQueryString s) = .ok q) :
    (y.read (.ofQueryString (q.toQueryString y.config none)) = .ok q ↔
        ¬ Filter.Twin y.config.filterKey ((Form.decode true s).map (·.1))) ∧
      ∀ page,
        (∃ n, y.read (.ofQueryString (q.toQueryString y.config (some page))) =
            .ok { q with page := ⟨n, q.page.perPage⟩ }) ↔
          ¬ Filter.Twin y.config.filterKey ((Form.decode true s).map (·.1)) := by
  have hflat := Source.ofQueryString_flat s
  have hq := Query.writable_of_ofSource hflat h
  have hnumbers := Query.ofNumbers_of_ofSource hflat hpage hsize h
  rw [← Query.distinct_iff_of_ofQueryString h]
  refine ⟨⟨fun hback => ?_, fun hd => ?_⟩, fun page => ⟨fun hback => ?_, fun hd => ?_⟩⟩
  · exact Query.distinct_of_ofSource_toQueryString hc hback
  · rw [read, Query.ofSource_toQueryString hc hq hd, Option.getD_none, hnumbers]
  · obtain ⟨n, hn⟩ := hback
    have hd := Query.distinct_of_ofSource_toQueryString hc hn
    exact hd
  · obtain ⟨n, hn⟩ := PageRequest.exists_ofNumbers page hnumbers
    exact ⟨n, by rw [read, Query.ofSource_toQueryString hc hq hd, Option.getD_some, hn]⟩

def linkedString : String := "page=2&sortBy=+age&filter[role][in]=a,+b&filter[role][eq]=x%0A"

def linkedQuery : Query where
  page := ⟨2, 20⟩
  order := ⟨some "age", none⟩
  filters := [⟨"role", .oneOf, .members ["a", "b"]⟩, ⟨"role", .eq, .single "x\n"⟩]

theorem read_back_linkedQuery :
    usersPolicy.read (.ofQueryString linkedString) = .ok linkedQuery ∧
      usersPolicy.read (.ofQueryString (linkedQuery.toQueryString .standard none)) =
        .ok linkedQuery ∧
      ∃ n, usersPolicy.read (.ofQueryString (linkedQuery.toQueryString .standard (some 3))) =
        .ok { linkedQuery with page := ⟨n, 20⟩ } := by
  have hread : usersPolicy.read (.ofQueryString linkedString) = .ok linkedQuery := by
    decide +kernel
  have htwin : ¬ Filter.Twin "filter" ((Form.decode true linkedString).map (·.1)) :=
    Filter.not_twin (by decide +kernel)
  obtain ⟨hback, hpages⟩ := usersPolicy.read_back_iff linkedString linkedQuery
    Config.separable_standard (by decide) (by decide) hread
  exact ⟨hread, hback.mpr htwin, (hpages 3).mpr htwin⟩

def twinString : String := "filter[role][eq]=a&filter[role][eq]%0A=b"

def twinQuery : Query where
  filters := [⟨"role", .eq, .single "a"⟩, ⟨"role", .eq, .single "b"⟩]

theorem read_back_twinQuery :
    usersPolicy.read (.ofQueryString twinString) = .ok twinQuery ∧
      usersPolicy.read (.ofQueryString (twinQuery.toQueryString .standard none)) =
        .ok { twinQuery with filters := [⟨"role", .eq, .single "b"⟩] } ∧
      usersPolicy.read (.ofQueryString (twinQuery.toQueryString .standard none)) ≠
        .ok twinQuery := by
  have hread : usersPolicy.read (.ofQueryString (twinQuery.toQueryString .standard none)) =
      .ok { twinQuery with filters := [⟨"role", .eq, .single "b"⟩] } := by
    decide +kernel
  refine ⟨by decide +kernel, hread, ?_⟩
  rw [hread]
  decide

end Policy
end Listing
