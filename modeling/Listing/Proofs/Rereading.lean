import Mathlib
import Listing.Link
import Listing.Proofs.Form
import Listing.Proofs.PageRequest
import Listing.Proofs.Reading
import Listing.Proofs.Shapes

/-! Queries that are written as query strings and read again.
The parameters of a written query have distinct names if the configured names are separable and no
two filters have one field and operator. Each part of the query is then read from its own
parameters: the page from two numbers, the order from its field and direction, the filters from one
parameter each. Two filters of one field and operator are written under one name, and only one of
them is read again; a query has such filters exactly if it was read from a query string in which a
filter's name occurs with a line feed at its end and without. -/
namespace Listing
open Listing.Parameter Listing.Text Listing.Number

def Config.names (c : Config) : List String :=
  [c.pageKey, c.perPageKey, c.sortByKey, c.sortOrderKey]

/-- The configured names differ, and none begins like the name of a filter. -/
structure Config.Separable (c : Config) : Prop where
  nodup : c.names.Nodup
  not_filter : ∀ k ∈ c.names, ¬ (c.filterKey ++ "[").toList <+: k.toList

theorem Config.separable_standard : Config.standard.Separable where
  nodup := by decide
  not_filter := by decide

theorem Config.Separable.parts?_eq_none {c : Config} (h : c.Separable) {k : String}
    (hk : k ∈ c.names) : Bracket.parts? c.filterKey k = none :=
  Bracket.parts?_eq_none (h.not_filter k hk)

theorem Filter.parameterName_begins (filterKey : String) (f : Filter) :
    (filterKey ++ "[").toList <+: (f.parameterName filterKey).toList := by
  refine ⟨f.field.toList ++ ']' :: '[' :: (f.operator.name.toList ++ [']']), ?_⟩
  rw [parameterName, Bracket.toList_name, String.toList_append]
  simp

namespace Query

def ownPairs (c : Config) (q : Query) (page : Option Int) : List (String × String) :=
  [(c.pageKey, intText (page.getD q.page.page)), (c.perPageKey, intText q.page.perPage)] ++
    (q.order.field.map fun f => (c.sortByKey, f)).toList ++
    (q.order.direction.map fun d => (c.sortOrderKey, d.name)).toList

theorem pairs_eq (c : Config) (q : Query) (page : Option Int) :
    q.pairs c page = q.ownPairs c page ++ q.filters.map (Filter.parameter c.filterKey) := rfl

variable {c : Config} {q : Query} {page : Option Int}

theorem ownPairs_sublist : ((q.ownPairs c page).map (·.1)).Sublist c.names := by
  rcases q with ⟨r, ⟨field, direction⟩, fs⟩
  cases field <;> cases direction <;> simp [ownPairs, Config.names]

theorem mem_names_of_ownPairs {p : String × String} (h : p ∈ q.ownPairs c page) : p.1 ∈ c.names :=
  ownPairs_sublist.subset (List.mem_map_of_mem h)

theorem not_parameterName {k : String} (hc : c.Separable) (hk : k ∈ c.names) (f : Filter) :
    k ≠ f.parameterName c.filterKey := by
  rintro rfl
  exact hc.not_filter _ hk (f.parameterName_begins c.filterKey)

theorem pairs_nodup (hc : c.Separable) (hq : q.Writable) (hd : Filter.Distinct q.filters) :
    ((q.pairs c page).map (·.1)).Nodup := by
  have hfilters : ((q.filters.map (Filter.parameter c.filterKey)).map (·.1)).Nodup := by
    rw [List.map_map, List.Nodup, List.pairwise_map]
    rw [Filter.Distinct, List.Nodup, List.pairwise_map] at hd
    refine hd.imp_of_mem fun hf hg hne he => hne ?_
    exact (Filter.parameterName_inj (hq.filters _ hf) (hq.filters _ hg)).mp he
  rw [pairs_eq, List.map_append, List.nodup_append]
  refine ⟨hc.nodup.sublist ownPairs_sublist, hfilters, ?_⟩
  rintro k hk k' hk' rfl
  obtain ⟨p, hp, rfl⟩ := List.mem_map.mp hk'
  obtain ⟨f, -, rfl⟩ := List.mem_map.mp hp
  exact not_parameterName hc (ownPairs_sublist.subset hk) f rfl

theorem lookup_parameters_eq_none (hc : c.Separable) {k : String} (hk : k ∈ c.names)
    (fs : List Filter) : (fs.map (Filter.parameter c.filterKey)).lookup k = none := by
  rw [List.lookup_eq_none_iff]
  intro p hp
  obtain ⟨f, -, rfl⟩ := List.mem_map.mp hp
  exact bne_iff_ne.mpr (not_parameterName hc hk f)

theorem lookup_pairs (hc : c.Separable) {k : String} (hk : k ∈ c.names) :
    (q.pairs c page).lookup k = (q.ownPairs c page).lookup k := by
  rw [pairs_eq, List.lookup_append, lookup_parameters_eq_none hc hk, Option.or_none]

theorem lookup_ownPairs (hc : c.Separable) (q : Query) (page : Option Int) :
    (q.ownPairs c page).lookup c.pageKey = some (intText (page.getD q.page.page)) ∧
      (q.ownPairs c page).lookup c.perPageKey = some (intText q.page.perPage) ∧
      (q.ownPairs c page).lookup c.sortByKey = q.order.field ∧
      (q.ownPairs c page).lookup c.sortOrderKey = q.order.direction.map Direction.name := by
  have hn := hc.nodup
  simp only [Config.names, List.nodup_cons, List.mem_cons, List.not_mem_nil, or_false,
    not_or, List.nodup_nil, not_false_eq_true, and_true] at hn
  obtain ⟨⟨h12, h13, h14⟩, ⟨h23, h24⟩, h34⟩ := hn
  have hs {a b : String} (h : a ≠ b) : (b == a) = false := beq_eq_false_iff_ne.mpr h.symm
  rcases q with ⟨r, ⟨field, direction⟩, fs⟩
  cases field <;> cases direction <;>
    simp [ownPairs, List.lookup_cons, hs h12, hs h13, hs h14, hs h23, hs h24, hs h34,
      hs (Ne.symm h34)]

theorem order_ofEntries (hc : c.Separable) (hq : q.Writable) :
    OrderRequest.ofEntries c (textEntries (q.pairs c page)) = q.order := by
  obtain ⟨-, -, hfield, hdirection⟩ := lookup_ownPairs hc q page
  rw [OrderRequest.ofEntries, lookup_textEntries, lookup_textEntries,
    lookup_pairs hc (by simp [Config.names]), lookup_pairs hc (by simp [Config.names]), hfield,
    hdirection]
  have hf : (q.order.field.map Value.text).bind OrderRequest.fieldOf = q.order.field := by
    cases h : q.order.field with
    | none => rfl
    | some f =>
      obtain ⟨hne, hstrip⟩ := hq.field f h
      show OrderRequest.fieldOf (.text f) = some f
      simp only [OrderRequest.fieldOf, Value.plain_text, hstrip, if_neg hne]
  have hd : ((q.order.direction.map Direction.name).map Value.text).bind Direction.ofValue? =
      q.order.direction := by
    cases q.order.direction with
    | none => rfl
    | some d => exact Direction.ofText?_name d
  rw [hf, hd]

theorem page_of_lookup (hc : c.Separable) {ps : List (String × String)}
    (h : ∀ k ∈ c.names, ps.lookup k = (q.ownPairs c page).lookup k) :
    PageRequest.ofEntries c (textEntries ps) =
      .ofNumbers c (page.getD q.page.page) q.page.perPage := by
  obtain ⟨hpage, hsize, -, -⟩ := lookup_ownPairs hc q page
  apply PageRequest.ofEntries_written
  · rw [lookup_textEntries, h c.pageKey (by simp [Config.names]), hpage]
    rfl
  · rw [lookup_textEntries, h c.perPageKey (by simp [Config.names]), hsize]
    rfl

theorem page_ofEntries (hc : c.Separable) :
    PageRequest.ofEntries c (textEntries (q.pairs c page)) =
      .ofNumbers c (page.getD q.page.page) q.page.perPage :=
  page_of_lookup hc fun _ hk => lookup_pairs hc hk

theorem filters_ofEntries (hc : c.Separable) (hq : q.Writable) :
    Filter.ofEntries c.filterKey (textEntries (q.pairs c page)) = .ok q.filters := by
  have hown : (q.ownPairs c page).filterMap (Filter.ofParameter? c.filterKey) = [] := by
    rw [List.filterMap_eq_nil_iff]
    intro p hp
    rw [Filter.ofParameter?, hc.parts?_eq_none (mem_names_of_ownPairs hp), Option.bind_none]
  have hfilters : q.filters.filterMap
      (Filter.ofParameter? c.filterKey ∘ Filter.parameter c.filterKey) = q.filters.map .ok := by
    rw [← List.filterMap_eq_map']
    exact List.filterMap_congr fun f hf => Filter.ofParameter?_parameter (hq.filters f hf) _
  rw [Filter.ofEntries_textEntries, pairs_eq, List.filterMap_append, hown, List.filterMap_map,
    hfilters, List.nil_append]

theorem ofEntries_pairs (hc : c.Separable) (hq : q.Writable) :
    Query.ofEntries c (textEntries (q.pairs c page)) =
      .ok { q with page := .ofNumbers c (page.getD q.page.page) q.page.perPage } := by
  rw [Query.ofEntries, filters_ofEntries hc hq, page_ofEntries hc, order_ofEntries hc hq]
  rfl

theorem entries_toQueryString (c : Config) (q : Query) (page : Option Int) :
    (Source.ofQueryString (q.toQueryString c page)).entries =
      .ok (textEntries (settled (q.pairs c page))) := by
  rw [Source.ofQueryString, toQueryString, Form.decode_encode]
  exact Shape.pairs.entries_source _

theorem ofSource_toQueryString (hc : c.Separable) (hq : q.Writable)
    (hd : Filter.Distinct q.filters) :
    Query.ofSource c (.ofQueryString (q.toQueryString c page)) =
      .ok { q with page := .ofNumbers c (page.getD q.page.page) q.page.perPage } := by
  have hentries := entries_toQueryString c q page
  rw [settled_of_nodup (pairs_nodup hc hq hd)] at hentries
  rw [ofSource_of_entries hentries, ofEntries_pairs hc hq]
  rfl

theorem ofSource_written (hc : c.Separable) (hq : q.Writable) (hd : Filter.Distinct q.filters) :
    Query.ofSource c (q.written c true) =
      .ok { q with page := .ofNumbers c q.page.page q.page.perPage } := by
  have hentries : (q.written c true).entries = .ok (textEntries (settled (q.pairs c none))) := by
    rw [written, toQueryString, Form.decode_encode]
    exact Shape.assigned.entries_source _
  rw [settled_of_nodup (pairs_nodup hc hq hd)] at hentries
  rw [ofSource_of_entries hentries, ofEntries_pairs hc hq]
  rfl

end Query
end Listing
