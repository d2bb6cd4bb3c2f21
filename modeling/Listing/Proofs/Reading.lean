import Mathlib
import Listing.Proofs.Filters
import Listing.Proofs.PageRequest
import Listing.Query

/-! Queries that are read from flat sources.
A query is read exactly if each filter that some parameter states can be read, and it then has these
filters in the order of the parameters. Its page and its order come from the parameters that are
named for them. Whatever is read is writable: it has nothing that reading would change. -/
namespace Listing.Query
open Listing.Parameter Listing.Text

variable {c : Config} {q : Query} {s : Source}

theorem ofSource_of_entries {entries : List Entry} (h : s.entries = .ok entries) :
    ofSource c s = (ofEntries c entries).mapError Fault.rejected := by
  rw [ofSource, h]
  rfl

theorem ofEntries_eq_ok {entries : List Entry} :
    ofEntries c entries = .ok q ↔
      Filter.ofEntries c.filterKey entries = .ok q.filters ∧
        q.page = .ofEntries c entries ∧ q.order = .ofEntries c entries := by
  rw [ofEntries, map_eq_ok]
  constructor
  · intro h
    obtain ⟨fs, hfs, rfl⟩ := h
    exact ⟨hfs, rfl, rfl⟩
  · intro h
    obtain ⟨hfs, hpage, horder⟩ := h
    refine ⟨q.filters, hfs, ?_⟩
    rw [← hpage, ← horder]

theorem clamped_of_ofSource (h : ofSource c s = .ok q) : q.page.Clamped := by
  rw [ofSource, bind_eq_ok] at h
  obtain ⟨entries, -, h⟩ := h
  rw [mapError_eq_ok, ofEntries_eq_ok] at h
  rw [h.2.1]
  exact PageRequest.clamped_ofEntries _ _

theorem ofSource_eq_ok (hs : s.Flat) :
    ofSource c s = .ok q ↔
      s.parameters.filterMap (Filter.ofParameter? c.filterKey) = q.filters.map .ok ∧
        q.page = .ofEntries c (textEntries s.parameters) ∧
          q.order = .ofEntries c (textEntries s.parameters) := by
  rw [ofSource_of_entries hs.entries, mapError_eq_ok, ofEntries_eq_ok,
    Filter.ofEntries_textEntries]

/-- What a query has to satisfy, its page aside, to be told by its parameters. -/
structure Writable (q : Query) : Prop where
  field : ∀ f ∈ q.order.field, f ≠ "" ∧ strip f = f
  filters : ∀ f ∈ q.filters, f.IsCanonical

instance (q : Query) : Decidable q.Writable :=
  decidable_of_iff ((∀ f ∈ q.order.field, f ≠ "" ∧ strip f = f) ∧ ∀ f ∈ q.filters, f.IsCanonical)
    ⟨fun h => ⟨h.1, h.2⟩, fun h => ⟨h.1, h.2⟩⟩

theorem fieldOf_text (t : String) :
    OrderRequest.fieldOf (.text t) = if strip t = "" then none else some (strip t) := by
  rw [OrderRequest.fieldOf, Value.plain_text]
  exact fun h => nomatch h

theorem stripped_of_fieldOf {v : Value} {f : String} (h : OrderRequest.fieldOf v = some f) :
    f ≠ "" ∧ strip f = f := by
  unfold OrderRequest.fieldOf at h
  split at h
  case h_1 => cases h
  case h_2 =>
    split at h
    case isTrue => cases h
    case isFalse hne =>
      cases h
      exact ⟨hne, strip_strip _⟩

theorem isCanonical_of_mem {filterKey : String} {ps : List (String × String)} {fs : List Filter}
    (h : ps.filterMap (Filter.ofParameter? filterKey) = fs.map .ok) {f : Filter} (hf : f ∈ fs) :
    f.IsCanonical := by
  have hmem : Except.ok f ∈ ps.filterMap (Filter.ofParameter? filterKey) :=
    h ▸ List.mem_map_of_mem hf
  obtain ⟨p, -, hp⟩ := List.mem_filterMap.mp hmem
  exact (Filter.of_ofParameter? hp).1

theorem writable_of_ofSource (hs : s.Flat) (h : ofSource c s = .ok q) : q.Writable := by
  obtain ⟨hfilters, -, horder⟩ := (ofSource_eq_ok hs).mp h
  refine ⟨fun f hf => ?_, fun f hf => isCanonical_of_mem hfilters hf⟩
  rw [horder] at hf
  obtain ⟨v, -, hv⟩ := Option.bind_eq_some_iff.mp hf
  exact stripped_of_fieldOf hv

theorem distinct_iff_not_twin (hs : s.Flat) (h : ofSource c s = .ok q) :
    Filter.Distinct q.filters ↔ ¬ Filter.Twin c.filterKey s.keys := by
  have hnodup : (s.parameters.map (·.1)).Nodup := s.keys_parameters ▸ hs.keys_nodup
  rw [Filter.distinct_iff_not_twin hnodup ((ofSource_eq_ok hs).mp h).1, s.keys_parameters]

end Listing.Query
