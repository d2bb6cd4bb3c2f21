import Mathlib
import Listing.Proofs.FilterNames

/-! Filters as reading yields them, whatever shape the parameters come in.
A list operator gets the items of its value: of one text the pieces between commas, of several
values the items of each, one after another. Any other operator gets one text. Filters of this form
are translated without loss, and only a null check that is not affirmed has no condition. -/
namespace Listing
open Listing.Parameter Listing.Text

theorem Text.splitOn_append_cons (sep : Char) (s r : List Char) :
    splitOn sep (s ++ sep :: r) = splitOn sep s ++ splitOn sep r := by
  induction s with
  | nil => simp [splitOn]
  | cons c s ih =>
    rw [List.cons_append, splitOn, splitOn]
    by_cases hc : c = sep
    · rw [if_pos hc, if_pos hc, ih, List.cons_append]
    · rw [if_neg hc, if_neg hc, ih]
      cases hs : splitOn sep s with
      | nil => exact absurd hs (splitOn_ne_nil sep s)
      | cons piece pieces => rfl

theorem Operator.isList_iff {o : Operator} : o.isList = true ↔ o = oneOf := by
  cases o <;> simp [isList]

namespace FilterValue

theorem itemsOf_append_comma (s t : String) :
    itemsOf (s ++ "," ++ t) = itemsOf s ++ itemsOf t := by
  have hsplit : splitOn ',' (s ++ "," ++ t).toList =
      splitOn ',' s.toList ++ splitOn ',' t.toList := by
    rw [String.toList_append, String.toList_append, List.append_assoc]
    exact splitOn_append_cons ',' s.toList t.toList
  rw [itemsOf, hsplit, List.map_append, List.filter_append, List.map_append, ← itemsOf, ← itemsOf]

theorem itemsOf_intercalate_eq_flatMap (ss : List String) :
    itemsOf (",".intercalate ss) = ss.flatMap itemsOf := by
  induction ss with
  | nil => rfl
  | cons s ss ih =>
    cases ss with
    | nil => rw [String.intercalate_singleton, List.flatMap_singleton]
    | cons t ss => rw [String.intercalate_cons_cons, itemsOf_append_comma, ih, ← List.flatMap_cons]

def rawItems : Value → List String
  | .list vs | .tuple vs => vs.flatMap fun v => itemsOf v.plain
  | v => itemsOf (scalarText v)

theorem itemsOf_rawText (v : Value) : itemsOf (rawText .oneOf v) = rawItems v := by
  have hjoined (vs : List Value) : itemsOf (",".intercalate (vs.map Value.plain)) =
      vs.flatMap fun v => itemsOf v.plain := by
    rw [itemsOf_intercalate_eq_flatMap, List.flatMap_map]
  cases v with
  | list vs | tuple vs => exact hjoined vs
  | _ => rfl

end FilterValue

namespace Filter
variable {a : Asked} {f : Filter}

structure IsReadFrom (a : Asked) (f : Filter) : Prop where
  field : f.field = a.field
  operator : f.operator = a.operator
  known : f.operator ∈ Operator.all
  items : a.operator = .oneOf → f.value = .members (FilterValue.rawItems a.raw) ∧
    FilterValue.rawItems a.raw ≠ [] ∧ ∀ t ∈ FilterValue.rawItems a.raw, FilterValue.IsItem t
  text : a.operator ≠ .oneOf → f.value = .single (FilterValue.rawText a.operator a.raw)

structure IsTranslated (f : Filter) : Prop where
  members : ∀ ts, f.value = .members ts →
    Condition.ofFilter f = .ok ⟨f.field, .oneOf, .many (ts.map .text)⟩
  refused : ∀ r, Condition.ofFilter f = .error r ↔
    f.operator.isNullCheck = true ∧ (∃ t, f.value = .single t ∧ strip t ≠ "true") ∧
      r = .notAffirmed f.field f.operator

theorem isReadFrom_filter (ho : a.operator ∈ Operator.all) (h : a.isEmptyList = false) :
    IsReadFrom a a.filter := by
  refine ⟨rfl, rfl, ho, fun hlist => ?_, fun hlist => ?_⟩
  · have hvalue : a.value = .members (FilterValue.rawItems a.raw) := by
      rw [Asked.value, if_pos (Operator.isList_iff.mpr hlist), Asked.text, hlist,
        FilterValue.itemsOf_rawText]
    have hcanonical := Asked.isCanonical_value h
    rw [hvalue] at hcanonical
    exact ⟨hvalue, hcanonical.2⟩
  · have hnot : ¬ a.operator.isList = true := mt Operator.isList_iff.mp hlist
    show a.value = _
    rw [Asked.value, if_neg hnot, Asked.text]

theorem IsReadFrom.isCanonical (h : IsReadFrom a f) : f.value.IsCanonical f.operator := by
  rw [h.operator]
  by_cases ho : a.operator = .oneOf
  · obtain ⟨hvalue, hne, hitems⟩ := h.items ho
    rw [hvalue]
    exact ⟨Operator.isList_iff.mpr ho, hne, hitems⟩
  · rw [h.text ho]
    exact Bool.eq_false_iff.mpr (mt Operator.isList_iff.mp ho)

theorem affirmed_eq_false_iff (hv : f.value.IsCanonical f.operator)
    (ho : f.operator.isNullCheck = true) :
    Condition.affirmed f = false ↔ ∃ t, f.value = .single t ∧ strip t ≠ "true" := by
  cases hvalue : f.value with
  | single t =>
    have haffirmed : Condition.affirmed f = (trim t.toList == "true".toList) := by
      rw [Condition.affirmed, hvalue]
    rw [haffirmed, beq_eq_false_iff_ne, ← toList_strip, ne_eq, String.toList_inj]
    simp
  | members ts =>
    rw [hvalue] at hv
    rw [Operator.isList_iff.mp hv.1] at ho
    cases ho

theorem isTranslated_of_isCanonical (ho : f.operator ∈ Operator.all)
    (hv : f.value.IsCanonical f.operator) : IsTranslated f := by
  refine ⟨fun ts hts => ?_, fun r => ?_⟩
  · rcases f with ⟨field, o, v⟩
    obtain rfl : v = .members ts := hts
    obtain ⟨hlist, hne, hitems⟩ := hv
    obtain rfl : o = .oneOf := Operator.isList_iff.mp hlist
    have hmembers : Condition.membersOf ⟨field, .oneOf, .members ts⟩ = .ok ts :=
      Condition.membersOf_members hne fun t ht => (hitems t ht).ne_empty
    simp only [Condition.ofFilter, hmembers, Except.map]
  · rw [Condition.ofFilter_eq_error ho hv, and_assoc]
    exact and_congr_right fun hcheck => and_congr_left fun _ => affirmed_eq_false_iff hv hcheck

end Filter

namespace Grammar
variable {filterKey : String} {s : Source} {fs : List Filter}

/-- Each filter that is asked for is read, and is in the form that its condition is made from. -/
structure ReadsCanonically (filterKey : String) (s : Source) (fs : List Filter) : Prop where
  asked : ∃ entries, s.entries = .ok entries ∧
    List.Forall₂ Filter.IsReadFrom (asked filterKey entries) fs
  items : ∀ f ∈ fs, f.operator = .oneOf →
    ∃ ts, f.value = .members ts ∧ ts ≠ [] ∧ ∀ t ∈ ts, FilterValue.IsItem t
  text : ∀ f ∈ fs, f.operator ≠ .oneOf → ∃ t, f.value = .single t
  translated : ∀ f ∈ fs, f.IsTranslated

theorem bracket_read_eq_map (h : (bracket filterKey).read s = .ok fs) :
    ∃ entries, s.entries = .ok entries ∧ fs = (asked filterKey entries).map Asked.filter ∧
      ∀ a ∈ asked filterKey entries, Filter.IsReadFrom a a.filter := by
  obtain ⟨entries, hentries, -⟩ := bind_eq_ok.mp h
  rw [bracket_read hentries, mapError_eq_ok] at h
  obtain ⟨hread, hfilters⟩ := Asked.mapM_read_eq_ok.mp h
  exact ⟨entries, hentries, hfilters, fun a ha =>
    Filter.isReadFrom_filter (operator_mem_of_asked ha) (hread a ha)⟩

theorem bracket_readsCanonically (filterKey : String) (s : Source) (fs : List Filter)
    (h : (bracket filterKey).read s = .ok fs) : ReadsCanonically filterKey s fs := by
  obtain ⟨entries, hentries, rfl, hread⟩ := bracket_read_eq_map h
  refine ⟨⟨entries, hentries, ?_⟩, ?_, ?_, ?_⟩
  · exact List.forall₂_map_right_iff.mpr (List.forall₂_same.mpr hread)
  · intro f hf ho
    obtain ⟨a, ha, rfl⟩ := List.mem_map.mp hf
    exact ⟨_, (hread a ha).items ho⟩
  · intro f hf ho
    obtain ⟨a, ha, rfl⟩ := List.mem_map.mp hf
    exact ⟨_, (hread a ha).text ho⟩
  · intro f hf
    obtain ⟨a, ha, rfl⟩ := List.mem_map.mp hf
    exact Filter.isTranslated_of_isCanonical (hread a ha).known (hread a ha).isCanonical

def shapelySource : Source := .mapping [
  (.text "filter", .mapping [
    (.text "age", .mapping [(.text "in", .list [.int 3, .text " 4,,5 ", .null, .text " "]),
      (.text "eq", .tuple [.text "x", .null])]),
    (.text "role", .mapping [(.text "isNull", .bool true)])]),
  (.text "filter[role][in]", .text "b, a ,b")]

def shapelyFilters : List Filter :=
  [⟨"age", .oneOf, .members ["3", "4", "5", "None"]⟩, ⟨"age", .eq, .single ""⟩,
    ⟨"role", .isNull, .single "True"⟩, ⟨"role", .oneOf, .members ["b", "a", "b"]⟩]

theorem bracket_readsCanonically_shapely :
    (bracket "filter").read shapelySource = .ok shapelyFilters ∧
      Condition.ofFilter ⟨"role", .oneOf, .members ["b", "a", "b"]⟩ =
        .ok ⟨"role", .oneOf, .many [.text "b", .text "a", .text "b"]⟩ ∧
      Condition.ofFilter ⟨"role", .isNull, .single "True"⟩ =
        .error (.notAffirmed "role" .isNull) := by
  have hread : (bracket "filter").read shapelySource = .ok shapelyFilters := by decide +kernel
  have hcanonical := bracket_readsCanonically "filter" shapelySource shapelyFilters hread
  refine ⟨hread, (hcanonical.translated _ (by decide)).members ["b", "a", "b"] rfl, ?_⟩
  exact ((hcanonical.translated _ (by decide)).refused _).mpr
    ⟨rfl, ⟨"True", rfl, by decide +kernel⟩, rfl⟩

end Grammar
end Listing
