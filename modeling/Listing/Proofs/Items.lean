import Mathlib
import Listing.Filter.Reading
import Listing.Text.Blank

/-! Trimmed texts, and lists of them in one text.
What is read from a list of items is trimmed, without a comma and not empty, and items of that kind
come back from the text that joins them. -/
namespace Listing.Text

theorem trim_isPrefix_dropWhile (s : List Char) : trim s <+: s.dropWhile isBlank :=
  List.rdropWhile_prefix isBlank (s.dropWhile isBlank)

theorem mem_of_mem_trim {s : List Char} {c : Char} (h : c ∈ trim s) : c ∈ s :=
  (List.dropWhile_suffix isBlank).subset ((trim_isPrefix_dropWhile s).subset h)

theorem trimmed_trim (s : List Char) : Trimmed (trim s) := by
  constructor
  · intro c hc
    obtain ⟨r, hr⟩ := trim_isPrefix_dropWhile s
    have hhead : (s.dropWhile isBlank).head? = some c := by
      rw [← hr]
      cases ht : trim s with
      | nil => simp [ht] at hc
      | cons d t => rw [ht] at hc; exact hc
    have hnot := List.head?_dropWhile_not isBlank s
    rw [hhead] at hnot
    simpa using hnot
  · intro c hc
    have hne : trim s ≠ [] := by
      intro ht
      simp [ht] at hc
    have hnot := List.rdropWhile_last_not isBlank (s.dropWhile isBlank) hne
    rw [List.getLast?_eq_some_getLast hne, Option.some.injEq] at hc
    have hlast : ((s.dropWhile isBlank).rdropWhile isBlank).getLast hne = c := hc
    rw [hlast] at hnot
    simpa using hnot

theorem trim_trim (s : List Char) : trim (trim s) = trim s := trim_of_trimmed (trimmed_trim s)

theorem trim_eq_nil_iff {s : List Char} : trim s = [] ↔ ∀ c ∈ s, isBlank c = true := by
  constructor
  · intro h
    have hall : ∀ c ∈ s.dropWhile isBlank, isBlank c = true :=
      List.rdropWhile_eq_nil_iff.mp (show (s.dropWhile isBlank).rdropWhile isBlank = [] from h)
    have hnil : s.dropWhile isBlank = [] := by
      cases hs : s.dropWhile isBlank with
      | nil => rfl
      | cons c r =>
        have hnot := List.head?_dropWhile_not isBlank s
        rw [hs] at hnot hall
        have hblank := hall c List.mem_cons_self
        simp [hblank] at hnot
    exact List.dropWhile_eq_nil_iff.mp hnil
  · exact trim_blank

theorem strip_strip (s : String) : strip (strip s) = strip s := by
  rw [strip, toList_strip, trim_trim, ← strip]

theorem strip_eq_self {s : String} : strip s = s ↔ trim s.toList = s.toList := by
  rw [← String.toList_inj, toList_strip]

end Listing.Text

namespace Listing.FilterValue
open Listing.Text Listing.Parameter

structure IsItem (t : String) : Prop where
  ne_empty : t ≠ ""
  strip_eq : strip t = t
  not_comma : ',' ∉ t.toList

instance (t : String) : Decidable (IsItem t) :=
  decidable_of_iff (t ≠ "" ∧ strip t = t ∧ ',' ∉ t.toList)
    ⟨fun h => ⟨h.1, h.2.1, h.2.2⟩, fun h => ⟨h.1, h.2, h.3⟩⟩

theorem isItem_of_mem_itemsOf {s t : String} (h : t ∈ itemsOf s) : IsItem t := by
  obtain ⟨x, hx, rfl⟩ := List.mem_map.mp h
  obtain ⟨hx, hne⟩ := List.mem_filter.mp hx
  obtain ⟨piece, hpiece, rfl⟩ := List.mem_map.mp hx
  refine ⟨?_, ?_, ?_⟩
  · intro he
    rw [← String.toList_inj, String.toList_ofList] at he
    simp [he] at hne
  · rw [strip_eq_self, String.toList_ofList, trim_trim]
  · rw [String.toList_ofList]
    exact fun hc => not_mem_of_mem_splitOn hpiece (mem_of_mem_trim hc)

theorem itemsOf_eq_nil_iff {s : String} :
    itemsOf s = [] ↔ ∀ piece ∈ splitOn ',' s.toList, ∀ c ∈ piece, isBlank c = true := by
  rw [itemsOf, List.map_eq_nil_iff, List.filter_eq_nil_iff, List.forall_mem_map]
  simp only [Bool.not_eq_true, Bool.not_eq_false', List.isEmpty_iff, trim_eq_nil_iff]

theorem itemsOf_intercalate {ts : List String} (hne : ts ≠ []) (h : ∀ t ∈ ts, IsItem t) :
    itemsOf (",".intercalate ts) = ts := by
  have hsplit : splitOn ',' (",".intercalate ts).toList = ts.map String.toList := by
    rw [String.toList_intercalate]
    cases ts with
    | nil => exact absurd rfl hne
    | cons t r =>
      refine splitOn_intercalate fun q hq => ?_
      obtain ⟨x, hx, rfl⟩ := List.mem_map.mp (List.map_cons ▸ hq)
      exact (h x hx).not_comma
  have htrim : (ts.map String.toList).map trim = ts.map String.toList := by
    rw [List.map_map]
    exact List.map_congr_left fun t ht => strip_eq_self.mp (h t ht).strip_eq
  have hkeep : (ts.map String.toList).filter (fun item => !item.isEmpty) =
      ts.map String.toList := by
    rw [List.filter_eq_self]
    intro item hitem
    obtain ⟨t, ht, rfl⟩ := List.mem_map.mp hitem
    simpa using (h t ht).ne_empty
  rw [itemsOf, hsplit, htrim, hkeep, List.map_map]
  simp

def IsCanonical (o : Operator) : FilterValue → Prop
  | single _ => o.isList = false
  | members ts => o.isList = true ∧ ts ≠ [] ∧ ∀ t ∈ ts, IsItem t

instance (o : Operator) : (v : FilterValue) → Decidable (IsCanonical o v)
  | single _ => inferInstanceAs (Decidable (o.isList = false))
  | members ts => inferInstanceAs (Decidable (o.isList = true ∧ ts ≠ [] ∧ ∀ t ∈ ts, IsItem t))

theorem ofRaw_text (field : String) (o : Operator) (s : String) :
    ofRaw field o (.text s) =
      if o.isList then
        match itemsOf s with
        | [] => .error (.noMember field)
        | items => .ok (members items)
      else .ok (single s) := rfl

theorem eq_of_ofRaw {field : String} {o : Operator} {s : String} {v : FilterValue}
    (h : ofRaw field o (.text s) = .ok v) :
    v = if o.isList then .members (itemsOf s) else .single s := by
  rw [ofRaw_text] at h
  split at h
  case isTrue ho =>
    rw [if_pos ho]
    split at h <;> cases h
    rfl
  case isFalse ho =>
    rw [if_neg ho]
    cases h
    rfl

theorem isCanonical_of_ofRaw {field : String} {o : Operator} {raw : Value} {v : FilterValue}
    (h : ofRaw field o raw = .ok v) : IsCanonical o v := by
  unfold ofRaw at h
  split at h
  case isTrue ho =>
    split at h
    case h_1 => cases h
    case h_2 items hne =>
      cases h
      exact ⟨ho, hne, fun t ht => isItem_of_mem_itemsOf ht⟩
  case isFalse ho =>
    cases h
    simpa [IsCanonical] using ho

theorem ofRaw_joined {o : Operator} {v : FilterValue} (h : IsCanonical o v) (field : String) :
    ofRaw field o (.text v.joined) = .ok v := by
  cases v with
  | single s =>
    have ho : o.isList = false := h
    rw [ofRaw_text, ho]
    rfl
  | members ts =>
    obtain ⟨ho, hne, hitems⟩ := h
    rw [ofRaw_text, ho, joined, itemsOf_intercalate hne hitems, if_pos rfl]
    cases ts with
    | nil => exact absurd rfl hne
    | cons t r => rfl

end Listing.FilterValue
