import Mathlib
import Listing.Parameter.Source

/-! Flat sources: parameters whose values are texts.
Whatever its shape, a flat source is read as its keys in the order in which they first occur, each
with the last of the texts given under it. -/
namespace Listing.Parameter

def Value.given : Value → List Value
  | .list vs | .tuple vs => vs
  | v => [v]

def Value.IsText (v : Value) : Prop := ∃ t, v = .text t

def textEntries (pairs : List (String × String)) : List Entry := pairs.map fun p => (p.1, .text p.2)

theorem lookup_textEntries (pairs : List (String × String)) (key : String) :
    lookup (textEntries pairs) key = (pairs.lookup key).map .text := by
  induction pairs with
  | nil => rfl
  | cons p r ih =>
    rw [textEntries, List.map_cons, lookup_cons, List.lookup_cons, BEq.comm]
    cases key == p.1 with
    | true => rfl
    | false => exact ih

theorem nodup_eraseDups (l : List String) : l.eraseDups.Nodup := by
  induction hn : l.length using Nat.strongRecOn generalizing l with
  | ind n ih =>
    cases l with
    | nil => exact List.nodup_nil
    | cons a r =>
      have hlen : (r.filter fun b => !b == a).length < n := by
        have := List.length_filter_le (fun b => !b == a) r
        rw [List.length_cons] at hn
        omega
      rw [List.eraseDups_cons, List.nodup_cons, List.mem_eraseDups]
      exact ⟨by simp, ih _ hlen _ rfl⟩

theorem eraseDups_of_nodup {l : List String} (h : l.Nodup) : l.eraseDups = l := by
  induction l with
  | nil => rfl
  | cons a r ih =>
    rw [List.nodup_cons] at h
    have hr : (r.filter fun b => !b == a) = r := by
      rw [List.filter_eq_self]
      intro b hb
      simpa using fun he : b = a => h.1 (he ▸ hb)
    rw [List.eraseDups_cons, hr, ih h.2]

theorem filter_of_nodup {α : Type} {f : α → String} {l : List α} (h : (l.map f).Nodup) {a : α}
    (ha : a ∈ l) : l.filter (fun b => f b == f a) = [a] := by
  induction l with
  | nil => cases ha
  | cons b r ih =>
    rw [List.map_cons, List.nodup_cons] at h
    rcases List.mem_cons.mp ha with rfl | hr
    · have hrest : r.filter (fun b => f b == f a) = [] := by
        rw [List.filter_eq_nil_iff]
        intro c hc hcf
        exact h.1 (beq_iff_eq.mp hcf ▸ List.mem_map_of_mem hc)
      rw [List.filter_cons_of_pos (by simp), hrest]
    · have hne : f b ≠ f a := fun he => h.1 (he ▸ List.mem_map_of_mem hr)
      rw [List.filter_cons_of_neg (by simpa using hne), ih h.2 hr]

theorem find?_of_nodup {α : Type} {f : α → String} {l : List α} (h : (l.map f).Nodup) {a : α}
    (ha : a ∈ l) : l.find? (fun b => f b == f a) = some a := by
  rw [← List.head?_filter, filter_of_nodup h ha]
  rfl

namespace Source

def keys : Source → List String
  | absent | other _ => []
  | mapping es => es.map (·.1.plain)
  | pairs ps => distinctKeys ps
  | lists es => distinctKeys es

def given (key : String) : Source → List Value
  | absent | other _ => []
  | mapping es => ((es.find? (·.1.plain == key)).map (·.2.given)).getD []
  | pairs ps => (ps.filter (·.1 == key)).map (·.2)
  | lists es => ((es.find? (·.1 == key)).map (·.2)).getD []

def lastValue (s : Source) (key : String) : Value := (s.given key).getLast?.getD (.text "")

def last (s : Source) (key : String) : String :=
  match s.lastValue key with
  | .text t => t
  | _ => ""

def last? (s : Source) (key : String) : Option String :=
  if key ∈ s.keys then some (s.last key) else none

def parameters (s : Source) : List (String × String) := s.keys.map fun k => (k, s.last k)

theorem keys_parameters (s : Source) : s.parameters.map (·.1) = s.keys := by
  rw [parameters, List.map_map]
  exact List.map_id s.keys

/-- Parameters without nesting: distinct texts as the keys of a mapping, and texts as values. -/
def Flat : Source → Prop
  | absent => True
  | mapping es =>
    (es.map (·.1)).Nodup ∧ ∀ e ∈ es, (∃ k, e.1 = .text k) ∧ ∀ v ∈ e.2.given, v.IsText
  | pairs ps => ∀ p ∈ ps, p.2.IsText
  | lists es => ∀ e ∈ es, ∀ v ∈ e.2, v.IsText
  | other _ => False

/-- Parameters whose values are texts, under keys of any kind. -/
def Textual : Source → Prop
  | absent => True
  | mapping es => ∀ e ∈ es, ∀ v ∈ e.2.given, v.IsText
  | pairs ps => ∀ p ∈ ps, p.2.IsText
  | lists es => ∀ e ∈ es, ∀ v ∈ e.2, v.IsText
  | other _ => False

theorem Flat.textual {s : Source} (h : s.Flat) : s.Textual := by
  cases s with
  | mapping es => exact fun e he => (h.2 e he).2
  | _ => exact h

theorem Textual.isText {s : Source} (h : s.Textual) (key : String) :
    ∀ v ∈ s.given key, v.IsText := by
  intro v hv
  cases s with
  | absent => cases hv
  | mapping es =>
    cases he : es.find? (·.1.plain == key) with
    | none => simp [given, he] at hv
    | some e => exact h e (List.mem_of_find?_eq_some he) v (by simpa [given, he] using hv)
  | pairs ps =>
    obtain ⟨p, hp, rfl⟩ := List.mem_map.mp hv
    exact h p (List.mem_filter.mp hp).1
  | lists es =>
    cases he : es.find? (·.1 == key) with
    | none => simp [given, he] at hv
    | some e => exact h e (List.mem_of_find?_eq_some he) v (by simpa [given, he] using hv)
  | other v => exact h.elim

theorem Textual.lastValue {s : Source} (h : s.Textual) (key : String) :
    s.lastValue key = .text (s.last key) := by
  have htext : (s.lastValue key).IsText := by
    rw [Source.lastValue]
    cases hl : (s.given key).getLast? with
    | none => exact ⟨"", rfl⟩
    | some v => exact h.isText key v (List.mem_of_getLast? hl)
  obtain ⟨t, ht⟩ := htext
  rw [last, ht]

theorem Flat.plain_nodup {es : List (Key × Value)} (h : (mapping es).Flat) :
    (es.map (·.1.plain)).Nodup := by
  refine List.Nodup.of_map Key.text ?_
  rw [List.map_map, List.map_congr_left (g := (·.1))]
  · exact h.1
  · intro e he
    obtain ⟨k, hk⟩ := (h.2 e he).1
    simp [hk, Key.plain]

theorem Flat.keys_nodup {s : Source} (h : s.Flat) : s.keys.Nodup := by
  cases s with
  | absent => exact List.nodup_nil
  | mapping es => exact h.plain_nodup
  | pairs ps => exact nodup_eraseDups _
  | lists es => exact nodup_eraseDups _
  | other v => exact List.nodup_nil

theorem lastItem_eq (v : Value) : v.lastItem = v.given.getLast?.getD (.text "") := by
  cases v <;> rfl

theorem lastValue_pairs (ps : List Entry) (key : String) :
    (pairs ps).lastValue key = lastOf ps key := by
  simp [Source.lastValue, given, lastOf]

theorem lastValue_lists (es : List (String × List Value)) (key : String) :
    (lists es).lastValue key = lastOfFirst es key := by
  rw [Source.lastValue, given, lastOfFirst]
  cases es.find? (·.1 == key) <;> rfl

theorem Flat.entries_lastValue {s : Source} (h : s.Flat) :
    s.entries = .ok (s.keys.map fun k => (k, s.lastValue k)) := by
  cases s with
  | absent => rfl
  | mapping es =>
    rw [entries, keys, List.map_map]
    congr 1
    refine List.map_congr_left fun e he => ?_
    have hfind : es.find? (fun b => b.1.plain == e.1.plain) = some e :=
      find?_of_nodup (f := fun b : Key × Value => b.1.plain) h.plain_nodup he
    simp [Source.lastValue, given, hfind, lastItem_eq]
  | pairs ps => simp only [entries, mergePairs, keys, lastValue_pairs]
  | lists es => simp only [entries, mergeLists, keys, lastValue_lists]
  | other v => exact h.elim

theorem Flat.entries {s : Source} (h : s.Flat) : s.entries = .ok (textEntries s.parameters) := by
  rw [h.entries_lastValue, textEntries, parameters, List.map_map]
  congr 1
  exact List.map_congr_left fun k _ => by simp [h.textual.lastValue k]

theorem lookup_parameters (s : Source) (key : String) :
    s.parameters.lookup key = s.last? key := by
  rw [parameters, last?]
  generalize s.keys = ks
  induction ks with
  | nil => rfl
  | cons k r ih =>
    rw [List.map_cons, List.lookup_cons, ih]
    by_cases hk : key = k
    · simp [hk]
    · rw [beq_eq_false_iff_ne.mpr hk]
      simp [hk]

theorem lookup_keyed (ks : List String) (value : String → Value) (key : String) :
    lookup (ks.map fun k => (k, value k)) key = if key ∈ ks then some (value key) else none := by
  induction ks with
  | nil => rfl
  | cons k r ih =>
    rw [List.map_cons, lookup_cons, ih]
    by_cases h : k = key
    · simp [h]
    · simp [h, Ne.symm h]

theorem lookup_mapping (es : List (Key × Value)) (key : String) :
    lookup (es.map fun e => (e.1.plain, e.2.lastItem)) key =
      if key ∈ (mapping es).keys then some ((mapping es).lastValue key) else none := by
  induction es with
  | nil => rfl
  | cons e r ih =>
    rw [List.map_cons, lookup_cons, ih]
    by_cases h : e.1.plain = key
    · simp [keys, Source.lastValue, given, h, lastItem_eq]
    · have hkeys : key ∈ (mapping (e :: r)).keys ↔ key ∈ (mapping r).keys := by
        simp [keys, Ne.symm h]
      have hlast : (mapping (e :: r)).lastValue key = (mapping r).lastValue key := by
        simp [Source.lastValue, given, h]
      simp only [beq_eq_false_iff_ne.mpr h, Bool.false_eq_true, if_false, hkeys, hlast]

theorem Textual.exists_entries {s : Source} (h : s.Textual) :
    ∃ entries, s.entries = .ok entries ∧ ∀ key, lookup entries key = (s.last? key).map .text := by
  have hvalue (key : String) : (s.last? key).map Value.text =
      if key ∈ s.keys then some (s.lastValue key) else none := by
    rw [h.lastValue, last?]
    split <;> rfl
  simp only [hvalue]
  cases s with
  | absent => exact ⟨[], rfl, fun key => rfl⟩
  | mapping es => exact ⟨_, rfl, lookup_mapping es⟩
  | pairs ps =>
    simp only [lastValue_pairs]
    exact ⟨_, rfl, lookup_keyed (distinctKeys ps) (lastOf ps)⟩
  | lists es =>
    simp only [lastValue_lists]
    exact ⟨_, rfl, lookup_keyed (distinctKeys es) (lastOfFirst es)⟩
  | other v => exact h.elim

theorem ofQueryString_flat (s : String) : (ofQueryString s).Flat := by
  intro p hp
  obtain ⟨q, -, rfl⟩ := List.mem_map.mp hp
  exact ⟨q.2, rfl⟩

end Source
end Listing.Parameter
