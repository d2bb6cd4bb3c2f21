import Mathlib
import Listing.Plan
import Listing.Proofs.Entries

/-! The shapes in which one list of parameters can arrive.
A caller may hand over pairs with repeated keys, a list of values under each key, or a mapping that
holds under each key a list, a tuple or the last value alone. All of them are read as the settled
parameters: each key once, at its first place, with its last value; parameters with distinct keys
are settled as they stand. So what is read from parameters depends neither on their shape nor on a
value that a later one overrides. -/
namespace Listing.Parameter

section Merging

theorem distinctKeys_concat {α : Type} (es : List (String × α)) (e : String × α) :
    distinctKeys (es ++ [e]) =
      if e.1 ∈ distinctKeys es then distinctKeys es else distinctKeys es ++ [e.1] := by
  simp only [distinctKeys, List.map_append, List.map_singleton, List.eraseDups_append,
    List.mem_eraseDups]
  by_cases h : e.1 ∈ es.map (·.1)
  · simp [List.removeAll, h]
  · simp [List.removeAll, h, List.eraseDups_cons]

theorem lastOf_concat (es : List Entry) (e : Entry) (k : String) :
    lastOf (es ++ [e]) k = if k = e.1 then e.2 else lastOf es k := by
  by_cases h : k = e.1
  · simp [lastOf, h]
  · simp [lastOf, h, Ne.symm h]

theorem same_text_text (s t : String) : (Key.text s).same (.text t) = decide (s = t) := by
  rw [Bool.eq_iff_iff, Key.same_text, decide_eq_true_eq, Key.text.injEq, eq_comm]

theorem insertEntry_map {ks : List String} (hn : ks.Nodup) (f : String → Value) (k : String)
    (v : Value) :
    insertEntry (.text k) v (ks.map fun k' => (.text k', f k')) =
      (if k ∈ ks then ks else ks ++ [k]).map fun k' => (.text k', if k' = k then v else f k') := by
  induction ks with
  | nil => simp [insertEntry]
  | cons a r ih =>
    obtain ⟨ha, hr⟩ := List.nodup_cons.mp hn
    rw [List.map_cons, insertEntry, same_text_text]
    by_cases h : a = k
    · subst h
      have hrest : r.map (fun k' => (Key.text k', if k' = a then v else f k')) =
          r.map fun k' => (Key.text k', f k') := by
        apply List.map_congr_left
        intro b hb
        have hne : b ≠ a := fun he => ha (he ▸ hb)
        simp [hne]
      simp [hrest]
    · simp only [h, decide_false, Bool.false_eq_true, if_false, ih hr]
      by_cases hk : k ∈ r <;> simp [hk, h, Ne.symm h]

theorem ofPairs_eq_mergePairs (es : List Entry) :
    ofPairs (es.map fun e => (Key.text e.1, e.2)) =
      (mergePairs es).map fun e => (.text e.1, e.2) := by
  induction es using List.reverseRecOn with
  | nil => rfl
  | append_singleton es e ih =>
    have hn : (distinctKeys es).Nodup := nodup_eraseDups _
    rw [List.map_append, ofPairs, List.foldl_append, ← ofPairs, ih, mergePairs, List.map_map]
    change insertEntry (.text e.1) e.2 _ = _
    refine (insertEntry_map hn (lastOf es) e.1 e.2).trans ?_
    rw [mergePairs, distinctKeys_concat, List.map_map]
    apply List.map_congr_left
    intro k _
    simp [lastOf_concat]

end Merging

def textsOf (ps : List (String × String)) (key : String) : List String :=
  (ps.filter (·.1 == key)).map (·.2)

def lastText (ps : List (String × String)) (key : String) : String :=
  (ps.reverse.lookup key).getD ""

/-- Each key once, at its first place, with its last value. -/
def settled (ps : List (String × String)) : List (String × String) :=
  (ps.map (·.1)).eraseDups.map fun k => (k, lastText ps k)

section Settling
variable {ps : List (String × String)} {k : String}

theorem lookup_reverse_concat (ps : List (String × String)) (p : String × String) (k : String) :
    (ps ++ [p]).reverse.lookup k = if k = p.1 then some p.2 else ps.reverse.lookup k := by
  rw [List.reverse_append, List.reverse_singleton, List.singleton_append, List.lookup_cons]
  by_cases h : k = p.1
  · simp [h]
  · simp [h, beq_eq_false_iff_ne.mpr h]

theorem getLast?_textsOf (ps : List (String × String)) (k : String) :
    (textsOf ps k).getLast? = ps.reverse.lookup k := by
  induction ps using List.reverseRecOn with
  | nil => rfl
  | append_singleton ps p ih =>
    rw [lookup_reverse_concat]
    by_cases h : k = p.1
    · simp [textsOf, h]
    · simp [textsOf, h, Ne.symm h, ← ih]

theorem lookup_reverse_of_mem (h : k ∈ ps.map (·.1)) :
    ps.reverse.lookup k = some (lastText ps k) := by
  induction ps using List.reverseRecOn with
  | nil => cases h
  | append_singleton ps p ih =>
    rw [lastText, lookup_reverse_concat]
    by_cases hk : k = p.1
    · simp [hk]
    · have hmem : k ∈ ps.map (·.1) := by simpa [hk] using h
      simp [hk, ih hmem]

theorem lookup_reverse_of_not_mem (h : k ∉ ps.map (·.1)) : ps.reverse.lookup k = none := by
  rw [List.lookup_eq_none_iff]
  intro p hp
  have hne : k ≠ p.1 := fun he => h (he ▸ List.mem_map_of_mem (List.mem_reverse.mp hp))
  simpa using hne

theorem lookup_settled (ps : List (String × String)) (key : String) :
    (settled ps).lookup key = ps.reverse.lookup key := by
  have hkeyed (ks : List String) :
      (ks.map fun k => (k, lastText ps k)).lookup key =
        if key ∈ ks then some (lastText ps key) else none := by
    induction ks with
    | nil => rfl
    | cons k r ih =>
      by_cases h : key = k
      · simp [h]
      · simp [List.lookup_cons, h, beq_eq_false_iff_ne.mpr h, ih]
  simp only [settled, hkeyed, List.mem_eraseDups]
  split
  case isTrue h => exact (lookup_reverse_of_mem h).symm
  case isFalse h => exact (lookup_reverse_of_not_mem h).symm

theorem mem_of_mem_settled {p : String × String} (h : p ∈ settled ps) : p ∈ ps := by
  obtain ⟨k, hk, rfl⟩ := List.mem_map.mp h
  have hlast := lookup_reverse_of_mem (List.mem_eraseDups.mp hk)
  obtain ⟨l, r, hps, -⟩ := List.lookup_eq_some_iff.mp hlast
  rw [← List.mem_reverse, hps]
  simp

theorem settled_of_nodup (h : (ps.map (·.1)).Nodup) : settled ps = ps := by
  rw [settled, eraseDups_of_nodup h, List.map_map]
  conv_rhs => rw [← List.map_id ps]
  apply List.map_congr_left
  intro p hp
  have hlast : (textsOf ps p.1).getLast? = some p.2 := by
    rw [textsOf, filter_of_nodup (f := Prod.fst) h hp]
    rfl
  rw [getLast?_textsOf] at hlast
  simp [lastText, hlast]

theorem lookup_reverse_override {t : List (String × String)} (h : k ∈ t.map (·.1))
    (l : List (String × String)) (v key : String) :
    (l ++ (k, v) :: t).reverse.lookup key = (t.reverse.lookup key).or (l.reverse.lookup key) := by
  rw [List.reverse_append, List.reverse_cons, List.append_assoc, List.lookup_append,
    List.singleton_append, List.lookup_cons]
  by_cases hk : key = k
  · subst hk
    simp [lookup_reverse_of_mem h]
  · simp [beq_eq_false_iff_ne.mpr hk]

theorem settled_override {t : List (String × String)} (h : k ∈ t.map (·.1))
    (l : List (String × String)) (v v' : String) :
    settled (l ++ (k, v) :: t) = settled (l ++ (k, v') :: t) := by
  have hkeys : (l ++ (k, v) :: t).map (·.1) = (l ++ (k, v') :: t).map (·.1) := by simp
  rw [settled, settled, hkeys]
  apply List.map_congr_left
  intro key _
  simp only [lastText, lookup_reverse_override h]

end Settling

inductive Holder
  | list
  | tuple
  | last

def Holder.hold (texts : List String) : Holder → Value
  | list => .list (texts.map .text)
  | tuple => .tuple (texts.map .text)
  | last => .text (texts.getLast?.getD "")

inductive Shape
  /-- Pairs as they are given, so that a key may come several times. -/
  | pairs
  /-- Each key once, with all values given under it. -/
  | grouped
  /-- A mapping to which the pairs are added one after another. -/
  | assigned
  /-- A mapping that holds the values of each key in a way of its own. -/
  | held (holder : String → Holder)

def Shape.source (ps : List (String × String)) : Shape → Source
  | pairs => .pairs (textEntries ps)
  | grouped => .lists ((ps.map (·.1)).eraseDups.map fun k => (k, (textsOf ps k).map .text))
  | assigned => .ofTexts ps
  | held holder =>
    .mapping ((ps.map (·.1)).eraseDups.map fun k => (.text k, (holder k).hold (textsOf ps k)))

namespace Shape

theorem getLast?_texts (ps : List (String × String)) (k : String) :
    ((textsOf ps k).map Value.text).getLast?.getD (.text "") = .text (lastText ps k) := by
  rw [List.getLast?_map, getLast?_textsOf, lastText]
  cases ps.reverse.lookup k <;> rfl

theorem lastItem_hold (ps : List (String × String)) (k : String) (holder : Holder) :
    (holder.hold (textsOf ps k)).lastItem = .text (lastText ps k) := by
  cases holder with
  | list => exact getLast?_texts ps k
  | tuple => exact getLast?_texts ps k
  | last => rw [Holder.hold, getLast?_textsOf, Value.lastItem_text, lastText]

theorem mergePairs_textEntries (ps : List (String × String)) :
    mergePairs (textEntries ps) = textEntries (settled ps) := by
  have hkeys : distinctKeys (textEntries ps) = (ps.map (·.1)).eraseDups := by
    simp [distinctKeys, textEntries, Function.comp_def]
  rw [mergePairs, hkeys, settled, textEntries, textEntries, List.map_map]
  apply List.map_congr_left
  intro k _
  have hvalues : (((ps.map fun p => (p.1, Value.text p.2)).filter (·.1 == k)).map (·.2)) =
      (textsOf ps k).map .text := by
    simp [textsOf, List.filter_map, Function.comp_def]
  rw [lastOf, ← List.getLast?_map, hvalues, getLast?_texts]
  rfl

theorem mergeLists_grouped (ps : List (String × String)) :
    mergeLists ((ps.map (·.1)).eraseDups.map fun k => (k, (textsOf ps k).map .text)) =
      textEntries (settled ps) := by
  rw [settled]
  have hn := nodup_eraseDups (ps.map (·.1))
  generalize (ps.map (·.1)).eraseDups = ks at hn
  have hkeys : ((ks.map fun k => (k, (textsOf ps k).map Value.text)).map (·.1)) = ks := by
    simp [Function.comp_def]
  rw [mergeLists, distinctKeys, hkeys, eraseDups_of_nodup hn, textEntries, List.map_map]
  apply List.map_congr_left
  intro k hk
  have hfind := find?_of_nodup (f := Prod.fst) (hkeys.symm ▸ hn)
    (List.mem_map_of_mem (f := fun k => (k, (textsOf ps k).map Value.text)) hk)
  rw [lastOfFirst, hfind]
  exact congrArg (Prod.mk k) (getLast?_texts ps k)

theorem entries_source (ps : List (String × String)) (a : Shape) :
    (a.source ps).entries = .ok (textEntries (settled ps)) := by
  cases a with
  | pairs => exact congrArg Except.ok (mergePairs_textEntries ps)
  | grouped => exact congrArg Except.ok (mergeLists_grouped ps)
  | assigned =>
    have hpairs := ofPairs_eq_mergePairs (textEntries ps)
    rw [mergePairs_textEntries] at hpairs
    simp only [textEntries, List.map_map, Function.comp_def] at hpairs
    rw [source, Source.ofTexts, hpairs, Source.entries]
    simp [textEntries, Function.comp_def, Key.plain]
  | held holder =>
    simp [source, Source.entries, settled, textEntries, Function.comp_def, Key.plain,
      lastItem_hold]

end Shape

/-- What one source is read as, the other is read as too, whoever reads it. -/
structure Source.ReadAlike (s t : Source) : Prop where
  entries : s.entries = t.entries
  settings : ∀ c : Config,
    (s.entries.map fun es => (PageRequest.ofEntries c es, OrderRequest.ofEntries c es)) =
      t.entries.map fun es => (PageRequest.ofEntries c es, OrderRequest.ofEntries c es)
  filters : ∀ g : Grammar, g.read s = g.read t
  query : ∀ y : Policy, y.read s = y.read t
  plan : ∀ y : Policy, y.plan s = y.plan t
  notes : ∀ y : Policy, y.planNotes s = y.planNotes t

theorem Source.readAlike_of_entries {s t : Source} (h : s.entries = t.entries) :
    s.ReadAlike t := by
  have hquery (y : Policy) : y.read s = y.read t := by
    simp only [Policy.read, Query.ofSource, h]
  exact {
    entries := h
    settings := fun c => by rw [h]
    filters := fun g => by cases g <;> simp only [Grammar.read, h]
    query := hquery
    plan := fun y => by simp only [Policy.plan, hquery]
    notes := fun y => by
      simp only [Policy.planNotes, Policy.readNotes, Query.notes, h, hquery] }

/-- Two shapes of one list of parameters tell readers the same, and nothing of a value that a later
one overrides. -/
structure Shape.Interchangeable (a b : Shape) (ps : List (String × String)) : Prop where
  entries : (a.source ps).entries = .ok (textEntries (settled ps))
  value : ∀ key, (a.source ps).entries.map (lookup · key) =
    .ok ((ps.reverse.lookup key).map .text)
  alike : (a.source ps).ReadAlike (b.source ps)
  overridden : ∀ l k v v' t, ps = l ++ (k, v) :: t → k ∈ t.map (·.1) →
    (a.source ps).ReadAlike (b.source (l ++ (k, v') :: t))

theorem Shape.interchangeable (a b : Shape) (ps : List (String × String)) :
    a.Interchangeable b ps where
  entries := a.entries_source ps
  value key := by
    rw [a.entries_source, Except.map, lookup_textEntries, lookup_settled]
  alike := by
    apply Source.readAlike_of_entries
    rw [a.entries_source, b.entries_source]
  overridden l k v v' t hps ht := by
    apply Source.readAlike_of_entries
    rw [a.entries_source, b.entries_source, hps, settled_override ht l v v']

example : settled [("page", "1"), ("filter[role][eq]", "admin"), ("page", "2")] =
    [("page", "2"), ("filter[role][eq]", "admin")] := by decide

end Listing.Parameter
