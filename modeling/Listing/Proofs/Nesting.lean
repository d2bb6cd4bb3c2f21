import Mathlib
import Listing.Proofs.FilterNames
import Listing.Proofs.Shapes

/-! Filters that come nested, and the same filters in flat parameters.
`Nested` texts stand under labels to any depth. Flattened, each text has a parameter of its own,
whose name is the filter key followed by the labels on the way to the text, each in brackets. Such a
name states a filter only if there are two labels on the way, a field and an operator, and a nested
mapping is walked down just as far. So both forms ask for the same filters in the same order. -/
namespace Listing
open Listing.Parameter

namespace Bracket

abbrev Label := {s : String // IsLabel s.toList}

def brackets : List Label → String
  | [] => ""
  | l :: r => "[" ++ l.1 ++ "]" ++ brackets r

theorem toList_brackets_cons (l : Label) (r : List Label) :
    (brackets (l :: r)).toList = '[' :: (l.1.toList ++ ']' :: (brackets r).toList) := by
  simp [brackets]

theorem label?_brackets (l : Label) (r : List Label) :
    label? (brackets (l :: r)).toList = some (l.1.toList, (brackets r).toList) := by
  rw [toList_brackets_cons, label?_of_isLabel l.2]

theorem brackets_injective : Function.Injective brackets := by
  intro a
  induction a with
  | nil =>
    intro b h
    cases b with
    | nil => rfl
    | cons l r =>
      have hlist := congrArg String.toList h
      rw [toList_brackets_cons] at hlist
      cases hlist
  | cons l r ih =>
    intro b h
    cases b with
    | nil =>
      have hlist := congrArg String.toList h
      rw [toList_brackets_cons] at hlist
      cases hlist
    | cons l' r' =>
      have hread := label?_brackets l r
      rw [h, label?_brackets, Option.some.injEq, Prod.mk.injEq, String.toList_inj,
        String.toList_inj] at hread
      rw [ih hread.2.symm, Subtype.ext hread.1]

theorem parts?_brackets (key : String) (ls : List Label) :
    parts? key (key ++ brackets ls) =
      match ls with
      | [field, operator] => some (field.1, operator.1)
      | _ => none := by
  rw [parts?, String.toList_append, after?_append]
  cases ls with
  | nil => rfl
  | cons field ls =>
    cases ls with
    | nil =>
      simp only [Option.bind_eq_bind, Option.bind_some, label?_brackets]
      rfl
    | cons operator ls =>
      simp only [Option.bind_eq_bind, Option.bind_some, label?_brackets, String.ofList_toList]
      cases ls with
      | nil => rfl
      | cons l r => simp [toList_brackets_cons, isEnd]

end Bracket

open Listing.Bracket (Label brackets)

/-- Texts under labels, nested to any depth: what stands under the first label, and the rest. -/
inductive Parameter.Nested
  | nil
  | text (label : Label) (s : String) (rest : Nested)
  | mapping (label : Label) (inner rest : Nested)

namespace Parameter.Nested

def entries : Nested → List (Key × Value)
  | nil => []
  | text l s r => (.text l.1, .text s) :: r.entries
  | mapping l inner r => (.text l.1, .mapping inner.entries) :: r.entries

def labels : Nested → List Label
  | nil => []
  | text l _ r => l :: r.labels
  | mapping l _ r => l :: r.labels

def Distinct : Nested → Prop
  | nil => True
  | text l _ r => l ∉ r.labels ∧ r.Distinct
  | mapping l inner r => l ∉ r.labels ∧ inner.Distinct ∧ r.Distinct

instance decidableDistinct : (n : Nested) → Decidable n.Distinct
  | nil => .isTrue trivial
  | text l _ r =>
    have := r.decidableDistinct
    inferInstanceAs (Decidable (l ∉ r.labels ∧ r.Distinct))
  | mapping l inner r =>
    have := inner.decidableDistinct
    have := r.decidableDistinct
    inferInstanceAs (Decidable (l ∉ r.labels ∧ inner.Distinct ∧ r.Distinct))

/-- The texts in order, each with the labels that lead to it. -/
def paths : Nested → List (List Label × String)
  | nil => []
  | text l s r => ([l], s) :: r.paths
  | mapping l inner r => inner.paths.map (fun p => (l :: p.1, p.2)) ++ r.paths

def source (filterKey : String) (n : Nested) : Source :=
  .mapping [(.text filterKey, .mapping n.entries)]

def flattened (filterKey : String) (n : Nested) : List (String × String) :=
  n.paths.map fun p => (filterKey ++ brackets p.1, p.2)

variable {n : Nested}

theorem mem_labels_of_mem_paths {p : List Label × String} (h : p ∈ n.paths) :
    ∃ l r, p.1 = l :: r ∧ l ∈ n.labels := by
  induction n generalizing p with
  | nil => cases h
  | text l s r ih =>
    rcases List.mem_cons.mp h with rfl | h
    · exact ⟨l, [], rfl, by simp [labels]⟩
    · obtain ⟨l', r', hp, hl⟩ := ih h
      exact ⟨l', r', hp, by simp [labels, hl]⟩
  | mapping l inner r ihinner ih =>
    rcases List.mem_append.mp h with h | h
    · obtain ⟨q, -, rfl⟩ := List.mem_map.mp h
      exact ⟨l, q.1, rfl, by simp [labels]⟩
    · obtain ⟨l', r', hp, hl⟩ := ih h
      exact ⟨l', r', hp, by simp [labels, hl]⟩

theorem cons_not_mem_paths {l : Label} (h : l ∉ n.labels) (ls : List Label) :
    l :: ls ∉ n.paths.map (·.1) := by
  intro hmem
  obtain ⟨p, hp, hpath⟩ := List.mem_map.mp hmem
  obtain ⟨l', r, hcons, hl⟩ := mem_labels_of_mem_paths hp
  rw [hpath, List.cons.injEq] at hcons
  exact h (hcons.1 ▸ hl)

theorem paths_nodup (h : n.Distinct) : (n.paths.map (·.1)).Nodup := by
  induction n with
  | nil => exact List.nodup_nil
  | text l s r ih =>
    obtain ⟨hl, hr⟩ := h
    exact List.nodup_cons.mpr ⟨cons_not_mem_paths hl [], ih hr⟩
  | mapping l inner r ihinner ih =>
    -- the paths of `inner` all begin with `l`, and no later path does
    obtain ⟨hl, hinner, hr⟩ := h
    have hmap : (inner.paths.map fun p => (l :: p.1, p.2)).map (·.1) =
        (inner.paths.map (·.1)).map (l :: ·) := by simp
    rw [paths, List.map_append, hmap, List.nodup_append]
    refine ⟨(ihinner hinner).map (List.cons_injective), ih hr, ?_⟩
    intro p hp q hq heq
    obtain ⟨ls, -, rfl⟩ := List.mem_map.mp hp
    exact cons_not_mem_paths hl ls (heq ▸ hq)

theorem flattened_nodup (filterKey : String) (h : n.Distinct) :
    ((n.flattened filterKey).map (·.1)).Nodup := by
  have hkeys : (n.flattened filterKey).map (·.1) =
      (n.paths.map (·.1)).map fun ls => filterKey ++ brackets ls := by simp [flattened]
  rw [hkeys]
  refine (paths_nodup h).map fun a b hab => ?_
  exact Bracket.brackets_injective (String.append_right_inj filterKey |>.mp hab)

end Parameter.Nested

namespace Asked

def ofPath? : List Label × String → Option Asked
  | ([field, operator], s) => (Operator.ofName? operator.1).map fun o => ⟨field.1, o, .text s⟩
  | _ => none

theorem ofParameter?_brackets (filterKey : String) (p : List Label × String) :
    ofParameter? filterKey (filterKey ++ brackets p.1, p.2) = ofPath? p := by
  obtain ⟨ls, s⟩ := p
  rw [ofParameter?, Bracket.parts?_brackets]
  rcases ls with _ | ⟨field, _ | ⟨operator, _ | ⟨l, r⟩⟩⟩ <;> rfl

theorem ofPath?_deeper {p : List Label × String} (h : p.1 ≠ []) (field operator : Label) :
    ofPath? (field :: operator :: p.1, p.2) = none := by
  obtain ⟨ls, s⟩ := p
  cases ls with
  | nil => exact absurd rfl h
  | cons l r => rfl

theorem asked?_ofName (field operator : Label) (s : String) :
    (Reading.ofName field.1 operator.1 (.text s)).asked? = ofPath? ([field, operator], s) := by
  rw [Reading.ofName, ofPath?]
  cases Operator.ofName? operator.1 <;> rfl

theorem asked?_operatorReadings (field : Label) (n : Nested) :
    (Reading.operatorReadings (.text field.1) n.entries).filterMap Reading.asked? =
      n.paths.filterMap fun p => ofPath? (field :: p.1, p.2) := by
  induction n with
  | nil => rfl
  | text operator s r ih =>
    simp only [Nested.entries, Nested.paths, Reading.operatorReadings, Key.plain,
      List.filterMap_cons, asked?_ofName, ih]
  | mapping operator inner r ihinner ih =>
    -- what stands below an operator has a third label
    have hdeeper : (inner.paths.map fun p => (operator :: p.1, p.2)).filterMap
        (fun p => ofPath? (field :: p.1, p.2)) = [] := by
      simp only [List.filterMap_eq_nil_iff, List.forall_mem_map]
      intro p hp
      obtain ⟨l, ls, hcons, -⟩ := Nested.mem_labels_of_mem_paths hp
      exact ofPath?_deeper (by simp [hcons]) field operator
    rw [Nested.entries, Nested.paths, Reading.operatorReadings, ih, List.filterMap_append, hdeeper,
      List.nil_append]

theorem asked?_fieldReadings (n : Nested) :
    (n.entries.flatMap Reading.fieldReadings).filterMap Reading.asked? =
      n.paths.filterMap ofPath? := by
  induction n with
  | nil => rfl
  | text field s r ih =>
    simp only [Nested.entries, Nested.paths, List.flatMap_cons, Reading.fieldReadings,
      List.nil_append, ih]
    rfl
  | mapping field inner r ihinner ih =>
    simp only [Nested.entries, Nested.paths, List.flatMap_cons, Reading.fieldReadings,
      List.filterMap_append, asked?_operatorReadings, ih, List.filterMap_map, Function.comp_def]

theorem asked?_operatorNotes (field : Key) (operators : List (Key × Value)) :
    (Reading.operatorNotes field operators).filterMap Reading.asked? = [] := by
  fun_induction Reading.operatorNotes field operators with
  | case1 => rfl
  | case2 o es r ih => exact ih
  | case3 e r h ih => exact ih

theorem asked?_fieldNotes (fields : List (Key × Value)) :
    (fields.flatMap Reading.fieldNotes).filterMap Reading.asked? = [] := by
  induction fields with
  | nil => rfl
  | cons e r ih =>
    obtain ⟨field, v⟩ := e
    rw [List.flatMap_cons, List.filterMap_append, ih, List.append_nil]
    cases v with
    | mapping operators => exact asked?_operatorNotes field operators
    | _ => rfl

theorem asked?_nested (filterKey : String) (n : Nested) :
    (Reading.ofEntries filterKey [(filterKey, .mapping n.entries)]).filterMap Reading.asked? =
      n.paths.filterMap ofPath? := by
  rw [Reading.ofEntries, List.flatMap_singleton, Reading.ofEntry, if_pos rfl, Reading.ofNested,
    List.filterMap_append, asked?_fieldNotes, asked?_fieldReadings, List.nil_append]

end Asked

namespace Grammar
variable {n : Nested}

theorem bracket_read_nested (filterKey : String) (n : Nested) :
    (bracket filterKey).read (n.source filterKey) =
      ((n.paths.filterMap Asked.ofPath?).mapM Asked.read).mapError Fault.rejected := by
  have hentries : (n.source filterKey).entries = .ok [(filterKey, .mapping n.entries)] := rfl
  rw [bracket_read hentries, Asked.asked?_nested]

theorem bracket_read_flattened (filterKey : String) (h : n.Distinct) :
    (bracket filterKey).read (.ofTexts (n.flattened filterKey)) =
      ((n.paths.filterMap Asked.ofPath?).mapM Asked.read).mapError Fault.rejected := by
  have hentries := Shape.assigned.entries_source (n.flattened filterKey)
  rw [settled_of_nodup (n.flattened_nodup filterKey h)] at hentries
  have hasked : (n.flattened filterKey).filterMap (Asked.ofParameter? filterKey) =
      n.paths.filterMap Asked.ofPath? := by
    rw [Nested.flattened, List.filterMap_map]
    exact List.filterMap_congr fun p _ => Asked.ofParameter?_brackets filterKey p
  rw [← hasked, ← bracket_read_texts hentries]
  rfl

theorem nested_reads_as_flattened (filterKey : String) (n : Nested) (h : n.Distinct) :
    (bracket filterKey).read (n.source filterKey) =
        (bracket filterKey).read (.ofTexts (n.flattened filterKey)) ∧
      (bracket filterKey).read (.ofTexts (n.flattened filterKey)) =
        ((n.paths.filterMap Asked.ofPath?).mapM Asked.read).mapError Fault.rejected := by
  rw [bracket_read_nested, bracket_read_flattened filterKey h]
  exact ⟨rfl, rfl⟩

def unevenNested : Nested :=
  .text ⟨"age", by decide⟩ "30"
    (.mapping ⟨"role", by decide⟩
      (.text ⟨"in", by decide⟩ " a,,b "
        (.mapping ⟨"eq", by decide⟩ (.text ⟨"x", by decide⟩ "y" .nil)
          (.text ⟨"EQ", by decide⟩ "z" .nil)))
      (.mapping ⟨"e\nmail", by decide⟩ (.text ⟨"contains", by decide⟩ "@" .nil) .nil))

theorem unevenNested_reads_as_flattened :
    unevenNested.Distinct ∧
      unevenNested.flattened "where" = [("where[age]", "30"), ("where[role][in]", " a,,b "),
        ("where[role][eq][x]", "y"), ("where[role][EQ]", "z"), ("where[e\nmail][contains]", "@")] ∧
      (bracket "where").read (.ofTexts (unevenNested.flattened "where")) =
        .ok [⟨"role", .oneOf, .members ["a", "b"]⟩, ⟨"e\nmail", .contains, .single "@"⟩] := by
  have hdistinct : unevenNested.Distinct := by decide
  have hread : (bracket "where").read (unevenNested.source "where") =
      .ok [⟨"role", .oneOf, .members ["a", "b"]⟩, ⟨"e\nmail", .contains, .single "@"⟩] := by
    decide +kernel
  obtain ⟨hagree, -⟩ := nested_reads_as_flattened "where" unevenNested hdistinct
  exact ⟨hdistinct, by decide +kernel, hagree ▸ hread⟩

end Grammar
end Listing
