import Mathlib
import Listing.Proofs.Partition

/-! What the operators that look for a part of a text find.
A pattern stands for texts: `%` for any text, `_` for any one character, and every other character
for itself in either case. Patterns that are written one after another stand for the texts that come
one after another, so that a value with a `%` before it, after it or on both sides stands for the
texts in which some end, beginning or part is one that the value stands for. -/
namespace Listing

namespace Store.Pattern

inductive Matches : List Char → List Char → Prop
  | nil : Matches [] []
  | any (a : List Char) {p s : List Char} (h : Matches p s) : Matches ('%' :: p) (a ++ s)
  | one (c : Char) {p s : List Char} (h : Matches p s) : Matches ('_' :: p) (c :: s)
  | char {x c : Char} (hany : x ≠ '%') (hone : x ≠ '_') (hcase : x.toLower = c.toLower)
    {p s : List Char} (h : Matches p s) : Matches (x :: p) (c :: s)

variable {p q s : List Char} {x : Char}

theorem matches_nil : Matches [] s ↔ s = [] := by
  constructor
  · intro h
    cases h
    rfl
  · rintro rfl
    exact .nil

theorem matches_any : Matches ('%' :: p) s ↔ ∃ a b, s = a ++ b ∧ Matches p b := by
  constructor
  · intro h
    cases h with
    | any a h => exact ⟨a, _, rfl, h⟩
    | char hany => exact absurd rfl hany
  · rintro ⟨a, b, rfl, h⟩
    exact .any a h

theorem not_matches_cons_nil (h : x ≠ '%') : ¬ Matches (x :: p) [] := by
  intro hm
  generalize hs : ([] : List Char) = s at hm
  cases hm with
  | any a hm => exact h rfl
  | one c hm => cases hs
  | char hany hone hcase hm => cases hs

theorem matches_cons_cons (h : x ≠ '%') {c : Char} :
    Matches (x :: p) (c :: s) ↔ (x = '_' ∨ x.toLower = c.toLower) ∧ Matches p s := by
  constructor
  · intro hm
    generalize ht : c :: s = t at hm
    cases hm with
    | any a hm => exact absurd rfl h
    | one d hm =>
      cases ht
      exact ⟨.inl rfl, hm⟩
    | char hany hone hcase hm =>
      cases ht
      exact ⟨.inr hcase, hm⟩
  · rintro ⟨hx, hm⟩
    by_cases hone : x = '_'
    · subst hone
      exact .one c hm
    · exact .char h hone (hx.resolve_left hone) hm

theorem covers_iff : covers p s = true ↔ Matches p s := by
  induction p generalizing s with
  | nil => simp [covers, matches_nil]
  | cons x p ih =>
    by_cases h : x = '%'
    · subst h
      simp only [covers, if_true, anyTail_iff, matches_any, ih]
    · cases s with
      | nil => simp [covers, h, not_matches_cons_nil h]
      | cons c s => simp [covers, h, matches_cons_cons h, ih, same, fold]

theorem matchesText_iff {pattern t : String} :
    matchesText pattern t = true ↔ Matches pattern.toList t.toList := by
  rw [matchesText_eq, covers_iff]

theorem Matches.append {a b : List Char} (ha : Matches p a) (hb : Matches q b) :
    Matches (p ++ q) (a ++ b) := by
  induction ha with
  | nil => exact hb
  | any a h ih =>
    rw [List.append_assoc]
    exact .any a ih
  | one c h ih => exact .one c ih
  | char hany hone hcase h ih => exact .char hany hone hcase ih

theorem matches_append :
    Matches (p ++ q) s ↔ ∃ a b, s = a ++ b ∧ Matches p a ∧ Matches q b := by
  constructor
  · intro h
    induction p generalizing s with
    | nil => exact ⟨[], s, rfl, .nil, h⟩
    | cons x p ih =>
      rw [List.cons_append] at h
      cases h with
      | any a h =>
        obtain ⟨b, c, rfl, hb, hc⟩ := ih h
        exact ⟨a ++ b, c, (List.append_assoc a b c).symm, .any a hb, hc⟩
      | one d h =>
        obtain ⟨b, c, rfl, hb, hc⟩ := ih h
        exact ⟨d :: b, c, rfl, .one d hb, hc⟩
      | char hany hone hcase h =>
        obtain ⟨b, c, rfl, hb, hc⟩ := ih h
        exact ⟨_ :: b, c, rfl, .char hany hone hcase hb, hc⟩
  · rintro ⟨a, b, rfl, ha, hb⟩
    exact ha.append hb

theorem matches_percent (s : List Char) : Matches ['%'] s :=
  matches_any.mpr ⟨s, [], (List.append_nil s).symm, .nil⟩

theorem matches_iff_of_plain (hany : '%' ∉ p) (hone : '_' ∉ p) :
    Matches p s ↔ s.map Char.toLower = p.map Char.toLower := by
  induction p generalizing s with
  | nil => simp [matches_nil]
  | cons x p ih =>
    simp only [List.mem_cons, not_or] at hany hone
    have hx : x ≠ '%' := Ne.symm hany.1
    cases s with
    | nil => simp [not_matches_cons_nil hx]
    | cons c s =>
      rw [matches_cons_cons hx, ih hany.2 hone.2, or_iff_right (Ne.symm hone.1), List.map_cons,
        List.map_cons, List.cons.injEq, eq_comm (a := x.toLower)]

end Store.Pattern

namespace Operator
open Store Pattern

def Finds (v s : List Char) : Operator → Prop
  | contains => ∃ a m b, s = a ++ m ++ b ∧ Matches v m
  | startsWith => ∃ m b, s = m ++ b ∧ Matches v m
  | endsWith => ∃ a m, s = a ++ m ∧ Matches v m
  | like => Matches v s
  | _ => False

def wildcards : Operator → String × String
  | contains => ("%", "%")
  | startsWith => ("", "%")
  | endsWith => ("%", "")
  | _ => ("", "")

def wrapped (o : Operator) (v : String) : String := o.wildcards.1 ++ v ++ o.wildcards.2

variable {o : Operator} {v s : List Char}

theorem matches_wrapped_iff (ho : o.isPattern = true) (v s : String) :
    Matches (o.wrapped v).toList s.toList ↔ o.Finds v.toList s.toList := by
  cases o <;> cases ho <;>
    simp only [wrapped, wildcards, String.toList_append, String.toList_empty, List.nil_append,
      List.append_nil, Finds]
  case contains =>
    rw [List.append_assoc]
    constructor
    · intro h
      obtain ⟨a, r, hs, -, h⟩ := matches_append.mp h
      obtain ⟨m, b, rfl, hm, -⟩ := matches_append.mp h
      exact ⟨a, m, b, by rw [hs, List.append_assoc], hm⟩
    · rintro ⟨a, m, b, hs, hm⟩
      rw [hs, List.append_assoc]
      exact (matches_percent a).append (hm.append (matches_percent b))
  case startsWith =>
    rw [matches_append]
    constructor
    · rintro ⟨m, b, hs, hm, -⟩
      exact ⟨m, b, hs, hm⟩
    · rintro ⟨m, b, hs, hm⟩
      exact ⟨m, b, hs, hm, matches_percent b⟩
  case endsWith =>
    rw [matches_append]
    constructor
    · rintro ⟨a, m, hs, -, hm⟩
      exact ⟨a, m, hs, hm⟩
    · rintro ⟨a, m, hs, hm⟩
      exact ⟨a, m, hs, matches_percent a, hm⟩

/-- Without wildcards in the value these are parts, beginnings, ends and the whole of a text. -/
structure Plain (v s : List Char) : Prop where
  contains : Operator.contains.Finds v s ↔ v.map Char.toLower <:+: s.map Char.toLower
  startsWith : Operator.startsWith.Finds v s ↔ v.map Char.toLower <+: s.map Char.toLower
  endsWith : Operator.endsWith.Finds v s ↔ v.map Char.toLower <:+ s.map Char.toLower
  like : Operator.like.Finds v s ↔ v.map Char.toLower = s.map Char.toLower

theorem plain_of_not_mem (hany : '%' ∉ v) (hone : '_' ∉ v) (s : List Char) : Plain v s where
  contains := by
    simp only [Finds, matches_iff_of_plain hany hone, List.IsInfix]
    constructor
    · rintro ⟨a, m, b, rfl, hm⟩
      exact ⟨a.map Char.toLower, b.map Char.toLower, by simp [hm]⟩
    · rintro ⟨a', b', h⟩
      obtain ⟨r, b, rfl, hr, -⟩ := List.map_eq_append_iff.mp h.symm
      obtain ⟨a, m, rfl, -, hm⟩ := List.map_eq_append_iff.mp hr
      exact ⟨a, m, b, rfl, hm⟩
  startsWith := by
    simp only [Finds, matches_iff_of_plain hany hone, List.IsPrefix]
    constructor
    · rintro ⟨m, b, rfl, hm⟩
      exact ⟨b.map Char.toLower, by simp [hm]⟩
    · rintro ⟨b', h⟩
      obtain ⟨m, b, rfl, hm, -⟩ := List.map_eq_append_iff.mp h.symm
      exact ⟨m, b, rfl, hm⟩
  endsWith := by
    simp only [Finds, matches_iff_of_plain hany hone, List.IsSuffix]
    constructor
    · rintro ⟨a, m, rfl, hm⟩
      exact ⟨a.map Char.toLower, by simp [hm]⟩
    · rintro ⟨a', h⟩
      obtain ⟨a, m, rfl, -, hm⟩ := List.map_eq_append_iff.mp h.symm
      exact ⟨a, m, rfl, hm⟩
  like := by
    simp only [Finds, matches_iff_of_plain hany hone]
    exact eq_comm

end Operator

theorem Condition.ofFilter_pattern {o : Operator} (ho : o.isPattern = true) (field v : String) :
    ofFilter ⟨field, o, .single v⟩ = .ok ⟨field, .like, .one (.text (o.wrapped v))⟩ := by
  cases o <;> cases ho <;> rfl

theorem Text.cut_append_of_not_mem {sep : Char} {a : List Char} (ha : sep ∉ a) (b : List Char) :
    (cut sep (a ++ b)).1 = a ++ (cut sep b).1 := by
  induction a with
  | nil => rfl
  | cons c a ih =>
    simp only [List.mem_cons, not_or] at ha
    rw [List.cons_append, cut, if_neg (Ne.symm ha.1), ih ha.2, List.cons_append]

theorem Text.cut_append_of_mem {sep : Char} {a : List Char} (ha : sep ∈ a) (b : List Char) :
    (cut sep (a ++ b)).1 = (cut sep a).1 := by
  induction a with
  | nil => cases ha
  | cons c a ih =>
    rw [List.cons_append, cut, cut]
    by_cases hc : c = sep
    · rw [if_pos hc, if_pos hc]
    · rw [if_neg hc, if_neg hc, ih (List.mem_of_ne_of_mem (Ne.symm hc) ha)]

namespace Store

theorem Pattern.toList_visible (s : String) :
    (visible s).toList = (Text.cut '\x00' s.toList).1 := by
  rw [visible, String.toList_ofList]

namespace Schema
variable {h : Schema} {column : Column} {field v : String} {o : Operator} {row : Row}

theorem clauseOf_pattern (hrules : h.rules = .standard) (hcolumn : h.column field = .ok column)
    (ho : o.isPattern = true) (v : String) :
    h.clauseOf ⟨field, o, .single v⟩ = .ok (.like column (.one (.text (o.wrapped v)))) := by
  rw [clauseOf, Condition.ofFilter_pattern ho]
  exact clause_pattern hrules hcolumn _

theorem keeps_pattern_iff (hrules : h.rules = .standard) (hcolumn : h.column field = .ok column)
    (ho : o.isPattern = true) :
    h.Keeps ⟨field, o, .single v⟩ row ↔ ∃ s, (row column.name).text? = some s ∧
      Pattern.Matches (Pattern.visible (o.wrapped v)).toList (Pattern.visible s).toList := by
  rw [Keeps, clauseOf_pattern hrules hcolumn ho]
  have htext : (Cell.ofScalar (.text (o.wrapped v))).text? = some (o.wrapped v) := rfl
  simp only [Except.ok.injEq, exists_eq_left', Clause.truth, Clause.likeTruth, htext,
    ← Pattern.matchesText_iff]
  cases (row column.name).text? <;> simp

/-- A value without a NUL is seen as a whole, and with it the wildcards around it. -/
theorem visible_wrapped (hv : '\x00' ∉ v.toList) (o : Operator) :
    Pattern.visible (o.wrapped v) = o.wrapped v := by
  refine Pattern.visible_of_not_mem ?_
  cases o <;> simp [Operator.wrapped, Operator.wildcards, hv]

theorem keeps_finds_iff (hrules : h.rules = .standard) (hcolumn : h.column field = .ok column)
    (ho : o.isPattern = true) (hv : '\x00' ∉ v.toList) {s : String}
    (hs : (row column.name).text? = some s) :
    h.Keeps ⟨field, o, .single v⟩ row ↔ o.Finds v.toList (Pattern.visible s).toList := by
  rw [keeps_pattern_iff hrules hcolumn ho, visible_wrapped hv, ← Operator.matches_wrapped_iff ho]
  simp [hs]

theorem keeps_contains_of_startsWith (hrules : h.rules = .standard)
    (hcolumn : h.column field = .ok column)
    (hkeeps : h.Keeps ⟨field, .startsWith, .single v⟩ row) :
    h.Keeps ⟨field, .contains, .single v⟩ row := by
  rw [keeps_pattern_iff hrules hcolumn rfl] at hkeeps ⊢
  obtain ⟨s, hs, hmatches⟩ := hkeeps
  refine ⟨s, hs, ?_⟩
  have hpattern : (Pattern.visible (Operator.contains.wrapped v)).toList =
      ['%'] ++ (Pattern.visible (Operator.startsWith.wrapped v)).toList := by
    simp only [Pattern.toList_visible, Operator.wrapped, Operator.wildcards, String.toList_append]
    rw [List.append_assoc, Text.cut_append_of_not_mem (by decide)]
    rfl
  rw [hpattern]
  exact (Pattern.Matches.any [] .nil).append hmatches

theorem keeps_contains_of_endsWith (hrules : h.rules = .standard)
    (hcolumn : h.column field = .ok column)
    (hkeeps : h.Keeps ⟨field, .endsWith, .single v⟩ row) :
    h.Keeps ⟨field, .contains, .single v⟩ row := by
  rw [keeps_pattern_iff hrules hcolumn rfl] at hkeeps ⊢
  obtain ⟨s, hs, hmatches⟩ := hkeeps
  refine ⟨s, hs, ?_⟩
  have hwrapped : (Operator.contains.wrapped v).toList =
      (Operator.endsWith.wrapped v).toList ++ ['%'] := by
    simp [Operator.wrapped, Operator.wildcards]
  rw [Pattern.toList_visible] at hmatches ⊢
  rw [hwrapped]
  -- The last wildcard is not seen after a NUL.
  by_cases hnul : '\x00' ∈ (Operator.endsWith.wrapped v).toList
  · rwa [Text.cut_append_of_mem hnul]
  · rw [Text.cut_of_not_mem hnul] at hmatches
    rw [Text.cut_append_of_not_mem hnul]
    have hend := hmatches.append (Pattern.Matches.any [] .nil)
    rwa [List.append_nil, List.append_nil] at hend

/-- What the operators that look for a value find in a column. -/
structure FindsParts (h : Schema) (column : Column) (field v : String) : Prop where
  meaning : ∀ o, o.isPattern = true → ∃ pattern,
    h.clauseOf ⟨field, o, .single v⟩ = .ok (.like column (.one (.text pattern))) ∧
      ∀ s, Pattern.matchesText pattern s = true ↔ o.Finds v.toList s.toList
  stored : '\x00' ∉ v.toList → ∀ o, o.isPattern = true → ∀ row s,
    (row column.name).text? = some s →
      (h.Keeps ⟨field, o, .single v⟩ row ↔ o.Finds v.toList (Pattern.visible s).toList)
  plain : '%' ∉ v.toList → '_' ∉ v.toList → ∀ s, Operator.Plain v.toList s
  startsWith : ∀ row, h.Keeps ⟨field, .startsWith, .single v⟩ row →
    h.Keeps ⟨field, .contains, .single v⟩ row
  endsWith : ∀ row, h.Keeps ⟨field, .endsWith, .single v⟩ row →
    h.Keeps ⟨field, .contains, .single v⟩ row

open Sample

theorem patterns_findParts (h : Schema) (column : Column) (field v : String)
    (hrules : h.rules = .standard) (hcolumn : h.column field = .ok column) :
    h.FindsParts column field v where
  meaning o ho := by
    refine ⟨o.wrapped v, clauseOf_pattern hrules hcolumn ho v, fun s => ?_⟩
    rw [Pattern.matchesText_iff, Operator.matches_wrapped_iff ho]
  stored hv o ho row s hs := keeps_finds_iff hrules hcolumn ho hv hs
  plain hany hone s := Operator.plain_of_not_mem hany hone s
  startsWith row := keeps_contains_of_startsWith hrules hcolumn
  endsWith row := keeps_contains_of_endsWith hrules hcolumn

theorem patterns_findParts_email :
    usersSchema.rules = .standard ∧
      usersSchema.column "email" = .ok ⟨"users", "email", .text⟩ ∧
      usersSchema.Keeps ⟨"email", .endsWith, .single "_11%@%.COM"⟩ (userAt 11).row ∧
      usersSchema.Keeps ⟨"email", .contains, .single "_11%@%.COM"⟩ (userAt 11).row ∧
      ¬ usersSchema.Keeps ⟨"email", .startsWith, .single "_11%@%.COM"⟩ (userAt 11).row := by
  have hcolumn : usersSchema.column "email" = .ok ⟨"users", "email", .text⟩ := rfl
  have hparts := patterns_findParts usersSchema _ "email" "_11%@%.COM" rfl hcolumn
  have hstored := fun o ho => hparts.stored (by decide) o ho (userAt 11).row
    "user_11%@example.com" (by decide)
  have hmatches : Pattern.Matches "_11%@%.COM".toList "_11%@example.com".toList :=
    Pattern.covers_iff.mp (by decide)
  have hends : usersSchema.Keeps ⟨"email", .endsWith, .single "_11%@%.COM"⟩ (userAt 11).row :=
    (hstored .endsWith rfl).mpr ⟨"user".toList, _, by decide, hmatches⟩
  refine ⟨rfl, hcolumn, hends, hparts.endsWith _ hends, fun hstarts => ?_⟩
  obtain ⟨k, hk, htruth⟩ := hstarts
  cases hk
  exact absurd htruth (by decide)

end Schema
end Store
end Listing
