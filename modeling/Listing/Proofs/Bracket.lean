import Mathlib
import Listing.Filter.Bracket
import Listing.Operator

/-! The grammar of parameter names that state a filter.
A name is read as a field and an operator exactly if it is written from these two, or is so written
with one line feed at its end. Different fields or operators have different written names. -/
namespace Listing.Bracket

def IsLabel (s : List Char) : Prop := s ≠ [] ∧ ∀ c ∈ s, isBracket c = false

instance (s : List Char) : Decidable (IsLabel s) :=
  decidable_of_iff (s ≠ [] ∧ s.all (fun c => !isBracket c) = true) (by simp [IsLabel])

theorem label?_of_isLabel {l : List Char} (h : IsLabel l) (r : List Char) :
    label? ('[' :: (l ++ ']' :: r)) = some (l, r) := by
  have hall : ∀ c ∈ l, (!isBracket c) = true := fun c hc => by simp [h.2 c hc]
  have htake : (l ++ ']' :: r).takeWhile (fun c => !isBracket c) = l := by
    rw [List.takeWhile_append_of_pos hall, List.takeWhile_cons_of_neg (by decide), List.append_nil]
  have hdrop : (l ++ ']' :: r).dropWhile (fun c => !isBracket c) = ']' :: r := by
    rw [List.dropWhile_append_of_pos hall, List.dropWhile_cons_of_neg (by decide)]
  simp only [label?, htake, hdrop, List.isEmpty_iff, if_neg h.1]

theorem isLabel_of_label? {s l r : List Char} (h : label? s = some (l, r)) :
    IsLabel l ∧ s = '[' :: (l ++ ']' :: r) := by
  unfold label? at h
  split at h
  case h_2 => cases h
  case h_1 t =>
    split at h
    case h_2 => cases h
    case h_1 rest hdrop =>
      dsimp only at h
      split at h
      case isTrue => cases h
      case isFalse hne =>
        cases h
        refine ⟨⟨by simpa using hne, ?_⟩, ?_⟩
        · intro c hc
          simpa using List.mem_takeWhile_imp hc
        · rw [← hdrop, List.takeWhile_append_dropWhile]

theorem label?_eq_some_iff {s l r : List Char} :
    label? s = some (l, r) ↔ IsLabel l ∧ s = '[' :: (l ++ ']' :: r) := by
  constructor
  · exact isLabel_of_label?
  · intro h
    obtain ⟨hl, rfl⟩ := h
    exact label?_of_isLabel hl r

theorem toList_name (key field operator : String) :
    (name key field operator).toList =
      key.toList ++ '[' :: (field.toList ++ ']' :: '[' :: (operator.toList ++ [']'])) := by
  simp [name]

def lineFeed : String := "\n"

theorem isEnd_iff {r : List Char} : isEnd r = true ↔ r = [] ∨ r = lineFeed.toList := by
  simp [isEnd, lineFeed]

theorem parts?_eq_some_iff {key s field operator : String} :
    parts? key s = some (field, operator) ↔
      IsLabel field.toList ∧ IsLabel operator.toList ∧
        (s = name key field operator ∨ s = name key field operator ++ lineFeed) := by
  constructor
  · intro h
    simp only [parts?, bind, Option.bind_eq_some_iff] at h
    obtain ⟨r₁, h₁, ⟨f, r₂⟩, h₂, ⟨o, r₃⟩, h₃, h₄⟩ := h
    split at h₄
    case isFalse => cases h₄
    case isTrue hend =>
      cases h₄
      obtain ⟨hf, rfl⟩ := label?_eq_some_iff.mp h₂
      obtain ⟨ho, rfl⟩ := label?_eq_some_iff.mp h₃
      have hs := eq_append_of_after? h₁
      rw [String.toList_ofList, String.toList_ofList]
      refine ⟨hf, ho, ?_⟩
      rcases isEnd_iff.mp hend with rfl | rfl
      · left
        rw [← String.toList_inj, toList_name, hs]
        simp
      · right
        rw [← String.toList_inj, String.toList_append, toList_name, hs]
        simp
  · intro h
    obtain ⟨hf, ho, hs⟩ := h
    have key_rest : ∃ r, isEnd r = true ∧ s.toList =
        key.toList ++ '[' :: (field.toList ++ ']' :: '[' :: (operator.toList ++ ']' :: r)) := by
      rcases hs with rfl | rfl
      · exact ⟨[], rfl, toList_name _ _ _⟩
      · refine ⟨lineFeed.toList, rfl, ?_⟩
        rw [String.toList_append, toList_name]
        simp
    obtain ⟨r, hend, hs⟩ := key_rest
    simp only [parts?, bind, hs, after?_append, Option.bind_some, label?_of_isLabel hf,
      label?_of_isLabel ho, hend, if_true, String.ofList_toList]

theorem parts?_name {field operator : String} (hf : IsLabel field.toList)
    (ho : IsLabel operator.toList) (key : String) :
    parts? key (name key field operator) = some (field, operator) :=
  parts?_eq_some_iff.mpr ⟨hf, ho, .inl rfl⟩

theorem parts?_eq_none {key s : String} (h : ¬ (key ++ "[").toList <+: s.toList) :
    parts? key s = none := by
  rw [Option.eq_none_iff_forall_ne_some]
  rintro ⟨field, operator⟩ hp
  obtain ⟨-, -, rfl | rfl⟩ := parts?_eq_some_iff.mp hp
  · apply h
    simp [toList_name, List.prefix_append_right_inj]
  · apply h
    simp [toList_name, String.toList_append, List.prefix_append_right_inj]

theorem name_ne_name_lineFeed (key field operator field' operator' : String) :
    name key field operator ≠ name key field' operator' ++ lineFeed := by
  intro h
  have hlast := congrArg (fun s : String => s.toList.getLast?) h
  simp [toList_name, String.toList_append, lineFeed, List.getLast?_append,
    List.getLast?_cons] at hlast

theorem name_lineFeed_begins (key field operator : String) :
    (key ++ "[").toList <+: (name key field operator ++ lineFeed).toList := by
  rw [String.toList_append, String.toList_append, toList_name]
  simp [List.prefix_append_right_inj]

theorem isLabel_name {o : Operator} (h : o ∈ Operator.all) : IsLabel o.name.toList := by
  simp only [Operator.all, List.mem_cons, List.not_mem_nil, or_false] at h
  rcases h with rfl | rfl | rfl | rfl | rfl | rfl | rfl | rfl | rfl | rfl | rfl | rfl | rfl <;>
    simp [IsLabel, Operator.name, isBracket]

end Listing.Bracket
