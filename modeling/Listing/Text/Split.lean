/-! Cutting a text at a separator and joining the pieces again.
`splitOn` cuts at every occurrence and always gives at least one piece; `cut` cuts at the first
occurrence only and tells a missing separator from an empty rest. -/
namespace Listing.Text

def splitOn (sep : Char) : List Char → List (List Char)
  | [] => [[]]
  | c :: r =>
    if c = sep then [] :: splitOn sep r
    else match splitOn sep r with
      | [] => [[c]]
      | piece :: pieces => (c :: piece) :: pieces

theorem splitOn_ne_nil (sep : Char) (s : List Char) : splitOn sep s ≠ [] := by
  cases s with
  | nil => simp [splitOn]
  | cons c r =>
    rw [splitOn]
    split
    · simp
    · split <;> simp

theorem splitOn_of_not_mem {sep : Char} {s : List Char} (h : sep ∉ s) : splitOn sep s = [s] := by
  induction s with
  | nil => rfl
  | cons c r ih =>
    simp only [List.mem_cons, not_or] at h
    rw [splitOn, if_neg (Ne.symm h.1), ih h.2]

theorem splitOn_append {sep : Char} {s : List Char} (h : sep ∉ s) (r : List Char) :
    splitOn sep (s ++ sep :: r) = s :: splitOn sep r := by
  induction s with
  | nil => rw [List.nil_append, splitOn, if_pos rfl]
  | cons c s ih =>
    simp only [List.mem_cons, not_or] at h
    rw [List.cons_append, splitOn, if_neg (Ne.symm h.1), ih h.2]

theorem splitOn_intercalate {sep : Char} {p : List Char} {ps : List (List Char)}
    (h : ∀ q ∈ p :: ps, sep ∉ q) : splitOn sep ([sep].intercalate (p :: ps)) = p :: ps := by
  induction ps generalizing p with
  | nil => rw [List.intercalate_singleton, splitOn_of_not_mem (h p (by simp))]
  | cons q ps ih =>
    have hq : ∀ x ∈ q :: ps, sep ∉ x := fun x hx => h x (List.mem_cons_of_mem p hx)
    rw [List.intercalate_cons_cons, List.append_assoc, List.singleton_append,
      splitOn_append (h p (by simp)), ih hq]

theorem not_mem_of_mem_splitOn {sep : Char} {s piece : List Char} (h : piece ∈ splitOn sep s) :
    sep ∉ piece := by
  induction s generalizing piece with
  | nil =>
    rw [splitOn, List.mem_singleton] at h
    simp [h]
  | cons c r ih =>
    rw [splitOn] at h
    split at h
    case isTrue =>
      rcases List.mem_cons.mp h with rfl | hr
      · simp
      · exact ih hr
    case isFalse hc =>
      split at h
      case h_1 hnil => exact absurd hnil (splitOn_ne_nil sep r)
      case h_2 p ps hps =>
        rcases List.mem_cons.mp h with rfl | hr
        · have hp : sep ∉ p := ih (hps ▸ List.mem_cons_self)
          simp [hp, Ne.symm hc]
        · exact ih (hps ▸ List.mem_cons_of_mem p hr)

def cut (sep : Char) : List Char → List Char × Option (List Char)
  | [] => ([], none)
  | c :: r => if c = sep then ([], some r) else (c :: (cut sep r).1, (cut sep r).2)

theorem cut_of_not_mem {sep : Char} {s : List Char} (h : sep ∉ s) : cut sep s = (s, none) := by
  induction s with
  | nil => rfl
  | cons c r ih =>
    simp only [List.mem_cons, not_or] at h
    rw [cut, if_neg (Ne.symm h.1), ih h.2]

theorem cut_append {sep : Char} {s : List Char} (h : sep ∉ s) (r : List Char) :
    cut sep (s ++ sep :: r) = (s, some r) := by
  induction s with
  | nil => rw [List.nil_append, cut, if_pos rfl]
  | cons c s ih =>
    simp only [List.mem_cons, not_or] at h
    rw [List.cons_append, cut, if_neg (Ne.symm h.1), ih h.2]

/-- Every occurrence of `old` is replaced, read from the left; nothing is replaced twice. -/
def replace (old new : List Char) (s : List Char) : List Char := go 0 s
where
  go : Nat → List Char → List Char
    | _, [] => []
    | k + 1, _ :: r => go k r
    | 0, c :: r =>
      if old.isPrefixOf (c :: r) && !old.isEmpty then new ++ go (old.length - 1) r
      else c :: go 0 r

theorem replace_append {c : Char} {old new s : List Char} (h : c ∉ s) (r : List Char) :
    replace (c :: old) new (s ++ r) = s ++ replace (c :: old) new r := by
  induction s with
  | nil => rfl
  | cons d s ih =>
    simp only [List.mem_cons, not_or] at h
    have hprefix : (c :: old).isPrefixOf (d :: (s ++ r)) = false := by
      rw [List.isPrefixOf_cons_cons, beq_false_of_ne h.1, Bool.false_and]
    have hrest := ih h.2
    simp only [replace] at hrest ⊢
    rw [List.cons_append, replace.go, hprefix, Bool.false_and, if_neg Bool.false_ne_true, hrest,
      List.cons_append]

theorem replace_of_not_mem {c : Char} {old new s : List Char} (h : c ∉ s) :
    replace (c :: old) new s = s := by
  have happend : replace (c :: old) new (s ++ []) = s ++ replace (c :: old) new [] :=
    replace_append h []
  have hnil : replace (c :: old) new [] = [] := rfl
  rwa [hnil, List.append_nil] at happend

example : replace ['a', 'b'] ['c'] ['a', 'a', 'b', 'a', 'b'] = ['a', 'c', 'c'] := by decide

end Listing.Text
