import Listing.Text.Split

/-! Patterns for texts.
`%` stands for any text, `_` for any one character; a letter `a` to `z` stands for itself in either
case, and every other character for itself alone. A pattern has to cover the whole text. -/
namespace Listing.Store.Pattern

def fold (c : Char) : Char := c.toLower

def same (p c : Char) : Bool := fold p == fold c

def anyTail (test : List Char → Bool) : List Char → Bool
  | [] => test []
  | c :: r => test (c :: r) || anyTail test r

def covers : List Char → List Char → Bool
  | [], s => s.isEmpty
  | p :: ps, s =>
    if p = '%' then anyTail (covers ps) s
    else
      match s with
      | [] => false
      | c :: r => (p = '_' || same p c) && covers ps r

def anyFrom : List Bool → List Bool
  | [] => []
  | b :: r =>
    let rest := anyFrom r
    (b || rest.headD false) :: rest

/-- The flags for a pattern of one more character in front, from those of the pattern. -/
def advance (p : Char) : List Char → List Bool → List Bool
  | c :: r, flags =>
    ((p = '_' || same p c) && (flags.tail).headD false) :: advance p r flags.tail
  | [], _ => [false]

/-- For every end of a text, the whole of it first, whether a pattern covers it. -/
def coveredEnds : List Char → List Char → List Bool
  | [], s => s.map (fun _ => false) ++ [true]
  | p :: ps, s =>
    if p = '%' then anyFrom (coveredEnds ps s) else advance p s (coveredEnds ps s)

/-- Tells the same as `covers` in time that grows with both lengths only. -/
def matchesText (pattern s : String) : Bool :=
  (coveredEnds pattern.toList s.toList).headD false

theorem anyTail_iff {test : List Char → Bool} {s : List Char} :
    anyTail test s = true ↔ ∃ a b, s = a ++ b ∧ test b = true := by
  induction s with
  | nil =>
    constructor
    · exact fun h => ⟨[], [], rfl, h⟩
    · rintro ⟨a, b, h, hb⟩
      obtain ⟨rfl, rfl⟩ := List.append_eq_nil_iff.mp h.symm
      exact hb
  | cons c r ih =>
    rw [anyTail, Bool.or_eq_true, ih]
    constructor
    · rintro (h | ⟨a, b, rfl, hb⟩)
      · exact ⟨[], c :: r, rfl, h⟩
      · exact ⟨c :: a, b, rfl, hb⟩
    · rintro ⟨a, b, h, hb⟩
      cases a with
      | nil => exact .inl (h ▸ hb)
      | cons d a =>
        simp only [List.cons_append, List.cons.injEq] at h
        exact .inr ⟨a, b, h.2, hb⟩

def testedEnds (test : List Char → Bool) : List Char → List Bool
  | [] => [test []]
  | c :: r => test (c :: r) :: testedEnds test r

theorem headD_testedEnds (test : List Char → Bool) (s : List Char) :
    (testedEnds test s).headD false = test s := by
  cases s <;> rfl

theorem anyFrom_testedEnds (test : List Char → Bool) (s : List Char) :
    anyFrom (testedEnds test s) = testedEnds (anyTail test) s := by
  induction s with
  | nil => simp [testedEnds, anyFrom, anyTail]
  | cons c r ih => rw [testedEnds, anyFrom, ih, headD_testedEnds, testedEnds, anyTail]

theorem advance_testedEnds {p : Char} (h : p ≠ '%') (ps s : List Char) :
    advance p s (testedEnds (covers ps) s) = testedEnds (covers (p :: ps)) s := by
  induction s with
  | nil => simp [advance, testedEnds, covers, h]
  | cons c r ih =>
    rw [testedEnds, advance, List.tail_cons, ih, headD_testedEnds, testedEnds, covers, if_neg h]

theorem coveredEnds_eq (p s : List Char) : coveredEnds p s = testedEnds (covers p) s := by
  induction p with
  | nil => induction s with
    | nil => rfl
    | cons c r ih => rw [testedEnds, ← ih]; rfl
  | cons p ps ih =>
    rw [coveredEnds, ih]
    by_cases h : p = '%'
    · subst h
      rw [if_pos rfl, anyFrom_testedEnds]
      congr 1
    · rw [if_neg h, advance_testedEnds h]

theorem matchesText_eq (pattern s : String) :
    matchesText pattern s = covers pattern.toList s.toList := by
  rw [matchesText, coveredEnds_eq, headD_testedEnds]

/-- What a store sees of a text: all of it up to the first NUL. -/
def visible (s : String) : String := String.ofList (Text.cut '\x00' s.toList).1

theorem visible_of_not_mem {s : String} (h : '\x00' ∉ s.toList) : visible s = s := by
  rw [visible, Text.cut_of_not_mem h, String.ofList_toList]

example : matchesText "%B_" "abc" = true := by decide
example : matchesText "b%" "abc" = false := by decide
example : visible "a\x00b" = "a" := by decide

end Listing.Store.Pattern
