/-! White space and what is left of a text without it at its ends.
Blank are the characters with Unicode's white-space property and the four separators U+001C to
U+001F. `trim` works on characters, `strip` on texts. -/
namespace Listing.Text

def isBlankCode (n : Nat) : Bool :=
  (9 ≤ n && n ≤ 13) || (0x1C ≤ n && n ≤ 0x20) || n == 0x85 || n == 0xA0 || n == 0x1680 ||
    (0x2000 ≤ n && n ≤ 0x200A) || n == 0x2028 || n == 0x2029 || n == 0x202F || n == 0x205F ||
    n == 0x3000

def isBlank (c : Char) : Bool := isBlankCode c.toNat

theorem not_isBlank_of_visible {c : Char} (hlow : 0x20 < c.toNat) (hhigh : c.toNat < 0x7F) :
    isBlank c = false := by
  simp only [isBlank, isBlankCode, Bool.or_eq_false_iff, Bool.and_eq_false_imp, decide_eq_true_eq,
    decide_eq_false_iff_not, beq_eq_false_iff_ne]
  omega

def trimEnd (s : List Char) : List Char := (s.reverse.dropWhile isBlank).reverse

def trim (s : List Char) : List Char := trimEnd (s.dropWhile isBlank)

theorem dropWhile_blank {s : List Char} (h : ∀ c ∈ s, isBlank c = true) :
    s.dropWhile isBlank = [] := by
  induction s with
  | nil => rfl
  | cons c r ih =>
    rw [List.dropWhile_cons_of_pos (h c (by simp)), ih fun d hd => h d (by simp [hd])]

theorem trim_blank {s : List Char} (h : ∀ c ∈ s, isBlank c = true) : trim s = [] := by
  rw [trim, dropWhile_blank h]
  rfl

def Trimmed (s : List Char) : Prop :=
  (∀ c, s.head? = some c → isBlank c = false) ∧ (∀ c, s.getLast? = some c → isBlank c = false)

theorem dropWhile_eq_self {s : List Char} (h : ∀ c, s.head? = some c → isBlank c = false) :
    s.dropWhile isBlank = s := by
  cases s with
  | nil => rfl
  | cons c r => rw [List.dropWhile_cons_of_neg (by simp [h c rfl])]

theorem trim_of_trimmed {s : List Char} (h : Trimmed s) : trim s = s := by
  rw [trim, dropWhile_eq_self h.1, trimEnd,
    dropWhile_eq_self (by simpa [List.head?_reverse] using h.2), List.reverse_reverse]

theorem trimmed_of_not_blank {s : List Char} (h : ∀ c ∈ s, isBlank c = false) : Trimmed s :=
  ⟨fun c hc => h c (List.mem_of_head? hc), fun c hc => h c (List.mem_of_getLast? hc)⟩

theorem trim_around {before t after : List Char} (hbefore : ∀ c ∈ before, isBlank c = true)
    (hafter : ∀ c ∈ after, isBlank c = true) (h : Trimmed t) : trim (before ++ t ++ after) = t := by
  cases t with
  | nil =>
    rw [List.append_nil]
    exact trim_blank (List.forall_mem_append.mpr ⟨hbefore, hafter⟩)
  | cons c r =>
    have hfront : (before ++ (c :: r) ++ after).dropWhile isBlank = (c :: r) ++ after := by
      rw [List.append_assoc, List.dropWhile_append_of_pos hbefore]
      exact dropWhile_eq_self h.1
    have hback : after.reverse.dropWhile isBlank = [] :=
      dropWhile_blank fun d hd => hafter d (List.mem_reverse.mp hd)
    have hlast : (c :: r).reverse.dropWhile isBlank = (c :: r).reverse := by
      refine dropWhile_eq_self ?_
      rw [List.head?_reverse]
      exact h.2
    rw [trim, hfront, trimEnd, List.reverse_append, List.dropWhile_append, hback,
      List.isEmpty_nil, if_pos rfl, hlast, List.reverse_reverse]

def strip (s : String) : String := String.ofList (trim s.toList)

@[simp] theorem toList_strip (s : String) : (strip s).toList = trim s.toList := by
  simp [strip]

end Listing.Text
