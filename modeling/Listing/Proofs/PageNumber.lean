import Mathlib
import Listing.Page
import Listing.Proofs.Items

/-! Page numbers that are written and read again.
A number of at most 18 digits is read as itself and any larger one as the greatest offset. What
reading yields is a fixed point of writing and reading, also where a large page number was cut to
the last page whose offset is representable: such a page is either short enough to be read as it is,
or it is cut to the same page again. -/
namespace Listing.Number
open Listing.Text

theorem isDigit_of_mem_decimal {n : Nat} {c : Char} (h : c ∈ decimal n) : c.isDigit = true :=
  Nat.isDigit_of_mem_toDigits (by decide) (by decide) h

theorem isDigit_iff {c : Char} : c.isDigit = true ↔ 0x30 ≤ c.toNat ∧ c.toNat ≤ 0x39 := by
  simp only [Char.isDigit, Bool.and_eq_true, decide_eq_true_eq, ge_iff_le, UInt32.le_iff_toNat_le]
  rfl

theorem not_isBlank_of_isDigit {c : Char} (h : c.isDigit = true) : isBlank c = false := by
  obtain ⟨hlow, hhigh⟩ := isDigit_iff.mp h
  apply not_isBlank_of_visible <;> omega

theorem head?_decimal {n : Nat} (h : 0 < n) : (decimal n).head? ≠ some '0' := by
  induction n using Nat.strongRecOn with
  | ind n ih =>
    rw [decimal, Nat.toDigits_eq_if (by decide)]
    split
    case isTrue hlt =>
      have all : ∀ k : Fin 10, 0 < k.val → [Nat.digitChar k.val].head? ≠ some '0' := by decide
      exact all ⟨n, hlt⟩ h
    case isFalse hge =>
      rw [List.head?_append_of_ne_nil _ Nat.toDigits_ne_nil]
      exact ih (n / 10) (by omega) (by omega)

theorem toList_intText (n : Int) :
    (intText n).toList = signText (n < 0) ++ decimal n.natAbs := by
  simp [intText]

theorem not_isBlank_of_mem_intText {n : Int} {c : Char} (h : c ∈ (intText n).toList) :
    isBlank c = false := by
  rw [toList_intText, List.mem_append] at h
  rcases h with hs | hd
  · rw [signText] at hs
    split at hs
    · rw [List.mem_singleton.mp hs]
      rfl
    · cases hs
  · exact not_isBlank_of_isDigit (isDigit_of_mem_decimal hd)

theorem trim_intText (n : Int) : trim (intText n).toList = (intText n).toList := by
  refine trim_of_trimmed ⟨fun c hc => ?_, fun c hc => ?_⟩
  · exact not_isBlank_of_mem_intText (List.mem_of_head? hc)
  · exact not_isBlank_of_mem_intText (List.mem_of_getLast? hc)

end Listing.Number

namespace Listing.Page
open Listing.Text Listing.Number

theorem digitsValue_eq (ds : List Char) : digitsValue ds = Nat.ofDigitChars 10 ds 0 := by
  rw [digitsValue, ofDigits, List.foldl_map, Nat.ofDigitChars_eq_foldl]
  rfl

theorem digitsValue_decimal (n : Nat) : digitsValue (decimal n) = n := by
  rw [digitsValue_eq, decimal, Nat.ofDigitChars_ten_toDigits]

def counted (n : Int) : Int :=
  if n.natAbs < 10 ^ maxDigits then n else if n < 0 then -maxOffset else maxOffset

theorem ofBody?_decimal (negative : Bool) (n : Nat) :
    Written.ofBody? negative (decimal n) = some ⟨negative, decimal n, []⟩ := by
  have hall : ∀ c ∈ decimal n, Char.isDigit c = true := fun c => isDigit_of_mem_decimal
  have htake : (decimal n).takeWhile Char.isDigit = decimal n := List.takeWhile_eq_self_iff.mpr hall
  have hdrop : (decimal n).dropWhile Char.isDigit = [] := List.dropWhile_eq_nil_iff.mpr hall
  have hne : (decimal n).isEmpty = false := by
    rw [List.isEmpty_eq_false_iff]
    exact Nat.toDigits_ne_nil
  simp [Written.ofBody?, htake, hdrop, hne]

theorem read?_intText (n : Int) :
    Written.read? (intText n).toList = some ⟨n < 0, decimal n.natAbs, []⟩ := by
  rw [toList_intText]
  by_cases hn : n < 0
  · rw [decide_eq_true hn]
    exact ofBody?_decimal true n.natAbs
  · rw [decide_eq_false hn]
    have hhead : ∀ body, decimal n.natAbs ≠ '-' :: body := by
      intro body h
      have hd : Char.isDigit '-' = true := isDigit_of_mem_decimal (h ▸ List.mem_cons_self)
      exact absurd hd (by decide)
    show Written.read? (decimal n.natAbs) = _
    rw [Written.read?]
    · exact ofBody?_decimal false n.natAbs
    · exact hhead

theorem saturated_decimal (negative : Bool) (n : Nat) :
    (Written.mk negative (decimal n) []).saturated = !decide (n < 10 ^ maxDigits) := by
  rw [Written.saturated]
  by_cases hn : n = 0
  · subst hn
    show decide (maxDigits < ((decimal 0).dropWhile isZeroDigit).length) = _
    decide
  · have hdrop : (decimal n).dropWhile isZeroDigit = decimal n := by
      rw [List.dropWhile_eq_self_iff]
      intro hl hz
      refine head?_decimal (Nat.pos_of_ne_zero hn) ?_
      rw [List.head?_eq_getElem?, List.getElem?_eq_getElem hl]
      simpa [isZeroDigit] using hz
    have hlen := Nat.length_toDigits_le_iff (b := 10) (n := n) (k := maxDigits) (by decide)
      (by decide)
    rw [hdrop, ← decide_not]
    congr 1
    rw [eq_iff_iff, ← hlen, Nat.not_le]
    rfl

theorem number?_intText (n : Int) : number? (intText n) = some (counted n) := by
  have hfloor : (Written.mk (n < 0) (decimal n.natAbs) []).floor = n := by
    simp only [Written.floor, digitsValue_decimal, List.all_nil, if_true, decide_eq_true_eq]
    split <;> omega
  rw [number?, trim_intText, read?_intText, Option.map_some, Written.value, saturated_decimal,
    hfloor, counted]
  by_cases hn : n.natAbs < 10 ^ maxDigits <;> simp [hn]

theorem intText_eq_all_iff {n : Int} : (intText n).toList = ['-', '1'] ↔ n = -1 := by
  constructor
  · intro h
    rw [toList_intText] at h
    by_cases hn : n < 0
    · rw [decide_eq_true hn] at h
      have hd : decimal n.natAbs = ['1'] := (List.cons.inj h).2
      have hv := digitsValue_decimal n.natAbs
      rw [hd, show digitsValue ['1'] = 1 by decide] at hv
      omega
    · rw [decide_eq_false hn] at h
      have hd : Char.isDigit '-' = true := by
        refine isDigit_of_mem_decimal (n := n.natAbs) ?_
        rw [show decimal n.natAbs = ['-', '1'] from h]
        exact List.mem_cons_self
      exact absurd hd (by decide)
  · rintro rfl
    decide

theorem digitsValue_lt {ds : List Char} (h : ∀ c ∈ ds, c.isDigit = true) :
    digitsValue ds < 10 ^ ds.length := by
  induction ds using List.reverseRecOn with
  | nil => decide
  | append_singleton ds c ih =>
    have hc := isDigit_iff.mp (h c (by simp))
    have hds := ih fun d hd => h d (by simp [hd])
    have hstep : digitsValue (ds ++ [c]) = 10 * digitsValue ds + (c.toNat - 0x30) := by
      rw [digitsValue, List.map_append, List.map_singleton, ofDigits_append, ← digitsValue]
    rw [hstep, List.length_append, List.length_singleton, Nat.pow_succ]
    omega

theorem digitsValue_dropWhile (ds : List Char) :
    digitsValue (ds.dropWhile isZeroDigit) = digitsValue ds := by
  induction ds with
  | nil => rfl
  | cons c r ih =>
    by_cases hc : isZeroDigit c = true
    · rw [List.dropWhile_cons_of_pos hc, ih, beq_iff_eq.mp hc, digitsValue_eq, digitsValue_eq,
        Nat.ofDigitChars_cons]
      rfl
    · rw [List.dropWhile_cons_of_neg hc]

theorem isDigit_of_read? {s : List Char} {w : Written} (h : Written.read? s = some w) :
    ∀ c ∈ w.whole, c.isDigit = true := by
  have hbody : ∀ {b body}, Written.ofBody? b body = some w → ∀ c ∈ w.whole, c.isDigit = true := by
    intro b body hb c hc
    unfold Written.ofBody? at hb
    dsimp only at hb
    split at hb <;> split at hb <;> cases hb
    all_goals exact List.mem_takeWhile_imp hc
  unfold Written.read? at h
  split at h
  · exact hbody h
  · exact hbody h

theorem lt_or_eq_of_number? {s : String} {n : Int} (h : number? s = some n) (hpos : 1 ≤ n) :
    n < 10 ^ maxDigits ∨ n = maxOffset := by
  obtain ⟨w, hw, rfl⟩ := Option.map_eq_some_iff.mp h
  rw [Written.value] at hpos ⊢
  split at hpos
  case isTrue hs =>
    rw [if_pos hs]
    split at hpos
    case isTrue => exact absurd hpos (by decide)
    case isFalse hneg => rw [if_neg hneg]; exact .inr rfl
  case isFalse hs =>
    rw [if_neg hs]
    left
    have hwhole : ∀ c ∈ w.whole.dropWhile isZeroDigit, c.isDigit = true :=
      fun c hc => isDigit_of_read? hw c ((List.dropWhile_suffix _).subset hc)
    have hlt := digitsValue_lt hwhole
    have hlen : (w.whole.dropWhile isZeroDigit).length ≤ maxDigits := by
      simpa [Written.saturated] using hs
    have hpow : 10 ^ (w.whole.dropWhile isZeroDigit).length ≤ 10 ^ maxDigits :=
      Nat.pow_le_pow_right (by decide) hlen
    rw [digitsValue_dropWhile] at hlt
    have hfloor : w.floor ≤ digitsValue w.whole := by
      rw [Written.floor]
      split
      · split <;> omega
      · exact le_rfl
    have hcast : ((10 ^ maxDigits : Nat) : Int) = 10 ^ maxDigits := by norm_num
    omega

end Listing.Page
