import Mathlib
import Listing.Proofs.PageNumber

/-! The numbers that the texts of page numbers denote.
A text of digits with at most one point, and with an optional minus, denotes a rational number; no
other text is read. What is read is the floor of that number, unless the floor has more than 18
digits: a positive one is then read as the greatest offset, as any number that large is. -/
namespace Listing.Page
open Listing.Text Listing.Number

section Digits
variable {ds : List Char}

theorem digitsValue_append (ds fs : List Char) :
    digitsValue (ds ++ fs) = 10 ^ fs.length * digitsValue ds + digitsValue fs := by
  simp only [digitsValue_eq]
  rw [Nat.ofDigitChars_append, Nat.ofDigitChars_eq_ofDigitChars_zero]

theorem digitsValue_cons (c : Char) (r : List Char) :
    digitsValue (c :: r) = 10 ^ r.length * (c.toNat - 0x30) + digitsValue r := by
  have hone : digitsValue [c] = c.toNat - 0x30 := by simp [digitsValue, ofDigits]
  rw [← List.singleton_append, digitsValue_append, hone]

theorem isZeroDigit_iff {c : Char} (h : c.isDigit = true) :
    isZeroDigit c = true ↔ c.toNat - 0x30 = 0 := by
  have hrange := isDigit_iff.mp h
  rw [isZeroDigit, beq_iff_eq, ← Char.toNat_inj]
  have hzero : '0'.toNat = 0x30 := rfl
  omega

theorem digitsValue_eq_zero_iff (h : ∀ c ∈ ds, c.isDigit = true) :
    digitsValue ds = 0 ↔ ds.all isZeroDigit = true := by
  induction ds with
  | nil => simp [digitsValue, ofDigits]
  | cons c r ih =>
    obtain ⟨hc, hr⟩ := List.forall_mem_cons.mp h
    rw [digitsValue_cons, List.all_cons, Bool.and_eq_true, ← ih hr, isZeroDigit_iff hc]
    simp

theorem pow_le_digitsValue {c : Char} {r : List Char} (hc : c.isDigit = true)
    (hzero : isZeroDigit c = false) : 10 ^ r.length ≤ digitsValue (c :: r) := by
  have hpos : 1 ≤ c.toNat - 0x30 := by
    by_contra hlt
    rw [(isZeroDigit_iff hc).mpr (by omega)] at hzero
    cases hzero
  rw [digitsValue_cons]
  calc 10 ^ r.length ≤ 10 ^ r.length * (c.toNat - 0x30) := Nat.le_mul_of_pos_right _ hpos
    _ ≤ 10 ^ r.length * (c.toNat - 0x30) + digitsValue r := Nat.le_add_right _ _

theorem maxDigits_lt_length_iff (h : ∀ c ∈ ds, c.isDigit = true) :
    maxDigits < (ds.dropWhile isZeroDigit).length ↔ 10 ^ maxDigits ≤ digitsValue ds := by
  have hrest : ∀ c ∈ ds.dropWhile isZeroDigit, c.isDigit = true :=
    fun c hc => h c ((List.dropWhile_suffix _).subset hc)
  have hhead := List.head?_dropWhile_not isZeroDigit ds
  rw [← digitsValue_dropWhile]
  generalize ds.dropWhile isZeroDigit = rest at hrest hhead
  constructor
  · intro hlen
    cases rest with
    | nil => cases hlen
    | cons c r =>
      have hlow : 10 ^ r.length ≤ digitsValue (c :: r) :=
        pow_le_digitsValue (hrest c List.mem_cons_self) (by simpa using hhead)
      refine le_trans (Nat.pow_le_pow_right (by decide) ?_) hlow
      rw [List.length_cons] at hlen
      omega
  · intro hvalue
    by_contra hlen
    have hhigh := digitsValue_lt hrest
    have hpow : 10 ^ rest.length ≤ 10 ^ maxDigits := Nat.pow_le_pow_right (by decide) (by omega)
    omega

theorem digitsValue_append_div {fs : List Char} (h : ∀ c ∈ fs, c.isDigit = true) :
    digitsValue (ds ++ fs) / 10 ^ fs.length = digitsValue ds := by
  have hpow : 0 < 10 ^ fs.length := by positivity
  rw [digitsValue_append, Nat.mul_add_div hpow, Nat.div_eq_of_lt (digitsValue_lt h), Nat.add_zero]

theorem pow_dvd_digitsValue_append {fs : List Char} (h : ∀ c ∈ fs, c.isDigit = true) :
    10 ^ fs.length ∣ digitsValue (ds ++ fs) ↔ fs.all isZeroDigit = true := by
  rw [digitsValue_append, ← digitsValue_eq_zero_iff h, Nat.dvd_add_right (Nat.dvd_mul_right _ _)]
  constructor
  · intro hdvd
    exact Nat.eq_zero_of_dvd_of_lt hdvd (digitsValue_lt h)
  · intro hzero
    rw [hzero]
    exact Nat.dvd_zero _

end Digits

/-- Digits with at most one point, at least one digit in all, and the number that they denote. -/
inductive Unsigned : List Char → ℚ → Prop
  | whole {ds : List Char} (hne : ds ≠ []) (hds : ∀ c ∈ ds, c.isDigit = true) :
    Unsigned ds (Nat.ofDigitChars 10 ds 0)
  | point {ds fs : List Char} (hne : ds ++ fs ≠ []) (hds : ∀ c ∈ ds ++ fs, c.isDigit = true) :
    Unsigned (ds ++ '.' :: fs) (Nat.ofDigitChars 10 (ds ++ fs) 0 / 10 ^ fs.length)

inductive Denotes : List Char → ℚ → Prop
  | plain {s : List Char} {x : ℚ} (h : Unsigned s x) : Denotes s x
  | minus {s : List Char} {x : ℚ} (h : Unsigned s x) : Denotes ('-' :: s) (-x)

namespace Written
variable {w : Written}

def magnitude (w : Written) : ℚ :=
  Nat.ofDigitChars 10 (w.whole ++ w.fraction) 0 / 10 ^ w.fraction.length

def exact (w : Written) : ℚ := if w.negative then -w.magnitude else w.magnitude

def Digits (w : Written) : Prop := ∀ c ∈ w.whole ++ w.fraction, c.isDigit = true

theorem magnitude_eq (w : Written) :
    w.magnitude =
      (digitsValue (w.whole ++ w.fraction) : ℚ) / ((10 ^ w.fraction.length : ℕ) : ℚ) := by
  rw [magnitude, digitsValue_eq, Nat.cast_pow]
  rfl

theorem floor_eq (h : w.Digits) : w.floor = ⌊w.exact⌋ := by
  have hfraction : ∀ c ∈ w.fraction, c.isDigit = true :=
    fun c hc => h c (List.mem_append_right _ hc)
  have hdiv : digitsValue (w.whole ++ w.fraction) / 10 ^ w.fraction.length = digitsValue w.whole :=
    digitsValue_append_div hfraction
  rw [floor, exact, magnitude_eq]
  cases w.negative with
  | false =>
    simp only [Bool.false_eq_true, if_false]
    rw [Rat.floor_natCast_div_natCast]
    exact_mod_cast hdiv.symm
  | true =>
    -- below zero the floor is one less, except where the fraction is zero
    have hsign : ((10 ^ w.fraction.length : ℕ) : ℤ).sign = 1 :=
      Int.sign_eq_one_of_pos (by positivity)
    simp only [if_true]
    rw [← neg_div, ← Int.cast_natCast (digitsValue (w.whole ++ w.fraction)), ← Int.cast_neg,
      Rat.floor_intCast_div_natCast, Int.neg_ediv, ← Int.natCast_ediv, hdiv, hsign]
    simp only [Int.natCast_dvd_natCast, pow_dvd_digitsValue_append hfraction]
    split <;> omega

theorem ofBody?_of_unsigned {s : List Char} {x : ℚ} (h : Unsigned s x) (negative : Bool) :
    ∃ w, ofBody? negative s = some w ∧ w.negative = negative ∧ w.Digits ∧ w.magnitude = x := by
  cases h with
  | whole hne hds =>
    have htake : s.takeWhile Char.isDigit = s := List.takeWhile_eq_self_iff.mpr hds
    have hdrop : s.dropWhile Char.isDigit = [] := List.dropWhile_eq_nil_iff.mpr hds
    refine ⟨⟨negative, s, []⟩, ?_, rfl, by simpa [Digits] using hds, by simp [magnitude]⟩
    simp [ofBody?, htake, hdrop, hne]
  | @point ds fs hne hds =>
    have hwhole : ∀ c ∈ ds, c.isDigit = true := fun c hc => hds c (List.mem_append_left _ hc)
    have hfraction : fs.all Char.isDigit = true :=
      List.all_eq_true.mpr fun c hc => hds c (List.mem_append_right _ hc)
    have htake : (ds ++ '.' :: fs).takeWhile Char.isDigit = ds := by
      rw [List.takeWhile_append_of_pos hwhole, List.takeWhile_cons_of_neg (by decide),
        List.append_nil]
    have hdrop : (ds ++ '.' :: fs).dropWhile Char.isDigit = '.' :: fs := by
      rw [List.dropWhile_append_of_pos hwhole, List.dropWhile_cons_of_neg (by decide)]
    have hsome : (ds.isEmpty && fs.isEmpty) = false := by simpa using hne
    refine ⟨⟨negative, ds, fs⟩, ?_, rfl, hds, rfl⟩
    simp [ofBody?, htake, hdrop, hfraction, hsome]

theorem unsigned_of_ofBody? {s : List Char} {negative : Bool} (h : ofBody? negative s = some w) :
    w.negative = negative ∧ w.Digits ∧ Unsigned s w.magnitude := by
  have hwhole : ∀ c ∈ s.takeWhile Char.isDigit, c.isDigit = true :=
    fun c hc => List.mem_takeWhile_imp hc
  have hs : s.takeWhile Char.isDigit ++ s.dropWhile Char.isDigit = s :=
    List.takeWhile_append_dropWhile
  unfold ofBody? at h
  dsimp only at h
  split at h
  case h_1 hdrop =>
    split at h
    case isTrue => cases h
    case isFalse hne =>
      cases h
      rw [hdrop, List.append_nil] at hs
      rw [hs] at hwhole hne ⊢
      refine ⟨rfl, by simpa [Digits] using hwhole, ?_⟩
      have hmagnitude : (Written.mk negative s []).magnitude = Nat.ofDigitChars 10 s 0 := by
        simp [magnitude]
      rw [hmagnitude]
      exact .whole (by simpa using hne) hwhole
  case h_2 c fraction hdrop =>
    split at h
    case isFalse => cases h
    case isTrue hpoint =>
      cases h
      simp only [Bool.and_eq_true, decide_eq_true_eq, List.all_eq_true] at hpoint
      obtain ⟨⟨rfl, hfraction⟩, hsome⟩ := hpoint
      have hdigits : ∀ c ∈ s.takeWhile Char.isDigit ++ fraction, c.isDigit = true :=
        List.forall_mem_append.mpr ⟨hwhole, hfraction⟩
      refine ⟨rfl, hdigits, ?_⟩
      rw [hdrop] at hs
      have hne : s.takeWhile Char.isDigit ++ fraction ≠ [] := by
        intro hnil
        obtain ⟨hwhole, hfraction⟩ := List.append_eq_nil_iff.mp hnil
        rw [hwhole, hfraction] at hsome
        cases hsome
      have hunsigned := Unsigned.point hne hdigits
      rw [hs] at hunsigned
      exact hunsigned

theorem head_ne_minus {s : List Char} {x : ℚ} (h : Unsigned s x) (body : List Char) :
    s ≠ '-' :: body := by
  rintro rfl
  obtain ⟨w, hw, -⟩ := ofBody?_of_unsigned h false
  simp [ofBody?] at hw

theorem read?_of_denotes {s : List Char} {x : ℚ} (h : Denotes s x) :
    ∃ w, read? s = some w ∧ w.Digits ∧ w.exact = x := by
  cases h with
  | plain h =>
    obtain ⟨w, hw, hnegative, hdigits, hx⟩ := ofBody?_of_unsigned h false
    refine ⟨w, ?_, hdigits, by rw [exact, hnegative, hx]; rfl⟩
    rw [read?]
    · exact hw
    · exact head_ne_minus h
  | minus h =>
    obtain ⟨w, hw, hnegative, hdigits, hx⟩ := ofBody?_of_unsigned h true
    exact ⟨w, hw, hdigits, by rw [exact, hnegative, hx]; rfl⟩

theorem denotes_of_read? {s : List Char} (h : read? s = some w) : w.Digits ∧ Denotes s w.exact := by
  unfold read? at h
  split at h
  case h_1 =>
    obtain ⟨hnegative, hdigits, hunsigned⟩ := unsigned_of_ofBody? h
    rw [exact, hnegative, if_pos rfl]
    exact ⟨hdigits, .minus hunsigned⟩
  case h_2 =>
    obtain ⟨hnegative, hdigits, hunsigned⟩ := unsigned_of_ofBody? h
    rw [exact, hnegative, if_neg (by decide)]
    exact ⟨hdigits, .plain hunsigned⟩

theorem saturated_iff (h : w.Digits) :
    w.saturated = true ↔ 10 ^ maxDigits ≤ digitsValue w.whole := by
  rw [saturated, decide_eq_true_eq, maxDigits_lt_length_iff]
  exact fun c hc => h c (List.mem_append_left _ hc)

theorem value_of_pos (h : w.Digits) (hpos : 1 ≤ w.floor) : w.value = counted w.floor := by
  have hsaturated := saturated_iff h
  have hplain : w.negative = false := by
    cases hn : w.negative with
    | false => rfl
    | true =>
      rw [floor, hn, if_pos rfl] at hpos
      split at hpos <;> omega
  have hfloor : w.floor = digitsValue w.whole := by
    rw [floor, hplain]
    rfl
  rw [value, hplain, hfloor, counted]
  by_cases hlarge : 10 ^ maxDigits ≤ digitsValue w.whole
  · rw [if_pos (hsaturated.mpr hlarge), if_neg Bool.false_ne_true, if_neg (by omega),
      if_neg (by omega)]
  · rw [if_neg (mt hsaturated.mp hlarge), if_pos (by simpa using hlarge)]

theorem value_of_nonpos (h : w.Digits) (hnonpos : w.floor < 1) : w.value < 1 := by
  rw [value]
  split
  case isTrue hlarge =>
    have hpow : 1 ≤ digitsValue w.whole :=
      le_trans (Nat.one_le_pow _ _ (by decide)) ((saturated_iff h).mp hlarge)
    rw [floor] at hnonpos
    cases hn : w.negative with
    | false =>
      rw [hn, if_neg (by decide)] at hnonpos
      omega
    | true => decide
  case isFalse => exact hnonpos

end Written

section Number
variable {t : String} {x : ℚ}

theorem number?_of_pos (h : Denotes (trim t.toList) x) (hx : 1 ≤ ⌊x⌋) :
    number? t = some (counted ⌊x⌋) := by
  obtain ⟨w, hw, hdigits, rfl⟩ := Written.read?_of_denotes h
  rw [← Written.floor_eq hdigits] at hx ⊢
  rw [number?, hw, Option.map_some, Written.value_of_pos hdigits hx]

theorem number?_of_nonpos (h : Denotes (trim t.toList) x) (hx : ⌊x⌋ < 1) :
    ∃ n, number? t = some n ∧ n < 1 := by
  obtain ⟨w, hw, hdigits, rfl⟩ := Written.read?_of_denotes h
  rw [← Written.floor_eq hdigits] at hx
  exact ⟨w.value, by rw [number?, hw]; rfl, Written.value_of_nonpos hdigits hx⟩

theorem lt_one_of_number? (h : ∀ x, Denotes (trim t.toList) x → ⌊x⌋ < 1) {n : ℤ}
    (hn : number? t = some n) : n < 1 := by
  obtain ⟨w, hw, rfl⟩ := Option.map_eq_some_iff.mp hn
  obtain ⟨hdigits, hdenotes⟩ := Written.denotes_of_read? hw
  have hfloor := h w.exact hdenotes
  rw [← Written.floor_eq hdigits] at hfloor
  exact Written.value_of_nonpos hdigits hfloor

end Number

end Listing.Page
