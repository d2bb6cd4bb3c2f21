import Mathlib
import Listing.Number.Decimal
import Listing.Number.Integer
import Listing.Proofs.PageNumeral

/-! Whole and decimal numbers that are written and read again.
A run of digits is read up to the first character that is neither a digit nor an underscore, so that
each part of a written number is read as the digits it was made of. A decimal number comes back with
its sign, its digits and its exponent, in plain notation and with an exponent alike. -/
namespace Listing.Number
open Listing.Text

theorem digitValue?_of_isDigit {c : Char} (h : c.isDigit = true) :
    digitValue? c = some (c.toNat - 0x30) := by
  have hascii : c.toNat < 0x80 := by
    rw [isDigit_iff] at h
    omega
  rw [digitValue?_of_ascii hascii, asciiDigit?, if_pos h]

theorem ne_of_isDigit {c d : Char} (h : c.isDigit = true) (hd : d.isDigit = false) : c ≠ d := by
  rintro rfl
  rw [h] at hd
  cases hd

def IsDigits (s : List Char) : Prop := ∀ c ∈ s, c.isDigit = true

def EndsRun (s : List Char) : Prop := ∀ c r, s = c :: r → digitValue? c = none ∧ c ≠ '_'

def valuesOf (s : List Char) : List Nat := s.map fun c => c.toNat - 0x30

variable {s r : List Char}

theorem IsDigits.take (h : IsDigits s) (n : Nat) : IsDigits (s.take n) :=
  fun c hc => h c (List.mem_of_mem_take hc)

theorem IsDigits.drop (h : IsDigits s) (n : Nat) : IsDigits (s.drop n) :=
  fun c hc => h c (List.mem_of_mem_drop hc)

theorem ofDigits_valuesOf_decimal (n : Nat) : ofDigits (valuesOf (decimal n)) = n :=
  Page.digitsValue_decimal n

theorem valuesOf_ne_nil (hs : s ≠ []) : valuesOf s ≠ [] := mt List.map_eq_nil_iff.mp hs

theorem endsRun_nil : EndsRun [] := by
  intro c r h
  cases h

theorem endsRun_cons {c : Char} (hc : digitValue? c = none) (hne : c ≠ '_') (r : List Char) :
    EndsRun (c :: r) := by
  intro d t h
  cases h
  exact ⟨hc, hne⟩

theorem moreDigits_of_endsRun (hr : EndsRun r) : moreDigits r = ([], r) := by
  cases r with
  | nil => rfl
  | cons c r =>
    obtain ⟨hc, hne⟩ := hr c r rfl
    cases r with
    | nil => simp only [moreDigits, hc]
    | cons d r => simp only [moreDigits, hc, hne, if_false]

theorem moreDigits_cons {c : Char} (hc : c.isDigit = true) (r : List Char) :
    moreDigits (c :: r) = ((c.toNat - 0x30) :: (moreDigits r).1, (moreDigits r).2) := by
  have hvalue := digitValue?_of_isDigit hc
  have hne : c ≠ '_' := ne_of_isDigit hc (by decide)
  cases r with
  | nil => simp only [moreDigits, hvalue]
  | cons d r => simp only [moreDigits, hvalue, hne, if_false]

theorem moreDigits_append (hs : IsDigits s) (hr : EndsRun r) :
    moreDigits (s ++ r) = (valuesOf s, r) := by
  induction s with
  | nil => exact moreDigits_of_endsRun hr
  | cons c s ih =>
    have hc := hs c List.mem_cons_self
    have hrest := ih fun d hd => hs d (List.mem_cons_of_mem c hd)
    rw [List.cons_append, moreDigits_cons hc, hrest]
    rfl

theorem digitRun_append (hs : IsDigits s) (hr : EndsRun r) :
    digitRun (s ++ r) = (valuesOf s, r) := by
  cases s with
  | nil =>
    cases r with
    | nil => rfl
    | cons c r =>
      obtain ⟨hc, -⟩ := hr c r rfl
      simp only [List.nil_append, digitRun, hc]
      rfl
  | cons c s =>
    have hc := hs c List.mem_cons_self
    have hmore := moreDigits_append (fun d hd => hs d (List.mem_cons_of_mem c hd)) hr
    simp only [List.cons_append, digitRun, digitValue?_of_isDigit hc, hmore]
    rfl

theorem isDigits_decimal (n : Nat) : IsDigits (decimal n) := fun _ => isDigit_of_mem_decimal

theorem decimal_ne_nil (n : Nat) : decimal n ≠ [] := Nat.toDigits_ne_nil

def IsFigure (c : Char) : Prop := c.isDigit = true ∨ c ∈ ['-', '+', '.', ':', 'E']

namespace IsFigure
variable {c : Char}

theorem isAscii (h : IsFigure c) : c.toNat < 0x80 := by
  rcases h with hdigit | hmark
  · have hrange := isDigit_iff.mp hdigit
    omega
  · fin_cases hmark <;> decide

theorem not_isBlank (h : IsFigure c) : isBlank c = false := by
  rcases h with hdigit | hmark
  · exact not_isBlank_of_isDigit hdigit
  · fin_cases hmark <;> rfl

theorem ne {d : Char} (h : IsFigure c) (hd : ¬ IsFigure d) : c ≠ d := by
  rintro rfl
  exact hd h

end IsFigure

instance (c : Char) : Decidable (IsFigure c) := inferInstanceAs (Decidable (_ ∨ _))

theorem signed_of_isDigits (hs : IsDigits s) (hne : s ≠ []) (r : List Char) (negative : Bool) :
    signed (signText negative ++ (s ++ r)) = (negative, s ++ r) := by
  cases negative with
  | true => rfl
  | false =>
    obtain ⟨c, s, rfl⟩ := List.exists_cons_of_ne_nil hne
    have hc := hs c List.mem_cons_self
    have hminus : c ≠ '-' := ne_of_isDigit hc (by decide)
    have hplus : c ≠ '+' := ne_of_isDigit hc (by decide)
    show signed (c :: (s ++ r)) = (false, c :: (s ++ r))
    unfold signed
    split <;> simp_all

theorem applySign_natAbs (n : Int) : applySign (n < 0) n.natAbs = n := by
  by_cases hn : n < 0
  · rw [decide_eq_true hn]
    show -(n.natAbs : Int) = n
    omega
  · rw [decide_eq_false hn]
    show (n.natAbs : Int) = n
    omega

theorem Integer.read?_intText {n : Int} (h : (decimal n.natAbs).length ≤ maxDigits) :
    read? (intText n).toList = some n := by
  have hsigned := signed_of_isDigits (isDigits_decimal n.natAbs) (decimal_ne_nil _) [] (n < 0)
  have hrun := digitRun_append (isDigits_decimal n.natAbs) endsRun_nil
  obtain ⟨d, ds, hds⟩ := List.exists_cons_of_ne_nil (valuesOf_ne_nil (decimal_ne_nil n.natAbs))
  have hlength : (d :: ds).length ≤ maxDigits := by rwa [← hds, valuesOf, List.length_map]
  rw [List.append_nil] at hsigned hrun
  rw [hds] at hrun
  rw [toList_intText]
  simp only [read?, hsigned, hrun, hlength, if_true]
  rw [← hds, ofDigits_valuesOf_decimal, applySign_natAbs]

namespace Numeral
variable {whole part tail : List Char} {e : Int}

theorem readExponent?_scientific (power : Int) :
    readExponent? ('E' :: (if power < 0 then '-' else '+') :: decimal power.natAbs) =
      some power := by
  have hrun := digitRun_append (isDigits_decimal power.natAbs) endsRun_nil
  obtain ⟨d, ds, hds⟩ := List.exists_cons_of_ne_nil (valuesOf_ne_nil (decimal_ne_nil power.natAbs))
  have hsigned : signed ((if power < 0 then '-' else '+') :: decimal power.natAbs) =
      (decide (power < 0), decimal power.natAbs) := by
    by_cases hp : power < 0 <;> simp only [hp, if_true, if_false, decide_true, decide_false] <;> rfl
  rw [List.append_nil, hds] at hrun
  simp only [readExponent?, or_true, if_true, hsigned, hrun]
  rw [← hds, ofDigits_valuesOf_decimal, applySign_natAbs]

theorem read?_whole (hwhole : IsDigits whole) (hne : whole ≠ []) (htail : EndsRun tail)
    (hpoint : ∀ r, tail ≠ '.' :: r) (he : readExponent? tail = some e) (negative : Bool) :
    read? (signText negative ++ (whole ++ tail)) =
      some ⟨negative, Page.digitsValue whole, e⟩ := by
  have hfraction : fraction tail = ([], tail) := by
    unfold fraction
    split
    · exact absurd rfl (hpoint _)
    · rfl
  have hnonempty : (valuesOf whole).isEmpty = false :=
    List.isEmpty_eq_false_iff.mpr (valuesOf_ne_nil hne)
  simp only [read?, signed_of_isDigits hwhole hne, digitRun_append hwhole htail, hfraction,
    hnonempty, he]
  simp [Page.digitsValue, valuesOf]

theorem read?_pointed (hwhole : IsDigits whole) (hne : whole ≠ []) (hpart : IsDigits part)
    (htail : EndsRun tail) (he : readExponent? tail = some e) (negative : Bool) :
    read? (signText negative ++ (whole ++ '.' :: (part ++ tail))) =
      some ⟨negative, Page.digitsValue (whole ++ part), e - part.length⟩ := by
  have hnonempty : (valuesOf whole).isEmpty = false :=
    List.isEmpty_eq_false_iff.mpr (valuesOf_ne_nil hne)
  have hpoint : EndsRun ('.' :: (part ++ tail)) := endsRun_cons (by decide) (by decide) _
  simp only [read?, signed_of_isDigits hwhole hne, digitRun_append hwhole hpoint, fraction,
    digitRun_append hpart htail, hnonempty, he]
  simp [Page.digitsValue, valuesOf]

end Numeral

namespace Decimal
variable {ds : List Char}

theorem digitsValue_zeros_append (n : Nat) (ds : List Char) :
    Page.digitsValue (List.replicate n '0' ++ ds) = Page.digitsValue ds := by
  induction n with
  | zero => rfl
  | succ n ih =>
    rw [List.replicate_succ, List.cons_append, Page.digitsValue_cons, ih]
    simp

theorem isDigits_zeros_append (hds : IsDigits ds) (n : Nat) :
    IsDigits (List.replicate n '0' ++ ds) := by
  refine List.forall_mem_append.mpr ⟨fun c hc => ?_, hds⟩
  rw [(List.mem_replicate.mp hc).2]
  decide

theorem read?_pointedText (hds : IsDigits ds) (hne : ds ≠ []) (places : Nat) (negative : Bool) :
    Numeral.read? (signText negative ++ pointed places ds) =
      some ⟨negative, Page.digitsValue ds, -(places : Int)⟩ := by
  unfold pointed
  split
  case isTrue hplaces =>
    rw [hplaces]
    have hread := Numeral.read?_whole hds hne endsRun_nil (fun _ h => by cases h) rfl negative
    rwa [List.append_nil] at hread
  case isFalse hplaces =>
    have hpadded := isDigits_zeros_append hds (places + 1 - ds.length)
    have hlength : (List.replicate (places + 1 - ds.length) '0' ++ ds).length =
        places + 1 - ds.length + ds.length := by simp
    have hvalue := digitsValue_zeros_append (places + 1 - ds.length) ds
    generalize List.replicate (places + 1 - ds.length) '0' ++ ds = padded at *
    have hwhole : padded.take (padded.length - places) ≠ [] := by
      refine List.ne_nil_of_length_pos ?_
      rw [List.length_take]
      omega
    have hpart : (padded.drop (padded.length - places)).length = places := by
      rw [List.length_drop]
      omega
    have hread := Numeral.read?_pointed (hpadded.take _) hwhole
      (hpadded.drop (padded.length - places)) endsRun_nil rfl negative
    rw [List.append_nil, List.take_append_drop, hvalue, hpart, zero_sub] at hread
    exact hread

theorem read?_scientificText (hds : IsDigits ds) (hne : ds ≠ []) (power : Int) (negative : Bool) :
    Numeral.read? (signText negative ++ scientific ds power) =
      some ⟨negative, Page.digitsValue ds, power - (ds.length - 1 : Nat)⟩ := by
  have hexponent := Numeral.readExponent?_scientific power
  have htail := endsRun_cons (c := 'E') (by decide) (by decide)
    ((if power < 0 then '-' else '+') :: decimal power.natAbs)
  unfold scientific
  split
  case h_1 d d' r =>
    obtain ⟨hd, hr⟩ := List.forall_mem_cons.mp hds
    exact Numeral.read?_pointed (List.forall_mem_singleton.mpr hd) (List.cons_ne_nil d []) hr htail
      hexponent negative
  case h_2 hshort =>
    have hlength : ds.length - 1 = 0 := by
      match ds, hshort with
      | [], _ | [_], _ => rfl
      | d :: d' :: r, hshort => exact absurd rfl (hshort d d' r)
    rw [hlength, Nat.cast_zero, sub_zero]
    exact Numeral.read?_whole hds hne htail (fun r h => by cases h) hexponent negative

theorem read?_finiteText (negative : Bool) (c : Nat) (e : Int) :
    Numeral.read? (signText negative ++ finiteText c e) = some ⟨negative, c, e⟩ := by
  have hdigits := isDigits_decimal c
  have hne := decimal_ne_nil c
  have hlength := List.length_pos_of_ne_nil hne
  simp only [finiteText]
  split
  case isTrue hplain =>
    rw [read?_pointedText hdigits hne, Page.digitsValue_decimal, Int.toNat_of_nonneg (by omega),
      Int.neg_neg]
  case isFalse =>
    rw [read?_scientificText hdigits hne, Page.digitsValue_decimal, adjusted, Int.ofNat_sub hlength]
    congr 2
    omega

theorem isFigure_signText (negative : Bool) : ∀ c ∈ signText negative, IsFigure c := by
  cases negative with
  | true => exact List.forall_mem_singleton.mpr (by decide)
  | false => exact List.forall_mem_nil _

theorem isFigure_pointed (hds : IsDigits ds) (places : Nat) :
    ∀ c ∈ pointed places ds, IsFigure c := by
  have hpadded := isDigits_zeros_append hds (places + 1 - ds.length)
  unfold pointed
  split
  · exact fun c hc => .inl (hds c hc)
  · refine List.forall_mem_append.mpr
      ⟨fun c hc => .inl (hpadded.take _ c hc), List.forall_mem_cons.mpr ⟨?_, ?_⟩⟩
    · decide
    · exact fun c hc => .inl (hpadded.drop _ c hc)

theorem isFigure_scientific (hds : IsDigits ds) (power : Int) :
    ∀ c ∈ scientific ds power, IsFigure c := by
  have hexponent : ∀ c ∈ 'E' :: (if power < 0 then '-' else '+') :: decimal power.natAbs,
      IsFigure c := by
    refine List.forall_mem_cons.mpr ⟨by decide, List.forall_mem_cons.mpr ⟨?_, ?_⟩⟩
    · split <;> decide
    · exact fun c hc => .inl (isDigits_decimal _ c hc)
  refine List.forall_mem_append.mpr ⟨?_, hexponent⟩
  split
  case h_1 d d' r =>
    obtain ⟨hd, hr⟩ := List.forall_mem_cons.mp hds
    exact List.forall_mem_cons.mpr
      ⟨.inl hd, List.forall_mem_cons.mpr ⟨by decide, fun c hc => .inl (hr c hc)⟩⟩
  case h_2 => exact fun c hc => .inl (hds c hc)

theorem isFigure_text (negative : Bool) (c : Nat) (e : Int) :
    ∀ x ∈ (finite negative c e).text.toList, IsFigure x := by
  rw [text, String.toList_ofList]
  refine List.forall_mem_append.mpr ⟨isFigure_signText negative, ?_⟩
  simp only [finiteText]
  split
  · exact isFigure_pointed (isDigits_decimal c) _
  · exact isFigure_scientific (isDigits_decimal c) _

theorem read?_text {c : Nat} {e : Int} (h : inRange c e = true) (negative : Bool) :
    read? (finite negative c e).text.toList = some (.finite negative c e) := by
  have hkept : (finite negative c e).text.toList.filter (· != '_') =
      (finite negative c e).text.toList :=
    List.filter_eq_self.mpr fun x hx =>
      bne_iff_ne.mpr ((isFigure_text negative c e x hx).ne (by decide))
  simp only [read?, hkept]
  rw [text, String.toList_ofList, read?_finiteText]
  simp only [ofNumeral?, h, if_true]

end Decimal
end Listing.Number
