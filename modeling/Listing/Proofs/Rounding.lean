import Mathlib
import Listing.Number.Binary64

/-! Rounded quotients, as far as counting with them goes.
A quotient is scaled until its significand has 53 bits, and only then rounded, so rounding does not
carry it across a whole number as long as the numerator has no more bits than that. What a rounded
quotient exceeds is then what the quotient itself exceeds. -/
namespace Listing.Number.Binary64

section Nearest
variable {n d t : Nat}

theorem roundEven_le_of_two_mul_lt (hd : 0 < d) (h : 2 * n < (2 * t + 1) * d) :
    roundEven n d ≤ t := by
  have hdiv := Nat.div_add_mod n d
  have hmod := Nat.mod_lt n hd
  have hexpand : (2 * t + 1) * d = 2 * (d * t) + d := by ring
  simp only [roundEven]
  split
  case isTrue hup =>
    by_contra hlt
    have hq : d * t ≤ d * (n / d) := Nat.mul_le_mul_left d (by omega)
    omega
  case isFalse =>
    by_contra hlt
    have hq : d * t + d ≤ d * (n / d) := by
      rw [← Nat.mul_succ]
      exact Nat.mul_le_mul_left d (by omega)
    omega

theorem lt_roundEven_of_lt_two_mul (hd : 0 < d) (h : (2 * t + 1) * d < 2 * n) :
    t < roundEven n d := by
  have hdiv := Nat.div_add_mod n d
  have hmod := Nat.mod_lt n hd
  have hexpand : (2 * t + 1) * d = 2 * (d * t) + d := by ring
  simp only [roundEven]
  split
  case isTrue hup =>
    by_contra hlt
    have hq : d * (n / d) + d ≤ d * t := by
      rw [← Nat.mul_succ]
      exact Nat.mul_le_mul_left d (by omega)
    omega
  case isFalse hdown =>
    by_contra hlt
    have hq : d * (n / d) ≤ d * t := Nat.mul_le_mul_left d (by omega)
    omega

theorem roundEven_le (hd : 0 < d) (h : n ≤ t * d) : roundEven n d ≤ t := by
  apply roundEven_le_of_two_mul_lt hd
  have hexpand : (2 * t + 1) * d = 2 * (t * d) + d := by ring
  omega

theorem le_roundEven (hd : 0 < d) (h : t * d ≤ n) : t ≤ roundEven n d := by
  have hq : t ≤ n / d := (Nat.le_div_iff_mul_le hd).mpr h
  simp only [roundEven]
  split <;> omega

end Nearest

def exponentOf (n d : Nat) : Int := max leastExponent (floorLog2 n d - 52)

theorem scale_of_nonneg {e : Int} (h : 0 ≤ e) (n d : Nat) :
    scale n d e = (n, d * twoTo e.toNat) := if_pos h

theorem scale_of_nonpos {e : Int} (h : e ≤ 0) (n d : Nat) :
    scale n d e = (n * twoTo (-e).toNat, d) := by
  rcases Int.lt_or_eq_of_le h with hlt | rfl
  · exact if_neg (by omega)
  · simp [scale]

theorem scale_sub_one (n d : Nat) (e : Int) :
    ((scale n d (e - 1)).1 = (scale n d e).1 ∧ (scale n d e).2 = 2 * (scale n d (e - 1)).2) ∨
      ((scale n d (e - 1)).1 = 2 * (scale n d e).1 ∧ (scale n d (e - 1)).2 = (scale n d e).2) := by
  rcases lt_or_ge 0 e with h | h
  · left
    have hexp : e.toNat = (e - 1).toNat + 1 := by omega
    rw [scale_of_nonneg (by omega), scale_of_nonneg (by omega), hexp, twoTo_succ]
    exact ⟨rfl, by ring⟩
  · right
    have hexp : (-(e - 1)).toNat = (-e).toNat + 1 := by omega
    rw [scale_of_nonpos h, scale_of_nonpos (by omega), hexp, twoTo_succ]
    exact ⟨by ring, rfl⟩

theorem scale_log2 {n d : Nat} (hn : 0 < n) (hd : 0 < d) :
    (scale n d (n.log2 - d.log2 : Int)).1 < 2 * (scale n d (n.log2 - d.log2 : Int)).2 ∧
      (scale n d (n.log2 - d.log2 : Int)).2 < 2 * (scale n d (n.log2 - d.log2 : Int)).1 := by
  have hn₁ : twoTo n.log2 ≤ n := Nat.log2_self_le hn.ne'
  have hn₂ : n < twoTo (n.log2 + 1) := Nat.lt_log2_self
  have hd₁ : twoTo d.log2 ≤ d := Nat.log2_self_le hd.ne'
  have hd₂ : d < twoTo (d.log2 + 1) := Nat.lt_log2_self
  rw [twoTo_succ] at hn₂ hd₂
  generalize n.log2 = a at *
  generalize d.log2 = b at *
  rcases Nat.le_total b a with h | h
  · obtain ⟨g, rfl⟩ := Nat.exists_eq_add_of_le h
    have hexp : (((b + g : Nat) : Int) - b).toNat = g := by omega
    rw [scale_of_nonneg (by omega), hexp]
    rw [twoTo_add] at hn₁ hn₂
    have hg := twoTo_pos g
    constructor
    · calc n < 2 * (twoTo b * twoTo g) := hn₂
        _ ≤ 2 * (d * twoTo g) := Nat.mul_le_mul_left 2 (Nat.mul_le_mul_right _ hd₁)
    · calc d * twoTo g < 2 * twoTo b * twoTo g := Nat.mul_lt_mul_of_pos_right hd₂ hg
        _ = 2 * (twoTo b * twoTo g) := by ring
        _ ≤ 2 * n := Nat.mul_le_mul_left 2 hn₁
  · obtain ⟨g, rfl⟩ := Nat.exists_eq_add_of_le h
    have hexp : (-((a : Int) - (a + g : Nat))).toNat = g := by omega
    rw [scale_of_nonpos (by omega), hexp]
    rw [twoTo_add] at hd₁ hd₂
    have hg := twoTo_pos g
    constructor
    · calc n * twoTo g < 2 * twoTo a * twoTo g := Nat.mul_lt_mul_of_pos_right hn₂ hg
        _ = 2 * (twoTo a * twoTo g) := by ring
        _ ≤ 2 * d := Nat.mul_le_mul_left 2 hd₁
    · calc d < 2 * (twoTo a * twoTo g) := hd₂
        _ ≤ 2 * (n * twoTo g) := Nat.mul_le_mul_left 2 (Nat.mul_le_mul_right _ hn₁)

theorem scale_floorLog2 {n d : Nat} (hn : 0 < n) (hd : 0 < d) :
    (scale n d (floorLog2 n d)).2 ≤ (scale n d (floorLog2 n d)).1 ∧
      (scale n d (floorLog2 n d)).1 < 2 * (scale n d (floorLog2 n d)).2 := by
  obtain ⟨hless, hmore⟩ := scale_log2 hn hd
  rw [floorLog2]
  split
  case isTrue hle => exact ⟨hle, hless⟩
  case isFalse hgt =>
    rcases scale_sub_one n d (n.log2 - d.log2 : Int) with ⟨h₁, h₂⟩ | ⟨h₁, h₂⟩ <;> omega

theorem twoTo_floorLog2_le {n d : Nat} (hn : 0 < n) (hd : 0 < d) (h : 0 ≤ floorLog2 n d) :
    d * twoTo (floorLog2 n d).toNat ≤ n := by
  have hscale := (scale_floorLog2 hn hd).1
  rw [scale_of_nonneg h] at hscale
  exact hscale

theorem floorLog2_nonneg {n d : Nat} (hd : 0 < d) (h : d ≤ n) : 0 ≤ floorLog2 n d := by
  by_contra hneg
  have hscale := (scale_floorLog2 (Nat.lt_of_lt_of_le hd h) hd).2
  rw [scale_of_nonpos (by omega)] at hscale
  have hexp : (-floorLog2 n d).toNat = (-floorLog2 n d).toNat - 1 + 1 := by omega
  rw [hexp, twoTo_succ] at hscale
  have hpos := twoTo_pos ((-floorLog2 n d).toNat - 1)
  have hle : n * 2 ≤ n * (2 * twoTo ((-floorLog2 n d).toNat - 1)) :=
    Nat.mul_le_mul_left n (by omega)
  omega

theorem floorLog2_lt {n d j : Nat} (hn : 0 < n) (hd : 0 < d) (h : n < d * twoTo j) :
    floorLog2 n d < j := by
  by_contra hge
  have hle := twoTo_floorLog2_le hn hd (by omega)
  have hpow : twoTo j ≤ twoTo (floorLog2 n d).toNat :=
    Nat.pow_le_pow_right (by decide) (by omega)
  have := Nat.mul_le_mul_left d hpow
  omega

theorem exponentOf_nonpos {n d : Nat} (hn : 0 < n) (hd : 0 < d) (hlt : n < d * twoTo 53) :
    exponentOf n d ≤ 0 := by
  have hL := floorLog2_lt hn hd hlt
  have hleast : leastExponent = -1074 := rfl
  rw [exponentOf]
  omega

/-- A quotient of short numbers is scaled by a power of two that leaves its rounding error, times
the denominator, below the distance between whole numbers, unless it is a whole number itself. -/
theorem lt_or_dvd {n d : Nat} (hn : 0 < n) (hd : 0 < d) (hshort : n ≤ twoTo 53)
    (hlt : n < d * twoTo 53) (hd' : d ≤ n ∨ d ≤ twoTo 53) :
    d < twoTo ((-exponentOf n d).toNat + 1) ∨ d ∣ n := by
  have hL := floorLog2_lt hn hd hlt
  have hleast : leastExponent = -1074 := rfl
  by_cases hpos : 0 ≤ floorLog2 n d
  · have hle := twoTo_floorLog2_le hn hd hpos
    obtain ⟨g, hg⟩ := Int.eq_ofNat_of_zero_le hpos
    have hexp : (-exponentOf n d).toNat = 52 - g := by
      rw [exponentOf]
      omega
    have hpow : twoTo g * twoTo (52 - g + 1) = twoTo 53 := by
      rw [← twoTo_add]
      congr 1
      omega
    rw [hg, Int.toNat_natCast] at hle
    rw [hexp]
    rcases Nat.lt_or_ge d (twoTo (52 - g + 1)) with h | h
    · exact .inl h
    · right
      have hmul := Nat.mul_le_mul_left (twoTo g) h
      rw [Nat.mul_comm (twoTo g) d] at hmul
      exact ⟨twoTo g, by omega⟩
  · left
    have hshortd : d ≤ twoTo 53 := by
      rcases hd' with h | h
      · exact absurd (floorLog2_nonneg hd h) hpos
      · exact h
    have hpow : twoTo 53 < twoTo ((-exponentOf n d).toNat + 1) := by
      refine Nat.pow_lt_pow_right (by decide) ?_
      rw [exponentOf]
      omega
    omega

theorem lt_roundEven_iff {n d j k : Nat} (hd : 0 < d)
    (h : k * d < n → d < twoTo (j + 1) ∨ d ∣ n) :
    k * twoTo j < roundEven (n * twoTo j) d ↔ k * d < n := by
  have hj := twoTo_pos j
  constructor
  · intro hk
    by_contra hle
    have hmul := Nat.mul_le_mul_right (twoTo j) (Nat.le_of_not_lt hle)
    have hround := roundEven_le hd (n := n * twoTo j) (t := k * twoTo j) (by linarith)
    omega
  · intro hk
    rcases h hk with hlt | ⟨q, rfl⟩
    · apply lt_roundEven_of_lt_two_mul hd
      rw [twoTo_succ] at hlt
      calc (2 * (k * twoTo j) + 1) * d = 2 * ((k * d) * twoTo j) + d := by ring
        _ < 2 * ((k * d) * twoTo j) + 2 * twoTo j := by omega
        _ = 2 * ((k * d + 1) * twoTo j) := by ring
        _ ≤ 2 * (n * twoTo j) := Nat.mul_le_mul_left 2 (Nat.mul_le_mul_right _ hk)
    · have hq : k < q := by
        rw [Nat.mul_comm] at hk
        exact Nat.lt_of_mul_lt_mul_left hk
      have hround : q * twoTo j ≤ roundEven (d * q * twoTo j) d :=
        le_roundEven hd (Nat.le_of_eq (by ring))
      have hstrict := Nat.mul_lt_mul_of_pos_right hq hj
      omega

theorem lt_ceiling_iff {e : Int} (he : e ≤ 0) (k m : Nat) :
    k < ceiling m e ↔ k * twoTo (-e).toNat < m := by
  have hpos := twoTo_pos (-e).toNat
  rcases Int.lt_or_eq_of_le he with hneg | rfl
  · rw [ceiling, if_neg (by omega), Nat.lt_iff_add_one_le, Nat.le_div_iff_mul_le hpos]
    have hexpand : (k + 1) * twoTo (-e).toNat = k * twoTo (-e).toNat + twoTo (-e).toNat := by ring
    omega
  · simp [ceiling]

theorem ceiling_add_one (m : Nat) {e : Int} (he : e ≤ 0) :
    ceiling m (e + 1) = ceiling (2 * m) e := by
  rcases Int.lt_or_eq_of_le he with hneg | rfl
  · refine eq_of_forall_lt_iff fun k => ?_
    rw [lt_ceiling_iff (by omega), lt_ceiling_iff he]
    have hexp : (-e).toNat = (-(e + 1)).toNat + 1 := by omega
    have hexpand : k * (2 * twoTo (-(e + 1)).toNat) = 2 * (k * twoTo (-(e + 1)).toNat) := by ring
    rw [hexp, twoTo_succ, hexpand]
    omega
  · simp [ceiling, Nat.mul_comm]

def significandOf (n d : Nat) : Nat :=
  roundEven (scale n d (exponentOf n d)).1 (scale n d (exponentOf n d)).2

theorem round_of_pos {n : Nat} (hn : 0 < n) (d : Nat) :
    round n d =
      if significandOf n d = 2 * leadingBit then
        if exponentOf n d + 1 ≤ greatestExponent then some (leadingBit, exponentOf n d + 1)
        else none
      else if exponentOf n d ≤ greatestExponent then some (significandOf n d, exponentOf n d)
      else none := by
  rw [round, if_neg hn.ne']
  by_cases hbit : significandOf n d = 2 * leadingBit
  · rw [if_pos hbit]
    simp only [significandOf, exponentOf] at hbit ⊢
    rw [if_pos hbit]
    rfl
  · rw [if_neg hbit]
    simp only [significandOf, exponentOf] at hbit ⊢
    rw [if_neg hbit]
    rfl

theorem ceiling_of_round {n d m : Nat} {e : Int} (hn : 0 < n) (h : round n d = some (m, e))
    (he : exponentOf n d ≤ 0) : ceiling m e = ceiling (significandOf n d) (exponentOf n d) := by
  rw [round_of_pos hn] at h
  split at h
  case isTrue hbit =>
    split at h <;> cases h
    rw [ceiling_add_one _ he, hbit]
  case isFalse =>
    split at h <;> cases h
    rfl

theorem lt_ceiling_round_iff {n d m : Nat} {e : Int} (hd : 0 < d) (hshort : n ≤ twoTo 53)
    {k : Nat} (hk : 1 ≤ k ∨ d ≤ twoTo 53) (h : round n d = some (m, e)) :
    k < ceiling m e ↔ k * d < n := by
  rcases Nat.eq_zero_or_pos n with rfl | hn
  · cases h
    simp [lt_ceiling_iff (e := leastExponent) (by decide)]
  rcases Nat.lt_or_ge n (d * twoTo 53) with hlt | hge
  · have he := exponentOf_nonpos hn hd hlt
    rw [ceiling_of_round hn h he, lt_ceiling_iff he, significandOf, scale_of_nonpos he]
    refine lt_roundEven_iff hd fun hkd => lt_or_dvd hn hd hshort hlt ?_
    rcases hk with hk | hk
    · exact .inl (by nlinarith)
    · exact .inr hk
  · -- The only quotient of this size is the greatest numerator itself.
    have hd1 : d = 1 := by
      have := twoTo_pos 53
      nlinarith
    obtain rfl : n = twoTo 53 := by
      rw [hd1] at hge
      omega
    subst hd1
    have hround : round (twoTo 53) 1 = some (leadingBit, 1) := by decide +kernel
    rw [hround] at h
    cases h
    rw [Nat.mul_one]
    rfl

theorem significandOf_lt {n d : Nat} (hd : 0 < d) (hlt : n < (twoTo 1024 - twoTo 970) * d)
    (he : exponentOf n d = greatestExponent) : significandOf n d < 2 * leadingBit := by
  have hscale : scale n d (exponentOf n d) = (n, d * (2 * twoTo 970)) := by
    have hexp : greatestExponent.toNat = 970 + 1 := rfl
    rw [he, scale_of_nonneg (by decide), hexp, twoTo_succ]
  have hpos : 0 < d * (2 * twoTo 970) := Nat.mul_pos hd (Nat.mul_pos (by decide) (twoTo_pos 970))
  have hfactor : twoTo 1024 - twoTo 970 = (2 * (2 * leadingBit - 1) + 1) * twoTo 970 := by
    decide +kernel
  rw [hfactor] at hlt
  have hround : roundEven n (d * (2 * twoTo 970)) ≤ 2 * leadingBit - 1 := by
    refine roundEven_le_of_two_mul_lt hpos ?_
    generalize twoTo 970 = a at hlt
    generalize 2 * (2 * leadingBit - 1) + 1 = b at hlt
    calc 2 * n < 2 * (b * a * d) := by omega
      _ = b * (d * (2 * a)) := by ring
  rw [significandOf, hscale]
  exact Nat.lt_of_le_of_lt hround (by decide)

theorem exists_round {n d : Nat} (hd : 0 < d) (hlt : n < (twoTo 1024 - twoTo 970) * d) :
    ∃ m e, round n d = some (m, e) := by
  rcases Nat.eq_zero_or_pos n with rfl | hn
  · exact ⟨0, leastExponent, rfl⟩
  have hL : floorLog2 n d < (1024 : Nat) := by
    refine floorLog2_lt hn hd (Nat.lt_of_lt_of_le hlt ?_)
    rw [Nat.mul_comm]
    exact Nat.mul_le_mul_left d (Nat.sub_le _ _)
  have he : exponentOf n d ≤ greatestExponent := by
    have hleast : leastExponent = -1074 := rfl
    have hgreatest : greatestExponent = 971 := rfl
    rw [exponentOf]
    omega
  rw [round_of_pos hn]
  split
  case isTrue hbit =>
    have hne : exponentOf n d ≠ greatestExponent := by
      intro heq
      have := significandOf_lt hd hlt heq
      omega
    rw [if_pos (by omega)]
    exact ⟨_, _, rfl⟩
  case isFalse => exact ⟨_, _, rfl⟩

end Listing.Number.Binary64
