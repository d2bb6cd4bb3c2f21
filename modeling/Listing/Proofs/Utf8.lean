import Mathlib
import Listing.Text.Utf8

/-! Reading back what UTF-8 writes.
The octets of a character are read as that character, whatever follows them. The cases are those of
the octet count; in the ranges beside the surrogates and at the two ends the first octet narrows the
second, and only there does the lead leave less than all 64 values to it. -/
namespace Listing.Text.Utf8

theorem Lead.ofOctet_two {n : Nat} (low : 0x80 ≤ n) (high : n < 0x800) :
    Lead.ofOctet (UInt8.ofNat (0xC0 + n / 0x40)) = .start ⟨n / 0x40, 1, 0x80, 0xBF⟩ := by
  have hb : (UInt8.ofNat (0xC0 + n / 0x40)).toNat = 0xC0 + n / 0x40 := by
    rw [UInt8.toNat_ofNat']; omega
  simp only [Lead.ofOctet, hb]
  rw [if_neg (by omega), if_neg (by omega), if_pos (by omega), Nat.add_sub_cancel_left]

def Partial.ofThree (n : Nat) : Partial :=
  if n < 0x1000 then ⟨0, 2, 0xA0, 0xBF⟩
  else if n / 0x1000 = 0xD then ⟨0xD, 2, 0x80, 0x9F⟩
  else ⟨n / 0x1000, 2, 0x80, 0xBF⟩

def Partial.ofFour (n : Nat) : Partial :=
  if n < 0x40000 then ⟨0, 3, 0x90, 0xBF⟩
  else if n < 0x100000 then ⟨n / 0x40000, 3, 0x80, 0xBF⟩
  else ⟨4, 3, 0x80, 0x8F⟩

theorem Lead.ofOctet_three {n : Nat} (high : n < 0x10000) :
    Lead.ofOctet (UInt8.ofNat (0xE0 + n / 0x1000)) = .start (Partial.ofThree n) := by
  have hb : (UInt8.ofNat (0xE0 + n / 0x1000)).toNat = 0xE0 + n / 0x1000 := by
    rw [UInt8.toNat_ofNat']; omega
  simp only [Lead.ofOctet, hb, Partial.ofThree]
  rw [if_neg (by omega), if_neg (by omega), if_neg (by omega)]
  by_cases h : n < 0x1000
  · rw [if_pos (by omega), if_pos h]
  · rw [if_neg (by omega), if_neg h]
    by_cases hd : n / 0x1000 = 0xD
    · rw [if_pos (by omega), if_pos hd]
    · rw [if_neg (by omega), if_neg hd, if_pos (by omega), Nat.add_sub_cancel_left]

theorem Lead.ofOctet_four {n : Nat} (high : n < 0x110000) :
    Lead.ofOctet (UInt8.ofNat (0xF0 + n / 0x40000)) = .start (Partial.ofFour n) := by
  have hb : (UInt8.ofNat (0xF0 + n / 0x40000)).toNat = 0xF0 + n / 0x40000 := by
    rw [UInt8.toNat_ofNat']; omega
  simp only [Lead.ofOctet, hb, Partial.ofFour]
  rw [if_neg (by omega), if_neg (by omega), if_neg (by omega), if_neg (by omega),
    if_neg (by omega), if_neg (by omega)]
  by_cases h : n < 0x40000
  · rw [if_pos (by omega), if_pos h]
  · rw [if_neg (by omega), if_neg h]
    by_cases ht : n < 0x100000
    · rw [if_pos (by omega), if_pos ht, Nat.add_sub_cancel_left]
    · rw [if_neg (by omega), if_neg ht, if_pos (by omega)]

variable {p : Partial} {n : Nat} {r : List Piece}

def tailOctet (n : Nat) : UInt8 := UInt8.ofNat (0x80 + n % 0x40)

theorem tailOctet_toNat (n : Nat) : (tailOctet n).toNat = 0x80 + n % 0x40 := by
  rw [tailOctet, UInt8.toNat_ofNat']
  omega

theorem Partial.accepts_tail (h : p.low ≤ 0x80 + n % 0x40) (h' : 0x80 + n % 0x40 ≤ p.high) :
    p.accepts (tailOctet n) = true := by
  rw [Partial.accepts, tailOctet_toNat, Bool.and_eq_true, decide_eq_true_eq, decide_eq_true_eq]
  exact ⟨h, h'⟩

theorem Partial.push_tail (hb : p.bits = n / 0x40) :
    p.push (tailOctet n) = ⟨n, p.owed - 1, 0x80, 0xBF⟩ := by
  have hn : n / 0x40 * 0x40 + (0x80 + n % 0x40 - 0x80) = n := by omega
  unfold Partial.push
  simp only [tailOctet_toNat, hb, hn]

theorem decodeFrom_more (h : p.low ≤ 0x80 + n % 0x40) (h' : 0x80 + n % 0x40 ≤ p.high)
    (hb : p.bits = n / 0x40) (ho : 2 ≤ p.owed) :
    decodeFrom (some p) (.octet (tailOctet n) :: r) =
      decodeFrom (some ⟨n, p.owed - 1, 0x80, 0xBF⟩) r := by
  rw [decodeFrom, if_pos (Partial.accepts_tail h h'), Partial.push_tail hb, if_neg]
  show p.owed - 1 ≠ 0
  omega

theorem decodeFrom_last (h : p.low ≤ 0x80 + n % 0x40) (h' : 0x80 + n % 0x40 ≤ p.high)
    (hb : p.bits = n / 0x40) (ho : p.owed = 1) :
    decodeFrom (some p) (.octet (tailOctet n) :: r) = Char.ofNat n :: decodeFrom none r := by
  rw [decodeFrom, if_pos (Partial.accepts_tail h h'), Partial.push_tail hb, if_pos]
  show p.owed - 1 = 0
  omega

theorem decodeFrom_lead {b : UInt8} (h : Lead.ofOctet b = .start p) :
    decodeFrom none (.octet b :: r) = decodeFrom (some p) r := by
  rw [decodeFrom, h]

theorem decode_encode_append (c : Char) (r : List Piece) :
    decode ((encode c).map .octet ++ r) = c :: decode r := by
  have hv : c.toNat < 0xD800 ∨ 0xDFFF < c.toNat ∧ c.toNat < 0x110000 := c.valid
  have hc : Char.ofNat c.toNat = c := Char.ofNat_toNat c
  by_cases h1 : c.toNat < 0x80
  · rw [encode_of_ascii h1]
    exact decode_ascii h1 r
  have hn (k : Nat) : UInt8.ofNat (0x80 + k % 0x40) = tailOctet k := rfl
  simp only [encode, if_neg h1, hn, decode]
  by_cases h2 : c.toNat < 0x800
  · simp only [if_pos h2, List.map_cons, List.map_nil, List.cons_append, List.nil_append]
    rw [decodeFrom_lead (Lead.ofOctet_two (by omega) h2),
      decodeFrom_last (by dsimp; omega) (by dsimp; omega) rfl rfl, hc]
  by_cases h3 : c.toNat < 0x10000
  · simp only [if_neg h2, if_pos h3, List.map_cons, List.map_nil, List.cons_append,
      List.nil_append]
    rw [decodeFrom_lead (Lead.ofOctet_three h3), decodeFrom_more, decodeFrom_last, hc]
    all_goals (unfold Partial.ofThree; split_ifs <;> dsimp <;> omega)
  · simp only [if_neg h2, if_neg h3, List.map_cons, List.map_nil, List.cons_append,
      List.nil_append]
    rw [decodeFrom_lead (Lead.ofOctet_four (by omega)), decodeFrom_more, decodeFrom_more,
      decodeFrom_last, hc]
    all_goals (unfold Partial.ofFour; split_ifs <;> dsimp <;> omega)

theorem decode_encodeAll_append (s : List Char) (r : List Piece) :
    decode ((encodeAll s).map .octet ++ r) = s ++ decode r := by
  induction s with
  | nil => rfl
  | cons c s ih =>
    have he : encodeAll (c :: s) = encode c ++ encodeAll s := List.flatMap_cons
    rw [he, List.map_append, List.append_assoc, decode_encode_append, ih, List.cons_append]

theorem decode_encodeAll (s : List Char) : decode ((encodeAll s).map .octet) = s := by
  have h := decode_encodeAll_append s []
  rwa [List.append_nil, show decode [] = [] from rfl, List.append_nil] at h

end Listing.Text.Utf8
