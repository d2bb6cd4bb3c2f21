import Mathlib
import Listing.Form
import Listing.Proofs.Utf8

/-! Reading back what form encoding writes.
An encoded text has neither `&` nor `=` in it, so the cuts of a query string fall where its pairs
and their halves were joined. A `%` in an encoded text always begins an octet, and the octets are
those of the text in UTF-8. -/
namespace Listing.Form
open Listing.Text

def isWritten (c : Char) : Bool := isUnreserved c || c = '+' || c = '%'

theorem isUnreserved_upperHex {n : Nat} (h : n < 16) : isUnreserved (upperHex n) = true := by
  have all : ∀ k : Fin 16, isUnreserved (upperHex k) = true := by decide
  exact all ⟨n, h⟩

theorem isWritten_of_mem_encodeOctet {b : UInt8} {c : Char} (h : c ∈ encodeOctet b) :
    isWritten c = true := by
  have hb := b.toNat_lt
  rw [encodeOctet, List.mem_cons, List.mem_cons, List.mem_singleton] at h
  rcases h with rfl | rfl | rfl
  · rfl
  · simp [isWritten, isUnreserved_upperHex (n := b.toNat / 16) (by omega)]
  · simp [isWritten, isUnreserved_upperHex (n := b.toNat % 16) (by omega)]

theorem isWritten_of_mem_encodeText {s : List Char} {c : Char} (h : c ∈ encodeText s) :
    isWritten c = true := by
  obtain ⟨d, -, hc⟩ := List.mem_flatMap.mp h
  rw [encodeChar] at hc
  split at hc
  case isTrue hd =>
    rw [List.mem_singleton.mp hc, isWritten, hd]
    rfl
  case isFalse =>
    split at hc
    case isTrue => rw [List.mem_singleton.mp hc]; rfl
    case isFalse =>
      obtain ⟨b, -, hb⟩ := List.mem_flatMap.mp hc
      exact isWritten_of_mem_encodeOctet hb

theorem not_mem_encodeText {c : Char} (h : isWritten c = false) (s : List Char) :
    c ∉ encodeText s := by
  intro hc
  rw [isWritten_of_mem_encodeText hc] at h
  cases h

theorem pieces_cons {c : Char} (h : c ≠ '%') (r : List Char) :
    pieces (c :: r) = plainPiece c :: pieces r := by
  rw [pieces]
  rintro a b r' hc -
  exact h hc

theorem pieces_encodeOctet (b : UInt8) (r : List Char) :
    pieces (encodeOctet b ++ r) = .octet b :: pieces r := by
  have hb := b.toNat_lt
  have hn : 16 * (b.toNat / 16) + b.toNat % 16 = b.toNat := by omega
  rw [encodeOctet, List.cons_append, List.cons_append, List.singleton_append, pieces,
    hexValue?_upperHex (by omega), hexValue?_upperHex (by omega)]
  simp only [hn, UInt8.ofNat_toNat]

theorem pieces_encodeOctets (bs : List UInt8) (r : List Char) :
    pieces (bs.flatMap encodeOctet ++ r) = bs.map .octet ++ pieces r := by
  induction bs with
  | nil => rfl
  | cons b bs ih =>
    rw [List.flatMap_cons, List.append_assoc, pieces_encodeOctet, ih, List.map_cons,
      List.cons_append]

theorem toNat_lt_of_isUnreserved {c : Char} (h : isUnreserved c = true) : c.toNat < 0x80 := by
  simp only [isUnreserved, Char.isAlphanum, Char.isAlpha, Char.isUpper, Char.isLower, Char.isDigit,
    Bool.or_eq_true, Bool.and_eq_true, decide_eq_true_eq, ge_iff_le, UInt32.le_iff_toNat_le] at h
  change (((((((65 ≤ c.toNat ∧ c.toNat ≤ 90) ∨ (97 ≤ c.toNat ∧ c.toNat ≤ 122)) ∨
    (48 ≤ c.toNat ∧ c.toNat ≤ 57)) ∨ c = '-') ∨ c = '.') ∨ c = '_') ∨ c = '~') at h
  rcases h with ((((((h | h) | h) | rfl) | rfl) | rfl) | rfl)
  · omega
  · omega
  · omega
  all_goals decide

theorem pieces_encodeChar (c : Char) (r : List Char) :
    pieces (encodeChar c ++ r) = (Utf8.encode c).map .octet ++ pieces r := by
  by_cases hu : isUnreserved c = true
  · have hlt := toNat_lt_of_isUnreserved hu
    have hpercent : c ≠ '%' := by rintro rfl; exact absurd hu (by decide)
    have hplus : c ≠ '+' := by rintro rfl; exact absurd hu (by decide)
    rw [encodeChar, if_pos hu, List.singleton_append, pieces_cons hpercent, plainPiece,
      if_neg hplus, if_pos hlt, Utf8.encode_of_ascii hlt]
    rfl
  · by_cases hs : c = ' '
    · subst hs
      exact pieces_cons (by decide) r
    · rw [encodeChar, if_neg hu, if_neg hs, pieces_encodeOctets]

theorem pieces_encodeText (s : List Char) :
    pieces (encodeText s) = (Utf8.encodeAll s).map .octet := by
  induction s with
  | nil => rfl
  | cons c s ih =>
    have hs : encodeText (c :: s) = encodeChar c ++ encodeText s := List.flatMap_cons
    have hb : Utf8.encodeAll (c :: s) = Utf8.encode c ++ Utf8.encodeAll s := List.flatMap_cons
    rw [hs, pieces_encodeChar, ih, hb, List.map_append]

theorem decodeText_encodeText (s : List Char) : decodeText (encodeText s) = s := by
  rw [decodeText, pieces_encodeText, Utf8.decode_encodeAll]

theorem decodePair?_encodePair (p : String × String) :
    decodePair? true (encodePair p) = some p := by
  have hcut : cut '=' (encodePair p) = (encodeText p.1.toList, some (encodeText p.2.toList)) :=
    cut_append (not_mem_encodeText rfl _) _
  have hne : (encodePair p).isEmpty = false := by simp [encodePair]
  simp only [decodePair?, hcut, hne, Option.getD_some, decodeText_encodeText, String.ofList_toList]
  simp

theorem decode_encode (pairs : List (String × String)) : decode true (encode pairs) = pairs := by
  rw [decode, encode, String.toList_ofList]
  cases pairs with
  | nil => rfl
  | cons p ps =>
    have hsep : ∀ q ∈ encodePair p :: ps.map encodePair, '&' ∉ q := by
      intro q hq
      rw [← List.map_cons, List.mem_map] at hq
      obtain ⟨x, -, rfl⟩ := hq
      simp [encodePair, not_mem_encodeText (c := '&') rfl]
    rw [List.map_cons, splitOn_intercalate hsep, ← List.map_cons, List.filterMap_map]
    simp [decodePair?_encodePair]

end Listing.Form
