import Mathlib
import Listing.Uuid

/-! Identifiers that are written and read again.
The canonical text has nothing in it that reading takes off but its hyphens, and without them it is
the number in base sixteen. -/
namespace Listing.Uuid
open Listing.Text Listing.Number

def IsHexDigit (c : Char) : Prop := ∃ d, d < 16 ∧ c = Quoted.hexDigit d

theorem hexValue?_hexDigit {d : Nat} (h : d < 16) : hexValue? (Quoted.hexDigit d) = some d := by
  have hall : ∀ d : Fin 16, hexValue? (Quoted.hexDigit d) = some d.val := by decide
  exact hall ⟨d, h⟩

theorem isHexDigit_hex (width n : Nat) : ∀ c ∈ Quoted.hex width n, IsHexDigit c := by
  induction width generalizing n with
  | zero => exact fun c hc => by cases hc
  | succ width ih =>
    have hlast : IsHexDigit (Quoted.hexDigit (n % 16)) := ⟨n % 16, Nat.mod_lt n (by decide), rfl⟩
    exact List.forall_mem_append.mpr ⟨ih (n / 16), List.forall_mem_singleton.mpr hlast⟩

/-- The characters that reading takes off, or that would end a number. -/
def marks : List Char := ['_', '-', '+', 'x', 'X', 'u']

theorem IsHexDigit.not_mem_marks {c : Char} (h : IsHexDigit c) : c ∉ marks := by
  obtain ⟨d, hd, rfl⟩ := h
  have hall : ∀ d : Fin 16, Quoted.hexDigit d ∉ marks := by decide
  exact hall ⟨d, hd⟩

theorem IsHexDigit.not_isBlank {c : Char} (h : IsHexDigit c) : isBlank c = false := by
  obtain ⟨d, hd, rfl⟩ := h
  have hall : ∀ d : Fin 16, isBlank (Quoted.hexDigit d) = false := by decide +kernel
  exact hall ⟨d, hd⟩

theorem IsHexDigit.not_isBrace {c : Char} (h : IsHexDigit c) : isBrace c = false := by
  obtain ⟨d, hd, rfl⟩ := h
  have hall : ∀ d : Fin 16, isBrace (Quoted.hexDigit d) = false := by decide
  exact hall ⟨d, hd⟩

theorem ofHexDigits_append (ds : List Nat) (d : Nat) :
    ofHexDigits (ds ++ [d]) = 16 * ofHexDigits ds + d := by
  simp [ofHexDigits]

theorem exists_hexDigits (width : Nat) {n : Nat} (h : n < 16 ^ width) :
    ∃ ds, Quoted.hex width n = ds.map Quoted.hexDigit ∧ (∀ d ∈ ds, d < 16) ∧ ofHexDigits ds = n := by
  induction width generalizing n with
  | zero =>
    obtain rfl : n = 0 := by simpa using h
    exact ⟨[], rfl, by simp, rfl⟩
  | succ width ih =>
    have hhigh : n / 16 < 16 ^ width := by
      rw [pow_succ] at h
      omega
    have hlow : n % 16 < 16 := Nat.mod_lt n (by decide)
    obtain ⟨ds, hds, hdigits, hvalue⟩ := ih hhigh
    refine ⟨ds ++ [n % 16], ?_, ?_, ?_⟩
    · rw [Quoted.hex, hds, List.map_append, List.map_singleton]
    · exact List.forall_mem_append.mpr ⟨hdigits, List.forall_mem_singleton.mpr hlow⟩
    · rw [ofHexDigits_append, hvalue, Nat.div_add_mod]

theorem hexDigits?_map {ds : List Nat} (h : ∀ d ∈ ds, d < 16) :
    hexDigits? true (ds.map Quoted.hexDigit) = some ds := by
  induction ds with
  | nil => rfl
  | cons d ds ih =>
    obtain ⟨hd, hds⟩ := List.forall_mem_cons.mp h
    have hne : Quoted.hexDigit d ≠ '_' := by
      intro hmark
      apply IsHexDigit.not_mem_marks ⟨d, hd, rfl⟩
      rw [hmark]
      decide
    rw [List.map_cons, hexDigits?, if_neg hne, hexValue?_hexDigit hd, ih hds]
    rfl

theorem hexDigits?_false {c : Char} {r : List Char} (h : c ≠ '_') :
    hexDigits? false (c :: r) = hexDigits? true (c :: r) := by
  rw [hexDigits?, hexDigits?, if_neg h, if_neg h]

theorem dropWhile_ends_eq_self {p : Char → Bool} {s : List Char} (h : ∀ c ∈ s, p c = false) :
    ((s.dropWhile p).reverse.dropWhile p).reverse = s := by
  have hkeep {t : List Char} (ht : ∀ c ∈ t, p c = false) : t.dropWhile p = t := by
    cases t with
    | nil => rfl
    | cons c r => rw [List.dropWhile_cons_of_neg (by simp [ht])]
  rw [hkeep h, hkeep fun c hc => h c (List.mem_reverse.mp hc), List.reverse_reverse]

section Hex
variable {s : List Char} (hs : ∀ c ∈ s, IsHexDigit c)
include hs

theorem not_mem_of_mem_marks {m : Char} (hm : m ∈ marks) : m ∉ s :=
  fun h => (hs m h).not_mem_marks hm

theorem trimNumber_hex : trimNumber s = s := by
  apply dropWhile_ends_eq_self
  intro c hc
  rw [isNumberBlank, (hs c hc).not_isBlank, Bool.false_and]

theorem signed_hex : signed s = (false, s) := by
  have hminus := not_mem_of_mem_marks hs (m := '-') (by decide)
  have hplus := not_mem_of_mem_marks hs (m := '+') (by decide)
  unfold signed
  split <;> simp_all

theorem afterBaseMark_hex : afterBaseMark s = s := by
  have hsmall := not_mem_of_mem_marks hs (m := 'x') (by decide)
  have hlarge := not_mem_of_mem_marks hs (m := 'X') (by decide)
  unfold afterBaseMark
  split
  case h_1 c x r =>
    have hx : ¬ (x = 'x' ∨ x = 'X') := by
      rintro (rfl | rfl)
      · exact hsmall (by simp)
      · exact hlarge (by simp)
    rw [if_neg fun h => hx h.2]
  case h_2 => rfl

theorem hexDigits?_hex (hne : s ≠ []) : hexDigits? false s = hexDigits? true s := by
  obtain ⟨c, r, rfl⟩ := List.exists_cons_of_ne_nil hne
  apply hexDigits?_false
  rintro rfl
  exact not_mem_of_mem_marks hs (m := '_') (by decide) List.mem_cons_self

end Hex

theorem readHex?_hex {width n : Nat} (h : n < 16 ^ (width + 1)) :
    readHex? (Quoted.hex (width + 1) n) = some n := by
  have hhex := isHexDigit_hex (width + 1) n
  have hne : Quoted.hex (width + 1) n ≠ [] := by
    apply List.ne_nil_of_length_eq_add_one (n := width)
    exact Quoted.hex_length _ _
  obtain ⟨ds, hds, hdigits, hvalue⟩ := exists_hexDigits (width + 1) h
  rw [readHex?, trimNumber_hex hhex, signed_hex hhex]
  simp only [afterBaseMark_hex hhex, hexDigits?_hex hhex hne]
  rw [hds, hexDigits?_map hdigits, Option.map_some, hvalue]
  rfl

variable (u : Uuid)

theorem isHexDigit_compact : ∀ c ∈ u.compact, IsHexDigit c := isHexDigit_hex 32 u.value

theorem text_eq : u.text = u.compact.take 8 ++ '-' :: ((u.compact.drop 8).take 4 ++
    '-' :: ((u.compact.drop 12).take 4 ++ '-' :: ((u.compact.drop 16).take 4 ++
      '-' :: u.compact.drop 20))) := by
  simp [text, compact]

theorem groups_eq : u.compact.take 8 ++ ((u.compact.drop 8).take 4 ++ ((u.compact.drop 12).take 4 ++
    ((u.compact.drop 16).take 4 ++ u.compact.drop 20))) = u.compact := by
  have hgroup (n : Nat) : (u.compact.drop n).take 4 ++ u.compact.drop (n + 4) = u.compact.drop n := by
    rw [← List.drop_drop, List.take_append_drop]
  rw [hgroup 16, hgroup 12, hgroup 8, List.take_append_drop]

theorem mem_text : ∀ c ∈ u.text, c = '-' ∨ IsHexDigit c := by
  have hmem := u.isHexDigit_compact
  rw [text_eq]
  simp only [List.forall_mem_append, List.forall_mem_cons, true_or, true_and]
  refine ⟨?_, ?_, ?_, ?_, ?_⟩ <;> intro c hc <;> right <;> apply hmem
  · exact List.mem_of_mem_take hc
  · exact List.mem_of_mem_drop (List.mem_of_mem_take hc)
  · exact List.mem_of_mem_drop (List.mem_of_mem_take hc)
  · exact List.mem_of_mem_drop (List.mem_of_mem_take hc)
  · exact List.mem_of_mem_drop hc

theorem not_isBlank_of_mem_text : ∀ c ∈ u.text, isBlank c = false := by
  intro c hc
  rcases u.mem_text c hc with rfl | hdigit
  · rfl
  · exact hdigit.not_isBlank

theorem filter_text : u.text.filter (· != '-') = u.compact := by
  have hkeep : ∀ c ∈ u.compact, (c != '-') = true := by
    intro c hc
    apply bne_iff_ne.mpr
    rintro rfl
    exact not_mem_of_mem_marks u.isHexDigit_compact (by decide) hc
  have hhyphen (r : List Char) : ('-' :: r).filter (· != '-') = r.filter (· != '-') :=
    List.filter_cons_of_neg (by decide)
  have hgroup (n : Nat) : (u.compact.take n).filter (· != '-') = u.compact.take n :=
    List.filter_eq_self.mpr fun c hc => hkeep c (List.mem_of_mem_take hc)
  have hlater (m n : Nat) : ((u.compact.drop m).take n).filter (· != '-') =
      (u.compact.drop m).take n :=
    List.filter_eq_self.mpr fun c hc => hkeep c (List.mem_of_mem_drop (List.mem_of_mem_take hc))
  have hlast : (u.compact.drop 20).filter (· != '-') = u.compact.drop 20 :=
    List.filter_eq_self.mpr fun c hc => hkeep c (List.mem_of_mem_drop hc)
  simp only [text_eq, List.filter_append, hhyphen, hgroup, hlater, hlast, groups_eq]

theorem bare_text : bare u.text = u.compact := by
  have hletter : 'u' ∉ u.text := by
    intro h
    rcases u.mem_text 'u' h with hhyphen | hdigit
    · cases hhyphen
    · exact hdigit.not_mem_marks (by decide)
  have hbraces : trimBraces u.text = u.text := by
    apply dropWhile_ends_eq_self
    intro c hc
    rcases u.mem_text c hc with rfl | hdigit
    · rfl
    · exact hdigit.not_isBrace
  have hurn : replace "urn:".toList [] u.text = u.text := replace_of_not_mem hletter
  have huuid : replace "uuid:".toList [] u.text = u.text := replace_of_not_mem hletter
  rw [bare, hurn, huuid, hbraces, filter_text]

theorem read?_text : read? u.text = some u := by
  have hlength : u.compact.length = 32 := Quoted.hex_length 32 u.value
  have hvalue : readHex? u.compact = some u.value := readHex?_hex u.bounded
  rw [read?, bare_text]
  simp only [hlength, if_true, hvalue, Option.bind_some]
  rw [ofNat?, dif_pos u.bounded]

end Listing.Uuid
