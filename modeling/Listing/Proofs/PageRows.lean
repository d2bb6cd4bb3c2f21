import Mathlib
import Listing.Proofs.PageBounds
import Listing.Proofs.PageNumeral

/-! The rows that a page holds, by the numbers that its texts denote.
Numbers that are too large to be read exactly are replaced, and the page is cut to the last one
whose offset is representable. Neither is ever seen in the rows: among fewer than `10 ^ 18` rows the
page holds those at the positions that the exact numbers say. -/
namespace Listing.PageRequest
open Listing.Parameter Listing.Text Listing.Page

section Numbers
variable {c : Config} {entries : List Entry} {given : Option String}

theorem numberOf_given {key : String} (given : Option String)
    (h : lookup entries key = given.map .text) :
    numberOf entries key = given.bind number? := by
  rw [numberOf, h]
  cases given <;> rfl

theorem counted_of_pos {v : ℤ} (h : 1 ≤ v) :
    counted v = v ∨ 10 ^ 18 ≤ v ∧ counted v = maxOffset := by
  rw [counted, maxDigits]
  split
  · exact .inl rfl
  · rw [if_neg (by omega)]
    exact .inr ⟨by omega, rfl⟩

theorem pageOf_of_pos {t : String} {x : ℚ} (h : lookup entries c.pageKey = some (.text t))
    (hx : Denotes (trim t.toList) x) (hpos : 1 ≤ ⌊x⌋) : pageOf c entries = counted ⌊x⌋ := by
  have hnumber : numberOf entries c.pageKey = some (counted ⌊x⌋) :=
    (numberOf_given (some t) h).trans (number?_of_pos hx hpos)
  have hcounted : 1 ≤ counted ⌊x⌋ := by
    rcases counted_of_pos hpos with hsame | ⟨-, hmax⟩
    · omega
    · rw [hmax]; decide
  rw [pageOf, hnumber]
  simp only
  rw [if_neg (by omega)]

theorem pageOf_of_nonpos (h : lookup entries c.pageKey = given.map .text)
    (hnone : ∀ t x, given = some t → Denotes (trim t.toList) x → ⌊x⌋ < 1) :
    pageOf c entries = c.defaultPage := by
  rw [pageOf, numberOf_given given h]
  cases given with
  | none => rfl
  | some t =>
    rw [Option.bind_some]
    cases hn : number? t with
    | none => rfl
    | some n =>
      have hlt := lt_one_of_number? (fun x hx => hnone t x rfl hx) hn
      simp [hlt]

/-- The limit cuts whatever replaces a number that is too large. -/
theorem perPageOf_of_denotes (hmax : c.maxPerPage ≤ 10 ^ 18) {t : String} {y : ℚ}
    (h : lookup entries c.perPageKey = some (.text t)) (hy : Denotes (trim t.toList) y) :
    perPageOf c entries = min c.maxPerPage (max 1 ⌊y⌋) := by
  have hnumber : numberOf entries c.perPageKey = number? t := numberOf_given (some t) h
  rw [perPageOf, hnumber]
  by_cases hpos : 1 ≤ ⌊y⌋
  · rw [number?_of_pos hy hpos]
    rcases counted_of_pos hpos with hsame | ⟨hlarge, hcounted⟩
    · simp only [hsame]
    · have hoffset : (10 ^ 18 : ℤ) ≤ maxOffset := by decide
      simp only [hcounted]
      omega
  · obtain ⟨n, hn, hlt⟩ := number?_of_nonpos hy (by omega)
    rw [hn]
    simp only
    omega

end Numbers

def Selects (r : PageRequest) (total i : ℤ) : Prop :=
  0 ≤ i ∧ i < total ∧ r.offset ≤ i ∧ ∀ n, r.limit = some n → i < r.offset + n

def Shows (r : PageRequest) (page : ℤ) : Prop :=
  ∀ total < 10 ^ 18, ∀ i,
    r.Selects total i ↔ (page - 1) * r.perPage ≤ i ∧ i < page * r.perPage ∧ i < total

section Rows
variable {page size v i total : ℤ}

theorem selects_iff (hpage : 1 ≤ page) (hsize : 1 ≤ size) :
    Selects ⟨page, size⟩ total i ↔
      (page - 1) * size ≤ i ∧ i < page * size ∧ i < total := by
  have hall : size ≠ allRows := by
    rw [allRows]
    omega
  have hwindow : limit ⟨page, size⟩ = some size ∧ offset ⟨page, size⟩ = (page - 1) * size :=
    limit_of_ne_allRows hall
  obtain ⟨hlimit, hoffset⟩ := hwindow
  have hstart : 0 ≤ (page - 1) * size := mul_nonneg (by omega) (by omega)
  have hend : (page - 1) * size + size = page * size := by ring
  rw [Selects, hlimit, hoffset]
  simp only [Option.some.injEq, forall_eq']
  omega

theorem lt_pred_mul (hsize : 1 ≤ size) (hpage : 1 ≤ page) (h : i < page - 1) :
    i < (page - 1) * size := by
  nlinarith

theorem lt_lastPage_pred_mul (hsize : 1 ≤ size) (hle : size ≤ 10 ^ 18) (hi : i < 10 ^ 18) :
    i < (lastPage size - 1) * size := by
  have hdiv := Int.lt_ediv_add_one_mul_self maxOffset (show 0 < size by omega)
  have hstep : (maxOffset / size + 1) * size = maxOffset / size * size + size := by ring
  have hmax : (2 * 10 ^ 18 : ℤ) ≤ maxOffset := by decide
  have hlast : lastPage size - 1 = maxOffset / size := by
    rw [lastPage]
    omega
  rw [hlast]
  omega

/-- Where what is read is not the number that is asked for, both are beyond all rows. -/
theorem eq_or_beyond (hsize : 1 ≤ size) (hle : size ≤ 10 ^ 18) (hv : 1 ≤ v)
    (hpage : page = v ∨ 10 ^ 18 ≤ v ∧ page = maxOffset) :
    min page (lastPage size) = v ∨ ∀ i, i + 1 < 10 ^ 18 →
      i < (min page (lastPage size) - 1) * size ∧ i < (v - 1) * size := by
  have hmax : (10 ^ 18 : ℤ) ≤ maxOffset := by decide
  by_cases hcut : page ≤ lastPage size
  · -- nothing is cut, so only a number that was too large to be read differs
    rw [min_eq_left hcut]
    refine hpage.imp id ?_
    rintro ⟨hlarge, rfl⟩ i hi
    exact ⟨lt_pred_mul hsize (by omega) (by omega), lt_pred_mul hsize hv (by omega)⟩
  · -- the exact number is beyond the last page, and that page is beyond all rows
    rw [min_eq_right (by omega)]
    refine .inr fun i hi => ?_
    have hlast := lt_lastPage_pred_mul hsize hle (show i < 10 ^ 18 by omega)
    refine ⟨hlast, ?_⟩
    rcases hpage with rfl | ⟨hlarge, -⟩
    · calc i < (lastPage size - 1) * size := hlast
        _ ≤ (page - 1) * size := Int.mul_le_mul_of_nonneg_right (by omega) (by omega)
    · exact lt_pred_mul hsize hv (by omega)

theorem shows_of_counted (hsize : 1 ≤ size) (hle : size ≤ 10 ^ 18) (hv : 1 ≤ v)
    (hpage : page = v ∨ 10 ^ 18 ≤ v ∧ page = maxOffset) :
    Shows ⟨min page (lastPage size), size⟩ v := by
  intro total htotal i
  have hmax : (1 : ℤ) ≤ maxOffset := by decide
  have hlast := one_le_lastPage hsize
  rw [selects_iff (by omega) hsize]
  rcases eq_or_beyond hsize hle hv hpage with hsame | hbeyond
  · rw [hsame]
  · by_cases hi : i < total
    · obtain ⟨hcut, hasked⟩ := hbeyond i (by omega)
      simp only
      omega
    · simp [hi]

end Rows

structure HoldsRows (c : Config) (s : Source) (size : ℤ) (r : PageRequest) : Prop where
  perPage : r.perPage = size
  asked : ∀ t x, s.last? c.pageKey = some t → Denotes (trim t.toList) x → 1 ≤ ⌊x⌋ → r.Shows ⌊x⌋
  default : (∀ t x, s.last? c.pageKey = some t → Denotes (trim t.toList) x → ⌊x⌋ < 1) →
    r.page = min c.defaultPage ((2 ^ 63 - 1) / size + 1) ∧ r.Shows c.defaultPage

theorem holdsRows_of_denotes (c : Config) (s : Source) (t : String) (y : ℚ)
    (hmax : c.maxPerPage ≤ 10 ^ 18) (hs : s.Textual) (ht : s.last? c.perPageKey = some t)
    (hy : Denotes (trim t.toList) y) (hall : strip t ≠ "-1") :
    ∃ r, s.entries.map (ofEntries c) = .ok r ∧
      r.HoldsRows c s (min c.maxPerPage (max 1 ⌊y⌋)) := by
  obtain ⟨entries, hentries, hlookup⟩ := hs.exists_entries
  have hsize : perPageOf c entries = min c.maxPerPage (max 1 ⌊y⌋) := by
    refine perPageOf_of_denotes hmax ?_ hy
    rw [hlookup, ht]
    rfl
  have hpaginated : ¬ asksAll c entries = true := by
    rw [asksAll_iff (hlookup c.perPageKey)]
    rintro ⟨t', ht', hall'⟩
    rw [ht, Option.some.injEq] at ht'
    exact hall (ht' ▸ hall')
  have hone := perPageOf_pos c entries
  have hle := (perPageOf_le c entries).trans hmax
  have hread : ofEntries c entries =
      ⟨min (pageOf c entries) (lastPage (perPageOf c entries)), perPageOf c entries⟩ := by
    rw [ofEntries, if_neg hpaginated]
  refine ⟨ofEntries c entries, by rw [hentries]; rfl, ?_⟩
  rw [hread, ← hsize]
  refine ⟨rfl, ?_, ?_⟩
  · intro t' x ht' hx hpos
    have hpage : pageOf c entries = counted ⌊x⌋ := by
      refine pageOf_of_pos ?_ hx hpos
      rw [hlookup, ht']
      rfl
    rw [hpage]
    exact shows_of_counted hone hle hpos (counted_of_pos hpos)
  · intro hnone
    rw [pageOf_of_nonpos (hlookup c.pageKey) hnone]
    exact ⟨rfl, shows_of_counted hone hle c.one_le_defaultPage (.inl rfl)⟩

def fractionalSource : Source :=
  .pairs [("page", .text "002."), ("perPage", .text " 7.9")]

theorem holdsRows_fractionalSource :
    fractionalSource.Textual ∧ Denotes (trim " 7.9".toList) (79 / 10) ∧ strip " 7.9" ≠ "-1" ∧
      ∃ r, fractionalSource.entries.map (ofEntries .standard) = .ok r ∧ r.perPage = 7 ∧
        r.Shows 2 := by
  have htextual : fractionalSource.Textual := by
    simp [fractionalSource, Source.Textual, Value.IsText]
  have hsize : Denotes (trim " 7.9".toList) (79 / 10) := by
    have htext : trim " 7.9".toList = ['7'] ++ '.' :: ['9'] := by decide +kernel
    have hvalue : Nat.ofDigitChars 10 (['7'] ++ ['9']) 0 = 79 := by decide
    have hpoint : Unsigned (['7'] ++ '.' :: ['9']) (_ / 10 ^ ['9'].length) :=
      .point (by decide) (List.all_eq_true.mp rfl)
    rw [hvalue, ← htext] at hpoint
    simpa using Denotes.plain hpoint
  have hpage : Denotes (trim "002.".toList) 2 := by
    have htext : trim "002.".toList = ['0', '0', '2'] ++ '.' :: [] := by decide +kernel
    have hvalue : Nat.ofDigitChars 10 (['0', '0', '2'] ++ []) 0 = 2 := by decide
    have hpoint : Unsigned (['0', '0', '2'] ++ '.' :: []) (_ / 10 ^ ([] : List Char).length) :=
      .point (by decide) (List.all_eq_true.mp rfl)
    rw [hvalue, ← htext] at hpoint
    simpa using Denotes.plain hpoint
  have hpageFloor : ⌊(2 : ℚ)⌋ = 2 := by norm_num
  have hsizeFloor : ⌊(79 / 10 : ℚ)⌋ = 7 := by norm_num
  have hall : strip " 7.9" ≠ "-1" := by decide +kernel
  obtain ⟨r, hr, hholds⟩ := holdsRows_of_denotes .standard fractionalSource " 7.9" (79 / 10)
    (by decide) htextual (by decide +kernel) hsize hall
  have hshows := hholds.asked _ _ (by decide +kernel) hpage (by rw [hpageFloor]; decide)
  refine ⟨htextual, hsize, hall, r, hr, ?_, by rwa [hpageFloor] at hshows⟩
  rw [hholds.perPage, hsizeFloor]
  decide

end Listing.PageRequest
