import Mathlib
import Listing.Proofs.PageNumber

/-! Page requests that are written as two numbers and read again.
`ofNumbers` says which request two written numbers make. A request within the limits is made by its
own numbers, and so is every request that was read, as long as the configured numbers are short
enough to be written without being cut. -/
namespace Listing.PageRequest
open Listing.Parameter Listing.Number Listing.Page

def pageOfNumber (c : Config) (n : Int) : Int := if counted n < 1 then c.defaultPage else counted n

def perPageOfNumber (c : Config) (n : Int) : Int := min c.maxPerPage (max 1 (counted n))

def ofNumbers (c : Config) (page perPage : Int) : PageRequest :=
  if perPage = allRows then ⟨pageOfNumber c page, allRows⟩
  else
    ⟨min (pageOfNumber c page) (lastPage (perPageOfNumber c perPage)), perPageOfNumber c perPage⟩

theorem ofEntries_written {c : Config} {entries : List Entry} {page perPage : Int}
    (hp : lookup entries c.pageKey = some (.text (intText page)))
    (hs : lookup entries c.perPageKey = some (.text (intText perPage))) :
    ofEntries c entries = ofNumbers c page perPage := by
  have hall : asksAll c entries = decide (perPage = allRows) := by
    rw [asksAll, hs]
    show (Text.trim (intText perPage).toList == ['-', '1']) = _
    rw [trim_intText, Bool.eq_iff_iff, beq_iff_eq, intText_eq_all_iff, decide_eq_true_eq]
    rfl
  have hpage : pageOf c entries = pageOfNumber c page := by
    rw [pageOf, numberOf, hp, Option.bind_some, Value.plain_text, number?_intText]
    rfl
  have hsize : perPageOf c entries = perPageOfNumber c perPage := by
    rw [perPageOf, numberOf, hs, Option.bind_some, Value.plain_text, number?_intText]
    rfl
  rw [ofEntries, hall, hpage, hsize, ofNumbers]
  by_cases h : perPage = allRows <;> simp [h]

theorem counted_of_lt {n : Int} (h : n.natAbs < 10 ^ maxDigits) : counted n = n := if_pos h

theorem counted_maxOffset : counted maxOffset = maxOffset := by decide

/-- What a page request has to satisfy to be told by its numbers. -/
structure Representable (c : Config) (r : PageRequest) : Prop where
  one_le_page : 1 ≤ r.page
  page_lt : r.page < 10 ^ maxDigits
  perPage : r.perPage = allRows ∨
    1 ≤ r.perPage ∧ r.perPage ≤ c.maxPerPage ∧ r.perPage < 10 ^ maxDigits ∧
      (r.page - 1) * r.perPage ≤ maxOffset

instance (c : Config) (r : PageRequest) : Decidable (r.Representable c) :=
  decidable_of_iff (1 ≤ r.page ∧ r.page < 10 ^ maxDigits ∧ (r.perPage = allRows ∨
      1 ≤ r.perPage ∧ r.perPage ≤ c.maxPerPage ∧ r.perPage < 10 ^ maxDigits ∧
        (r.page - 1) * r.perPage ≤ maxOffset))
    ⟨fun h => ⟨h.1, h.2.1, h.2.2⟩, fun h => ⟨h.1, h.2, h.3⟩⟩

theorem one_le_lastPage {perPage : Int} (h : 1 ≤ perPage) : 1 ≤ lastPage perPage := by
  have := Int.ediv_nonneg (show 0 ≤ maxOffset by decide) (show 0 ≤ perPage by omega)
  rw [lastPage]
  omega

theorem le_lastPage {page perPage : Int} (h : 1 ≤ perPage) (ho : (page - 1) * perPage ≤ maxOffset) :
    page ≤ lastPage perPage := by
  have := (Int.le_ediv_iff_mul_le (by omega)).mpr ho
  rw [lastPage]
  omega

theorem pageOfNumber_of_lt {c : Config} {n : Int} (h : 1 ≤ n) (hlt : n < 10 ^ maxDigits) :
    pageOfNumber c n = n := by
  have habs : n.natAbs < 10 ^ maxDigits := by
    rw [maxDigits] at hlt ⊢
    omega
  rw [pageOfNumber, counted_of_lt habs, if_neg (by omega)]

theorem perPageOfNumber_of_lt {c : Config} {n : Int} (h : 1 ≤ n) (hle : n ≤ c.maxPerPage)
    (hlt : n < 10 ^ maxDigits) : perPageOfNumber c n = n := by
  have habs : n.natAbs < 10 ^ maxDigits := by
    rw [maxDigits] at hlt ⊢
    omega
  rw [perPageOfNumber, counted_of_lt habs]
  omega

theorem Representable.ofNumbers_eq {c : Config} {r : PageRequest} (h : Representable c r) :
    ofNumbers c r.page r.perPage = r := by
  have hpage := pageOfNumber_of_lt (c := c) h.one_le_page h.page_lt
  rw [ofNumbers, hpage]
  rcases h.perPage with hall | ⟨hone, hle, hlt, ho⟩
  · rw [if_pos hall, ← hall]
  · have hne : r.perPage ≠ allRows := by
      rw [allRows]
      omega
    rw [if_neg hne, perPageOfNumber_of_lt hone hle hlt, min_eq_left (le_lastPage hone ho)]

theorem pageOf_range {c : Config} (hc : c.defaultPage < 10 ^ maxDigits) (entries : List Entry) :
    pageOf c entries < 10 ^ maxDigits ∨ pageOf c entries = maxOffset := by
  unfold pageOf
  split
  case h_1 n hn =>
    split
    · exact .inl hc
    · obtain ⟨v, -, hv⟩ := Option.bind_eq_some_iff.mp hn
      exact lt_or_eq_of_number? hv (by omega)
  case h_2 => exact .inl hc

theorem ofNumbers_ofEntries {c : Config} (hd : c.defaultPage < 10 ^ maxDigits)
    (hm : c.maxPerPage < 10 ^ maxDigits) (entries : List Entry) :
    ofNumbers c (ofEntries c entries).page (ofEntries c entries).perPage = ofEntries c entries := by
  have hpos := pageOf_pos c entries
  have hrange := pageOf_range hd entries
  have hsize : 1 ≤ perPageOf c entries := perPageOf_pos c entries
  have hle : perPageOf c entries ≤ c.maxPerPage := perPageOf_le c entries
  generalize hP : pageOf c entries = P at hpos hrange
  generalize hS : perPageOf c entries = S at hsize hle
  rw [ofEntries]
  simp only [hP, hS]
  split
  case isTrue =>
    have hpage : pageOfNumber c P = P := by
      rcases hrange with hlt | rfl
      · exact pageOfNumber_of_lt hpos hlt
      · rw [pageOfNumber, counted_maxOffset]
        rfl
    rw [ofNumbers, if_pos rfl, hpage]
  case isFalse =>
    have hne : S ≠ allRows := by
      rw [allRows]
      omega
    have hlast := one_le_lastPage hsize
    rw [ofNumbers, if_neg hne, perPageOfNumber_of_lt hsize hle (by omega)]
    congr 1
    by_cases hshort : min P (lastPage S) < 10 ^ maxDigits
    · rw [pageOfNumber_of_lt (by omega) hshort]
      omega
    · -- A page this long was the greatest offset before the cut, and is read as that again.
      have hPmax : P = maxOffset := by
        rcases hrange with hlt | hmax
        · omega
        · exact hmax
      have hcounted : counted (min P (lastPage S)) = maxOffset := by
        rw [counted, if_neg, if_neg (by omega)]
        rw [maxDigits] at hshort ⊢
        omega
      rw [pageOfNumber, hcounted, if_neg (by decide), hPmax]

theorem exists_ofNumbers {c : Config} {r : PageRequest} (page : Int)
    (h : ofNumbers c r.page r.perPage = r) : ∃ n, ofNumbers c page r.perPage = ⟨n, r.perPage⟩ := by
  rw [ofNumbers] at h ⊢
  by_cases hall : r.perPage = allRows
  · exact ⟨pageOfNumber c page, by rw [if_pos hall, hall]⟩
  · rw [if_neg hall] at h ⊢
    have hsize : perPageOfNumber c r.perPage = r.perPage := congrArg PageRequest.perPage h
    exact ⟨min (pageOfNumber c page) (lastPage r.perPage), by rw [hsize]⟩

/-- What reading makes of the numbers of a page: the offset of a page of rows is representable. -/
structure Clamped (r : PageRequest) : Prop where
  one_le_page : 1 ≤ r.page
  perPage : r.perPage = allRows ∨ 1 ≤ r.perPage ∧ (r.page - 1) * r.perPage ≤ maxOffset

theorem mul_le_maxOffset {page perPage : Int} (h : 1 ≤ perPage) (hp : page ≤ lastPage perPage) :
    (page - 1) * perPage ≤ maxOffset := by
  have hle : page - 1 ≤ maxOffset / perPage := by
    rw [lastPage] at hp
    omega
  exact (Int.le_ediv_iff_mul_le (by omega)).mp hle

theorem clamped_ofEntries (c : Config) (entries : List Entry) : (ofEntries c entries).Clamped := by
  have hpos := pageOf_pos c entries
  have hsize := perPageOf_pos c entries
  have hlast := one_le_lastPage hsize
  rw [ofEntries]
  split
  case isTrue => exact ⟨hpos, .inl rfl⟩
  case isFalse =>
    refine ⟨by simp only; omega, .inr ⟨hsize, mul_le_maxOffset hsize (by simp only; omega)⟩⟩

theorem isUnpaginated_iff {r : PageRequest} : r.isUnpaginated = true ↔ r.limit = none := by
  rw [limit]
  cases r.isUnpaginated <;> simp

theorem limit_eq_some {r : PageRequest} {n : Int} (h : r.limit = some n) :
    r.isUnpaginated = false ∧ n = r.perPage ∧ r.offset = (r.page - 1) * n := by
  rw [limit] at h
  split at h
  case isTrue => cases h
  case isFalse hpaginated =>
    cases h
    refine ⟨by simpa using hpaginated, rfl, ?_⟩
    rw [offset, if_neg hpaginated]

theorem Clamped.one_le_limit {r : PageRequest} (h : r.Clamped) {n : Int} (hn : r.limit = some n) :
    1 ≤ n := by
  obtain ⟨hpaginated, rfl, -⟩ := limit_eq_some hn
  rcases h.perPage with hall | hsize
  · rw [isUnpaginated, hall] at hpaginated
    cases hpaginated
  · exact hsize.1

theorem Clamped.offset_nonneg {r : PageRequest} (h : r.Clamped) : 0 ≤ r.offset := by
  cases hn : r.limit with
  | none => rw [offset, if_pos (isUnpaginated_iff.mpr hn)]
  | some n =>
    rw [(limit_eq_some hn).2.2]
    have hone := h.one_le_limit hn
    have hpage := h.one_le_page
    exact mul_nonneg (by omega) (by omega)

theorem Clamped.offset_le {r : PageRequest} (h : r.Clamped) : r.offset ≤ maxOffset := by
  cases hn : r.limit with
  | none =>
    rw [offset, if_pos (isUnpaginated_iff.mpr hn)]
    decide
  | some n =>
    obtain ⟨hpaginated, rfl, hoffset⟩ := limit_eq_some hn
    rw [hoffset]
    rcases h.perPage with hall | hsize
    · rw [isUnpaginated, hall] at hpaginated
      cases hpaginated
    · exact hsize.2

end Listing.PageRequest
