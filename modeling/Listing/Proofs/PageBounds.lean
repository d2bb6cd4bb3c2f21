import Mathlib
import Listing.Proofs.Entries
import Listing.Proofs.PageRequest

/-! Bounds of the page that is read from a source of texts.
Whatever the texts say and however large the configured numbers are, there is a page request: its
page is positive, its size is within the limit or asks for all rows, and its offset is
representable. All rows are asked for by one spelling only. -/
namespace Listing.PageRequest
open Listing.Parameter Listing.Text Listing.Page

section Entries
variable {c : Config} {entries : List Entry}

theorem asksAll_iff {given : Option String}
    (h : lookup entries c.perPageKey = given.map .text) :
    asksAll c entries = true ↔ ∃ t, given = some t ∧ strip t = "-1" := by
  rw [asksAll, h]
  cases given with
  | none => simp
  | some t =>
    have hstrip : strip t = "-1" ↔ trim t.toList = ['-', '1'] := by
      rw [← String.toList_inj, toList_strip]
      rfl
    simp [hstrip]

theorem perPage_ofEntries :
    (ofEntries c entries).perPage = if asksAll c entries then allRows else perPageOf c entries := by
  rw [ofEntries]
  split <;> rfl

theorem perPage_eq_allRows_iff :
    (ofEntries c entries).perPage = allRows ↔ asksAll c entries = true := by
  have hpos := perPageOf_pos c entries
  rw [perPage_ofEntries]
  cases asksAll c entries with
  | true => simp
  | false => simp [allRows]; omega

theorem perPage_bounds :
    (ofEntries c entries).perPage = allRows ∨
      1 ≤ (ofEntries c entries).perPage ∧ (ofEntries c entries).perPage ≤ c.maxPerPage := by
  rw [perPage_ofEntries]
  cases asksAll c entries with
  | true => exact .inl rfl
  | false => exact .inr ⟨perPageOf_pos c entries, perPageOf_le c entries⟩

end Entries

variable {r : PageRequest}

theorem limit_of_allRows (h : r.perPage = allRows) : r.limit = none ∧ r.offset = 0 := by
  simp [limit, offset, isUnpaginated, h]

theorem limit_of_ne_allRows (h : r.perPage ≠ allRows) :
    r.limit = some r.perPage ∧ r.offset = (r.page - 1) * r.perPage := by
  simp [limit, offset, isUnpaginated, h]

structure Bounded (c : Config) (s : Source) (r : PageRequest) : Prop where
  one_le_page : 1 ≤ r.page
  perPage : r.perPage = -1 ∨ 1 ≤ r.perPage ∧ r.perPage ≤ c.maxPerPage
  all_iff : r.perPage = -1 ↔ ∃ t, s.last? c.perPageKey = some t ∧ strip t = "-1"
  all : r.perPage = -1 → r.limit = none ∧ r.offset = 0
  window : r.perPage ≠ -1 → r.limit = some r.perPage ∧
    r.offset = (r.page - 1) * r.perPage ∧ 0 ≤ r.offset ∧ r.offset ≤ 2 ^ 63 - 1

theorem bounded_of_textual (c : Config) (s : Source) (hs : s.Textual) :
    ∃ r, s.entries.map (ofEntries c) = .ok r ∧ r.Bounded c s := by
  obtain ⟨entries, hentries, hlookup⟩ := hs.exists_entries
  have hclamped := clamped_ofEntries c entries
  refine ⟨ofEntries c entries, by rw [hentries]; rfl, ?_⟩
  exact {
    one_le_page := hclamped.one_le_page
    perPage := perPage_bounds
    all_iff := perPage_eq_allRows_iff.trans (asksAll_iff (hlookup c.perPageKey))
    all := limit_of_allRows
    window := fun hall => ⟨(limit_of_ne_allRows hall).1, (limit_of_ne_allRows hall).2,
      hclamped.offset_nonneg, hclamped.offset_le⟩ }

def farSource : Source :=
  .pairs [("page", .text "99999999999999999999"), ("perPage", .text "-1"), ("perPage", .text "10")]

theorem bounded_farSource :
    farSource.Textual ∧
      ∃ r, farSource.entries.map (ofEntries .standard) = .ok r ∧ r.perPage ≠ -1 ∧
        r.limit = some 10 ∧ r.offset = 9223372036854775800 ∧ r.offset ≤ 2 ^ 63 - 1 := by
  have htextual : farSource.Textual := by simp [farSource, Source.Textual, Value.IsText]
  obtain ⟨r, hr, hbounded⟩ := bounded_of_textual .standard farSource htextual
  have hpage : farSource.entries.map (ofEntries .standard) = .ok ⟨922337203685477581, 10⟩ := by
    decide +kernel
  rw [hr, Except.ok.injEq] at hpage
  have hall : r.perPage ≠ -1 := by rw [hpage]; decide
  obtain ⟨hlimit, hoffset, -, hle⟩ := hbounded.window hall
  refine ⟨htextual, r, hr, hall, by rw [hlimit, hpage], by rw [hoffset, hpage]; rfl, hle⟩

end Listing.PageRequest
