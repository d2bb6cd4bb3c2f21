import Mathlib
import Listing.Proofs.PageRequest
import Listing.Proofs.Rounding
import Listing.Proofs.Success

/-! The block of a page, when its total is not too large.
The number of pages is counted with a rounded quotient. Up to a total of 53 bits rounding makes no
difference to whether there is a page after a given one; far beyond that the quotient can still be
rounded, and there is a block. If the page size has no more bits either, every number in the block
is the one that exact division gives: the least number of pages that hold all rows. -/
namespace Listing.PageBlock
open Listing.Number

def quotientLimit : Nat := twoTo 1024 - twoTo 970

theorem pageCount_of_pos {total : Nat} {perPage : Int} (h : 1 ≤ perPage)
    (hlt : (total : Int) < quotientLimit * perPage) :
    ∃ n : Nat, pageCount total perPage = .ok n ∧
      (∃ m e, Binary64.round total perPage.toNat = some (m, e) ∧ n = Binary64.ceiling m e) ∧
      (total ≤ 2 ^ 53 → ∀ k : Nat, 1 ≤ k ∨ perPage ≤ 2 ^ 53 → (k < n ↔ k * perPage < total)) := by
  obtain ⟨d, rfl⟩ := Int.eq_ofNat_of_zero_le (show 0 ≤ perPage by omega)
  have hd : 0 < d := by omega
  have hquotient : total < quotientLimit * d := by exact_mod_cast hlt
  obtain ⟨m, e, hround⟩ := Binary64.exists_round hd hquotient
  have hcount : pageCount total d = .ok (Binary64.ceiling m e : Int) := by
    rw [pageCount, if_neg (by omega), Int.natAbs_natCast, hround]
    simp only
    rw [if_neg (by omega)]
  refine ⟨_, hcount, ⟨m, e, by rw [Int.toNat_natCast, hround], rfl⟩, fun htotal k hk => ?_⟩
  have hiff := Binary64.lt_ceiling_round_iff hd htotal (k := k) (by exact_mod_cast hk) hround
  exact_mod_cast hiff

theorem lt_quotientLimit_mul {total : Nat} {n : Int} (htotal : total ≤ 2 ^ 53) (hn : 1 ≤ n) :
    (total : Int) < quotientLimit * n := by
  have hsmall : total < quotientLimit := Nat.lt_of_le_of_lt htotal (by decide +kernel)
  have hlimit : (quotientLimit : Int) ≤ quotientLimit * n :=
    le_mul_of_one_le_right (Int.natCast_nonneg _) hn
  omega

theorem ofRequest_unpaginated {r : PageRequest} (h : r.limit = none) (total : Nat) :
    ofRequest r total = .ok ⟨1, allRows, total, 1, false, false⟩ := by
  rw [ofRequest, if_neg (by omega), if_pos (PageRequest.isUnpaginated_iff.mpr h)]

theorem ofRequest_of_pageCount {r : PageRequest} (h : r.isUnpaginated = false) {total : Nat}
    {pages : Int} (hcount : pageCount total r.perPage = .ok pages) :
    ofRequest r total = .ok ⟨r.page, r.perPage, total, pages, r.page < pages, 1 < r.page⟩ := by
  rw [ofRequest, if_neg (by omega), h, Int.toNat_natCast, hcount]
  rfl

theorem ofRequest_paginated {r : PageRequest} (hr : r.Clamped) {n : Int} (h : r.limit = some n)
    {total : Nat} (hlt : (total : Int) < quotientLimit * n) :
    ∃ b, ofRequest r total = .ok b ∧ b.page = r.page ∧ b.perPage = n ∧ b.total = total ∧
      (total ≤ 2 ^ 53 → (b.hasNext = true ↔ r.offset + n < total)) := by
  have hone := hr.one_le_limit h
  obtain ⟨hpaginated, rfl, hoffset⟩ := PageRequest.limit_eq_some h
  obtain ⟨pages, hcount, -, hnext⟩ := pageCount_of_pos hone hlt
  refine ⟨_, ofRequest_of_pageCount hpaginated hcount, rfl, rfl, rfl, fun htotal => ?_⟩
  obtain ⟨k, hk⟩ := Int.eq_ofNat_of_zero_le (show 0 ≤ r.page by have := hr.one_le_page; omega)
  have hpage := hnext htotal k (.inl (by have := hr.one_le_page; omega))
  have hrows : r.offset + r.perPage = k * r.perPage := by
    rw [hoffset, hk]
    ring
  rw [hrows, ← hpage, ← Int.ofNat_lt, ← hk]
  exact decide_eq_true_iff

/-- A block that agrees with exact division, although its pages are counted with a rounded one. -/
structure IsExact (r : PageRequest) (rows : Int) (b : PageBlock) : Prop where
  page : b.page = r.page
  perPage : b.perPage = r.perPage
  total : b.total = rows
  rounded : ∃ m e, Binary64.round rows.toNat r.perPage.toNat = some (m, e) ∧
    b.totalPages = Binary64.ceiling m e
  totalPages : IsLeast {n : Int | rows ≤ n * r.perPage} b.totalPages
  hasNext : b.hasNext = true ↔ r.page * r.perPage < rows
  window : ∃ n, r.limit = some n ∧ (b.hasNext = true ↔ r.offset + n < rows)
  hasPrevious : b.hasPrevious = true ↔ 0 < r.offset

theorem isLeast_of_lt_iff {pages : Nat} {total perPage : Int} (hone : 1 ≤ perPage)
    (hnonneg : 0 ≤ total) (h : ∀ k : Nat, k < pages ↔ k * perPage < total) :
    IsLeast {n : Int | total ≤ n * perPage} pages := by
  constructor
  · exact Int.not_lt.mp fun hlt => Nat.lt_irrefl pages ((h pages).mpr hlt)
  · intro n hn
    by_contra hlt
    have hn : total ≤ n * perPage := hn
    have hneg : ¬ n < 0 := fun hneg => by
      have := Int.mul_neg_of_neg_of_pos hneg (show 0 < perPage by omega)
      omega
    obtain ⟨k, rfl⟩ := Int.eq_ofNat_of_zero_le (Int.not_lt.mp hneg)
    have := (h k).mp (by omega)
    omega

theorem ofRequest_isExact (r : PageRequest) (total : Int) (hpage : 1 ≤ r.page)
    (hone : 1 ≤ r.perPage) (hshort : r.perPage ≤ 2 ^ 53) (hnonneg : 0 ≤ total)
    (htotal : total ≤ 2 ^ 53) : ∃ b, ofRequest r total = .ok b ∧ b.IsExact r total := by
  obtain ⟨rows, rfl⟩ := Int.eq_ofNat_of_zero_le hnonneg
  have hrows : rows ≤ 2 ^ 53 := by exact_mod_cast htotal
  obtain ⟨pages, hcount, hrounded, hnext⟩ :=
    pageCount_of_pos hone (lt_quotientLimit_mul hrows hone)
  -- The rounded quotient enters by this alone: pages below the count leave rows over, others none.
  have hlt (k : Nat) := hnext hrows k (.inr hshort)
  have hpaginated : r.isUnpaginated = false := by
    rw [PageRequest.isUnpaginated, allRows, beq_eq_false_iff_ne]
    omega
  have hlimit : r.limit = some r.perPage := by rw [PageRequest.limit, hpaginated]; rfl
  have hoffset : r.offset = (r.page - 1) * r.perPage := (PageRequest.limit_eq_some hlimit).2.2
  have hhasNext : decide (r.page < pages) = true ↔ r.page * r.perPage < rows := by
    obtain ⟨k, hk⟩ := Int.eq_ofNat_of_zero_le (show 0 ≤ r.page by omega)
    rw [decide_eq_true_iff, hk, Int.ofNat_lt]
    exact hlt k
  refine ⟨_, ofRequest_of_pageCount hpaginated hcount, rfl, rfl, rfl, ?_,
    isLeast_of_lt_iff hone hnonneg hlt, hhasNext, ⟨r.perPage, hlimit, ?_⟩, ?_⟩
  · obtain ⟨m, e, hround, rfl⟩ := hrounded
    exact ⟨m, e, hround, rfl⟩
  · have hend : r.offset + r.perPage = r.page * r.perPage := by
      rw [hoffset]
      ring
    rw [hend]
    exact hhasNext
  · rw [decide_eq_true_iff, hoffset]
    constructor
    · intro h
      exact mul_pos (by omega) (by omega)
    · intro h
      have := pos_of_mul_pos_left h (by omega)
      omega

/-- The quotient is above one by hardly more than half of the distance to the next number. -/
theorem ofRequest_isExact_closeQuotient :
    ∃ b, ofRequest ⟨1, 2 ^ 53 - 1⟩ (2 ^ 53) = .ok b ∧ b.totalPages = 2 ∧ b.hasNext = true := by
  obtain ⟨b, hb, hexact⟩ := ofRequest_isExact ⟨1, 2 ^ 53 - 1⟩ (2 ^ 53) (by decide) (by decide)
    (by decide) (by decide) (by decide)
  have hleast : IsLeast {n : Int | 2 ^ 53 ≤ n * (2 ^ 53 - 1)} 2 := by
    refine ⟨by decide, fun n hn => ?_⟩
    have hn : (2 : Int) ^ 53 ≤ n * (2 ^ 53 - 1) := hn
    omega
  exact ⟨b, hb, hexact.totalPages.unique hleast, hexact.hasNext.mpr (by decide)⟩

end Listing.PageBlock
