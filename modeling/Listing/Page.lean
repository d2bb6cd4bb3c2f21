import Listing.Config
import Listing.Number.Binary64
import Listing.Page.Number
import Listing.Parameter.Source

/-! The page that a request asks for, the rows it covers, and the block that describes it.
A page size of -1 asks for all rows. What a request says is clamped to the configured limits, and
the page number so that the offset stays representable; a number that cannot be read counts as not
given. -/
namespace Listing
open Listing.Text Listing.Number Listing.Parameter

structure PageRequest where
  page : Int := 1
  perPage : Int := 20
  deriving DecidableEq, Repr

namespace PageRequest

def isUnpaginated (r : PageRequest) : Bool := r.perPage == allRows

/-- The greatest page whose offset is representable. -/
def lastPage (perPage : Int) : Int := Page.maxOffset / perPage + 1

def numberOf (entries : List Entry) (key : String) : Option Int :=
  (lookup entries key).bind fun v => Page.number? v.plain

def pageOf (c : Config) (entries : List Entry) : Int :=
  match numberOf entries c.pageKey with
  | some n => if n < 1 then c.defaultPage else n
  | none => c.defaultPage

def perPageOf (c : Config) (entries : List Entry) : Int :=
  match numberOf entries c.perPageKey with
  | some n => min c.maxPerPage (max 1 n)
  | none => c.defaultPerPage

def asksAll (c : Config) (entries : List Entry) : Bool :=
  match lookup entries c.perPageKey with
  | some v => trim v.plain.toList == ['-', '1']
  | none => false

def ofEntries (c : Config) (entries : List Entry) : PageRequest :=
  if asksAll c entries then ⟨pageOf c entries, allRows⟩
  else
    let perPage := perPageOf c entries
    ⟨min (pageOf c entries) (lastPage perPage), perPage⟩

theorem perPageOf_pos (c : Config) (entries : List Entry) : 1 ≤ perPageOf c entries := by
  have h := c.one_le_maxPerPage
  have h' := c.one_le_defaultPerPage
  unfold perPageOf
  split <;> omega

theorem perPageOf_le (c : Config) (entries : List Entry) :
    perPageOf c entries ≤ c.maxPerPage := by
  have h := c.defaultPerPage_le
  unfold perPageOf
  split <;> omega

theorem pageOf_pos (c : Config) (entries : List Entry) : 1 ≤ pageOf c entries := by
  have h := c.one_le_defaultPage
  unfold pageOf
  split
  · split <;> omega
  · exact h

def limit (r : PageRequest) : Option Int := if r.isUnpaginated then none else some r.perPage

def offset (r : PageRequest) : Int := if r.isUnpaginated then 0 else (r.page - 1) * r.perPage

end PageRequest

structure PageBlock where
  page : Int
  perPage : Int
  total : Int
  totalPages : Int
  hasNext : Bool
  hasPrevious : Bool
  deriving DecidableEq, Repr

namespace PageBlock

/-- The quotient of the total by the page size, rounded to a binary number and then up. -/
def pageCount (total : Nat) (perPage : Int) : Except Fault Int :=
  if perPage = 0 then .error .zeroPerPage
  else
    match Binary64.round total perPage.natAbs with
    | none => .error .quotientTooLarge
    | some (m, e) =>
      .ok (if perPage < 0 then -(Binary64.floor m e : Int) else (Binary64.ceiling m e : Int))

def ofRequest (r : PageRequest) (total : Int) : Except Fault PageBlock :=
  if total < 0 then .error (.negativeTotal total)
  else if r.isUnpaginated then .ok ⟨1, allRows, total, 1, false, false⟩
  else
    (pageCount total.toNat r.perPage).map fun pages =>
      ⟨r.page, r.perPage, total, pages, r.page < pages, 1 < r.page⟩

example : ofRequest ⟨2, 10⟩ 25 = .ok ⟨2, 10, 25, 3, true, true⟩ := rfl
example : ofRequest ⟨1, 0⟩ 25 = .error .zeroPerPage := rfl

end PageBlock

structure PageOf (α : Type) where
  data : List α
  block : PageBlock
  deriving Repr

def PageOf.ofRows {α : Type} (rows : List α) (total : Int) (r : PageRequest) :
    Except Fault (PageOf α) :=
  (PageBlock.ofRequest r total).map fun block => ⟨rows, block⟩

end Listing
