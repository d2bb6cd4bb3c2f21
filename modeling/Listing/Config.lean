import Listing.Fault

/-! Settings of a list endpoint: page limits and the names of its parameters.
`Settings` are what a caller asks for, a `Config` is settings that passed the checks. -/
namespace Listing

/-- The page size that asks for all rows. -/
def allRows : Int := -1

structure Settings where
  defaultPage : Int := 1
  defaultPerPage : Int := 20
  maxPerPage : Int := 100
  pageKey : String := "page"
  perPageKey : String := "perPage"
  sortByKey : String := "sortBy"
  sortOrderKey : String := "sortOrder"
  filterKey : String := "filter"
  deriving DecidableEq, Repr

structure Config extends Settings where
  one_le_defaultPage : 1 ≤ defaultPage := by decide
  one_le_maxPerPage : 1 ≤ maxPerPage := by decide
  one_le_defaultPerPage : 1 ≤ defaultPerPage := by decide
  defaultPerPage_le : defaultPerPage ≤ maxPerPage := by decide
  filterKey_ne : filterKey ≠ "" := by decide
  deriving DecidableEq

def Config.standard : Config := {}

def Config.ofSettings (s : Settings) : Except Fault Config :=
  if hp : 1 ≤ s.defaultPage then
    if hm : 1 ≤ s.maxPerPage then
      if hd : 1 ≤ s.defaultPerPage ∧ s.defaultPerPage ≤ s.maxPerPage then
        if hk : s.filterKey = "" then .error .emptyFilterKey
        else .ok ⟨s, hp, hm, hd.1, hd.2, hk⟩
      else .error (.defaultPerPageOutside s.maxPerPage)
    else .error .maxPerPageTooSmall
  else .error .defaultPageTooSmall

end Listing
