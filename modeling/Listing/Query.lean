import Listing.Filter.Reading
import Listing.Page

/-! A list request as it was read, before anything is checked against what its resource allows. -/
namespace Listing
open Listing.Parameter

structure Query where
  page : PageRequest := {}
  order : OrderRequest := {}
  filters : List Filter := []
  deriving DecidableEq, Repr

namespace Query

def ofEntries (c : Config) (entries : List Entry) : Except Rejection Query :=
  (Filter.ofEntries c.filterKey entries).map fun filters =>
    ⟨.ofEntries c entries, .ofEntries c entries, filters⟩

/-- Only a list of values without any can be wrong with parameters that are some. -/
def ofSource (c : Config) (s : Source) : Except Fault Query := do
  let entries ← s.entries
  (ofEntries c entries).mapError Fault.rejected

def notes (c : Config) (s : Source) : List Event :=
  match s.entries with
  | .error _ => []
  | .ok entries => Filter.notes (Reading.ofEntries c.filterKey entries)

end Query
end Listing
