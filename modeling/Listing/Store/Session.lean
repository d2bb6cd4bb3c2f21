import Listing.Store.Statement

/-! What answers statements: with a number of rows, or with rows. -/
namespace Listing.Store

structure Session (α : Type) where
  count : Statement → Except Fault Int
  rows : Statement → Except Fault (List α)

namespace Session

def ofTable (table : List Row) : Session Row where
  count s := s.check.map fun _ => (s.countIn table : Int)
  rows s := s.check.map fun _ => s.rowsIn table

def fixed {α : Type} (total : Int) (rows : List α) : Session α where
  count _ := .ok total
  rows _ := .ok rows

end Session
end Listing.Store
