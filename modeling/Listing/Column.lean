import Listing.Scalar
import Listing.Fault

/-! Columns, their types and the models that have them. -/
namespace Listing

inductive ColumnType
  | boolean
  | integer
  | float
  | decimal
  | date
  | datetime
  | time
  | uuid
  | text
  | bytes
  /-- Members in order, each with its name and the text of its value. -/
  | enumeration (name : String) (members : List (String × String))
  | unspecified
  deriving DecidableEq, Repr

structure Column where
  table : String
  name : String
  type : ColumnType
  deriving DecidableEq, Repr

def Column.qualified (c : Column) : String := c.table ++ "." ++ c.name

structure Model where
  label : String
  description : String
  table : String
  columns : List Column
  deriving DecidableEq, Repr

def Model.ofColumns (label description table : String) (columns : List (String × ColumnType)) :
    Model :=
  ⟨label, description, table, columns.map fun c => ⟨table, c.1, c.2⟩⟩

def Model.column? (m : Model) (name : String) : Option Column := m.columns.find? (·.name == name)

end Listing
