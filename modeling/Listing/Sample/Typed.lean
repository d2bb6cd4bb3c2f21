import Listing.Column

/-! A model with a column of every type. -/
namespace Listing.Sample

def color : ColumnType :=
  .enumeration "Color" [("RED", "red"), ("BLUE", "blue"), ("SWAP", "PAWS"), ("PAWS", "SWAP")]

def level : ColumnType := .enumeration "Level" [("LOW", "1"), ("HIGH", "10")]

def typed : Model := .ofColumns "typed" "typed" "typed" [
  ("n", .integer), ("big", .integer), ("name", .text), ("flag", .boolean), ("ratio", .float),
  ("price", .decimal), ("rate", .float), ("day", .date), ("at", .datetime), ("tod", .time),
  ("color", color), ("level", level), ("tag", .text), ("ref", .uuid), ("sref", .text),
  ("blob", .bytes), ("opq", .unspecified)]

end Listing.Sample
