import Mips32.Main
import Mips32.Proofs.Agreement
import Mips32.Proofs.Checked
import Mips32.Proofs.Coverage
import Mips32.Proofs.Defect
import Mips32.Proofs.Description
import Mips32.Proofs.Disassembly
import Mips32.Proofs.Encoding
import Mips32.Proofs.Numbering
import Mips32.Proofs.Ownership
import Mips32.Proofs.ReadBack
import Mips32.Proofs.Repair
import Mips32.Proofs.Rows
import Mips32.Proofs.Selection
import Mips32.Proofs.Slots
import Mips32.Proofs.Strict
import Mips32.Proofs.Table
