import Mips32.Proofs.InstructionSet

/-!
This module contains the verification of what building an instruction set reports. A list of instructions is
refused because of its first instruction that cannot follow those before it, and of all that is wrong with
this instruction the defect that comes first in a fixed order is reported.
-/

namespace Mips32

namespace Instruction

variable {instruction : Instruction} {defect : Defect}

end Instruction

namespace InstructionSet

variable {set : InstructionSet} {instruction : Instruction} {instructions : List Instruction}
variable {defect : Defect}

theorem exists_instructions_eq_iff :
    (∃ set : InstructionSet, set.instructions = instructions) ↔
      (∀ instruction ∈ instructions, instruction.WellFormed)
        ∧ instructions.Pairwise (·.key ≠ ·.key) := by
  constructor
  . rintro ⟨set, rfl⟩
    exact ⟨set.wellFormed, set.distinct⟩
  . rintro ⟨hwellFormed, hdistinct⟩
    exact ⟨⟨instructions, hwellFormed, hdistinct⟩, rfl⟩

end InstructionSet

end Mips32
