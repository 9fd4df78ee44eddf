import Mips32.InstructionSet.Release2
import Mips32.Proofs.Decoding
import Mips32.Proofs.Instruction

/-!
This module contains the facts about the rows of Release 2 that other modules build on, and from them the
text that its decoding shows: an identified word is shown by the name and the operands of its instruction,
whether it is legal or not, and only the word 0 is shown as `nop`.
-/

namespace Mips32

theorem Fields.value_zero (format : Format) (field : Field) : (Fields.mk 0 format).value field = 0 := by
  cases format <;> cases field <;> rfl

namespace Release2

theorem separate_rows : ∀ row ∈ rows, row.Separate := by
  decide +kernel

theorem expected_rows : ∀ row ∈ rows, ∀ constraint ∈ row.constraints, constraint.expected = 0 := by
  decide +kernel

theorem aliases_rows : ∀ row ∈ rows, ∀ shown ∈ row.aliases, ∀ field ∈ row.format.fields,
    (field, 0) ∈ row.key.parts ∨ .zero field ∈ row.constraints ∨ .zero field ∈ shown.conditions := by
  decide +kernel

end Release2

namespace InstructionSet

variable {word : Word} {instruction : Instruction}

theorem decode_zero : release2.decode 0 = .legal ⟨⟨0, .register⟩, ⟨"nop", []⟩⟩ := by
  decide +kernel

theorem identify?_zero : release2.identify? 0
    = some { Release2.special "sll" 0x00 Release2.rdRtShamt [.rs] with aliases := [Release2.nop] } := by
  decide +kernel

theorem text_canonical_zero (h : release2.identify? 0 = some instruction) :
    (instruction.canonical ⟨0, instruction.format⟩).text = "sll $zero, $zero, 0" := by
  rw [identify?_zero, Option.some.injEq] at h
  subst h
  decide +kernel

theorem separate_of_identify? (h : release2.identify? word = some instruction) : instruction.Separate :=
  Release2.separate_rows instruction (mem_of_identify? h)

theorem word_eq_zero_of_applies (h : release2.identify? word = some instruction)
    (hnil : instruction.violations ⟨word, instruction.format⟩ = []) {shown : Alias}
    (hshown : shown ∈ instruction.aliases)
    (happlies : shown.applies ⟨word, instruction.format⟩ = true) : word = 0 := by
  obtain ⟨hmem, hkey⟩ := identify?_eq_some_iff.1 h
  have hwellFormed := wellFormed_of_identify? h
  have hconstraints := (Fields.violations_eq_nil_iff hwellFormed.constraint_mem_fields).1 hnil
  apply Fields.word_eq_of_value_eq
  intro field hfield
  rw [Fields.value_zero]
  obtain hpart | hconstraint | hcondition :=
    Release2.aliases_rows instruction hmem shown hshown field hfield
  . exact (Fields.get?_eq_some_iff hfield).1 (hkey _ hpart)
  . exact hconstraints _ hconstraint
  . have hholds := List.all_eq_true.1 happlies _ hcondition
    exact (Constraint.holds_iff_value hfield).1 hholds

theorem disassembly?_decode (h : release2.identify? word = some instruction) :
    (release2.decode word).disassembly?
      =
    some ⟨⟨word, instruction.format⟩,
      if word = 0 then ⟨"nop", []⟩ else instruction.canonical ⟨word, instruction.format⟩⟩ := by
  by_cases hzero : word = 0
  . subst hzero
    have hformat := ofWord?_of_identify? h
    have hregister : Format.ofWord? 0 = some .register := by decide
    rw [hregister, Option.some.injEq] at hformat
    rw [decode_zero, ← hformat]
    rfl
  . rw [decode_of_identify? h, if_neg hzero]
    split
    . next hnil =>
      unfold Instruction.render
      split
      . next shown hfind =>
        -- with an alias that applies there is no bit left that could be set
        have happlies := List.find?_some hfind
        have hword := word_eq_zero_of_applies h hnil (List.mem_of_find?_eq_some hfind) happlies
        contradiction
      . rfl
    . rfl

end InstructionSet

end Mips32
