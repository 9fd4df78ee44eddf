import Mips32.Proofs.Defect
import Mips32.Proofs.Description
import Mips32.Proofs.Encoding

/-!
This module contains the verification of which words a set takes for an instruction. They are the words that
hold the values of its key, whatever else they hold, and there are such words exactly if these values fit in
their fields. Building a set does not ask whether they do.
-/

namespace Mips32

def Instruction.Owns (instruction : Instruction) (word : Word) : Prop :=
  ∀ part ∈ instruction.key.parts, (Fields.mk word instruction.format).get? part.1 = some part.2

structure InstructionSet.Allots (set : InstructionSet) (instruction : Instruction) : Prop where
  some_word_iff : (∃ word, set.identify? word = some instruction) ↔ instruction.KeyFits
  identify?_iff : ∀ word, set.identify? word = some instruction ↔ instruction.Owns word
  judged : ∀ word, instruction.Owns word →
    instruction.Judges ⟨word, instruction.format⟩ (set.decode word)
  open_fields : instruction.KeyFits → ∀ word, ∃ owned, instruction.Owns owned
    ∧ ∀ field ∈ instruction.format.fields, field ∉ instruction.key.fields →
        (Fields.mk owned instruction.format).get? field
          = (Fields.mk word instruction.format).get? field

namespace Instruction

variable {instruction : Instruction} {word : Word}

theorem WellFormed.keyFits_of_owns (hwellFormed : instruction.WellFormed)
    (howns : instruction.Owns word) : instruction.KeyFits := by
  intro part hpart
  have hfield := hwellFormed.mem_fields_of_mem_key (Key.mem_fields_of_mem_parts hpart)
  obtain ⟨width, hentry⟩ := Format.mem_fields_iff.1 hfield
  have hvalue : (Fields.mk word instruction.format).value part.1 = part.2 := by
    rw [← Fields.get?_eq_some_iff hfield]
    exact howns part hpart
  refine ⟨_, hentry, rfl, ?_⟩
  rw [← hvalue]
  exact Fields.value_lt hentry

theorem assigns_value (instruction : Instruction) (word : Word) :
    instruction.Assigns (Fields.mk word instruction.format).value := by
  intro entry hentry _
  exact Fields.value_lt hentry

theorem WellFormed.key_eq_of_owns {instruction₁ instruction₂ : Instruction}
    (hwellFormed₁ : instruction₁.WellFormed) (hwellFormed₂ : instruction₂.WellFormed)
    (howns₁ : instruction₁.Owns word) (howns₂ : instruction₂.Owns word) :
    instruction₁.key = instruction₂.key := by
  have hkey₁ := hwellFormed₁.key_eq_iff.2 howns₁
  have hkey₂ := hwellFormed₂.key_eq_iff.2 howns₂
  -- the word has only one format, which both instructions therefore have
  have hformat := hwellFormed₁.ofWord?_eq_some hkey₁
  rw [hwellFormed₂.ofWord?_eq_some hkey₂, Option.some.injEq] at hformat
  rw [hkey₁, hkey₂, hformat]

end Instruction

namespace InstructionSet

variable {set : InstructionSet} {instruction : Instruction}

theorem identify?_eq_some_iff_owns (hmem : instruction ∈ set.instructions) {word : Word} :
    set.identify? word = some instruction ↔ instruction.Owns word := by
  rw [identify?_eq_some_iff]
  exact and_iff_right hmem

theorem allots (hmem : instruction ∈ set.instructions) : set.Allots instruction := by
  have hwellFormed := set.wellFormed instruction hmem
  constructor
  . constructor
    . rintro ⟨word, hidentify⟩
      exact hwellFormed.keyFits_of_owns ((identify?_eq_some_iff_owns hmem).1 hidentify)
    . intro hfits
      exact ⟨instruction.encode fun _ => 0, identify?_encode_of_keyFits hmem hfits⟩
  . intro word
    exact identify?_eq_some_iff_owns hmem
  . intro word howns
    exact judges_decode ((identify?_eq_some_iff_owns hmem).2 howns)
  . intro hfits word
    have hassigns := instruction.assigns_value word
    refine ⟨instruction.encode (Fields.mk word instruction.format).value, ?_, ?_⟩
    . exact (identify?_eq_some_iff_owns hmem).1 (identify?_encode_of_keyFits hmem hfits)
    . intro field hfield hkey
      rw [Fields.get?_eq_value hfield, Fields.get?_eq_value hfield]
      rw [Instruction.value_encode_of_notMem_key hassigns hfield hkey]

theorem pairwise_not_owns (set : InstructionSet) :
    set.instructions.Pairwise fun instruction₁ instruction₂ =>
      ∀ word, ¬(instruction₁.Owns word ∧ instruction₂.Owns word) := by
  apply set.distinct.imp_of_mem
  intro instruction₁ instruction₂ hmem₁ hmem₂ hne word howns
  have hwellFormed₁ := set.wellFormed instruction₁ hmem₁
  have hwellFormed₂ := set.wellFormed instruction₂ hmem₂
  exact hne (hwellFormed₁.key_eq_of_owns hwellFormed₂ howns.1 howns.2)

/--
In a set that was built, the words that hold the values of the key of an instruction are the words that are
taken for it. There are some exactly if these values fit, and no word belongs to two instructions.
-/
theorem allots_of_build {instructions : List Instruction} (hbuild : build instructions = .ok set) :
    (∀ instruction ∈ instructions, set.Allots instruction)
      ∧ instructions.Pairwise fun instruction₁ instruction₂ =>
          ∀ word, ¬(instruction₁.Owns word ∧ instruction₂.Owns word) := by
  rw [build_eq_ok_iff] at hbuild
  subst hbuild
  exact ⟨fun _ => allots, set.pairwise_not_owns⟩

/-- Two instructions are accepted, though no word can hold the function code of the second. -/
theorem allots_of_build_oversized :
    let add := Release2.special "add" 0x20 Release2.rdRsRt [.shamt]
    let oversized := Release2.special "oversized" 0x40 Release2.rdRsRt [.shamt]
    ∃ set, build [add, oversized] = .ok set
      ∧ (∃ word, set.identify? word = some add)
      ∧ ∀ word, set.identify? word ≠ some oversized := by
  intro add oversized
  have hinstructions : ∃ set : InstructionSet, set.instructions = [add, oversized] := by
    rw [exists_instructions_eq_iff, List.forall_mem_cons, List.forall_mem_singleton]
    refine ⟨⟨?_, ?_⟩, by decide⟩
    . exact Instruction.defect?_eq_none_iff.1 (by decide)
    . exact Instruction.defect?_eq_none_iff.1 (by decide)
  obtain ⟨set, hset⟩ := hinstructions
  have hbuild : build [add, oversized] = .ok set := build_eq_ok_iff.2 hset
  obtain ⟨hallots, _⟩ := allots_of_build hbuild
  have hadd := hallots add List.mem_cons_self
  have hoversized := hallots oversized (List.mem_cons_of_mem _ List.mem_cons_self)
  refine ⟨set, hbuild, ?_, ?_⟩
  . rw [hadd.some_word_iff]
    decide
  . rw [← not_exists, hoversized.some_word_iff]
    decide

end InstructionSet

end Mips32
