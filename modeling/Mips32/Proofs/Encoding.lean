import Mips32.Proofs.Release2

/-!
This module contains `Instruction.encode`, which makes the word of an instruction from values for the fields
that its key leaves open, and the proof that decoding gives the instruction and the values back.
-/

namespace Mips32

namespace Instruction

/-- The word that holds the values of the key, and the given values in the fields that the key leaves open. -/
def encode (instruction : Instruction) (value : Field → Nat) : Word :=
  instruction.format.assemble fun field => (instruction.key.get? field).getD (value field)

def KeyFits (instruction : Instruction) : Prop :=
  ∀ part ∈ instruction.key.parts, ∃ entry ∈ instruction.format.fieldWidths,
    entry.1 = part.1 ∧ part.2 < 2 ^ entry.2

instance (instruction : Instruction) : Decidable instruction.KeyFits :=
  inferInstanceAs (Decidable (∀ part ∈ instruction.key.parts, ∃ entry ∈ instruction.format.fieldWidths,
    entry.1 = part.1 ∧ part.2 < 2 ^ entry.2))

def Assigns (instruction : Instruction) (value : Field → Nat) : Prop :=
  ∀ entry ∈ instruction.format.fieldWidths, entry.1 ∉ instruction.key.fields → value entry.1 < 2 ^ entry.2

section
variable {instruction : Instruction} {value : Field → Nat} {field : Field}

theorem Separate.keyFits (hseparate : instruction.Separate) (hwellFormed : instruction.WellFormed) :
    instruction.KeyFits := by
  intro part hpart
  have hfield := hwellFormed.mem_fields_of_mem_key (Key.mem_fields_of_mem_parts hpart)
  obtain ⟨width, hentry⟩ := Format.mem_fields_iff.1 hfield
  exact ⟨_, hentry, rfl, hseparate.key_fits part hpart _ hentry rfl⟩

theorem value_encode_of_mem_key (hwellFormed : instruction.WellFormed) (hfits : instruction.KeyFits)
    {part : Field × Nat} (hpart : part ∈ instruction.key.parts) :
    (Fields.mk (instruction.encode value) instruction.format).value part.1 = part.2 := by
  have hkey := (Key.get?_eq_some_iff hwellFormed.nodup_fields_key).2 hpart
  obtain ⟨⟨_, width⟩, hentry, rfl, hlt⟩ := hfits part hpart
  unfold encode
  rw [Fields.value_assemble hentry]
  . rw [hkey]
    rfl
  . rw [hkey]
    exact hlt

theorem value_encode_of_notMem_key (hvalue : instruction.Assigns value)
    (hfield : field ∈ instruction.format.fields) (hkey : field ∉ instruction.key.fields) :
    (Fields.mk (instruction.encode value) instruction.format).value field = value field := by
  have hget : instruction.key.get? field = none := by
    cases h : instruction.key.get? field with
    | none => rfl
    | some n =>
      have hmem := Key.mem_fields_of_mem_parts (Key.mem_parts_of_get? h)
      contradiction
  obtain ⟨width, hentry⟩ := Format.mem_fields_iff.1 hfield
  unfold encode
  rw [Fields.value_assemble hentry]
  . rw [hget]
    rfl
  . rw [hget]
    exact hvalue _ hentry hkey

theorem violations_encode_eq_nil_iff (hwellFormed : instruction.WellFormed)
    (hseparate : instruction.Separate) (hvalue : instruction.Assigns value) :
    instruction.violations ⟨instruction.encode value, instruction.format⟩ = [] ↔
      ∀ constraint ∈ instruction.constraints, value constraint.field = constraint.expected := by
  unfold violations
  rw [Fields.violations_eq_nil_iff hwellFormed.constraint_mem_fields]
  apply forall₂_congr
  intro constraint hconstraint
  have hfield := hwellFormed.constraint_mem_fields constraint hconstraint
  have hkey := hseparate.constrained_not_key constraint hconstraint
  rw [value_encode_of_notMem_key hvalue hfield hkey]

theorem canonical_encode (hwellFormed : instruction.WellFormed) (hseparate : instruction.Separate)
    (hvalue : instruction.Assigns value) :
    instruction.canonical ⟨instruction.encode value, instruction.format⟩
      =
    ⟨instruction.name, instruction.pattern.operandsOf value⟩ := by
  rw [canonical_eq]
  congr 1
  apply Pattern.operandsOf_congr
  intro field hfield
  apply value_encode_of_notMem_key hvalue
  . exact hwellFormed.shown_mem_fields field hfield
  . exact hseparate.shown_not_key field hfield

end

end Instruction

namespace InstructionSet

variable {instruction : Instruction} {value : Field → Nat}

theorem identify?_encode_of_keyFits {set : InstructionSet} (hmem : instruction ∈ set.instructions)
    (hfits : instruction.KeyFits) : set.identify? (instruction.encode value) = some instruction := by
  have hwellFormed := set.wellFormed instruction hmem
  rw [identify?_eq_some_iff]
  refine ⟨hmem, ?_⟩
  intro part hpart
  have hfield := hwellFormed.mem_fields_of_mem_key (Key.mem_fields_of_mem_parts hpart)
  rw [Fields.get?_eq_some_iff hfield]
  exact Instruction.value_encode_of_mem_key hwellFormed hfits hpart

theorem identify?_encode {set : InstructionSet} (hmem : instruction ∈ set.instructions)
    (hseparate : instruction.Separate) :
    set.identify? (instruction.encode value) = some instruction :=
  identify?_encode_of_keyFits hmem (hseparate.keyFits (set.wellFormed instruction hmem))

/--
The word that is made from a row of Release 2 and values for the open fields is taken for that row. It is
legal exactly if the constrained fields are zero, and it is shown by the name of the row and the values.
-/
theorem decode_encode (hmem : instruction ∈ release2.instructions)
    (hvalue : instruction.Assigns value) :
    release2.identify? (instruction.encode value) = some instruction
      ∧ ∃ disassembly, (release2.decode (instruction.encode value)).disassembly? = some disassembly
        ∧ disassembly.fields = ⟨instruction.encode value, instruction.format⟩
        ∧ (release2.decode (instruction.encode value) = .legal disassembly ↔
            ∀ constraint ∈ instruction.constraints, value constraint.field = 0)
        ∧ disassembly.mnemonic
          = if instruction.encode value = 0 then ⟨"nop", []⟩
            else ⟨instruction.name, instruction.pattern.operandsOf value⟩ := by
  have hwellFormed := release2.wellFormed instruction hmem
  have hseparate := Release2.separate_rows instruction hmem
  have hidentify : release2.identify? (instruction.encode value) = some instruction :=
    identify?_encode hmem hseparate
  have hdisassembly := disassembly?_decode hidentify
  rw [Instruction.canonical_encode hwellFormed hseparate hvalue] at hdisassembly
  refine ⟨hidentify, _, hdisassembly, rfl, ?_, rfl⟩
  rw [decode_eq_legal_iff_of_identify? hidentify hdisassembly]
  rw [Instruction.violations_encode_eq_nil_iff hwellFormed hseparate hvalue]
  apply forall₂_congr
  intro constraint hconstraint
  rw [Release2.expected_rows instruction hmem constraint hconstraint]

/-- A shift whose reserved field is not zero: illegal, but shown all the same. -/
theorem decode_encode_srl :
    let srl := Release2.special "srl" 0x02 Release2.rdRtShamt [.rs]
    srl ∈ release2.instructions ∧ srl.Assigns (fun _ => 3)
      ∧ release2.identify? (srl.encode fun _ => 3) = some srl
      ∧ ∃ disassembly, (release2.decode (srl.encode fun _ => 3)).disassembly? = some disassembly
        ∧ release2.decode (srl.encode fun _ => 3) ≠ .legal disassembly
        ∧ disassembly.mnemonic = ⟨"srl", ["$v1", "$v1", "3"]⟩ := by
  have hmem : Release2.special "srl" 0x02 Release2.rdRtShamt [.rs] ∈ release2.instructions := by
    decide +kernel
  have hvalue : (Release2.special "srl" 0x02 Release2.rdRtShamt [.rs]).Assigns (fun _ => 3) := by
    unfold Instruction.Assigns
    decide +kernel
  obtain ⟨hidentify, disassembly, hdisassembly, _, hlegal, hmnemonic⟩ := decode_encode hmem hvalue
  refine ⟨hmem, hvalue, hidentify, disassembly, hdisassembly, ?_, hmnemonic⟩
  rw [ne_eq, hlegal]
  decide

end InstructionSet

end Mips32
