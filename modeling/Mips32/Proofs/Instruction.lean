import Mathlib.Tactic.MkIffOfInductiveProp
import Mips32.Instruction
import Mips32.Proofs.Fields

/-!
This module contains what encoding an instruction and repairing a word ask of an instruction: that its key,
its constraints and its operands take different fields of the word.
-/

namespace Mips32

namespace Pattern

def operandsOf (pattern : Pattern) (value : Field → Nat) : List String :=
  match pattern with
  | .bare => []
  | .list operands => operands.map fun operand => operand.kind.text (value operand.field)
  | .address register offset base =>
    [Operand.Kind.gpr.text (value register),
     Operand.Kind.immediate.text (value offset) ++ "(" ++ Operand.Kind.gpr.text (value base) ++ ")"]

theorem operands_eq (pattern : Pattern) (fields : Fields) :
    pattern.operands fields = pattern.operandsOf fields.value := by
  cases pattern <;> rfl

theorem operandsOf_congr {pattern : Pattern} {value₁ value₂ : Field → Nat}
    (h : ∀ field ∈ pattern.fields, value₁ field = value₂ field) :
    pattern.operandsOf value₁ = pattern.operandsOf value₂ := by
  cases pattern with
  | bare => rfl
  | list operands =>
    unfold operandsOf
    apply List.map_congr_left
    intro operand hmem
    rw [h operand.field (List.mem_map_of_mem hmem)]
  | address register offset base =>
    simp only [fields, List.mem_cons, List.not_mem_nil, or_false, forall_eq_or_imp, forall_eq] at h
    simp only [operandsOf]
    rw [h.1, h.2.1, h.2.2]

end Pattern

namespace Instruction

theorem canonical_eq (instruction : Instruction) (fields : Fields) :
    instruction.canonical fields = ⟨instruction.name, instruction.pattern.operandsOf fields.value⟩ := by
  unfold canonical Pattern.mnemonic
  rw [Pattern.operands_eq]

variable {instruction : Instruction}

theorem WellFormed.constraint_mem_fields (hwellFormed : instruction.WellFormed) :
    ∀ constraint ∈ instruction.constraints, constraint.field ∈ instruction.format.fields := by
  intro constraint hconstraint
  apply hwellFormed.fields_in_format
  unfold fieldsRead
  rw [List.mem_append, List.mem_append]
  exact .inl (.inr (List.mem_map_of_mem hconstraint))

theorem WellFormed.shown_mem_fields (hwellFormed : instruction.WellFormed) :
    ∀ field ∈ instruction.pattern.fields, field ∈ instruction.format.fields := by
  intro field hfield
  apply hwellFormed.fields_in_format
  unfold fieldsRead
  rw [List.mem_append, List.mem_append]
  exact .inl (.inl hfield)

theorem WellFormed.alias_mem_fields (hwellFormed : instruction.WellFormed) {shown : Alias}
    (hshown : shown ∈ instruction.aliases) :
    ∀ field ∈ shown.fieldsRead, field ∈ instruction.format.fields := by
  intro field hfield
  apply hwellFormed.fields_in_format
  unfold fieldsRead
  rw [List.mem_append]
  exact .inr (List.mem_flatMap.2 ⟨shown, hshown, hfield⟩)

/-- Key, constraints and operands do not get in each other's way, and ask for values that fit. -/
@[mk_iff]
structure Separate (instruction : Instruction) : Prop where
  key_fits : ∀ part ∈ instruction.key.parts, ∀ entry ∈ instruction.format.fieldWidths,
    entry.1 = part.1 → part.2 < 2 ^ entry.2
  expected_fits : ∀ constraint ∈ instruction.constraints, ∀ entry ∈ instruction.format.fieldWidths,
    entry.1 = constraint.field → constraint.expected < 2 ^ entry.2
  constrained_once : (instruction.constraints.map Constraint.field).Nodup
  constrained_not_key : ∀ constraint ∈ instruction.constraints,
    constraint.field ∉ instruction.key.fields
  constrained_not_shown : ∀ constraint ∈ instruction.constraints,
    constraint.field ∉ instruction.pattern.fields
  shown_not_key : ∀ field ∈ instruction.pattern.fields, field ∉ instruction.key.fields

instance (instruction : Instruction) : Decidable instruction.Separate :=
  decidable_of_iff _ (separate_iff instruction).symm

end Instruction

end Mips32
