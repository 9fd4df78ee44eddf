import Mips32.InstructionSet.Release2
import Mips32.Proofs.Basic
import Mips32.Proofs.Decoding
import Mips32.Proofs.Instruction
import Mips32.Proofs.InstructionSet

/-!
This module contains `InstructionSet.decode?`, a decoder that fails as soon as it reads a field that the
format of the word lacks, and the verification that it never fails. So no decoding rests on what is put in
the place of a missing field: a constraint that counts as kept, a condition that counts as not met, or an
operand that counts as zero.
-/

namespace Mips32

namespace Fields

def key? (fields : Fields) : Option Key := do
  let opcode ← fields.get? .opcode
  let parts ← (fields.format.keyFields opcode).mapM fun field => do
    return (field, ← fields.get? field)
  Key.ofParts? parts

def violations? (fields : Fields) (constraints : List Constraint) : Option (List Violation) := do
  let found ← constraints.mapM fun constraint => do
    return Violation.mk constraint (← fields.get? constraint.field)
  return found.filter fun violation => violation.actual ≠ violation.constraint.expected

end Fields

def Constraint.holds? (constraint : Constraint) (fields : Fields) : Option Bool := do
  return (← fields.get? constraint.field) == constraint.expected

def Alias.applies? (shown : Alias) (fields : Fields) : Option Bool := do
  return (← shown.conditions.mapM (·.holds? fields)).all id

def Operand.render? (operand : Operand) (fields : Fields) : Option String :=
  (fields.get? operand.field).map operand.kind.text

namespace Pattern

def operands? (pattern : Pattern) (fields : Fields) : Option (List String) :=
  match pattern with
  | .bare => some []
  | .list operands => operands.mapM (·.render? fields)
  | .address register offset base => do
    let register ← Operand.render? ⟨.gpr, register⟩ fields
    let offset ← Operand.render? ⟨.immediate, offset⟩ fields
    let base ← Operand.render? ⟨.gpr, base⟩ fields
    return [register, offset ++ "(" ++ base ++ ")"]

def mnemonic? (pattern : Pattern) (name : String) (fields : Fields) : Option Mnemonic := do
  return ⟨name, ← pattern.operands? fields⟩

end Pattern

def Instruction.render? (instruction : Instruction) (fields : Fields) : Option Mnemonic := do
  match ← instruction.aliases.findM? (·.applies? fields) with
  | some shown => shown.pattern.mnemonic? shown.name fields
  | none => instruction.pattern.mnemonic? instruction.name fields

def InstructionSet.decode? (set : InstructionSet) (word : Word) : Option Decoding :=
  match Format.ofWord? word with
  | none => some (.unknown (.format word))
  | some format => do
    let fields : Fields := ⟨word, format⟩
    match set.find? (← fields.key?) with
    | none => return .unknown (.instruction fields)
    | some instruction =>
      match ← fields.violations? instruction.constraints with
      | [] => return .legal ⟨fields, ← instruction.render? fields⟩
      | violations =>
        return .illegal ⟨fields, ← instruction.pattern.mnemonic? instruction.name fields⟩ violations

/-- All that checking a word and showing it as an instruction reads is there to be read. -/
structure Fields.Supply (fields : Fields) (instruction : Instruction) : Prop where
  opcode_eq : fields.get? .opcode = some fields.opcode
  key_eq : fields.key? = some fields.key
  present : ∀ field ∈ instruction.fieldsRead, ∃ value, fields.get? field = some value
  violations_eq : fields.violations? instruction.constraints = some (instruction.violations fields)
  broken_eq : (instruction.violations fields).map Violation.constraint
    = instruction.constraints.filter fun constraint => !constraint.holds fields
  applies_eq : ∀ shown ∈ instruction.aliases, shown.applies? fields = some (shown.applies fields)
  operands_eq : ∀ pattern ∈ instruction.pattern :: instruction.aliases.map Alias.pattern,
    pattern.operands? fields = some (pattern.operands fields)

namespace Fields

variable {fields : Fields}

theorem key?_eq_some (fields : Fields) : fields.key? = some fields.key := by
  have hparts : ((fields.format.keyFields fields.opcode).mapM fun field => do
      return (field, ← fields.get? field)) = some fields.key.parts := by
    rw [parts_key]
    apply List.mapM_eq_some_map
    intro field hfield
    rw [get?_eq_value (Format.mem_fields_of_mem_keyFields hfield)]
    rfl
  unfold key?
  rw [get?_opcode, Option.bind_eq_bind, Option.bind_some, hparts]
  exact dif_pos fields.key.length_le

theorem violations?_eq_some {constraints : List Constraint}
    (h : ∀ constraint ∈ constraints, constraint.field ∈ fields.format.fields) :
    fields.violations? constraints = some (fields.violations constraints) := by
  have hfound : (constraints.mapM fun constraint => do
        return Violation.mk constraint (← fields.get? constraint.field))
      = some (constraints.map fun constraint => ⟨constraint, fields.value constraint.field⟩) := by
    apply List.mapM_eq_some_map
    intro constraint hconstraint
    rw [get?_eq_value (h constraint hconstraint)]
    rfl
  unfold violations?
  rw [hfound, violations_eq_map h, Option.bind_eq_bind, Option.bind_some, List.filter_map]
  congr 2
  apply List.filter_congr
  intro constraint hconstraint
  simp [get?_eq_some_iff (h constraint hconstraint)]

end Fields

theorem Constraint.holds?_eq_some {constraint : Constraint} {fields : Fields}
    (h : constraint.field ∈ fields.format.fields) :
    constraint.holds? fields = some (constraint.holds fields) := by
  unfold holds? holds
  rw [Fields.get?_eq_value h]
  rfl

theorem Alias.applies?_eq_some {shown : Alias} {fields : Fields}
    (h : ∀ condition ∈ shown.conditions, condition.field ∈ fields.format.fields) :
    shown.applies? fields = some (shown.applies fields) := by
  have hholds : shown.conditions.mapM (·.holds? fields)
      = some (shown.conditions.map (·.holds fields)) :=
    List.mapM_eq_some_map fun condition hcondition => Constraint.holds?_eq_some (h condition hcondition)
  unfold applies? applies
  rw [hholds]
  simp

theorem Operand.render?_eq_some (operand : Operand) {fields : Fields}
    (h : operand.field ∈ fields.format.fields) :
    operand.render? fields = some (operand.render fields) := by
  unfold render? render
  rw [Fields.get?_eq_value h]
  rfl

namespace Pattern

variable {pattern : Pattern} {fields : Fields}

theorem operands?_eq_some (h : ∀ field ∈ pattern.fields, field ∈ fields.format.fields) :
    pattern.operands? fields = some (pattern.operands fields) := by
  cases pattern with
  | bare => rfl
  | list operands =>
    apply List.mapM_eq_some_map
    intro operand hoperand
    exact operand.render?_eq_some (h operand.field (List.mem_map_of_mem hoperand))
  | address register offset base =>
    simp only [Pattern.fields, List.forall_mem_cons] at h
    unfold operands? operands
    dsimp only
    rw [Operand.render?_eq_some ⟨.gpr, register⟩ h.1, Operand.render?_eq_some ⟨.gpr, base⟩ h.2.2.1]
    rw [Operand.render?_eq_some ⟨.immediate, offset⟩ h.2.1]
    rfl

theorem mnemonic?_eq_some (h : ∀ field ∈ pattern.fields, field ∈ fields.format.fields)
    (name : String) : pattern.mnemonic? name fields = some (pattern.mnemonic name fields) := by
  unfold mnemonic?
  rw [operands?_eq_some h]
  rfl

end Pattern

namespace Instruction

variable {instruction : Instruction}

theorem WellFormed.applies?_eq_some (hwellFormed : instruction.WellFormed) {shown : Alias}
    (hshown : shown ∈ instruction.aliases) (word : Word) :
    shown.applies? ⟨word, instruction.format⟩ = some (shown.applies ⟨word, instruction.format⟩) := by
  apply Alias.applies?_eq_some
  intro condition hcondition
  apply hwellFormed.alias_mem_fields hshown
  exact List.mem_append_right _ (List.mem_map_of_mem hcondition)

theorem WellFormed.pattern_mem_fields (hwellFormed : instruction.WellFormed) {pattern : Pattern}
    (hpattern : pattern ∈ instruction.pattern :: instruction.aliases.map Alias.pattern) :
    ∀ field ∈ pattern.fields, field ∈ instruction.format.fields := by
  rcases List.mem_cons.1 hpattern with rfl | halias
  . exact hwellFormed.shown_mem_fields
  . obtain ⟨shown, hshown, rfl⟩ := List.mem_map.1 halias
    intro field hfield
    exact hwellFormed.alias_mem_fields hshown field (List.mem_append_left _ hfield)

theorem WellFormed.render?_eq_some (hwellFormed : instruction.WellFormed) (word : Word) :
    instruction.render? ⟨word, instruction.format⟩
      =
    some (instruction.render ⟨word, instruction.format⟩) := by
  have hfind : instruction.aliases.findM? (·.applies? ⟨word, instruction.format⟩)
      = some (instruction.aliases.find? (·.applies ⟨word, instruction.format⟩)) :=
    List.findM?_eq_some_find? fun _ hshown => hwellFormed.applies?_eq_some hshown word
  unfold render? render
  rw [hfind, Option.bind_eq_bind, Option.bind_some]
  cases hshown : instruction.aliases.find? (·.applies ⟨word, instruction.format⟩) with
  | none =>
    exact Pattern.mnemonic?_eq_some (hwellFormed.pattern_mem_fields List.mem_cons_self) _
  | some shown =>
    have hpattern := List.mem_map_of_mem (f := Alias.pattern) (List.mem_of_find?_eq_some hshown)
    apply Pattern.mnemonic?_eq_some
    exact hwellFormed.pattern_mem_fields (List.mem_cons_of_mem _ hpattern)

theorem WellFormed.supply (hwellFormed : instruction.WellFormed) (word : Word) :
    Fields.Supply ⟨word, instruction.format⟩ instruction := by
  constructor
  . apply Fields.get?_opcode
  . apply Fields.key?_eq_some
  . intro field hfield
    exact ⟨_, Fields.get?_eq_value (hwellFormed.fields_in_format field hfield)⟩
  . exact Fields.violations?_eq_some hwellFormed.constraint_mem_fields
  . have hbreaks : Fields.Breaks ⟨word, instruction.format⟩ instruction.constraints
        (instruction.violations ⟨word, instruction.format⟩) :=
      (Fields.breaks_iff hwellFormed.constraint_mem_fields).2 rfl
    rw [hbreaks.constraints_eq]
    apply List.filter_congr
    intro constraint _
    simp [← Constraint.holds_iff]
  . intro shown hshown
    exact hwellFormed.applies?_eq_some hshown word
  . intro pattern hpattern
    exact Pattern.operands?_eq_some (hwellFormed.pattern_mem_fields hpattern)

end Instruction

namespace InstructionSet

variable {set : InstructionSet} {word : Word} {instruction : Instruction}

theorem decode?_eq_some (set : InstructionSet) (word : Word) :
    set.decode? word = some (set.decode word) := by
  unfold decode?
  cases hformat : Format.ofWord? word with
  | none =>
    rw [decode_of_ofWord?_eq_none hformat]
  | some format =>
    dsimp only
    rw [Fields.key?_eq_some, Option.bind_eq_bind, Option.bind_some, ← identify?_eq_find? hformat]
    cases hidentify : set.identify? word with
    | none =>
      rw [decode_of_identify?_eq_none hformat hidentify]
      rfl
    | some instruction =>
      have hwellFormed := wellFormed_of_identify? hidentify
      obtain rfl := format_eq_of_identify? hformat hidentify
      have hviolations : Fields.violations? ⟨word, instruction.format⟩ instruction.constraints
          = some (instruction.violations ⟨word, instruction.format⟩) :=
        Fields.violations?_eq_some hwellFormed.constraint_mem_fields
      rw [decode_of_identify? hidentify]
      dsimp only
      rw [hviolations, Option.bind_eq_bind, Option.bind_some]
      cases instruction.violations ⟨word, instruction.format⟩ with
      | nil =>
        dsimp only
        rw [hwellFormed.render?_eq_some]
        rfl
      | cons violation rest =>
        dsimp only
        rw [Pattern.mnemonic?_eq_some hwellFormed.shown_mem_fields]
        rfl

/--
Where a set that was built finds an instruction by the key of a word, the instruction has the format of the
word. So nothing that is read of the word is missing, and the constraints that are reported are just those
that do not hold.
-/
theorem supply_of_build {instructions : List Instruction} (hbuild : build instructions = .ok set)
    {format : Format} (hformat : Format.ofWord? word = some format)
    (hfind : set.find? (Fields.key ⟨word, format⟩) = some instruction) :
    instruction ∈ instructions
      ∧ instruction.format = format
      ∧ Fields.Supply ⟨word, format⟩ instruction
      ∧ ((∃ disassembly, set.decode word = .legal disassembly) ↔
          ∀ constraint ∈ instruction.constraints, constraint.holds ⟨word, format⟩ = true)
      ∧ set.decode? word = some (set.decode word) := by
  have hidentify : set.identify? word = some instruction := by
    rw [identify?_eq_find? hformat, hfind]
  have hmem := mem_of_identify? hidentify
  have hwellFormed := wellFormed_of_identify? hidentify
  obtain rfl := format_eq_of_identify? hformat hidentify
  rw [build_eq_ok_iff] at hbuild
  subst hbuild
  refine ⟨hmem, rfl, hwellFormed.supply word, ?_, set.decode?_eq_some word⟩
  rw [exists_decode_eq_legal_iff hidentify, Instruction.violations]
  rw [Fields.violations_eq_nil_iff hwellFormed.constraint_mem_fields]
  -- a constraint whose field is missing would neither hold nor be violated
  apply forall₂_congr
  intro constraint hconstraint
  rw [Constraint.holds_iff_value (hwellFormed.constraint_mem_fields constraint hconstraint)]

/-- A multiplication with two reserved fields that are not zero, as they should be. -/
theorem supply_of_build_mult :
    let mult := Release2.special "mult" 0x18 Release2.rsRt [.rd, .shamt]
    build Release2.rows = .ok release2
      ∧ Format.ofWord? 0x01091958#32 = some .register
      ∧ release2.find? (Fields.key ⟨0x01091958#32, .register⟩) = some mult
      ∧ Fields.Supply ⟨0x01091958#32, .register⟩ mult := by
  have hbuild : build Release2.rows = .ok release2 := build_eq_ok_iff.2 rfl
  have hfind : release2.find? (Fields.key ⟨0x01091958#32, .register⟩)
      = some (Release2.special "mult" 0x18 Release2.rsRt [.rd, .shamt]) :=
    find?_eq_some_iff.2 ⟨by decide +kernel, by decide⟩
  obtain ⟨_, _, hsupply, _⟩ := supply_of_build hbuild rfl hfind
  exact ⟨hbuild, rfl, hfind, hsupply⟩

end InstructionSet

end Mips32
