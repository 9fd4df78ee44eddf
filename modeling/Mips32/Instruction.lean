import Mips32.Key
import Mips32.Mnemonic

/-!
This module contains instructions: the key that identifies one, the constraints on its words, and the
assembly text it is shown as. Under some conditions a word is shown by an alias instead. An instruction with
a defect is kept out of instruction sets; the check reports the first defect of an instruction, and finds none
exactly if the instruction is well formed.
-/

namespace Mips32

structure Alias where
  name : String
  conditions : List Constraint
  pattern : Pattern
  deriving DecidableEq

def Alias.applies (shown : Alias) (fields : Fields) : Bool :=
  shown.conditions.all (·.holds fields)

def Alias.fieldsRead (shown : Alias) : List Field :=
  shown.pattern.fields ++ shown.conditions.map Constraint.field

structure Instruction where
  name : String
  format : Format
  key : Key
  pattern : Pattern
  constraints : List Constraint
  aliases : List Alias
  deriving DecidableEq

namespace Instruction

def canonical (instruction : Instruction) (fields : Fields) : Mnemonic :=
  instruction.pattern.mnemonic instruction.name fields

def render (instruction : Instruction) (fields : Fields) : Mnemonic :=
  match instruction.aliases.find? (·.applies fields) with
  | some shown => shown.pattern.mnemonic shown.name fields
  | none => instruction.canonical fields

def violations (instruction : Instruction) (fields : Fields) : List Violation :=
  fields.violations instruction.constraints

def fieldsRead (instruction : Instruction) : List Field :=
  instruction.pattern.fields ++ instruction.constraints.map Constraint.field
    ++ instruction.aliases.flatMap Alias.fieldsRead

/--
An instruction is well formed if its opcode calls for its format, its key names the fields that tell the
instructions of this format apart, and nothing reads a field that the format lacks.
-/
structure WellFormed (instruction : Instruction) : Prop where
  key_follows_format : ∃ opcode, instruction.key.get? .opcode = some opcode
    ∧ Format.ofOpcode? opcode = some instruction.format
    ∧ instruction.key.fields = instruction.format.keyFields opcode
  fields_in_format : ∀ field ∈ instruction.fieldsRead, field ∈ instruction.format.fields

end Instruction

inductive Defect
  | layout (owner : Format) (widths : List Nat)
  | format (name : String) (declared : Format) (opcode : Nat) (resolved : Option Format)
  | key (name : String) (given : Key)
  | field (name : String) (missing : Field) (owner : Format)
  | duplicate (first second : String) (shared : Key)
  deriving DecidableEq

namespace Defect

def message : Defect → String
  | .layout owner widths =>
    "format " ++ owner.letter ++ " layout " ++ Layout.widthsText widths ++ " does not cover 32 bits"
  | .format name declared opcode resolved =>
    name ++ ": declared format " ++ declared.letter ++ " but opcode " ++ Numeral.hex opcode
      ++ match resolved with
        | some resolved => " is format " ++ resolved.letter
        | none => " has no format"
  | .key name given =>
    name ++ ": key (" ++ given.text ++ ") does not follow its format's key scheme"
  | .field name missing owner =>
    name ++ ": field " ++ missing.name ++ " is not part of format " ++ owner.letter
  | .duplicate first second shared =>
    first ++ " and " ++ second ++ " share the key (" ++ shared.text ++ ")"

end Defect

def Format.defect? (format : Format) : Option Defect :=
  if Layout.fills 32 format.widths then none else some (.layout format format.widths)

theorem Format.defect?_eq_none (format : Format) : format.defect? = none := by
  simp [defect?, fills_widths]

namespace Instruction

def defect? (instruction : Instruction) : Option Defect :=
  match instruction.key.get? .opcode with
  | none => some (.key instruction.name instruction.key)
  | some opcode =>
    if Format.ofOpcode? opcode ≠ some instruction.format then
      some (.format instruction.name instruction.format opcode (Format.ofOpcode? opcode))
    else if instruction.key.fields ≠ instruction.format.keyFields opcode then
      some (.key instruction.name instruction.key)
    else
      (instruction.fieldsRead.find? (· ∉ instruction.format.fields)).map
        (.field instruction.name · instruction.format)

theorem defect?_eq_none_iff {instruction : Instruction} :
    instruction.defect? = none ↔ instruction.WellFormed := by
  unfold defect?
  constructor
  . intro h
    split at h
    . contradiction
    . rename_i opcode hopcode
      split at h
      . contradiction
      . rename_i hformat
        split at h
        . contradiction
        . rename_i hfields
          refine ⟨⟨opcode, hopcode, by simpa using hformat, by simpa using hfields⟩, ?_⟩
          simpa using h
  . rintro ⟨⟨opcode, hopcode, hformat, hfields⟩, hread⟩
    simpa [hopcode, hformat, hfields] using hread

instance (instruction : Instruction) : Decidable instruction.WellFormed :=
  decidable_of_iff _ defect?_eq_none_iff

end Instruction

end Mips32
