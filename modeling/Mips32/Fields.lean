import Mips32.Format

/-!
This module contains `Fields`, a word read under a format, and constraints: values that an encoding fixes in
some fields although they do not identify the instruction, such as the reserved fields that have to be zero.
-/

namespace Mips32

/-- A word read under a format, which need not be the one that its opcode calls for. -/
structure Fields where
  word : Word
  format : Format
  deriving DecidableEq

namespace Fields

def values (fields : Fields) : List Nat :=
  fields.format.layout.split fields.word

theorem length_values (fields : Fields) : fields.values.length = fields.format.fields.length := by
  simp [values, Layout.length_split, Format.length_fields, Format.layout]

def get? (fields : Fields) (field : Field) : Option Nat := do
  fields.values[← fields.format.position? field]?

theorem isSome_get?_iff {fields : Fields} {field : Field} :
    (fields.get? field).isSome ↔ field ∈ fields.format.fields := by
  have hlength := fields.length_values
  unfold get? Format.position?
  cases h : fields.format.fields.idxOf? field with
  | none => simpa using h
  | some index =>
    obtain ⟨hindex, hfield, _⟩ := List.findIdx?_eq_some_iff_getElem.1 h
    simp only [beq_iff_eq] at hfield
    simp [← hfield, hlength, hindex]

def opcode (fields : Fields) : Nat :=
  fields.word.opcode

theorem get?_opcode (fields : Fields) : fields.get? .opcode = some fields.opcode := by
  obtain ⟨word, format⟩ := fields
  cases format <;> rfl

def bracketed (numeral : Nat → String) (values : List Nat) : String :=
  "[" ++ " ".intercalate (values.map numeral) ++ "]"

def decimalText (fields : Fields) : String :=
  bracketed Numeral.decimal fields.values

/-- A value as the hexadecimal list shows it: a single decimal digit stands without a mark. -/
def hexNumeral (value : Nat) : String :=
  if value ≤ 9 then Numeral.decimal value else Numeral.hex value

def hexText (fields : Fields) : String :=
  bracketed hexNumeral fields.values

end Fields

structure Constraint where
  field : Field
  expected : Nat
  deriving DecidableEq

namespace Constraint

def zero (field : Field) : Constraint where
  field := field
  expected := 0

def text (constraint : Constraint) : String :=
  constraint.field.name ++ " == " ++ Numeral.decimal constraint.expected

/-- Whether a word meets a constraint. A field that the format lacks does not. -/
def holds (constraint : Constraint) (fields : Fields) : Bool :=
  fields.get? constraint.field == some constraint.expected

end Constraint

structure Violation where
  constraint : Constraint
  actual : Nat
  deriving DecidableEq

namespace Violation

/-- A violation, for instance `rs == 0 (found 3)`. -/
def text (violation : Violation) : String :=
  violation.constraint.text ++ " (found " ++ Numeral.decimal violation.actual ++ ")"

def listText (violations : List Violation) : String :=
  ", ".intercalate (violations.map text)

end Violation

/-- How a word breaks a constraint. A constraint on a field that the format lacks is not broken. -/
def Constraint.violation? (constraint : Constraint) (fields : Fields) : Option Violation := do
  let actual ← fields.get? constraint.field
  if actual = constraint.expected then none else some ⟨constraint, actual⟩

def Fields.violations (fields : Fields) (constraints : List Constraint) : List Violation :=
  constraints.filterMap (·.violation? fields)

end Mips32
