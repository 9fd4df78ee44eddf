import Mips32.Layout

/-!
This module contains the three instruction formats: which fields a format has, how wide they are, and
which format an opcode calls for.
-/

namespace Mips32

inductive Field
  | opcode
  | rs
  | rt
  | rd
  | shamt
  | funct
  | imm
  | target
  deriving DecidableEq

namespace Field

def name : Field → String
  | .opcode => "opcode"
  | .rs => "rs"
  | .rt => "rt"
  | .rd => "rd"
  | .shamt => "shamt"
  | .funct => "funct"
  | .imm => "imm"
  | .target => "target"

def all : List Field :=
  [opcode, rs, rt, rd, shamt, funct, imm, target]

end Field

def Word.opcode (word : Word) : Nat :=
  word.slice 26 6

inductive Format
  | register
  | immediate
  | jump
  deriving DecidableEq

namespace Format

def all : List Format :=
  [register, immediate, jump]

def letter : Format → String
  | .register => "R"
  | .immediate => "I"
  | .jump => "J"

/-- The fields of a format with their widths, the most significant field first. -/
def fieldWidths : Format → List (Field × Nat)
  | .register => [(.opcode, 6), (.rs, 5), (.rt, 5), (.rd, 5), (.shamt, 5), (.funct, 6)]
  | .immediate => [(.opcode, 6), (.rs, 5), (.rt, 5), (.imm, 16)]
  | .jump => [(.opcode, 6), (.target, 26)]

def fields (format : Format) : List Field :=
  format.fieldWidths.map Prod.fst

def widths (format : Format) : List Nat :=
  format.fieldWidths.map Prod.snd

theorem length_fields (format : Format) : format.fields.length = format.widths.length := by
  simp [fields, widths]

theorem fills_widths (format : Format) : Layout.fills 32 format.widths = true := by
  cases format <;> rfl

def layout (format : Format) : Layout where
  widths := format.widths
  fills_word := format.fills_widths

def position? (format : Format) (field : Field) : Option Nat :=
  format.fields.idxOf? field

/--
The word of a format whose fields hold the given values, each cut to the width of its field.
-/
def assemble (format : Format) (value : Field → Nat) : Word :=
  format.layout.join (format.fields.map value)

def ofOpcode? (opcode : Nat) : Option Format :=
  if opcode ∈ [0x00, 0x10, 0x11, 0x1c] then some register
  else if opcode ∈ [0x02, 0x03] then some jump
  else if opcode ∈ [0x01, 0x04, 0x05, 0x06, 0x07, 0x08, 0x09, 0x0a, 0x0b, 0x0c, 0x0d, 0x0e, 0x0f,
      0x20, 0x21, 0x22, 0x23, 0x24, 0x25, 0x26, 0x28, 0x29, 0x2a, 0x2b, 0x2e, 0x30, 0x38] then
    some immediate
  else none

def ofWord? (word : Word) : Option Format :=
  ofOpcode? word.opcode

end Format

end Mips32
