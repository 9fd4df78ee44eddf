import Mips32.InstructionSet

/-!
This module contains `InstructionSet.decode`, which finds out what instruction a word is. Decoding is
total: a word that is no instruction has a decoding that says so.
-/

namespace Mips32

structure Disassembly where
  fields : Fields
  mnemonic : Mnemonic
  deriving DecidableEq

def Disassembly.text (disassembly : Disassembly) : String :=
  " ".intercalate
    [Numeral.hex8 disassembly.fields.word.toNat, disassembly.fields.format.letter,
     disassembly.fields.decimalText, disassembly.fields.hexText, disassembly.mnemonic.text]

inductive Unknown
  | format (word : Word)
  | instruction (fields : Fields)
  deriving DecidableEq

namespace Unknown

def word : Unknown → Word
  | .format word => word
  | .instruction fields => fields.word

def fields? : Unknown → Option Fields
  | .format _ => none
  | .instruction fields => some fields

def reason : Unknown → String
  | .format word => "no format matches opcode=" ++ Numeral.hex word.opcode
  | .instruction fields => "no instruction matches " ++ fields.key.text

def text (unknown : Unknown) : String :=
  "unknown instruction: " ++ unknown.reason

end Unknown

inductive Decoding
  | legal (disassembly : Disassembly)
  | illegal (disassembly : Disassembly) (violations : List Violation)
  | unknown (cause : Unknown)
  deriving DecidableEq

namespace Decoding

def word : Decoding → Word
  | .legal disassembly => disassembly.fields.word
  | .illegal disassembly _ => disassembly.fields.word
  | .unknown cause => cause.word

def fields? : Decoding → Option Fields
  | .legal disassembly => some disassembly.fields
  | .illegal disassembly _ => some disassembly.fields
  | .unknown cause => cause.fields?

def disassembly? : Decoding → Option Disassembly
  | .legal disassembly => some disassembly
  | .illegal disassembly _ => some disassembly
  | .unknown _ => none

def violations : Decoding → List Violation
  | .legal _ => []
  | .illegal _ violations => violations
  | .unknown _ => []

def text : Decoding → String
  | .legal disassembly => disassembly.text
  | .illegal disassembly violations =>
    disassembly.text ++ " violations: " ++ Violation.listText violations
  | .unknown cause => cause.text

def event? : Decoding → Option Event
  | .legal _ => none
  | .illegal disassembly violations => some {
      level := .debug
      message := "validation failed"
      fields :=
        [wordField disassembly.fields.word, ("instruction", disassembly.mnemonic.name),
         ("violations", Numeral.decimal violations.length)]
    }
  | .unknown (.format word) => some {
      level := .trace
      message := "unknown format"
      fields := [wordField word, ("opcode", Numeral.decimal word.opcode)]
    }
  | .unknown (.instruction fields) => some {
      level := .trace
      message := "no matching instruction"
      fields := [wordField fields.word, ("key", fields.key.text)]
    }
where
  wordField (word : Word) : String × String :=
    ("word", "0x" ++ Numeral.hex8 word.toNat)

end Decoding

namespace InstructionSet

/--
Find out what instruction a word is. The opcode selects the format, the key selects the instruction, and
the constraints tell whether the word is legal. An alias is shown for legal words only.
-/
def decode (set : InstructionSet) (word : Word) : Decoding :=
  match Format.ofWord? word with
  | none => .unknown (.format word)
  | some format =>
    let fields : Fields := ⟨word, format⟩
    match set.find? fields.key with
    | none => .unknown (.instruction fields)
    | some instruction =>
      match instruction.violations fields with
      | [] => .legal ⟨fields, instruction.render fields⟩
      | violations => .illegal ⟨fields, instruction.canonical fields⟩ violations

end InstructionSet

end Mips32
