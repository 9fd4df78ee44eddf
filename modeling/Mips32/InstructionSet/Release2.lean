import Mips32.InstructionSet

/-!
This module contains the instruction set `InstructionSet.release2`, a subset of MIPS32 Release 2. The
rows are in the order in which listings of the set show them.
-/

namespace Mips32

namespace Release2

/-! The operands of the instructions, named in the order in which they are shown. -/

def rdRsRt : Pattern := .list [⟨.gpr, .rd⟩, ⟨.gpr, .rs⟩, ⟨.gpr, .rt⟩]

def rdRtRs : Pattern := .list [⟨.gpr, .rd⟩, ⟨.gpr, .rt⟩, ⟨.gpr, .rs⟩]

def rdRtShamt : Pattern := .list [⟨.gpr, .rd⟩, ⟨.gpr, .rt⟩, ⟨.amount, .shamt⟩]

def rdRs : Pattern := .list [⟨.gpr, .rd⟩, ⟨.gpr, .rs⟩]

def rsRt : Pattern := .list [⟨.gpr, .rs⟩, ⟨.gpr, .rt⟩]

def rdAlone : Pattern := .list [⟨.gpr, .rd⟩]

def rsAlone : Pattern := .list [⟨.gpr, .rs⟩]

def rtCop0 : Pattern := .list [⟨.gpr, .rt⟩, ⟨.cop0, .rd⟩]

def rtFpr : Pattern := .list [⟨.gpr, .rt⟩, ⟨.fpr, .rd⟩]

def rtRsImm : Pattern := .list [⟨.gpr, .rt⟩, ⟨.gpr, .rs⟩, ⟨.immediate, .imm⟩]

def rtImm : Pattern := .list [⟨.gpr, .rt⟩, ⟨.immediate, .imm⟩]

def rsImm : Pattern := .list [⟨.gpr, .rs⟩, ⟨.immediate, .imm⟩]

def rsRtLabel : Pattern := .list [⟨.gpr, .rs⟩, ⟨.gpr, .rt⟩, ⟨.label, .imm⟩]

def rsLabel : Pattern := .list [⟨.gpr, .rs⟩, ⟨.label, .imm⟩]

/-! Rows of the table. The reserved fields of a row have to be zero. -/

def function (name : String) (opcode funct : Nat) (pattern : Pattern) (reserved : List Field) :
    Instruction where
  name := name
  format := .register
  key := ⟨[(.opcode, opcode), (.funct, funct)], by exact Nat.le_of_ble_eq_true rfl⟩
  pattern := pattern
  constraints := reserved.map .zero
  aliases := []

def special (name : String) (funct : Nat) (pattern : Pattern) (reserved : List Field) : Instruction :=
  function name 0x00 funct pattern reserved

def special2 (name : String) (funct : Nat) (pattern : Pattern) (reserved : List Field) : Instruction :=
  function name 0x1c funct pattern reserved

/-- An instruction of a coprocessor, for which `rs` is part of the function code. -/
def coprocessor (name : String) (opcode rs funct : Nat) (pattern : Pattern) (reserved : List Field) :
    Instruction where
  name := name
  format := .register
  key := ⟨[(.opcode, opcode), (.rs, rs), (.funct, funct)], by exact Nat.le_of_ble_eq_true rfl⟩
  pattern := pattern
  constraints := reserved.map .zero
  aliases := []

/-- An instruction for which `rt` is the function code. -/
def registerImmediate (name : String) (rt : Nat) (pattern : Pattern) : Instruction where
  name := name
  format := .immediate
  key := ⟨[(.opcode, 0x01), (.rt, rt)], by exact Nat.le_of_ble_eq_true rfl⟩
  pattern := pattern
  constraints := []
  aliases := []

def immediate (name : String) (opcode : Nat) (pattern : Pattern) (reserved : List Field) :
    Instruction where
  name := name
  format := .immediate
  key := ⟨[(.opcode, opcode)], by exact Nat.le_of_ble_eq_true rfl⟩
  pattern := pattern
  constraints := reserved.map .zero
  aliases := []

def memory (name : String) (opcode : Nat) : Instruction :=
  immediate name opcode (.address .rt .imm .rs) []

def jump (name : String) (opcode : Nat) : Instruction where
  name := name
  format := .jump
  key := ⟨[(.opcode, opcode)], by exact Nat.le_of_ble_eq_true rfl⟩
  pattern := .list [⟨.target, .target⟩]
  constraints := []
  aliases := []

/-- The shift of `$zero` by nothing into `$zero` is the instruction that does nothing. -/
def nop : Alias where
  name := "nop"
  conditions := [.zero .rd, .zero .rt, .zero .shamt]
  pattern := .bare

def specials : List Instruction :=
  [{ special "sll" 0x00 rdRtShamt [.rs] with aliases := [nop] },
   special "srl" 0x02 rdRtShamt [.rs],
   special "sra" 0x03 rdRtShamt [.rs],
   special "sllv" 0x04 rdRtRs [.shamt],
   special "srlv" 0x06 rdRtRs [.shamt],
   special "srav" 0x07 rdRtRs [.shamt],
   special "jr" 0x08 rsAlone [.rt, .rd, .shamt],
   special "jalr" 0x09 rdRs [.rt, .shamt],
   special "movz" 0x0a rdRsRt [.shamt],
   special "movn" 0x0b rdRsRt [.shamt],
   special "syscall" 0x0c .bare [],
   special "break" 0x0d .bare [],
   special "mfhi" 0x10 rdAlone [.rs, .rt, .shamt],
   special "mthi" 0x11 rsAlone [.rt, .rd, .shamt],
   special "mflo" 0x12 rdAlone [.rs, .rt, .shamt],
   special "mtlo" 0x13 rsAlone [.rt, .rd, .shamt],
   special "mult" 0x18 rsRt [.rd, .shamt],
   special "multu" 0x19 rsRt [.rd, .shamt],
   special "div" 0x1a rsRt [.rd, .shamt],
   special "divu" 0x1b rsRt [.rd, .shamt],
   special "add" 0x20 rdRsRt [.shamt],
   special "addu" 0x21 rdRsRt [.shamt],
   special "sub" 0x22 rdRsRt [.shamt],
   special "subu" 0x23 rdRsRt [.shamt],
   special "and" 0x24 rdRsRt [.shamt],
   special "or" 0x25 rdRsRt [.shamt],
   special "xor" 0x26 rdRsRt [.shamt],
   special "nor" 0x27 rdRsRt [.shamt],
   special "slt" 0x2a rdRsRt [.shamt],
   special "sltu" 0x2b rdRsRt [.shamt],
   special "tge" 0x30 rsRt [],
   special "tgeu" 0x31 rsRt [],
   special "tlt" 0x32 rsRt [],
   special "tltu" 0x33 rsRt [],
   special "teq" 0x34 rsRt [],
   special "tne" 0x36 rsRt []]

def specials2 : List Instruction :=
  [special2 "madd" 0x00 rsRt [.rd, .shamt],
   special2 "maddu" 0x01 rsRt [.rd, .shamt],
   special2 "mul" 0x02 rdRsRt [.shamt],
   special2 "msub" 0x04 rsRt [.rd, .shamt],
   special2 "msubu" 0x05 rsRt [.rd, .shamt],
   special2 "clz" 0x20 rdRs [.shamt],
   special2 "clo" 0x21 rdRs [.shamt]]

def coprocessorMoves : List Instruction :=
  [coprocessor "mfc0" 0x10 0x00 0x00 rtCop0 [.shamt],
   coprocessor "mtc0" 0x10 0x04 0x00 rtCop0 [.shamt],
   coprocessor "eret" 0x10 0x10 0x18 .bare [.rt, .rd, .shamt],
   coprocessor "mfc1" 0x11 0x00 0x00 rtFpr [.shamt],
   coprocessor "mtc1" 0x11 0x04 0x00 rtFpr [.shamt]]

def registerImmediates : List Instruction :=
  [registerImmediate "bltz" 0x00 rsLabel,
   registerImmediate "bgez" 0x01 rsLabel,
   registerImmediate "tgei" 0x08 rsImm,
   registerImmediate "tgeiu" 0x09 rsImm,
   registerImmediate "tlti" 0x0a rsImm,
   registerImmediate "tltiu" 0x0b rsImm,
   registerImmediate "teqi" 0x0c rsImm,
   registerImmediate "tnei" 0x0e rsImm,
   registerImmediate "bltzal" 0x10 rsLabel,
   registerImmediate "bgezal" 0x11 rsLabel]

def immediates : List Instruction :=
  [immediate "beq" 0x04 rsRtLabel [],
   immediate "bne" 0x05 rsRtLabel [],
   immediate "blez" 0x06 rsLabel [.rt],
   immediate "bgtz" 0x07 rsLabel [.rt],
   immediate "addi" 0x08 rtRsImm [],
   immediate "addiu" 0x09 rtRsImm [],
   immediate "slti" 0x0a rtRsImm [],
   immediate "sltiu" 0x0b rtRsImm [],
   immediate "andi" 0x0c rtRsImm [],
   immediate "ori" 0x0d rtRsImm [],
   immediate "xori" 0x0e rtRsImm [],
   immediate "lui" 0x0f rtImm [.rs]]

def memoryAccesses : List Instruction :=
  [memory "lb" 0x20,
   memory "lh" 0x21,
   memory "lwl" 0x22,
   memory "lw" 0x23,
   memory "lbu" 0x24,
   memory "lhu" 0x25,
   memory "lwr" 0x26,
   memory "sb" 0x28,
   memory "sh" 0x29,
   memory "swl" 0x2a,
   memory "sw" 0x2b,
   memory "swr" 0x2e,
   memory "ll" 0x30,
   memory "sc" 0x38]

def jumps : List Instruction :=
  [jump "j" 0x02,
   jump "jal" 0x03]

def rows : List Instruction :=
  specials ++ specials2 ++ coprocessorMoves ++ registerImmediates ++ immediates ++ memoryAccesses ++ jumps

end Release2

def InstructionSet.release2 : InstructionSet where
  instructions := Release2.rows
  wellFormed := by decide +kernel
  distinct := by decide +kernel

end Mips32
