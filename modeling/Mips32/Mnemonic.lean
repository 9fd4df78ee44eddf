import Mips32.Fields

/-!
This module contains assembly text: the conventional names of the registers, how a field is written as an operand,
which operands an instruction has, and how a name and its operands make a line of assembly.
-/

namespace Mips32

namespace Register

def names : List String :=
  ["$zero", "$at", "$v0", "$v1", "$a0", "$a1", "$a2", "$a3",
   "$t0", "$t1", "$t2", "$t3", "$t4", "$t5", "$t6", "$t7",
   "$s0", "$s1", "$s2", "$s3", "$s4", "$s5", "$s6", "$s7",
   "$t8", "$t9", "$k0", "$k1", "$gp", "$sp", "$fp", "$ra"]

def name? (index : Nat) : Option String :=
  names[index]?

def text (index : Nat) : String :=
  (name? index).getD (Numeral.decimal index)

end Register

def signedHalfword (value : Nat) : Int :=
  (BitVec.ofNat 16 value).toInt

inductive Operand.Kind
  | gpr
  | cop0
  | fpr
  | immediate
  | label
  | amount
  | target
  deriving DecidableEq

def Operand.Kind.text : Operand.Kind → Nat → String
  | .gpr, value => Register.text value
  | .cop0, value => "$" ++ Numeral.decimal value
  | .fpr, value => "$f" ++ Numeral.decimal value
  | .immediate, value => Numeral.signed (signedHalfword value)
  | .label, value => Numeral.signed (signedHalfword value)
  | .amount, value => Numeral.decimal value
  | .target, value => Numeral.hex value

structure Operand where
  kind : Operand.Kind
  field : Field
  deriving DecidableEq

/-- The text of an operand of a word. A field that the format lacks counts as zero. -/
def Operand.render (operand : Operand) (fields : Fields) : String :=
  operand.kind.text ((fields.get? operand.field).getD 0)

structure Mnemonic where
  name : String
  operands : List String
  deriving DecidableEq

def Mnemonic.text (mnemonic : Mnemonic) : String :=
  match mnemonic.operands with
  | [] => mnemonic.name
  | operands => mnemonic.name ++ " " ++ ", ".intercalate operands

inductive Pattern
  | bare
  | list (operands : List Operand)
  | address (register offset base : Field)
  deriving DecidableEq

namespace Pattern

def fields : Pattern → List Field
  | .bare => []
  | .list operands => operands.map Operand.field
  | .address register offset base => [register, offset, base]

def operands (pattern : Pattern) (fields : Fields) : List String :=
  match pattern with
  | .bare => []
  | .list operands => operands.map (·.render fields)
  | .address register offset base =>
    [Operand.render ⟨.gpr, register⟩ fields,
     Operand.render ⟨.immediate, offset⟩ fields ++ "(" ++ Operand.render ⟨.gpr, base⟩ fields ++ ")"]

def mnemonic (pattern : Pattern) (name : String) (fields : Fields) : Mnemonic where
  name := name
  operands := pattern.operands fields

end Pattern

end Mips32
