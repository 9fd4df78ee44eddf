import Mathlib.Algebra.GroupWithZero.Nat
import Mathlib.Algebra.Ring.Int.Defs
import Mips32.Layout

/-!
This module contains the grammar of the numbers that words are written as. It tells what number a text stands
for, whatever the size of that number, and says nothing about how the text is read.
-/

namespace Mips32

namespace Numeral

/-- A character is the digit of `base` with the given value. Letters count in either case. -/
def IsDigit (base : Nat) (c : Char) (digit : Nat) : Prop :=
  digit < base ∧ (c = digit.digitChar ∨ c = digit.digitChar.toUpper)

/-- A text is made up of one or more digits of `base`, and this is their value. -/
inductive Spells (base : Nat) : List Char → Nat → Prop
  | last {c : Char} {digit : Nat} (h : IsDigit base c digit) : Spells base [c] digit
  | cons {c : Char} {digit n : Nat} {rest : List Char} (h : IsDigit base c digit)
      (hrest : Spells base rest n) : Spells base (c :: rest) (digit * base ^ rest.length + n)

inductive SpellsUnsigned (base : Nat) : List Char → Nat → Prop
  | bare {text : List Char} {n : Nat} (h : Spells base text n) : SpellsUnsigned base text n
  | plus {text : List Char} {n : Nat} (h : Spells base text n) : SpellsUnsigned base ('+' :: text) n

end Numeral

namespace Word

/-- A text is a number in hexadecimal behind a mark, in decimal, or in decimal behind a minus sign. -/
inductive Literal : List Char → Int → Prop
  | hex {mark : Char} {text : List Char} {n : Nat} (hmark : mark = 'x' ∨ mark = 'X')
      (h : Numeral.SpellsUnsigned 16 text n) : Literal ('0' :: mark :: text) n
  | decimal {text : List Char} {n : Nat} (h : Numeral.SpellsUnsigned 10 text n) : Literal text n
  | negative {text : List Char} {n : Nat} (h : Numeral.Spells 10 text n) : Literal ('-' :: text) (-n)

/-- A number is the value of some word, with or without a sign. -/
def Fits (value : Int) : Prop :=
  -2 ^ 31 ≤ value ∧ value < 2 ^ 32

instance (value : Int) : Decidable (Fits value) :=
  inferInstanceAs (Decidable (_ ∧ _))

/--
The ways to write a word: in hexadecimal, in decimal, and in decimal as a signed number. Zeros may stand in
front of the digits.
-/
def spellings (word : Word) (zeros : Nat) : List String :=
  let padding := String.ofList (List.replicate zeros '0')
  ["0x" ++ padding ++ Numeral.digits 16 word.toNat,
   padding ++ Numeral.decimal word.toNat,
   (if word.toInt < 0 then "-" else "") ++ padding ++ Numeral.decimal word.toInt.natAbs]

/-- Some initial part of a text is a number that does not fit in a word. -/
def Overflows (text : List Char) : Prop :=
  ∃ head, head <+: text ∧ ∃ value, Literal head value ∧ ¬Fits value

end Word

end Mips32
