import Mips32.Layout
import Mips32.Text

/-!
This module contains `Word.read`, which reads a word from text. A word is written in hexadecimal after
the mark `0x`, in decimal, or as a negative decimal number that stands for its two's complement.
-/

namespace Mips32

namespace Word

inductive ReadError
  | empty
  | malformed (input : String)
  | outOfRange (input : String)
  deriving DecidableEq

def ReadError.message : ReadError → String
  | .empty => "empty instruction word"
  | .malformed input =>
    "not a decimal or 0x-prefixed hexadecimal number: " ++ Text.quote input
  | .outOfRange input => "does not fit in 32 bits: " ++ Text.quote input

def ReadError.ofFault (input : String) : Numeral.Fault → ReadError
  | .malformed => .malformed input
  | .tooLarge => .outOfRange input

/--
The number that the characters of a text stand for, reduced to a word. Without a sign a number may go up
to the largest word; behind a minus sign it may go up to the magnitude of the least signed word.
-/
def readNumber : List Char → Except Numeral.Fault Word
  | '0' :: 'x' :: rest => (Numeral.readUnsigned 16 0xffffffff rest).map (BitVec.ofNat 32)
  | '0' :: 'X' :: rest => (Numeral.readUnsigned 16 0xffffffff rest).map (BitVec.ofNat 32)
  | '-' :: rest => (Numeral.read 10 0x80000000 rest).map fun n => -BitVec.ofNat 32 n
  | text => (Numeral.readUnsigned 10 0xffffffff text).map (BitVec.ofNat 32)

def read (text : String) : Except ReadError Word :=
  let input := Text.trim text
  if input = "" then .error .empty
  else (readNumber input.toList).mapError (.ofFault input)

end Word

end Mips32
