import Mips32.Text.Unshown

/-!
This module contains what is done to texts: blanks are dropped from their ends, they are cut into lines, and
they are quoted, which shows any text in one line. In a quoted text the characters that would break the line, end
the quotation or be invisible are written as escapes.
-/

namespace Mips32

namespace Text

/-- Whether a character has the Unicode property `White_Space`. -/
def isBlank (c : Char) : Bool :=
  (0x09 ≤ c.toNat && c.toNat ≤ 0x0d) || (0x2000 ≤ c.toNat && c.toNat ≤ 0x200a)
    || [0x20, 0x85, 0xa0, 0x1680, 0x2028, 0x2029, 0x202f, 0x205f, 0x3000].contains c.toNat

def trimStart (text : List Char) : List Char :=
  text.dropWhile isBlank

def trim (text : String) : String :=
  String.ofList (trimStart (trimStart text.toList).reverse).reverse

def dropReturn (line : List Char) : List Char :=
  if line.getLast? = some '\r' then line.dropLast else line

/-- The lines of a text, behind the start of a line that is given apart. -/
def lines.go (line : List Char) : List Char → List String
  | [] => if line.isEmpty then [] else [String.ofList line]
  | c :: rest =>
    if c = '\n' then
      String.ofList (dropReturn line) :: go [] rest
    else
      go (line ++ [c]) rest

/--
The lines of a text without their line breaks. There is no line behind the last line feed unless it holds a
character, and what is behind it stays as it is, a carriage return too.
-/
def lines (text : String) : List String :=
  lines.go [] text.toList

def withReturns (text : String) : String :=
  String.ofList (text.toList.flatMap fun c => if c = '\n' then ['\r', '\n'] else [c])

def escape (c : Char) : List Char :=
  if c = '"' then ['\\', '"']
  else if c = '\\' then ['\\', '\\']
  else if c = '\n' then ['\\', 'n']
  else if c = '\r' then ['\\', 'r']
  else if c = '\t' then ['\\', 't']
  else if c = '\x00' then ['\\', '0']
  else if isUnshown c then ['\\', 'u', '\x7b'] ++ Nat.toDigits 16 c.toNat ++ ['\x7d']
  else [c]

def quote (text : String) : String :=
  "\"" ++ String.ofList (text.toList.flatMap escape) ++ "\""

end Text

end Mips32
