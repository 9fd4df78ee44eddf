import Mips32.Numeral

/-!
This module contains JSON values and how they are written over indented lines.
-/

namespace Mips32

/-- A JSON value. Numbers are natural, and the members of an object keep their order. -/
inductive Json
  | null
  | number (n : Nat)
  | string (text : String)
  | array (items : List Json)
  | object (members : List (String × Json))

namespace Json

def escape (c : Char) : List Char :=
  if c = '"' then ['\\', '"']
  else if c = '\\' then ['\\', '\\']
  else if c = '\x08' then ['\\', 'b']
  else if c = '\x0c' then ['\\', 'f']
  else if c = '\n' then ['\\', 'n']
  else if c = '\r' then ['\\', 'r']
  else if c = '\t' then ['\\', 't']
  else if c.toNat < 0x20 then ['\\', 'u'] ++ (Nat.toDigits 16 c.toNat).leftpad 4 '0'
  else [c]

def quote (text : String) : String :=
  "\"" ++ String.ofList (text.toList.flatMap escape) ++ "\""

def margin (depth : Nat) : String :=
  String.ofList (List.replicate (2 * depth) ' ')

/--
Items between brackets, each on a line of its own that is indented by one more than `depth`. Brackets
around nothing stay together.
-/
def block (depth : Nat) (opening closing : String) : List String → String
  | [] => opening ++ closing
  | items =>
    opening ++ "\n" ++ margin (depth + 1) ++ (",\n" ++ margin (depth + 1)).intercalate items ++ "\n"
      ++ margin depth ++ closing

mutual

def pretty (depth : Nat) : Json → String
  | .null => "null"
  | .number n => Numeral.decimal n
  | .string text => quote text
  | .array items => block depth "[" "]" (prettyItems (depth + 1) items)
  | .object members => block depth "\x7b" "\x7d" (prettyMembers (depth + 1) members)

def prettyItems (depth : Nat) : List Json → List String
  | [] => []
  | item :: items => pretty depth item :: prettyItems depth items

def prettyMembers (depth : Nat) : List (String × Json) → List String
  | [] => []
  | (name, value) :: members =>
    (quote name ++ ": " ++ pretty depth value) :: prettyMembers depth members

end

end Json

end Mips32
