import Mips32.Layout

/-!
This module contains layouts in 32-bit arithmetic, where a sum that passes 32 bits, a difference below zero and
a shift by 32 bits or more have no result. Checking widths, extracting values and composing a word have no
result either as soon as one step has none, so that it shows where the steps rely on the widths.
-/

namespace Mips32

namespace Arithmetic

def add? (m n : UInt32) : Option UInt32 :=
  if m.toNat + n.toNat < UInt32.size then some (m + n) else none

def sub? (m n : UInt32) : Option UInt32 :=
  if n ≤ m then some (m - n) else none

def shiftLeft? (n amount : UInt32) : Option UInt32 :=
  if amount < 32 then some (n <<< amount) else none

def shiftRight? (n amount : UInt32) : Option UInt32 :=
  if amount < 32 then some (n >>> amount) else none

def mask? (width : UInt32) : Option UInt32 :=
  if 32 ≤ width then some 0xffffffff else do sub? (← shiftLeft? 1 width) 1

end Arithmetic

namespace Layout.Checked

open Arithmetic

def total? (widths : List UInt32) : Option UInt32 :=
  widths.foldlM add? 0

def isLayout (widths : List UInt32) : Bool :=
  widths.all (0 < ·) && total? widths == some 32

/-- The next field of a word of which `room` bits are left: how many are left then, and the value. -/
def cut? (word room width : UInt32) : Option (UInt32 × UInt32) := do
  let left ← sub? room width
  return (left, (← shiftRight? word left) &&& (← mask? width))

def split? (word room : UInt32) : List UInt32 → Option (List UInt32)
  | [] => some []
  | width :: rest => do
    let (left, value) ← cut? word room width
    return value :: (← split? word left rest)

/-- Put a value below a word. Where there is no room for both, nothing of the word is left. -/
def push? (word width value : UInt32) : Option UInt32 := do
  return (shiftLeft? word width).getD 0 ||| (value &&& (← mask? width))

def join? (fields : List (UInt32 × UInt32)) : Option UInt32 :=
  fields.foldlM (fun word field => push? word field.1 field.2) 0

def extract? (word : UInt32) (widths : List UInt32) : Option (Except Fault (List UInt32)) :=
  if isLayout widths then (split? word 32 widths).map .ok
  else some (.error (.notWord (widths.map UInt32.toNat)))

def compose? (values widths : List UInt32) : Option (Except Fault UInt32) :=
  if isLayout widths then
    if values.length = widths.length then (join? (widths.zip values)).map .ok
    else some (.error (.arity values.length widths.length))
  else some (.error (.notWord (widths.map UInt32.toNat)))

end Layout.Checked

end Mips32
