import Mips32.Numeral

/-!
This module contains instruction words and their layouts. A layout cuts the 32 bits of a word, from the
most significant bit down, into consecutive fields of given widths. `Layout.split` takes a word apart and
`Layout.join` puts one together.
-/

namespace Mips32

abbrev Word := BitVec 32

namespace Word

/-- Make room for `width` bits at the low end of `word` and put the low `width` bits of `value` there. -/
def push (word : Word) (width value : Nat) : Word :=
  word <<< width ||| (BitVec.ofNat width value).setWidth 32

def slice (word : Word) (offset width : Nat) : Nat :=
  (word.extractLsb' offset width).toNat

end Word

namespace Layout

/-- Whether `widths` are positive and use up `room` bits exactly. -/
def fills : Nat → List Nat → Bool
  | room, [] => room == 0
  | room, width :: rest => 0 < width && width ≤ room && fills (room - width) rest

/--
How far above the low end of a span of `room` bits each field lies, when the fields are laid out from
the high end of the span.
-/
def offsets : Nat → List Nat → List Nat
  | _, [] => []
  | room, width :: rest => (room - width) :: offsets (room - width) rest

theorem length_offsets (room : Nat) (widths : List Nat) :
    (offsets room widths).length = widths.length := by
  induction widths generalizing room with
  | nil => rfl
  | cons width rest ih => simp [offsets, ih]

inductive Fault
  | notWord (widths : List Nat)
  | arity (values widths : Nat)
  deriving DecidableEq

def widthsText (widths : List Nat) : String :=
  "[" ++ ", ".intercalate (widths.map Numeral.decimal) ++ "]"

def Fault.message : Fault → String
  | .notWord widths => "field widths must be positive and sum to 32: " ++ widthsText widths
  | .arity values widths =>
    "one value per field width\n  left: " ++ Numeral.decimal values
      ++ "\n right: " ++ Numeral.decimal widths

end Layout

/-- The widths of consecutive fields that make up a word, the most significant field first. -/
structure Layout where
  widths : List Nat
  fills_word : Layout.fills 32 widths = true
  deriving DecidableEq

namespace Layout

def ofWidths (widths : List Nat) : Except Fault Layout :=
  if h : fills 32 widths = true then .ok ⟨widths, h⟩ else .error (.notWord widths)

def split (layout : Layout) (word : Word) : List Nat :=
  List.zipWith word.slice (offsets 32 layout.widths) layout.widths

theorem length_split (layout : Layout) (word : Word) :
    (layout.split word).length = layout.widths.length := by
  simp [split, length_offsets]

/--
The word whose fields hold `values`. A value that is too wide for its field loses its high bits, so it
never spills into the neighbouring field.
-/
def join (layout : Layout) (values : List Nat) : Word :=
  (layout.widths.zip values).foldl (fun word field => word.push field.1 field.2) 0

def join? (layout : Layout) (values : List Nat) : Except Fault Word :=
  if values.length = layout.widths.length then .ok (layout.join values)
  else .error (.arity values.length layout.widths.length)

end Layout

namespace Word

def extract (word : Word) (widths : List Nat) : Except Layout.Fault (List Nat) :=
  return (← Layout.ofWidths widths).split word

def compose (values widths : List Nat) : Except Layout.Fault Word := do
  (← Layout.ofWidths widths).join? values

end Word

end Mips32
