import Mips32.Fields

/-!
This module contains keys. A key is what identifies an instruction: the values that some of the fields of a word
must hold. In memory a key is a fixed number of slots and how many of them are used; the other slots hold a
filler, which could be a part as well.
-/

namespace Mips32

/-- Which fields make up the keys of a format, besides the opcode. -/
structure Key.Scheme where
  base : List Field
  /-- The fields that are in front of these for some opcodes. -/
  refinements : List (Nat × Field)

namespace Key.Scheme

def fields (scheme : Scheme) (opcode : Nat) : List Field :=
  .opcode :: (scheme.refinements.lookup opcode).toList ++ scheme.base

theorem forall_fields (p : List Field → Prop) {scheme : Scheme} (hbase : p (.opcode :: scheme.base))
    (hrefined : ∀ refinement ∈ scheme.refinements, p (.opcode :: refinement.2 :: scheme.base))
    (opcode : Nat) : p (scheme.fields opcode) := by
  unfold fields
  cases hlookup : scheme.refinements.lookup opcode with
  | none => exact hbase
  | some field =>
    obtain ⟨earlier, later, hrefinements, _⟩ := List.lookup_eq_some_iff.1 hlookup
    apply hrefined (opcode, field)
    rw [hrefinements]
    simp

end Key.Scheme

namespace Format

/--
The coprocessor opcodes also look at `rs`, and the register-immediate opcode looks at `rt` for want of a
function code.
-/
def scheme : Format → Key.Scheme
  | .register => ⟨[.funct], [(0x10, .rs), (0x11, .rs)]⟩
  | .immediate => ⟨[], [(0x01, .rt)]⟩
  | .jump => ⟨[], []⟩

/-- The fields that tell the instructions of a format apart, given the opcode. -/
def keyFields (format : Format) (opcode : Nat) : List Field :=
  format.scheme.fields opcode

end Format

def Key.maxParts : Nat := 3

theorem Format.length_keyFields_le (format : Format) (opcode : Nat) :
    (format.keyFields opcode).length ≤ Key.maxParts := by
  refine Key.Scheme.forall_fields (fun fields => fields.length ≤ Key.maxParts) ?_ ?_ opcode
  . cases format <;> decide
  . cases format <;> decide

structure Key where
  parts : List (Field × Nat)
  length_le : parts.length ≤ Key.maxParts
  deriving DecidableEq

namespace Key

def ofParts? (parts : List (Field × Nat)) : Option Key :=
  if h : parts.length ≤ maxParts then some ⟨parts, h⟩ else none

def fields (key : Key) : List Field :=
  key.parts.map Prod.fst

/-- The value that a key gives to a field. If the key names the field twice the first value counts. -/
def get? (key : Key) (field : Field) : Option Nat :=
  key.parts.lookup field

def partText (part : Field × Nat) : String :=
  part.1.name ++ "=" ++ Numeral.hex part.2

def text (key : Key) : String :=
  ", ".intercalate (key.parts.map partText)

end Key

def Fields.key (fields : Fields) : Key where
  parts := (fields.format.keyFields fields.opcode).filterMap fun field =>
    (fields.get? field).map (field, ·)
  length_le := Nat.le_trans (List.length_filterMap_le ..) (Format.length_keyFields_le ..)

structure Key.Slots where
  slots : Vector (Field × Nat) Key.maxParts
  used : Nat
  deriving DecidableEq

namespace Key.Slots

def filler : Field × Nat := (.opcode, 0)

def empty : Slots where
  slots := Vector.replicate maxParts filler
  used := 0

def parts (slots : Slots) : List (Field × Nat) :=
  slots.slots.toList.take slots.used

def copy (slots : Vector (Field × Nat) maxParts) (index : Nat) :
    List (Field × Nat) → Option (Vector (Field × Nat) maxParts)
  | [] => some slots
  | part :: rest =>
    if h : index < maxParts then copy (slots.set index part h) (index + 1) rest else none

def ofParts? (parts : List (Field × Nat)) : Option Slots :=
  if parts.length ≤ maxParts then
    (copy (Vector.replicate maxParts filler) 0 parts).map (⟨·, parts.length⟩)
  else
    none

def push? (slots : Slots) (part : Field × Nat) : Option Slots :=
  if h : slots.used < maxParts then
    some ⟨slots.slots.set slots.used part h, slots.used + 1⟩
  else
    none

/-- Put the value of a field into the next slot. A field that the format lacks is left out. -/
def pushField? (fields : Fields) (slots : Slots) (field : Field) : Option Slots :=
  match fields.get? field with
  | some value => slots.push? (field, value)
  | none => some slots

end Key.Slots

def Fields.slots? (fields : Fields) : Option Key.Slots :=
  (fields.format.scheme.fields fields.opcode).foldlM (Key.Slots.pushField? fields) .empty

end Mips32
