import Mips32.Instruction

/-!
This module contains instruction sets: well formed instructions of which no two have the same key. A set
is built instruction by instruction, and the first defect met is reported. Building and decoding report events
besides their results, for a log.
-/

namespace Mips32

inductive Event.Level
  | trace
  | debug
  | warn
  deriving DecidableEq

def Event.Level.name : Event.Level → String
  | .trace => "TRACE"
  | .debug => "DEBUG"
  | .warn => "WARN"

structure Event where
  level : Event.Level
  message : String
  fields : List (String × String)
  deriving DecidableEq

def Event.text (event : Event) : String :=
  event.level.name ++ " " ++ event.message
    ++ String.join (event.fields.map fun (name, value) => " " ++ name ++ "=" ++ value)

structure InstructionSet where
  instructions : List Instruction
  wellFormed : ∀ instruction ∈ instructions, instruction.WellFormed
  distinct : instructions.Pairwise (·.key ≠ ·.key)

namespace InstructionSet

def empty : InstructionSet where
  instructions := []
  wellFormed := by simp
  distinct := .nil

def size (set : InstructionSet) : Nat :=
  set.instructions.length

def find? (set : InstructionSet) (key : Key) : Option Instruction :=
  set.instructions.find? (·.key == key)

theorem find?_eq_some_iff {set : InstructionSet} {key : Key} {instruction : Instruction} :
    set.find? key = some instruction ↔
      instruction ∈ set.instructions ∧ instruction.key = key := by
  constructor
  . intro h
    exact ⟨List.mem_of_find?_eq_some h, by simpa using List.find?_some h⟩
  . rintro ⟨hmem, rfl⟩
    obtain ⟨instructions, hwellFormed, hdistinct⟩ := set
    simp only [find?] at hmem ⊢
    clear hwellFormed
    induction instructions with
    | nil => contradiction
    | cons other rest ih =>
      rw [List.pairwise_cons] at hdistinct
      rcases List.mem_cons.1 hmem with rfl | h
      . simp
      . simp [hdistinct.1 instruction h, ih hdistinct.2 h]

theorem find?_eq_none_iff {set : InstructionSet} {key : Key} :
    set.find? key = none ↔ ∀ instruction ∈ set.instructions, instruction.key ≠ key := by
  simp [find?]

def insert (set : InstructionSet) (instruction : Instruction) : Except Defect InstructionSet :=
  match hdefect : instruction.defect? with
  | some defect => .error defect
  | none =>
    match hfind : set.find? instruction.key with
    | some earlier => .error (.duplicate earlier.name instruction.name instruction.key)
    | none => .ok {
        instructions := set.instructions ++ [instruction]
        wellFormed := by
          intro other hmem
          rcases List.mem_append.1 hmem with h | h
          . exact set.wellFormed other h
          . rw [List.mem_singleton.1 h]
            exact Instruction.defect?_eq_none_iff.1 hdefect
        distinct := by
          refine List.pairwise_append.2 ⟨set.distinct, List.pairwise_singleton .., ?_⟩
          intro earlier hmem other hother
          rw [List.mem_singleton.1 hother]
          simpa using List.find?_eq_none.1 hfind earlier hmem
      }

/--
The set of the given instructions, in order. The formats are checked before the instructions, and each
instruction by itself before it is compared with the earlier ones.
-/
def build (instructions : List Instruction) : Except Defect InstructionSet :=
  match Format.all.findSome? Format.defect? with
  | some defect => .error defect
  | none => instructions.foldlM insert empty

def names (set : InstructionSet) : List String :=
  (set.instructions.map Instruction.name).mergeSort

def builtEvent (set : InstructionSet) : Event where
  level := .debug
  message := "instruction catalog built"
  fields := [("instructions", Numeral.decimal set.size)]

end InstructionSet

end Mips32
