import Mips32.InstructionSet.Release2
import Mips32.Proofs.Decoding
import Mips32.Proofs.Instruction
import Mips32.Proofs.InstructionSet

/-!
This module contains `Decoding.Follows`, which says without any search what a list of instructions makes of
a word, and the proof that decoding follows every list of instructions that makes up a set.
-/

namespace Mips32

def Instruction.Identifies (instruction : Instruction) (fields : Fields) : Prop :=
  instruction.key.fields = fields.format.keyFields fields.opcode
    ∧ ∀ part ∈ instruction.key.parts, fields.get? part.1 = some part.2

def Alias.Applies (shown : Alias) (fields : Fields) : Prop :=
  ∀ condition ∈ shown.conditions, fields.get? condition.field = some condition.expected

/-- How an instruction shows a legal word: by the first alias that applies, or else by its own name. -/
inductive Instruction.Shows (instruction : Instruction) (fields : Fields) : Mnemonic → Prop
  | byAlias {earlier later : List Alias} {shown : Alias}
      (haliases : instruction.aliases = earlier ++ shown :: later)
      (hearlier : ∀ other ∈ earlier, ¬other.Applies fields)
      (hshown : shown.Applies fields)
      : Shows instruction fields (shown.pattern.mnemonic shown.name fields)
  | byName
      (haliases : ∀ other ∈ instruction.aliases, ¬other.Applies fields)
      : Shows instruction fields (instruction.pattern.mnemonic instruction.name fields)

inductive Instruction.Judges (instruction : Instruction) (fields : Fields) : Decoding → Prop
  | legal {mnemonic : Mnemonic}
      (hbreaks : fields.Breaks instruction.constraints [])
      (hshows : instruction.Shows fields mnemonic)
      : Judges instruction fields (.legal ⟨fields, mnemonic⟩)
  | illegal {violations : List Violation}
      (hne : violations ≠ [])
      (hbreaks : fields.Breaks instruction.constraints violations)
      : Judges instruction fields
          (.illegal ⟨fields, instruction.pattern.mnemonic instruction.name fields⟩ violations)

instance (instruction : Instruction) (fields : Fields) : Decidable (instruction.Identifies fields) :=
  decidable_of_iff (instruction.key = fields.key) Fields.eq_key_iff

structure Decoding.Follows (decoding : Decoding) (instructions : List Instruction) (word : Word) : Prop where
  word_eq : decoding.word = word
  opcode_eq : word.opcode = (word >>> 26).toNat
  format_eq : decoding.fields?.map Fields.format = Format.ofOpcode? word.opcode
  no_format_iff : decoding = .unknown (.format word) ↔ Format.ofOpcode? word.opcode = none
  no_instruction_iff : ∀ format, Format.ofOpcode? word.opcode = some format →
    (decoding = .unknown (.instruction ⟨word, format⟩) ↔
      ∀ instruction ∈ instructions, ¬instruction.Identifies ⟨word, format⟩)
  key_eq : ∀ format, (Fields.key ⟨word, format⟩).fields = format.keyFields word.opcode
    ∧ ∀ part ∈ (Fields.key ⟨word, format⟩).parts, (Fields.mk word format).get? part.1 = some part.2
  unique : ∀ format, ∀ instruction ∈ instructions, instruction.Identifies ⟨word, format⟩ →
    instructions.filter (·.Identifies ⟨word, format⟩) = [instruction]
  judged : ∀ format, Format.ofOpcode? word.opcode = some format →
    ∀ instruction ∈ instructions, instruction.Identifies ⟨word, format⟩ →
      instruction.Judges ⟨word, format⟩ decoding
  disassembly_isSome_iff : decoding.disassembly?.isSome ↔
    ∃ format, Format.ofOpcode? word.opcode = some format
      ∧ ∃ instruction ∈ instructions, instruction.Identifies ⟨word, format⟩
  violations_eq_nil : decoding.disassembly? = none → decoding.violations = []

namespace Alias

theorem applies_iff {shown : Alias} {fields : Fields} :
    shown.applies fields = true ↔ shown.Applies fields := by
  unfold applies Applies
  rw [List.all_eq_true]
  apply forall₂_congr
  intro condition _
  exact Constraint.holds_iff

end Alias

namespace Instruction

variable {instruction : Instruction} {fields : Fields}

theorem shows_render (instruction : Instruction) (fields : Fields) :
    instruction.Shows fields (instruction.render fields) := by
  unfold render
  split
  . next shown hfind =>
    obtain ⟨happlies, earlier, later, haliases, hearlier⟩ := List.find?_eq_some_iff_append.1 hfind
    apply Shows.byAlias haliases
    . intro other hother
      rw [← Alias.applies_iff]
      simpa using hearlier other hother
    . exact Alias.applies_iff.1 happlies
  . next hfind =>
    apply Shows.byName
    intro other hother
    rw [← Alias.applies_iff]
    exact List.find?_eq_none.1 hfind other hother

end Instruction

namespace InstructionSet

variable {set : InstructionSet} {word : Word} {format : Format} {instruction : Instruction}

theorem judges_decode (h : set.identify? word = some instruction) :
    instruction.Judges ⟨word, instruction.format⟩ (set.decode word) := by
  have hmem := (wellFormed_of_identify? h).constraint_mem_fields
  rw [decode_of_identify? h]
  split
  . next hnil =>
    apply Instruction.Judges.legal
    . exact (Fields.breaks_iff hmem).2 hnil
    . apply Instruction.shows_render
  . next hne =>
    apply Instruction.Judges.illegal hne
    exact (Fields.breaks_iff hmem).2 rfl

theorem decode_eq_unknown_format_iff :
    set.decode word = .unknown (.format word) ↔ Format.ofWord? word = none := by
  constructor
  . intro h
    have hfields := set.fields?_decode word
    rw [h] at hfields
    cases hformat : Format.ofWord? word with
    | none => rfl
    | some format =>
      rw [hformat] at hfields
      contradiction
  . exact decode_of_ofWord?_eq_none

end InstructionSet

end Mips32
