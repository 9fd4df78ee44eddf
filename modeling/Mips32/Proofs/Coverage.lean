import Mips32.InstructionSet.Release2
import Mips32.Proofs.Description

/-!
This module contains the verification that the opcodes that call for a format are the opcodes of the rows of
Release 2. Where the opcode is all of the key it leaves one row only, so a word of such an opcode is
identified whatever else it holds, and it is legal unless the row is one of the few with a reserved field.
-/

namespace Mips32

namespace Format

theorem mem_all (format : Format) : format ∈ all := by
  cases format <;> decide

theorem lt_of_ofOpcode?_eq_some {opcode : Nat} {format : Format}
    (h : ofOpcode? opcode = some format) : opcode < 64 := by
  unfold ofOpcode? at h
  simp only [List.mem_cons, List.not_mem_nil, or_false] at h
  split at h
  . omega
  . split at h
    . omega
    . split at h
      . omega
      . contradiction

theorem keyFields_eq_opcode_iff {format : Format} {opcode : Nat} :
    format.keyFields opcode = [.opcode] ↔
      format = .jump ∨ format = .immediate ∧ opcode ≠ 0x01 := by
  unfold keyFields Key.Scheme.fields
  rw [List.cons_append, List.cons_eq_cons, List.append_eq_nil_iff, Option.toList_eq_nil_iff]
  cases format with
  | register => simp [scheme]
  | immediate => simp [scheme, List.lookup_eq_none_iff]
  | jump => simp [scheme]

theorem keyFields_ne_opcode_iff {format : Format} {opcode : Nat} (h : ofOpcode? opcode = some format) :
    format.keyFields opcode ≠ [.opcode] ↔ opcode ∈ [0x00, 0x01, 0x10, 0x11, 0x1c] := by
  have hall : ∀ opcode < 64, ∀ format ∈ all, ofOpcode? opcode = some format →
      (format.keyFields opcode ≠ [.opcode] ↔ opcode ∈ [0x00, 0x01, 0x10, 0x11, 0x1c]) := by
    decide +kernel
  exact hall opcode (lt_of_ofOpcode?_eq_some h) format format.mem_all h

end Format

namespace Fields

theorem violations_zero {fields : Fields} {field : Field} (hmem : field ∈ fields.format.fields) :
    fields.violations [.zero field]
      =
    if fields.value field = 0 then [] else [⟨.zero field, fields.value field⟩] := by
  have hviolation : (Constraint.zero field).violation? fields
      = if fields.value field = 0 then none else some ⟨.zero field, fields.value field⟩ :=
    Constraint.violation?_eq hmem
  unfold violations
  rw [List.filterMap_cons, hviolation]
  by_cases h : fields.value field = 0
  . rw [if_pos h, if_pos h]
    rfl
  . rw [if_neg h, if_neg h]
    rfl

end Fields

namespace Instruction

variable {instruction : Instruction} {opcode : Nat}

theorem WellFormed.follows_opcode (hwellFormed : instruction.WellFormed)
    (hopcode : instruction.key.get? .opcode = some opcode) :
    Format.ofOpcode? opcode = some instruction.format
      ∧ instruction.key.fields = instruction.format.keyFields opcode := by
  obtain ⟨own, hown, hfollows⟩ := hwellFormed.key_follows_format
  rw [hopcode, Option.some.injEq] at hown
  rw [hown]
  exact hfollows

theorem render_of_aliases_eq_nil (haliases : instruction.aliases = []) (fields : Fields) :
    instruction.render fields = instruction.canonical fields := by
  unfold render
  rw [haliases]
  rfl

end Instruction

namespace InstructionSet

variable {set : InstructionSet} {word : Word} {instruction : Instruction}

theorem eq_of_decode_eq_unknown_format {other : Word} (h : set.decode word = .unknown (.format other)) :
    other = word := by
  have hword := set.word_decode word
  rw [h] at hword
  exact hword

theorem eq_of_decode_eq_unknown_instruction {fields : Fields}
    (h : set.decode word = .unknown (.instruction fields)) :
    Format.ofWord? word = some fields.format ∧ set.identify? word = none := by
  obtain ⟨_, _, hdecode⟩ | ⟨format, hformat, hidentify, hdecode⟩ | ⟨_, _, _, hdecode⟩ | ⟨_, _, _, hdecode⟩ :=
    set.decode_cases word
  all_goals
    rw [h] at hdecode
    cases hdecode
  exact ⟨hformat, hidentify⟩

theorem identify?_of_opcode (hmem : instruction ∈ set.instructions)
    (hopcode : instruction.key.get? .opcode = some word.opcode)
    (hfields : instruction.key.fields = [.opcode]) : set.identify? word = some instruction := by
  have hnodup := (set.wellFormed instruction hmem).nodup_fields_key
  rw [identify?_eq_some_iff]
  refine ⟨hmem, ?_⟩
  intro part hpart
  obtain ⟨field, value⟩ := part
  -- the opcode is the only field that the part can be about
  have hfield := Key.mem_fields_of_mem_parts hpart
  rw [hfields, List.mem_singleton] at hfield
  dsimp at hfield
  subst hfield
  rw [← Key.get?_eq_some_iff hnodup, hopcode] at hpart
  rw [Fields.get?_opcode]
  exact hpart

theorem decode_of_constraints_eq_nil (h : set.identify? word = some instruction)
    (haliases : instruction.aliases = []) (hconstraints : instruction.constraints = []) :
    set.decode word
      =
    .legal ⟨⟨word, instruction.format⟩, instruction.canonical ⟨word, instruction.format⟩⟩ := by
  rw [decode_of_identify? h, Instruction.render_of_aliases_eq_nil haliases]
  unfold Instruction.violations
  rw [hconstraints]
  rfl

theorem decode_of_constraints_eq_zero (h : set.identify? word = some instruction)
    (haliases : instruction.aliases = []) {field : Field}
    (hconstraints : instruction.constraints = [.zero field]) :
    set.decode word
      =
    if (Fields.mk word instruction.format).value field = 0 then
      .legal ⟨⟨word, instruction.format⟩, instruction.canonical ⟨word, instruction.format⟩⟩
    else
      .illegal ⟨⟨word, instruction.format⟩, instruction.canonical ⟨word, instruction.format⟩⟩
        [⟨.zero field, (Fields.mk word instruction.format).value field⟩] := by
  have hmem := (wellFormed_of_identify? h).constraint_mem_fields (.zero field) (by simp [hconstraints])
  rw [decode_of_identify? h, Instruction.render_of_aliases_eq_nil haliases]
  unfold Instruction.violations
  rw [hconstraints, Fields.violations_zero hmem]
  split
  . rfl
  . rfl

end InstructionSet

namespace Release2

def unassigned : List (Nat × Word) :=
  [(0x00, 0x00000001), (0x01, 0x04020000), (0x10, 0x40200000), (0x11, 0x44200000), (0x1c, 0x7000003f)]

variable {row : Instruction} {opcode : Nat} {format : Format}

theorem exists_row_of_ofOpcode? (h : Format.ofOpcode? opcode = some format) :
    ∃ row ∈ rows, row.key.get? .opcode = some opcode := by
  have hall : ∀ opcode < 64, (Format.ofOpcode? opcode).isSome →
      ∃ row ∈ rows, row.key.get? .opcode = some opcode := by
    decide +kernel
  apply hall opcode (Format.lt_of_ofOpcode?_eq_some h)
  rw [h]
  rfl

theorem ofOpcode?_eq_some_iff_row :
    Format.ofOpcode? opcode = some format ↔
      ∃ row ∈ rows, row.key.get? .opcode = some opcode ∧ row.format = format := by
  constructor
  . intro h
    obtain ⟨row, hmem, hopcode⟩ := exists_row_of_ofOpcode? h
    obtain ⟨hformat, _⟩ := (InstructionSet.release2.wellFormed row hmem).follows_opcode hopcode
    rw [h, Option.some.injEq] at hformat
    exact ⟨row, hmem, hopcode, hformat.symm⟩
  . rintro ⟨row, hmem, hopcode, rfl⟩
    exact ((InstructionSet.release2.wellFormed row hmem).follows_opcode hopcode).1

theorem constraints_of_jump : ∀ row ∈ rows, row.format = .jump → row.constraints = [] := by
  decide +kernel

theorem constraints_of_immediate : ∀ row ∈ rows, row.format = .immediate →
    row.key.get? .opcode ≠ some 0x01 →
    row.aliases = []
      ∧ row.constraints
        = if row.name = "lui" then [.zero .rs]
          else if row.name = "blez" ∨ row.name = "bgtz" then [.zero .rt] else [] := by
  decide +kernel

end Release2

namespace InstructionSet

variable {word : Word} {format : Format}

theorem exists_identify?_of_keyFields (hformat : Format.ofWord? word = some format)
    (hfields : format.keyFields word.opcode = [.opcode]) :
    ∃ row ∈ Release2.rows, row.key.get? .opcode = some word.opcode ∧ row.format = format
      ∧ release2.identify? word = some row := by
  obtain ⟨row, hmem, hopcode, rfl⟩ := Release2.ofOpcode?_eq_some_iff_row.1 hformat
  refine ⟨row, hmem, hopcode, rfl, ?_⟩
  apply identify?_of_opcode hmem hopcode
  rw [((release2.wellFormed row hmem).follows_opcode hopcode).2]
  exact hfields

theorem exists_decode_eq_legal_of_jump (hformat : Format.ofWord? word = some .jump) :
    ∃ disassembly, release2.decode word = .legal disassembly := by
  obtain ⟨row, hmem, _, hjump, hidentify⟩ := exists_identify?_of_keyFields hformat rfl
  rw [exists_decode_eq_legal_iff hidentify, Instruction.violations]
  rw [Release2.constraints_of_jump row hmem hjump]
  rfl

theorem exists_decode_eq_of_immediate (hformat : Format.ofWord? word = some .immediate)
    (hne : word.opcode ≠ 0x01) :
    ∃ row ∈ Release2.rows, row.key.get? .opcode = some word.opcode
      ∧ ∃ disassembly rs rt, (Fields.mk word .immediate).get? .rs = some rs
        ∧ (Fields.mk word .immediate).get? .rt = some rt
        ∧ release2.decode word
          = if row.name = "lui" ∧ rs ≠ 0 then .illegal disassembly [⟨.zero .rs, rs⟩]
            else if (row.name = "blez" ∨ row.name = "bgtz") ∧ rt ≠ 0 then
              .illegal disassembly [⟨.zero .rt, rt⟩]
            else .legal disassembly := by
  have hfields := Format.keyFields_eq_opcode_iff.2 (.inr ⟨rfl, hne⟩)
  obtain ⟨row, hmem, hopcode, himmediate, hidentify⟩ := exists_identify?_of_keyFields hformat hfields
  have hother : row.key.get? .opcode ≠ some 0x01 := by
    rw [hopcode]
    simpa using hne
  obtain ⟨haliases, hconstraints⟩ := Release2.constraints_of_immediate row hmem himmediate hother
  have hvalue : ∀ field ∈ Format.immediate.fields, (Fields.mk word .immediate).get? field
      = some ((Fields.mk word .immediate).value field) := by
    intro field hfield
    exact Fields.get?_eq_value hfield
  refine ⟨row, hmem, hopcode, ⟨⟨word, .immediate⟩, row.canonical ⟨word, .immediate⟩⟩, _, _,
    hvalue .rs (by decide), hvalue .rt (by decide), ?_⟩
  -- the three forms that the constraints of such a row take
  by_cases hlui : row.name = "lui"
  . rw [if_pos hlui] at hconstraints
    rw [decode_of_constraints_eq_zero hidentify haliases hconstraints, himmediate]
    simp [hlui]
  . rw [if_neg hlui] at hconstraints
    by_cases hbranch : row.name = "blez" ∨ row.name = "bgtz"
    . rw [if_pos hbranch] at hconstraints
      rw [decode_of_constraints_eq_zero hidentify haliases hconstraints, himmediate]
      simp [hlui, hbranch]
    . rw [if_neg hbranch] at hconstraints
      rw [decode_of_constraints_eq_nil hidentify haliases hconstraints, himmediate]
      simp [hlui, hbranch]

theorem exists_decode_eq_unknown_format_iff :
    (∃ other, release2.decode word = .unknown (.format other)) ↔
      ∀ row ∈ release2.instructions, row.key.get? .opcode ≠ some word.opcode := by
  constructor
  . rintro ⟨other, h⟩ row hmem hopcode
    have hformat := Release2.ofOpcode?_eq_some_iff_row.2 ⟨row, hmem, hopcode, rfl⟩
    rw [eq_of_decode_eq_unknown_format h, decode_eq_unknown_format_iff, Format.ofWord?, hformat] at h
    contradiction
  . intro h
    refine ⟨word, ?_⟩
    rw [decode_eq_unknown_format_iff, Option.eq_none_iff_forall_ne_some]
    intro format hformat
    obtain ⟨row, hmem, hopcode, _⟩ := Release2.ofOpcode?_eq_some_iff_row.1 hformat
    exact h row hmem hopcode

theorem opcode_mem_of_decode_eq_unknown_instruction {fields : Fields}
    (h : release2.decode word = .unknown (.instruction fields)) :
    word.opcode ∈ [0x00, 0x01, 0x10, 0x11, 0x1c] := by
  obtain ⟨hformat, hnone⟩ := eq_of_decode_eq_unknown_instruction h
  rw [← Format.keyFields_ne_opcode_iff hformat]
  intro hfields
  obtain ⟨row, _, _, _, hidentify⟩ := exists_identify?_of_keyFields hformat hfields
  rw [hnone] at hidentify
  contradiction

theorem exists_decode_eq_unknown_instruction :
    ∀ opcode ∈ [0x00, 0x01, 0x10, 0x11, 0x1c], ∃ (word : Word) (fields : Fields),
      word.opcode = opcode ∧ release2.decode word = .unknown (.instruction fields) := by
  have hwords : ∀ entry ∈ Release2.unassigned, entry.2.opcode = entry.1
      ∧ (Format.ofWord? entry.2).isSome ∧ release2.identify? entry.2 = none := by
    decide +kernel
  intro opcode hmem
  obtain ⟨⟨_, word⟩, hentry, rfl⟩ : ∃ entry ∈ Release2.unassigned, entry.1 = opcode :=
    List.mem_map.1 hmem
  obtain ⟨hopcode, hsome, hnone⟩ := hwords _ hentry
  obtain ⟨format, hformat⟩ := Option.isSome_iff_exists.1 hsome
  exact ⟨word, ⟨word, format⟩, hopcode, decode_of_identify?_eq_none hformat hnone⟩

/--
The formats and the rows of Release 2 cover each other. A word has no format exactly if no row has its opcode.
Where the opcode is all of the key the word is identified; a jump is legal, and so is a word of any other such
instruction unless it sets the reserved field of `lui`, `blez` or `bgtz`. So only the opcodes that need a
second field leave words without an instruction.
-/
theorem decode_by_opcode :
    (∀ opcode format, Format.ofOpcode? opcode = some format ↔
        ∃ row ∈ release2.instructions, row.key.get? .opcode = some opcode ∧ row.format = format)
      ∧ (∀ word : Word, (∃ other, release2.decode word = .unknown (.format other)) ↔
          ∀ row ∈ release2.instructions, row.key.get? .opcode ≠ some word.opcode)
      ∧ (∀ (format : Format) (opcode : Nat), format.keyFields opcode = [.opcode] ↔
          format = .jump ∨ format = .immediate ∧ opcode ≠ 0x01)
      ∧ (∀ (word : Word) (format : Format), Format.ofWord? word = some format →
          format.keyFields word.opcode = [.opcode] → (release2.decode word).disassembly?.isSome)
      ∧ (∀ word : Word, Format.ofWord? word = some .jump →
          ∃ disassembly, release2.decode word = .legal disassembly)
      ∧ (∀ word : Word, Format.ofWord? word = some .immediate → word.opcode ≠ 0x01 →
          ∃ row ∈ release2.instructions, row.key.get? .opcode = some word.opcode
            ∧ ∃ disassembly rs rt, (Fields.mk word .immediate).get? .rs = some rs
              ∧ (Fields.mk word .immediate).get? .rt = some rt
              ∧ release2.decode word
                = if row.name = "lui" ∧ rs ≠ 0 then .illegal disassembly [⟨.zero .rs, rs⟩]
                  else if (row.name = "blez" ∨ row.name = "bgtz") ∧ rt ≠ 0 then
                    .illegal disassembly [⟨.zero .rt, rt⟩]
                  else .legal disassembly)
      ∧ ∀ opcode, (∃ (word : Word) (fields : Fields), word.opcode = opcode
            ∧ release2.decode word = .unknown (.instruction fields)) ↔
          opcode ∈ [0x00, 0x01, 0x10, 0x11, 0x1c] := by
  refine ⟨?_, ?_, ?_, ?_, ?_, ?_, ?_⟩
  . intro opcode format
    exact Release2.ofOpcode?_eq_some_iff_row
  . intro word
    exact exists_decode_eq_unknown_format_iff
  . intro format opcode
    exact Format.keyFields_eq_opcode_iff
  . intro word format hformat hfields
    obtain ⟨row, _, _, _, hidentify⟩ := exists_identify?_of_keyFields hformat hfields
    rw [isSome_disassembly?_decode, hidentify]
    rfl
  . intro word hformat
    exact exists_decode_eq_legal_of_jump hformat
  . intro word hformat hne
    exact exists_decode_eq_of_immediate hformat hne
  . intro opcode
    constructor
    . rintro ⟨word, fields, rfl, h⟩
      exact opcode_mem_of_decode_eq_unknown_instruction h
    . exact exists_decode_eq_unknown_instruction opcode

/-- A branch that compares with zero, though it names a second register. -/
theorem decode_by_opcode_blez :
    Format.ofWord? 0x18a30004#32 = some .immediate ∧ Word.opcode 0x18a30004#32 ≠ 0x01
      ∧ ∃ disassembly, release2.decode 0x18a30004#32 = .illegal disassembly [⟨.zero .rt, 3⟩] := by
  obtain ⟨_, _, _, _, _, himmediate, _⟩ := decode_by_opcode
  have hformat : Format.ofWord? 0x18a30004#32 = some .immediate := by
    decide
  have hne : Word.opcode 0x18a30004#32 ≠ 0x01 := by
    decide
  have hname : ∀ row ∈ release2.instructions, row.key.get? .opcode = some (Word.opcode 0x18a30004#32) →
      row.name = "blez" := by
    decide +kernel
  obtain ⟨row, hmem, hopcode, disassembly, rs, rt, _, hrt, hdecode⟩ := himmediate _ hformat hne
  cases hrt
  refine ⟨hformat, hne, disassembly, ?_⟩
  rw [hdecode, hname row hmem hopcode]
  rfl

end InstructionSet

end Mips32
