import Mips32.Proofs.Constraint
import Mips32.Proofs.Identification

/-!
This module contains what decoding comes to once it is known which instruction a word is taken for. Each
kind of decoding has one lemma that says when it arises; the other modules reason from these.
-/

namespace Mips32

namespace InstructionSet

variable {set : InstructionSet} {word : Word} {instruction : Instruction}

theorem mem_of_identify? (h : set.identify? word = some instruction) :
    instruction ∈ set.instructions :=
  (identify?_eq_some_iff.1 h).1

theorem wellFormed_of_identify? (h : set.identify? word = some instruction) : instruction.WellFormed :=
  set.wellFormed instruction (mem_of_identify? h)

theorem decode_of_ofWord?_eq_none (hformat : Format.ofWord? word = none) :
    set.decode word = .unknown (.format word) := by
  unfold decode
  rw [hformat]

theorem decode_of_identify?_eq_none {format : Format} (hformat : Format.ofWord? word = some format)
    (h : set.identify? word = none) : set.decode word = .unknown (.instruction ⟨word, format⟩) := by
  rw [identify?_eq_find? hformat] at h
  unfold decode
  rw [hformat]
  dsimp
  rw [h]

theorem decode_of_identify? (h : set.identify? word = some instruction) :
    set.decode word
      =
    if instruction.violations ⟨word, instruction.format⟩ = [] then
      .legal ⟨⟨word, instruction.format⟩, instruction.render ⟨word, instruction.format⟩⟩
    else
      .illegal ⟨⟨word, instruction.format⟩, instruction.canonical ⟨word, instruction.format⟩⟩
        (instruction.violations ⟨word, instruction.format⟩) := by
  have hformat := ofWord?_of_identify? h
  rw [identify?_eq_find? hformat] at h
  unfold decode
  rw [hformat]
  dsimp
  rw [h]
  dsimp
  split
  . next hnil => rw [if_pos hnil]
  . next hne => rw [if_neg hne]

theorem decode_cases (set : InstructionSet) (word : Word) :
    (Format.ofWord? word = none ∧ set.identify? word = none
      ∧ set.decode word = .unknown (.format word))
    ∨ (∃ format, Format.ofWord? word = some format ∧ set.identify? word = none
      ∧ set.decode word = .unknown (.instruction ⟨word, format⟩))
    ∨ (∃ instruction, set.identify? word = some instruction
      ∧ instruction.violations ⟨word, instruction.format⟩ = []
      ∧ set.decode word
        = .legal ⟨⟨word, instruction.format⟩, instruction.render ⟨word, instruction.format⟩⟩)
    ∨ (∃ instruction, set.identify? word = some instruction
      ∧ instruction.violations ⟨word, instruction.format⟩ ≠ []
      ∧ set.decode word
        = .illegal ⟨⟨word, instruction.format⟩, instruction.canonical ⟨word, instruction.format⟩⟩
            (instruction.violations ⟨word, instruction.format⟩)) := by
  cases hformat : Format.ofWord? word with
  | none =>
    left
    refine ⟨rfl, ?_, decode_of_ofWord?_eq_none hformat⟩
    unfold identify?
    rw [hformat]
    rfl
  | some format =>
    right
    cases hidentify : set.identify? word with
    | none => exact .inl ⟨format, rfl, rfl, decode_of_identify?_eq_none hformat hidentify⟩
    | some instruction =>
      right
      have hdecode := decode_of_identify? hidentify
      split at hdecode
      . next hnil => exact .inl ⟨instruction, rfl, hnil, hdecode⟩
      . next hne => exact .inr ⟨instruction, rfl, hne, hdecode⟩

theorem word_decode (set : InstructionSet) (word : Word) : (set.decode word).word = word := by
  obtain ⟨_, _, h⟩ | ⟨_, _, _, h⟩ | ⟨_, _, _, h⟩ | ⟨_, _, _, h⟩ := set.decode_cases word
  all_goals
    rw [h]
    rfl

theorem fields?_decode (set : InstructionSet) (word : Word) :
    (set.decode word).fields? = (Format.ofWord? word).map (Fields.mk word) := by
  obtain ⟨hformat, _, h⟩ | ⟨_, hformat, _, h⟩ | ⟨_, hidentify, _, h⟩ | ⟨_, hidentify, _, h⟩ :=
    set.decode_cases word
  . rw [h, hformat]
    rfl
  . rw [h, hformat]
    rfl
  . rw [h, ofWord?_of_identify? hidentify]
    rfl
  . rw [h, ofWord?_of_identify? hidentify]
    rfl

theorem isSome_disassembly?_decode (set : InstructionSet) (word : Word) :
    (set.decode word).disassembly?.isSome ↔ (set.identify? word).isSome := by
  obtain ⟨_, hidentify, h⟩ | ⟨_, _, hidentify, h⟩ | ⟨_, hidentify, _, h⟩ | ⟨_, hidentify, _, h⟩ :=
    set.decode_cases word
  all_goals
    rw [h, hidentify]
    simp [Decoding.disassembly?]

theorem decode_eq_legal_iff {disassembly : Disassembly} :
    set.decode word = .legal disassembly ↔
      ∃ instruction, set.identify? word = some instruction
        ∧ instruction.violations ⟨word, instruction.format⟩ = []
        ∧ disassembly
          = ⟨⟨word, instruction.format⟩, instruction.render ⟨word, instruction.format⟩⟩ := by
  constructor
  . intro hlegal
    obtain ⟨_, _, h⟩ | ⟨_, _, _, h⟩ | ⟨instruction, hidentify, hnil, h⟩ | ⟨_, _, _, h⟩ :=
      set.decode_cases word
    all_goals rw [hlegal] at h
    . contradiction
    . contradiction
    . rw [Decoding.legal.injEq] at h
      exact ⟨instruction, hidentify, hnil, h⟩
    . contradiction
  . rintro ⟨instruction, hidentify, hnil, rfl⟩
    rw [decode_of_identify? hidentify, if_pos hnil]

theorem violations_decode (h : set.identify? word = some instruction) :
    (set.decode word).violations = instruction.violations ⟨word, instruction.format⟩ := by
  rw [decode_of_identify? h]
  split
  . next hnil => rw [hnil]; rfl
  . rfl

theorem exists_decode_eq_legal_iff (h : set.identify? word = some instruction) :
    (∃ disassembly, set.decode word = .legal disassembly) ↔
      instruction.violations ⟨word, instruction.format⟩ = [] := by
  rw [decode_of_identify? h]
  split
  . next hnil => simp [hnil]
  . next hne => simp [hne]

theorem decode_eq_legal_iff_of_identify? (h : set.identify? word = some instruction)
    {disassembly : Disassembly} (hdisassembly : (set.decode word).disassembly? = some disassembly) :
    set.decode word = .legal disassembly ↔
      instruction.violations ⟨word, instruction.format⟩ = [] := by
  rw [decode_of_identify? h] at hdisassembly ⊢
  split
  . next hnil =>
    rw [if_pos hnil] at hdisassembly
    cases hdisassembly
    simp [hnil]
  . next hne => simp [hne]

theorem decode_eq_illegal_iff {disassembly : Disassembly} {violations : List Violation} :
    set.decode word = .illegal disassembly violations ↔
      ∃ instruction, set.identify? word = some instruction
        ∧ instruction.violations ⟨word, instruction.format⟩ = violations
        ∧ violations ≠ []
        ∧ disassembly
          = ⟨⟨word, instruction.format⟩, instruction.canonical ⟨word, instruction.format⟩⟩ := by
  constructor
  . intro hillegal
    obtain ⟨_, _, h⟩ | ⟨_, _, _, h⟩ | ⟨_, _, _, h⟩ | ⟨instruction, hidentify, hne, h⟩ :=
      set.decode_cases word
    all_goals rw [hillegal] at h
    . contradiction
    . contradiction
    . contradiction
    . rw [Decoding.illegal.injEq] at h
      obtain ⟨hdisassembly, rfl⟩ := h
      exact ⟨instruction, hidentify, rfl, hne, hdisassembly⟩
  . rintro ⟨instruction, hidentify, rfl, hne, rfl⟩
    rw [decode_of_identify? hidentify, if_neg hne]

end InstructionSet

end Mips32
